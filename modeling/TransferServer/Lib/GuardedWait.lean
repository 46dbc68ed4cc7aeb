import Mathlib.Logic.Function.Basic
import TransferServer.Lib.Monitor

/-! Waiting with a monitor until a shared value opens. A wait tests the value with the mutex and
sleeps while it is closed; an update changes the value with the mutex, and some updates notify. -/

set_option autoImplicit false

namespace TransferServer.Lib

universe u v w x

/-- What is waited for, and what the updates do to it. -/
structure Guard (Shared : Type u) (Update : Type v) (Error : Type w) where
  opens : Shared → Bool
  apply : Update → Shared → Except Error Shared
  /-- Whether an update notifies that has made the value this one. -/
  notifies : Update → Shared → Bool
  /-- Whether it wakes every waiter or one. -/
  all : Bool

namespace Guard

variable {Shared : Type u} {Update : Type v} {Error : Type w}

/-- What is open stays open, and no update opens the value without a notification. -/
structure Lawful (guard : Guard Shared Update Error) : Prop where
  stays : ∀ {update shared shared'}, guard.apply update shared = .ok shared' →
    guard.opens shared = true → guard.opens shared' = true
  tells : ∀ {update shared shared'}, guard.apply update shared = .ok shared' →
    guard.opens shared = false → guard.opens shared' = true → guard.notifies update shared' = true

end Guard

inductive Job (Update : Type v) where
  | wait
  | update (update : Update)
  deriving DecidableEq, Repr

/-- Where a thread stands in a job. -/
inductive Place (Update : Type v) where
  | outside
  | locking (job : Job Update)
  /-- With the mutex, before the test or the update. -/
  | inside (job : Job Update)
  | asleep
  | notifying (update : Update)
  | leaving (job : Job Update)
  deriving DecidableEq, Repr

namespace Place

variable {Update : Type v}

/-- With the mutex. -/
def Holds : Place Update → Prop
  | .inside _ | .notifying _ | .leaving _ => True
  | _ => False

def job? : Place Update → Option (Job Update)
  | .outside => none
  | .locking job | .inside job | .leaving job => some job
  | .asleep => some .wait
  | .notifying update => some (.update update)

/-- The update that has not been made yet. -/
def pending? : Place Update → Option Update
  | .locking (.update update) | .inside (.update update) => some update
  | _ => none

/-- The steps that are left once the value is open. -/
def weight : Place Update → Nat
  | .outside => 0
  | .locking _ | .asleep => 4
  | .inside _ => 3
  | .notifying _ => 2
  | .leaving _ => 1

theorem job?_eq_none_iff {place : Place Update} : place.job? = none ↔ place = .outside := by
  cases place <;> simp [job?]

theorem weight_le (place : Place Update) : place.weight ≤ 4 := by
  cases place <;> dsimp only [weight] <;> omega

end Place

structure GuardedWait (Thread : Type x) (Shared : Type u) (Update : Type v) where
  monitor : Monitor Thread Unit
  place : Thread → Place Update
  shared : Shared

namespace GuardedWait

inductive Action (Thread : Type x) (Update : Type v) where
  | call (thread : Thread) (job : Job Update)
  | lock (thread : Thread)
  /-- The wait returns where the value is open and sleeps where it is closed. -/
  | test (thread : Thread)
  | update (thread : Thread) (update : Update)
  | notify (thread : Thread) (woken : Option Thread)
  | stray (thread : Thread)
  | resume (thread : Thread)
  | unlock (thread : Thread)
  deriving DecidableEq, Repr

variable {Thread : Type x} {Shared : Type u} {Update : Type v} {Error : Type w}

def Action.thread : Action Thread Update → Thread
  | .call thread _ | .lock thread | .test thread | .update thread _ | .notify thread _
  | .stray thread | .resume thread | .unlock thread => thread

/-- What a thread does in a job it has begun. -/
def Action.Own : Action Thread Update → Prop
  | .call _ _ | .stray _ => False
  | _ => True

instance (action : Action Thread Update) : Decidable action.Own := by
  cases action <;> dsimp only [Action.Own] <;> infer_instance

def start (shared : Shared) : GuardedWait Thread Shared Update := ⟨.start, fun _ => .outside, shared⟩

variable [DecidableEq Thread]

def move (state : GuardedWait Thread Shared Update) (thread : Thread) (place : Place Update) :
    GuardedWait Thread Shared Update :=
  { state with place := Function.update state.place thread place }

def waiter (thread : Thread) : Waiter Thread Unit := ⟨thread, (), false⟩

/-- The event of the monitor in `notify`. -/
def notification (guard : Guard Shared Update Error) (woken : Option Thread) :
    Monitor.Event Thread Unit :=
  if guard.all then .broadcast () else .signal () (woken.map waiter)

variable (guard : Guard Shared Update Error) (impossible : Error)

/-- An event of the monitor, where it can happen. -/
def event (state : GuardedWait Thread Shared Update) (event : Monitor.Event Thread Unit) :
    Except Error (GuardedWait Thread Shared Update) :=
  if state.monitor.Enabled event then .ok { state with monitor := state.monitor.next event }
  else .error impossible

def step [DecidableEq Update] (state : GuardedWait Thread Shared Update) :
    Action Thread Update → Except Error (GuardedWait Thread Shared Update)
  | .call thread job =>
      match state.place thread with
      | .outside => .ok (state.move thread (.locking job))
      | _ => .error impossible
  | .lock thread =>
      match state.place thread with
      | .locking job => (state.move thread (.inside job)).event impossible (.acquire thread)
      | _ => .error impossible
  | .test thread =>
      match state.place thread with
      | .inside .wait =>
          if guard.opens state.shared then .ok (state.move thread (.leaving .wait))
          else (state.move thread .asleep).event impossible (.wait (waiter thread))
      | _ => .error impossible
  | .update thread update =>
      if state.place thread = .inside (.update update) then
        match guard.apply update state.shared with
        | .ok shared =>
            .ok ({ state with shared }.move thread
              (if guard.notifies update shared then .notifying update else .leaving (.update update)))
        | .error error => .error error
      else .error impossible
  | .notify thread woken =>
      match state.place thread with
      | .notifying update =>
          (state.move thread (.leaving (.update update))).event impossible (notification guard woken)
      | _ => .error impossible
  | .stray thread => state.event impossible (.stray (waiter thread))
  | .resume thread =>
      match state.place thread with
      | .asleep => (state.move thread (.inside .wait)).event impossible (.resume thread)
      | _ => .error impossible
  | .unlock thread =>
      match state.place thread with
      | .leaving _ => (state.move thread .outside).event impossible (.release thread)
      | _ => .error impossible

variable {guard} {impossible} {state after : GuardedWait Thread Shared Update}
variable {action : Action Thread Update} {thread : Thread}

theorem event_eq_ok {event : Monitor.Event Thread Unit} :
    state.event impossible event = .ok after ↔
      state.monitor.Enabled event ∧ after = { state with monitor := state.monitor.next event } := by
  unfold GuardedWait.event
  split
  · next enabled => simp [enabled, eq_comm]
  · next disabled => simp [disabled]

/-- What each action can do. -/
def Moves (guard : Guard Shared Update Error) (state after : GuardedWait Thread Shared Update) :
    Action Thread Update → Prop
  | .call thread job => state.place thread = .outside ∧ after = state.move thread (.locking job)
  | .lock thread => ∃ job, state.place thread = .locking job ∧
      state.monitor.Enabled (.acquire thread) ∧
      after = ⟨state.monitor.next (.acquire thread),
        Function.update state.place thread (.inside job), state.shared⟩
  | .test thread => state.place thread = .inside .wait ∧
      ((guard.opens state.shared = true ∧ after = state.move thread (.leaving .wait)) ∨
        (guard.opens state.shared = false ∧ state.monitor.Enabled (.wait (waiter thread)) ∧
          after = ⟨state.monitor.next (.wait (waiter thread)),
            Function.update state.place thread .asleep, state.shared⟩))
  | .update thread update => ∃ shared, state.place thread = .inside (.update update) ∧
      guard.apply update state.shared = .ok shared ∧
      after = ⟨state.monitor, Function.update state.place thread
        (if guard.notifies update shared then .notifying update else .leaving (.update update)), shared⟩
  | .notify thread woken => ∃ update, state.place thread = .notifying update ∧
      state.monitor.Enabled (notification guard woken) ∧
      after = ⟨state.monitor.next (notification guard woken),
        Function.update state.place thread (.leaving (.update update)), state.shared⟩
  | .stray thread => state.monitor.Enabled (.stray (waiter thread)) ∧
      after = { state with monitor := state.monitor.next (.stray (waiter thread)) }
  | .resume thread => state.place thread = .asleep ∧ state.monitor.Enabled (.resume thread) ∧
      after = ⟨state.monitor.next (.resume thread),
        Function.update state.place thread (.inside .wait), state.shared⟩
  | .unlock thread => ∃ job, state.place thread = .leaving job ∧
      state.monitor.Enabled (.release thread) ∧
      after = ⟨state.monitor.next (.release thread),
        Function.update state.place thread .outside, state.shared⟩

/-- The mutex and the queue agree with the places of the threads. -/
structure Sound (state : GuardedWait Thread Shared Update) : Prop where
  distinct : state.monitor.Distinct
  owner : ∀ thread, state.monitor.owner = some thread ↔ (state.place thread).Holds
  parked : ∀ thread, thread ∈ state.monitor.parked ↔ state.place thread = .asleep
  plain : ∀ other ∈ state.monitor.waiters, other = waiter other.thread

omit [DecidableEq Thread] in
theorem start_sound (shared : Shared) : (start shared : GuardedWait Thread Shared Update).Sound where
  distinct := Monitor.distinct_start
  owner := fun _ => by simp [start, Monitor.start, Place.Holds]
  parked := fun _ => by simp [start, Monitor.start, Monitor.parked]
  plain := nofun

omit [DecidableEq Thread] in
theorem notification_wakes (guard : Guard Shared Update Error) (woken : Option Thread) :
    (notification guard woken).Wakes := by
  unfold notification
  split <;> trivial

/-- A wakeup leaves the mutex as it is, and every thread where it is. -/
theorem Sound.wakes {event : Monitor.Event Thread Unit} (sound : state.Sound)
    (enabled : state.monitor.Enabled event) (wakes : event.Wakes) :
    ({ state with monitor := state.monitor.next event } : GuardedWait Thread Shared Update).Sound := by
  obtain ⟨distinct, owner, parked, plain⟩ := sound
  obtain ⟨same, moved⟩ := Monitor.next_of_wakes enabled wakes
  refine ⟨distinct.next enabled, fun thread => ?_, fun thread => ?_, fun other present => ?_⟩
  · rw [same]
    exact owner thread
  · rw [moved.mem_iff]
    exact parked thread
  · exact plain other (Monitor.mem_waiters_of_wakes wakes present)

/-- A thread goes from one place to another with or without the mutex. -/
theorem Sound.relocate {place : Place Update} (sound : state.Sound)
    (holds : place.Holds ↔ (state.place thread).Holds)
    (sleeps : place = .asleep ↔ state.place thread = .asleep) (shared : Shared) :
    (⟨state.monitor, Function.update state.place thread place, shared⟩ :
      GuardedWait Thread Shared Update).Sound := by
  obtain ⟨distinct, owner, parked, plain⟩ := sound
  refine ⟨distinct, fun other => ?_, fun other => ?_, plain⟩
  · by_cases same : other = thread
    · simpa only [same, Function.update_self, holds] using owner thread
    · simpa only [Function.update_of_ne same] using owner other
  · by_cases same : other = thread
    · simpa only [same, Function.update_self, sleeps] using parked thread
    · simpa only [Function.update_of_ne same] using parked other

theorem Sound.lock {job : Job Update} (sound : state.Sound) (standing : state.place thread = .locking job)
    (enabled : state.monitor.Enabled (.acquire thread)) :
    (⟨state.monitor.next (.acquire thread), Function.update state.place thread (.inside job),
      state.shared⟩ : GuardedWait Thread Shared Update).Sound := by
  obtain ⟨distinct, owner, parked, plain⟩ := sound
  refine ⟨distinct.next enabled, fun other => ?_, fun other => ?_, plain⟩
  · by_cases same : other = thread
    · simp [same, Monitor.next, Place.Holds]
    · have free := owner other
      rw [enabled.1] at free
      simpa [Function.update_of_ne same, Monitor.next, Ne.symm same] using free
  · by_cases same : other = thread
    · have there := parked thread
      rw [standing] at there
      simpa [same, Monitor.next, Monitor.parked] using there
    · dsimp only
      rw [Function.update_of_ne same]
      exact parked other

theorem Sound.unlock (sound : state.Sound) (enabled : state.monitor.Enabled (.release thread)) :
    (⟨state.monitor.next (.release thread), Function.update state.place thread .outside,
      state.shared⟩ : GuardedWait Thread Shared Update).Sound := by
  obtain ⟨distinct, owner, parked, plain⟩ := sound
  have owns : state.monitor.owner = some thread := enabled
  refine ⟨distinct.next enabled, fun other => ?_, fun other => ?_, plain⟩
  · by_cases same : other = thread
    · simp [same, Monitor.next, Place.Holds]
    · have free := owner other
      rw [owns] at free
      simpa [Function.update_of_ne same, Monitor.next, Ne.symm same] using free
  · by_cases same : other = thread
    · have there := parked thread
      have awake : state.place thread ≠ .asleep := fun sleeps => by
        have holds := (owner thread).mp owns
        rw [sleeps] at holds
        exact holds
      simpa [same, Monitor.next, Monitor.parked, awake] using there
    · dsimp only
      rw [Function.update_of_ne same]
      exact parked other

theorem Sound.sleep (sound : state.Sound) (enabled : state.monitor.Enabled (.wait (waiter thread))) :
    (⟨state.monitor.next (.wait (waiter thread)), Function.update state.place thread .asleep,
      state.shared⟩ : GuardedWait Thread Shared Update).Sound := by
  obtain ⟨distinct, owner, parked, plain⟩ := sound
  have owns : state.monitor.owner = some thread := enabled
  refine ⟨distinct.next enabled, fun other => ?_, fun other => ?_, ?_⟩
  · by_cases same : other = thread
    · simp [same, Monitor.next, Place.Holds]
    · have free := owner other
      rw [owns] at free
      simpa [Function.update_of_ne same, Monitor.next, Ne.symm same] using free
  · by_cases same : other = thread
    · simp [same, Monitor.next, Monitor.parked, waiter]
    · have there := parked other
      simpa [Function.update_of_ne same, Monitor.next, Monitor.parked, waiter, same] using there
  · exact List.forall_mem_cons.mpr ⟨rfl, plain⟩

theorem Sound.resume (sound : state.Sound) (enabled : state.monitor.Enabled (.resume thread)) :
    (⟨state.monitor.next (.resume thread), Function.update state.place thread (.inside .wait),
      state.shared⟩ : GuardedWait Thread Shared Update).Sound := by
  obtain ⟨distinct, owner, parked, plain⟩ := sound
  have remaining := Monitor.mem_parked_resume distinct enabled.2
  refine ⟨distinct.next enabled, fun other => ?_, fun other => ?_, plain⟩
  · by_cases same : other = thread
    · simp [same, Monitor.next, Place.Holds]
    · have free := owner other
      rw [enabled.1] at free
      simpa [Function.update_of_ne same, Monitor.next, Ne.symm same] using free
  · rw [remaining]
    by_cases same : other = thread
    · simp [same]
    · simpa [Function.update_of_ne same, same] using parked other

variable [DecidableEq Update]

theorem moves_of_step (stepped : state.step guard impossible action = .ok after) :
    Moves guard state after action := by
  cases action with
  | call thread job =>
      dsimp only [step] at stepped
      split at stepped
      · next standing =>
          cases stepped
          exact ⟨standing, rfl⟩
      · cases stepped
  | lock thread =>
      dsimp only [step] at stepped
      split at stepped
      · next job standing => exact ⟨job, standing, event_eq_ok.mp stepped⟩
      · cases stepped
  | test thread =>
      dsimp only [step] at stepped
      split at stepped
      · next standing =>
          split at stepped
          · next opened =>
              cases stepped
              exact ⟨standing, .inl ⟨opened, rfl⟩⟩
          · next closed =>
              exact ⟨standing, .inr ⟨Bool.eq_false_iff.mpr closed, event_eq_ok.mp stepped⟩⟩
      · cases stepped
  | update thread update =>
      dsimp only [step] at stepped
      split at stepped
      · next standing =>
          split at stepped
          · next shared applied =>
              cases stepped
              exact ⟨shared, standing, applied, rfl⟩
          · cases stepped
      · cases stepped
  | notify thread woken =>
      dsimp only [step] at stepped
      split at stepped
      · next update standing => exact ⟨update, standing, event_eq_ok.mp stepped⟩
      · cases stepped
  | stray thread => exact event_eq_ok.mp stepped
  | resume thread =>
      dsimp only [step] at stepped
      split at stepped
      · next standing => exact ⟨standing, event_eq_ok.mp stepped⟩
      · cases stepped
  | unlock thread =>
      dsimp only [step] at stepped
      split at stepped
      · next job standing => exact ⟨job, standing, event_eq_ok.mp stepped⟩
      · cases stepped

theorem step_of_moves (impossible : Error) (moves : Moves guard state after action) :
    state.step guard impossible action = .ok after := by
  cases action with
  | call thread job =>
      obtain ⟨standing, rfl⟩ := moves
      rw [step, standing]
  | lock thread =>
      obtain ⟨job, standing, moved⟩ := moves
      rw [step, standing]
      exact event_eq_ok.mpr moved
  | test thread =>
      obtain ⟨standing, ⟨opened, rfl⟩ | ⟨closed, moved⟩⟩ := moves
      · rw [step, standing]
        exact if_pos opened
      · rw [step, standing]
        exact (if_neg (Bool.eq_false_iff.mp closed)).trans (event_eq_ok.mpr moved)
  | update thread update =>
      obtain ⟨shared, standing, applied, rfl⟩ := moves
      rw [step, if_pos standing, applied]
      rfl
  | notify thread woken =>
      obtain ⟨update, standing, moved⟩ := moves
      rw [step, standing]
      exact event_eq_ok.mpr moved
  | stray thread => exact event_eq_ok.mpr moves
  | resume thread =>
      obtain ⟨standing, moved⟩ := moves
      rw [step, standing]
      exact event_eq_ok.mpr moved
  | unlock thread =>
      obtain ⟨job, standing, moved⟩ := moves
      rw [step, standing]
      exact event_eq_ok.mpr moved

theorem step_eq_ok : state.step guard impossible action = .ok after ↔
    Moves guard state after action :=
  ⟨moves_of_step, step_of_moves impossible⟩

theorem Sound.step (sound : state.Sound) (stepped : state.step guard impossible action = .ok after) :
    after.Sound := by
  have moves := step_eq_ok.mp stepped
  cases action with
  | call thread job =>
      obtain ⟨standing, rfl⟩ := moves
      exact sound.relocate (by simp [standing, Place.Holds]) (by simp [standing]) _
  | lock thread =>
      obtain ⟨job, standing, enabled, rfl⟩ := moves
      exact sound.lock standing enabled
  | test thread =>
      obtain ⟨standing, ⟨_, rfl⟩ | ⟨_, enabled, rfl⟩⟩ := moves
      · exact sound.relocate (by simp [standing, Place.Holds]) (by simp [standing]) _
      · exact sound.sleep enabled
  | update thread update =>
      obtain ⟨shared, standing, _, rfl⟩ := moves
      refine sound.relocate ?_ ?_ shared
      · split <;> simp [standing, Place.Holds]
      · split <;> simp [standing]
  | notify thread woken =>
      obtain ⟨update, standing, enabled, rfl⟩ := moves
      have woke := sound.wakes enabled (notification_wakes guard woken)
      exact woke.relocate (by simp [standing, Place.Holds]) (by simp [standing]) _
  | stray thread =>
      obtain ⟨enabled, rfl⟩ := moves
      exact sound.wakes enabled trivial
  | resume thread =>
      obtain ⟨_, enabled, rfl⟩ := moves
      exact sound.resume enabled
  | unlock thread =>
      obtain ⟨_, _, enabled, rfl⟩ := moves
      exact sound.unlock enabled

theorem place_step (stepped : state.step guard impossible action = .ok after) {other : Thread}
    (apart : other ≠ action.thread) : after.place other = state.place other := by
  have moves := step_eq_ok.mp stepped
  cases action with
  | call thread job =>
      obtain ⟨_, rfl⟩ := moves
      exact Function.update_of_ne apart _ _
  | lock thread =>
      obtain ⟨job, _, _, rfl⟩ := moves
      exact Function.update_of_ne apart _ _
  | test thread =>
      obtain ⟨_, ⟨_, rfl⟩ | ⟨_, _, rfl⟩⟩ := moves
      · exact Function.update_of_ne apart _ _
      · exact Function.update_of_ne apart _ _
  | update thread update =>
      obtain ⟨shared, _, _, rfl⟩ := moves
      exact Function.update_of_ne apart _ _
  | notify thread woken =>
      obtain ⟨update, _, _, rfl⟩ := moves
      exact Function.update_of_ne apart _ _
  | stray thread =>
      obtain ⟨_, rfl⟩ := moves
      rfl
  | resume thread =>
      obtain ⟨_, _, rfl⟩ := moves
      exact Function.update_of_ne apart _ _
  | unlock thread =>
      obtain ⟨_, _, _, rfl⟩ := moves
      exact Function.update_of_ne apart _ _

/-- Only a call begins a job, and only the release of the mutex ends one. -/
theorem job_step (stepped : state.step guard impossible action = .ok after) (other : Thread) :
    (after.place other).job? = (state.place other).job? ∨
      (∃ job, action = .call other job ∧ (after.place other).job? = some job) ∨
      (action = .unlock other ∧ (after.place other).job? = none) := by
  by_cases same : other = action.thread
  · subst same
    have moves := step_eq_ok.mp stepped
    cases action with
    | call thread job =>
        obtain ⟨_, rfl⟩ := moves
        exact .inr (.inl ⟨job, rfl, by simp [move, Action.thread, Place.job?]⟩)
    | lock thread =>
        obtain ⟨job, standing, _, rfl⟩ := moves
        exact .inl (by simp [Action.thread, standing, Place.job?])
    | test thread =>
        obtain ⟨standing, ⟨_, rfl⟩ | ⟨_, _, rfl⟩⟩ := moves
        · exact .inl (by simp [move, Action.thread, standing, Place.job?])
        · exact .inl (by simp [Action.thread, standing, Place.job?])
    | update thread update =>
        obtain ⟨shared, standing, _, rfl⟩ := moves
        refine .inl ?_
        simp only [Action.thread, Function.update_self, standing]
        split <;> rfl
    | notify thread woken =>
        obtain ⟨update, standing, _, rfl⟩ := moves
        exact .inl (by simp [Action.thread, standing, Place.job?])
    | stray thread =>
        obtain ⟨_, rfl⟩ := moves
        exact .inl rfl
    | resume thread =>
        obtain ⟨standing, _, rfl⟩ := moves
        exact .inl (by simp [Action.thread, standing, Place.job?])
    | unlock thread =>
        obtain ⟨job, _, _, rfl⟩ := moves
        exact .inr (.inr ⟨rfl, by simp [Action.thread, Place.job?]⟩)
  · exact .inl (by rw [place_step stepped same])

theorem pending_step (stepped : state.step guard impossible action = .ok after) {other : Thread}
    {update : Update} (pending : (after.place other).pending? = some update) :
    action = .call other (.update update) ∨ (state.place other).pending? = some update ∧
      action ≠ .update other update := by
  by_cases same : other = action.thread
  · subst same
    have moves := step_eq_ok.mp stepped
    cases action with
    | call thread job =>
        obtain ⟨_, rfl⟩ := moves
        simp only [move, Action.thread, Function.update_self] at pending
        cases job with
        | wait => cases pending
        | update update =>
            cases pending
            exact .inl rfl
    | lock thread =>
        obtain ⟨job, standing, _, rfl⟩ := moves
        simp only [Action.thread, Function.update_self] at pending
        refine .inr ⟨?_, nofun⟩
        cases job with
        | wait => cases pending
        | update update =>
            rw [Action.thread, standing]
            exact pending
    | test thread =>
        obtain ⟨_, ⟨_, rfl⟩ | ⟨_, _, rfl⟩⟩ := moves
        · simp [move, Action.thread, Place.pending?] at pending
        · simp [Action.thread, Place.pending?] at pending
    | update thread made =>
        obtain ⟨shared, _, _, rfl⟩ := moves
        simp only [Action.thread, Function.update_self] at pending
        split at pending
        · cases pending
        · cases pending
    | notify thread woken =>
        obtain ⟨_, _, _, rfl⟩ := moves
        simp [Action.thread, Place.pending?] at pending
    | stray thread =>
        obtain ⟨_, rfl⟩ := moves
        exact .inr ⟨pending, nofun⟩
    | resume thread =>
        obtain ⟨_, _, rfl⟩ := moves
        simp [Action.thread, Place.pending?] at pending
    | unlock thread =>
        obtain ⟨_, _, _, rfl⟩ := moves
        simp [Action.thread, Place.pending?] at pending
  · rw [place_step stepped same] at pending
    refine .inr ⟨pending, ?_⟩
    rintro rfl
    exact same rfl

theorem shared_step (stepped : state.step guard impossible action = .ok after)
    (other : ∀ thread update, action ≠ .update thread update) : after.shared = state.shared := by
  have moves := step_eq_ok.mp stepped
  cases action with
  | update thread update => exact absurd rfl (other thread update)
  | call thread job =>
      obtain ⟨_, rfl⟩ := moves
      rfl
  | lock thread =>
      obtain ⟨_, _, _, rfl⟩ := moves
      rfl
  | test thread =>
      obtain ⟨_, ⟨_, rfl⟩ | ⟨_, _, rfl⟩⟩ := moves
      · rfl
      · rfl
  | notify thread woken =>
      obtain ⟨_, _, _, rfl⟩ := moves
      rfl
  | stray thread =>
      obtain ⟨_, rfl⟩ := moves
      rfl
  | resume thread =>
      obtain ⟨_, _, rfl⟩ := moves
      rfl
  | unlock thread =>
      obtain ⟨_, _, _, rfl⟩ := moves
      rfl

end GuardedWait

end TransferServer.Lib
