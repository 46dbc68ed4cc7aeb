import Mathlib.Algebra.GroupWithZero.Nat
import Mathlib.Algebra.Order.BigOperators.Group.List
import Mathlib.Algebra.Order.Group.Nat
import Mathlib.Data.List.Dedup
import TransferServer.Lib.Execution
import TransferServer.Lib.GuardedWait

/-! Waits that end. No wakeup is lost: once the value is open nobody sleeps, unless the thread that
opened it is about to notify, and so every job that has been begun comes to its end. -/

set_option autoImplicit false

namespace TransferServer.Lib

universe u v w x

namespace GuardedWait

variable {Thread : Type x} {Shared : Type u} {Update : Type v} {Error : Type w}
variable [DecidableEq Thread] [DecidableEq Update] {guard : Guard Shared Update Error} {impossible : Error}
variable {state after : GuardedWait Thread Shared Update} {action : Action Thread Update}
variable {thread : Thread} {sleeper : Option Thread}

/-- A signal wakes one thread only, so where updates signal there is one that waits. -/
def Few (guard : Guard Shared Update Error) (sleeper : Option Thread)
    (state : GuardedWait Thread Shared Update) : Prop :=
  guard.all = false → ∀ thread, (state.place thread).job? = some .wait → sleeper = some thread

def Calls (guard : Guard Shared Update Error) (sleeper : Option Thread)
    (action : Action Thread Update) : Prop :=
  guard.all = false → ∀ thread, action = .call thread .wait → sleeper = some thread

theorem Few.step (few : Few guard sleeper state) (calls : Calls guard sleeper action)
    (stepped : state.step guard impossible action = .ok after) : Few guard sleeper after := by
  intro one other waits
  rcases job_step stepped other with same | ⟨job, began, begun⟩ | ⟨_, ended⟩
  · exact few one other (same.symm.trans waits)
  · rw [begun] at waits
    cases waits
    exact calls one other began
  · cases ended.symm.trans waits

/-- While the value is open nobody sleeps, unless the thread that opened it is about to notify. -/
def Told (guard : Guard Shared Update Error) (state : GuardedWait Thread Shared Update) : Prop :=
  guard.opens state.shared = true →
    state.monitor.waiters = [] ∨ ∃ thread update, state.place thread = .notifying update

omit [DecidableEq Update] in
/-- A notification leaves nobody asleep. -/
theorem waiters_notification (sound : state.Sound) (few : Few guard sleeper state)
    {woken : Option Thread} (enabled : state.monitor.Enabled (notification guard woken)) :
    (state.monitor.next (notification guard woken)).waiters = [] := by
  have nodup : state.monitor.waiters.Nodup :=
    List.Nodup.of_map _ (sound.distinct.sublist
      ((List.sublist_append_left _ _).trans (List.sublist_append_right _ _)))
  unfold notification at enabled ⊢
  cases all : guard.all with
  | true => simp [Monitor.next, Monitor.wakeAll]
  | false =>
      rw [all] at enabled
      cases woken with
      | none =>
          refine List.eq_nil_iff_forall_not_mem.mpr fun other present => ?_
          exact (enabled : ∀ other ∈ state.monitor.waiters, other.cond ≠ ()) other present rfl
      | some thread =>
          obtain ⟨blocked, _⟩ : waiter thread ∈ state.monitor.waiters ∧ () = () := enabled
          have lone : ∀ other ∈ state.monitor.waiters, sleeper = some other.thread := by
            intro other present
            have asleep := (sound.parked other.thread).mp
              (List.mem_append_left _ (List.mem_map_of_mem present))
            exact few all other.thread (by rw [asleep]; rfl)
          refine List.eq_nil_iff_forall_not_mem.mpr fun other present => ?_
          obtain ⟨apart, present⟩ := nodup.mem_erase_iff.mp present
          have same := (lone other present).symm.trans (lone _ blocked)
          refine apart ?_
          rw [sound.plain other present, Option.some.inj same]
          rfl

omit [DecidableEq Thread] [DecidableEq Update] in
theorem Told.keep (told : Told guard state) (shared : after.shared = state.shared)
    (waiters : ∀ other ∈ after.monitor.waiters, other ∈ state.monitor.waiters)
    (others : ∀ other, other ≠ thread → after.place other = state.place other)
    (quiet : ∀ update, state.place thread ≠ .notifying update) : Told guard after := by
  intro opened
  rw [shared] at opened
  rcases told opened with none | ⟨other, update, notifying⟩
  · rw [none] at waiters
    exact .inl (List.eq_nil_iff_forall_not_mem.mpr fun other present => nomatch waiters other present)
  · have apart : other ≠ thread := fun same => quiet update (same ▸ notifying)
    exact .inr ⟨other, update, (others other apart).trans notifying⟩

theorem Told.step (lawful : guard.Lawful) (sound : state.Sound) (few : Few guard sleeper state)
    (told : Told guard state) (stepped : state.step guard impossible action = .ok after) :
    Told guard after := by
  have others := fun other (apart : other ≠ _) => place_step stepped apart
  have moves := step_eq_ok.mp stepped
  cases action with
  | call thread job =>
      obtain ⟨standing, rfl⟩ := moves
      exact told.keep rfl (fun _ => id) others (by simp [Action.thread, standing])
  | lock thread =>
      obtain ⟨job, standing, _, rfl⟩ := moves
      exact told.keep rfl (fun _ => id) others (by simp [Action.thread, standing])
  | test thread =>
      obtain ⟨standing, ⟨_, rfl⟩ | ⟨closed, _, rfl⟩⟩ := moves
      · exact told.keep rfl (fun _ => id) others (by simp [Action.thread, standing])
      · intro opened
        cases closed.symm.trans opened
  | update thread update =>
      obtain ⟨shared, standing, applied, rfl⟩ := moves
      intro opened
      cases before : guard.opens state.shared with
      | true =>
          have quiet : ∀ update, state.place thread ≠ .notifying update := by simp [standing]
          rcases told before with none | ⟨other, update, notifying⟩
          · exact .inl none
          · have apart : other ≠ thread := fun same => quiet update (same ▸ notifying)
            exact .inr ⟨other, update, (others other apart).trans notifying⟩
      | false =>
          refine .inr ⟨thread, update, ?_⟩
          dsimp only
          rw [Function.update_self, if_pos (lawful.tells applied before opened)]
  | notify thread woken =>
      obtain ⟨update, _, enabled, rfl⟩ := moves
      exact fun _ => .inl (waiters_notification sound few enabled)
  | stray thread =>
      obtain ⟨enabled, rfl⟩ := moves
      have asleep : state.place thread = .asleep :=
        (sound.parked thread).mp (List.mem_append_left _ (List.mem_map_of_mem enabled))
      exact told.keep rfl (fun _ => List.mem_of_mem_erase) others (by simp [Action.thread, asleep])
  | resume thread =>
      obtain ⟨standing, _, rfl⟩ := moves
      exact told.keep rfl (fun _ => id) others (by simp [Action.thread, standing])
  | unlock thread =>
      obtain ⟨job, standing, _, rfl⟩ := moves
      exact told.keep rfl (fun _ => id) others (by simp [Action.thread, standing])

/-- What a wait that comes to its end has seen. -/
def Seen (guard : Guard Shared Update Error) (state : GuardedWait Thread Shared Update) : Prop :=
  ∀ thread, state.place thread = .leaving .wait → guard.opens state.shared = true

theorem opens_step (lawful : guard.Lawful) (stepped : state.step guard impossible action = .ok after)
    (opened : guard.opens state.shared = true) : guard.opens after.shared = true := by
  by_cases updates : ∃ thread update, action = .update thread update
  · obtain ⟨thread, update, rfl⟩ := updates
    obtain ⟨_, _, applied, rfl⟩ := step_eq_ok.mp stepped
    exact lawful.stays applied opened
  · rw [shared_step stepped fun thread update same => updates ⟨thread, update, same⟩]
    exact opened

theorem Seen.step (lawful : guard.Lawful) (seen : Seen guard state)
    (stepped : state.step guard impossible action = .ok after) : Seen guard after := by
  intro other leaving
  apply opens_step lawful stepped
  by_cases same : other = action.thread
  · subst same
    have moves := step_eq_ok.mp stepped
    cases action with
    | test thread =>
        obtain ⟨_, ⟨opened, _⟩ | ⟨_, _, rfl⟩⟩ := moves
        · exact opened
        · simp [Action.thread] at leaving
    | call thread job =>
        obtain ⟨_, rfl⟩ := moves
        simp [move, Action.thread] at leaving
    | lock thread =>
        obtain ⟨_, _, _, rfl⟩ := moves
        simp [Action.thread] at leaving
    | update thread update =>
        obtain ⟨_, _, _, rfl⟩ := moves
        simp only [Action.thread, Function.update_self] at leaving
        split at leaving
        · cases leaving
        · cases leaving
    | notify thread woken =>
        obtain ⟨_, _, _, rfl⟩ := moves
        simp [Action.thread] at leaving
    | stray thread =>
        obtain ⟨_, rfl⟩ := moves
        exact seen _ leaving
    | resume thread =>
        obtain ⟨_, _, rfl⟩ := moves
        simp [Action.thread] at leaving
    | unlock thread =>
        obtain ⟨_, _, _, rfl⟩ := moves
        simp [Action.thread] at leaving
  · rw [place_step stepped same] at leaving
    exact seen other leaving

/-- The thread stands before an update that fails. -/
def Stuck (guard : Guard Shared Update Error) (state : GuardedWait Thread Shared Update)
    (thread : Thread) : Prop :=
  ∃ update error, state.place thread = .inside (.update update) ∧
    guard.apply update state.shared = .error error

/-- With the value open some thread goes on with its job, if one has not been done yet. -/
theorem progress (guard : Guard Shared Update Error) (impossible : Error) (sound : state.Sound)
    (told : Told guard state) (opened : guard.opens state.shared = true)
    (begun : ∃ thread, state.place thread ≠ .outside) :
    (∃ thread, Stuck guard state thread) ∨
      ∃ action after, Action.Own action ∧ state.step guard impossible action = .ok after := by
  have goes : ∀ action {after}, Action.Own action → Moves guard state after action →
      (∃ thread, Stuck guard state thread) ∨
        ∃ action after, Action.Own action ∧ state.step guard impossible action = .ok after :=
    fun action _ own moves => .inr ⟨action, _, own, step_eq_ok.mpr moves⟩
  cases owner : state.monitor.owner with
  | some thread =>
      have holds := (sound.owner thread).mp owner
      cases standing : state.place thread with
      | inside job =>
          cases job with
          | wait => exact goes (.test thread) trivial ⟨standing, .inl ⟨opened, rfl⟩⟩
          | update update =>
              cases applied : guard.apply update state.shared with
              | ok shared =>
                  exact goes (.update thread update) trivial ⟨shared, standing, applied, rfl⟩
              | error error => exact .inl ⟨thread, update, error, standing, applied⟩
      | notifying update =>
          obtain ⟨woken, enabled⟩ : ∃ woken, state.monitor.Enabled (notification guard woken) := by
            unfold notification
            cases guard.all with
            | true => exact ⟨none, trivial⟩
            | false =>
                cases queue : state.monitor.waiters with
                | nil => exact ⟨none, fun other present => by simp [queue] at present⟩
                | cons first rest =>
                    have present : first ∈ state.monitor.waiters := by simp [queue]
                    exact ⟨some first.thread, sound.plain first present ▸ present, rfl⟩
          exact goes (.notify thread woken) trivial ⟨update, standing, enabled, rfl⟩
      | leaving job =>
          exact goes (.unlock thread) trivial ⟨job, standing, owner, rfl⟩
      | outside | locking | asleep => exact absurd holds (by simp [standing, Place.Holds])
  | none =>
      have idle : ∀ thread, ¬ (state.place thread).Holds := fun thread holds => by
        rw [← sound.owner, owner] at holds
        cases holds
      have empty : state.monitor.waiters = [] := by
        rcases told opened with none | ⟨thread, update, notifying⟩
        · exact none
        · exact absurd (by rw [notifying]; trivial) (idle thread)
      obtain ⟨thread, begun⟩ := begun
      cases standing : state.place thread with
      | outside => exact absurd standing begun
      | locking job =>
          have free : thread ∉ state.monitor.parked := by simp [sound.parked, standing]
          exact goes (.lock thread) trivial ⟨job, standing, ⟨owner, free⟩, rfl⟩
      | asleep =>
          have awake : thread ∈ state.monitor.awake := by
            simpa [Monitor.parked, empty] using (sound.parked thread).mpr standing
          exact goes (.resume thread) trivial ⟨standing, ⟨owner, awake⟩, rfl⟩
      | inside | notifying | leaving => exact absurd (by rw [standing]; trivial) (idle thread)

/-- A thread comes nearer to the end of its job with every step of its own. -/
theorem weight_step (own : action.Own) (opened : guard.opens state.shared = true)
    (stepped : state.step guard impossible action = .ok after) :
    (after.place action.thread).weight < (state.place action.thread).weight := by
  have moves := step_eq_ok.mp stepped
  cases action with
  | call | stray => exact own.elim
  | lock thread =>
      obtain ⟨_, standing, _, rfl⟩ := moves
      simp [Action.thread, standing, Place.weight]
  | test thread =>
      obtain ⟨standing, ⟨_, rfl⟩ | ⟨closed, _⟩⟩ := moves
      · simp [move, Action.thread, standing, Place.weight]
      · cases closed.symm.trans opened
  | update thread update =>
      obtain ⟨_, standing, _, rfl⟩ := moves
      simp only [Action.thread, Function.update_self, standing]
      split <;> simp [Place.weight]
  | notify thread woken =>
      obtain ⟨_, standing, _, rfl⟩ := moves
      simp [Action.thread, standing, Place.weight]
  | resume thread =>
      obtain ⟨standing, _, rfl⟩ := moves
      simp [Action.thread, standing, Place.weight]
  | unlock thread =>
      obtain ⟨_, standing, _, rfl⟩ := moves
      simp [Action.thread, standing, Place.weight]

/-- What holds whatever has happened so far. -/
structure Ready (guard : Guard Shared Update Error) (sleeper : Option Thread)
    (state : GuardedWait Thread Shared Update) : Prop where
  sound : state.Sound
  few : Few guard sleeper state
  told : Told guard state
  seen : Seen guard state

omit [DecidableEq Thread] [DecidableEq Update] in
theorem start_ready (guard : Guard Shared Update Error) (sleeper : Option Thread) (shared : Shared) :
    Ready guard sleeper (start shared : GuardedWait Thread Shared Update) :=
  ⟨start_sound shared, (fun _ _ => nofun), (fun _ => .inl rfl), nofun⟩

theorem Ready.step (lawful : guard.Lawful) (ready : Ready guard sleeper state)
    (calls : Calls guard sleeper action) (stepped : state.step guard impossible action = .ok after) :
    Ready guard sleeper after :=
  ⟨ready.sound.step stepped, ready.few.step calls stepped,
    ready.told.step lawful ready.sound ready.few stepped, ready.seen.step lawful stepped⟩

def Owned (_ : GuardedWait Thread Shared Update) (action : Action Thread Update) : Prop := action.Own

instance (state : GuardedWait Thread Shared Update) (action : Action Thread Update) :
    Decidable (Owned state action) := inferInstanceAs (Decidable action.Own)

omit [DecidableEq Thread] [DecidableEq Update] in
theorem Action.Own.calls (own : action.Own) : Calls guard sleeper action := by
  rintro _ thread rfl
  exact own.elim

/-- What is left of the jobs of `threads`. -/
def remaining (threads : List Thread) (state : GuardedWait Thread Shared Update) : Nat :=
  (threads.map fun thread => (state.place thread).weight).sum

omit [DecidableEq Thread] [DecidableEq Update] in
theorem remaining_le (threads : List Thread) (state : GuardedWait Thread Shared Update) :
    state.remaining threads ≤ 4 * threads.length := by
  unfold remaining
  induction threads with
  | nil => exact Nat.le_refl 0
  | cons thread threads ih =>
      have one := (state.place thread).weight_le
      simp only [List.map_cons, List.sum_cons, List.length_cons]
      omega

/-- The jobs that have been begun come to their ends, in whatever order the threads go on. -/
theorem own_run (threads : List Thread) {later : List (Action Thread Update)}
    {final : GuardedWait Thread Shared Update} (lawful : guard.Lawful)
    (ready : Ready guard sleeper state) (opened : guard.opens state.shared = true)
    (begun : ∀ thread, state.place thread ≠ .outside → thread ∈ threads)
    (rest : Execution (step guard impossible) Owned state later final) :
    Ready guard sleeper final ∧ guard.opens final.shared = true ∧
      (∀ thread, final.place thread ≠ .outside → thread ∈ threads) ∧
      later.length + final.remaining threads ≤ state.remaining threads := by
  induction rest with
  | nil => exact ⟨ready, opened, begun, by simp⟩
  | @snoc later before after action _ own stepped ih =>
      obtain ⟨ready, opened, begun, bound⟩ := ih
      have nearer := weight_step own opened stepped
      have inside : action.thread ∈ threads := by
        apply begun
        intro outside
        rw [outside] at nearer
        exact Nat.not_lt_zero _ nearer
      have others := fun other (apart : other ≠ _) => place_step stepped apart
      refine ⟨ready.step lawful (Action.Own.calls own) stepped, opens_step lawful stepped opened,
        fun thread unfinished => ?_, ?_⟩
      · by_cases same : thread = action.thread
        · exact same ▸ inside
        · rw [others thread same] at unfinished
          exact begun thread unfinished
      · have less : after.remaining threads < before.remaining threads := by
          refine List.sum_lt_sum _ _ (fun thread _ => ?_) ⟨action.thread, inside, nearer⟩
          by_cases same : thread = action.thread
          · rw [same]
            exact Nat.le_of_lt nearer
          · rw [others thread same]
        rw [List.length_append, List.length_singleton]
        omega

def callers (actions : List (Action Thread Update)) : List Thread :=
  actions.filterMap fun action => match action with
    | .call thread _ => some thread
    | _ => none

section Runs

variable {actions : List (Action Thread Update)} {shared : Shared}
variable {admits : GuardedWait Thread Shared Update → Action Thread Update → Prop}

theorem run_ready (lawful : guard.Lawful)
    (calls : ∀ state action, admits state action → Calls guard sleeper action)
    (run : Execution (step guard impossible) admits (start shared) actions state) :
    Ready guard sleeper state :=
  run.invariant (start_ready guard sleeper shared) fun before action _ ready admitted stepped =>
    ready.step lawful (calls before action admitted) stepped

theorem run_callers (run : Execution (step guard impossible) admits (start shared) actions state)
    (unfinished : state.place thread ≠ .outside) : thread ∈ callers actions := by
  induction run with
  | nil => exact absurd rfl unfinished
  | @snoc actions before after action _ _ stepped ih =>
      rw [callers, List.filterMap_append, List.mem_append]
      rcases job_step stepped thread with same | ⟨job, rfl, _⟩ | ⟨_, ended⟩
      · refine .inl (ih fun outside => unfinished ?_)
        rw [← Place.job?_eq_none_iff, same, outside]
        rfl
      · exact .inr (by simp)
      · exact absurd (Place.job?_eq_none_iff.mp ended) unfinished

/-- The threads that are in the middle of a job can be listed. -/
theorem run_pending (run : Execution (step guard impossible) admits (start shared) actions state) :
    ∃ pending : List Thread, pending.Nodup ∧
      ∀ thread, thread ∈ pending ↔ state.place thread ≠ .outside := by
  refine ⟨(callers actions).dedup.filter fun thread => (state.place thread).job?.isSome,
    (List.nodup_dedup _).filter _, fun thread => ?_⟩
  rw [List.mem_filter, List.mem_dedup, Option.isSome_iff_ne_none, Ne, Place.job?_eq_none_iff]
  exact ⟨And.right, fun unfinished => ⟨run_callers run unfinished, unfinished⟩⟩

end Runs

end GuardedWait

end TransferServer.Lib
