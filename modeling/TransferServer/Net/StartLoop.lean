import TransferServer.Lib.GuardedWaitProgress
import TransferServer.Net.EventLoopThread

/-! `EventLoopThread::startLoop` and `threadFunc` with the mutex and the condition between them. Each
run is one of `EventLoopThread`, where `startLoop` goes on once `loop_` is set. -/

set_option autoImplicit false

namespace TransferServer.Net

open Lib

variable {τ F : Type}

/-- An `EventLoopThread`, and where its two threads stand at `mutex_`, which protects whether
`loop_` is set. -/
structure StartLoop (τ F : Type) where
  thread : EventLoopThread τ F
  gate : GuardedWait τ Bool Unit

inductive StartLoopAction (τ F : Type) where
  | onThread (action : ThreadAction τ F)
  | onGate (action : GuardedWait.Action τ Unit)

namespace StartLoop

/-- `while (loop_ == NULL)`, `loop_ = &loop` and `cond_.notify()`. -/
def guard : Guard Bool Unit Halt where
  opens published := published
  apply _ _ := .ok true
  notifies _ _ := true
  all := false

def construct (worker : τ) : StartLoop τ F := ⟨.construct worker, .start false⟩

variable [DecidableEq τ]

def onGate (state : StartLoop τ F) (action : GuardedWait.Action τ Unit) : Outcome (StartLoop τ F) := do
  let gate ← state.gate.step guard Halt.impossible action
  return { state with gate }

def onThread (owner worker : τ) (state : StartLoop τ F) (action : ThreadAction τ F) :
    Outcome (StartLoop τ F) := do
  let thread ← state.thread.step owner worker action
  return { state with thread }

/-- Only the two functions enter the critical section. -/
def step (owner worker : τ) (state : StartLoop τ F) : StartLoopAction τ F → Outcome (StartLoop τ F)
  | .onThread (.startLoop created) => do
      let state ← state.onThread owner worker (.startLoop created)
      state.onGate (.call owner .wait)
  | .onThread .construct => do
      let state ← state.onThread owner worker .construct
      state.onGate (.call worker (.update ()))
  | .onThread .enter => do
      assume (state.gate.place worker = .outside)
      state.onThread owner worker .enter
  -- these two are what happens at the gate
  | .onThread .publish => throw .impossible
  | .onThread .startLoopReturn => throw .impossible
  | .onThread action => state.onThread owner worker action
  | .onGate (.call _ _) => throw .impossible
  | .onGate (.update thread ()) => do
      let state ← state.onGate (.update thread ())
      return { state with
        thread := { state.thread with threadFunc := .calling, published := true } }
  | .onGate (.unlock thread) => do
      let after ← state.onGate (.unlock thread)
      return if state.gate.place thread = .leaving .wait then
          { after with thread := { after.thread with owner := .holding } }
        else after
  | .onGate action => state.onGate action

theorem guard_lawful : guard.Lawful where
  stays := by
    intro update published published' applied _
    cases applied
    rfl
  tells := fun _ _ _ => rfl

/-- Whoever waits is the owner in `startLoop`, and whoever is about to set `loop_` is the new
thread. -/
structure Linked (owner worker : τ) (state : StartLoop τ F) : Prop where
  published : state.thread.published = state.gate.shared
  returned : state.thread.Returned → state.thread.published = true
  unstarted : state.thread.started = false → state.thread.threadFunc = .unstarted
  waits : ∀ thread, (state.gate.place thread).job? = some .wait →
    thread = owner ∧ state.thread.owner = .starting
  updates : ∀ thread, (state.gate.place thread).pending? = some () →
    thread = worker ∧ state.thread.threadFunc = .publishing
  starting : state.thread.owner = .starting → (state.gate.place owner).job? = some .wait
  placed : ∀ thread, state.gate.place thread ≠ .outside → thread = owner ∨ thread = worker
  ready : GuardedWait.Ready guard (some owner) state.gate

variable {owner worker : τ}

omit [DecidableEq τ] in
theorem construct_linked : (construct worker : StartLoop τ F).Linked owner worker where
  published := rfl
  returned := fun returned => absurd rfl returned.1
  unstarted := fun _ => rfl
  waits := nofun
  updates := nofun
  starting := nofun
  placed := fun _ begun => absurd rfl begun
  ready := GuardedWait.start_ready guard (some owner) false

/-- What an action away from the gate leaves as it is. -/
structure Apart (before after : EventLoopThread τ F) : Prop where
  published : after.published = before.published
  started : after.started = before.started
  starting : after.owner = .starting ↔ before.owner = .starting
  returned : after.Returned → before.Returned ∨ before.published = true
  publishing : after.threadFunc = .publishing ↔ before.threadFunc = .publishing
  unstarted : before.threadFunc = .unstarted → after.threadFunc = .unstarted

/-- The actions of `EventLoopThread` that have nothing to do with the mutex. -/
def Elsewhere : ThreadAction τ F → Prop
  | .startLoop _ | .startLoopReturn | .construct | .publish => False
  | _ => True

theorem step_apart {before after : EventLoopThread τ F} {action : ThreadAction τ F}
    (elsewhere : Elsewhere action) (stepped : before.step owner worker action = .ok after) :
    Apart before after := by
  cases action with
  | startLoop | startLoopReturn | construct | publish => exact elsewhere.elim
  | enter =>
      obtain ⟨calling, stepped⟩ := assume_bind_eq_ok.mp stepped
      obtain ⟨system, _, stepped⟩ := bind_eq_ok.mp stepped
      cases stepped
      exact ⟨rfl, rfl, Iff.rfl, .inl, by simp [calling], by simp [calling]⟩
  | onLoop action =>
      obtain ⟨_, stepped⟩ := assume_bind_eq_ok.mp stepped
      obtain ⟨_, stepped⟩ := require_bind_eq_ok.mp stepped
      obtain ⟨system, _, stepped⟩ := bind_eq_ok.mp stepped
      cases stepped
      exact ⟨rfl, rfl, Iff.rfl, .inl, Iff.rfl, id⟩
  | finish =>
      obtain ⟨⟨looping, _⟩, stepped⟩ := assume_bind_eq_ok.mp stepped
      obtain ⟨_, stepped⟩ := assert_bind_eq_ok.mp stepped
      cases stepped
      exact ⟨rfl, rfl, Iff.rfl, .inl, by simp [looping], by simp [looping]⟩
  | destruct =>
      obtain ⟨standing, stepped⟩ := assume_bind_eq_ok.mp stepped
      obtain ⟨⟨published, _⟩, stepped⟩ := require_bind_eq_ok.mp stepped
      obtain ⟨system, _, stepped⟩ := bind_eq_ok.mp stepped
      cases stepped
      refine ⟨rfl, rfl, ?_, fun _ => .inr published, Iff.rfl, id⟩
      rcases standing with fresh | holding
      · simp [fresh]
      · simp [holding]
  | join =>
      obtain ⟨⟨destroying, _⟩, stepped⟩ := assume_bind_eq_ok.mp stepped
      obtain ⟨_, stepped⟩ := assert_bind_eq_ok.mp stepped
      cases stepped
      exact ⟨rfl, rfl, by simp [destroying],
        fun _ => .inl (by simp [EventLoopThread.Returned, destroying]), Iff.rfl, id⟩
  | joinReturn =>
      obtain ⟨⟨joining, _⟩, stepped⟩ := assume_bind_eq_ok.mp stepped
      cases stepped
      exact ⟨rfl, rfl, by simp [joining],
        fun _ => .inl (by simp [EventLoopThread.Returned, joining]), Iff.rfl, id⟩

variable {before after state : StartLoop τ F}

theorem onThread_linked (linked : before.Linked owner worker) {action : ThreadAction τ F}
    (elsewhere : Elsewhere action) (stepped : before.onThread owner worker action = .ok after) :
    after.Linked owner worker ∧ before.thread.step owner worker action = .ok after.thread := by
  obtain ⟨thread, performed, stepped⟩ := bind_eq_ok.mp stepped
  cases stepped
  obtain ⟨published, started, starting, returned, publishing, unstarted⟩ :=
    step_apart elsewhere performed
  refine ⟨⟨published.trans linked.published, fun now => ?_, fun fresh => ?_, fun other waits => ?_,
    fun other updates => ?_, fun begun => ?_, linked.placed, linked.ready⟩, performed⟩
  · rw [published]
    exact (returned now).elim linked.returned id
  · exact unstarted (linked.unstarted (started.symm.trans fresh))
  · obtain ⟨same, begun⟩ := linked.waits other waits
    exact ⟨same, starting.mpr begun⟩
  · obtain ⟨same, constructed⟩ := linked.updates other updates
    exact ⟨same, publishing.mpr constructed⟩
  · exact linked.starting (starting.mp begun)

theorem onGate_eq_ok {action : GuardedWait.Action τ Unit} : before.onGate action = .ok after ↔
    ∃ gate, before.gate.step guard Halt.impossible action = .ok gate ∧ after = { before with gate } := by
  unfold onGate
  rw [bind_eq_ok]
  refine exists_congr fun gate => and_congr_right fun _ => ?_
  rw [pure_eq_ok, Except.ok.injEq, eq_comm]

/-- A step at the gate that neither begins nor ends a job and sets nothing. -/
def Inner : GuardedWait.Action τ Unit → Prop
  | .call _ _ | .update _ _ | .unlock _ => False
  | _ => True

theorem onGate_linked (linked : before.Linked owner worker) {action : GuardedWait.Action τ Unit}
    (inner : Inner action) (stepped : before.onGate action = .ok after) :
    after.Linked owner worker ∧ after.thread = before.thread := by
  obtain ⟨gate, moved, rfl⟩ := onGate_eq_ok.mp stepped
  have uncalled : ∀ thread job, action ≠ .call thread job := by
    rintro thread job rfl
    exact inner.elim
  have shared := GuardedWait.shared_step moved fun thread update same => by
    subst same
    exact inner.elim
  have job : ∀ thread, (gate.place thread).job? = (before.gate.place thread).job? := by
    intro thread
    rcases GuardedWait.job_step moved thread with same | ⟨job, began, _⟩ | ⟨rfl, _⟩
    · exact same
    · exact absurd began (uncalled thread job)
    · exact inner.elim
  refine ⟨⟨linked.published.trans shared.symm, linked.returned, linked.unstarted, ?_, ?_, ?_, ?_, ?_⟩, rfl⟩
  · exact fun thread waits => linked.waits thread ((job thread).symm.trans waits)
  · intro thread pending
    rcases GuardedWait.pending_step moved pending with began | ⟨pending, _⟩
    · exact absurd began (uncalled thread _)
    · exact linked.updates thread pending
  · exact fun starting => (job owner).trans (linked.starting starting)
  · intro thread begun
    apply linked.placed thread
    intro outside
    apply begun
    rw [← Place.job?_eq_none_iff, job thread, outside]
    rfl
  · exact linked.ready.step guard_lawful (fun _ thread began => absurd began (uncalled thread _)) moved

theorem startLoop_linked (linked : before.Linked owner worker) {created : Bool}
    (stepped : before.step owner worker (.onThread (.startLoop created)) = .ok after) :
    after.Linked owner worker ∧
      before.thread.step owner worker (.startLoop created) = .ok after.thread := by
  obtain ⟨middle, started, called⟩ := bind_eq_ok.mp stepped
  obtain ⟨thread, performed, same⟩ := bind_eq_ok.mp started
  cases same
  obtain ⟨gate, moved, rfl⟩ := onGate_eq_ok.mp called
  refine ⟨?_, performed⟩
  obtain ⟨_, performed⟩ := assume_bind_eq_ok.mp performed
  obtain ⟨unstarted, performed⟩ := assert_bind_eq_ok.mp performed
  obtain ⟨running, begun, performed⟩ := bind_eq_ok.mp performed
  cases performed
  obtain ⟨_, begun⟩ := assert_bind_eq_ok.mp begun
  cases begun
  obtain ⟨outside, rfl⟩ := GuardedWait.step_eq_ok.mp moved
  have idle := linked.unstarted unstarted
  have place : ∀ thread, thread ≠ owner →
      Function.update before.gate.place owner (.locking .wait) thread = before.gate.place thread :=
    fun thread apart => Function.update_of_ne apart _ _
  refine ⟨linked.published, fun returned => absurd rfl returned.2, nofun, ?_, ?_, ?_, ?_, ?_⟩
  · intro thread waits
    by_cases same : thread = owner
    · exact ⟨same, rfl⟩
    · simp only [GuardedWait.move, place thread same] at waits
      exact absurd (linked.waits thread waits).1 same
  · intro thread pending
    by_cases same : thread = owner
    · simp [GuardedWait.move, same, Place.pending?] at pending
    · simp only [GuardedWait.move, place thread same] at pending
      have publishing := (linked.updates thread pending).2
      rw [idle] at publishing
      cases publishing
  · exact fun _ => by simp [GuardedWait.move, Place.job?]
  · intro thread begun
    by_cases same : thread = owner
    · exact .inl same
    · simp only [GuardedWait.move, place thread same] at begun
      exact linked.placed thread begun
  · refine linked.ready.step guard_lawful (fun _ thread began => ?_) moved
    cases began
    rfl

theorem construct_step_linked (linked : before.Linked owner worker)
    (stepped : before.step owner worker (.onThread .construct) = .ok after) :
    after.Linked owner worker ∧ before.thread.step owner worker .construct = .ok after.thread := by
  obtain ⟨middle, constructed, called⟩ := bind_eq_ok.mp stepped
  obtain ⟨thread, performed, same⟩ := bind_eq_ok.mp constructed
  cases same
  obtain ⟨gate, moved, rfl⟩ := onGate_eq_ok.mp called
  refine ⟨?_, performed⟩
  obtain ⟨constructing, performed⟩ := assume_bind_eq_ok.mp performed
  cases performed
  obtain ⟨outside, rfl⟩ := GuardedWait.step_eq_ok.mp moved
  have place : ∀ thread, thread ≠ worker →
      Function.update before.gate.place worker (.locking (.update ())) thread =
        before.gate.place thread := fun thread apart => Function.update_of_ne apart _ _
  refine ⟨linked.published, linked.returned, fun fresh => ?_, ?_, ?_, ?_, ?_, ?_⟩
  · have idle := linked.unstarted fresh
    rw [constructing] at idle
    cases idle
  · intro thread waits
    by_cases same : thread = worker
    · simp [GuardedWait.move, same, Place.job?] at waits
    · simp only [GuardedWait.move, place thread same] at waits
      exact linked.waits thread waits
  · intro thread pending
    by_cases same : thread = worker
    · exact ⟨same, rfl⟩
    · simp only [GuardedWait.move, place thread same] at pending
      exact absurd (linked.updates thread pending).1 same
  · intro starting
    have waits := linked.starting starting
    have apart : owner ≠ worker := by
      rintro rfl
      have outside : before.gate.place owner = .outside := outside
      rw [outside] at waits
      cases waits
    simpa only [GuardedWait.move, place owner apart] using waits
  · intro thread begun
    by_cases same : thread = worker
    · exact .inr same
    · simp only [GuardedWait.move, place thread same] at begun
      exact linked.placed thread begun
  · refine linked.ready.step guard_lawful (fun _ thread began => ?_) moved
    cases began

theorem update_linked (linked : before.Linked owner worker) {thread : τ}
    (stepped : before.step owner worker (.onGate (.update thread ())) = .ok after) :
    after.Linked owner worker ∧ before.thread.step owner worker .publish = .ok after.thread := by
  obtain ⟨middle, updated, same⟩ := bind_eq_ok.mp stepped
  cases same
  obtain ⟨gate, moved, rfl⟩ := onGate_eq_ok.mp updated
  have ready := linked.ready.step guard_lawful (fun _ _ began => by cases began) moved
  obtain ⟨shared, standing, applied, changed⟩ := GuardedWait.step_eq_ok.mp moved
  cases applied
  have opened : gate.shared = true := by rw [changed]
  obtain ⟨same, publishing⟩ := linked.updates thread (by rw [standing]; rfl)
  subst same
  have job : ∀ other, (gate.place other).job? = (before.gate.place other).job? := by
    intro other
    rcases GuardedWait.job_step moved other with same | ⟨job, began, _⟩ | ⟨ended, _⟩
    · exact same
    · cases began
    · cases ended
  refine ⟨⟨opened.symm, fun _ => rfl, fun fresh => ?_, ?_, ?_, ?_, ?_, ready⟩, ?_⟩
  · have idle := linked.unstarted fresh
    rw [publishing] at idle
    cases idle
  · exact fun other waits => linked.waits other ((job other).symm.trans waits)
  · intro other pending
    rcases GuardedWait.pending_step moved pending with began | ⟨pending, unmade⟩
    · cases began
    · have same := (linked.updates other pending).1
      exact absurd (by rw [same]) unmade
  · exact fun starting => (job owner).trans (linked.starting starting)
  · intro other begun
    apply linked.placed other
    intro outside
    apply begun
    rw [← Place.job?_eq_none_iff, job other, outside]
    rfl
  · have held : assume (before.thread.threadFunc = .publishing) = .ok () := assume_of publishing
    rw [EventLoopThread.step, held]
    rfl

theorem unlock_linked (linked : before.Linked owner worker) {thread : τ}
    (stepped : before.step owner worker (.onGate (.unlock thread)) = .ok after) :
    after.Linked owner worker ∧
      (after.thread = before.thread ∨
        before.thread.step owner worker .startLoopReturn = .ok after.thread) := by
  obtain ⟨middle, unlocked, same⟩ := bind_eq_ok.mp stepped
  obtain ⟨gate, moved, rfl⟩ := onGate_eq_ok.mp unlocked
  have ready := linked.ready.step guard_lawful (fun _ _ began => by cases began) moved
  have shared := GuardedWait.shared_step moved nofun
  obtain ⟨job, standing, _, changed⟩ := GuardedWait.step_eq_ok.mp moved
  have left : gate.place thread = .outside := by
    rw [changed]
    exact Function.update_self ..
  have others : ∀ other, other ≠ thread → gate.place other = before.gate.place other := by
    intro other apart
    rw [changed]
    exact Function.update_of_ne apart ..
  have placed : ∀ other, gate.place other ≠ .outside → other = owner ∨ other = worker := by
    intro other begun
    by_cases same : other = thread
    · exact absurd (same ▸ left) begun
    · exact linked.placed other (others other same ▸ begun)
  have waits : ∀ other, (gate.place other).job? = some .wait →
      other ≠ thread ∧ other = owner ∧ before.thread.owner = .starting := by
    intro other waits
    have apart : other ≠ thread := by
      rintro rfl
      rw [left] at waits
      cases waits
    exact ⟨apart, linked.waits other (others other apart ▸ waits)⟩
  have updates : ∀ other, (gate.place other).pending? = some () →
      other = worker ∧ before.thread.threadFunc = .publishing := by
    intro other pending
    rcases GuardedWait.pending_step moved pending with began | ⟨pending, _⟩
    · cases began
    · exact linked.updates other pending
  cases job with
  | wait =>
      rw [if_pos standing] at same
      cases same
      obtain ⟨rfl, starting⟩ := linked.waits thread (by rw [standing]; rfl)
      have published : before.thread.published = true :=
        linked.published.trans (linked.ready.seen thread standing)
      refine ⟨⟨linked.published.trans shared.symm, fun _ => published, linked.unstarted, ?_, updates,
        nofun, placed, ready⟩, .inr ?_⟩
      · intro other waiting
        obtain ⟨apart, same, _⟩ := waits other waiting
        exact absurd same apart
      · have held : assume (before.thread.owner = .starting ∧ before.thread.published = true) = .ok () :=
          assume_of ⟨starting, published⟩
        rw [EventLoopThread.step, held]
        rfl
  | update update =>
      rw [if_neg (by simp [standing])] at same
      cases same
      refine ⟨⟨linked.published.trans shared.symm, linked.returned, linked.unstarted,
        fun other waiting => (waits other waiting).2, updates, ?_, placed, ready⟩, .inl rfl⟩
      intro starting
      have waiting := linked.starting starting
      have apart : owner ≠ thread := by
        rintro rfl
        rw [standing] at waiting
        cases waiting
      rw [others owner apart]
      exact waiting

/-- A step is one of `EventLoopThread` or does not show there. -/
theorem step_linked (linked : before.Linked owner worker) {action : StartLoopAction τ F}
    (stepped : before.step owner worker action = .ok after) :
    after.Linked owner worker ∧ (after.thread = before.thread ∨
      ∃ action, before.thread.step owner worker action = .ok after.thread) := by
  cases action with
  | onThread action =>
      cases action with
      | startLoop created =>
          obtain ⟨linked, performed⟩ := startLoop_linked linked stepped
          exact ⟨linked, .inr ⟨_, performed⟩⟩
      | construct =>
          obtain ⟨linked, performed⟩ := construct_step_linked linked stepped
          exact ⟨linked, .inr ⟨_, performed⟩⟩
      | enter =>
          obtain ⟨_, stepped⟩ := assume_bind_eq_ok.mp stepped
          obtain ⟨linked, performed⟩ := onThread_linked linked (by trivial) stepped
          exact ⟨linked, .inr ⟨_, performed⟩⟩
      | publish | startLoopReturn => cases stepped
      | onLoop | finish | destruct | join | joinReturn =>
          obtain ⟨linked, performed⟩ := onThread_linked linked (by trivial) stepped
          exact ⟨linked, .inr ⟨_, performed⟩⟩
  | onGate action =>
      cases action with
      | call thread job => cases stepped
      | update thread update =>
          obtain ⟨linked, performed⟩ := update_linked linked stepped
          exact ⟨linked, .inr ⟨_, performed⟩⟩
      | unlock thread =>
          obtain ⟨linked, same | performed⟩ := unlock_linked linked stepped
          · exact ⟨linked, .inl same⟩
          · exact ⟨linked, .inr ⟨_, performed⟩⟩
      | lock | test | notify | stray | resume =>
          obtain ⟨linked, same⟩ := onGate_linked linked (by trivial) stepped
          exact ⟨linked, .inl same⟩

theorem run_linked {actions : List (StartLoopAction τ F)}
    (run : Execution (step owner worker) anyAction (construct worker) actions state) :
    state.Linked owner worker :=
  run.invariant construct_linked fun _ _ _ linked _ stepped => (step_linked linked stepped).1

/-- With the mutex and the condition in it a run is still one of `EventLoopThread`, and `startLoop`
has not returned a null pointer. -/
theorem startLoop_refines {actions : List (StartLoopAction τ F)}
    (run : Execution (step owner worker) anyAction (construct worker) actions state) :
    (∃ plain, Execution (EventLoopThread.step owner worker) anyAction
      (EventLoopThread.construct worker) plain state.thread) ∧
        (state.thread.Returned → state.thread.published = true) := by
  refine ⟨?_, (run_linked run).returned⟩
  induction run with
  | nil => exact ⟨[], .nil⟩
  | snoc earlier _ stepped ih =>
      obtain ⟨plain, below⟩ := ih
      rcases (step_linked (run_linked earlier) stepped).2 with same | ⟨action, performed⟩
      · exact ⟨plain, same ▸ below⟩
      · exact ⟨plain ++ [action], below.snoc trivial performed⟩

/-- The theorem where the new thread sets `loop_` before the owner has come to the mutex. -/
theorem startLoop_refines_early : ∃ (state : StartLoop Bool Unit)
    (plain : List (ThreadAction Bool Unit)), state.thread.owner = .holding ∧
      Execution (EventLoopThread.step true false) anyAction (EventLoopThread.construct false) plain
        state.thread ∧ state.thread.published = true := by
  let actions : List (StartLoopAction Bool Unit) := [.onThread (.startLoop true),
    .onThread .construct, .onGate (.lock false), .onGate (.update false ()),
    .onGate (.notify false none), .onGate (.unlock false), .onThread .enter, .onGate (.lock true),
    .onGate (.test true), .onGate (.unlock true)]
  have replayed : (replay (step true false) anyAction .impossible (construct false) actions).toOption.any
      (fun state => decide (state.thread.owner = .holding)) = true := by
    decide +kernel
  obtain ⟨state, run, tested⟩ := Execution.exists_of_replay replayed
  have holding := of_decide_eq_true tested
  obtain ⟨⟨plain, below⟩, returned⟩ := startLoop_refines run
  exact ⟨state, plain, holding, below, returned (by simp [EventLoopThread.Returned, holding])⟩

/-- The two threads only go on with what they do at the mutex. -/
def AtGate (_ : StartLoop τ F) : StartLoopAction τ F → Prop
  | .onThread _ => False
  | .onGate action => action.Own

instance (state : StartLoop τ F) (action : StartLoopAction τ F) : Decidable (state.AtGate action) :=
  match action with
  | .onThread _ => .isFalse id
  | .onGate action => inferInstanceAs (Decidable action.Own)

theorem step_atGate {action : GuardedWait.Action τ Unit}
    (stepped : before.step owner worker (.onGate action) = .ok after) :
    before.gate.step guard Halt.impossible action = .ok after.gate := by
  cases action with
  | call thread job => cases stepped
  | update thread update =>
      obtain ⟨middle, updated, same⟩ := bind_eq_ok.mp stepped
      cases same
      obtain ⟨gate, moved, rfl⟩ := onGate_eq_ok.mp updated
      exact moved
  | unlock thread =>
      obtain ⟨middle, unlocked, same⟩ := bind_eq_ok.mp stepped
      obtain ⟨gate, moved, rfl⟩ := onGate_eq_ok.mp unlocked
      split at same
      · cases same
        exact moved
      · cases same
        exact moved
  | lock | test | notify | stray | resume =>
      obtain ⟨gate, moved, rfl⟩ := onGate_eq_ok.mp stepped
      exact moved

theorem exists_step_atGate {action : GuardedWait.Action τ Unit} {gate : GuardedWait τ Bool Unit}
    (own : action.Own) (moved : before.gate.step guard Halt.impossible action = .ok gate) :
    ∃ after, before.step owner worker (.onGate action) = .ok after := by
  have performed : before.onGate action = .ok { before with gate } := onGate_eq_ok.mpr ⟨gate, moved, rfl⟩
  cases action with
  | call | stray => exact own.elim
  | update thread update => exact ⟨_, bind_eq_ok.mpr ⟨_, performed, rfl⟩⟩
  | unlock thread => exact ⟨_, bind_eq_ok.mpr ⟨_, performed, rfl⟩⟩
  | lock | test | notify | resume => exact ⟨_, performed⟩

theorem run_atGate {later : List (StartLoopAction τ F)} {final : StartLoop τ F}
    (rest : Execution (step owner worker) AtGate state later final) :
    ∃ moves : List (GuardedWait.Action τ Unit), moves.length = later.length ∧
      Execution (GuardedWait.step guard Halt.impossible) GuardedWait.Owned state.gate moves final.gate := by
  induction rest with
  | nil => exact ⟨[], rfl, .nil⟩
  | @snoc later before after action _ own stepped ih =>
      obtain ⟨moves, length, below⟩ := ih
      cases action with
      | onThread action => exact own.elim
      | onGate action =>
          exact ⟨moves ++ [action], by simp [length], below.snoc own (step_atGate stepped)⟩

/-- Once `loop_` is set, `startLoop` returns after at most eight steps of the two threads at the
mutex, and until then one of them can go on. -/
theorem startLoop_returns {actions later : List (StartLoopAction τ F)} {final : StartLoop τ F}
    (run : Execution (step owner worker) anyAction (construct worker) actions state)
    (published : state.thread.published = true)
    (rest : Execution (step owner worker) AtGate state later final) :
    later.length ≤ 8 ∧ (final.thread.owner = .starting → ∃ action after,
      GuardedWait.Action.Own action ∧ final.step owner worker (.onGate action) = .ok after) := by
  have linked := run_linked run
  obtain ⟨moves, length, below⟩ := run_atGate rest
  have opened : guard.opens state.gate.shared = true := linked.published.symm.trans published
  obtain ⟨ready, opened', _, bound⟩ := GuardedWait.own_run [owner, worker] guard_lawful linked.ready
    opened (fun thread begun => by simpa using linked.placed thread begun) below
  have total := GuardedWait.remaining_le [owner, worker] state.gate
  refine ⟨by simp only [List.length_cons, List.length_nil] at total; omega, fun starting => ?_⟩
  have linked' : final.Linked owner worker :=
    rest.invariant linked fun _ _ _ linked _ stepped => (step_linked linked stepped).1
  have waits := linked'.starting starting
  have begun : final.gate.place owner ≠ .outside := by
    intro outside
    rw [outside] at waits
    cases waits
  rcases GuardedWait.progress guard Halt.impossible ready.sound ready.told opened' ⟨owner, begun⟩ with
    ⟨thread, update, error, _, failed⟩ | ⟨action, gate, own, moved⟩
  · cases failed
  · obtain ⟨after, stepped⟩ := exists_step_atGate own moved
    exact ⟨action, after, own, stepped⟩

/-- The theorem where the owner has been woken and still has to test `loop_` again. -/
theorem startLoop_returns_woken : ∃ (state : StartLoop Bool Unit)
    (action : GuardedWait.Action Bool Unit) (after : StartLoop Bool Unit),
      state.gate.place true = .inside .wait ∧ action.Own ∧
        state.step true false (.onGate action) = .ok after := by
  let actions : List (StartLoopAction Bool Unit) := [.onThread (.startLoop true),
    .onGate (.lock true), .onGate (.test true), .onThread .construct, .onGate (.lock false),
    .onGate (.update false ())]
  let later : List (StartLoopAction Bool Unit) :=
    [.onGate (.notify false (some true)), .onGate (.unlock false), .onGate (.resume true)]
  have replayed : (replay (step true false) anyAction .impossible (construct false) actions).toOption.any
      (fun state => decide (state.thread.published = true) &&
        (replay (step true false) AtGate .impossible state later).toOption.any
          fun final => decide (final.thread.owner = .starting ∧ final.gate.place true = .inside .wait)) =
      true := by
    decide +kernel
  obtain ⟨state, run, continued⟩ := Execution.exists_of_replay replayed
  obtain ⟨published, continued⟩ := (Bool.and_eq_true _ _).mp continued
  obtain ⟨final, rest, tested⟩ := Execution.exists_of_replay continued
  obtain ⟨starting, inside⟩ := of_decide_eq_true tested
  obtain ⟨_, goes⟩ := startLoop_returns run (of_decide_eq_true published) rest
  obtain ⟨action, after, own, stepped⟩ := goes starting
  exact ⟨final, action, after, inside, own, stepped⟩

end StartLoop

end TransferServer.Net
