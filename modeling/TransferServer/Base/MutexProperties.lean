import TransferServer.Lib.Ensures
import TransferServer.Lib.History
import TransferServer.Base.Mutex

/-! What `holder_` tells about the owner of a `MutexLock`. `lock` and `unlock` keep it, the waits
do not. -/

set_option autoImplicit false

namespace TransferServer.Base.MutexLock

open Lib

variable {Thread Cond : Type} [DecidableEq Thread] [DecidableEq Cond]
variable {ids : ThreadIds Thread} {lock after : MutexLock Thread Cond}
variable {trace : List (Action Thread Cond)} {action : Action Thread Cond} {thread : Thread}

/-- The threads that have stored themselves in `holder_` since the last wait of `thread` began. -/
def lockedSince (thread : Thread) (trace : List (Action Thread Cond)) : List Thread :=
  trace.foldl (fun locked action =>
    match action with
    | .wait waiter _ | .waitForSeconds waiter _ => if waiter = thread then [] else locked
    | .store other => locked ++ [other]
    | _ => locked) []

/-- A wait returns only where no thread has taken the mutex with `lock` since it began. -/
def Undisturbed (trace : List (Action Thread Cond)) : Action Thread Cond → Prop
  | .resume thread => lockedSince thread trace = []
  | _ => True

/-- Between its own calls, every thread is told whether it owns the mutex. -/
def Truthful (ids : ThreadIds Thread) (lock : MutexLock Thread Cond) : Prop :=
  ∀ thread, lock.BetweenCalls thread →
    (lock.isLockedByThisThread ids thread = true ↔ lock.mutex.owner = some thread)

/-- What every run keeps. -/
structure Consistent (ids : ThreadIds Thread) (trace : List (Action Thread Cond))
    (lock : MutexLock Thread Cond) : Prop where
  distinct : lock.mutex.Distinct
  inside : ∀ thread, lock.phase thread = .storing ∨ lock.phase thread = .unlocking →
    lock.mutex.owner = some thread
  parked : ∀ thread ∈ lock.mutex.parked, lock.phase thread = .outside
  known : lock.holder = 0 ∨ ∃ thread, lock.holder = ids.tid thread
  held : ∀ thread, lock.holder = ids.tid thread →
    (lock.mutex.owner = some thread ∧
        (lock.phase thread = .outside ∨ lock.phase thread = .locking)) ∨
      thread ∈ lock.mutex.parked
  replaced : ∀ thread ∈ lock.mutex.parked, lockedSince thread trace ≠ [] →
    lock.holder ≠ ids.tid thread

/-- What a run keeps in which every wait returns undisturbed. -/
structure Calm (ids : ThreadIds Thread) (trace : List (Action Thread Cond))
    (lock : MutexLock Thread Cond) : Prop where
  sees : ∀ thread, lock.mutex.owner = some thread →
    lock.phase thread = .outside ∨ lock.phase thread = .locking → lock.holder = ids.tid thread
  left : ∀ thread ∈ lock.mutex.parked, lockedSince thread trace = [] →
    lock.holder = ids.tid thread ∧
      ∀ owner, lock.mutex.owner = some owner → lock.phase owner = .storing

omit [DecidableEq Cond] in
@[simp, grind =] theorem move_mutex (phase : Phase) : (lock.move thread phase).mutex = lock.mutex := rfl

omit [DecidableEq Cond] in
@[simp, grind =] theorem move_holder (phase : Phase) :
    (lock.move thread phase).holder = lock.holder := rfl

omit [DecidableEq Cond] in
@[simp, grind =] theorem move_phase (phase : Phase) (other : Thread) :
    (lock.move thread phase).phase other = if other = thread then phase else lock.phase other :=
  Function.update_apply ..

theorem pthread_eq_ok {event : Monitor.Event Thread Cond} :
    lock.pthread event = .ok after ↔
      lock.mutex.Enabled event ∧ { lock with mutex := lock.mutex.next event } = after := by
  rw [pthread, assume, require_bind_eq_ok, pure_eq_ok, Except.ok.injEq]

theorem pthread_bind_eq_ok {event : Monitor.Event Thread Cond}
    {next : MutexLock Thread Cond → Outcome (MutexLock Thread Cond)} :
    lock.pthread event >>= next = .ok after ↔
      lock.mutex.Enabled event ∧ next { lock with mutex := lock.mutex.next event } = .ok after := by
  simp only [bind_eq_ok, pthread_eq_ok, and_assoc, exists_and_left, exists_eq_left']

omit [DecidableEq Cond] in
theorem lockedSince_snoc : lockedSince thread (trace ++ [action]) =
    match action with
    | .wait waiter _ | .waitForSeconds waiter _ =>
        if waiter = thread then [] else lockedSince thread trace
    | .store other => lockedSince thread trace ++ [other]
    | _ => lockedSince thread trace := by
  rw [lockedSince, List.foldl_append]
  rfl

def Moves (ids : ThreadIds Thread) (lock after : MutexLock Thread Cond) :
    Action Thread Cond → Prop
  | .lock thread => lock.BetweenCalls thread ∧ lock.move thread .locking = after
  | .acquire thread => lock.phase thread = .locking ∧ lock.mutex.Enabled (.acquire thread) ∧
      { lock with mutex := lock.mutex.next (.acquire thread) }.move thread .storing = after
  | .store thread => lock.phase thread = .storing ∧
      { lock with holder := ids.tid thread }.move thread .outside = after
  | .unlock thread => (lock.BetweenCalls thread ∧ lock.mutex.owner = some thread) ∧
      { lock with holder := 0 }.move thread .unlocking = after
  | .release thread => lock.phase thread = .unlocking ∧ lock.mutex.Enabled (.release thread) ∧
      { lock with mutex := lock.mutex.next (.release thread) }.move thread .outside = after
  | .wait thread cond => lock.BetweenCalls thread ∧
      lock.mutex.Enabled (.wait ⟨thread, cond, false⟩) ∧
      { lock with mutex := lock.mutex.next (.wait ⟨thread, cond, false⟩) } = after
  | .waitForSeconds thread cond => lock.BetweenCalls thread ∧
      lock.mutex.Enabled (.wait ⟨thread, cond, true⟩) ∧
      { lock with mutex := lock.mutex.next (.wait ⟨thread, cond, true⟩) } = after
  | .notify thread cond woken => lock.BetweenCalls thread ∧
      lock.mutex.Enabled (.signal cond woken) ∧
      { lock with mutex := lock.mutex.next (.signal cond woken) } = after
  | .notifyAll thread cond => lock.BetweenCalls thread ∧ lock.mutex.Enabled (.broadcast cond) ∧
      { lock with mutex := lock.mutex.next (.broadcast cond) } = after
  | .expire waiter => lock.mutex.Enabled (.expire waiter) ∧
      { lock with mutex := lock.mutex.next (.expire waiter) } = after
  | .stray waiter => lock.mutex.Enabled (.stray waiter) ∧
      { lock with mutex := lock.mutex.next (.stray waiter) } = after
  | .resume thread => lock.mutex.Enabled (.resume thread) ∧
      { lock with mutex := lock.mutex.next (.resume thread) } = after
  | .assertLocked thread => lock.BetweenCalls thread ∧
      lock.isLockedByThisThread ids thread = true ∧ lock = after

theorem step_eq_ok : lock.step ids action = .ok after ↔ Moves ids lock after action := by
  cases action <;> simp only [step, Moves, assume, assert, require_bind_eq_ok, pthread_eq_ok,
    pthread_bind_eq_ok, pure_eq_ok, Except.ok.injEq]

/-- The actions that leave the owner, `holder_` and the calls as they are. -/
def Action.Idle : Action Thread Cond → Prop
  | .notify .. | .notifyAll .. | .expire .. | .stray .. | .assertLocked .. => True
  | _ => False

structure Quiet (lock after : MutexLock Thread Cond) : Prop where
  owner : after.mutex.owner = lock.mutex.owner
  holder : after.holder = lock.holder
  phase : after.phase = lock.phase
  parked : ∀ thread, thread ∈ after.mutex.parked ↔ thread ∈ lock.mutex.parked

theorem quiet_of_wakes {event : Monitor.Event Thread Cond} (enabled : lock.mutex.Enabled event)
    (wakes : event.Wakes) : Quiet lock { lock with mutex := lock.mutex.next event } :=
  ⟨(Monitor.next_of_wakes enabled wakes).1, rfl, rfl,
    fun _ => (Monitor.next_of_wakes enabled wakes).2.mem_iff⟩

theorem quiet_of_idle (moves : Moves ids lock after action) (idle : action.Idle) :
    Quiet lock after := by
  cases action with
  | lock | acquire | store | unlock | release | wait | waitForSeconds | resume => cases idle
  | notify thread cond woken =>
      obtain ⟨_, enabled, rfl⟩ := moves
      exact quiet_of_wakes enabled trivial
  | notifyAll thread cond =>
      obtain ⟨_, enabled, rfl⟩ := moves
      exact quiet_of_wakes enabled trivial
  | expire waiter =>
      obtain ⟨enabled, rfl⟩ := moves
      exact quiet_of_wakes enabled trivial
  | stray waiter =>
      obtain ⟨enabled, rfl⟩ := moves
      exact quiet_of_wakes enabled trivial
  | assertLocked thread =>
      obtain ⟨_, _, rfl⟩ := moves
      exact ⟨rfl, rfl, rfl, fun _ => Iff.rfl⟩

omit [DecidableEq Cond] in
theorem lockedSince_idle (trace : List (Action Thread Cond)) (idle : action.Idle) (thread : Thread) :
    lockedSince thread (trace ++ [action]) = lockedSince thread trace := by
  rw [lockedSince_snoc]
  cases action with
  | lock | acquire | store | unlock | release | wait | waitForSeconds | resume => cases idle
  | notify | notifyAll | expire | stray | assertLocked => rfl

theorem distinct_step (distinct : lock.mutex.Distinct) (moves : Moves ids lock after action) :
    after.mutex.Distinct := by
  cases action with
  | lock thread =>
      obtain ⟨_, rfl⟩ := moves
      exact distinct
  | acquire thread =>
      obtain ⟨_, enabled, rfl⟩ := moves
      exact distinct.next enabled
  | store thread =>
      obtain ⟨_, rfl⟩ := moves
      exact distinct
  | unlock thread =>
      obtain ⟨_, rfl⟩ := moves
      exact distinct
  | release thread =>
      obtain ⟨_, enabled, rfl⟩ := moves
      exact distinct.next enabled
  | wait | waitForSeconds | notify | notifyAll =>
      obtain ⟨_, enabled, rfl⟩ := moves
      exact distinct.next enabled
  | expire | stray | resume =>
      obtain ⟨enabled, rfl⟩ := moves
      exact distinct.next enabled
  | assertLocked thread =>
      obtain ⟨_, _, rfl⟩ := moves
      exact distinct

/-- A wait has begun, and what has been locked is counted for it anew. -/
def Waits (waiter : Waiter Thread Cond) (trace : List (Action Thread Cond))
    (action : Action Thread Cond) : Prop :=
  ∀ thread, lockedSince thread (trace ++ [action]) =
    if waiter.thread = thread then [] else lockedSince thread trace

theorem Consistent.quiet (consistent : lock.Consistent ids trace)
    (moves : Moves ids lock after action) (idle : action.Idle) :
    after.Consistent ids (trace ++ [action]) := by
  have distinct' := distinct_step consistent.distinct moves
  have unlocked := lockedSince_idle trace idle
  obtain ⟨owner, holder, phase, waits⟩ := quiet_of_idle moves idle
  obtain ⟨distinct, inside, parked, known, held, replaced⟩ := consistent
  refine ⟨distinct', ?_, ?_, by rwa [holder], ?_, ?_⟩
  all_goals grind

theorem Consistent.wait {waiter : Waiter Thread Cond} (consistent : lock.Consistent ids trace)
    (between : lock.BetweenCalls waiter.thread) (owns : lock.mutex.Enabled (.wait waiter))
    (waits : Waits waiter trace action) :
    Consistent ids (trace ++ [action]) { lock with mutex := lock.mutex.next (.wait waiter) } := by
  obtain ⟨distinct, inside, parked, known, held, replaced⟩ := consistent
  obtain ⟨outside, absent⟩ := between
  have distinct' := distinct.next owns
  have owns : lock.mutex.owner = some waiter.thread := owns
  have enters : (lock.mutex.next (.wait waiter)).parked = waiter.thread :: lock.mutex.parked := rfl
  have owner : (lock.mutex.next (.wait waiter)).owner = none := rfl
  refine ⟨distinct', ?_, ?_, known, ?_, ?_⟩
  all_goals grind [Waits]

theorem Consistent.step (consistent : lock.Consistent ids trace)
    (moves : Moves ids lock after action) : after.Consistent ids (trace ++ [action]) := by
  by_cases idle : action.Idle
  · exact consistent.quiet moves idle
  have distinct' := distinct_step consistent.distinct moves
  have injective := ids.injective
  have nonzero := ids.nonzero
  obtain ⟨distinct, inside, parked, known, held, replaced⟩ := consistent
  cases action with
  | lock thread =>
      obtain ⟨⟨outside, absent⟩, rfl⟩ := moves
      refine ⟨distinct', ?_, ?_, known, ?_, ?_⟩
      all_goals grind [lockedSince_snoc]
  | acquire thread =>
      obtain ⟨locking, ⟨unowned, absent⟩, rfl⟩ := moves
      have unchanged : (lock.mutex.next (.acquire thread)).parked = lock.mutex.parked := rfl
      have owner : (lock.mutex.next (.acquire thread)).owner = some thread := rfl
      refine ⟨distinct', ?_, ?_, known, ?_, ?_⟩
      all_goals grind [lockedSince_snoc]
  | store thread =>
      obtain ⟨storing, rfl⟩ := moves
      refine ⟨distinct', ?_, ?_, .inr ⟨thread, rfl⟩, ?_, ?_⟩
      all_goals grind [lockedSince_snoc]
  | unlock thread =>
      obtain ⟨⟨⟨outside, absent⟩, owns⟩, rfl⟩ := moves
      refine ⟨distinct', ?_, ?_, .inl rfl, ?_, ?_⟩
      all_goals grind [lockedSince_snoc]
  | release thread =>
      obtain ⟨unlocking, owns, rfl⟩ := moves
      have unchanged : (lock.mutex.next (.release thread)).parked = lock.mutex.parked := rfl
      have owner : (lock.mutex.next (.release thread)).owner = none := rfl
      refine ⟨distinct', ?_, ?_, known, ?_, ?_⟩
      all_goals grind [lockedSince_snoc]
  | wait thread cond =>
      obtain ⟨between, owns, rfl⟩ := moves
      exact wait ⟨distinct, inside, parked, known, held, replaced⟩ between owns
        fun _ => lockedSince_snoc
  | waitForSeconds thread cond =>
      obtain ⟨between, owns, rfl⟩ := moves
      exact wait ⟨distinct, inside, parked, known, held, replaced⟩ between owns
        fun _ => lockedSince_snoc
  | resume thread =>
      obtain ⟨⟨unowned, awake⟩, rfl⟩ := moves
      have remaining := Monitor.mem_parked_resume distinct awake
      have owner : (lock.mutex.next (.resume thread)).owner = some thread := rfl
      have waited : thread ∈ lock.mutex.parked := List.mem_append_right _ awake
      refine ⟨distinct', ?_, ?_, known, ?_, ?_⟩
      all_goals grind [lockedSince_snoc]
  | notify | notifyAll | expire | stray | assertLocked => exact absurd trivial idle

theorem Calm.quiet (calm : lock.Calm ids trace) (moves : Moves ids lock after action)
    (idle : action.Idle) : after.Calm ids (trace ++ [action]) := by
  have unlocked := lockedSince_idle trace idle
  obtain ⟨owner, holder, phase, waits⟩ := quiet_of_idle moves idle
  obtain ⟨sees, left⟩ := calm
  constructor
  all_goals grind

theorem Calm.wait {waiter : Waiter Thread Cond} (calm : lock.Calm ids trace)
    (between : lock.BetweenCalls waiter.thread) (owns : lock.mutex.Enabled (.wait waiter))
    (waits : Waits waiter trace action) :
    Calm ids (trace ++ [action]) { lock with mutex := lock.mutex.next (.wait waiter) } := by
  obtain ⟨sees, left⟩ := calm
  obtain ⟨outside, absent⟩ := between
  have owns : lock.mutex.owner = some waiter.thread := owns
  have enters : (lock.mutex.next (.wait waiter)).parked = waiter.thread :: lock.mutex.parked := rfl
  have owner : (lock.mutex.next (.wait waiter)).owner = none := rfl
  constructor
  all_goals grind [Waits]

theorem Calm.step (calm : lock.Calm ids trace) (consistent : lock.Consistent ids trace)
    (undisturbed : Undisturbed trace action) (moves : Moves ids lock after action) :
    after.Calm ids (trace ++ [action]) := by
  by_cases idle : action.Idle
  · exact calm.quiet moves idle
  have injective := ids.injective
  obtain ⟨distinct, inside, parked, known, held, replaced⟩ := consistent
  obtain ⟨sees, left⟩ := calm
  cases action with
  | lock thread =>
      obtain ⟨⟨outside, absent⟩, rfl⟩ := moves
      constructor
      all_goals grind [lockedSince_snoc]
  | acquire thread =>
      obtain ⟨locking, ⟨unowned, absent⟩, rfl⟩ := moves
      have unchanged : (lock.mutex.next (.acquire thread)).parked = lock.mutex.parked := rfl
      have owner : (lock.mutex.next (.acquire thread)).owner = some thread := rfl
      constructor
      all_goals grind [lockedSince_snoc]
  | store thread =>
      obtain ⟨storing, rfl⟩ := moves
      have grown (other : Thread) : lockedSince other (trace ++ [.store thread]) ≠ [] := by
        rw [lockedSince_snoc]
        exact List.append_ne_nil_of_right_ne_nil _ (List.cons_ne_nil _ _)
      -- from here on every pending wait counts as disturbed
      constructor
      all_goals grind
  | unlock thread =>
      obtain ⟨⟨⟨outside, absent⟩, owns⟩, rfl⟩ := moves
      -- beside an owner between its calls no undisturbed wait is pending
      constructor
      all_goals grind [lockedSince_snoc]
  | release thread =>
      obtain ⟨unlocking, owns, rfl⟩ := moves
      have unchanged : (lock.mutex.next (.release thread)).parked = lock.mutex.parked := rfl
      have owner : (lock.mutex.next (.release thread)).owner = none := rfl
      constructor
      all_goals grind [lockedSince_snoc]
  | wait thread cond =>
      obtain ⟨between, owns, rfl⟩ := moves
      exact wait ⟨sees, left⟩ between owns fun _ => lockedSince_snoc
  | waitForSeconds thread cond =>
      obtain ⟨between, owns, rfl⟩ := moves
      exact wait ⟨sees, left⟩ between owns fun _ => lockedSince_snoc
  | resume thread =>
      obtain ⟨⟨unowned, awake⟩, rfl⟩ := moves
      have remaining := Monitor.mem_parked_resume distinct awake
      have owner : (lock.mutex.next (.resume thread)).owner = some thread := rfl
      have waited : thread ∈ lock.mutex.parked := List.mem_append_right _ awake
      have unlocked : lockedSince thread trace = [] := undisturbed
      -- `holder_` still names the waiter, and so no other wait is undisturbed
      constructor
      all_goals grind [lockedSince_snoc]
  | notify | notifyAll | expire | stray | assertLocked => exact absurd trivial idle

omit [DecidableEq Cond] in
theorem consistent_construct : (construct : MutexLock Thread Cond).Consistent ids [] where
  distinct := Monitor.distinct_start
  inside := fun _ inside => by cases inside <;> contradiction
  parked := fun _ present => by cases present
  known := .inl rfl
  held := fun thread holds => absurd holds.symm (ids.nonzero thread)
  replaced := fun _ present => by cases present

theorem run_consistent (run : Execution (step ids) anyAction construct trace lock) :
    lock.Consistent ids trace := by
  induction run with
  | nil => exact consistent_construct
  | snoc _ _ stepped ih => exact ih.step (step_eq_ok.mp stepped)

theorem run_calm (run : Execution (step ids) anyAction construct trace lock)
    (undisturbed : History Undisturbed trace) : lock.Calm ids trace := by
  induction run with
  | nil => exact ⟨fun _ owns => (by cases owns), fun _ present => (by cases present)⟩
  | snoc earlier _ stepped ih =>
      obtain ⟨before, allowed⟩ := History.snoc_iff.mp undisturbed
      exact (ih before).step (run_consistent earlier) allowed (step_eq_ok.mp stepped)

/-- Nobody is told to own a mutex that is not its own, whatever the waits do. -/
theorem isLockedByThisThread_sound (run : Execution (step ids) anyAction construct trace lock)
    (between : lock.BetweenCalls thread) (locked : lock.isLockedByThisThread ids thread = true) :
    lock.mutex.owner = some thread := by
  rcases (run_consistent run).held thread (of_decide_eq_true locked) with ⟨owns, _⟩ | waits
  · exact owns
  · exact absurd waits between.2

/-- A mutex that is left unowned is destroyed without a failed assertion. -/
theorem destruct_ok (run : Execution (step ids) anyAction construct trace lock)
    (between : ∀ thread, lock.BetweenCalls thread) (unowned : lock.mutex.owner = none) :
    lock.destruct = .ok () := by
  have consistent := run_consistent run
  rcases consistent.known with zero | ⟨thread, holder⟩
  · exact assert_of zero
  · have owns := isLockedByThisThread_sound run (between thread) (decide_eq_true holder)
    rw [unowned] at owns
    cases owns

omit [DecidableEq Cond] in
theorem Calm.truthful (calm : lock.Calm ids trace) (consistent : lock.Consistent ids trace) :
    lock.Truthful ids := by
  intro thread between
  rw [isLockedByThisThread, decide_eq_true_iff]
  constructor
  · intro holder
    rcases consistent.held thread holder with ⟨owns, _⟩ | waits
    · exact owns
    · exact absurd waits between.2
  · exact fun owns => calm.sees thread owns (.inl between.1)

/-- The thread comes back from its wait to a `holder_` that names another. -/
theorem not_truthful_of_disturbed (consistent : lock.Consistent ids trace)
    (stepped : lock.step ids (.resume thread) = .ok after)
    (disturbed : lockedSince thread trace ≠ []) : ¬ after.Truthful ids := by
  obtain ⟨⟨unowned, awake⟩, rfl⟩ := step_eq_ok.mp stepped
  have waited : thread ∈ lock.mutex.parked := List.mem_append_right _ awake
  intro truthful
  have gone : thread ∉ (lock.mutex.next (.resume thread)).parked := fun present =>
    ((Monitor.mem_parked_resume consistent.distinct awake thread).mp present).2 rfl
  have told := (truthful thread ⟨consistent.parked thread waited, gone⟩).mpr rfl
  exact consistent.replaced thread waited disturbed (of_decide_eq_true told)

/-- While no wait returns after another thread's `lock`, every thread is told the truth between its
calls and no owner's `assertLocked` aborts; the first wait that does ends that. -/
theorem truthful_iff_undisturbed (run : Execution (step ids) anyAction construct trace lock)
    (undisturbed : History Undisturbed trace) :
    lock.Truthful ids ∧
      (∀ thread, lock.BetweenCalls thread → lock.mutex.owner = some thread →
        lock.step ids (.assertLocked thread) = .ok lock) ∧
      ∀ action after, lock.step ids action = .ok after →
        (after.Truthful ids ↔ Undisturbed trace action) := by
  have consistent := run_consistent run
  have calm := run_calm run undisturbed
  have truthful := calm.truthful consistent
  refine ⟨truthful, fun thread between owns => ?_, fun action after stepped => ?_⟩
  · exact step_eq_ok.mpr ⟨between, (truthful thread between).mpr owns, rfl⟩
  · constructor
    · intro told
      cases action with
      | resume thread => exact not_not.mp fun disturbed =>
          not_truthful_of_disturbed consistent stepped disturbed told
      | _ => trivial
    · intro allowed
      have moves := step_eq_ok.mp stepped
      exact (calm.step consistent allowed moves).truthful (consistent.step moves)

def successive : ThreadIds Nat where
  tid := fun thread => thread + 1
  injective := fun thread other same => by
    have same : (thread : Int) + 1 = other + 1 := same
    omega
  nonzero := fun thread => by omega

/-- The theorem where another thread signals without the mutex. -/
theorem truthful_signalled : ∃ lock : MutexLock Nat Unit, lock.BetweenCalls 0 ∧
    lock.mutex.owner = some 0 ∧ lock.isLockedByThisThread successive 0 = true := by
  let trace : List (Action Nat Unit) := [
    .lock 0, .acquire 0, .store 0, .wait 0 (), .notify 1 () (some ⟨0, (), false⟩), .resume 0]
  have replayed : (replay (step successive) anyAction .impossible construct trace).toOption.any
      (fun lock => decide (lock.BetweenCalls 0 ∧ lock.mutex.owner = some 0)) = true := by
    decide +kernel
  obtain ⟨lock, run, reached⟩ := Execution.exists_of_replay replayed
  obtain ⟨between, owns⟩ := of_decide_eq_true reached
  have undisturbed : History Undisturbed trace :=
    ((((((History.nil.snoc trivial).snoc trivial).snoc trivial).snoc trivial).snoc trivial).snoc rfl)
  exact ⟨lock, between, owns,
    ((truthful_iff_undisturbed run undisturbed).1 0 between).mpr owns⟩

/-- A waiter is signalled by a thread that holds the mutex as it does so. -/
theorem waiter_not_told : ∃ lock : MutexLock Nat Unit,
    Execution (step successive) anyAction construct [
      .lock 0, .acquire 0, .store 0, .wait 0 (), .lock 1, .acquire 1, .store 1,
      .notify 1 () (some ⟨0, (), false⟩), .unlock 1, .release 1, .resume 0] lock ∧
    lock.BetweenCalls 0 ∧ lock.mutex.owner = some 0 ∧
    lock.isLockedByThisThread successive 0 = false ∧
    lock.step successive (.assertLocked 0) = .error (.assertion .assertLocked) := by
  have replayed : (replay (step successive) anyAction .impossible
      (construct : MutexLock Nat Unit) [
        .lock 0, .acquire 0, .store 0, .wait 0 (), .lock 1, .acquire 1, .store 1,
        .notify 1 () (some ⟨0, (), false⟩), .unlock 1, .release 1, .resume 0]).toOption.any
      (fun lock => decide (lock.BetweenCalls 0 ∧ lock.mutex.owner = some 0 ∧
        lock.isLockedByThisThread successive 0 = false)) = true := by
    decide +kernel
  obtain ⟨lock, run, reached⟩ := Execution.exists_of_replay replayed
  obtain ⟨between, owns, untold⟩ := of_decide_eq_true reached
  refine ⟨lock, run, between, owns, untold, ?_⟩
  rw [step, assume, require_of between, assert, untold]
  rfl

end TransferServer.Base.MutexLock
