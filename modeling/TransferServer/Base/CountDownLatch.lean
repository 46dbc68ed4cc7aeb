import TransferServer.Lib.GuardedWaitProgress
import TransferServer.Base.Outcome

/-! `muduo::CountDownLatch` (CountDownLatch.h), for any number of threads. Nothing here reads
`holder_` of the mutex, and it is left out. -/

set_option autoImplicit false

namespace TransferServer.Base

open Lib

inductive LatchUpdate where
  | countDown
  | getCount
  deriving DecidableEq, Repr

/-- On `count_`, as the lock of the latch protects it. -/
abbrev CountDownLatch (Thread : Type) := GuardedWait Thread Int LatchUpdate

namespace CountDownLatch

/-- `while (count_ > 0)`, `--count_` and `if (count_ == 0)`. -/
def guard : Guard Int LatchUpdate Halt where
  opens count := !decide (0 < count)
  apply
    | .countDown, count =>
        if -2147483648 ≤ count - 1 then .ok (count - 1) else .error .overflow
    | .getCount, count => .ok count
  notifies
    | .countDown, count => count = 0
    | .getCount, _ => false
  all := true

variable {Thread : Type} [DecidableEq Thread]

def construct (count : Int) : CountDownLatch Thread := GuardedWait.start count

def step (latch : CountDownLatch Thread) (action : GuardedWait.Action Thread LatchUpdate) :
    Outcome (CountDownLatch Thread) :=
  GuardedWait.step guard .impossible latch action

/-- How often `--count_` has been executed. -/
def decrements (actions : List (GuardedWait.Action Thread LatchUpdate)) : Nat :=
  actions.countP fun action => match action with
    | .update _ .countDown => true
    | _ => false

theorem guard_lawful : guard.Lawful where
  stays := by
    intro update count count' applied opened
    cases update with
    | countDown =>
        dsimp only [guard] at applied opened ⊢
        split at applied
        · cases applied
          simp only [Bool.not_eq_true', decide_eq_false_iff_not] at opened ⊢
          omega
        · cases applied
    | getCount =>
        cases applied
        exact opened
  tells := by
    intro update count count' applied closed opened
    cases update with
    | countDown =>
        dsimp only [guard] at applied closed opened ⊢
        split at applied
        · cases applied
          simp only [Bool.not_eq_true', Bool.not_eq_false', decide_eq_false_iff_not,
            decide_eq_true_iff] at closed opened ⊢
          omega
        · cases applied
    | getCount =>
        cases applied
        cases closed.symm.trans opened

theorem opens_iff {count : Int} : guard.opens count = true ↔ count ≤ 0 := by
  simp [guard]

omit [DecidableEq Thread] in
theorem calls_all (action : GuardedWait.Action Thread LatchUpdate) :
    GuardedWait.Calls guard none action := nofun

variable {latch after final : CountDownLatch Thread} {count : Int}
variable {actions later : List (GuardedWait.Action Thread LatchUpdate)}

/-- The count is what the constructor has set, less one for each decrement. -/
theorem run_count (run : Execution step anyAction (construct count) actions latch) :
    latch.shared = count - decrements actions := by
  induction run with
  | nil => simp [construct, GuardedWait.start, decrements]
  | @snoc actions before after action _ _ stepped ih =>
      have moves := GuardedWait.step_eq_ok.mp stepped
      have grown : decrements (actions ++ [action]) = decrements actions + decrements [action] :=
        List.countP_append ..
      rw [grown]
      by_cases updates : ∃ thread update, action = .update thread update
      · obtain ⟨thread, update, rfl⟩ := updates
        obtain ⟨shared, _, applied, rfl⟩ := moves
        cases update with
        | countDown =>
            dsimp only [guard] at applied
            split at applied
            · cases applied
              have one : decrements [.update thread .countDown] = 1 := rfl
              dsimp only
              omega
            · cases applied
        | getCount =>
            cases applied
            have none : decrements [.update thread .getCount] = 0 := rfl
            dsimp only
            omega
      · have none : decrements [action] = 0 := by
          cases action with
          | update thread update => exact absurd ⟨thread, update, rfl⟩ updates
          | _ => rfl
        rw [GuardedWait.shared_step stepped fun thread update same => updates ⟨thread, update, same⟩]
        omega

theorem run_ready (run : Execution step anyAction (construct count) actions latch) :
    GuardedWait.Ready guard none latch :=
  GuardedWait.run_ready guard_lawful (fun _ action _ => calls_all action) run

/-- No `wait` comes to its return before `countDown` has counted `count` times, stray wakeups
notwithstanding. -/
theorem wait_counted (run : Execution step anyAction (construct count) actions latch)
    {thread : Thread} (returning : latch.place thread = .leaving .wait) :
    count ≤ decrements actions := by
  have counted := run_count run
  have opened := opens_iff.mp ((run_ready run).seen thread returning)
  omega

/-- The theorem where a thread has slept through a stray wakeup until another counted. -/
theorem wait_counted_strayed : ∃ (latch : CountDownLatch Nat)
    (actions : List (GuardedWait.Action Nat LatchUpdate)),
      latch.place 0 = .leaving .wait ∧ .stray 0 ∈ actions ∧ (1 : Int) ≤ decrements actions := by
  let actions : List (GuardedWait.Action Nat LatchUpdate) := [.call 0 .wait, .lock 0, .test 0,
    .stray 0, .resume 0, .test 0, .call 1 (.update .countDown), .lock 1, .update 1 .countDown,
    .notify 1 none, .unlock 1, .resume 0, .test 0]
  have replayed : (replay step anyAction .impossible (construct 1) actions).toOption.any
      (fun latch => decide (latch.place 0 = .leaving .wait)) = true := by
    decide +kernel
  obtain ⟨latch, run, tested⟩ := Execution.exists_of_replay replayed
  have returning := of_decide_eq_true tested
  exact ⟨latch, actions, returning, by simp [actions], wait_counted run returning⟩

/-- Once `countDown` has counted `count` times no wakeup is lost: nobody sleeps unless a
`notifyAll` is still to come, the calls that are pending take at most four more steps each, and
before the last one has returned some thread can go on, short of an underflow of `count_`. -/
theorem calls_return (run : Execution step anyAction (construct count) actions latch)
    (counted : count ≤ decrements actions)
    (rest : Execution step GuardedWait.Owned latch later final) :
    (final.monitor.waiters = [] ∨ ∃ thread update, final.place thread = .notifying update) ∧
      (∃ pending : List Thread, pending.Nodup ∧
        (∀ thread, thread ∈ pending ↔ latch.place thread ≠ .outside) ∧
          later.length ≤ 4 * pending.length) ∧
      ((∃ thread, final.place thread ≠ .outside) → -2147483648 < final.shared →
        ∃ action after, GuardedWait.Action.Own action ∧ step final action = .ok after) := by
  have opened : guard.opens latch.shared = true := by
    rw [opens_iff, run_count run]
    omega
  obtain ⟨pending, nodup, unfinished⟩ := GuardedWait.run_pending run
  obtain ⟨ready, opened', _, bound⟩ := GuardedWait.own_run pending guard_lawful (run_ready run) opened
    (fun thread => (unfinished thread).mpr) rest
  have total := GuardedWait.remaining_le pending latch
  refine ⟨ready.told opened', ⟨pending, nodup, unfinished, by omega⟩, fun begun high => ?_⟩
  rcases GuardedWait.progress guard Halt.impossible ready.sound ready.told opened' begun with
    ⟨thread, update, error, _, failed⟩ | goes
  · cases update with
    | countDown =>
        have room : -2147483648 ≤ final.shared - 1 := by omega
        dsimp only [guard] at failed
        rw [if_pos room] at failed
        cases failed
    | getCount => cases failed
  · exact goes

/-- The theorem where the first waiter has come back and the second has not. -/
theorem calls_return_one : ∃ (latch : CountDownLatch Nat) (action : GuardedWait.Action Nat LatchUpdate)
    (after : CountDownLatch Nat), latch.place 0 = .outside ∧ latch.place 2 = .asleep ∧
      action.Own ∧ step latch action = .ok after := by
  let actions : List (GuardedWait.Action Nat LatchUpdate) := [.call 0 .wait, .lock 0, .test 0,
    .call 2 .wait, .lock 2, .test 2, .call 1 (.update .countDown), .lock 1, .update 1 .countDown]
  let later : List (GuardedWait.Action Nat LatchUpdate) :=
    [.notify 1 none, .unlock 1, .resume 0, .test 0, .unlock 0]
  have replayed : (replay step anyAction .impossible (construct 1) actions).toOption.any
      (fun latch => (replay step GuardedWait.Owned .impossible latch later).toOption.any
        fun final => decide (final.place 0 = .outside ∧ final.place 2 = .asleep ∧
          -2147483648 < final.shared)) = true := by
    decide +kernel
  obtain ⟨latch, run, continued⟩ := Execution.exists_of_replay replayed
  obtain ⟨final, rest, tested⟩ := Execution.exists_of_replay continued
  obtain ⟨returned, asleep, high⟩ := of_decide_eq_true tested
  obtain ⟨_, _, goes⟩ := calls_return run (show ((1 : Nat) : Int) ≤ decrements actions by decide) rest
  obtain ⟨action, after, own, stepped⟩ := goes ⟨2, by simp [asleep]⟩ high
  exact ⟨final, action, after, returned, asleep, own, stepped⟩

end CountDownLatch

end TransferServer.Base
