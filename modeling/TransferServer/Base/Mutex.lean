import Mathlib.Logic.Function.Basic
import TransferServer.Lib.Monitor
import TransferServer.Base.Outcome

/-! `muduo::MutexLock` (Mutex.h) with its `Condition`s (Condition.h, Condition.cpp). The calls of
`lock` and `unlock` are cut between `pthread` and `holder_`. -/

set_option autoImplicit false

namespace TransferServer.Base

/-- `CurrentThread::tid()` of the threads of a process. -/
structure ThreadIds (Thread : Type) where
  tid : Thread → Int
  injective : Function.Injective tid
  nonzero : ∀ thread, tid thread ≠ 0

/-- Where a thread stands in `lock` or `unlock`. -/
inductive Phase where
  | outside
  /-- At `pthread_mutex_lock`. -/
  | locking
  /-- At `holder_ = CurrentThread::tid()`. -/
  | storing
  /-- At `pthread_mutex_unlock`. -/
  | unlocking
  deriving DecidableEq, Repr

structure MutexLock (Thread Cond : Type) where
  mutex : Lib.Monitor Thread Cond
  holder : Int
  phase : Thread → Phase

namespace MutexLock

variable {Thread Cond : Type} [DecidableEq Thread] [DecidableEq Cond]

def construct : MutexLock Thread Cond := ⟨.start, 0, fun _ => .outside⟩

inductive Action (Thread Cond : Type) where
  | lock (thread : Thread)
  /-- `pthread_mutex_lock` returns. -/
  | acquire (thread : Thread)
  | store (thread : Thread)
  | unlock (thread : Thread)
  | release (thread : Thread)
  | wait (thread : Thread) (cond : Cond)
  /-- The deadline only says when the wait may expire. -/
  | waitForSeconds (thread : Thread) (cond : Cond)
  | notify (thread : Thread) (cond : Cond) (woken : Option (Lib.Waiter Thread Cond))
  | notifyAll (thread : Thread) (cond : Cond)
  | expire (waiter : Lib.Waiter Thread Cond)
  | stray (waiter : Lib.Waiter Thread Cond)
  /-- `pthread_cond_wait` or `pthread_cond_timedwait` returns. -/
  | resume (thread : Thread)
  | assertLocked (thread : Thread)
  deriving DecidableEq, Repr

def BetweenCalls (lock : MutexLock Thread Cond) (thread : Thread) : Prop :=
  lock.phase thread = .outside ∧ thread ∉ lock.mutex.parked

instance (lock : MutexLock Thread Cond) (thread : Thread) : Decidable (lock.BetweenCalls thread) :=
  inferInstanceAs (Decidable (_ ∧ _))

def move (lock : MutexLock Thread Cond) (thread : Thread) (phase : Phase) : MutexLock Thread Cond :=
  { lock with phase := Function.update lock.phase thread phase }

/-- An event of the `pthread` objects, which only happens where it can. -/
def pthread (lock : MutexLock Thread Cond) (event : Lib.Monitor.Event Thread Cond) :
    Outcome (MutexLock Thread Cond) := do
  assume (lock.mutex.Enabled event)
  return { lock with mutex := lock.mutex.next event }

variable (ids : ThreadIds Thread)

def isLockedByThisThread (lock : MutexLock Thread Cond) (thread : Thread) : Bool :=
  lock.holder = ids.tid thread

/-- Only its owner unlocks a mutex or waits with it, as `pthread` demands. -/
def step (lock : MutexLock Thread Cond) : Action Thread Cond → Outcome (MutexLock Thread Cond)
  | .lock thread => do
      assume (lock.BetweenCalls thread)
      return lock.move thread .locking
  | .acquire thread => do
      assume (lock.phase thread = .locking)
      let lock ← lock.pthread (.acquire thread)
      return lock.move thread .storing
  | .store thread => do
      assume (lock.phase thread = .storing)
      return { lock with holder := ids.tid thread }.move thread .outside
  | .unlock thread => do
      assume (lock.BetweenCalls thread ∧ lock.mutex.owner = some thread)
      return { lock with holder := 0 }.move thread .unlocking
  | .release thread => do
      assume (lock.phase thread = .unlocking)
      let lock ← lock.pthread (.release thread)
      return lock.move thread .outside
  | .wait thread cond => do
      assume (lock.BetweenCalls thread)
      lock.pthread (.wait ⟨thread, cond, false⟩)
  | .waitForSeconds thread cond => do
      assume (lock.BetweenCalls thread)
      lock.pthread (.wait ⟨thread, cond, true⟩)
  | .notify thread cond woken => do
      assume (lock.BetweenCalls thread)
      lock.pthread (.signal cond woken)
  | .notifyAll thread cond => do
      assume (lock.BetweenCalls thread)
      lock.pthread (.broadcast cond)
  | .expire waiter => lock.pthread (.expire waiter)
  | .stray waiter => lock.pthread (.stray waiter)
  | .resume thread => lock.pthread (.resume thread)
  | .assertLocked thread => do
      assume (lock.BetweenCalls thread)
      assert .assertLocked (lock.isLockedByThisThread ids thread)
      return lock

/-- `~MutexLock` -/
def destruct (lock : MutexLock Thread Cond) : Outcome Unit := assert .mutexDestructor (lock.holder = 0)

end MutexLock

end TransferServer.Base
