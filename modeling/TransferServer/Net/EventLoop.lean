import Mathlib.Logic.Function.Basic
import TransferServer.Base.Outcome

/-! `muduo::EventLoop` (EventLoop.h, EventLoop.cpp): the queue of functors, the eventfd that
wakes the loop, and `loop()` cut at every point where another thread can come in between. -/

set_option autoImplicit false

namespace TransferServer.Net

/-- Where the loop thread stands. -/
inductive Phase where
  | outside
  /-- At `while (!quit_)`. -/
  | testing
  /-- About to block in poll. -/
  | polling
  /-- Among the handlers of `activeChannels_`. -/
  | dispatching
  /-- In `doPendingFunctors`, before the lock is taken. -/
  | swapping
  /-- Among the functors of the batch. -/
  | running
  deriving DecidableEq, Repr

structure EventLoop (τ F : Type) where
  phase : Phase
  looping : Bool
  quit : Bool
  callingPendingFunctors : Bool
  threadId : τ
  /-- The counter behind `wakeupFd_`. -/
  eventfd : Nat
  pendingFunctors : List F
  /-- What `doPendingFunctors` has swapped out and not yet started. -/
  functors : List F
  deriving DecidableEq, Repr

namespace EventLoop

variable {τ F : Type}

def construct (threadId : τ) : EventLoop τ F where
  phase := .outside
  looping := false
  quit := false
  callingPendingFunctors := false
  threadId
  eventfd := 0
  pendingFunctors := []
  functors := []

def wakeup (loop : EventLoop τ F) : EventLoop τ F := { loop with eventfd := loop.eventfd + 1 }

def handleRead (loop : EventLoop τ F) : EventLoop τ F := { loop with eventfd := 0 }

/-- The part of `queueInLoop` under the lock. -/
def pushBack (loop : EventLoop τ F) (cb : F) : EventLoop τ F :=
  { loop with pendingFunctors := loop.pendingFunctors ++ [cb] }

/-- The start of `loop()`, up to its first test. -/
def enter (loop : EventLoop τ F) : Outcome (EventLoop τ F) := do
  assert .loop (loop.looping = false)
  return { loop with phase := .testing, looping := true, quit := false }

def test (loop : EventLoop τ F) : EventLoop τ F :=
  if loop.quit then { loop with phase := .outside, looping := false }
  else { loop with phase := .polling }

def poll (loop : EventLoop τ F) : EventLoop τ F := { loop with phase := .dispatching }

/-- `doPendingFunctors` up to the lock. -/
def prepare (loop : EventLoop τ F) : EventLoop τ F :=
  { loop with phase := .swapping, callingPendingFunctors := true }

def swap (loop : EventLoop τ F) : EventLoop τ F :=
  { loop with phase := .running, functors := loop.pendingFunctors, pendingFunctors := [] }

def finish (loop : EventLoop τ F) : EventLoop τ F :=
  { loop with phase := .testing, callingPendingFunctors := false }

section

variable [DecidableEq τ]

def isInLoopThread (loop : EventLoop τ F) (caller : τ) : Bool := loop.threadId = caller

/-- The part of `queueInLoop` after the lock. -/
def wakeupUnlessIdle (loop : EventLoop τ F) (caller : τ) : EventLoop τ F :=
  if loop.isInLoopThread caller = false ∨ loop.callingPendingFunctors = true then loop.wakeup
  else loop

def queueInLoop (loop : EventLoop τ F) (caller : τ) (cb : F) : EventLoop τ F :=
  (loop.pushBack cb).wakeupUnlessIdle caller

end

end EventLoop

/-- Where a thread stands in a call on the loop. -/
inductive CallStatus (F : Type) where
  | idle
  /-- In `queueInLoop`, before the lock. -/
  | locking (cb : F)
  /-- In `queueInLoop`, with the functor pushed. -/
  | pushed
  /-- In `quit`, with `quit_` set. -/
  | quitting
  deriving DecidableEq, Repr

instance {F : Type} (status : CallStatus F) : Decidable (status = .idle) :=
  match status with
  | .idle => .isTrue rfl
  | .locking _ => .isFalse nofun
  | .pushed => .isFalse nofun
  | .quitting => .isFalse nofun

inductive EntryPoint where
  | runInLoop
  | queueInLoop
  deriving DecidableEq, Repr

inductive LoopAction (τ F : Type) where
  | call (caller : τ) (entry : EntryPoint) (cb : F)
  | push (caller : τ)
  | wakeup (caller : τ)
  | quit (caller : τ)
  | enter
  | test
  | poll
  | handleRead
  | prepare
  | swap
  | start
  | finish
  deriving DecidableEq, Repr

/-- One loop with all the threads that call it, and a record of their calls. -/
structure LoopSystem (τ F : Type) where
  loop : EventLoop τ F
  status : τ → CallStatus F
  /-- What each thread has passed to `runInLoop` and `queueInLoop`. -/
  submitted : τ → List F
  /-- The functors in the order in which they were pushed, with the pushing thread. -/
  pushes : List (τ × F)
  /-- The functors that `doPendingFunctors` has started. -/
  started : List F

namespace LoopSystem

variable {τ F : Type}

def construct (threadId : τ) : LoopSystem τ F where
  loop := .construct threadId
  status := fun _ => .idle
  submitted := fun _ => []
  pushes := []
  started := []

/-- Other threads call at any time, the loop thread from its handlers and functors. -/
def MayCall (system : LoopSystem τ F) (caller : τ) : Prop :=
  system.status caller = .idle ∧
    (caller = system.loop.threadId →
      system.loop.phase = .dispatching ∨ system.loop.phase = .running)

/-- The loop thread is at `phase`, outside every call. -/
def At (system : LoopSystem τ F) (phase : Phase) : Prop :=
  system.loop.phase = phase ∧ system.status system.loop.threadId = .idle

section

variable [DecidableEq τ]

instance (system : LoopSystem τ F) (caller : τ) : Decidable (system.MayCall caller) :=
  inferInstanceAs (Decidable (_ ∧ (_ → _)))

instance (system : LoopSystem τ F) (phase : Phase) : Decidable (system.At phase) :=
  inferInstanceAs (Decidable (_ ∧ _))

def setStatus (system : LoopSystem τ F) (caller : τ) (status : CallStatus F) : LoopSystem τ F :=
  { system with status := Function.update system.status caller status }

def call (system : LoopSystem τ F) (caller : τ) (entry : EntryPoint) (cb : F) : LoopSystem τ F :=
  let recorded := { system with
    submitted := Function.update system.submitted caller (system.submitted caller ++ [cb]) }
  match entry with
  -- `cb()` runs on the spot
  | .runInLoop => if system.loop.isInLoopThread caller then recorded
      else recorded.setStatus caller (.locking cb)
  | .queueInLoop => recorded.setStatus caller (.locking cb)

def push (system : LoopSystem τ F) (caller : τ) : Outcome (LoopSystem τ F) :=
  match system.status caller with
  | .locking cb =>
      return { system.setStatus caller .pushed with
        loop := system.loop.pushBack cb
        pushes := system.pushes ++ [(caller, cb)] }
  | _ => throw .impossible

def wakeup (system : LoopSystem τ F) (caller : τ) : Outcome (LoopSystem τ F) :=
  match system.status caller with
  | .pushed =>
      return { system.setStatus caller .idle with loop := system.loop.wakeupUnlessIdle caller }
  | .quitting => return { system.setStatus caller .idle with loop := system.loop.wakeup }
  | _ => throw .impossible

def quit (system : LoopSystem τ F) (caller : τ) : LoopSystem τ F :=
  let system := { system with loop := { system.loop with quit := true } }
  if system.loop.isInLoopThread caller then system else system.setStatus caller .quitting

def start (system : LoopSystem τ F) : Outcome (LoopSystem τ F) :=
  match system.loop.functors with
  | [] => throw .impossible
  | cb :: functors =>
      return { system with loop := { system.loop with functors }, started := system.started ++ [cb] }

def step (system : LoopSystem τ F) : LoopAction τ F → Outcome (LoopSystem τ F)
  | .call caller entry cb => do
      assume (system.MayCall caller)
      return system.call caller entry cb
  | .push caller => system.push caller
  | .wakeup caller => system.wakeup caller
  | .quit caller => do
      assume (system.MayCall caller)
      return system.quit caller
  | .enter => do
      assume (system.At .outside)
      let loop ← system.loop.enter
      return { system with loop }
  | .test => do
      assume (system.At .testing)
      return { system with loop := system.loop.test }
  | .poll => do
      assume (system.At .polling)
      return { system with loop := system.loop.poll }
  | .handleRead => do
      assume (system.At .dispatching)
      return { system with loop := system.loop.handleRead }
  | .prepare => do
      assume (system.At .dispatching)
      return { system with loop := system.loop.prepare }
  | .swap => do
      assume (system.At .swapping)
      return { system with loop := system.loop.swap }
  | .start => do
      assume (system.At .running)
      system.start
  | .finish => do
      assume (system.At .running ∧ system.loop.functors = [])
      return { system with loop := system.loop.finish }

end

end LoopSystem

end TransferServer.Net
