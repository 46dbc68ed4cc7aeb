import TransferServer.Net.EventLoop

/-! `muduo::EventLoopThread` (EventLoopThread.cpp, Thread.cpp): the owner that starts and
destroys it, and `threadFunc` with the loop on its stack. `existing_` is only written, never
read, and left out. -/

set_option autoImplicit false

namespace TransferServer.Net

/-- Where the new thread stands in `threadFunc`. -/
inductive ThreadFunc where
  | unstarted
  | constructing
  /-- At the lock, with the loop constructed. -/
  | publishing
  /-- Past the lock, before `loop.loop()`. -/
  | calling
  /-- In `loop()`, or just returned from it. -/
  | looping
  | finished
  deriving DecidableEq, Repr

/-- Where the owner stands. -/
inductive Owner where
  | fresh
  /-- In `startLoop`, waiting for `loop_`. -/
  | starting
  /-- `startLoop` has returned. -/
  | holding
  /-- In the destructor, in its call of `quit`. -/
  | destroying
  /-- In the destructor, in `thread_.join()`. -/
  | joining
  | gone
  deriving DecidableEq, Repr

structure EventLoopThread (τ F : Type) where
  /-- `thread_.started_` -/
  started : Bool
  /-- `loop_ != NULL` -/
  published : Bool
  threadFunc : ThreadFunc
  owner : Owner
  /-- The loop of `threadFunc`, as long as that is between its construction and its end. -/
  system : LoopSystem τ F
  /-- `quit()` has been called since `startLoop()` returned. -/
  requested : Bool

inductive ThreadAction (τ F : Type) where
  /-- `startLoop`, up to its wait; `pthread_create` may fail. -/
  | startLoop (created : Bool)
  | startLoopReturn
  | construct
  | publish
  /-- The call of `loop()`, up to its first test. -/
  | enter
  | onLoop (action : LoopAction τ F)
  /-- The end of `threadFunc`, which destroys the loop. -/
  | finish
  /-- `~EventLoopThread`, up to the wakeup in `quit`. -/
  | destruct
  | join
  | joinReturn
  deriving DecidableEq, Repr

variable {τ F : Type}

/-- The thread that calls a member of the loop. -/
def LoopAction.caller : LoopAction τ F → Option τ
  | .call caller _ _ => some caller
  | .push caller => some caller
  | .wakeup caller => some caller
  | .quit caller => some caller
  | _ => none

def LoopAction.isEnter : LoopAction τ F → Bool
  | .enter => true
  | _ => false

def LoopAction.isQuit : LoopAction τ F → Bool
  | .quit _ => true
  | _ => false

def LoopAction.isWakeup : LoopAction τ F → Bool
  | .wakeup _ => true
  | _ => false

namespace EventLoopThread

/-- `EventLoopThread::EventLoopThread` -/
def construct (worker : τ) : EventLoopThread τ F where
  started := false
  published := false
  threadFunc := .unstarted
  owner := .fresh
  system := .construct worker
  requested := false

/-- The loop on the stack of `threadFunc` exists. -/
def Alive (thread : EventLoopThread τ F) : Prop :=
  thread.threadFunc = .publishing ∨ thread.threadFunc = .calling ∨ thread.threadFunc = .looping

instance (thread : EventLoopThread τ F) : Decidable thread.Alive :=
  inferInstanceAs (Decidable (_ ∨ _ ∨ _))

/-- `startLoop` has returned the pointer. -/
def Returned (thread : EventLoopThread τ F) : Prop :=
  thread.owner ≠ .fresh ∧ thread.owner ≠ .starting

instance (thread : EventLoopThread τ F) : Decidable thread.Returned :=
  inferInstanceAs (Decidable (_ ∧ _))

/-- `Thread::start` -/
def start (thread : EventLoopThread τ F) (created : Bool) : Outcome (EventLoopThread τ F) := do
  assert .threadStart (thread.started = false)
  return { thread with
    started := true
    threadFunc := if created then .constructing else .unstarted }

section

variable [DecidableEq τ]

/-- The new thread has its loop; any other thread needs the pointer that `startLoop` returned,
and in its destructor the owner only goes on with `quit`. -/
def MayUse (thread : EventLoopThread τ F) (owner worker : τ) (action : LoopAction τ F) : Prop :=
  ∀ caller ∈ action.caller, caller = worker ∨ thread.Returned ∧ (caller = owner →
    thread.owner = .holding ∨ thread.owner = .destroying ∧ action.isWakeup = true)

instance (thread : EventLoopThread τ F) (owner worker : τ) (action : LoopAction τ F) :
    Decidable (thread.MayUse owner worker action) :=
  inferInstanceAs (Decidable (∀ _ ∈ action.caller, _ ∨ _ ∧ (_ → _ ∨ _ ∧ _)))

def step (owner worker : τ) (thread : EventLoopThread τ F) :
    ThreadAction τ F → Outcome (EventLoopThread τ F)
  | .startLoop created => do
      assume (thread.owner = .fresh ∨ thread.owner = .holding)
      assert .startLoop (thread.started = false)
      let thread ← thread.start created
      return { thread with owner := .starting }
  | .startLoopReturn => do
      assume (thread.owner = .starting ∧ thread.published = true)
      return { thread with owner := .holding }
  | .construct => do
      assume (thread.threadFunc = .constructing)
      return { thread with threadFunc := .publishing, system := .construct worker }
  | .publish => do
      assume (thread.threadFunc = .publishing)
      return { thread with threadFunc := .calling, published := true }
  | .enter => do
      assume (thread.threadFunc = .calling)
      let system ← thread.system.step .enter
      return { thread with threadFunc := .looping, system }
  | .onLoop action => do
      assume (action.isEnter = false ∧ thread.MayUse owner worker action)
      Lib.require .dangling thread.Alive
      let system ← thread.system.step action
      return { thread with
        system
        requested := thread.requested || action.isQuit && decide thread.Returned }
  | .finish => do
      assume (thread.threadFunc = .looping ∧ thread.system.At .outside)
      assert .eventLoopDestructor (thread.system.loop.looping = false)
      return { thread with threadFunc := .finished }
  | .destruct => do
      assume (thread.owner = .fresh ∨ thread.owner = .holding)
      -- `loop_` is NULL, or the loop is gone
      Lib.require .dangling (thread.published = true ∧ thread.Alive)
      let system ← thread.system.step (.quit owner)
      return { thread with owner := .destroying, system, requested := true }
  | .join => do
      assume (thread.owner = .destroying ∧ thread.system.status owner = .idle)
      assert .threadJoin (thread.started = true)
      return { thread with owner := .joining }
  | .joinReturn => do
      assume (thread.owner = .joining ∧ thread.threadFunc = .finished)
      return { thread with owner := .gone }

end

end EventLoopThread

end TransferServer.Net
