import Mathlib.Algebra.Group.Nat.Defs
import Mathlib.Data.Prod.Lex
import Mathlib.Logic.Function.Basic
import Mathlib.Order.Fin.Basic
import TransferServer.Lib.OrderedSet
import TransferServer.Base.Outcome

/-! `muduo::TimerQueue` (TimerQueue.cpp, Timer.cpp): the set of timers keyed by expiration
and address, the timerfd armed for the earliest, and the callbacks, which may add timers. A
`Timestamp` is its number of microseconds since the epoch, an interval is in microseconds. -/

set_option autoImplicit false

namespace TransferServer.Net

open Lib

namespace Timestamp

def kMicroSecondsPerSecond : Int := 1000 * 1000

def invalid : Int := 0

def valid (timestamp : Int) : Prop := 0 < timestamp

instance (timestamp : Int) : Decidable (valid timestamp) := inferInstanceAs (Decidable (0 < timestamp))

end Timestamp

def addTime (timestamp : Int) (interval : Int) : Int := timestamp + interval

structure Timer where
  /-- `callback_`, known by the number of its timer in the order of creation. -/
  callback : Nat
  expiration : Int
  interval : Int
  deriving DecidableEq, Repr

namespace Timer

/-- `repeat()` -/
def repeats (timer : Timer) : Bool := 0 < timer.interval

def restart (timer : Timer) (now : Int) : Timer :=
  if timer.repeats then { timer with expiration := addTime now timer.interval }
  else { timer with expiration := Timestamp.invalid }

end Timer

structure Timespec where
  tvSec : Int
  tvNsec : Int
  deriving DecidableEq, Repr

/-- What timerfd_settime(2) accepts. -/
def Timespec.Legal (value : Timespec) : Prop :=
  0 ≤ value.tvSec ∧ 0 ≤ value.tvNsec ∧ value.tvNsec < 1000000000

instance (value : Timespec) : Decidable value.Legal :=
  inferInstanceAs (Decidable (0 ≤ value.tvSec ∧ 0 ≤ value.tvNsec ∧ value.tvNsec < 1000000000))

/-- A one-shot timerfd. -/
inductive Timerfd where
  | disarmed
  /-- Armed at the clock reading `since`, to expire after `value`. -/
  | armed (value : Timespec) (since : Int)
  | readable
  deriving DecidableEq, Repr

/-- A new setting takes back an expiration that has not been read. -/
def Timerfd.settime (timerfd : Timerfd) (value : Timespec) (clock : Int) : Timerfd :=
  if value.Legal then if value = ⟨0, 0⟩ then .disarmed else .armed value clock
  else timerfd

def Timerfd.expire : Timerfd → Timerfd
  | .armed _ _ => .readable
  | timerfd => timerfd

def readTimerfd : Timerfd → Timerfd
  | .readable => .disarmed
  | timerfd => timerfd

/-- `clock` is what `Timestamp::now()` returns here. -/
def howMuchTimeFromNow (when clock : Int) : Timespec :=
  let microseconds := when - clock
  let microseconds := if microseconds < 100 then 100 else microseconds
  { tvSec := microseconds.tdiv Timestamp.kMicroSecondsPerSecond
    tvNsec := microseconds.tmod Timestamp.kMicroSecondsPerSecond * 1000 }

def resetTimerfd (timerfd : Timerfd) (expiration clock : Int) : Timerfd :=
  timerfd.settime (howMuchTimeFromNow expiration clock) clock

/-- The address of a `Timer`. -/
abbrev TimerPtr := Fin (2 ^ 64)

def UINTPTR_MAX : TimerPtr := Fin.last _

abbrev Entry := Int ×ₗ TimerPtr

def Entry.first (entry : Entry) : Int := (ofLex entry).1

def Entry.second (entry : Entry) : TimerPtr := (ofLex entry).2

structure TimerQueue where
  timerfd : Timerfd
  timers : OrderedSet Entry
  /-- The timers that have been created and not deleted. -/
  heap : TimerPtr → Option Timer
  /-- How many timers have been created. -/
  created : Nat
  /-- The timers that have run, as they were then. -/
  ran : List Timer

/-- A call of `addTimer`: its arguments, the address of the new timer, and the clock. -/
structure NewTimer where
  ptr : TimerPtr
  when : Int
  interval : Int
  clock : Int
  deriving DecidableEq, Repr

def NewTimer.timer (request : NewTimer) (number : Nat) : Timer :=
  ⟨number, request.when, request.interval⟩

/-- What may happen while a callback runs. -/
inductive CallbackEvent where
  | addTimer (request : NewTimer)
  | expire
  deriving DecidableEq, Repr

/-- One call of `handleRead`: the clock at its start, what happens in each callback, and the
clock when the timerfd is armed again. -/
structure Alarm where
  now : Int
  callbacks : List (List CallbackEvent)
  clock : Int
  deriving DecidableEq, Repr

namespace TimerQueue

def construct : TimerQueue where
  timerfd := .disarmed
  timers := .empty
  heap := fun _ => none
  created := 0
  ran := []

def deref (queue : TimerQueue) (ptr : TimerPtr) : Outcome Timer :=
  match queue.heap ptr with
  | some timer => return timer
  | none => throw .dangling

def store (queue : TimerQueue) (ptr : TimerPtr) (timer : Option Timer) : TimerQueue :=
  { queue with heap := Function.update queue.heap ptr timer }

/-- Whether a timer with this expiration comes before all others. -/
def earliestChanged (queue : TimerQueue) (expiration : Int) : Bool :=
  match queue.timers.elems.head? with
  | none => true
  | some first => expiration < first.first

def insert (queue : TimerQueue) (ptr : TimerPtr) : Outcome (TimerQueue × Bool) := do
  let timer ← queue.deref ptr
  let (timers, inserted) := queue.timers.insert (toLex (timer.expiration, ptr))
  assert .insert (inserted = true)
  return ({ queue with timers }, queue.earliestChanged timer.expiration)

def addTimerInLoop (queue : TimerQueue) (ptr : TimerPtr) (clock : Int) :
    Outcome TimerQueue := do
  let (queue, earliestChanged) ← queue.insert ptr
  if earliestChanged then
    let timer ← queue.deref ptr
    return { queue with timerfd := resetTimerfd queue.timerfd timer.expiration clock }
  else return queue

/-- `new Timer(cb,when,interval)` -/
def allocate (queue : TimerQueue) (request : NewTimer) : TimerQueue :=
  { queue.store request.ptr (some (request.timer queue.created)) with created := queue.created + 1 }

/-- `addTimer` on the thread of the loop. -/
def addTimer (queue : TimerQueue) (request : NewTimer) : Outcome TimerQueue := do
  assume (queue.heap request.ptr = none ∧ request.ptr ≠ UINTPTR_MAX)
  (queue.allocate request).addTimerInLoop request.ptr request.clock

def getExpired (queue : TimerQueue) (now : Int) : Outcome (List Entry × TimerQueue) := do
  let sentry : Entry := toLex (now, UINTPTR_MAX)
  let timers := queue.timers.rest sentry
  assert .getExpired (∀ first ∈ timers.elems.head?, now < first.first)
  return (queue.timers.below sentry, { queue with timers })

def happen (queue : TimerQueue) : CallbackEvent → Outcome TimerQueue
  | .addTimer request => queue.addTimer request
  | .expire => return { queue with timerfd := queue.timerfd.expire }

/-- `it->second->run()` -/
def run (queue : TimerQueue) (entry : Entry) (events : List CallbackEvent) :
    Outcome TimerQueue := do
  let timer ← queue.deref entry.second
  events.foldlM happen { queue with ran := queue.ran ++ [timer] }

def runAll (queue : TimerQueue) : List Entry → List (List CallbackEvent) → Outcome TimerQueue
  | [], _ => return queue
  | entry :: expired, callbacks => do
      let queue ← queue.run entry (callbacks.headD [])
      queue.runAll expired callbacks.tail

/-- The body of the loop in `reset`. -/
def restartOrDelete (now : Int) (queue : TimerQueue) (entry : Entry) :
    Outcome TimerQueue := do
  let timer ← queue.deref entry.second
  if timer.repeats then
    let (queue, _) ← (queue.store entry.second (some (timer.restart now))).insert entry.second
    return queue
  else return queue.store entry.second none

def nextExpire (queue : TimerQueue) : Outcome Int :=
  match queue.timers.elems.head? with
  | none => return Timestamp.invalid
  | some first => do
      let timer ← queue.deref first.second
      return timer.expiration

def reset (queue : TimerQueue) (expired : List Entry) (now clock : Int) :
    Outcome TimerQueue := do
  let queue ← expired.foldlM (restartOrDelete now) queue
  let nextExpire ← queue.nextExpire
  if Timestamp.valid nextExpire then
    return { queue with timerfd := resetTimerfd queue.timerfd nextExpire clock }
  else return queue

def handleRead (queue : TimerQueue) (alarm : Alarm) : Outcome TimerQueue := do
  let queue := { queue with timerfd := readTimerfd queue.timerfd }
  let (expired, queue) ← queue.getExpired alarm.now
  let queue ← queue.runAll expired alarm.callbacks
  queue.reset expired alarm.now alarm.clock

end TimerQueue

inductive TimerAction where
  | addTimer (request : NewTimer)
  | handleRead (alarm : Alarm)
  | expire
  deriving DecidableEq, Repr

def TimerQueue.step (queue : TimerQueue) : TimerAction → Outcome TimerQueue
  | .addTimer request => queue.addTimer request
  | .handleRead alarm => queue.handleRead alarm
  | .expire => return { queue with timerfd := queue.timerfd.expire }

end TransferServer.Net
