import Mathlib.Logic.Function.Basic
import TransferServer.Base.FixedBuffer

/-! `muduo::AsyncLogging` (AsyncLogging.h, AsyncLogging.cpp): the frontend's `append` and the
backend's `threadFunc`, cut where the lock is taken or a buffer is written. `BufferPtr` is a
raw pointer, so a `std::move` leaves its source as it was. -/

set_option autoImplicit false

namespace TransferServer.Base

/-- The address of a `Buffer`; buffers are never deleted. -/
abbrev BufferPtr := Nat

/-- Where the backend stands in `threadFunc`. -/
inductive Backend where
  | starting
  /-- At `while (running_)`. -/
  | testing
  /-- At the assertions of the loop's head. -/
  | checking
  /-- At the lock, or waiting on the condition. -/
  | swapping
  /-- In the loop over `buffersToWrite`, at this index. -/
  | writing (index : Nat)
  | recycling
  | flushing
  /-- After the loop. -/
  | finishing
  | finished
  deriving DecidableEq, Repr

structure AsyncLogging where
  running : Bool
  currentBuffer : Option BufferPtr
  nextBuffer : Option BufferPtr
  buffers : List BufferPtr
  backend : Backend
  newBuffer1 : Option BufferPtr
  newBuffer2 : Option BufferPtr
  buffersToWrite : List BufferPtr
  heap : BufferPtr → FixedBuffer kLargeBuffer
  /-- The next address that `new Buffer` returns. -/
  allocated : Nat
  /-- The bytes passed to `LogFile::append`, and those of them that are flushed. -/
  output : Bytes
  flushed : Bytes
  /-- The lines passed to `append`, in lock order. -/
  appended : List Bytes

namespace AsyncLogging

/-- A started logger whose thread has not run yet. -/
def start : AsyncLogging where
  running := true
  currentBuffer := some 0
  nextBuffer := some 1
  buffers := []
  backend := .starting
  newBuffer1 := none
  newBuffer2 := none
  buffersToWrite := []
  heap := fun _ => .fresh
  allocated := 2
  output := []
  flushed := []
  appended := []

def deref (pointer : Option BufferPtr) : Outcome BufferPtr :=
  match pointer with
  | some buffer => return buffer
  | none => throw .dangling

def store (log : AsyncLogging) (buffer : BufferPtr) (content : FixedBuffer kLargeBuffer) :
    AsyncLogging :=
  { log with heap := Function.update log.heap buffer content }

/-- `new Buffer` -/
def allocate (log : AsyncLogging) : BufferPtr × AsyncLogging :=
  (log.allocated, { log.store log.allocated .fresh with allocated := log.allocated + 1 })

/-- `currentBuffer_->append(logline,len)` -/
def appendCurrent (log : AsyncLogging) (logline : Bytes) : Outcome AsyncLogging := do
  let current ← deref log.currentBuffer
  return log.store current ((log.heap current).append logline)

def append (log : AsyncLogging) (logline : Bytes) : Outcome AsyncLogging := do
  let log := { log with appended := log.appended ++ [logline] }
  let current ← deref log.currentBuffer
  if (logline.length : Int) < (log.heap current).avail then log.appendCurrent logline
  else
    let log := { log with buffers := log.buffers ++ [current] }
    match log.nextBuffer with
    | some next =>
        let log := { log with currentBuffer := some next }
        log.appendCurrent logline
    | none =>
        let (buffer, log) := log.allocate
        let log := { log with currentBuffer := some buffer }
        log.appendCurrent logline

def beginThread (log : AsyncLogging) : Outcome AsyncLogging := do
  assert .threadFunc (log.running = true)
  let (newBuffer1, log) := log.allocate
  let (newBuffer2, log) := log.allocate
  let log := log.store newBuffer1 (log.heap newBuffer1).bzero
  let log := log.store newBuffer2 (log.heap newBuffer2).bzero
  return { log with
    newBuffer1 := some newBuffer1
    newBuffer2 := some newBuffer2
    buffersToWrite := []
    backend := .testing }

def test (log : AsyncLogging) : AsyncLogging :=
  { log with backend := if log.running then .checking else .finishing }

/-- `pointer != NULL && pointer->length() == 0` -/
def Spare (log : AsyncLogging) (pointer : Option BufferPtr) : Prop :=
  ∃ buffer ∈ pointer, (log.heap buffer).length = 0

instance (log : AsyncLogging) (pointer : Option BufferPtr) : Decidable (log.Spare pointer) :=
  match pointer with
  | some buffer =>
      decidable_of_iff ((log.heap buffer).length = 0) (by simp [Spare])
  | none => .isFalse (by simp [Spare])

def check (log : AsyncLogging) : Outcome AsyncLogging := do
  assert .threadFunc (log.Spare log.newBuffer1)
  assert .threadFunc (log.Spare log.newBuffer2)
  assert .threadFunc (log.buffersToWrite = [])
  return { log with backend := .swapping }

/-- The part under the lock. -/
def swap (log : AsyncLogging) : Outcome AsyncLogging := do
  let current ← deref log.currentBuffer
  let buffersToWrite := log.buffers ++ [current]
  let log := { log with
    buffers := log.buffersToWrite
    buffersToWrite
    currentBuffer := log.newBuffer1
    newBuffer1 := none }
  let log := if log.nextBuffer = none then
      { log with nextBuffer := log.newBuffer2, newBuffer2 := none }
    else log
  assert .threadFunc (log.buffersToWrite ≠ [])
  return { log with backend := .writing 0 }

/-- One turn of the loop over `buffersToWrite`. -/
def write (log : AsyncLogging) (index : Nat) : AsyncLogging :=
  match log.buffersToWrite[index]? with
  | some buffer =>
      { log with
        output := log.output ++ (log.heap buffer).contents
        backend := .writing (index + 1) }
  | none => { log with backend := .recycling }

/-- The last of `buffersToWrite`, reset, and the log without it. -/
def popBack (log : AsyncLogging) : Outcome (BufferPtr × AsyncLogging) :=
  match log.buffersToWrite.getLast? with
  | some buffer =>
      return (buffer, { log.store buffer (log.heap buffer).reset with
        buffersToWrite := log.buffersToWrite.dropLast })
  | none => throw (.assertion .threadFunc)

def recycle (log : AsyncLogging) : Outcome AsyncLogging := do
  let log := { log with buffersToWrite := log.buffersToWrite.take 2 }
  let log ← if log.newBuffer1 = none then do
      let (newBuffer1, log) ← log.popBack
      pure { log with newBuffer1 := some newBuffer1 }
    else pure log
  let log ← if log.newBuffer2 = none then do
      let (newBuffer2, log) ← log.popBack
      pure { log with newBuffer2 := some newBuffer2 }
    else pure log
  return { log with buffersToWrite := [], backend := .flushing }

def flush (log : AsyncLogging) (backend : Backend) : AsyncLogging :=
  { log with flushed := log.output, backend }

/-- The next step of `threadFunc`. -/
def advance (log : AsyncLogging) : Outcome AsyncLogging :=
  match log.backend with
  | .starting => log.beginThread
  | .testing => return log.test
  | .checking => log.check
  | .swapping => log.swap
  | .writing index => return log.write index
  | .recycling => log.recycle
  | .flushing => return log.flush .testing
  | .finishing => return log.flush .finished
  | .finished => throw .impossible

end AsyncLogging

inductive LogAction where
  | append (logline : Bytes)
  | backend
  /-- `stop()`, up to the join; `start()` has returned before. -/
  | stop
  deriving DecidableEq, Repr

def AsyncLogging.step (log : AsyncLogging) : LogAction → Outcome AsyncLogging
  | .append logline => log.append logline
  | .backend => log.advance
  | .stop => do
      assume (log.backend ≠ .starting)
      return { log with running := false }

end TransferServer.Base
