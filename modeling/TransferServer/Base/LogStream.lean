import TransferServer.Base.Convert
import TransferServer.Base.FixedBuffer

/-! `muduo::LogStream` (LogStream.h, LogStream.cpp) on the array of its buffer. What `snprintf`
makes of a `double` is part of the insertion. -/

set_option autoImplicit false

namespace TransferServer.Base

namespace FixedBuffer

/-- The buffer with the whole of `data_`; `cur_` is an offset into it. -/
structure Memory (SIZE : Nat) where
  data : CharArray SIZE
  cur : Nat
  deriving DecidableEq, Repr

namespace Memory

variable {SIZE : Nat}

/-- `data_` is left as it is found. -/
def construct (data : CharArray SIZE) : Memory SIZE := ⟨data, 0⟩

def avail (buffer : Memory SIZE) : Int := (SIZE : Int) - buffer.cur

/-- `asString()` -/
def contents (buffer : Memory SIZE) : Bytes := buffer.data.cells.take buffer.cur

def toFixedBuffer (buffer : Memory SIZE) : FixedBuffer SIZE := ⟨buffer.contents⟩

def append (buffer : Memory SIZE) (buf : Bytes) (len : Nat) : Outcome (Memory SIZE) :=
  if len < toSizeT buffer.avail then do
    Lib.require .outOfBounds (len ≤ buf.length)
    let data ← buffer.data.write buffer.cur (buf.take len)
    return { data, cur := buffer.cur + len }
  else return buffer

def add (buffer : Memory SIZE) (len : Nat) : Memory SIZE := { buffer with cur := buffer.cur + len }

def debugString (buffer : Memory SIZE) : Outcome (Memory SIZE) := do
  let data ← buffer.data.store buffer.cur 0
  return { buffer with data }

end Memory

end FixedBuffer

def strlen (v : Bytes) : Outcome Nat :=
  if 0 ∈ v then return (v.takeWhile (· ≠ 0)).length else throw .outOfBounds

/-- A value in the type in which it is formatted. -/
def Integral.promote {T : IntegralType} (v : Integral T) : Integral T.promoted where
  value := v.value
  holds := by
    obtain ⟨value, low, high⟩ := v
    have range : T.promoted.min ≤ T.min ∧ T.max ≤ T.promoted.max := by cases T <;> decide
    exact ⟨Int.le_trans range.1 low, Int.le_trans high range.2⟩

/-- What can be inserted: the arguments of `operator<<` and of `append`. A pointer has its own
operator. -/
inductive LogItem where
  | bool (v : Bool)
  | integer {T : IntegralType} (v : Integral T)
  /-- A `float` or `double`, with the text that `snprintf` writes for it. -/
  | double (text : Bytes) (short : text.length < kMaxNumericSize)
  | char (v : Byte)
  /-- A `const char*`, with the memory it points to. -/
  | cString (v : Bytes) (terminated : 0 ∈ v)
  | string (v : Bytes)
  /-- `append(data, len)`, with the memory that `data` points to. -/
  | append (data : Bytes) (len : Integral .int) (readable : len.value.toNat ≤ data.length)

inductive Insertion where
  | item (item : LogItem)
  | pointer (p : UInt64)

structure LogStream where
  buffer : FixedBuffer.Memory kSmallBuffer
  deriving DecidableEq, Repr

namespace LogStream

def construct (data : CharArray kSmallBuffer) : LogStream := ⟨.construct data⟩

def formatInteger {T : IntegralType} (stream : LogStream) (v : Integral T) : Outcome LogStream :=
  if kMaxNumericSize ≤ stream.buffer.avail then do
    let (data, len) ← convert stream.buffer.data stream.buffer.cur v
    return { buffer := { stream.buffer with data }.add len }
  else return stream

def formatDouble (stream : LogStream) (text : Bytes) : Outcome LogStream :=
  if kMaxNumericSize ≤ stream.buffer.avail then do
    let data ← stream.buffer.data.write stream.buffer.cur (text ++ [0])
    return { buffer := { stream.buffer with data }.add text.length }
  else return stream

/-- `append(buf, len)` of the buffer. -/
def appendBuffer (stream : LogStream) (buf : Bytes) (len : Nat) : Outcome LogStream := do
  let buffer ← stream.buffer.append buf len
  return { buffer }

def insert (stream : LogStream) : LogItem → Outcome LogStream
  | .bool v => stream.appendBuffer (if v then [49] else [48]) 1
  | .integer v => stream.formatInteger v.promote
  | .double text _ => stream.formatDouble text
  | .char v => stream.appendBuffer [v] 1
  | .cString v _ => do
      let len ← strlen v
      stream.appendBuffer v len
  | .string v => stream.appendBuffer v v.length
  | .append data len _ => stream.appendBuffer data (toSizeT len.value)

/-- `operator<<(const void*)` -/
def insertPointer (stream : LogStream) (p : UInt64) : Outcome LogStream :=
  if kMaxNumericSize ≤ stream.buffer.avail then do
    let buf := stream.buffer.cur
    let data ← stream.buffer.data.store buf 48
    let data ← data.store (buf + 1) 120
    let (data, len) ← convertHex data (buf + 2) p.toNat
    return { buffer := { stream.buffer with data }.add (len + 2) }
  else return stream

def insertAll (stream : LogStream) (items : List LogItem) : Outcome LogStream :=
  items.foldlM insert stream

def perform (stream : LogStream) : Insertion → Outcome LogStream
  | .item item => stream.insert item
  | .pointer p => stream.insertPointer p

end LogStream

end TransferServer.Base
