import TransferServer.Base.Outcome
import TransferServer.Lib.Segment
import TransferServer.Lib.Search

/-! `muduo::Buffer` (Buffer.h, Buffer.cpp). A pointer into the storage is its offset
from `begin()`; sizes are natural numbers, so a `size_t` that would wrap is not reached. -/

set_option autoImplicit false

namespace TransferServer.Net

structure Buffer where
  buffer : List Byte
  readerIndex : Nat
  writerIndex : Nat
  deriving DecidableEq, Repr

/-- What one `readv(2)` on two areas returns: an `errno`, or the bytes it scatters. -/
abbrev Readv := Except Int Bytes

namespace Buffer

def kCheapPrepend : Nat := 8
def kInitialSize : Nat := 1024
def kExtraSize : Nat := 65536

/-- `"\r\n"` -/
def kCRLF : Bytes := [13, 10]

def swap (left right : Buffer) : Buffer × Buffer :=
  ({ buffer := right.buffer, readerIndex := right.readerIndex, writerIndex := right.writerIndex },
    { buffer := left.buffer, readerIndex := left.readerIndex, writerIndex := left.writerIndex })

def readableBytes (buffer : Buffer) : Nat := buffer.writerIndex - buffer.readerIndex
def writableBytes (buffer : Buffer) : Nat := buffer.buffer.length - buffer.writerIndex
def prependableBytes (buffer : Buffer) : Nat := buffer.readerIndex

def peek (buffer : Buffer) : Nat := buffer.readerIndex
def beginWrite (buffer : Buffer) : Nat := buffer.writerIndex

/-- The bytes from `peek()` up to `beginWrite()`. -/
def readable (buffer : Buffer) : Bytes :=
  Lib.segment buffer.buffer buffer.readerIndex buffer.writerIndex

/-- The members as the constructor initialises them. -/
def fresh : Buffer where
  buffer := List.replicate (kCheapPrepend + kInitialSize) 0
  readerIndex := kCheapPrepend
  writerIndex := kCheapPrepend

/-- `Buffer::Buffer` -/
def construct : Outcome Buffer := do
  assert .bufferConstructor (fresh.readableBytes = 0)
  assert .bufferConstructor (fresh.writableBytes = kInitialSize)
  assert .bufferConstructor (fresh.prependableBytes = kCheapPrepend)
  return fresh

/-- `std::copy` of `data` to offset `position` of the storage. -/
def copyTo (buffer : Buffer) (position : Nat) (data : Bytes) : Outcome Buffer := do
  Lib.require .outOfBounds (position + data.length ≤ buffer.buffer.length)
  return { buffer with buffer := Lib.overwrite buffer.buffer position data }

/-- `findCRLF(start)`; the result is the offset of the first match. -/
def findCRLFFrom (buffer : Buffer) (start : Nat) : Outcome (Option Nat) := do
  assert .findCRLF (buffer.peek ≤ start)
  assert .findCRLF (start ≤ buffer.beginWrite)
  return (Lib.search kCRLF (Lib.segment buffer.buffer start buffer.beginWrite)).map (start + ·)

/-- `findCRLF()` -/
def findCRLF (buffer : Buffer) : Option Nat :=
  (Lib.search kCRLF buffer.readable).map (buffer.peek + ·)

def retrieve (buffer : Buffer) (len : Nat) : Outcome Buffer := do
  assert .retrieve (len ≤ buffer.readableBytes)
  return { buffer with readerIndex := buffer.readerIndex + len }

def retrieveUntil (buffer : Buffer) (finish : Nat) : Outcome Buffer := do
  assert .retrieveUntil (buffer.peek ≤ finish)
  assert .retrieveUntil (finish ≤ buffer.beginWrite)
  buffer.retrieve (finish - buffer.peek)

def retrieveAll (buffer : Buffer) : Buffer :=
  { buffer with readerIndex := kCheapPrepend, writerIndex := kCheapPrepend }

def retrieveAsString (buffer : Buffer) : Bytes × Buffer :=
  (buffer.readable, buffer.retrieveAll)

/-- `buffer_.resize(writerIndex_+len)` in one branch; in the other the readable bytes
move down to `kCheapPrepend`, over a range that may overlap the one they come from. -/
def makeSpace (buffer : Buffer) (len : Nat) : Outcome Buffer :=
  if buffer.writableBytes + buffer.prependableBytes < len + kCheapPrepend then
    return { buffer with
      buffer := buffer.buffer.take (buffer.writerIndex + len) ++
        List.replicate (buffer.writerIndex + len - buffer.buffer.length) 0 }
  else do
    assert .makeSpace (kCheapPrepend < buffer.readerIndex)
    let moved ← buffer.copyTo kCheapPrepend buffer.readable
    let slid := { moved with
      readerIndex := kCheapPrepend, writerIndex := kCheapPrepend + buffer.readableBytes }
    assert .makeSpace (buffer.readableBytes = slid.readableBytes)
    return slid

def ensureWritableBytes (buffer : Buffer) (len : Nat) : Outcome Buffer := do
  let roomy ← if buffer.writableBytes < len then buffer.makeSpace len else pure buffer
  assert .ensureWritableBytes (len ≤ roomy.writableBytes)
  return roomy

def hasWritten (buffer : Buffer) (len : Nat) : Buffer :=
  { buffer with writerIndex := buffer.writerIndex + len }

def append (buffer : Buffer) (data : Bytes) : Outcome Buffer := do
  let roomy ← buffer.ensureWritableBytes data.length
  let filled ← roomy.copyTo roomy.beginWrite data
  return filled.hasWritten data.length

def prepend (buffer : Buffer) (data : Bytes) : Outcome Buffer := do
  assert .prepend (data.length ≤ buffer.prependableBytes)
  let reserved := { buffer with readerIndex := buffer.readerIndex - data.length }
  reserved.copyTo reserved.readerIndex data

/-- The new storage takes the readable bytes at `kCheapPrepend` and is swapped in; the
two indices are not touched. -/
def shrink (buffer : Buffer) (reserve : Nat) : Outcome Buffer :=
  let buf := List.replicate (kCheapPrepend + buffer.readableBytes + reserve) 0
  { buffer with buffer := buf }.copyTo kCheapPrepend buffer.readable

/-- `readFd`: the return value, what is stored to `*savedErrno`, and the buffer. -/
def readFd (buffer : Buffer) (received : Readv) : Outcome (Int × Option Int × Buffer) :=
  match received with
  | .error errno => return (-1, some errno, buffer)
  | .ok bytes => do
    let writable := buffer.writableBytes
    assume (bytes.length ≤ writable + kExtraSize)
    -- readv fills the writable area first; what is left over lands in extrabuf
    let filled ← buffer.copyTo buffer.writerIndex (bytes.take writable)
    let extrabuf := bytes.drop writable
    if bytes.length ≤ writable then
      return (bytes.length, none, filled.hasWritten bytes.length)
    else
      let appended ← { filled with writerIndex := filled.buffer.length }.append extrabuf
      return (bytes.length, none, appended)

end Buffer

end TransferServer.Net
