import Mathlib.Algebra.Group.Nat.Defs
import TransferServer.Base.Outcome

/-! `muduo::CerPacket` (CerPacket.cpp) and the standard functions on strings and `char` arrays
around it, with every way in which they can throw or leave their bounds. -/

set_option autoImplicit false

namespace TransferServer.Base

inductive Fault where
  /-- `std::out_of_range` -/
  | outOfRange
  /-- A read or write outside an array or a string. -/
  | outOfBounds
  deriving DecidableEq, Repr

/-- `char name[size] = {0}` -/
def charArray (size : Nat) : Bytes := List.replicate size 0

/-- The array behind `text.c_str()`. -/
def cStr (text : Bytes) : Bytes := text ++ [0]

/-- `left - right` in `size_t`. -/
def sizeSub (left right : Nat) : Nat := if right ≤ left then left - right else 2 ^ 64 + left - right

/-- `text.copy(array, n, pos)` -/
def copy (text array : Bytes) (n pos : Nat) : Except Fault Bytes :=
  if text.length < pos then throw .outOfRange
  else
    let count := min n (text.length - pos)
    if array.length < count then throw .outOfBounds
    else return (text.drop pos).take count ++ array.drop count

def memcpy (dest src : Bytes) (n : Nat) : Except Fault Bytes :=
  if dest.length < n ∨ src.length < n then throw .outOfBounds else return src.take n ++ dest.drop n

/-- `std::string(array)` reads up to the terminator; so does `printf` of `%s`. -/
def fromArray (array : Bytes) : Except Fault Bytes :=
  if 0 ∈ array then return array.takeWhile (· ≠ 0) else throw .outOfBounds

/-- `strcmp(left.c_str(), right.c_str()) == 0` -/
def sameCStr (left right : Bytes) : Bool := left.takeWhile (· ≠ 0) = right.takeWhile (· ≠ 0)

/-- The indices at which a string may be written. -/
inductive Indexing where
  /-- Those below `size()`. -/
  | within
  /-- With `size()` for a 0, which the standard allows to be stored over the terminator. -/
  | standard
  deriving DecidableEq, Repr

/-- `text[index] = value` -/
def assign (indexing : Indexing) (text : Bytes) (index : Nat) (value : Byte) : Except Fault Bytes :=
  if index < text.length then return text.set index value
  else if indexing = .standard ∧ index = text.length ∧ value = 0 then return text
  else throw .outOfBounds

structure CerPacket where
  rand : Bytes
  length : Int
  cer : Bytes
  deriving DecidableEq, Repr

namespace CerPacket

def init : CerPacket := ⟨[], 0, []⟩

def setRand (packet : CerPacket) (random : Bytes) : CerPacket := { packet with rand := random }

def setCer (packet : CerPacket) (cer : Bytes) : CerPacket := { packet with cer, length := cer.length }

def getPacketAsString (packet : CerPacket) : Bytes := packet.rand ++ packet.cer

/-- The body of the loop of `encry` and `decry`. -/
def shiftOne (indexing : Indexing) (shift : Byte → Byte) (state : Bytes × Nat) (i : Byte) :
    Except Fault (Bytes × Nat) :=
  let (result, cnt) := state
  if i ≠ 0 then do
    let result ← assign indexing result cnt (shift i)
    return (result, cnt + 1)
  else return state

/-- The string `result` starts empty and is never resized. -/
def shifted (indexing : Indexing) (packet : CerPacket) (shift : Byte → Byte) : Except Fault Bytes := do
  let (result, _) ← packet.rand.foldlM (shiftOne indexing shift) ([], 0)
  return result

def encry (indexing : Indexing) (packet : CerPacket) : Except Fault Bytes :=
  packet.shifted indexing (· + 1)

example : init.encry .within = .ok [] := rfl

def decry (indexing : Indexing) (packet : CerPacket) : Except Fault Bytes :=
  packet.shifted indexing (· - 1)

end CerPacket

end TransferServer.Base
