import Mathlib.Algebra.Group.Int.Defs
import Mathlib.Algebra.Group.Nat.Defs
import TransferServer.Lib.Segment
import TransferServer.Base.Outcome

/-! `muduo::detail::convert` and `convertHex` (LogStream.cpp), on the array that they write to. A
pointer into the array is its offset. -/

set_option autoImplicit false

namespace TransferServer.Base

/-- `char array[size]` -/
structure CharArray (size : Nat) where
  cells : Bytes
  sized : cells.length = size
  deriving DecidableEq, Repr

namespace CharArray

variable {size : Nat}

/-- Bytes written to consecutive cells. -/
def write (array : CharArray size) (p : Nat) (bytes : Bytes) : Outcome (CharArray size) :=
  if inside : p + bytes.length ≤ size then
    return { cells := Lib.overwrite array.cells p bytes
             sized := by rw [Lib.length_overwrite (by rw [array.sized]; exact inside), array.sized] }
  else throw .outOfBounds

/-- `*p = value` -/
def store (array : CharArray size) (p : Nat) (value : Byte) : Outcome (CharArray size) :=
  array.write p [value]

/-- `std::reverse(first, last)` -/
def reverse (array : CharArray size) (first last : Nat) : Outcome (CharArray size) :=
  array.write first (Lib.segment array.cells first last).reverse

end CharArray

/-- `array[index]` -/
def load (array : Bytes) (index : Int) : Outcome Byte :=
  if index < 0 then throw .outOfBounds
  else match array[index.toNat]? with
    | some byte => return byte
    | none => throw .outOfBounds

inductive IntegralType where
  | short
  | unsignedShort
  | int
  | unsignedInt
  | long
  | unsignedLong
  | longLong
  | unsignedLongLong
  deriving DecidableEq, Repr

namespace IntegralType

def width : IntegralType → Nat
  | .short | .unsignedShort => 16
  | .int | .unsignedInt => 32
  | .long | .unsignedLong | .longLong | .unsignedLongLong => 64

def signed : IntegralType → Bool
  | .short | .int | .long | .longLong => true
  | .unsignedShort | .unsignedInt | .unsignedLong | .unsignedLongLong => false

def min (T : IntegralType) : Int := if T.signed then -2 ^ (T.width - 1) else 0

def max (T : IntegralType) : Int := if T.signed then 2 ^ (T.width - 1) - 1 else 2 ^ T.width - 1

def Holds (T : IntegralType) (value : Int) : Prop := T.min ≤ value ∧ value ≤ T.max

instance (T : IntegralType) (value : Int) : Decidable (T.Holds value) :=
  inferInstanceAs (Decidable (_ ∧ _))

def compute (T : IntegralType) (value : Int) : Outcome Unit := Lib.require .overflow (T.Holds value)

/-- The type in which a value of the type is formatted. -/
def promoted : IntegralType → IntegralType
  | .short => .int
  | .unsignedShort => .unsignedInt
  | T => T

end IntegralType

structure Integral (T : IntegralType) where
  value : Int
  holds : T.Holds value
  deriving DecidableEq, Repr

/-- `LogStream::kMaxNumericSize` -/
def kMaxNumericSize : Nat := 32

def digits : Bytes :=
  [57, 56, 55, 54, 53, 52, 51, 50, 49, 48, 49, 50, 51, 52, 53, 54, 55, 56, 57, 0]

/-- The offset of `zero` in `digits`. -/
def zero : Int := 9

def digitsHex : Bytes := [48, 49, 50, 51, 52, 53, 54, 55, 56, 57, 65, 66, 67, 68, 69, 70, 0]

section

variable {size : Nat}

/-- The loop of `convert`. -/
def convertLoop (T : IntegralType) (array : CharArray size) (p : Nat) (i : Int) :
    Outcome (CharArray size × Nat) := do
  T.compute (i.tmod 10)
  IntegralType.int.compute (i.tmod 10)
  let lsd := i.tmod 10
  T.compute (i.tdiv 10)
  let digit ← load digits (zero + lsd)
  let array ← array.store p digit
  if i.tdiv 10 ≠ 0 then convertLoop T array (p + 1) (i.tdiv 10) else return (array, p + 1)
termination_by i.natAbs
decreasing_by
  have less : (i.tdiv 10).natAbs = i.natAbs / 10 := Int.natAbs_tdiv i 10
  omega

/-- `if (value < 0) *p++ = '-'` -/
def storeSign (array : CharArray size) (p : Nat) (value : Int) : Outcome (CharArray size × Nat) :=
  if value < 0 then do
    let array ← array.store p 45
    return (array, p + 1)
  else return (array, p)

def convert {T : IntegralType} (array : CharArray size) (buf : Nat) (value : Integral T) :
    Outcome (CharArray size × Nat) := do
  let (array, p) ← convertLoop T array buf value.value
  let (array, p) ← storeSign array p value.value
  let array ← array.store p 0
  let array ← array.reverse buf p
  return (array, p - buf)

def convertHexLoop (array : CharArray size) (p i : Nat) : Outcome (CharArray size × Nat) := do
  let lsd := i % 16
  let digit ← load digitsHex lsd
  let array ← array.store p digit
  if i / 16 ≠ 0 then convertHexLoop array (p + 1) (i / 16) else return (array, p + 1)
termination_by i

/-- The statements of `convertHex`, with the array that they leave. -/
def convertHexBody (array : CharArray size) (buf value : Nat) : Outcome (CharArray size) := do
  let (array, p) ← convertHexLoop array buf value
  let array ← array.store p 0
  array.reverse buf p

/-- No statement of `convertHex` returns the `size_t` it is declared with. -/
def convertHex (array : CharArray size) (buf value : Nat) : Outcome (CharArray size × Nat) := do
  let _ ← convertHexBody array buf value
  throw .noReturn

end

end TransferServer.Base
