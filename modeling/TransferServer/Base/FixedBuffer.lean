import Mathlib.Algebra.Group.Int.Defs
import Mathlib.Algebra.Group.Nat.Defs
import TransferServer.Base.Outcome

/-! `muduo::detail::FixedBuffer<SIZE>` (LogStream.h): an array filled from the front. -/

set_option autoImplicit false

namespace TransferServer.Base

def kSmallBuffer : Nat := 4000
def kLargeBuffer : Nat := 4000 * 1000

/-- `static_cast<size_t>` of an `int`. -/
def toSizeT (value : Int) : Nat := (value % 2 ^ 64).toNat

structure FixedBuffer (SIZE : Nat) where
  /-- `data_` up to `cur_`. -/
  contents : Bytes
  deriving DecidableEq, Repr

namespace FixedBuffer

variable {SIZE : Nat}

def fresh : FixedBuffer SIZE := ⟨[]⟩

def length (buffer : FixedBuffer SIZE) : Nat := buffer.contents.length

def avail (buffer : FixedBuffer SIZE) : Int := (SIZE : Int) - buffer.contents.length

/-- What does not fit is dropped. -/
def append (buffer : FixedBuffer SIZE) (buf : Bytes) : FixedBuffer SIZE :=
  if buf.length < toSizeT buffer.avail then ⟨buffer.contents ++ buf⟩ else buffer

def reset (_ : FixedBuffer SIZE) : FixedBuffer SIZE := ⟨[]⟩

def bzero (buffer : FixedBuffer SIZE) : FixedBuffer SIZE :=
  ⟨List.replicate buffer.contents.length 0⟩

theorem append_of_avail {buffer : FixedBuffer SIZE} {buf : Bytes} (size : SIZE < 2 ^ 64)
    (room : (buf.length : Int) < buffer.avail) :
    buffer.append buf = ⟨buffer.contents ++ buf⟩ := by
  have small : toSizeT buffer.avail = buffer.avail.toNat := by
    unfold toSizeT avail at *
    omega
  rw [append, if_pos (by rw [small]; omega)]

end FixedBuffer

end TransferServer.Base
