import Mathlib.Data.Nat.Digits.Lemmas

/-! Canonical numerals in any base and over any glyphs: how they grow by a digit, how long they
get, and that reading one gives the number back. -/

set_option autoImplicit false

namespace TransferServer.Lib

universe u

variable {Symbol : Type u} {base value : Nat}

/-- The digits of a number, the highest one first; zero has one digit. -/
def numeral (base value : Nat) : List Nat :=
  if value = 0 then [0] else (Nat.digits base value).reverse

/-- The lowest digit stands behind the numeral of what is left. -/
theorem numeral_eq (large : 1 < base) (value : Nat) :
    numeral base value =
      (if value / base = 0 then [] else numeral base (value / base)) ++ [value % base] := by
  by_cases zero : value = 0
  · simp [numeral, zero]
  · rw [numeral, if_neg zero, Nat.digits_def' large (Nat.pos_of_ne_zero zero), List.reverse_cons]
    congr 1
    by_cases last : value / base = 0
    · simp [last]
    · rw [if_neg last, numeral, if_neg last]

theorem numeral_ne_nil (large : 1 < base) : numeral base value ≠ [] := by
  rw [numeral_eq large]
  simp

theorem lt_of_mem_numeral (large : 1 < base) {digit : Nat} (present : digit ∈ numeral base value) :
    digit < base := by
  by_cases zero : value = 0
  · rw [numeral, if_pos zero, List.mem_singleton] at present
    omega
  · rw [numeral, if_neg zero, List.mem_reverse] at present
    exact Nat.digits_lt_base large present

/-- Zero alone begins with the digit zero. -/
theorem eq_zero_of_head?_numeral (begins : (numeral base value).head? = some 0) : value = 0 := by
  by_contra positive
  have digits : Nat.digits base value ≠ [] := Nat.digits_ne_nil_iff_ne_zero.mpr positive
  rw [numeral, if_neg positive, List.head?_reverse, List.getLast?_eq_getLast_of_ne_nil digits] at begins
  exact Nat.getLast_digit_ne_zero base positive (Option.some.inj begins)

theorem length_numeral_le (large : 1 < base) {size : Nat} (positive : 0 < size)
    (bounded : value < base ^ size) : (numeral base value).length ≤ size := by
  unfold numeral
  split
  · exact positive
  · rw [List.length_reverse]
    exact (Nat.digits_length_le_iff large value).mpr bounded

/-- How the digits of a base are written, and how they are recognised. -/
structure Glyphs (base : Nat) (Symbol : Type u) where
  glyph : Nat → Symbol
  digit? : Symbol → Option Nat
  large : 1 < base
  faithful : ∀ digit < base, digit? (glyph digit) = some digit

namespace Glyphs

variable (glyphs : Glyphs base Symbol)

def write (value : Nat) : List Symbol := (numeral base value).map glyphs.glyph

/-- The number of which the text is a numeral, leading zeros or not. -/
def read (text : List Symbol) : Option Nat :=
  if text.isEmpty then none
  else text.foldlM (fun value symbol => (glyphs.digit? symbol).map (value * base + ·)) 0

theorem write_eq (value : Nat) :
    glyphs.write value =
      (if value / base = 0 then [] else glyphs.write (value / base)) ++ [glyphs.glyph (value % base)] := by
  rw [write, numeral_eq glyphs.large, List.map_append]
  congr 1
  split
  · rfl
  · rfl

theorem write_ne_nil (value : Nat) : glyphs.write value ≠ [] := by
  simp [write, numeral_ne_nil glyphs.large]

theorem digit?_of_mem {symbol : Symbol} (present : symbol ∈ glyphs.write value) :
    ∃ digit < base, glyphs.digit? symbol = some digit := by
  obtain ⟨digit, among, rfl⟩ := List.mem_map.mp present
  have small := lt_of_mem_numeral glyphs.large among
  exact ⟨digit, small, glyphs.faithful digit small⟩

theorem read_write (value : Nat) : glyphs.read (glyphs.write value) = some value := by
  rw [read, if_neg (by simpa using glyphs.write_ne_nil value)]
  induction value using Nat.strongRecOn with
  | ind value ih =>
      have low := glyphs.faithful (value % base) (Nat.mod_lt _ (Nat.zero_lt_of_lt glyphs.large))
      have whole := Nat.div_add_mod' value base
      rw [write_eq, List.foldlM_append]
      by_cases last : value / base = 0
      · rw [last, Nat.zero_mul, Nat.zero_add] at whole
        rw [whole] at low
        simp [last, low, whole]
      · have shorter : value / base < value :=
          Nat.div_lt_self (Nat.pos_of_ne_zero fun zero => last (by simp [zero])) glyphs.large
        rw [if_neg last, ih _ shorter]
        simp [low, whole]

def writeInt (minus : Symbol) (value : Int) : List Symbol :=
  if value < 0 then minus :: glyphs.write value.natAbs else glyphs.write value.natAbs

def readInt [DecidableEq Symbol] (minus : Symbol) (text : List Symbol) : Option Int :=
  if text.head? = some minus then (glyphs.read text.tail).map Int.negOfNat
  else (glyphs.read text).map Int.ofNat

theorem readInt_writeInt [DecidableEq Symbol] {minus : Symbol} (apart : glyphs.digit? minus = none)
    (value : Int) : glyphs.readInt minus (glyphs.writeInt minus value) = some value := by
  unfold writeInt readInt
  by_cases negative : value < 0
  · have size : Int.negOfNat value.natAbs = value := by
      rw [Int.negOfNat_eq, Int.ofNat_eq_natCast]
      omega
    rw [if_pos negative, if_pos (List.head?_cons ..), List.tail_cons, read_write, Option.map_some, size]
  · have size : Int.ofNat value.natAbs = value := by
      rw [Int.ofNat_eq_natCast]
      omega
    have unsigned : (glyphs.write value.natAbs).head? ≠ some minus := by
      intro begins
      obtain ⟨digit, _, found⟩ := glyphs.digit?_of_mem (List.mem_of_head? begins)
      rw [apart] at found
      cases found
    rw [if_neg negative, if_neg unsigned, read_write, Option.map_some, size]

theorem length_writeInt_le (minus : Symbol) {value : Int} {size : Nat} (positive : 0 < size)
    (bounded : value.natAbs < base ^ size) : (glyphs.writeInt minus value).length ≤ size + 1 := by
  have digits := length_numeral_le glyphs.large positive bounded
  unfold writeInt write
  split <;> simp only [List.length_cons, List.length_map] <;> omega

end Glyphs

end TransferServer.Lib
