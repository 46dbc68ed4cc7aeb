import TransferServer.Lib.Numeral
import TransferServer.Base.Convert

/-! The numerals that `convert` and `convertHex` write. Both loops produce the digits in reverse;
`convert` takes them from a table that is symmetric in the sign of the remainder. -/

set_option autoImplicit false

namespace TransferServer.Base

open Lib

/-- `'0'` to `'9'`. -/
def decimalGlyphs : Glyphs 10 Byte where
  glyph := fun digit => .ofNat (48 + digit)
  digit? := fun symbol => if 48 ≤ symbol ∧ symbol ≤ 57 then some (symbol.toNat - 48) else none
  large := by decide
  faithful := by decide

/-- `'0'` to `'9'` and `'A'` to `'F'`. -/
def hexGlyphs : Glyphs 16 Byte where
  glyph := fun digit => .ofNat (if digit < 10 then 48 + digit else 55 + digit)
  digit? := fun symbol =>
    if 48 ≤ symbol ∧ symbol ≤ 57 then some (symbol.toNat - 48)
    else if 65 ≤ symbol ∧ symbol ≤ 70 then some (symbol.toNat - 55)
    else none
  large := by decide
  faithful := by decide

def decimal (value : Int) : Bytes := decimalGlyphs.writeInt 45 value

def readDecimal (text : Bytes) : Option Int := decimalGlyphs.readInt 45 text

/-- A minus sign for the negative numbers, then decimal digits without leading zeros. -/
def CanonicalDecimal (value : Int) (text : Bytes) : Prop :=
  ∃ digits : Bytes, text = (if value < 0 then [45] else []) ++ digits ∧ digits ≠ [] ∧
    (∀ digit ∈ digits, 48 ≤ digit ∧ digit ≤ 57) ∧ (digits.head? = some 48 → digits = [48])

theorem readDecimal_decimal (value : Int) : readDecimal (decimal value) = some value :=
  decimalGlyphs.readInt_writeInt (by decide) value

theorem decimal_eq (value : Int) :
    decimal value = (if value < 0 then [45] else []) ++ decimalGlyphs.write value.natAbs := by
  unfold decimal Glyphs.writeInt
  split
  · rfl
  · rfl

theorem decimal_canonical (value : Int) : CanonicalDecimal value (decimal value) := by
  refine ⟨decimalGlyphs.write value.natAbs, decimal_eq value, decimalGlyphs.write_ne_nil _, ?_, ?_⟩
  · intro symbol present
    obtain ⟨digit, _, found⟩ := decimalGlyphs.digit?_of_mem present
    simp only [decimalGlyphs] at found
    split at found
    · next range => exact range
    · cases found
  · intro begins
    rw [Glyphs.write, List.head?_map] at begins
    obtain ⟨digit, first, glyph⟩ := Option.map_eq_some_iff.mp begins
    have small := lt_of_mem_numeral (by decide) (List.mem_of_head? first)
    have none : digit = 0 := by
      have glyphs : ∀ digit < 10, decimalGlyphs.glyph digit = 48 → digit = 0 := by decide
      exact glyphs digit small glyph
    rw [none] at first
    rw [eq_zero_of_head?_numeral first]
    rfl

namespace IntegralType

variable {T : IntegralType} {value part : Int}

theorem min_le_zero : T.min ≤ 0 ∧ 0 ≤ T.max := by
  cases T <;> decide

theorem bounds : -2 ^ 63 ≤ T.min ∧ T.max < 2 ^ 64 := by
  cases T <;> decide

/-- What lies between zero and a value of the type is a value of the type. -/
theorem Holds.between (holds : T.Holds value) (between : 0 ≤ part ∧ part ≤ value ∨ value ≤ part ∧ part ≤ 0) :
    T.Holds part := by
  obtain ⟨low, high⟩ := holds
  obtain ⟨negative, positive⟩ := min_le_zero (T := T)
  unfold Holds
  omega

theorem compute_of_holds (holds : T.Holds value) : T.compute value = .ok () := require_of holds

end IntegralType

/-- The remainder and the quotient of a number lie between zero and the number. -/
theorem tmod_tdiv_between (value : Int) :
    (0 ≤ value.tmod 10 ∧ value.tmod 10 ≤ value ∨ value ≤ value.tmod 10 ∧ value.tmod 10 ≤ 0) ∧
      (0 ≤ value.tdiv 10 ∧ value.tdiv 10 ≤ value ∨ value ≤ value.tdiv 10 ∧ value.tdiv 10 ≤ 0) ∧
      -10 < value.tmod 10 ∧ value.tmod 10 < 10 := by
  rcases Int.le_total 0 value with positive | negative
  · rw [Int.tmod_eq_emod_of_nonneg positive, Int.tdiv_eq_ediv_of_nonneg positive]
    omega
  · obtain ⟨magnitude, rfl⟩ : ∃ magnitude : Int, value = -magnitude := ⟨-value, by omega⟩
    have positive : 0 ≤ magnitude := by omega
    rw [Int.neg_tmod, Int.neg_tdiv, Int.tmod_eq_emod_of_nonneg positive, Int.tdiv_eq_ediv_of_nonneg positive]
    omega

/-- `zero[lsd]` is the glyph of the digit, whatever the sign of the remainder. -/
theorem load_zero {lsd : Int} (low : -10 < lsd) (high : lsd < 10) :
    load digits (zero + lsd) = .ok (decimalGlyphs.glyph lsd.natAbs) := by
  have table : ∀ digit : Nat, digit < 10 → load digits (zero + (digit : Int)) = .ok (decimalGlyphs.glyph digit) ∧
      load digits (zero + -(digit : Int)) = .ok (decimalGlyphs.glyph digit) := by decide
  obtain ⟨up, down⟩ := table lsd.natAbs (by omega)
  rcases Int.le_total 0 lsd with positive | negative
  · rwa [Int.natAbs_of_nonneg positive] at up
  · rwa [Int.ofNat_natAbs_of_nonpos negative, Int.neg_neg] at down

theorem load_digitsHex {lsd : Nat} (small : lsd < 16) :
    load digitsHex lsd = .ok (hexGlyphs.glyph lsd) := by
  have table : ∀ digit : Nat, digit < 16 → load digitsHex digit = .ok (hexGlyphs.glyph digit) := by decide
  exact table lsd small

namespace CharArray

variable {size p : Nat} {array : CharArray size} {bytes : Bytes}

theorem write_eq_ok (array : CharArray size) (inside : p + bytes.length ≤ size) :
    ∃ after : CharArray size, array.write p bytes = .ok after ∧
      after.cells = overwrite array.cells p bytes :=
  ⟨_, dif_pos inside, rfl⟩

theorem store_eq_ok (array : CharArray size) (value : Byte) (inside : p < size) :
    ∃ after : CharArray size, array.store p value = .ok after ∧
      after.cells = overwrite array.cells p [value] :=
  write_eq_ok array inside

theorem store_behind {front : CharArray size} (value : Byte)
    (written : front.cells = overwrite array.cells p bytes) (inside : p + bytes.length < size) :
    ∃ after : CharArray size, front.store (p + bytes.length) value = .ok after ∧
      after.cells = overwrite array.cells p (bytes ++ [value]) := by
  obtain ⟨after, stored, cells⟩ := store_eq_ok front value inside
  refine ⟨after, stored, ?_⟩
  rw [cells, written, overwrite_append (by rw [array.sized]; omega)]

/-- The end of both functions: a terminator, and the digits put in order. -/
theorem terminate {front : CharArray size} {text : Bytes}
    (written : front.cells = overwrite array.cells p text.reverse) (inside : p + text.length < size) :
    ∃ after : CharArray size, (front.store (p + text.length) 0 >>= fun terminated =>
      terminated.reverse p (p + text.length)) = .ok after ∧
        after.cells = overwrite array.cells p (text ++ [0]) := by
  have before : p ≤ array.cells.length := by
    rw [array.sized]
    omega
  have stored := store_behind 0 written (by rw [List.length_reverse]; exact inside)
  rw [List.length_reverse] at stored
  obtain ⟨terminated, stored, cells⟩ := stored
  have digits : segment terminated.cells p (p + text.length) = text.reverse := by
    rw [cells, segment_overwrite before (by simp), List.take_append_of_le_length (by simp),
      List.take_of_length_le (by simp)]
  obtain ⟨after, reversed, cells'⟩ := write_eq_ok terminated (Nat.le_of_lt inside)
  refine ⟨after, ?_, ?_⟩
  · rw [stored, ok_bind, reverse, digits, List.reverse_reverse]
    exact reversed
  · rw [cells', cells, overwrite_overwrite before (by rw [List.length_reverse])]

end CharArray

section

variable {size : Nat}

/-- A loop that stores the lowest digit and goes on with the quotient, until that is zero. -/
theorem loop_spec {base : Nat} (glyphs : Glyphs base Byte) {Value : Type} (Valid : Value → Prop)
    (magnitude : Value → Nat) (next : Value → Value)
    {loop : CharArray size → Nat → Value → Outcome (CharArray size × Nat)}
    (unfolds : ∀ array p i, Valid i → loop array p i =
      array.store p (glyphs.glyph (magnitude i % base)) >>= fun array =>
        if magnitude i / base ≠ 0 then loop array (p + 1) (next i) else .ok (array, p + 1))
    (descends : ∀ i, Valid i → Valid (next i) ∧ magnitude (next i) = magnitude i / base)
    (array : CharArray size) {p : Nat} {i : Value} (valid : Valid i)
    (inside : p + (glyphs.write (magnitude i)).length ≤ size) :
    ∃ after : CharArray size, loop array p i = .ok (after, p + (glyphs.write (magnitude i)).length) ∧
      after.cells = overwrite array.cells p (glyphs.write (magnitude i)).reverse := by
  generalize start : magnitude i = value at inside
  induction value using Nat.strongRecOn generalizing array p i with
  | ind value ih =>
      rw [glyphs.write_eq, List.length_append, List.length_singleton] at inside
      have here : array.cells.length = size := array.sized
      obtain ⟨stored, store, cells⟩ := array.store_eq_ok (glyphs.glyph (value % base))
        (show p < size by omega)
      rw [glyphs.write_eq, List.reverse_append, List.length_append, List.length_singleton,
        unfolds array p i valid, start]
      by_cases last : value / base = 0
      · refine ⟨stored, ?_, ?_⟩
        · rw [store, ok_bind, if_neg (not_not.mpr last), if_pos last]
          simp
        · rw [cells, if_pos last]
          simp
      · have shorter : value / base < value :=
          Nat.div_lt_self (Nat.pos_of_ne_zero fun zero => last (by simp [zero])) glyphs.large
        obtain ⟨valid', magnitude'⟩ := descends i valid
        rw [if_neg last] at inside
        obtain ⟨after, looped, cells'⟩ :=
          ih _ shorter stored valid' (magnitude'.trans (by rw [start])) (p := p + 1) (by omega)
        refine ⟨after, ?_, ?_⟩
        · rw [store, ok_bind, if_pos last, if_neg last, looped]
          congr 2
          omega
        · rw [cells', cells, if_neg last]
          exact overwrite_append (by rw [List.length_singleton]; omega)

theorem convertLoop_eq {T : IntegralType} (array : CharArray size) (p : Nat) {i : Int} (holds : T.Holds i) :
    convertLoop T array p i = array.store p (decimalGlyphs.glyph (i.natAbs % 10)) >>= fun array =>
      if i.natAbs / 10 ≠ 0 then convertLoop T array (p + 1) (i.tdiv 10) else .ok (array, p + 1) := by
  obtain ⟨remainder, quotient, low, high⟩ := tmod_tdiv_between i
  have small : IntegralType.int.Holds (i.tmod 10) := by
    have range : IntegralType.int.min = -2147483648 ∧ IntegralType.int.max = 2147483647 := by decide
    unfold IntegralType.Holds
    omega
  have digit : (i.tmod 10).natAbs = i.natAbs % 10 := Int.natAbs_tmod i 10
  have less : (i.tdiv 10).natAbs = i.natAbs / 10 := Int.natAbs_tdiv i 10
  have again : i.tdiv 10 ≠ 0 ↔ i.natAbs / 10 ≠ 0 := by
    rw [← less]
    exact Int.natAbs_ne_zero.symm
  rw [convertLoop, IntegralType.compute_of_holds (holds.between remainder),
    IntegralType.compute_of_holds small, IntegralType.compute_of_holds (holds.between quotient)]
  simp only [ok_bind, load_zero low high, digit, again, pure_eq_ok]

theorem convertLoop_spec {T : IntegralType} (array : CharArray size) {p : Nat} {i : Int}
    (holds : T.Holds i) (inside : p + (decimalGlyphs.write i.natAbs).length ≤ size) :
    ∃ after : CharArray size,
      convertLoop T array p i = .ok (after, p + (decimalGlyphs.write i.natAbs).length) ∧
        after.cells = overwrite array.cells p (decimalGlyphs.write i.natAbs).reverse :=
  loop_spec decimalGlyphs T.Holds Int.natAbs (fun i => i.tdiv 10)
    (fun array p _ holds => convertLoop_eq array p holds)
    (fun i holds => ⟨holds.between (tmod_tdiv_between i).2.1, Int.natAbs_tdiv i 10⟩) array holds inside

theorem convert_spec {T : IntegralType} (array : CharArray size) {buf : Nat} (value : Integral T)
    (room : buf + (decimal value.value).length < size) :
    ∃ after : CharArray size, convert array buf value = .ok (after, (decimal value.value).length) ∧
      after.cells = overwrite array.cells buf (decimal value.value ++ [0]) := by
  rw [decimal_eq, List.length_append] at room
  obtain ⟨front, looped, cells⟩ := convertLoop_spec array value.holds (p := buf) (by omega)
  have signed : ∃ front' : CharArray size,
      storeSign front (buf + (decimalGlyphs.write value.value.natAbs).length) value.value =
        .ok (front', buf + (decimal value.value).length) ∧
      front'.cells = overwrite array.cells buf (decimal value.value).reverse := by
    rw [decimal_eq, List.reverse_append, List.length_append, storeSign]
    by_cases negative : value.value < 0
    · simp only [if_pos negative, List.length_singleton] at room ⊢
      have stored := CharArray.store_behind 45 cells (by rw [List.length_reverse]; omega)
      rw [List.length_reverse] at stored
      obtain ⟨front', stored, cells'⟩ := stored
      refine ⟨front', ?_, cells'⟩
      rw [stored, ok_bind, pure_eq_ok]
      congr 2
      omega
    · simp only [if_neg negative]
      exact ⟨front, by simp, by simpa using cells⟩
  obtain ⟨front', signed, cells'⟩ := signed
  rw [← List.length_append, ← decimal_eq] at room
  obtain ⟨after, ended, written⟩ := CharArray.terminate cells' room
  obtain ⟨terminated, stored, reversed⟩ := bind_eq_ok.mp ended
  refine ⟨after, ?_, written⟩
  simp only [convert, looped, signed, stored, reversed, ok_bind, pure_eq_ok, Nat.add_sub_cancel_left]

theorem length_decimal_le {T : IntegralType} (value : Integral T) :
    (decimal value.value).length + 1 ≤ kMaxNumericSize := by
  obtain ⟨low, high⟩ := IntegralType.bounds (T := T)
  obtain ⟨above, below⟩ := value.holds
  have bounded : value.value.natAbs < 10 ^ 20 := by omega
  have size := decimalGlyphs.length_writeInt_le 45 (by decide) bounded
  unfold decimal kMaxNumericSize
  omega

/-- `convert` ends without an overflow and inside its digit table and its array, and leaves the
canonical decimal numeral of the value with a terminator. -/
theorem convert_exact {T : IntegralType} (value : Integral T) (array : CharArray size) {buf : Nat}
    (room : buf + (decimal value.value).length < size) :
    (∃ after : CharArray size, convert array buf value = .ok (after, (decimal value.value).length) ∧
      after.cells = overwrite array.cells buf (decimal value.value ++ [0])) ∧
      CanonicalDecimal value.value (decimal value.value) ∧
      readDecimal (decimal value.value) = some value.value ∧
      (decimal value.value ++ [0]).length ≤ kMaxNumericSize := by
  refine ⟨convert_spec array value room, decimal_canonical value.value,
    readDecimal_decimal value.value, ?_⟩
  rw [List.length_append, List.length_singleton]
  exact length_decimal_le value

/-- The theorem at the value without a negation, in the last cells that suffice. -/
theorem convert_exact_lowest : ∃ after : CharArray 32,
    convert ⟨List.replicate 32 7, rfl⟩ 11 (⟨-9223372036854775808, by decide⟩ : Integral .long) =
      .ok (after, 20) ∧
    after.cells = List.replicate 11 7 ++ [45, 57, 50, 50, 51, 51, 55, 50, 48, 51, 54, 56, 53, 52, 55, 55,
      53, 56, 48, 56, 0] := by
  let lowest : Integral .long := ⟨-9223372036854775808, by decide⟩
  have numeral : decimal lowest.value =
      [45, 57, 50, 50, 51, 51, 55, 50, 48, 51, 54, 56, 53, 52, 55, 55, 53, 56, 48, 56] := by
    decide +kernel
  have room : 11 + (decimal lowest.value).length < 32 := by
    rw [numeral]
    decide
  obtain ⟨⟨after, converted, cells⟩, -⟩ := convert_exact lowest ⟨List.replicate 32 7, rfl⟩ room
  rw [numeral] at converted cells
  exact ⟨after, converted, cells⟩

theorem convertHexLoop_spec (array : CharArray size) {p i : Nat}
    (inside : p + (hexGlyphs.write i).length ≤ size) :
    ∃ after : CharArray size,
      convertHexLoop array p i = .ok (after, p + (hexGlyphs.write i).length) ∧
        after.cells = overwrite array.cells p (hexGlyphs.write i).reverse := by
  refine loop_spec hexGlyphs (fun _ => True) id (fun i => i / 16) (fun array p i _ => ?_) (fun i _ => ⟨trivial, rfl⟩) array trivial inside
  rw [convertHexLoop]
  simp only [load_digitsHex (Nat.mod_lt i (by decide)), ok_bind, pure_eq_ok, id]

/-- The digits are right; only the result is missing. -/
theorem convertHexBody_spec (array : CharArray size) {buf value : Nat}
    (room : buf + (hexGlyphs.write value).length < size) :
    ∃ after : CharArray size, convertHexBody array buf value = .ok after ∧
      after.cells = overwrite array.cells buf (hexGlyphs.write value ++ [0]) := by
  obtain ⟨front, looped, cells⟩ := convertHexLoop_spec array (Nat.le_of_lt room)
  obtain ⟨after, ended, written⟩ := CharArray.terminate cells room
  refine ⟨after, ?_, written⟩
  rw [convertHexBody, looped]
  exact ended

end

end TransferServer.Base
