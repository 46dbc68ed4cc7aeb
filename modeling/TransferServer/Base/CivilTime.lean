import TransferServer.Lib.Calendar
import TransferServer.Lib.PaddedNumeral
import TransferServer.Base.ConvertProperties

/-! Calendar time as the log shows it: `gmtime_r`, and numbers printed at a width. Up to the year
9999 the texts are in the order of the times. -/

set_option autoImplicit false

namespace TransferServer.Base

open Lib

/-- The fields of `struct tm` that are printed. -/
structure Tm where
  tmYear : Int
  tmMon : Int
  tmMday : Int
  tmHour : Int
  tmMin : Int
  tmSec : Int
  deriving DecidableEq, Repr

/-- Seconds since the epoch in UTC, without leap seconds. -/
def gmtime_r (seconds : Int) : Tm :=
  let date := Date.ofDays (seconds / 86400)
  { tmYear := date.year - 1900
    tmMon := date.month - 1
    tmMday := date.day
    tmHour := seconds % 86400 / 3600
    tmMin := seconds % 3600 / 60
    tmSec := seconds % 60 }

example : gmtime_r 1700000000 = ⟨123, 10, 14, 22, 13, 20⟩ := by decide

/-- `%0*d` -/
def zeroPad (width : Nat) (v : Int) : Bytes :=
  let sign := if v < 0 then [45] else []
  let digits := decimalGlyphs.write v.natAbs
  sign ++ List.replicate (width - sign.length - digits.length) 48 ++ digits

/-- `%*d` -/
def spacePad (width : Nat) (v : Int) : Bytes :=
  List.replicate (width - (decimal v).length) 32 ++ decimal v

theorem zeroPad_eq (width : Nat) {v : Int} (positive : 0 ≤ v) :
    zeroPad width v = decimalGlyphs.padded width v.toNat := by
  have unsigned : ¬ v < 0 := Int.not_lt.mpr positive
  have size : v.natAbs = v.toNat := by omega
  simp only [zeroPad, if_neg unsigned, List.length_nil, List.nil_append, Nat.sub_zero, size]
  rfl

/-- A number with no place to fill up is printed as it is. -/
theorem decimal_eq_padded {width : Nat} {v : Int} (wide : 0 < width) (low : 10 ^ width ≤ v)
    (high : v < 10 ^ (width + 1)) : decimal v = decimalGlyphs.padded (width + 1) v.toNat := by
  have positive : 0 ≤ v := le_trans (by positivity) low
  have unsigned : ¬ v < 0 := Int.not_lt.mpr positive
  have size : v.natAbs = v.toNat := by omega
  have long : ¬ (decimalGlyphs.write v.toNat).length ≤ width := by
    rw [decimalGlyphs.length_write_le_iff wide, Nat.not_lt, ← Nat.cast_le (α := Int)]
    push_cast
    omega
  have short : (decimalGlyphs.write v.toNat).length ≤ width + 1 := by
    rw [decimalGlyphs.length_write_le_iff (Nat.succ_pos _), ← Nat.cast_lt (α := Int)]
    push_cast
    omega
  have none : width + 1 - (decimalGlyphs.write v.toNat).length = 0 := by omega
  rw [decimal_eq, if_neg unsigned, size, Glyphs.padded, none]
  rfl

theorem spacePad_eq {width : Nat} {v : Int} (wide : 0 < width) (low : 10 ^ width ≤ v)
    (high : v < 10 ^ (width + 1)) :
    spacePad (width + 1) v = decimalGlyphs.padded (width + 1) v.toNat := by
  have small : v.toNat < 10 ^ (width + 1) := by
    rw [← Nat.cast_lt (α := Int)]
    push_cast
    omega
  have full : (decimal v).length = width + 1 := by
    rw [decimal_eq_padded wide low high, decimalGlyphs.length_padded (Nat.succ_pos _) small]
  rw [spacePad, full, Nat.sub_self, List.replicate_zero, List.nil_append,
    decimal_eq_padded wide low high]

theorem glyph_lt : ∀ digit digit', digit < digit' → digit' < 10 →
    decimalGlyphs.glyph digit < decimalGlyphs.glyph digit' := by
  intro digit digit' lt small
  have checked : ∀ digit' < 10, ∀ digit < digit', decimalGlyphs.glyph digit < decimalGlyphs.glyph digit' := by
    decide
  exact checked digit' small digit lt

/-- From the epoch to the end of the year 9999. -/
def Civil (seconds : Int) : Prop := 0 ≤ seconds ∧ seconds < 253402300800

instance (seconds : Int) : Decidable (Civil seconds) := inferInstanceAs (Decidable (_ ∧ _))

namespace Tm

/-- The numbers that are printed, in the order of their weight. -/
def values (tm : Tm) : List Nat :=
  [(tm.tmYear + 1900).toNat, (tm.tmMon + 1).toNat, tm.tmMday.toNat, tm.tmHour.toNat, tm.tmMin.toNat,
    tm.tmSec.toNat]

/-- The fields have as many digits as are printed. -/
structure Printable (tm : Tm) : Prop where
  year : 1000 ≤ tm.tmYear + 1900 ∧ tm.tmYear + 1900 < 10000
  mon : 0 ≤ tm.tmMon + 1 ∧ tm.tmMon + 1 < 100
  mday : 0 ≤ tm.tmMday ∧ tm.tmMday < 100
  hour : 0 ≤ tm.tmHour ∧ tm.tmHour < 100
  min : 0 ≤ tm.tmMin ∧ tm.tmMin < 100
  sec : 0 ≤ tm.tmSec ∧ tm.tmSec < 100

end Tm

theorem gmtime_printable {seconds : Int} (civil : Civil seconds) : (gmtime_r seconds).Printable := by
  obtain ⟨low, high⟩ := civil
  obtain ⟨⟨firstMonth, lastMonth⟩, firstDay, lastDay⟩ := Date.ofDays_valid (seconds / 86400)
  have month : Date.daysInMonth (Date.ofDays (seconds / 86400)).year (Date.ofDays (seconds / 86400)).month ≤ 31 := by
    unfold Date.daysInMonth
    split <;> split <;> omega
  have years : 1970 ≤ (Date.ofDays (seconds / 86400)).year ∧ (Date.ofDays (seconds / 86400)).year ≤ 9999 := by
    have first : Date.ofDays (-1) = ⟨1969, 12, 31⟩ := by decide
    have last : Date.ofDays 2932897 = ⟨10000, 1, 1⟩ := by decide
    have after : (Date.ofDays (-1)).Before (Date.ofDays (seconds / 86400)) := Date.ofDays_before (by omega)
    have before : (Date.ofDays (seconds / 86400)).Before (Date.ofDays 2932897) :=
      Date.ofDays_before (by omega)
    rw [first] at after
    rw [last] at before
    simp only [Date.Before] at after before
    omega
  refine ⟨?_, ?_, ?_, ?_, ?_, ?_⟩
  all_goals
    dsimp only [gmtime_r]
    omega

/-- On one day the clock shows the hours, minutes and seconds in the order of the times. -/
theorem clock_lt {seconds later : Int} (day : seconds / 86400 = later / 86400) (lt : seconds < later) :
    seconds % 86400 / 3600 < later % 86400 / 3600 ∨ seconds % 86400 / 3600 = later % 86400 / 3600 ∧
      (seconds % 3600 / 60 < later % 3600 / 60 ∨ seconds % 3600 / 60 = later % 3600 / 60 ∧
        seconds % 60 < later % 60) := by
  have hour : seconds / 3600 < later / 3600 ∨ seconds / 3600 = later / 3600 := by omega
  have hours : ∀ time : Int, time % 86400 / 3600 = time / 3600 - 24 * (time / 86400) := by
    intro time
    omega
  have minutes : ∀ time : Int, time % 3600 / 60 = time / 60 - 60 * (time / 3600) := by
    intro time
    omega
  rw [hours, hours, minutes, minutes]
  rcases hour with less | same
  · exact .inl (by omega)
  · refine .inr ⟨by omega, ?_⟩
    have minute : seconds / 60 < later / 60 ∨ seconds / 60 = later / 60 := by omega
    rcases minute with less | equal
    · exact .inl (by omega)
    · exact .inr ⟨by omega, by omega⟩

theorem values_lt {seconds later : Int} (civil : Civil seconds) (lt : seconds < later) :
    (gmtime_r seconds).values < (gmtime_r later).values := by
  obtain ⟨year, mon, mday, _, _, _⟩ := gmtime_printable civil
  obtain ⟨low, _⟩ := civil
  simp only [gmtime_r] at year mon mday
  simp only [Tm.values, gmtime_r, List.cons_lt_cons_iff, List.lt_irrefl, and_false, or_false]
  rcases Int.lt_or_eq_of_le (show seconds / 86400 ≤ later / 86400 by omega) with less | same
  · rcases Date.ofDays_before less with earlier | ⟨same, earlier | ⟨same', earlier⟩⟩
    · exact .inl (by omega)
    · exact .inr ⟨by rw [same], .inl (by omega)⟩
    · exact .inr ⟨by rw [same], .inr ⟨by rw [same'], .inl (by omega)⟩⟩
  · have positive : 0 ≤ later := le_trans low (Int.le_of_lt lt)
    rw [same]
    refine .inr ⟨rfl, .inr ⟨rfl, .inr ⟨rfl, ?_⟩⟩⟩
    have toNat_lt : ∀ {number number' : Int}, 0 ≤ number → number < number' →
        number.toNat < number'.toNat := by
      intro number number' positive lt
      omega
    rcases clock_lt same lt with hour | ⟨hour, minute | ⟨minute, second⟩⟩
    · exact .inl (toNat_lt (by omega) hour)
    · exact .inr ⟨congrArg Int.toNat hour, .inl (toNat_lt (by omega) minute)⟩
    · exact .inr ⟨congrArg Int.toNat hour,
        .inr ⟨congrArg Int.toNat minute, toNat_lt (Int.emod_nonneg _ (by decide)) second⟩⟩

/-- Where the numbers of `tm` stand in a text: behind the date comes `between`, and `within` parts
the numbers of the clock. -/
def clockLayout (between within : Bytes) : List (Nat × Bytes) :=
  [(4, []), (2, []), (2, between), (2, within), (2, within), (2, [])]

theorem values_fit {tm : Tm} (printable : tm.Printable) (between within : Bytes) :
    List.Forall₂ (Glyphs.Fits 10) (clockLayout between within) tm.values := by
  obtain ⟨year, mon, mday, hour, min, sec⟩ := printable
  unfold clockLayout Tm.values
  refine .cons ⟨Nat.succ_pos _, ?_⟩ (.cons ⟨Nat.succ_pos _, ?_⟩ (.cons ⟨Nat.succ_pos _, ?_⟩
    (.cons ⟨Nat.succ_pos _, ?_⟩ (.cons ⟨Nat.succ_pos _, ?_⟩ (.cons ⟨Nat.succ_pos _, ?_⟩ .nil)))))
  all_goals
    dsimp only
    omega

end TransferServer.Base
