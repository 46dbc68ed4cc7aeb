import Mathlib.Order.Basic

/-! Day numbers and dates in the Gregorian calendar. Its years are taken to begin in March, so
that the leap day ends a year; they repeat in cycles of 400. -/

set_option autoImplicit false

namespace TransferServer.Lib

structure Date where
  year : Int
  month : Int
  day : Int
  deriving DecidableEq, Repr

namespace Date

variable {date other : Date} {days later : Int}

def Leap (year : Int) : Prop := year % 4 = 0 ∧ (year % 100 ≠ 0 ∨ year % 400 = 0)

instance (year : Int) : Decidable (Leap year) := inferInstanceAs (Decidable (_ ∧ (_ ∨ _)))

def daysInMonth (year month : Int) : Int :=
  if month = 2 then if Leap year then 29 else 28
  else if month = 4 ∨ month = 6 ∨ month = 9 ∨ month = 11 then 30
  else 31

structure Valid (date : Date) : Prop where
  month : 1 ≤ date.month ∧ date.month ≤ 12
  day : 1 ≤ date.day ∧ date.day ≤ daysInMonth date.year date.month

def Before (date other : Date) : Prop :=
  date.year < other.year ∨ date.year = other.year ∧
    (date.month < other.month ∨ date.month = other.month ∧ date.day < other.day)

/-- The days from the 1st of March of the year 0 to that of `year`. -/
def beforeMarch (year : Int) : Int := 365 * year + year / 4 - year / 100 + year / 400

/-- The days from the 1st of March to the first of a month, counted from March. -/
def beforeMonth (month : Int) : Int := (153 * month + 2) / 5

/-- The days from the 1st of January 1970. -/
def toDays (date : Date) : Int :=
  let year := if date.month ≤ 2 then date.year - 1 else date.year
  let month := if date.month ≤ 2 then date.month + 9 else date.month - 3
  beforeMarch year + beforeMonth month + date.day - 1 - 719468

def ofDays (days : Int) : Date :=
  let cycle := (days + 719468) / 146097
  let inCycle := (days + 719468) % 146097
  let century := min (inCycle / 36524) 3
  let inCentury := inCycle - century * 36524
  let quad := inCentury / 1461
  let inQuad := inCentury % 1461
  let rest := min (inQuad / 365) 3
  let inYear := inQuad - rest * 365
  let year := 400 * cycle + 100 * century + 4 * quad + rest
  let month := (5 * inYear + 2) / 153
  let day := inYear - beforeMonth month + 1
  if month < 10 then ⟨year, month + 3, day⟩ else ⟨year + 1, month - 9, day⟩

example : ofDays 0 = ⟨1970, 1, 1⟩ := by decide

theorem beforeMarch_eq {cycle century quad rest : Int} (centuries : 0 ≤ century ∧ century ≤ 3)
    (quads : 0 ≤ quad ∧ quad ≤ 24) (rests : 0 ≤ rest ∧ rest ≤ 3) :
    beforeMarch (400 * cycle + 100 * century + 4 * quad + rest) =
      146097 * cycle + 36524 * century + 1461 * quad + 365 * rest := by
  have fourth : (400 * cycle + 100 * century + 4 * quad + rest) / 4 =
      100 * cycle + 25 * century + quad := by omega
  have hundredth : (400 * cycle + 100 * century + 4 * quad + rest) / 100 =
      4 * cycle + century := by omega
  have last : (400 * cycle + 100 * century + 4 * quad + rest) / 400 = cycle := by omega
  rw [beforeMarch, fourth, hundredth, last]
  omega

/-- The year in which a day falls, and the day in it. -/
theorem ofDays_spec (days : Int) : ∃ year inYear month : Int,
    days = beforeMarch year + inYear - 719468 ∧ 0 ≤ inYear ∧
      (inYear < 365 ∨ inYear = 365 ∧ Leap (year + 1)) ∧ month = (5 * inYear + 2) / 153 ∧
      ofDays days =
        if month < 10 then ⟨year, month + 3, inYear - beforeMonth month + 1⟩
        else ⟨year + 1, month - 9, inYear - beforeMonth month + 1⟩ := by
  obtain ⟨cycle, cycleIs⟩ : ∃ cycle, cycle = (days + 719468) / 146097 := ⟨_, rfl⟩
  obtain ⟨inCycle, inCycleIs⟩ : ∃ inCycle, inCycle = (days + 719468) % 146097 := ⟨_, rfl⟩
  obtain ⟨century, centuryIs⟩ : ∃ century, century = min (inCycle / 36524) 3 := ⟨_, rfl⟩
  obtain ⟨inCentury, inCenturyIs⟩ : ∃ inCentury, inCentury = inCycle - century * 36524 := ⟨_, rfl⟩
  obtain ⟨quad, quadIs⟩ : ∃ quad, quad = inCentury / 1461 := ⟨_, rfl⟩
  obtain ⟨inQuad, inQuadIs⟩ : ∃ inQuad, inQuad = inCentury % 1461 := ⟨_, rfl⟩
  obtain ⟨rest, restIs⟩ : ∃ rest, rest = min (inQuad / 365) 3 := ⟨_, rfl⟩
  have centuries : 0 ≤ century ∧ century ≤ 3 ∧ 0 ≤ inCentury ∧
      (inCentury < 36524 ∨ inCentury = 36524 ∧ century = 3) := by omega
  have quads : 0 ≤ quad ∧ quad ≤ 24 ∧ 0 ≤ inQuad ∧ inQuad < 1461 ∧
      (quad = 24 → inQuad = 1460 → century = 3) := by omega
  have rests : 0 ≤ rest ∧ rest ≤ 3 ∧ 0 ≤ inQuad - rest * 365 ∧
      (inQuad - rest * 365 < 365 ∨ inQuad - rest * 365 = 365 ∧ rest = 3 ∧ inQuad = 1460) := by omega
  refine ⟨400 * cycle + 100 * century + 4 * quad + rest, inQuad - rest * 365, _, ?_, rests.2.2.1, ?_,
    rfl, ?_⟩
  · rw [beforeMarch_eq ⟨centuries.1, centuries.2.1⟩ ⟨quads.1, quads.2.1⟩ ⟨rests.1, rests.2.1⟩]
    omega
  · refine rests.2.2.2.imp_right fun ⟨last, three, final⟩ => ⟨last, ?_⟩
    have closes : quad = 24 → century = 3 := fun whole => quads.2.2.2.2 whole final
    unfold Leap
    omega
  · rw [restIs, inQuadIs, quadIs, inCenturyIs, centuryIs, inCycleIs, cycleIs]
    rfl

theorem ofDays_valid (days : Int) : (ofDays days).Valid := by
  obtain ⟨year, inYear, month, _, first, last, monthIs, date⟩ := ofDays_spec days
  rw [date]
  have months : 0 ≤ month ∧ month ≤ 11 := by omega
  unfold beforeMonth
  split
  · refine ⟨by dsimp only; omega, ?_⟩
    have later : ¬ month + 3 = 2 := by omega
    simp only [daysInMonth, if_neg later]
    split <;> omega
  · refine ⟨by dsimp only; omega, ?_⟩
    have shorter : ¬ (month - 9 = 4 ∨ month - 9 = 6 ∨ month - 9 = 9 ∨ month - 9 = 11) := by omega
    simp only [daysInMonth, if_neg shorter]
    split
    · split
      · omega
      · next common =>
          have short : inYear < 365 := last.resolve_right fun last => common last.2
          omega
    · omega

theorem toDays_ofDays (days : Int) : (ofDays days).toDays = days := by
  obtain ⟨year, inYear, month, whole, first, last, monthIs, date⟩ := ofDays_spec days
  rw [date]
  split
  · have early : ¬ month + 3 ≤ 2 := by omega
    simp only [toDays, if_neg early, Int.add_sub_cancel]
    omega
  · have late : month - 9 ≤ 2 := by omega
    simp only [toDays, if_pos late, Int.add_sub_cancel, Int.sub_add_cancel]
    omega

/-- The year that begins in March and the day in it, both counted from 0. -/
theorem toDays_spec (valid : date.Valid) : ∃ year inYear : Int,
    date.toDays = beforeMarch year + inYear - 719468 ∧ 0 ≤ inYear ∧
      (inYear < 365 ∨ inYear = 365 ∧ Leap (year + 1)) ∧
      (date.month ≤ 2 → year = date.year - 1 ∧ inYear = beforeMonth (date.month + 9) + date.day - 1) ∧
      (2 < date.month → year = date.year ∧ inYear = beforeMonth (date.month - 3) + date.day - 1) := by
  obtain ⟨⟨first, last⟩, low, high⟩ := valid
  unfold daysInMonth at high
  by_cases early : date.month ≤ 2
  · refine ⟨date.year - 1, beforeMonth (date.month + 9) + date.day - 1, ?_, ?_, ?_, fun _ => ⟨rfl, rfl⟩,
      fun late => absurd late (Int.not_lt.mpr early)⟩
    · simp only [toDays, if_pos early]
      omega
    · unfold beforeMonth
      omega
    · rw [Int.sub_add_cancel]
      unfold beforeMonth
      split at high
      · split at high
        · next leap =>
            have close : (153 * (date.month + 9) + 2) / 5 + date.day - 1 < 365 ∨
                (153 * (date.month + 9) + 2) / 5 + date.day - 1 = 365 := by omega
            exact close.imp_right fun last => ⟨last, leap⟩
        · omega
      · split at high <;> omega
  · refine ⟨date.year, beforeMonth (date.month - 3) + date.day - 1, ?_, ?_, ?_,
      fun early' => absurd early' early, fun _ => ⟨rfl, rfl⟩⟩
    · simp only [toDays, if_neg early]
      omega
    · unfold beforeMonth
      omega
    · left
      unfold beforeMonth
      split at high
      · omega
      · split at high <;> omega

theorem beforeMarch_add_lt {year year' inYear : Int}
    (inside : inYear < 365 ∨ inYear = 365 ∧ Leap (year + 1)) (lt : year < year') :
    beforeMarch year + inYear < beforeMarch year' := by
  unfold beforeMarch Leap at *
  omega

/-- A month ends before the next one begins. -/
theorem beforeMonth_add_le (valid : date.Valid) :
    (date.month ≤ 2 → beforeMonth (date.month + 9) + date.day ≤ beforeMonth (date.month + 10)) ∧
      (2 < date.month → beforeMonth (date.month - 3) + date.day ≤ beforeMonth (date.month - 2)) := by
  obtain ⟨⟨low, high⟩, _, large⟩ := valid
  have months : date.month = 2 ∨ date.month = 4 ∨ date.month = 6 ∨ date.month = 9 ∨ date.month = 11 ∨
      date.month = 1 ∨ date.month = 3 ∨ date.month = 5 ∨ date.month = 7 ∨ date.month = 8 ∨
      date.month = 10 ∨ date.month = 12 := by omega
  unfold daysInMonth at large
  unfold beforeMonth
  rcases months with february | month | month | month | month | month | month | month | month | month |
    month | month
  · rw [if_pos february] at large
    split at large <;> omega
  all_goals
    rw [month] at large ⊢
    simp only [Int.reduceEq, reduceIte, or_true, or_false, or_self] at large
    omega

theorem toDays_lt (valid : date.Valid) (valid' : other.Valid) (before : date.Before other) :
    date.toDays < other.toDays := by
  obtain ⟨year, inYear, whole, first, last, early, late⟩ := toDays_spec valid
  obtain ⟨year', inYear', whole', first', last', early', late'⟩ := toDays_spec valid'
  rw [whole, whole']
  by_cases lt : year < year'
  · have apart := beforeMarch_add_lt last lt
    omega
  · obtain ⟨ends, ends'⟩ := beforeMonth_add_le valid
    obtain ⟨⟨low, high⟩, small, _⟩ := valid
    obtain ⟨⟨low', high'⟩, small', _⟩ := valid'
    unfold Before at before
    have same : year = year' := by omega
    subst same
    unfold beforeMonth at early late early' late' ends ends'
    omega

theorem eq_or_before_of_not (unordered : ¬ date.Before other) : date = other ∨ other.Before date := by
  obtain ⟨year, month, day⟩ := date
  obtain ⟨year', month', day'⟩ := other
  simp only [Before, Date.mk.injEq] at *
  omega

/-- The dates of the days are in the order of the calendar. -/
theorem ofDays_before (lt : days < later) : (ofDays days).Before (ofDays later) := by
  have valid := ofDays_valid days
  have valid' := ofDays_valid later
  by_contra unordered
  rcases eq_or_before_of_not unordered with same | swapped
  · have equal := congrArg toDays same
    rw [toDays_ofDays, toDays_ofDays] at equal
    omega
  · have less := toDays_lt valid' valid swapped
    rw [toDays_ofDays, toDays_ofDays] at less
    omega

end Date

end TransferServer.Lib
