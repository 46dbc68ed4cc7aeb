import TransferServer.Lib.Numeral

/-! Numerals filled up with zeros to a width, and texts made of them: their order as texts is the
order of the numbers. -/

set_option autoImplicit false

namespace TransferServer.Lib

universe u

section Texts

variable {Symbol : Type u} [LT Symbol] {first second : List Symbol}

/-- What follows does not matter where texts of one length differ. -/
theorem append_lt_append (lt : first < second) (same : first.length = second.length)
    (rest rest' : List Symbol) : first ++ rest < second ++ rest' := by
  induction first generalizing second with
  | nil =>
      cases second with
      | nil => exact absurd lt (List.not_lt_nil _)
      | cons symbol second => cases same
  | cons symbol first ih =>
      cases second with
      | nil => cases same
      | cons symbol' second =>
          rw [List.cons_append, List.cons_append, List.cons_lt_cons_iff]
          refine (List.cons_lt_cons_iff.mp lt).imp_right fun ⟨equal, lt⟩ => ⟨equal, ih lt ?_⟩
          exact Nat.succ.inj same

end Texts

namespace Glyphs

variable {Symbol : Type u} {base value value' width : Nat} (glyphs : Glyphs base Symbol)

/-- At least `width` digits. -/
def padded (width value : Nat) : List Symbol :=
  List.replicate (width - (glyphs.write value).length) (glyphs.glyph 0) ++ glyphs.write value

theorem write_of_lt (small : value < base) : glyphs.write value = [glyphs.glyph value] := by
  rw [write_eq, Nat.div_eq_of_lt small, if_pos rfl, Nat.mod_eq_of_lt small, List.nil_append]

theorem length_write_le_iff (positive : 0 < width) :
    (glyphs.write value).length ≤ width ↔ value < base ^ width := by
  rw [write, List.length_map]
  refine ⟨fun short => ?_, length_numeral_le glyphs.large positive⟩
  by_cases zero : value = 0
  · rw [zero]
    exact Nat.pow_pos (Nat.zero_lt_of_lt glyphs.large)
  · rw [numeral, if_neg zero, List.length_reverse] at short
    exact (Nat.digits_length_le_iff glyphs.large value).mp short

theorem length_padded (positive : 0 < width) (small : value < base ^ width) :
    (glyphs.padded width value).length = width := by
  have fits := (glyphs.length_write_le_iff positive).mpr small
  rw [padded, List.length_append, List.length_replicate]
  omega

theorem padded_one (small : value < base) : glyphs.padded 1 value = [glyphs.glyph value] := by
  rw [padded, write_of_lt glyphs small]
  rfl

/-- The lowest digit stands behind the rest, which is one digit narrower. -/
theorem padded_succ (positive : 0 < width) :
    glyphs.padded (width + 1) value =
      glyphs.padded width (value / base) ++ [glyphs.glyph (value % base)] := by
  unfold padded
  rw [glyphs.write_eq value]
  by_cases last : value / base = 0
  · have zero : glyphs.write 0 = [glyphs.glyph 0] :=
      glyphs.write_of_lt (Nat.zero_lt_of_lt glyphs.large)
    obtain ⟨narrower, rfl⟩ := Nat.exists_eq_succ_of_ne_zero (Nat.ne_of_gt positive)
    rw [if_pos last, last, zero]
    simp [List.replicate_succ']
  · rw [if_neg last, List.length_append, List.length_singleton, Nat.add_sub_add_right]
    exact (List.append_assoc _ _ _).symm

/-- Among numerals of one width the greater number has the later text. -/
theorem padded_lt [LT Symbol]
    (ascending : ∀ digit digit', digit < digit' → digit' < base →
      glyphs.glyph digit < glyphs.glyph digit')
    (positive : 0 < width) (small : value' < base ^ width) (lt : value < value') :
    glyphs.padded width value < glyphs.padded width value' := by
  induction width, positive using Nat.le_induction generalizing value value' with
  | base =>
      rw [Nat.pow_one] at small
      rw [glyphs.padded_one (Nat.lt_trans lt small), glyphs.padded_one small]
      exact List.cons_lt_cons_iff.mpr (.inl (ascending value value' lt small))
  | succ width positive ih =>
      have narrow : value' / base < base ^ width := by
        rw [Nat.div_lt_iff_lt_mul (Nat.zero_lt_of_lt glyphs.large), ← Nat.pow_succ]
        exact small
      rw [glyphs.padded_succ positive, glyphs.padded_succ positive]
      rcases Nat.lt_or_eq_of_le (Nat.div_le_div_right (c := base) (Nat.le_of_lt lt)) with less | same
      · refine append_lt_append (ih narrow less) ?_ _ _
        rw [glyphs.length_padded positive narrow,
          glyphs.length_padded positive (Nat.lt_trans less narrow)]
      · rw [same]
        refine List.append_left_lt (List.cons_lt_cons_iff.mpr (.inl ?_))
        refine ascending _ _ ?_ (Nat.mod_lt _ (Nat.zero_lt_of_lt glyphs.large))
        have whole := Nat.div_add_mod value base
        have whole' := Nat.div_add_mod value' base
        rw [same] at whole
        omega

/-- Numerals of the given widths, each with the separator behind it. -/
def fields : List (Nat × List Symbol) → List Nat → List Symbol
  | [], _ => []
  | _ :: _, [] => []
  | (width, separator) :: layout, value :: values =>
      glyphs.padded width value ++ (separator ++ fields layout values)

/-- The number has a digit at least, and no more than the width of its field. -/
def Fits (base : Nat) (field : Nat × List Symbol) (value : Nat) : Prop :=
  0 < field.1 ∧ value < base ^ field.1

theorem length_fields {layout : List (Nat × List Symbol)} {values : List Nat}
    (fits : List.Forall₂ (Fits base) layout values) :
    (glyphs.fields layout values).length =
      (layout.map fun field => field.1 + field.2.length).sum := by
  induction fits with
  | nil => rfl
  | @cons field value layout values fit fits ih =>
      obtain ⟨width, separator⟩ := field
      rw [fields, List.length_append, List.length_append, glyphs.length_padded fit.1 fit.2, ih]
      simp only [List.map_cons, List.sum_cons]
      omega

/-- The texts are in the order of the numbers, the first ones weighing most. -/
theorem fields_lt [LT Symbol]
    (ascending : ∀ digit digit', digit < digit' → digit' < base →
      glyphs.glyph digit < glyphs.glyph digit')
    {layout : List (Nat × List Symbol)} {values values' : List Nat}
    (fits : List.Forall₂ (Fits base) layout values) (fits' : List.Forall₂ (Fits base) layout values')
    (lt : values < values') : glyphs.fields layout values < glyphs.fields layout values' := by
  induction fits generalizing values' with
  | nil =>
      cases fits'
      exact absurd lt (List.not_lt_nil _)
  | @cons field value layout values fit fits ih =>
      cases fits' with
      | @cons _ value' _ values' fit' fits' =>
          obtain ⟨positive, small⟩ := fit
          obtain ⟨_, small'⟩ := fit'
          rcases List.cons_lt_cons_iff.mp lt with less | ⟨rfl, rest⟩
          · refine append_lt_append (glyphs.padded_lt ascending positive small' less) ?_ _ _
            rw [glyphs.length_padded positive small, glyphs.length_padded positive small']
          · exact List.append_left_lt (List.append_left_lt (ih fits' rest))

end Glyphs

end TransferServer.Lib
