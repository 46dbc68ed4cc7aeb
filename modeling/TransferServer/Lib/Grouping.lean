import Mathlib.Data.List.Basic

/-! Texts that are cut only between the items they are made of. -/

set_option autoImplicit false

namespace TransferServer.Lib

universe u

variable {Symbol : Type u} {items pieces before after : List (List Symbol)}
variable {item piece first second : List Symbol}

/-- Each piece is what some consecutive items make together, and all items are used. -/
def Grouped (items pieces : List (List Symbol)) : Prop :=
  ∃ groups : List (List (List Symbol)), groups.flatten = items ∧ groups.map List.flatten = pieces

namespace Grouped

theorem nil : Grouped [] ([] : List (List Symbol)) := ⟨[], rfl, rfl⟩

theorem append_iff : Grouped items (before ++ after) ↔
    ∃ front back, items = front ++ back ∧ Grouped front before ∧ Grouped back after := by
  constructor
  · rintro ⟨groups, rfl, made⟩
    obtain ⟨earlier, later, rfl, rfl, rfl⟩ := List.map_eq_append_iff.mp made
    exact ⟨earlier.flatten, later.flatten, List.flatten_append, ⟨earlier, rfl, rfl⟩, ⟨later, rfl, rfl⟩⟩
  · rintro ⟨front, back, rfl, ⟨earlier, rfl, rfl⟩, ⟨later, rfl, rfl⟩⟩
    exact ⟨earlier ++ later, List.flatten_append, List.map_append⟩

theorem singleton_iff : Grouped items [piece] ↔ items.flatten = piece := by
  constructor
  · rintro ⟨groups, rfl, made⟩
    obtain ⟨group, rfl, rfl⟩ := List.map_eq_singleton_iff.mp made
    rw [List.flatten_singleton]
  · rintro rfl
    exact ⟨[items], List.flatten_singleton, rfl⟩

theorem cons_iff : Grouped items (piece :: after) ↔
    ∃ front back, items = front ++ back ∧ front.flatten = piece ∧ Grouped back after := by
  rw [← List.singleton_append, append_iff]
  simp only [singleton_iff]

theorem flatten_eq (grouped : Grouped items pieces) : pieces.flatten = items.flatten := by
  obtain ⟨groups, rfl, rfl⟩ := grouped
  exact List.flatten_flatten.symm

/-- The next item goes to the end of the last piece. -/
theorem extend (grouped : Grouped items (before ++ [piece])) (item : List Symbol) :
    Grouped (items ++ [item]) (before ++ [piece ++ item]) := by
  obtain ⟨front, back, rfl, early, late⟩ := append_iff.mp grouped
  refine append_iff.mpr ⟨front, back ++ [item], List.append_assoc _ _ _, early, ?_⟩
  rw [singleton_iff, List.flatten_append, singleton_iff.mp late, List.flatten_singleton]

/-- A cut may be made where a piece ends. -/
theorem insert_nil (grouped : Grouped items (before ++ after)) :
    Grouped items (before ++ [] :: after) := by
  obtain ⟨front, back, rfl, early, late⟩ := append_iff.mp grouped
  exact append_iff.mpr ⟨front, back, rfl, early, cons_iff.mpr ⟨[], back, rfl, rfl, late⟩⟩

/-- A cut may be dropped. -/
theorem join (grouped : Grouped items (before ++ first :: second :: after)) :
    Grouped items (before ++ (first ++ second) :: after) := by
  obtain ⟨front, back, rfl, early, late⟩ := append_iff.mp grouped
  obtain ⟨one, rest, rfl, rfl, later⟩ := cons_iff.mp late
  obtain ⟨two, last, rfl, rfl, latest⟩ := cons_iff.mp later
  refine append_iff.mpr ⟨front, one ++ (two ++ last), rfl, early, cons_iff.mpr ?_⟩
  exact ⟨one ++ two, last, (List.append_assoc _ _ _).symm, List.flatten_append, latest⟩

end Grouped

end TransferServer.Lib
