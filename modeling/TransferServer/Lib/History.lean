import Mathlib.Data.List.Induction

/-! Histories in which every event is allowed by the events before it. -/

set_option autoImplicit false

namespace TransferServer.Lib

universe u

variable {Event : Type u} {allows : List Event → Event → Prop}

inductive History (allows : List Event → Event → Prop) : List Event → Prop where
  | nil : History allows []
  | snoc {events : List Event} {event : Event} :
      History allows events → allows events event → History allows (events ++ [event])

/-- An event is allowed by what precedes it, whatever has come after. -/
theorem History.allowed {trace earlier later : List Event} {event : Event}
    (history : History allows trace) (split : trace = earlier ++ event :: later) :
    allows earlier event := by
  induction history generalizing later with
  | nil => simp at split
  | snoc _ permitted ih =>
      cases later using List.reverseRecOn with
      | nil =>
          obtain ⟨rfl, same⟩ := List.append_inj' split rfl
          cases same
          exact permitted
      | append_singleton later last =>
          rw [← List.cons_append, ← List.append_assoc] at split
          exact ih (List.append_inj' split rfl).1

theorem History.snoc_iff {events : List Event} {event : Event} :
    History allows (events ++ [event]) ↔ History allows events ∧ allows events event := by
  constructor
  · intro history
    generalize whole : events ++ [event] = trace at history
    cases history with
    | nil => simp at whole
    | snoc earlier permitted =>
        obtain ⟨rfl, same⟩ := List.append_inj' whole rfl
        cases same
        exact ⟨earlier, permitted⟩
  · rintro ⟨earlier, permitted⟩
    exact .snoc earlier permitted

/-- What is taken from a sequence when each event is taken where those taken before it allow it. -/
inductive Selection (allows : List Event → Event → Prop) : List Event → List Event → Prop where
  | nil : Selection allows [] []
  | take {events taken : List Event} {event : Event} :
      Selection allows events taken → allows taken event →
        Selection allows (events ++ [event]) (taken ++ [event])
  | skip {events taken : List Event} {event : Event} :
      Selection allows events taken → ¬ allows taken event →
        Selection allows (events ++ [event]) taken

theorem Selection.sublist {events taken : List Event} (selection : Selection allows events taken) :
    taken.Sublist events := by
  induction selection with
  | nil => exact .refl _
  | take _ _ ih => exact ih.append (.refl _)
  | skip _ _ ih => exact ih.trans (List.sublist_append_left _ _)

end TransferServer.Lib
