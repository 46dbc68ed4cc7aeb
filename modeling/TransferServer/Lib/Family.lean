import Mathlib.Logic.Function.Basic

/-! A family of machines of one kind, created one by one under names of their own. A step of
the family moves one member; what every member keeps, the family keeps. -/

set_option autoImplicit false

namespace TransferServer.Lib

universe u v

variable {Name : Type u} {Member : Type v} [DecidableEq Name]
variable {born : Member → Prop} {moves : Member → Member → Prop}

/-- The family grows by a member or moves one, any number of times. -/
inductive Evolves (born : Member → Prop) (moves : Member → Member → Prop)
    (start : Name → Option Member) : (Name → Option Member) → Prop where
  | refl : Evolves born moves start start
  | birth {family : Name → Option Member} {name : Name} {member : Member} :
      Evolves born moves start family → family name = none → born member →
      Evolves born moves start (Function.update family name (some member))
  | move {family : Name → Option Member} {name : Name} {member next : Member} :
      Evolves born moves start family → family name = some member → moves member next →
      Evolves born moves start (Function.update family name (some next))

namespace Evolves

variable {start middle final : Name → Option Member}

theorem trans (first : Evolves born moves start middle) (second : Evolves born moves middle final) :
    Evolves born moves start final := by
  induction second with
  | refl => exact first
  | birth _ unused created ih => exact .birth ih unused created
  | move _ found moved ih => exact .move ih found moved

theorem of_birth {name : Name} {member : Member} (unused : start name = none)
    (created : born member) : Evolves born moves start (Function.update start name (some member)) :=
  .birth .refl unused created

theorem of_move {name : Name} {member next : Member} (found : start name = some member)
    (moved : moves member next) :
    Evolves born moves start (Function.update start name (some next)) :=
  .move .refl found moved

/-- What holds of new members and survives every move of one member holds of all members. -/
theorem invariant {property : Member → Prop} (evolved : Evolves born moves start final)
    (created : ∀ member, born member → property member)
    (kept : ∀ member next, property member → moves member next → property next)
    (initial : ∀ name member, start name = some member → property member) :
    ∀ name member, final name = some member → property member := by
  induction evolved with
  | refl => exact initial
  | birth _ _ fresh ih =>
      intro name member found
      rw [Function.update_apply] at found
      split at found
      · cases found
        exact created _ fresh
      · exact ih name member found
  | move _ there moved ih =>
      intro name member found
      rw [Function.update_apply] at found
      split at found
      · cases found
        exact kept _ _ (ih _ _ there) moved
      · exact ih name member found

/-- What survives every move of one member stays true of a member that has it. -/
theorem persists {property : Member → Prop} (evolved : Evolves born moves start final)
    (kept : ∀ member next, property member → moves member next → property next)
    {name : Name} {member : Member} (found : start name = some member) (holds : property member) :
    ∃ later, final name = some later ∧ property later := by
  induction evolved with
  | refl => exact ⟨member, found, holds⟩
  | @birth family other created _ unused _ ih =>
      obtain ⟨later, there, holds⟩ := ih
      have apart : name ≠ other := by
        rintro rfl
        rw [unused] at there
        cases there
      exact ⟨later, by rw [Function.update_of_ne apart, there], holds⟩
  | @move family other earlier next _ there moved ih =>
      obtain ⟨later, known, holds⟩ := ih
      by_cases same : name = other
      · subst same
        obtain rfl : earlier = later := Option.some.inj (there.symm.trans known)
        exact ⟨next, Function.update_self .., kept earlier next holds moved⟩
      · exact ⟨later, by rw [Function.update_of_ne same, known], holds⟩

end Evolves

end TransferServer.Lib
