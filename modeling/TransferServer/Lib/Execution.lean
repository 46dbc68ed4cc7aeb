import Mathlib.Data.List.Induction
import TransferServer.Lib.Checked

/-! Finite runs of a machine. A machine is a step function on explicit actions
whose steps may halt; what the surroundings promise about an action is a
predicate on the state in which it is taken. -/

set_option autoImplicit false

namespace TransferServer.Lib

universe u v w

variable {State : Type u} {Action : Type v} {Error : Type w}
variable {step : State → Action → Except Error State} {admits : State → Action → Prop}

/-- A run in which every action is admitted where it is taken and every step succeeds. -/
inductive Execution (step : State → Action → Except Error State)
    (admits : State → Action → Prop) (start : State) : List Action → State → Prop where
  | nil : Execution step admits start [] start
  | snoc {actions : List Action} {before after : State} {action : Action} :
      Execution step admits start actions before → admits before action →
      step before action = .ok after → Execution step admits start (actions ++ [action]) after

/-- Every action is possible; the step function alone says what may happen. -/
def anyAction : State → Action → Prop := fun _ _ => True

instance (state : State) (action : Action) : Decidable (anyAction state action) := .isTrue trivial

namespace Execution

variable {start middle final : State} {actions later : List Action}

/-- What holds at the start and survives every admitted step holds after every run. -/
theorem invariant (run : Execution step admits start actions final) {property : State → Prop}
    (initial : property start)
    (kept : ∀ before action after, property before → admits before action →
      step before action = .ok after → property after) : property final := by
  induction run with
  | nil => exact initial
  | snoc _ admitted stepped ih => exact kept _ _ _ ih admitted stepped

theorem append (run : Execution step admits start actions middle)
    (rest : Execution step admits middle later final) :
    Execution step admits start (actions ++ later) final := by
  induction rest with
  | nil => simpa using run
  | snoc _ admitted stepped ih =>
      rw [← List.append_assoc]
      exact .snoc ih admitted stepped

theorem snoc_iff {action : Action} {after : State} :
    Execution step admits start (actions ++ [action]) after ↔ ∃ before,
      Execution step admits start actions before ∧ admits before action ∧
        step before action = .ok after := by
  constructor
  · intro run
    generalize whole : actions ++ [action] = taken at run
    cases run with
    | nil => simp at whole
    | snoc earlier admitted stepped =>
        obtain ⟨rfl, same⟩ := List.append_inj' whole rfl
        cases same
        exact ⟨_, earlier, admitted, stepped⟩
  · rintro ⟨before, earlier, admitted, stepped⟩
    exact .snoc earlier admitted stepped

/-- The actions decide the run. -/
theorem unique {admits' : State → Action → Prop} {other : State}
    (run : Execution step admits start actions final)
    (run' : Execution step admits' start actions other) : final = other := by
  induction run generalizing other with
  | nil =>
      generalize none : ([] : List Action) = taken at run'
      cases run' with
      | nil => rfl
      | snoc => simp at none
  | snoc _ _ stepped ih =>
      obtain ⟨before, earlier, _, stepped'⟩ := snoc_iff.mp run'
      cases ih earlier
      rw [stepped] at stepped'
      exact Except.ok.inj stepped'

theorem weaken {admits' : State → Action → Prop}
    (weaker : ∀ state action, admits state action → admits' state action)
    (run : Execution step admits start actions final) :
    Execution step admits' start actions final := by
  induction run with
  | nil => exact .nil
  | snoc _ admitted stepped ih => exact .snoc ih (weaker _ _ admitted) stepped

/-- Lockstep refinement: where a relation is kept by every admitted step and its
abstract counterpart, a run is matched by the abstract run of the same actions. -/
theorem simulates {Abstract : Type u} {abstractStep : Abstract → Action → Abstract}
    (run : Execution step admits start actions final)
    {related : State → Abstract → Prop} {abstract : Abstract} (initial : related start abstract)
    (kept : ∀ before action after abstract, related before abstract → admits before action →
      step before action = .ok after → related after (abstractStep abstract action)) :
    related final (actions.foldl abstractStep abstract) := by
  induction run with
  | nil => exact initial
  | snoc _ admitted stepped ih =>
      rw [List.foldl_append]
      exact kept _ _ _ _ ih admitted stepped

end Execution

/-- Among the actions of a run is one with the property, in the state where it was taken. -/
def Took (step : State → Action → Except Error State) (start : State)
    (property : State → Action → Prop) (actions : List Action) : Prop :=
  ∃ earlier action later middle, actions = earlier ++ action :: later ∧
    Execution step anyAction start earlier middle ∧ property middle action

namespace Took

variable {start middle : State} {property : State → Action → Prop} {actions : List Action}
variable {action : Action}

theorem later (took : Took step start property actions) (action : Action) :
    Took step start property (actions ++ [action]) := by
  obtain ⟨earlier, taken, later, middle, rfl, run, holds⟩ := took
  exact ⟨earlier, taken, later ++ [action], middle, by simp, run, holds⟩

theorem now (run : Execution step anyAction start actions middle) (holds : property middle action) :
    Took step start property (actions ++ [action]) :=
  ⟨actions, action, [], middle, rfl, run, holds⟩

end Took

/-- Runs a list of actions, stopping with `blocked` at the first one not admitted. -/
def replay (step : State → Action → Except Error State) (admits : State → Action → Prop)
    [∀ state action, Decidable (admits state action)] (blocked : Error) (start : State)
    (actions : List Action) : Except Error State :=
  actions.foldlM
    (fun state action => if admits state action then step state action else .error blocked) start

theorem Execution.of_replay [∀ state action, Decidable (admits state action)] {blocked : Error}
    {start final : State} {actions : List Action}
    (replayed : replay step admits blocked start actions = .ok final) :
    Execution step admits start actions final := by
  induction actions using List.reverseRecOn generalizing final with
  | nil =>
      simp only [replay, List.foldlM_nil, pure_eq_ok, Except.ok.injEq] at replayed
      exact replayed ▸ .nil
  | append_singleton actions action ih =>
      simp only [replay, List.foldlM_append, List.foldlM_cons, List.foldlM_nil, bind_pure] at replayed
      obtain ⟨before, earlier, stepped⟩ := bind_eq_ok.mp replayed
      by_cases admitted : admits before action
      · rw [if_pos admitted] at stepped
        exact .snoc (ih earlier) admitted stepped
      · rw [if_neg admitted] at stepped
        cases stepped

/-- A replay whose result passes a computable test exhibits a run ending in such a state. -/
theorem Execution.exists_of_replay [∀ state action, Decidable (admits state action)]
    {blocked : Error} {start : State} {actions : List Action} {test : State → Bool}
    (passed : (replay step admits blocked start actions).toOption.any test = true) :
    ∃ final, Execution step admits start actions final ∧ test final = true := by
  obtain ⟨final, replayed, passed⟩ := exists_ok_of_any passed
  exact ⟨final, .of_replay replayed, passed⟩

end TransferServer.Lib
