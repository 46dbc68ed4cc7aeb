/-! Computations that may stop early. A program's assertions, its exceptions and
an environment that cannot take an action all end an `Except` computation; the
laws below take such a computation apart at its binds. -/

set_option autoImplicit false

namespace TransferServer.Lib

universe u v

variable {Error : Type u} {Value Result : Type v}

@[simp] theorem ok_bind (value : Value) (next : Value → Except Error Result) :
    (Except.ok value >>= next) = next value := rfl

@[simp] theorem error_bind (error : Error) (next : Value → Except Error Result) :
    ((Except.error error : Except Error Value) >>= next) = .error error := rfl

@[simp] theorem pure_eq_ok (value : Value) :
    (pure value : Except Error Value) = .ok value := rfl

@[simp] theorem throw_eq_error (error : Error) :
    (throw error : Except Error Value) = .error error := rfl

theorem bind_eq_ok {computation : Except Error Value} {next : Value → Except Error Result}
    {result : Result} :
    computation >>= next = .ok result ↔ ∃ value, computation = .ok value ∧ next value = .ok result := by
  cases computation with
  | error error => simp
  | ok value => simp

theorem exists_ok_of_any {computation : Except Error Value} {test : Value → Bool}
    (passed : computation.toOption.any test = true) :
    ∃ value, computation = .ok value ∧ test value = true := by
  cases computation with
  | ok value => exact ⟨value, rfl, by simpa [Except.toOption] using passed⟩
  | error error => simp [Except.toOption] at passed

def stopsWith [DecidableEq Error] (computation : Except Error Value) (error : Error) : Bool :=
  match computation with
  | .ok _ => false
  | .error error' => error' = error

theorem eq_error_of_stopsWith [DecidableEq Error] {computation : Except Error Value} {error : Error}
    (stopped : stopsWith computation error = true) : computation = .error error := by
  cases computation with
  | ok value => cases stopped
  | error error' => rw [of_decide_eq_true stopped]

/-- Continues only where `condition` holds. -/
def require (error : Error) (condition : Prop) [Decidable condition] : Except Error PUnit.{v + 1} :=
  if condition then .ok .unit else .error error

@[simp] theorem require_eq_ok {error : Error} {condition : Prop} [Decidable condition]
    {passed : PUnit.{v + 1}} : require error condition = .ok passed ↔ condition := by
  unfold require
  split <;> simp_all

theorem require_of {error : Error} {condition : Prop} [Decidable condition] (holds : condition) :
    (require error condition : Except Error PUnit.{v + 1}) = .ok .unit := by
  simp [require, holds]

theorem require_of_not {error : Error} {condition : Prop} [Decidable condition]
    (fails : ¬ condition) : (require error condition : Except Error PUnit.{v + 1}) = .error error := by
  simp [require, fails]

/-- A required condition followed by a continuation succeeds exactly when the
condition holds and the continuation succeeds. -/
theorem require_bind_eq_ok {error : Error} {condition : Prop} [Decidable condition]
    {next : PUnit.{v + 1} → Except Error Result} {result : Result} :
    require error condition >>= next = .ok result ↔ condition ∧ next .unit = .ok result := by
  rw [bind_eq_ok]
  constructor
  · rintro ⟨_, required, finished⟩
    exact ⟨require_eq_ok.mp required, finished⟩
  · rintro ⟨holds, finished⟩
    exact ⟨.unit, require_of holds, finished⟩

end TransferServer.Lib
