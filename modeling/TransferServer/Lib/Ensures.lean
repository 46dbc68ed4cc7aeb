import TransferServer.Lib.Checked
import TransferServer.Lib.Execution

/-! Postconditions of computations that may stop early. Some reasons for stopping are
benign; the rules below follow the shape of a computation, and a run keeps what each of its
steps ensures. -/

set_option autoImplicit false

namespace TransferServer.Lib

universe u v w

section Computation

variable {Error : Type u} {Value Result : Type v} {benign : Error → Prop}

/-- What the computation returns satisfies `post`, and it stops for benign reasons only. -/
def Ensures (benign : Error → Prop) (computation : Except Error Value) (post : Value → Prop) : Prop :=
  match computation with
  | .ok value => post value
  | .error error => benign error

namespace Ensures

variable {computation : Except Error Value} {post weaker : Value → Prop}
variable {next : Value → Except Error Result} {final : Result → Prop}

theorem ok {value : Value} (holds : post value) : Ensures benign (.ok value) post := holds

theorem error {error : Error} (harmless : benign error) :
    Ensures benign (.error error : Except Error Value) post := harmless

theorem of_ok (ensured : Ensures benign computation post) {value : Value}
    (returned : computation = .ok value) : post value := by
  subst returned
  exact ensured

theorem of_error (ensured : Ensures benign computation post) {error : Error}
    (stopped : computation = .error error) : benign error := by
  subst stopped
  exact ensured

theorem mono (ensured : Ensures benign computation post)
    (weakened : ∀ value, post value → weaker value) : Ensures benign computation weaker := by
  cases computation with
  | ok value => exact weakened value ensured
  | error error => exact ensured

theorem relax {looser : Error → Prop} (ensured : Ensures benign computation post)
    (harmless : ∀ error, benign error → looser error) : Ensures looser computation post := by
  cases computation with
  | ok value => exact ensured
  | error error => exact harmless error ensured

theorem bind (ensured : Ensures benign computation post)
    (continued : ∀ value, post value → Ensures benign (next value) final) :
    Ensures benign (computation >>= next) final := by
  cases computation with
  | ok value => exact continued value ensured
  | error error => exact ensured

theorem check {condition : Prop} [Decidable condition] {error : Error}
    {next : PUnit.{v + 1} → Except Error Result} (failed : ¬ condition → benign error)
    (continued : condition → Ensures benign (next .unit) final) :
    Ensures benign (Lib.require error condition >>= next) final := by
  by_cases holds : condition
  · rw [require_of holds]
    exact continued holds
  · rw [require_of_not holds]
    exact failed holds

theorem require {condition : Prop} [Decidable condition] {error : Error}
    {next : PUnit.{v + 1} → Except Error Result} (holds : condition)
    (continued : Ensures benign (next .unit) final) :
    Ensures benign (Lib.require error condition >>= next) final :=
  check (absurd holds) fun _ => continued

theorem guard {condition : Prop} [Decidable condition] {error : Error}
    {next : PUnit.{v + 1} → Except Error Result} (harmless : benign error)
    (continued : condition → Ensures benign (next .unit) final) :
    Ensures benign (Lib.require error condition >>= next) final :=
  check (fun _ => harmless) continued

/-- A loop over a list keeps an invariant that may speak of what is left of the list. -/
theorem foldlM {Item : Type w} {State : Type v} {body : State → Item → Except Error State}
    (inv : List Item → State → Prop) {items : List Item} {state : State} (initial : inv items state)
    (kept : ∀ item rest state, inv (item :: rest) state → Ensures benign (body state item) (inv rest)) :
    Ensures benign (items.foldlM body state) (inv []) := by
  induction items generalizing state with
  | nil => exact initial
  | cons item rest ih =>
      rw [List.foldlM_cons]
      exact (kept item rest state initial).bind fun _ => ih

end Ensures

end Computation

section Machine

variable {State : Type u} {Action : Type v} {Error : Type w} {benign : Error → Prop}
variable {step : State → Action → Except Error State} {admits : State → Action → Prop}
variable {start final : State} {actions : List Action}

theorem Execution.ensures (run : Execution step admits start actions final)
    (property : State → Prop) (initial : property start)
    (kept : ∀ state action, property state → admits state action →
      Ensures benign (step state action) property) : property final :=
  run.invariant initial fun _ _ _ holds admitted stepped => (kept _ _ holds admitted).of_ok stepped

end Machine

end TransferServer.Lib
