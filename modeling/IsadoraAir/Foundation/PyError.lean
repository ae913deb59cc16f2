import Mathlib.Tactic.SplitIfs

/-!
# Built-in exceptions

The exception classes of the interpreter that the modelled code can raise
without naming them, and how a computation that succeeds comes apart.
-/

namespace IsadoraAir

inductive PyError where
  | typeError
  | valueError
  | attributeError
  | indexError
  | structError
  deriving DecidableEq, Repr

/-- `if condition: raise error` -/
def raiseIf {ε : Type*} (condition : Prop) [Decidable condition] (error : ε) : Except ε Unit :=
  if condition then .error error else .ok ()

/-- `if value is None: raise error` -/
def orRaise {ε : Type*} {α : Type} (value : Option α) (error : ε) : Except ε α :=
  value.elim (.error error) .ok

theorem bind_eq_ok {ε : Type*} {α β : Type} {x : Except ε α} {f : α → Except ε β} {b : β} :
    (x >>= f) = .ok b ↔ ∃ a, x = .ok a ∧ f a = .ok b := by
  constructor
  · intro h
    cases x with
    | error e => cases h
    | ok a => exact ⟨a, rfl, h⟩
  · rintro ⟨a, rfl, hf⟩
    exact hf

theorem mapError_eq_ok {ε ε' : Type*} {α : Type} {x : Except ε α} {f : ε → ε'} {a : α} :
    x.mapError f = .ok a ↔ x = .ok a := by
  cases x <;> simp [Except.mapError]

theorem raiseIf_eq_ok {ε : Type*} {condition : Prop} [Decidable condition] {error : ε} {u : Unit} :
    raiseIf condition error = .ok u ↔ ¬condition := by
  by_cases h : condition <;> simp [raiseIf, h]

theorem orRaise_eq_ok {ε : Type*} {α : Type} {value : Option α} {error : ε} {a : α} :
    orRaise value error = .ok a ↔ value = some a := by
  cases value <;> simp [orRaise]

/-- Whatever the computation raises satisfies `P`. -/
def Raises {ε : Type*} {α : Type} (P : ε → Prop) (x : Except ε α) : Prop := ∀ e, x = .error e → P e

namespace Raises

variable {ε : Type*} {α β : Type} {P : ε → Prop}

theorem bind {x : Except ε α} {f : α → Except ε β} (hx : Raises P x)
    (hf : ∀ a, Raises P (f a)) : Raises P (x >>= f) := by
  intro e h
  cases x with
  | error e' =>
    cases h
    exact hx e rfl
  | ok a => exact hf a e h

theorem raiseIf {condition : Prop} [Decidable condition] {error : ε} (h : P error) :
    Raises P (raiseIf condition error) := by
  intro e he
  unfold IsadoraAir.raiseIf at he
  split_ifs at he
  cases he
  exact h

theorem orRaise {value : Option α} {error : ε} (h : P error) : Raises P (orRaise value error) := by
  intro e he
  cases value with
  | none =>
    cases he
    exact h
  | some a => cases he

theorem mapError {ε' : Type*} {x : Except ε' α} {f : ε' → ε} (h : ∀ e, P (f e)) :
    Raises P (x.mapError f) := by
  intro e he
  cases x with
  | error e' =>
    cases he
    exact h e'
  | ok a => cases he

end Raises

end IsadoraAir
