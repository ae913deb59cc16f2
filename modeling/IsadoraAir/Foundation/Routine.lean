import Mathlib.Logic.Relation

/-!
# Routines of atomic actions

A routine goes on according to the results of its actions. Others may act on the
shared state between two of them, and the routine may be abandoned before any of
them: `Safe` says that an invariant holds wherever that can happen, and what
holds at the end. There is a rule for each way of building a routine.
-/

namespace IsadoraAir

open Relation

inductive Routine {Act : Type} (Res : Act → Type) (ε α : Type) where
  | pure (a : α)
  | raise (e : ε)
  | act (a : Act) (next : Res a → Routine Res ε α)

namespace Routine

variable {Act : Type} {Res : Act → Type} {σ ε ε' α β : Type}

protected def bind : Routine Res ε α → (α → Routine Res ε β) → Routine Res ε β
  | pure a, f => f a
  | raise e, _ => raise e
  | act a next, f => act a fun r => (next r).bind f

instance : Monad (Routine Res ε) where
  pure := pure
  bind := Routine.bind

def perform (a : Act) : Routine Res ε (Res a) := act a pure

/-- Run a routine to its result, raised or returned. -/
def attempt : Routine Res ε α → Routine Res ε' (Except ε α)
  | pure a => pure (.ok a)
  | raise e => pure (.error e)
  | act a next => act a fun r => (next r).attempt

/-- The cleanup runs however the routine ends, and what it raises takes precedence. -/
def tryFinally (m : Routine Res ε α) (cleanup : Routine Res ε Unit) : Routine Res ε α :=
  (m.attempt : Routine Res ε (Except ε α)).bind fun result => cleanup.bind fun _ =>
    match result with
    | .ok a => pure a
    | .error e => raise e

/-- The shared state: what an action may do, what others may do between two
actions, and what is to hold all the time. -/
structure Setting {Act : Type} (Res : Act → Type) (σ : Type) where
  exec : (a : Act) → σ → Res a → σ → Prop
  others : σ → σ → Prop
  invariant : σ → Prop

/-- Others leave the assertion alone. -/
def Setting.Stable (S : Setting Res σ) (P : σ → Prop) : Prop :=
  ∀ s s', P s → S.others s s' → P s'

/-- The routine keeps the invariant from `s` on, and ends in `Q`. -/
def Safe (S : Setting Res σ) : Routine Res ε α → σ → (Except ε α → σ → Prop) → Prop
  | pure a, s, Q => Q (.ok a) s
  | raise e, s, Q => Q (.error e) s
  | act a next, s, Q => S.invariant s ∧
      ∀ s', ReflTransGen S.others s s' → ∀ r s'', S.exec a s' r s'' → (next r).Safe S s'' Q

variable {S : Setting Res σ} {s s' : σ} {P : σ → Prop}

theorem Setting.Stable.reflTransGen (h : S.Stable P) (hs : P s)
    (hrun : ReflTransGen S.others s s') : P s' := by
  induction hrun with
  | refl => exact hs
  | tail _ hstep ih => exact h _ _ ih hstep

theorem Setting.Stable.and {P' : σ → Prop} (h : S.Stable P) (h' : S.Stable P') :
    S.Stable fun s => P s ∧ P' s :=
  fun s s' hs hstep => ⟨h s s' hs.1 hstep, h' s s' hs.2 hstep⟩

theorem Setting.Stable.or {P' : σ → Prop} (h : S.Stable P) (h' : S.Stable P') :
    S.Stable fun s => P s ∨ P' s :=
  fun s s' hs hstep => hs.imp (h s s' · hstep) (h' s s' · hstep)

namespace Safe

variable {Q R : Except ε α → σ → Prop} {a : Act} {m : Routine Res ε α}

theorem pure {a : α} (h : Q (.ok a) s) : Safe S (.pure a) s Q := h

theorem raise {e : ε} (h : Q (.error e) s) : Safe S (.raise e) s Q := h

theorem mono (h : Safe S m s R) (himp : ∀ r s', R r s' → Q r s') :
    Safe S m s Q := by
  induction m generalizing s with
  | pure a => exact himp _ _ h
  | raise e => exact himp _ _ h
  | act a next ih => exact ⟨h.1, fun t hrun r t' hexec => ih r (h.2 t hrun r t' hexec)⟩

theorem bind {f : α → Routine Res ε β} {Q : Except ε β → σ → Prop}
    (hm : Safe S m s R) (hok : ∀ a s', R (.ok a) s' → Safe S (f a) s' Q)
    (herror : ∀ e s', R (.error e) s' → Q (.error e) s') : Safe S (m >>= f) s Q := by
  induction m generalizing s with
  | pure a => exact hok a s hm
  | raise e => exact herror e s hm
  | act a next ih => exact ⟨hm.1, fun t hrun r t' hexec => ih r (hm.2 t hrun r t' hexec)⟩

/-- An action is taken at an assertion that others leave alone. -/
theorem perform_bind {f : Res a → Routine Res ε α} (hs : P s) (hstable : S.Stable P)
    (hinv : ∀ s, P s → S.invariant s)
    (hnext : ∀ s r s', P s → S.exec a s r s' → Safe S (f r) s' Q) :
    Safe S (perform a >>= f) s Q :=
  ⟨hinv s hs, fun t hrun r t' hexec => hnext t r t' (hstable.reflTransGen hs hrun) hexec⟩

theorem perform {Q : Except ε (Res a) → σ → Prop} (hs : P s) (hstable : S.Stable P)
    (hinv : ∀ s, P s → S.invariant s) (hnext : ∀ s r s', P s → S.exec a s r s' → Q (.ok r) s') :
    Safe S (perform a) s Q :=
  ⟨hinv s hs, fun t hrun r t' hexec => hnext t r t' (hstable.reflTransGen hs hrun) hexec⟩

theorem attempt_bind {f : Except ε α → Routine Res ε' β}
    {Q : Except ε' β → σ → Prop} (hm : Safe S m s R)
    (hnext : ∀ r s', R r s' → Safe S (f r) s' Q) : Safe S (m.attempt >>= f) s Q := by
  induction m generalizing s with
  | pure a => exact hnext _ _ hm
  | raise e => exact hnext _ _ hm
  | act a next ih => exact ⟨hm.1, fun t hrun r t' hexec => ih r (hm.2 t hrun r t' hexec)⟩

theorem weaken {I : σ → Prop} (h : Safe S m s Q)
    (himp : ∀ s, S.invariant s → I s) : Safe { S with invariant := I } m s Q := by
  induction m generalizing s with
  | pure a => exact h
  | raise e => exact h
  | act a next ih =>
    exact ⟨himp _ h.1, fun t hrun r t' hexec => ih r (h.2 t hrun r t' hexec)⟩

/-- What others do leaves the rest of the routine safe. -/
theorem others (h : Safe S m s Q) (hinv : S.Stable S.invariant)
    (hQ : ∀ r, S.Stable (Q r)) (hstep : S.others s s') : Safe S m s' Q := by
  cases m with
  | pure a => exact hQ _ _ _ h hstep
  | raise e => exact hQ _ _ _ h hstep
  | act a next => exact ⟨hinv _ _ h.1 hstep, fun t hrun => h.2 t (.head hstep hrun)⟩

end Safe

/-! ## What a routine takes part in -/

/-- Every action of the routine is one of these, whatever the results. -/
def Uses (A : Act → Prop) : Routine Res ε α → Prop
  | pure _ | raise _ => True
  | act a next => A a ∧ ∀ r, (next r).Uses A

namespace Uses

variable {A B : Act → Prop} {m : Routine Res ε α}

theorem pure {a : α} : Uses A (.pure a : Routine Res ε α) := trivial

theorem raise {e : ε} : Uses A (.raise e : Routine Res ε α) := trivial

theorem perform {a : Act} (h : A a) : Uses A (.perform a : Routine Res ε (Res a)) :=
  ⟨h, fun _ => trivial⟩

theorem mono (h : m.Uses A) (himp : ∀ a, A a → B a) : m.Uses B := by
  induction m with
  | pure a => trivial
  | raise e => trivial
  | act a next ih => exact ⟨himp a h.1, fun r => ih r (h.2 r)⟩

theorem bind {f : α → Routine Res ε β} (hm : m.Uses A)
    (hf : ∀ a, (f a).Uses A) : (m >>= f).Uses A := by
  induction m with
  | pure a => exact hf a
  | raise e => trivial
  | act a next ih => exact ⟨hm.1, fun r => ih r (hm.2 r)⟩

theorem attempt (hm : m.Uses A) :
    (m.attempt : Routine Res ε' (Except ε α)).Uses A := by
  induction m with
  | pure a => trivial
  | raise e => trivial
  | act a next ih => exact ⟨hm.1, fun r => ih r (hm.2 r)⟩

/-- An assertion that is kept by these actions and by others holds throughout. -/
theorem safe (hm : m.Uses A) (hs : P s) (hstable : S.Stable P) (hinv : ∀ s, P s → S.invariant s)
    (hact : ∀ a s r s', A a → P s → S.exec a s r s' → P s') : Safe S m s fun _ => P := by
  induction m generalizing s with
  | pure a => exact hs
  | raise e => exact hs
  | act a next ih =>
    refine ⟨hinv s hs, fun t hrun r t' hexec => ih r (hm.2 r) ?_⟩
    exact hact a t r t' hm.1 (hstable.reflTransGen hs hrun) hexec

end Uses

/-! ## A routine that is alone -/

/-- What the routine ends with when every action has the given result. -/
def evaluate (results : (a : Act) → Res a) : Routine Res ε α → Except ε α
  | pure a => .ok a
  | raise e => .error e
  | act a next => (next (results a)).evaluate results

theorem evaluate_bind (results : (a : Act) → Res a) (m : Routine Res ε α)
    (f : α → Routine Res ε β) :
    (m >>= f).evaluate results = m.evaluate results >>= fun a => (f a).evaluate results := by
  induction m with
  | pure a => rfl
  | raise e => rfl
  | act a next ih => exact ih (results a)

end Routine

end IsadoraAir
