import Mathlib.Data.List.Basic

/-!
# Transactions

A transaction reads and changes a store and returns, or raises; what it changed
before raising is rolled back. `Ensures` is what holds where it returns, with a
rule for each way of building a transaction.
-/

namespace IsadoraAir

variable {condition : Prop}

abbrev Transaction (σ ε : Type) := StateT σ (Except ε)

namespace Transaction

variable {σ ε α β : Type} {m : Transaction σ ε α}

/-- Run a transaction to its end: its result, and the store after it. -/
def commit (m : Transaction σ ε α) (s : σ) : Except ε α × σ :=
  match m.run s with
  | .ok (a, s') => (.ok a, s')
  | .error e => (.error e, s)

def refuseIf (condition : Prop) [Decidable condition] (e : ε) : Transaction σ ε Unit :=
  if condition then throw e else pure ()

/-- A value that may be missing. -/
def require (e : ε) : Option α → Transaction σ ε α
  | some a => pure a
  | none => throw e

def raised : Except ε α → Transaction σ ε α
  | .ok a => pure a
  | .error e => throw e

/-- Where the transaction returns, its result and the store satisfy `Q`. -/
def Ensures (m : Transaction σ ε α) (s : σ) (Q : α → σ → Prop) : Prop :=
  ∀ a s', m.run s = .ok (a, s') → Q a s'

namespace Ensures

variable {s : σ} {Q R : α → σ → Prop} {m : Transaction σ ε α} {f : α → Transaction σ ε β} {e : ε}

theorem mono (h : Ensures m s R) (himp : ∀ a s', R a s' → Q a s') :
    Ensures m s Q :=
  fun a s' hrun => himp a s' (h a s' hrun)

theorem pure {a : α} (h : Q a s) : Ensures (pure a : Transaction σ ε α) s Q := by
  intro b s' hrun
  cases hrun
  exact h

theorem throw : Ensures (throw e : Transaction σ ε α) s Q := by
  intro b s' hrun
  cases hrun

theorem bind {Q : β → σ → Prop}
    (hm : Ensures m s R) (hf : ∀ a s', R a s' → Ensures (f a) s' Q) : Ensures (m >>= f) s Q := by
  intro b t hrun
  have hsplit : (m >>= f).run s = match m.run s with
      | .ok (a, s') => (f a).run s'
      | .error e => .error e := by
    show (m.run s >>= fun result => (f result.1).run result.2) = _
    rcases m.run s with e | ⟨a, s'⟩ <;> rfl
  rw [hsplit] at hrun
  cases hfirst : m.run s with
  | error e =>
    rw [hfirst] at hrun
    cases hrun
  | ok result =>
    rw [hfirst] at hrun
    exact hf result.1 result.2 (hm result.1 result.2 hfirst) b t hrun

theorem ignore {Q : σ → Prop} (h : Ensures m s fun _ s' => Q s') :
    Ensures (m >>= fun _ => Pure.pure ()) s fun _ s' => Q s' :=
  bind h fun _ _ h => pure h

theorem get_bind {f : σ → Transaction σ ε β} {Q : β → σ → Prop} (h : Ensures (f s) s Q) :
    Ensures (MonadState.get >>= f) s Q := h

theorem modify {f : σ → σ} {Q : Unit → σ → Prop} (h : Q () (f s)) :
    Ensures (MonadState.modifyGet fun s => ((), f s) : Transaction σ ε Unit) s Q := by
  intro a s' hrun
  cases hrun
  exact h

theorem refuseIf_bind [Decidable condition]
    {f : Unit → Transaction σ ε β} {Q : β → σ → Prop} (h : ¬condition → Ensures (f ()) s Q) :
    Ensures (refuseIf condition e >>= f) s Q := by
  by_cases hc : condition
  · rw [refuseIf, if_pos hc]
    exact throw
  · rw [refuseIf, if_neg hc]
    exact h hc

theorem require_bind {x : Option α} {Q : β → σ → Prop}
    (h : ∀ a, x = some a → Ensures (f a) s Q) : Ensures (require e x >>= f) s Q := by
  cases x with
  | none => exact throw
  | some a => exact h a rfl

theorem raised_bind {x : Except ε α} {Q : β → σ → Prop}
    (h : ∀ a, x = .ok a → Ensures (f a) s Q) : Ensures (raised x >>= f) s Q := by
  cases x with
  | error e => exact throw
  | ok a => exact h a rfl

/-- A loop, with what holds of the rows done and of the rows to do. -/
theorem forM {f : α → Transaction σ ε PUnit} {I : List α → List α → σ → Prop} {xs : List α}
    (hstart : I [] xs s) (hstep : ∀ done x rest s, I done (x :: rest) s →
      Ensures (f x) s fun _ s' => I (done ++ [x]) rest s') :
    Ensures (xs.forM f) s fun _ s' => I xs [] s' := by
  have hgeneral : ∀ rest done s, I done rest s →
      Ensures (rest.forM f) s fun _ s' => I (done ++ rest) [] s' := by
    intro rest
    induction rest with
    | nil =>
      intro done s hs
      rw [List.append_nil]
      exact pure hs
    | cons x rest ih =>
      intro done s hs
      refine bind (hstep done x rest s hs) fun _ s' hs' => ?_
      simpa using ih (done ++ [x]) s' hs'
  simpa using hgeneral xs [] s hstart

end Ensures

/-- A reflexive relation that the transaction ensures holds between the stores, rolled back or
not. -/
theorem commit_rel {R : σ → σ → Prop} {s : σ} (hrefl : R s s)
    (h : Ensures m s fun _ s' => R s s') : R s (m.commit s).2 := by
  unfold commit
  cases hrun : m.run s with
  | error e => exact hrefl
  | ok result => exact h result.1 result.2 hrun

theorem commit_ok {s : σ} {a : α} {Q : α → σ → Prop}
    (h : Ensures m s Q) (hok : (m.commit s).1 = .ok a) : Q a (m.commit s).2 := by
  unfold commit at hok ⊢
  cases hrun : m.run s with
  | error e => simp [hrun] at hok
  | ok result =>
    simp only [hrun, Except.ok.injEq] at hok ⊢
    exact hok ▸ h result.1 result.2 hrun

/-! ## Relations that a transaction respects -/

/-- Where the transaction returns, from whatever store, the two stores are related. -/
def Respects (R : σ → σ → Prop) (m : Transaction σ ε α) : Prop :=
  ∀ s, Ensures m s fun _ s' => R s s'

namespace Respects

variable {R : σ → σ → Prop} {f : α → Transaction σ ε β} {e : ε}

theorem throw : Respects R (MonadExcept.throw e : Transaction σ ε α) :=
  fun _ => Ensures.throw

theorem get_bind {f : σ → Transaction σ ε β} (h : ∀ s, Respects R (f s)) :
    Respects R (MonadState.get >>= f) :=
  fun s => Ensures.get_bind (h s s)

theorem refuseIf_bind [Decidable condition]
    {f : Unit → Transaction σ ε β} (h : ¬condition → Respects R (f ())) :
    Respects R (refuseIf condition e >>= f) :=
  fun s => Ensures.refuseIf_bind fun hc => h hc s

theorem require_bind {x : Option α}
    (h : ∀ a, x = some a → Respects R (f a)) : Respects R (require e x >>= f) :=
  fun s => Ensures.require_bind fun a ha => h a ha s

theorem raised_bind {x : Except ε α}
    (h : ∀ a, x = .ok a → Respects R (f a)) : Respects R (raised x >>= f) :=
  fun s => Ensures.raised_bind fun a ha => h a ha s

theorem ite [Decidable condition] {m m' : Transaction σ ε α}
    (h : condition → Respects R m) (h' : ¬condition → Respects R m') :
    Respects R (if condition then m else m') := by
  by_cases hc : condition
  · rw [if_pos hc]
    exact h hc
  · rw [if_neg hc]
    exact h' hc

theorem pure [Std.Refl R] {a : α} : Respects R (Pure.pure a : Transaction σ ε α) :=
  fun s => Ensures.pure (Std.Refl.refl s)

theorem bind [IsTrans σ R] {m : Transaction σ ε α}
    (hm : Respects R m) (hf : ∀ a, Respects R (f a)) : Respects R (m >>= f) :=
  fun s => (hm s).bind fun a s' hs' => (hf a s').mono fun _ s'' h => IsTrans.trans s s' s'' hs' h

theorem forM [Std.Refl R] [IsTrans σ R] {f : α → Transaction σ ε PUnit} {xs : List α}
    (h : ∀ x ∈ xs, Respects R (f x)) : Respects R (xs.forM f) := by
  induction xs with
  | nil => exact pure
  | cons x xs ih =>
    obtain ⟨hx, hxs⟩ := List.forall_mem_cons.mp h
    exact bind hx fun _ => ih hxs

end Respects

end Transaction

end IsadoraAir
