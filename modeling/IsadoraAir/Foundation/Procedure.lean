import Mathlib.Init

/-!
# Procedures that may raise

A procedure changes a state and returns or raises; what it changed before
raising stays changed. `Ensures` is the postcondition of one execution, with a
rule for each way of building a procedure.
-/

namespace IsadoraAir

abbrev Procedure (σ ε : Type) := ExceptT ε (StateM σ)

namespace Procedure

variable {σ τ ε α β : Type}

def exec (m : Procedure σ ε α) (s : σ) : Except ε α × σ := StateT.run (ExceptT.run m) s

theorem exec_bind (m : Procedure σ ε α) (f : α → Procedure σ ε β) (s : σ) :
    (m >>= f).exec s = match m.exec s with
      | (.ok a, s') => (f a).exec s'
      | (.error e, s') => (.error e, s') := by
  show ExceptT.bindCont f (m.exec s).1 (m.exec s).2 = _
  rcases m.exec s with ⟨e | a, s'⟩ <;> rfl

theorem exec_tryCatch (m : Procedure σ ε α) (handler : ε → Procedure σ ε α) (s : σ) :
    (MonadExcept.tryCatch m handler).exec s = match m.exec s with
      | (.ok a, s') => (.ok a, s')
      | (.error e, s') => (handler e).exec s' := by
  show (match (m.exec s).1 with
    | .ok a => Pure.pure (.ok a)
    | .error e => handler e : StateM σ (Except ε α)) (m.exec s).2 = _
  rcases m.exec s with ⟨e | a, s'⟩ <;> rfl

/-- Running `m` from `s` ends with a result and a state that satisfy `Q`. -/
def Ensures (m : Procedure σ ε α) (s : σ) (Q : Except ε α → σ → Prop) : Prop :=
  Q (m.exec s).1 (m.exec s).2

/-- Run a procedure on a part of the state. -/
def within (part : σ → τ) (update : σ → τ → σ) (m : Procedure τ ε α) : Procedure σ ε α :=
  ExceptT.mk fun s => ((m.exec (part s)).1, update s (m.exec (part s)).2)

namespace Ensures

variable {s : σ} {m : Procedure σ ε α} {Q R : Except ε α → σ → Prop}
  {S : Except ε β → σ → Prop} {x : Except ε α} {a : α} {f : α → Procedure σ ε β} {e : ε}

theorem mono (h : Ensures m s R) (himp : ∀ r s', R r s' → Q r s') :
    Ensures m s Q :=
  himp _ _ h

theorem pure (h : Q (.ok a) s) : Ensures (pure a) s Q := h

theorem throw (h : Q (.error e) s) : Ensures (throw e) s Q := h

theorem modify {f : σ → σ} {Q : Except ε Unit → σ → Prop} (h : Q (.ok ()) (f s)) :
    Ensures (modify f : Procedure σ ε Unit) s Q := h

theorem bind (hm : Ensures m s R) (hok : ∀ a s', R (.ok a) s' → Ensures (f a) s' S)
    (herror : ∀ e s', R (.error e) s' → S (.error e) s') : Ensures (m >>= f) s S := by
  unfold Ensures at hm ⊢
  rw [exec_bind]
  generalize m.exec s = result at hm ⊢
  rcases result with ⟨e | a, s'⟩
  · exact herror e s' hm
  · exact hok a s' hm

theorem get_bind {f : σ → Procedure σ ε β}
    (h : Ensures (f s) s S) : Ensures (MonadState.get >>= f) s S := h

theorem modify_bind {g : σ → σ} {f : Unit → Procedure σ ε β}
    (h : Ensures (f ()) (g s) S) : Ensures (MonadState.modifyGet (fun s => ((), g s)) >>= f) s S := h

theorem ofExcept_bind (hx : x = .ok a) (h : Ensures (f a) s S) :
    Ensures (MonadExcept.ofExcept x >>= f) s S := by
  subst hx
  exact h

theorem ofExcept_bind_error (hx : x = .error e) (h : S (.error e) s) :
    Ensures (MonadExcept.ofExcept x >>= f) s S := by
  subst hx
  exact h

/-- A handler sees the state as the failed procedure has left it. -/
theorem tryCatch {handler : ε → Procedure σ ε α} (hm : Ensures m s R)
    (hok : ∀ a s', R (.ok a) s' → Q (.ok a) s')
    (herror : ∀ e s', R (.error e) s' → Ensures (handler e) s' Q) :
    Ensures (MonadExcept.tryCatch m handler) s Q := by
  unfold Ensures at hm ⊢
  rw [exec_tryCatch]
  generalize m.exec s = result at hm ⊢
  rcases result with ⟨e | a, s'⟩
  · exact herror e s' hm
  · exact hok a s' hm

/-- Only the part that the procedure runs on changes. -/
theorem within {part : σ → τ} {update : σ → τ → σ} {m : Procedure τ ε α}
    {R : Except ε α → τ → Prop} (h : Ensures m (part s) R) :
    Ensures (within part update m) s fun r s' => ∃ t, s' = update s t ∧ R r t :=
  ⟨_, rfl, h⟩

theorem and (hq : Ensures m s Q) (hr : Ensures m s R) :
    Ensures m s fun r s' => Q r s' ∧ R r s' :=
  ⟨hq, hr⟩

end Ensures

/-- Whatever the outcome, the procedure leaves this part of the state alone. -/
def Preserves (part : σ → τ) (m : Procedure σ ε α) : Prop := ∀ s, part (m.exec s).2 = part s

namespace Preserves

variable {part : σ → τ} {m : Procedure σ ε α}

theorem pure (a : α) : Preserves part (pure a : Procedure σ ε α) := fun _ => rfl

theorem throw (e : ε) : Preserves part (throw e : Procedure σ ε α) := fun _ => rfl

theorem modify {f : σ → σ} (h : ∀ s, part (f s) = part s) :
    Preserves part (modify f : Procedure σ ε Unit) := h

theorem ofExcept (x : Except ε α) : Preserves part (MonadExcept.ofExcept x : Procedure σ ε α) := by
  intro s
  cases x <;> rfl

theorem bind {f : α → Procedure σ ε β} (hm : Preserves part m)
    (hf : ∀ a, Preserves part (f a)) : Preserves part (m >>= f) := by
  intro s
  have hfirst := hm s
  rw [exec_bind]
  generalize m.exec s = result at hfirst ⊢
  rcases result with ⟨e | a, s'⟩
  · exact hfirst
  · exact (hf a s').trans hfirst

theorem get_bind {f : σ → Procedure σ ε β} (hf : ∀ s, Preserves part (f s)) :
    Preserves part (MonadState.get >>= f) := fun s => hf s s

theorem tryCatch {handler : ε → Procedure σ ε α} (hm : Preserves part m)
    (hhandler : ∀ e, Preserves part (handler e)) :
    Preserves part (MonadExcept.tryCatch m handler) := by
  intro s
  have hfirst := hm s
  rw [exec_tryCatch]
  generalize m.exec s = result at hfirst ⊢
  rcases result with ⟨e | a, s'⟩
  · exact (hhandler e s').trans hfirst
  · exact hfirst

theorem within {υ : Type} {inner : σ → υ} {update : σ → υ → σ} {m : Procedure υ ε α}
    (h : ∀ s t, part (update s t) = part s) : Preserves part (within inner update m) :=
  fun s => h s _

end Preserves

end Procedure

end IsadoraAir
