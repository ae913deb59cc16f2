import Mathlib.Data.List.Nodup

/-!
# What happens once

Tickets and tokens that are handed out, held, and used at most once.
-/

/-!
## Things that are done once

A ticket is spent by one agent, who holds it until the work is done or given
up. Where a ticket is spent once, no ticket's work is done twice.
-/

namespace IsadoraAir

structure Once {τ α : Type} (spent done : List τ) (holding : α → Option τ) : Prop where
  nodup : spent.Nodup
  held : ∀ a t, holding a = some t → t ∈ spent ∧ t ∉ done
  holder : ∀ a b t, holding a = some t → holding b = some t → a = b
  nodupDone : done.Nodup
  subset : ∀ t ∈ done, t ∈ spent

namespace Once

variable {τ α : Type} {spent done : List τ} {holding : α → Option τ} {a : α} {t : τ}

theorem empty : Once ([] : List τ) [] fun _ : α => none where
  nodup := List.nodup_nil
  held _ _ h := by cases h
  holder _ _ _ h := by cases h
  nodupDone := List.nodup_nil
  subset _ h := by cases h

variable [DecidableEq α]

theorem spend (h : Once spent done holding) (hfresh : t ∉ spent) :
    Once (spent ++ [t]) done (Function.update holding a (some t)) where
  nodup := h.nodup.append (List.nodup_singleton t) (by simpa using hfresh)
  held b u hb := by
    by_cases hab : b = a
    · subst hab
      rw [Function.update_self] at hb
      cases hb
      exact ⟨by simp, fun hmem => hfresh (h.subset t hmem)⟩
    · rw [Function.update_of_ne hab] at hb
      exact ⟨List.mem_append_left _ (h.held b u hb).1, (h.held b u hb).2⟩
  holder b c u hb hc := by
    by_cases hab : b = a <;> by_cases hac : c = a
    · exact hab.trans hac.symm
    · subst hab
      rw [Function.update_self] at hb
      rw [Function.update_of_ne hac] at hc
      cases hb
      exact absurd (h.held c t hc).1 hfresh
    · subst hac
      rw [Function.update_self] at hc
      rw [Function.update_of_ne hab] at hb
      cases hc
      exact absurd (h.held b t hb).1 hfresh
    · rw [Function.update_of_ne hab] at hb
      rw [Function.update_of_ne hac] at hc
      exact h.holder b c u hb hc
  nodupDone := h.nodupDone
  subset u hu := List.mem_append_left _ (h.subset u hu)

/-- A ticket that is still held is not the released one. -/
theorem of_release {b : α} {u : τ} (hb : Function.update holding a none b = some u) :
    b ≠ a ∧ holding b = some u := by
  by_cases hab : b = a
  · subst hab
    rw [Function.update_self] at hb
    cases hb
  · rw [Function.update_of_ne hab] at hb
    exact ⟨hab, hb⟩

theorem release (h : Once spent done holding) :
    Once spent done (Function.update holding a none) where
  nodup := h.nodup
  held b u hb := h.held b u (of_release hb).2
  holder b c u hb hc := h.holder b c u (of_release hb).2 (of_release hc).2
  nodupDone := h.nodupDone
  subset := h.subset

/-- The holder does the work. -/
theorem finish (h : Once spent done holding) (ha : holding a = some t) :
    Once spent (done ++ [t]) (Function.update holding a none) where
  nodup := h.nodup
  held b u hb := by
    obtain ⟨hab, hb⟩ := of_release hb
    refine ⟨(h.held b u hb).1, fun hmem => ?_⟩
    rcases List.mem_append.mp hmem with hmem | hmem
    · exact (h.held b u hb).2 hmem
    · rw [List.mem_singleton.mp hmem] at hb
      exact hab (h.holder b a t hb ha)
  holder b c u hb hc := h.holder b c u (of_release hb).2 (of_release hc).2
  nodupDone := h.nodupDone.append (List.nodup_singleton t) (by simpa using (h.held a t ha).2)
  subset u hu := by
    rcases List.mem_append.mp hu with hu | hu
    · exact h.subset u hu
    · rw [List.mem_singleton.mp hu]
      exact (h.held a t ha).1

end Once

end IsadoraAir

/-!
## Tokens that are used once

An agent draws a token, puts it into a slot, and somebody takes it out again. No
token is drawn twice, so it is in one place at most, and nowhere any more once
it has been taken out.
-/

namespace IsadoraAir

/-- The tokens drawn so far, those that agents still have in hand, and those in the slots. -/
structure Tokens (τ α κ : Type) where
  drawn : List τ
  hand : α → Option τ
  slot : κ → Option τ

namespace Tokens

variable {τ α κ : Type} {s s' : Tokens τ α κ} {a : α} {k : κ} {t : τ}

structure Exclusive (s : Tokens τ α κ) : Prop where
  hand_drawn : ∀ a t, s.hand a = some t → t ∈ s.drawn
  slot_drawn : ∀ k t, s.slot k = some t → t ∈ s.drawn
  hand_injective : ∀ a b t, s.hand a = some t → s.hand b = some t → a = b
  slot_injective : ∀ k l t, s.slot k = some t → s.slot l = some t → k = l
  apart : ∀ a k t, s.hand a = some t → s.slot k ≠ some t

/-- The token has been taken out, or was never put anywhere. -/
structure Spent (t : τ) (s : Tokens τ α κ) : Prop where
  drawn : t ∈ s.drawn
  hand : ∀ a, s.hand a ≠ some t
  slot : ∀ k, s.slot k ≠ some t

theorem initial_exclusive : Exclusive (⟨[], fun _ => none, fun _ => none⟩ : Tokens τ α κ) :=
  ⟨by simp, by simp, by simp, by simp, by simp⟩

/-- Where the token in a slot has come from. -/
theorem slot_of_finish {target : Option κ} {slot : κ → Option τ}
    (htarget : ∀ k ∈ target, slot k = s.hand a)
    (hrest : ∀ k, k ∉ target → slot k = s.slot k ∨ slot k = none) (h : slot k = some t) :
    (k ∈ target ∧ s.hand a = some t) ∨ (k ∉ target ∧ s.slot k = some t) := by
  by_cases hk : k ∈ target
  · exact .inl ⟨hk, (htarget k hk).symm.trans h⟩
  · rcases hrest k hk with hsame | hnone
    · exact .inr ⟨hk, hsame.symm.trans h⟩
    · rw [hnone] at h
      cases h

variable [DecidableEq α]

/-- What one agent does: it draws a token, or it ends, and what it has in hand goes into
the target, if there is one. -/
inductive Step (a : α) (s : Tokens τ α κ) : Tokens τ α κ → Prop
  | draw (t : τ) (ht : t ∉ s.drawn) :
    Step a s ⟨s.drawn ++ [t], Function.update s.hand a (some t), s.slot⟩
  | finish (target : Option κ) (slot : κ → Option τ) (htarget : ∀ k ∈ target, slot k = s.hand a)
    (hrest : ∀ k, k ∉ target → slot k = s.slot k ∨ slot k = none) :
    Step a s ⟨s.drawn, Function.update s.hand a none, slot⟩

theorem update_eq_some {hand : α → Option τ} {b : α} {x : Option τ}
    (h : Function.update hand a x b = some t) : (b = a ∧ x = some t) ∨ (b ≠ a ∧ hand b = some t) := by
  by_cases hb : b = a
  · subst hb
    rw [Function.update_self] at h
    exact .inl ⟨rfl, h⟩
  · rw [Function.update_of_ne hb] at h
    exact .inr ⟨hb, h⟩

theorem Step.exclusive (hstep : Step a s s') (h : Exclusive s) : Exclusive s' := by
  cases hstep with
  | draw t ht =>
    refine ⟨?_, ?_, ?_, h.slot_injective, ?_⟩
    · intro b u hu
      rcases update_eq_some hu with ⟨-, hu⟩ | ⟨-, hu⟩
      · cases hu
        simp
      · exact List.mem_append_left _ (h.hand_drawn b u hu)
    · exact fun k u hu => List.mem_append_left _ (h.slot_drawn k u hu)
    · intro b c u hb hc
      rcases update_eq_some hb with ⟨hba, hb⟩ | ⟨hba, hb⟩ <;>
        rcases update_eq_some hc with ⟨hca, hc⟩ | ⟨hca, hc⟩
      · rw [hba, hca]
      · cases hb
        exact absurd (h.hand_drawn c t hc) ht
      · cases hc
        exact absurd (h.hand_drawn b t hb) ht
      · exact h.hand_injective b c u hb hc
    · intro b k u hb hk
      rcases update_eq_some hb with ⟨-, hb⟩ | ⟨-, hb⟩
      · cases hb
        exact ht (h.slot_drawn k t hk)
      · exact h.apart b k u hb hk
  | finish target slot htarget hrest =>
    have hslot {k : κ} {u : τ} := slot_of_finish (k := k) (t := u) htarget hrest
    refine ⟨?_, ?_, ?_, ?_, ?_⟩
    · intro b u hu
      rcases update_eq_some hu with ⟨-, hu⟩ | ⟨-, hu⟩
      · cases hu
      · exact h.hand_drawn b u hu
    · intro k u hu
      rcases hslot hu with ⟨-, hhand⟩ | ⟨-, hk⟩
      · exact h.hand_drawn a u hhand
      · exact h.slot_drawn k u hk
    · intro b c u hb hc
      rcases update_eq_some hb with ⟨-, hb⟩ | ⟨-, hb⟩
      · cases hb
      · rcases update_eq_some hc with ⟨-, hc⟩ | ⟨-, hc⟩
        · cases hc
        · exact h.hand_injective b c u hb hc
    · intro k l u hk hl
      rcases hslot hk with ⟨hkt, hk⟩ | ⟨-, hk⟩ <;> rcases hslot hl with ⟨hlt, hl⟩ | ⟨-, hl⟩
      · exact Option.mem_unique hkt hlt
      · exact absurd hl (h.apart a l u hk)
      · exact absurd hk (h.apart a k u hl)
      · exact h.slot_injective k l u hk hl
    · intro b k u hb hk
      rcases update_eq_some hb with ⟨-, hb⟩ | ⟨hba, hb⟩
      · cases hb
      · rcases hslot hk with ⟨-, hk⟩ | ⟨-, hk⟩
        · exact hba (h.hand_injective b a u hb hk)
        · exact h.apart b k u hb hk

/-- A spent token does not come back. -/
theorem Step.spent (hstep : Step a s s') (h : Spent t s) : Spent t s' := by
  cases hstep with
  | draw u hu =>
    refine ⟨List.mem_append_left _ h.drawn, fun b hb => ?_, h.slot⟩
    rcases update_eq_some hb with ⟨-, hb⟩ | ⟨-, hb⟩
    · cases hb
      exact hu h.drawn
    · exact h.hand b hb
  | finish target slot htarget hrest =>
    refine ⟨h.drawn, fun b hb => ?_, fun k hk => ?_⟩
    · rcases update_eq_some hb with ⟨-, hb⟩ | ⟨-, hb⟩
      · cases hb
      · exact h.hand b hb
    · rcases slot_of_finish htarget hrest hk with ⟨-, hk⟩ | ⟨-, hk⟩
      · exact h.hand a hk
      · exact h.slot k hk

/-- A token that is taken out of its slot is spent. -/
theorem Step.spent_of_taken (hstep : Step a s s') (h : Exclusive s) (hk : s.slot k = some t)
    (hk' : s'.slot k ≠ some t) : Spent t s' := by
  cases hstep with
  | draw u hu => exact absurd hk hk'
  | finish target slot htarget hrest =>
    refine ⟨h.slot_drawn k t hk, fun b hb => ?_, fun l hl => ?_⟩
    · rcases update_eq_some hb with ⟨-, hb⟩ | ⟨-, hb⟩
      · cases hb
      · exact h.apart b k t hb hk
    · rcases slot_of_finish htarget hrest hl with ⟨-, hhand⟩ | ⟨-, hslot⟩
      · exact h.apart a k t hhand hk
      · obtain rfl := h.slot_injective l k t hslot hk
        exact hk' hl

end Tokens

end IsadoraAir
