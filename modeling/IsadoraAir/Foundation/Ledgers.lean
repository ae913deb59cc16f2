import IsadoraAir.Foundation.Crew
import Mathlib.Algebra.Order.BigOperators.Group.Finset
import Mathlib.Algebra.Order.Ring.Int

/-!
# Histories and ledgers

What a routine has done, action by action, and what it has taken and given back.
-/

/-!
## What a routine has done

The history of a routine lists its actions with their results. `Heeds` says that
no action is performed before the history allows it, and what holds of the
history at the end; there is a rule for each way of building a routine.
-/

namespace IsadoraAir

abbrev History {Act : Type} (Res : Act → Type) := List ((x : Act) × Res x)

namespace Routine

variable {Act : Type} {Res : Act → Type} {ε α β : Type}

/-- The routine gets to `rest` by what it has done. -/
inductive Follows (m : Routine Res ε α) : History Res → Routine Res ε α → Prop
  | nil : Follows m [] m
  | snoc {done : History Res} {x : Act} {next : Res x → Routine Res ε α}
    (h : Follows m done (.act x next)) (r : Res x) : Follows m (done ++ [⟨x, r⟩]) (next r)

def Heeds (R : Act → History Res → Prop) :
    Routine Res ε α → History Res → (Except ε α → History Res → Prop) → Prop
  | pure a, done, Q => Q (.ok a) done
  | raise e, done, Q => Q (.error e) done
  | act x next, done, Q => R x done ∧ ∀ r, (next r).Heeds R (done ++ [⟨x, r⟩]) Q

variable {R : Act → History Res → Prop} {done : History Res}

namespace Heeds

variable {Q Q' : Except ε α → History Res → Prop} {P : Except ε β → History Res → Prop}
  {m : Routine Res ε α}

theorem mono (h : Heeds R m done Q') (himp : ∀ r d, Q' r d → Q r d) :
    Heeds R m done Q := by
  induction m generalizing done with
  | pure a => exact himp _ _ h
  | raise e => exact himp _ _ h
  | act x next ih => exact ⟨h.1, fun r => ih r (h.2 r)⟩

theorem bind {f : α → Routine Res ε β} (hm : Heeds R m done Q)
    (hok : ∀ a d, Q (.ok a) d → Heeds R (f a) d P) (herror : ∀ e d, Q (.error e) d → P (.error e) d)
    : Heeds R (m >>= f) done P := by
  induction m generalizing done with
  | pure a => exact hok a done hm
  | raise e => exact herror e done hm
  | act x next ih => exact ⟨hm.1, fun r => ih r (hm.2 r)⟩

theorem perform_bind {x : Act} {f : Res x → Routine Res ε α} (hx : R x done)
    (hnext : ∀ r, Heeds R (f r) (done ++ [⟨x, r⟩]) Q) : Heeds R (perform x >>= f) done Q :=
  ⟨hx, hnext⟩

theorem attempt_bind {f : Except ε α → Routine Res ε β} (hm : Heeds R m done Q)
    (hnext : ∀ r d, Q r d → Heeds R (f r) d P) : Heeds R (m.attempt >>= f) done P := by
  induction m generalizing done with
  | pure a => exact hnext _ _ hm
  | raise e => exact hnext _ _ hm
  | act x next ih => exact ⟨hm.1, fun r => ih r (hm.2 r)⟩

/-- Actions that are always allowed. -/
theorem of_uses {A : Act → Prop} (hm : m.Uses A) (hA : ∀ x d, A x → R x d) :
    Heeds R m done fun _ d => ∃ later, d = done ++ later ∧ ∀ step ∈ later, A step.1 := by
  induction m generalizing done with
  | pure a => exact ⟨[], (List.append_nil done).symm, nofun⟩
  | raise e => exact ⟨[], (List.append_nil done).symm, nofun⟩
  | act x next ih =>
    refine ⟨hA x done hm.1, fun r => (ih r (hm.2 r)).mono fun _ d hd => ?_⟩
    obtain ⟨later, rfl, hlater⟩ := hd
    refine ⟨⟨x, r⟩ :: later, by simp, fun step hstep => ?_⟩
    rcases List.mem_cons.mp hstep with rfl | hstep
    · exact hm.1
    · exact hlater step hstep

end Heeds

theorem Follows.heeds {m rest : Routine Res ε α} {Q : Except ε α → History Res → Prop}
    (h : Follows m done rest) (hm : m.Heeds R [] Q) : rest.Heeds R done Q := by
  induction h with
  | nil => exact hm
  | snoc h r ih => exact ih.2 r

end Routine

/-- Every agent has got where it is by its history. -/
theorem Crew.step_follows {Act : Type} {Res : Act → Type} {σ α κ γ ε β : Type} [DecidableEq α]
    {C : Crew Res σ α κ} {program : γ → Routine Res ε β} {s : Crew.State Res σ α γ ε β}
    (h : Crew.Tasks (fun task => (program task.call).Follows task.done task.rest) s)
    (e : Crew.Event α κ γ) :
    Crew.Tasks (fun task => (program task.call).Follows task.done task.rest)
      (C.step program e s) :=
  Crew.step_tasks (fun _ => .nil) (fun _ _ _ _ hfollows r => hfollows.snoc r) h e

end IsadoraAir

/-!
## Ledgers

A ledger sums up what a routine has done, one entry for each action. `Accounts`
says that no action is performed before the ledger allows it, and what the
ledger shows at the end. What all agents of a crew hold is added up.
-/

namespace IsadoraAir

namespace Routine

variable {Act : Type} {Res : Act → Type} {ε ε' α β L : Type}

/-- The ledger after what has been done. -/
def ledger (record : (x : Act) → Res x → L → L) : L → History Res → L :=
  List.foldl fun l step => record step.1 step.2 l

def Accounts (record : (x : Act) → Res x → L → L) (G : Act → L → Prop) :
    Routine Res ε α → L → (Except ε α → L → Prop) → Prop
  | pure a, l, Q => Q (.ok a) l
  | raise e, l, Q => Q (.error e) l
  | act x next, l, Q => G x l ∧ ∀ r, (next r).Accounts record G (record x r l) Q

variable {record : (x : Act) → Res x → L → L} {G : Act → L → Prop} {l : L} {done : History Res}
  {m rest : Routine Res ε α}

@[simp] theorem ledger_nil : ledger record l [] = l := rfl

@[simp] theorem ledger_snoc (done : History Res) (x : Act) (r : Res x) :
    ledger record l (done ++ [⟨x, r⟩]) = record x r (ledger record l done) := by
  simp [ledger]

namespace Accounts

variable {Q Q' : Except ε α → L → Prop} {m : Routine Res ε α}

theorem mono (h : Accounts record G m l Q')
    (himp : ∀ r l', Q' r l' → Q r l') : Accounts record G m l Q := by
  induction m generalizing l with
  | pure a => exact himp _ _ h
  | raise e => exact himp _ _ h
  | act x next ih => exact ⟨h.1, fun r => ih r (h.2 r)⟩

theorem bind {f : α → Routine Res ε β} {P : Except ε β → L → Prop}
    (hm : Accounts record G m l Q) (hok : ∀ a l', Q (.ok a) l' → Accounts record G (f a) l' P)
    (herror : ∀ e l', Q (.error e) l' → P (.error e) l') : Accounts record G (m >>= f) l P := by
  induction m generalizing l with
  | pure a => exact hok a l hm
  | raise e => exact herror e l hm
  | act x next ih => exact ⟨hm.1, fun r => ih r (hm.2 r)⟩

theorem perform_bind {x : Act} {f : Res x → Routine Res ε α} (hx : G x l)
    (hnext : ∀ r, Accounts record G (f r) (record x r l) Q) :
    Accounts record G (perform x >>= f) l Q :=
  ⟨hx, hnext⟩

theorem attempt_bind {f : Except ε α → Routine Res ε' β} {P : Except ε' β → L → Prop}
    (hm : Accounts record G m l Q) (hnext : ∀ r l', Q r l' → Accounts record G (f r) l' P) :
    Accounts record G (m.attempt >>= f) l P := by
  induction m generalizing l with
  | pure a => exact hnext _ _ hm
  | raise e => exact hnext _ _ hm
  | act x next ih => exact ⟨hm.1, fun r => ih r (hm.2 r)⟩

/-- What the cleanup raises hides how the routine has ended. -/
theorem tryFinally {cleanup : Routine Res ε Unit}
    {P : Except ε α → L → Prop} (hm : Accounts record G m l Q)
    (hcleanup : ∀ r l', Q r l' → Accounts record G cleanup l' fun r' l'' =>
      (∀ e, r' = .error e → P (.error e) l'') ∧ (r' = .ok () → P r l'')) :
    Accounts record G (m.tryFinally cleanup) l P := by
  refine attempt_bind hm fun r l' hr => bind (hcleanup r l' hr) ?_ ?_
  · intro u l'' hu
    cases r with
    | ok a => exact hu.2 rfl
    | error e => exact hu.2 rfl
  · intro e l'' he
    exact he.1 e rfl

end Accounts

/-- Where a routine has got to, it accounts for the rest. -/
theorem Follows.accounts
    {Q : Except ε α → L → Prop} (h : Follows m done rest) (hm : m.Accounts record G l Q) :
    rest.Accounts record G (ledger record l done) Q := by
  induction h with
  | nil => exact hm
  | snoc h r ih =>
    rw [ledger_snoc]
    exact ih.2 r

/-- What allowed entries preserve, the ledger of every history has. -/
theorem Follows.ledger_invariant {Q : Except ε α → L → Prop} {I : L → Prop}
    (hrecord : ∀ x r l', I l' → G x l' → I (record x r l')) (h : Follows m done rest)
    (hm : m.Accounts record G l Q) (hl : I l) : I (ledger record l done) := by
  induction h with
  | nil => exact hl
  | snoc h r ih =>
    rw [ledger_snoc]
    exact hrecord _ r _ ih (h.accounts hm).1

end Routine

/-! ### What the agents of a crew hold -/

namespace Crew

variable {Act : Type} {Res : Act → Type} {σ α κ γ ε β : Type}

/-- What an agent holds by its task. -/
def holding (g : Task Res γ ε β → ℤ) (s : State Res σ α γ ε β) (a : α) : ℤ :=
  (s.task a).elim 0 g

/-- What is left and what all agents hold make `total`. -/
def Balanced (f : σ → ℤ) (g : Task Res γ ε β → ℤ) (total : ℤ) (s : State Res σ α γ ε β) : Prop :=
  ∃ live : Finset α, (∀ a ∉ live, holding g s a = 0) ∧
    f s.shared + ∑ a ∈ live, holding g s a = total

variable {f : σ → ℤ} {g : Task Res γ ε β → ℤ} {total : ℤ} {s : State Res σ α γ ε β}

theorem idle_balanced (f : σ → ℤ) (g : Task Res γ ε β → ℤ) (shared : σ) :
    Balanced f g (f shared) (idle shared : State Res σ α γ ε β) :=
  ⟨∅, fun _ _ => rfl, by simp [idle]⟩

/-- Nobody holds anything. -/
theorem Balanced.eq_total (h : Balanced f g total s) (hnone : ∀ a, holding g s a = 0) :
    f s.shared = total := by
  obtain ⟨live, -, hsum⟩ := h
  simpa [hnone] using hsum

/-- Agents that hold one each are at most `total`. -/
theorem Balanced.card_le (h : Balanced f g total s) (hf : 0 ≤ f s.shared)
    (hnonneg : ∀ a, 0 ≤ holding g s a) {A : Finset α} (hA : ∀ a ∈ A, holding g s a = 1) :
    (A.card : ℤ) ≤ total := by
  obtain ⟨live, hout, hsum⟩ := h
  have hsub : A ⊆ live := by
    intro a ha
    by_contra hlive
    have hone := hA a ha
    rw [hout a hlive] at hone
    omega
  have hcard : (A.card : ℤ) = ∑ a ∈ A, holding g s a := by
    rw [Finset.sum_congr rfl hA]
    simp
  have hle : ∑ a ∈ A, holding g s a ≤ ∑ a ∈ live, holding g s a :=
    Finset.sum_le_sum_of_subset_of_nonneg hsub fun a _ _ => hnonneg a
  omega

variable [DecidableEq α]

/-- One agent's task is replaced. -/
theorem Balanced.update (h : Balanced f g total s) (a : α) (shared : σ)
    (task : Option (Task Res γ ε β)) :
    Balanced f g (total + (f shared + task.elim 0 g) - (f s.shared + holding g s a))
      (s.update a shared task) := by
  obtain ⟨live, hout, hsum⟩ := h
  have hself : holding g (s.update a shared task) a = task.elim 0 g := by
    simp [holding, State.update]
  have hother {b : α} (hb : b ≠ a) : holding g (s.update a shared task) b = holding g s b := by
    simp [holding, State.update, Function.update_of_ne hb]
  have hinsert : ∑ b ∈ insert a live, holding g s b = ∑ b ∈ live, holding g s b :=
    Finset.sum_insert_of_eq_zero_if_notMem fun ha => hout a ha
  have hold := Finset.add_sum_erase _ (holding g s) (Finset.mem_insert_self a live)
  have hnew := Finset.add_sum_erase _ (holding g (s.update a shared task))
    (Finset.mem_insert_self a live)
  have hrest : ∑ b ∈ (insert a live).erase a, holding g (s.update a shared task) b =
      ∑ b ∈ (insert a live).erase a, holding g s b :=
    Finset.sum_congr rfl fun b hb => hother (Finset.ne_of_mem_erase hb)
  refine ⟨insert a live, ?_, ?_⟩
  · intro b hb
    rw [Finset.mem_insert, not_or] at hb
    rw [hother hb.1]
    exact hout b hb.2
  · change f shared + _ = _
    rw [hself] at hnew
    omega

/-- An action that takes as much as it gives leaves the balance; what a finished task still
held is lost when the agent takes another call. -/
theorem Balanced.step (C : Crew Res σ α κ) (program : γ → Routine Res ε β)
    (h : Balanced f g total s) (e : Event α κ γ) (he : ∀ a, e ≠ .abandon a)
    (hstart : ∀ call, g ⟨call, [], program call⟩ = 0)
    (hexec : ∀ a choice call done x next r shared, C.exec choice a x s.shared = some (r, shared) →
      f shared + g ⟨call, done ++ [⟨x, r⟩], next r⟩ =
        f s.shared + g ⟨call, done, .act x next⟩) :
    Balanced f g total (C.step program e s) ∨
      ∃ a call task, e = .start a call ∧ s.task a = some task ∧
        (∀ x next, task.rest ≠ .act x next) ∧
        Balanced f g (total - g task) (C.step program e s) := by
  have hfresh (a : α) (call : γ) (task : Option (Task Res γ ε β)) (ht : s.task a = task) :
      Balanced f g (total - task.elim 0 g)
        (s.update a s.shared (some ⟨call, [], program call⟩)) := by
    have hupdate := h.update a s.shared (some ⟨call, [], program call⟩)
    rw [holding, ht, Option.elim_some, hstart] at hupdate
    convert hupdate using 1
    omega
  cases e with
  | start a call =>
    rw [Crew.step]
    rcases htask : s.task a with _ | ⟨call', done, m⟩
    · have hnone := hfresh a call none htask
      rw [Option.elim_none, sub_zero] at hnone
      exact .inl hnone
    · cases m with
      | pure b => exact .inr ⟨a, call, _, rfl, htask, fun x next hact => (by cases hact),
          hfresh a call _ htask⟩
      | raise e => exact .inr ⟨a, call, _, rfl, htask, fun x next hact => (by cases hact),
          hfresh a call _ htask⟩
      | act x next => exact .inl h
  | act a choice =>
    left
    rw [Crew.step]
    rcases htask : s.task a with _ | ⟨call, done, m⟩
    · exact h
    · cases m with
      | pure b => exact h
      | raise e => exact h
      | act x next =>
        dsimp only
        cases hresult : C.exec choice a x s.shared with
        | none => exact h
        | some result =>
          have hkeep := hexec a choice call done x next result.1 result.2 hresult
          have hupdate := h.update a result.2 (some ⟨call, done ++ [⟨x, result.1⟩], next result.1⟩)
          rw [holding, htask, Option.elim_some, Option.elim_some, hkeep, add_sub_cancel_right]
            at hupdate
          exact hupdate
  | abandon a => exact absurd rfl (he a)

end Crew

end IsadoraAir
