import IsadoraAir.Foundation.Routine
import IsadoraAir.Foundation.Runs

/-!
# Crews

Agents answer calls by running routines on one shared state, an action at a time
and in any order; an agent may be abandoned in the middle. Where each routine is
safe on its own, relying on the invariant that the others keep, the invariant
holds in every run.
-/

namespace IsadoraAir

open Relation

/-- One action of an agent, with what the outside decides about it; `none` waits.
What an abandoned agent leaves behind. -/
structure Crew {Act : Type} (Res : Act → Type) (σ α κ : Type) where
  exec : κ → α → (x : Act) → σ → Option (Res x × σ)
  abandon : α → σ → σ

namespace Crew

variable {Act : Type} {Res : Act → Type} {σ α κ γ ε β : Type}

/-- A call that is answered: what has been done, with its results, and what is left to do. -/
structure Task (Res : Act → Type) (γ ε β : Type) where
  call : γ
  done : List ((x : Act) × Res x)
  rest : Routine Res ε β

structure State (Res : Act → Type) (σ α γ ε β : Type) where
  shared : σ
  task : α → Option (Task Res γ ε β)

inductive Event (α κ γ : Type) where
  | start (a : α) (call : γ)
  | act (a : α) (choice : κ)
  | abandon (a : α)

def idle (shared : σ) : State Res σ α γ ε β := ⟨shared, fun _ => none⟩

def State.update [DecidableEq α] (s : State Res σ α γ ε β) (a : α) (shared : σ)
    (task : Option (Task Res γ ε β)) : State Res σ α γ ε β :=
  ⟨shared, Function.update s.task a task⟩

/-- One event; an agent starts a call when it has nothing to go on with. -/
def step [DecidableEq α] (C : Crew Res σ α κ) (program : γ → Routine Res ε β) :
    Event α κ γ → State Res σ α γ ε β → State Res σ α γ ε β
  | .start a call, s =>
    match s.task a with
    | some ⟨_, _, .act _ _⟩ => s
    | _ => s.update a s.shared (some ⟨call, [], program call⟩)
  | .act a choice, s =>
    match s.task a with
    | some ⟨call, done, .act x next⟩ =>
      match C.exec choice a x s.shared with
      | some (r, shared) => s.update a shared (some ⟨call, done ++ [⟨x, r⟩], next r⟩)
      | none => s
    | _ => s
  | .abandon a, s => s.update a (C.abandon a s.shared) none

/-- The invariant, what holds of an agent that answers a call, and of one that does not. -/
structure Assertions (σ α γ : Type) where
  invariant : σ → Prop
  during : γ → α → σ → Prop
  clean : α → σ → Prop

variable (C : Crew Res σ α κ) (J : Assertions σ α γ)

/-- An agent goes on, or is abandoned. -/
def Moves (a : α) (s s' : σ) : Prop :=
  s' = C.abandon a s ∨ ∃ choice x r, C.exec choice a x s = some (r, s')

/-- What an agent relies on: the others move, and the invariant stays. -/
def Others (a : α) (s s' : σ) : Prop :=
  J.invariant s ∧ J.invariant s' ∧ ∃ b, b ≠ a ∧ C.Moves b s s'

def setting (call : γ) (a : α) : Routine.Setting Res σ where
  exec x s r s' := ∃ choice, C.exec choice a x s = some (r, s')
  others := C.Others J a
  invariant s := J.invariant s ∧ J.during call a s

/-- How a call ends. -/
def Ends (a : α) (_ : Except ε β) (s : σ) : Prop := J.invariant s ∧ J.clean a s

def TaskSound (a : α) (s : σ) : Option (Task Res γ ε β) → Prop
  | none => J.clean a s
  | some task => task.rest.Safe (C.setting J task.call a) s (Ends J a)

structure Sound (s : State Res σ α γ ε β) : Prop where
  shared : J.invariant s.shared
  task : ∀ a, C.TaskSound J a s.shared (s.task a)

/-- Why the invariant holds: an abandoned agent is clean, and each routine is safe for a clean
agent. -/
structure Lawful (program : γ → Routine Res ε β) : Prop where
  abandon : ∀ a s, J.invariant s → J.invariant (C.abandon a s) ∧ J.clean a (C.abandon a s)
  during : ∀ call a, (C.setting J call a).Stable (C.setting J call a).invariant
  clean : ∀ a s s', J.clean a s → C.Others J a s s' → J.clean a s'
  start : ∀ call a s, J.invariant s → J.clean a s →
    (program call).Safe (C.setting J call a) s (Ends J a)

variable {C J} {program : γ → Routine Res ε β} {s : State Res σ α γ ε β} {x : Act}
  {task : Option (Task Res γ ε β)} {a : α} {call : γ} {t : σ}

theorem idle_sound {shared : σ} (h : J.invariant shared) (hclean : ∀ a, J.clean a shared) :
    C.Sound J (idle shared : State Res σ α γ ε β) :=
  ⟨h, hclean⟩

/-- An agent that is about to act satisfies what holds during its call. -/
theorem Sound.during (h : C.Sound J s)
    {done : List ((x : Act) × Res x)} {next : Res x → Routine Res ε β}
    (htask : s.task a = some ⟨call, done, .act x next⟩) : J.during call a s.shared := by
  have hsafe := h.task a
  rw [htask] at hsafe
  exact hsafe.1.2

theorem Lawful.others (hC : C.Lawful J program) {t' : σ} (h : C.TaskSound J a t task)
    (hstep : C.Others J a t t') : C.TaskSound J a t' task := by
  cases task with
  | none => exact hC.clean a t t' h hstep
  | some task =>
    apply Routine.Safe.others h (hC.during task.call a) _ hstep
    exact fun r u u' hu hothers => ⟨hothers.2.1, hC.clean a u u' hu.2 hothers⟩

variable [DecidableEq α] {e : Event α κ γ} {K : Task Res γ ε β → Prop}

/-- Soundness after an agent has gone on and the others have stood by. -/
theorem Lawful.update_sound (hC : C.Lawful J program) (h : C.Sound J s)
    (ht : J.invariant t) (htask : C.TaskSound J a t task)
    (hmoves : t = s.shared ∨ C.Moves a s.shared t) : C.Sound J (s.update a t task) := by
  refine ⟨ht, fun b => ?_⟩
  change C.TaskSound J b t (Function.update s.task a task b)
  by_cases hb : b = a
  · subst hb
    rw [Function.update_self]
    exact htask
  · rw [Function.update_of_ne hb]
    rcases hmoves with rfl | hmoves
    · exact h.task b
    · exact hC.others (h.task b) ⟨h.shared, ht, a, fun hab => hb hab.symm, hmoves⟩

theorem Lawful.start_sound (hC : C.Lawful J program) (h : C.Sound J s)
    (hclean : J.clean a s.shared) (call : γ) :
    C.Sound J (s.update a s.shared (some ⟨call, [], program call⟩)) :=
  hC.update_sound h h.shared (hC.start call a s.shared h.shared hclean) (.inl rfl)

theorem Lawful.step_sound (hC : C.Lawful J program) (h : C.Sound J s)
    (e : Event α κ γ) : C.Sound J (C.step program e s) := by
  cases e with
  | start a call =>
    unfold step
    dsimp only
    have htask := h.task a
    rcases hcase : s.task a with _ | ⟨call', done, m⟩ <;> rw [hcase] at htask
    · exact hC.start_sound h htask call
    · cases m with
      | pure b => exact hC.start_sound h htask.2 call
      | raise e => exact hC.start_sound h htask.2 call
      | act x next => exact h
  | act a choice =>
    unfold step
    dsimp only
    rcases hcase : s.task a with _ | ⟨call, done, m⟩
    · exact h
    · cases m with
      | pure b => exact h
      | raise e => exact h
      | act x next =>
        dsimp only
        cases hexec : C.exec choice a x s.shared with
        | none => exact h
        | some result =>
          obtain ⟨r, t⟩ := result
          have hsafe := h.task a
          rw [hcase] at hsafe
          have hnext := hsafe.2 s.shared .refl r t ⟨choice, hexec⟩
          have ht : J.invariant t := by
            cases hcont : next r with
            | pure b => rw [hcont] at hnext; exact hnext.1
            | raise e => rw [hcont] at hnext; exact hnext.1
            | act y rest => rw [hcont] at hnext; exact hnext.1.1
          exact hC.update_sound h ht hnext (.inr (.inr ⟨choice, x, r, hexec⟩))
  | abandon a =>
    obtain ⟨ht, hclean⟩ := hC.abandon a s.shared h.shared
    exact hC.update_sound h ht hclean (.inr (.inl rfl))

theorem Lawful.run_sound (hC : C.Lawful J program) (h : C.Sound J s)
    (events : List (Event α κ γ)) : C.Sound J (Runs.run (C.step program) events s) :=
  Runs.invariant (P := fun _ _ => True) (I := C.Sound J) (fun e _ _ hs => hC.step_sound hs e) h
    (Runs.throughout_true events s)

/-- What one event does to the shared state. -/
theorem step_shared (C : Crew Res σ α κ) (program : γ → Routine Res ε β) (e : Event α κ γ)
    (s : State Res σ α γ ε β) :
    (C.step program e s).shared = s.shared ∨
    (∃ a, (C.step program e s).shared = C.abandon a s.shared) ∨
    ∃ a choice call done x next r, e = .act a choice ∧
      s.task a = some ⟨call, done, .act x next⟩ ∧
      C.exec choice a x s.shared = some (r, (C.step program e s).shared) ∧
      (C.step program e s).task a = some ⟨call, done ++ [⟨x, r⟩], next r⟩ := by
  cases e with
  | start a call =>
    left
    unfold step
    dsimp only
    split <;> rfl
  | abandon a => exact .inr (.inl ⟨a, rfl⟩)
  | act a choice =>
    unfold step
    dsimp only
    split
    · next call done x next htask =>
      split
      · next r t hexec =>
        exact .inr (.inr ⟨a, choice, call, done, x, next, r, rfl, htask, hexec,
          Function.update_self ..⟩)
      · exact .inl rfl
    · exact .inl rfl

/-- Who goes on. -/
def Event.agent : Event α κ γ → α
  | .start a _ | .act a _ | .abandon a => a

theorem step_task_of_ne (h : a ≠ e.agent) :
    (C.step program e s).task a = s.task a := by
  cases e with
  | start b call =>
    unfold step
    dsimp only
    split
    · rfl
    · exact Function.update_of_ne h ..
  | act b choice =>
    unfold step
    dsimp only
    split
    · split
      · exact Function.update_of_ne h ..
      · rfl
    · rfl
  | abandon b => exact Function.update_of_ne h ..

/-- An agent that has gone on by an action has performed it. -/
theorem exec_of_step {done : List ((x : Act) × Res x)} {r : Res x} {next : Res x → Routine Res ε β}
    {rest : Routine Res ε β} (h : s.task a = some ⟨call, done, .act x next⟩)
    (hstep : (C.step program e s).task a = some ⟨call, done ++ [⟨x, r⟩], rest⟩) :
    ∃ choice, e = .act a choice ∧ C.exec choice a x s.shared = some (r, (C.step program e s).shared) := by
  have hsame : (C.step program e s).task a ≠ s.task a := by
    intro heq
    rw [hstep, h, Option.some.injEq, Task.mk.injEq] at heq
    simpa using heq.2.1
  obtain rfl : a = e.agent := by
    by_contra hne
    exact hsame (step_task_of_ne hne)
  cases e with
  | start b call' =>
    refine absurd ?_ hsame
    simp only [Event.agent] at h
    simp only [Event.agent, step, h]
  | abandon b =>
    simp [step, State.update, Event.agent] at hstep
  | act b choice =>
    refine ⟨choice, rfl, ?_⟩
    simp only [Event.agent] at h hsame hstep ⊢
    cases hexec : C.exec choice b x s.shared with
    | none =>
      refine absurd ?_ hsame
      simp only [step, h, hexec]
    | some result =>
      obtain ⟨r', t⟩ := result
      simp only [step, h, hexec, State.update, Function.update_self, Option.some.injEq,
        Task.mk.injEq, List.append_cancel_left_eq] at hstep ⊢
      obtain ⟨-, hlast, -⟩ := hstep
      cases hlast
      rfl

/-! ## Crews whose actions are limited -/

/-- Actions are performed only if they are allowed. -/
def restrict (C : Crew Res σ α κ) (allowed : κ → α → (x : Act) → σ → Prop)
    [∀ choice a x s, Decidable (allowed choice a x s)] : Crew Res σ α κ where
  exec choice a x s := if allowed choice a x s then C.exec choice a x s else none
  abandon := C.abandon

/-- The action that the event is about, if any, is allowed. -/
def Admits (allowed : κ → α → (x : Act) → σ → Prop) :
    Event α κ γ → State Res σ α γ ε β → Prop
  | .act a choice, s =>
    match s.task a with
    | some ⟨_, _, .act x _⟩ => allowed choice a x s.shared
    | _ => True
  | _, _ => True

instance Admits.decidable {allowed : κ → α → (x : Act) → σ → Prop}
    [∀ choice a x s, Decidable (allowed choice a x s)] (e : Event α κ γ)
    (s : State Res σ α γ ε β) : Decidable (Admits allowed e s) :=
  match e with
  | .start _ _ | .abandon _ => .isTrue trivial
  | .act a choice => by
    change Decidable (match s.task a with
      | some ⟨_, _, .act x _⟩ => allowed choice a x s.shared
      | _ => True)
    split
    · infer_instance
    · exact .isTrue trivial

/-- Where nothing else is attempted, the limit makes no difference. -/
theorem restrict_step {allowed : κ → α → (x : Act) → σ → Prop}
    [∀ choice a x s, Decidable (allowed choice a x s)] (e : Event α κ γ)
    (h : Admits allowed e s) : (C.restrict allowed).step program e s = C.step program e s := by
  cases e with
  | start a call => rfl
  | abandon a => rfl
  | act a choice =>
    unfold step
    dsimp only
    split
    · next call done x next htask =>
      have hallowed : allowed choice a x s.shared := by simpa only [Admits, htask] using h
      simp only [restrict, if_pos hallowed]
    · rfl

/-- Every agent's task has the property. -/
def Tasks (K : Task Res γ ε β → Prop) (s : State Res σ α γ ε β) : Prop :=
  ∀ a task, s.task a = some task → K task

theorem Tasks.update (h : Tasks K s) (htask : ∀ task', task = some task' → K task') :
    Tasks K (s.update a t task) := by
  intro b task' hm
  change Function.update s.task a task b = some task' at hm
  by_cases hb : b = a
  · subst hb
    rw [Function.update_self] at hm
    exact htask task' hm
  · rw [Function.update_of_ne hb] at hm
    exact h b task' hm

/-- A property that the programs have, and that every action leaves to the rest. -/
theorem step_tasks (hprogram : ∀ call : γ, K ⟨call, [], program call⟩)
    (hnext : ∀ call done x next, K ⟨call, done, .act x next⟩ →
      ∀ r, K ⟨call, done ++ [⟨x, r⟩], next r⟩)
    (h : Tasks K s) (e : Event α κ γ) : Tasks K (C.step program e s) := by
  cases e with
  | start a call =>
    unfold step
    dsimp only
    split
    · exact h
    · refine h.update fun task hm => ?_
      cases hm
      exact hprogram call
  | act a choice =>
    unfold step
    dsimp only
    split
    · next call done x next htask =>
      split
      · next r t hexec =>
        refine h.update fun task hm => ?_
        cases hm
        exact hnext call done x next (h a _ htask) r
      · exact h
    · exact h
  | abandon a => exact h.update nofun

end Crew

end IsadoraAir
