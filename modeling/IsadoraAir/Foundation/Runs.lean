import Mathlib.Data.List.Induction
import Mathlib.Data.Set.Insert

/-!
# Runs of a deterministic system

An event carries everything the outside decides, so a list of events is a run.
A run is constrained step by step, each step together with the state before it;
what one step preserves holds of the whole run.
-/

namespace IsadoraAir.Runs

variable {σ ε : Type} (step : ε → σ → σ) {events : List ε} {s : σ}

def run : List ε → σ → σ
  | [], s => s
  | e :: events, s => run events (step e s)

/-- Every step of the run satisfies `P` together with the state before it. -/
def Throughout (P : ε → σ → Prop) : List ε → σ → Prop
  | [], _ => True
  | e :: events, s => P e s ∧ Throughout P events (step e s)

instance Throughout.decidable (P : ε → σ → Prop) [∀ e s, Decidable (P e s)] :
    (events : List ε) → (s : σ) → Decidable (Throughout step P events s)
  | [], _ => .isTrue trivial
  | e :: events, s =>
    have : Decidable (Throughout step P events (step e s)) := decidable P events (step e s)
    inferInstanceAs (Decidable (_ ∧ _))

variable {step} {P R : ε → σ → Prop} {I : σ → Prop}

@[simp] theorem run_nil (s : σ) : run step [] s = s := rfl

@[simp] theorem run_cons (e : ε) (events : List ε) (s : σ) :
    run step (e :: events) s = run step events (step e s) := rfl

theorem run_append (first second : List ε) (s : σ) :
    run step (first ++ second) s = run step second (run step first s) := by
  induction first generalizing s with
  | nil => rfl
  | cons e rest ih => exact ih (step e s)

theorem throughout_append {first second : List ε} :
    Throughout step P (first ++ second) s ↔
      Throughout step P first s ∧ Throughout step P second (run step first s) := by
  induction first generalizing s with
  | nil => simp [Throughout]
  | cons e rest ih => simp only [List.cons_append, Throughout, ih, run_cons, and_assoc]

theorem throughout_true (events : List ε) (s : σ) : Throughout step (fun _ _ => True) events s := by
  induction events generalizing s with
  | nil => trivial
  | cons e rest ih => exact ⟨trivial, ih (step e s)⟩

/-- An invariant that every admitted step preserves holds where the run ends. -/
theorem invariant (hstep : ∀ e s, P e s → I s → I (step e s))
    (hs : I s) (hrun : Throughout step P events s) : I (run step events s) := by
  induction events generalizing s with
  | nil => exact hs
  | cons e rest ih => exact ih (hstep e s hrun.1 hs) hrun.2

/-- What an admitted step guarantees under the invariant, every step guarantees. -/
theorem throughout_of_invariant (hstep : ∀ e s, P e s → I s → I (step e s))
    (hguarantee : ∀ e s, P e s → I s → R e s) (hs : I s)
    (hrun : Throughout step P events s) : Throughout step R events s := by
  induction events generalizing s with
  | nil => trivial
  | cons e rest ih => exact ⟨hguarantee e s hrun.1 hs, ih (hstep e s hrun.1 hs) hrun.2⟩

/-- Two systems that agree on the steps of a run. -/
theorem run_congr {step' : ε → σ → σ} (h : ∀ e s, P e s → step' e s = step e s)
    (hrun : Throughout step P events s) : run step' events s = run step events s := by
  induction events generalizing s with
  | nil => rfl
  | cons e rest ih =>
    rw [run_cons, run_cons, h e s hrun.1]
    exact ih hrun.2

/-- An endless run. -/
def along (step : ε → σ → σ) (events : ℕ → ε) (s : σ) : ℕ → σ
  | 0 => s
  | n + 1 => step (events n) (along step events s n)

end IsadoraAir.Runs

/-!
# What held earlier in a run

A history lists the moments of a run, the latest one first, and a moment is the state it found
together with the event that came. Statements about the past are read off a history by recursion,
so one more event is one more unfolding.
-/

namespace IsadoraAir.PastTime

/-- An event and the state it found. -/
structure Moment (σ ε : Type*) where
  before : σ
  event : ε

section Operators

variable {α : Type*}

/-- `Q` held at some moment, and `P` at every later one. -/
def Since (P Q : α → List α → Prop) : List α → Prop
  | [] => False
  | r :: older => Q r older ∨ P r older ∧ Since P Q older

/-- `P` held at every moment. -/
def Historically (P : α → List α → Prop) : List α → Prop
  | [] => True
  | r :: older => P r older ∧ Historically P older

variable {P P' Q Q' B : α → List α → Prop} {h older : List α} {r : α}

instance Since.decidable [∀ r h, Decidable (P r h)] [∀ r h, Decidable (Q r h)] :
    (h : List α) → Decidable (Since P Q h)
  | [] => .isFalse id
  | r :: older =>
    have : Decidable (Since P Q older) := decidable older
    inferInstanceAs (Decidable (Q r older ∨ P r older ∧ Since P Q older))

instance Historically.decidable [∀ r h, Decidable (P r h)] :
    (h : List α) → Decidable (Historically P h)
  | [] => .isTrue trivial
  | r :: older =>
    have : Decidable (Historically P older) := decidable older
    inferInstanceAs (Decidable (P r older ∧ Historically P older))

@[simp] theorem since_nil : Since P Q [] ↔ False := Iff.rfl

theorem since_cons :
    Since P Q (r :: older) ↔ Q r older ∨ P r older ∧ Since P Q older := Iff.rfl

@[simp] theorem historically_nil : Historically P [] := trivial

theorem historically_cons :
    Historically P (r :: older) ↔ P r older ∧ Historically P older := Iff.rfl

/-- What follows at each moment from all that held before it. -/
theorem Historically.imp (hp : Historically P h) (hq : Historically Q h)
    (himp : ∀ r older, P r older → Historically Q older → B r older) : Historically B h := by
  induction h with
  | nil => trivial
  | cons r older ih => exact ⟨himp r older hp.1 hq.2, ih hp.2 hq.2⟩

theorem Since.mono (hP : ∀ r older, P r older → P' r older)
    (hQ : ∀ r older, Q r older → Q' r older) (hs : Since P Q h) :
    Since P' Q' h := by
  induction h with
  | nil => exact hs
  | cons r older ih =>
    rcases hs with hq | ⟨hp, hs⟩
    · exact .inl (hQ r older hq)
    · exact .inr ⟨hP r older hp, ih hs⟩

/-- What neither `P` nor `Q` admits has not come after the last `Q`. -/
theorem Since.excludes (hP : ∀ r older, P r older → ¬B r older)
    (hQ : ∀ r older, Q r older → ¬B r older) (hs : Since P Q h) :
    ¬Since (fun r older => ¬Q r older) B h := by
  induction h with
  | nil => exact hs.elim
  | cons r older ih =>
    rintro (hb | ⟨hnq, hb⟩)
    · rcases hs with hq | ⟨hp, -⟩
      · exact hQ r older hq hb
      · exact hP r older hp hb
    · rcases hs with hq | ⟨-, hs⟩
      · exact hnq hq
      · exact ih hs hb

end Operators

section Watching

variable {σ ε : Type*} (step : ε → σ → σ) (start : σ)

def observe (s : σ × List (Moment σ ε)) (e : ε) : σ × List (Moment σ ε) :=
  (step e s.1, ⟨s.1, e⟩ :: s.2)

/-- The state a run ends in and the history it leaves. -/
def watch (events : List ε) : σ × List (Moment σ ε) :=
  events.foldl (observe step) (start, [])

variable {step start} {I : σ → List (Moment σ ε) → Prop}

theorem watch_concat (events : List ε) (e : ε) :
    watch step start (events ++ [e]) = observe step (watch step start events) e := by
  simp [watch]

/-- What holds at the start and is kept by every event holds of the state and its history. -/
theorem watch_invariant (hstart : I start [])
    (hstep : ∀ s older e, I s older → I (step e s) (⟨s, e⟩ :: older)) (events : List ε) :
    I (watch step start events).1 (watch step start events).2 := by
  induction events using List.reverseRecOn with
  | nil => exact hstart
  | append_singleton events e ih =>
    rw [watch_concat]
    exact hstep _ _ e ih

/-- What the invariant promises of the next moment holds of every moment of a run. -/
theorem historically_watch {P : Moment σ ε → List (Moment σ ε) → Prop} (hstart : I start [])
    (hstep : ∀ s older e, I s older → I (step e s) (⟨s, e⟩ :: older))
    (hpromise : ∀ s older e, I s older → P ⟨s, e⟩ older) (events : List ε) :
    Historically P (watch step start events).2 := by
  induction events using List.reverseRecOn with
  | nil => trivial
  | append_singleton events e ih =>
    rw [watch_concat]
    exact ⟨hpromise _ _ e (watch_invariant hstart hstep events), ih⟩

end Watching

end IsadoraAir.PastTime

/-!
# Finished sets of a search

A set that is closed under a relation holds whatever can be reached from it. A depth-first search
grows such a set by the points whose successors are in it already, and a set grown so holds no
point that lies on a cycle.
-/

namespace IsadoraAir.Reachability

open Relation

variable {α : Type*} {edge : α → α → Prop}

/-- Successors of a point of the set are in the set. -/
def Closed (edge : α → α → Prop) (S : Set α) : Prop := ∀ a ∈ S, ∀ b, edge a b → b ∈ S

theorem Closed.reaches {S : Set α} (h : Closed edge S) {a b : α} (ha : a ∈ S)
    (hreaches : ReflTransGen edge a b) : b ∈ S := by
  induction hreaches with
  | refl => exact ha
  | tail _ hstep ih => exact h _ ih _ hstep

/-- Everything from here is known, and no point of it lies on a cycle. -/
structure Finished (edge : α → α → Prop) (S : Set α) : Prop where
  closed : Closed edge S
  acyclic : ∀ a ∈ S, ¬TransGen edge a a

namespace Finished

variable {S : Set α}

theorem empty : Finished edge ∅ := ⟨fun _ h => h.elim, fun _ h => h.elim⟩

/-- A new point with no successor outside is finished as well. -/
theorem insert (h : Finished edge S) {a : α} (hnew : a ∉ S) (hsuccessors : ∀ b, edge a b → b ∈ S) :
    Finished edge (Insert.insert a S) := by
  have hclosed : Closed edge (Insert.insert a S) := by
    rintro x (rfl | hx) y hxy
    · exact .inr (hsuccessors y hxy)
    · exact .inr (h.closed x hx y hxy)
  refine ⟨hclosed, ?_⟩
  rintro x (rfl | hx) hcycle
  · obtain ⟨b, hstep, hback⟩ := TransGen.head'_iff.mp hcycle
    exact hnew (h.closed.reaches (hsuccessors b hstep) hback)
  · exact h.acyclic x hx hcycle

end Finished

end IsadoraAir.Reachability
