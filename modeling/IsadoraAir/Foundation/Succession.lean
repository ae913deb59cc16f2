import Mathlib.Data.List.Infix

/-!
# Histories of one value

What a history says last, and which of its entries succeeds which.
-/

/-!
## The latest entry of a history

What the last entry of a history gives that gives anything at all.
-/

namespace IsadoraAir

variable {α β : Type*} {f : α → Option β}

def latest (f : α → Option β) (history : List α) : Option β := (history.filterMap f).getLast?

@[simp] theorem latest_nil (f : α → Option β) : latest f [] = none := rfl

theorem latest_append (f : α → Option β) (first second : List α) :
    latest f (first ++ second) = (latest f second).or (latest f first) := by
  rw [latest, latest, latest, List.filterMap_append, List.getLast?_append]

theorem latest_concat (f : α → Option β) (history : List α) (x : α) :
    latest f (history ++ [x]) = (f x).or (latest f history) := by
  rw [latest_append]
  cases h : f x <;> simp [latest, h]

theorem latest_eq_none {history : List α} (h : ∀ x ∈ history, f x = none) :
    latest f history = none := by
  rw [latest, List.filterMap_eq_nil_iff.2 h]
  rfl

/-- Entries that give nothing may be left out. -/
theorem latest_filter {p : α → Bool} (h : ∀ x, p x = false → f x = none)
    (history : List α) : latest f (history.filter p) = latest f history := by
  rw [latest, latest, List.filterMap_filter]
  congr 2
  funext x
  cases hx : p x with
  | true => simp
  | false => simp [h x hx]

theorem mem_of_latest {history : List α} {b : β}
    (h : latest f history = some b) : ∃ x ∈ history, f x = some b :=
  List.mem_filterMap.1 (List.mem_of_getLast? h)

end IsadoraAir

/-!
## Successions

Something is granted, stands for a while and is then retired into an archive of
records. A record says more than what was granted, so `part` takes out what it
is the record of. The ledger is all that was ever granted, in order.
-/

namespace IsadoraAir

/-- The records of what was retired, and what stands now. -/
structure Succession (ρ α : Type*) where
  past : List ρ
  current : Option α

namespace Succession

variable {ρ α : Type*} (part : ρ → α)

def ledger (s : Succession ρ α) : List α := s.past.map part ++ s.current.toList

/-- A step that may retire what stands and may grant something new. -/
structure Advances (granted : Option α) (s s' : Succession ρ α) : Prop where
  past : s.past <+: s'.past
  ledger : s'.ledger part = s.ledger part ++ granted.toList
  current : ∀ a, granted = some a → s'.current = some a

variable {part} {s s' s'' : Succession ρ α} {granted : Option α}

theorem Advances.refl (s : Succession ρ α) : Advances part none s s :=
  ⟨List.prefix_rfl, (List.append_nil _).symm, by simp⟩

/-- What stood is retired, and what is granted stands in its place. -/
theorem advances_of_retired (retired : Option ρ) (hpart : retired.map part = s.current)
    (hpast : s'.past = s.past ++ retired.toList) (hcurrent : s'.current = granted) :
    Advances part granted s s' := by
  constructor
  · rw [hpast]
    exact List.prefix_append _ _
  · rw [ledger, ledger, hpast, hcurrent, ← hpart]
    cases retired <;> simp
  · intro a ha
    rw [hcurrent, ha]

/-- Something is granted where nothing stood. -/
theorem advances_of_vacant (hvacant : s.current = none) (hpast : s'.past = s.past)
    (hcurrent : s'.current = granted) : Advances part granted s s' :=
  advances_of_retired none (by simp [hvacant]) (by simp [hpast]) hcurrent

/-- A step records nothing but what stood before it. -/
theorem Advances.recorded (h : Advances part granted s s') {r : ρ} (hr : r ∈ s'.past) :
    r ∈ s.past ∨ s.current = some (part r) := by
  obtain ⟨new, hnew⟩ := h.past
  rw [← hnew, List.mem_append] at hr
  refine hr.imp_right fun hmem => ?_
  have hledger := h.ledger
  simp only [Succession.ledger, ← hnew, List.map_append, List.append_assoc,
    List.append_cancel_left_eq] at hledger
  have hpart : part r ∈ new.map part := List.mem_map_of_mem hmem
  cases hgranted : granted with
  | none =>
    rw [hgranted, Option.toList_none, List.append_nil] at hledger
    have hall : part r ∈ s.current.toList := by
      rw [← hledger]
      exact List.mem_append_left _ hpart
    simpa using hall
  | some a =>
    rw [h.current a hgranted, hgranted] at hledger
    rw [List.append_cancel_right hledger] at hpart
    simpa using hpart

/-- Over any number of steps what stood still stands, or has become the next record. -/
theorem stands_or_recorded (hpast : s.past <+: s'.past) (hledger : s.ledger part <+: s'.ledger part)
    {a : α} (ha : s.current = some a) :
    (s'.past = s.past ∧ s'.current = some a) ∨
      ∃ r rest, s'.past = s.past ++ r :: rest ∧ part r = a := by
  obtain ⟨new, hnew⟩ := hpast
  obtain ⟨later, hlater⟩ := hledger
  simp only [ledger, ← hnew, ha, Option.toList_some, List.map_append, List.append_assoc,
    List.append_cancel_left_eq] at hlater
  cases new with
  | nil =>
    rw [List.append_nil] at hnew
    refine .inl ⟨hnew.symm, ?_⟩
    cases hcurrent : s'.current with
    | none => simp [hcurrent] at hlater
    | some b =>
      simp only [List.singleton_append, hcurrent, List.map_nil, Option.toList_some, List.nil_append,
        List.cons.injEq] at hlater
      rw [hlater.1]
  | cons r rest =>
    simp only [List.map_cons, List.cons_append, List.cons.injEq] at hlater
    exact .inr ⟨r, rest, hnew.symm, hlater.1.symm⟩

end Succession

end IsadoraAir
