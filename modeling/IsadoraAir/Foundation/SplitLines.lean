import IsadoraAir.Foundation.TextLines

/-!
# Splitting at every line boundary

`str.splitlines(keepends=True)` splits a text after every character that Unicode
or ASCII takes for a line boundary. The lines make up the text, and what stands
behind a line can be replaced without changing the lines before it.
-/

namespace IsadoraAir.Text

variable {lines : List Text} {line new rest : Text} {after before : List Text} {text : Text}

/-- The characters at which `str.splitlines` splits. -/
def isBoundary : CodePoint → Bool
  | .scalar c => c.toNat ∈ [0x0A, 0x0B, 0x0C, 0x0D, 0x1C, 0x1D, 0x1E, 0x85, 0x2028, 0x2029]
  | .surrogate _ => false

/-- The character ends a line; a carriage return leaves this to a line feed behind it. -/
def EndsLine (c : CodePoint) (rest : Text) : Prop :=
  isBoundary c = true ∧ ¬(c = cr ∧ rest.head? = some lf)

instance decidableEndsLine (c : CodePoint) (rest : Text) : Decidable (EndsLine c rest) :=
  inferInstanceAs (Decidable (_ ∧ _))

/-- One more character on the first line. -/
def prepend (c : CodePoint) : List Text → List Text
  | [] => [[c]]
  | line :: lines => (c :: line) :: lines

/-- `text.splitlines(keepends=True)` -/
def splitlines : Text → List Text
  | [] => []
  | c :: rest =>
    if EndsLine c rest then [c] :: splitlines rest else prepend c (splitlines rest)

@[simp] theorem splitlines_nil : splitlines [] = [] := rfl

theorem flatten_prepend (c : CodePoint) (lines : List Text) :
    (prepend c lines).flatten = c :: lines.flatten := by
  cases lines <;> rfl

@[simp] theorem flatten_splitlines (text : Text) : (splitlines text).flatten = text := by
  induction text with
  | nil => rfl
  | cons c rest ih =>
    rw [splitlines]
    split_ifs
    · rw [List.flatten_cons, ih]
      rfl
    · rw [flatten_prepend, ih]

theorem splitlines_eq_nil : splitlines text = [] ↔ text = [] := by
  constructor
  · intro h
    rw [← flatten_splitlines text, h]
    rfl
  · rintro rfl
    rfl

theorem not_endsLine_of_not_boundary {c : CodePoint} (h : isBoundary c = false) :
    ¬EndsLine c rest := by
  simp [EndsLine, h]

/-- Text without a boundary stays on the first line of what follows it. -/
theorem splitlines_append_of_cons
    (h : ∀ c ∈ text, isBoundary c = false) (hrest : splitlines rest = line :: lines) :
    splitlines (text ++ rest) = (text ++ line) :: lines := by
  induction text with
  | nil => exact hrest
  | cons c text ih =>
    rw [List.forall_mem_cons] at h
    rw [List.cons_append, splitlines, if_neg (not_endsLine_of_not_boundary h.1), ih h.2]
    rfl

theorem splitlines_of_plain (hne : text ≠ [])
    (h : ∀ c ∈ text, isBoundary c = false) : splitlines text = [text] := by
  induction text with
  | nil => exact absurd rfl hne
  | cons c text ih =>
    rw [List.forall_mem_cons] at h
    rw [splitlines, if_neg (not_endsLine_of_not_boundary h.1)]
    by_cases htext : text = []
    · subst htext
      rfl
    · rw [ih htext h.2]
      rfl

theorem head?_replaced
    (h : splitlines text = before ++ after) (hhead : new.head? = after.flatten.head?) :
    (before.flatten ++ new).head? = text.head? := by
  rw [← flatten_splitlines text, h, List.flatten_append, List.head?_append, List.head?_append,
    hhead]

/-- What stands behind some lines can be replaced by a text that begins like it. -/
theorem splitlines_replace (h : splitlines text = before ++ after)
    (hafter : after ≠ []) (hhead : new.head? = after.flatten.head?) :
    splitlines (before.flatten ++ new) = before ++ splitlines new := by
  induction text generalizing before with
  | nil => exact absurd (List.append_eq_nil_iff.mp h.symm).2 hafter
  | cons c rest ih =>
    cases before with
    | nil => rfl
    | cons line before =>
      rw [splitlines] at h
      split_ifs at h with hends
      · simp only [List.cons_append, List.cons.injEq] at h
        obtain ⟨rfl, hrest⟩ := h
        have hends' : EndsLine c (before.flatten ++ new) := by
          rwa [EndsLine, head?_replaced hrest hhead]
        rw [List.flatten_cons, List.singleton_append, List.cons_append, splitlines,
          if_pos hends', ih hrest]
        rfl
      · cases hlines : splitlines rest with
        | nil =>
          simp only [hlines, prepend, List.cons_append, List.cons.injEq] at h
          exact absurd (List.append_eq_nil_iff.mp h.2.symm).2 hafter
        | cons first others =>
          simp only [hlines, prepend, List.cons_append, List.cons.injEq] at h
          obtain ⟨rfl, hothers⟩ := h
          have hrest : splitlines rest = (first :: before) ++ after := by
            rw [hlines, hothers]
            rfl
          have hends' : ¬EndsLine c ((first :: before).flatten ++ new) := by
            rwa [EndsLine, head?_replaced hrest hhead]
          have hbehind := ih hrest
          rw [List.flatten_cons] at hends' hbehind
          rw [List.flatten_cons, List.cons_append, List.cons_append, splitlines, if_neg hends',
            hbehind]
          rfl

/-- The lines behind some lines are those of the text that they make up. -/
theorem splitlines_flatten_of_append
    (h : splitlines text = before ++ after) : splitlines after.flatten = after := by
  by_cases hafter : after = []
  · subst hafter
    rfl
  · have htext : before.flatten ++ after.flatten = text := by
      rw [← List.flatten_append, ← h, flatten_splitlines]
    have hsplit := splitlines_replace h hafter rfl
    rw [htext, h] at hsplit
    exact (List.append_cancel_left hsplit).symm

/-- A line is text without boundaries and what ends it, which is missing only at the very end. -/
theorem exists_ending (h : splitlines text = line :: lines) :
    ∃ content ending, line = content ++ ending ∧ (∀ c ∈ content, isBoundary c = false) ∧
      (ending = [] ∧ lines = [] ∨
        ((∃ c, ending = [c] ∧ isBoundary c = true) ∨ ending = [cr, lf]) ∧
          splitlines (ending ++ lines.flatten) = ending :: lines) := by
  induction text generalizing line with
  | nil => cases h
  | cons c rest ih =>
    have hwhole := h
    rw [splitlines] at h
    split_ifs at h with hends
    · obtain ⟨rfl, rfl⟩ := List.cons.inj h
      refine ⟨[], [c], rfl, by simp, .inr ⟨.inl ⟨c, rfl, hends.1⟩, ?_⟩⟩
      rw [flatten_splitlines]
      exact hwhole
    · cases hlines : splitlines rest with
      | nil =>
        rw [hlines] at h
        obtain ⟨rfl, rfl⟩ := List.cons.inj h
        obtain rfl := splitlines_eq_nil.mp hlines
        have hplain : isBoundary c = false := by
          simpa [EndsLine] using hends
        exact ⟨[c], [], rfl, by simpa using hplain, .inl ⟨rfl, rfl⟩⟩
      | cons first others =>
        rw [hlines] at h
        obtain ⟨rfl, rfl⟩ := List.cons.inj h
        cases hboundary : isBoundary c with
        | false =>
          obtain ⟨content, ending, rfl, hcontent, hending⟩ := ih hlines
          refine ⟨c :: content, ending, rfl, ?_, hending⟩
          rw [List.forall_mem_cons]
          exact ⟨hboundary, hcontent⟩
        | true =>
          -- a carriage return before a line feed
          obtain ⟨rfl, hhead⟩ : c = cr ∧ rest.head? = some lf := by
            simpa [EndsLine, hboundary] using hends
          obtain ⟨tail, rfl⟩ : ∃ tail, rest = lf :: tail := by
            cases rest with
            | nil => cases hhead
            | cons d tail => exact ⟨tail, by simpa using hhead⟩
          have hfeed : EndsLine lf tail := ⟨by decide, fun h => lf_ne_cr h.1⟩
          rw [splitlines, if_pos hfeed] at hlines
          obtain ⟨rfl, rfl⟩ := List.cons.inj hlines
          refine ⟨[], [cr, lf], rfl, by simp, .inr ⟨.inr rfl, ?_⟩⟩
          rw [flatten_splitlines]
          exact hwhole

end IsadoraAir.Text
