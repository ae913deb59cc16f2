import IsadoraAir.Foundation.TextLines
import Mathlib.Data.List.Chain

/-!
# Words of a text

`str.split()` without a separator, `" ".join` and `str.ljust`. Words that are
joined, and padded on the right, are the words of the line.
-/

namespace IsadoraAir.Text

def space : CodePoint := .scalar ' '

/-- `text.split()` -/
def words (text : Text) : List Text := (text.splitOnP isSpace).filter fun word => word ≠ []

/-- `" ".join(ws)` -/
def unwords (ws : List Text) : Text := [space].intercalate ws

/-- `text.ljust(width)` -/
def ljust (width : ℕ) (text : Text) : Text :=
  text ++ List.replicate (width - text.length) space

structure IsWord (word : Text) : Prop where
  ne_nil : word ≠ []
  solid : ∀ c ∈ word, isSpace c = false

variable {text word : Text} {ws : List Text} {width : ℕ}

theorem length_ljust (h : text.length ≤ width) : (ljust width text).length = width := by
  simp only [ljust, List.length_append, List.length_replicate]
  omega

theorem ljust_of_le (h : width ≤ text.length) : ljust width text = text := by
  simp [ljust, Nat.sub_eq_zero_of_le h]

theorem solid_of_mem_splitOnP (h : word ∈ text.splitOnP isSpace) :
    ∀ c ∈ word, isSpace c = false := by
  induction text generalizing word with
  | nil =>
    rw [List.splitOnP_nil, List.mem_singleton] at h
    simp [h]
  | cons d text ih =>
    rw [List.splitOnP_cons_eq_if_modifyHead] at h
    obtain ⟨first, rest, hsplit⟩ := List.exists_cons_of_ne_nil (List.splitOnP_ne_nil isSpace text)
    split_ifs at h with hd
    · rcases List.mem_cons.mp h with rfl | h
      · simp
      · exact ih h
    · rw [hsplit, List.modifyHead_cons] at h
      rcases List.mem_cons.mp h with rfl | h
      · intro c hc
        rcases List.mem_cons.mp hc with rfl | hc
        · simpa using hd
        · exact ih (by simp [hsplit]) c hc
      · exact ih (by simp [hsplit, h])

theorem isWord_of_mem_words (h : word ∈ words text) : IsWord word := by
  simp only [words, List.mem_filter, decide_eq_true_eq] at h
  exact ⟨h.2, solid_of_mem_splitOnP h.1⟩

@[simp] theorem unwords_singleton (word : Text) : unwords [word] = word := by
  simp [unwords]

theorem unwords_append_singleton (h : ws ≠ []) (word : Text) :
    unwords (ws ++ [word]) = unwords ws ++ space :: word := by
  induction ws with
  | nil => exact absurd rfl h
  | cons first rest ih =>
    cases rest with
    | nil => simp [unwords]
    | cons second rest =>
      have hrest := ih (List.cons_ne_nil second rest)
      simp only [unwords, List.cons_append, List.intercalate_cons_cons] at hrest ⊢
      rw [hrest]
      simp

theorem unwords_ne_nil (h : ws ≠ []) (hws : ∀ w ∈ ws, IsWord w) : unwords ws ≠ [] := by
  cases ws with
  | nil => exact absurd rfl h
  | cons first rest =>
    have hfirst := (hws first (by simp)).ne_nil
    cases rest with
    | nil => simpa using hfirst
    | cons second rest =>
      simp [unwords, List.intercalate_cons_cons, hfirst]

theorem words_blank {pad : Text} (hpad : ∀ c ∈ pad, isSpace c = true) : words pad = [] := by
  induction pad with
  | nil => simp [words]
  | cons c pad ih =>
    have hrest := ih fun d hd => hpad d (List.mem_cons_of_mem c hd)
    simp only [words] at hrest ⊢
    rw [List.splitOnP_cons_eq_if_modifyHead, if_pos (hpad c (by simp))]
    simpa using hrest

/-- A word, and then the words after a blank. -/
theorem words_word_append (hword : IsWord word) {rest : Text}
    (hrest : ∀ c ∈ rest.head?, isSpace c = true) : words (word ++ rest) = word :: words rest := by
  cases rest with
  | nil =>
    rw [List.append_nil, words, List.splitOnP_eq_singleton hword.solid]
    simp [words, hword.ne_nil]
  | cons c rest =>
    have hc : isSpace c = true := hrest c (by simp)
    rw [words, List.splitOnP_append_cons_of_forall_mem hword.solid c hc, words,
      List.splitOnP_cons_eq_if_modifyHead, if_pos hc]
    simp [hword.ne_nil]

/-- Joined words, padded with blanks. -/
theorem words_unwords_append (hws : ∀ w ∈ ws, IsWord w) {pad : Text}
    (hpad : ∀ c ∈ pad, isSpace c = true) : words (unwords ws ++ pad) = ws := by
  induction ws with
  | nil =>
    rw [show unwords [] = [] from rfl, List.nil_append]
    exact words_blank hpad
  | cons first rest ih =>
    have hfirst := hws first (by simp)
    have hrest := ih fun w hw => hws w (List.mem_cons_of_mem first hw)
    cases rest with
    | nil =>
      rw [unwords_singleton, words_word_append hfirst fun c hc => hpad c (List.mem_of_mem_head? hc),
        words_blank hpad]
    | cons second rest =>
      have hjoin : unwords (first :: second :: rest) ++ pad =
          first ++ space :: (unwords (second :: rest) ++ pad) := by
        simp [unwords, List.intercalate_cons_cons]
      have hblank (text : Text) : words (space :: text) = words text := by
        simp [words, List.splitOnP_cons_eq_if_modifyHead, show isSpace space = true from rfl]
      rw [hjoin, words_word_append hfirst (by simp [space, isSpace]), hblank, hrest]

theorem words_ljust_unwords (width : ℕ) (ws : List Text) (hws : ∀ w ∈ ws, IsWord w) :
    words (ljust width (unwords ws)) = ws := by
  refine words_unwords_append hws fun c hc => ?_
  rw [List.eq_of_mem_replicate hc]
  decide

end IsadoraAir.Text

/-!
## Collapsed whitespace

A run of whitespace is replaced by one space. A text in which whitespace is
single spaces stays so when it is cut, and its whitespace is no longer changed.
-/

namespace IsadoraAir

namespace Text

variable {text : Text}

/-- `re.sub(r"\s+", " ", text)` -/
def collapse : Text → Text
  | [] => []
  | c :: rest =>
    if isSpace c then
      if rest.head?.any isSpace then collapse rest else space :: collapse rest
    else c :: collapse rest

/-- Whitespace is single spaces. -/
structure SingleSpaced (text : Text) : Prop where
  spaces : ∀ c ∈ text, isSpace c = true → c = space
  apart : text.IsChain fun c d => ¬(isSpace c = true ∧ isSpace d = true)

theorem SingleSpaced.part {part : Text} (h : SingleSpaced text) (hpart : part <:+: text) :
    SingleSpaced part :=
  ⟨fun c hc => h.spaces c (hpart.subset hc), List.IsChain.infix h.apart hpart⟩

/-- A collapsed text begins with whitespace only where the text does. -/
theorem isSpace_head?_collapse {c : CodePoint} (h : c ∈ (collapse text).head?)
    (hc : isSpace c = true) : text.head?.any isSpace = true := by
  cases text with
  | nil => cases h
  | cons d rest =>
    by_cases hd : isSpace d = true
    · simp [hd]
    · simp only [collapse, hd, Bool.false_eq_true, ↓reduceIte, List.head?_cons,
        Option.mem_some] at h
      exact absurd (h ▸ hc) hd

theorem singleSpaced_collapse (text : Text) : SingleSpaced (collapse text) := by
  induction text with
  | nil => exact ⟨fun c hc => (List.not_mem_nil hc).elim, .nil⟩
  | cons c rest ih =>
    simp only [collapse]
    split_ifs with hc hnext
    · exact ih
    · refine ⟨fun d hd hspace => ?_, List.isChain_cons.mpr ⟨?_, ih.apart⟩⟩
      · rcases List.mem_cons.mp hd with rfl | hd
        · rfl
        · exact ih.spaces d hd hspace
      · rintro d hd ⟨-, hspace⟩
        exact hnext (isSpace_head?_collapse hd hspace)
    · refine ⟨fun d hd hspace => ?_, List.isChain_cons.mpr ⟨?_, ih.apart⟩⟩
      · rcases List.mem_cons.mp hd with rfl | hd
        · exact absurd hspace hc
        · exact ih.spaces d hd hspace
      · rintro d - ⟨hspace, -⟩
        exact hc hspace

theorem SingleSpaced.collapse_eq (h : SingleSpaced text) : collapse text = text := by
  induction text with
  | nil => rfl
  | cons c rest ih =>
    have hrest := ih (h.part (List.suffix_cons c rest).isInfix)
    simp only [collapse, hrest]
    split_ifs with hc hnext
    · obtain ⟨d, hd, hspace⟩ : ∃ d, rest.head? = some d ∧ isSpace d = true := by
        simpa [Option.any_eq_true] using hnext
      exact absurd ⟨hc, hspace⟩ ((List.isChain_cons.mp h.apart).1 d hd)
    · rw [h.spaces c List.mem_cons_self hc]
    · rfl

/-- A leading space stays out of sight of `strip`. -/
theorem strip_collapse_space (text : Text) :
    strip (collapse (space :: text)) = strip (collapse text) := by
  have hspace : isSpace space = true := by decide
  simp only [collapse, hspace, ↓reduceIte]
  split_ifs
  · rfl
  · exact trim_cons hspace (collapse text)

theorem mem_of_mem_collapse {c : CodePoint} (h : c ∈ collapse text) : c ∈ text ∨ c = space := by
  induction text with
  | nil => cases h
  | cons d rest ih =>
    simp only [collapse] at h
    split_ifs at h
    · exact (ih h).imp_left (List.mem_cons_of_mem d)
    · rcases List.mem_cons.mp h with rfl | h
      · exact .inr rfl
      · exact (ih h).imp_left (List.mem_cons_of_mem d)
    · rcases List.mem_cons.mp h with rfl | h
      · exact .inl List.mem_cons_self
      · exact (ih h).imp_left (List.mem_cons_of_mem d)

end Text

end IsadoraAir
