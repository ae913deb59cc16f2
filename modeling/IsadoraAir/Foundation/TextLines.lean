import Mathlib.Data.List.DropRight

/-!
# Text as lines

A text is read line by line, with the blanks at both ends of a line dropped.
-/

/-!
## Trimmed lists

`str.strip(chars)` on lists: the items at both ends that satisfy a predicate are
dropped. It does not matter which end comes first.
-/

namespace IsadoraAir

variable {α : Type*} {p : α → Bool} {xs : List α} {ys : List α} {x : α}

/-- The items between the first and the last that do not satisfy `p`. -/
def trim (p : α → Bool) (xs : List α) : List α := (xs.dropWhile p).rdropWhile p

theorem trim_isInfix (p : α → Bool) (xs : List α) : trim p xs <:+: xs :=
  (List.rdropWhile_prefix p _).isInfix.trans (List.dropWhile_suffix p).isInfix

theorem getLast?_rdropWhile (h : x ∈ (xs.rdropWhile p).getLast?) : p x = false := by
  have hne : xs.rdropWhile p ≠ [] := by
    rintro heq
    simp [heq] at h
  have hlast := List.rdropWhile_last_not p xs hne
  rw [List.getLast?_eq_some_getLast hne, Option.mem_some] at h
  subst h
  simpa using hlast

theorem head?_dropWhile (h : x ∈ (xs.dropWhile p).head?) : p x = false := by
  have hne : xs.dropWhile p ≠ [] := by
    rintro heq
    simp [heq] at h
  have hfirst := List.head_dropWhile_not p hne
  rw [List.head?_eq_some_head hne, Option.mem_some] at h
  subst h
  simpa using hfirst

theorem head?_of_isPrefix (h : xs <+: ys) (hx : x ∈ xs.head?) :
    x ∈ ys.head? := by
  obtain ⟨rest, rfl⟩ := h
  cases xs with
  | nil => cases hx
  | cons y xs => exact hx

theorem head?_trim (h : x ∈ (trim p xs).head?) : p x = false :=
  head?_dropWhile (head?_of_isPrefix (List.rdropWhile_prefix p _) h)

theorem getLast?_trim (h : x ∈ (trim p xs).getLast?) : p x = false := getLast?_rdropWhile h

/-- Nothing is trimmed exactly when both ends stay. -/
theorem trim_eq_self_iff :
    trim p xs = xs ↔ (∀ x ∈ xs.head?, p x = false) ∧ ∀ x ∈ xs.getLast?, p x = false := by
  constructor
  · intro h
    exact ⟨fun x hx => head?_trim (h.symm ▸ hx), fun x hx => getLast?_trim (h.symm ▸ hx)⟩
  · rintro ⟨hhead, hlast⟩
    have hdrop : xs.dropWhile p = xs := by
      cases xs with
      | nil => rfl
      | cons x xs => simp [List.dropWhile, hhead x rfl]
    rw [trim, hdrop, List.rdropWhile_eq_self_iff]
    intro hne
    simp [hlast _ (List.getLast?_eq_some_getLast hne)]

theorem trim_cons (hx : p x = true) (xs : List α) : trim p (x :: xs) = trim p xs := by
  simp [trim, hx]

theorem rdropWhile_cons (x : α) (xs : List α) :
    (x :: xs).rdropWhile p =
      if xs.rdropWhile p = [] then if p x then [] else [x] else x :: xs.rdropWhile p := by
  rw [List.rdropWhile, List.reverse_cons, List.dropWhile_append, List.rdropWhile]
  by_cases h : xs.reverse.dropWhile p = []
  · cases hx : p x <;> simp [h, hx]
  · simp [h]

/-- It does not matter which end is trimmed first. -/
theorem trim_eq (p : α → Bool) (xs : List α) : trim p xs = (xs.rdropWhile p).dropWhile p := by
  induction xs with
  | nil => rfl
  | cons x xs ih =>
    cases hx : p x with
    | true =>
      rw [trim_cons hx, ih, rdropWhile_cons]
      split_ifs with h
      · rw [h]
      · rw [List.dropWhile_cons_of_pos hx]
    | false =>
      have hfirst : (x :: xs).dropWhile p = x :: xs := by simp [hx]
      rw [trim, hfirst, rdropWhile_cons]
      split_ifs <;> simp [hx]

theorem trim_reverse (p : α → Bool) (xs : List α) : trim p xs.reverse = (trim p xs).reverse := by
  have hreverse : xs.reverse.dropWhile p = (xs.rdropWhile p).reverse := by simp [List.rdropWhile]
  rw [trim, hreverse, List.rdropWhile_reverse, trim_eq p xs]

theorem dropWhile_append_of_ne_nil (h : xs.dropWhile p ≠ []) :
    (xs ++ ys).dropWhile p = xs.dropWhile p ++ ys := by
  rw [List.dropWhile_append, if_neg (by simpa using h)]

variable {q : α → Bool}

/-- Two trims leave the item that two cuts on the left uncover. -/
theorem head?_trim_trim (h : trim q (trim p xs) ≠ []) :
    (trim q (trim p xs)).head? = ((xs.dropWhile p).dropWhile q).head? := by
  obtain ⟨rest, hrest⟩ := List.rdropWhile_prefix p (xs.dropWhile p)
  have hinner : (trim p xs).dropWhile q ≠ [] := by
    intro hnil
    exact h (by rw [trim, hnil]; rfl)
  obtain ⟨c, tail, hc⟩ := List.exists_cons_of_ne_nil h
  have houter : c ∈ ((trim p xs).dropWhile q).head? :=
    head?_of_isPrefix (List.rdropWhile_prefix q _) (by rw [← trim, hc]; rfl)
  have hdrop : (xs.dropWhile p).dropWhile q = (trim p xs).dropWhile q ++ rest := by
    rw [← dropWhile_append_of_ne_nil hinner]
    exact congrArg (List.dropWhile q) hrest.symm
  rw [hc, hdrop, List.head?_append, Option.mem_def.mp houter]
  rfl

theorem getLast?_trim_trim (h : trim q (trim p xs) ≠ []) :
    (trim q (trim p xs)).getLast? = ((xs.rdropWhile p).rdropWhile q).getLast? := by
  have hreverse : trim q (trim p xs.reverse) = (trim q (trim p xs)).reverse := by
    rw [trim_reverse, trim_reverse]
  rw [List.getLast?_eq_head?_reverse, ← hreverse, head?_trim_trim (by simpa [hreverse] using h)]
  simp [List.rdropWhile]

theorem rdropWhile_append (p : α → Bool) (xs ys : List α) :
    (xs ++ ys).rdropWhile p =
      if ys.rdropWhile p = [] then xs.rdropWhile p else xs ++ ys.rdropWhile p := by
  simp only [List.rdropWhile, List.reverse_append, List.dropWhile_append, List.isEmpty_iff,
    List.reverse_eq_nil_iff]
  split_ifs
  · rfl
  · rw [List.reverse_append, List.reverse_reverse]

end IsadoraAir

/-!
## Text files as lines

A string is the list of its code points, lone surrogates included, since only
those cannot be written as UTF-8. A file read in text mode is split into lines
by universal newlines: a line ends with a line feed, a carriage return or both.
The same text can be split at its line feeds alone. The lemmas here relate the
two and say when they agree.
-/

namespace IsadoraAir

variable {bytes : ByteArray} {c : CodePoint} {lines : List Text} {text : Text}

/-- A character of a string: a Unicode scalar value or a lone surrogate. -/
inductive CodePoint where
  | scalar (c : Char)
  | surrogate (low : Fin 2048)
  deriving DecidableEq

abbrev Text := List CodePoint

/-- Named, so that membership in a list of texts decides by the same term everywhere. -/
instance lawfulBEqText : LawfulBEq Text := inferInstance

def codePoints (s : String) : Text := s.toList.map .scalar

namespace Text

def lf : CodePoint := .scalar '\n'

def cr : CodePoint := .scalar '\r'

theorem lf_ne_cr : lf ≠ cr := by decide

/-! ### UTF-8 -/

def scalar? : CodePoint → Option Char
  | .scalar c => some c
  | .surrogate _ => none

/-- `bytes.decode("utf-8")`, strict. -/
def decode (bytes : ByteArray) : Option Text :=
  bytes.utf8Decode?.map fun chars => chars.toList.map .scalar

/-- `text.encode("utf-8")`, strict. -/
def encode (text : Text) : Option ByteArray :=
  (text.mapM scalar?).map fun chars => (String.ofList chars).toUTF8

theorem mapM_scalar?_eq_some :
    ∀ {chars : List Char}, text.mapM scalar? = some chars ↔ text = chars.map .scalar := by
  induction text with
  | nil =>
    intro chars
    cases chars <;> simp
  | cons c text ih =>
    intro chars
    cases c with
    | surrogate low => cases chars <;> simp [scalar?]
    | scalar c =>
      cases hrest : text.mapM scalar? with
      | none =>
        cases chars with
        | nil => simp [scalar?, hrest]
        | cons d chars =>
          have hne : ¬text = chars.map .scalar := fun heq => by simp [ih.mpr heq] at hrest
          simp [scalar?, hrest, hne]
      | some read =>
        cases chars with
        | nil => simp [scalar?, hrest]
        | cons d chars =>
          have hiff : read = chars ↔ text = chars.map .scalar := by
            rw [← ih, hrest, Option.some.injEq]
          simp [scalar?, hrest, hiff]

theorem encode_eq_some :
    encode text = some bytes ↔ ∃ chars : List Char, text = chars.map .scalar ∧
      chars.utf8Encode = bytes := by
  simp only [encode, Option.map_eq_some_iff, mapM_scalar?_eq_some]
  rfl

/-- Parts of a text are written one after the other. -/
theorem encode_append {first second : Text} :
    encode (first ++ second) = some bytes ↔
      ∃ x y, encode first = some x ∧ encode second = some y ∧ x ++ y = bytes := by
  simp only [encode_eq_some]
  constructor
  · rintro ⟨chars, hchars, rfl⟩
    obtain ⟨front, back, rfl, hfront, hback⟩ := List.map_eq_append_iff.mp hchars.symm
    exact ⟨_, _, ⟨front, hfront.symm, rfl⟩, ⟨back, hback.symm, rfl⟩, List.utf8Encode_append.symm⟩
  · rintro ⟨x, y, ⟨front, rfl, rfl⟩, ⟨back, rfl, rfl⟩, rfl⟩
    exact ⟨front ++ back, List.map_append.symm, List.utf8Encode_append⟩

theorem encode_of_decode (h : decode bytes = some text) : encode text = some bytes := by
  obtain ⟨chars, hchars, rfl⟩ := Option.map_eq_some_iff.mp h
  obtain ⟨scalars, rfl⟩ := ByteArray.isSome_utf8Decode?_iff.mp (Option.isSome_of_eq_some hchars)
  rw [List.utf8Decode?_utf8Encode, Option.some.injEq] at hchars
  rw [← hchars]
  exact encode_eq_some.mpr ⟨scalars, rfl, rfl⟩

theorem decode_of_encode (h : encode text = some bytes) : decode bytes = some text := by
  obtain ⟨chars, hchars, rfl⟩ := Option.map_eq_some_iff.mp h
  simp [decode, String.toUTF8, List.utf8Decode?_utf8Encode, mapM_scalar?_eq_some.mp hchars]

/-! ### Whitespace -/

/-- `str.isspace` of one character. -/
def isSpace : CodePoint → Bool
  | .scalar c =>
      let n := c.toNat
      (9 ≤ n && n ≤ 13) || (28 ≤ n && n ≤ 32) || n = 0x85 || n = 0xA0 || n = 0x1680 ||
        (0x2000 ≤ n && n ≤ 0x200A) || n = 0x2028 || n = 0x2029 || n = 0x202F || n = 0x205F ||
        n = 0x3000
  | .surrogate _ => false

/-- `text.strip()` -/
def strip (text : Text) : Text := (text.dropWhile isSpace).rdropWhile isSpace

@[simp] theorem strip_nil : strip [] = [] := rfl

/-- A text is its own stripped form exactly when neither end is whitespace. -/
theorem strip_eq_self (hhead : ∀ c ∈ text.head?, isSpace c = false)
    (hlast : ∀ c ∈ text.getLast?, isSpace c = false) : strip text = text :=
  trim_eq_self_iff.mpr ⟨hhead, hlast⟩

theorem head?_strip (h : c ∈ (strip text).head?) : isSpace c = false := head?_trim h

theorem getLast?_strip (h : c ∈ (strip text).getLast?) : isSpace c = false := getLast?_trim h

/-! ### Universal newlines -/

inductive Ending where
  | absent
  | lf
  | cr
  | crlf
  deriving DecidableEq

/-- What text mode turns the end of a line into. -/
def Ending.translated : Ending → Ending
  | .absent => .absent
  | _ => .lf

structure Line where
  text : Text
  ending : Ending
  deriving DecidableEq

/-- One more character before the first line. -/
def extend (c : CodePoint) : List Line → List Line
  | [] => [⟨[c], .absent⟩]
  | line :: lines => ⟨c :: line.text, line.ending⟩ :: lines

/-- The lines of a text, each with the end it has in the file. -/
def universalLines : Text → List Line
  | [] => []
  | c :: rest =>
      if c = lf then ⟨[], .lf⟩ :: universalLines rest
      else if c = cr then
        if rest.head? = some lf then ⟨[], .crlf⟩ :: (universalLines rest).tail
        else ⟨[], .cr⟩ :: universalLines rest
      else extend c (universalLines rest)

/-- What reading in text mode makes of the characters of a file. -/
def translate : Text → Text
  | [] => []
  | c :: rest =>
      if c = cr then
        if rest.head? = some lf then translate rest else lf :: translate rest
      else c :: translate rest

theorem universalLines_lf (rest : Text) :
    universalLines (lf :: rest) = ⟨[], .lf⟩ :: universalLines rest := by
  simp [universalLines]

theorem universalLines_cons (rest : Text) (hlf : c ≠ lf) (hcr : c ≠ cr) :
    universalLines (c :: rest) = extend c (universalLines rest) := by
  simp [universalLines, hlf, hcr]

theorem universalLines_eq_nil_iff : universalLines text = [] ↔ text = [] := by
  cases text with
  | nil => simp [universalLines]
  | cons c rest =>
    cases h : universalLines rest <;> simp only [universalLines, h, extend] <;> split_ifs <;> simp

/-- Text mode changes the ends of the lines and nothing else. -/
theorem universalLines_translate (text : Text) :
    universalLines (translate text) =
      (universalLines text).map fun line => ⟨line.text, line.ending.translated⟩ := by
  induction text with
  | nil => rfl
  | cons c rest ih =>
    by_cases hcr : c = cr
    · subst hcr
      by_cases hhead : rest.head? = some lf
      · obtain ⟨tail, rfl⟩ : ∃ tail, rest = lf :: tail := by
          cases rest with
          | nil => simp at hhead
          | cons d tail => exact ⟨tail, by simpa using hhead⟩
        rw [translate, if_pos rfl, if_pos hhead, ih, universalLines_lf]
        simp [universalLines, lf_ne_cr.symm, Ending.translated]
      · simp only [translate, hhead, ↓reduceIte, universalLines, lf_ne_cr.symm, ih]
        rfl
    · by_cases hlf : c = lf
      · subst hlf
        simp only [translate, hcr, ↓reduceIte, universalLines, ih]
        rfl
      · rw [translate, if_neg hcr, universalLines_cons _ hlf hcr, universalLines_cons _ hlf hcr, ih]
        cases universalLines rest <;> rfl

theorem cr_not_mem_translate (text : Text) : cr ∉ translate text := by
  induction text with
  | nil => simp [translate]
  | cons c rest ih =>
    simp only [translate]
    split_ifs with hcr hhead
    · exact ih
    · simp [ih, lf_ne_cr.symm]
    · simp [ih, Ne.symm hcr]

theorem translate_eq_self (h : cr ∉ text) : translate text = text := by
  induction text with
  | nil => rfl
  | cons c rest ih =>
    simp only [List.mem_cons, not_or] at h
    simp [translate, Ne.symm h.1, ih h.2]

/-- A line feed always ends a line, so the text splits there. -/
theorem universalLines_append_lf (before after : Text) :
    universalLines (before ++ lf :: after) =
      universalLines (before ++ [lf]) ++ universalLines after := by
  induction before with
  | nil => simp [universalLines]
  | cons c before ih =>
    have hne : universalLines (before ++ [lf]) ≠ [] := by
      simp [universalLines_eq_nil_iff]
    obtain ⟨line, lines, hlines⟩ := List.exists_cons_of_ne_nil hne
    have hhead : (before ++ lf :: after).head? = (before ++ [lf]).head? := by
      cases before <;> rfl
    simp only [List.cons_append, universalLines, ih, hhead, hlines, extend, List.tail_cons]
    split_ifs <;> rfl

/-- Before a line feed the lines of a text are those it has by itself. -/
theorem map_text_universalLines_append_lf (h : text ≠ []) (hlf : lf ∉ text) :
    (universalLines (text ++ [lf])).map Line.text = (universalLines text).map Line.text := by
  induction text with
  | nil => exact absurd rfl h
  | cons c rest ih =>
    simp only [List.mem_cons, not_or] at hlf
    by_cases hrest : rest = []
    · subst hrest
      by_cases hcr : c = cr <;> simp [universalLines, Ne.symm hlf.1, hcr, lf_ne_cr.symm, extend]
    · have ih := ih hrest hlf.2
      have hhead : (rest ++ [lf]).head? = rest.head? := by
        cases rest with
        | nil => exact absurd rfl hrest
        | cons d tail => rfl
      simp only [List.cons_append, universalLines, hhead]
      split_ifs
      · simp [ih]
      · simp [List.map_tail, ih]
      · simp [ih]
      · cases hlong : universalLines (rest ++ [lf]) <;> cases hshort : universalLines rest <;>
          simp_all [extend]

theorem universalLines_of_not_mem (hlf : lf ∉ text) (hcr : cr ∉ text) :
    universalLines text = if text = [] then [] else [⟨text, .absent⟩] := by
  induction text with
  | nil => rfl
  | cons c rest ih =>
    simp only [List.mem_cons, not_or] at hlf hcr
    rw [universalLines_cons _ (Ne.symm hlf.1) (Ne.symm hcr.1), ih hlf.2 hcr.2]
    by_cases h : rest = [] <;> simp [h, extend]

theorem universalLines_append_lf_of_not_mem (hlf : lf ∉ text) (hcr : cr ∉ text) :
    universalLines (text ++ [lf]) = [⟨text, .lf⟩] := by
  induction text with
  | nil => decide
  | cons c rest ih =>
    simp only [List.mem_cons, not_or] at hlf hcr
    rw [List.cons_append, universalLines_cons _ (Ne.symm hlf.1) (Ne.symm hcr.1), ih hlf.2 hcr.2]
    rfl

/-! ### Lines between line feeds -/

/-- `body.split("\n")` of a text less its last line feed; an empty text has no line. -/
def feedLines (text : Text) : List Text :=
  if text = [] then []
  else (if text.getLast? = some lf then text.dropLast else text).splitOn lf

/-- Every line followed by a line feed. -/
def joinLines (lines : List Text) : Text := lines.flatMap (· ++ [lf])

@[simp] theorem joinLines_nil : joinLines [] = [] := rfl

@[simp] theorem joinLines_cons (line : Text) (lines : List Text) :
    joinLines (line :: lines) = line ++ lf :: joinLines lines := by
  simp [joinLines]

@[simp] theorem joinLines_append (before after : List Text) :
    joinLines (before ++ after) = joinLines before ++ joinLines after := by
  simp [joinLines]

theorem intercalate_append_lf (h : lines ≠ []) :
    [lf].intercalate lines ++ [lf] = joinLines lines := by
  induction lines with
  | nil => exact absurd rfl h
  | cons line lines ih =>
    cases lines with
    | nil => simp [List.intercalate]
    | cons next lines =>
      rw [List.intercalate_cons_cons, List.append_assoc, List.append_assoc, ih (by simp)]
      simp

theorem not_mem_of_mem_splitOn {sep : CodePoint} {part : Text}
    (h : part ∈ text.splitOn sep) : sep ∉ part := by
  induction text generalizing part with
  | nil => simp_all [List.splitOn_nil]
  | cons c rest ih =>
    rw [List.splitOn_cons_eq_if_modifyHead] at h
    obtain ⟨first, more, hsplit⟩ := List.exists_cons_of_ne_nil (List.splitOn_ne_nil sep rest)
    have hfirst : sep ∉ first := ih (by simp [hsplit])
    split_ifs at h with hc
    · rcases List.mem_cons.mp h with rfl | hmem
      · simp
      · exact ih hmem
    · rw [hsplit, List.modifyHead_cons] at h
      rcases List.mem_cons.mp h with rfl | hmem
      · simp only [beq_iff_eq] at hc
        simp [hfirst, Ne.symm hc]
      · exact ih (by simp [hsplit, hmem])

theorem lf_not_mem_feedLines {line : Text} (h : line ∈ feedLines text) : lf ∉ line := by
  unfold feedLines at h
  split_ifs at h with hnil
  · simp at h
  all_goals exact not_mem_of_mem_splitOn h

/-- A text that ends with a line feed is its lines, each followed by one. -/
theorem joinLines_feedLines (h : text.getLast? = some lf) : joinLines (feedLines text) = text := by
  have hne : text ≠ [] := by
    rintro rfl
    simp at h
  rw [feedLines, if_neg hne, if_pos h, ← intercalate_append_lf (List.splitOn_ne_nil _ _),
    List.intercalate_splitOn]
  rw [List.getLast?_eq_some_getLast hne, Option.some.injEq] at h
  rw [← h, List.dropLast_append_getLast hne]

/-- Any other text is lines followed by a line feed and a last one without. -/
theorem exists_last_feedLines (hne : text ≠ []) (h : text.getLast? ≠ some lf) :
    ∃ lines last, feedLines text = lines ++ [last] ∧ last ≠ [] ∧
      text = joinLines lines ++ last := by
  have hfeed : feedLines text = text.splitOn lf := by
    rw [feedLines, if_neg hne, if_neg h]
  obtain ⟨lines, last, hlines⟩ : ∃ lines last, feedLines text = lines ++ [last] := by
    have hsplit := List.splitOn_ne_nil lf text
    rw [← hfeed] at hsplit
    exact ⟨_, _, (List.dropLast_append_getLast hsplit).symm⟩
  have htext : text ++ [lf] = joinLines lines ++ (last ++ [lf]) := by
    have hsplit : [lf].intercalate (text.splitOn lf) = text := List.intercalate_splitOn lf
    rw [← hsplit, intercalate_append_lf (List.splitOn_ne_nil _ _), ← hfeed, hlines]
    simp
  rw [← List.append_assoc, List.append_left_inj] at htext
  refine ⟨lines, last, hlines, ?_, htext⟩
  rintro rfl
  rw [List.append_nil] at htext
  rcases List.eq_nil_or_concat lines with rfl | ⟨init, line, rfl⟩
  · exact hne htext
  · exact h (by simp [htext])

/-- Lines without a line feed, each followed by one, are read back. -/
theorem feedLines_joinLines (h : ∀ line ∈ lines, lf ∉ line) :
    feedLines (joinLines lines) = lines := by
  by_cases hne : lines = []
  · subst hne
    rfl
  · rw [← intercalate_append_lf hne, feedLines, if_neg (by simp), if_pos (by simp),
      List.dropLast_concat, List.splitOn_intercalate lf h hne]

theorem feedLines_append_last {last : Text}
    (h : ∀ line ∈ lines, lf ∉ line) (hlast : lf ∉ last) (hne : last ≠ []) :
    feedLines (joinLines lines ++ last) = lines ++ [last] := by
  have hend : (joinLines lines ++ last).getLast? ≠ some lf := by
    rw [List.getLast?_append_of_ne_nil _ hne]
    exact fun hend => hlast (List.mem_of_getLast? hend)
  have hjoin : joinLines lines ++ last = [lf].intercalate (lines ++ [last]) := by
    rw [← List.append_left_inj [lf], intercalate_append_lf (by simp)]
    simp
  have hall : ∀ line ∈ lines ++ [last], lf ∉ line := by
    simpa [or_imp, forall_and] using ⟨h, hlast⟩
  rw [feedLines, if_neg (by simp [hne]), if_neg hend, hjoin,
    List.splitOn_intercalate lf hall (by simp)]

theorem universalLines_joinLines_append (lines : List Text) (rest : Text) :
    universalLines (joinLines lines ++ rest) =
      lines.flatMap (fun line => universalLines (line ++ [lf])) ++ universalLines rest := by
  induction lines with
  | nil => rfl
  | cons line lines ih =>
    rw [joinLines_cons, List.append_assoc, List.cons_append, universalLines_append_lf, ih]
    simp

theorem universalLines_joinLines (lines : List Text) :
    universalLines (joinLines lines) =
      lines.flatMap fun line => universalLines (line ++ [lf]) := by
  simpa [universalLines] using universalLines_joinLines_append lines []

/-- Lines with neither line feed nor carriage return are read as themselves. -/
theorem universalLines_joinLines_of_not_mem (h : ∀ line ∈ lines, lf ∉ line ∧ cr ∉ line) :
    universalLines (joinLines lines) = lines.map fun line => ⟨line, .lf⟩ := by
  induction lines with
  | nil => rfl
  | cons line lines ih =>
    simp only [List.mem_cons, forall_eq_or_imp] at h
    rw [joinLines_cons, universalLines_append_lf, ih h.2,
      universalLines_append_lf_of_not_mem h.1.1 h.1.2]
    rfl

theorem mem_of_mem_feedLines {line : Text} (h : line ∈ feedLines text)
    (hc : c ∈ line) : c ∈ text := by
  by_cases hne : text = []
  · simp [feedLines, hne] at h
  · have hjoin : c ∈ joinLines (feedLines text) := by
      rw [joinLines, List.mem_flatMap]
      exact ⟨line, h, by simp [hc]⟩
    by_cases hend : text.getLast? = some lf
    · rwa [joinLines_feedLines hend] at hjoin
    · obtain ⟨lines, last, hlines, -, htext⟩ := exists_last_feedLines hne hend
      have hclf : c ≠ lf := by
        rintro rfl
        exact lf_not_mem_feedLines h hc
      rw [hlines] at hjoin
      rw [htext]
      simpa [hclf] using hjoin

/-- Without carriage returns the two ways of splitting agree. -/
theorem map_text_universalLines (h : cr ∉ text) :
    (universalLines text).map Line.text = feedLines text := by
  by_cases hne : text = []
  · simp [hne, universalLines, feedLines]
  · have hplain : ∀ line ∈ feedLines text, lf ∉ line ∧ cr ∉ line := fun line hline =>
      ⟨lf_not_mem_feedLines hline, fun hcr => h (mem_of_mem_feedLines hline hcr)⟩
    by_cases hend : text.getLast? = some lf
    · conv_lhs => rw [← joinLines_feedLines hend]
      simp [universalLines_joinLines_of_not_mem hplain, Function.comp_def]
    · obtain ⟨lines, last, hlines, hlast, htext⟩ := exists_last_feedLines hne hend
      rw [hlines] at hplain ⊢
      simp only [List.mem_append, List.mem_singleton, or_imp, forall_and, forall_eq] at hplain
      rw [htext, universalLines_joinLines_append, ← universalLines_joinLines,
        universalLines_joinLines_of_not_mem fun line hline =>
          ⟨hplain.1.1 line hline, hplain.2.1 line hline⟩,
        universalLines_of_not_mem hplain.1.2 hplain.2.2]
      simp [hlast, Function.comp_def]

end Text

end IsadoraAir
