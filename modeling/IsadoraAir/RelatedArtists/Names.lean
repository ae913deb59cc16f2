import IsadoraAir.Foundation.Keyed
import IsadoraAir.Foundation.Words
import IsadoraAir.Foundation.Pattern

/-!
# Names of related artists

`library/services/related_artists.py`: a stored list of names is split at its
commas, each part is cleaned, and a name is kept once, unless it is the primary
artist's. Names are compared by their case-folded form; `casefold` is
`str.casefold`, of which nothing is assumed.
-/

namespace IsadoraAir.RelatedArtists

open Text (collapse space strip SingleSpaced)

variable {names : List Text}

def comma : CodePoint := .scalar ','

def isQuote (c : CodePoint) : Bool := c ∈ codePoints "'\""

/-- The other characters that `_clean_name` strips. -/
def isDebris (c : CodePoint) : Bool := c ∈ codePoints " .,;:-_()[]\x7b\x7d"

/-- `_clean_name` -/
def cleanName (raw : Text) : Text :=
  if raw = [] then []
  else strip (trim isDebris (trim isQuote (strip (collapse raw))))

/-- `normalize_name`; nothing is the same as the empty name. -/
def normalizeName (casefold : Text → Text) (name : Text) : Text :=
  if name = [] then [] else casefold (strip (collapse name))

def primaryKey (casefold : Text → Text) (primaryArtistName : Option Text) : Text :=
  normalizeName casefold (primaryArtistName.getD [])

/-- The loop of `canonicalize_related_artists` over the parts. -/
def keepNames (casefold : Text → Text) (primary : Text) : List Text → List Text → List Text
  | _, [] => []
  | seen, part :: parts =>
    let name := cleanName part
    if name = [] then keepNames casefold primary seen parts
    else
      let key := normalizeName casefold name
      if key = [] ∨ key ∈ seen ∨ key = primary then keepNames casefold primary seen parts
      else name :: keepNames casefold primary (key :: seen) parts

/-- `(value or "").split(",")` -/
def nameParts (value : Option Text) : List Text := (value.getD []).splitOn comma

def canonicalizeRelatedArtists (casefold : Text → Text) (value : Option Text)
    (primaryArtistName : Option Text) : List Text :=
  keepNames casefold (primaryKey casefold primaryArtistName) [] (nameParts value)

def parseRelatedArtists (casefold : Text → Text) (value : Option Text) : List Text :=
  canonicalizeRelatedArtists casefold value none

/-- `", ".join(names)` -/
def formatRelatedArtists (names : List Text) : Text := [comma, space].intercalate names

/-- `track_identity_keys`, as the members of the set. -/
def trackIdentityKeys (casefold : Text → Text) (primaryArtistName relatedArtistsValue : Option Text) :
    List Text :=
  (primaryKey casefold primaryArtistName ::
    (parseRelatedArtists casefold relatedArtistsValue).map (normalizeName casefold)).filter
      fun key => key ≠ []

/-! ## Cleaned names -/

/-- What `_clean_name` returns: single spaces, and no space or debris at an end. -/
structure Cleaned (name : Text) : Prop where
  spaced : SingleSpaced name
  head : ∀ c ∈ name.head?, isDebris c = false
  last : ∀ c ∈ name.getLast?, isDebris c = false

variable {raw name : Text} {c : CodePoint}

theorem isDebris_space : isDebris space = true := by decide

theorem SingleSpaced.strip_eq (h : SingleSpaced name) (hhead : ∀ c ∈ name.head?, isDebris c = false)
    (hlast : ∀ c ∈ name.getLast?, isDebris c = false) : strip name = name := by
  have solid {c : CodePoint} (hc : c ∈ name) (hdebris : isDebris c = false) :
      Text.isSpace c = false := by
    by_contra hspace
    rw [h.spaces c hc (by simpa using hspace), isDebris_space] at hdebris
    cases hdebris
  refine Text.strip_eq_self (fun c hc => ?_) (fun c hc => ?_)
  · exact solid (List.mem_of_mem_head? hc) (hhead c hc)
  · exact solid (List.mem_of_getLast? hc) (hlast c hc)

theorem Cleaned.strip_eq (h : Cleaned name) : strip name = name :=
  SingleSpaced.strip_eq h.spaced h.head h.last

theorem cleaned_trim (h : SingleSpaced name) : Cleaned (trim isDebris name) :=
  ⟨h.part (trim_isInfix isDebris name), fun _ => head?_trim, fun _ => getLast?_trim⟩

/-- The part without its outer whitespace, in which whitespace is single spaces. -/
def core (raw : Text) : Text := strip (collapse raw)

theorem singleSpaced_core (raw : Text) : SingleSpaced (core raw) :=
  (Text.singleSpaced_collapse raw).part (trim_isInfix Text.isSpace (collapse raw))

/-- The last `strip` finds nothing to do. -/
theorem cleanName_eq (raw : Text) : cleanName raw = trim isDebris (trim isQuote (core raw)) := by
  by_cases hraw : raw = []
  · subst hraw
    decide
  · rw [cleanName, if_neg hraw]
    exact (cleaned_trim ((singleSpaced_core raw).part (trim_isInfix isQuote (core raw)))).strip_eq

theorem cleaned_cleanName (raw : Text) : Cleaned (cleanName raw) := by
  rw [cleanName_eq]
  exact cleaned_trim ((singleSpaced_core raw).part (trim_isInfix isQuote (core raw)))

theorem cleanName_isInfix (raw : Text) : cleanName raw <:+: collapse raw := by
  rw [cleanName_eq]
  exact (trim_isInfix isDebris _).trans ((trim_isInfix isQuote _).trans (trim_isInfix Text.isSpace _))

theorem comma_not_mem_cleanName (h : comma ∉ raw) : comma ∉ cleanName raw := by
  intro hmem
  rcases Text.mem_of_mem_collapse ((cleanName_isInfix raw).subset hmem) with hraw | hspace
  · exact h hraw
  · exact absurd hspace (by decide)

theorem cleanName_space (raw : Text) : cleanName (space :: raw) = cleanName raw := by
  rw [cleanName_eq, cleanName_eq, core, core, Text.strip_collapse_space]

/-- A name that begins or ends with a quote. -/
def Quoted (name : Text) : Prop :=
  (∃ c ∈ name.head?, isQuote c = true) ∨ ∃ c ∈ name.getLast?, isQuote c = true

theorem trim_isQuote_eq_self_iff : trim isQuote name = name ↔ ¬ Quoted name := by
  rw [trim_eq_self_iff, Quoted, not_or]
  simp

/-- A second pass changes a cleaned name exactly when it is quoted. -/
theorem Cleaned.cleanName_eq_self_iff (h : Cleaned name) : cleanName name = name ↔ ¬ Quoted name := by
  have hcore : core name = name := by rw [core, h.spaced.collapse_eq, h.strip_eq]
  rw [cleanName_eq, hcore, ← trim_isQuote_eq_self_iff]
  constructor
  · intro heq
    have hinfix := trim_isInfix isDebris (trim isQuote name)
    rw [heq] at hinfix
    exact ((trim_isInfix isQuote name).eq_of_length_le hinfix.length_le)
  · intro heq
    rw [heq, trim_eq_self_iff]
    exact ⟨h.head, h.last⟩

/-! ## Kept names -/

variable (casefold : Text → Text) (primary : Text)

/-- A name that may be kept: not blank, and not the primary artist's. -/
def admissible (name : Text) : Bool :=
  name ≠ [] ∧ normalizeName casefold name ≠ [] ∧ normalizeName casefold name ≠ primary

theorem keepNames_eq (seen parts : List Text) :
    keepNames casefold primary seen parts =
      firstSeen (normalizeName casefold) seen
        ((parts.map cleanName).filter (admissible casefold primary)) := by
  induction parts generalizing seen with
  | nil => rfl
  | cons part parts ih =>
    rw [keepNames, List.map_cons]
    dsimp only
    by_cases hname : cleanName part = []
    · rw [if_pos hname, List.filter_cons_of_neg (by simp [admissible, hname]), ih]
    · rw [if_neg hname]
      by_cases hadmissible : admissible casefold primary (cleanName part) = true
      · rw [List.filter_cons_of_pos hadmissible, firstSeen]
        simp only [admissible, decide_eq_true_eq] at hadmissible
        simp only [hadmissible.2.1, hadmissible.2.2, false_or, or_false]
        split_ifs
        · exact ih seen
        · rw [ih]
      · rw [List.filter_cons_of_neg hadmissible, if_pos, ih]
        simp only [admissible, hname, not_false_eq_true, ne_eq, true_and, decide_eq_true_eq,
          not_and_or, not_not] at hadmissible
        tauto

variable {casefold} {primaryArtistName value : Option Text}

theorem canonicalizeRelatedArtists_eq (casefold : Text → Text) (value primaryArtistName : Option Text) :
    canonicalizeRelatedArtists casefold value primaryArtistName =
      firstSeen (normalizeName casefold) [] (((nameParts value).map cleanName).filter
        (admissible casefold (primaryKey casefold primaryArtistName))) :=
  keepNames_eq casefold _ [] (nameParts value)

/-- What holds of a list of names that was read from the field. -/
structure Canonical (casefold : Text → Text) (primary : Text) (names : List Text) : Prop where
  cleaned : ∀ name ∈ names, Cleaned name
  plain : ∀ name ∈ names, comma ∉ name
  admitted : ∀ name ∈ names, admissible casefold primary name = true
  distinct : (names.map (normalizeName casefold)).Nodup

theorem comma_not_mem_nameParts {part : Text} (h : part ∈ nameParts value) : comma ∉ part :=
  Text.not_mem_of_mem_splitOn h

theorem canonical_canonicalize (casefold : Text → Text) (value primaryArtistName : Option Text) :
    Canonical casefold (primaryKey casefold primaryArtistName)
      (canonicalizeRelatedArtists casefold value primaryArtistName) := by
  rw [canonicalizeRelatedArtists_eq]
  have hmem {name : Text} (h : name ∈ firstSeen (normalizeName casefold) []
      (((nameParts value).map cleanName).filter
        (admissible casefold (primaryKey casefold primaryArtistName)))) :
      (∃ part ∈ nameParts value, cleanName part = name) ∧
        admissible casefold (primaryKey casefold primaryArtistName) name = true := by
    have hfilter := List.mem_filter.mp ((firstSeen_sublist (normalizeName casefold) [] _).subset h)
    exact ⟨List.mem_map.mp hfilter.1, hfilter.2⟩
  refine ⟨fun name h => ?_, fun name h => ?_, fun name h => (hmem h).2, nodup_firstSeen [] _⟩
  · obtain ⟨⟨part, -, rfl⟩, -⟩ := hmem h
    exact cleaned_cleanName part
  · obtain ⟨⟨part, hpart, rfl⟩, -⟩ := hmem h
    exact comma_not_mem_cleanName (comma_not_mem_nameParts hpart)

/-! ## The stored form -/

theorem formatRelatedArtists_cons (name : Text) (names : List Text) :
    formatRelatedArtists (name :: names) = name ++ names.flatMap fun n => comma :: space :: n := by
  induction names generalizing name with
  | nil => simp [formatRelatedArtists]
  | cons next names ih =>
    have hnext := ih next
    simp only [formatRelatedArtists] at hnext ⊢
    rw [List.intercalate_cons_cons, hnext]
    simp

theorem splitOn_flatMap (h : ∀ name ∈ names, comma ∉ name) {name : Text} (hname : comma ∉ name) :
    (name ++ names.flatMap fun n => comma :: space :: n).splitOn comma =
      name :: names.map (space :: ·) := by
  induction names generalizing name with
  | nil => simp [List.splitOn_eq_singleton hname]
  | cons next names ih =>
    have hnext : comma ∉ space :: next := by
      rw [List.mem_cons, not_or]
      exact ⟨by decide, h next List.mem_cons_self⟩
    have hrest := ih (fun n hn => h n (List.mem_cons_of_mem next hn)) hnext
    rw [List.flatMap_cons, List.cons_append, List.splitOn_append_cons_self_of_not_mem hname]
    rw [hrest, List.map_cons]

/-- What is read from a stored list of plain names is each of them, cleaned. -/
theorem canonicalize_format (h : ∀ name ∈ names, comma ∉ name) (primaryArtistName : Option Text) :
    canonicalizeRelatedArtists casefold (some (formatRelatedArtists names)) primaryArtistName =
      firstSeen (normalizeName casefold) [] ((names.map cleanName).filter
        (admissible casefold (primaryKey casefold primaryArtistName))) := by
  rw [canonicalizeRelatedArtists_eq]
  cases names with
  | nil =>
    have hparts : nameParts (some (formatRelatedArtists [])) = [[]] := List.splitOn_nil comma
    have hname : cleanName [] = [] := if_pos rfl
    have hblank (primary : Text) : ¬ admissible casefold primary [] = true := by simp [admissible]
    rw [hparts, List.map_singleton, hname, List.filter_cons_of_neg (hblank _)]
    rfl
  | cons name names =>
    have hsplit := splitOn_flatMap (fun n hn => h n (List.mem_cons_of_mem name hn))
      (h name List.mem_cons_self)
    simp only [nameParts, Option.getD_some, formatRelatedArtists_cons, hsplit, List.map_cons,
      List.map_map, Function.comp_def, cleanName_space]

/-- A canonical list is read back exactly when none of its names is quoted. -/
theorem Canonical.canonicalize_format_iff
    (h : Canonical casefold (primaryKey casefold primaryArtistName) names) :
    canonicalizeRelatedArtists casefold (some (formatRelatedArtists names)) primaryArtistName =
      names ↔ ∀ name ∈ names, ¬ Quoted name := by
  rw [canonicalize_format h.plain]
  constructor
  · intro heq
    have hsub := (firstSeen_sublist (normalizeName casefold) [] _).trans
      (List.filter_sublist (l := names.map cleanName)
        (p := admissible casefold (primaryKey casefold primaryArtistName)))
    rw [heq] at hsub
    have hmap : names = names.map cleanName := hsub.eq_of_length (by simp)
    intro name hname
    rw [← (h.cleaned name hname).cleanName_eq_self_iff]
    exact (List.map_eq_map_iff.mp (hmap.symm.trans (List.map_id names).symm)) name hname
  · intro hquoted
    have hmap : names.map cleanName = names := by
      conv_rhs => rw [← List.map_id names]
      exact List.map_congr_left fun name hname =>
        (h.cleaned name hname).cleanName_eq_self_iff.mpr (hquoted name hname)
    rw [hmap, List.filter_eq_self.mpr h.admitted]
    exact firstSeen_eq_self h.distinct fun _ _ => List.not_mem_nil

end IsadoraAir.RelatedArtists

/-!
## Credited artists

The names that the artist and title texts of a track credit. Letters are
matched without regard to case; `isWord` are the characters of `\w`.
-/

namespace IsadoraAir.RelatedArtists

open Text (isSpace lf)

/-! ### Patterns -/

/-- A letter under `re.IGNORECASE`; an `i` also matches without its dot or with one above. -/
def letter (a : Char) : Pattern :=
  .one fun c => c = .scalar a ∨ c = .scalar a.toUpper ∨
    a = 'i' ∧ (c = .scalar (Char.ofNat 0x130) ∨ c = .scalar (Char.ofNat 0x131))

def letters (word : String) : Pattern :=
  word.toList.foldr (fun a rest => .seq (letter a) rest) .empty

def oneOf (chars : String) : CodePoint → Bool := fun c => c ∈ codePoints chars

def isDash : CodePoint → Bool := oneOf "-–—"

/-- `\s*` -/
def blanks : Pattern := .many isSpace

/-- `\s+` -/
def blanks1 : Pattern := .some1 isSpace

/-- `[-–—]{1,2}` -/
def dashes : Pattern := .seq (.one isDash) (.opt (.one isDash))

def featMarker : Pattern :=
  .seq .boundary (.seq (.alt (letters "feat") (.alt (letters "ft") (letters "featuring")))
    (.seq .boundary (.seq (.opt (.one (oneOf "."))) blanks)))

def bracketGroup : Pattern :=
  .seq (.one (oneOf "([")) (.seq (.many fun c => !oneOf "()[]" c) (.one (oneOf ")]")))

/-- `.` -/
def isDot (c : CodePoint) : Bool := c ≠ lf

/-- `(.+)$` -/
def restOfLine : Pattern := .seq (.some1 isDot) .atEnd

/-- `\s*with\s+`, before the group. -/
def withBracketLead : Pattern := .seq blanks (.seq (letters "with") blanks1)

/-- `[-–—]{1,2}\s*with\s+`, before the group. -/
def withDashLead : Pattern := .seq dashes (.seq blanks (.seq (letters "with") blanks1))

def flatTailBoundary : Pattern :=
  .alt (.seq (.one isSpace) (.seq dashes (.one isSpace)))
    (.alt (.seq (.one isSpace) (.seq (.one (oneOf "/")) (.one isSpace)))
      (.one (oneOf "([)]\x7d")))

def multiSplit : Pattern :=
  .alt (.seq blanks (.seq (.one (oneOf ",&/")) blanks))
    (.alt (.seq blanks1 (.seq (letters "and") blanks1))
      (.seq blanks (.seq (.one (oneOf "+")) blanks)))

def bareConjunction : Pattern :=
  .alt (.seq blanks (.seq (.one (oneOf "&")) blanks))
    (.seq blanks1 (.seq (letters "and") blanks1))

theorem patterns_advance : featMarker.advances ∧ bracketGroup.advances ∧
    flatTailBoundary.advances ∧ multiSplit.advances ∧ bareConjunction.advances := by decide

/-! ### Extraction -/

section Extraction

variable (casefold : Text → Text) (isWord : CodePoint → Bool)

def splitMulti (tail : Text) : List Text :=
  ((multiSplit.split isWord tail).map cleanName).filter fun name => name ≠ []

/-- `_flat_tail` -/
def flatTail (text : Text) (start : ℕ) : Text :=
  match flatTailBoundary.search isWord (text.drop start) with
  | some found => (text.drop start).take found.1
  | none => text.drop start

def featCredits (text : Text) (isArtistField : Bool) : List Text :=
  (featMarker.findIter isWord text).flatMap fun found =>
    let leading := cleanName (text.take found.1)
    let credited := splitMulti isWord (flatTail isWord text found.2)
    if isArtistField ∧ leading ≠ [] then leading :: credited else credited

def withCredits (text : Text) : List Text :=
  match Pattern.searchGroup isWord withDashLead restOfLine text with
  | some found => splitMulti isWord (flatTail isWord text found.1)
  | none => []

def bracketGroupCredits (inner : Text) : List Text :=
  ((featMarker.findIter isWord inner).flatMap fun found => splitMulti isWord (inner.drop found.2)) ++
    match Pattern.matchGroup isWord withBracketLead restOfLine inner 0 with
    | some found => splitMulti isWord (Pattern.slice inner found.1 found.2)
    | none => []

def bareConjunctionCredits (text : Text) (known : List Text) : List Text :=
  if known = [] then []
  else
    match bareConjunction.search isWord text with
    | none => []
    | some found =>
      let left := cleanName (text.take found.1)
      let right := cleanName (text.drop found.2)
      if left = [] ∨ right = [] then []
      else if casefold left ∈ known ∧ casefold right ∈ known then [left, right]
      else []

/-- What one text of a track credits, before the names are compared. -/
def discover (text : Text) (isArtistField : Bool) (known : List Text) : List Text :=
  if text = [] then []
  else
    ((bracketGroup.findIter isWord text).flatMap fun found =>
        bracketGroupCredits isWord (Pattern.slice text (found.1 + 1) (found.2 - 1))) ++
      featCredits isWord text isArtistField ++ withCredits isWord text ++
      bareConjunctionCredits casefold isWord text known

/-- The last loop: one name for each key, and none for the primary artist's. -/
def dedupeNames (primary : Text) : List Text → List Text → List Text
  | _, [] => []
  | seen, name :: names =>
    let key := normalizeName casefold name
    if key = [] ∨ key = primary ∨ key ∈ seen then dedupeNames primary seen names
    else name :: dedupeNames primary (key :: seen) names

def extractCreditedArtists (artistText titleText primaryArtistName : Option Text)
    (known : List Text) : List Text :=
  dedupeNames casefold (primaryKey casefold primaryArtistName) []
    (discover casefold isWord (artistText.getD []) true known ++
      discover casefold isWord (titleText.getD []) false known)

end Extraction

/-! ### Commas -/

section Commas

variable {casefold : Text → Text} {isWord : CodePoint → Bool} {text name : Text}

end Commas

end IsadoraAir.RelatedArtists
