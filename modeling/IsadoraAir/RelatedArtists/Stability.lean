import IsadoraAir.RelatedArtists.Merging

/-!
# Merging twice

A second merge of the same discoveries changes nothing where the stored list is
read back as it was put together.
-/

namespace IsadoraAir.RelatedArtists

variable {casefold : Text → Text} {primary : Text} {maxLength : ℕ} {names discovered : List Text}
  {existingValue primaryArtistName : Option Text}

/-- The stored value, read and merged once more. -/
structure Stable (casefold : Text → Text) (existingValue : Option Text) (discovered : List Text)
    (primaryArtistName : Option Text) (maxLength : ℕ) : Prop where
  again : mergeRelatedArtists casefold
      (some (mergeRelatedArtists casefold existingValue discovered primaryArtistName maxLength))
      discovered primaryArtistName maxLength =
    mergeRelatedArtists casefold existingValue discovered primaryArtistName maxLength
  parsed : parseRelatedArtists casefold
      (some (mergeRelatedArtists casefold existingValue discovered primaryArtistName maxLength)) =
    canonicalizeRelatedArtists casefold existingValue primaryArtistName ++
      (mergeRelatedArtistsDetailed casefold existingValue discovered primaryArtistName
        maxLength).appended
  distinct : ((parseRelatedArtists casefold
    (some (mergeRelatedArtists casefold existingValue discovered primaryArtistName
      maxLength))).map (normalizeName casefold)).Nodup

/-- The existing names fit and hide no quote, and nor does a name that is
appended, which has no comma either. -/
structure Mergeable (casefold : Text → Text) (existingValue : Option Text)
    (discovered : List Text) (primaryArtistName : Option Text) (maxLength : ℕ) : Prop where
  fits : (formatRelatedArtists
    (canonicalizeRelatedArtists casefold existingValue primaryArtistName)).length ≤ maxLength
  existing : ∀ before part after, nameParts existingValue = before ++ part :: after →
    Kept casefold (primaryKey casefold primaryArtistName) before part → ¬ Nested part
  appended : ∀ before raw after, discovered = before ++ raw :: after →
    Accepted casefold (primaryKey casefold primaryArtistName) maxLength
      (existingNames casefold existingValue primaryArtistName maxLength) before raw →
    comma ∉ cleanName raw ∧ ¬ Nested raw

theorem Accepted.ne_nil {existing before : List Text} {raw : Text}
    (h : Accepted casefold primary maxLength existing before raw) : cleanName raw ≠ [] := by
  intro hnil
  apply h
  left
  rw [hnil, normalizeName_nil]

/-- The list that is stored, before it is joined. -/
theorem detailed_names (casefold : Text → Text) (existingValue : Option Text)
    (discovered : List Text) (primaryArtistName : Option Text) (maxLength : ℕ) :
    (mergeRelatedArtistsDetailed casefold existingValue discovered primaryArtistName
      maxLength).names = existingNames casefold existingValue primaryArtistName maxLength ++
        (mergeRelatedArtistsDetailed casefold existingValue discovered primaryArtistName
          maxLength).appended :=
  mergeNames_names _ _ _

theorem listed_detailed (casefold : Text → Text) (existingValue : Option Text)
    (discovered : List Text) (primaryArtistName : Option Text) (maxLength : ℕ) :
    Listed casefold (primaryKey casefold primaryArtistName)
      (mergeRelatedArtistsDetailed casefold existingValue discovered primaryArtistName
        maxLength).names := by
  refine listed_mergeNames ?_ (seenIs_map _)
  exact (canonical_canonicalize casefold existingValue primaryArtistName).listed.front
    (clipToLength_isPrefix _ _)

theorem plain_existingNames (casefold : Text → Text) (existingValue primaryArtistName : Option Text)
    (maxLength : ℕ) : ∀ name ∈ existingNames casefold existingValue primaryArtistName maxLength,
      comma ∉ name := fun name hname =>
  (canonical_canonicalize casefold existingValue primaryArtistName).plain name
    ((clipToLength_isPrefix _ _).subset hname)

theorem Listed.canonical (h : Listed casefold primary names) (hplain : ∀ name ∈ names, comma ∉ name) :
    Canonical casefold primary names :=
  ⟨h.cleaned, hplain, h.admitted, h.distinct⟩

/-- What is read back has no comma in a name, so nothing with a comma was stored,
and no more names than were stored, so none was clipped. -/
theorem eq_of_parsed (h : parseRelatedArtists casefold
      (some (mergeRelatedArtists casefold existingValue discovered primaryArtistName maxLength)) =
    canonicalizeRelatedArtists casefold existingValue primaryArtistName ++
      (mergeRelatedArtistsDetailed casefold existingValue discovered primaryArtistName
        maxLength).appended) :
    (∀ name ∈ (mergeRelatedArtistsDetailed casefold existingValue discovered primaryArtistName
      maxLength).names, comma ∉ name) ∧
    existingNames casefold existingValue primaryArtistName maxLength =
      canonicalizeRelatedArtists casefold existingValue primaryArtistName := by
  have hplain : ∀ name ∈ (mergeRelatedArtistsDetailed casefold existingValue discovered
      primaryArtistName maxLength).names, comma ∉ name := by
    intro name hname
    rw [detailed_names] at hname
    rcases List.mem_append.mp hname with hname | hname
    · exact plain_existingNames casefold existingValue primaryArtistName maxLength name hname
    · have hread : name ∈ parseRelatedArtists casefold (some (mergeRelatedArtists casefold
          existingValue discovered primaryArtistName maxLength)) := by
        rw [h]
        exact List.mem_append_right _ hname
      exact (canonical_canonicalize casefold _ none).plain name hread
  refine ⟨hplain, (clipToLength_isPrefix _ _).eq_of_length_le ?_⟩
  have hlength := congrArg List.length h
  rw [parseRelatedArtists, mergeRelatedArtists, canonicalize_format hplain,
    List.length_append] at hlength
  have hread := ((firstSeen_sublist (normalizeName casefold) [] _).trans
    (List.filter_sublist (l := (mergeRelatedArtistsDetailed casefold existingValue discovered
      primaryArtistName maxLength).names.map cleanName)
      (p := admissible casefold (primaryKey casefold none)))).length_le
  rw [hlength, List.length_map, detailed_names, List.length_append] at hread
  exact Nat.le_of_add_le_add_right hread

/-- A stored list of plain names is read back exactly when none of them is quoted. -/
theorem parse_format_iff (hplain : ∀ name ∈ (mergeRelatedArtistsDetailed casefold existingValue
      discovered primaryArtistName maxLength).names, comma ∉ name) :
    parseRelatedArtists casefold (some (mergeRelatedArtists casefold existingValue discovered
        primaryArtistName maxLength)) =
      (mergeRelatedArtistsDetailed casefold existingValue discovered primaryArtistName
        maxLength).names ↔
    ∀ name ∈ (mergeRelatedArtistsDetailed casefold existingValue discovered primaryArtistName
      maxLength).names, ¬ Quoted name :=
  ((listed_detailed casefold existingValue discovered primaryArtistName
    maxLength).canonical hplain).without_primary.canonicalize_format_iff

/-- Read back as it was stored, the list is merged to itself. -/
theorem again_of_unquoted (hplain : ∀ name ∈ (mergeRelatedArtistsDetailed casefold existingValue
      discovered primaryArtistName maxLength).names, comma ∉ name)
    (hquoted : ∀ name ∈ (mergeRelatedArtistsDetailed casefold existingValue discovered
      primaryArtistName maxLength).names, ¬ Quoted name) :
    mergeRelatedArtists casefold
        (some (mergeRelatedArtists casefold existingValue discovered primaryArtistName maxLength))
        discovered primaryArtistName maxLength =
      mergeRelatedArtists casefold existingValue discovered primaryArtistName maxLength := by
  have hcanonical := (listed_detailed casefold existingValue discovered primaryArtistName
    maxLength).canonical hplain
  have hread := hcanonical.canonicalize_format_iff.mpr hquoted
  have hfits : (formatRelatedArtists (mergeRelatedArtistsDetailed casefold existingValue discovered
      primaryArtistName maxLength).names).length ≤ maxLength :=
    length_format_mergeNames (length_format_clipToLength _ _)
  have hexisting : existingNames casefold (some (mergeRelatedArtists casefold existingValue
      discovered primaryArtistName maxLength)) primaryArtistName maxLength =
      (mergeRelatedArtistsDetailed casefold existingValue discovered primaryArtistName
        maxLength).names := by
    rw [existingNames, mergeRelatedArtists, hread]
    exact clipToLength_eq_self_iff.mpr hfits
  conv_lhs => rw [mergeRelatedArtists, mergeRelatedArtistsDetailed]
  rw [hexisting, mergeRelatedArtists]
  refine congrArg formatRelatedArtists (mergeNames_of_passed (seenIs_map _) fun raw hraw => ?_)
  exact passed_mergeNames (seenIs_map _) hraw

theorem mem_detailed_appended {name : Text} :
    name ∈ (mergeRelatedArtistsDetailed casefold existingValue discovered primaryArtistName
        maxLength).appended ↔
      ∃ before raw after, discovered = before ++ raw :: after ∧ cleanName raw = name ∧
        Accepted casefold (primaryKey casefold primaryArtistName) maxLength
          (existingNames casefold existingValue primaryArtistName maxLength) before raw :=
  mem_appended_iff (seenIs_map _)

theorem Stable.mergeable
    (h : Stable casefold existingValue discovered primaryArtistName maxLength) :
    Mergeable casefold existingValue discovered primaryArtistName maxLength := by
  obtain ⟨hplain, hexisting⟩ := eq_of_parsed h.parsed
  have hnames := detailed_names casefold existingValue discovered primaryArtistName maxLength
  have hread := h.parsed
  rw [← hexisting, ← hnames, parse_format_iff hplain] at hread
  refine ⟨clipToLength_eq_self_iff.mp hexisting, ?_, ?_⟩
  · intro before part after hparts hkept
    rw [← quoted_cleanName_iff hkept.ne_nil]
    refine hread (cleanName part) ?_
    rw [hnames, hexisting, canonicalizeRelatedArtists, hparts]
    exact List.mem_append_left _ (hkept.mem after)
  · intro before raw after hsplit haccepted
    have hmem : cleanName raw ∈ (mergeRelatedArtistsDetailed casefold existingValue discovered
        primaryArtistName maxLength).names := by
      rw [hnames]
      exact List.mem_append_right _
        (mem_detailed_appended.mpr ⟨before, raw, after, hsplit, rfl, haccepted⟩)
    refine ⟨hplain _ hmem, ?_⟩
    rw [← quoted_cleanName_iff haccepted.ne_nil]
    exact hread _ hmem

theorem Mergeable.stable
    (h : Mergeable casefold existingValue discovered primaryArtistName maxLength) :
    Stable casefold existingValue discovered primaryArtistName maxLength := by
  have hexisting : existingNames casefold existingValue primaryArtistName maxLength =
      canonicalizeRelatedArtists casefold existingValue primaryArtistName :=
    clipToLength_eq_self_iff.mpr h.fits
  have hnames := detailed_names casefold existingValue discovered primaryArtistName maxLength
  have hplain : ∀ name ∈ (mergeRelatedArtistsDetailed casefold existingValue discovered
      primaryArtistName maxLength).names, comma ∉ name := by
    intro name hname
    rw [hnames] at hname
    rcases List.mem_append.mp hname with hname | hname
    · exact plain_existingNames casefold existingValue primaryArtistName maxLength name hname
    · obtain ⟨before, raw, after, hsplit, rfl, haccepted⟩ := mem_detailed_appended.mp hname
      exact (h.appended before raw after hsplit haccepted).1
  have hquoted : ∀ name ∈ (mergeRelatedArtistsDetailed casefold existingValue discovered
      primaryArtistName maxLength).names, ¬ Quoted name := by
    intro name hname
    rw [hnames, hexisting] at hname
    rcases List.mem_append.mp hname with hname | hname
    · obtain ⟨xs, ys, hsplit⟩ := List.append_of_mem hname
      obtain ⟨before, part, after, hparts, rfl, hkept, -⟩ := keepNames_split hsplit
      rw [quoted_cleanName_iff hkept.ne_nil]
      exact h.existing before part after hparts hkept
    · obtain ⟨before, raw, after, hsplit, rfl, haccepted⟩ := mem_detailed_appended.mp hname
      rw [quoted_cleanName_iff haccepted.ne_nil]
      exact (h.appended before raw after hsplit haccepted).2
  refine ⟨again_of_unquoted hplain hquoted, ?_, ?_⟩
  · rw [(parse_format_iff hplain).mpr hquoted, hnames, hexisting]
  · exact (canonical_canonicalize casefold _ none).distinct

/-- Autofill is settled by one run exactly where the condition holds. -/
theorem autofill_settled_iff (casefold : Text → Text) (isWord : CodePoint → Bool)
    (artistText titleText primaryArtistName existingValue : Option Text) (known : List Text)
    (maxLength : ℕ) :
    Stable casefold existingValue
        (extractCreditedArtists casefold isWord artistText titleText primaryArtistName known)
        primaryArtistName maxLength ↔
      Mergeable casefold existingValue
        (extractCreditedArtists casefold isWord artistText titleText primaryArtistName known)
        primaryArtistName maxLength :=
  ⟨Stable.mergeable, Mergeable.stable⟩

/-- `\w` of an ASCII character. -/
def asciiWord : CodePoint → Bool
  | .scalar c => c.isAlphanum || c = '_'
  | .surrogate _ => false

/-- The leading names of a featured credit are stored as one name and read as two. -/
theorem leading_names_appended_again :
    let artist := some (codePoints "Abe, Bo feat. Cy")
    let discovered := extractCreditedArtists asciiCasefold asciiWord artist none artist []
    ¬ Stable asciiCasefold none discovered artist 500 := by
  intro artist discovered h
  have hread : ¬ mergeRelatedArtists asciiCasefold
      (some (mergeRelatedArtists asciiCasefold none discovered artist 500)) discovered artist 500 =
    mergeRelatedArtists asciiCasefold none discovered artist 500 := by decide +kernel
  exact hread h.again

end IsadoraAir.RelatedArtists
