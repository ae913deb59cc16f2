import IsadoraAir.RelatedArtists.Names

/-!
# Canonical form and merging

When a stored value is canonical, and what merging discovered names gives.
-/

/-!
## Canonical form

A stored value that is saved again in canonical form should not change. It
changes where a name hides a quote behind brackets or punctuation, since a name
is cleaned once: quotes first, then the rest.
-/

namespace IsadoraAir.RelatedArtists

variable {key : Text}

variable {casefold : Text → Text} {primary : Text} {before : List Text} {part : Text}
  {value primaryArtistName : Option Text}

/-- Behind its outer quotes, and then its outer debris, a part shows another quote. -/
def Nested (part : Text) : Prop :=
  (∃ c ∈ (((core part).dropWhile isQuote).dropWhile isDebris).head?, isQuote c = true) ∨
    ∃ c ∈ (((core part).rdropWhile isQuote).rdropWhile isDebris).getLast?, isQuote c = true

theorem quoted_cleanName_iff (h : cleanName part ≠ []) : Quoted (cleanName part) ↔ Nested part := by
  rw [cleanName_eq] at h ⊢
  rw [Quoted, Nested, head?_trim_trim h, getLast?_trim_trim h]

/-- A part whose name is kept: the first of its key, and not the primary artist's. -/
structure Kept (casefold : Text → Text) (primary : Text) (before : List Text) (part : Text) :
    Prop where
  admitted : admissible casefold primary (cleanName part) = true
  first : normalizeName casefold (cleanName part) ∉
    before.map fun earlier => normalizeName casefold (cleanName earlier)

theorem Kept.ne_nil (h : Kept casefold primary before part) : cleanName part ≠ [] := by
  have hadmitted := h.admitted
  simp only [admissible, decide_eq_true_eq] at hadmitted
  exact hadmitted.1

theorem Kept.mem (h : Kept casefold primary before part) (after : List Text) :
    cleanName part ∈ keepNames casefold primary [] (before ++ part :: after) := by
  rw [keepNames_eq, List.map_append, List.map_cons, List.filter_append,
    List.filter_cons_of_pos h.admitted]
  refine mem_firstSeen List.not_mem_nil fun hmem => h.first ?_
  obtain ⟨name, hname, hkey⟩ := List.mem_map.mp hmem
  obtain ⟨earlier, hearlier, rfl⟩ := List.mem_map.mp (List.mem_filter.mp hname).1
  rw [← hkey]
  exact List.mem_map_of_mem (f := fun earlier => normalizeName casefold (cleanName earlier)) hearlier

/-- Each name stands in the list as its first part stands in the value. -/
theorem keepNames_split {parts xs ys : List Text} {name : Text}
    (h : keepNames casefold primary [] parts = xs ++ name :: ys) :
    ∃ before part after, parts = before ++ part :: after ∧ cleanName part = name ∧
      Kept casefold primary before part ∧ keepNames casefold primary [] before = xs := by
  rw [keepNames_eq] at h
  obtain ⟨earlier, later, hsplit, -, hfirst, hxs⟩ := firstSeen_split h
  obtain ⟨names, rest, hmap, hadmitted, hearlier⟩ := filter_split hsplit
  obtain ⟨before, tail, rfl, rfl, htail⟩ := List.map_eq_append_iff.mp hmap
  obtain ⟨part, after, rfl, rfl, -⟩ := List.map_eq_cons_iff.mp htail
  refine ⟨before, part, after, rfl, rfl, ⟨hadmitted, fun hmem => ?_⟩, ?_⟩
  · obtain ⟨part', hpart', hkey⟩ := List.mem_map.mp hmem
    apply hfirst
    rw [← hearlier, ← hkey]
    refine List.mem_map_of_mem (List.mem_filter.mpr ⟨List.mem_map_of_mem hpart', ?_⟩)
    simp only [admissible, decide_eq_true_eq] at hadmitted ⊢
    rw [hkey]
    refine ⟨fun hnil => hadmitted.2.1 ?_, hadmitted.2⟩
    rw [← hkey, hnil]
    rfl
  · rw [keepNames_eq, hearlier, hxs]

/-- The canonical form of a value, read again: `order` says that a name stands
where its first part stands in the value. -/
structure Projects (casefold : Text → Text) (value primaryArtistName : Option Text) : Prop where
  again : canonicalizeRelatedArtists casefold
      (some (formatRelatedArtists (canonicalizeRelatedArtists casefold value primaryArtistName)))
      primaryArtistName = canonicalizeRelatedArtists casefold value primaryArtistName
  distinct : ((canonicalizeRelatedArtists casefold value primaryArtistName).map
    (normalizeName casefold)).Nodup
  others : ∀ name ∈ canonicalizeRelatedArtists casefold value primaryArtistName,
    normalizeName casefold name ≠ primaryKey casefold primaryArtistName
  order : ∀ xs name ys,
    canonicalizeRelatedArtists casefold value primaryArtistName = xs ++ name :: ys →
    ∃ before part after, nameParts value = before ++ part :: after ∧ cleanName part = name ∧
      Kept casefold (primaryKey casefold primaryArtistName) before part ∧
      keepNames casefold (primaryKey casefold primaryArtistName) [] before = xs
  identity : ∀ key, key ∈ trackIdentityKeys casefold primaryArtistName
      (some (formatRelatedArtists (canonicalizeRelatedArtists casefold value primaryArtistName))) ↔
    key ∈ trackIdentityKeys casefold primaryArtistName value

theorem mem_map_keepNames {parts : List Text} :
    key ∈ (keepNames casefold primary [] parts).map (normalizeName casefold) ↔
      ∃ part ∈ parts, admissible casefold primary (cleanName part) = true ∧
        normalizeName casefold (cleanName part) = key := by
  rw [keepNames_eq, mem_map_firstSeen]
  simp only [List.mem_map, List.mem_filter]
  constructor
  · rintro ⟨name, ⟨⟨part, hpart, hname⟩, hadmitted⟩, hkey⟩
    subst hname
    exact ⟨part, hpart, hadmitted, hkey⟩
  · rintro ⟨part, hpart, hadmitted, hkey⟩
    exact ⟨cleanName part, ⟨⟨part, hpart, rfl⟩, hadmitted⟩, hkey⟩

theorem mem_trackIdentityKeys :
    key ∈ trackIdentityKeys casefold primaryArtistName value ↔
      key ≠ [] ∧ (key = primaryKey casefold primaryArtistName ∨
        key ∈ (parseRelatedArtists casefold value).map (normalizeName casefold)) := by
  simp only [trackIdentityKeys, List.mem_filter, List.mem_cons, decide_eq_true_eq]
  exact and_comm

theorem primaryKey_none : primaryKey casefold none = [] := rfl

/-- Leaving out the primary artist leaves the identity alone. -/
theorem mem_identity_iff :
    (key ≠ [] ∧ (key = primaryKey casefold primaryArtistName ∨
        key ∈ (canonicalizeRelatedArtists casefold value primaryArtistName).map
          (normalizeName casefold))) ↔
      key ∈ trackIdentityKeys casefold primaryArtistName value := by
  rw [mem_trackIdentityKeys, canonicalizeRelatedArtists, mem_map_keepNames, parseRelatedArtists,
    canonicalizeRelatedArtists, mem_map_keepNames, primaryKey_none]
  refine and_congr_right fun hkey => or_congr_right' fun hother => ?_
  refine exists_congr fun part => and_congr_right fun _ => and_congr_left fun hpart => ?_
  subst hpart
  simp only [admissible, decide_eq_true_eq]
  tauto

theorem Canonical.without_primary {names : List Text} (h : Canonical casefold primary names) :
    Canonical casefold (primaryKey casefold none) names where
  cleaned := h.cleaned
  plain := h.plain
  admitted name hname := by
    have hadmitted := h.admitted name hname
    rw [primaryKey_none]
    simp only [admissible, decide_eq_true_eq] at hadmitted ⊢
    exact ⟨hadmitted.1, hadmitted.2.1, hadmitted.2.1⟩
  distinct := h.distinct

/-- Canonical form is stable exactly where no kept part hides a quote. -/
theorem projects_iff (casefold : Text → Text) (value primaryArtistName : Option Text) :
    Projects casefold value primaryArtistName ↔
      ∀ before part after, nameParts value = before ++ part :: after →
        Kept casefold (primaryKey casefold primaryArtistName) before part → ¬ Nested part := by
  have hcanonical := canonical_canonicalize casefold value primaryArtistName
  constructor
  · intro h before part after hparts hkept
    rw [← quoted_cleanName_iff hkept.ne_nil]
    refine (hcanonical.canonicalize_format_iff.mp h.again) (cleanName part) ?_
    rw [canonicalizeRelatedArtists, hparts]
    exact hkept.mem after
  · intro h
    have hquoted : ∀ name ∈ canonicalizeRelatedArtists casefold value primaryArtistName,
        ¬ Quoted name := by
      intro name hname
      obtain ⟨xs, ys, hsplit⟩ := List.append_of_mem hname
      obtain ⟨before, part, after, hparts, rfl, hkept, -⟩ := keepNames_split hsplit
      rw [quoted_cleanName_iff hkept.ne_nil]
      exact h before part after hparts hkept
    refine ⟨hcanonical.canonicalize_format_iff.mpr hquoted, hcanonical.distinct, ?_, ?_, ?_⟩
    · intro name hname
      have hadmitted := hcanonical.admitted name hname
      simp only [admissible, decide_eq_true_eq] at hadmitted
      exact hadmitted.2.2
    · intro xs name ys hsplit
      exact keepNames_split hsplit
    · intro key
      have hread := hcanonical.without_primary.canonicalize_format_iff.mpr hquoted
      rw [mem_trackIdentityKeys, parseRelatedArtists, hread]
      exact mem_identity_iff

def lowerAscii : CodePoint → CodePoint
  | .scalar c => .scalar c.toLower
  | .surrogate low => .surrogate low

/-- `str.casefold` of an ASCII text. -/
def asciiCasefold (text : Text) : Text := text.map lowerAscii

/-- A quoted name in brackets is stored with its quotes and then read without. -/
theorem bracketed_quote_changes :
    ¬ Projects asciiCasefold (some (codePoints "('Queen'), Yes")) (some (codePoints "ABBA")) := by
  intro h
  have hread : ¬ canonicalizeRelatedArtists asciiCasefold
      (some (formatRelatedArtists (canonicalizeRelatedArtists asciiCasefold
        (some (codePoints "('Queen'), Yes")) (some (codePoints "ABBA")))))
      (some (codePoints "ABBA")) =
    canonicalizeRelatedArtists asciiCasefold (some (codePoints "('Queen'), Yes"))
      (some (codePoints "ABBA")) := by decide +kernel
  exact hread h.again

end IsadoraAir.RelatedArtists

/-!
## Merging discovered names

Discovered names are appended to the canonical existing ones while the stored
form fits the field. The stored list is read back by splitting at commas, so a
name with a comma of its own is another list the next time.
-/

namespace IsadoraAir.RelatedArtists

/-- `_clip_to_length`, on the names in reverse. -/
def clipReversed (maxLength : ℕ) : List Text → List Text
  | [] => []
  | last :: rest =>
    if (formatRelatedArtists (last :: rest).reverse).length > maxLength then
      clipReversed maxLength rest
    else last :: rest

def clipToLength (names : List Text) (maxLength : ℕ) : List Text :=
  (clipReversed maxLength names.reverse).reverse

/-- What the loop of `merge_related_artists_detailed` leaves. -/
structure Merge where
  names : List Text
  appended : List Text
  skipped : List Text
  deriving DecidableEq

section Merge

variable (casefold : Text → Text) (primary : Text) (maxLength : ℕ)

def mergeNames : List Text → List Text → List Text → Merge
  | existing, _, [] => ⟨existing, [], []⟩
  | existing, seen, raw :: rest =>
    let name := cleanName raw
    let key := normalizeName casefold name
    if key = [] ∨ key ∈ seen ∨ key = primary then mergeNames existing seen rest
    else if (formatRelatedArtists (existing ++ [name])).length > maxLength then
      let merged := mergeNames existing seen rest
      { merged with skipped := name :: merged.skipped }
    else
      let merged := mergeNames (existing ++ [name]) (key :: seen) rest
      { merged with appended := name :: merged.appended }

end Merge

/-- The canonical existing names, as far as they fit. -/
def existingNames (casefold : Text → Text) (existingValue primaryArtistName : Option Text)
    (maxLength : ℕ) : List Text :=
  clipToLength (canonicalizeRelatedArtists casefold existingValue primaryArtistName) maxLength

def mergeRelatedArtistsDetailed (casefold : Text → Text) (existingValue : Option Text)
    (discoveredNames : List Text) (primaryArtistName : Option Text) (maxLength : ℕ) : Merge :=
  let existing := existingNames casefold existingValue primaryArtistName maxLength
  mergeNames casefold (primaryKey casefold primaryArtistName) maxLength existing
    (existing.map (normalizeName casefold)) discoveredNames

/-- `merge_related_artists` -/
def mergeRelatedArtists (casefold : Text → Text) (existingValue : Option Text)
    (discoveredNames : List Text) (primaryArtistName : Option Text) (maxLength : ℕ) : Text :=
  formatRelatedArtists
    (mergeRelatedArtistsDetailed casefold existingValue discoveredNames primaryArtistName
      maxLength).names

variable {casefold : Text → Text} {primary : Text} {maxLength : ℕ} {names existing : List Text}
  {seen discovered : List Text} {name raw : Text}

/-! ### Lengths -/

theorem length_format_append_le (xs ys : List Text) (name : Text) :
    (formatRelatedArtists (xs ++ [name])).length ≤
      (formatRelatedArtists (xs ++ (ys ++ [name]))).length := by
  cases xs with
  | nil =>
    cases ys with
    | nil => exact le_refl _
    | cons y ys =>
      simp only [List.nil_append, List.cons_append, formatRelatedArtists_cons,
        List.length_append, List.flatMap_append, List.flatMap_cons, List.flatMap_nil,
        List.length_cons]
      omega
  | cons x xs =>
    simp only [List.cons_append, formatRelatedArtists_cons, List.length_append,
      List.flatMap_append, List.flatMap_cons, List.flatMap_nil, List.length_cons]
    omega

theorem clipReversed_isSuffix (maxLength : ℕ) (names : List Text) :
    clipReversed maxLength names <:+ names := by
  induction names with
  | nil => exact List.suffix_rfl
  | cons last rest ih =>
    rw [clipReversed]
    split_ifs
    · exact ih.trans (List.suffix_cons last rest)
    · exact List.suffix_rfl

theorem clipToLength_isPrefix (names : List Text) (maxLength : ℕ) :
    clipToLength names maxLength <+: names := by
  have hsuffix := clipReversed_isSuffix maxLength names.reverse
  rw [← List.reverse_prefix, List.reverse_reverse] at hsuffix
  exact hsuffix

theorem length_format_clipToLength (names : List Text) (maxLength : ℕ) :
    (formatRelatedArtists (clipToLength names maxLength)).length ≤ maxLength := by
  have hclip (reversed : List Text) :
      (formatRelatedArtists (clipReversed maxLength reversed).reverse).length ≤ maxLength := by
    induction reversed with
    | nil => exact Nat.zero_le maxLength
    | cons last rest ih =>
      rw [clipReversed]
      split_ifs with h
      · exact ih
      · exact Nat.not_lt.mp h
  exact hclip names.reverse

/-- Names that fit are not clipped. -/
theorem clipToLength_eq_self_iff :
    clipToLength names maxLength = names ↔ (formatRelatedArtists names).length ≤ maxLength := by
  constructor
  · intro h
    rw [← h]
    exact length_format_clipToLength names maxLength
  · intro h
    rcases List.eq_nil_or_concat names with rfl | ⟨front, last, rfl⟩
    · rfl
    · rw [List.concat_eq_append] at h ⊢
      rw [clipToLength, List.reverse_append, List.reverse_singleton, List.singleton_append,
        clipReversed, if_neg]
      · simp
      · simpa using h

/-! ### The loop -/

theorem mergeNames_names (existing seen discovered : List Text) :
    (mergeNames casefold primary maxLength existing seen discovered).names =
      existing ++ (mergeNames casefold primary maxLength existing seen discovered).appended := by
  induction discovered generalizing existing seen with
  | nil => simp [mergeNames]
  | cons raw rest ih =>
    simp only [mergeNames]
    split_ifs
    · exact ih existing seen
    · exact ih existing seen
    · rw [ih]
      simp

/-- What is appended fits. -/
theorem length_format_mergeNames (h : (formatRelatedArtists existing).length ≤ maxLength) :
    (formatRelatedArtists
      (mergeNames casefold primary maxLength existing seen discovered).names).length ≤
        maxLength := by
  induction discovered generalizing existing seen with
  | nil => exact h
  | cons raw rest ih =>
    simp only [mergeNames]
    split_ifs with hkey hfits
    · exact ih h
    · exact ih h
    · exact ih (Nat.not_lt.mp hfits)

/-- A list of kept names, which may have commas of their own. -/
structure Listed (casefold : Text → Text) (primary : Text) (names : List Text) : Prop where
  cleaned : ∀ name ∈ names, Cleaned name
  admitted : ∀ name ∈ names, admissible casefold primary name = true
  distinct : (names.map (normalizeName casefold)).Nodup

theorem Canonical.listed (h : Canonical casefold primary names) : Listed casefold primary names :=
  ⟨h.cleaned, h.admitted, h.distinct⟩

theorem Listed.front {front : List Text} (h : Listed casefold primary names)
    (hfront : front <+: names) : Listed casefold primary front where
  cleaned name hname := h.cleaned name (hfront.subset hname)
  admitted name hname := h.admitted name (hfront.subset hname)
  distinct := h.distinct.sublist (hfront.sublist.map _)

theorem normalizeName_nil (casefold : Text → Text) : normalizeName casefold [] = [] := if_pos rfl

theorem Listed.append (h : Listed casefold primary names)
    (hblank : normalizeName casefold (cleanName raw) ≠ [])
    (hnew : normalizeName casefold (cleanName raw) ∉ names.map (normalizeName casefold))
    (hother : normalizeName casefold (cleanName raw) ≠ primary) :
    Listed casefold primary (names ++ [cleanName raw]) where
  cleaned name hname := by
    rcases List.mem_append.mp hname with hname | hname
    · exact h.cleaned name hname
    · rw [List.mem_singleton.mp hname]
      exact cleaned_cleanName raw
  admitted name hname := by
    rcases List.mem_append.mp hname with hname | hname
    · exact h.admitted name hname
    · rw [List.mem_singleton.mp hname, admissible, decide_eq_true_eq]
      refine ⟨fun hnil => hblank ?_, hblank, hother⟩
      rw [hnil, normalizeName_nil]
  distinct := by
    rw [List.map_append, List.map_singleton, ← List.concat_eq_append]
    exact h.distinct.concat hnew

/-- The keys met are those of the names so far. -/
def SeenIs (casefold : Text → Text) (existing seen : List Text) : Prop :=
  ∀ key, key ∈ seen ↔ key ∈ existing.map (normalizeName casefold)

theorem seenIs_map (existing : List Text) :
    SeenIs casefold existing (existing.map (normalizeName casefold)) := fun _ => Iff.rfl

theorem SeenIs.append (h : SeenIs casefold existing seen) (name : Text) :
    SeenIs casefold (existing ++ [name]) (normalizeName casefold name :: seen) := by
  intro key
  rw [List.mem_cons, h key, List.map_append, List.mem_append, List.map_singleton,
    List.mem_singleton]
  exact or_comm

theorem listed_mergeNames (h : Listed casefold primary existing)
    (hseen : SeenIs casefold existing seen) :
    Listed casefold primary
      (mergeNames casefold primary maxLength existing seen discovered).names := by
  induction discovered generalizing existing seen with
  | nil => exact h
  | cons raw rest ih =>
    simp only [mergeNames]
    split_ifs with hkey hfits
    · exact ih h hseen
    · exact ih h hseen
    · simp only [not_or] at hkey
      exact ih (h.append hkey.1 ((hseen _).not.mp hkey.2.1) hkey.2.2) (hseen.append _)

/-- A discovered name that the loop passes over. -/
def Passed (casefold : Text → Text) (primary : Text) (maxLength : ℕ) (existing : List Text)
    (raw : Text) : Prop :=
  normalizeName casefold (cleanName raw) = [] ∨
    normalizeName casefold (cleanName raw) ∈ existing.map (normalizeName casefold) ∨
    normalizeName casefold (cleanName raw) = primary ∨
    maxLength < (formatRelatedArtists (existing ++ [cleanName raw])).length

theorem Passed.append (h : Passed casefold primary maxLength existing raw) (more : List Text) :
    Passed casefold primary maxLength (existing ++ more) raw := by
  rcases h with h | h | h | h
  · exact .inl h
  · refine .inr (.inl ?_)
    rw [List.map_append]
    exact List.mem_append_left _ h
  · exact .inr (.inr (.inl h))
  · refine .inr (.inr (.inr (h.trans_le ?_)))
    rw [List.append_assoc]
    exact length_format_append_le existing more (cleanName raw)

/-- After the loop every discovered name is one to pass over. -/
theorem passed_mergeNames (hseen : SeenIs casefold existing seen) (hraw : raw ∈ discovered) :
    Passed casefold primary maxLength
      (mergeNames casefold primary maxLength existing seen discovered).names raw := by
  induction discovered generalizing existing seen with
  | nil => cases hraw
  | cons first rest ih =>
    have hhead {existing' seen' : List Text}
        (hpassed : Passed casefold primary maxLength existing' first) :
        Passed casefold primary maxLength
          (mergeNames casefold primary maxLength existing' seen' rest).names first := by
      rw [mergeNames_names]
      exact hpassed.append _
    simp only [mergeNames]
    split_ifs with hkey hfits
    · rcases List.mem_cons.mp hraw with rfl | hraw
      · refine hhead ?_
        rcases hkey with h | h | h
        · exact .inl h
        · exact .inr (.inl ((hseen _).mp h))
        · exact .inr (.inr (.inl h))
      · exact ih hseen hraw
    · rcases List.mem_cons.mp hraw with rfl | hraw
      · exact hhead (.inr (.inr (.inr hfits)))
      · exact ih hseen hraw
    · rcases List.mem_cons.mp hraw with rfl | hraw
      · refine hhead (.inr (.inl ?_))
        rw [List.map_append]
        exact List.mem_append_right _ (by simp)
      · exact ih (hseen.append _) hraw

/-- Nothing is appended where every name is passed over. -/
theorem mergeNames_of_passed (hseen : SeenIs casefold existing seen)
    (h : ∀ raw ∈ discovered, Passed casefold primary maxLength existing raw) :
    (mergeNames casefold primary maxLength existing seen discovered).names = existing := by
  induction discovered with
  | nil => rfl
  | cons raw rest ih =>
    have hrest := ih fun r hr => h r (List.mem_cons_of_mem raw hr)
    simp only [mergeNames]
    split_ifs with hkey hfits
    · exact hrest
    · exact hrest
    · rw [not_or, not_or] at hkey
      rcases h raw List.mem_cons_self with hpassed | hpassed | hpassed | hpassed
      · exact absurd hpassed hkey.1
      · exact absurd ((hseen _).mpr hpassed) hkey.2.1
      · exact absurd hpassed hkey.2.2
      · exact absurd hpassed hfits

/-! ### What is appended -/

/-- A discovered name that the loop appends when it has read `before`. -/
def Accepted (casefold : Text → Text) (primary : Text) (maxLength : ℕ)
    (existing before : List Text) (raw : Text) : Prop :=
  ¬ Passed casefold primary maxLength
    (mergeNames casefold primary maxLength existing (existing.map (normalizeName casefold))
      before).names raw

theorem mem_appended_iff (hseen : SeenIs casefold existing seen) :
    name ∈ (mergeNames casefold primary maxLength existing seen discovered).appended ↔
      ∃ before raw after, discovered = before ++ raw :: after ∧ cleanName raw = name ∧
        ¬ Passed casefold primary maxLength
          (mergeNames casefold primary maxLength existing seen before).names raw := by
  induction discovered generalizing existing seen with
  | nil => simp [mergeNames]
  | cons first rest ih =>
    have hstep : (∃ before raw after, first :: rest = before ++ raw :: after ∧
        cleanName raw = name ∧ ¬ Passed casefold primary maxLength
          (mergeNames casefold primary maxLength existing seen before).names raw) ↔
        (cleanName first = name ∧ ¬ Passed casefold primary maxLength existing first) ∨
        ∃ before raw after, rest = before ++ raw :: after ∧ cleanName raw = name ∧
          ¬ Passed casefold primary maxLength
            (mergeNames casefold primary maxLength existing seen (first :: before)).names raw := by
      constructor
      · rintro ⟨before, raw, after, hsplit, hname, hpassed⟩
        cases before with
        | nil =>
          cases hsplit
          exact .inl ⟨hname, hpassed⟩
        | cons b before =>
          cases hsplit
          exact .inr ⟨before, raw, after, rfl, hname, hpassed⟩
      · rintro (⟨hname, hpassed⟩ | ⟨before, raw, after, rfl, hname, hpassed⟩)
        · exact ⟨[], first, rest, rfl, hname, hpassed⟩
        · exact ⟨first :: before, raw, after, rfl, hname, hpassed⟩
    rw [hstep]
    simp only [mergeNames]
    split_ifs with hkey hfits
    · have hpassed : Passed casefold primary maxLength existing first := by
        rcases hkey with h | h | h
        · exact .inl h
        · exact .inr (.inl ((hseen _).mp h))
        · exact .inr (.inr (.inl h))
      rw [ih hseen]
      simp [hpassed]
    · have hpassed : Passed casefold primary maxLength existing first :=
        .inr (.inr (.inr hfits))
      rw [ih hseen]
      simp [hpassed]
    · have hpassed : ¬ Passed casefold primary maxLength existing first := by
        simp only [not_or] at hkey
        rintro (h | h | h | h)
        · exact hkey.1 h
        · exact hkey.2.1 ((hseen _).mpr h)
        · exact hkey.2.2 h
        · exact hfits h
      rw [List.mem_cons, ih (hseen.append _)]
      simp only [hpassed, not_false_eq_true, and_true]
      exact or_congr_left' fun _ => eq_comm

end IsadoraAir.RelatedArtists
