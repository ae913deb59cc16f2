import IsadoraAir.CueMarkers.Operations
import IsadoraAir.Foundation.Checks
import IsadoraAir.Foundation.Runs

/-!
# The authority over a track's cue markers

Calls come in any order, each locked section as one step. What one call may do
to a row is said once for each writer; the revision then orders the calls of a
whole run.
-/

namespace IsadoraAir.CueMarkers

variable {call : Call} {values : List (Marker × Option Double)}
  {items newValues : List (Marker × Submitted)} {item : Marker × Submitted}

/-! ## Loops and checks -/

theorem foldlM_induction {α β ε : Type} {f : β → α → Except ε β} {I : β → Prop} {xs : List α}
    (hstep : ∀ b, ∀ x ∈ xs, ∀ b', I b → f b x = .ok b' → I b') {b b' : β} (hb : I b)
    (h : xs.foldlM f b = .ok b') : I b' := by
  induction xs generalizing b with
  | nil =>
    cases h
    exact hb
  | cons x xs ih =>
    rw [List.foldlM_cons, bind_eq_ok] at h
    obtain ⟨next, hnext, hrest⟩ := h
    exact ih (fun b y hy => hstep b y (by simp [hy])) (hstep b x (by simp) next hb hnext) hrest

@[simp] theorem number?_ofColumn (x : Option Double) : (Submitted.ofColumn x).number? = x := by
  cases x <;> rfl

/-- The checks of one marker that found nothing. -/
theorem checkValue_eq_none {limit : Option ℚ} {m : Marker} {value : Submitted}
    (h : checkValue limit m value = .ok none) :
    (value.number? = none ∧ m ≠ .cueInSeconds) ∨
      ∃ q, value.number? = some (.finite q) ∧ 0 ≤ q ∧
        ∀ l, limit = some l → q ≤ Double.round (l + durationTolerance) := by
  unfold checkValue at h
  split at h
  · left
    refine ⟨rfl, ?_⟩
    rintro rfl
    simp at h
  · cases h
  · rename_i q
    right
    refine ⟨q, rfl, ?_, ?_⟩
    · by_contra hneg
      simp [not_le.mp hneg] at h
    · rintro l rfl
      by_contra hpast
      rw [Except.ok.injEq] at h
      split_ifs at h
      simp [not_le.mp hpast] at h
  · cases h

theorem mapM_mem {α β ε : Type} {f : α → Except ε β} {xs : List α} {ys : List β}
    (h : xs.mapM f = .ok ys) {x : α} (hx : x ∈ xs) : ∃ y ∈ ys, f x = .ok y := by
  induction xs generalizing ys with
  | nil => simp at hx
  | cons first rest ih =>
    rw [List.mapM_cons, bind_eq_ok] at h
    obtain ⟨y, hy, h⟩ := h
    rw [bind_eq_ok] at h
    obtain ⟨more, hmore, heq⟩ := h
    cases heq
    rcases List.mem_cons.mp hx with rfl | hmem
    · exact ⟨y, by simp, hy⟩
    · obtain ⟨z, hz, hfz⟩ := ih hmore hmem
      exact ⟨z, by simp [hz], hfz⟩

/-- What a validated marker set satisfies. -/
structure Validated (final : Marker → Submitted) (changed : List Marker) (duration : Submitted) :
    Prop where
  values : ∀ m ∈ changed, ((final m).number? = none ∧ m ≠ .cueInSeconds) ∨
    ∃ q, (final m).number? = some (.finite q) ∧ 0 ≤ q ∧
      ∀ l, limitOf duration = .ok (some l) → q ≤ Double.round (l + durationTolerance)
  pairs : ∀ earlier later strict, (earlier, later, strict) ∈ order →
    earlier ∈ changed ∨ later ∈ changed → ∀ a b, (final earlier).number? = some a →
      (final later).number? = some b → a.gt b = false ∧ (strict = true → a.eq b = false)

theorem validated_of_validate {final : Marker → Submitted} {changed : List Marker}
    {duration : Submitted} (h : validate final changed duration = .ok []) :
    Validated final changed duration := by
  simp only [validate, bind_eq_ok] at h
  obtain ⟨limit, hlimit, problems, hproblems, h⟩ := h
  split_ifs at h with hsome
  · exact absurd (Except.ok.inj h) hsome
  · rw [ne_eq, not_not] at hsome
    constructor
    · intro m hm
      obtain ⟨problem, hmem, hcheck⟩ := mapM_mem hproblems hm
      obtain rfl : problem = none := by
        rw [List.filterMap_eq_nil_iff] at hsome
        exact hsome problem hmem
      rcases checkValue_eq_none hcheck with hempty | ⟨q, hq, hpos, hend⟩
      · exact .inl hempty
      · refine .inr ⟨q, hq, hpos, fun l hl => hend l ?_⟩
        exact Except.ok.inj (hlimit.symm.trans hl)
    · intro earlier later strict horder hchanged a b ha hb
      have hpairs := List.filterMap_eq_nil_iff.mp (Except.ok.inj h) _ horder
      have hnot : ¬(earlier ∉ changed ∧ later ∉ changed) := by tauto
      simp only [checkPair, if_neg hnot, ha, hb] at hpairs
      split_ifs at hpairs with hbad
      rw [not_or, not_and] at hbad
      exact ⟨by simpa using hbad.1, fun hstrict => by simpa using hbad.2 hstrict⟩

/-! ## Writing -/

section Finish

variable {moment : Moment} {row after : Row} {draft : Draft} {result : Result}
  {duration : Submitted} {invalid : Result → Result}

theorem write_eq_ok {state : Dict String PyValue} (h : write row newValues state = .ok after) :
    after.revision = row.revision + 1 ∧
      ∀ m, after.value m = (finalValues row newValues m).number? := by
  simp only [write] at h
  split at h
  · split at h
    · cases h
      exact ⟨rfl, fun m => rfl⟩
    · cases h
  · cases h

/-- A marker that a write changes is one of the new values. -/
theorem exists_of_value_ne {m : Marker}
    (h : (finalValues row newValues m).number? ≠ row.value m) : ∃ v, (m, v) ∈ newValues := by
  cases hfind : Dict.find m newValues with
  | none => exact absurd (by simp [finalValues, hfind]) h
  | some v => exact ⟨v, Dict.mem_of_find hfind⟩

/-- The end of a call: the row stays, or a validated set is written and reported as applied. -/
theorem finish_eq_ok (hok : draft.result.ok = true)
    (h : finish moment row duration draft invalid = .ok (result, after)) :
    after = row ∨ (result.ok = true ∧ after.revision = row.revision + 1 ∧
      (∀ m, after.value m = (finalValues row draft.newValues m).number?) ∧
      Validated (finalValues row draft.newValues) (draft.newValues.map Prod.fst) duration) := by
  simp only [finish, bind_eq_ok] at h
  obtain ⟨problems, hproblems, h⟩ := h
  split_ifs at h with hsome
  · cases h
    exact .inl rfl
  · rw [ne_eq, not_not] at hsome
    subst hsome
    unfold commit at h
    split_ifs at h
    · cases h
      exact .inl rfl
    · cases h
      exact .inl rfl
    · rw [bind_eq_ok] at h
      obtain ⟨written, hwrite, h⟩ := h
      cases h
      obtain ⟨hrevision, hvalue⟩ := write_eq_ok hwrite
      exact .inr ⟨hok, hrevision, hvalue, validated_of_validate hproblems⟩

end Finish

/-! ## What the loops gather -/

/-- The loops never refuse, and every new value they gather has the property. -/
structure Gathered (P : Marker → Prop) (draft : Draft) : Prop where
  ok : draft.result.ok = true
  values : ∀ item ∈ draft.newValues, P item.1

section Edit

variable {request : EditRequest} {moment : Moment} {row : Row} {draft next : Draft} {m : Marker}
  {P : Marker → Prop}

theorem editValue_gathered {item : Marker × Option Double} (hitem : P item.1)
    (hd : Gathered P draft) (h : editValue request moment row draft item = .ok next) :
    Gathered P next := by
  simp only [editValue, bind_eq_ok] at h
  obtain ⟨entry, -, h⟩ := h
  split_ifs at h
  · rw [bind_eq_ok] at h
    obtain ⟨items, -, h⟩ := h
    split_ifs at h <;> cases h <;> exact ⟨hd.ok, hd.values⟩
  · cases h
    refine ⟨hd.ok, fun other hother => ?_⟩
    rcases List.mem_append.mp hother with hmem | hmem
    · exact hd.values other hmem
    · rw [List.mem_singleton.mp hmem]
      exact hitem

theorem approveMarker_gathered (hd : Gathered P draft)
    (h : approveMarker request moment row draft m = .ok next) : Gathered P next := by
  simp only [approveMarker] at h
  split_ifs at h
  · cases h
    exact ⟨hd.ok, hd.values⟩
  · rw [bind_eq_ok] at h
    obtain ⟨previous, -, h⟩ := h
    split_ifs at h
    · cases h
      exact ⟨hd.ok, hd.values⟩
    · rw [bind_eq_ok] at h
      obtain ⟨entry, -, h⟩ := h
      cases h
      exact ⟨hd.ok, hd.values⟩

theorem unlockMarker_gathered (hd : Gathered P draft)
    (h : unlockMarker request moment row draft m = .ok next) : Gathered P next := by
  simp only [unlockMarker] at h
  split_ifs at h
  · cases h
    exact ⟨hd.ok, hd.values⟩
  · rw [bind_eq_ok] at h
    obtain ⟨previous, -, h⟩ := h
    split_ifs at h
    · cases h
      exact ⟨hd.ok, hd.values⟩
    · rw [bind_eq_ok] at h
      obtain ⟨entry, -, h⟩ := h
      cases h
      exact ⟨hd.ok, hd.values⟩

end Edit

section Calculation

variable {request : CalculationRequest} {moment : Moment} {row : Row} {draft next : Draft}
  {m : Marker} {P : Marker → Prop}

theorem approvedFor_dict (entry : Option PyValue) (audioRevision : Option String) :
    approvedFor (entry.bind fun entry => entry.dict?.map PyValue.dict) audioRevision =
      approvedFor entry audioRevision := by
  cases audioRevision with
  | none => rfl
  | some revision =>
    cases entry with
    | none => rfl
    | some value => cases value <;> rfl

/-- A calculation may replace a marker that is not protected, one whose protection new media
supersedes, or one that an operator told it to override. -/
def Replaceable (request : CalculationRequest) (row : Row) (m : Marker) : Prop :=
  (protectionOf m row).isProtected = false ∨ replacing request (row.state.get? m.name) = true ∨
    m.name ∈ request.override

theorem applyValue_gathered (hstate : draft.state.get? item.1.name = row.state.get? item.1.name)
    (hd : Gathered (Replaceable request row) draft)
    (h : applyValue request moment row draft item = .ok next) :
    Gathered (Replaceable request row) next ∧
      ∀ name, name ≠ item.1.name → next.state.get? name = draft.state.get? name := by
  have hreplaces : replacing request
      ((draft.state.get? item.1.name).bind fun entry => entry.dict?.map PyValue.dict) =
        replacing request (row.state.get? item.1.name) := by
    rw [hstate, replacing, replacing, approvedFor_dict]
  simp only [applyValue, hreplaces] at h
  by_cases hpreserved : replacing request (row.state.get? item.1.name) = false ∧
      (protectionOf item.1 row).isProtected = true ∧ decide (item.1.name ∈ request.override) = false
  · rw [if_pos hpreserved] at h
    cases h
    exact ⟨⟨hd.ok, hd.values⟩, fun _ _ => rfl⟩
  · have hitem : Replaceable request row item.1 := by
      by_contra hnot
      simp only [Replaceable, not_or] at hnot
      obtain ⟨hprotected, hkept, hunnamed⟩ := hnot
      exact hpreserved ⟨by simpa using hkept, by simpa using hprotected, by simpa using hunnamed⟩
    rw [if_neg hpreserved, bind_eq_ok] at h
    obtain ⟨unchanged, -, h⟩ := h
    have hok : (noteProtection item.1 (protectionOf item.1 row)
        (replacing request (row.state.get? item.1.name)) unchanged draft.result).ok = true := by
      unfold noteProtection
      split_ifs <;> exact hd.ok
    by_cases hskip : unchanged = true ∧ replacing request (row.state.get? item.1.name) = false ∧
        decide (item.1.name ∈ request.override) = false
    · rw [if_pos hskip] at h
      cases h
      exact ⟨⟨hok, hd.values⟩, fun _ _ => rfl⟩
    · rw [if_neg hskip, bind_eq_ok] at h
      obtain ⟨entry, -, h⟩ := h
      have hother (name : String) (hname : name ≠ item.1.name) :
          (draft.state.insert item.1.name (.dict entry)).get? name = draft.state.get? name := by
        rw [Dict.get?_insert, if_neg hname]
      split_ifs at h
      · cases h
        exact ⟨⟨hok, hd.values⟩, hother⟩
      · cases h
        refine ⟨⟨hok, fun other hmem => ?_⟩, hother⟩
        rcases List.mem_append.mp hmem with hold | hnew
        · exact hd.values other hold
        · rw [List.mem_singleton.mp hnew]
          exact hitem

/-- The loop reaches each marker with the entry that the row has for it. -/
theorem applyValues_gathered (hdistinct : (items.map Prod.fst).Nodup)
    (hstate : ∀ item ∈ items, draft.state.get? item.1.name = row.state.get? item.1.name)
    (hd : Gathered (Replaceable request row) draft)
    (h : items.foldlM (applyValue request moment row) draft = .ok next) :
    Gathered (Replaceable request row) next := by
  induction items generalizing draft with
  | nil =>
    cases h
    exact hd
  | cons item items ih =>
    rw [List.foldlM_cons, bind_eq_ok] at h
    obtain ⟨mid, hmid, hrest⟩ := h
    obtain ⟨hnew, hdistinct⟩ := List.nodup_cons.mp hdistinct
    obtain ⟨hgathered, hother⟩ := applyValue_gathered (hstate item (by simp)) hd hmid
    refine ih hdistinct (fun other hmem => ?_) hgathered hrest
    have hne : other.1.name ≠ item.1.name := by
      intro heq
      exact hnew (Marker.name_injective heq ▸ List.mem_map_of_mem hmem)
    rw [hother _ hne]
    exact hstate other (by simp [hmem])

theorem carryMarker_gathered (hd : Gathered P draft)
    (h : carryMarker request moment row draft m = .ok next) : Gathered P next := by
  simp only [carryMarker] at h
  split_ifs at h
  · cases h
    exact hd
  · split at h
    · rw [bind_eq_ok] at h
      obtain ⟨entry, -, h⟩ := h
      cases h
      exact ⟨hd.ok, hd.values⟩
    · cases h
      exact ⟨hd.ok, hd.values⟩

end Calculation

/-! ## An applied call -/

/-- The row after a call that wrote: one revision further, the markers it changed allowed by `P`,
valid by themselves and in order. -/
structure Applied (P : Marker → Prop) (duration : Submitted) (row after : Row) : Prop where
  revision : after.revision = row.revision + 1
  allowed : ∀ m, after.value m ≠ row.value m → P m
  valid : ∀ m, after.value m ≠ row.value m → (after.value m = none ∧ m ≠ .cueInSeconds) ∨
    ∃ q, after.value m = some (.finite q) ∧ 0 ≤ q ∧
      ∀ l, limitOf duration = .ok (some l) → q ≤ Double.round (l + durationTolerance)
  ordered : ∀ earlier later strict, (earlier, later, strict) ∈ order →
    after.value earlier ≠ row.value earlier ∨ after.value later ≠ row.value later →
      ∀ a b, after.value earlier = some a → after.value later = some b →
        a.gt b = false ∧ (strict = true → a.eq b = false)

section Locked

variable {moment : Moment} {row after : Row} {draft : Draft} {result : Result}

theorem finish_applied {P : Marker → Prop} {duration : Submitted} {invalid : Result → Result}
    (hd : Gathered P draft) (h : finish moment row duration draft invalid = .ok (result, after)) :
    after = row ∨ (result.ok = true ∧ Applied P duration row after) := by
  rcases finish_eq_ok hd.ok h with hsame | ⟨hok, hrevision, hvalue, hvalid⟩
  · exact .inl hsame
  · have hmem (m : Marker) (hm : after.value m ≠ row.value m) :
        m ∈ draft.newValues.map Prod.fst := by
      rw [hvalue] at hm
      obtain ⟨v, hv⟩ := exists_of_value_ne hm
      exact List.mem_map.mpr ⟨_, hv, rfl⟩
    refine .inr ⟨hok, hrevision, fun m hm => ?_, fun m hm => ?_, ?_⟩
    · obtain ⟨item, hitem, rfl⟩ := List.mem_map.mp (hmem m hm)
      exact hd.values item hitem
    · rw [hvalue]
      exact hvalid.values m (hmem m hm)
    · intro earlier later strict horder hchanged a b ha hb
      rw [hvalue] at ha hb
      exact hvalid.pairs earlier later strict horder (hchanged.imp (hmem _) (hmem _)) a b ha hb

theorem gathered_start {P : Marker → Prop} (row : Row) : Gathered P ⟨row.state, [], {}⟩ :=
  ⟨rfl, by simp⟩

theorem editLocked_applied {request : EditRequest}
    (h : editLocked request moment row values = .ok (result, after)) :
    after = row ∨ (result.ok = true ∧ request.expectedRevision = some (row.revision : ℤ) ∧
      Applied (fun m => m ∈ values.map Prod.fst) (.ofColumn row.durationSeconds) row after) := by
  simp only [editLocked] at h
  split_ifs at h with hrevision hconfirm
  · cases h
    exact .inl rfl
  · cases h
    exact .inl rfl
  · simp only [bind_eq_ok] at h
    obtain ⟨first, hfirst, second, hsecond, third, hthird, h⟩ := h
    have hedited := foldlM_induction (I := Gathered fun m => m ∈ values.map Prod.fst)
      (fun draft item hitem next hd hnext =>
        editValue_gathered (List.mem_map_of_mem hitem) hd hnext) (gathered_start row) hfirst
    have happroved := foldlM_induction
      (fun draft m _ next hd hnext => approveMarker_gathered hd hnext) hedited hsecond
    have hunlocked := foldlM_induction
      (fun draft m _ next hd hnext => unlockMarker_gathered hd hnext) happroved hthird
    rw [ne_eq, not_not] at hrevision
    exact (finish_applied hunlocked h).imp_right fun happlied => ⟨happlied.1, hrevision, happlied.2⟩

theorem nodup_namedMarkers (values : Dict String Submitted) :
    ((namedMarkers values).map Prod.fst).Nodup := by
  have hkeys : (namedMarkers values).map Prod.fst = values.keys.filterMap Marker.ofName? := by
    simp only [namedMarkers, Dict.keys, List.map_filterMap, List.filterMap_map]
    refine List.filterMap_congr fun item _ => ?_
    cases h : Marker.ofName? item.1 <;> simp [h]
  rw [hkeys]
  refine List.Nodup.filterMap ?_ values.nodup_keys
  intro a b m ha hb
  rw [← Marker.ofName?_eq_some.mp ha, ← Marker.ofName?_eq_some.mp hb]

theorem mem_keys_of_namedMarkers {values : Dict String Submitted}
    (h : item ∈ namedMarkers values) : item.1.name ∈ values.keys := by
  obtain ⟨pair, hpair, heq⟩ := List.mem_filterMap.mp h
  obtain ⟨m, hm, rfl⟩ := Option.map_eq_some_iff.mp heq
  rw [Marker.ofName?_eq_some.mp hm]
  exact List.mem_map_of_mem hpair

theorem applyLocked_applied {request : CalculationRequest}
    (h : applyLocked request moment row = .ok (result, after)) :
    after = row ∨ (result.ok = true ∧ request.basisRevision = some (row.revision : ℤ) ∧
      Applied (Replaceable request row) (calculationDuration request row) row after) := by
  simp only [applyLocked] at h
  split_ifs at h with hrevision hmedia
  · cases h
    exact .inl rfl
  all_goals
    rw [ne_eq, not_not] at hrevision
    simp only [bind_eq_ok] at h
    obtain ⟨first, hfirst, second, hsecond, h⟩ := h
    have happlied := applyValues_gathered (nodup_namedMarkers request.values) (fun _ _ => rfl)
      (gathered_start row) hfirst
  · have hcarried := foldlM_induction
      (fun draft m _ next hd hnext => carryMarker_gathered hd hnext) happlied hsecond
    exact (finish_applied hcarried h).imp_right fun hdone => ⟨hdone.1, hrevision, hdone.2⟩
  · cases hsecond
    exact (finish_applied happlied h).imp_right fun hdone => ⟨hdone.1, hrevision, hdone.2⟩

end Locked

/-! ## The two writers as they are called -/

section Writers

variable {moment : Moment} {before after : Option Row} {result : Result}

theorem map_fst_coerceValues (h : coerceValues items = .ok (.ok values)) :
    values.map Prod.fst = items.map Prod.fst := by
  induction items generalizing values with
  | nil =>
    cases h
    rfl
  | cons item items ih =>
    simp only [coerceValues] at h
    split at h
    · cases h
    · cases h
    · cases hrest : coerceValues items with
      | error e => simp [hrest, Except.map] at h
      | ok coerced =>
        cases coerced with
        | error refusal => simp [hrest, Except.map] at h
        | ok rest =>
          simp only [hrest, Except.map, Except.ok.injEq] at h
          subst h
          simp [ih hrest]

theorem operatorEdit_applied {request : EditRequest}
    (h : operatorEdit request moment before = .ok (result, after)) :
    after = before ∨ (result.ok = true ∧ ∃ row row', before = some row ∧ after = some row' ∧
      request.expectedRevision = some (row.revision : ℤ) ∧
      Applied (fun m => m.name ∈ request.values.keys) (.ofColumn row.durationSeconds) row row') := by
  simp only [operatorEdit] at h
  split_ifs at h
  · cases h
    exact .inl rfl
  · cases h
    exact .inl rfl
  · cases h
    exact .inl rfl
  · rw [bind_eq_ok] at h
    obtain ⟨coerced, hcoerced, h⟩ := h
    split at h
    · cases h
      exact .inl rfl
    · rename_i values
      split at h
      · cases h
        exact .inl rfl
      · rename_i row
        rw [bind_eq_ok] at h
        obtain ⟨⟨locked, row'⟩, hlocked, h⟩ := h
        cases h
        rcases editLocked_applied hlocked with rfl | ⟨hok, hrevision, happlied⟩
        · exact .inl rfl
        · refine .inr ⟨hok, row, row', rfl, rfl, hrevision, happlied.revision, fun m hm => ?_,
            happlied.valid, happlied.ordered⟩
          have hmem := happlied.allowed m hm
          rw [map_fst_coerceValues hcoerced] at hmem
          obtain ⟨item, hitem, rfl⟩ := List.mem_map.mp hmem
          exact mem_keys_of_namedMarkers hitem

/-- A calculation replaces a protected marker for new media that its approval does not cover, or
because an operator asked for it and confirmed it. -/
def CalculationMay (request : CalculationRequest) (row : Row) (m : Marker) : Prop :=
  (request.mediaReplaced = true ∧
      approvedFor (row.state.get? m.name) request.audioRevision = false) ∨
    (m.name ∈ request.override ∧ request.requestedBy ≠ none ∧ request.overrideConfirmed = true)

theorem applyCalculation_applied {request : CalculationRequest}
    (h : applyCalculation request moment before = .ok (result, after)) :
    after = before ∨ (result.ok = true ∧ ∃ row row', before = some row ∧ after = some row' ∧
      request.basisRevision = some (row.revision : ℤ) ∧
      Applied (fun m => (protectionOf m row).isProtected = true → CalculationMay request row m)
        (calculationDuration request row) row row') := by
  simp only [applyCalculation] at h
  split_ifs at h with hinvalid hoverride
  · cases h
    exact .inl rfl
  · cases h
    exact .inl rfl
  · split at h
    · cases h
      exact .inl rfl
    · rename_i row
      rw [bind_eq_ok] at h
      obtain ⟨⟨locked, row'⟩, hlocked, h⟩ := h
      cases h
      rcases applyLocked_applied hlocked with rfl | ⟨hok, hrevision, happlied⟩
      · exact .inl rfl
      · refine .inr ⟨hok, row, row', rfl, rfl, hrevision, happlied.revision, fun m hm hprotected => ?_,
          happlied.valid, happlied.ordered⟩
        rcases happlied.allowed m hm with hfree | hreplaced | hnamed
        · exact absurd hprotected (by simp [hfree])
        · exact .inl (by simpa [replacing] using hreplaced)
        · have hne : request.override ≠ [] := List.ne_nil_of_mem hnamed
          refine .inr ⟨hnamed, ?_, ?_⟩
          · intro hnobody
            simp [overrideUnconfirmed, hne, hnobody] at hoverride
          · by_contra hunconfirmed
            simp [overrideUnconfirmed, hne, hunconfirmed] at hoverride

end Writers

/-! ## Calls in any order -/

/-- A call on the track, or another writer's change of the columns the authority only reads. -/
inductive Call where
  | edit (request : EditRequest) (moment : Moment)
  | calculate (request : CalculationRequest) (moment : Moment)
  | columns (durationSeconds : Option Double) (waveformPath : String)

namespace Call

def perform : Call → Option Row → Except Raised (Result × Option Row)
  | .edit request moment, row => operatorEdit request moment row
  | .calculate request moment, row => applyCalculation request moment row
  | .columns duration path, row => .ok ({}, row.map fun row =>
      { row with durationSeconds := duration, waveformPath := path })

/-- What a call leaves; one that raises is rolled back. -/
def step (call : Call) (row : Option Row) : Option Row :=
  match call.perform row with
  | .ok (_, after) => after
  | .error _ => row

/-- The revision a call was based on. -/
def basis : Call → Option ℤ
  | .edit request _ => request.expectedRevision
  | .calculate request _ => request.basisRevision
  | .columns _ _ => none

/-- The call neither raises nor reports a refusal. -/
def Succeeds (call : Call) (row : Option Row) : Prop :=
  ∃ result after, call.perform row = .ok (result, after) ∧ result.ok = true

/-- An edit that names the marker, new media its approval does not cover, or an override of it that
an operator asked for and confirmed. -/
def MayReplace : Call → Row → Marker → Prop
  | .edit request _, _, m => m.name ∈ request.values.keys
  | .calculate request _, row, m => CalculationMay request row m
  | .columns _ _, _, _ => False

/-- The duration that bounds the values of a call. -/
def duration : Call → Row → Submitted
  | .edit _ _, row => .ofColumn row.durationSeconds
  | .calculate request _, row => calculationDuration request row
  | .columns _ _, row => .ofColumn row.durationSeconds

end Call

/-- The columns of the authority differ. -/
def Changes (row after : Row) : Prop :=
  after.value ≠ row.value ∨ after.state ≠ row.state ∨ after.revision ≠ row.revision

/-- What one call guarantees of the row it finds. -/
structure Guarantee (call : Call) (before : Option Row) : Prop where
  refused : ¬call.Succeeds before → call.step before = before
  revision : ∀ row after, before = some row → call.step before = some after → Changes row after →
    call.basis = some (row.revision : ℤ) ∧ after.revision = row.revision + 1
  guarded : ∀ row after, before = some row → call.step before = some after → ∀ m,
    (protectionOf m row).isProtected = true → after.value m ≠ row.value m →
      call.MayReplace row m
  valid : ∀ row after, before = some row → call.step before = some after → ∀ m,
    after.value m ≠ row.value m → (after.value m = none ∧ m ≠ .cueInSeconds) ∨
      ∃ q, after.value m = some (.finite q) ∧ 0 ≤ q ∧ ∀ l,
        limitOf (call.duration row) = .ok (some l) → q ≤ Double.round (l + durationTolerance)
  ordered : ∀ row after, before = some row → call.step before = some after →
    ∀ earlier later strict, (earlier, later, strict) ∈ order →
      after.value earlier ≠ row.value earlier ∨ after.value later ≠ row.value later →
        ∀ a b, after.value earlier = some a → after.value later = some b →
          a.gt b = false ∧ (strict = true → a.eq b = false)
  cueIn : ∀ after, call.step before = some after → after.value .cueInSeconds ≠ none

/-- Nothing of the authority's columns has changed. -/
theorem guarantee_of_unchanged {before : Option Row}
    (hrefused : ¬call.Succeeds before → call.step before = before)
    (h : ∀ row after, before = some row → call.step before = some after → ¬Changes row after) :
    Guarantee call before := by
  have hvalue (row after : Row) (hrow : before = some row) (hafter : call.step before = some after) :
      after.value = row.value := by
    by_contra hne
    exact h row after hrow hafter (.inl hne)
  refine ⟨hrefused, fun row after hrow hafter hchanges => absurd hchanges (h row after hrow hafter),
    fun row after hrow hafter m _ hne => absurd (congrFun (hvalue row after hrow hafter) m) hne,
    fun row after hrow hafter m hne => absurd (congrFun (hvalue row after hrow hafter) m) hne,
    fun row after hrow hafter earlier later strict _ hne => ?_, fun after _ => after.cueIn_ne_none⟩
  have hsame := hvalue row after hrow hafter
  simp [hsame] at hne

theorem not_changes_self (row : Row) : ¬Changes row row := by
  simp [Changes]

/-- A call that wrote keeps every promise. -/
theorem guarantee_of_applied {row after : Row} {P : Marker → Prop}
    (hstep : call.step (some row) = some after) (hsucceeds : call.Succeeds (some row))
    (hbasis : call.basis = some (row.revision : ℤ))
    (happlied : Applied P (call.duration row) row after)
    (hP : ∀ m, P m → (protectionOf m row).isProtected = true → call.MayReplace row m) :
    Guarantee call (some row) := by
  have hpin {r a : Row} (hr : some row = some r) (ha : call.step (some row) = some a) :
      r = row ∧ a = after :=
    ⟨(Option.some.inj hr).symm, Option.some.inj (ha.symm.trans hstep)⟩
  constructor
  · exact fun hnot => absurd hsucceeds hnot
  · intro r a hr ha _
    obtain ⟨rfl, rfl⟩ := hpin hr ha
    exact ⟨hbasis, happlied.revision⟩
  · intro r a hr ha m hprotected hne
    obtain ⟨rfl, rfl⟩ := hpin hr ha
    exact hP m (happlied.allowed m hne) hprotected
  · intro r a hr ha
    obtain ⟨rfl, rfl⟩ := hpin hr ha
    exact happlied.valid
  · intro r a hr ha
    obtain ⟨rfl, rfl⟩ := hpin hr ha
    exact happlied.ordered
  · exact fun a _ => a.cueIn_ne_none

theorem guarantee (call : Call) (before : Option Row) : Guarantee call before := by
  cases hperform : call.perform before with
  | error e =>
    have hstep : call.step before = before := by simp [Call.step, hperform]
    refine guarantee_of_unchanged (fun _ => hstep) fun row after hrow hafter => ?_
    rw [hstep, hrow] at hafter
    cases hafter
    exact not_changes_self row
  | ok answer =>
    obtain ⟨result, after⟩ := answer
    have hstep : call.step before = after := by simp [Call.step, hperform]
    have hsame (heq : after = before) : Guarantee call before := by
      refine guarantee_of_unchanged (fun _ => hstep.trans heq) fun row row' hrow hrow' => ?_
      rw [hstep, heq, hrow] at hrow'
      cases hrow'
      exact not_changes_self row
    cases call with
    | edit request moment =>
      rcases operatorEdit_applied hperform with heq | ⟨hok, row, row', rfl, rfl, hbasis, happlied⟩
      · exact hsame heq
      · exact guarantee_of_applied hstep ⟨result, _, hperform, hok⟩ hbasis happlied fun m hm _ => hm
    | calculate request moment =>
      rcases applyCalculation_applied hperform with heq | ⟨hok, row, row', rfl, rfl, hbasis, happlied⟩
      · exact hsame heq
      · exact guarantee_of_applied hstep ⟨result, _, hperform, hok⟩ hbasis happlied fun m hm => hm
    | columns duration path =>
      cases hperform
      refine guarantee_of_unchanged (fun hnot => absurd ⟨_, _, rfl, rfl⟩ hnot)
        fun row row' hrow hrow' => ?_
      subst hrow
      cases hrow'
      simp [Changes]

/-! ## A whole run -/

def revisionOf (row : Option Row) : ℕ := row.elim 0 Row.revision

/-- The call writes the authority's columns of the row it finds. -/
def Call.Writes (call : Call) (before : Option Row) : Prop :=
  ∃ row after, before = some row ∧ call.step before = some after ∧ Changes row after

theorem Call.exists_step (call : Call) (row : Row) :
    ∃ after, call.step (some row) = some after := by
  cases hperform : call.perform (some row) with
  | error e => exact ⟨row, by simp [Call.step, hperform]⟩
  | ok answer =>
    obtain ⟨result, after⟩ := answer
    have hstep : call.step (some row) = after := by simp [Call.step, hperform]
    rw [hstep]
    cases call with
    | edit request moment =>
      rcases operatorEdit_applied hperform with rfl | ⟨-, -, row', -, rfl, -⟩
      · exact ⟨row, rfl⟩
      · exact ⟨row', rfl⟩
    | calculate request moment =>
      rcases applyCalculation_applied hperform with rfl | ⟨-, -, row', -, rfl, -⟩
      · exact ⟨row, rfl⟩
      · exact ⟨row', rfl⟩
    | columns duration path =>
      cases hperform
      exact ⟨_, rfl⟩

theorem revisionOf_le_step (call : Call) (before : Option Row) :
    revisionOf before ≤ revisionOf (call.step before) := by
  cases before with
  | none => exact Nat.zero_le _
  | some row =>
    obtain ⟨after, hafter⟩ := call.exists_step row
    rw [hafter]
    change row.revision ≤ after.revision
    by_cases hchanges : Changes row after
    · have hnext := ((guarantee call (some row)).revision row after rfl hafter hchanges).2
      omega
    · simp only [Changes, not_or, not_not] at hchanges
      exact hchanges.2.2.ge

theorem revisionOf_le_run (calls : List Call) (before : Option Row) :
    revisionOf before ≤ revisionOf (Runs.run Call.step calls before) := by
  induction calls generalizing before with
  | nil => exact le_rfl
  | cons call calls ih => exact (revisionOf_le_step call before).trans (ih _)

/-- Every call of every run keeps its promises, and of two calls based on one revision at most one
writes. -/
theorem cue_marker_authority (calls : List Call) (before : Option Row) :
    Runs.Throughout Call.step Guarantee calls before ∧
      ∀ first call second call' third, calls = first ++ call :: (second ++ call' :: third) →
        call.Writes (Runs.run Call.step first before) →
          call'.Writes (Runs.run Call.step (first ++ call :: second) before) →
            call.basis ≠ call'.basis := by
  refine ⟨Runs.throughout_of_invariant (I := fun _ => True) (fun _ _ _ _ => trivial)
    (fun call row _ _ => guarantee call row) trivial (Runs.throughout_true calls before), ?_⟩
  rintro first call second call' third - ⟨row, after, hrow, hafter, hchanges⟩
    ⟨row', after', hrow', hafter', hchanges'⟩ hbasis
  rw [Runs.run_append, Runs.run_cons, hrow] at hrow'
  rw [hrow] at hafter
  obtain ⟨hfirst, hnext⟩ := (guarantee call (some row)).revision row after rfl hafter hchanges
  have hlater := revisionOf_le_run second (call.step (some row))
  rw [hrow', hafter] at hlater
  have hsecond := ((guarantee call' _).revision row' after' rfl
    (by rwa [Runs.run_append, Runs.run_cons, hrow, hrow'] at hafter') hchanges').1
  rw [hfirst, hsecond, Option.some.injEq] at hbasis
  change after.revision ≤ row'.revision at hlater
  omega

/-! ## A track whose markers predate the checks -/

/-- A new track that came with a negative Cue In. -/
def importedRow : Row where
  value := fun m => if m = .cueInSeconds then some (.finite (-1)) else none
  state := Dict.empty
  revision := 0
  durationSeconds := some (.finite 180)
  waveformPath := ""
  cueIn_ne_none := by decide

def setCueOut (revision : ℤ) (seconds : ℚ) : Call :=
  .edit
    { expectedRevision := some revision
      user := some ⟨7, true⟩
      values := Dict.empty.insert "cue_out_seconds" (.number (.finite seconds))
      approve := []
      unlock := []
      audioRevision := none
      confirmProtected := none }
    ⟨"2026-08-11T09:00:00", false⟩

/-- Setting Cue Out is applied beside a Cue In that stays negative. -/
theorem unchanged_partner_is_not_checked :
    (.cueInSeconds, .cueOutSeconds, false) ∈ order ∧
    ∃ after, (setCueOut 0 5).step (some importedRow) = some after ∧
      after.revision = 1 ∧ after.value .cueOutSeconds ≠ importedRow.value .cueOutSeconds ∧
      after.value .cueInSeconds = some (.finite (-1)) := by
  refine ⟨by decide, ?_⟩
  obtain ⟨after, hafter⟩ := (setCueOut 0 5).exists_step importedRow
  have hvalues : ((setCueOut 0 5).step (some importedRow)).map (fun row =>
      (row.revision, row.value .cueOutSeconds, row.value .cueInSeconds)) =
        some (1, some (.finite 5), some (.finite (-1))) := by decide +kernel
  rw [hafter, Option.map_some, Option.some.injEq, Prod.mk.injEq, Prod.mk.injEq] at hvalues
  refine ⟨after, hafter, hvalues.1, ?_, hvalues.2.2⟩
  rw [hvalues.2.1]
  decide

theorem writes_of_revisionOf_ne {before : Option Row} (hrow : before.isSome = true)
    (h : revisionOf (call.step before) ≠ revisionOf before) : call.Writes before := by
  obtain ⟨row, rfl⟩ := Option.isSome_iff_exists.mp hrow
  obtain ⟨after, hafter⟩ := call.exists_step row
  rw [hafter] at h
  exact ⟨row, after, rfl, hafter, .inr (.inr h)⟩

theorem cue_marker_authority_sample :
    Runs.Throughout Call.step Guarantee [setCueOut 0 5, setCueOut 0 6, setCueOut 1 7]
        (some importedRow) ∧
      (setCueOut 0 5).basis ≠ (setCueOut 1 7).basis :=
  ⟨(cue_marker_authority [setCueOut 0 5, setCueOut 0 6, setCueOut 1 7] (some importedRow)).1,
    (cue_marker_authority [setCueOut 0 5, setCueOut 0 6, setCueOut 1 7] (some importedRow)).2
      [] (setCueOut 0 5) [setCueOut 0 6] (setCueOut 1 7) [] rfl
      (writes_of_revisionOf_ne rfl (by decide +kernel))
      (writes_of_revisionOf_ne (by decide +kernel) (by decide +kernel))⟩

end IsadoraAir.CueMarkers
