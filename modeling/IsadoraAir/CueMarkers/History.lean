import IsadoraAir.CueMarkers.Turns

/-!
# The approval history over a whole run

Edits, calculations and copies on a library of tracks, in any order. A ghost log
writes down every approval as it is granted; the markers' current approvals and
their histories say the same at all times.
-/

namespace IsadoraAir.CueMarkers

open PyValue (get dict?)

variable {invalid : Result → Result} {duration : Submitted}

/-! ## One call on one row -/

section Rows

variable {moment : Moment} {row after : Row} {draft : Draft} {result : Result}

/-- How a call ends: refused, with nothing to write, or written. -/
theorem commit_cases (h : commit moment row draft = .ok (result, after)) :
    (after = row ∧ result.ok = false) ∨
      (after = row ∧ draft.newValues = [] ∧
        (PyValue.dict draft.state.items).equal (.dict row.state.items) = true ∧
          result.ok = draft.result.ok ∧ ∀ m, Named result m ↔ Named draft.result m) ∨
      (after.state = draft.state ∧ after.revision = row.revision + 1 ∧
        (∀ m, after.value m = (finalValues row draft.newValues m).number?) ∧
          result.ok = draft.result.ok ∧ ∀ m, Named result m ↔ Named draft.result m) := by
  unfold commit at h
  split_ifs at h with hsame hrefused
  · cases h
    exact .inr (.inl ⟨rfl, hsame.1, hsame.2, rfl, fun _ => Iff.rfl⟩)
  · cases h
    exact .inl ⟨rfl, rfl⟩
  · rw [bind_eq_ok] at h
    obtain ⟨written, hwrite, h⟩ := h
    cases h
    obtain ⟨hrevision, hvalue⟩ := write_eq_ok hwrite
    refine .inr (.inr ⟨?_, hrevision, hvalue, rfl, fun _ => Iff.rfl⟩)
    simp only [write] at hwrite
    split_ifs at hwrite
    cases hwrite
    rfl

theorem finish_cases (h : finish moment row duration draft invalid = .ok (result, after)) :
    (after = row ∧ result.ok = false) ∨ commit moment row draft = .ok (result, after) := by
  simp only [finish, bind_eq_ok] at h
  obtain ⟨problems, -, h⟩ := h
  split_ifs at h
  · cases h
    exact .inl ⟨rfl, rfl⟩
  · exact .inr h

/-- A written row has the approvals of the draft. -/
theorem approvals_of_written (hstate : after.state = draft.state)
    (hvalue : ∀ m, after.value m = (finalValues row draft.newValues m).number?) (m : Marker) :
    after.approvals m = draft.approvals row m := by
  rw [Row.approvals, Draft.approvals, hstate, hvalue]

/-- A call that grants the marker nothing. -/
theorem commit_settled {m : Marker} (hrow : Tidy (row.state.get? m.name))
    (hsettled : Settled row draft m) (h : commit moment row draft = .ok (result, after)) :
    Tidy (after.state.get? m.name) ∧
      (row.approvals m).Advances approvalPart none (after.approvals m) := by
  rcases commit_cases h with ⟨rfl, -⟩ | ⟨rfl, -⟩ | ⟨hstate, -, hvalue, -⟩
  · exact ⟨hrow, .refl _⟩
  · exact ⟨hrow, .refl _⟩
  · rw [approvals_of_written hstate hvalue, hstate]
    exact ⟨hsettled.tidy, hsettled.advances⟩

end Rows

section Edit

variable {request : EditRequest} {moment : Moment} {row after : Row} {result : Result} {m : Marker}

/-- What an edit does to a marker: it reports success for it exactly when it grants an approval. -/
structure EditedAt (row after : Row) (result : Result) (m : Marker) (granted : Option Items) :
    Prop where
  tidy : Tidy (after.state.get? m.name)
  advances : (row.approvals m).Advances approvalPart granted (after.approvals m)
  reported : granted.isSome = true ↔ result.ok = true ∧ Named result m

theorem editedAt_of_refused (hrow : Tidy (row.state.get? m.name)) (hresult : result.ok = false) :
    EditedAt row row result m none :=
  ⟨hrow, .refl _, by simp [hresult]⟩

/-- The loops of an edit have left the marker without a new approval, or with one. -/
theorem finish_editedAt {draft : Draft} (hrow : Tidy (row.state.get? m.name))
    (hok : draft.result.ok = true) (hdraft : (Settled row draft m ∧ ¬Named draft.result m) ∨
      ∃ items, Sealed request row draft m items)
    (h : finish moment row duration draft invalid = .ok (result, after)) :
    ∃ granted, EditedAt row after result m granted := by
  rcases finish_cases h with ⟨rfl, hresult⟩ | hcommit
  · exact ⟨none, editedAt_of_refused hrow hresult⟩
  · rcases hdraft with ⟨hsettled, hunnamed⟩ | ⟨items, hsealed⟩
    · obtain ⟨htidy, hadvances⟩ := commit_settled hrow hsettled hcommit
      refine ⟨none, htidy, hadvances, ?_⟩
      rcases commit_cases hcommit with ⟨-, hresult⟩ | ⟨-, -, -, -, hnamed⟩ | ⟨-, -, -, -, hnamed⟩
      · simp [hresult]
      · simp [hnamed, hunnamed]
      · simp [hnamed, hunnamed]
    · rcases commit_cases hcommit with ⟨rfl, hresult⟩ | ⟨-, -, hequal, -⟩ |
        ⟨hstate, -, hvalue, hresult, hnamed⟩
      · exact ⟨none, editedAt_of_refused hrow hresult⟩
      · -- a granted approval is never mistaken for no change
        obtain ⟨old, hold, hsame⟩ := find_of_equal hequal hsealed.entry
        rw [hsealed.differs old hold] at hsame
        exact absurd hsame (by simp)
      · obtain ⟨a, hadvances⟩ := hsealed.advances
        refine ⟨some a, ?_, ?_, ?_⟩
        · rw [hstate, hsealed.entry]
          exact hsealed.tidy
        · rw [approvals_of_written hstate hvalue]
          exact hadvances
        · simp [hresult, hok, hnamed, hsealed.named]

theorem name_mem_of_ofName? {names : List String} (h : m ∈ names.filterMap Marker.ofName?) :
    m.name ∈ names := by
  obtain ⟨name, hname, hof⟩ := List.mem_filterMap.mp h
  rw [Marker.ofName?_eq_some] at hof
  exact hof ▸ hname

theorem editLocked_editedAt {values : List (Marker × Option Double)}
    (huser : (userId request.user).equal .none = false) (hrow : Tidy (row.state.get? m.name))
    (hdistinct : (values.map Prod.fst).Nodup)
    (hunlock : m.name ∈ request.unlock → m ∉ values.map Prod.fst ∧ m.name ∉ request.approve)
    (h : editLocked request moment row values = .ok (result, after)) :
    ∃ granted, EditedAt row after result m granted := by
  simp only [editLocked] at h
  split_ifs at h
  · cases h
    exact ⟨none, editedAt_of_refused hrow rfl⟩
  · cases h
    exact ⟨none, editedAt_of_refused hrow rfl⟩
  · simp only [bind_eq_ok] at h
    obtain ⟨first, hfirst, second, hsecond, third, hthird, h⟩ := h
    have hok : third.result.ok = true := by
      have hedited := foldlM_induction (I := Gathered fun _ => True)
        (fun draft item _ next hd hnext => editValue_gathered trivial hd hnext)
        (gathered_start row) hfirst
      have happroved := foldlM_induction
        (fun draft m _ next hd hnext => approveMarker_gathered hd hnext) hedited hsecond
      exact (foldlM_induction
        (fun draft m _ next hd hnext => unlockMarker_gathered hd hnext) happroved hthird).ok
    have helse (d : Draft) (item : Marker × Option Double) (d' : Draft)
        (hturn : editValue request moment row d item = .ok d') (m : Marker) (hm : m ≠ item.1) :
        SameAt m d d' := editValue_elsewhere hturn hm
    have hedited : Pending request row first m := by
      rcases foldlM_at Prod.fst helse hdistinct hfirst m with
        hsame | ⟨⟨x, value⟩, hx, rfl, b, b', hbefore, hturn, hafter⟩
      · exact .inl ⟨(fresh_start row m).sameAt hsame,
          mt hsame.named.mp (not_named_start row m)⟩
      · exact (editValue_pending hrow ((fresh_start row x).sameAt hbefore)
          (mt hbefore.named.mp (not_named_start row x)) hturn).sameAt hafter
    have happroved : Pending request row second m := by
      refine foldlM_induction (I := fun d => Pending request row d m)
        (fun d x _ d' hd hturn => ?_) hedited hsecond
      by_cases hx : m = x
      · subst hx
        exact approveMarker_pending huser hrow hd hturn
      · exact hd.sameAt (approveMarker_elsewhere hturn hx)
    suffices hdraft : (Settled row third m ∧ ¬Named third.result m) ∨
        ∃ items, Sealed request row third m items from finish_editedAt hrow hok hdraft h
    by_cases hm : m.name ∈ request.unlock
    · -- neither set nor approved, so the loop over the markers to unlock finds it as it was
      obtain ⟨hvalues, happrove⟩ := hunlock hm
      have hsame := (foldlM_elsewhere Prod.fst helse hfirst hvalues).trans
        (foldlM_elsewhere id (fun d x d' hturn m hne => approveMarker_elsewhere hturn hne)
          hsecond fun hmem => happrove (name_mem_of_ofName? (by simpa using hmem)))
      have hopened := foldlM_induction (I := fun d => (Fresh row d m ∧ ¬Named d.result m) ∨
          ∃ items, Opened row d m items) (fun d x _ d' hd hturn => ?_)
        (.inl ⟨(fresh_start row m).sameAt hsame, mt hsame.named.mp (not_named_start row m)⟩) hthird
      · rcases hopened with ⟨hfresh, hunnamed⟩ | ⟨items, hopened⟩
        · exact .inl ⟨hfresh.settled hrow, hunnamed⟩
        · refine .inl ⟨⟨?_, hopened.advances⟩, hopened.unnamed⟩
          rw [hopened.entry]
          exact hopened.tidy
      · by_cases hx : m = x
        · subst hx
          exact unlockMarker_opened hrow hd hturn
        · have hturned := unlockMarker_elsewhere hturn hx
          rcases hd with ⟨hfresh, hunnamed⟩ | ⟨items, hopened⟩
          · exact .inl ⟨hfresh.sameAt hturned, mt hturned.named.mp hunnamed⟩
          · exact .inr ⟨items, hopened.sameAt hturned⟩
    · have hsame := foldlM_elsewhere id
        (fun d x d' hturn m hne => unlockMarker_elsewhere hturn hne) hthird
        fun hmem => hm (name_mem_of_ofName? (by simpa using hmem))
      rcases happroved.sameAt hsame with ⟨hfresh, hunnamed⟩ | hsealed
      · exact .inl ⟨hfresh.settled hrow, hunnamed⟩
      · exact .inr hsealed

end Edit

section Calculation

variable {request : CalculationRequest} {moment : Moment} {row after : Row} {result : Result}
  {m : Marker}

theorem applyLocked_settled (hrow : Tidy (row.state.get? m.name))
    (h : applyLocked request moment row = .ok (result, after)) :
    Tidy (after.state.get? m.name) ∧
      (row.approvals m).Advances approvalPart none (after.approvals m) := by
  simp only [applyLocked] at h
  by_cases hrevision : request.basisRevision ≠ some (row.revision : ℤ)
  · rw [if_pos hrevision] at h
    cases h
    exact ⟨hrow, .refl _⟩
  · rw [if_neg hrevision, bind_eq_ok] at h
    obtain ⟨first, hfirst, h⟩ := h
    have helse (d : Draft) (item : Marker × Submitted) (d' : Draft)
        (hturn : applyValue request moment row d item = .ok d') (m : Marker) (hm : m ≠ item.1) :
        SameAt m d d' := applyValue_elsewhere hturn hm
    have happlied : Settled row first m := by
      rcases foldlM_at Prod.fst helse (nodup_namedMarkers request.values) hfirst m with
        hsame | ⟨⟨x, value⟩, -, rfl, b, b', hbefore, hturn, hafter⟩
      · exact ((fresh_start row m).sameAt hsame).settled hrow
      · exact (applyValue_settled hrow ((fresh_start row x).sameAt hbefore) hturn).sameAt hafter
    have hcarried (second : Draft)
        (hsecond : markers.foldlM (carryMarker request moment row) first = .ok second) :
        Settled row second m := by
      rcases foldlM_at id (fun d x d' hturn m hne => carryMarker_elsewhere hturn hne)
        (by decide) hsecond m with hsame | ⟨x, -, rfl, b, b', hbefore, hturn, hafter⟩
      · exact happlied.sameAt hsame
      · refine Settled.sameAt ?_ hafter
        by_cases hx : x ∈ (namedMarkers request.values).map Prod.fst
        · -- a marker that was calculated is not carried over
          obtain ⟨item, hitem, hkey⟩ := List.mem_map.mp hx
          have hname := mem_keys_of_namedMarkers hitem
          rw [hkey] at hname
          simp only [id_eq, carryMarker, if_pos (Or.inl hname)] at hturn
          cases hturn
          exact happlied.sameAt hbefore
        · have hsame := (foldlM_elsewhere Prod.fst helse hfirst hx).trans hbefore
          exact carryMarker_settled hrow ((fresh_start row x).sameAt hsame) hturn
    have hend (second : Draft) (hsettled : Settled row second m) {invalid : Result → Result}
        (h : finish moment row (calculationDuration request row) second invalid =
          .ok (result, after)) : Tidy (after.state.get? m.name) ∧
            (row.approvals m).Advances approvalPart none (after.approvals m) := by
      rcases finish_cases h with ⟨rfl, -⟩ | hcommit
      · exact ⟨hrow, .refl _⟩
      · exact commit_settled hrow hsettled hcommit
    by_cases hmedia : request.mediaReplaced = true
    · rw [if_pos hmedia, bind_eq_ok] at h
      obtain ⟨second, hsecond, h⟩ := h
      exact hend second (hcarried second hsecond) h
    · rw [if_neg hmedia, pure_bind] at h
      exact hend first happlied h

end Calculation

section Copy

variable {request : CopyRequest} {moment : Moment} {source row after : Row} {draft next : Draft}
  {result : Except CopyRefusal Result} {m : Marker}

/-- What stands for the copied marker is what stands for the source's. -/
theorem copiedEntry_advances {entry : Items} (hsource : Tidy (source.state.get? m.name))
    (h : copiedEntry request moment source m = .ok entry) :
    Tidy (some (.dict entry)) ∧ (source.approvals m).Advances approvalPart none
      (approvals (some (.dict entry)) (source.value m)) := by
  have hlater {kept : Items} (hkept : Tidy (some (.dict kept))) (hadvances :
      (source.approvals m).Advances approvalPart none
        (approvals (some (.dict kept)) (source.value m))) :
      Tidy (some (.dict (Dict.put "copied_from_track" (.number (.finite request.source)) kept))) ∧
        (source.approvals m).Advances approvalPart none (approvals (some (.dict
          (Dict.put "copied_from_track" (.number (.finite request.source)) kept)))
            (source.value m)) := by
    have hkeep := get_put_of_notMem (by decide : "copied_from_track" ∉ heldKeys)
      (.number (.finite request.source)) kept
    rw [approvals_congr _ hkeep]
    exact ⟨hkept.congr hkeep, hadvances⟩
  simp only [copiedEntry] at h
  by_cases hverified : request.verified = true
  · rw [if_pos hverified, pure_bind] at h
    cases h
    obtain ⟨htidy, hsame⟩ : TidyItems ((dictEntry (source.state.get? m.name)).getD [])
        (records (source.state.get? m.name)) ∧ ∀ value,
          approvals (some (.dict ((dictEntry (source.state.get? m.name)).getD []))) value =
            approvals (source.state.get? m.name) value := hsource.getD_dict?
    have hkeep (kept : Items) := get_put_of_notMem (by decide : "equivalence" ∉ heldKeys)
      (.dict [("verified", .bool true), ("audio_revision", revisionValue request.audioRevision)]) kept
    obtain ⟨hkept, hheld⟩ := items_or_unknown htidy
    refine hlater (hkept.congr (hkeep _)) ?_
    rw [approvals_congr _ (hkeep _), hheld, hsame]
    exact .refl _
  · rw [if_neg hverified, bind_eq_ok] at h
    obtain ⟨kept, hkept, h⟩ := h
    cases h
    rw [dictEntry, hsource.map_dict?] at hkept
    have hunknown : ∀ key ∈ approvalKeys, IsPlain (get
        [("source", sourceUnknown), ("equivalence", .dict [("verified", .bool false)])] key) := by
      intro key hkey
      simp only [approvalKeys, List.mem_cons, List.not_mem_nil, or_false] at hkey
      rcases hkey with rfl | rfl | rfl | rfl | rfl | rfl <;> trivial
    obtain ⟨htidy, hadvances⟩ := withHistory_advances hsource hunknown hkept
    exact hlater (tidy_of_items htidy) (hadvances _)

/-- The marker is on the draft as it is copied. -/
structure CopiedAt (request : CopyRequest) (moment : Moment) (source : Row) (draft : Draft)
    (m : Marker) (entry : Items) : Prop where
  copied : copiedEntry request moment source m = .ok entry
  entry : draft.state.get? m.name = some (.dict entry)
  value : Dict.find m draft.newValues = some (.ofColumn (source.value m))

theorem copyMarker_eq_ok {x : Marker}
    (h : copyMarker request moment source row draft x = .ok next) :
    (source.value x = none ∧ next = draft) ∨ (source.value x ≠ none ∧
      ∃ entry, copiedEntry request moment source x = .ok entry ∧
        next.state = draft.state.insert x.name (.dict entry) ∧
          next.newValues = Dict.put x (.ofColumn (source.value x)) draft.newValues ∧
            next.result.ok = draft.result.ok) := by
  simp only [copyMarker] at h
  split_ifs at h with hnone
  · cases h
    exact .inl ⟨hnone.1, rfl⟩
  all_goals
    rw [bind_eq_ok] at h
    obtain ⟨entry, hentry, h⟩ := h
    have hvalue : source.value x ≠ none := by
      intro hvalue
      exact hnone ⟨hvalue, fun hcue => source.cueIn_ne_none (hcue ▸ hvalue)⟩
    cases h
    exact .inr ⟨hvalue, entry, hentry, rfl, rfl, rfl⟩

/-- Markers that are named and have a value are copied, the others stay. -/
theorem copyMarkers_at {xs : List Marker}
    (h : xs.foldlM (copyMarker request moment source row) draft = .ok next) (m : Marker) :
    (m ∈ xs ∧ source.value m ≠ none → ∃ entry, CopiedAt request moment source next m entry) ∧
      (m ∉ xs ∨ source.value m = none → next.state.get? m.name = draft.state.get? m.name ∧
        Dict.find m next.newValues = Dict.find m draft.newValues) := by
  induction xs using List.reverseRecOn generalizing next with
  | nil =>
    cases h
    simp
  | append_singleton xs x ih =>
    rw [List.foldlM_append, bind_eq_ok] at h
    obtain ⟨mid, hmid, hturn⟩ := h
    simp only [List.foldlM_cons, List.foldlM_nil, bind_pure] at hturn
    obtain ⟨hcopied, hkept⟩ := ih hmid
    rcases copyMarker_eq_ok hturn with ⟨hnone, rfl⟩ | ⟨hsome, entry, hentry, hstate, hvalues, -⟩
    · constructor
      · rintro ⟨hmem, hvalue⟩
        refine hcopied ⟨?_, hvalue⟩
        rcases List.mem_append.mp hmem with hmem | hmem
        · exact hmem
        · rw [List.mem_singleton.mp hmem] at hvalue
          exact absurd hnone hvalue
      · rintro (hmem | hvalue)
        · exact hkept (.inl fun hin => hmem (List.mem_append_left _ hin))
        · exact hkept (.inr hvalue)
    · by_cases hx : m = x
      · subst hx
        constructor
        · rintro -
          refine ⟨entry, hentry, ?_, ?_⟩
          · rw [hstate, Dict.get?_insert_self]
          · rw [hvalues, Dict.find_put, if_pos rfl]
        · rintro (hmem | hvalue)
          · exact absurd (by simp) hmem
          · exact absurd hvalue hsome
      · have hentry : next.state.get? m.name = mid.state.get? m.name := by
          rw [hstate, Dict.get?_insert, if_neg (name_ne hx)]
        have hvalue : Dict.find m next.newValues = Dict.find m mid.newValues := by
          rw [hvalues, Dict.find_put, if_neg hx]
        rw [hentry, hvalue]
        constructor
        · rintro ⟨hmem, hsource⟩
          obtain ⟨copied, hat⟩ := hcopied ⟨by simpa [hx] using hmem, hsource⟩
          exact ⟨copied, hat.copied, hentry.trans hat.entry, hvalue.trans hat.value⟩
        · exact fun hout => hkept (hout.imp_left fun hmem hin => hmem (List.mem_append_left _ hin))

/-- A row whose markers are well kept; before its first revision it has no entries. -/
structure TidyRow (row : Row) : Prop where
  entries : ∀ m : Marker, Tidy (row.state.get? m.name)
  untouched : row.revision = 0 → ∀ m : Marker, row.state.get? m.name = none

theorem copyLocked_at (hsource : TidyRow source) (hrow : TidyRow row)
    (h : copyLocked request moment source row = .ok (result, after)) :
    TidyRow after ∧ ((after = row ∧ ∀ r, result = .ok r → r.ok = true → ∀ m : Marker,
        m.name ∈ request.names → source.value m = none) ∨
      (∃ r, result = .ok r ∧ r.ok = true) ∧ ∀ m : Marker,
        (m.name ∈ request.names ∧ source.value m ≠ none → row.approvals m = ⟨[], none⟩ ∧
          (source.approvals m).Advances approvalPart none (after.approvals m)) ∧
        (m.name ∉ request.names ∨ source.value m = none →
          after.approvals m = row.approvals m)) := by
  simp only [copyLocked] at h
  split_ifs at h with hset
  · cases h
    exact ⟨hrow, .inl ⟨rfl, by simp⟩⟩
  · rw [ne_eq, not_not] at hset
    rw [bind_eq_ok] at h
    obtain ⟨draft, hdraft, h⟩ := h
    rw [bind_eq_ok] at h
    obtain ⟨⟨committed, written⟩, hcommit, h⟩ := h
    cases h
    have hmem (m : Marker) :
        m ∈ request.names.filterMap Marker.ofName? ↔ m.name ∈ request.names := by
      refine ⟨name_mem_of_ofName?, fun hname => ?_⟩
      exact List.mem_filterMap.mpr ⟨_, hname, Marker.ofName?_eq_some.mpr rfl⟩
    have hok : draft.result.ok = true := by
      refine foldlM_induction (I := fun d => d.result.ok = true) (fun d x _ d' hd hturn => ?_) rfl
        hdraft
      rcases copyMarker_eq_ok hturn with ⟨-, rfl⟩ | ⟨-, entry, -, -, -, hresult⟩
      · exact hd
      · rw [hresult, hd]
    rcases commit_cases hcommit with ⟨rfl, hresult⟩ | ⟨rfl, hnothing, -, -, -⟩ |
      ⟨hstate, hrevision, hvalue, hresult, -⟩
    · refine ⟨hrow, .inl ⟨rfl, fun r hr hrok => ?_⟩⟩
      cases hr
      simp [hresult] at hrok
    · refine ⟨hrow, .inl ⟨rfl, fun r _ _ m hname => ?_⟩⟩
      by_contra hsome
      obtain ⟨entry, hat⟩ := (copyMarkers_at hdraft m).1 ⟨(hmem m).mpr hname, hsome⟩
      have hnew := hat.value
      rw [hnothing] at hnew
      cases hnew
    · have hcopied (m : Marker) (hm : m.name ∈ request.names ∧ source.value m ≠ none) :
          Tidy (written.state.get? m.name) ∧
            (source.approvals m).Advances approvalPart none (written.approvals m) := by
        obtain ⟨entry, hat⟩ := (copyMarkers_at hdraft m).1 ⟨(hmem m).mpr hm.1, hm.2⟩
        obtain ⟨htidy, hadvances⟩ := copiedEntry_advances (hsource.entries m) hat.copied
        rw [approvals_of_written hstate hvalue, Draft.approvals, hstate, hat.entry, finalValues,
          hat.value, Option.getD_some, number?_ofColumn]
        exact ⟨htidy, hadvances⟩
      have hkept (m : Marker) (hm : m.name ∉ request.names ∨ source.value m = none) :
          Fresh row draft m := by
        obtain ⟨hentry, hnew⟩ := (copyMarkers_at hdraft m).2 (hm.imp_left (mt (hmem m).mp))
        exact ⟨hentry, hnew⟩
      refine ⟨⟨fun m => ?_, fun hzero =>
        absurd (hrevision.symm.trans hzero) (Nat.succ_ne_zero _)⟩, .inr ⟨⟨committed, rfl, hresult.trans hok⟩,
        fun m => ⟨fun hm => ⟨?_, (hcopied m hm).2⟩, fun hm => ?_⟩⟩⟩
      · by_cases hm : m.name ∈ request.names ∧ source.value m ≠ none
        · exact (hcopied m hm).1
        · rw [not_and_or, not_not] at hm
          rw [hstate, (hkept m hm).entry]
          exact hrow.entries m
      · rw [Row.approvals, hrow.untouched hset]
        rfl
      · rw [approvals_of_written hstate hvalue, (hkept m hm).approvals_eq]

end Copy

/-! ## The library -/

/-- The tracks by their ids. -/
abbrev Library := ℕ → Option Row

/-- The approvals of a marker of a track. -/
def approvalsOf (lib : Library) (t : ℕ) (m : Marker) : Succession Items Items :=
  (lib t).elim ⟨[], none⟩ fun row => row.approvals m

/-- An edit reports that it set or approved the marker: an approval is granted. -/
def Call.grants (before : Option Row) (m : Marker) : Call → Bool
  | .edit request moment =>
      match operatorEdit request moment before with
      | .ok (result, _) => result.ok && (m ∈ result.approved || m ∈ result.changed.map Prod.fst)
      | .error _ => false
  | _ => false

/-- An edit is one of an authenticated user. -/
def Call.Authenticated : Call → Prop
  | .edit request _ => ∃ user, request.user = some user ∧ user.isAuthenticated = true
  | _ => True

inductive LibraryCall where
  | on (track : ℕ) (call : Call)
  | copy (request : CopyRequest) (moment : Moment)

namespace LibraryCall

/-- What a call leaves; one that raises is rolled back. -/
def step : LibraryCall → Library → Library
  | on track call, lib => Function.update lib track (call.step (lib track))
  | copy request moment, lib =>
      match copyForEquivalentMedia request moment (lib request.source) (lib request.target) with
      | .ok (_, after) => Function.update lib request.target after
      | .error _ => lib

def grants (lib : Library) (t : ℕ) (m : Marker) : LibraryCall → Bool
  | on track call => t = track && call.grants (lib track) m
  | copy _ _ => false

/-- The track from which a successful copy carries the marker to the track. -/
def copiesFrom (lib : Library) (t : ℕ) (m : Marker) : LibraryCall → Option ℕ
  | copy request moment =>
      match copyForEquivalentMedia request moment (lib request.source) (lib request.target) with
      | .ok (.ok result, _) =>
          if result.ok = true ∧ t = request.target ∧ m.name ∈ request.names ∧
              (lib request.source).any (fun row => (row.value m).isSome) = true then
            some request.source
          else none
      | _ => none
  | on _ _ => none

def Authenticated : LibraryCall → Prop
  | on _ call => call.Authenticated
  | copy _ _ => True

/-- The log of approvals after a call: a copy starts with the log of its source, and what an edit
grants is added at the end. -/
def record (call : LibraryCall) (lib : Library) (log : ℕ → Marker → List Items) (t : ℕ)
    (m : Marker) : List Items :=
  match call.copiesFrom lib t m with
  | some source => log source m
  | none =>
      if call.grants lib t m = true then log t m ++ (approvalsOf (call.step lib) t m).current.toList
      else log t m

end LibraryCall

/-- Every approval that was granted in a run, in order. -/
def grantedIn : List LibraryCall → Library → (ℕ → Marker → List Items) → ℕ → Marker → List Items
  | [], _, log => log
  | call :: calls, lib, log => grantedIn calls (call.step lib) (call.record lib log)

/-- Every track of the library is well kept. -/
def TidyLibrary (lib : Library) : Prop := ∀ t row, lib t = some row → TidyRow row

section Steps

variable {lib : Library} {request : EditRequest} {moment : Moment} {after : Option Row} {row : Row}

theorem userId_of_authenticated
    (h : ∃ user, request.user = some user ∧ user.isAuthenticated = true) :
    (userId request.user).equal .none = false := by
  obtain ⟨user, huser, hauth⟩ := h
  simp [userId, huser, hauth, PyValue.equal]

theorem operatorEdit_at {before : Option Row}
    {result : Result} (h : operatorEdit request moment before = .ok (result, after)) :
    (after = before ∧ result.ok = false) ∨ ∃ row row', before = some row ∧ after = some row' ∧
      ∃ values, editLocked request moment row values = .ok (result, row') ∧
        (values.map Prod.fst).Nodup ∧ ∀ m : Marker, m.name ∈ request.unlock →
          m ∉ values.map Prod.fst ∧ m.name ∉ request.approve := by
  simp only [operatorEdit] at h
  split_ifs at h with hunknown hoverlap
  · cases h
    exact .inl ⟨rfl, rfl⟩
  · cases h
    exact .inl ⟨rfl, rfl⟩
  · cases h
    exact .inl ⟨rfl, rfl⟩
  · rw [bind_eq_ok] at h
    obtain ⟨coerced, hcoerced, h⟩ := h
    split at h
    · cases h
      exact .inl ⟨rfl, rfl⟩
    · rename_i values
      split at h
      · cases h
        exact .inl ⟨rfl, rfl⟩
      · rename_i row
        rw [bind_eq_ok] at h
        obtain ⟨⟨locked, row'⟩, hlocked, h⟩ := h
        cases h
        have hfst := map_fst_coerceValues hcoerced
        refine .inr ⟨row, row', rfl, rfl, values, hlocked, ?_, fun m hm => ?_⟩
        · rw [hfst]
          exact nodup_namedMarkers request.values
        · rw [ne_eq, not_not, List.filter_eq_nil_iff] at hoverlap
          have hfree := hoverlap m.name hm
          rw [decide_eq_true_eq, not_or] at hfree
          refine ⟨fun hmem => hfree.1 ?_, hfree.2⟩
          rw [hfst] at hmem
          obtain ⟨item, hitem, rfl⟩ := List.mem_map.mp hmem
          exact mem_keys_of_namedMarkers hitem

/-- One call on one row. -/
theorem call_at {call : Call} {after : Row} (hcall : call.Authenticated) (hrow : TidyRow row)
    (hafter : call.step (some row) = some after) (m : Marker) :
    Tidy (after.state.get? m.name) ∧ ∃ granted : Option Items,
      granted.isSome = call.grants (some row) m ∧
        (row.approvals m).Advances approvalPart granted (after.approvals m) := by
  have hentry := hrow.entries m
  cases call with
  | edit request moment =>
    simp only [Call.step, Call.perform, Call.grants] at hafter ⊢
    cases hedit : operatorEdit request moment (some row) with
    | error e =>
      simp only [hedit] at hafter
      cases hafter
      exact ⟨hentry, none, rfl, .refl _⟩
    | ok answer =>
      obtain ⟨result, edited⟩ := answer
      simp only [hedit] at hafter
      subst hafter
      rcases operatorEdit_at hedit with ⟨hsame, hresult⟩ | ⟨r, r', hr, hr', values, hlocked, hdistinct, hunlock⟩
      · cases hsame
        exact ⟨hentry, none, by simp [hresult], .refl _⟩
      · cases hr
        cases hr'
        obtain ⟨granted, hat⟩ := editLocked_editedAt (userId_of_authenticated hcall) hentry hdistinct
          (hunlock m) hlocked
        refine ⟨hat.tidy, granted, ?_, hat.advances⟩
        rw [Bool.eq_iff_iff, hat.reported]
        simp [Named]
  | calculate request moment =>
    suffices hsettled : Tidy (after.state.get? m.name) ∧
        (row.approvals m).Advances approvalPart none (after.approvals m) from
      ⟨hsettled.1, none, rfl, hsettled.2⟩
    simp only [Call.step, Call.perform] at hafter
    cases hcalculation : applyCalculation request moment (some row) with
    | error e =>
      simp only [hcalculation] at hafter
      cases hafter
      exact ⟨hentry, .refl _⟩
    | ok answer =>
      obtain ⟨result, calculated⟩ := answer
      simp only [hcalculation] at hafter
      subst hafter
      simp only [applyCalculation] at hcalculation
      split_ifs at hcalculation
      · cases hcalculation
        exact ⟨hentry, .refl _⟩
      · cases hcalculation
        exact ⟨hentry, .refl _⟩
      · rw [bind_eq_ok] at hcalculation
        obtain ⟨⟨locked, row'⟩, hlocked, hcalculation⟩ := hcalculation
        cases hcalculation
        exact applyLocked_settled hentry hlocked
  | columns duration path =>
    cases hafter
    exact ⟨hentry, none, rfl, .refl _⟩

theorem tidyRow_step {call : Call} {after : Row} (hcall : call.Authenticated) (hrow : TidyRow row)
    (hafter : call.step (some row) = some after) : TidyRow after := by
  refine ⟨fun m => (call_at hcall hrow hafter m).1, fun hzero m => ?_⟩
  have hunchanged : ¬Changes row after := by
    intro hchanges
    have hnext := ((guarantee call (some row)).revision row after rfl hafter hchanges).2
    omega
  simp only [Changes, not_or, not_not] at hunchanged
  rw [hunchanged.2.1]
  exact hrow.untouched (hunchanged.2.2.symm.trans hzero) m

theorem approvalsOf_update (t t' : ℕ) (row : Option Row) (m : Marker) :
    approvalsOf (Function.update lib t row) t' m =
      if t' = t then row.elim ⟨[], none⟩ (fun row => row.approvals m) else approvalsOf lib t' m := by
  by_cases ht : t' = t
  · subst ht
    simp [approvalsOf]
  · simp [approvalsOf, ht]

/-- What one call does to the approvals of a marker of a track. -/
def StepAt (call : LibraryCall) (lib : Library) (t : ℕ) (m : Marker) : Prop :=
  (call.copiesFrom lib t m = none ∧ ∃ granted : Option Items, granted.isSome = call.grants lib t m ∧
    (approvalsOf lib t m).Advances approvalPart granted (approvalsOf (call.step lib) t m)) ∨
  ∃ source, call.copiesFrom lib t m = some source ∧ approvalsOf lib t m = ⟨[], none⟩ ∧
    (approvalsOf lib source m).Advances approvalPart none (approvalsOf (call.step lib) t m)

theorem step_none (call : Call) : call.step none = none := by
  cases hperform : call.perform none with
  | error e => simp [Call.step, hperform]
  | ok answer =>
    obtain ⟨result, after⟩ := answer
    have hstep : call.step none = after := by simp [Call.step, hperform]
    rw [hstep]
    cases call with
    | edit request moment =>
      have hedit : operatorEdit request moment none = .ok (result, after) := hperform
      rcases operatorEdit_applied hedit with rfl | ⟨-, row, row', hrow, -⟩
      · rfl
      · cases hrow
    | calculate request moment =>
      have hcalculation : applyCalculation request moment none = .ok (result, after) := hperform
      rcases applyCalculation_applied hcalculation with rfl | ⟨-, row, row', hrow, -⟩
      · rfl
      · cases hrow
    | columns duration path =>
      cases hperform
      rfl

theorem grants_none (call : Call) (m : Marker) : call.grants none m = false := by
  cases call with
  | edit request moment =>
    simp only [Call.grants]
    cases hedit : operatorEdit request moment none with
    | error e => rfl
    | ok answer =>
      obtain ⟨result, after⟩ := answer
      rcases operatorEdit_at hedit with ⟨-, hresult⟩ | ⟨row, row', hrow, -⟩
      · simp [hresult]
      · cases hrow
  | calculate request moment => rfl
  | columns duration path => rfl

theorem stepAt_on {track : ℕ} {call : Call} (hlib : TidyLibrary lib) (hcall : call.Authenticated) :
    TidyLibrary ((LibraryCall.on track call).step lib) ∧ ∀ t m, StepAt (.on track call) lib t m := by
  constructor
  · intro t row hrow
    simp only [LibraryCall.step, Function.update_apply] at hrow
    split_ifs at hrow
    · cases hbefore : lib track with
      | none =>
        rw [hbefore, step_none] at hrow
        cases hrow
      | some before =>
        rw [hbefore] at hrow
        exact tidyRow_step hcall (hlib track before hbefore) hrow
    · exact hlib t row hrow
  · intro t m
    refine .inl ⟨rfl, ?_⟩
    simp only [LibraryCall.step, LibraryCall.grants, approvalsOf_update]
    by_cases ht : t = track
    · subst ht
      rw [if_pos rfl, decide_eq_true rfl, Bool.true_and]
      cases hbefore : lib t with
      | none =>
        rw [step_none, grants_none, approvalsOf, hbefore]
        exact ⟨none, rfl, .refl _⟩
      | some before =>
        obtain ⟨after, hafter⟩ := call.exists_step before
        obtain ⟨-, granted, hgranted, hadvances⟩ := call_at hcall (hlib t before hbefore) hafter m
        rw [hafter, approvalsOf, hbefore]
        exact ⟨granted, hgranted, hadvances⟩
    · rw [if_neg ht, decide_eq_false ht, Bool.false_and]
      exact ⟨none, rfl, .refl _⟩

theorem copyForEquivalentMedia_eq_ok {request : CopyRequest}
    {source target : Option Row} {result : Except CopyRefusal Result}
    (h : copyForEquivalentMedia request moment source target = .ok (result, after)) :
    (after = target ∧ ∃ e, result = .error e) ∨ ∃ from' row row', source = some from' ∧
      target = some row ∧ after = some row' ∧ request.source ≠ request.target ∧
        copyLocked request moment from' row = .ok (result, row') := by
  simp only [copyForEquivalentMedia] at h
  split_ifs at h with hunknown hsame
  · cases h
    exact .inl ⟨rfl, _, rfl⟩
  · cases h
    exact .inl ⟨rfl, _, rfl⟩
  · cases h
    exact .inl ⟨rfl, _, rfl⟩
  · split at h
    · rename_i from' row
      rw [bind_eq_ok] at h
      obtain ⟨⟨locked, row'⟩, hlocked, h⟩ := h
      cases h
      exact .inr ⟨from', row, row', rfl, rfl, rfl, hsame, hlocked⟩
    · cases h
      exact .inl ⟨rfl, _, rfl⟩

theorem stepAt_copy {request : CopyRequest} (hlib : TidyLibrary lib) :
    TidyLibrary ((LibraryCall.copy request moment).step lib) ∧
      ∀ t m, StepAt (.copy request moment) lib t m := by
  have hsame (hstep : (LibraryCall.copy request moment).step lib = lib)
      (hcopies : ∀ t m, (LibraryCall.copy request moment).copiesFrom lib t m = none) :
      TidyLibrary ((LibraryCall.copy request moment).step lib) ∧
        ∀ t m, StepAt (.copy request moment) lib t m := by
    rw [hstep]
    refine ⟨hlib, fun t m => .inl ⟨hcopies t m, none, rfl, ?_⟩⟩
    rw [hstep]
    exact .refl _
  cases hcopy : copyForEquivalentMedia request moment (lib request.source) (lib request.target) with
  | error e =>
    exact hsame (by simp [LibraryCall.step, hcopy]) fun t m => by simp [LibraryCall.copiesFrom, hcopy]
  | ok answer =>
    obtain ⟨result, after⟩ := answer
    have hstep : (LibraryCall.copy request moment).step lib =
        Function.update lib request.target after := by
      simp [LibraryCall.step, hcopy]
    rcases copyForEquivalentMedia_eq_ok hcopy with ⟨rfl, e, rfl⟩ |
      ⟨source, row, row', hsource, hrow, rfl, hdistinct, hlocked⟩
    · refine hsame (by rw [hstep, Function.update_eq_self]) fun t m => ?_
      simp [LibraryCall.copiesFrom, hcopy]
    · obtain ⟨htidy, hends⟩ := copyLocked_at (hlib _ _ hsource) (hlib _ _ hrow) hlocked
      have hcopies (t : ℕ) (m : Marker) (r : Result) (hr : result = .ok r) :
          (LibraryCall.copy request moment).copiesFrom lib t m =
            if r.ok = true ∧ t = request.target ∧ m.name ∈ request.names ∧ source.value m ≠ none then
              some request.source else none := by
        simp only [LibraryCall.copiesFrom, hcopy, hr]
        simp [hsource, Option.isSome_iff_ne_none]
      rcases hends with ⟨rfl, hnothing⟩ | ⟨⟨r, hr, hok⟩, hends⟩
      · refine hsame (by rw [hstep, ← hrow, Function.update_eq_self]) fun t m => ?_
        cases result with
        | error e => simp [LibraryCall.copiesFrom, hcopy]
        | ok r =>
          rw [hcopies t m r rfl, if_neg]
          rintro ⟨hok, -, hname, hvalue⟩
          exact hvalue (hnothing r rfl hok m hname)
      · rw [hstep]
        constructor
        · intro t row'' hrow''
          rw [Function.update_apply] at hrow''
          split_ifs at hrow''
          · cases hrow''
            exact htidy
          · exact hlib t row'' hrow''
        · intro t m
          rw [StepAt, hstep, hcopies t m r hr, approvalsOf_update]
          by_cases hcopied : t = request.target ∧ m.name ∈ request.names ∧ source.value m ≠ none
          · obtain ⟨rfl, hnamed⟩ := hcopied
            obtain ⟨hvacant, hadvances⟩ := (hends m).1 hnamed
            refine .inr ⟨request.source, if_pos ⟨hok, rfl, hnamed⟩, ?_, ?_⟩
            · rw [approvalsOf, hrow]
              exact hvacant
            · rw [approvalsOf, hsource, if_pos rfl]
              exact hadvances
          · refine .inl ⟨if_neg fun h => hcopied h.2, none, rfl, ?_⟩
            by_cases ht : t = request.target
            · subst ht
              simp only [true_and, not_and_or, not_not] at hcopied
              rw [if_pos rfl, approvalsOf, hrow, Option.elim_some, Option.elim_some,
                (hends m).2 hcopied]
              exact .refl _
            · rw [if_neg ht]
              exact .refl _

theorem stepAt {call : LibraryCall} (hlib : TidyLibrary lib) (hcall : call.Authenticated) :
    TidyLibrary (call.step lib) ∧ ∀ t m, StepAt call lib t m := by
  cases call with
  | on track call => exact stepAt_on hlib hcall
  | copy request moment => exact stepAt_copy hlib

variable {call : LibraryCall} {t : ℕ} {m : Marker}

/-- Neither the records nor what was granted ever shrinks or changes. -/
theorem StepAt.extends (h : StepAt call lib t m) :
    (approvalsOf lib t m).past <+: (approvalsOf (call.step lib) t m).past ∧
      (approvalsOf lib t m).ledger approvalPart <+:
        (approvalsOf (call.step lib) t m).ledger approvalPart := by
  rcases h with ⟨-, granted, -, hadvances⟩ | ⟨source, -, hvacant, -⟩
  · refine ⟨hadvances.past, ?_⟩
    rw [hadvances.ledger]
    exact List.prefix_append _ _
  · rw [hvacant]
    exact ⟨List.nil_prefix, List.nil_prefix⟩

/-- Only what stood is recorded, on a copy also what its source has. -/
def Recorded (call : LibraryCall) (lib : Library) : Prop :=
  ∀ t m, ∀ r ∈ (approvalsOf (call.step lib) t m).past, r ∈ (approvalsOf lib t m).past ∨
    (approvalsOf lib t m).current = some (approvalPart r) ∨
      ∃ source, call.copiesFrom lib t m = some source ∧
        (r ∈ (approvalsOf lib source m).past ∨
          (approvalsOf lib source m).current = some (approvalPart r))

theorem recorded (hlib : TidyLibrary lib) (hcall : call.Authenticated) : Recorded call lib := by
  intro t m r hr
  rcases (stepAt hlib hcall).2 t m with ⟨-, granted, -, hadvances⟩ | ⟨source, hcopies, -, hadvances⟩
  · exact (hadvances.recorded hr).imp_right .inl
  · exact .inr (.inr ⟨source, hcopies, hadvances.recorded hr⟩)

/-- The log and the markers say the same after a call. -/
theorem record_eq {log : ℕ → Marker → List Items} (hlib : TidyLibrary lib)
    (hcall : call.Authenticated)
    (hlog : log = fun t m => (approvalsOf lib t m).ledger approvalPart) :
    call.record lib log = fun t m => (approvalsOf (call.step lib) t m).ledger approvalPart := by
  funext t m
  rcases (stepAt hlib hcall).2 t m with
    ⟨hcopies, granted, hgranted, hadvances⟩ | ⟨source, hcopies, -, hadvances⟩
  · simp only [LibraryCall.record, hcopies, ← hgranted, hadvances.ledger, hlog]
    cases granted with
    | none => simp
    | some a => simp [hadvances.current a rfl]
  · simp only [LibraryCall.record, hcopies, hadvances.ledger, hlog, Option.toList_none,
      List.append_nil]

end Steps

/-! ## Runs -/

section Runs

variable {lib : Library} {calls : List LibraryCall}

theorem tidyLibrary_run (hlib : TidyLibrary lib) (hcalls : ∀ call ∈ calls, call.Authenticated) :
    TidyLibrary (Runs.run LibraryCall.step calls lib) := by
  induction calls generalizing lib with
  | nil => exact hlib
  | cons call calls ih =>
    exact ih (stepAt hlib (hcalls call (by simp))).1 fun c hc => hcalls c (by simp [hc])

theorem extends_run (hlib : TidyLibrary lib) (hcalls : ∀ call ∈ calls, call.Authenticated) (t : ℕ)
    (m : Marker) :
    (approvalsOf lib t m).past <+: (approvalsOf (Runs.run LibraryCall.step calls lib) t m).past ∧
      (approvalsOf lib t m).ledger approvalPart <+:
        (approvalsOf (Runs.run LibraryCall.step calls lib) t m).ledger approvalPart := by
  induction calls generalizing lib with
  | nil => exact ⟨List.prefix_rfl, List.prefix_rfl⟩
  | cons call calls ih =>
    obtain ⟨htidy, hat⟩ := stepAt hlib (hcalls call (by simp))
    obtain ⟨hpast, hledger⟩ := (hat t m).extends
    obtain ⟨hpast', hledger'⟩ := ih htidy fun c hc => hcalls c (by simp [hc])
    exact ⟨hpast.trans hpast', hledger.trans hledger'⟩

theorem granted_run (hlib : TidyLibrary lib) (hcalls : ∀ call ∈ calls, call.Authenticated) :
    grantedIn calls lib (fun t m => (approvalsOf lib t m).ledger approvalPart) =
      fun t m => (approvalsOf (Runs.run LibraryCall.step calls lib) t m).ledger approvalPart := by
  induction calls generalizing lib with
  | nil => rfl
  | cons call calls ih =>
    have hcall := hcalls call (by simp)
    rw [grantedIn, record_eq hlib hcall rfl]
    exact ih (stepAt hlib hcall).1 fun c hc => hcalls c (by simp [hc])

/-- In every run the histories and the current approvals are exactly what was granted, each once and
in order; a history only grows at its end, by what stood; and every entry stays well kept. -/
theorem approvals_are_kept (hlib : TidyLibrary lib) (hcalls : ∀ call ∈ calls, call.Authenticated) :
    TidyLibrary (Runs.run LibraryCall.step calls lib) ∧
      (∀ t m, grantedIn calls lib (fun t m => (approvalsOf lib t m).ledger approvalPart) t m =
        (approvalsOf (Runs.run LibraryCall.step calls lib) t m).ledger approvalPart) ∧
      (∀ first second, calls = first ++ second → ∀ t m,
        (approvalsOf (Runs.run LibraryCall.step first lib) t m).past <+:
          (approvalsOf (Runs.run LibraryCall.step calls lib) t m).past ∧
        ∀ a, (approvalsOf (Runs.run LibraryCall.step first lib) t m).current = some a →
          ((approvalsOf (Runs.run LibraryCall.step calls lib) t m).past =
              (approvalsOf (Runs.run LibraryCall.step first lib) t m).past ∧
            (approvalsOf (Runs.run LibraryCall.step calls lib) t m).current = some a) ∨
          ∃ r rest, (approvalsOf (Runs.run LibraryCall.step calls lib) t m).past =
              (approvalsOf (Runs.run LibraryCall.step first lib) t m).past ++ r :: rest ∧
            approvalPart r = a) ∧
      Runs.Throughout LibraryCall.step Recorded calls lib := by
  refine ⟨tidyLibrary_run hlib hcalls, fun t m => congrFun (congrFun (granted_run hlib hcalls) t) m,
    ?_, ?_⟩
  · rintro first second rfl t m
    have hfirst := tidyLibrary_run hlib fun c hc => hcalls c (List.mem_append_left second hc)
    obtain ⟨hpast, hledger⟩ := extends_run hfirst
      (fun c hc => hcalls c (List.mem_append_right first hc)) t m
    rw [Runs.run_append]
    exact ⟨hpast, fun a ha => Succession.stands_or_recorded hpast hledger ha⟩
  · induction calls generalizing lib with
    | nil => trivial
    | cons call calls ih =>
      have hcall := hcalls call (by simp)
      exact ⟨recorded hlib hcall, ih (stepAt hlib hcall).1 fun c hc => hcalls c (by simp [hc])⟩

end Runs

/-- Two tracks that no call has touched yet. -/
def importedLibrary : Library := fun t => if t = 1 ∨ t = 2 then some importedRow else none

theorem tidy_importedLibrary : TidyLibrary importedLibrary := by
  intro t row hrow
  simp only [importedLibrary] at hrow
  split_ifs at hrow
  cases hrow
  exact ⟨fun m => .inl rfl, fun _ m => rfl⟩

/-- Cue Out is set twice and then carried to a track whose audio nothing proves equal. -/
def setAndCopy : List LibraryCall :=
  [.on 1 (setCueOut 0 5), .on 1 (setCueOut 1 6),
    .copy ⟨1, 2, ["cue_out_seconds"], none, none⟩ ⟨"2026-08-11T09:05:00", false⟩]

theorem approvals_are_kept_sample :
    TidyLibrary (Runs.run LibraryCall.step setAndCopy importedLibrary) ∧
      (approvalsOf (Runs.run LibraryCall.step setAndCopy importedLibrary) 1
        .cueOutSeconds).past.length = 1 ∧
      (approvalsOf (Runs.run LibraryCall.step setAndCopy importedLibrary) 2
        .cueOutSeconds).past.length = 2 := by
  refine ⟨(approvals_are_kept tidy_importedLibrary fun call hcall => ?_).1, by decide +kernel,
    by decide +kernel⟩
  simp only [setAndCopy, List.mem_cons, List.not_mem_nil, or_false] at hcall
  rcases hcall with rfl | rfl | rfl
  · exact ⟨⟨7, true⟩, rfl, rfl⟩
  · exact ⟨⟨7, true⟩, rfl, rfl⟩
  · trivial

end IsadoraAir.CueMarkers
