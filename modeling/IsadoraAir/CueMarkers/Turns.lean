import IsadoraAir.CueMarkers.Approvals
import IsadoraAir.CueMarkers.Authority

/-!
# What a turn does to one marker

A turn of a loop touches one marker only, so what a call does to a marker is
what its one effective turn does. The turns of an edit may grant an approval,
those of a calculation only retire one.
-/

namespace IsadoraAir.CueMarkers

open PyValue (get dict?)

variable {items newEntry : Items} {x : Marker} {entry : Option PyValue} {key reason s : String}

/-! ## One marker of a draft -/

/-- The edit reports that it set or approved the marker. -/
def Named (result : Result) (m : Marker) : Prop :=
  m ∈ result.approved ∨ m ∈ result.changed.map Prod.fst

/-- The approvals of a marker as the row has them. -/
def Row.approvals (row : Row) (m : Marker) : Succession Items Items :=
  CueMarkers.approvals (row.state.get? m.name) (row.value m)

/-- The approvals of a marker as a draft would write them. -/
def Draft.approvals (draft : Draft) (row : Row) (m : Marker) : Succession Items Items :=
  CueMarkers.approvals (draft.state.get? m.name) (finalValues row draft.newValues m).number?

/-- Nothing of the marker differs between two drafts. -/
structure SameAt (m : Marker) (draft next : Draft) : Prop where
  entry : next.state.get? m.name = draft.state.get? m.name
  value : Dict.find m next.newValues = Dict.find m draft.newValues
  named : Named next.result m ↔ Named draft.result m

/-- The draft has the marker as the row has it. -/
structure Fresh (row : Row) (draft : Draft) (m : Marker) : Prop where
  entry : draft.state.get? m.name = row.state.get? m.name
  value : Dict.find m draft.newValues = none

section Drafts

variable {row : Row} {draft next : Draft} {m : Marker}

theorem SameAt.refl (m : Marker) (d : Draft) : SameAt m d d := ⟨rfl, rfl, Iff.rfl⟩

theorem SameAt.trans {third : Draft} (h : SameAt m draft next) (h' : SameAt m next third) :
    SameAt m draft third :=
  ⟨h'.entry.trans h.entry, h'.value.trans h.value, h'.named.trans h.named⟩

theorem Fresh.sameAt (h : Fresh row draft m) (hsame : SameAt m draft next) : Fresh row next m :=
  ⟨hsame.entry.trans h.entry, hsame.value.trans h.value⟩

theorem Fresh.approvals_eq (h : Fresh row draft m) : draft.approvals row m = row.approvals m := by
  rw [Draft.approvals, Row.approvals, h.entry, finalValues, h.value, Option.getD_none,
    number?_ofColumn]

theorem approvals_of_sameAt (hsame : SameAt m draft next) :
    next.approvals row m = draft.approvals row m := by
  rw [Draft.approvals, Draft.approvals, hsame.entry, finalValues, finalValues, hsame.value]

theorem fresh_start (row : Row) (m : Marker) : Fresh row ⟨row.state, [], {}⟩ m := ⟨rfl, rfl⟩

theorem not_named_start (row : Row) (m : Marker) :
    ¬Named (⟨row.state, [], {}⟩ : Draft).result m := by
  simp [Named]

theorem name_ne (h : m ≠ x) : m.name ≠ x.name := fun heq =>
  h (Marker.name_injective heq)

/-- A draft with an entry of another marker, and perhaps a new value of it. -/
theorem sameAt_of_insert (hne : m ≠ x) {entry : PyValue}
    (hstate : next.state = draft.state.insert x.name entry)
    (hvalue : Dict.find m next.newValues = Dict.find m draft.newValues)
    (hnamed : Named next.result m ↔ Named draft.result m) : SameAt m draft next :=
  ⟨by rw [hstate, Dict.get?_insert, if_neg (name_ne hne)], hvalue, hnamed⟩

theorem find_snoc_of_ne (hne : m ≠ x) (values : List (Marker × Submitted))
    (v : Submitted) : Dict.find m (values ++ [(x, v)]) = Dict.find m values := by
  rw [Dict.find_append]
  simp [Dict.find, hne.symm]

/-- Each of the loops handles a marker in its own turn only. -/
theorem foldlM_elsewhere {α : Type} {f : Draft → α → Except Raised Draft} (key : α → Marker)
    (helse : ∀ d x d', f d x = .ok d' → ∀ m, m ≠ key x → SameAt m d d') {xs : List α}
    (h : xs.foldlM f draft = .ok next) (hm : m ∉ xs.map key) : SameAt m draft next := by
  induction xs generalizing draft with
  | nil =>
    cases h
    exact .refl m _
  | cons x xs ih =>
    rw [List.foldlM_cons, bind_eq_ok] at h
    obtain ⟨mid, hmid, hrest⟩ := h
    rw [List.map_cons, List.mem_cons, not_or] at hm
    exact (helse draft x mid hmid m hm.1).trans (ih hrest hm.2)

/-- In a loop over distinct markers the marker has one turn, if any. -/
theorem foldlM_at {α : Type} {f : Draft → α → Except Raised Draft} (key : α → Marker)
    (helse : ∀ d x d', f d x = .ok d' → ∀ m, m ≠ key x → SameAt m d d') {xs : List α}
    (hdistinct : (xs.map key).Nodup) (h : xs.foldlM f draft = .ok next) (m : Marker) :
    SameAt m draft next ∨ ∃ x ∈ xs, key x = m ∧ ∃ b b', SameAt m draft b ∧ f b x = .ok b' ∧
      SameAt m b' next := by
  induction xs generalizing draft with
  | nil =>
    cases h
    exact .inl (.refl m _)
  | cons x xs ih =>
    rw [List.foldlM_cons, bind_eq_ok] at h
    obtain ⟨mid, hmid, hrest⟩ := h
    rw [List.map_cons, List.nodup_cons] at hdistinct
    by_cases hx : m = key x
    · subst hx
      exact .inr ⟨x, by simp, rfl, draft, mid, .refl _ _, hmid,
        foldlM_elsewhere key helse hrest hdistinct.1⟩
    · have hbefore := helse draft x mid hmid m hx
      rcases ih hdistinct.2 hrest with hsame | ⟨y, hy, hkey, b, b', hb, hturn, hb'⟩
      · exact .inl (hbefore.trans hsame)
      · exact .inr ⟨y, by simp [hy], hkey, b, b', hbefore.trans hb, hturn, hb'⟩

end Drafts

/-- An entry that is a dictionary is read as it is. -/
theorem Tidy.bind_dict? (h : Tidy entry) :
    (entry.bind fun entry => entry.dict?.map PyValue.dict) = entry := by
  rcases h with rfl | ⟨items, history, rfl, hitems⟩ <;> rfl

theorem Tidy.map_dict? (h : Tidy entry) : (entry.bind dict?).map PyValue.dict = entry := by
  rcases h with rfl | ⟨items, history, rfl, hitems⟩ <;> rfl

theorem Tidy.congr {a b : Items} (h : Tidy (some (.dict a)))
    (hsame : ∀ key ∈ heldKeys, get b key = get a key) : Tidy (some (.dict b)) := by
  rcases h with h | ⟨items, history, heq, hitems⟩
  · cases h
  · cases heq
    exact tidy_of_items (hitems.congr fun key hkey => hsame key (List.mem_cons_of_mem _ hkey))

theorem Tidy.dict?_eq_some (h : Tidy entry) (hitems : entry.bind dict? = some items) :
    entry = some (.dict items) ∧ ∀ key ∈ approvalKeys, IsPlain (get items key) := by
  rcases h with rfl | ⟨other, history, rfl, htidy⟩
  · cases hitems
  · cases hitems
    exact ⟨rfl, htidy.plain⟩

/-- `dict(entry or {})` holds what the entry holds. -/
theorem Tidy.getD_dict? (h : Tidy entry) :
    TidyItems ((entry.bind dict?).getD []) (records entry) ∧
      ∀ value, approvals (some (.dict ((entry.bind dict?).getD []))) value =
        approvals entry value := by
  rcases h with rfl | ⟨items, history, rfl, hitems⟩
  · exact ⟨⟨rfl, rfl, by simp [records, approvalHistory], fun _ _ => trivial⟩, fun _ => rfl⟩
  · rw [hitems.records_eq]
    exact ⟨hitems, fun _ => rfl⟩

theorem currentApproval_eq_none (value : Option Double)
    (hprotection : get items "protection" = .text s) (hs : s ≠ "locked") :
    currentApproval (some (.dict items)) value = none := by
  simp [currentApproval, hprotection, PyValue.equal, hs]

theorem currentApproval_ne_none (value : Option Double)
    (hprotection : get items "protection" = .text "locked") :
    ∃ a, currentApproval (some (.dict items)) value = some a := by
  rw [currentApproval, hprotection, if_pos (by simp [PyValue.equal])]
  exact ⟨_, rfl⟩

theorem find_of_get (h : get items key = .text s) : Dict.find key items = some (.text s) := by
  rw [PyValue.get] at h
  cases hfind : Dict.find key items with
  | none => simp [hfind] at h
  | some v => simpa [hfind] using h

/-- An entry that grants an approval differs from the one it replaces. -/
theorem not_equal_of_granted {old : PyValue} (value : Option Double)
    (hlocked : get items "protection" = .text "locked")
    (hcarried : currentApproval (some old) value ≠ none → ∃ history : List Items,
      Dict.find "approval_history" items = some (.list (history.map .dict)) ∧
        (records (some old)).length < history.length)
    (hold : Tidy (some old)) : (PyValue.dict items).equal old = false := by
  by_contra hequal
  rw [Bool.not_eq_false] at hequal
  obtain ⟨other, rfl⟩ := exists_dict_of_equal hequal
  obtain ⟨protection, hprotection, hsame⟩ := find_of_equal hequal (find_of_get hlocked)
  obtain rfl := eq_text_of_equal (.inr hsame)
  have hstood : get other "protection" = .text "locked" := by
    rw [PyValue.get, hprotection, Option.getD_some]
  obtain ⟨a, ha⟩ := currentApproval_ne_none value hstood
  obtain ⟨history, hhistory, hlength⟩ := hcarried (by simp [ha])
  obtain ⟨listed, hlisted, hlist⟩ := find_of_equal hequal hhistory
  obtain ⟨others, rfl, hothers⟩ := exists_list_of_equal hlist
  have hread := hold.reads
  simp only [approvalHistory, PyValue.get, hlisted, Option.getD_some, bind_eq_ok, Except.ok.injEq,
    exists_eq_left'] at hread
  have hlong : (others.filterMap dict?).length ≤ (records (some (.dict other))).length := by
    split at hread
    · split_ifs at hread
      · rw [← Except.ok.inj hread]
      · rw [← Except.ok.inj hread, List.length_append]
        omega
    · rw [← Except.ok.inj hread]
  rw [length_filterMap_of_equalList hothers] at hlong
  omega

/-! ## Turns of an edit -/

section Edit

variable {request : EditRequest} {moment : Moment} {row : Row} {draft next : Draft} {m : Marker}

/-- The edit has granted the marker its approval. -/
structure Sealed (request : EditRequest) (row : Row) (draft : Draft) (m : Marker) (items : Items) :
    Prop where
  entry : draft.state.get? m.name = some (.dict items)
  protection : get items "protection" = .text "locked"
  approvedBy : get items "approved_by" = userId request.user
  audioRevision : get items "audio_revision" = revisionValue request.audioRevision
  tidy : Tidy (some (.dict items))
  advances : ∃ a, (row.approvals m).Advances approvalPart (some a) (draft.approvals row m)
  differs : ∀ old, row.state.get? m.name = some old → (PyValue.dict items).equal old = false
  named : Named draft.result m

/-- The edit has left the marker alone so far, or has granted its approval. -/
def Pending (request : EditRequest) (row : Row) (draft : Draft) (m : Marker) : Prop :=
  (Fresh row draft m ∧ ¬Named draft.result m) ∨ ∃ items, Sealed request row draft m items

/-- The edit has unlocked the marker. -/
structure Opened (row : Row) (draft : Draft) (m : Marker) (items : Items) : Prop where
  entry : draft.state.get? m.name = some (.dict items)
  protection : get items "protection" = .text "unlocked"
  tidy : Tidy (some (.dict items))
  advances : (row.approvals m).Advances approvalPart none (draft.approvals row m)
  unnamed : ¬Named draft.result m

theorem Sealed.sameAt (h : Sealed request row draft m items)
    (hsame : SameAt m draft next) : Sealed request row next m items := by
  refine ⟨hsame.entry.trans h.entry, h.protection, h.approvedBy, h.audioRevision, h.tidy, ?_,
    h.differs, hsame.named.mpr h.named⟩
  rw [approvals_of_sameAt hsame]
  exact h.advances

theorem Pending.sameAt (h : Pending request row draft m) (hsame : SameAt m draft next) :
    Pending request row next m := by
  rcases h with ⟨hfresh, hunnamed⟩ | ⟨items, hsealed⟩
  · exact .inl ⟨hfresh.sameAt hsame, mt hsame.named.mp hunnamed⟩
  · exact .inr ⟨items, hsealed.sameAt hsame⟩

theorem Opened.sameAt (h : Opened row draft m items) (hsame : SameAt m draft next) :
    Opened row next m items := by
  refine ⟨hsame.entry.trans h.entry, h.protection, h.tidy, ?_, mt hsame.named.mp h.unnamed⟩
  rw [approvals_of_sameAt hsame]
  exact h.advances

theorem editValue_elsewhere {item : Marker × Option Double}
    (h : editValue request moment row draft item = .ok next) (hne : m ≠ item.1) :
    SameAt m draft next := by
  simp only [editValue, bind_eq_ok] at h
  obtain ⟨entry, -, h⟩ := h
  split_ifs at h
  · rw [bind_eq_ok] at h
    obtain ⟨items, -, h⟩ := h
    by_cases hlocked : (get items "protection").equal (.text "locked") = true
    · rw [if_pos hlocked] at h
      cases h
      exact ⟨rfl, rfl, Iff.rfl⟩
    · rw [if_neg hlocked] at h
      cases h
      exact sameAt_of_insert hne rfl rfl (by simp [Named, hne])
  · cases h
    exact sameAt_of_insert hne rfl (find_snoc_of_ne hne _ _) (by simp [Named, hne])

theorem approveMarker_elsewhere
    (h : approveMarker request moment row draft x = .ok next) (hne : m ≠ x) :
    SameAt m draft next := by
  simp only [approveMarker] at h
  split_ifs at h
  · cases h
    exact ⟨rfl, rfl, Iff.rfl⟩
  · rw [bind_eq_ok] at h
    obtain ⟨previous, -, h⟩ := h
    split_ifs at h
    · cases h
      exact ⟨rfl, rfl, Iff.rfl⟩
    · rw [bind_eq_ok] at h
      obtain ⟨entry, -, h⟩ := h
      cases h
      exact sameAt_of_insert hne rfl rfl (by simp [Named, hne])

theorem unlockMarker_elsewhere
    (h : unlockMarker request moment row draft x = .ok next) (hne : m ≠ x) :
    SameAt m draft next := by
  simp only [unlockMarker] at h
  split_ifs at h
  · cases h
    exact ⟨rfl, rfl, Iff.rfl⟩
  · rw [bind_eq_ok] at h
    obtain ⟨previous, -, h⟩ := h
    split_ifs at h
    · cases h
      exact ⟨rfl, rfl, Iff.rfl⟩
    · rw [bind_eq_ok] at h
      obtain ⟨entry, -, h⟩ := h
      cases h
      exact sameAt_of_insert hne rfl rfl (by simp [Named])

/-- An entry with the approval of this edit, built from its predecessor. -/
theorem sealed_of_withHistory {entry : Items} {previous : Option PyValue}
    (hrow : Tidy (row.state.get? m.name)) (hprevious : Tidy previous)
    (hsame : ∀ value, approvals previous value = approvals (row.state.get? m.name) value)
    (hplain : ∀ key ∈ approvalKeys, IsPlain (get newEntry key))
    (hlocked : get newEntry "protection" = .text "locked")
    (hwho : get newEntry "approved_by" = userId request.user)
    (hrevision : get newEntry "audio_revision" = revisionValue request.audioRevision)
    (h : withHistory newEntry previous (retiredApproval previous (row.value m) moment.now reason
      request.audioRevision) = .ok entry)
    (hitems : ∀ key ∈ heldKeys, get items key = get entry key)
    (hentry : next.state.get? m.name = some (.dict items)) (hnamed : Named next.result m) :
    Sealed request row next m items := by
  obtain ⟨hkeys, hlist, -⟩ := withHistory_eq_ok hprevious h
  obtain ⟨htidy, hadvances⟩ := withHistory_advances hprevious hplain h
  have hheld (key : String) (hkey : key ∈ heldKeys) (hhistory : key ∉ historyKeys) :
      get items key = get newEntry key :=
    (hitems key hkey).trans (hkeys key hhistory)
  have hprotection := (hheld "protection" (by decide) (by decide)).trans hlocked
  obtain ⟨a, ha⟩ := currentApproval_ne_none (finalValues row next.newValues m).number? hlocked
  refine ⟨hentry, hprotection, (hheld _ (by decide) (by decide)).trans hwho,
    (hheld _ (by decide) (by decide)).trans hrevision, ?_, ⟨a, ?_⟩, ?_, hnamed⟩
  · exact tidy_of_items (htidy.congr fun key hkey => hitems key (List.mem_cons_of_mem _ hkey))
  · rw [Row.approvals, ← hsame, Draft.approvals, hentry, approvals_congr _ hitems, ← ha]
    exact hadvances _
  · intro old hold
    rw [hold] at hrow hsame
    refine not_equal_of_granted (row.value m) hprotection (fun hstood => ?_) hrow
    have hpast : records previous = records (some old) :=
      congrArg Succession.past (hsame (row.value m))
    have hcurrent : currentApproval previous (row.value m) ≠ none := by
      have heq : currentApproval previous (row.value m) = currentApproval (some old) (row.value m) :=
        congrArg Succession.current (hsame (row.value m))
      rwa [heq]
    obtain ⟨record, hrecord⟩ : ∃ record, retiredApproval previous (row.value m) moment.now reason
        request.audioRevision = some record := by
      rw [← Option.ne_none_iff_exists']
      intro hnone
      rw [← approvalPart_retired, hnone] at hcurrent
      exact hcurrent rfl
    refine ⟨records previous ++ [record], ?_, by simp [hpast]⟩
    rw [← hitems _ (by decide), hrecord, Option.toList_some, if_neg (by simp), PyValue.get] at hlist
    cases hfind : Dict.find "approval_history" items with
    | none => simp [hfind] at hlist
    | some v => rw [← hlist, hfind, Option.getD_some]

theorem isPlain_userId (user : Option User) : IsPlain (userId user) := by
  rcases user with _ | ⟨pk, authenticated⟩
  · trivial
  · cases authenticated <;> trivial

theorem isPlain_revisionValue (revision : Option String) : IsPlain (revisionValue revision) := by
  cases revision <;> trivial

/-- What a new approval writes into an entry. -/
def grantKeys : List String := ["protection", "approved_at", "approved_by", "audio_revision"]

theorem get_put_approved (hkey : key ∉ grantKeys) (now : String) (user : Option User)
    (revision : Option String) (items : Items) :
    get (Dict.put "audio_revision" (revisionValue revision) (Dict.put "approved_by" (userId user)
      (Dict.put "approved_at" (.text now) (Dict.put "protection" (.text "locked") items)))) key =
        get items key := by
  simp only [grantKeys, List.mem_cons, List.not_mem_nil, or_false, not_or] at hkey
  simp only [get_put, if_neg hkey.1, if_neg hkey.2.1, if_neg hkey.2.2.1, if_neg hkey.2.2.2]

/-- An entry keeps what it says under a new approval. -/
theorem isPlain_approved (h : ∀ key ∈ approvalKeys, IsPlain (get items key))
    (now : String) (user : Option User) (revision : Option String) :
    ∀ key ∈ approvalKeys, IsPlain (get
      (Dict.put "audio_revision" (revisionValue revision) (Dict.put "approved_by" (userId user)
        (Dict.put "approved_at" (.text now) (Dict.put "protection" (.text "locked") items)))) key) := by
  intro key hkey
  simp only [get_put]
  split_ifs with hrevision hwho hwhen
  · exact isPlain_revisionValue revision
  · exact isPlain_userId user
  · trivial
  · trivial
  · exact h key hkey

theorem isPlain_resolved (h : Tidy (some (.dict items))) :
    ∀ key ∈ approvalKeys, IsPlain (get (resolved items) key) := by
  intro key hkey
  rw [get_resolved ((by decide : ∀ key ∈ approvalKeys,
    key ∉ ["review_reason", "audio_changed_at"]) key hkey)]
  rcases h with h | ⟨other, history, heq, htidy⟩
  · cases h
  · cases heq
    exact htidy.plain key hkey

theorem entryOrUnknown_of_protection {previous : Items}
    (hentry : entry = some (.dict items)) (hprotection : get items "protection" = .text s)
    (h : entryOrUnknown entry = .ok previous) : items = previous := by
  have hne : items ≠ [] := by
    rintro rfl
    simp [PyValue.get, Dict.find] at hprotection
  simp only [entryOrUnknown, hentry, itemsOf, bind_eq_ok, Except.ok.injEq, exists_eq_left'] at h
  rw [if_neg hne] at h
  exact Except.ok.inj h

theorem approveMarker_pending (huser : (userId request.user).equal .none = false)
    (hrow : Tidy (row.state.get? m.name)) (hpending : Pending request row draft m)
    (h : approveMarker request moment row draft m = .ok next) : Pending request row next m := by
  simp only [approveMarker] at h
  split_ifs at h with hvalue
  · cases h
    exact hpending.sameAt ⟨rfl, rfl, Iff.rfl⟩
  · rw [bind_eq_ok] at h
    obtain ⟨previous, hprevious, h⟩ := h
    rcases hpending with ⟨hfresh, hunnamed⟩ | ⟨items, hsealed⟩
    · rw [hfresh.entry] at hprevious
      obtain ⟨htidy, hsame⟩ := entryOrUnknown_eq_ok hrow hprevious
      split_ifs at h
      · cases h
        exact .inl ⟨⟨hfresh.entry, hfresh.value⟩, hunnamed⟩
      · rw [bind_eq_ok] at h
        obtain ⟨entry, hentry, h⟩ := h
        cases h
        have hplain := isPlain_resolved htidy
        exact .inr ⟨_, sealed_of_withHistory hrow htidy hsame
          (isPlain_approved hplain moment.now request.user request.audioRevision)
          (by simp [get_put]) (by simp [get_put]) (by simp [get_put]) hentry (fun _ _ => rfl)
          (Dict.get?_insert_self _ _ _) (.inl (by simp))⟩
    · -- this edit's own approval is already there
      obtain rfl := entryOrUnknown_of_protection hsealed.entry hsealed.protection hprevious
      have hrevision : sameRevision request items = true := by
        rw [sameRevision]
        split
        · rfl
        · rename_i revision hrequest
          rw [hsealed.audioRevision, hrequest]
          simp [revisionValue, PyValue.equal]
      rw [if_pos ⟨by simp [hsealed.protection, PyValue.equal], by rw [hsealed.approvedBy, huser],
        hrevision⟩] at h
      cases h
      exact .inr ⟨_, hsealed.sameAt ⟨rfl, rfl, Iff.rfl⟩⟩

theorem unlockMarker_opened (hrow : Tidy (row.state.get? m.name))
    (hopened : (Fresh row draft m ∧ ¬Named draft.result m) ∨ ∃ items, Opened row draft m items)
    (h : unlockMarker request moment row draft m = .ok next) :
    (Fresh row next m ∧ ¬Named next.result m) ∨ ∃ items, Opened row next m items := by
  simp only [unlockMarker] at h
  split_ifs at h with hvalue
  · cases h
    rcases hopened with ⟨hfresh, hunnamed⟩ | ⟨items, hopened⟩
    · exact .inl ⟨⟨hfresh.entry, hfresh.value⟩, hunnamed⟩
    · exact .inr ⟨items, hopened.sameAt ⟨rfl, rfl, Iff.rfl⟩⟩
  · rw [bind_eq_ok] at h
    obtain ⟨previous, hprevious, h⟩ := h
    rcases hopened with ⟨hfresh, hunnamed⟩ | ⟨items, hopened⟩
    · rw [hfresh.entry] at hprevious
      obtain ⟨htidy, hsame⟩ := entryOrUnknown_eq_ok hrow hprevious
      split_ifs at h
      · cases h
        exact .inl ⟨⟨hfresh.entry, hfresh.value⟩, hunnamed⟩
      · rw [bind_eq_ok] at h
        obtain ⟨entry, hentry, h⟩ := h
        cases h
        have hplain (key : String) (hkey : key ∈ approvalKeys) : IsPlain (get
            (Dict.put "unlocked_by" (userId request.user) (Dict.put "unlocked_at" (.text moment.now)
              (Dict.put "protection" (.text "unlocked") (resolved previous)))) key) := by
          simp only [get_put]
          split_ifs
          · exact isPlain_userId request.user
          · trivial
          · trivial
          · exact isPlain_resolved htidy key hkey
        have hunlocked : get
            (Dict.put "unlocked_by" (userId request.user) (Dict.put "unlocked_at" (.text moment.now)
              (Dict.put "protection" (.text "unlocked") (resolved previous)))) "protection" =
                .text "unlocked" := by
          simp [get_put]
        obtain ⟨hitems, hadvances⟩ := withHistory_advances htidy hplain hentry
        refine .inr ⟨entry, Dict.get?_insert_self _ _ _, ?_, tidy_of_items hitems, ?_, hunnamed⟩
        · rw [(withHistory_eq_ok htidy hentry).1 _ (by decide), hunlocked]
        · have hretired := hadvances (row.value m)
          rw [currentApproval_eq_none _ hunlocked (by decide), hsame] at hretired
          simpa only [Draft.approvals, Row.approvals, Dict.get?_insert_self, finalValues,
            hfresh.value, Option.getD_none, number?_ofColumn] using hretired
    · obtain rfl := entryOrUnknown_of_protection hopened.entry hopened.protection hprevious
      rw [if_pos (by simp [hopened.protection, PyValue.equal])] at h
      cases h
      exact .inr ⟨_, hopened.sameAt ⟨rfl, rfl, Iff.rfl⟩⟩

theorem editValue_pending {value : Option Double} (hrow : Tidy (row.state.get? m.name))
    (hfresh : Fresh row draft m) (hunnamed : ¬Named draft.result m)
    (h : editValue request moment row draft (m, value) = .ok next) :
    Pending request row next m := by
  simp only [editValue, bind_eq_ok, hfresh.entry, hrow.bind_dict?] at h
  obtain ⟨entry, hentry, h⟩ := h
  by_cases hsame : sameColumn (row.value m) value = true
  · -- the value stays, so the entry keeps its history as it is
    rw [if_pos hsame, bind_eq_ok] at h
    obtain ⟨items, hitems, h⟩ := h
    by_cases hlocked : (get items "protection").equal (.text "locked") = true
    · rw [if_pos hlocked] at h
      cases h
      exact .inl ⟨⟨hfresh.entry, hfresh.value⟩, hunnamed⟩
    · rw [if_neg hlocked] at h
      cases h
      obtain ⟨hkept, hcurrent⟩ := resolved_or_unknown hrow hitems
      have hvacant (v : Option Double) : currentApproval (row.state.get? m.name) v = none := by
        rw [← hcurrent, currentApproval, if_neg hlocked]
      have hprotection : get
          (Dict.put "audio_revision" (revisionValue request.audioRevision)
            (Dict.put "approved_by" (userId request.user)
              (Dict.put "approved_at" (.text moment.now)
                (Dict.put "protection" (.text "locked")
                  (if resolved items = [] then [("source", sourceUnknown)]
                  else resolved items))))) "protection" = .text "locked" := by
        simp [get_put]
      obtain ⟨a, ha⟩ := currentApproval_ne_none (row.value m) hprotection
      have htidy := hkept.takeOver (fun key hkey => get_put_approved
          ((by decide : ∀ key ∈ historyKeys, key ∉ grantKeys) key hkey) moment.now request.user
          request.audioRevision _)
        (isPlain_approved hkept.plain moment.now request.user request.audioRevision)
      refine .inr ⟨_, Dict.get?_insert_self _ _ _, hprotection, by simp [get_put],
        by simp [get_put], tidy_of_items htidy, ⟨a, ?_⟩, ?_, .inl (by simp)⟩
      · refine Succession.advances_of_vacant (hvacant _) ?_ ?_
        · simp only [Draft.approvals, Row.approvals, approvals, Dict.get?_insert_self]
          exact htidy.records_eq
        · simp only [Draft.approvals, approvals, Dict.get?_insert_self, finalValues, hfresh.value,
            Option.getD_none, number?_ofColumn]
          exact ha
      · intro old hold
        refine not_equal_of_granted (row.value m) hprotection (fun hstood => ?_) (hold ▸ hrow)
        rw [← hold, hvacant] at hstood
        exact absurd rfl hstood
  · rw [if_neg hsame] at h
    cases h
    refine .inr ⟨_, sealed_of_withHistory hrow hrow (fun _ => rfl) ?_ rfl rfl rfl hentry ?_
      (Dict.get?_insert_self _ _ _) (.inr (by simp))⟩
    · intro key hkey
      simp only [approvalKeys, List.mem_cons, List.not_mem_nil, or_false] at hkey
      rcases hkey with rfl | rfl | rfl | rfl | rfl | rfl
      · trivial
      · trivial
      · exact isPlain_userId request.user
      · trivial
      · exact isPlain_userId request.user
      · exact isPlain_revisionValue request.audioRevision
    · split
      · exact get_put_of_notMem (by decide) _ _
      · exact fun _ _ => rfl

end Edit

/-! ## Turns of a calculation -/

section Calculation

variable {request : CalculationRequest} {moment : Moment} {row : Row} {draft next : Draft}
  {m : Marker}

/-- The calculation has granted the marker nothing. -/
structure Settled (row : Row) (draft : Draft) (m : Marker) : Prop where
  tidy : Tidy (draft.state.get? m.name)
  advances : (row.approvals m).Advances approvalPart none (draft.approvals row m)

theorem Settled.sameAt (h : Settled row draft m) (hsame : SameAt m draft next) :
    Settled row next m := by
  constructor
  · rw [hsame.entry]
    exact h.tidy
  · rw [approvals_of_sameAt hsame]
    exact h.advances

theorem Fresh.settled (h : Fresh row draft m) (hrow : Tidy (row.state.get? m.name)) :
    Settled row draft m := by
  constructor
  · rw [h.entry]
    exact hrow
  · rw [h.approvals_eq]
    exact .refl _

/-- An entry that retires what the row's entry holds and grants nothing. -/
theorem settled_of_withHistory {entry : Items}
    {revision : Option String} (hrow : Tidy (row.state.get? m.name))
    (hplain : ∀ key ∈ approvalKeys, IsPlain (get newEntry key))
    (hprotection : get newEntry "protection" = .text s) (hs : s ≠ "locked")
    (h : withHistory newEntry (row.state.get? m.name) (retiredApproval (row.state.get? m.name)
      (row.value m) moment.now reason revision) = .ok entry)
    (hitems : ∀ key ∈ heldKeys, get items key = get entry key)
    (hentry : next.state.get? m.name = some (.dict items)) : Settled row next m := by
  obtain ⟨htidy, hadvances⟩ := withHistory_advances hrow hplain h
  constructor
  · rw [hentry]
    exact tidy_of_items (htidy.congr fun key hkey => hitems key (List.mem_cons_of_mem _ hkey))
  · rw [Draft.approvals, hentry, approvals_congr _ hitems, ← currentApproval_eq_none _ hprotection hs]
    exact hadvances _

theorem named_noteProtection (x : Marker) (protection : Protection) (replaces unchanged : Bool)
    (result : Result) : Named (noteProtection x protection replaces unchanged result) m ↔
      Named result m := by
  unfold noteProtection
  split_ifs <;> exact Iff.rfl

theorem applyValue_elsewhere {item : Marker × Submitted}
    (h : applyValue request moment row draft item = .ok next) (hne : m ≠ item.1) :
    SameAt m draft next := by
  simp only [applyValue] at h
  split_ifs at h with hpreserved
  · cases h
    exact ⟨rfl, rfl, Iff.rfl⟩
  · rw [bind_eq_ok] at h
    obtain ⟨unchanged, -, h⟩ := h
    by_cases hskip : unchanged = true ∧ replacing request ((draft.state.get? item.1.name).bind
        fun entry => entry.dict?.map PyValue.dict) = false ∧
          decide (item.1.name ∈ request.override) = false
    · rw [if_pos hskip] at h
      cases h
      exact ⟨rfl, rfl, named_noteProtection ..⟩
    · rw [if_neg hskip, bind_eq_ok] at h
      obtain ⟨entry, -, h⟩ := h
      by_cases hunchanged : unchanged = true
      · rw [if_pos hunchanged] at h
        cases h
        exact sameAt_of_insert hne rfl rfl (named_noteProtection ..)
      · rw [if_neg hunchanged] at h
        cases h
        refine sameAt_of_insert hne rfl (find_snoc_of_ne hne _ _) ?_
        rw [← named_noteProtection (m := m) item.1 (protectionOf item.1 row)
          (replacing request ((draft.state.get? item.1.name).bind
            fun entry => entry.dict?.map PyValue.dict)) unchanged draft.result]
        simp [Named, hne]

theorem carryMarker_elsewhere
    (h : carryMarker request moment row draft x = .ok next) (hne : m ≠ x) :
    SameAt m draft next := by
  simp only [carryMarker] at h
  split_ifs at h
  · cases h
    exact .refl m _
  · split at h
    · rw [bind_eq_ok] at h
      obtain ⟨entry, -, h⟩ := h
      cases h
      exact sameAt_of_insert hne rfl rfl Iff.rfl
    · cases h
      exact sameAt_of_insert hne rfl rfl Iff.rfl

/-- The entry of a calculated marker before its history is added. -/
theorem calculated_plain :
    (∀ key ∈ approvalKeys, IsPlain (get
      [("protection", .text "unlocked"), ("source", .text request.source),
        ("set_at", .text moment.now), ("set_by", userId request.requestedBy),
        ("audio_revision", revisionValue request.audioRevision)] key)) := by
  intro key hkey
  simp only [approvalKeys, List.mem_cons, List.not_mem_nil, or_false] at hkey
  rcases hkey with rfl | rfl | rfl | rfl | rfl | rfl
  · trivial
  · trivial
  · exact isPlain_userId request.requestedBy
  · trivial
  · trivial
  · exact isPlain_revisionValue request.audioRevision

theorem calculatedEntry_settled {replaces overrides unchanged : Bool}
    (hrow : Tidy (row.state.get? m.name))
    (h : calculatedEntry request moment row m (row.state.get? m.name) replaces overrides unchanged =
      .ok items) (hentry : next.state.get? m.name = some (.dict items)) : Settled row next m := by
  have hkeep {entry : Items} (h : (if replaces = true ∧ protectionOf m row = .legacy ∧
      unchanged = false then
        pure (Dict.put "replaced_historical_value" (.dict
          [("value", (row.value m).elim .none .number), ("replaced_at", .text moment.now)]) entry)
      else pure entry : Except Raised Items) = .ok items) :
      ∀ key ∈ heldKeys, get items key = get entry key := by
    split_ifs at h
    · rw [← Except.ok.inj h]
      exact get_put_of_notMem (by decide) _ _
    · rw [← Except.ok.inj h]
      exact fun _ _ => rfl
  simp only [calculatedEntry, hrow.bind_dict?] at h
  by_cases hoverrides : overrides = true
  · rw [if_pos hoverrides, bind_eq_ok] at h
    obtain ⟨stored, -, h⟩ := h
    rw [pure_bind, bind_eq_ok] at h
    obtain ⟨entry, hhistory, h⟩ := h
    refine settled_of_withHistory (s := "unlocked") hrow (fun key hkey => ?_) rfl (by decide) hhistory
      (hkeep h) hentry
    rw [get_put_of_notMem (by decide : "overridden_from" ∉ approvalKeys) _ _ key hkey]
    exact calculated_plain key hkey
  · rw [if_neg hoverrides, pure_bind, bind_eq_ok] at h
    obtain ⟨entry, hhistory, h⟩ := h
    exact settled_of_withHistory (s := "unlocked") hrow calculated_plain rfl (by decide) hhistory
      (hkeep h) hentry

theorem applyValue_settled {value : Submitted} (hrow : Tidy (row.state.get? m.name))
    (hfresh : Fresh row draft m) (h : applyValue request moment row draft (m, value) = .ok next) :
    Settled row next m := by
  simp only [applyValue, hfresh.entry, hrow.bind_dict?] at h
  split_ifs at h with hpreserved
  · cases h
    exact Fresh.settled ⟨hfresh.entry, hfresh.value⟩ hrow
  · rw [bind_eq_ok] at h
    obtain ⟨unchanged, -, h⟩ := h
    by_cases hskip : unchanged = true ∧ replacing request (row.state.get? m.name) = false ∧
        decide (m.name ∈ request.override) = false
    · rw [if_pos hskip] at h
      cases h
      exact Fresh.settled ⟨hfresh.entry, hfresh.value⟩ hrow
    · rw [if_neg hskip, bind_eq_ok] at h
      obtain ⟨entry, hentry, h⟩ := h
      by_cases hunchanged : unchanged = true
      · rw [if_pos hunchanged] at h
        cases h
        exact calculatedEntry_settled hrow hentry (Dict.get?_insert_self _ _ _)
      · rw [if_neg hunchanged] at h
        cases h
        exact calculatedEntry_settled hrow hentry (Dict.get?_insert_self _ _ _)

theorem carryMarker_settled (hrow : Tidy (row.state.get? m.name)) (hfresh : Fresh row draft m)
    (h : carryMarker request moment row draft m = .ok next) : Settled row next m := by
  simp only [carryMarker, hfresh.entry] at h
  split_ifs at h
  · cases h
    exact hfresh.settled hrow
  · split at h
    · rename_i items hprotection hitems
      rw [bind_eq_ok] at h
      obtain ⟨entry, hentry, h⟩ := h
      cases h
      obtain ⟨hstored, hplain⟩ := hrow.dict?_eq_some hitems
      rw [← hstored] at hentry
      refine settled_of_withHistory (s := "review") hrow (fun key hkey => ?_) rfl (by decide) hentry
        (fun _ _ => rfl) (Dict.get?_insert_self _ _ _)
      simp only [approvalKeys, List.mem_cons, List.not_mem_nil, or_false] at hkey
      rcases hkey with rfl | rfl | rfl | rfl | rfl | rfl
      · have hsource := hplain "source" (by decide)
        rw [PyValue.get] at hsource
        change IsPlain ((Dict.find "source" items).getD sourceUnknown)
        cases hfind : Dict.find "source" items with
        | none => trivial
        | some v => simpa [hfind] using hsource
      · exact hplain _ (by decide)
      · exact hplain _ (by decide)
      · trivial
      · trivial
      · trivial
    · cases h
      -- only the note that the audio has changed is added
      obtain ⟨htidy, hsame⟩ := hrow.getD_dict?
      have hkeep := get_put_of_notMem (by decide : "audio_changed_at" ∉ heldKeys)
        (.text moment.now) (((row.state.get? m.name).bind dict?).getD [])
      constructor
      · rw [Dict.get?_insert_self]
        exact tidy_of_items (htidy.congr fun key hkey => hkeep key (List.mem_cons_of_mem _ hkey))
      · simp only [Draft.approvals, Row.approvals, Dict.get?_insert_self]
        rw [approvals_congr _ hkeep, hsame, finalValues, hfresh.value, Option.getD_none,
          number?_ofColumn]
        exact .refl _

end Calculation

end IsadoraAir.CueMarkers
