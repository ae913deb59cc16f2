import IsadoraAir.CueMarkers.Operations
import IsadoraAir.Foundation.Succession

/-!
# Copies and approvals

Markers carried to equivalent media, and the approvals that an entry shows.
-/

/-!
## Copies to equivalent media

The third writer: markers carried to an untouched track whose audio should be
the source's, with their protection when the decoded audio proves it and as
historical values when nothing does.
-/

namespace IsadoraAir.CueMarkers

/-! ### Identities of decoded audio -/

/-- An identity as it is given; what is not a dictionary of these fields is malformed. -/
inductive Identity where
  | malformed
  | fields (algorithm sha256 : String) (sampleRate frames channels : ℤ) (sampleFormat : String)
  deriving DecidableEq

namespace Identity

/-- `ALGORITHM` -/
def currentAlgorithm : String := "isadoraair-audio/v1:pcm_s32le:2ch:native-rate:sha256"

/-- `well_formed(identity)` -/
def wellFormed : Identity → Bool
  | malformed => false
  | fields _ sha256 sampleRate frames channels sampleFormat =>
      sha256.length = 64 && sha256.toList.all (fun c => c ∈ "0123456789abcdef".toList) &&
        0 < sampleRate && 0 < frames && channels = 2 && sampleFormat = "s32le"

/-- `same_audio(a, b)` -/
def sameAudio : Identity → Identity → Bool
  | fields algorithm sha256 sampleRate frames channels sampleFormat,
    fields algorithm' sha256' sampleRate' frames' channels' sampleFormat' =>
      (fields algorithm sha256 sampleRate frames channels sampleFormat).wellFormed &&
        (fields algorithm' sha256' sampleRate' frames' channels' sampleFormat').wellFormed &&
        algorithm = algorithm' && algorithm' = currentAlgorithm &&
        sha256 = sha256' && sampleRate = sampleRate' && frames = frames'
  | _, _ => false

/-- `revision(identity)` -/
def revision : Identity → Option String
  | malformed => none
  | fields algorithm sha256 sampleRate frames channels sampleFormat =>
      if (fields algorithm sha256 sampleRate frames channels sampleFormat).wellFormed = true ∧
          algorithm = currentAlgorithm then some sha256 else none

end Identity

/-! ### The copy -/

structure CopyRequest where
  source : ℕ
  target : ℕ
  names : List String
  sourceIdentity : Option Identity
  targetIdentity : Option Identity
  deriving DecidableEq

inductive CopyRefusal where
  | notMarkers (names : List String)
  | sameTrack
  | differentAudio
  | trackNotFound
  | alreadySet
  deriving DecidableEq

namespace CopyRequest

/-- `same_audio(source_identity, target_identity)` -/
def verified (request : CopyRequest) : Bool :=
  match request.sourceIdentity, request.targetIdentity with
  | some a, some b => a.sameAudio b
  | _, _ => false

/-- `revision(target_identity) if verified else None` -/
def audioRevision (request : CopyRequest) : Option String :=
  if request.verified = true then request.targetIdentity.bind Identity.revision else none

end CopyRequest

/-- `state.get(name)`, if it is a dictionary. -/
def dictEntry (entry : Option PyValue) : Option Items := entry.bind PyValue.dict?

/-- The entry of a marker on the copy. -/
def copiedEntry (request : CopyRequest) (moment : Moment) (source : Row) (m : Marker) :
    Except Raised Items := do
  let entry := dictEntry (source.state.get? m.name)
  let copied ←
    if request.verified = true then
      let items := entry.getD []
      pure (Dict.put "equivalence"
        (.dict [("verified", .bool true), ("audio_revision", revisionValue request.audioRevision)])
        (if items = [] then [("source", sourceUnknown)] else items))
    else
      withHistory [("source", sourceUnknown), ("equivalence", .dict [("verified", .bool false)])]
        (entry.map .dict) (retiredApproval (entry.map .dict) (source.value m) moment.now
          "unverified_copy" none)
  return Dict.put "copied_from_track" (.number (.finite request.source)) copied

/-- One turn of the loop over the markers to copy. -/
def copyMarker (request : CopyRequest) (moment : Moment) (source row : Row) (draft : Draft)
    (m : Marker) : Except Raised Draft := do
  if source.value m = none ∧ m ≠ .cueInSeconds then return draft
  let entry ← copiedEntry request moment source m
  let value : Submitted := .ofColumn (source.value m)
  return ⟨draft.state.insert m.name (.dict entry), Dict.put m value draft.newValues,
    if sameColumn (row.value m) (source.value m) = true then draft.result
    else { draft.result with changed := Dict.put m (row.value m, value) draft.result.changed }⟩

/-- The locked section of `copy_for_equivalent_media`. -/
def copyLocked (request : CopyRequest) (moment : Moment) (source row : Row) :
    Except Raised (Except CopyRefusal Result × Row) :=
  if row.revision ≠ 0 then .ok (.error .alreadySet, row)
  else do
    let draft ← (request.names.filterMap Marker.ofName?).foldlM (copyMarker request moment source row)
      ⟨row.state, [], {}⟩
    let (result, after) ← commit moment row draft
    return (.ok result, after)

/-- `copy_for_equivalent_media`: the result or the refusal, or what it raises, and the target's row
after it. -/
def copyForEquivalentMedia (request : CopyRequest) (moment : Moment) (source target : Option Row) :
    Except Raised (Except CopyRefusal Result × Option Row) :=
  let unknown := unknownNames request.names
  if unknown ≠ [] then .ok (.error (.notMarkers unknown), target)
  else if request.source = request.target then .ok (.error .sameTrack, target)
  else if request.sourceIdentity.isSome = true ∧ request.targetIdentity.isSome = true ∧
      request.verified = false then .ok (.error .differentAudio, target)
  else
    match source, target with
    | some source, some row => do
        let (result, after) ← copyLocked request moment source row
        return (result, some after)
    | _, _ => .ok (.error .trackNotFound, target)

end IsadoraAir.CueMarkers

/-!
## The approvals of an entry

The approval that an entry holds now and the records of those before it form a
succession. Every way the writers build an entry advances it: what is replaced
becomes one record, and nothing else is recorded.
-/

namespace IsadoraAir.CueMarkers

open PyValue (get dict?)

variable {a b items other record : Items} {history : List Items} {stored : Option PyValue}
  {key : String}

/-! ### Plain values and comparison -/

/-- The value contains no other value. -/
def IsPlain : PyValue → Prop
  | .list _ => False
  | .dict _ => False
  | _ => True

/-- A record that contains no other record. -/
structure Flat (record : Items) : Prop where
  nodup : (record.map Prod.fst).Nodup
  plain : ∀ item ∈ record, IsPlain item.2

theorem equal_self_of_isPlain {value : PyValue} (h : IsPlain value) : value.equal value = true := by
  cases value <;> simp_all [IsPlain, PyValue.equal]

theorem equalItems_of_forall
    (h : ∀ item ∈ items, ∃ v, Dict.find item.1 other = some v ∧ item.2.equal v = true) :
    PyValue.equalItems items other = true := by
  induction items with
  | nil => rfl
  | cons item items ih =>
    obtain ⟨v, hfind, hequal⟩ := h item (by simp)
    simp only [PyValue.equalItems, hfind, hequal, Bool.true_and]
    exact ih fun other hmem => h other (by simp [hmem])

theorem Flat.equal_self (h : Flat record) : (PyValue.dict record).equal (.dict record) = true := by
  simp only [PyValue.equal, decide_true, Bool.true_and]
  exact equalItems_of_forall fun item hitem =>
    ⟨item.2, Dict.find_of_mem h.nodup hitem, equal_self_of_isPlain (h.plain item hitem)⟩

theorem find_of_equalItems {value : PyValue}
    (h : PyValue.equalItems items other = true) (hfind : Dict.find key items = some value) :
    ∃ v, Dict.find key other = some v ∧ value.equal v = true := by
  induction items with
  | nil => simp [Dict.find] at hfind
  | cons item items ih =>
    obtain ⟨k, v⟩ := item
    simp only [PyValue.equalItems, Bool.and_eq_true] at h
    simp only [Dict.find] at hfind
    split_ifs at hfind with hk
    · cases hfind
      subst hk
      cases hother : Dict.find k other with
      | none => simp [hother] at h
      | some v' => exact ⟨v', rfl, by simpa [hother] using h.1⟩
    · exact ih h.2 hfind

/-- What one of two equal dictionaries has, the other has. -/
theorem find_of_equal {value : PyValue}
    (h : (PyValue.dict items).equal (.dict other) = true) (hfind : Dict.find key items = some value) :
    ∃ v, Dict.find key other = some v ∧ value.equal v = true := by
  simp only [PyValue.equal, Bool.and_eq_true] at h
  exact find_of_equalItems h.2 hfind

theorem eq_text_of_equal {value : PyValue} {s : String}
    (h : value.equal (.text s) = true ∨ (PyValue.text s).equal value = true) : value = .text s := by
  cases value <;> simp_all [PyValue.equal, eq_comm]

theorem exists_dict_of_equal {value : PyValue}
    (h : (PyValue.dict items).equal value = true) : ∃ other, value = .dict other := by
  cases value with
  | dict other => exact ⟨other, rfl⟩
  | _ => simp [PyValue.equal] at h

theorem exists_list_of_equal {values : List PyValue} {value : PyValue}
    (h : (PyValue.list values).equal value = true) :
    ∃ others, value = .list others ∧ PyValue.equalList values others = true := by
  cases value with
  | list others => exact ⟨others, rfl, by simpa [PyValue.equal] using h⟩
  | _ => simp [PyValue.equal] at h

/-- A list that equals a list of dictionaries holds as many dictionaries. -/
theorem length_filterMap_of_equalList {records : List Items} {others : List PyValue}
    (h : PyValue.equalList (records.map .dict) others = true) :
    (others.filterMap dict?).length = records.length := by
  induction records generalizing others with
  | nil =>
    cases others with
    | nil => rfl
    | cons other others => simp [PyValue.equalList] at h
  | cons record records ih =>
    cases others with
    | nil => simp [PyValue.equalList] at h
    | cons other others =>
      simp only [List.map_cons, PyValue.equalList, Bool.and_eq_true] at h
      obtain ⟨items, rfl⟩ := exists_dict_of_equal h.1
      simp [dict?, ih h.2]

/-! ### Reading an entry -/

theorem get_put (key key' : String) (value : PyValue) (items : Items) :
    get (Dict.put key value items) key' = if key' = key then value else get items key' := by
  simp only [PyValue.get, Dict.find_put]
  split_ifs <;> rfl

theorem find_filter {p : String × PyValue → Bool} {q : String → Bool} (hp : ∀ item, p item = q item.1)
    (hkey : q key = true) (items : Items) :
    Dict.find key (items.filter p) = Dict.find key items := by
  induction items with
  | nil => rfl
  | cons item items ih =>
    obtain ⟨k, v⟩ := item
    by_cases hk : k = key
    · subst hk
      rw [List.filter_cons_of_pos (by rw [hp]; exact hkey)]
      simp [Dict.find]
    · by_cases hq : p (k, v) = true
      · rw [List.filter_cons_of_pos hq]
        simp [Dict.find, hk, ih]
      · rw [List.filter_cons_of_neg hq]
        simp [Dict.find, hk, ih]

theorem get_resolved (hkey : key ∉ ["review_reason", "audio_changed_at"])
    (items : Items) : get (resolved items) key = get items key := by
  rw [PyValue.get, PyValue.get, resolved, find_filter (q := fun k => k ∉ ["review_reason", "audio_changed_at"])
    (fun _ => rfl) (by simpa using hkey)]

theorem get_withoutHistory (hkey : key ∉ historyKeys) (items : Items) :
    get (withoutHistory items) key = get items key := by
  rw [PyValue.get, PyValue.get, withoutHistory, find_filter (q := fun k => k ∉ historyKeys) (fun _ => rfl)
    (by simpa using hkey)]

theorem get_withoutHistory_of_mem (hkey : key ∈ historyKeys) (items : Items) :
    get (withoutHistory items) key = .none := by
  have hfind : Dict.find key (withoutHistory items) = none := by
    rw [Dict.find_eq_none_iff, withoutHistory]
    simp only [List.mem_map, List.mem_filter, decide_eq_true_eq]
    rintro ⟨item, hitem, rfl⟩
    exact hitem.2 hkey
  rw [PyValue.get, hfind, Option.getD_none]

/-- What an entry says of its approval. -/
def approvalKeys : List String :=
  ["source", "set_at", "set_by", "approved_at", "approved_by", "audio_revision"]

/-- The approval that an entry holds now, with the value it is for. -/
def currentApproval (entry : Option PyValue) (value : Option Double) : Option Items :=
  match entry with
  | some (.dict items) =>
      if (get items "protection").equal (.text "locked") = true then
        some (approvalKeys.map (fun key => (key, get items key)) ++
          [("value", value.elim .none .number)])
      else none
  | _ => none

/-- What a record says of the approval, beside when and why it was retired. -/
def approvalPart (record : Items) : Items :=
  (approvalKeys ++ ["value"]).map fun key => (key, get record key)

/-- The retired approvals of an entry, oldest first. -/
def records (entry : Option PyValue) : List Items :=
  match approvalHistory entry with
  | .ok history => history
  | .error _ => []

def approvals (entry : Option PyValue) (value : Option Double) : Succession Items Items :=
  ⟨records entry, currentApproval entry value⟩

theorem retiredApproval_eq (entry : Option PyValue) (value : Option Double) (now reason : String)
    (revision : Option String) :
    retiredApproval entry value now reason revision = (currentApproval entry value).map (· ++
      [("retired_at", .text now), ("retired_reason", .text reason),
        ("retired_for_audio_revision", revisionValue revision)]) := by
  rcases entry with _ | value'
  · rfl
  · cases value' with
    | dict items =>
      simp only [retiredApproval, currentApproval]
      split_ifs
      · simp [approvalKeys]
      · rfl
    | _ => rfl

/-- An approval is what its record says of it. -/
theorem approvalPart_append (f : String → PyValue) (value : PyValue) (rest : Items) :
    approvalPart (approvalKeys.map (fun key => (key, f key)) ++ [("value", value)] ++ rest) =
      approvalKeys.map (fun key => (key, f key)) ++ [("value", value)] := by
  have hkeys : approvalKeys.map (fun key => (key, get
      (approvalKeys.map (fun key => (key, f key)) ++ [("value", value)] ++ rest) key)) =
        approvalKeys.map fun key => (key, f key) := by
    refine List.map_congr_left fun key hkey => ?_
    rw [PyValue.get, List.append_assoc, Dict.find_append, Dict.find_map, if_pos hkey]
    rfl
  rw [approvalPart, List.map_append, hkeys]
  rfl

theorem approvalPart_retired {entry : Option PyValue} {value : Option Double} {now reason : String}
    {revision : Option String} :
    (retiredApproval entry value now reason revision).map approvalPart =
      currentApproval entry value := by
  rw [retiredApproval_eq, Option.map_map]
  rcases entry with _ | value'
  · rfl
  · cases value' with
    | dict items =>
      simp only [currentApproval]
      split_ifs
      · simp only [Option.map_some, Function.comp_apply, approvalPart_append]
      · rfl
    | _ => rfl

/-! ### Well-kept entries -/

/-- An entry whose history is of flat records, ends with its previous approval, and whose approval
is plain. -/
structure TidyItems (items : Items) (history : List Items) : Prop where
  reads : approvalHistory (some (.dict items)) = .ok history
  previous : get items "previous_approval" = history.getLast?.elim .none .dict
  flat : ∀ record ∈ history, Flat record
  plain : ∀ key ∈ approvalKeys, IsPlain (get items key)

def Tidy (entry : Option PyValue) : Prop :=
  entry = none ∨ ∃ items history, entry = some (.dict items) ∧ TidyItems items history

theorem TidyItems.records_eq (h : TidyItems items history) :
    records (some (.dict items)) = history := by
  rw [records, h.reads]

theorem tidy_of_items (h : TidyItems items history) : Tidy (some (.dict items)) :=
  .inr ⟨items, history, rfl, h⟩

theorem Tidy.reads {entry : Option PyValue} (h : Tidy entry) :
    approvalHistory entry = .ok (records entry) := by
  rcases h with rfl | ⟨items, history, rfl, hitems⟩
  · rfl
  · rw [hitems.records_eq, hitems.reads]

theorem Tidy.flat {entry : Option PyValue} (h : Tidy entry) : ∀ r ∈ records entry, Flat r := by
  rcases h with rfl | ⟨items, history, rfl, hitems⟩
  · simp [records, approvalHistory]
  · rw [hitems.records_eq]
    exact hitems.flat

/-- The keys on which the approvals of an entry rest. -/
def heldKeys : List String := "protection" :: approvalKeys ++ historyKeys

theorem approvalHistory_congr (h : ∀ key ∈ historyKeys, get a key = get b key) :
    approvalHistory (some (.dict a)) = approvalHistory (some (.dict b)) := by
  simp only [approvalHistory, h "approval_history" (by decide), h "previous_approval" (by decide)]

theorem currentApproval_congr {value : Option Double}
    (h : ∀ key ∈ "protection" :: approvalKeys, get a key = get b key) :
    currentApproval (some (.dict a)) value = currentApproval (some (.dict b)) value := by
  have hkeys : approvalKeys.map (fun key => (key, get a key)) =
      approvalKeys.map fun key => (key, get b key) :=
    List.map_congr_left fun key hkey => by rw [h key (List.mem_cons_of_mem _ hkey)]
  simp only [currentApproval, h "protection" List.mem_cons_self, hkeys]

/-- An entry that takes over the history of another. -/
theorem TidyItems.takeOver (h : TidyItems a history)
    (hhistory : ∀ key ∈ historyKeys, get b key = get a key)
    (hplain : ∀ key ∈ approvalKeys, IsPlain (get b key)) : TidyItems b history := by
  refine ⟨(approvalHistory_congr hhistory).trans h.reads, ?_, h.flat, hplain⟩
  rw [hhistory _ (by decide), h.previous]

theorem TidyItems.congr (h : TidyItems a history)
    (hsame : ∀ key ∈ approvalKeys ++ historyKeys, get b key = get a key) : TidyItems b history := by
  refine h.takeOver (fun key hkey => hsame key (List.mem_append_right _ hkey)) fun key hkey => ?_
  rw [hsame key (List.mem_append_left _ hkey)]
  exact h.plain key hkey

/-- Other keys of an entry do not matter. -/
theorem approvals_congr (value : Option Double) (hsame : ∀ key ∈ heldKeys, get b key = get a key) :
    approvals (some (.dict b)) value = approvals (some (.dict a)) value := by
  have hhistory : approvalHistory (some (.dict b)) = approvalHistory (some (.dict a)) :=
    approvalHistory_congr fun key hkey => hsame key (List.mem_append_right _ hkey)
  rw [approvals, approvals, records, records, hhistory,
    currentApproval_congr fun key hkey => hsame key (List.mem_append_left _ hkey)]

theorem get_put_of_notMem {keys : List String} {other : String} (hother : other ∉ keys)
    (value : PyValue) (items : Items) :
    ∀ key ∈ keys, get (Dict.put other value items) key = get items key := by
  intro key hkey
  rw [get_put, if_neg]
  rintro rfl
  exact hother hkey

theorem Flat.of_retired {entry : Option PyValue} (h : Tidy entry) {value : Option Double}
    {now reason : String} {revision : Option String}
    (hrecord : retiredApproval entry value now reason revision = some record) : Flat record := by
  rcases h with rfl | ⟨items, history, rfl, hitems⟩
  · simp [retiredApproval] at hrecord
  · simp only [retiredApproval] at hrecord
    split_ifs at hrecord
    rw [Option.some.injEq] at hrecord
    subst hrecord
    constructor
    · simp
    · intro item hitem
      rcases List.mem_append.mp hitem with hheld | hretired
      · obtain ⟨key, hkey, rfl⟩ := List.mem_map.mp hheld
        exact hitems.plain key hkey
      · simp only [List.mem_cons, List.not_mem_nil, or_false] at hretired
        rcases hretired with rfl | rfl | rfl | rfl
        · cases value <;> trivial
        · trivial
        · trivial
        · cases revision <;> trivial

/-! ### Building an entry -/

section Build

variable {newEntry entry : Items} {previous : Option PyValue} {retired : Option Items}
  {value : Option Double} {now reason : String} {revision : Option String}

/-- What `_with_history` returns. -/
theorem withHistory_eq_ok (hprevious : Tidy previous)
    (h : withHistory newEntry previous retired = .ok entry) :
    (∀ key, key ∉ historyKeys → get entry key = get newEntry key) ∧
      get entry "approval_history" =
        (if records previous ++ retired.toList = [] then .none
        else .list ((records previous ++ retired.toList).map .dict)) ∧
      get entry "previous_approval" =
        (records previous ++ retired.toList).getLast?.elim .none .dict := by
  simp only [withHistory, bind_eq_ok, hprevious.reads, Except.ok.injEq, exists_eq_left'] at h
  cases hlast : (records previous ++ retired.toList).getLast? with
  | none =>
    rw [hlast] at h
    cases h
    have hnil := List.getLast?_eq_none_iff.mp hlast
    refine ⟨fun key hkey => get_withoutHistory hkey newEntry, ?_, ?_⟩
    · rw [if_pos hnil]
      exact get_withoutHistory_of_mem (by decide) newEntry
    · exact get_withoutHistory_of_mem (by decide) newEntry
  | some last =>
    rw [hlast] at h
    cases h
    have hne : records previous ++ retired.toList ≠ [] := by
      intro hnil
      simp [hnil] at hlast
    refine ⟨fun key hkey => ?_, ?_, ?_⟩
    · have hkeys : key ≠ "approval_history" ∧ key ≠ "previous_approval" := by
        simpa [historyKeys] using hkey
      rw [get_put, if_neg hkeys.2, get_put, if_neg hkeys.1, get_withoutHistory hkey]
    · rw [if_neg hne, get_put, if_neg (by decide), get_put, if_pos rfl]
    · rw [get_put, if_pos rfl, Option.elim_some]

theorem filterMap_dict? (history : List Items) :
    (history.map PyValue.dict).filterMap dict? = history := by
  induction history with
  | nil => rfl
  | cons record history ih => simp [dict?, ih]

/-- An entry that carries a flat history reads back as that history. -/
theorem tidyItems_of_carried (hflat : ∀ record ∈ history, Flat record)
    (hplain : ∀ key ∈ approvalKeys, IsPlain (get entry key)) (hlist : get entry "approval_history" =
      if history = [] then .none else .list (history.map .dict))
    (hprevious : get entry "previous_approval" = history.getLast?.elim .none .dict) :
    TidyItems entry history := by
  refine ⟨?_, hprevious, hflat, hplain⟩
  simp only [approvalHistory, hlist, hprevious]
  by_cases hnil : history = []
  · subst hnil
    rfl
  · obtain ⟨last, hlast⟩ := Option.ne_none_iff_exists'.mp
      (mt List.getLast?_eq_none_iff.mp hnil)
    have hsame : history.getLast?.any
        (fun record => (PyValue.dict record).equal (.dict last)) = true := by
      rw [hlast]
      exact (hflat last (List.mem_of_getLast? hlast)).equal_self
    simp only [if_neg hnil, Option.elim_some, filterMap_dict?, hlast]
    exact if_pos hsame

/-- An entry built from its predecessor with the predecessor's approval retired. -/
theorem withHistory_advances (hprevious : Tidy previous)
    (hplain : ∀ key ∈ approvalKeys, IsPlain (get newEntry key))
    (h : withHistory newEntry previous (retiredApproval previous value now reason revision) =
      .ok entry) :
    TidyItems entry
        (records previous ++ (retiredApproval previous value now reason revision).toList) ∧
      ∀ value', (approvals previous value).Advances approvalPart
        (currentApproval (some (.dict newEntry)) value') (approvals (some (.dict entry)) value') := by
  obtain ⟨hkeys, hlist, hlast⟩ := withHistory_eq_ok hprevious h
  have htidy : TidyItems entry
      (records previous ++ (retiredApproval previous value now reason revision).toList) := by
    refine tidyItems_of_carried ?_ (fun key hkey => ?_) hlist hlast
    · intro record hrecord
      rcases List.mem_append.mp hrecord with hold | hnew
      · exact hprevious.flat record hold
      · exact .of_retired hprevious (by simpa using hnew)
    · rw [hkeys key (by revert hkey; revert key; decide)]
      exact hplain key hkey
  refine ⟨htidy, fun value' => Succession.advances_of_retired _ approvalPart_retired
    htidy.records_eq ?_⟩
  exact currentApproval_congr fun key hkey => hkeys key (by revert hkey; revert key; decide)

end Build

theorem tidyItems_unknown : TidyItems [("source", sourceUnknown)] [] :=
  ⟨rfl, rfl, by simp, by simp [approvalKeys, PyValue.get, Dict.find, sourceUnknown, IsPlain]⟩

theorem items_or_unknown (h : TidyItems items history) :
    Tidy (some (.dict (if items = [] then [("source", sourceUnknown)] else items))) ∧
      ∀ value, approvals (some (.dict (if items = [] then [("source", sourceUnknown)] else items)))
        value = approvals (some (.dict items)) value := by
  by_cases hnil : items = []
  · subst hnil
    exact ⟨tidy_of_items tidyItems_unknown, fun value => rfl⟩
  · rw [if_neg hnil]
    exact ⟨tidy_of_items h, fun value => rfl⟩

/-- `state.get(name) or {"source": SOURCE_UNKNOWN}` holds what the entry holds. -/
theorem entryOrUnknown_eq_ok (hstored : Tidy stored) (h : entryOrUnknown stored = .ok items) :
    Tidy (some (.dict items)) ∧
      ∀ value, approvals (some (.dict items)) value = approvals stored value := by
  rcases hstored with rfl | ⟨stored, history, rfl, hitems⟩
  · cases h
    exact ⟨tidy_of_items tidyItems_unknown, fun value => rfl⟩
  · simp only [entryOrUnknown, itemsOf, bind_eq_ok, Except.ok.injEq, exists_eq_left'] at h
    cases h
    exact items_or_unknown hitems

/-- `_resolved(state.get(name)) or {"source": SOURCE_UNKNOWN}` keeps the history of the entry. -/
theorem resolved_or_unknown (hstored : Tidy stored) (h : itemsOf stored = .ok items) :
    TidyItems (if resolved items = [] then [("source", sourceUnknown)] else resolved items)
        (records stored) ∧
      ∀ value, currentApproval (some (.dict items)) value = currentApproval stored value := by
  rcases hstored with rfl | ⟨stored, history, rfl, htidy⟩
  · cases h
    exact ⟨tidyItems_unknown, fun value => rfl⟩
  · cases h
    refine ⟨?_, fun value => rfl⟩
    rw [htidy.records_eq]
    have hkeep : ∀ key ∈ approvalKeys ++ historyKeys, get (resolved items) key = get items key :=
      fun key hkey => get_resolved ((by decide : ∀ key ∈ approvalKeys ++ historyKeys,
        key ∉ ["review_reason", "audio_changed_at"]) key hkey) items
    by_cases hnil : resolved items = []
    · rw [if_pos hnil]
      rw [hnil] at hkeep
      have hhistory := htidy.congr hkeep
      obtain rfl : [] = history := Except.ok.inj (hhistory.reads.symm.trans rfl).symm
      exact tidyItems_unknown
    · rw [if_neg hnil]
      exact htidy.congr hkeep

end IsadoraAir.CueMarkers
