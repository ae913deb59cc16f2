import IsadoraAir.Foundation.Dict
import IsadoraAir.Foundation.Keyed
import IsadoraAir.Refill.Projection
import Mathlib.Data.Prod.Lex
import Mathlib.Data.String.Basic

/-!
# Causes of one hour

The causes recorded for an hour are partitioned in causal order: a repeated
key and other hours go first, each remaining cause is held against the current
occurrence, and only then is one cause kept for each occurrence family.
-/

namespace IsadoraAir.Refill.Causality

variable {record : CauseRecord} {after before records records' sorted : List CauseRecord}
  {snapshot : PlaybackWindowSnapshot}

def causeRequestSubstitution : String := "request_substitution"
def causeOperatorEject : String := "operator_eject"
def causeStartNext : String := "start_next"
def causeAutomaticSkip : String := "automatic_skip"
def causeMediaFailure : String := "media_failure"

def phasePreAir : String := "pre_air"

def terminationCauses : List String :=
  [causeOperatorEject, causeStartNext, causeAutomaticSkip, causeMediaFailure]

/-- A recorded cause; `causeType` is whatever the row holds. -/
structure CauseRecord where
  id : Option ℤ
  sourceKey : String
  causeType : String
  occurredAt : ℤ
  logId : ℕ
  logDate : ℕ
  logHour : ℕ
  logItemId : ℕ
  scheduledCategoryId : Option ℕ
  scheduledCategoryCode : String
  scheduledCategoryKindCode : String
  originalTrackId : Option ℕ
  replacementTrackId : Option ℕ
  observedShorteningSeconds : ℚ
  failurePhase : String
  deriving DecidableEq

structure QualifiedCause where
  causeId : Option ℤ
  sourceKey : String
  causeType : String
  occurredAt : ℤ
  logItemId : ℕ
  scheduledCategoryId : Option ℕ
  scheduledCategoryCode : String
  observedShorteningSeconds : ℚ
  originalTrackId : Option ℕ
  replacementTrackId : Option ℕ
  deriving DecidableEq

/-- Why a cause is not counted. -/
inductive Exclusion where
  | duplicateSourceKey
  | otherHour
  | staleLog
  | notMusicSlot
  | missingOccurrence
  | superseded
  | occurrenceStillPending
  | occurrenceAired
  | unknownCauseType
  | duplicateOccurrenceCause
  deriving DecidableEq, Repr

/-- `_causal_order`. -/
def causalOrder (record : CauseRecord) : ℤ ×ₗ ℤ ×ₗ String :=
  toLex (record.occurredAt, toLex (record.id.getD 0, record.sourceKey))

/-- Every termination type shares one family; any other type is its own. -/
def occurrenceFamily (causeType : String) : String :=
  if causeType ∈ terminationCauses then "termination" else causeType

def CauseRecord.occurrence (record : CauseRecord) : String × ℕ :=
  (occurrenceFamily record.causeType, record.logItemId)

def QualifiedCause.occurrence (cause : QualifiedCause) : String × ℕ :=
  (occurrenceFamily cause.causeType, cause.logItemId)

def CauseRecord.qualified (record : CauseRecord) : QualifiedCause where
  causeId := record.id
  sourceKey := record.sourceKey
  causeType := record.causeType
  occurredAt := record.occurredAt
  logItemId := record.logItemId
  scheduledCategoryId := record.scheduledCategoryId
  scheduledCategoryCode := record.scheduledCategoryCode
  observedShorteningSeconds := record.observedShorteningSeconds
  originalTrackId := record.originalTrackId
  replacementTrackId := record.replacementTrackId

@[simp] theorem CauseRecord.occurrence_qualified (record : CauseRecord) :
    record.qualified.occurrence = record.occurrence := rfl

/-- The item ids on the decks. -/
def deckIds (snapshot : PlaybackWindowSnapshot) : List ℕ :=
  (snapshot.decks.filterMap DeckState.item).map ItemTiming.logItemId

/-- The item ids that are still to air. -/
def pendingIds (snapshot : PlaybackWindowSnapshot) : List ℕ :=
  (snapshot.forced ++ sliceFrom snapshot.queue snapshot.cursor).map ItemTiming.logItemId

/-- The last item wins, and a forced one over a queued one. -/
def byId (snapshot : PlaybackWindowSnapshot) : Dict ℕ ItemTiming :=
  Dict.ofList ((snapshot.queue ++ snapshot.forced).map fun it => (it.logItemId, it))

/-- `_qualification_problem`: why the record does not describe its occurrence
in this snapshot. -/
def qualificationProblem (snapshot : PlaybackWindowSnapshot) (record : CauseRecord) :
    Option Exclusion :=
  if some record.logId ≠ snapshot.activeLogId then some .staleLog
  else if record.scheduledCategoryKindCode ≠ "music" ∨ record.scheduledCategoryId = none then
    some .notMusicSlot
  else
    match (byId snapshot).get? record.logItemId with
    | none => some .missingOccurrence
    | some occurrence =>
      let pending := record.logItemId ∈ pendingIds snapshot ∨ record.logItemId ∈ deckIds snapshot
      let changed :=
        record.originalTrackId = none ∨ occurrence.trackId ≠ record.originalTrackId
      if record.causeType = causeRequestSubstitution then
        if occurrence.trackId ≠ record.replacementTrackId then some .superseded else none
      else if record.causeType = causeOperatorEject then
        if pending then some .occurrenceStillPending else none
      else if record.causeType = causeStartNext then
        -- the cut occurrence is over and still the track that was cut
        if pending then some .occurrenceStillPending
        else if changed then some .superseded
        else none
      else if record.causeType = causeAutomaticSkip ∨ record.causeType = causeMediaFailure then
        if pending then some .occurrenceStillPending
        else if changed then some .superseded
        else if record.causeType = causeAutomaticSkip ∧ (occurrence.claimed ∨ occurrence.played) then
          some .occurrenceAired
        else if record.failurePhase = phasePreAir ∧ occurrence.played then some .occurrenceAired
        else none
      else some .unknownCauseType

def ofActiveHour (snapshot : PlaybackWindowSnapshot) (record : CauseRecord) : Bool :=
  some record.logDate = snapshot.activeLogDate ∧ some record.logHour = snapshot.activeLogHour

/-- The first loop of `partition_causes`: `(excluded, candidates)`. -/
def screen (snapshot : PlaybackWindowSnapshot) :
    List String → List CauseRecord → List (String × Exclusion) × List CauseRecord
  | _, [] => ([], [])
  | seenKeys, record :: records =>
    if record.sourceKey ∈ seenKeys then
      let rest := screen snapshot seenKeys records
      ((record.sourceKey, .duplicateSourceKey) :: rest.1, rest.2)
    else
      let rest := screen snapshot (record.sourceKey :: seenKeys) records
      if ¬ ofActiveHour snapshot record then
        ((record.sourceKey, .otherHour) :: rest.1, rest.2)
      else
        match qualificationProblem snapshot record with
        | some problem => ((record.sourceKey, problem) :: rest.1, rest.2)
        | none => (rest.1, record :: rest.2)

/-- The second loop: `(qualified, excluded)`. -/
def select : List (String × ℕ) → List CauseRecord →
    List QualifiedCause × List (String × Exclusion)
  | _, [] => ([], [])
  | seenOccurrence, record :: records =>
    if record.occurrence ∈ seenOccurrence then
      let rest := select seenOccurrence records
      (rest.1, (record.sourceKey, .duplicateOccurrenceCause) :: rest.2)
    else
      let rest := select (record.occurrence :: seenOccurrence) records
      (record.qualified :: rest.1, rest.2)

def partitionCauses (snapshot : PlaybackWindowSnapshot) (records : List CauseRecord) :
    List QualifiedCause × List (String × Exclusion) :=
  let screened := screen snapshot [] (sortedBy causalOrder records)
  let selected := select [] screened.2
  (selected.1, screened.1 ++ selected.2)

/-! ## The loops as lists -/

/-- A record of the active hour that describes its occurrence. -/
def holds (snapshot : PlaybackWindowSnapshot) (record : CauseRecord) : Bool :=
  ofActiveHour snapshot record ∧ qualificationProblem snapshot record = none

theorem screen_snd (snapshot : PlaybackWindowSnapshot) (seen : List String)
    (records : List CauseRecord) :
    (screen snapshot seen records).2 =
      (firstSeen CauseRecord.sourceKey seen records).filter (holds snapshot) := by
  induction records generalizing seen with
  | nil => rfl
  | cons record records ih =>
    simp only [screen, firstSeen]
    split_ifs with hseen hhour
    · exact ih seen
    · cases hproblem : qualificationProblem snapshot record with
      | some problem =>
        rw [List.filter_cons_of_neg (by simp [holds, hproblem])]
        exact ih _
      | none =>
        rw [List.filter_cons_of_pos (by simp [holds, hhour, hproblem])]
        simp only [ih]
    · rw [List.filter_cons_of_neg (by simp [holds, hhour])]
      exact ih _

/-- What the first loop excludes, by key. -/
theorem screen_fst_map (snapshot : PlaybackWindowSnapshot) (seen : List String)
    (records : List CauseRecord) :
    ∃ dropped, (screen snapshot seen records).1.map Prod.fst = dropped.map CauseRecord.sourceKey ∧
      ((screen snapshot seen records).2 ++ dropped).Perm records := by
  induction records generalizing seen with
  | nil => exact ⟨[], rfl, .nil⟩
  | cons record records ih =>
    simp only [screen]
    split_ifs with hseen hhour
    · obtain ⟨dropped, hkeys, hperm⟩ := ih seen
      refine ⟨record :: dropped, by simp [hkeys], ?_⟩
      exact List.perm_middle.trans (hperm.cons record)
    · obtain ⟨dropped, hkeys, hperm⟩ := ih (record.sourceKey :: seen)
      cases qualificationProblem snapshot record with
      | some problem =>
        refine ⟨record :: dropped, by simp [hkeys], ?_⟩
        exact List.perm_middle.trans (hperm.cons record)
      | none => exact ⟨dropped, hkeys, hperm.cons record⟩
    · obtain ⟨dropped, hkeys, hperm⟩ := ih (record.sourceKey :: seen)
      refine ⟨record :: dropped, by simp [hkeys], ?_⟩
      exact List.perm_middle.trans (hperm.cons record)

theorem select_fst (seen : List (String × ℕ)) (records : List CauseRecord) :
    (select seen records).1 =
      (firstSeen CauseRecord.occurrence seen records).map CauseRecord.qualified := by
  induction records generalizing seen with
  | nil => rfl
  | cons record records ih =>
    simp only [select, firstSeen]
    split_ifs with hseen
    · exact ih seen
    · rw [List.map_cons, ih]

theorem select_snd_map (seen : List (String × ℕ)) (records : List CauseRecord) :
    (select seen records).2.map Prod.fst =
      (seenBefore CauseRecord.occurrence seen records).map CauseRecord.sourceKey := by
  induction records generalizing seen with
  | nil => rfl
  | cons record records ih =>
    simp only [select, seenBefore]
    split_ifs with hseen
    · rw [List.map_cons, List.map_cons, ih]
    · exact ih _

/-! ## The partition -/

/-- The records that may count, in causal order. -/
def candidates (snapshot : PlaybackWindowSnapshot) (records : List CauseRecord) :
    List CauseRecord :=
  (firstSeen CauseRecord.sourceKey [] (sortedBy causalOrder records)).filter (holds snapshot)

theorem partitionCauses_fst (snapshot : PlaybackWindowSnapshot) (records : List CauseRecord) :
    (partitionCauses snapshot records).1 =
      (firstSeen CauseRecord.occurrence [] (candidates snapshot records)).map
        CauseRecord.qualified := by
  rw [candidates, ← screen_snd]
  exact select_fst _ _

/-- Every record is either kept or named among the excluded. -/
theorem partitionCauses_perm (snapshot : PlaybackWindowSnapshot) (records : List CauseRecord) :
    ∃ kept dropped : List CauseRecord, (kept ++ dropped).Perm records ∧
      (partitionCauses snapshot records).1 = kept.map CauseRecord.qualified ∧
      (partitionCauses snapshot records).2.map Prod.fst = dropped.map CauseRecord.sourceKey := by
  obtain ⟨dropped, hkeys, hperm⟩ := screen_fst_map snapshot [] (sortedBy causalOrder records)
  have hselect := firstSeen_append_perm CauseRecord.occurrence []
    (screen snapshot [] (sortedBy causalOrder records)).2
  refine ⟨_, dropped ++ seenBefore CauseRecord.occurrence []
    (screen snapshot [] (sortedBy causalOrder records)).2, ?_, select_fst _ _, ?_⟩
  · have hsorted := hperm.trans (sortedBy_perm causalOrder records)
    refine List.Perm.trans ?_ hsorted
    refine List.Perm.trans (List.Perm.append_left _ List.perm_append_comm) ?_
    rw [← List.append_assoc]
    exact hselect.append_right dropped
  · simp only [partitionCauses, List.map_append, hkeys, select_snd_map]

theorem nodup_occurrence (snapshot : PlaybackWindowSnapshot) (records : List CauseRecord) :
    ((partitionCauses snapshot records).1.map QualifiedCause.occurrence).Nodup := by
  rw [partitionCauses_fst, List.map_map]
  exact nodup_firstSeen [] (candidates snapshot records)

theorem sortedBy_causal (records : List CauseRecord) :
    (sortedBy causalOrder records).Pairwise fun a b => causalOrder a ≤ causalOrder b :=
  List.pairwise_insertionSort _ records

/-- Records whose causal keys differ have one causal order. -/
theorem sortedBy_causalOrder (hperm : records.Perm records')
    (hkeys : (records.map causalOrder).Nodup) :
    sortedBy causalOrder records = sortedBy causalOrder records' := by
  have hkeys' : (records'.map causalOrder).Nodup := (hperm.map causalOrder).nodup_iff.mp hkeys
  refine sortedBy_eq causalOrder (hperm.trans (sortedBy_perm causalOrder records').symm) ?_
  exact sortedBy_pairwise causalOrder (List.pairwise_map.mp hkeys')

theorem partitionCauses_congr (snapshot : PlaybackWindowSnapshot) (hperm : records.Perm records')
    (hkeys : (records.map causalOrder).Nodup) :
    partitionCauses snapshot records = partitionCauses snapshot records' := by
  simp only [partitionCauses, sortedBy_causalOrder hperm hkeys]

/-! ## The cause that counts -/

/-- A record with a first-seen key that describes its occurrence; `before` are
the records before it in causal order. -/
structure Counts (snapshot : PlaybackWindowSnapshot) (before : List CauseRecord)
    (record : CauseRecord) : Prop where
  firstKey : record.sourceKey ∉ before.map CauseRecord.sourceKey
  activeHour : ofActiveHour snapshot record = true
  qualifies : qualificationProblem snapshot record = none

theorem Counts.mem_candidates (h : Counts snapshot before record) (after : List CauseRecord) :
    record ∈ (firstSeen CauseRecord.sourceKey [] (before ++ record :: after)).filter
      (holds snapshot) := by
  rw [List.mem_filter]
  refine ⟨mem_firstSeen List.not_mem_nil h.firstKey, ?_⟩
  simp [holds, h.activeHour, h.qualifies]

/-- A record among those that may count stands where its key is first seen. -/
theorem candidates_split {ys zs : List CauseRecord}

    (h : (firstSeen CauseRecord.sourceKey [] sorted).filter (holds snapshot) =
      ys ++ record :: zs) :
    ∃ before after, sorted = before ++ record :: after ∧ Counts snapshot before record ∧
      (firstSeen CauseRecord.sourceKey [] before).filter (holds snapshot) = ys := by
  obtain ⟨earlier, later, hsplit, hholds, hearlier⟩ := filter_split h
  obtain ⟨before, after, rfl, -, hfirst, hbefore⟩ := firstSeen_split hsplit
  have hactive : ofActiveHour snapshot record = true ∧
      qualificationProblem snapshot record = none := by simpa [holds] using hholds
  exact ⟨before, after, rfl, ⟨hfirst, hactive.1, hactive.2⟩, hbefore ▸ hearlier⟩

/-- The causally earliest record that counts for an occurrence. -/
structure Earliest (snapshot : PlaybackWindowSnapshot) (sorted before : List CauseRecord)
    (record : CauseRecord) : Prop where
  counts : Counts snapshot before record
  position : ∃ after, sorted = before ++ record :: after
  first : ∀ other earlier rest, before = earlier ++ other :: rest →
    Counts snapshot earlier other → other.occurrence ≠ record.occurrence

/-- An occurrence for which some record counts has an earliest one. -/
theorem Counts.exists_earliest

    (hsorted : sorted = before ++ record :: after) (h : Counts snapshot before record) :
    ∃ before' cause, Earliest snapshot sorted before' cause ∧
      cause.occurrence = record.occurrence ∧
      cause ∈ firstSeen CauseRecord.occurrence []
        ((firstSeen CauseRecord.sourceKey [] sorted).filter (holds snapshot)) := by
  have hmem := h.mem_candidates after
  rw [← hsorted] at hmem
  obtain ⟨earlier, cause, later, hsplit, hoccurrence, hnew⟩ :=
    exists_first CauseRecord.occurrence hmem
  obtain ⟨before', after', hat, hcounts, hearlier⟩ := candidates_split hsplit
  refine ⟨before', cause, ⟨hcounts, ⟨after', hat⟩, ?_⟩, hoccurrence, ?_⟩
  · intro other start rest hbefore' hother heq
    apply hnew
    rw [← hoccurrence, ← heq, ← hearlier, hbefore']
    exact List.mem_map_of_mem (hother.mem_candidates rest)
  · rw [hsplit]
    exact mem_firstSeen List.not_mem_nil (hoccurrence ▸ hnew)

/-- Each occurrence with a record that counts keeps its earliest one alone. -/
theorem partitionCauses_earliest

    (hsorted : sortedBy causalOrder records = before ++ record :: after)
    (h : Counts snapshot before record) :
    ∃ before' cause, Earliest snapshot (sortedBy causalOrder records) before' cause ∧
      cause.occurrence = record.occurrence ∧
      (partitionCauses snapshot records).1.filter
        (fun q => q.occurrence = record.occurrence) = [cause.qualified] := by
  obtain ⟨before', cause, hearliest, hoccurrence, hmem⟩ := h.exists_earliest hsorted
  refine ⟨before', cause, hearliest, hoccurrence, ?_⟩
  have hkept : cause.qualified ∈ (partitionCauses snapshot records).1 := by
    rw [partitionCauses_fst]
    exact List.mem_map_of_mem hmem
  rw [← hoccurrence]
  exact filter_eq_singleton (nodup_occurrence snapshot records) hkept

/-- Conversely a qualified cause is the earliest of its occurrence. -/
theorem earliest_of_qualified
    {cause : QualifiedCause} (h : cause ∈ (partitionCauses snapshot records).1) :
    ∃ before record, Earliest snapshot (sortedBy causalOrder records) before record ∧
      cause = record.qualified := by
  rw [partitionCauses_fst] at h
  obtain ⟨record, hmem, rfl⟩ := List.mem_map.mp h
  obtain ⟨ys, zs, hsplit⟩ := List.append_of_mem hmem
  obtain ⟨earlier, later, hcandidates, -, hnew, -⟩ := firstSeen_split hsplit
  obtain ⟨before, after, hat, hcounts, hearlier⟩ := candidates_split hcandidates
  refine ⟨before, record, ⟨hcounts, ⟨after, hat⟩, ?_⟩, rfl⟩
  intro other start rest hbefore hother heq
  apply hnew
  rw [← heq, ← hearlier, hbefore]
  exact List.mem_map_of_mem (hother.mem_candidates rest)

/-- The partition keeps every record once, does not depend on the input order,
and counts for each occurrence the earliest record that holds. -/
theorem partition_counts_earliest (snapshot : PlaybackWindowSnapshot) (records : List CauseRecord) :
    (∃ kept dropped : List CauseRecord, (kept ++ dropped).Perm records ∧
      (partitionCauses snapshot records).1 = kept.map CauseRecord.qualified ∧
      (partitionCauses snapshot records).2.map Prod.fst = dropped.map CauseRecord.sourceKey) ∧
    (∀ records' : List CauseRecord, records.Perm records' → (records.map causalOrder).Nodup →
      partitionCauses snapshot records = partitionCauses snapshot records') ∧
    ((partitionCauses snapshot records).1.map QualifiedCause.occurrence).Nodup ∧
    ((sortedBy causalOrder records).Perm records ∧
      (sortedBy causalOrder records).Pairwise fun a b => causalOrder a ≤ causalOrder b) ∧
    (∀ before record after, sortedBy causalOrder records = before ++ record :: after →
      Counts snapshot before record →
      ∃ before' cause, Earliest snapshot (sortedBy causalOrder records) before' cause ∧
        cause.occurrence = record.occurrence ∧
        (partitionCauses snapshot records).1.filter
          (fun q => q.occurrence = record.occurrence) = [cause.qualified]) ∧
    ∀ cause ∈ (partitionCauses snapshot records).1, ∃ before record,
      Earliest snapshot (sortedBy causalOrder records) before record ∧
      cause = record.qualified :=
  ⟨partitionCauses_perm snapshot records,
    fun _ hperm hkeys => partitionCauses_congr snapshot hperm hkeys,
    nodup_occurrence snapshot records,
    ⟨sortedBy_perm causalOrder records, sortedBy_causal records⟩,
    fun _ _ _ hsorted hcounts => partitionCauses_earliest hsorted hcounts,
    fun _ hcause => earliest_of_qualified hcause⟩

/-- A skip whose occurrence aired after all does not suppress the later cut. -/
example :
    let aired : ItemTiming :=
      ⟨7, none, none, some 3, none, none, none, none, none, true, true⟩
    let snapshot : PlaybackWindowSnapshot :=
      ⟨0, "", some 1, some 0, some 0, 1, [aired], [], [], []⟩
    let cut : CauseRecord :=
      ⟨none, "b", "start_next", 6, 1, 0, 0, 7, some 1, "", "music", some 3, none, 0, ""⟩
    let skip : CauseRecord :=
      ⟨none, "a", "automatic_skip", 5, 1, 0, 0, 7, some 1, "", "music", some 3, none, 0, ""⟩
    partitionCauses snapshot [cut, skip] = ([cut.qualified], [("a", .occurrenceAired)]) := by
  decide +kernel

end IsadoraAir.Refill.Causality
