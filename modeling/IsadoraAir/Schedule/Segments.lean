import IsadoraAir.Schedule.Resolution

/-!
# Segments and minute map against the per-minute resolver

`Compresses` states what the ordered segments are for: a run-length
compression of the resolver in which a weekly row never reappears after a
dated one. `AgreesWith` compares one minute-map entry with the segments.
-/

namespace IsadoraAir.Schedule

open RunLength

variable {row : ScheduleBlock} {m : ℕ}

/-- The segment that owns a minute: the last one starting at or before it. -/
def ownerAt (segments : List ScheduleSegment) (minute : ℕ) : Option ScheduleSegment :=
  lastAt ScheduleSegment.startMinute segments minute

/-- `segments` is the run-length compression of `resolve`. -/
structure Compresses (resolve : ℕ → Option ScheduleBlock × Origin)
    (segments : List ScheduleSegment) : Prop where
  owner : ∀ m, (resolve m).1 = (ownerAt segments m).map ScheduleSegment.block
  none_iff : ∀ m, (resolve m).1 = none ↔ ∀ s ∈ segments, m < s.startMinute
  increasing : segments.Pairwise (fun s t => s.startMinute < t.startMinute)
  changing : segments.IsChain (fun s t => s.block ≠ t.block)
  dated_final : segments.Pairwise (fun s t => s.origin = .dateOverride → t.origin = .dateOverride)

/-- One entry of the minute map tells the same story as the segment list. -/
structure MinuteEntry.AgreesWith (e : MinuteEntry) (layer : Layer)
    (segments : List ScheduleSegment) : Prop where
  effectiveBlock : e.effectiveBlock = (ownerAt segments e.minute).map ScheduleSegment.block
  segmentStart : e.segmentStart = true ↔ ∃ s ∈ segments, s.startMinute = e.minute
  hasBase : e.hasBase = true ↔ ∃ s ∈ segments, s.startMinute = 0
  continuation : e.continuation = true ↔ ownerAt segments e.minute = none ∧ segments ≠ []
  inheritedTransition : e.inheritedTransition = true ↔
    layer = .date ∧ ∃ s ∈ segments, s.startMinute = e.minute ∧ s.origin = .weekly

section Source

variable (weekly dated : Dict ℕ ScheduleBlock)

/-- The effective row together with its origin. -/
def source (minute : ℕ) : Option (ScheduleBlock × Origin) :=
  (effectiveAt minute weekly dated).1.map fun row => (row, (effectiveAt minute weekly dated).2)

def toSegment (x : ℕ × (ScheduleBlock × Origin)) : ScheduleSegment := ⟨x.1, x.2.1, x.2.2⟩

/-- The emitting loop is the library's compression, keyed by the primary key. -/
theorem collectSegments_eq_compress (previous : Option (ScheduleBlock × Origin))
    (minutes : List ℕ) :
    collectSegments weekly dated (previous.map Prod.fst) minutes =
      (compress (fun x => x.1.pk) (source weekly dated) previous minutes).map toSegment := by
  induction minutes generalizing previous with
  | nil => simp [collectSegments, compress]
  | cons minute rest ih =>
    unfold collectSegments compress
    cases he : effectiveAt minute weekly dated with
    | mk row origin =>
      cases row with
      | none => simp [source, he, ih]
      | some row =>
        have hprev : (previous.map Prod.fst).map ScheduleBlock.pk =
            previous.map (fun x => x.1.pk) := by cases previous <;> rfl
        simp only [source, he, Option.map_some, hprev]
        split_ifs
        · exact ih previous
        · simpa [toSegment] using ih (some (row, origin))

theorem mem_transitionMinutes :
    m ∈ transitionMinutes weekly dated ↔ m ∈ weekly.keys ∨ m ∈ dated.keys := by
  simp [transitionMinutes, List.mem_insertionSort]

theorem transitionMinutes_increasing : (transitionMinutes weekly dated).Pairwise (· < ·) := by
  have hle : (transitionMinutes weekly dated).Pairwise (· ≤ ·) := List.pairwise_insertionSort _ _
  have hne : (transitionMinutes weekly dated).Nodup :=
    (List.perm_insertionSort _ _).nodup_iff.mpr (List.nodup_dedup _)
  exact hle.imp₂ (fun _ _ hab hne => lt_of_le_of_ne hab hne) hne

theorem source_eq_none_iff :
    source weekly dated m = none ↔ ∀ k ∈ transitionMinutes weekly dated, m < k := by
  rw [source, Option.map_eq_none_iff, effectiveAt_eq_none_iff]
  simp [mem_transitionMinutes]

theorem source_isSome (hm : m ∈ transitionMinutes weekly dated) :
    (source weekly dated m).isSome := by
  rw [Option.isSome_iff_ne_none, Ne, source_eq_none_iff]
  exact fun h => lt_irrefl m (h m hm)

/-- The resolver only changes at a transition minute. -/
theorem source_eq_lastAt (m : ℕ) :
    source weekly dated m =
      (lastAt id (transitionMinutes weekly dated) m).elim none (source weekly dated) := by
  have hinc := transitionMinutes_increasing weekly dated
  cases h : lastAt id (transitionMinutes weekly dated) m with
  | none => exact (source_eq_none_iff weekly dated).mpr ((lastAt_eq_none_iff id).mp h)
  | some t =>
    have htm : t ≤ m := (mem_of_lastAt id h).2
    have hsame : ∀ k, k ∈ weekly.keys ∨ k ∈ dated.keys → (k ≤ m ↔ k ≤ t) := by
      intro k hk
      refine ⟨fun hkm => ?_, fun hkt => hkt.trans htm⟩
      exact lastAt_le id hinc h ((mem_transitionMinutes weekly dated).mpr hk) hkm
    have heq := effectiveAt_congr (fun k hk => hsame k (Or.inl hk)) (fun k hk => hsame k (Or.inr hk))
    simp only [source, heq, Option.elim_some]

/-- A weekly row is in charge exactly when no dated row has started. -/
theorem source_eq_weekly_iff :
    source weekly dated m = some (row, .weekly) ↔
      layerAt m dated = none ∧ layerAt m weekly = some row := by
  unfold source effectiveAt
  cases layerAt m dated <;> cases layerAt m weekly <;> simp

end Source

section Rows

variable {weeklyRows datedRows : List ScheduleBlock}
  (hpk : ((weeklyRows ++ datedRows).map ScheduleBlock.pk).Nodup)

include hpk in
theorem block_eq_of_pk_eq {a b : ScheduleBlock} (ha : a ∈ weeklyRows ++ datedRows)
    (hb : b ∈ weeklyRows ++ datedRows) (h : a.pk = b.pk) : a = b :=
  List.inj_on_of_nodup_map hpk ha hb h

/-- The origin says which of the two row lists the row was taken from. -/
theorem source_mem {origin : Origin}
    (h : source (index weeklyRows) (index datedRows) m = some (row, origin)) :
    (origin = .dateOverride ∧ row ∈ datedRows) ∨ (origin = .weekly ∧ row ∈ weeklyRows) := by
  unfold source effectiveAt at h
  cases hd : layerAt m (index datedRows) with
  | some r =>
    simp only [hd, Option.map_some, Option.some.injEq, Prod.mk.injEq] at h
    obtain ⟨k, -, hr, -⟩ := layerAt_spec hd
    exact Or.inl ⟨h.2.symm, h.1 ▸ (mem_of_index hr).1⟩
  | none =>
    cases hw : layerAt m (index weeklyRows) with
    | some r =>
      simp only [hd, hw, Option.map_some, Option.some.injEq, Prod.mk.injEq] at h
      obtain ⟨k, -, hr, -⟩ := layerAt_spec hw
      exact Or.inr ⟨h.2.symm, h.1 ▸ (mem_of_index hr).1⟩
    | none => simp [hd, hw] at h

include hpk in
theorem source_inj {t u : ℕ} {a b : ScheduleBlock × Origin}
    (ha : source (index weeklyRows) (index datedRows) t = some a)
    (hb : source (index weeklyRows) (index datedRows) u = some b) (h : a.1.pk = b.1.pk) :
    a = b := by
  obtain ⟨a, oa⟩ := a
  obtain ⟨b, ob⟩ := b
  have hdisj := List.disjoint_of_nodup_append (List.map_append ▸ hpk)
  have hpk' : ∀ {r s : ScheduleBlock}, r ∈ weeklyRows → s ∈ datedRows → r.pk ≠ s.pk :=
    fun hr hs he => hdisj (List.mem_map_of_mem hr) (he ▸ List.mem_map_of_mem hs)
  replace h : a.pk = b.pk := h
  rcases source_mem ha with ⟨rfl, hma⟩ | ⟨rfl, hma⟩ <;>
    rcases source_mem hb with ⟨rfl, hmb⟩ | ⟨rfl, hmb⟩
  · rw [block_eq_of_pk_eq hpk (by simp [hma]) (by simp [hmb]) h]
  · exact absurd h.symm (hpk' hmb hma)
  · exact absurd h (hpk' hma hmb)
  · rw [block_eq_of_pk_eq hpk (by simp [hma]) (by simp [hmb]) h]

theorem effectiveSegments_eq_compress :
    effectiveSegments weeklyRows datedRows =
      (compress (fun x => x.1.pk) (source (index weeklyRows) (index datedRows)) none
        (transitionMinutes (index weeklyRows) (index datedRows))).map toSegment :=
  collectSegments_eq_compress (index weeklyRows) (index datedRows) none _

theorem source_of_mem_segments {s : ScheduleSegment}
    (hs : s ∈ effectiveSegments weeklyRows datedRows) :
    source (index weeklyRows) (index datedRows) s.startMinute = some (s.block, s.origin) := by
  rw [effectiveSegments_eq_compress] at hs
  obtain ⟨x, hx, rfl⟩ := List.mem_map.mp hs
  exact (mem_compress _ _ hx).2

theorem effectiveSegments_increasing :
    (effectiveSegments weeklyRows datedRows).Pairwise
      (fun s t => s.startMinute < t.startMinute) := by
  have h := (transitionMinutes_increasing (index weeklyRows) (index datedRows)).sublist
    (compress_starts_sublist (fun x : ScheduleBlock × Origin => x.1.pk)
      (source (index weeklyRows) (index datedRows)) none _)
  rw [effectiveSegments_eq_compress, List.pairwise_map]
  exact List.pairwise_map.mp h

include hpk in
/-- The resolver's pair at a minute is the one carried by the owning segment. -/
theorem source_eq_owner (m : ℕ) :
    source (index weeklyRows) (index datedRows) m =
      (ownerAt (effectiveSegments weeklyRows datedRows) m).map (fun s => (s.block, s.origin)) := by
  have h := compress_lastAt (fun x : ScheduleBlock × Origin => x.1.pk)
    (source (index weeklyRows) (index datedRows)) (fun t u a b ha hb hk => source_inj hpk ha hb hk)
    (transitionMinutes_increasing (index weeklyRows) (index datedRows))
    (fun t ht => source_isSome _ _ ht) none (Or.inl rfl) m
  rw [source_eq_lastAt, ← h, effectiveSegments_eq_compress, ownerAt, lastAt_map, Option.or_none,
    Option.map_map]
  rfl

theorem effectiveAt_eq_source (weekly dated : Dict ℕ ScheduleBlock) (m : ℕ) :
    (effectiveAt m weekly dated).1 = (source weekly dated m).map Prod.fst := by
  simp [source, Function.comp_def]

include hpk in
theorem effectiveAt_eq_owner (m : ℕ) :
    (effectiveAt m (index weeklyRows) (index datedRows)).1 =
      (ownerAt (effectiveSegments weeklyRows datedRows) m).map ScheduleSegment.block := by
  rw [effectiveAt_eq_source, source_eq_owner hpk, Option.map_map]
  rfl

/-- Once the date layer is reached it stays in charge. -/
theorem effectiveSegments_dated_final :
    (effectiveSegments weeklyRows datedRows).Pairwise
      (fun s t => s.origin = .dateOverride → t.origin = .dateOverride) := by
  have origin_iff : ∀ s ∈ effectiveSegments weeklyRows datedRows,
      s.origin = .dateOverride ↔ ∃ k ∈ (index datedRows).keys, k ≤ s.startMinute := by
    intro s hs
    have h := source_of_mem_segments hs
    obtain ⟨row, -, hrow⟩ := Option.map_eq_some_iff.mp h
    rw [← origin_eq_date_iff (index weeklyRows), ← (Prod.mk.inj hrow).2]
  refine List.Pairwise.imp_of_mem ?_ effectiveSegments_increasing
  intro s t hs ht hlt h
  obtain ⟨k, hk, hks⟩ := (origin_iff s hs).mp h
  exact (origin_iff t ht).mpr ⟨k, hk, hks.trans hlt.le⟩

theorem effectiveSegments_changing :
    (effectiveSegments weeklyRows datedRows).IsChain (fun s t => s.block ≠ t.block) := by
  have h := (compress_isChain (fun x : ScheduleBlock × Origin => x.1.pk)
    (source (index weeklyRows) (index datedRows)) none
    (transitionMinutes (index weeklyRows) (index datedRows))).1
  rw [effectiveSegments_eq_compress, List.isChain_map]
  exact h.imp fun x y hne he => hne (congrArg ScheduleBlock.pk he)

include hpk in
theorem effectiveSegments_compresses :
    Compresses (fun m => effectiveAt m (index weeklyRows) (index datedRows))
      (effectiveSegments weeklyRows datedRows) where
  owner := effectiveAt_eq_owner hpk
  none_iff m := by
    rw [effectiveAt_eq_owner hpk, Option.map_eq_none_iff]
    exact lastAt_eq_none_iff _
  increasing := effectiveSegments_increasing
  changing := effectiveSegments_changing
  dated_final := effectiveSegments_dated_final

theorem startMinute_lt {s : ScheduleSegment} (hs : s ∈ effectiveSegments weeklyRows datedRows) :
    s.startMinute < 60 := by
  have hkey (rows : List ScheduleBlock) (k : ℕ) (hk : k ∈ (index rows).keys) : k < 60 := by
    obtain ⟨row, hrow⟩ := Dict.exists_get?_of_mem_keys hk
    have hminute := (mem_of_index hrow).2
    unfold minuteOf at hminute
    dsimp only at hminute
    split_ifs at hminute
    cases hminute
    exact row.startTime.minute_lt
  rw [effectiveSegments_eq_compress] at hs
  obtain ⟨⟨minute, row, origin⟩, hx, rfl⟩ := List.mem_map.mp hs
  have hminute := (mem_compress _ _ hx).1
  rcases (mem_transitionMinutes _ _).mp hminute with hk | hk
  · exact hkey _ _ hk
  · exact hkey _ _ hk

/-! ## The minute map -/

theorem hasBase_iff (segments : List ScheduleSegment)
    (hinc : segments.Pairwise (fun s t => s.startMinute < t.startMinute)) :
    segments.head?.map ScheduleSegment.startMinute = some 0 ↔
      ∃ s ∈ segments, s.startMinute = 0 := by
  cases segments with
  | nil => simp
  | cons s rest =>
    simp only [List.head?_cons, Option.map_some, Option.some.injEq]
    refine ⟨fun h => ⟨s, List.mem_cons_self, h⟩, ?_⟩
    rintro ⟨t, ht, h0⟩
    rcases List.mem_cons.mp ht with rfl | ht
    · exact h0
    · exact absurd ((List.pairwise_cons.mp hinc).1 t ht) (by omega)

theorem source_fst_snd {weekly dated : Dict ℕ ScheduleBlock} {origin : Origin}
    (horigin : origin ≠ .none) :
    (effectiveAt m weekly dated).2 = origin ↔ ∃ row, source weekly dated m = some (row, origin) := by
  unfold source effectiveAt
  cases layerAt m dated <;> cases layerAt m weekly <;> simp [horigin.symm]

theorem minuteOf_le_of_layerAt {rows : List ScheduleBlock}
    (h : layerAt m (index rows) = some row) : ∃ k ≤ m, minuteOf row = some k := by
  obtain ⟨k, hk, hrow, -⟩ := layerAt_spec h
  exact ⟨k, hk, (mem_of_index hrow).2⟩

include hpk in
/-- A weekly row that starts here and is in charge here opens a segment here. -/
theorem inherited_iff (m : ℕ) :
    (m ∈ (index weeklyRows).keys ∧ (index datedRows).get? m = none ∧
        (effectiveAt m (index weeklyRows) (index datedRows)).2 = .weekly) ↔
      ∃ s ∈ effectiveSegments weeklyRows datedRows, s.startMinute = m ∧ s.origin = .weekly := by
  constructor
  · rintro ⟨hm, -, ho⟩
    obtain ⟨row, hrow⟩ := (source_fst_snd (by decide)).mp ho
    have howner := source_eq_owner hpk m
    rw [hrow] at howner
    obtain ⟨s, hs, he⟩ := Option.map_eq_some_iff.mp howner.symm
    obtain ⟨hmem, hle⟩ := mem_of_lastAt _ hs
    obtain ⟨hblock, horigin⟩ := Prod.mk.inj he
    refine ⟨s, hmem, le_antisymm hle ?_, horigin⟩
    -- the row in charge starts at `m`, and its own minute is not after the segment's start
    obtain ⟨k, hkm, hk, hmax⟩ := layerAt_spec ((source_eq_weekly_iff _ _).mp hrow).2
    have hsrc := source_of_mem_segments hmem
    rw [hblock, horigin] at hsrc
    obtain ⟨j, hj, hjrow⟩ := minuteOf_le_of_layerAt ((source_eq_weekly_iff _ _).mp hsrc).2
    have hkj : k = j := Option.some.inj ((mem_of_index hk).2.symm.trans hjrow)
    have := hmax m hm le_rfl
    omega
  · rintro ⟨s, hs, rfl, ho⟩
    have hsrc := source_of_mem_segments hs
    rw [ho] at hsrc
    have hdated := layerAt_eq_none_iff.mp ((source_eq_weekly_iff _ _).mp hsrc).1
    have hnot : s.startMinute ∉ (index datedRows).keys := fun h => lt_irrefl _ (hdated _ h)
    refine ⟨?_, Dict.get?_eq_none_iff.mpr hnot, (source_fst_snd (by decide)).mpr ⟨_, hsrc⟩⟩
    rw [effectiveSegments_eq_compress] at hs
    obtain ⟨x, hx, rfl⟩ := List.mem_map.mp hs
    exact ((mem_transitionMinutes _ _).mp (mem_compress _ _ (t := x.1) (b := x.2) hx).1).resolve_right
      hnot

theorem minuteMap_minutes (layer : Layer) :
    (minuteMap weeklyRows datedRows layer).map MinuteEntry.minute = List.range 60 := by
  simp [minuteMap, Function.comp_def]

include hpk in
theorem minuteMap_agrees (layer : Layer) {e : MinuteEntry}
    (he : e ∈ minuteMap weeklyRows datedRows layer) :
    e.AgreesWith layer (effectiveSegments weeklyRows datedRows) := by
  obtain ⟨m, -, rfl⟩ := List.mem_map.mp he
  refine ⟨effectiveAt_eq_owner hpk m, by simp, ?_, ?_, ?_⟩
  · simp only [decide_eq_true_eq]
    exact hasBase_iff _ effectiveSegments_increasing
  · simp [effectiveAt_eq_owner hpk m]
  · simp only [decide_eq_true_eq]
    cases layer with
    | weekly => simp
    | date => simpa using inherited_iff hpk m

/-- The segments are the run-length compression of the per-minute resolver,
and both editions of the minute map tell the same story. -/
theorem segments_and_minuteMap_agree (weeklyRows datedRows : List ScheduleBlock)
    (hpk : ((weeklyRows ++ datedRows).map ScheduleBlock.pk).Nodup) :
    Compresses (fun m => effectiveAt m (index weeklyRows) (index datedRows))
        (effectiveSegments weeklyRows datedRows) ∧
      ∀ layer, (minuteMap weeklyRows datedRows layer).map MinuteEntry.minute = List.range 60 ∧
        ∀ e ∈ minuteMap weeklyRows datedRows layer,
          e.AgreesWith layer (effectiveSegments weeklyRows datedRows) :=
  ⟨effectiveSegments_compresses hpk, fun layer =>
    ⟨minuteMap_minutes layer, fun _ he => minuteMap_agrees hpk layer he⟩⟩

theorem sampleHour_lt : 10 < 24 := by decide

theorem sampleSecond_lt : 0 < 60 := by decide

theorem sampleMicrosecond_lt : 0 < 1000000 := by decide

/-- A row on the given minute of the ten o'clock hour. -/
def sampleBlock (pk minute : ℕ) (h : minute < 60) : ScheduleBlock :=
  ⟨pk, ⟨10, minute, 0, 0, sampleHour_lt, h, sampleSecond_lt, sampleMicrosecond_lt⟩⟩

/-- A weekly hour with a half-hour transition, and a dated row at a quarter past. -/
theorem segments_and_minuteMap_agree_sample :
    Compresses (fun m => effectiveAt m
        (index [sampleBlock 1 0 (by decide), sampleBlock 2 30 (by decide)])
        (index [sampleBlock 3 15 (by decide)]))
      (effectiveSegments [sampleBlock 1 0 (by decide), sampleBlock 2 30 (by decide)]
        [sampleBlock 3 15 (by decide)]) :=
  (segments_and_minuteMap_agree _ _ (by decide)).1

end Rows

end IsadoraAir.Schedule
