import IsadoraAir.Foundation.Dict
import IsadoraAir.Foundation.RunLength

/-!
# Minute-resolution schedule resolution

The rows of one hour form two layers, weekly and dated. The per-minute
resolver, the ordered segments and the sixty-entry minute map are computed
separately; here each is translated as it stands and the segments are shown
to be the run-length compression of the resolver.
-/

namespace IsadoraAir.Schedule

open RunLength

variable {rows : List ScheduleBlock} {row : ScheduleBlock} {n : ℕ}
  {layer : Dict ℕ ScheduleBlock} {m minute : ℕ}

/-- A wall-clock time of day. -/
structure TimeOfDay where
  hour : ℕ
  minute : ℕ
  second : ℕ
  microsecond : ℕ
  hour_lt : hour < 24
  minute_lt : minute < 60
  second_lt : second < 60
  microsecond_lt : microsecond < 1000000
  deriving DecidableEq

structure ScheduleBlock where
  pk : ℕ
  startTime : TimeOfDay
  deriving DecidableEq

inductive Origin where
  | dateOverride
  | weekly
  | none
  deriving DecidableEq, Repr

/-- One effective programming source inside a wall-clock hour. -/
structure ScheduleSegment where
  startMinute : ℕ
  block : ScheduleBlock
  origin : Origin
  deriving DecidableEq

/-- The row's minute of the hour, if it sits exactly on a minute. -/
def minuteOf (row : ScheduleBlock) : Option ℕ :=
  let start := row.startTime
  if start.second ≠ 0 ∨ start.microsecond ≠ 0 then none else some start.minute

def indexRow (byMinute : Dict ℕ ScheduleBlock) (row : ScheduleBlock) : Dict ℕ ScheduleBlock :=
  match minuteOf row with
  | some minute => byMinute.insert minute row
  | none => byMinute

/-- Rows keyed by minute; a later row on the same minute replaces an earlier one. -/
def index (rows : List ScheduleBlock) : Dict ℕ ScheduleBlock := rows.foldl indexRow Dict.empty

/-- `layer[max(starts)]` for the starts at or before `minute`. -/
def layerAt (minute : ℕ) (layer : Dict ℕ ScheduleBlock) : Option ScheduleBlock :=
  ((layer.keys.filter (· ≤ minute)).max?).bind layer.get?

/-- The row effective at a minute, and its origin. -/
def effectiveAt (minute : ℕ) (weekly dated : Dict ℕ ScheduleBlock) :
    Option ScheduleBlock × Origin :=
  match layerAt minute dated with
  | some row => (some row, .dateOverride)
  | none =>
    match layerAt minute weekly with
    | some row => (some row, .weekly)
    | none => (none, .none)

/-- `sorted(set(weekly) | set(dated))`. -/
def transitionMinutes (weekly dated : Dict ℕ ScheduleBlock) : List ℕ :=
  (weekly.keys ++ dated.keys).dedup.insertionSort (· ≤ ·)

/-- The loop of `effectiveSegments`; `previous` is the last emitted row. -/
def collectSegments (weekly dated : Dict ℕ ScheduleBlock) :
    Option ScheduleBlock → List ℕ → List ScheduleSegment
  | _, [] => []
  | previous, minute :: rest =>
    match effectiveAt minute weekly dated with
    | (none, _) => collectSegments weekly dated previous rest
    | (some row, origin) =>
      if previous.map ScheduleBlock.pk = some row.pk then
        collectSegments weekly dated previous rest
      else ⟨minute, row, origin⟩ :: collectSegments weekly dated (some row) rest

def effectiveSegments (weeklyRows datedRows : List ScheduleBlock) : List ScheduleSegment :=
  let weekly := index weeklyRows
  let dated := index datedRows
  collectSegments weekly dated none (transitionMinutes weekly dated)

/-- The layer being edited. -/
inductive Layer where
  | weekly
  | date
  deriving DecidableEq, Repr

structure MinuteEntry where
  minute : ℕ
  origin : Origin
  effectiveBlock : Option ScheduleBlock
  explicitBlock : Option ScheduleBlock
  inheritedTransition : Bool
  segmentStart : Bool
  hasBase : Bool
  continuation : Bool
  orphan : Bool
  deriving DecidableEq

def minuteMap (weeklyRows datedRows : List ScheduleBlock) (layer : Layer) : List MinuteEntry :=
  let weekly := index weeklyRows
  let dated := index datedRows
  let segments := effectiveSegments weeklyRows datedRows
  let hasBase := decide (segments.head?.map ScheduleSegment.startMinute = some 0)
  let segmentStarts := segments.map ScheduleSegment.startMinute
  let edited := if layer = .date then dated else weekly
  (List.range 60).map fun minute =>
    let effective := effectiveAt minute weekly dated
    let explicit := edited.get? minute
    { minute := minute
      origin := effective.2
      effectiveBlock := effective.1
      explicitBlock := explicit
      inheritedTransition :=
        decide (layer = .date ∧ minute ∈ weekly.keys ∧ explicit = none ∧ effective.2 = .weekly)
      segmentStart := decide (minute ∈ segmentStarts)
      hasBase := hasBase
      continuation := decide (effective.1 = none ∧ segments ≠ [])
      orphan := false }

/-! ## The two layers -/

theorem mem_of_foldl_indexRow {rest : List ScheduleBlock} {d : Dict ℕ ScheduleBlock}
    (hd : ∀ m r, d.get? m = some r → r ∈ rows ∧ minuteOf r = some m)
    (hsub : ∀ r ∈ rest, r ∈ rows) {r : ScheduleBlock}
    (hr : (rest.foldl indexRow d).get? m = some r) : r ∈ rows ∧ minuteOf r = some m := by
  induction rest generalizing d with
  | nil => exact hd m r hr
  | cons x xs ih =>
    refine ih ?_ (fun y hy => hsub y (List.mem_cons_of_mem _ hy)) hr
    intro k y hy
    unfold indexRow at hy
    split at hy
    · rename_i n hx
      rw [Dict.get?_insert] at hy
      split_ifs at hy with hk
      · cases hy
        exact ⟨hsub x List.mem_cons_self, hk ▸ hx⟩
      · exact hd k y hy
    · exact hd k y hy

theorem mem_of_index
    (h : (index rows).get? minute = some row) : row ∈ rows ∧ minuteOf row = some minute :=
  mem_of_foldl_indexRow (d := Dict.empty) (by simp) (fun _ hr => hr) h

theorem layerAt_eq_none_iff : layerAt minute layer = none ↔ ∀ k ∈ layer.keys, minute < k := by
  unfold layerAt
  cases h : (layer.keys.filter (· ≤ minute)).max? with
  | none =>
    rw [List.max?_eq_none_iff, List.filter_eq_nil_iff] at h
    simpa using h
  | some k =>
    have hk := List.mem_filter.mp (List.max?_mem h)
    obtain ⟨row, hrow⟩ := Dict.exists_get?_of_mem_keys hk.1
    simp only [Option.bind_some, hrow, reduceCtorEq, false_iff, not_forall, not_lt]
    exact ⟨k, hk.1, by simpa using hk.2⟩

/-- A layer's effective row starts at the greatest of its minutes not after `minute`. -/
theorem layerAt_spec (h : layerAt minute layer = some row) :
    ∃ k ≤ minute, layer.get? k = some row ∧ ∀ j ∈ layer.keys, j ≤ minute → j ≤ k := by
  obtain ⟨k, hk, hrow⟩ := Option.bind_eq_some_iff.mp h
  obtain ⟨hmem, hmax⟩ := List.max?_eq_some_iff.mp hk
  refine ⟨k, by simpa using (List.mem_filter.mp hmem).2, hrow, fun j hj hjm => ?_⟩
  exact hmax j (List.mem_filter.mpr ⟨hj, by simp [hjm]⟩)

/-- Between two minutes with no start in between the layer does not change. -/
theorem layerAt_congr
    (h : ∀ k ∈ layer.keys, k ≤ m ↔ k ≤ n) : layerAt m layer = layerAt n layer := by
  have hf : layer.keys.filter (· ≤ m) = layer.keys.filter (· ≤ n) :=
    List.filter_congr fun k hk => by simp [h k hk]
  unfold layerAt
  rw [hf]

theorem effectiveAt_congr {weekly dated : Dict ℕ ScheduleBlock}
    (hw : ∀ k ∈ weekly.keys, k ≤ m ↔ k ≤ n) (hd : ∀ k ∈ dated.keys, k ≤ m ↔ k ≤ n) :
    effectiveAt m weekly dated = effectiveAt n weekly dated := by
  unfold effectiveAt
  rw [layerAt_congr hw, layerAt_congr hd]

section Layers

variable {weekly dated : Dict ℕ ScheduleBlock}

theorem effectiveAt_eq_none_iff :
    (effectiveAt m weekly dated).1 = none ↔
      ∀ k, k ∈ weekly.keys ∨ k ∈ dated.keys → m < k := by
  unfold effectiveAt
  cases hd : layerAt m dated with
  | some row =>
    obtain ⟨k, hk, hrow, -⟩ := layerAt_spec hd
    simp only [reduceCtorEq, false_iff, not_forall, not_lt]
    exact ⟨k, Or.inr (Dict.mem_keys_of_get? hrow), hk⟩
  | none =>
    have hd' := layerAt_eq_none_iff.mp hd
    cases hw : layerAt m weekly with
    | some row =>
      obtain ⟨k, hk, hrow, -⟩ := layerAt_spec hw
      simp only [reduceCtorEq, false_iff, not_forall, not_lt]
      exact ⟨k, Or.inl (Dict.mem_keys_of_get? hrow), hk⟩
    | none =>
      have hw' := layerAt_eq_none_iff.mp hw
      simp only [true_iff]
      rintro k (hk | hk)
      · exact hw' k hk
      · exact hd' k hk

/-- The origin is the date layer exactly when a dated row starts by the minute. -/
theorem origin_eq_date_iff (weekly : Dict ℕ ScheduleBlock) :
    (effectiveAt m weekly dated).2 = .dateOverride ↔ ∃ k ∈ dated.keys, k ≤ m := by
  unfold effectiveAt
  cases hd : layerAt m dated with
  | some row =>
    obtain ⟨k, hk, hrow, -⟩ := layerAt_spec hd
    simpa using ⟨k, Dict.mem_keys_of_get? hrow, hk⟩
  | none =>
    have hd' := layerAt_eq_none_iff.mp hd
    have hno : ¬ ∃ k ∈ dated.keys, k ≤ m := by
      rintro ⟨k, hk, hkm⟩
      exact absurd hkm (not_le.mpr (hd' k hk))
    cases hw : layerAt m weekly <;> simp [hno]

end Layers

end IsadoraAir.Schedule
