import IsadoraAir.Foundation.PyError
import IsadoraAir.Foundation.Keyed
import IsadoraAir.LogBuilder.Picks

/-!
# Picking one track

The ladder of `pick_track`: history gives way first, then the artists that the
build has used, and at last the tracks it has used. Chance picks among the rows
that are left; which row it picks is not modelled.
-/

namespace IsadoraAir.LogBuilder

/-- The random draws, one after the other, each among rows that are there. -/
structure Draw (lib : Library) where
  choose : ℕ → (rows : List lib.Row) → rows ≠ [] → { t : lib.Row // t ∈ rows }

variable {lib : Library}

/-- `_weighted_order(qs).first()` -/
def weightedFirst (draw : Draw lib) (n : ℕ) (rows : List lib.Row) : Option lib.Row :=
  if h : rows = [] then none else some (draw.choose n rows h).val

def fitNearMatchCount : ℕ := 5

/-- The row does not overshoot the runway by more than the margin. -/
def withinMargin (remaining : ℚ) (t : lib.Row) : Bool :=
  -durationFitMargin ≤ remaining - effectiveAirtimeSeconds t.val

/-- `_pick_best_fit`: one of the closest rows within the margin. -/
def pickBestFit (draw : Draw lib) (n : ℕ) (rows : List lib.Row) (remainingSeconds : Option ℚ) :
    Except PyError (Option lib.Row) :=
  if rows = [] then .ok none
  else
    match remainingSeconds with
    | none => .error .typeError
    | some remaining =>
      let scored := rows.map fun t => (|remaining - effectiveAirtimeSeconds t.val|, t)
      let within := scored.filter fun pair => withinMargin remaining pair.2
      .ok (weightedFirst draw n (((sortedBy Prod.fst within).take fitNearMatchCount).map Prod.snd))

/-- `conflicting_track_ids`; `identities` is what the cache holds for the pool. -/
def conflictingTrackIds (identities : List (ℕ × Finset String)) (banned : Finset String) :
    Finset ℕ :=
  if banned = ∅ then ∅
  else ((identities.filter fun entry => entry.2 ∩ banned ≠ ∅).map Prod.fst).toFinset

/-- What one call of `pick_track` reads; `holidayCodes` are the holidays of a track. -/
structure PickCall (lib : Library) where
  pool : List lib.Row
  identities : List (ℕ × Finset String)
  holidayCodes : ℕ → Finset String
  excludeHolidayCodes : Finset String
  exclusions : Exclusions
  separation : ℚ × ℚ
  targetDatetime : ℤ
  remainingSeconds : Option ℚ
  maxLoosening : ℕ
  hardExclusions : Exclusions
  forceFitMode : Bool

def Exclusions.empty : Exclusions := ⟨∅, ∅⟩

namespace PickCall

variable (call : PickCall lib)

def fitMode : Bool :=
  call.forceFitMode || call.remainingSeconds.any fun r => r < exactFitThresholdSeconds

/-- The pool less the tracks of the excluded holidays. -/
def slotPool : List lib.Row :=
  call.pool.filter fun t => call.holidayCodes t.val.id ∩ call.excludeHolidayCodes = ∅

/-- `_build_qs` -/
def buildRows (history hard : Exclusions) : List lib.Row :=
  call.slotPool.filter fun t => t.val.id ∉
    history.tracks ∪ hard.tracks ∪
      conflictingTrackIds call.identities (history.identityKeys ∪ hard.identityKeys)

/-- One selection, in the mode of the call. -/
def select (draw : Draw lib) (n : ℕ) (rows : List lib.Row) : Except PyError (Option lib.Row) :=
  if call.fitMode then pickBestFit draw n rows call.remainingSeconds
  else .ok (weightedFirst draw n rows)

/-- The history that a narrower window still excludes. -/
def loosened (separation : ℚ × ℚ) : Exclusions :=
  if 0 < separation.1 ∨ 0 < separation.2 then
    (lib.aired.filter fun item =>
      call.targetDatetime - timedelta (3600 * max separation.1 separation.2) ≤
          item.scheduledTime ∧ item.scheduledTime < call.targetDatetime).foldl
      (excludeAired lib (call.targetDatetime - timedelta (3600 * separation.1))
        (call.targetDatetime - timedelta (3600 * separation.2))) .empty
  else .empty

/-- The loosening loop; `attempts` are still to come and `n` are done. -/
def loosen (draw : Draw lib) : ℕ → ℕ → Exclusions → ℚ × ℚ → Except PyError (Option lib.Row)
  | 0, _, _, _ => .ok none
  | attempts + 1, n, history, separation => do
    match ← call.select draw n (call.buildRows history call.hardExclusions) with
    | some t => .ok (some t)
    | none =>
      let halved := (separation.1 / 2, separation.2 / 2)
      loosen draw attempts (n + 1) (call.loosened halved) halved

/-- The last two rungs: only the used tracks are excluded, and then not even they. -/
def giveUp (draw : Draw lib) (n : ℕ) : Except PyError (Option lib.Row) := do
  match ← call.select draw n (call.buildRows .empty ⟨call.hardExclusions.tracks, ∅⟩) with
  | some t => .ok (some t)
  | none => call.select draw (n + 1) (call.buildRows .empty .empty)

/-- `pick_track` -/
def pickTrack (draw : Draw lib) : Except PyError (Option lib.Row) := do
  match ← call.loosen draw (call.maxLoosening + 1) 0 call.exclusions call.separation with
  | some t => .ok (some t)
  | none => call.giveUp draw (call.maxLoosening + 1)

end PickCall

/-! ## One selection -/

variable {draw : Draw lib} {n : ℕ} {rows : List lib.Row} {t : lib.Row}

theorem mem_of_weightedFirst (h : weightedFirst draw n rows = some t) : t ∈ rows := by
  unfold weightedFirst at h
  split_ifs at h
  cases h
  exact (draw.choose n rows _).property

theorem weightedFirst_eq_none_iff : weightedFirst draw n rows = none ↔ rows = [] := by
  unfold weightedFirst
  split_ifs with h <;> simp [h]

namespace PickCall

variable {call : PickCall lib}

/-- A row that the mode of the call may select. -/
def Fits (call : PickCall lib) (t : lib.Row) : Prop :=
  call.fitMode = true → ∃ remaining ∈ call.remainingSeconds, withinMargin remaining t = true

theorem fits_of_select (h : call.select draw n rows = .ok (some t)) : t ∈ rows ∧ call.Fits t := by
  unfold select at h
  split_ifs at h with hmode
  · unfold pickBestFit at h
    split_ifs at h
    · cases h
    · cases hremaining : call.remainingSeconds with
      | none => simp [hremaining] at h
      | some remaining =>
        simp only [hremaining, Except.ok.injEq] at h
        obtain ⟨pair, hpair, rfl⟩ := List.mem_map.mp (mem_of_weightedFirst h)
        have hwithin := List.mem_filter.mp ((mem_sortedBy Prod.fst).mp (List.mem_of_mem_take hpair))
        obtain ⟨row, hrow, rfl⟩ := List.mem_map.mp hwithin.1
        exact ⟨hrow, fun _ => ⟨remaining, hremaining, hwithin.2⟩⟩
  · cases h' : weightedFirst draw n rows with
    | none => simp [h'] at h
    | some t' =>
      simp only [h', Except.ok.injEq, Option.some.injEq] at h
      subst h
      exact ⟨mem_of_weightedFirst h', fun hfit => absurd hfit hmode⟩

theorem not_fits_of_select (h : call.select draw n rows = .ok none) :
    ∀ t ∈ rows, ¬ call.Fits t := by
  intro t ht hfits
  unfold select at h
  split_ifs at h with hmode
  · obtain ⟨remaining, hremaining, hwithin⟩ := hfits hmode
    unfold pickBestFit at h
    rw [if_neg (List.ne_nil_of_mem ht), Option.mem_def.mp hremaining] at h
    simp only [Except.ok.injEq, weightedFirst_eq_none_iff, List.map_eq_nil_iff,
      List.take_eq_nil_iff, fitNearMatchCount, OfNat.ofNat_ne_zero, false_or] at h
    have hmem : (|remaining - effectiveAirtimeSeconds t.val|, t) ∈
        sortedBy Prod.fst ((rows.map fun t =>
          (|remaining - effectiveAirtimeSeconds t.val|, t)).filter fun pair =>
            withinMargin remaining pair.2) := by
      rw [mem_sortedBy, List.mem_filter]
      exact ⟨List.mem_map_of_mem ht, hwithin⟩
    rw [h] at hmem
    cases hmem
  · rw [Except.ok.injEq, weightedFirst_eq_none_iff] at h
    rw [h] at ht
    cases ht

/-- A selection answers where its mode knows the runway. -/
theorem exists_select (h : call.fitMode = true → call.remainingSeconds ≠ none) (draw : Draw lib)
    (n : ℕ) (rows : List lib.Row) : ∃ found, call.select draw n rows = .ok found := by
  unfold select
  split_ifs with hmode
  · unfold pickBestFit
    split_ifs
    · exact ⟨none, rfl⟩
    · obtain ⟨remaining, hremaining⟩ := Option.ne_none_iff_exists'.mp (h hmode)
      rw [hremaining]
      exact ⟨_, rfl⟩
  · exact ⟨_, rfl⟩

/-! ## The rungs -/

theorem mem_buildRows {history hard : Exclusions} (h : t ∈ call.buildRows history hard) :
    t ∈ call.slotPool ∧ t.val.id ∉ hard.tracks := by
  simp only [buildRows, List.mem_filter, Finset.mem_union, not_or, decide_eq_true_eq] at h
  exact ⟨h.1, h.2.1.2⟩

theorem mem_buildRows_empty_iff {used : Finset ℕ} :
    t ∈ call.buildRows .empty ⟨used, ∅⟩ ↔ t ∈ call.slotPool ∧ t.val.id ∉ used := by
  simp [buildRows, Exclusions.empty, conflictingTrackIds]

theorem mem_buildRows_none_iff : t ∈ call.buildRows .empty .empty ↔ t ∈ call.slotPool := by
  simp [buildRows, Exclusions.empty, conflictingTrackIds]

/-- The loosening loop keeps off the used tracks. -/
theorem not_used_of_loosen {attempts : ℕ} {history : Exclusions} {separation : ℚ × ℚ}
    (h : call.loosen draw attempts n history separation = .ok (some t)) :
    t.val.id ∉ call.hardExclusions.tracks := by
  induction attempts generalizing n history separation with
  | zero => cases h
  | succ attempts ih =>
    rw [loosen] at h
    cases hselect : call.select draw n (call.buildRows history call.hardExclusions) with
    | error e =>
      rw [hselect] at h
      cases h
    | ok found =>
      rw [hselect] at h
      cases found with
      | none => exact ih h
      | some t' =>
        cases h
        exact (mem_buildRows (fits_of_select hselect).1).2

theorem select_eq_none (h : call.fitMode = true → call.remainingSeconds ≠ none)
    (hfits : ∀ t ∈ rows, ¬ call.Fits t) : call.select draw n rows = .ok none := by
  obtain ⟨found, hfound⟩ := exists_select h draw n rows
  cases found with
  | none => exact hfound
  | some t =>
    obtain ⟨hmem, ht⟩ := fits_of_select hfound
    exact absurd ht (hfits t hmem)

/-- The loop finds nothing where no unused track fits. -/
theorem loosen_eq_none (h : call.fitMode = true → call.remainingSeconds ≠ none)
    (hfits : ∀ t ∈ call.slotPool, t.val.id ∉ call.hardExclusions.tracks → ¬ call.Fits t)
    (attempts n : ℕ) (history : Exclusions) (separation : ℚ × ℚ) :
    call.loosen draw attempts n history separation = .ok none := by
  induction attempts generalizing n history separation with
  | zero => rfl
  | succ attempts ih =>
    have hselect : call.select draw n (call.buildRows history call.hardExclusions) = .ok none := by
      refine select_eq_none h fun t ht => ?_
      obtain ⟨hpool, hused⟩ := mem_buildRows ht
      exact hfits t hpool hused
    rw [loosen, hselect]
    exact ih _ _ _

/-- The last rungs take a used track only where no unused one fits. -/
theorem unused_not_fits_of_giveUp (h : call.giveUp draw n = .ok (some t))
    (ht : t.val.id ∈ call.hardExclusions.tracks) :
    (∀ p ∈ call.slotPool, p.val.id ∉ call.hardExclusions.tracks → ¬ call.Fits p) ∧
      t ∈ call.slotPool ∧ call.Fits t := by
  unfold giveUp at h
  cases hselect : call.select draw n
      (call.buildRows .empty ⟨call.hardExclusions.tracks, ∅⟩) with
  | error e =>
    rw [hselect] at h
    cases h
  | ok found =>
    rw [hselect] at h
    cases found with
    | some t' =>
      cases h
      exact absurd ht (mem_buildRows (fits_of_select hselect).1).2
    | none =>
      obtain ⟨hmem, hfits⟩ := fits_of_select h
      refine ⟨fun p hp hused => ?_, mem_buildRows_none_iff.mp hmem, hfits⟩
      exact not_fits_of_select hselect p (mem_buildRows_empty_iff.mpr ⟨hp, hused⟩)

/-- A used track is picked again only when the pool is used up. -/
def RepeatsOnlyWhenUsedUp (call : PickCall lib) (draw : Draw lib) : Prop :=
  ∀ t, call.pickTrack draw = .ok (some t) → t.val.id ∈ call.hardExclusions.tracks →
    ∀ p ∈ call.slotPool, p.val.id ∈ call.hardExclusions.tracks

/-- The used tracks are given up exactly where some track fits and no unused one does. -/
theorem repeatsOnlyWhenUsedUp_iff (call : PickCall lib) (draw : Draw lib) :
    call.RepeatsOnlyWhenUsedUp draw ↔
      (∀ p ∈ call.slotPool, p.val.id ∈ call.hardExclusions.tracks) ∨
      (∃ p ∈ call.slotPool, p.val.id ∉ call.hardExclusions.tracks ∧ call.Fits p) ∨
      ∀ p ∈ call.slotPool, ¬ call.Fits p := by
  constructor
  · intro h
    by_contra hnot
    simp only [not_or, not_exists, not_and] at hnot
    obtain ⟨hunused, hnofit, hsome⟩ := hnot
    -- some track fits, so the mode knows the runway and no rung raises
    simp only [not_forall, not_not] at hsome
    obtain ⟨p, hp, hfits⟩ := hsome
    have hrunway : call.fitMode = true → call.remainingSeconds ≠ none := by
      intro hmode hnone
      obtain ⟨remaining, hremaining, -⟩ := hfits hmode
      rw [hnone] at hremaining
      cases hremaining
    have hlast : call.select draw (call.maxLoosening + 1)
        (call.buildRows .empty ⟨call.hardExclusions.tracks, ∅⟩) = .ok none := by
      refine select_eq_none hrunway fun q hq => ?_
      obtain ⟨hpool, hused⟩ := mem_buildRows_empty_iff.mp hq
      exact hnofit q hpool hused
    obtain ⟨found, hfound⟩ := exists_select hrunway draw (call.maxLoosening + 1 + 1)
      (call.buildRows .empty .empty)
    have hpick : call.pickTrack draw = .ok found := by
      rw [pickTrack, loosen_eq_none hrunway hnofit]
      change call.giveUp draw (call.maxLoosening + 1) = .ok found
      rw [giveUp, hlast]
      exact hfound
    cases found with
    | none => exact not_fits_of_select hfound p (mem_buildRows_none_iff.mpr hp) hfits
    | some t =>
      obtain ⟨hmem, ht⟩ := fits_of_select hfound
      have hpool := mem_buildRows_none_iff.mp hmem
      have hused : t.val.id ∈ call.hardExclusions.tracks := by
        by_contra hused
        exact hnofit t hpool hused ht
      exact hunused (h t hpick hused)
  · intro h t hpick ht
    unfold pickTrack at hpick
    cases hloosen : call.loosen draw (call.maxLoosening + 1) 0 call.exclusions
        call.separation with
    | error e =>
      rw [hloosen] at hpick
      cases hpick
    | ok found =>
      rw [hloosen] at hpick
      cases found with
      | some t' =>
        cases hpick
        exact absurd ht (not_used_of_loosen hloosen)
      | none =>
        obtain ⟨hnofit, hpool, hfits⟩ := unused_not_fits_of_giveUp hpick ht
        rcases h with h | ⟨p, hp, hused, hpfits⟩ | h
        · exact h
        · exact absurd hpfits (hnofit p hp hused)
        · exact absurd hfits (h t hpool)

end PickCall

/-! ## A long track left -/

/-- A library with one short and one long track. -/
def shortAndLong : Library where
  tracks id :=
    if id = 1 then some ⟨1, none, "", none, some 100, none, none⟩
    else if id = 2 then some ⟨2, none, "", none, some 600, none, none⟩
    else none
  trackIdentityKeys _ _ := ∅
  categoryCount _ := 2
  artistSeparation := 0
  titleSeparation := 0
  fixedFillCategory := false
  fallbackCategory := none
  aired := []

def shortTrack : shortAndLong.Row := ⟨⟨1, none, "", none, some 100, none, none⟩, rfl⟩

def longTrack : shortAndLong.Row := ⟨⟨2, none, "", none, some 600, none, none⟩, rfl⟩

/-- Two minutes are left, and the short track has been picked. -/
def shortUsed : PickCall shortAndLong where
  pool := [shortTrack, longTrack]
  identities := []
  holidayCodes _ := ∅
  excludeHolidayCodes := ∅
  exclusions := .empty
  separation := (0, 0)
  targetDatetime := 0
  remainingSeconds := some 120
  maxLoosening := 3
  hardExclusions := ⟨{1}, ∅⟩
  forceFitMode := false

def drawFirst : Draw shortAndLong where
  choose _ rows h := ⟨rows.head h, List.head_mem h⟩

/-- The short track is picked again although the long one has not been picked. -/
theorem short_track_repeats : ¬ shortUsed.RepeatsOnlyWhenUsedUp drawFirst := by
  intro h
  have hpicked : ((shortUsed.pickTrack drawFirst).toOption.join.map fun t => t.val.id) = some 1 := by
    decide +kernel
  have hlong : longTrack ∈ shortUsed.slotPool := by decide +kernel
  cases hpick : shortUsed.pickTrack drawFirst with
  | error e =>
    rw [hpick] at hpicked
    cases hpicked
  | ok found =>
    rw [hpick] at hpicked
    cases found with
    | none => cases hpicked
    | some t =>
      have hid : t.val.id = 1 := Option.some.inj hpicked
      have hused : t.val.id ∈ shortUsed.hardExclusions.tracks := by
        rw [hid]
        decide
      exact absurd (h t hpick hused longTrack hlong) (by decide)

end IsadoraAir.LogBuilder
