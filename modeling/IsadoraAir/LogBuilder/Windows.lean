import IsadoraAir.LogBuilder.Bookkeeping
import IsadoraAir.Schedule.Segments

/-!
# The windows of an hour

On the clock of the log the windows of the segments lie end to end, from the
first transition to the end of the target. A late start moves the transitions on
this clock; a partial hour moves the stamps of its picks back.
-/

namespace IsadoraAir.LogBuilder

open RunningTotal
open Schedule (ScheduleBlock ScheduleSegment effectiveAt effectiveSegments index sampleBlock)

variable {previousEnd : Option ℚ} {late : ℚ} {lib : Library} {w : SegmentWindow lib}

/-- `late` -/
def lateSeconds (target : ℚ) : ℚ := max 0 (nominalHourSeconds - target)

theorem lateSeconds_nonneg (target : ℚ) : 0 ≤ lateSeconds target := le_max_left ..

/-- A transition of the hour lies before the end of its target. -/
theorem transition_lt_target {minute : ℕ} (hminute : minute < 60) (target : ℚ) :
    minute * 60 - lateSeconds target < target := by
  have hlate : nominalHourSeconds - target ≤ lateSeconds target := le_max_right ..
  have hcast : (minute : ℚ) < 60 := by exact_mod_cast hminute
  simp only [nominalHourSeconds] at hlate
  linarith

/-! ## Windows end to end -/

/-- A window whose nominal end is its successor's start; the last one ends with the target. -/
theorem segmentWindowsFrom_span {target : ℚ} {plan : SegmentPlan lib}
    {rest : List (SegmentPlan lib)}
    (hprevious : ∀ e ∈ previousEnd, e ≤ plan.startMinute * 60 - late)
    (hordered : (plan :: rest).Pairwise fun p q => p.startMinute < q.startMinute)
    (htarget : ∀ p ∈ plan :: rest, p.startMinute * 60 - late < target) :
    Span SegmentWindow.nominalStart SegmentWindow.endOffset (plan.startMinute * 60 - late)
      (segmentWindowsFrom late target previousEnd (plan :: rest)) target := by
  have hkept : ∀ e : ℚ, plan.startMinute * 60 - late < e → previousEnd.elim e (max e) = e := by
    intro e he
    cases hprev : previousEnd with
    | none => rfl
    | some e' => exact max_eq_left ((hprevious e' hprev).trans he.le)
  induction rest generalizing plan previousEnd with
  | nil =>
    have hend := htarget plan List.mem_cons_self
    simp only [segmentWindowsFrom, hkept _ hend]
    exact .cons rfl hend (.nil target)
  | cons next rest ih =>
    have hnext := htarget next (by simp)
    have hstep : plan.startMinute < next.startMinute :=
      (List.pairwise_cons.mp hordered).1 next List.mem_cons_self
    have hlt : (plan.startMinute : ℚ) * 60 - late < next.startMinute * 60 - late := by
      have hcast : (plan.startMinute : ℚ) < next.startMinute := by exact_mod_cast hstep
      linarith
    rw [segmentWindowsFrom]
    simp only [min_eq_left hnext.le, hkept _ hlt]
    refine .cons rfl hlt (ih ?_ (List.pairwise_cons.mp hordered).2 ?_ ?_)
    · intro e he
      exact (Option.mem_some_iff.mp he).ge
    · intro p hp
      exact htarget p (List.mem_cons_of_mem plan hp)
    · intro e he
      exact max_eq_left he.le

theorem segmentWindowsFrom_eq_nil {target : ℚ} {plans : List (SegmentPlan lib)} :
    segmentWindowsFrom late target previousEnd plans = [] ↔ plans = [] := by
  cases plans <;> simp [segmentWindowsFrom]

/-- What a window says of itself: its start is its transition, and it has elapsed when another
follows and it ends before the clock starts. -/
theorem segmentWindowsFrom_entry {target : ℚ} {plans : List (SegmentPlan lib)}
    {before after : List (SegmentWindow lib)}
    (h : segmentWindowsFrom late target previousEnd plans = before ++ w :: after) :
    w.nominalStart = w.plan.startMinute * 60 - late ∧
      (w.elapsed = true ↔ after ≠ [] ∧ w.endOffset ≤ 0) := by
  induction plans generalizing before previousEnd with
  | nil => simp [segmentWindowsFrom] at h
  | cons plan rest ih =>
    unfold segmentWindowsFrom at h
    cases before with
    | nil =>
      obtain ⟨rfl, rfl⟩ := List.cons.inj h
      refine ⟨rfl, ?_⟩
      simp [segmentWindowsFrom_eq_nil]
    | cons first before =>
      exact ih (List.cons.inj h).2

/-- The windows of an hour lie end to end, and the ones that have elapsed are empty on the clock. -/
structure Tiles (plans : List (SegmentPlan lib)) (target : ℚ) : Prop where
  span : ∀ first ∈ plans.head?, Span SegmentWindow.nominalStart SegmentWindow.endOffset
    (first.startMinute * 60 - lateSeconds target) (segmentWindows plans target) target
  ordered : (segmentWindows plans target).Pairwise fun w w' => w.endOffset ≤ w'.nominalStart
  covers : ∀ first ∈ plans.head?, ∀ t, max 0 (first.startMinute * 60 - lateSeconds target) ≤ t →
    t < target → ∃ w ∈ segmentWindows plans target,
      (w.nominalStart ≤ t ∧ t < w.endOffset) ∧ w.elapsed = false
  elapsed : ∀ before w after, segmentWindows plans target = before ++ w :: after →
    (w.elapsed = true ↔ after ≠ [] ∧ w.endOffset ≤ 0)

theorem segmentWindows_tile {plans : List (SegmentPlan lib)} {target : ℚ}
    (hordered : plans.Pairwise fun p q => p.startMinute < q.startMinute)
    (hminutes : ∀ p ∈ plans, p.startMinute < 60) : Tiles plans target := by
  have helapsed : ∀ before w after, segmentWindows plans target = before ++ w :: after →
      (w.elapsed = true ↔ after ≠ [] ∧ w.endOffset ≤ 0) :=
    fun before w after h => (segmentWindowsFrom_entry h).2
  cases plans with
  | nil =>
    refine ⟨?_, .nil, ?_, helapsed⟩
    · intro first hfirst
      cases hfirst
    · intro first hfirst
      cases hfirst
  | cons plan rest =>
    have hspan : Span SegmentWindow.nominalStart SegmentWindow.endOffset
        (plan.startMinute * 60 - lateSeconds target) (segmentWindows (plan :: rest) target)
        target := by
      refine segmentWindowsFrom_span ?_ hordered ?_
      · intro e he
        cases he
      · intro p hp
        exact transition_lt_target (hminutes p hp) target
    refine ⟨?_, hspan.ordered, ?_, helapsed⟩
    · intro first hfirst
      cases hfirst
      exact hspan
    · intro first hfirst t hstart hend
      cases hfirst
      obtain ⟨w, hw, hwt, htw⟩ := hspan.covers (le_of_max_le_right hstart) hend
      refine ⟨w, hw, ⟨hwt, htw⟩, ?_⟩
      obtain ⟨before, after, hsplit⟩ := List.append_of_mem hw
      have hpositive : 0 < w.endOffset := (le_of_max_le_left hstart).trans_lt htw
      rw [← Bool.not_eq_true, helapsed before w after hsplit]
      intro h
      exact absurd h.2 hpositive.not_ge

/-! ## Stamps and transitions -/

/-- The record of a window. -/
structure RecordOf (w : SegmentWindow lib) (r : SegmentRecord) : Prop where
  startMinute : r.startMinute = w.plan.startMinute
  nominalStart : r.nominalStartSeconds = w.nominalStart
  elapsed : r.elapsedBeforeStart = w.elapsed
  unbuilt : w.isApplicable = false → r.items = 0

theorem buildWindow_recordOf (sel : Selector lib) (ctx : HourBuildContext lib)
    (w : SegmentWindow lib) : RecordOf w (buildWindow sel ctx w).2 := by
  unfold buildWindow
  split_ifs with happlicable
  · exact ⟨rfl, rfl, rfl, fun h => absurd happlicable (by simp [h])⟩
  · exact ⟨rfl, rfl, rfl, fun _ => rfl⟩

theorem buildWindows_recordOf (sel : Selector lib) (ctx : HourBuildContext lib)
    (windows : List (SegmentWindow lib)) :
    ∀ r ∈ (buildWindows sel ctx windows).2, ∃ w ∈ windows, RecordOf w r := by
  induction windows generalizing ctx with
  | nil =>
    intro r hr
    cases hr
  | cons w rest ih =>
    intro r hr
    rcases List.mem_cons.mp hr with rfl | hr
    · exact ⟨w, List.mem_cons_self, buildWindow_recordOf sel ctx w⟩
    · obtain ⟨w', hw', hof⟩ := ih _ r hr
      exact ⟨w', List.mem_cons_of_mem w hw', hof⟩

/-- The picks of a segment, given its place and its record. -/
def segmentPicks (built : HourBuildContext lib × List SegmentRecord) (j : ℕ) (r : SegmentRecord) :
    List (Pick lib) :=
  (built.1.picks.drop (total SegmentRecord.items (built.2.take j))).take r.items

theorem total_airtime_nonneg (picks : List (Pick lib)) : 0 ≤ total airtime picks := by
  refine List.sum_nonneg ?_
  intro x hx
  obtain ⟨p, -, rfl⟩ := List.mem_map.mp hx
  exact effectiveAirtime_nonneg ..

/-- No pick of a segment is stamped before the clock at which the segment began. -/
theorem HourBooks.le_scheduledTime {base : ℤ} {offset start : ℚ}
    {built : HourBuildContext lib × List SegmentRecord}
    (h : HourBooks base offset start built.1 built.2) {j : ℕ} {r : SegmentRecord}
    (hr : built.2[j]? = some r) {p : Pick lib} (hp : p ∈ segmentPicks built j r) :
    ∃ a, r.actualStartSeconds = some a ∧ base + timedelta (offset + a) ≤ p.scheduledTime := by
  obtain ⟨hj, rfl⟩ := List.getElem?_eq_some_iff.mp hr
  obtain ⟨k, hk, rfl⟩ := List.mem_iff_getElem.mp hp
  have hitems : k < built.2[j].items := (List.length_take_le ..).trans_lt' hk
  obtain ⟨a, hi, hactual, hscheduled⟩ := h.windows j hj k hitems
  refine ⟨a, hactual, ?_⟩
  simp only [segmentPicks, List.getElem_take, List.getElem_drop]
  rw [hscheduled]
  have hnonneg := total_airtime_nonneg ((built.1.picks.drop
    (total SegmentRecord.items (built.2.take j))).take k)
  exact Int.add_le_add_left (timedelta_monotone (by linarith)) base

/-- A segment that does not begin before its nominal start. -/
def SegmentRecord.BeginsOnTime (r : SegmentRecord) : Prop :=
  ∀ a ∈ r.actualStartSeconds, r.nominalStartSeconds ≤ a

/-- The stamps of the hour are those of the wall clock: it is not late, or it is partial and its
first transition is not before the projected start. -/
def OnWallClock (plans : List (SegmentPlan lib)) (target : ℚ) : Prop :=
  nominalHourSeconds ≤ target ∨
    ∃ first w, plans.head? = some first ∧ 0 < first.startMinute ∧
      firstApplicable (segmentWindows plans target) = some w ∧ 0 ≤ w.nominalStart

section Offset

variable {plans : List (SegmentPlan lib)} {target : ℚ}

theorem offsetSeconds_nonneg (plans : List (SegmentPlan lib)) (windows : List (SegmentWindow lib)) :
    0 ≤ offsetSeconds plans windows := by
  unfold offsetSeconds
  split
  · split_ifs
    · exact le_max_left ..
    · exact le_rfl
  · exact le_rfl

theorem firstApplicable_nominalStart
    (h : firstApplicable (segmentWindows plans target) = some w) :
    w.nominalStart = w.plan.startMinute * 60 - lateSeconds target := by
  obtain ⟨before, after, hsplit⟩ := List.append_of_mem (List.mem_of_find?_eq_some h)
  exact (segmentWindowsFrom_entry hsplit).1

/-- What the stamps of a partial hour are shifted by. -/
theorem offsetSeconds_late {first : SegmentPlan lib}
    (hfirst : plans.head? = some first) (hlate_start : 0 < first.startMinute)
    (hw : firstApplicable (segmentWindows plans target) = some w) :
    offsetSeconds plans (segmentWindows plans target) =
      max 0 (w.plan.startMinute * 60 - startSeconds (segmentWindows plans target)) := by
  simp only [offsetSeconds, hfirst, hw, if_pos hlate_start]

/-- Where the first transition is not before the projected start, the shift is the lateness. -/
theorem shift_eq_late
    (hw : firstApplicable (segmentWindows plans target) = some w) (hstart : 0 ≤ w.nominalStart) :
    max 0 (w.plan.startMinute * 60 - startSeconds (segmentWindows plans target)) =
      lateSeconds target := by
  have hclock : startSeconds (segmentWindows plans target) = w.nominalStart := by
    simp only [startSeconds, hw, Option.elim_some, max_eq_right hstart]
  rw [hclock, firstApplicable_nominalStart hw, sub_sub_cancel]
  exact max_eq_right (lateSeconds_nonneg target)

theorem offsetSeconds_eq_late (h : OnWallClock plans target) :
    offsetSeconds plans (segmentWindows plans target) = lateSeconds target := by
  rcases h with hlate | ⟨first, w, hfirst, hlate_start, hw, hstart⟩
  · have hzero : lateSeconds target = 0 := max_eq_left (sub_nonpos.mpr hlate)
    unfold offsetSeconds
    split
    · next first w hfirst hw =>
      split_ifs
      · refine shift_eq_late hw ?_
        rw [firstApplicable_nominalStart hw, hzero, sub_zero]
        positivity
      · exact hzero.symm
    · exact hzero.symm
  · rw [offsetSeconds_late hfirst hlate_start hw]
    exact shift_eq_late hw hstart

end Offset

/-- What holds of the stamps of a built hour. -/
structure KeepsTransitions (base : ℤ) (plans : List (SegmentPlan lib)) (target : ℚ)
    (built : HourBuildContext lib × List SegmentRecord) : Prop where
  elapsed : ∀ r ∈ built.2, r.elapsedBeforeStart = true → r.items = 0
  partialHour : ∀ first ∈ plans.head?, 0 < first.startMinute →
    ∀ w ∈ firstApplicable (segmentWindows plans target), ∀ p ∈ built.1.picks,
      base + timedelta (w.plan.startMinute * 60) ≤ p.scheduledTime
  logClock : ∀ j r, built.2[j]? = some r → r.BeginsOnTime → ∀ p ∈ segmentPicks built j r,
    base + timedelta (r.startMinute * 60 - lateSeconds target) ≤ p.scheduledTime
  wallClock : OnWallClock plans target → ∀ j r, built.2[j]? = some r → r.BeginsOnTime →
    ∀ p ∈ segmentPicks built j r, base + timedelta (r.startMinute * 60) ≤ p.scheduledTime

section Built

variable {sel : Selector lib} {base : ℤ} {plans : List (SegmentPlan lib)} {target : ℚ}
  {observed : Bool} {built : HourBuildContext lib × List SegmentRecord}
  (h : planHour sel base plans target observed = .ok built)

include h

theorem planHour_recordOf : ∀ r ∈ built.2, ∃ w ∈ segmentWindows plans target, RecordOf w r := by
  rw [planHour_eq_build h]
  intro r hr
  exact buildWindows_recordOf _ _ _ r hr

/-- A segment's record starts at its transition. -/
theorem planHour_nominalStart {r : SegmentRecord} (hr : r ∈ built.2) :
    r.nominalStartSeconds = r.startMinute * 60 - lateSeconds target := by
  obtain ⟨w, hw, hof⟩ := planHour_recordOf h r hr
  obtain ⟨before, after, hsplit⟩ := List.append_of_mem hw
  rw [hof.nominalStart, hof.startMinute]
  exact (segmentWindowsFrom_entry hsplit).1

theorem planHour_keepsTransitions : KeepsTransitions base plans target built := by
  have hbooks := (hour_books sel base plans target observed built h).1
  refine ⟨?_, ?_, ?_, ?_⟩
  · intro r hr helapsed
    obtain ⟨w, -, hof⟩ := planHour_recordOf h r hr
    refine hof.unbuilt ?_
    rw [SegmentWindow.isApplicable, ← hof.elapsed, helapsed]
    rfl
  · intro first hfirst hlate_start w hw p hp
    obtain ⟨i, hi, rfl⟩ := List.mem_iff_getElem.mp hp
    rw [hbooks.scheduled i hi]
    have hnonneg := total_airtime_nonneg (built.1.picks.take i)
    have hshift : (w.plan.startMinute * 60 : ℚ) ≤
        offsetSeconds plans (segmentWindows plans target) +
          startSeconds (segmentWindows plans target) := by
      rw [offsetSeconds_late hfirst hlate_start hw, ← sub_le_iff_le_add]
      exact le_max_right ..
    exact Int.add_le_add_left (timedelta_monotone (by linarith)) base
  · intro j r hr htime p hp
    obtain ⟨a, ha, hstamp⟩ := hbooks.le_scheduledTime hr hp
    have hbegin := htime a ha
    rw [planHour_nominalStart h (List.mem_of_getElem? hr)] at hbegin
    have hoffset := offsetSeconds_nonneg plans (segmentWindows plans target)
    refine le_trans ?_ hstamp
    exact Int.add_le_add_left (timedelta_monotone (by linarith)) base
  · intro hwall j r hr htime p hp
    obtain ⟨a, ha, hstamp⟩ := hbooks.le_scheduledTime hr hp
    have hbegin := htime a ha
    rw [planHour_nominalStart h (List.mem_of_getElem? hr)] at hbegin
    rw [offsetSeconds_eq_late hwall] at hstamp
    refine le_trans ?_ hstamp
    exact Int.add_le_add_left (timedelta_monotone (by linarith)) base

end Built

/-- The windows tile the target from the first transition on, and a segment that does not begin
early keeps its picks behind its transition: on the clock of the log, and on the wall clock where
the stamps are those of the wall clock. -/
theorem hour_windows (plans : List (SegmentPlan lib)) (target : ℚ)
    (hordered : plans.Pairwise fun p q => p.startMinute < q.startMinute)
    (hminutes : ∀ p ∈ plans, p.startMinute < 60) :
    Tiles plans target ∧
      ∀ (sel : Selector lib) (base : ℤ) (observed : Bool)
        (built : HourBuildContext lib × List SegmentRecord),
        planHour sel base plans target observed = .ok built →
        KeepsTransitions base plans target built :=
  ⟨segmentWindows_tile hordered hminutes, fun _ _ _ _ h => planHour_keepsTransitions h⟩

theorem hour_windows_sample : Tiles samplePlans 3600 ∧
    ∀ (sel : Selector sampleLibrary) (base : ℤ) (observed : Bool)
      (built : HourBuildContext sampleLibrary × List SegmentRecord),
      planHour sel base samplePlans 3600 observed = .ok built →
      KeepsTransitions base samplePlans 3600 built :=
  hour_windows samplePlans 3600 (by decide) (by decide)

/-! ## The hour of a schedule -/

/-- `_plan_for_segment`, given what a block refers to. -/
def planForSegment (source : ScheduleBlock → PlanSource lib) (name : ScheduleBlock → String)
    (segment : ScheduleSegment) : SegmentPlan lib :=
  ⟨source segment.block, name segment.block, segment.startMinute⟩

/-- The window that is open at `t` on the clock of the log. -/
def openWindow (windows : List (SegmentWindow lib)) (t : ℚ) : Option (SegmentWindow lib) :=
  windows.find? fun w => w.nominalStart ≤ t ∧ t < w.endOffset

/-- The minute of the hour at `t` on the clock of the log. -/
def wallMinute (target t : ℚ) : ℕ := ⌊(t + lateSeconds target) / 60⌋₊

theorem map_plan_segmentWindowsFrom (target : ℚ) (plans : List (SegmentPlan lib)) :
    (segmentWindowsFrom late target previousEnd plans).map SegmentWindow.plan = plans := by
  induction plans generalizing previousEnd with
  | nil => rfl
  | cons plan rest ih => simp only [segmentWindowsFrom, List.map_cons, ih]

theorem openWindow_plan {plans : List (SegmentPlan lib)} {target t : ℚ} (htile : Tiles plans target)
    (ht : 0 ≤ t) (htarget : t < target) :
    (openWindow (segmentWindows plans target) t).map SegmentWindow.plan =
      RunLength.lastAt SegmentPlan.startMinute plans (wallMinute target t) := by
  have hstarted : ∀ w ∈ segmentWindows plans target,
      (w.nominalStart ≤ t ↔ w.plan.startMinute ≤ wallMinute target t) := by
    intro w hw
    obtain ⟨before, after, hsplit⟩ := List.append_of_mem hw
    have hlate := lateSeconds_nonneg target
    rw [wallMinute, Nat.le_floor_iff (by positivity), le_div_iff₀ (by norm_num),
      (segmentWindowsFrom_entry hsplit).1]
    exact sub_le_iff_le_add
  have hopen : openWindow (segmentWindows plans target) t =
      RunLength.lastAt SegmentWindow.nominalStart (segmentWindows plans target) t := by
    cases plans with
    | nil => rfl
    | cons first rest => exact (htile.span first rfl).find?_eq_lastAt htarget
  have hlast : RunLength.lastAt SegmentWindow.nominalStart (segmentWindows plans target) t =
      RunLength.lastAt (fun w => w.plan.startMinute) (segmentWindows plans target)
        (wallMinute target t) :=
    congrArg List.getLast? (List.filter_congr fun w hw => decide_eq_decide.mpr (hstarted w hw))
  rw [hopen, hlast, ← RunLength.lastAt_map SegmentPlan.startMinute, segmentWindows,
    map_plan_segmentWindowsFrom]

/-- At every instant of the target, the open window is that of the row in effect at the minute. -/
theorem open_window_is_effective {weeklyRows datedRows : List ScheduleBlock}
    (hpk : ((weeklyRows ++ datedRows).map ScheduleBlock.pk).Nodup)
    (source : ScheduleBlock → PlanSource lib) (name : ScheduleBlock → String) {target t : ℚ}
    (ht : 0 ≤ t) (htarget : t < target) :
    ((openWindow (segmentWindows ((effectiveSegments weeklyRows datedRows).map
        (planForSegment source name)) target) t).map SegmentWindow.plan).map SegmentPlan.source =
      (effectiveAt (wallMinute target t) (index weeklyRows) (index datedRows)).1.map source := by
  have htile : Tiles ((effectiveSegments weeklyRows datedRows).map (planForSegment source name))
      target :=
    segmentWindows_tile (List.pairwise_map.mpr Schedule.effectiveSegments_increasing)
      (List.forall_mem_map.mpr fun _ hs => Schedule.startMinute_lt hs)
  rw [openWindow_plan htile ht htarget, RunLength.lastAt_map, Schedule.effectiveAt_eq_owner hpk,
    Option.map_map, Option.map_map]
  rfl

theorem open_window_is_effective_sample :
    ((openWindow (segmentWindows ((effectiveSegments [sampleBlock 1 0 (by decide)]
        [sampleBlock 3 15 (by decide)]).map
        (planForSegment (fun block => .playlist [sampleRow block.pk]) fun _ => "block")) 3000)
        1000).map SegmentWindow.plan).map SegmentPlan.source =
      (effectiveAt (wallMinute 3000 1000) (index [sampleBlock 1 0 (by decide)])
        (index [sampleBlock 3 15 (by decide)])).1.map fun block => .playlist [sampleRow block.pk] :=
  open_window_is_effective (by decide) _ _ (by norm_num) (by norm_num)

/-! ## Exceptions -/

/-- No pick of any segment is stamped before the segment's minute. -/
def NeverEarly (base : ℤ) (built : HourBuildContext lib × List SegmentRecord) : Prop :=
  ∀ j : Fin built.2.length, ∀ p ∈ segmentPicks built j (built.2.get j),
    base + timedelta ((built.2.get j).startMinute * 60) ≤ p.scheduledTime

instance decidableNeverEarly (base : ℤ) (built : HourBuildContext lib × List SegmentRecord) :
    Decidable (NeverEarly base built) :=
  inferInstanceAs (Decidable (∀ _, _))

/-- A song of 25 minutes. -/
def longSong : Track := ⟨0, some "artist", "", none, some 1500, none, some sampleCategory⟩

def longLibrary : Library := { sampleLibrary with tracks := fun _ => some longSong }

def longRow : longLibrary.Row := ⟨longSong, rfl⟩

/-- Finds no track. -/
def emptySelector : Selector longLibrary where
  pickTrack _ _ := none
  findMatchedPair _ _ := none

def twoPlaylists : List (SegmentPlan longLibrary) :=
  [⟨.playlist [longRow], "opening", 0⟩, ⟨.playlist [longRow], "second half", 30⟩]

/-- An hour that starts five minutes late. -/
def lateHour : HourBuildContext longLibrary × List SegmentRecord :=
  planHour.build emptySelector 0 twoPlaylists (segmentWindows twoPlaylists 3300)

/-- An hour in time, whose first song leaves five minutes that nothing fills. -/
def thinHour : HourBuildContext longLibrary × List SegmentRecord :=
  planHour.build emptySelector 0 twoPlaylists (segmentWindows twoPlaylists 3600)

/-- No window covers the start of a partial hour. The stamps of a late hour are those of its own
clock, and a segment begins early where the one before it finds nothing to fill its window with. -/
theorem windows_start_late_and_picks_early :
    (¬∃ w ∈ segmentWindows [(⟨.playlist [longRow], "second half", 30⟩ : SegmentPlan longLibrary)]
      3600, w.nominalStart ≤ 0 ∧ 0 < w.endOffset) ∧
    (planHour emptySelector 0 twoPlaylists 3300 true = .ok lateHour ∧ ¬NeverEarly 0 lateHour) ∧
    planHour emptySelector 0 twoPlaylists 3600 true = .ok thinHour ∧ ¬NeverEarly 0 thinHour := by
  refine ⟨by decide +kernel, ⟨planHour_observed .., ?_⟩, planHour_observed .., ?_⟩
  · decide +kernel
  · decide +kernel

end IsadoraAir.LogBuilder
