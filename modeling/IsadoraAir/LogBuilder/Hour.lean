import IsadoraAir.LogBuilder.Picks

/-!
# The combined build of one hour

The walk of a rotation, the walk of a playlist and the fill append picks to one
list; each keeps the books in its own variables.
-/

namespace IsadoraAir.LogBuilder

variable {lib : Library}

/-- Exactly one of the two is set. -/
inductive RotationSlot (lib : Library) where
  | track (track : lib.Row)
  | category (category : Category)

/-! ## `_walk_rotation_segment` -/

/-- The shared context with the walk's own clock. -/
structure RotationWalk (lib : Library) where
  ctx : HourBuildContext lib
  accumulatedSeconds : ℚ

namespace RotationWalk

/-- `_append_pick` -/
def appendPick (w : RotationWalk lib) (track : lib.Row) (category : Option Category) :
    RotationWalk lib :=
  let trackDuration := effectiveAirtimeSeconds track
  let scheduledTime :=
    w.ctx.targetDatetime + timedelta (w.ctx.scheduledTimeOffsetSeconds + w.accumulatedSeconds)
  { ctx := { w.ctx with
      picks := w.ctx.picks ++ [⟨w.ctx.picks.length, scheduledTime, track, category, none⟩]
      pickedTracks := w.ctx.pickedTracks ++ [track]
      pickedIdentityKeys := w.ctx.pickedIdentityKeys ∪ lib.keysOf track }
    accumulatedSeconds := w.accumulatedSeconds + trackDuration }

def count (w : RotationWalk lib) (f : SelectionDiagnostics → SelectionDiagnostics) :
    RotationWalk lib :=
  { w with ctx := { w.ctx with diagnostics := f w.ctx.diagnostics } }

/-- One more random selection is made. -/
def selected (w : RotationWalk lib) : RotationWalk lib :=
  { w with ctx := { w.ctx with selections := w.ctx.selections + 1 } }

def hardExclusions (w : RotationWalk lib) : Exclusions :=
  ⟨trackIds w.ctx.pickedTracks, w.ctx.pickedIdentityKeys⟩

def exclusionsFor (w : RotationWalk lib) (category : Category) : Exclusions :=
  getRecentExclusions w.ctx.targetDatetime (getSeparation lib category) w.ctx.pickedTracks
    w.ctx.pickedIdentityKeys

/-- `_sequential_pick` -/
def sequentialPick (sel : Selector lib) (w : RotationWalk lib) (category : Category)
    (remaining : ℚ) (forceFitMode : Bool) : Option lib.Row :=
  sel.pickTrack w.ctx.selections {
    category := category
    exclusions := w.exclusionsFor category
    separation := getSeparation lib category
    targetDatetime := w.ctx.targetDatetime
    remainingSeconds := remaining
    hardExclusions := w.hardExclusions
    forceFitMode := forceFitMode }

end RotationWalk

/-- What one turn of the slot loop does: it uses one slot or two, and picked or did not. -/
structure Turn (lib : Library) where
  walk : RotationWalk lib
  usesNext : Bool
  picked : Bool

namespace RotationWalk

/-- A turn that picks one track for the slot, or finds none. -/
def singlePick (sel : Selector lib) (w : RotationWalk lib) (category : Category) (remaining : ℚ)
    (forceFitMode : Bool) (f : SelectionDiagnostics → SelectionDiagnostics) : Turn lib :=
  match w.sequentialPick sel category remaining forceFitMode with
  | none =>
    ⟨w.selected.count fun d => { d with poolExhaustedPicks := d.poolExhaustedPicks + 1 },
      false, false⟩
  | some track => ⟨(w.selected.appendPick track (some category)).count f, false, true⟩

def countNormal (d : SelectionDiagnostics) : SelectionDiagnostics :=
  { d with normalPicks := d.normalPicks + 1 }

def countExactFit (d : SelectionDiagnostics) : SelectionDiagnostics :=
  { d with exactFitPicks := d.exactFitPicks + 1 }

/-- The pair for this slot and the next, unless the next is a direct track or there is none. -/
def landingPair (sel : Selector lib) (w : RotationWalk lib) (category : Category)
    (next : Option (RotationSlot lib)) (remaining : ℚ) :
    Option ((lib.Row × lib.Row) × Category) :=
  match next with
  | some (.category categoryB) =>
    (sel.findMatchedPair w.ctx.selections {
      first := category
      firstExclusions := w.exclusionsFor category
      second := categoryB
      secondExclusions := w.exclusionsFor categoryB
      hardExclusions := w.hardExclusions
      remainingSeconds := remaining }).map fun pair => (pair, categoryB)
  | _ => none

/-- The body of the slot loop. -/
def turn (sel : Selector lib) (target : ℚ) (w : RotationWalk lib) (slot : RotationSlot lib)
    (next : Option (RotationSlot lib)) : Turn lib :=
  match slot with
  | .track track =>
    ⟨(w.appendPick track track.val.category).count fun d =>
      { d with directTrackInserts := d.directTrackInserts + 1 }, false, true⟩
  | .category category =>
    let remaining := target - w.accumulatedSeconds
    if pairLandingThresholdSeconds < remaining then
      w.singlePick sel category remaining false countNormal
    else if remaining ≤ exactFitThresholdSeconds then
      w.singlePick sel category remaining false countExactFit
    else
      match w.landingPair sel category next remaining with
      | some ((trackA, trackB), categoryB) =>
        let error := |remaining - (effectiveAirtimeSeconds trackA + effectiveAirtimeSeconds trackB)|
        ⟨((w.selected.appendPick trackA (some category)).appendPick trackB (some categoryB)).count
          fun d => { d with
            landingPairs := d.landingPairs + 1
            landingErrors := d.landingErrors ++ [error] }, true, true⟩
      | none =>
        (w.selected.count fun d =>
          { d with landingPairFallbacks := d.landingPairFallbacks + 1 }).singlePick sel category
            remaining true countExactFit

/-- The slot loop; a turn that picked ends it when the target is reached. -/
def walkSlots (sel : Selector lib) (target : ℚ) : List (RotationSlot lib) → RotationWalk lib →
    RotationWalk lib
  | [], w => w
  | slot :: rest, w =>
    let t := w.turn sel target slot rest.head?
    if t.picked ∧ target ≤ t.walk.accumulatedSeconds then t.walk
    else if t.usesNext then
      match rest with
      | [] => t.walk
      | _ :: rest => walkSlots sel target rest t.walk
    else walkSlots sel target rest t.walk

end RotationWalk

def walkRotationSegment (sel : Selector lib) (ctx : HourBuildContext lib)
    (slots : List (RotationSlot lib)) (segmentEndSeconds : ℚ) : HourBuildContext lib :=
  let w := RotationWalk.walkSlots sel segmentEndSeconds slots
    ⟨{ ctx with rotationWalked := true }, ctx.accumulatedSeconds⟩
  { w.ctx with accumulatedSeconds := w.accumulatedSeconds }

/-! ## `_walk_playlist_segment` -/

def walkPlaylistSegment (ctx : HourBuildContext lib) (items : List lib.Row) :
    HourBuildContext lib :=
  items.foldl (fun ctx track => ctx.recordPick track track.val.category) ctx

/-! ## `fill_remaining_hour` -/

/-- The variables of the fill loop. -/
structure Fill (lib : Library) where
  picks : List (Pick lib)
  accumulatedSeconds : ℚ
  remaining : ℚ
  pickedTracks : List lib.Row
  pickedIdentityKeys : Finset String
  selections : ℕ

/-- What the fill is called with and does not change. -/
structure FillParameters where
  targetDatetime : ℤ
  targetDurationSeconds : ℚ
  scheduledTimeOffsetSeconds : ℚ
  category : Category

namespace Fill

/-- `_append_fill_pick` -/
def appendFillPick (c : FillParameters) (f : Fill lib) (track : lib.Row) : Fill lib :=
  let trackDuration := effectiveAirtimeSeconds track
  let scheduledTime :=
    c.targetDatetime + timedelta (c.scheduledTimeOffsetSeconds + f.accumulatedSeconds)
  { f with
    picks := f.picks ++ [⟨f.picks.length, scheduledTime, track, some c.category,
      some .generatedFill⟩]
    pickedTracks := f.pickedTracks ++ [track]
    pickedIdentityKeys := f.pickedIdentityKeys ∪ lib.keysOf track
    accumulatedSeconds := f.accumulatedSeconds + trackDuration
    remaining := c.targetDurationSeconds - (f.accumulatedSeconds + trackDuration) }

def selected (f : Fill lib) : Fill lib := { f with selections := f.selections + 1 }

def hardExclusions (f : Fill lib) : Exclusions := ⟨trackIds f.pickedTracks, f.pickedIdentityKeys⟩

def exclusions (c : FillParameters) (f : Fill lib) : Exclusions :=
  getRecentExclusions c.targetDatetime (getSeparation lib c.category) f.pickedTracks
    f.pickedIdentityKeys

def matchedPair (sel : Selector lib) (c : FillParameters) (f : Fill lib) :
    Option (lib.Row × lib.Row) :=
  if exactFitThresholdSeconds < f.remaining ∧ f.remaining ≤ pairLandingThresholdSeconds then
    sel.findMatchedPair f.selections {
      first := c.category
      firstExclusions := f.exclusions c
      second := c.category
      secondExclusions := f.exclusions c
      hardExclusions := f.hardExclusions
      remainingSeconds := f.remaining }
  else none

def pickTrack (sel : Selector lib) (c : FillParameters) (f : Fill lib) : Option lib.Row :=
  sel.pickTrack f.selections {
    category := c.category
    exclusions := f.exclusions c
    separation := getSeparation lib c.category
    targetDatetime := c.targetDatetime
    remainingSeconds := f.remaining
    hardExclusions := f.hardExclusions
    forceFitMode := f.remaining ≤ pairLandingThresholdSeconds }

/-- The fill loop with its safety cap. -/
def loop (sel : Selector lib) (c : FillParameters) : ℕ → Fill lib → Fill lib
  | 0, f => f
  | n + 1, f =>
    if f.remaining ≤ durationFitMargin then f
    else
      match f.matchedPair sel c with
      | some (trackA, trackB) =>
        loop sel c n ((f.selected.appendFillPick c trackA).appendFillPick c trackB)
      | none =>
        match f.selected.pickTrack sel c with
        | none => f.selected
        | some track =>
          if effectiveAirtimeSeconds track ≤ 0 then f.selected.selected.appendFillPick c track
          else loop sel c n (f.selected.selected.appendFillPick c track)

end Fill

/-- The category that the fill draws from. -/
def fillCategory (picks : List (Pick lib)) : Option Category :=
  if lib.fixedFillCategory then lib.fallbackCategory
  else picks.getLast?.bind Pick.category

/-- `ctx.picks, ctx.accumulated_seconds = fill_remaining_hour(...)` -/
def fillRemainingHour (sel : Selector lib) (ctx : HourBuildContext lib)
    (targetDurationSeconds : ℚ) : HourBuildContext lib :=
  if targetDurationSeconds - ctx.accumulatedSeconds ≤ durationFitMargin then ctx
  else
    match fillCategory ctx.picks with
    | none => ctx
    | some category =>
      let f := Fill.loop sel
        ⟨ctx.targetDatetime, targetDurationSeconds, ctx.scheduledTimeOffsetSeconds, category⟩
        maxFillTracks
        { picks := ctx.picks
          accumulatedSeconds := ctx.accumulatedSeconds
          remaining := targetDurationSeconds - ctx.accumulatedSeconds
          pickedTracks := ctx.picks.map Pick.track
          pickedIdentityKeys := identityKeysForPicks ctx.picks
          selections := ctx.selections }
      { ctx with
        picks := f.picks, accumulatedSeconds := f.accumulatedSeconds, selections := f.selections }

/-! ## `_plan_hour` -/

inductive PlanSource (lib : Library) where
  | rotation (slots : List (RotationSlot lib))
  | playlist (items : List lib.Row)

structure SegmentPlan (lib : Library) where
  source : PlanSource lib
  name : String
  startMinute : ℕ

namespace SegmentPlan

/-- The plan's `empty` and the message of `_load_plan_source`. -/
def emptyMessage (plan : SegmentPlan lib) : Option String :=
  match plan.source with
  | .rotation [] => some s!"Rotation '{plan.name}' has no slots."
  | .playlist [] => some s!"Playlist '{plan.name}' has no items."
  | _ => none

end SegmentPlan

structure SegmentWindow (lib : Library) where
  plan : SegmentPlan lib
  nominalStart : ℚ
  endOffset : ℚ
  elapsed : Bool

/-- The loop of `_segment_windows`. -/
def segmentWindowsFrom (late target : ℚ) : Option ℚ → List (SegmentPlan lib) →
    List (SegmentWindow lib)
  | _, [] => []
  | previousEnd, plan :: rest =>
    let start := plan.startMinute * 60 - late
    let nominalEnd :=
      match rest with
      | next :: _ => min (next.startMinute * 60 - late) target
      | [] => target
    let endOffset := previousEnd.elim nominalEnd (max nominalEnd)
    ⟨plan, start, endOffset, !rest.isEmpty && endOffset ≤ 0⟩ ::
      segmentWindowsFrom late target (some endOffset) rest

def segmentWindows (plans : List (SegmentPlan lib)) (target : ℚ) : List (SegmentWindow lib) :=
  segmentWindowsFrom (max 0 (nominalHourSeconds - target)) target none plans

def SegmentWindow.isApplicable (w : SegmentWindow lib) : Bool :=
  !w.elapsed && w.plan.emptyMessage.isNone

structure SegmentRecord where
  startMinute : ℕ
  nominalStartSeconds : ℚ
  endBoundarySeconds : ℚ
  elapsedBeforeStart : Bool
  actualStartSeconds : Option ℚ
  actualEndSeconds : Option ℚ
  delaySeconds : ℚ
  items : ℕ

/-- One window of the hour: the walk of its source, the fill up to its end. -/
def buildWindow (sel : Selector lib) (ctx : HourBuildContext lib) (w : SegmentWindow lib) :
    HourBuildContext lib × SegmentRecord :=
  if w.isApplicable then
    let walked :=
      match w.plan.source with
      | .rotation slots => walkRotationSegment sel ctx slots w.endOffset
      | .playlist items => walkPlaylistSegment ctx items
    let built := (fillRemainingHour sel walked w.endOffset).resyncFromPicks
    (built,
      { startMinute := w.plan.startMinute
        nominalStartSeconds := w.nominalStart
        endBoundarySeconds := w.endOffset
        elapsedBeforeStart := w.elapsed
        actualStartSeconds := some ctx.accumulatedSeconds
        actualEndSeconds := some built.accumulatedSeconds
        delaySeconds := max 0 (ctx.accumulatedSeconds - max w.nominalStart 0)
        items := built.picks.length - ctx.picks.length })
  else
    (ctx,
      { startMinute := w.plan.startMinute
        nominalStartSeconds := w.nominalStart
        endBoundarySeconds := w.endOffset
        elapsedBeforeStart := w.elapsed
        actualStartSeconds := none
        actualEndSeconds := none
        delaySeconds := 0
        items := 0 })

def buildWindows (sel : Selector lib) : HourBuildContext lib → List (SegmentWindow lib) →
    HourBuildContext lib × List SegmentRecord
  | ctx, [] => (ctx, [])
  | ctx, w :: rest =>
    let (ctx, record) := buildWindow sel ctx w
    let (ctx, records) := buildWindows sel ctx rest
    (ctx, record :: records)

/-- The first window that is built. -/
def firstApplicable (windows : List (SegmentWindow lib)) : Option (SegmentWindow lib) :=
  windows.find? SegmentWindow.isApplicable

/-- Where the build's clock starts. -/
def startSeconds (windows : List (SegmentWindow lib)) : ℚ :=
  max 0 ((firstApplicable windows).elim 0 SegmentWindow.nominalStart)

/-- The shift of the timestamps of an hour whose first plan does not start with it. -/
def offsetSeconds (plans : List (SegmentPlan lib)) (windows : List (SegmentWindow lib)) : ℚ :=
  match plans.head?, firstApplicable windows with
  | some first, some w =>
    if 0 < first.startMinute then max 0 (w.plan.startMinute * 60 - startSeconds windows) else 0
  | _, _ => 0

def newHourContext (lib : Library) (targetDatetime : ℤ) (accumulated offset : ℚ) :
    HourBuildContext lib where
  targetDatetime := targetDatetime
  picks := []
  pickedTracks := []
  pickedIdentityKeys := ∅
  accumulatedSeconds := accumulated
  scheduledTimeOffsetSeconds := offset
  rotationWalked := false
  diagnostics := ⟨0, 0, 0, 0, 0, 0, []⟩
  selections := 0

/-- A build without an observer gives up at the first empty source that it would need. -/
def planHour (sel : Selector lib) (targetDatetime : ℤ) (plans : List (SegmentPlan lib))
    (targetDurationSeconds : ℚ) (observed : Bool) :
    Except String (HourBuildContext lib × List SegmentRecord) :=
  let windows := segmentWindows plans targetDurationSeconds
  match windows.findSome? fun w => if w.elapsed then none else w.plan.emptyMessage with
  | some message => if observed then .ok (build windows) else .error message
  | none => .ok (build windows)
where
  build (windows : List (SegmentWindow lib)) : HourBuildContext lib × List SegmentRecord :=
    buildWindows sel
      (newHourContext lib targetDatetime (startSeconds windows) (offsetSeconds plans windows))
      windows

end IsadoraAir.LogBuilder
