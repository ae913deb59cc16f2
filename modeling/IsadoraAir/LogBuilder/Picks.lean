import IsadoraAir.Foundation.Consecutive
import Mathlib.Data.Finset.Lattice.Union
import Mathlib.Data.Rat.Floor

/-!
# Picks and selections

What the build of an hour keeps, and what a selection is asked for.
-/

/-!
## Tracks, picks and the build of an hour

What the build of one hour reads and keeps: the library, which does not change
while the hour is built, the picks, and the state that keeps earlier picks from
being picked again. Seconds are exact; times are microseconds.
-/

namespace IsadoraAir.LogBuilder

structure Category where
  id : ℕ
  kind : String
  artistSeparation : Option ℚ
  titleSeparation : Option ℚ
  proportional : Bool
  deriving DecidableEq

structure Track where
  id : ℕ
  artist : Option String
  relatedArtists : String
  nextStartSeconds : Option ℚ
  durationSeconds : Option ℚ
  cueInSeconds : Option ℚ
  category : Option Category
  deriving DecidableEq

/-- `_effective_airtime` -/
def effectiveAirtime (nextStart duration cueIn : Option ℚ) : ℚ :=
  match nextStart <|> duration with
  | some endPoint => max 0 (endPoint - cueIn.getD 0)
  | none => 0

def effectiveAirtimeSeconds (t : Track) : ℚ :=
  effectiveAirtime t.nextStartSeconds t.durationSeconds t.cueInSeconds

theorem effectiveAirtime_nonneg (nextStart duration cueIn : Option ℚ) :
    0 ≤ effectiveAirtime nextStart duration cueIn := by
  unfold effectiveAirtime
  split
  · exact le_max_left ..
  · exact le_rfl

/-- Rounding to the nearest integer, halves to the even one. -/
def roundHalfEven (x : ℚ) : ℤ :=
  if 2 * (x - ⌊x⌋) < 1 then ⌊x⌋
  else if 1 < 2 * (x - ⌊x⌋) then ⌊x⌋ + 1
  else if ⌊x⌋ % 2 = 0 then ⌊x⌋ else ⌊x⌋ + 1

theorem floor_le_roundHalfEven (x : ℚ) : ⌊x⌋ ≤ roundHalfEven x := by
  unfold roundHalfEven
  split_ifs <;> omega

theorem roundHalfEven_le_floor_add_one (x : ℚ) : roundHalfEven x ≤ ⌊x⌋ + 1 := by
  unfold roundHalfEven
  split_ifs <;> omega

theorem roundHalfEven_monotone {x y : ℚ} (hxy : x ≤ y) : roundHalfEven x ≤ roundHalfEven y := by
  rcases (Int.floor_mono hxy).lt_or_eq with hlt | heq
  · calc roundHalfEven x ≤ ⌊x⌋ + 1 := roundHalfEven_le_floor_add_one x
      _ ≤ ⌊y⌋ := hlt
      _ ≤ roundHalfEven y := floor_le_roundHalfEven y
  · unfold roundHalfEven
    rw [heq]
    split_ifs <;> first | omega | linarith

/-- `timedelta(seconds=...)` in microseconds. -/
def timedelta (seconds : ℚ) : ℤ := roundHalfEven (1000000 * seconds)

theorem timedelta_monotone {x y : ℚ} (hxy : x ≤ y) : timedelta x ≤ timedelta y := by
  apply roundHalfEven_monotone
  linarith

/-- An item that aired, for the recency window. -/
structure AiredItem where
  scheduledTime : ℤ
  track : Option Track

/-- What the build reads of the database. -/
structure Library where
  tracks : ℕ → Option Track
  trackIdentityKeys : Option String → String → Finset String
  categoryCount : Category → ℕ
  artistSeparation : ℚ
  titleSeparation : ℚ
  fixedFillCategory : Bool
  fallbackCategory : Option Category
  aired : List AiredItem

/-- A track as it was loaded from the library. -/
abbrev Library.Row (lib : Library) := { t : Track // lib.tracks t.id = some t }

inductive Origin where
  | generatedFill
  deriving DecidableEq

/-- An entry of `picks`; only fill picks name their origin. -/
structure Pick (lib : Library) where
  position : ℕ
  scheduledTime : ℤ
  track : lib.Row
  category : Option Category
  origin : Option Origin

variable {lib : Library}

def Library.keysOf (lib : Library) (t : Track) : Finset String :=
  lib.trackIdentityKeys t.artist t.relatedArtists

/-- `_identity_keys_for_picks`: the keys that the rows of the picked tracks have now. -/
def identityKeysForPicks (picks : List (Pick lib)) : Finset String :=
  picks.foldl (fun keys p => keys ∪ (lib.tracks p.track.val.id).elim ∅ lib.keysOf) ∅

/-- `SelectionDiagnostics` -/
structure SelectionDiagnostics where
  normalPicks : ℕ
  landingPairs : ℕ
  landingPairFallbacks : ℕ
  exactFitPicks : ℕ
  directTrackInserts : ℕ
  poolExhaustedPicks : ℕ
  landingErrors : List ℚ

/-- `HourBuildContext`; `selections` counts the random selections made so far. -/
structure HourBuildContext (lib : Library) where
  targetDatetime : ℤ
  picks : List (Pick lib)
  pickedTracks : List lib.Row
  pickedIdentityKeys : Finset String
  accumulatedSeconds : ℚ
  scheduledTimeOffsetSeconds : ℚ
  rotationWalked : Bool
  diagnostics : SelectionDiagnostics
  selections : ℕ

namespace HourBuildContext

def recordPick (ctx : HourBuildContext lib) (track : lib.Row) (category : Option Category) :
    HourBuildContext lib :=
  { ctx with
    picks := ctx.picks ++ [{
      position := ctx.picks.length
      scheduledTime := ctx.targetDatetime +
        timedelta (ctx.scheduledTimeOffsetSeconds + ctx.accumulatedSeconds)
      track := track
      category := category
      origin := none }]
    pickedTracks := ctx.pickedTracks ++ [track]
    pickedIdentityKeys := ctx.pickedIdentityKeys ∪ lib.keysOf track
    accumulatedSeconds := ctx.accumulatedSeconds + effectiveAirtimeSeconds track }

def resyncFromPicks (ctx : HourBuildContext lib) : HourBuildContext lib :=
  { ctx with
    pickedTracks := ctx.picks.map Pick.track
    pickedIdentityKeys := identityKeysForPicks ctx.picks }

end HourBuildContext

end IsadoraAir.LogBuilder

/-!
## What a selection is asked for

Which track is selected is up to the database and to chance. What it is asked
for is the builder's: the separation of the category, the exclusions that follow
from it, and the runway that is left.
-/

namespace IsadoraAir.LogBuilder

variable {lib : Library}

/-- `(artist_sep, title_sep)` in hours. -/
def getSeparation (lib : Library) (category : Category) : ℚ × ℚ :=
  let artistSep := category.artistSeparation.getD lib.artistSeparation
  let titleSep := category.titleSeparation.getD lib.titleSeparation
  if category.proportional ∧ 0 < lib.categoryCount category then
    let scale := min ((lib.categoryCount category : ℚ) / 500) 1
    (artistSep * scale, titleSep * scale)
  else (artistSep, titleSep)

structure Exclusions where
  tracks : Finset ℕ
  identityKeys : Finset String

def trackIds (tracks : List lib.Row) : Finset ℕ := (tracks.map fun t => t.val.id).toFinset

/-- One row of the recency window. -/
def excludeAired (lib : Library) (artistCutoff titleCutoff : ℤ) (e : Exclusions)
    (item : AiredItem) : Exclusions :=
  match item.track with
  | none => e
  | some t =>
    { tracks := if titleCutoff ≤ item.scheduledTime then insert t.id e.tracks else e.tracks
      identityKeys :=
        if artistCutoff ≤ item.scheduledTime then e.identityKeys ∪ lib.keysOf t
        else e.identityKeys }

def getRecentExclusions (targetDatetime : ℤ) (separation : ℚ × ℚ) (pickedTracks : List lib.Row)
    (pickedIdentityKeys : Finset String) : Exclusions :=
  let picked : Exclusions := ⟨trackIds pickedTracks, pickedIdentityKeys⟩
  let maxLookback := max separation.1 separation.2
  if maxLookback ≤ 0 then picked
  else
    (lib.aired.filter fun item =>
      targetDatetime - timedelta (3600 * maxLookback) ≤ item.scheduledTime ∧
        item.scheduledTime < targetDatetime).foldl
      (excludeAired lib (targetDatetime - timedelta (3600 * separation.1))
        (targetDatetime - timedelta (3600 * separation.2))) picked

/-- The arguments of `pick_track`. -/
structure PickRequest where
  category : Category
  exclusions : Exclusions
  separation : ℚ × ℚ
  targetDatetime : ℤ
  remainingSeconds : ℚ
  hardExclusions : Exclusions
  forceFitMode : Bool

/-- The arguments of `_landing_slot_candidates` for both slots, and the runway. -/
structure PairRequest where
  first : Category
  firstExclusions : Exclusions
  second : Category
  secondExclusions : Exclusions
  hardExclusions : Exclusions
  remainingSeconds : ℚ

/-- The random selections, one after the other. A pair is given as the rows that its two
candidates resolve to. -/
structure Selector (lib : Library) where
  pickTrack : ℕ → PickRequest → Option lib.Row
  findMatchedPair : ℕ → PairRequest → Option (lib.Row × lib.Row)

def durationFitMargin : ℚ := 30
def pairLandingThresholdSeconds : ℚ := 720
def exactFitThresholdSeconds : ℚ := 360
def maxFillTracks : ℕ := 200
def nominalHourSeconds : ℚ := 3600

end IsadoraAir.LogBuilder
