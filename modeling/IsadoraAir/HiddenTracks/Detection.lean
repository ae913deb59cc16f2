import Mathlib.Algebra.Order.Ring.Rat
import Mathlib.Data.List.Sort
import Mathlib.Data.Prod.Lex
import IsadoraAir.Foundation.Stretches

/-!
# Hidden track detection

The detector walks the envelope of a track: the times of its windows and their levels, here exact
rationals. Quiet windows form spans that tolerate short excursions; behind a long enough span a
sustained return of audio is searched for, and extended as far as it stays active.
-/

namespace IsadoraAir.HiddenTracks

def minSilentWindowRatio : ℚ := 0.92

def maxSingleExcursionSeconds : ℚ := 1.5

def minPreGapActiveSeconds : ℚ := 20

def maxResumedSearchAttemptsTotal : ℕ := 500

def highConfidenceMinSilenceSeconds : ℚ := 30

def highConfidenceMinResumedSeconds : ℚ := 30

def highConfidenceMinSeparationDb : ℚ := 10

structure Settings where
  silenceThresholdDb : ℚ := -50
  minSilenceSeconds : ℚ := 20
  resumedAudioThresholdDb : ℚ := -35
  minResumedAudioSeconds : ℚ := 15
  /-- A fraction. -/
  requiredActiveRatio : ℚ := 0.6
  minPositionSeconds : ℚ := 60

/-- `xs[i]`; the detector stays within its lists. -/
def nth (xs : List ℚ) (i : ℕ) : ℚ := xs.getD i 0

/-! ## Extents -/

/-- The seconds that a window stands for, from the distance to the next one. -/
def trailingWidth (times : List ℚ) (i : ℕ) : ℚ :=
  if i + 1 < times.length then nth times (i + 1) - nth times i
  else if 0 < i then nth times i - nth times (i - 1)
  else 0

def spanExtent (times : List ℚ) (start stop : ℕ) : ℚ :=
  nth times stop - nth times start + trailingWidth times stop

/-! ## Quiet spans -/

/-- First and last window of a candidate gap. -/
structure Span where
  start : ℕ
  stop : ℕ
deriving DecidableEq, Repr

/-- The runs `_runs` yields. -/
def runs (flags : List Bool) : List (Stretch Bool) := Stretch.list flags

/-- The inner loop over the runs after a quiet one: the last window of the span when it ends at
`stop` so far, and the runs that are folded into it, an excursion and a quiet run at a time. -/
def extendSpan (times : List ℚ) (stop : ℕ) : List (Stretch Bool) → ℕ × ℕ
  | exc :: next :: rest =>
    if exc.value then (stop, 0)
    else if maxSingleExcursionSeconds < spanExtent times exc.start exc.stop then (stop, 0)
    else if !next.value then (stop, 0)
    else
      let (last, folded) := extendSpan times next.stop rest
      (last, folded + 2)
  | _ => (stop, 0)

/-- The outer loop over the runs, which passes over `folded` runs first. -/
def quietSpansFrom (times : List ℚ) : ℕ → List (Stretch Bool) → List Span
  | _, [] => []
  | folded + 1, _ :: rest => quietSpansFrom times folded rest
  | 0, run :: rest =>
    if !run.value then quietSpansFrom times 0 rest
    else
      let (last, folded) := extendSpan times run.stop rest
      ⟨run.start, last⟩ :: quietSpansFrom times folded rest

def findQuietSpans (times : List ℚ) (quietFlags : List Bool) : List Span :=
  quietSpansFrom times 0 (runs quietFlags)

/-! ## Active windows -/

def isQuiet (levels : List ℚ) (s : Settings) (i : ℕ) : Bool :=
  decide (nth levels i ≤ s.silenceThresholdDb)

/-- The window is at the level of resumed audio. -/
def isActive (levels : List ℚ) (s : Settings) (i : ℕ) : Bool :=
  decide (s.resumedAudioThresholdDb ≤ nth levels i)

def quietFlags (levels : List ℚ) (s : Settings) : List Bool :=
  levels.map fun level => decide (level ≤ s.silenceThresholdDb)

/-- The windows from `i` to `k` with the property. -/
def countBetween (p : ℕ → Bool) (i k : ℕ) : ℕ := (List.range' i (k + 1 - i)).countP p

/-- The prefix sums, by index. -/
def cumulativeActiveSeconds (times levels : List ℚ) (s : Settings) : ℕ → ℚ
  | 0 => 0
  | i + 1 => cumulativeActiveSeconds times levels s i +
      if isActive levels s i then trailingWidth times i else 0

/-! ## The search behind a span -/

/-- A stretch of resumed audio and its counts of windows. -/
structure Resumed where
  first : ℕ
  last : ℕ
  activeCount : ℕ
  totalCount : ℕ
deriving DecidableEq, Repr

section Search

variable (times levels : List ℚ) (s : Settings)

/-- The first crossing from a window on. -/
def nextCrossing (searchFrom : ℕ) : Option ℕ :=
  (List.range' searchFrom (times.length - searchFrom)).find? (isActive levels s)

/-- The last window of the validation window that starts at `first`; `left` windows follow `j`. -/
def validationEnd (first : ℕ) : ℕ → ℕ → ℕ
  | 0, j => j
  | left + 1, j =>
    if spanExtent times first j < s.minResumedAudioSeconds then validationEnd first left (j + 1)
    else j

/-- The attempts from a window on, with those that are left of the shared budget. -/
def search : ℕ → ℕ → Option Resumed × ℕ
  | 0, _ => (none, 0)
  | attempts + 1, searchFrom =>
    if times.length ≤ searchFrom then (none, attempts + 1)
    else match nextCrossing times levels s searchFrom with
      | none => (none, attempts)
      | some first =>
        let j := validationEnd times s first (times.length - (first + 1)) first
        if spanExtent times first j < s.minResumedAudioSeconds then (none, attempts)
        else
          let activeCount := countBetween (isActive levels s) first j
          let totalCount := j - first + 1
          if s.requiredActiveRatio ≤ (activeCount : ℚ) / totalCount then
            (some ⟨first, j, activeCount, totalCount⟩, attempts)
          else search attempts (j + 1)

/-- The extension of a validated stretch, behind which `left` windows follow. -/
def extendResumed : ℕ → Resumed → Resumed
  | 0, resumed => resumed
  | left + 1, resumed =>
    let total := resumed.totalCount + 1
    let active := resumed.activeCount + if isActive levels s (resumed.last + 1) then 1 else 0
    if (active : ℚ) / total < s.requiredActiveRatio then resumed
    else extendResumed left ⟨resumed.first, resumed.last + 1, active, total⟩

/-- The last crossing of the track. -/
def lastResumedCrossing : Option ℕ :=
  (List.range times.length).reverse.find? (isActive levels s)

/-- The checks a span has to pass before anything is searched for behind it. -/
structure MeetsLimits (span : Span) : Prop where
  duration : s.minSilenceSeconds ≤ spanExtent times span.start span.stop
  position : s.minPositionSeconds ≤ nth times span.start
  silent : minSilentWindowRatio ≤
    (countBetween (isQuiet levels s) span.start span.stop : ℚ) / (span.stop - span.start + 1 : ℕ)
  preGap : minPreGapActiveSeconds ≤ cumulativeActiveSeconds times levels s span.start

instance (span : Span) : Decidable (MeetsLimits times levels s span) :=
  decidable_of_iff (_ ∧ _ ∧ _ ∧ _)
    ⟨fun ⟨a, b, c, d⟩ => ⟨a, b, c, d⟩, fun ⟨a, b, c, d⟩ => ⟨a, b, c, d⟩⟩

/-- A crossing behind the span is possible at all. -/
def mayResume (span : Span) : Bool :=
  match lastResumedCrossing times levels s with
  | none => false
  | some last => decide (span.stop < last)

/-- What the loop body finds behind a span. -/
def resumedAfter (attempts : ℕ) (span : Span) : Option Resumed × ℕ :=
  if MeetsLimits times levels s span ∧ mayResume times levels s span then
    match search times levels s attempts (span.stop + 1) with
    | (none, left) => (none, left)
    | (some resumed, left) =>
      (some (extendResumed levels s (times.length - (resumed.last + 1)) resumed), left)
  else (none, attempts)

/-- The loop over the spans: what is found behind which span, and the attempts that are left. -/
def resumedAfterSpans : ℕ → List Span → List (Span × Resumed) × ℕ
  | attempts, [] => ([], attempts)
  | attempts, span :: spans =>
    match resumedAfter times levels s attempts span with
    | (none, left) => resumedAfterSpans left spans
    | (some resumed, left) =>
      let (found, left) := resumedAfterSpans left spans
      ((span, resumed) :: found, left)

end Search

/-! ## Candidates -/

inductive Strength
  | high | medium
deriving DecidableEq, Repr

def classifyStrength (silenceDuration resumedDuration gapMedianDb resumedLevelDb : ℚ) : Strength :=
  let separation := resumedLevelDb - gapMedianDb
  if highConfidenceMinSilenceSeconds ≤ silenceDuration ∧
      highConfidenceMinResumedSeconds ≤ resumedDuration ∧
      highConfidenceMinSeparationDb ≤ separation then .high
  else .medium

def median (xs : List ℚ) : ℚ :=
  let sorted := xs.insertionSort (· ≤ ·)
  let n := sorted.length
  if n % 2 = 1 then nth sorted (n / 2) else (nth sorted (n / 2 - 1) + nth sorted (n / 2)) / 2

/-- `xs[i:k + 1]`. -/
def slice (xs : List ℚ) (i k : ℕ) : List ℚ := (xs.drop i).take (k + 1 - i)

structure HiddenTrackCandidate where
  silenceStart : ℚ
  silenceEnd : ℚ
  silenceDuration : ℚ
  resumedStart : ℚ
  resumedDuration : ℚ
  activeRatio : ℚ
  representativeLevelDb : ℚ
  strength : Strength
deriving DecidableEq

def candidate (times levels : List ℚ) : Span × Resumed → HiddenTrackCandidate
  | (span, resumed) =>
    let silenceDuration := spanExtent times span.start span.stop
    let resumedDuration := spanExtent times resumed.first resumed.last
    let resumedLevel := median (slice levels resumed.first resumed.last)
    let gapLevel := median (slice levels span.start span.stop)
    { silenceStart := nth times span.start
      silenceEnd := nth times span.stop
      silenceDuration := silenceDuration
      resumedStart := nth times resumed.first
      resumedDuration := resumedDuration
      activeRatio := (resumed.activeCount : ℚ) / resumed.totalCount
      representativeLevelDb := resumedLevel
      strength := classifyStrength silenceDuration resumedDuration gapLevel resumedLevel }

/-- Longer silence first, then longer return, higher level, later position. -/
def Ranks (c d : HiddenTrackCandidate) : Prop :=
  toLex (-c.silenceDuration, toLex (-c.resumedDuration, toLex (-c.representativeLevelDb,
    -c.silenceStart))) ≤
  toLex (-d.silenceDuration, toLex (-d.resumedDuration, toLex (-d.representativeLevelDb,
    -d.silenceStart)))

instance : DecidableRel Ranks := fun _ _ => inferInstanceAs (Decidable (toLex _ ≤ toLex _))

/-- What is found in a track, in its order, and the attempts that are left. -/
def scan (times levels : List ℚ) (s : Settings) : List (Span × Resumed) × ℕ :=
  if times.length = 0 ∨ levels.length ≠ times.length ∨ times.length < 2 then
    ([], maxResumedSearchAttemptsTotal)
  else resumedAfterSpans times levels s maxResumedSearchAttemptsTotal
    (findQuietSpans times (quietFlags levels s))

def detectHiddenTrackCandidates (times levels : List ℚ) (s : Settings) :
    List HiddenTrackCandidate :=
  ((scan times levels s).1.map (candidate times levels)).insertionSort Ranks

end IsadoraAir.HiddenTracks
