import IsadoraAir.Foundation.Consecutive
import IsadoraAir.Foundation.PyError
import Mathlib.Algebra.Order.Ring.Rat

/-!
# Playback-window snapshot and the engine's trigger arithmetic

Durations are exact rationals. A timing that the source leaves unset is
`none`; arithmetic on an unset end point raises, as it does in the engine.
-/

namespace IsadoraAir.Refill

variable {elements : List TimingElement} {e : TimingElement}

/-- Primitive copy of one queued or loaded occurrence. The slot category's
kind is `some ""` without a category and `none` when it is not loaded. -/
structure ItemTiming where
  logItemId : ℕ
  playlistLogId : Option ℕ
  position : Option ℕ
  trackId : Option ℕ
  categoryId : Option ℕ
  categoryKind : Option String
  cueIn : Option ℚ
  nextStart : Option ℚ
  duration : Option ℚ
  claimed : Bool
  played : Bool
  deriving DecidableEq

namespace ItemTiming

def endPoint (item : ItemTiming) : Option ℚ := item.nextStart.or item.duration

end ItemTiming

structure DeckState where
  slot : String
  generation : Option ℕ
  item : Option ItemTiming
  positionSeconds : Option ℚ
  live : Bool
  deriving DecidableEq

/-- Copy of the engine's memory at one instant; `capturedAt` counts seconds. -/
structure PlaybackWindowSnapshot where
  capturedAt : ℚ
  engineInstance : String
  activeLogId : Option ℕ
  activeLogDate : Option ℕ
  activeLogHour : Option ℕ
  cursor : ℤ
  queue : List ItemTiming
  forced : List ItemTiming
  decks : List DeckState
  poisonSkip : List (Option ℕ × ℕ)
  deriving DecidableEq

def triggerClampSeconds : ℚ := 10
def pollMinPositionSeconds : ℚ := 5

/-- One poll tick of trigger latency for each transition. -/
def transitionAllowanceSeconds : ℚ := 1 / 4

/-- Wall-clock seconds from an element's reference point to the moment its
successor becomes audible. -/
def spanSeconds (cueIn endPoint : ℚ) (successorCueIn position : Option ℚ) (allowance : ℚ) : ℚ :=
  let successorCueIn := successorCueIn.getD 0
  let trigger := endPoint - successorCueIn
  let trigger := if trigger < triggerClampSeconds then endPoint else trigger
  let trigger := max trigger pollMinPositionSeconds
  let trigger := match position with
    | some p => max trigger p
    | none => trigger
  let nextAudible := trigger + successorCueIn
  let start := position.getD cueIn
  max 0 (nextAudible - start) + allowance

/-- `element_span`: an unset end point cannot be subtracted from. -/
def elementSpan (cueIn endPoint successorCueIn position : Option ℚ) (allowance : ℚ) :
    Except PyError ℚ :=
  match endPoint with
  | none => .error .typeError
  | some e => .ok (spanSeconds (cueIn.getD 0) e successorCueIn position allowance)

/-- The role an element plays in the committed sequence. -/
inductive Role where
  | deck
  | forced
  | queue
  deriving DecidableEq, Repr

structure TimingElement where
  logItemId : ℕ
  cueIn : ℚ
  endPoint : Option ℚ
  position : Option ℚ
  role : Role
  deriving DecidableEq

def TimingElement.span (e : TimingElement) (successorCueIn : Option ℚ) (allowance : ℚ) :
    Except PyError ℚ :=
  elementSpan (some e.cueIn) e.endPoint successorCueIn e.position allowance

/-- Upper-bound runway of an ordered sequence: one span for each element. -/
def sequenceRunway : List TimingElement → Option ℚ → ℚ → Except PyError (List ℚ)
  | [], _, _ => .ok []
  | e :: rest, tailSuccessorCueIn, allowance => do
    let span ← e.span (firstCue TimingElement.cueIn rest tailSuccessorCueIn) allowance
    let spans ← sequenceRunway rest tailSuccessorCueIn allowance
    .ok (span :: spans)

inductive TimingProblem where
  | noDuration
  | nonpositiveOrNegativeTiming
  | nonpositiveDuration
  | nonpositiveEffectiveAirtime
  deriving DecidableEq, Repr

def timingProblem (item : ItemTiming) : Option TimingProblem :=
  match item.endPoint with
  | none => some .noDuration
  | some e =>
    if e ≤ 0 ∨ item.cueIn.getD 0 < 0 then some .nonpositiveOrNegativeTiming
    else if (item.duration.map fun d => decide (d ≤ 0)) = some true then some .nonpositiveDuration
    else if e - item.cueIn.getD 0 ≤ 0 then some .nonpositiveEffectiveAirtime
    else none

inductive SkipReason where
  | poisonGuarded
  | trackDeleted
  deriving DecidableEq, Repr

/-- `(elements, skipped, problems)` of a committed sequence. -/
structure CommittedSequence where
  elements : List TimingElement
  skipped : List (ℕ × SkipReason)
  problems : List (ℕ × TimingProblem)
  deriving DecidableEq

/-- The engine's poison guard hides the occurrence. -/
def poisonGuarded (poisonSkip : List (Option ℕ × ℕ)) (playlistLogId : Option ℕ)
    (logItemId : ℕ) : Bool :=
  (playlistLogId, logItemId) ∈ poisonSkip

/-- The loop over forced and queued items; `seen` holds the ids met so far. -/
def collectCommitted (poisonSkip : List (Option ℕ × ℕ)) :
    List ℕ → List (ItemTiming × Role) → CommittedSequence
  | _, [] => ⟨[], [], []⟩
  | seen, (it, role) :: rest =>
    if it.logItemId ∈ seen then collectCommitted poisonSkip seen rest
    else
      let tail := collectCommitted poisonSkip (it.logItemId :: seen) rest
      if poisonGuarded poisonSkip it.playlistLogId it.logItemId then
        { tail with skipped := (it.logItemId, .poisonGuarded) :: tail.skipped }
      else if it.trackId = none then
        { tail with skipped := (it.logItemId, .trackDeleted) :: tail.skipped }
      else
        match timingProblem it with
        | some problem => { tail with problems := (it.logItemId, problem) :: tail.problems }
        | none =>
          { tail with elements :=
              ⟨it.logItemId, it.cueIn.getD 0, it.endPoint, none, role⟩ :: tail.elements }

/-- `xs[start:]` with a possibly negative start. -/
def sliceFrom {α : Type*} (xs : List α) (start : ℤ) : List α :=
  if start < 0 then xs.drop (xs.length + start).toNat else xs.drop start.toNat

/-- The live deck element, then forced items, then the queue from the cursor.
A live deck without an item has no `log_item_id` to read. -/
def committedSequence (snapshot : PlaybackWindowSnapshot) (liveDeck : DeckState) :
    Except PyError CommittedSequence :=
  match liveDeck.item with
  | none => .error .attributeError
  | some item =>
    let forcedIds := snapshot.forced.map ItemTiming.logItemId
    let future := snapshot.forced.map (·, Role.forced) ++
      ((sliceFrom snapshot.queue snapshot.cursor).filter
        (fun it => it.logItemId ∉ forcedIds)).map (·, Role.queue)
    let rest := collectCommitted snapshot.poisonSkip [item.logItemId] future
    .ok { rest with elements :=
      ⟨item.logItemId, item.cueIn.getD 0, item.endPoint, liveDeck.positionSeconds, .deck⟩ ::
        rest.elements }

/-! ## Runways without a missing end point -/

/-- An element whose end point is known and which is not the live deck. -/
def TimingElement.Queued (e : TimingElement) : Prop := e.endPoint ≠ none ∧ e.position = none

/-- The span of an element whose end point is known. -/
def TimingElement.seconds (allowance : ℚ) (e : TimingElement) (successorCueIn : Option ℚ) : ℚ :=
  spanSeconds e.cueIn (e.endPoint.getD 0) successorCueIn e.position allowance

theorem TimingElement.span_eq (h : e.endPoint ≠ none) (successorCueIn : Option ℚ) (allowance : ℚ) :
    e.span successorCueIn allowance = .ok (e.seconds allowance successorCueIn) := by
  obtain ⟨x, hx⟩ := Option.ne_none_iff_exists'.mp h
  simp [span, seconds, elementSpan, hx]

theorem sequenceRunway_eq (h : ∀ e ∈ elements, e.endPoint ≠ none)
    (tail : Option ℚ) (allowance : ℚ) :
    sequenceRunway elements tail allowance =
      .ok (adjacent (TimingElement.seconds allowance) TimingElement.cueIn elements tail) := by
  induction elements with
  | nil => rfl
  | cons e rest ih =>
    have hrest := ih fun x hx => h x (List.mem_cons_of_mem _ hx)
    simp only [sequenceRunway, e.span_eq (h e List.mem_cons_self), hrest, adjacent]
    rfl

/-- One missing end point makes the whole runway raise. -/
theorem sequenceRunway_of_no_end
    (h : ∃ e ∈ elements, e.endPoint = none) (tail : Option ℚ) (allowance : ℚ) :
    sequenceRunway elements tail allowance = .error .typeError := by
  induction elements with
  | nil => simp at h
  | cons e rest ih =>
    by_cases he : e.endPoint = none
    · simp only [sequenceRunway, TimingElement.span, elementSpan, he]
      rfl
    · have hrest : ∃ x ∈ rest, x.endPoint = none := by
        obtain ⟨x, hx, hn⟩ := h
        rcases List.mem_cons.mp hx with rfl | hx
        · exact absurd hn he
        · exact ⟨x, hx, hn⟩
      simp only [sequenceRunway, e.span_eq he, ih hrest]
      rfl

theorem endPoint_ne_none_of_timingProblem {item : ItemTiming} (h : timingProblem item = none) :
    item.endPoint ≠ none := by
  intro hn
  simp [timingProblem, hn] at h

/-- Everything after the live deck has an end point and no playhead. -/
theorem collectCommitted_queued {poisonSkip : List (Option ℕ × ℕ)} {seen : List ℕ}
    {future : List (ItemTiming × Role)}
    (he : e ∈ (collectCommitted poisonSkip seen future).elements) : e.Queued := by
  induction future generalizing seen with
  | nil => cases he
  | cons x rest ih =>
    obtain ⟨it, role⟩ := x
    simp only [collectCommitted] at he
    split_ifs at he with hseen hpoison htrack
    · exact ih he
    · exact ih he
    · exact ih he
    · split at he
      · exact ih he
      · rename_i hproblem
        rcases List.mem_cons.mp he with rfl | he
        · exact ⟨endPoint_ne_none_of_timingProblem hproblem, rfl⟩
        · exact ih he

/-- A committed sequence is the live deck followed by queued elements. -/
theorem committedSequence_shape {snapshot : PlaybackWindowSnapshot} {liveDeck : DeckState}
    {committed : CommittedSequence} (h : committedSequence snapshot liveDeck = .ok committed) :
    ∃ deck rest, committed.elements = deck :: rest ∧ ∀ e ∈ rest, e.Queued := by
  unfold committedSequence at h
  split at h
  · cases h
  · cases h
    exact ⟨_, _, rfl, fun e he => collectCommitted_queued he⟩

end IsadoraAir.Refill
