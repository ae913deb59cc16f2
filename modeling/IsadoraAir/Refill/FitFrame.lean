import IsadoraAir.Refill.Projection
import Mathlib.Tactic.Linarith
import Mathlib.Tactic.Ring

/-!
# The fit frame against the committed runway

The frame splits the committed timing once at the insertion point and then
prices candidate sequences without walking the whole sequence again. Its
totals are shown to be those of the sequence with the candidates spliced in.
-/

namespace IsadoraAir.Refill

variable {seq : List Candidate} {elements init : List TimingElement} {e : TimingElement} {split : ℕ}
  {allowance : ℚ}

inductive CauseType where
  | requestSubstitution
  | operatorEject
  | startNext
  | automaticSkip
  | mediaFailure
  deriving DecidableEq, Repr

structure QualifiedCause where
  causeId : ℕ
  causeType : CauseType
  deriving DecidableEq

/-- What the frame and the installer read of a net-deficit projection. -/
structure RefillProjection where
  windowSeconds : Option ℚ
  boundaryInstant : Option ℚ
  netShortageSeconds : Option ℚ
  qualifiedCauses : List QualifiedCause
  deriving DecidableEq

inductive PlacementMode where
  | tailAppend
  | insertBefore
  deriving DecidableEq, Repr

structure Placement where
  mode : Option PlacementMode
  afterLogItemId : Option ℕ
  anchorLogItemId : Option ℕ
  startPosition : Option ℕ
  deriving DecidableEq

structure Candidate where
  trackId : ℕ
  categoryId : ℕ
  rank : ℕ
  cueIn : ℚ
  endPoint : ℚ
  effective : ℚ
  identityKeys : List String
  filepath : String
  deriving DecidableEq

/-- Committed timing split at the insertion point. -/
structure FitFrame where
  window : Option ℚ
  prefixFixed : ℚ
  lastPrefix : TimingElement
  suffixFirstCue : Option ℚ
  suffixTotal : ℚ
  allowance : ℚ
  prefixElementCount : ℕ
  reserveBase : ℚ
  reservePerItem : ℚ
  deriving DecidableEq

namespace FitFrame

variable (frame : FitFrame)

def last (successorCue : Option ℚ) : Except PyError ℚ :=
  frame.lastPrefix.span successorCue frame.allowance

def baseTotal : Except PyError ℚ := do
  let last ← frame.last frame.suffixFirstCue
  .ok (frame.prefixFixed + last + frame.suffixTotal)

def reserve (count : ℕ) : ℚ :=
  if count = 0 then 0 else frame.reserveBase + frame.reservePerItem * count

/-- The spans of the inserted items, each looking at its successor. -/
def insertedSpans : List Candidate → List ℚ
  | [] => []
  | item :: rest =>
    spanSeconds item.cueIn item.endPoint (firstCue Candidate.cueIn rest frame.suffixFirstCue) none
      frame.allowance :: insertedSpans rest

/-- Runway with `seq` inserted, plus the safety reserve for it. -/
def total (seq : List Candidate) : Except PyError ℚ :=
  match seq with
  | [] => .error .indexError
  | first :: _ => do
    let last ← frame.last (some first.cueIn)
    .ok (frame.prefixFixed + last + frame.suffixTotal + (frame.insertedSpans seq).sum +
      frame.reserve seq.length)

/-- Seconds until `first` can become audible, without any late poll. -/
def insertionLead (first : Candidate) : Except PyError ℚ := do
  let last ← frame.last (some first.cueIn)
  .ok (max 0 (frame.prefixFixed + last - frame.allowance * frame.prefixElementCount))

end FitFrame

/-- Spans of all but the last prefix element, each before its successor. -/
def prefixSpans (allowance : ℚ) : List TimingElement → Except PyError (List ℚ)
  | [] => .ok []
  | [_] => .ok []
  | e :: next :: rest => do
    let span ← e.span (some next.cueIn) allowance
    let spans ← prefixSpans allowance (next :: rest)
    .ok (span :: spans)

/-- Suffix spans are taken without a playhead. -/
def suffixSpans (allowance : ℚ) : List TimingElement → Except PyError (List ℚ)
  | [] => .ok []
  | e :: rest => do
    let span ← elementSpan (some e.cueIn) e.endPoint (firstCue TimingElement.cueIn rest none) none
      allowance
    let spans ← suffixSpans allowance rest
    .ok (span :: spans)

/-- Where the committed elements are cut: before the anchor of an insertion,
after the last element otherwise. An anchor that is not committed has no cut. -/
def insertionPoint (placement : Placement) (elements : List TimingElement) : Option ℕ :=
  if placement.mode = some .insertBefore then
    elements.findIdx? fun e => placement.anchorLogItemId = some e.logItemId
  else some elements.length

/-- The one live deck; the tuple pattern raises on any other number of them. -/
def liveDeck (snapshot : PlaybackWindowSnapshot) : Except PyError DeckState :=
  match snapshot.decks.filter DeckState.live with
  | [deck] => .ok deck
  | _ => .error .valueError

def buildFitFrame (snapshot : PlaybackWindowSnapshot) (projection : RefillProjection)
    (placement : Placement) (allowance : ℚ) (safetyBudget : Option (ℚ × ℚ)) :
    Except PyError (Option FitFrame) := do
  let deck ← liveDeck snapshot
  let committed ← committedSequence snapshot deck
  match insertionPoint placement committed.elements with
  | none => .ok none
  | some split =>
    let before := committed.elements.take split
    let suffix := committed.elements.drop split
    match before.getLast? with
    | none => .ok none
    | some lastPrefix => do
      let fixed ← prefixSpans allowance before
      let after ← suffixSpans allowance suffix
      .ok <| some
        { window := projection.windowSeconds
          prefixFixed := fixed.sum
          lastPrefix := lastPrefix
          suffixFirstCue := suffix.head?.map TimingElement.cueIn
          suffixTotal := after.sum
          allowance := allowance
          prefixElementCount := before.length
          reserveBase := (safetyBudget.map Prod.fst).getD 0
          reservePerItem := (safetyBudget.map Prod.snd).getD 0 }

/-! ## The split runway -/

/-- A candidate as the element it becomes once it is committed. -/
def Candidate.asElement (c : Candidate) : TimingElement :=
  ⟨c.trackId, c.cueIn, some c.endPoint, none, .queue⟩

/-- The committed sequence with `seq` put in at the cut. -/
def splice (elements : List TimingElement) (split : ℕ) (seq : List Candidate) :
    List TimingElement :=
  elements.take split ++ seq.map Candidate.asElement ++ elements.drop split

/-- Total runway of a sequence that nothing follows. -/
def runwayTotal (elements : List TimingElement) (allowance : ℚ) : Except PyError ℚ :=
  (sequenceRunway elements none allowance).map List.sum

theorem asElement_endPoint
    (he : e ∈ seq.map Candidate.asElement) : e.endPoint ≠ none := by
  obtain ⟨c, -, rfl⟩ := List.mem_map.mp he
  simp [Candidate.asElement]

theorem insertedSpans_eq (frame : FitFrame) (seq : List Candidate) :
    frame.insertedSpans seq =
      adjacent (TimingElement.seconds frame.allowance) TimingElement.cueIn
        (seq.map Candidate.asElement) frame.suffixFirstCue := by
  rw [adjacent_map]
  induction seq with
  | nil => rfl
  | cons c rest ih => rw [FitFrame.insertedSpans, ih]; rfl

theorem suffixSpans_eq {suffix : List TimingElement}
    (h : ∀ e ∈ suffix, e.Queued) :
    suffixSpans allowance suffix =
      .ok (adjacent (TimingElement.seconds allowance) TimingElement.cueIn suffix none) := by
  induction suffix with
  | nil => rfl
  | cons e rest ih =>
    obtain ⟨hend, hpos⟩ := h e List.mem_cons_self
    have hspan := e.span_eq hend (firstCue TimingElement.cueIn rest none) allowance
    rw [TimingElement.span, hpos] at hspan
    simp only [suffixSpans, hspan, ih fun x hx => h x (List.mem_cons_of_mem _ hx), adjacent]
    rfl

theorem prefixSpans_eq {last : TimingElement}
    (h : ∀ e ∈ init, e.endPoint ≠ none) :
    prefixSpans allowance (init ++ [last]) =
      .ok (adjacent (TimingElement.seconds allowance) TimingElement.cueIn init
        (some last.cueIn)) := by
  induction init with
  | nil => rfl
  | cons e rest ih =>
    have hrest := ih fun x hx => h x (List.mem_cons_of_mem _ hx)
    have hspan := e.span_eq (h e List.mem_cons_self)
    cases rest with
    | nil =>
      simp only [List.cons_append, List.nil_append, prefixSpans, hspan, adjacent, firstCue_nil]
      rfl
    | cons next rest =>
      simp only [List.cons_append] at hrest ⊢
      simp only [prefixSpans, hspan, hrest, adjacent, firstCue_cons]
      rfl

/-- With a second prefix element the first one's span is taken, so an unset
end point of the live deck raises before any frame is returned. -/
theorem prefixSpans_of_no_end {next : TimingElement} (h : e.endPoint = none)
    (rest : List TimingElement) :
    prefixSpans allowance (e :: next :: rest) = .error .typeError := by
  simp only [prefixSpans, TimingElement.span, elementSpan, h]
  rfl

theorem firstCue_eq_head? (elements : List TimingElement) :
    firstCue TimingElement.cueIn elements none = elements.head?.map TimingElement.cueIn := by
  cases elements <;> rfl

/-- What a returned frame knows about the committed sequence. -/
structure Splits (frame : FitFrame) (elements : List TimingElement) (split : ℕ) : Prop where
  init : ∃ init, elements.take split = init ++ [frame.lastPrefix] ∧
    (∀ e ∈ init, e.endPoint ≠ none) ∧
    frame.prefixFixed = (adjacent (TimingElement.seconds frame.allowance) TimingElement.cueIn init
      (some frame.lastPrefix.cueIn)).sum
  cue : frame.suffixFirstCue = firstCue TimingElement.cueIn (elements.drop split) none
  suffix : ∀ e ∈ elements.drop split, e.Queued
  suffixTotal : frame.suffixTotal = (adjacent (TimingElement.seconds frame.allowance)
    TimingElement.cueIn (elements.drop split) none).sum

/-- All prefix elements but the last have had their span taken. -/
theorem endPoints_of_prefixSpans {deck : TimingElement}
    {rest : List TimingElement} {last : TimingElement} {fixed : List ℚ}
    (hrest : ∀ e ∈ rest, e.Queued) (hinit : init ++ [last] <+: deck :: rest)
    (h : prefixSpans allowance (init ++ [last]) = .ok fixed) : ∀ e ∈ init, e.endPoint ≠ none := by
  cases init with
  | nil => simp
  | cons e init =>
    obtain ⟨rfl, htail⟩ := List.cons_prefix_cons.mp hinit
    intro x hx
    rcases List.mem_cons.mp hx with rfl | hx
    · intro hn
      obtain ⟨next, more, hmore⟩ : ∃ next more, init ++ [last] = next :: more := by
        cases init <;> simp
      rw [List.cons_append, hmore, prefixSpans_of_no_end hn] at h
      cases h
    · exact (hrest x (htail.subset (List.mem_append_left _ hx))).1

theorem buildFitFrame_splits {snapshot : PlaybackWindowSnapshot} {projection : RefillProjection}
    {placement : Placement} {safetyBudget : Option (ℚ × ℚ)} {frame : FitFrame}
    (h : buildFitFrame snapshot projection placement allowance safetyBudget = .ok (some frame)) :
    ∃ deck committed split, liveDeck snapshot = .ok deck ∧
      committedSequence snapshot deck = .ok committed ∧
      insertionPoint placement committed.elements = some split ∧
      frame.allowance = allowance ∧ Splits frame committed.elements split := by
  obtain ⟨deck, hdeck, h⟩ := bind_eq_ok.mp h
  obtain ⟨committed, hcommitted, h⟩ := bind_eq_ok.mp h
  refine ⟨deck, committed, ?_⟩
  obtain ⟨first, rest, helements, hrest⟩ := committedSequence_shape hcommitted
  cases hsplit : insertionPoint placement committed.elements with
  | none => rw [hsplit] at h; cases h
  | some split =>
    rw [hsplit] at h
    cases hlast : (committed.elements.take split).getLast? with
    | none => simp only [hlast] at h; cases h
    | some lastPrefix =>
      simp only [hlast] at h
      obtain ⟨fixed, hfixed, h⟩ := bind_eq_ok.mp h
      obtain ⟨after, hafter, h⟩ := bind_eq_ok.mp h
      cases h
      obtain ⟨init, hinit⟩ := List.getLast?_eq_some_iff.mp hlast
      have hends : ∀ e ∈ init, e.endPoint ≠ none := by
        have hprefix : init ++ [lastPrefix] <+: first :: rest := by
          rw [← hinit, ← helements]
          exact List.take_prefix _ _
        exact endPoints_of_prefixSpans hrest hprefix (hinit ▸ hfixed)
      have hqueued : ∀ e ∈ committed.elements.drop split, e.Queued := by
        cases split with
        | zero => simp at hinit
        | succ n =>
          intro e he
          rw [helements, List.drop_succ_cons] at he
          exact hrest e (List.mem_of_mem_drop he)
      rw [hinit, prefixSpans_eq hends] at hfixed
      rw [suffixSpans_eq hqueued] at hafter
      cases hfixed
      cases hafter
      exact ⟨split, hdeck, hcommitted, rfl, rfl,
        ⟨init, hinit, hends, rfl⟩, (firstCue_eq_head? _).symm, hqueued, rfl⟩

/-- A known last end point makes both the frame and the runway add up. -/
theorem Splits.sum_eq {frame : FitFrame}
    (h : Splits frame elements split) (seq : List Candidate)
    (hend : frame.lastPrefix.endPoint ≠ none) :
    runwayTotal (splice elements split seq) frame.allowance =
      .ok (frame.prefixFixed +
        frame.lastPrefix.seconds frame.allowance
          (firstCue Candidate.cueIn seq frame.suffixFirstCue) +
        (frame.insertedSpans seq).sum + frame.suffixTotal) := by
  obtain ⟨init, hinit, hends, hfixed⟩ := h.init
  have hall : ∀ e ∈ splice elements split seq, e.endPoint ≠ none := by
    intro e he
    simp only [splice, hinit, List.mem_append, List.mem_singleton] at he
    rcases he with ((he | rfl) | he) | he
    · exact hends e he
    · exact hend
    · exact asElement_endPoint he
    · exact (h.suffix e he).1
  have hcue : firstCue TimingElement.cueIn (seq.map Candidate.asElement) frame.suffixFirstCue =
      firstCue Candidate.cueIn seq frame.suffixFirstCue := by
    cases seq <;> rfl
  rw [runwayTotal, sequenceRunway_eq hall, Except.map, splice, hinit, sum_adjacent_append,
    sum_adjacent_append, sum_adjacent_concat, ← h.cue, hcue, ← hfixed, ← insertedSpans_eq,
    ← h.suffixTotal]

/-- A missing last end point makes both of them raise. -/
theorem Splits.runwayTotal_of_no_end {frame : FitFrame}
    (h : Splits frame elements split) (seq : List Candidate)
    (hend : frame.lastPrefix.endPoint = none) :
    runwayTotal (splice elements split seq) frame.allowance = .error .typeError := by
  obtain ⟨init, hinit, -, -⟩ := h.init
  have hmem : frame.lastPrefix ∈ splice elements split seq := by simp [splice, hinit]
  rw [runwayTotal, sequenceRunway_of_no_end ⟨_, hmem, hend⟩]
  rfl

theorem Splits.total_eq {frame : FitFrame}
    (h : Splits frame elements split) (hseq : seq ≠ []) :
    (frame.total seq).map (· - frame.reserve seq.length) =
      runwayTotal (splice elements split seq) frame.allowance := by
  obtain ⟨first, rest, rfl⟩ := List.exists_cons_of_ne_nil hseq
  by_cases hend : frame.lastPrefix.endPoint = none
  · rw [h.runwayTotal_of_no_end _ hend]
    simp only [FitFrame.total, FitFrame.last, TimingElement.span, elementSpan, hend]
    rfl
  · rw [h.sum_eq _ hend, FitFrame.total, FitFrame.last, TimingElement.span_eq hend, firstCue_cons]
    refine congrArg Except.ok ?_
    ring

theorem Splits.baseTotal_eq {frame : FitFrame}
    (h : Splits frame elements split) :
    frame.baseTotal = runwayTotal elements frame.allowance := by
  have hnil : splice elements split [] = elements := by simp [splice]
  by_cases hend : frame.lastPrefix.endPoint = none
  · rw [← hnil, h.runwayTotal_of_no_end _ hend]
    simp only [FitFrame.baseTotal, FitFrame.last, TimingElement.span, elementSpan, hend]
    rfl
  · have hsum := h.sum_eq [] hend
    rw [hnil, firstCue_nil, FitFrame.insertedSpans, List.sum_nil, add_zero] at hsum
    rw [hsum, FitFrame.baseTotal, FitFrame.last, TimingElement.span_eq hend]
    rfl

/-- For every frame that is built, the totals of the frame are the runway of
the committed sequence with the candidates in place. Where that runway raises,
because the live deck has no end point, the frame's totals raise alike. -/
theorem fitFrame_total_eq_runway {snapshot : PlaybackWindowSnapshot}
    {projection : RefillProjection} {placement : Placement} {allowance : ℚ}
    {safetyBudget : Option (ℚ × ℚ)} {frame : FitFrame}
    (h : buildFitFrame snapshot projection placement allowance safetyBudget = .ok (some frame)) :
    ∃ deck committed split, liveDeck snapshot = .ok deck ∧
      committedSequence snapshot deck = .ok committed ∧
      insertionPoint placement committed.elements = some split ∧
      (∀ seq ≠ [], (frame.total seq).map (· - frame.reserve seq.length) =
        runwayTotal (splice committed.elements split seq) allowance) ∧
      frame.baseTotal = runwayTotal committed.elements allowance := by
  obtain ⟨deck, committed, split, hdeck, hcommitted, hsplit, rfl, hsplits⟩ :=
    buildFitFrame_splits h
  exact ⟨deck, committed, split, hdeck, hcommitted, hsplit, fun _ => hsplits.total_eq,
    hsplits.baseTotal_eq⟩

/-- A deck halfway through its track and two queued items; the second one is
the anchor of an insertion. -/
def sampleSnapshot : PlaybackWindowSnapshot :=
  let item (id : ℕ) (cue : ℚ) : ItemTiming :=
    ⟨id, some 1, some id, some id, none, some "music", some cue, some 180, some 200, false, false⟩
  { capturedAt := 0, engineInstance := "a", activeLogId := some 1, activeLogDate := none
    activeLogHour := none, cursor := 0, queue := [item 2 3, item 3 12], forced := []
    decks := [⟨"A", some 1, some (item 1 0), some 90, true⟩, ⟨"B", none, none, none, false⟩]
    poisonSkip := [] }

def samplePlacement : Placement := ⟨some .insertBefore, some 2, some 3, some 3⟩

theorem fitFrame_total_eq_runway_sample : ∃ frame deck committed split,
    buildFitFrame sampleSnapshot ⟨some 600, none, none, []⟩ samplePlacement (1 / 4) (some (5, 1)) =
      .ok (some frame) ∧
    liveDeck sampleSnapshot = .ok deck ∧
    committedSequence sampleSnapshot deck = .ok committed ∧
    insertionPoint samplePlacement committed.elements = some split ∧
    (∀ seq ≠ [], (frame.total seq).map (· - frame.reserve seq.length) =
      runwayTotal (splice committed.elements split seq) (1 / 4)) ∧
    frame.baseTotal = runwayTotal committed.elements (1 / 4) := by
  have h : buildFitFrame sampleSnapshot ⟨some 600, none, none, []⟩ samplePlacement (1 / 4) (some (5, 1)) =
      .ok (some ⟨some 600, 361 / 4, ⟨2, 3, some 180, none, .queue⟩, some 12, 673 / 4, 1 / 4, 2, 5,
        1⟩) := by
    decide +kernel
  obtain ⟨deck, committed, split, hall⟩ := fitFrame_total_eq_runway h
  exact ⟨_, deck, committed, split, h, hall⟩

end IsadoraAir.Refill
