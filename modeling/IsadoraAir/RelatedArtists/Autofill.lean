import IsadoraAir.RelatedArtists.Stability
import Mathlib.Algebra.BigOperators.Group.List.Basic
import Mathlib.Algebra.GroupWithZero.Nat

/-!
# Autofill over a set of tracks

Changed rows are queued and written in batches. A batch that cannot be written
as a whole is written row by row, and a row that fails again is an error.
-/

namespace IsadoraAir.RelatedArtists

/-- `(id, title, artist__name, related_artists)` -/
structure TrackRow where
  id : ℕ
  title : Option Text
  artistName : Option Text
  related : Option Text
  deriving DecidableEq

/-- A queued write, with the names it adds to the row. -/
structure Change where
  trackId : ℕ
  value : Text
  appended : List Text
  deriving DecidableEq

structure Sample where
  trackId : ℕ
  title : Option Text
  artist : Text
  before : Text
  after : Text
  deriving DecidableEq

structure Counts where
  scanned : ℤ
  changed : ℤ
  appended : ℤ
  unchangedNoDiscoveries : ℤ
  unchangedAlreadyCurrent : ℤ
  unchangedOverflow : ℤ
  overflowSkipped : ℤ
  errors : ℤ
  deriving DecidableEq

def Counts.zero : Counts := ⟨0, 0, 0, 0, 0, 0, 0, 0⟩

def sampleCap : ℕ := 25

def batchSize : ℕ := 200

/-- The counters, the queue, and what has been written; `batches` counts the flushes. -/
structure Run where
  counts : Counts
  samples : List Sample
  pending : List Change
  stored : List Change
  batches : ℕ

def Run.start : Run := ⟨.zero, [], [], [], 0⟩

/-- Which batch writes fail, and which rows of a batch fail by themselves. -/
structure Failures where
  batch : ℕ → Bool
  row : ℕ → ℕ → Bool

section Flush

variable (failures : Failures)

/-- The fallback: one update for each row of the batch, from its `index` on. -/
def writeRows : ℕ → List Change → Run → Run
  | _, [], run => run
  | index, change :: rest, run =>
    if failures.row run.batches index then
      writeRows (index + 1) rest { run with counts :=
        { run.counts with errors := run.counts.errors + 1, changed := run.counts.changed - 1 } }
    else writeRows (index + 1) rest { run with stored := run.stored ++ [change] }

/-- `_flush_batch` -/
def flushBatch (batch : List Change) (run : Run) : Run :=
  if batch = [] then run
  else
    let run := if failures.batch run.batches then writeRows failures 0 batch run
      else { run with stored := run.stored ++ batch }
    { run with batches := run.batches + 1 }

end Flush

section Rows

variable (casefold : Text → Text) (isWord : CodePoint → Bool) (known : List Text) (maxLength : ℕ)

def TrackRow.discovered (row : TrackRow) : List Text :=
  extractCreditedArtists casefold isWord row.artistName row.title row.artistName known

def TrackRow.before (row : TrackRow) : Text :=
  formatRelatedArtists (canonicalizeRelatedArtists casefold row.related row.artistName)

def TrackRow.merged (row : TrackRow) : Merge :=
  mergeRelatedArtistsDetailed casefold row.related (row.discovered casefold isWord known)
    row.artistName maxLength

def TrackRow.change (row : TrackRow) : Change :=
  ⟨row.id, formatRelatedArtists (row.merged casefold isWord known maxLength).names,
    (row.merged casefold isWord known maxLength).appended⟩

def TrackRow.sample (row : TrackRow) : Sample :=
  ⟨row.id, row.title, row.artistName.getD [], row.before casefold,
    (row.change casefold isWord known maxLength).value⟩

/-- Whether something is to be written. -/
def TrackRow.changes (row : TrackRow) : Bool :=
  row.discovered casefold isWord known ≠ [] ∧
    (row.change casefold isWord known maxLength).value ≠ row.before casefold

variable (apply : Bool) (failures : Failures)

/-- A changed row is queued, and a full queue is flushed. -/
def enqueue (change : Change) (run : Run) : Run :=
  if apply then
    let pending := run.pending ++ [change]
    if batchSize ≤ pending.length then
      { flushBatch failures pending { run with pending := pending } with pending := [] }
    else { run with pending := pending }
  else run

/-- One turn of the loop. -/
def processRow (run : Run) (row : TrackRow) : Run :=
  let run := { run with counts := { run.counts with scanned := run.counts.scanned + 1 } }
  if row.discovered casefold isWord known = [] then
    { run with counts := { run.counts with
      unchangedNoDiscoveries := run.counts.unchangedNoDiscoveries + 1 } }
  else
    let skipped := (row.merged casefold isWord known maxLength).skipped
    let change := row.change casefold isWord known maxLength
    let run := { run with counts := { run.counts with
      overflowSkipped := run.counts.overflowSkipped + skipped.length } }
    if change.value = row.before casefold then
      if skipped ≠ [] then
        { run with counts := { run.counts with
          unchangedOverflow := run.counts.unchangedOverflow + 1 } }
      else
        { run with counts := { run.counts with
          unchangedAlreadyCurrent := run.counts.unchangedAlreadyCurrent + 1 } }
    else
      let run := enqueue apply failures change { run with counts := { run.counts with
        changed := run.counts.changed + 1
        appended := run.counts.appended + change.appended.length } }
      if run.samples.length < sampleCap then
        { run with samples := run.samples ++ [row.sample casefold isWord known maxLength] }
      else run

def autofillRelatedArtistsForQueryset (rows : List TrackRow) : Run :=
  let run := rows.foldl (processRow casefold isWord known maxLength apply failures) .start
  if apply then flushBatch failures run.pending run else run

end Rows

/-! ## One flush -/

variable {failures : Failures} {run : Run} {change : Change} {batch changes lost : List Change}

/-- The rows of the batch whose own write fails. -/
def rejected (failures : Failures) (number : ℕ) : ℕ → List Change → List Change
  | _, [] => []
  | index, change :: rest =>
    if failures.row number index then change :: rejected failures number (index + 1) rest
    else rejected failures number (index + 1) rest

def written (failures : Failures) (number : ℕ) : ℕ → List Change → List Change
  | _, [] => []
  | index, change :: rest =>
    if failures.row number index then written failures number (index + 1) rest
    else change :: written failures number (index + 1) rest

theorem writeRows_eq (failures : Failures) (index : ℕ) (batch : List Change) (run : Run) :
    writeRows failures index batch run = { run with
      counts := { run.counts with
        errors := run.counts.errors + (rejected failures run.batches index batch).length
        changed := run.counts.changed - (rejected failures run.batches index batch).length }
      stored := run.stored ++ written failures run.batches index batch } := by
  induction batch generalizing index run with
  | nil => simp [writeRows, rejected, written]
  | cons change rest ih =>
    simp only [writeRows, rejected, written]
    split_ifs with h
    · rw [ih]
      simp only [List.length_cons]
      congr 2 <;> omega
    · rw [ih]
      simp

/-- What the flush of a batch loses. -/
def lostOf (failures : Failures) (number : ℕ) (batch : List Change) : List Change :=
  if failures.batch number then rejected failures number 0 batch else []

def keptOf (failures : Failures) (number : ℕ) (batch : List Change) : List Change :=
  if failures.batch number then written failures number 0 batch else batch

theorem flushBatch_eq (failures : Failures) (batch : List Change) (run : Run) :
    flushBatch failures batch run = { run with
      counts := { run.counts with
        errors := run.counts.errors + (lostOf failures run.batches batch).length
        changed := run.counts.changed - (lostOf failures run.batches batch).length }
      stored := run.stored ++ keptOf failures run.batches batch
      batches := if batch = [] then run.batches else run.batches + 1 } := by
  unfold flushBatch
  by_cases hbatch : batch = []
  · subst hbatch
    simp [lostOf, keptOf, rejected, written]
  · rw [if_neg hbatch, if_neg hbatch]
    dsimp only
    by_cases hfails : failures.batch run.batches = true
    · rw [if_pos hfails, writeRows_eq, lostOf, keptOf, if_pos hfails, if_pos hfails]
    · rw [if_neg hfails, lostOf, keptOf, if_neg hfails, if_neg hfails]
      simp

theorem written_sublist (number index : ℕ) (batch : List Change) :
    (written failures number index batch).Sublist batch := by
  induction batch generalizing index with
  | nil => exact .slnil
  | cons change rest ih =>
    rw [written]
    split_ifs
    · exact (ih (index + 1)).cons change
    · exact (ih (index + 1)).cons_cons change

theorem keptOf_sublist (number : ℕ) (batch : List Change) :
    (keptOf failures number batch).Sublist batch := by
  rw [keptOf]
  split_ifs
  · exact written_sublist number 0 batch
  · exact .refl batch

/-- The names that some changes add. -/
def weight (changes : List Change) : ℕ := (changes.map fun change => change.appended.length).sum

@[simp] theorem weight_nil : weight [] = 0 := rfl

@[simp] theorem weight_cons (change : Change) (changes : List Change) :
    weight (change :: changes) = change.appended.length + weight changes := by
  simp [weight]

@[simp] theorem weight_append (first second : List Change) :
    weight (first ++ second) = weight first + weight second := by
  simp [weight]

theorem weight_eq_zero_iff : weight changes = 0 ↔ ∀ change ∈ changes, change.appended = [] := by
  induction changes with
  | nil => simp
  | cons change rest ih =>
    rw [weight_cons, Nat.add_eq_zero_iff, ih, List.forall_mem_cons, List.length_eq_zero_iff]

theorem written_rejected (number index : ℕ) (batch : List Change) :
    (written failures number index batch).length + (rejected failures number index batch).length =
        batch.length ∧
      weight (written failures number index batch) + weight (rejected failures number index batch) =
        weight batch := by
  induction batch generalizing index with
  | nil => exact ⟨rfl, rfl⟩
  | cons change rest ih =>
    have hrest := ih (index + 1)
    rw [written, rejected]
    split_ifs
    · simp only [List.length_cons, weight_cons]
      omega
    · simp only [List.length_cons, weight_cons]
      omega

/-- A batch is what is written of it and what is lost. -/
theorem keptOf_lostOf (failures : Failures) (number : ℕ) (batch : List Change) :
    (keptOf failures number batch).length + (lostOf failures number batch).length = batch.length ∧
      weight (keptOf failures number batch) + weight (lostOf failures number batch) =
        weight batch := by
  rw [keptOf, lostOf]
  split_ifs
  · exact written_rejected number 0 batch
  · exact ⟨rfl, rfl⟩

theorem mem_rejected_iff (number index : ℕ) (batch : List Change) :
    change ∈ rejected failures number index batch ↔
      ∃ i, batch[i]? = some change ∧ failures.row number (index + i) = true := by
  induction batch generalizing index with
  | nil => simp [rejected]
  | cons first rest ih =>
    have hsplit : (∃ i, (first :: rest)[i]? = some change ∧
          failures.row number (index + i) = true) ↔
        (first = change ∧ failures.row number index = true) ∨
          ∃ i, rest[i]? = some change ∧ failures.row number (index + 1 + i) = true := by
      constructor
      · rintro ⟨i, hi, hrow⟩
        cases i with
        | zero => exact .inl ⟨by simpa using hi, hrow⟩
        | succ i =>
          refine .inr ⟨i, by simpa using hi, ?_⟩
          rwa [Nat.add_assoc, Nat.add_comm 1 i]
      · rintro (⟨rfl, hrow⟩ | ⟨i, hi, hrow⟩)
        · exact ⟨0, rfl, hrow⟩
        · refine ⟨i + 1, by simpa using hi, ?_⟩
          rwa [Nat.add_comm i 1, ← Nat.add_assoc]
    rw [hsplit, rejected]
    split_ifs with hrow
    · rw [List.mem_cons, ih]
      simp only [hrow, and_true]
      exact or_congr_left' fun _ => eq_comm
    · rw [ih]
      simp [hrow]

theorem mem_lostOf_iff (number : ℕ) (batch : List Change) :
    change ∈ lostOf failures number batch ↔
      ∃ i, batch[i]? = some change ∧ failures.batch number = true ∧
        failures.row number i = true := by
  rw [lostOf]
  split_ifs with h
  · rw [mem_rejected_iff]
    simp [h]
  · simp [h]

/-! ## The whole run -/

/-- A change that is in a batch which fails, and fails again by itself. -/
def LosesAt (failures : Failures) (changes : List Change) (number index : ℕ) (change : Change) :
    Prop :=
  changes[batchSize * number + index]? = some change ∧ index < batchSize ∧
    failures.batch number = true ∧ failures.row number index = true

/-- The counters against what has been written, is queued or has been lost. -/
structure Accounted (failures : Failures) (changes lost : List Change) (run : Run) : Prop where
  changed : run.counts.changed = run.stored.length + run.pending.length
  appended : run.counts.appended = weight run.stored + weight run.pending + weight lost
  scanned : run.counts.scanned = run.counts.changed + run.counts.unchangedNoDiscoveries +
    run.counts.unchangedAlreadyCurrent + run.counts.unchangedOverflow + run.counts.errors
  stored : (run.stored ++ run.pending).Sublist changes
  lost_iff : ∀ change, change ∈ lost ↔ ∃ number index, number < run.batches ∧
    LosesAt failures changes number index change

/-- The queue holds what has come since the last full batch. -/
structure Queued (changes : List Change) (run : Run) : Prop where
  split : ∃ front, changes = front ++ run.pending ∧ front.length = batchSize * run.batches
  short : run.pending.length < batchSize

theorem queued_start : Queued [] .start := ⟨⟨[], rfl, rfl⟩, by decide⟩

theorem accounted_start (failures : Failures) : Accounted failures [] [] .start where
  changed := rfl
  appended := rfl
  scanned := rfl
  stored := .slnil
  lost_iff change := by simp [Run.start]

/-- One more change at the end of the queue moves none of the earlier ones. -/
theorem losesAt_concat {number index : ℕ} (hnumber : batchSize * number + index < changes.length)
    (other : Change) : LosesAt failures (changes ++ [other]) number index change ↔
      LosesAt failures changes number index change := by
  rw [LosesAt, LosesAt, List.getElem?_append_left hnumber]

theorem Queued.lt_length (h : Queued changes run) {number index : ℕ}
    (hnumber : number < run.batches) (hindex : index < batchSize) :
    batchSize * number + index < changes.length := by
  obtain ⟨front, hfront, hlength⟩ := h.split
  have hle : batchSize * (number + 1) ≤ batchSize * run.batches := Nat.mul_le_mul_left _ hnumber
  rw [hfront, List.length_append, hlength]
  rw [Nat.mul_succ] at hle
  omega

/-- A change is counted and queued. -/
theorem Accounted.push (h : Accounted failures changes lost run) (hqueue : Queued changes run)
    (change : Change) :
    Accounted failures (changes ++ [change]) lost { run with
      counts := { run.counts with
        scanned := run.counts.scanned + 1
        changed := run.counts.changed + 1
        appended := run.counts.appended + change.appended.length }
      pending := run.pending ++ [change] } where
  changed := by
    have hchanged := h.changed
    simp only [List.length_append, List.length_singleton]
    omega
  appended := by
    have happended := h.appended
    simp only [weight_append, weight_cons, weight_nil]
    omega
  scanned := by
    have hscanned := h.scanned
    dsimp only
    omega
  stored := by
    rw [← List.append_assoc]
    exact h.stored.append (.refl _)
  lost_iff other := by
    rw [h.lost_iff other]
    refine exists_congr fun number => exists_congr fun index => and_congr_right fun hnumber => ?_
    constructor
    · intro hlose
      exact (losesAt_concat (hqueue.lt_length hnumber hlose.2.1) change).mpr hlose
    · intro hlose
      exact (losesAt_concat (hqueue.lt_length hnumber hlose.2.1) change).mp hlose

/-- The queue is flushed. -/
theorem Accounted.flush (h : Accounted failures changes lost run) {front : List Change}
    (hfront : changes = front ++ run.pending) (hfrontlen : front.length = batchSize * run.batches)
    (hlength : run.pending.length ≤ batchSize) :
    ∃ lost', Accounted failures changes lost'
      { flushBatch failures run.pending run with pending := [] } := by
  obtain ⟨hkept, hweight⟩ := keptOf_lostOf failures run.batches run.pending
  refine ⟨lost ++ lostOf failures run.batches run.pending, ?_⟩
  rw [flushBatch_eq]
  refine ⟨?_, ?_, ?_, ?_, ?_⟩
  · have hchanged := h.changed
    simp only [List.length_append, List.length_nil]
    omega
  · have happended := h.appended
    simp only [weight_append, weight_nil]
    omega
  · have hscanned := h.scanned
    dsimp only
    omega
  · rw [List.append_nil]
    exact ((List.Sublist.refl _).append (keptOf_sublist _ _)).trans h.stored
  · intro change
    have hlast : (∃ index, LosesAt failures changes run.batches index change) ↔
        change ∈ lostOf failures run.batches run.pending := by
      rw [mem_lostOf_iff]
      refine exists_congr fun index => ?_
      have hget : changes[batchSize * run.batches + index]? = run.pending[index]? := by
        rw [hfront, ← hfrontlen, List.getElem?_append_right (Nat.le_add_right _ _),
          Nat.add_sub_cancel_left]
      rw [LosesAt, hget]
      refine and_congr_right fun hindex => ?_
      have hlt := (List.getElem?_eq_some_iff.mp hindex).1
      simp [hlt.trans_le hlength]
    rw [List.mem_append, h.lost_iff, ← hlast]
    by_cases hempty : run.pending = []
    · rw [if_pos hempty, or_iff_left]
      rw [hlast, hempty, mem_lostOf_iff]
      simp
    · rw [if_neg hempty]
      constructor
      · rintro (⟨number, index, hnumber, hlose⟩ | ⟨index, hlose⟩)
        · exact ⟨number, index, Nat.lt_succ_of_lt hnumber, hlose⟩
        · exact ⟨run.batches, index, Nat.lt_succ_self _, hlose⟩
      · rintro ⟨number, index, hnumber, hlose⟩
        rcases Nat.lt_succ_iff_lt_or_eq.mp hnumber with hnumber | rfl
        · exact .inl ⟨number, index, hnumber, hlose⟩
        · exact .inr ⟨index, hlose⟩

/-- Counters other than those of the writes leave the account alone. -/
theorem Accounted.count (h : Accounted failures changes lost run) {counts : Counts}
    (hchanged : counts.changed = run.counts.changed)
    (happended : counts.appended = run.counts.appended)
    (hscanned : counts.scanned = counts.changed + counts.unchangedNoDiscoveries +
      counts.unchangedAlreadyCurrent + counts.unchangedOverflow + counts.errors) :
    Accounted failures changes lost { run with counts := counts } where
  changed := hchanged.trans h.changed
  appended := happended.trans h.appended
  scanned := hscanned
  stored := h.stored
  lost_iff := h.lost_iff

theorem enqueue_queued (h : Accounted failures changes lost run) (hqueue : Queued changes run)
    (change : Change) :
    ∃ lost', Accounted failures (changes ++ [change]) lost'
        (enqueue true failures change { run with counts := { run.counts with
          scanned := run.counts.scanned + 1
          changed := run.counts.changed + 1
          appended := run.counts.appended + change.appended.length } }) ∧
      Queued (changes ++ [change])
        (enqueue true failures change { run with counts := { run.counts with
          scanned := run.counts.scanned + 1
          changed := run.counts.changed + 1
          appended := run.counts.appended + change.appended.length } }) := by
  have hpush := h.push hqueue change
  obtain ⟨⟨front, hfront, hfrontlen⟩, hshort⟩ := hqueue
  have hsplit : changes ++ [change] = front ++ (run.pending ++ [change]) := by
    rw [hfront, List.append_assoc]
  simp only [enqueue, ↓reduceIte]
  split_ifs with hfull
  · have hlength : (run.pending ++ [change]).length = batchSize := by
      rw [List.length_append, List.length_singleton] at hfull ⊢
      omega
    obtain ⟨lost', hlost'⟩ := hpush.flush hsplit hfrontlen hlength.le
    refine ⟨lost', hlost', ⟨⟨changes ++ [change], by simp, ?_⟩, Nat.succ_pos 199⟩⟩
    rw [hsplit, List.length_append, hfrontlen, hlength, flushBatch_eq]
    simp [Nat.mul_succ]
  · exact ⟨lost, hpush, ⟨⟨front, hsplit, hfrontlen⟩, Nat.not_le.mp hfull⟩⟩

section Report

variable (casefold : Text → Text) (isWord : CodePoint → Bool) (known : List Text)
  (maxLength : ℕ)

/-- What the rows ask to be written. -/
def changesOf (rows : List TrackRow) : List Change :=
  (rows.filter (TrackRow.changes casefold isWord known maxLength)).map
    (TrackRow.change casefold isWord known maxLength)

theorem Queued.of_pending {run' : Run} (h : Queued changes run)
    (hpending : run'.pending = run.pending) (hbatches : run'.batches = run.batches) :
    Queued changes run' := by
  obtain ⟨hsplit, hshort⟩ := h
  rw [← hpending] at hsplit hshort
  rw [← hbatches] at hsplit
  exact ⟨hsplit, hshort⟩

/-- One turn of the loop keeps the account. -/
theorem processRow_accounted (h : Accounted failures changes lost run) (hqueue : Queued changes run)
    (row : TrackRow) :
    ∃ lost', Accounted failures (changes ++ changesOf casefold isWord known maxLength [row]) lost'
        (processRow casefold isWord known maxLength true failures run row) ∧
      Queued (changes ++ changesOf casefold isWord known maxLength [row])
        (processRow casefold isWord known maxLength true failures run row) := by
  have hscanned := h.scanned
  by_cases hfound : row.discovered casefold isWord known = []
  · have hnone : changesOf casefold isWord known maxLength [row] = [] := by
      simp [changesOf, TrackRow.changes, hfound]
    rw [hnone, List.append_nil, processRow, if_pos hfound]
    refine ⟨lost, h.count rfl rfl ?_, hqueue.of_pending rfl rfl⟩
    dsimp only
    omega
  · by_cases hsame : (row.change casefold isWord known maxLength).value = row.before casefold
    · have hnone : changesOf casefold isWord known maxLength [row] = [] := by
        simp [changesOf, TrackRow.changes, hsame]
      rw [hnone, List.append_nil, processRow, if_neg hfound]
      dsimp only
      rw [if_pos hsame]
      split_ifs
      · refine ⟨lost, h.count rfl rfl ?_, hqueue.of_pending rfl rfl⟩
        dsimp only
        omega
      · refine ⟨lost, h.count rfl rfl ?_, hqueue.of_pending rfl rfl⟩
        dsimp only
        omega
    · have hone : changesOf casefold isWord known maxLength [row] =
          [row.change casefold isWord known maxLength] := by
        simp [changesOf, TrackRow.changes, hfound, hsame]
      have hskipped : Accounted failures changes lost { run with counts := { run.counts with
          overflowSkipped := run.counts.overflowSkipped +
            (row.merged casefold isWord known maxLength).skipped.length } } :=
        h.count rfl rfl hscanned
      obtain ⟨lost', hlost', hqueue'⟩ := enqueue_queued hskipped (hqueue.of_pending rfl rfl)
        (row.change casefold isWord known maxLength)
      rw [hone, processRow, if_neg hfound]
      dsimp only
      rw [if_neg hsame]
      split_ifs
      · exact ⟨lost', ⟨hlost'.changed, hlost'.appended, hlost'.scanned, hlost'.stored,
          hlost'.lost_iff⟩, hqueue'.of_pending rfl rfl⟩
      · exact ⟨lost', hlost', hqueue'⟩

theorem changesOf_append (first second : List TrackRow) :
    changesOf casefold isWord known maxLength (first ++ second) =
      changesOf casefold isWord known maxLength first ++
        changesOf casefold isWord known maxLength second := by
  simp [changesOf]

theorem loop_accounted (h : Accounted failures changes lost run) (hqueue : Queued changes run)
    (rows : List TrackRow) :
    ∃ lost', Accounted failures (changes ++ changesOf casefold isWord known maxLength rows) lost'
        (rows.foldl (processRow casefold isWord known maxLength true failures) run) ∧
      Queued (changes ++ changesOf casefold isWord known maxLength rows)
        (rows.foldl (processRow casefold isWord known maxLength true failures) run) := by
  induction rows generalizing changes lost run with
  | nil => exact ⟨lost, by simpa [changesOf] using h, by simpa [changesOf] using hqueue⟩
  | cons row rows ih =>
    obtain ⟨lost', hrow, hrowqueue⟩ := processRow_accounted casefold isWord known maxLength h
      hqueue row
    have hrest := ih hrow hrowqueue
    rw [List.append_assoc, ← changesOf_append] at hrest
    exact hrest

/-- The report of a run against what the run has written. -/
structure Matches (changes : List Change) (run : Run) : Prop where
  changed : run.counts.changed = run.stored.length
  appended : run.counts.appended = weight run.stored
  scanned : run.counts.scanned = run.counts.changed + run.counts.unchangedNoDiscoveries +
    run.counts.unchangedAlreadyCurrent + run.counts.unchangedOverflow + run.counts.errors
  written : run.stored.Sublist changes

/-- What the last flush leaves: the writes, and the changes that have been lost. -/
theorem autofill_accounted (failures : Failures) (rows : List TrackRow) :
    ∃ lost, Accounted failures (changesOf casefold isWord known maxLength rows) lost
        { autofillRelatedArtistsForQueryset casefold isWord known maxLength true failures rows with
          pending := [] } ∧
      ∀ change, change ∈ lost ↔ ∃ number index,
        LosesAt failures (changesOf casefold isWord known maxLength rows) number index change := by
  obtain ⟨lost, hloop, ⟨front, hfront, hfrontlen⟩, hshort⟩ := loop_accounted casefold isWord known
    maxLength (accounted_start failures) queued_start rows
  rw [List.nil_append] at hloop hfront
  obtain ⟨lost', hflush⟩ := hloop.flush hfront hfrontlen hshort.le
  refine ⟨lost', hflush, fun change => ?_⟩
  rw [hflush.lost_iff change]
  refine exists_congr fun number => exists_congr fun index => and_iff_right_of_imp fun hlose => ?_
  have hlt := (List.getElem?_eq_some_iff.mp hlose.1).1
  rw [hfront, List.length_append, hfrontlen] at hlt
  rw [flushBatch_eq]
  dsimp only
  -- a number past the last batch would stand behind the last change
  by_contra hle
  split_ifs at hle with hempty
  · rw [hempty, List.length_nil] at hlt
    have hmul := Nat.mul_le_mul_left batchSize (Nat.not_lt.mp hle)
    omega
  · have hmul := Nat.mul_le_mul_left batchSize (Nat.not_lt.mp hle)
    rw [Nat.mul_succ] at hmul
    omega

/-- The report matches the writes exactly where no row that adds names is lost. -/
theorem report_matches_iff (failures : Failures) (rows : List TrackRow) :
    Matches (changesOf casefold isWord known maxLength rows)
        (autofillRelatedArtistsForQueryset casefold isWord known maxLength true failures rows) ↔
      ∀ number index change,
        LosesAt failures (changesOf casefold isWord known maxLength rows) number index change →
        change.appended = [] := by
  obtain ⟨lost, h, hlost⟩ := autofill_accounted casefold isWord known maxLength failures
    rows
  have happended := h.appended
  have hchanged := h.changed
  have hstored := h.stored
  simp only [weight_nil, List.append_nil, List.length_nil] at happended hchanged hstored
  have hzero : (∀ number index change,
      LosesAt failures (changesOf casefold isWord known maxLength rows) number index change →
        change.appended = []) ↔ weight lost = 0 := by
    rw [weight_eq_zero_iff]
    constructor
    · intro hnone change hmem
      obtain ⟨number, index, hlose⟩ := (hlost change).mp hmem
      exact hnone number index change hlose
    · intro hnone number index change hlose
      exact hnone change ((hlost change).mpr ⟨number, index, hlose⟩)
  rw [hzero]
  constructor
  · intro hmatches
    have hreport := hmatches.appended
    omega
  · intro hnone
    exact ⟨by omega, by omega, h.scanned, hstored⟩

end Report

/-- A row that can be written neither with its batch nor alone still counts its names. -/
theorem lost_row_keeps_its_names :
    ¬ Matches (changesOf asciiCasefold asciiWord [] 500
        [⟨1, none, some (codePoints "Abe feat. Bo"), none⟩])
      (autofillRelatedArtistsForQueryset asciiCasefold asciiWord [] 500 true
        ⟨fun _ => true, fun _ _ => true⟩ [⟨1, none, some (codePoints "Abe feat. Bo"), none⟩]) := by
  intro h
  have hreport : ¬ (autofillRelatedArtistsForQueryset asciiCasefold asciiWord [] 500 true
      ⟨fun _ => true, fun _ _ => true⟩
      [⟨1, none, some (codePoints "Abe feat. Bo"), none⟩]).counts.appended = 0 := by decide +kernel
  have hstored : (autofillRelatedArtistsForQueryset asciiCasefold asciiWord [] 500 true
      ⟨fun _ => true, fun _ _ => true⟩
      [⟨1, none, some (codePoints "Abe feat. Bo"), none⟩]).stored = [] := by decide +kernel
  have happended := h.appended
  rw [hstored] at happended
  exact hreport happended

end IsadoraAir.RelatedArtists
