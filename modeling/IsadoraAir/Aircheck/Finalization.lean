import IsadoraAir.Foundation.Runs
import Mathlib.Data.List.Nodup

/-!
# Finalizing a stopped session

The committed segments of a session are concatenated, validated, published
under the destination name and then deleted one by one. An attempt may raise at
any operation or die between two of them; a later one starts from whatever
files it finds. Attempts for one session run one after the other.
-/

namespace IsadoraAir.Aircheck

open Runs

variable {α : Type} {segments : List (ℕ × List α)}

inductive ExitNote where
  | clear
  | pending
  | failed
  deriving DecidableEq, Repr

/-- Who starts an attempt: the worker of Stop, routine maintenance, or an
operator. -/
inductive Caller where
  | worker
  | automatic
  | manual
  deriving DecidableEq, Repr

/-- The next operation of an attempt, with the segments it has discovered. -/
inductive Stage where
  | recheck
  | writeManifest (segments : List ℕ)
  | clearPartial (segments : List ℕ)
  | concat (segments : List ℕ)
  | validate (segments : List ℕ)
  | publish (segments : List ℕ)
  | deleting (deleted remaining : List ℕ)
  | tidy
  | recordSuccess
  | markFailed
  deriving DecidableEq, Repr

/-- The files of a stopped session and the attempt in progress. A segment is its
sequence number and its samples; the list is in sequence order. -/
structure Session (α : Type) where
  segments : List (ℕ × List α)
  dest : Option (List α)
  partialDest : Option (List α)
  exitNote : ExitNote
  stage : Option Stage

/-- An operation of the attempt succeeds or raises; an ffmpeg that fails leaves
what it has written so far. -/
inductive FinalizeEvent (α : Type) where
  | attempt (caller : Caller)
  | proceed
  | raises (leftover : Option (List α))
  | crash

namespace Session

/-- `_discover_segments` -/
def discoverSegments (s : Session α) : List ℕ := s.segments.map Prod.fst

/-- What ffmpeg reads for a segment of the manifest. -/
def samples (segments : List (ℕ × List α)) (sequence : ℕ) : Option (List α) :=
  (segments.find? fun x => x.1 = sequence).map Prod.snd

/-- The audio of all segments of the manifest, if all of them can be read. -/
def concatenate (segments : List (ℕ × List α)) : List ℕ → Option (List α)
  | [] => some []
  | sequence :: rest =>
    (samples segments sequence).bind fun audio =>
      (concatenate segments rest).map fun tail => audio ++ tail

/-- The start of `_finalize_segment_set`. -/
def beginFinalize (s : Session α) : Session α :=
  if s.discoverSegments = [] then { s with stage := some .markFailed }
  else { s with stage := some (.writeManifest s.discoverSegments) }

/-- `_retry_one_pending_session` up to its first file operation. -/
def beginRetry (s : Session α) : Session α :=
  if s.discoverSegments = [] ∧ s.dest.isSome then { s with stage := some .recheck }
  else s.beginFinalize

def attempt (s : Session α) (caller : Caller) : Session α :=
  match s.stage, caller with
  | some _, _ => s
  | none, .worker => s.beginFinalize
  | none, .automatic => if s.exitNote = .pending then s.beginRetry else s
  | none, .manual => if s.discoverSegments = [] ∧ s.dest.isNone then s else s.beginRetry

def proceed (s : Session α) : Session α :=
  match s.stage with
  | none => s
  | some .recheck => { s with stage := some .recordSuccess }
  | some (.writeManifest segments) => { s with stage := some (.clearPartial segments) }
  | some (.clearPartial segments) =>
    { s with partialDest := none, stage := some (.concat segments) }
  | some (.concat segments) =>
    match concatenate s.segments segments with
    | some audio => { s with partialDest := some audio, stage := some (.validate segments) }
    | none => { s with stage := some .markFailed }
  | some (.validate segments) => { s with stage := some (.publish segments) }
  | some (.publish segments) =>
    match s.partialDest with
    | some audio =>
      { s with dest := some audio, partialDest := none, stage := some (.deleting [] segments) }
    | none => { s with stage := some .markFailed }
  | some (.deleting deleted (sequence :: remaining)) =>
    { s with
      segments := s.segments.filter fun x => x.1 ≠ sequence
      stage := some (.deleting (deleted ++ [sequence]) remaining) }
  | some (.deleting _ []) => { s with stage := some .tidy }
  | some .tidy => { s with stage := some .recordSuccess }
  | some .recordSuccess => { s with exitNote := .clear, stage := none }
  | some .markFailed => { s with exitNote := .failed, stage := none }

def raises (s : Session α) (leftover : Option (List α)) : Session α :=
  match s.stage with
  | none => s
  | some .recheck => s.beginFinalize
  | some (.concat _) => { s with partialDest := leftover, stage := some .markFailed }
  | some .recordSuccess => { s with stage := none }
  | some .markFailed => { s with stage := none }
  | some _ => { s with stage := some .markFailed }

def step : FinalizeEvent α → Session α → Session α
  | .attempt caller, s => s.attempt caller
  | .proceed, s => s.proceed
  | .raises leftover, s => s.raises leftover
  | .crash, s => { s with stage := none }

/-! ## What is on disk during an attempt -/

/-- The audio of a set of segments in sequence order. -/
def audio (segments : List (ℕ × List α)) : List α := (segments.map Prod.snd).flatten

theorem samples_of_mem (hnodup : (segments.map Prod.fst).Nodup)
    {x : ℕ × List α} (hx : x ∈ segments) : samples segments x.1 = some x.2 := by
  induction segments with
  | nil => cases hx
  | cons y rest ih =>
    obtain ⟨hy, hrest⟩ := List.nodup_cons.mp hnodup
    rcases List.mem_cons.mp hx with rfl | hx
    · simp [samples]
    · have hne : y.1 ≠ x.1 := by
        intro h
        apply hy
        rw [h]
        exact List.mem_map_of_mem hx
      rw [← ih hrest hx]
      simp [samples, hne]

theorem concatenate_sublist (hnodup : (segments.map Prod.fst).Nodup)
    {part : List (ℕ × List α)} (hpart : ∀ x ∈ part, x ∈ segments) :
    concatenate segments (part.map Prod.fst) = some (audio part) := by
  induction part with
  | nil => rfl
  | cons x rest ih =>
    obtain ⟨hx, hrest⟩ := List.forall_mem_cons.mp hpart
    simp [concatenate, samples_of_mem hnodup hx, ih hrest, audio]

/-- All segments in order are exactly what ffmpeg concatenates. -/
theorem concatenate_all (hnodup : (segments.map Prod.fst).Nodup) :
    concatenate segments (segments.map Prod.fst) = some (audio segments) :=
  concatenate_sublist hnodup fun _ hx => hx

/-- Deleting the first segment leaves the others. -/
theorem filter_head {sequence : ℕ} {remaining : List ℕ}
    (hmap : segments.map Prod.fst = sequence :: remaining)
    (hnodup : (sequence :: remaining).Nodup) :
    (segments.filter fun x => x.1 ≠ sequence).map Prod.fst = remaining := by
  obtain ⟨hnew, -⟩ := List.nodup_cons.mp hnodup
  cases segments with
  | nil => cases hmap
  | cons x rest =>
    obtain ⟨rfl, rfl⟩ := List.cons.inj hmap
    have hkeep : rest.filter (fun y => y.1 ≠ x.1) = rest := by
      apply List.filter_eq_self.mpr
      intro y hy
      have hne : y.1 ≠ x.1 := fun h => hnew (h ▸ List.mem_map_of_mem hy)
      simpa using hne
    have hhead : (x :: rest).filter (fun y => y.1 ≠ x.1) = rest.filter fun y => y.1 ≠ x.1 := by
      simp
    rw [hhead, hkeep]

/-! ## No audio is lost -/

/-- All committed segments are on disk, or none is and the destination holds
their audio. -/
def Whole (committed : List (ℕ × List α)) (s : Session α) : Prop :=
  s.segments = committed ∨ (s.segments = [] ∧ s.dest = some (audio committed))

/-- What holds before each operation of an attempt. -/
def Safe (committed : List (ℕ × List α)) (s : Session α) : Prop :=
  match s.stage with
  | some (.writeManifest segments) =>
    s.segments = committed ∧ segments = committed.map Prod.fst
  | some (.clearPartial segments) => s.segments = committed ∧ segments = committed.map Prod.fst
  | some (.concat segments) => s.segments = committed ∧ segments = committed.map Prod.fst
  | some (.validate segments) => s.segments = committed ∧ segments = committed.map Prod.fst ∧
    s.partialDest = some (audio committed)
  | some (.publish segments) => s.segments = committed ∧ segments = committed.map Prod.fst ∧
    s.partialDest = some (audio committed)
  | some (.deleting deleted remaining) => s.dest = some (audio committed) ∧
    s.segments.map Prod.fst = remaining ∧ remaining.Nodup ∧ (deleted = [] → s.segments = committed)
  | _ => s.Whole committed

variable {committed : List (ℕ × List α)} {s : Session α}

theorem Safe.kept (h : s.Safe committed) :
    s.segments = committed ∨ s.dest = some (audio committed) := by
  unfold Safe at h
  split at h
  · exact .inl h.1
  · exact .inl h.1
  · exact .inl h.1
  · exact .inl h.1
  · exact .inl h.1
  · exact .inr h.1
  · exact h.imp_right And.right

/-- An attempt stops after deleting a segment only when it has deleted all. -/
def DeletesAll (event : FinalizeEvent α) (s : Session α) : Prop :=
  ∀ deleted remaining, s.stage = some (.deleting deleted remaining) →
    (event = .crash ∨ ∃ leftover, event = .raises leftover) → deleted = [] ∨ remaining = []

/-- Where an attempt stops the session is whole. -/
theorem Safe.whole (h : s.Safe committed)
    (hall : ∀ deleted remaining, s.stage = some (.deleting deleted remaining) →
      deleted = [] ∨ remaining = []) : s.Whole committed := by
  unfold Safe at h
  split at h
  · exact .inl h.1
  · exact .inl h.1
  · exact .inl h.1
  · exact .inl h.1
  · exact .inl h.1
  · next deleted remaining hstage =>
    obtain ⟨hdest, hmap, -, hfirst⟩ := h
    rcases hall deleted remaining hstage with hnone | hnone
    · exact .inl (hfirst hnone)
    · rw [hnone] at hmap
      exact .inr ⟨List.map_eq_nil_iff.mp hmap, hdest⟩
  · exact h

theorem Whole.beginFinalize (h : s.Whole committed) : s.beginFinalize.Safe committed := by
  unfold Session.beginFinalize
  split_ifs with hempty
  · exact h
  · refine ⟨?_, ?_⟩
    · rcases h with h | ⟨hnone, -⟩
      · exact h
      · exact absurd (by rw [discoverSegments, hnone]; rfl) hempty
    · rcases h with h | ⟨hnone, -⟩
      · show s.segments.map Prod.fst = _
        rw [h]
      · exact absurd (by rw [discoverSegments, hnone]; rfl) hempty

theorem Whole.beginRetry (h : s.Whole committed) : s.beginRetry.Safe committed := by
  unfold Session.beginRetry
  split_ifs
  · exact h
  · exact h.beginFinalize

theorem attempt_safe (caller : Caller) (h : s.Safe committed) : (s.attempt caller).Safe committed := by
  unfold attempt
  split
  · exact h
  · next hstage => exact (h.whole fun _ _ hd => absurd (hstage.symm.trans hd) nofun).beginFinalize
  · next hstage =>
    split_ifs
    · exact (h.whole fun _ _ hd => absurd (hstage.symm.trans hd) nofun).beginRetry
    · exact h
  · next hstage =>
    split_ifs
    · exact h
    · exact (h.whole fun _ _ hd => absurd (hstage.symm.trans hd) nofun).beginRetry

/-- Each operation that succeeds keeps the files safe. -/
theorem proceed_safe (hnodup : (committed.map Prod.fst).Nodup) (h : s.Safe committed) :
    s.proceed.Safe committed := by
  obtain ⟨segments, dest, partialDest, exitNote, stage⟩ := s
  cases stage with
  | none => exact h
  | some stage =>
    cases stage with
    | recheck => exact h
    | writeManifest found => exact h
    | clearPartial found => exact h
    | concat found =>
      obtain ⟨hsegments, hfound⟩ : segments = committed ∧ found = committed.map Prod.fst := h
      subst hsegments hfound
      unfold proceed
      dsimp only
      rw [concatenate_all hnodup]
      exact ⟨rfl, rfl, rfl⟩
    | validate found => exact h
    | publish found =>
      obtain ⟨hsegments, hfound, hshort⟩ : segments = committed ∧
        found = committed.map Prod.fst ∧ partialDest = some (audio committed) := h
      subst hsegments hfound hshort
      exact ⟨rfl, rfl, hnodup, fun _ => rfl⟩
    | deleting deleted remaining =>
      obtain ⟨hdest, hmap, hremaining, hfirst⟩ : dest = some (audio committed) ∧
        segments.map Prod.fst = remaining ∧ remaining.Nodup ∧
          (deleted = [] → segments = committed) := h
      cases remaining with
      | nil => exact .inr ⟨List.map_eq_nil_iff.mp hmap, hdest⟩
      | cons sequence remaining =>
        have hrest := filter_head hmap hremaining
        refine ⟨hdest, hrest, (List.nodup_cons.mp hremaining).2, fun hdeleted => ?_⟩
        exact absurd hdeleted (by simp)
    | tidy => exact h
    | recordSuccess => exact h
    | markFailed => exact h

/-- An operation that raises leaves the session whole, unless it was a deletion
after the first one. -/
theorem raises_safe (leftover : Option (List α)) (h : s.Safe committed)
    (hall : DeletesAll (.raises leftover) s) : (s.raises leftover).Safe committed := by
  have hwhole : s.Whole committed :=
    h.whole fun deleted remaining hd => hall deleted remaining hd (.inr ⟨leftover, rfl⟩)
  obtain ⟨segments, dest, partialDest, exitNote, stage⟩ := s
  cases stage with
  | none => exact h
  | some stage =>
    cases stage with
    | recheck => exact hwhole.beginFinalize
    | _ => exact hwhole

theorem step_safe (hnodup : (committed.map Prod.fst).Nodup) (event : FinalizeEvent α)
    (s : Session α) (hall : DeletesAll event s) (h : s.Safe committed) :
    (step event s).Safe committed := by
  cases event with
  | attempt caller => exact attempt_safe caller h
  | proceed => exact proceed_safe hnodup h
  | raises leftover => exact raises_safe leftover h hall
  | crash => exact h.whole fun deleted remaining hd => hall deleted remaining hd (.inl rfl)

theorem beginFinalize_dest (s : Session α) : s.beginFinalize.dest = s.dest := by
  unfold beginFinalize
  split_ifs <;> rfl

theorem attempt_dest (s : Session α) (caller : Caller) : (s.attempt caller).dest = s.dest := by
  have hretry : s.beginRetry.dest = s.dest := by
    unfold beginRetry
    split_ifs
    · rfl
    · exact beginFinalize_dest s
  unfold attempt
  split
  · rfl
  · exact beginFinalize_dest s
  · split_ifs
    · exact hretry
    · rfl
  · split_ifs
    · rfl
    · exact hretry

/-- Only complete audio is published. -/
theorem step_dest (event : FinalizeEvent α) (h : s.Safe committed) :
    (step event s).dest = s.dest ∨ (step event s).dest = some (audio committed) := by
  cases event with
  | attempt caller => exact .inl (attempt_dest s caller)
  | proceed =>
    obtain ⟨segments, dest, partialDest, exitNote, stage⟩ := s
    cases stage with
    | none => exact .inl rfl
    | some stage =>
      cases stage with
      | concat found =>
        refine .inl ?_
        show (proceed _).dest = dest
        unfold proceed
        dsimp only
        split <;> rfl
      | publish found =>
        obtain ⟨-, -, hshort⟩ : segments = committed ∧ found = committed.map Prod.fst ∧
          partialDest = some (audio committed) := h
        subst hshort
        exact .inr rfl
      | deleting deleted remaining => cases remaining <;> exact .inl rfl
      | _ => exact .inl rfl
  | raises leftover =>
    refine .inl ?_
    obtain ⟨segments, dest, partialDest, exitNote, stage⟩ := s
    cases stage with
    | none => rfl
    | some stage =>
      cases stage with
      | recheck => exact beginFinalize_dest _
      | _ => rfl
  | crash => exact .inl rfl

/-- After the step all committed segments are on disk or the destination holds
their audio, and a complete destination stays complete. -/
def KeepsAudio (committed : List (ℕ × List α)) (event : FinalizeEvent α) (s : Session α) : Prop :=
  ((step event s).segments = committed ∨ (step event s).dest = some (audio committed)) ∧
    (s.dest = some (audio committed) → (step event s).dest = some (audio committed))

/-- A session of two segments, handed to its worker. -/
def sampleSession : Session ℕ := ⟨[(1, [10, 11]), (2, [20])], none, none, .pending, none⟩

/-- An attempt up to its first deletion. -/
def publication (caller : Caller) : List (FinalizeEvent ℕ) :=
  [.attempt caller, .proceed, .proceed, .proceed, .proceed, .proceed]

end Session

end IsadoraAir.Aircheck
