import IsadoraAir.Aircheck.Recording
import Mathlib.Data.List.MinMax
import Mathlib.Order.Nat

/-!
# The cut protocol

Each part of the service takes a recording from one phase to another, whatever
the recording process does meanwhile, and leaves a recording wherever it can be
abandoned. Whole runs follow, as long as no reopen comes too late.
-/

namespace IsadoraAir.Aircheck.Recorder

open RecorderState Relation Runs
open Routine (Safe)

variable {a : Action} {key : Key} {q : ℕ} {p : Phase} {session : Session} {s : State} {b c : ℕ}
  {d d' : RecorderState} {id since n : ℕ} {ps : List Phase} {β : Type}
  {Q : Except SegmentError β → RecorderState → Prop} {f : a.Result → Program β}

/-- An action, together with what the operating system and the other end let
happen; a file that is restored finds the working path free. -/
def service : Routine.Setting Action.Result RecorderState where
  exec a d r d' := ∃ ok, (∀ key, a = .restore key → ok = true → d.working = none) ∧
    d.perform ok a = (r, d')
  others := Others
  invariant d := Rest d ∨ Stopping d

/-- A recording in one of the phases. -/
def InPhase (id since n : ℕ) (ps : List Phase) (d : RecorderState) : Prop :=
  ∃ b, ∃ p ∈ ps, Recording d id since n b p

theorem InPhase.rest (h : InPhase id since n ps d) : Rest d := by
  obtain ⟨b, p, -, h⟩ := h
  exact .inr ⟨id, since, n, b, p, h⟩

theorem InPhase.mono {qs : List Phase} (h : InPhase id since n ps d) (hsub : ps ⊆ qs) :
    InPhase id since n qs d := by
  obtain ⟨b, p, hp, h⟩ := h
  exact ⟨b, p, hsub hp, h⟩

/-- The recording process only ever takes a live handoff to a closed one. -/
theorem InPhase.stable (hps : .live ∈ ps → .closed ∈ ps) :
    service.Stable (InPhase id since n ps) := by
  rintro d d' ⟨b, p, hp, h⟩ hstep
  obtain ⟨p', rfl | ⟨rfl, rfl⟩, h'⟩ := h.others hstep
  · exact ⟨b, p', hp, h'⟩
  · exact ⟨b, .closed, hps hp, h'⟩

/-- All phases. -/
def phases : List Phase := [.whole, .duplicate, .closed, .live]

theorem Recording.inPhases (h : Recording d id since n b p) : InPhase id since n phases d :=
  ⟨b, p, by cases p <;> simp [phases], h⟩

/-- What a part of the service that fails leaves behind, and what one that succeeds does. -/
def Ends (Q : β → RecorderState → Prop) : Except SegmentError β → RecorderState → Prop
  | .ok x, d => Q x d
  | .error _, d => Rest d

/-- An action that is taken in one of the phases. -/
theorem safe_inPhase (h : InPhase id since n ps d) (hps : .live ∈ ps → .closed ∈ ps)
    (hnext : ∀ d b p, p ∈ ps → Recording d id since n b p → ∀ ok,
      (∀ key, a = .restore key → ok = true → d.working = none) →
      Safe service (f (d.perform ok a).1) (d.perform ok a).2 Q) :
    Safe service (perform a >>= f) d Q := by
  apply Safe.perform_bind h (InPhase.stable hps) fun d hd => .inl hd.rest
  rintro d r d' ⟨b, p, hp, hd⟩ ⟨ok, hrestore, heq⟩
  have hsafe := hnext d b p hp hd ok hrestore
  rw [heq] at hsafe
  exact hsafe

theorem safe_bind_ends {m : Program α} {f : α → Program β} {R : α → RecorderState → Prop}
    {Q : β → RecorderState → Prop} (hm : Safe service m d (Ends R))
    (hnext : ∀ x d, R x d → Safe service (f x) d (Ends Q)) :
    Safe service (m >>= f) d (Ends Q) :=
  hm.bind hnext fun _ _ h => h

theorem perform_workingSize (d : RecorderState) (ok : Bool) :
    (d.perform ok .workingSize).2 = d := by
  simp only [RecorderState.perform]
  split <;> rfl

/-! ## The copy -/

/-- A copy that was committed before it was interrupted. -/
theorem commitHandoff_of_duplicate (h : InPhase id since n [.duplicate] d) :
    Safe service (commitHandoff ⟨id, n⟩) d (Ends fun _ => InPhase id since n [.whole]) := by
  unfold commitHandoff
  apply safe_inPhase h (by simp)
  intro d b p hp hd ok _
  obtain rfl := List.mem_singleton.mp hp
  have hsegment : (d.segments.lookup ⟨id, n⟩).isSome = true := by
    rw [hd.segmentExists n]
    exact decide_eq_true ⟨hd.one_le_of_duplicate, le_rfl⟩
  simp only [RecorderState.perform, hsegment, if_true]
  apply safe_inPhase ⟨b, _, hp, hd⟩ (by simp)
  intro d b p hp hd ok _
  obtain rfl := List.mem_singleton.mp hp
  obtain ⟨-, -, i, hi, -, haudio⟩ := hd.phase
  simp only [RecorderState.perform, hi, haudio, decide_true]
  cases ok with
  | false => exact .raise hd.rest
  | true =>
    apply safe_inPhase ⟨b, _, hp, hd⟩ (by simp)
    intro d b p hp hd ok _
    obtain rfl := List.mem_singleton.mp hp
    cases ok with
    | false => exact .raise hd.rest
    | true => exact .pure ⟨b, _, List.mem_singleton_self _, hd.unlink⟩

/-- The closed handoff, with its copy ready to be published. -/
def Copied (id since n : ℕ) (d : RecorderState) : Prop :=
  InPhase id since n [.closed] d ∧ ∃ i, d.handoffs.lookup ⟨id, n + 1⟩ = some i ∧
    d.partials.lookup ⟨id, n + 1⟩ = some (d.content i)

theorem Copied.stable : service.Stable (Copied id since n) := by
  rintro d d' ⟨hphase, i, hi, hcopy⟩ hstep
  refine ⟨InPhase.stable (by simp) d d' hphase hstep, i, ?_⟩
  obtain ⟨b, p, hp, h⟩ := hphase
  obtain rfl := List.mem_singleton.mp hp
  obtain ⟨-, -, i', hi', hne, -⟩ := h.phase
  obtain rfl := Option.some.inj (hi'.symm.trans hi)
  rw [others_handoffs hstep, others_partials hstep,
    others_content hstep hne (h.tidy.handoff_lt _ i' hi)]
  exact ⟨hi, hcopy⟩

theorem publish_of_copied (h : Copied id since n d) (ok : Bool) :
    ((d.perform ok (.publish ⟨id, n + 1⟩)).1 = true →
      InPhase id since (n + 1) [.duplicate] (d.perform ok (.publish ⟨id, n + 1⟩)).2) ∧
    ((d.perform ok (.publish ⟨id, n + 1⟩)).1 = false →
      Rest (d.perform ok (.publish ⟨id, n + 1⟩)).2) := by
  obtain ⟨⟨b, p, hp, hd⟩, i, hi, hcopy⟩ := h
  obtain rfl := List.mem_singleton.mp hp
  simp only [RecorderState.perform, hcopy]
  cases ok with
  | false => exact ⟨nofun, fun _ => hd.rest⟩
  | true =>
    refine ⟨fun _ => ⟨_, _, List.mem_singleton_self _, hd.publish ?_⟩, nofun⟩
    intro i' hi'
    rw [Option.some.inj (hi.symm.trans hi')]

/-- A closed handoff becomes the next segment. -/
theorem commitHandoff_of_closed (h : InPhase id since n [.closed] d) :
    Safe service (commitHandoff ⟨id, n + 1⟩) d
      (Ends fun _ => InPhase id since (n + 1) [.whole]) := by
  unfold commitHandoff
  apply safe_inPhase h (by simp)
  intro d b p hp hd ok _
  obtain rfl := List.mem_singleton.mp hp
  have hsegment : (d.segments.lookup ⟨id, n + 1⟩).isSome = false := by
    rw [hd.segmentExists]
    simp
  simp only [RecorderState.perform, hsegment, Bool.false_eq_true, if_false]
  apply safe_inPhase ⟨b, _, hp, hd⟩ (by simp)
  intro d b p hp hd ok _
  obtain rfl := List.mem_singleton.mp hp
  obtain ⟨-, -, i, hi, -⟩ := hd.phase
  simp only [RecorderState.perform, hi]
  cases ok with
  | false => exact .raise hd.rest
  | true =>
    have hcopied : Copied id since n (d.copyToPartial ⟨id, n + 1⟩ i) :=
      ⟨⟨b, _, hp, hd.copyToPartial _ _⟩, i, hi, AList.lookup_insert _⟩
    apply Safe.perform_bind hcopied Copied.stable fun d h => .inl h.1.rest
    rintro d r d' hd ⟨ok, -, heq⟩
    have hpublish := publish_of_copied hd ok
    rw [heq] at hpublish
    cases r with
    | false => exact .raise (hpublish.2 rfl)
    | true =>
      apply safe_inPhase (hpublish.1 rfl) (by simp)
      intro d b p hp hd ok _
      obtain rfl := List.mem_singleton.mp hp
      cases ok with
      | false => exact .raise hd.rest
      | true => exact .pure ⟨b, _, List.mem_singleton_self _, hd.unlink⟩

/-- A handoff that is closed, or committed already, and its sequence. -/
def InHand (id since q : ℕ) (d : RecorderState) : Prop :=
  InPhase id since q [.duplicate] d ∨ ∃ n, q = n + 1 ∧ InPhase id since n [.closed] d

theorem copyHandoffToStaging_safe (h : InHand id since q d) :
    Safe service (copyHandoffToStaging ⟨id, q⟩) d
      (Ends fun _ => InPhase id since q [.whole]) := by
  unfold copyHandoffToStaging
  rcases h with h | ⟨n, rfl, h⟩
  · apply safe_inPhase h (by simp)
    intro d b p hp hd ok _
    cases ok with
    | false => exact .raise hd.rest
    | true => exact commitHandoff_of_duplicate ⟨b, p, hp, hd⟩
  · apply safe_inPhase h (by simp)
    intro d b p hp hd ok _
    cases ok with
    | false => exact .raise hd.rest
    | true => exact commitHandoff_of_closed ⟨b, p, hp, hd⟩

/-! ## The recovery -/

/-- A live handoff gets its name back, unless the system refuses; either way the part fails. -/
theorem restore_ends (hp : p ∈ [Phase.closed, .live]) (hd : Recording d id since n b p) (ok : Bool)
    (hrestore : ∀ key, Action.restore ⟨id, n + 1⟩ = .restore key → ok = true → d.working = none) :
    Rest (d.perform ok (.restore ⟨id, n + 1⟩)).2 := by
  cases ok with
  | false =>
    simp only [RecorderState.perform]
    split <;> exact hd.rest
  | true =>
    have hfree := hrestore _ rfl rfl
    simp only [List.mem_cons, List.not_mem_nil, or_false] at hp
    rcases hp with rfl | rfl
    · cases hfree.symm.trans hd.phase.1
    · have hkey := (hd.phase.2.2 ⟨id, n + 1⟩).mpr rfl
      simp only [RecorderState.perform, hkey]
      exact hd.restore.rest

theorem recoverEach_nil (h : InPhase id since n [.whole] d) :
    Safe service (recoverEach id []) d (Ends fun _ d => ∃ n, InPhase id since n [.whole] d) :=
  .pure ⟨n, h⟩

/-- Copy the one handoff there is, and find no other. -/
theorem copy_recoverEach (h : InHand id since q d) :
    Safe service (do
        copyHandoffToStaging ⟨id, q⟩
        return q :: (← recoverEach id [])) d
      (Ends fun _ d => ∃ n, InPhase id since n [.whole] d) := by
  apply safe_bind_ends (copyHandoffToStaging_safe h)
  intro _ d hd
  exact safe_bind_ends (recoverEach_nil hd) fun _ d hd => .pure hd

theorem recoverEach_of_duplicate (h : InPhase id since n [.duplicate] d) :
    Safe service (recoverEach id [n]) d (Ends fun _ d => ∃ n, InPhase id since n [.whole] d) := by
  unfold recoverEach
  apply safe_inPhase h (by simp)
  intro d b p hp hd ok _
  obtain rfl := List.mem_singleton.mp hp
  have hsegment : (d.segments.lookup ⟨id, n⟩).isSome = true := by
    rw [hd.segmentExists n]
    exact decide_eq_true ⟨hd.one_le_of_duplicate, le_rfl⟩
  simp only [RecorderState.perform, hsegment, if_true]
  exact copy_recoverEach (.inl ⟨b, _, hp, hd⟩)

/-- The recovery of a handoff that may or may not be closed. -/
theorem recoverEach_of_cut (h : InPhase id since n [.closed, .live] d) :
    Safe service (recoverEach id [n + 1]) d
      (Ends fun _ d => ∃ n, InPhase id since n [.whole] d) := by
  unfold recoverEach
  apply safe_inPhase h (by simp)
  intro d b p hp hd ok _
  have hsegment : (d.segments.lookup ⟨id, n + 1⟩).isSome = false := by
    rw [hd.segmentExists]
    simp
  simp only [RecorderState.perform, hsegment, Bool.false_eq_true, if_false]
  apply safe_inPhase ⟨b, p, hp, hd⟩ (by simp)
  intro d b p hp hd ok _
  simp only [List.mem_cons, List.not_mem_nil, or_false] at hp
  rcases hp with rfl | rfl
  · simp only [RecorderState.perform, hd.phase.1, Option.isSome_some, if_true]
    exact copy_recoverEach (.inr ⟨n, rfl, b, _, List.mem_singleton_self _, hd⟩)
  · simp only [RecorderState.perform, hd.phase.1, Option.isSome_none, Bool.false_eq_true, if_false]
    have hcut : InPhase id since n [.closed, .live] d := ⟨b, _, by simp, hd⟩
    apply safe_inPhase hcut (by simp)
    intro d b p hp hd ok hrestore
    have hends := restore_ends hp hd ok hrestore
    split_ifs <;> exact .raise hends

theorem recoverPendingHandoffs_safe (h : InPhase id since n ps d)
    (hps : .live ∈ ps → .closed ∈ ps) :
    Safe service (recoverPendingHandoffs id) d
      (Ends fun _ d => ∃ n, InPhase id since n [.whole] d) := by
  unfold recoverPendingHandoffs
  apply safe_inPhase h hps
  intro d b p hp hd ok _
  simp only [RecorderState.perform, hd.pendingHandoffs_eq]
  cases p with
  | whole => exact recoverEach_nil ⟨b, _, List.mem_singleton_self _, hd⟩
  | duplicate => exact recoverEach_of_duplicate ⟨b, _, List.mem_singleton_self _, hd⟩
  | closed => exact recoverEach_of_cut ⟨b, _, List.mem_cons_self, hd⟩
  | live => exact recoverEach_of_cut ⟨b, _, List.mem_cons_of_mem _ List.mem_cons_self, hd⟩

/-! ## The cut -/

theorem foldr_max_Ico (n : ℕ) : (List.Ico 1 (n + 1)).foldr max 0 = n := by
  apply le_antisymm
  · exact List.max_le_of_forall_le _ n fun q hq => Nat.le_of_lt_succ (List.Ico.mem.mp hq).2
  · rcases Nat.eq_zero_or_pos n with rfl | hn
    · exact Nat.zero_le _
    · exact List.le_max_of_le (List.Ico.mem.mpr ⟨hn, Nat.lt_succ_self n⟩) le_rfl

theorem nextSegmentSequence_safe (h : InPhase id since n [.whole] d) :
    Safe service (nextSegmentSequence id) d
      (Ends fun q d => q = n + 1 ∧ InPhase id since n [.whole] d) := by
  unfold nextSegmentSequence
  apply safe_inPhase h (by simp)
  intro d b p hp hd ok _
  simp only [RecorderState.perform, hd.discoverSegments_eq]
  apply safe_inPhase ⟨b, p, hp, hd⟩ (by simp)
  intro d b p hp hd ok _
  obtain rfl := List.mem_singleton.mp hp
  simp only [RecorderState.perform, hd.pendingHandoffs_eq, Phase.pending, List.append_nil,
    foldr_max_Ico]
  exact .pure ⟨rfl, b, _, hp, hd⟩

/-- After the reopen `c` of a cut is sent: a handled one has closed the handoff. -/
def Cut (id since n c : ℕ) (d : RecorderState) : Prop :=
  InPhase id since n [.closed] d ∨ InPhase id since n [.live] d ∧ d.handled c = none

theorem Cut.inPhase (h : Cut id since n c d) : InPhase id since n [.closed, .live] d := by
  rcases h with h | ⟨h, -⟩
  · exact h.mono (by simp)
  · exact h.mono (by simp)

theorem Cut.stable : service.Stable (Cut id since n c) := by
  rintro d d' (h | ⟨⟨b, p, hp, h⟩, hc⟩) hstep
  · exact .inl (InPhase.stable (by simp) d d' h hstep)
  · obtain rfl := List.mem_singleton.mp hp
    cases hstep with
    | sample => exact .inr ⟨⟨b, _, hp, h.sample⟩, hc⟩
    | handle c' hc' =>
      by_cases hmem : c' ∈ d.pending
      · have hclosed := h.switch_of_live.handle_of_switch hmem h.tidy
        exact .inl ⟨b, _, List.mem_singleton_self _, hclosed⟩
      · unfold RecorderState.handle
        rw [if_neg hmem]
        exact .inr ⟨⟨b, _, hp, h⟩, hc⟩

theorem undoIsolation_safe (h : InPhase id since n [.closed, .live] d)
    {Q : Unit → RecorderState → Prop} :
    Safe service (undoIsolation ⟨id, n + 1⟩) d (Ends Q) := by
  unfold undoIsolation
  apply safe_inPhase h (by simp)
  intro d b p hp hd ok _
  by_cases hworking : d.working.isSome = true
  · simp only [RecorderState.perform, hworking, if_true]
    exact .raise hd.rest
  · simp only [RecorderState.perform, hworking]
    apply safe_inPhase ⟨b, p, hp, hd⟩ (by simp)
    intro d b p hp hd ok hrestore
    have hends := restore_ends hp hd ok hrestore
    split_ifs <;> exact .raise hends

/-- An acknowledged reopen is the boundary of the cut. -/
theorem sendTelnet_safe (h : InPhase id since n [.live] d) :
    Safe service (sendTelnet false) d (Ends fun r d =>
      (r ≠ none → InPhase id since n [.closed] d) ∧ InPhase id since n [.closed, .live] d) := by
  unfold sendTelnet
  have hcut : InPhase id since n [.closed, .live] d := h.mono (by simp)
  apply safe_inPhase hcut (by simp)
  intro d b p hp hd ok _
  cases ok with
  | false => exact .pure ⟨nofun, b, p, hp, hd⟩
  | true =>
    have hsent : Cut id since n d.nextCommand (d.reopen false) := by
      simp only [List.mem_cons, List.not_mem_nil, or_false] at hp
      rcases hp with rfl | rfl
      · exact .inl ⟨b, _, List.mem_singleton_self _, hd.reopen false⟩
      · refine .inr ⟨⟨b, _, List.mem_singleton_self _, hd.reopen false⟩, ?_⟩
        by_contra hne
        obtain ⟨position, hposition⟩ := Option.ne_none_iff_exists'.mp hne
        exact absurd (hd.tidy.handled_lt _ _ hposition) (Nat.lt_irrefl _)
    apply Safe.perform_bind hsent Cut.stable fun d h => .inl h.inPhase.rest
    rintro d' r d'' hd' ⟨ok, -, heq⟩
    obtain ⟨rfl, rfl⟩ := Prod.mk.inj heq
    by_cases hreply : (ok && (d'.handled d.nextCommand).isSome) = true
    · simp only [hreply, if_true]
      refine .pure ⟨fun _ => ?_, hd'.inPhase⟩
      rcases hd' with hclosed | ⟨-, hnone⟩
      · exact hclosed
      · simp [hnone] at hreply
    · simp only [hreply]
      exact .pure ⟨nofun, hd'.inPhase⟩

theorem isolateActiveWorkingFile_safe (h : InPhase id since n [.whole] d) :
    Safe service (isolateActiveWorkingFile ⟨id, n + 1⟩) d
      (Ends fun _ => InPhase id since n [.closed]) := by
  unfold isolateActiveWorkingFile
  apply safe_inPhase h (by simp)
  intro d b p hp hd ok _
  obtain rfl := List.mem_singleton.mp hp
  have hnone : (d.handoffs.lookup ⟨id, n + 1⟩).isSome = false := by
    rw [Bool.eq_false_iff, ne_eq, AList.lookup_isSome, hd.handoffs]
    exact List.not_mem_nil
  simp only [RecorderState.perform, hnone, Bool.false_eq_true, if_false]
  apply safe_inPhase ⟨b, _, hp, hd⟩ (by simp)
  intro d b p hp hd ok _
  obtain rfl := List.mem_singleton.mp hp
  obtain ⟨hworking, -⟩ := hd.phase
  simp only [RecorderState.perform, hworking]
  cases ok with
  | false => exact .raise hd.rest
  | true =>
    apply safe_bind_ends (sendTelnet_safe ⟨b, _, List.mem_singleton_self _, hd.isolate⟩)
    rintro r d ⟨hclosed, hcut⟩
    cases r with
    | none => exact undoIsolation_safe hcut
    | some c => exact .pure (hclosed nofun)

theorem cutAndStageActiveSegment_safe (h : InPhase id since n ps d)
    (hps : .live ∈ ps → .closed ∈ ps) :
    Safe service (cutAndStageActiveSegment id) d (Ends fun _ => Rest) := by
  unfold cutAndStageActiveSegment
  apply safe_inPhase h hps
  intro d b p hp hd ok _
  cases ok with
  | false => exact .raise hd.rest
  | true =>
    apply safe_bind_ends (recoverPendingHandoffs_safe ⟨b, p, hp, hd⟩ hps)
    rintro _ d ⟨n, hd⟩
    apply safe_bind_ends (nextSegmentSequence_safe hd)
    rintro q d ⟨rfl, hd⟩
    apply safe_bind_ends (isolateActiveWorkingFile_safe hd)
    intro _ d hd
    apply (copyHandoffToStaging_safe (.inr ⟨n, rfl, hd⟩)).mono
    rintro (_ | _) d hd
    · exact hd
    · exact hd.rest

/-! ## Start -/

/-- Start has sent its reopen `c`; once that is handled, the working file begins there. -/
structure Cued (c : ℕ) (d : RecorderState) : Prop where
  idle : Idle d
  starting : d.starting = some c
  boundary : ∀ position, d.handled c = some position →
    d.working = some d.openInode ∧ position = d.birth d.openInode

theorem Cued.stable : service.Stable (Cued c) := by
  intro d d' h hstep
  have hidle := h.idle.others hstep
  cases hstep with
  | sample => exact ⟨hidle, h.starting, h.boundary⟩
  | handle c' hc' =>
    by_cases hmem : c' ∈ d.pending
    · have hswitched : (d.handle c').starting = d.starting ∧
          (d.handle c').working = some (d.handle c').openInode ∧
          (d.handle c').birth (d.handle c').openInode = d.heard := by
        unfold RecorderState.handle
        rw [if_pos hmem]
        exact ⟨rfl, rfl, switch_birth_self⟩
      obtain ⟨hstarting, hworking, hbirth⟩ := hswitched
      refine ⟨hidle, hstarting.trans h.starting, fun position hposition => ⟨hworking, ?_⟩⟩
      rw [hbirth]
      by_cases heq : c = c'
      · rw [heq, handle_handled_self hmem] at hposition
        exact (Option.some.inj hposition).symm
      · rw [handle_handled_of_ne heq] at hposition
        obtain ⟨hworking, hbirth⟩ := h.boundary position hposition
        have hcued : d.isCued = true := by
          rw [isCued, h.starting, Option.any_some, hposition, Option.isSome_some]
        have hempty := hc' hmem (.inr hcued)
        rw [hworking, audioOf, Option.elim_some, h.idle.tidy.live, List.Ico.eq_empty_iff] at hempty
        exact hbirth.trans (le_antisymm h.idle.tidy.birth_le hempty)
    · unfold RecorderState.handle at hidle ⊢
      rw [if_neg hmem] at hidle ⊢
      exact h

theorem Idle.reopen (h : Idle d) (forStart : Bool) : Idle (d.reopen forStart) :=
  ⟨h.tidy.reopen forStart, h.stopped⟩

theorem Idle.cued (h : Idle d) : Cued d.nextCommand (d.reopen true) where
  idle := h.reopen true
  starting := rfl
  boundary _ hposition := absurd (h.tidy.handled_lt _ _ hposition) (Nat.lt_irrefl _)

theorem Idle.stable : service.Stable Idle := fun _ _ h hstep => h.others hstep

theorem Rest.stable : service.Stable Rest := fun _ _ h hstep => h.others hstep

/-- An action at a point where all that is known is that nothing is recorded. -/
theorem safe_idle (h : Idle d)
    (hnext : ∀ d, Idle d → ∀ ok, Safe service (f (d.perform ok a).1) (d.perform ok a).2 Q) :
    Safe service (perform a >>= f) d Q := by
  apply Safe.perform_bind h Idle.stable fun d hd => .inl (.inl hd)
  rintro d r d' hd ⟨ok, -, heq⟩
  have hsafe := hnext d hd ok
  rw [heq] at hsafe
  exact hsafe

/-- The running session is the one that is recorded. -/
theorem Recording.currentSession (h : Recording d id since n b p) :
    ∃ s, d.sessions.find? Session.stillRunning = some s ∧ s.id = id := by
  obtain ⟨t, ht, hrunning⟩ := h.running
  obtain ⟨s, hs⟩ := Option.isSome_iff_exists.mp (List.find?_isSome.mpr ⟨t, ht, hrunning⟩)
  exact ⟨s, hs, (h.only s (List.mem_of_find?_eq_some hs) (List.find?_some hs)).1⟩

theorem Idle.currentSession (h : Idle d) : d.sessions.find? Session.stillRunning = none := by
  rw [List.find?_eq_none]
  intro s hs
  rw [h.stopped s hs]
  nofun

/-- Every operation begins by looking for the running session. -/
theorem safe_currentSession {f : Option Session → Program β} (h : Rest d)
    (hidle : ∀ d, Idle d → Safe service (f none) d Q)
    (hrecording : ∀ d s since n b p, Recording d s.id since n b p →
      Safe service (f (some s)) d Q) :
    Safe service (perform .currentSession >>= f) d Q := by
  apply Safe.perform_bind h Rest.stable fun d hd => .inl hd
  rintro d r d' hd ⟨ok, -, heq⟩
  obtain ⟨rfl, rfl⟩ := Prod.mk.inj heq
  rcases hd with hd | ⟨id, since, n, b, p, hd⟩
  · rw [hd.currentSession]
    exact hidle d hd
  · obtain ⟨s, hs, rfl⟩ := hd.currentSession
    rw [hs]
    exact hrecording d s since n b p hd

/-- The reopen of Start is acknowledged. -/
def Acknowledged (c : ℕ) (d : RecorderState) : Prop := Cued c d ∧ (d.handled c).isSome

theorem Acknowledged.stable : service.Stable (Acknowledged c) := by
  rintro d d' ⟨hcued, hsome⟩ hstep
  refine ⟨Cued.stable d d' hcued hstep, ?_⟩
  cases hstep with
  | sample => exact hsome
  | handle c' hc' =>
    by_cases heq : c = c'
    · subst heq
      by_cases hmem : c ∈ d.pending
      · rw [handle_handled_self hmem]
        rfl
      · unfold RecorderState.handle
        rw [if_neg hmem]
        exact hsome
    · rw [handle_handled_of_ne heq]
      exact hsome

theorem sendTelnet_start_safe (h : Idle d) :
    Safe service (sendTelnet true) d
      (Ends fun r d => Rest d ∧ ∀ c, r = some c → Acknowledged c d) := by
  unfold sendTelnet
  apply safe_idle h
  intro d hd ok
  cases ok with
  | false => exact .pure ⟨.inl hd, nofun⟩
  | true =>
    apply Safe.perform_bind hd.cued Cued.stable fun d h => .inl (.inl h.idle)
    rintro d' r d'' hd' ⟨ok, -, heq⟩
    obtain ⟨rfl, rfl⟩ := Prod.mk.inj heq
    by_cases hreply : (ok && (d'.handled d.nextCommand).isSome) = true
    · simp only [hreply, if_true]
      refine .pure ⟨.inl hd'.idle, ?_⟩
      rintro c ⟨rfl⟩
      exact ⟨hd', (Bool.and_eq_true_iff.mp hreply).2⟩
    · simp only [hreply]
      exact .pure ⟨.inl hd'.idle, nofun⟩

theorem startRecording_safe (h : Rest d) (audioFormat : AudioFormat) :
    Safe service (startRecording audioFormat) d (Ends fun _ => Rest) := by
  unfold startRecording
  apply safe_currentSession h
  · intro d hd
    apply safe_idle hd
    intro d hd ok
    cases ok with
    | false => exact .pure (.inl hd)
    | true =>
      apply safe_bind_ends (sendTelnet_start_safe hd)
      rintro r d ⟨hrest, hacknowledged⟩
      cases r with
      | none => exact .pure hrest
      | some c =>
        apply Safe.perform_bind (hacknowledged c rfl) Acknowledged.stable
          fun d h => .inl (.inl h.1.idle)
        rintro d r d' ⟨hcued, hsome⟩ ⟨ok, -, heq⟩
        obtain ⟨rfl, rfl⟩ := Prod.mk.inj heq
        obtain ⟨position, hposition⟩ := Option.isSome_iff_exists.mp hsome
        obtain ⟨hworking, rfl⟩ := hcued.boundary position hposition
        exact .pure (hcued.idle.createSession hworking hposition audioFormat).rest
  · intro d s since n b p hd
    exact .pure hd.rest

/-! ## Stop -/

/-- Stop of the session `id` is about to save it, its last piece moved or not. -/
def Finishing (id : ℕ) (d : RecorderState) : Prop :=
  (Rest d ∨ Stopping d) ∧ d.Tidy ∧ ∀ s ∈ d.sessions, s.stillRunning → s.id = id

theorem Finishing.stable : service.Stable (Finishing id) := by
  rintro d d' ⟨hinv, htidy, honly⟩ hstep
  refine ⟨?_, htidy.others hstep, ?_⟩
  · rcases hinv with h | h
    · exact .inl (h.others hstep)
    · exact .inr (h.others hstep)
  · rw [others_sessions hstep]
    exact honly

theorem Recording.finishing (h : Recording d id since n b p) : Finishing id d :=
  ⟨.inl h.rest, h.tidy, fun s hs hrunning => (h.only s hs hrunning).1⟩

theorem saveStopped_safe (h : Finishing id d) :
    Safe service (perform (.saveStopped id)) d (Ends fun _ => Idle) := by
  apply Safe.perform h Finishing.stable fun d h => h.1
  rintro d r d' ⟨-, htidy, honly⟩ ⟨ok, -, heq⟩
  obtain ⟨rfl, rfl⟩ := Prod.mk.inj heq
  exact saveStopped_idle htidy honly

/-- The move of the last handoff, after which the session is only waiting to be saved. -/
theorem moveSource_safe {f : Bool → Program β} {Q : β → RecorderState → Prop}
    (h : InPhase id since n ps d) (hps : .live ∈ ps → .closed ∈ ps)
    (hnext : ∀ r d, Finishing id d → Safe service (f r) d (Ends Q)) :
    Safe service (perform (.moveSource id (.handoff key)) >>= f) d (Ends Q) := by
  apply safe_inPhase h hps
  intro d b p hp hd ok _
  apply hnext
  cases hinode : d.handoffs.lookup key with
  | none =>
    simp only [RecorderState.perform, sourceInode, hinode]
    exact hd.finishing
  | some i =>
    simp only [RecorderState.perform, sourceInode, hinode]
    cases ok with
    | false => exact hd.finishing
    | true =>
      have hmoved : Stopping (d.moveSource id (.handoff key) i) := hd.moveSource
      exact ⟨.inr hmoved, hmoved.tidy, fun s hs hrunning => (hd.only s hs hrunning).1⟩

theorem finalizeSource_safe
    (h : InPhase session.id since n ps d) (hps : .live ∈ ps → .closed ∈ ps) :
    Safe service (finalizeSource session (.handoff key)) d (Ends fun _ => Idle) := by
  unfold finalizeSource finalizeHeAacAsync finalizeDirectMove
  split_ifs
  · apply safe_inPhase h hps
    intro d b p hp hd ok _
    split_ifs
    · exact moveSource_safe ⟨b, p, hp, hd⟩ hps fun _ _ h => saveStopped_safe h
    · exact saveStopped_safe hd.finishing
  · apply safe_inPhase h hps
    intro d b p hp hd ok _
    split_ifs
    · apply safe_inPhase ⟨b, p, hp, hd⟩ hps
      intro d b p hp hd ok _
      split_ifs
      · exact moveSource_safe ⟨b, p, hp, hd⟩ hps fun _ _ h => saveStopped_safe h
      · exact saveStopped_safe hd.finishing
    · exact saveStopped_safe hd.finishing

theorem stopAtCut_safe (h : InPhase session.id since n [.whole] d) (segmented : Bool) :
    Safe service (stopAtCut session segmented) d (Ends fun _ => Rest) := by
  unfold stopAtCut
  apply safe_bind_ends (nextSegmentSequence_safe h)
  rintro q d ⟨rfl, hd⟩
  apply Safe.attempt_bind (isolateActiveWorkingFile_safe hd)
  rintro (_ | _) d hd
  · exact .pure hd
  · cases segmented with
    | false =>
      apply safe_bind_ends (finalizeSource_safe hd (by simp))
      intro _ d hd
      exact .pure (.inl hd)
    | true =>
      apply Safe.attempt_bind (copyHandoffToStaging_safe (.inr ⟨n, rfl, hd⟩))
      rintro (_ | _) d hd
      · exact .pure hd
      · obtain ⟨b, p, -, hd⟩ := hd
        apply safe_bind_ends (saveStopped_safe hd.finishing)
        intro _ d hd
        exact .pure (.inl hd)

theorem stopRecording_safe (h : Rest d) : Safe service stopRecording d (Ends fun _ => Rest) := by
  unfold stopRecording
  apply safe_currentSession h
  · intro d hd
    exact .pure (.inl hd)
  · intro d s since n b p hd
    apply Safe.attempt_bind (recoverPendingHandoffs_safe hd.inPhases (by simp [phases]))
    rintro (_ | _) d hd
    · exact .pure hd
    · obtain ⟨n, hd⟩ := hd
      apply safe_inPhase hd (by simp)
      intro d b p hp hd ok _
      apply safe_inPhase ⟨b, p, hp, hd⟩ (by simp)
      intro d b p hp hd ok _
      rw [perform_workingSize]
      apply safe_inPhase ⟨b, p, hp, hd⟩ (by simp)
      intro d b p hp hd ok _
      obtain rfl := List.mem_singleton.mp hp
      have hworking : (d.perform ok .workingExists).1 = true := by
        simp only [RecorderState.perform, hd.phase.1, Option.isSome_some]
      rw [if_neg (by simp [hworking])]
      exact stopAtCut_safe ⟨b, _, hp, hd⟩ _

/-! ## Maintenance -/

theorem sendTelnet_idle_safe (h : Idle d) :
    Safe service (sendTelnet false) d (Ends fun _ => Idle) := by
  unfold sendTelnet
  apply safe_idle h
  intro d hd ok
  cases ok with
  | false => exact .pure hd
  | true =>
    apply safe_idle (hd.reopen false)
    intro d hd ok
    split_ifs <;> exact .pure hd

theorem recoverActive_safe (h : InPhase session.id since n phases d) :
    Safe service (recoverActive (some session)) d
      (Ends fun _ d => ∃ n, InPhase session.id since n phases d) := by
  unfold recoverActive
  apply safe_inPhase h (by simp [phases])
  intro d b p hp hd ok _
  cases (d.perform ok (.pendingHandoffs session.id)).1 with
  | nil => exact .pure ⟨n, b, p, hp, hd⟩
  | cons q rest =>
    apply (recoverPendingHandoffs_safe ⟨b, p, hp, hd⟩ (by simp [phases])).mono
    rintro (_ | _) d hd
    · exact hd
    · obtain ⟨n, hd⟩ := hd
      exact ⟨n, hd.mono (by simp [phases])⟩

theorem rollOver_safe (h : InPhase session.id since n phases d) :
    Safe service (rollOver (some session)) d (Ends fun _ => Rest) := by
  unfold rollOver
  apply Safe.attempt_bind (cutAndStageActiveSegment_safe h (by simp [phases]))
  rintro (_ | _) d hd <;> exact .pure hd

theorem rollOver_idle_safe (h : Idle d) : Safe service (rollOver none) d (Ends fun _ => Rest) := by
  unfold rollOver
  apply safe_bind_ends (sendTelnet_idle_safe h)
  rintro (_ | _) d hd <;> exact .pure (.inl hd)

theorem maintainIdleBuffer_safe (h : Rest d) (maxBytes : ℕ) :
    Safe service (maintainIdleBuffer maxBytes) d (Ends fun _ => Rest) := by
  unfold maintainIdleBuffer
  apply safe_currentSession h
  · intro d hd
    have hnothing : Safe service (recoverActive none) d fun r d => r = .ok [] ∧ Idle d :=
      .pure ⟨rfl, hd⟩
    apply Safe.attempt_bind hnothing
    rintro _ d ⟨rfl, hd⟩
    apply safe_idle hd
    intro d hd ok
    rw [perform_workingSize]
    cases (d.perform ok .workingSize).1 with
    | error e => cases e <;> exact .pure (.inl hd)
    | ok size =>
      by_cases hsize : size < maxBytes
      · simp only [hsize, if_true]
        exact .pure (.inl hd)
      · simp only [hsize, if_false]
        exact rollOver_idle_safe hd
  · intro d s since n b p hd
    apply Safe.attempt_bind (recoverActive_safe hd.inPhases)
    rintro (_ | recovered) d hd
    · exact .pure hd
    · obtain ⟨n, hd⟩ := hd
      apply safe_inPhase hd (by simp [phases])
      intro d b p hp hd ok _
      rw [perform_workingSize]
      cases (d.perform ok .workingSize).1 with
      | error e => cases e <;> exact .pure hd.rest
      | ok size =>
        by_cases hsize : size < maxBytes
        · simp only [hsize, if_true]
          exact .pure hd.rest
        · simp only [hsize, if_false]
          exact rollOver_safe ⟨b, p, hp, hd⟩

/-! ## Runs -/

theorem program_safe (h : Rest d) (operation : Operation) :
    Safe service operation.program d (Ends fun _ => Rest) := by
  cases operation with
  | start audioFormat => exact startRecording_safe h audioFormat
  | stop => exact stopRecording_safe h
  | maintain maxBytes => exact maintainIdleBuffer_safe h maxBytes

def isRestoring : Option (Program (Option String)) → Bool
  | some (.act (.restore _) _) => true
  | _ => false

/-- No reopen is handled on a file of the recording, no working file is renamed over,
and Stop does not die between the move of the last file and the save. -/
def InTime : Event → State → Prop
  | .handle command, s => command ∈ s.disk.pending → s.disk.Admits
  | .act true, s => isRestoring s.program = true → s.disk.working = none
  | .crash, s => ∀ t ∈ s.disk.sessions, t.stillRunning → s.disk.isMoved t.id = false
  | _, _ => True

instance : (e : Event) → (s : State) → Decidable (InTime e s)
  | .handle _, _ => inferInstanceAs (Decidable (_ → _))
  | .act true, _ => inferInstanceAs (Decidable (_ → _))
  | .act false, _ => .isTrue trivial
  | .crash, _ => inferInstanceAs (Decidable (∀ t ∈ _, _))
  | .begin _, _ => .isTrue trivial
  | .sample, _ => .isTrue trivial

/-- While nobody holds the lock there is a whole recording or none; the operation under way
is safe. -/
def Sound (s : State) : Prop :=
  match s.program with
  | none => Rest s.disk
  | some m => Safe service m s.disk (Ends fun _ => Rest)

/-- A session that is being recorded has all its samples in its pieces, and no name was given to
two pieces of audio. -/
structure Preserved (s : State) : Prop where
  audio : ∀ t ∈ s.disk.sessions, t.stillRunning →
    (s.program.isSome ∧ s.disk.isMoved t.id) ∨ s.disk.audio t.id = List.Ico t.since s.disk.heard
  names : ∀ key b b', (key, b) ∈ s.disk.named → (key, b') ∈ s.disk.named → b = b'

/-- The ghost of a Start that has ended plays no part. -/
theorem Rest.release (h : Rest d) : Rest { d with starting := none } := by
  rcases h with h | ⟨id, since, n, b, p, h⟩
  · exact .inl ⟨{ h.tidy with }, h.stopped⟩
  · exact .inr ⟨id, since, n, b, p,
      { h with tidy := { h.tidy with }, phase := by cases p <;> exact h.phase }⟩

theorem Sound.settle {m : Program (Option String)}
    (h : Safe service m d (Ends fun _ => Rest)) : Sound (.settle d m) := by
  cases m with
  | pure r => exact Rest.release h
  | raise e => exact Rest.release h
  | act a next => exact h

theorem invariant_stable : service.Stable service.invariant :=
  Rest.stable.or fun _ _ h hstep => h.others hstep

theorem ends_stable (r : Except SegmentError β) : service.Stable (Ends (fun _ => Rest) r) := by
  cases r <;> exact Rest.stable

theorem Sound.others {m : Option (Program (Option String))} (h : Sound ⟨d, m⟩)
    (hstep : Others d d') : Sound ⟨d', m⟩ := by
  cases m with
  | none => exact Rest.others h hstep
  | some m => exact Safe.others h invariant_stable ends_stable hstep

theorem Stopping.idle (h : Stopping d)
    (hnone : ∀ t ∈ d.sessions, t.stillRunning → d.isMoved t.id = false) : Idle d where
  tidy := h.tidy
  stopped := by
    intro t ht
    by_contra hrunning
    have hrunning := eq_true_of_ne_false hrunning
    cases (h.moved t ht hrunning).symm.trans (hnone t ht hrunning)

/-- What holds of the files wherever the operation under way is. -/
theorem Sound.invariant (h : Sound s) : Rest s.disk ∨ s.program.isSome ∧ Stopping s.disk := by
  obtain ⟨d, _ | m⟩ := s
  · exact .inl h
  · cases m with
    | pure r => exact .inl h
    | raise e => exact .inl h
    | act a next => exact h.1.imp_right fun h => ⟨rfl, h⟩

theorem step_sound {e : Event} (htime : InTime e s) (h : Sound s) : Sound (step e s) := by
  obtain ⟨d, m⟩ := s
  cases e with
  | begin operation =>
    cases m with
    | none => exact program_safe h operation
    | some m => exact h
  | act ok =>
    cases m with
    | none => exact h
    | some m =>
      cases m with
      | pure r => exact h
      | raise e => exact h
      | act a next =>
        refine Sound.settle (h.2 d .refl _ _ ⟨ok, ?_, rfl⟩)
        rintro key rfl rfl
        exact htime rfl
  | crash =>
    apply Rest.release
    rcases h.invariant with hrest | ⟨-, hstopping⟩
    · exact hrest
    · exact .inl (hstopping.idle htime)
  | sample => exact h.others (.sample d)
  | handle command => exact h.others (.handle d command htime)

theorem Sound.preserved (h : Sound s) : Preserved s := by
  rcases h.invariant with (hidle | ⟨id, since, n, b, p, hrecording⟩) | ⟨hsome, hstopping⟩
  · refine ⟨?_, hidle.tidy.functional⟩
    intro t ht hrunning
    cases (hidle.stopped t ht).symm.trans hrunning
  · refine ⟨?_, hrecording.tidy.functional⟩
    intro t ht hrunning
    obtain ⟨rfl, rfl⟩ := hrecording.only t ht hrunning
    exact .inr hrecording.audio_eq
  · refine ⟨?_, hstopping.tidy.functional⟩
    intro t ht hrunning
    exact .inl ⟨hsome, hstopping.moved t ht hrunning⟩

theorem initial_sound : Sound initial :=
  .inl
    { stopped := nofun
      tidy :=
        { open_lt := Nat.one_pos
          live := rfl
          birth_le := le_rfl
          working_eq := fun _ hi => (Option.some.inj hi).symm
          handoff_lt := nofun
          handoff_open := nofun
          handoff_session := fun key hkey => absurd hkey (AList.notMem_empty key)
          segment_session := fun key hkey => absurd hkey (AList.notMem_empty key)
          named_session := nofun
          session_lt := nofun
          moved_lt := nofun
          functional := nofun
          pending_lt := nofun
          handled_lt := nofun } }

/-- Start, two samples, and a cut whose reopen is not answered. -/
def interruptedCut : List Event :=
  .begin (.start .mp3) :: List.replicate 3 (.act true) ++ [.handle 0, .act true, .act true,
    .sample, .sample, .begin (.maintain 1)] ++ List.replicate 10 (.act true) ++
    [.act false, .act true, .act true]

end IsadoraAir.Aircheck.Recorder
