import IsadoraAir.ActiveMessages.Spacing

/-!
# Evidence that changes nothing

Evidence that was accepted stays on record, and the same evidence is then answered without a
write. Evidence of another attempt, of an execution that is not on air, or of an end before the
start is refused.
-/

namespace IsadoraAir.ActiveMessages

open Transaction

variable {actorKind : ActorKind} {state : ExecutionState} {duration : Option Confirmed}
  {claimedAt endedAt lastEvidenceAt startedAt : Option Time} {attemptToken : String} {ended : Time}
  {s s' : Store} {w : World} {deck : Deck} {e : Execution}

theorem getExecution_bind {α : Type} {Q : α → Store → Prop} {id : Uuid} {f : Execution → Tx α}
    (h : ∀ row ∈ s.executions, row.id = id → Ensures (f row) s Q) :
    Ensures (getExecution id >>= f) s Q := by
  unfold getExecution
  rw [bind_assoc]
  refine Ensures.get_bind (Ensures.require_bind fun row hrow => ?_)
  have hid := List.find?_some hrow
  exact h row (List.mem_of_find?_eq_some hrow) (of_decide_eq_true hid)

/-- The row of an id. -/
theorem Sound.execution (hs : Sound s) {e' : Execution} (he : e ∈ s.executions)
    (he' : e' ∈ s.executions) (hid : e.id = e'.id) : e = e' :=
  List.inj_on_of_nodup_map hs.executions.ids he he' hid

/-! ## On record -/

/-- The evidence is on record in the row. -/
def Operation.Recorded (e : Execution) : Operation → Prop
  | .recordAirStarted execution attemptToken _ _ _ =>
    e.id = execution ∧ e.isOtherAttempt attemptToken = false ∧ e.startedAt.isSome ∧
      (e.state = .started ∨ e.state.hasAired = true)
  | .recordAirCompleted execution attemptToken _ _ _ =>
    e.id = execution ∧ e.attemptText = attemptToken ∧ e.state = .completed
  | .recordAirInterrupted execution attemptToken _ _ _ =>
    e.id = execution ∧ e.attemptText = attemptToken ∧ e.state = .interrupted
  | _ => False

/-- An operation that reports the start or the end of an airing. -/
def Operation.isEvidence : Operation → Bool
  | .recordAirStarted .. | .recordAirCompleted .. | .recordAirInterrupted .. => true
  | _ => false

namespace Operation.Recorded

variable {o : Operation}

theorem fixed (h : o.Recorded e) : e.state.isFixed = true := by
  cases o with
  | recordAirStarted =>
    obtain ⟨-, -, -, hstate⟩ := h
    cases hrow : e.state <;> simp [hrow, ExecutionState.hasAired, ExecutionState.isFixed,
      ExecutionState.isUnfinished] at *
  | recordAirCompleted => rw [h.2.2]; rfl
  | recordAirInterrupted => rw [h.2.2]; rfl
  | _ => cases h

/-- The end of the airing leaves its start on record. -/
theorem ends (h : o.Recorded e) {now : Time} {duration : Option ℤ}
    (hstarted : e.state = .started) (haired : state.hasAired = true) :
    o.Recorded (airEnded state now ended duration e) := by
  cases o with
  | recordAirStarted => exact ⟨h.1, h.2.1, h.2.2.1, .inr haired⟩
  | recordAirCompleted => cases hstarted.symm.trans h.2.2
  | recordAirInterrupted => cases hstarted.symm.trans h.2.2
  | _ => cases h

/-- What is on record stays so. -/
theorem step {made : Operated} (hs : Sound s) (he : e ∈ s.executions) (h : o.Recorded e) :
    ∃ e' ∈ (made.step s).executions, o.Recorded e' := by
  rcases made.step_effect hs with hpaced | ⟨row, state, ended, hended⟩
  · obtain ⟨e', he', hcontinues⟩ := hpaced.executions e he
    exact ⟨e', he', (hcontinues.fixed h.fixed).symm ▸ h⟩
  · obtain ⟨⟨duration, hmem⟩, hothers, -⟩ := hended.rows hs
    by_cases hid : e.id = row.id
    · have hsame := hs.execution he hended.mem hid
      subst hsame
      exact ⟨_, hmem, h.ends hended.started hended.aired⟩
    · exact ⟨e, hothers e he hid, h⟩

theorem run {made : List Operated} (hs : Sound s) (he : e ∈ s.executions) (h : o.Recorded e) :
    ∃ e' ∈ (Runs.run Operated.step made s).executions, o.Recorded e' := by
  have hboth : Sound (Runs.run Operated.step made s) ∧
      ∃ e' ∈ (Runs.run Operated.step made s).executions, o.Recorded e' := by
    refine Runs.invariant (P := fun _ _ => True)
      (I := fun s => Sound s ∧ ∃ e' ∈ s.executions, o.Recorded e') ?_ ⟨hs, e, he, h⟩
      (Runs.throughout_true made s)
    rintro made s - ⟨hs, e, he, h⟩
    exact ⟨made.step_sound hs, h.step hs he⟩
  exact hboth.2

end Operation.Recorded

theorem recordAirStarted_recorded {execution : Uuid} :
    Ensures (recordAirStarted w execution attemptToken startedAt claimedAt actorKind) s fun _ s' =>
      ∃ e ∈ s'.executions,
        (Operation.recordAirStarted execution attemptToken startedAt claimedAt actorKind).Recorded
          e := by
  unfold recordAirStarted
  refine Ensures.require_bind fun started _ => lockPolicy_bind ?_
  refine getExecution_bind fun row hrow hid => Ensures.refuseIf_bind fun hattempt => ?_
  have hattempt' : row.isOtherAttempt attemptToken = false := by simpa using hattempt
  split
  · next hrecorded =>
    obtain ⟨hstate, hstarted⟩ := hrecorded
    refine Ensures.pure ⟨row, hrow, hid, hattempt', hstarted, ?_⟩
    simpa [ExecutionState.hasAired] using hstate
  · refine Ensures.refuseIf_bind fun _ => writeExecution_bind fun row' hrow' hid' hsame => ?_
    refine event_bind (Ensures.pure ⟨_, List.mem_map.mpr ⟨row', hrow', if_pos hid'⟩, ?_⟩)
    have htoken : row'.attemptToken = row.attemptToken := (of_decide_eq_true hsame).2
    refine ⟨hid'.trans hid, ?_, rfl, .inl rfl⟩
    unfold Execution.isOtherAttempt Execution.attemptText at hattempt' ⊢
    rwa [htoken]

/-- The evidence of an end that is let through: of the row's attempt, and not before its start. -/
theorem of_checked {evidence : Time × Option ℤ}
    (h : checkEvidence e attemptToken endedAt duration = .ok evidence) :
    e.isOtherAttempt attemptToken = false ∧
      ¬∃ ended started, endedAt = some ended ∧ e.startedAt = some started ∧ ended < started := by
  unfold checkEvidence at h
  split at h
  · cases h
  · next hattempt =>
    refine ⟨by simpa using hattempt, ?_⟩
    rintro ⟨ended, started, rfl, hstarted, hearly⟩
    simp only [hstarted] at h
    rw [if_pos hearly] at h
    cases h

theorem Execution.attemptText_of_same
    (h : e.isOtherAttempt attemptToken = false) : e.attemptText = attemptToken := by
  by_contra hne
  have hother : e.isOtherAttempt attemptToken = true := decide_eq_true (.inr hne)
  rw [hother] at h
  cases h

theorem endAiring_recorded {policy : Policy} {messages : List Message} {row : Execution}
    {duration : Option ℤ} {name : String} {detail : Json} (hs : Sound s) (hrow : row ∈ s.executions)
    (hstarted : row.state = .started) (haired : state.hasAired = true)
    (hmessages : ∀ m, m ∈ messages ↔ m ∈ s.messages ∧
      m.id ∈ Composition.messageIds row.compositionSnapshot) :
    Ensures (endAiring w policy messages row state ended duration name detail actorKind) s
      fun _ s' => ∃ e ∈ s'.executions,
        e.id = row.id ∧ e.attemptText = row.attemptText ∧ e.state = state := by
  refine (endAiring_ensures hs hrow hstarted haired hmessages).mono fun _ s' h => ?_
  obtain ⟨⟨duration', hmem⟩, -, -⟩ := h.rows hs
  exact ⟨_, hmem, rfl, rfl, rfl⟩

theorem recordAirCompleted_recorded {execution : Uuid} (hs : Sound s) :
    Ensures (recordAirCompleted w execution attemptToken endedAt duration actorKind) s
      fun _ s' => ∃ e ∈ s'.executions,
        (Operation.recordAirCompleted execution attemptToken endedAt duration actorKind).Recorded
          e := by
  unfold recordAirCompleted
  refine lockForEvidence_bind hs fun messages row hrow hid hmessages => ?_
  dsimp only
  split
  · next hrecorded => exact Ensures.pure ⟨row, hrow, hid, hrecorded.2, hrecorded.1⟩
  · refine Ensures.refuseIf_bind fun hstarted => Ensures.raised_bind fun evidence hchecked => ?_
    refine Ensures.require_bind fun micros _ => ?_
    refine (endAiring_recorded hs hrow (not_not.mp hstarted) rfl hmessages).mono ?_
    rintro _ s' ⟨e, he, hid', hattempt, hstate⟩
    have hsame := Execution.attemptText_of_same (of_checked hchecked).1
    exact ⟨e, he, hid'.trans hid, hattempt.trans hsame, hstate⟩

theorem recordAirInterrupted_recorded {execution : Uuid}

    (hs : Sound s) :
    Ensures (recordAirInterrupted w execution attemptToken lastEvidenceAt duration actorKind) s
      fun _ s' => ∃ e ∈ s'.executions,
        (Operation.recordAirInterrupted execution attemptToken lastEvidenceAt duration
          actorKind).Recorded e := by
  unfold recordAirInterrupted
  refine lockForEvidence_bind hs fun messages row hrow hid hmessages => ?_
  dsimp only
  split
  · next hrecorded => exact Ensures.pure ⟨row, hrow, hid, hrecorded.2, hrecorded.1⟩
  · refine Ensures.refuseIf_bind fun hstarted => Ensures.raised_bind fun evidence hchecked => ?_
    refine (endAiring_recorded hs hrow (not_not.mp hstarted) rfl hmessages).mono ?_
    rintro _ s' ⟨e, he, hid', hattempt, hstate⟩
    have hsame := Execution.attemptText_of_same (of_checked hchecked).1
    exact ⟨e, he, hid'.trans hid, hattempt.trans hsame, hstate⟩

theorem operate_recorded (hs : Sound s) {o : Operation} (h : o.isEvidence = true) :
    Ensures (operate w deck o) s fun _ s' => ∃ e ∈ s'.executions, o.Recorded e := by
  cases o with
  | recordAirStarted => exact recordAirStarted_recorded.ignore
  | recordAirCompleted => exact (recordAirCompleted_recorded hs).ignore
  | recordAirInterrupted => exact (recordAirInterrupted_recorded hs).ignore
  | _ => cases h

/-- Accepted evidence is on record. -/
theorem Operated.recorded (o : Operated) (hs : Sound s) (hevidence : o.operation.isEvidence = true)
    (haccepted : o.accepted s = true) :
    ∃ e ∈ (o.step s).executions, o.operation.Recorded e := by
  unfold accepted at haccepted
  cases hrun : ((operate o.world o.deck o.operation).commit s).1 with
  | error refusal =>
    rw [hrun] at haccepted
    cases haccepted
  | ok result => exact commit_ok (operate_recorded hs hevidence) hrun

/-! ## Without a write -/

/-- The evidence does not fit the row: it is of another attempt, of an airing that is not on (for
a start, of one that the engine does not hold), or of an end before the start. -/
def Operation.Misfits (e : Execution) : Operation → Prop
  | .recordAirStarted execution attemptToken _ _ _ =>
    e.id = execution ∧ (e.isOtherAttempt attemptToken = true ∨ e.state.isEngineHeld = false)
  | .recordAirCompleted execution attemptToken ended _ _
  | .recordAirInterrupted execution attemptToken ended _ _ =>
    e.id = execution ∧ (e.isOtherAttempt attemptToken = true ∨ e.state ≠ .started ∨
      ∃ endedAt startedAt, ended = some endedAt ∧ e.startedAt = some startedAt ∧
        endedAt < startedAt)
  | _ => False

/-- Evidence on record is no evidence that the row still waits for. -/
theorem Operation.Recorded.misfits {o : Operation} (h : o.Recorded e) : o.Misfits e := by
  cases o with
  | recordAirStarted =>
    obtain ⟨hid, -, -, hstate⟩ := h
    refine ⟨hid, .inr ?_⟩
    cases hrow : e.state <;> simp [hrow, ExecutionState.hasAired,
      ExecutionState.isEngineHeld] at *
  | recordAirCompleted => exact ⟨h.1, .inr (.inl (by simp [h.2.2]))⟩
  | recordAirInterrupted => exact ⟨h.1, .inr (.inl (by simp [h.2.2]))⟩
  | _ => cases h

theorem recordAirStarted_unchanged {execution : Uuid} (hs : Sound s) (he : e ∈ s.executions)
    (h : (Operation.recordAirStarted execution attemptToken startedAt claimedAt
      actorKind).Misfits e) :
    Ensures (recordAirStarted w execution attemptToken startedAt claimedAt actorKind) s
      fun _ s' => s' = s := by
  obtain ⟨hid, hmisfit⟩ := h
  unfold recordAirStarted
  refine Ensures.require_bind fun started _ => lockPolicy_bind ?_
  refine getExecution_bind fun row hrow hid' => Ensures.refuseIf_bind fun hattempt => ?_
  have hsame := hs.execution he hrow (hid.trans hid'.symm)
  subst hsame
  split
  · exact Ensures.pure rfl
  · refine Ensures.refuseIf_bind fun hheld => absurd hmisfit ?_
    simp only [ExecutionState.isEngineHeld, decide_eq_false_iff_not]
    tauto

theorem recordAirCompleted_unchanged {execution : Uuid} (hs : Sound s) (he : e ∈ s.executions)
    (h : (Operation.recordAirCompleted execution attemptToken endedAt duration
      actorKind).Misfits e) :
    Ensures (recordAirCompleted w execution attemptToken endedAt duration actorKind) s
      fun _ s' => s' = s := by
  obtain ⟨hid, hmisfit⟩ := h
  unfold recordAirCompleted
  refine lockForEvidence_bind hs fun messages row hrow hid' _ => ?_
  have hsame := hs.execution he hrow (hid.trans hid'.symm)
  subst hsame
  dsimp only
  split
  · exact Ensures.pure rfl
  · refine Ensures.refuseIf_bind fun hstarted => Ensures.raised_bind fun evidence hchecked => ?_
    obtain ⟨hattempt, hearly⟩ := of_checked hchecked
    rw [hattempt] at hmisfit
    rcases hmisfit with hother | hstate | hbefore
    · cases hother
    · exact absurd hstate hstarted
    · exact absurd hbefore hearly

theorem recordAirInterrupted_unchanged {execution : Uuid}

    (hs : Sound s) (he : e ∈ s.executions)
    (h : (Operation.recordAirInterrupted execution attemptToken lastEvidenceAt duration
      actorKind).Misfits e) :
    Ensures (recordAirInterrupted w execution attemptToken lastEvidenceAt duration actorKind) s
      fun _ s' => s' = s := by
  obtain ⟨hid, hmisfit⟩ := h
  unfold recordAirInterrupted
  refine lockForEvidence_bind hs fun messages row hrow hid' _ => ?_
  have hsame := hs.execution he hrow (hid.trans hid'.symm)
  subst hsame
  dsimp only
  split
  · exact Ensures.pure rfl
  · refine Ensures.refuseIf_bind fun hstarted => Ensures.raised_bind fun evidence hchecked => ?_
    obtain ⟨hattempt, hearly⟩ := of_checked hchecked
    rw [hattempt] at hmisfit
    rcases hmisfit with hother | hstate | hbefore
    · cases hother
    · exact absurd hstate hstarted
    · exact absurd hbefore hearly

/-- Evidence that does not fit leaves the whole store as it is. -/
theorem Operated.unchanged (o : Operated) (hs : Sound s) (he : e ∈ s.executions)
    (h : o.operation.Misfits e) : o.step s = s := by
  obtain ⟨world, deck, operation⟩ := o
  refine commit_rel (R := fun s s' => s' = s) rfl ?_
  cases operation with
  | recordAirStarted => exact (recordAirStarted_unchanged hs he h).ignore
  | recordAirCompleted => exact (recordAirCompleted_unchanged hs he h).ignore
  | recordAirInterrupted => exact (recordAirInterrupted_unchanged hs he h).ignore
  | _ => cases h

end IsadoraAir.ActiveMessages
