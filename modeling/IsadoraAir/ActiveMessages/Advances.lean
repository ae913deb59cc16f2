import IsadoraAir.ActiveMessages.Frames
import IsadoraAir.ActiveMessages.Playout

/-!
# What a step does to the airings

The domain's own calls, the playout and the policy: what each of them leaves of the messages'
due times and of the airings that are on air or over. Only the end of an airing does more.
-/

namespace IsadoraAir.ActiveMessages

open Transaction

variable {actorKind : ActorKind} {again : Bool} {row : Execution} {state : ExecutionState}
  {actor : Option User} {policy : Policy} {change : Policy → Policy} {publication : Publication}
  {code detail engineInstance name : String} {execution id token : Uuid} {logItem : ℕ}
  {s s' : Store} {w : World} {deck : Deck} {scheduling : Prop}

/-! ## Executions -/

/-- On air, or ended for good: nothing but air evidence changes the row any more. -/
def ExecutionState.isFixed (s : ExecutionState) : Bool := s = .started ∨ s.isUnfinished = false

/-- It was on air and has ended. -/
def ExecutionState.hasAired (s : ExecutionState) : Bool := s = .completed ∨ s = .interrupted

/-- What may become of an execution whose airing does not end now. -/
structure Execution.Continues (e e' : Execution) : Prop where
  id : e'.id = e.id
  reason : e'.reason = e.reason
  generation : e'.policyGeneration = e.policyGeneration
  snapshot : e'.compositionSnapshot = e.compositionSnapshot
  fixed : e.state.isFixed = true → e' = e
  aired : e'.state.hasAired = true → e' = e
  prestart : e'.state.isPrestart = true → e.state.isPrestart = true

namespace Execution.Continues

variable {e e' e'' : Execution}

theorem refl (e : Execution) : e.Continues e :=
  ⟨rfl, rfl, rfl, rfl, fun _ => rfl, fun _ => rfl, fun h => h⟩

theorem trans (h : e.Continues e') (h' : e'.Continues e'') : e.Continues e'' where
  id := h'.id.trans h.id
  reason := h'.reason.trans h.reason
  generation := h'.generation.trans h.generation
  snapshot := h'.snapshot.trans h.snapshot
  fixed := by
    intro hfixed
    have hsame := h.fixed hfixed
    subst hsame
    exact h'.fixed hfixed
  aired := by
    intro haired
    have hsame := h'.aired haired
    subst hsame
    exact h.aired haired
  prestart := h.prestart ∘ h'.prestart

theorem unfinished (h : e.Continues e') (hu : e'.state.isUnfinished = true) :
    e.state.isUnfinished = true := by
  cases hstate : e.state.isUnfinished with
  | true => rfl
  | false =>
    rw [h.fixed (by simp [ExecutionState.isFixed, hstate]), hstate] at hu
    cases hu

end Execution.Continues

theorem Execution.Waits.continues {e e' : Execution} (h : e.Waits e') : e.Continues e' where
  id := h.id
  reason := h.reason
  generation := h.generation
  snapshot := h.snapshot
  fixed := by
    intro hfixed
    rcases h.changed with rfl | ⟨hprestart, -⟩
    · rfl
    · cases hstate : e.state <;> rw [hstate] at hfixed hprestart <;>
        simp [ExecutionState.isFixed, ExecutionState.isUnfinished, ExecutionState.isPrestart] at *
  aired := by
    intro haired
    rcases h.changed with rfl | ⟨-, hdomestic⟩
    · rfl
    · cases hstate : e'.state <;> rw [hstate] at haired hdomestic <;>
        simp [ExecutionState.hasAired, ExecutionState.isDomestic, ExecutionState.isPrestart] at *
  prestart := by
    intro hprestart
    rcases h.changed with rfl | ⟨hold, -⟩
    · exact hprestart
    · exact hold

/-! ## Steps -/

/-- What every step but the end of an airing does. -/
structure Paced (scheduling : Prop) (s s' : Store) : Prop where
  sound : Sound s'
  generation : s.policy.generation ≤ s'.policy.generation
  active : s'.policy.generation = s.policy.generation →
    activeIds s'.messages = activeIds s.messages
  messages : ∀ m ∈ s.messages, ∃ m' ∈ s'.messages, m.Continues m'
  executions : ∀ e ∈ s.executions, ∃ e' ∈ s'.executions, e.Continues e'
  sources : ∀ e' ∈ s'.executions, (∃ e ∈ s.executions, e.Continues e') ∨
    e'.id ∉ s.executions.map Execution.id ∧ e'.state.isDomestic = true ∧
      (e'.reason = .scheduled → scheduling) ∧
      ∀ id, id ∈ Composition.messageIds e'.compositionSnapshot ↔ id ∈ activeIds s'.messages

theorem perform_paced (hs : Sound s) (c : Call) :
    Ensures (perform w c) s fun _ s' => Paced c.schedules s s' := by
  intro r s' hrun
  obtain ⟨hlawful, -⟩ := perform_ensures hs c r s' hrun
  obtain ⟨-, hframe⟩ := perform_framed c s r s' hrun hs.keyed
  refine ⟨hlawful.sound, hframe.generation, fun hsame => ?_, hframe.messages, ?_, ?_⟩
  · have hgeneration := hlawful.changes.generation
    by_contra hne
    rw [if_neg hne] at hgeneration
    omega
  · intro e he
    obtain ⟨e', he', hwaits⟩ := hframe.executions e he
    exact ⟨e', he', hwaits.continues⟩
  · intro e' he'
    rcases hframe.sources e' he' with ⟨e, he, hwaits⟩ | ⟨hnew, hdomestic, hscheduled⟩
    · exact .inl ⟨e, he, hwaits.continues⟩
    · exact .inr ⟨hnew, hdomestic, hscheduled, (hlawful.changes.created e' he' hnew).1⟩

/-! ## The playout -/

/-- Executions go on, and nothing else changes. -/
structure Advances (s s' : Store) : Prop where
  generation : s'.policy.generation = s.policy.generation
  messages : s'.messages = s.messages
  ids : s'.executions.map Execution.id = s.executions.map Execution.id
  executions : ∀ e ∈ s.executions, ∃ e' ∈ s'.executions, e.Continues e'
  sources : ∀ e' ∈ s'.executions, ∃ e ∈ s.executions, e.Continues e'

/-- Over a store whose ids are keys. -/
def Advanced (s s' : Store) : Prop := Keyed s → Advances s s'

theorem Advances.keyed (h : Advances s s') (hkeyed : Keyed s) : Keyed s' :=
  ⟨h.messages ▸ hkeyed.messages, h.ids ▸ hkeyed.executions⟩

theorem Advances.refl (s : Store) : Advances s s :=
  ⟨rfl, rfl, rfl, fun e he => ⟨e, he, .refl e⟩, fun e he => ⟨e, he, .refl e⟩⟩

theorem Advances.trans {s'' : Store} (h : Advances s s') (h' : Advances s' s'') :
    Advances s s'' where
  generation := h'.generation.trans h.generation
  messages := h'.messages.trans h.messages
  ids := h'.ids.trans h.ids
  executions := by
    intro e he
    obtain ⟨e', he', hcontinues⟩ := h.executions e he
    obtain ⟨e'', he'', hcontinues'⟩ := h'.executions e' he'
    exact ⟨e'', he'', hcontinues.trans hcontinues'⟩
  sources := by
    intro e'' he''
    obtain ⟨e', he', hcontinues'⟩ := h'.sources e'' he''
    obtain ⟨e, he, hcontinues⟩ := h.sources e' he'
    exact ⟨e, he, hcontinues.trans hcontinues'⟩

instance : Std.Refl Advanced := ⟨fun s _ => .refl s⟩

instance : IsTrans Store Advanced where
  trans _ _ _ h h' hkeyed := (h hkeyed).trans (h' ((h hkeyed).keyed hkeyed))

theorem Advances.paced (h : Advances s s') (hs : Sound s) : Paced False s s' where
  sound := by
    have hkeyed := h.keyed hs.keyed
    refine ⟨h.messages ▸ hs.messages, hkeyed.executions, ?_, fun e' he' hp => ?_⟩
    · intro x hx x' hx' hu hu'
      obtain ⟨e, he, hcontinues⟩ := h.sources x hx
      obtain ⟨e', he', hcontinues'⟩ := h.sources x' hx'
      have hsame := hs.executions.oneUnfinished e he e' he' (hcontinues.unfinished hu)
        (hcontinues'.unfinished hu')
      refine List.inj_on_of_nodup_map hkeyed.executions hx hx' ?_
      rw [hcontinues.id, hcontinues'.id, hsame]
    · obtain ⟨e, he, hcontinues⟩ := h.sources e' he'
      rw [h.generation, hcontinues.generation]
      exact hs.executions.current e he (hcontinues.prestart hp)
  generation := h.generation.ge
  active := fun _ => by rw [h.messages]
  messages := fun m hm => ⟨m, h.messages ▸ hm, .refl m⟩
  executions := h.executions
  sources := fun e' he' => .inl (h.sources e' he')

theorem event_advanced {e : Event} : Respects Advanced (event e) := by
  intro s
  refine event_ensures fun _ => ⟨rfl, rfl, rfl, ?_, ?_⟩
  · exact fun e he => ⟨e, he, .refl e⟩
  · exact fun e he => ⟨e, he, .refl e⟩

theorem writeExecution_advanced {matching : Execution → Bool}
    {change : Execution → Execution} (h : ∀ e, matching e = true → e.Continues (change e)) :
    Respects Advanced (writeExecution id matching change) := by
  intro s
  rw [← bind_pure (writeExecution id matching change)]
  refine writeExecution_bind fun row hrow hid hmatch => Ensures.pure fun hkeyed => ?_
  have hrows := map_row_keyed Execution.Continues.refl hkeyed.executions hrow hid (h row hmatch)
  refine ⟨rfl, rfl, map_keys fun e he => (hrows e he).id, ?_, ?_⟩
  · exact fun e he => ⟨_, List.mem_map_of_mem he, hrows e he⟩
  · intro e' he'
    obtain ⟨e, he, rfl⟩ := List.mem_map.mp he'
    exact ⟨e, he, hrows e he⟩

theorem playoutEvent_advanced {fromState toState : String} {detail : Json} :
    Respects Advanced (playoutEvent name row actorKind fromState toState detail) :=
  lockPolicy_respects fun _ => event_advanced

/-- Not yet on air: what the playout may still change. -/
def ExecutionState.isPending (s : ExecutionState) : Bool :=
  s = .ready ∨ s = .accepted ∨ s = .claimed

theorem not_fixed_of_pending (h : state.isPending = true) : state.isFixed = false := by
  cases state <;> simp [ExecutionState.isPending, ExecutionState.isFixed,
    ExecutionState.isUnfinished] at *

theorem pending_of_engineHeld (h : state.isEngineHeld = true) : state.isPending = true := by
  cases state <;> simp [ExecutionState.isPending, ExecutionState.isEngineHeld] at *

/-- A pending execution goes on to a state that is neither prestart nor aired. -/
theorem Execution.Continues.of_pending {e e' : Execution} (h : e.state.isPending = true)
    (hid : e'.id = e.id) (hreason : e'.reason = e.reason)
    (hgeneration : e'.policyGeneration = e.policyGeneration)
    (hsnapshot : e'.compositionSnapshot = e.compositionSnapshot)
    (haired : e'.state.hasAired = false)
    (hprestart : e'.state.isPrestart = true → e.state.isPrestart = true) : e.Continues e' where
  id := hid
  reason := hreason
  generation := hgeneration
  snapshot := hsnapshot
  fixed := fun hfixed => by rw [not_fixed_of_pending h] at hfixed; cases hfixed
  aired := fun h => by rw [haired] at h; cases h
  prestart := hprestart

theorem state_of_unchanged {e : Execution} (h : row.isUnchanged e = true) :
    e.state = row.state := (of_decide_eq_true h).1

theorem failPlayout_advanced (h : row.state.isPending = true) :
    Respects Advanced (failPlayout w row code detail actorKind) := by
  unfold failPlayout
  refine Respects.bind (writeExecution_advanced fun e he => ?_) fun stored =>
    Respects.bind playoutEvent_advanced fun _ => Respects.pure
  exact .of_pending (state_of_unchanged he ▸ h) rfl rfl rfl rfl rfl nofun

theorem suppressPlayout_advanced (h : row.state.isPending = true)
    : Respects Advanced (suppressPlayout w row actorKind) := by
  unfold suppressPlayout
  refine Respects.bind (writeExecution_advanced fun e he => ?_) fun stored =>
    Respects.bind playoutEvent_advanced fun _ => Respects.pure
  exact .of_pending (state_of_unchanged he ▸ h) rfl rfl rfl rfl rfl nofun

theorem newAttempt_advanced (h : row.state.isPending = true) :
    Respects Advanced (newAttempt w row publication actorKind again token) := by
  unfold newAttempt
  refine Respects.ite (fun _ => ?_) fun _ => ?_
  · exact Respects.bind (failPlayout_advanced h) fun _ => Respects.pure
  · refine Respects.bind (writeExecution_advanced fun e he => ?_) fun stored =>
      Respects.bind playoutEvent_advanced fun _ => Respects.pure
    have hpending : e.state.isPending = true := state_of_unchanged he ▸ h
    refine .of_pending hpending rfl rfl rfl rfl ?_ fun h => h
    show e.state.hasAired = false
    cases hstate : e.state <;> rw [hstate] at hpending <;>
      simp [ExecutionState.isPending, ExecutionState.hasAired] at *

theorem redispatch_advanced (h : row.state.isPending = true) :
    Respects Advanced (redispatch w deck row publication actorKind again token) := by
  unfold redispatch
  refine Respects.ite (fun _ => ?_) fun _ => newAttempt_advanced h
  exact Respects.bind (failPlayout_advanced h) fun _ => Respects.pure

theorem dispatch_advanced : Respects Advanced (dispatch w deck execution token) := by
  unfold dispatch
  refine lockPolicy_respects fun policy => lockExecution_respects fun row => ?_
  refine Respects.ite (fun _ => Respects.pure) fun hready => ?_
  have hpending : row.state.isPending = true := by
    have hstate : row.state = .ready := by
      by_contra hne
      exact hready (.inl hne)
    rw [hstate]
    rfl
  cases deck.publicationOf row.id with
  | none => exact Respects.pure
  | some publication =>
    exact Respects.ite (fun _ => Respects.pure) fun _ => redispatch_advanced hpending

theorem getExecution_respects {α : Type} {R : Store → Store → Prop}
    {f : Execution → Tx α} (h : ∀ row, Respects R (f row)) :
    Respects R (getExecution id >>= f) := by
  unfold getExecution
  rw [bind_assoc]
  exact Respects.get_bind fun s => Respects.require_bind fun row _ => h row

theorem recordInsertion_advanced {attempt : Uuid} {track : ℕ} :
    Respects Advanced (recordInsertion w deck execution attempt track logItem engineInstance) := by
  unfold recordInsertion admitTrack
  simp only [bind_assoc, pure_bind]
  refine lockPolicy_respects fun policy => Respects.get_bind fun s => ?_
  refine Respects.require_bind fun row _ => Respects.refuseIf_bind fun _ => ?_
  refine Respects.refuseIf_bind fun _ => Respects.refuseIf_bind fun hstate => ?_
  refine Respects.refuseIf_bind fun _ => Respects.refuseIf_bind fun _ => ?_
  refine Respects.refuseIf_bind fun _ => Respects.refuseIf_bind fun _ => ?_
  refine Respects.bind (writeExecution_advanced fun e he => ?_) fun stored =>
    Respects.bind playoutEvent_advanced fun _ => Respects.pure
  have hpending : row.state.isPending = true := by
    cases h : row.state <;> simp [h, ExecutionState.isEngineHeld, ExecutionState.isPending] at *
  have hsame : e.state = row.state := (of_decide_eq_true he).1
  exact .of_pending (hsame ▸ hpending) rfl rfl rfl rfl rfl fun h => by cases h

theorem authorizeOpen_advanced {track : Option ℕ} :
    Respects Advanced (authorizeOpen w deck logItem track engineInstance) := by
  unfold authorizeOpen
  cases deck.insertionFor logItem with
  | none => exact Respects.pure
  | some insertion =>
    refine lockPolicy_respects fun policy => lockExecution_respects fun row => ?_
    refine Respects.ite (fun _ => Respects.ite (fun hstale => ?_) fun _ => Respects.pure) fun _ => ?_
    · refine Respects.bind (suppressPlayout_advanced ?_) fun _ => Respects.pure
      rw [hstale.1]
      rfl
    · refine Respects.ite (fun haccepted => ?_) fun _ => Respects.pure
      refine Respects.ite (fun _ => Respects.pure) fun _ => ?_
      refine Respects.bind (writeExecution_advanced fun e he => ?_) fun stored =>
        Respects.bind playoutEvent_advanced fun _ => Respects.pure
      have hstate : e.state = .accepted := (of_decide_eq_true he).1
      exact .of_pending (by rw [hstate]; rfl) rfl rfl rfl rfl rfl nofun

theorem reportNotAired_advanced {stage : String} :
    Respects Advanced (reportNotAired w deck logItem engineInstance stage token) := by
  unfold reportNotAired
  refine Respects.refuseIf_bind fun _ => ?_
  cases deck.insertionFor logItem with
  | none => exact Respects.pure
  | some insertion =>
    refine lockPolicy_respects fun policy => lockExecution_respects fun row => ?_
    refine Respects.ite (fun _ => Respects.pure) fun _ => ?_
    refine Respects.ite (fun _ => Respects.pure) fun hheld => ?_
    have hpending : row.state.isPending = true := by
      refine pending_of_engineHeld ?_
      by_contra hnot
      exact hheld (.inl (Bool.eq_false_iff.mpr hnot))
    refine Respects.ite (fun _ => Respects.pure) fun _ => ?_
    refine Respects.ite (fun _ => ?_) fun _ => Respects.ite (fun _ => ?_) fun _ => ?_
    · exact Respects.bind playoutEvent_advanced fun _ => Respects.pure
    · exact Respects.bind (suppressPlayout_advanced hpending) fun _ => Respects.pure
    · exact Respects.bind playoutEvent_advanced fun _ =>
        Respects.bind (redispatch_advanced hpending) fun _ => Respects.pure

theorem engineStarted_advanced :
    Respects Advanced (engineStarted w deck execution engineInstance token) := by
  unfold engineStarted
  refine lockPolicy_respects fun policy => lockExecution_respects fun row => ?_
  refine Respects.ite (fun _ => Respects.pure) fun hheld => ?_
  have hpending : row.state.isPending = true := by
    refine pending_of_engineHeld ?_
    by_contra hnot
    exact hheld (.inl (Bool.eq_false_iff.mpr hnot))
  refine Respects.ite (fun _ => ?_) fun _ => ?_
  · exact Respects.bind (suppressPlayout_advanced hpending) fun _ => Respects.pure
  · cases deck.publicationOf row.id with
    | none => exact Respects.pure
    | some publication =>
      exact Respects.bind (redispatch_advanced hpending) fun _ => Respects.pure

theorem engineHeldStep_advanced : Respects Advanced (engineHeldStep w deck execution token) := by
  unfold engineHeldStep
  refine lockPolicy_respects fun policy => lockExecution_respects fun row => ?_
  refine Respects.ite (fun _ => Respects.pure) fun hheld => ?_
  have hpending : row.state.isPending = true :=
    pending_of_engineHeld (Bool.eq_true_of_not_eq_false hheld)
  refine Respects.ite (fun _ => ?_) fun _ => ?_
  · exact Respects.bind (suppressPlayout_advanced hpending) fun _ => Respects.pure
  · cases deck.insertionOf row with
    | none =>
      refine Respects.ite (fun _ => Respects.pure) fun _ => ?_
      cases deck.publicationOf row.id with
      | none => exact Respects.pure
      | some publication =>
        exact Respects.bind (redispatch_advanced hpending) fun _ => Respects.pure
    | some insertion =>
      refine Respects.ite (fun _ => ?_) fun _ => Respects.pure
      exact Respects.bind playoutEvent_advanced fun _ =>
        Respects.bind (redispatch_advanced hpending) fun _ => Respects.pure

theorem failPublication_advanced : Respects Advanced (failPublication w execution code detail) := by
  unfold failPublication
  refine lockExecution_respects fun row => Respects.ite (fun h => ?_) fun _ => Respects.pure
  refine Respects.bind (failPlayout_advanced ?_) fun _ => Respects.pure
  rw [h.2]
  rfl

theorem recordPublicationRetry_advanced :
    Respects Advanced (recordPublicationRetry execution code detail) := by
  unfold recordPublicationRetry
  refine lockExecution_respects fun row => Respects.ite (fun _ => Respects.pure) fun _ => ?_
  exact Respects.bind playoutEvent_advanced fun _ => Respects.pure

theorem recordRenderRetry_advanced :
    Respects Advanced (recordRenderRetry execution code actorKind) := by
  unfold recordRenderRetry
  refine lockPolicy_respects fun policy => lockExecution_respects fun row => ?_
  refine Respects.ite (fun _ => Respects.pure) fun _ => ?_
  exact Respects.bind event_advanced fun _ => Respects.pure

theorem recordAirStarted_advanced {attemptToken : String} {startedAt claimedAt : Option Time} :
    Respects Advanced
      (recordAirStarted w execution attemptToken startedAt claimedAt actorKind) := by
  unfold recordAirStarted
  refine Respects.require_bind fun started _ => lockPolicy_respects fun policy => ?_
  refine getExecution_respects fun row => Respects.refuseIf_bind fun _ => ?_
  refine Respects.ite (fun _ => Respects.pure) fun _ => Respects.refuseIf_bind fun hheld => ?_
  refine Respects.bind (writeExecution_advanced fun e he => ?_) fun stored =>
    Respects.bind event_advanced fun _ => Respects.pure
  have hpending : row.state.isPending = true := by
    cases h : row.state <;> simp [h, ExecutionState.isPending] at *
  have hsame : e.state = row.state := (of_decide_eq_true he).1
  exact .of_pending (hsame ▸ hpending) rfl rfl rfl rfl rfl nofun

/-! ## The policy -/

/-- Only the policy has changed; under a new generation what waited is suppressed. -/
structure Renews (now : Time) (s s' : Store) : Prop where
  generation : s.policy.generation ≤ s'.policy.generation
  messages : s'.messages = s.messages
  executions : s'.executions = s.executions.map fun e =>
    if e.isStale s'.policy then suppressed s'.policy now e else e

theorem suppressed_waits (now : Time) (e : Execution) :
    e.Waits (if e.isStale policy then suppressed policy now e else e) := by
  by_cases h : e.isStale policy = true
  · rw [if_pos h]
    exact ⟨rfl, rfl, rfl, rfl, .inr ⟨not_stale h, rfl⟩⟩
  · rw [if_neg h]
    exact .refl e

theorem Renews.paced {now : Time} (h : Renews now s s') (hs : Sound s) : Paced False s s' where
  sound := ⟨h.messages ▸ hs.messages, h.executions ▸ hs.executions.suppress s'.policy now⟩
  generation := h.generation
  active := fun _ => by rw [h.messages]
  messages := fun m hm => ⟨m, h.messages ▸ hm, .refl m⟩
  executions := by
    intro e he
    exact ⟨_, h.executions ▸ List.mem_map_of_mem he, (suppressed_waits now e).continues⟩
  sources := by
    intro e' he'
    rw [h.executions] at he'
    obtain ⟨e, he, rfl⟩ := List.mem_map.mp he'
    exact .inl ⟨e, he, (suppressed_waits now e).continues⟩

theorem Sound.paced (h : Sound s) : Paced scheduling s s where
  sound := h
  generation := le_refl _
  active := fun _ => rfl
  messages := fun m hm => ⟨m, hm, .refl m⟩
  executions := fun e he => ⟨e, he, .refl e⟩
  sources := fun e he => .inl ⟨e, he, .refl e⟩

/-- A write under the generation that the policy has. -/
theorem writePolicy_bind {α : Type} {Q : α → Store → Prop} {generation : ℕ} {f : Policy → Tx α}
    (h : s.policy.generation = generation →
      Ensures (f (change s.policy)) { s with policy := change s.policy } Q) :
    Ensures (writePolicy generation change >>= f) s Q := by
  unfold writePolicy
  rw [bind_assoc]
  refine Ensures.get_bind ?_
  rw [bind_assoc]
  exact Ensures.refuseIf_bind fun hsame => h (not_not.mp hsame)

theorem renewPolicy_ensures {user : User} {detail : Json} (hs : Sound s)
    (hpolicy : s.policy = policy) (hchange : ∀ p, (change p).generation = p.generation) :
    Ensures (renewPolicy w policy user change name detail) s fun _ s' => Paced False s s' := by
  unfold renewPolicy
  refine bump_bind hpolicy (writePolicy_bind fun _ => event_bind ?_)
  refine suppressStale_bind hs.executions.ids (fun _ _ => ⟨rfl, rfl⟩) fun extra _ =>
    Ensures.pure ((?_ : Renews w.now s _).paced hs)
  refine ⟨?_, rfl, rfl⟩
  show s.policy.generation ≤ (change _).generation
  rw [hchange, hpolicy]
  exact Nat.le_succ _

theorem setDefaultReplayInterval_ensures {seconds : ℤ} (hs : Sound s) :
    Ensures (setDefaultReplayInterval w seconds actor) s fun _ s' => Paced False s s' := by
  unfold setDefaultReplayInterval
  refine requireCapability_bind fun user _ => Ensures.refuseIf_bind fun _ => lockPolicy_bind ?_
  split
  · exact Ensures.pure hs.paced
  · refine writePolicy_bind fun _ => event_bind (Ensures.pure ?_)
    exact Advances.paced ⟨rfl, rfl, rfl, fun e he => ⟨e, he, .refl e⟩,
      fun e he => ⟨e, he, .refl e⟩⟩ hs

theorem setStingerKey_ensures {key : String} (hs : Sound s) :
    Ensures (setStingerKey w key actor) s fun _ s' => Paced False s s' := by
  unfold setStingerKey
  refine requireCapability_bind fun user _ => Ensures.raised_bind fun _ _ => lockPolicy_bind ?_
  split
  · exact Ensures.pure hs.paced
  · refine renewPolicy_ensures hs rfl fun _ => ?_
    rfl

theorem setLimits_ensures {requested : Limits (Option ℤ)} (hs : Sound s) :
    Ensures (setLimits w requested actor) s fun _ s' => Paced False s s' := by
  unfold setLimits
  refine requireCapability_bind fun user _ => ?_
  cases requested.outOfRange with
  | some limit => exact Ensures.throw
  | none =>
    refine lockPolicy_bind (Ensures.refuseIf_bind fun _ => ?_)
    dsimp only
    split
    · exact Ensures.pure hs.paced
    · refine renewPolicy_ensures hs rfl fun _ => ?_
      rfl

theorem setNativeAiring_ensures {available enabled : Bool} (hs : Sound s) :
    Ensures (setNativeAiring w available enabled actor) s fun _ s' => Paced False s s' := by
  unfold setNativeAiring
  refine requireCapability_bind fun user _ => Ensures.refuseIf_bind fun _ => lockPolicy_bind ?_
  split
  · exact Ensures.pure hs.paced
  · refine renewPolicy_ensures hs rfl fun _ => ?_
    rfl

end IsadoraAir.ActiveMessages
