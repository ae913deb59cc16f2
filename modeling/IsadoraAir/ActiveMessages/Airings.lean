import IsadoraAir.ActiveMessages.Calls

/-!
# The calls on executions

Materializing, reconciling and Replay Now sweep first and then find no unfinished
execution, or take the one there is. A new execution is composed of the active
messages that the sweep leaves.
-/

namespace IsadoraAir.ActiveMessages

open Transaction

variable {actorKind : ActorKind} {ev : Event} {e row : Execution} {extra : List Event}
  {policy : Policy} {request : Request} {snapshot : Snapshot} {stinger : Stinger} {s' : Store}
  {digest : String} {execution newId token : Uuid}
  {s : Store} {w : World} {α : Type} {Q : α → Store → Prop} {f : Option Execution → Tx α}

/-! ## The open execution -/

theorem newest_eq_none {rows : List Execution} (h : newest rows = none) : rows = [] := by
  cases rows with
  | nil => rfl
  | cons r rows => cases h

theorem openExecution_bind
    (hnone : (∀ e ∈ s.executions, e.state.isUnfinished = false) → Ensures (f none) s Q)
    (hsome : ∀ e, Ensures (f (some e)) s Q) : Ensures (openExecution >>= f) s Q := by
  unfold openExecution
  rw [bind_assoc]
  refine Ensures.get_bind ?_
  rw [pure_bind]
  cases hnewest : newest (s.executions.filter fun e => e.state.isUnfinished) with
  | none =>
    refine hnone fun e he => ?_
    have hempty := newest_eq_none hnewest
    simpa using List.filter_eq_nil_iff.mp hempty e he
  | some e => exact hsome e

theorem activeMessages_bind {f : List Message → Tx α}
    (h : Ensures (f (s.messages.filter fun m => m.state = .active)) s Q) :
    Ensures (activeMessages >>= f) s Q := h

/-! ## Creating -/

/-- The execution that `_create_execution` makes, with what it is composed of. -/
structure Composes (now : Time) (s : Store) (row : Execution) : Prop where
  generation : row.policyGeneration = s.policy.generation
  names : (Composition.messageIds row.compositionSnapshot).Perm
    ((s.messages.filter fun m => m.state = .active).map Message.id)
  fresh : ∀ m ∈ s.messages, m.state = .active → ∀ t ∈ m.expiresAt, now < t

theorem Sound.create {now : Time} (h : Sound s) (hid : row.id ∉ s.executions.map Execution.id)
    (hnone : ∀ e ∈ s.executions, e.state.isUnfinished = false) (hrow : Composes now s row)
    (hpolicy : s'.policy = s.policy) (hmessages : s'.messages = s.messages)
    (hexecutions : s'.executions = s.executions ++ [row]) (hevents : s.events <+: s'.events) :
    Lawful now s s' := by
  constructor
  · constructor
    · rw [hmessages]
      exact h.messages
    · rw [hpolicy, hexecutions]
      exact h.executions.append hid hnone hrow.generation
  · constructor
    · rw [hmessages, hpolicy, if_pos rfl, Nat.add_zero]
    · exact fun m hm _ => hmessages ▸ hm
    · exact fun e he => ⟨e, hexecutions ▸ List.mem_append_left _ he, rfl, rfl⟩
    · intro e he hnew
      rw [hexecutions] at he
      rw [hmessages]
      rcases List.mem_append.mp he with he | he
      · exact absurd (List.mem_map_of_mem he) hnew
      · rw [List.mem_singleton.mp he]
        refine ⟨fun id => ?_, hrow.fresh⟩
        rw [hrow.names.mem_iff, activeIds, List.mem_toFinset]
    · exact hevents

/-- The row and the event of a creation. -/
structure Created (s : Store) (policy : Policy) (snapshot : Snapshot) (request : Request)
    (row : Execution) (ev : Event) : Prop where
  id : row.id ∉ s.executions.map Execution.id
  generation : row.policyGeneration = policy.generation
  snapshot : row.compositionSnapshot = snapshot
  token : ev.requestToken = request.event.requestToken
  event : ev.event = request.event.event
  execution : ev.execution = some row.id

theorem createExecution_bind {unavailable : String} {dueAt : Time} {f : Execution → Tx α}
    (h : ∀ row ev, Created s policy snapshot request row ev → Ensures (f row)
      { s with executions := s.executions ++ [row], events := s.events ++ [ev] } Q) :
    Ensures (createExecution w policy snapshot digest unavailable request dueAt newId >>= f) s Q := by
  unfold createExecution
  rw [bind_assoc]
  refine insertExecution_bind fun hid => ?_
  rw [bind_assoc]
  refine event_bind ?_
  rw [pure_bind]
  exact h _ _ ⟨hid, rfl, rfl, rfl, rfl, rfl⟩

/-- The snapshot of the active messages names them. -/
theorem built_names {messages : List Message}
    (h : built w messages stinger = .ok (snapshot, digest)) :
    (Composition.messageIds snapshot).Perm (messages.map Message.id) := by
  unfold built at h
  cases hbuild : Composition.build w messages stinger.pin stinger.unavailable stinger.seconds with
  | error e =>
    rw [hbuild] at h
    cases h
  | ok built =>
    rw [hbuild] at h
    cases h
    exact Composition.messageIds_build hbuild

namespace Swept

variable {now : Time} {s₁ : Store}

/-- After the sweep, an execution of what is active. -/
theorem create (h : Swept now s s₁) (hcurrent : s₁.policy = policy)
    (hnone : ∀ e ∈ s₁.executions, e.state.isUnfinished = false)
    (hbuilt : built w (s₁.messages.filter fun m => m.state = .active) stinger =
      .ok (snapshot, digest)) (hrow : Created s₁ policy snapshot request row ev)
    (hpolicy : s'.policy = s₁.policy) (hmessages : s'.messages = s₁.messages)
    (hexecutions : s'.executions = s₁.executions ++ [row]) (hevents : s₁.events <+: s'.events) :
    Lawful now s s' := by
  have hcomposes : Composes now s₁ row :=
    ⟨hcurrent ▸ hrow.generation, hrow.snapshot ▸ built_names hbuilt, h.fresh⟩
  obtain ⟨hsound, hchanges⟩ := h.sound.create hrow.id hnone hcomposes hpolicy hmessages hexecutions
    hevents
  exact ⟨hsound, h.changes.then (fun e he => h.ids ▸ List.mem_map_of_mem he) hchanges hpolicy
    hmessages⟩

/-- Events that are not quiet, after the sweep's own. -/
theorem appendEvents (h : Swept now s s₁) (hpolicy : s'.policy = s₁.policy)
    (hmessages : s'.messages = s₁.messages) (hexecutions : s'.executions = s₁.executions)
    (hevents : s₁.events <+: s'.events) : Lawful now s s' := by
  constructor
  · constructor
    · rw [hmessages]
      exact h.sound.messages
    · rw [hpolicy, hexecutions]
      exact h.sound.executions
  · refine h.changes.then (fun e he => h.ids ▸ List.mem_map_of_mem he) ?_ hpolicy hmessages
    constructor
    · rw [hmessages, hpolicy, if_pos rfl, Nat.add_zero]
    · exact fun m hm _ => hmessages ▸ hm
    · exact fun e he => ⟨e, hexecutions ▸ he, rfl, rfl⟩
    · exact fun e he hnew => absurd (List.mem_map_of_mem (hexecutions ▸ he)) hnew
    · exact hevents

theorem append (h : Swept now s s₁) (hextra : ∀ e ∈ extra, e.IsQuiet) :
    Swept now s { s₁ with events := s₁.events ++ extra } where
  toLawful := h.appendEvents rfl rfl rfl (List.prefix_append _ _)
  ids := h.ids
  fresh := h.fresh
  quiet := by
    obtain ⟨before, hbefore, hevents⟩ := h.quiet
    refine ⟨before ++ extra, fun e he => ?_, ?_⟩
    · rcases List.mem_append.mp he with he | he
      · exact hbefore e he
      · exact hextra e he
    · rw [hevents, List.append_assoc]

end Swept

/-- The head of the three calls that create: expire, then suppress what became stale. -/
theorem expireLocked_bind
    {f : Policy × List Message → Tx α} (hs : Sound s) (hpolicy : s.policy = policy)
    (h : ∀ current expired s₁, s₁.policy = current → Swept w.now s s₁ →
      Ensures (f (current, expired)) s₁ Q) :
    Ensures (expireLocked w policy actorKind >>= f) s Q :=
  (expireLocked_ensures hs hpolicy).bind fun swept s₁ hswept =>
    h swept.1 swept.2 s₁ hswept.1 hswept.2

theorem suppressSwept_bind {s₁ : Store} {as : String → ℕ → Event}
    {f : Unit → Tx α} (hpolicy : s₁.policy = policy) (h₁ : Swept w.now s s₁)
    (has : ∀ name generation, (as name generation).requestToken = none ∧
      (as name generation).event = name)
    (h : ∀ s₂, s₂.policy = policy → Swept w.now s s₂ → Ensures (f ()) s₂ Q) :
    Ensures (suppressStale policy w.now as >>= f) s₁ Q :=
  suppressStale_sound_bind h₁.sound hpolicy has fun _ hextra => h _ hpolicy (h₁.append hextra)

theorem materializeDueExecution_ensures {blockingCodes : List String} (hs : Sound s) :
    Ensures (materializeDueExecution w actorKind blockingCodes newId) s
      fun _ s' => Kept w.now s s' := by
  unfold materializeDueExecution
  refine lockPolicy_bind ?_
  refine expireLocked_bind hs rfl fun policy _ s₁ hpolicy h₁ => ?_
  refine suppressSwept_bind hpolicy h₁ (fun _ _ => ⟨rfl, rfl⟩) fun s₂ hpolicy₂ h₂ => ?_
  refine openExecution_bind (fun hnone => ?_) fun e => Ensures.pure h₂.kept
  refine activeMessages_bind ?_
  dsimp only
  cases hdue : firstDue w.now (s₂.messages.filter fun m => m.state = .active) with
  | none => exact Ensures.pure h₂.kept
  | some dueAt =>
    dsimp only
    set messages := s₂.messages.filter fun m => m.state = .active
    cases checkEligible w policy messages (stingerOf w policy messages).seconds with
    | error refusal => exact Ensures.pure h₂.kept
    | ok total =>
      dsimp only
      refine Ensures.raised_bind fun r hbuilt => ?_
      obtain ⟨snapshot, digest⟩ := r
      refine Ensures.get_bind ?_
      dsimp only
      cases blockingFailure s₂ policy digest blockingCodes with
      | some code => exact Ensures.pure h₂.kept
      | none =>
        dsimp only
        refine createExecution_bind fun row ev hrow => Ensures.pure ?_
        obtain ⟨extra, hextra, hevents⟩ := h₂.quiet
        refine ⟨h₂.create hpolicy₂ hnone hbuilt hrow rfl rfl rfl (List.prefix_append _ _), extra ++ [ev], fun e he => ?_, ?_⟩
        · rcases List.mem_append.mp he with he | he
          · exact hextra e he
          · rw [List.mem_singleton.mp he]
            refine ⟨hrow.token, ?_, ?_⟩ <;> simp [hrow.event, actorEvent]
        · rw [hevents, List.append_assoc]

/-! ## Replay Now -/

/-- The execution a token resolves to, and that it resolves as before. -/
structure Resolved (token : Uuid) (s s' : Store) (e : Execution) (outcome : ReplayOutcome) :
    Prop where
  now : ∃ ev, priorRequest s' token = some ev ∧ ev.execution = some e.id
  again : ∀ prior, priorRequest s token = some prior →
    prior.execution = some e.id ∧ outcome = .repeated

/-- No call but a reconciliation records one. -/
def Event.IsUnlinked (e : Event) : Prop := e.event ≠ "reconciled" ∧ e.event ≠ "reconciles"

structure Replayed (now : Time) (token : Option Uuid) (s s' : Store)
    (result : Except ServiceError (Execution × ReplayOutcome)) : Prop extends Lawful now s s' where
  unlinked : ∃ extra : List Event, (∀ e ∈ extra, e.IsUnlinked) ∧ s'.events = s.events ++ extra
  resolved : ∀ r, result = .ok r → ∃ t, token = some t ∧ Resolved t s s' r.1 r.2

theorem executionOf_bind {id : Option Uuid} (hnone : id = none → Ensures (f none) s Q)
    (hsome : ∀ row, id = some row.id → Ensures (f (some row)) s Q) :
    Ensures (executionOf id >>= f) s Q := by
  cases id with
  | none => exact hnone rfl
  | some id =>
    unfold executionOf
    refine Ensures.bind (R := fun found s' => s' = s ∧ ∃ row : Execution, found = some row ∧
      row.id = id) ?_ ?_
    · refine Ensures.get_bind (Ensures.require_bind fun row hrow => Ensures.pure ⟨rfl, row, rfl, ?_⟩)
      exact (mem_of_find?_decide hrow).2
    · rintro _ s' ⟨rfl, row, rfl, rfl⟩
      exact hsome row rfl

/-- The event just recorded is the one that resolves its token. -/
theorem priorRequest_append (hnone : priorRequest s token = none) (hextra : ∀ e ∈ extra, e.IsQuiet)
    (hev : ev.requestToken = some token) (hevents : s'.events = s.events ++ extra ++ [ev]) :
    priorRequest s' token = some ev := by
  have hquiet : extra.find? (fun e => e.requestToken = some token) = none := by
    refine List.find?_eq_none.mpr fun e he => ?_
    simp [(hextra e he).1]
  unfold priorRequest at hnone ⊢
  rw [hevents, List.find?_append, List.find?_append, hnone, hquiet]
  simp [hev]

/-- The first time a token is resolved. -/
theorem Replayed.first {now : Time} {s₁ : Store}
    {outcome : ReplayOutcome} (hnone : priorRequest s token = none)
    (h₁ : Swept now s s₁) (h : Lawful now s s') (hevents : s'.events = s₁.events ++ [ev])
    (htoken : ev.requestToken = some token) (hexecution : ev.execution = some e.id)
    (hunlinked : ev.IsUnlinked) : Replayed now (some token) s s' (.ok (e, outcome)) := by
  obtain ⟨extra, hextra, hold⟩ := h₁.quiet
  rw [hold] at hevents
  refine ⟨h, ⟨extra ++ [ev], fun x hx => ?_, ?_⟩, fun r hr => ?_⟩
  · rcases List.mem_append.mp hx with hx | hx
    · exact (hextra x hx).2
    · rw [List.mem_singleton.mp hx]
      exact hunlinked
  · rw [hevents, List.append_assoc]
  · cases hr
    refine ⟨token, rfl, ⟨ev, ?_, hexecution⟩, fun prior hprior => ?_⟩
    · exact priorRequest_append hnone hextra htoken hevents
    · rw [hnone] at hprior
      cases hprior

theorem Replayed.again {now : Time} {prior : Event} (hs : Sound s)
    (hprior : priorRequest s token = some prior) (hexecution : prior.execution = some e.id) :
    Replayed now (some token) s s (.ok (e, .repeated)) := by
  refine ⟨⟨hs, .refl now s⟩, ⟨[], by simp, by simp⟩, fun r hr => ?_⟩
  cases hr
  refine ⟨token, rfl, ⟨prior, hprior, hexecution⟩, fun prior' hprior' => ?_⟩
  rw [hprior] at hprior'
  cases hprior'
  exact ⟨hexecution, rfl⟩

theorem Swept.refused {now : Time} {token : Option Uuid} {s₁ : Store} {e : ServiceError}
    (h : Swept now s s₁) : Replayed now token s s₁ (.error e) := by
  obtain ⟨extra, hextra, hevents⟩ := h.quiet
  exact ⟨h.toLawful, ⟨extra, fun x hx => (hextra x hx).2, hevents⟩, fun r hr => by cases hr⟩

theorem requestManualReplay_ensures {actor : Option User} {requestToken : Option Uuid}
    (hs : Sound s) :
    Ensures (requestManualReplay w actor requestToken newId) s
      fun r s' => Replayed w.now requestToken s s' r := by
  unfold requestManualReplay
  refine requireCapability_bind fun user _ => ?_
  refine Ensures.require_bind fun token htoken => ?_
  subst htoken
  refine lockPolicy_bind (Ensures.get_bind ?_)
  cases hprior : priorRequest s token with
  | some prior =>
    dsimp only
    refine Ensures.refuseIf_bind fun _ => ?_
    refine executionOf_bind (fun _ => ?_) fun row hrow => ?_
    · exact Ensures.require_bind fun e he => by cases he
    · refine Ensures.require_bind fun e he => Ensures.pure ?_
      cases he
      exact .again hs hprior hrow
  | none =>
    refine expireLocked_bind hs rfl fun policy _ s₁ hpolicy h₁ => ?_
    refine suppressSwept_bind hpolicy h₁ (fun _ _ => ⟨rfl, rfl⟩) fun s₂ hpolicy₂ h₂ => ?_
    refine openExecution_bind (fun hnone => ?_) fun e => ?_
    · refine activeMessages_bind (Ensures.refuseIf_bind fun _ => ?_)
      set messages := s₂.messages.filter fun m => m.state = .active
      dsimp only
      cases checkEligible w policy messages (stingerOf w policy messages).seconds with
      | error refusal => exact Ensures.pure h₂.refused
      | ok total =>
        dsimp only
        refine Ensures.raised_bind fun r hbuilt => ?_
        refine createExecution_bind fun row ev hrow => Ensures.pure ?_
        refine .first hprior h₂ (h₂.create hpolicy₂ hnone hbuilt hrow rfl rfl rfl
          (List.prefix_append _ _)) rfl hrow.token hrow.execution ?_
        constructor <;> simp [hrow.event, userEvent]
    · refine Ensures.refuseIf_bind fun _ => ?_
      refine event_bind (Ensures.pure ?_)
      refine .first hprior h₂ (h₂.appendEvents rfl rfl rfl (List.prefix_append _ _)) rfl rfl rfl ?_
      constructor <;> simp [userEvent]

/-! ## Reconciling -/

/-- The predecessor a `reconciles` event names. -/
def Event.predecessor (e : Event) : Option Uuid :=
  e.detail.obj?.bind fun items => (Json.lookup items "predecessor").str?

/-- A reconciliation recorded now, with the one successor it may have. -/
structure Reconciled (failed : Uuid) (s s' : Store) (successor : Option Uuid) : Prop where
  first : reconciliationOf s failed = none
  events : ∃ extra links : List Event, ∃ ev : Event, (∀ e ∈ extra, e.IsQuiet) ∧
    links.length ≤ 1 ∧ (∀ e ∈ links, e.event = "reconciles" ∧ e.predecessor = some failed) ∧
    ev.execution = some failed ∧ ev.event = "reconciled" ∧ ev.successor = successor ∧
    s'.events = s.events ++ extra ++ links ++ [ev]

/-- The reply of the record there is, or the record made now. -/
structure Answered (now : Time) (failed : Uuid) (s s' : Store)
    (result : Except ServiceError (Option Execution)) : Prop extends Lawful now s s' where
  recorded : (∃ extra : List Event, (∀ e ∈ extra, e.IsQuiet) ∧ s'.events = s.events ++ extra) ∧
      (∀ e, result = .ok e → ∃ prior, reconciliationOf s failed = some prior ∧
        prior.successor = e.map Execution.id) ∨
    ∃ e, result = .ok e ∧ Reconciled failed s s' (e.map Execution.id)

theorem recordReconciled_ensures {failed : Execution} {outcome : String}
    {successor : Option Execution} {Q : Except ServiceError (Option Execution) → Store → Prop}
    (h : ∀ ev : Event, ev.execution = some failed.id → ev.event = "reconciled" →
      ev.successor = successor.map Execution.id →
      Q (.ok successor) { s with events := s.events ++ [ev] }) :
    Ensures (recordReconciled policy actorKind failed outcome successor) s Q := by
  unfold recordReconciled
  refine event_bind (Ensures.pure (h _ rfl rfl ?_))
  cases successor <;> rfl

theorem Swept.answered {now : Time} {failed : Uuid} {s₁ : Store} {e : Option Execution}
    (h₁ : Swept now s s₁) (more links : List Event) (h : Lawful now s s')
    (hnone : reconciliationOf s failed = none) (hmore : ∀ x ∈ more, x.IsQuiet)
    (hlinks : links.length ≤ 1)
    (hpredecessor : ∀ x ∈ links, x.event = "reconciles" ∧ x.predecessor = some failed)
    (hexecution : ev.execution = some failed) (hevent : ev.event = "reconciled")
    (hsuccessor : ev.successor = e.map Execution.id)
    (hevents : s'.events = s₁.events ++ more ++ links ++ [ev]) :
    Answered now failed s s' (.ok e) := by
  obtain ⟨extra, hextra, hold⟩ := h₁.quiet
  refine ⟨h, .inr ⟨e, rfl, hnone, extra ++ more, links, ev, fun x hx => ?_, hlinks, hpredecessor,
    hexecution, hevent, hsuccessor, ?_⟩⟩
  · rcases List.mem_append.mp hx with hx | hx
    · exact hextra x hx
    · exact hmore x hx
  · rw [hevents, hold]
    simp only [List.append_assoc]

theorem reconcileStingerFailure_ensures (hs : Sound s) :
    Ensures (reconcileStingerFailure w execution actorKind newId) s
      fun r s' => Answered w.now execution s s' r := by
  unfold reconcileStingerFailure
  refine lockPolicy_bind ?_
  refine lockExecution_bind fun failed _ hfailed => ?_
  subst hfailed
  refine Ensures.refuseIf_bind fun _ => ?_
  refine Ensures.get_bind ?_
  cases hprior : reconciliationOf s failed.id with
  | some record =>
    dsimp only
    have hfound : ∀ e : Option Execution, record.successor = e.map Execution.id →
        Answered w.now failed.id s s (.ok e) := by
      intro e hsuccessor
      refine ⟨⟨hs, .refl w.now s⟩, .inl ⟨⟨[], by simp, by simp⟩, fun e' he' => ?_⟩⟩
      cases he'
      exact ⟨record, hprior, hsuccessor⟩
    exact executionOf_bind (fun hnone => Ensures.pure (hfound none hnone)) fun row hrow =>
      Ensures.pure (hfound (some row) hrow)
  | none =>
    dsimp only
    refine expireLocked_bind hs rfl fun policy _ s₁ hpolicy h₁ => ?_
    refine suppressSwept_bind hpolicy h₁ (fun _ _ => ⟨rfl, rfl⟩) fun s₂ hpolicy₂ h₂ => ?_
    have hrecord : ∀ {e : Option Execution} {ev : Event}, ev.execution = some failed.id →
        ev.event = "reconciled" → ev.successor = e.map Execution.id →
        Answered w.now failed.id s { s₂ with events := s₂.events ++ [ev] } (.ok e) := by
      intro e ev hexecution hevent hsuccessor
      exact h₂.answered [] [] (h₂.appendEvents rfl rfl rfl (List.prefix_append _ _)) hprior
        (by simp) (by simp) (by simp) hexecution hevent hsuccessor (by simp)
    split
    · exact recordReconciled_ensures fun ev => hrecord
    · refine openExecution_bind (fun hnone => ?_) fun e => recordReconciled_ensures fun ev => hrecord
      refine activeMessages_bind ?_
      set messages := s₂.messages.filter fun m => m.state = .active
      dsimp only
      split
      · exact recordReconciled_ensures fun ev => hrecord
      · cases checkEligible w policy messages (stingerOf w policy messages).seconds with
        | error refusal =>
          refine Ensures.pure ⟨h₂.toLawful, .inl ⟨h₂.quiet, fun e he => ?_⟩⟩
          cases he
        | ok total =>
          dsimp only
          refine Ensures.raised_bind fun r hbuilt => ?_
          refine createExecution_bind fun row made hrow => ?_
          refine event_bind ?_
          refine recordReconciled_ensures fun ev hexecution hevent hsuccessor => ?_
          refine h₂.answered [made] [_] (h₂.create hpolicy₂ hnone hbuilt hrow rfl rfl rfl ?_) hprior
            (Event.quiet_singleton ?_) (le_refl 1) ?_ hexecution hevent hsuccessor rfl
          · simp only [List.append_assoc]
            exact List.prefix_append _ _
          · refine ⟨hrow.token, ?_, ?_⟩ <;> simp [hrow.event, actorEvent]
          · intro x hx
            rw [List.mem_singleton.mp hx]
            exact ⟨rfl, rfl⟩

/-! ## Render outcomes -/

/-- One waiting execution goes on, or ends. -/
theorem Sound.advance (h : Sound s) (now : Time) (change : Execution → Execution)
    (hrow : row ∈ s.executions) (hunfinished : row.state.isUnfinished = true)
    (hid : ∀ e, (change e).id = e.id)
    (hsnapshot : ∀ e, (change e).compositionSnapshot = e.compositionSnapshot)
    (hcurrent : (change row).state.isPrestart = true →
      (change row).policyGeneration = s.policy.generation) (hpolicy : s'.policy = s.policy)
    (hmessages : s'.messages = s.messages)
    (hexecutions : s'.executions = s.executions.map fun e =>
      if e.id = row.id then change e else e) (hev : ev.IsQuiet)
    (hevents : s'.events = s.events ++ [ev]) : Kept now s s' := by
  have hat : ∀ e ∈ s.executions, e.id = row.id → e = row := fun e he heq =>
    List.inj_on_of_nodup_map h.executions.ids he hrow heq
  have hids : ∀ e : Execution, (if e.id = row.id then change e else e).id = e.id := by
    intro e
    split
    · exact hid e
    · rfl
  refine ⟨⟨⟨hmessages ▸ h.messages, ?_⟩, ?_⟩, [ev], Event.quiet_singleton hev, hevents⟩
  · rw [hexecutions, hpolicy]
    refine h.executions.map hids (fun e he hu => ?_) fun e he hp => ?_
    · by_cases hrowId : e.id = row.id
      · rw [hat e he hrowId]
        exact hunfinished
      · rwa [if_neg hrowId] at hu
    · by_cases hrowId : e.id = row.id
      · rw [if_pos hrowId, hat e he hrowId] at hp ⊢
        exact hcurrent hp
      · rw [if_neg hrowId] at hp ⊢
        exact h.executions.current e he hp
  · constructor
    · rw [hmessages, hpolicy, if_pos rfl, Nat.add_zero]
    · exact fun m hm _ => hmessages ▸ hm
    · intro e he
      refine ⟨_, hexecutions ▸ List.mem_map_of_mem he, hids e, ?_⟩
      split
      · exact hsnapshot e
      · rfl
    · intro e he hnew
      rw [hexecutions] at he
      obtain ⟨e', he', rfl⟩ := List.mem_map.mp he
      rw [hids e'] at hnew
      exact absurd (List.mem_map_of_mem he') hnew
    · exact hevents ▸ List.prefix_append _ _

/-- With nothing stale, suppressing records nothing but quiet events. -/
theorem Sound.suppressed_kept (h : Sound s) (now : Time)
    (hextra : ∀ e ∈ extra, e.IsQuiet) : Kept now s { s with events := s.events ++ extra } :=
  ⟨⟨⟨h.messages, h.executions⟩, ⟨by rw [if_pos rfl, Nat.add_zero], fun _ hm _ => hm,
    fun e he => ⟨e, he, rfl, rfl⟩, fun _ he hnew => absurd (List.mem_map_of_mem he) hnew,
    List.prefix_append _ _⟩⟩, extra, hextra, rfl⟩

theorem bindExecutionMix_ensures {media : Uuid} (hs : Sound s) :
    Ensures (bindExecutionMix w execution media actorKind) s fun _ s' => Kept w.now s s' := by
  unfold bindExecutionMix
  refine lockPolicy_bind ?_
  refine Ensures.raised_bind fun bound _ => ?_
  refine lockExecution_bind fun row hrow hid => ?_
  split
  · exact Ensures.pure (hs.kept w.now)
  · refine Ensures.refuseIf_bind fun hstate => ?_
    split
    · refine suppressStale_sound_bind hs rfl (fun _ _ => ⟨rfl, rfl⟩) fun extra hextra => ?_
      exact Ensures.pure (hs.suppressed_kept w.now hextra)
    · unfold bindProven
      rw [bind_assoc]
      refine Ensures.raised_bind fun seconds _ => ?_
      rw [bind_assoc]
      refine writeExecution_bind fun stored hstored hstoredId hmatch => ?_
      rw [bind_assoc]
      refine event_bind (Ensures.pure ?_)
      have hstate : stored.state = .pendingRender := (of_decide_eq_true hmatch).1
      have hcurrent := hs.executions.current stored hstored (by rw [hstate]; rfl)
      rw [← hstoredId]
      refine hs.advance w.now (fun e => { e with
        state := .ready, mixMedia := some bound.pk, readyAt := some w.now }) hstored
        (by rw [hstate]; rfl) (fun _ => rfl) (fun _ => rfl) (fun _ => hcurrent) rfl rfl rfl ?_ rfl
      exact ⟨rfl, by simp [actorEvent], by simp [actorEvent]⟩

theorem failExecution_ensures {code detail : String} (hs : Sound s) :
    Ensures (failExecution w execution code detail actorKind) s fun _ s' => Kept w.now s s' := by
  unfold failExecution
  refine Ensures.refuseIf_bind fun _ => ?_
  refine lockPolicy_bind ?_
  refine lockExecution_bind fun row hrow hid => ?_
  split
  · exact Ensures.pure (hs.kept w.now)
  · split
    · refine suppressStale_sound_bind hs rfl (fun _ _ => ⟨rfl, rfl⟩) fun extra hextra => ?_
      rw [← bind_pure (lockExecution row.id)]
      exact lockExecution_bind fun _ _ _ => Ensures.pure (hs.suppressed_kept w.now hextra)
    · refine writeExecution_bind fun stored hstored hstoredId hmatch => ?_
      refine event_bind (Ensures.pure ?_)
      have hstate : stored.state = .pendingRender := of_decide_eq_true hmatch
      rw [← hstoredId]
      refine hs.advance w.now (fun e => { e with
        state := .failed, openSlot := none, terminalAt := some w.now, failureCode := code,
        failureDetail := boundedDetail detail }) hstored (by rw [hstate]; rfl) (fun _ => rfl)
        (fun _ => rfl) (fun h => by cases h) rfl rfl rfl ?_ rfl
      exact ⟨rfl, by simp [actorEvent], by simp [actorEvent]⟩

end IsadoraAir.ActiveMessages
