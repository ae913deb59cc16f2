import IsadoraAir.ActiveMessages.Authority

/-!
# What the domain's own services leave alone

An active message keeps its interval and its due time until it leaves the active set, and an
execution that the engine holds, or that has ended, stays as it is. Both hold step by step, so a
service keeps them whatever its branches do.
-/

namespace IsadoraAir.ActiveMessages

open Transaction

variable {actorKind : ActorKind} {e e' : Execution} {expectedRevision : Option String}
  {expiresAt : Option Time} {actor user : Option User} {policy : Policy} {reason : String}
  {as : String → ℕ → Event} {now : Time} {execution id media message newId : Uuid}
  {s s' : Store} {w : World} {scheduling : Prop}

/-! ## Rows -/

/-- What may become of a message that nothing airs. -/
structure Message.Continues (m m' : Message) : Prop where
  id : m'.id = m.id
  active : m.state = .active → m'.state.isTerminal = true ∨ m'.state = .active ∧
    m'.replayIntervalSeconds = m.replayIntervalSeconds ∧ m'.nextDueAt = m.nextDueAt
  terminal : m.state.isTerminal = true → m'.state.isTerminal = true

theorem Message.Continues.refl (m : Message) : m.Continues m where
  id := rfl
  active := fun h => .inr ⟨h, rfl, rfl⟩
  terminal := fun h => h

theorem Message.Continues.trans {m m' m'' : Message} (h : m.Continues m')
    (h' : m'.Continues m'') : m.Continues m'' where
  id := h'.id.trans h.id
  active := by
    intro hactive
    rcases h.active hactive with hterminal | ⟨hactive', hinterval, hdue⟩
    · exact .inl (h'.terminal hterminal)
    · rcases h'.active hactive' with hterminal | ⟨hactive'', hinterval', hdue'⟩
      · exact .inl hterminal
      · exact .inr ⟨hactive'', hinterval'.trans hinterval, hdue'.trans hdue⟩
  terminal := h'.terminal ∘ h.terminal

/-- Waiting, or ended without having been with the engine. -/
def ExecutionState.isDomestic (s : ExecutionState) : Bool :=
  s.isPrestart ∨ s = .suppressed ∨ s = .failed

/-- The same occurrence; only one that still waits has changed. -/
structure Execution.Waits (e e' : Execution) : Prop where
  id : e'.id = e.id
  reason : e'.reason = e.reason
  generation : e'.policyGeneration = e.policyGeneration
  snapshot : e'.compositionSnapshot = e.compositionSnapshot
  changed : e' = e ∨ e.state.isPrestart = true ∧ e'.state.isDomestic = true

theorem Execution.Waits.refl (e : Execution) : e.Waits e := ⟨rfl, rfl, rfl, rfl, .inl rfl⟩

theorem Execution.Waits.trans {e'' : Execution} (h : e.Waits e') (h' : e'.Waits e'') :
    e.Waits e'' where
  id := h'.id.trans h.id
  reason := h'.reason.trans h.reason
  generation := h'.generation.trans h.generation
  snapshot := h'.snapshot.trans h.snapshot
  changed := by
    rcases h'.changed with rfl | ⟨hprestart, hdomestic⟩
    · exact h.changed
    · rcases h.changed with rfl | ⟨hfirst, -⟩
      · exact .inr ⟨hprestart, hdomestic⟩
      · exact .inr ⟨hfirst, hdomestic⟩

theorem Execution.Waits.domestic (h : e.Waits e')
    (hdomestic : e.state.isDomestic = true) : e'.state.isDomestic = true := by
  rcases h.changed with rfl | ⟨-, hdomestic'⟩
  · exact hdomestic
  · exact hdomestic'

/-! ## Stores -/

/-- What a service leaves of the rows; `scheduling` where it may create a scheduled execution. -/
structure Frame (scheduling : Prop) (s s' : Store) : Prop where
  generation : s.policy.generation ≤ s'.policy.generation
  messages : ∀ m ∈ s.messages, ∃ m' ∈ s'.messages, m.Continues m'
  origins : ∀ m' ∈ s'.messages, (∃ m ∈ s.messages, m.Continues m') ∨
    m'.id ∉ s.messages.map Message.id
  executions : ∀ e ∈ s.executions, ∃ e' ∈ s'.executions, e.Waits e'
  sources : ∀ e' ∈ s'.executions, (∃ e ∈ s.executions, e.Waits e') ∨
    e'.id ∉ s.executions.map Execution.id ∧ e'.state.isDomestic = true ∧
      (e'.reason = .scheduled → scheduling)

theorem Frame.refl (s : Store) : Frame scheduling s s where
  generation := le_refl _
  messages := fun m hm => ⟨m, hm, .refl m⟩
  origins := fun m hm => .inl ⟨m, hm, .refl m⟩
  executions := fun e he => ⟨e, he, .refl e⟩
  sources := fun e he => .inl ⟨e, he, .refl e⟩

theorem Frame.trans {s'' : Store} (h : Frame scheduling s s') (h' : Frame scheduling s' s'') :
    Frame scheduling s s'' where
  generation := h.generation.trans h'.generation
  messages := by
    intro m hm
    obtain ⟨m', hm', hcontinues⟩ := h.messages m hm
    obtain ⟨m'', hm'', hcontinues'⟩ := h'.messages m' hm'
    exact ⟨m'', hm'', hcontinues.trans hcontinues'⟩
  origins := by
    intro m'' hm''
    rcases h'.origins m'' hm'' with ⟨m', hm', hcontinues'⟩ | hnew
    · rcases h.origins m' hm' with ⟨m, hm, hcontinues⟩ | hnew
      · exact .inl ⟨m, hm, hcontinues.trans hcontinues'⟩
      · exact .inr (hcontinues'.id ▸ hnew)
    · refine .inr fun hold => hnew ?_
      obtain ⟨m, hm, hid⟩ := List.mem_map.mp hold
      obtain ⟨m', hm', hcontinues⟩ := h.messages m hm
      exact List.mem_map.mpr ⟨m', hm', hcontinues.id.trans hid⟩
  executions := by
    intro e he
    obtain ⟨e', he', hwaits⟩ := h.executions e he
    obtain ⟨e'', he'', hwaits'⟩ := h'.executions e' he'
    exact ⟨e'', he'', hwaits.trans hwaits'⟩
  sources := by
    intro e'' he''
    rcases h'.sources e'' he'' with ⟨e', he', hwaits'⟩ | ⟨hnew, hdomestic, hscheduled⟩
    · rcases h.sources e' he' with ⟨e, he, hwaits⟩ | ⟨hnew, hdomestic, hscheduled⟩
      · exact .inl ⟨e, he, hwaits.trans hwaits'⟩
      · refine .inr ⟨hwaits'.id ▸ hnew, hwaits'.domestic hdomestic, fun h => hscheduled ?_⟩
        exact hwaits'.reason.symm.trans h
    · refine .inr ⟨fun hold => hnew ?_, hdomestic, hscheduled⟩
      obtain ⟨e, he, hid⟩ := List.mem_map.mp hold
      obtain ⟨e', he', hwaits⟩ := h.executions e he
      exact List.mem_map.mpr ⟨e', he', hwaits.id.trans hid⟩

/-- The ids of the rows are their primary keys. -/
structure Keyed (s : Store) : Prop where
  messages : (s.messages.map Message.id).Nodup
  executions : (s.executions.map Execution.id).Nodup

theorem Sound.keyed (h : Sound s) : Keyed s := ⟨h.messages.ids, h.executions.ids⟩

/-- Over a store whose ids are keys. -/
def Framed (scheduling : Prop) (s s' : Store) : Prop :=
  Keyed s → Keyed s' ∧ Frame scheduling s s'

instance : Std.Refl (Framed scheduling) := ⟨fun s h => ⟨h, .refl s⟩⟩

instance : IsTrans Store (Framed scheduling) where
  trans _ _ _ h h' hkeyed := by
    obtain ⟨hkeyed', hframe⟩ := h hkeyed
    obtain ⟨hkeyed'', hframe'⟩ := h' hkeyed'
    exact ⟨hkeyed'', hframe.trans hframe'⟩

/-! ## The writes -/

/-- Only the policy's generation and the events have changed. -/
theorem framed_policy (hgeneration : s.policy.generation ≤ s'.policy.generation)
    (hmessages : s'.messages = s.messages) (hexecutions : s'.executions = s.executions) :
    Framed scheduling s s' := by
  intro hkeyed
  refine ⟨⟨hmessages ▸ hkeyed.messages, hexecutions ▸ hkeyed.executions⟩, hgeneration, ?_, ?_,
    ?_, ?_⟩
  · exact fun m hm => ⟨m, hmessages ▸ hm, .refl m⟩
  · exact fun m hm => .inl ⟨m, hmessages ▸ hm, .refl m⟩
  · exact fun e he => ⟨e, hexecutions ▸ he, .refl e⟩
  · exact fun e he => .inl ⟨e, hexecutions ▸ he, .refl e⟩

theorem event_framed {e : Event} : Respects (Framed scheduling) (event e) :=
  fun _ => event_ensures (framed_policy (le_refl _) rfl rfl)

theorem bump_framed : Respects (Framed scheduling) (bump policy) := by
  intro s
  unfold bump writePolicy
  refine Ensures.get_bind (Ensures.refuseIf_bind fun hsame _ _ hrun => ?_)
  cases hrun
  refine framed_policy ?_ rfl rfl
  show s.policy.generation ≤ policy.generation + 1
  omega

/-- Rows that change one by one. -/
theorem map_row_keyed {β : Type} {pk : β → Uuid} {change : β → β} {rows : List β}
    {R : β → β → Prop} (hrefl : ∀ b, R b b) (hkeyed : (rows.map pk).Nodup) {row : β}
    (hrow : row ∈ rows) (hid : pk row = id) (hchange : R row (change row)) :
    ∀ b ∈ rows, R b (if pk b = id then change b else b) := by
  intro b hb
  by_cases hbid : pk b = id
  · rw [if_pos hbid, List.inj_on_of_nodup_map hkeyed hb hrow (hbid.trans hid.symm)]
    exact hchange
  · rw [if_neg hbid]
    exact hrefl b

theorem map_keys {β : Type} {pk : β → Uuid} {rows : List β} {f : β → β}
    (h : ∀ b ∈ rows, pk (f b) = pk b) : (rows.map f).map pk = rows.map pk := by
  rw [List.map_map]
  exact List.map_congr_left h

theorem writeMessage_framed {matching : Message → Bool} {change : Message → Message}
    (h : ∀ m, matching m = true → m.Continues (change m)) :
    Respects (Framed scheduling) (writeMessage id matching change) := by
  intro s
  rw [← bind_pure (writeMessage id matching change)]
  refine writeMessage_bind fun row hrow hid hmatch => Ensures.pure fun hkeyed => ?_
  have hrows := map_row_keyed Message.Continues.refl hkeyed.messages hrow hid (h row hmatch)
  have hkeys := map_keys fun m hm => (hrows m hm).id
  refine ⟨⟨hkeys ▸ hkeyed.messages, hkeyed.executions⟩, le_refl _, ?_, ?_, ?_, ?_⟩
  · exact fun m hm => ⟨_, List.mem_map_of_mem hm, hrows m hm⟩
  · intro m' hm'
    obtain ⟨m, hm, rfl⟩ := List.mem_map.mp hm'
    exact .inl ⟨m, hm, hrows m hm⟩
  · exact fun e he => ⟨e, he, .refl e⟩
  · exact fun e he => .inl ⟨e, he, .refl e⟩

theorem insertMessage_framed {row : Message} :
    Respects (Framed scheduling) (insertMessage row) := by
  intro s
  rw [← bind_pure (insertMessage row)]
  refine insertMessage_bind fun hid => Ensures.pure fun hkeyed => ?_
  refine ⟨⟨?_, hkeyed.executions⟩, le_refl _, ?_, ?_, ?_, ?_⟩
  · rw [List.map_append, List.nodup_append]
    simpa using And.intro hkeyed.messages fun m hm heq => hid (List.mem_map.mpr ⟨m, hm, heq⟩)
  · exact fun m hm => ⟨m, List.mem_append_left _ hm, .refl m⟩
  · intro m hm
    rcases List.mem_append.mp hm with hm | hm
    · exact .inl ⟨m, hm, .refl m⟩
    · exact .inr (List.mem_singleton.mp hm ▸ hid)
  · exact fun e he => ⟨e, he, .refl e⟩
  · exact fun e he => .inl ⟨e, he, .refl e⟩

theorem writeExecution_framed {matching : Execution → Bool}
    {change : Execution → Execution} (h : ∀ e, matching e = true → e.Waits (change e)) :
    Respects (Framed scheduling) (writeExecution id matching change) := by
  intro s
  rw [← bind_pure (writeExecution id matching change)]
  refine writeExecution_bind fun row hrow hid hmatch => Ensures.pure fun hkeyed => ?_
  have hrows := map_row_keyed Execution.Waits.refl hkeyed.executions hrow hid (h row hmatch)
  have hkeys := map_keys fun e he => (hrows e he).id
  refine ⟨⟨hkeyed.messages, hkeys ▸ hkeyed.executions⟩, le_refl _, ?_, ?_, ?_, ?_⟩
  · exact fun m hm => ⟨m, hm, .refl m⟩
  · exact fun m hm => .inl ⟨m, hm, .refl m⟩
  · exact fun e he => ⟨_, List.mem_map_of_mem he, hrows e he⟩
  · intro e' he'
    obtain ⟨e, he, rfl⟩ := List.mem_map.mp he'
    exact .inl ⟨e, he, hrows e he⟩

theorem insertExecution_framed {row : Execution} (hdomestic : row.state.isDomestic = true)
    (hscheduled : row.reason = .scheduled → scheduling) :
    Respects (Framed scheduling) (insertExecution row) := by
  intro s
  rw [← bind_pure (insertExecution row)]
  refine insertExecution_bind fun hid => Ensures.pure fun hkeyed => ?_
  refine ⟨⟨hkeyed.messages, ?_⟩, le_refl _, ?_, ?_, ?_, ?_⟩
  · rw [List.map_append, List.nodup_append]
    simpa using And.intro hkeyed.executions fun e he heq => hid (List.mem_map.mpr ⟨e, he, heq⟩)
  · exact fun m hm => ⟨m, hm, .refl m⟩
  · exact fun m hm => .inl ⟨m, hm, .refl m⟩
  · exact fun e he => ⟨e, List.mem_append_left _ he, .refl e⟩
  · intro e he
    rcases List.mem_append.mp he with he | he
    · exact .inl ⟨e, he, .refl e⟩
    · rw [List.mem_singleton.mp he]
      exact .inr ⟨hid, hdomestic, hscheduled⟩

/-! ## The sweeps -/

theorem not_stale (h : e.isStale policy = true) :
    e.state.isPrestart = true := (of_decide_eq_true h).1

theorem suppressRow_framed (he : e.state.isPrestart = true) :
    Respects (Framed scheduling) (suppressRow policy now as e) := by
  unfold suppressRow
  refine Respects.bind (writeExecution_framed fun r hr => ?_) fun _ => event_framed
  have hstate : r.state = e.state := (of_decide_eq_true hr).1
  exact ⟨rfl, rfl, rfl, rfl, .inr ⟨hstate ▸ he, rfl⟩⟩

theorem suppressStale_framed : Respects (Framed scheduling) (suppressStale policy now as) := by
  unfold suppressStale
  refine Respects.get_bind fun s => Respects.forM fun e he => suppressRow_framed ?_
  rw [List.mem_mergeSort, List.mem_filter] at he
  exact not_stale he.2

theorem terminated_continues {state : MessageState}
    {supersededBy : Option Uuid} (h : state.isTerminal = true) (m : Message) :
    m.Continues (terminated state now user reason supersededBy m) :=
  ⟨rfl, fun _ => .inl h, fun _ => h⟩

theorem expireLocked_framed : Respects (Framed scheduling) (expireLocked w policy actorKind) := by
  unfold expireLocked
  refine Respects.get_bind fun s => ?_
  unfold lockMessages
  rw [bind_assoc]
  refine Respects.get_bind fun s => ?_
  rw [pure_bind]
  refine Respects.ite (fun _ => Respects.pure) fun _ => Respects.bind bump_framed fun policy => ?_
  refine Respects.bind (Respects.forM fun row _ => ?_) fun _ =>
    Respects.bind suppressStale_framed fun _ => Respects.pure
  unfold expireRow
  exact Respects.bind (writeMessage_framed fun m _ => terminated_continues rfl m) fun _ =>
    event_framed

/-! ## Reading -/

section Reading

variable {α : Type} {R : Store → Store → Prop} {f : User → Tx α}

theorem lockPolicy_respects {f : Policy → Tx α} (h : ∀ policy, Respects R (f policy)) :
    Respects R (lockPolicy >>= f) := fun s => lockPolicy_bind (h s.policy s)

theorem lockMessage_respects {f : Message → Tx α} (h : ∀ row, Respects R (f row)) :
    Respects R (lockMessage id >>= f) := fun s => lockMessage_bind fun row _ _ => h row s

theorem lockMessages_respects {ids : List Uuid} {f : List Message → Tx α}
    (h : ∀ rows, Respects R (f rows)) : Respects R (lockMessages ids >>= f) :=
  fun s => lockMessages_bind fun rows _ => h rows s

theorem lockExecution_respects {f : Execution → Tx α}
    (h : ∀ row, Respects R (f row)) : Respects R (lockExecution id >>= f) :=
  fun s => lockExecution_bind fun row _ _ => h row s

theorem openExecution_respects {f : Option Execution → Tx α} (h : ∀ e, Respects R (f e)) :
    Respects R (openExecution >>= f) :=
  fun s => openExecution_bind (fun _ => h none s) fun e => h (some e) s

theorem activeMessages_respects {f : List Message → Tx α} (h : ∀ ms, Respects R (f ms)) :
    Respects R (activeMessages >>= f) := fun s => activeMessages_bind (h _ s)

theorem executionOf_respects {id : Option Uuid} {f : Option Execution → Tx α}
    (h : ∀ e, Respects R (f e)) : Respects R (executionOf id >>= f) :=
  fun s => executionOf_bind (fun _ => h none s) fun row _ => h (some row) s

theorem requireCapability_respects {c : Capability}
    (h : ∀ u, Respects R (f u)) : Respects R (requireCapability w user c >>= f) :=
  fun s => requireCapability_bind fun u _ => h u s

theorem requireProducer_respects
    (h : ∀ u, Respects R (f u)) : Respects R (requireProducer w user >>= f) :=
  fun s => requireProducer_bind fun u => h u s

theorem requireEither_respects
    (h : ∀ u, Respects R (f u)) : Respects R (requireEither w user >>= f) :=
  fun s => requireEither_bind fun u => h u s

end Reading

/-! ## The calls on messages -/

theorem prepareMessage_framed {contentType : TypeRef} {title : String} :
    Respects (Framed scheduling) (prepareMessage w actor contentType title expiresAt newId) := by
  unfold prepareMessage
  refine requireProducer_respects fun user => ?_
  refine Respects.raised_bind fun t _ => Respects.raised_bind fun _ _ => ?_
  refine Respects.require_bind fun kind _ => Respects.refuseIf_bind fun _ => ?_
  refine Respects.raised_bind fun _ _ => Respects.get_bind fun s => ?_
  exact Respects.bind insertMessage_framed fun row =>
    Respects.bind event_framed fun _ => Respects.pure

theorem bindMessageMedia_framed :
    Respects (Framed scheduling) (bindMessageMedia w message media actor expectedRevision) := by
  unfold bindMessageMedia
  refine requireProducer_respects fun user => lockMessage_respects fun row => ?_
  refine Respects.get_bind fun s => ?_
  refine Respects.refuseIf_bind fun _ => Respects.refuseIf_bind fun _ => ?_
  refine Respects.refuseIf_bind fun _ => Respects.refuseIf_bind fun _ => ?_
  refine Respects.raised_bind fun t _ => Respects.raised_bind fun _ _ => ?_
  refine Respects.ite (fun _ => Respects.pure) fun _ => ?_
  refine Respects.raised_bind fun bound _ => Respects.raised_bind fun duration _ => ?_
  refine Respects.bind (writeMessage_framed fun m hm => ?_) fun row =>
    Respects.bind event_framed fun _ => Respects.pure
  have hprepared : m.state = .prepared := (of_decide_eq_true hm).1
  refine ⟨rfl, fun hactive => ?_, fun hterminal => hterminal⟩
  rw [hprepared] at hactive
  cases hactive

theorem setMessageExpiry_framed {expected : ExpectedExpiry} :
    Respects (Framed scheduling) (setMessageExpiry w message expiresAt actor expected) := by
  unfold setMessageExpiry
  refine Respects.raised_bind fun _ _ => requireProducer_respects fun user => ?_
  refine lockPolicy_respects fun policy => lockMessage_respects fun row => ?_
  refine Respects.raised_bind fun _ _ => Respects.refuseIf_bind fun _ => ?_
  refine Respects.ite (fun _ => Respects.pure) fun _ => ?_
  refine Respects.bind (writeMessage_framed fun m _ => ?_) fun row =>
    Respects.bind event_framed fun _ => Respects.pure
  exact ⟨rfl, fun hactive => .inr ⟨hactive, rfl, rfl⟩, fun hterminal => hterminal⟩

theorem supersede_framed {user : User} {successor : Uuid} {previous : Option Uuid} :
    Respects (Framed scheduling) (supersede w policy user successor previous) := by
  cases previous with
  | none => exact Respects.pure
  | some previous =>
    exact Respects.bind (writeMessage_framed fun m _ => terminated_continues rfl m) fun _ =>
      event_framed

theorem activateMessage_framed :
    Respects (Framed scheduling) (activateMessage w message actor expectedRevision) := by
  unfold activateMessage
  refine requireProducer_respects fun user => lockPolicy_respects fun policy => ?_
  refine Respects.get_bind fun s => Respects.require_bind fun target _ => ?_
  refine lockMessages_respects fun rows => Respects.require_bind fun row _ => ?_
  refine Respects.raised_bind fun _ _ => Respects.ite (fun _ => Respects.pure) fun _ => ?_
  refine Respects.refuseIf_bind fun _ => Respects.refuseIf_bind fun _ => ?_
  refine Respects.raised_bind fun t _ => Respects.require_bind fun mediaId _ => ?_
  refine Respects.refuseIf_bind fun _ => Respects.raised_bind fun media _ => ?_
  refine activeMessages_respects fun active => Respects.raised_bind fun _ _ => ?_
  refine Respects.bind bump_framed fun policy => Respects.bind supersede_framed fun _ => ?_
  refine Respects.bind (writeMessage_framed fun m hm => ?_) fun row =>
    Respects.bind event_framed fun _ => Respects.bind suppressStale_framed fun _ => Respects.pure
  have hprepared : m.state = .prepared := (of_decide_eq_true hm).1
  refine ⟨rfl, fun hactive => ?_, fun hterminal => ?_⟩
  · rw [hprepared] at hactive
    cases hactive
  · rw [hprepared] at hterminal
    cases hterminal

theorem clearMessage_framed {expectedState : Option MessageState} :
    Respects (Framed scheduling) (clearMessage w message actor reason expectedState) := by
  unfold clearMessage
  refine Respects.refuseIf_bind fun _ => requireEither_respects fun user => ?_
  refine Respects.refuseIf_bind fun _ => lockPolicy_respects fun policy => ?_
  refine lockMessage_respects fun row => Respects.ite (fun _ => Respects.pure) fun _ => ?_
  refine Respects.refuseIf_bind fun _ => Respects.ite (fun _ => ?_) fun _ => ?_
  · refine Respects.refuseIf_bind fun _ => ?_
    exact Respects.bind (writeMessage_framed fun m _ => terminated_continues rfl m) fun row =>
      Respects.bind event_framed fun _ => Respects.pure
  · refine Respects.raised_bind fun recalled _ => Respects.bind bump_framed fun policy => ?_
    exact Respects.bind (writeMessage_framed fun m _ => terminated_continues rfl m) fun row =>
      Respects.bind event_framed fun _ =>
        Respects.bind suppressStale_framed fun _ => Respects.pure

theorem expireDueMessages_framed :
    Respects (Framed scheduling) (expireDueMessages w actorKind) := by
  unfold expireDueMessages
  exact lockPolicy_respects fun policy =>
    Respects.bind expireLocked_framed fun swept => Respects.pure

/-! ## The calls on executions -/

theorem createExecution_framed {snapshot : Snapshot} {digest unavailable : String}
    {request : Request} {dueAt : Time} (hscheduled : request.reason = .scheduled → scheduling) :
    Respects (Framed scheduling)
      (createExecution w policy snapshot digest unavailable request dueAt newId) := by
  unfold createExecution
  exact Respects.bind (insertExecution_framed rfl hscheduled) fun execution =>
    Respects.bind event_framed fun _ => Respects.pure

theorem materializeDueExecution_framed {blockingCodes : List String} :
    Respects (Framed True) (materializeDueExecution w actorKind blockingCodes newId) := by
  unfold materializeDueExecution
  refine lockPolicy_respects fun policy => Respects.bind expireLocked_framed fun swept => ?_
  refine Respects.bind suppressStale_framed fun _ => openExecution_respects fun found => ?_
  cases found with
  | some unfinished => exact Respects.pure
  | none =>
    refine activeMessages_respects fun messages => ?_
    dsimp only
    cases firstDue w.now messages with
    | none => exact Respects.pure
    | some dueAt =>
      dsimp only
      cases checkEligible w swept.1 messages (stingerOf w swept.1 messages).seconds with
      | error refusal => exact Respects.pure
      | ok total =>
        refine Respects.raised_bind fun built _ => Respects.get_bind fun s => ?_
        cases blockingFailure s swept.1 built.2 blockingCodes with
        | some code => exact Respects.pure
        | none =>
          exact Respects.bind (createExecution_framed fun _ => trivial) fun execution =>
            Respects.pure

theorem recordReconciled_framed {failed : Execution}
    {outcome : String} {successor : Option Execution} :
    Respects (Framed scheduling) (recordReconciled policy actorKind failed outcome successor) := by
  unfold recordReconciled
  exact Respects.bind event_framed fun _ => Respects.pure

theorem reconcileStingerFailure_framed :
    Respects (Framed False) (reconcileStingerFailure w execution actorKind newId) := by
  unfold reconcileStingerFailure
  refine lockPolicy_respects fun policy => lockExecution_respects fun failed => ?_
  refine Respects.refuseIf_bind fun _ => Respects.get_bind fun s => ?_
  cases reconciliationOf s failed.id with
  | some record => exact executionOf_respects fun e => Respects.pure
  | none =>
    refine Respects.bind expireLocked_framed fun swept => ?_
    refine Respects.bind suppressStale_framed fun _ => ?_
    refine Respects.ite (fun _ => recordReconciled_framed) fun _ => ?_
    refine openExecution_respects fun found => ?_
    cases found with
    | some unfinished => exact recordReconciled_framed
    | none =>
      refine activeMessages_respects fun messages => ?_
      refine Respects.ite (fun _ => recordReconciled_framed) fun _ => ?_
      dsimp only
      cases checkEligible w swept.1 messages (stingerOf w swept.1 messages).seconds with
      | error refusal => exact Respects.pure
      | ok total =>
        refine Respects.raised_bind fun built _ => ?_
        exact Respects.bind (createExecution_framed nofun) fun successor =>
          Respects.bind event_framed fun _ => recordReconciled_framed

theorem requestManualReplay_framed {requestToken : Option Uuid} :
    Respects (Framed False) (requestManualReplay w actor requestToken newId) := by
  unfold requestManualReplay
  refine requireCapability_respects fun user => Respects.require_bind fun token _ => ?_
  refine lockPolicy_respects fun policy => Respects.get_bind fun s => ?_
  cases priorRequest s token with
  | some prior =>
    refine Respects.refuseIf_bind fun _ => executionOf_respects fun e => ?_
    exact Respects.require_bind fun execution _ => Respects.pure
  | none =>
    refine Respects.bind expireLocked_framed fun swept => ?_
    refine Respects.bind suppressStale_framed fun _ => openExecution_respects fun found => ?_
    cases found with
    | some unfinished =>
      refine Respects.refuseIf_bind fun _ => ?_
      exact Respects.bind event_framed fun _ => Respects.pure
    | none =>
      refine activeMessages_respects fun messages => Respects.refuseIf_bind fun _ => ?_
      dsimp only
      cases checkEligible w swept.1 messages (stingerOf w swept.1 messages).seconds with
      | error refusal => exact Respects.pure
      | ok total =>
        refine Respects.raised_bind fun built _ => ?_
        exact Respects.bind (createExecution_framed nofun) fun execution => Respects.pure

theorem bindExecutionMix_framed :
    Respects (Framed scheduling) (bindExecutionMix w execution media actorKind) := by
  unfold bindExecutionMix bindProven
  refine lockPolicy_respects fun policy => Respects.raised_bind fun bound _ => ?_
  refine lockExecution_respects fun row => Respects.ite (fun _ => Respects.pure) fun _ => ?_
  refine Respects.refuseIf_bind fun _ => Respects.ite (fun _ => ?_) fun _ => ?_
  · exact Respects.bind suppressStale_framed fun _ => Respects.pure
  · refine Respects.bind (Respects.raised_bind fun seconds _ => ?_) fun row => Respects.pure
    refine Respects.bind (writeExecution_framed fun e he => ?_) fun row =>
      Respects.bind event_framed fun _ => Respects.pure
    have hpending : e.state = .pendingRender := (of_decide_eq_true he).1
    exact ⟨rfl, rfl, rfl, rfl, .inr ⟨by rw [hpending]; rfl, rfl⟩⟩

theorem failExecution_framed {code detail : String} :
    Respects (Framed scheduling) (failExecution w execution code detail actorKind) := by
  unfold failExecution
  refine Respects.refuseIf_bind fun _ => lockPolicy_respects fun policy => ?_
  refine lockExecution_respects fun row => Respects.ite (fun _ => Respects.pure) fun _ => ?_
  refine Respects.ite (fun _ => Respects.bind suppressStale_framed fun _ => ?_) fun _ => ?_
  · rw [← bind_pure (lockExecution row.id)]
    exact lockExecution_respects fun row => Respects.pure
  · refine Respects.bind (writeExecution_framed fun e he => ?_) fun row =>
      Respects.bind event_framed fun _ => Respects.pure
    have hpending : e.state = .pendingRender := of_decide_eq_true he
    exact ⟨rfl, rfl, rfl, rfl, .inr ⟨by rw [hpending]; rfl, rfl⟩⟩

/-- Only a materialization may create a scheduled execution. -/
def Call.schedules : Call → Prop
  | .materialize _ _ _ => True
  | _ => False

theorem perform_framed (c : Call) : Respects (Framed c.schedules) (perform w c) := by
  cases c with
  | prepare actor contentType title expiresAt newId =>
    exact Respects.bind prepareMessage_framed fun m => Respects.pure
  | bindMedia message media actor expectedRevision =>
    exact Respects.bind bindMessageMedia_framed fun m => Respects.pure
  | setExpiry message expiresAt actor expected =>
    exact Respects.bind setMessageExpiry_framed fun m => Respects.pure
  | activate message actor expectedRevision =>
    exact Respects.bind activateMessage_framed fun m => Respects.pure
  | clear message actor reason expectedState =>
    exact Respects.bind clearMessage_framed fun m => Respects.pure
  | expire actorKind => exact Respects.bind expireDueMessages_framed fun ms => Respects.pure
  | materialize actorKind blockingCodes newId =>
    exact Respects.bind materializeDueExecution_framed fun e => Respects.pure
  | reconcile execution actorKind newId =>
    exact Respects.bind reconcileStingerFailure_framed fun e => Respects.pure
  | replayNow actor requestToken newId =>
    exact Respects.bind requestManualReplay_framed fun r => Respects.pure
  | bindMix execution media actorKind =>
    exact Respects.bind bindExecutionMix_framed fun e => Respects.pure
  | fail execution code detail actorKind =>
    exact Respects.bind failExecution_framed fun e => Respects.pure

end IsadoraAir.ActiveMessages
