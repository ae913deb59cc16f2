import IsadoraAir.ActiveMessages.Advances

/-!
# The replay cadence

The end of an airing puts each of its active messages one interval off, and as long as the
generation stays nothing brings one of them back earlier. A scheduled execution is created when
a message is due, so it keeps the distance from the airing before it.
-/

namespace IsadoraAir.ActiveMessages

open Transaction

variable {actorKind : ActorKind} {m : Message} {duration : Option Confirmed} {policy : Policy}
  {attemptToken : String} {execution : Uuid} {interval : ℕ} {s s' : Store} {w : World}

/-! ## The end of an airing -/

/-- A message after the cadence of an airing of `ids`. -/
def Message.airedAt (ids : List Uuid) (anchor : Time) (completed : Bool) (m : Message) : Message :=
  if m.id ∈ ids ∧ m.state = .active then
    nextDue anchor (m.replayIntervalSeconds.getD 0) completed m
  else m

namespace Message

variable {ids : List Uuid} {anchor : Time} {completed : Bool}

@[simp] theorem airedAt_id (m : Message) : (m.airedAt ids anchor completed).id = m.id := by
  unfold airedAt
  split <;> rfl

@[simp] theorem airedAt_state (m : Message) : (m.airedAt ids anchor completed).state = m.state := by
  unfold airedAt
  split <;> rfl

theorem airedAt_sameSlot (m : Message) : (m.airedAt ids anchor completed).SameSlot m := by
  unfold airedAt
  split <;> exact ⟨rfl, rfl⟩

theorem airedAt_isComplete (h : m.IsComplete) : (m.airedAt ids anchor completed).IsComplete := by
  unfold airedAt
  split
  · exact ⟨h.1, h.2.1, rfl⟩
  · exact h

theorem airedAt_of_not (h : ¬(m.id ∈ ids ∧ m.state = .active)) :
    m.airedAt ids anchor completed = m := if_neg h

theorem airedAt_of (hid : m.id ∈ ids) (hactive : m.state = .active)
    (hinterval : m.replayIntervalSeconds = some interval) :
    m.airedAt ids anchor completed = nextDue anchor interval completed m := by
  unfold airedAt
  rw [if_pos ⟨hid, hactive⟩, hinterval]
  rfl

end Message

/-- One more row of the loop; a row that was changed before is changed to the same. -/
theorem airedAt_append {ms : List Message} (hids : (ms.map Message.id).Nodup) {ids : List Uuid}
    {anchor : Time} {completed : Bool} {x : Message} (hx : x ∈ ms)
    (hactive : x.state = .active) (hinterval : x.replayIntervalSeconds = some interval) :
    (ms.map (Message.airedAt ids anchor completed)).map
        (fun m => if m.id = x.id then nextDue anchor interval completed m else m) =
      ms.map (Message.airedAt (ids ++ [x.id]) anchor completed) := by
  rw [List.map_map]
  apply List.map_congr_left
  intro m hm
  rw [Function.comp_apply, Message.airedAt_id]
  by_cases hid : m.id = x.id
  · have hsame : m = x := eq_of_id_eq hids hm hx hid
    subst hsame
    have hnew : m.airedAt (ids ++ [m.id]) anchor completed = nextDue anchor interval completed m :=
      Message.airedAt_of (by simp) hactive hinterval
    rw [if_pos rfl, hnew]
    by_cases hmem : m.id ∈ ids
    · rw [Message.airedAt_of hmem hactive hinterval]
      cases completed <;> rfl
    · rw [Message.airedAt_of_not fun h => hmem h.1]
  · rw [if_neg hid]
    simp [Message.airedAt, hid]

theorem applyCadence_ensures {rows : List Message} {anchor : Time} {completed : Bool}
    (hids : (s.messages.map Message.id).Nodup) (hrows : ∀ x ∈ rows, x ∈ s.messages) :
    Ensures (applyCadence w policy execution rows anchor completed actorKind) s fun _ s' =>
      s'.policy = s.policy ∧ s'.executions = s.executions ∧
        s'.messages = s.messages.map (Message.airedAt (rows.map Message.id) anchor completed) := by
  unfold applyCadence
  refine Ensures.mono (Ensures.forM (I := fun done rest t => (∀ x ∈ rest, x ∈ s.messages) ∧
      t.policy = s.policy ∧ t.executions = s.executions ∧
        t.messages = s.messages.map (Message.airedAt (done.map Message.id) anchor completed))
      ⟨hrows, rfl, rfl, ?_⟩ ?_) fun _ _ h => h.2
  · have hnone : ∀ m ∈ s.messages, Message.airedAt [] anchor completed m = id m :=
      fun m _ => Message.airedAt_of_not nofun
    exact (List.map_id _).symm.trans (List.map_congr_left hnone).symm
  · rintro done x rest t ⟨hrest, hpolicy, hexecutions, hmessages⟩
    obtain ⟨hx, hrest⟩ := List.forall_mem_cons.mp hrest
    unfold cadenceRow
    by_cases hactive : x.state = .active
    · rw [if_neg (not_not.mpr hactive)]
      refine Ensures.require_bind fun interval hinterval => writeMessage_bind fun _ _ _ _ => ?_
      refine event_ensures ⟨hrest, hpolicy, hexecutions, ?_⟩
      rw [List.map_append, List.map_singleton, ← airedAt_append hids hx hactive hinterval,
        hmessages]
    · rw [if_pos hactive]
      refine Ensures.pure ⟨hrest, hpolicy, hexecutions, ?_⟩
      rw [hmessages]
      apply List.map_congr_left
      intro m hm
      by_cases hid : m.id = x.id
      · have hsame : m = x := eq_of_id_eq hids hm hx hid
        subst hsame
        rw [Message.airedAt_of_not fun h => hactive h.2, Message.airedAt_of_not fun h => hactive h.2]
      · simp [Message.airedAt, hid]

/-- The airing of `row` has ended at `ended`, and its messages are one interval off. -/
structure Ended (now : Time) (row : Execution) (state : ExecutionState) (ended : Time)
    (s s' : Store) : Prop where
  mem : row ∈ s.executions
  started : row.state = .started
  aired : state.hasAired = true
  policy : s'.policy = s.policy
  executions : ∃ duration, s'.executions = s.executions.map fun e =>
    if e.id = row.id then airEnded state now ended duration e else e
  messages : s'.messages = s.messages.map
    (Message.airedAt (Composition.messageIds row.compositionSnapshot) ended (state = .completed))

theorem endAiring_ensures {messages : List Message} {row : Execution} {state : ExecutionState}
    {ended : Time} {duration : Option ℤ} {name : String} {detail : Json} (hs : Sound s)
    (hrow : row ∈ s.executions) (hstarted : row.state = .started) (haired : state.hasAired = true)
    (hmessages : ∀ m, m ∈ messages ↔ m ∈ s.messages ∧
      m.id ∈ Composition.messageIds row.compositionSnapshot) :
    Ensures (endAiring w policy messages row state ended duration name detail actorKind) s
      fun _ s' => Ended w.now row state ended s s' := by
  unfold endAiring
  refine Ensures.refuseIf_bind fun _ => writeExecution_bind fun _ _ _ _ => event_bind ?_
  refine Ensures.bind (applyCadence_ensures ?_ ?_) fun _ s' h => Ensures.pure ?_
  · exact hs.messages.ids
  · exact fun x hx => ((hmessages x).mp hx).1
  obtain ⟨hpolicy, hexecutions, hchanged⟩ := h
  refine ⟨hrow, hstarted, haired, hpolicy, ⟨duration, hexecutions⟩, hchanged.trans ?_⟩
  apply List.map_congr_left
  intro m hm
  have hsame : m.id ∈ messages.map Message.id ↔
      m.id ∈ Composition.messageIds row.compositionSnapshot := by
    constructor
    · intro hid
      obtain ⟨m', hm', heq⟩ := List.mem_map.mp hid
      exact heq ▸ ((hmessages m').mp hm').2
    · exact fun hid => List.mem_map_of_mem ((hmessages m).mpr ⟨hm, hid⟩)
  simp only [Message.airedAt, hsame]

theorem lockForEvidence_bind {α : Type} {Q : α → Store → Prop}
    {f : Policy × List Message × Execution → Tx α} (hs : Sound s)
    (h : ∀ messages : List Message, ∀ row ∈ s.executions, row.id = execution →
      (∀ m, m ∈ messages ↔ m ∈ s.messages ∧
        m.id ∈ Composition.messageIds row.compositionSnapshot) →
      Ensures (f (s.policy, messages, row)) s Q) :
    Ensures (lockForEvidence execution >>= f) s Q := by
  unfold lockForEvidence
  simp only [bind_assoc, pure_bind]
  refine lockPolicy_bind (lockExecution_bind fun found hfound hid => ?_)
  refine lockMessages_bind fun messages hmessages => lockExecution_bind fun row hrow hid' => ?_
  have hsame : found = row :=
    List.inj_on_of_nodup_map hs.executions.ids hfound hrow (hid.trans hid'.symm)
  subst hsame
  exact h messages found hfound hid hmessages

theorem recordAirCompleted_ensures {endedAt : Option Time} (hs : Sound s) :
    Ensures (recordAirCompleted w execution attemptToken endedAt duration actorKind) s
      fun _ s' => s' = s ∨ ∃ row state ended, Ended w.now row state ended s s' := by
  unfold recordAirCompleted
  refine lockForEvidence_bind hs fun messages row hrow _ hmessages => ?_
  dsimp only
  split
  · exact Ensures.pure (.inl rfl)
  · refine Ensures.refuseIf_bind fun hstarted => Ensures.raised_bind fun evidence _ => ?_
    refine Ensures.require_bind fun micros _ => ?_
    exact (endAiring_ensures hs hrow (not_not.mp hstarted) rfl hmessages).mono
      fun _ s' h => .inr ⟨row, _, _, h⟩

theorem recordAirInterrupted_ensures {lastEvidenceAt : Option Time} (hs : Sound s) :
    Ensures (recordAirInterrupted w execution attemptToken lastEvidenceAt duration actorKind) s
      fun _ s' => s' = s ∨ ∃ row state ended, Ended w.now row state ended s s' := by
  unfold recordAirInterrupted
  refine lockForEvidence_bind hs fun messages row hrow _ hmessages => ?_
  dsimp only
  split
  · exact Ensures.pure (.inl rfl)
  · refine Ensures.refuseIf_bind fun hstarted => Ensures.raised_bind fun evidence _ => ?_
    exact (endAiring_ensures hs hrow (not_not.mp hstarted) rfl hmessages).mono
      fun _ s' h => .inr ⟨row, _, _, h⟩

end IsadoraAir.ActiveMessages
