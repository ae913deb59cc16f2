import IsadoraAir.ActiveMessages.Soundness

/-!
# What the steps of a service do

One rule for each write, for the suppression and for the expiry: the rest of the
transaction goes on from the store it leaves.
-/

namespace IsadoraAir.ActiveMessages

open Transaction

variable {e : Event} {row : Message} {s' : Store}

variable {actorKind : ActorKind} {user : Option User} {policy : Policy} {as : String → ℕ → Event}
  {now : Time} {id : Uuid} {w : World}
  {α : Type} {s : Store} {Q : α → Store → Prop} {f : Unit → Tx α}

/-- An event that neither resolves a request nor records a reconciliation. -/
def Event.IsQuiet (e : Event) : Prop :=
  e.requestToken = none ∧ e.event ≠ "reconciled" ∧ e.event ≠ "reconciles"

theorem updateRow_eq_some {β : Type} {pk : β → Uuid} {matching : β → Bool} {change : β → β}
    {rows : List β} {result : β × List β} (h : updateRow pk id matching change rows = some result) :
    ∃ row ∈ rows, pk row = id ∧ matching row = true ∧ result.1 = change row ∧
      result.2 = rows.map fun row => if pk row = id then change row else row := by
  obtain ⟨row, hfind, rfl⟩ := Option.map_eq_some_iff.mp h
  have hrow := List.find?_some hfind
  simp only [Bool.decide_and, decide_eq_true_eq, Bool.decide_eq_true, Bool.and_eq_true] at hrow
  exact ⟨row, List.mem_of_find?_eq_some hfind, hrow.1, hrow.2, rfl, rfl⟩

theorem event_bind
    (h : Ensures (f ()) { s with events := s.events ++ [e] } Q) : Ensures (event e >>= f) s Q := by
  unfold event
  rw [bind_assoc]
  exact Ensures.refuseIf_bind fun _ => h

theorem event_ensures {Q : Unit → Store → Prop}
    (h : Q () { s with events := s.events ++ [e] }) : Ensures (event e) s Q := by
  unfold event
  exact Ensures.refuseIf_bind fun _ => Ensures.modify h

theorem insertMessage_bind {f : Message → Tx α} (h : row.id ∉ s.messages.map Message.id →
      Ensures (f row) { s with messages := s.messages ++ [row] } Q) :
    Ensures (insertMessage row >>= f) s Q := by
  unfold insertMessage
  rw [bind_assoc]
  refine Ensures.get_bind ?_
  rw [bind_assoc]
  exact Ensures.refuseIf_bind fun hid => h hid

theorem insertExecution_bind {row : Execution} {f : Execution → Tx α}
    (h : row.id ∉ s.executions.map Execution.id →
      Ensures (f row) { s with executions := s.executions ++ [row] } Q) :
    Ensures (insertExecution row >>= f) s Q := by
  unfold insertExecution
  rw [bind_assoc]
  refine Ensures.get_bind ?_
  rw [bind_assoc]
  exact Ensures.refuseIf_bind fun hid => h hid

theorem writeMessage_bind {matching : Message → Bool} {change : Message → Message}
    {f : Message → Tx α}
    (h : ∀ row ∈ s.messages, row.id = id → matching row = true → Ensures (f (change row))
      { s with messages := s.messages.map fun m => if m.id = id then change m else m } Q) :
    Ensures (writeMessage id matching change >>= f) s Q := by
  unfold writeMessage
  rw [bind_assoc]
  refine Ensures.get_bind ?_
  rw [bind_assoc]
  refine Ensures.require_bind fun updated hupdated => ?_
  obtain ⟨row, hrow, hid, hmatch, hfirst, hsecond⟩ := updateRow_eq_some hupdated
  have hnext := h row hrow hid hmatch
  rw [← hfirst, ← hsecond] at hnext
  exact hnext

theorem writeExecution_bind {matching : Execution → Bool}
    {change : Execution → Execution} {f : Execution → Tx α}
    (h : ∀ row ∈ s.executions, row.id = id → matching row = true → Ensures (f (change row))
      { s with executions := s.executions.map fun e => if e.id = id then change e else e } Q) :
    Ensures (writeExecution id matching change >>= f) s Q := by
  unfold writeExecution
  rw [bind_assoc]
  refine Ensures.get_bind ?_
  rw [bind_assoc]
  refine Ensures.require_bind fun updated hupdated => ?_
  obtain ⟨row, hrow, hid, hmatch, hfirst, hsecond⟩ := updateRow_eq_some hupdated
  have hnext := h row hrow hid hmatch
  rw [← hfirst, ← hsecond] at hnext
  exact hnext

theorem bump_bind {f : Policy → Tx α} (hpolicy : s.policy = policy)
    (h : Ensures (f { policy with generation := policy.generation + 1 })
      { s with policy := { policy with generation := policy.generation + 1 } } Q) :
    Ensures (bump policy >>= f) s Q := by
  subst hpolicy
  unfold bump writePolicy
  rw [bind_assoc]
  refine Ensures.get_bind ?_
  rw [bind_assoc]
  exact Ensures.refuseIf_bind fun _ => h

theorem lockPolicy_bind {f : Policy → Tx α} (h : Ensures (f s.policy) s Q) :
    Ensures (lockPolicy >>= f) s Q := h

theorem lockMessage_bind {f : Message → Tx α}
    (h : ∀ row ∈ s.messages, row.id = id → Ensures (f row) s Q) :
    Ensures (lockMessage id >>= f) s Q := by
  unfold lockMessage
  rw [bind_assoc]
  refine Ensures.get_bind (Ensures.require_bind fun row hrow => ?_)
  have hid := List.find?_some hrow
  exact h row (List.mem_of_find?_eq_some hrow) (of_decide_eq_true hid)

theorem lockExecution_bind {f : Execution → Tx α}
    (h : ∀ row ∈ s.executions, row.id = id → Ensures (f row) s Q) :
    Ensures (lockExecution id >>= f) s Q := by
  unfold lockExecution
  rw [bind_assoc]
  refine Ensures.get_bind (Ensures.require_bind fun row hrow => ?_)
  have hid := List.find?_some hrow
  exact h row (List.mem_of_find?_eq_some hrow) (of_decide_eq_true hid)

/-- The capability checks read nothing of the store. -/
theorem requireCapability_bind {c : Capability} {f : User → Tx α}
    (h : ∀ u, user = some u → Ensures (f u) s Q) :
    Ensures (requireCapability w user c >>= f) s Q := by
  unfold requireCapability
  rw [bind_assoc]
  refine Ensures.require_bind fun u hu => ?_
  cases w.authorize u c with
  | none => exact h u hu
  | some refusal => exact Ensures.throw

theorem requireProducer_bind {f : User → Tx α}
    (h : ∀ u, Ensures (f u) s Q) : Ensures (requireProducer w user >>= f) s Q := by
  unfold requireProducer
  cases user with
  | none => exact requireCapability_bind fun u _ => h u
  | some u =>
    by_cases hcontrol : can w u .control = true
    · simp only [if_pos hcontrol]
      exact h u
    · simp only [if_neg hcontrol]
      exact requireCapability_bind fun u _ => h u

theorem requireEither_bind {f : User → Tx α}
    (h : ∀ u, Ensures (f u) s Q) : Ensures (requireEither w user >>= f) s Q := by
  unfold requireEither
  cases user with
  | none => exact requireCapability_bind fun u _ => h u
  | some u =>
    by_cases heither : can w u .produce = true ∨ can w u .control = true
    · simp only [if_pos heither]
      exact h u
    · simp only [if_neg heither]
      exact requireCapability_bind fun u _ => h u

/-! ## Loops over rows -/

/-- Changing one more row; a change made twice is a change made once. -/
theorem map_update_append {β : Type} (pk : β → Uuid) {f : β → β} (hpk : ∀ b, pk (f b) = pk b)
    (htwice : ∀ b, f (f b) = f b) (ids : List Uuid) (id : Uuid) (rows : List β) :
    (rows.map fun b => if pk b ∈ ids then f b else b).map (fun b => if pk b = id then f b else b) =
      rows.map fun b => if pk b ∈ ids ++ [id] then f b else b := by
  rw [List.map_map]
  apply List.map_congr_left
  intro b _
  by_cases hids : pk b ∈ ids
  · have hfirst : pk b ∈ ids ++ [id] := List.mem_append_left _ hids
    rw [Function.comp_apply, if_pos hids, if_pos hfirst, hpk, htwice, ite_self]
  · by_cases hid : pk b = id
    · simp only [Function.comp_apply, if_neg hids, if_pos hid]
      rw [if_pos (by simp [hid])]
    · simp [hids, hid]

/-- Every row that a loop has changed is one that the condition picks. -/
theorem map_picked {β : Type} {pk : β → Uuid} {f : β → β} {rows picked : List β}
    {condition : β → Bool} (hids : (rows.map pk).Nodup)
    (hpicked : ∀ b, b ∈ picked ↔ b ∈ rows ∧ condition b = true) :
    (rows.map fun b => if pk b ∈ picked.map pk then f b else b) =
      rows.map fun b => if condition b then f b else b := by
  apply List.map_congr_left
  intro b hb
  by_cases h : condition b = true
  · rw [if_pos h, if_pos (List.mem_map_of_mem ((hpicked b).mpr ⟨hb, h⟩))]
  · rw [if_neg h, if_neg]
    intro hmem
    obtain ⟨b', hb', heq⟩ := List.mem_map.mp hmem
    obtain ⟨hold, hcondition⟩ := (hpicked b').mp hb'
    rw [List.inj_on_of_nodup_map hids hold hb heq] at hcondition
    exact h hcondition

theorem suppressRow_ensures {e : Execution}
    (has : ∀ name generation, (as name generation).requestToken = none ∧
      (as name generation).event = name) :
    Ensures (suppressRow policy now as e) s fun _ s' => ∃ ev : Event, ev.IsQuiet ∧ s' =
      { s with
        executions := s.executions.map fun r => if r.id = e.id then suppressed policy now r else r
        events := s.events ++ [ev] } := by
  unfold suppressRow
  refine writeExecution_bind fun row _ _ _ => ?_
  refine event_ensures ⟨_, ?_, rfl⟩
  refine ⟨(has "execution_suppressed" policy.generation).1, ?_, ?_⟩
  · show (as "execution_suppressed" policy.generation).event ≠ _
    rw [(has _ _).2]
    decide
  · show (as "execution_suppressed" policy.generation).event ≠ _
    rw [(has _ _).2]
    decide

theorem suppressStale_ensures (hids : (s.executions.map Execution.id).Nodup)
    (has : ∀ name generation, (as name generation).requestToken = none ∧
      (as name generation).event = name) :
    Ensures (suppressStale policy now as) s fun _ s' => ∃ extra : List Event,
      (∀ e ∈ extra, e.IsQuiet) ∧ s' =
        { s with
          executions := s.executions.map fun e =>
            if e.isStale policy then suppressed policy now e else e
          events := s.events ++ extra } := by
  unfold suppressStale
  refine Ensures.get_bind ?_
  refine Ensures.mono (Ensures.forM (I := fun done _ t => ∃ extra : List Event,
      (∀ e ∈ extra, e.IsQuiet) ∧ t =
        { s with
          executions := s.executions.map fun e =>
            if e.id ∈ done.map Execution.id then suppressed policy now e else e
          events := s.events ++ extra }) ⟨[], by simp, by simp⟩ ?_) ?_
  · rintro done e rest t ⟨extra, hquiet, rfl⟩
    refine (suppressRow_ensures has).mono fun _ t' hrow => ?_
    obtain ⟨ev, hev, rfl⟩ := hrow
    refine ⟨extra ++ [ev], ?_, ?_⟩
    · intro x hx
      rcases List.mem_append.mp hx with hx | hx
      · exact hquiet x hx
      · exact List.mem_singleton.mp hx ▸ hev
    · simp only [map_update_append Execution.id (f := suppressed policy now) (fun _ => rfl)
        (fun _ => rfl), List.map_append, List.map_singleton, List.append_assoc]
  · rintro _ s' ⟨extra, hquiet, rfl⟩
    refine ⟨extra, hquiet, ?_⟩
    rw [map_picked hids fun e => by rw [List.mem_mergeSort, List.mem_filter]]

theorem suppressStale_bind (hids : (s.executions.map Execution.id).Nodup)
    (has : ∀ name generation, (as name generation).requestToken = none ∧
      (as name generation).event = name)
    (h : ∀ extra : List Event, (∀ e ∈ extra, e.IsQuiet) → Ensures (f ())
      { s with
        executions := s.executions.map fun e =>
          if e.isStale policy then suppressed policy now e else e
        events := s.events ++ extra } Q) : Ensures (suppressStale policy now as >>= f) s Q := by
  refine (suppressStale_ensures hids has).bind fun _ s' hs' => ?_
  obtain ⟨extra, hquiet, rfl⟩ := hs'
  exact h extra hquiet

/-- With nothing stale, only the events could grow. -/
theorem suppressStale_sound_bind (hs : Sound s) (hpolicy : s.policy = policy)
    (has : ∀ name generation, (as name generation).requestToken = none ∧
      (as name generation).event = name)
    (h : ∀ extra : List Event, (∀ e ∈ extra, e.IsQuiet) →
      Ensures (f ()) { s with events := s.events ++ extra } Q) :
    Ensures (suppressStale policy now as >>= f) s Q := by
  subst hpolicy
  refine suppressStale_bind hs.executions.ids has fun extra hquiet => ?_
  rw [hs.map_suppressed]
  exact h extra hquiet

/-! ## A new composition -/

/-- The active set has changed, the generation with it, and what waited is suppressed. -/
theorem Sound.recompose (h : Sound s) (now : Time)
    (hgeneration : s'.policy.generation = s.policy.generation + 1)
    (hmessages : MessagesSound s'.messages) (hactive : activeIds s'.messages ≠ activeIds s.messages)
    (hfinal : ∀ m ∈ s.messages, m.state.isTerminal = true → m ∈ s'.messages)
    (hexecutions : s'.executions = s.executions.map fun e =>
      if e.isStale s'.policy then suppressed s'.policy now e else e)
    (hevents : s.events <+: s'.events) : Lawful now s s' := by
  have hsnapshot : ∀ e : Execution, (if e.isStale s'.policy then suppressed s'.policy now e
      else e).id = e.id ∧ (if e.isStale s'.policy then suppressed s'.policy now e
      else e).compositionSnapshot = e.compositionSnapshot := by
    intro e
    split <;> exact ⟨rfl, rfl⟩
  constructor
  · exact ⟨hmessages, hexecutions ▸ h.executions.suppress s'.policy now⟩
  · constructor
    · rw [if_neg hactive, hgeneration]
    · exact hfinal
    · intro e he
      exact ⟨_, hexecutions ▸ List.mem_map_of_mem he, hsnapshot e⟩
    · intro e he hnew
      rw [hexecutions] at he
      obtain ⟨e', he', rfl⟩ := List.mem_map.mp he
      exact absurd ((hsnapshot e').1 ▸ List.mem_map_of_mem he') hnew
    · exact hevents

/-- The messages that have not expired stay, and the others are out of the active set. -/
structure Swept (now : Time) (s s' : Store) : Prop extends Lawful now s s' where
  ids : s'.executions.map Execution.id = s.executions.map Execution.id
  fresh : ∀ m ∈ s'.messages, m.state = .active → ∀ t ∈ m.expiresAt, now < t
  quiet : ∃ extra : List Event, (∀ e ∈ extra, e.IsQuiet) ∧ s'.events = s.events ++ extra

theorem Sound.sweep (h : Sound s) (now : Time)
    (hgeneration : s'.policy.generation = s.policy.generation + 1)
    (hmessages : MessagesSound s'.messages) (hactive : activeIds s'.messages ≠ activeIds s.messages)
    (hfinal : ∀ m ∈ s.messages, m.state.isTerminal = true → m ∈ s'.messages)
    (hexecutions : s'.executions = s.executions.map fun e =>
      if e.isStale s'.policy then suppressed s'.policy now e else e)
    (hfresh : ∀ m ∈ s'.messages, m.state = .active → ∀ t ∈ m.expiresAt, now < t)
    (hquiet : ∃ extra : List Event, (∀ e ∈ extra, e.IsQuiet) ∧ s'.events = s.events ++ extra) :
    Swept now s s' := by
  obtain ⟨extra, -, hevents⟩ := id hquiet
  have hlawful := h.recompose now hgeneration hmessages hactive hfinal hexecutions
    (hevents ▸ List.prefix_append _ _)
  refine ⟨hlawful, ?_, hfresh, hquiet⟩
  rw [hexecutions, List.map_map]
  apply List.map_congr_left
  intro e _
  rw [Function.comp_apply]
  split <;> rfl

theorem isDue_iff {m : Message} :
    m.isDue now = true ↔ m.state = .active ∧ ∃ t ∈ m.expiresAt, t ≤ now := by
  cases hexpires : m.expiresAt <;> simp [Message.isDue, hexpires]

theorem expireRow_ensures :
    Ensures (expireRow w policy actorKind row) s fun _ s' => ∃ ev : Event, ev.IsQuiet ∧ s' =
      { s with
        messages := s.messages.map fun m =>
          if m.id = row.id then terminated .expired w.now none "expired" none m else m
        events := s.events ++ [ev] } := by
  unfold expireRow
  refine writeMessage_bind fun stored _ _ _ => ?_
  refine event_ensures ⟨_, ?_, rfl⟩
  refine ⟨rfl, ?_, ?_⟩ <;> simp [Event.about, actorEvent]

theorem expireRows_ensures {rows : List Message} :
    Ensures (rows.forM (expireRow w policy actorKind)) s fun _ s' => ∃ extra : List Event,
      (∀ e ∈ extra, e.IsQuiet) ∧ s' =
        { s with
          messages := s.messages.map fun m => if m.id ∈ rows.map Message.id then
            terminated .expired w.now none "expired" none m else m
          events := s.events ++ extra } := by
  refine Ensures.mono (Ensures.forM (I := fun done _ t => ∃ extra : List Event,
      (∀ e ∈ extra, e.IsQuiet) ∧ t =
        { s with
          messages := s.messages.map fun m : Message => if m.id ∈ done.map Message.id then
            terminated .expired w.now none "expired" none m else m
          events := s.events ++ extra }) ⟨[], by simp, by simp⟩ ?_) fun _ _ hend => hend
  rintro done row rest t ⟨extra, hquiet, rfl⟩
  refine expireRow_ensures.mono fun _ t' hrow => ?_
  obtain ⟨ev, hev, rfl⟩ := hrow
  refine ⟨extra ++ [ev], ?_, ?_⟩
  · intro x hx
    rcases List.mem_append.mp hx with hx | hx
    · exact hquiet x hx
    · exact List.mem_singleton.mp hx ▸ hev
  · simp only [map_update_append Message.id (f := terminated .expired w.now none "expired" none)
      (fun _ => rfl) (fun _ => rfl), List.map_append, List.map_singleton, List.append_assoc]

/-- The sweep, as `expire_due_messages` and every materialization make it. -/
theorem expireLocked_ensures (hs : Sound s) (hpolicy : s.policy = policy) :
    Ensures (expireLocked w policy actorKind) s fun r s' => s'.policy = r.1 ∧ Swept w.now s s' := by
  subst hpolicy
  unfold expireLocked
  refine Ensures.get_bind ?_
  unfold lockMessages
  rw [bind_assoc]
  refine Ensures.get_bind ?_
  rw [pure_bind]
  dsimp only
  set rows := ((s.messages.filter fun m => m.id ∈
    (s.messages.filter (Message.isDue w.now)).map Message.id).mergeSort
      fun a b => a.id ≤ b.id).filter (Message.isDue w.now) with hrows
  have hmem : ∀ m, m ∈ rows ↔ m ∈ s.messages ∧ m.isDue w.now = true := by
    intro m
    rw [hrows, List.mem_filter, List.mem_mergeSort, List.mem_filter]
    constructor
    · exact fun h => ⟨h.1.1, h.2⟩
    · exact fun h => ⟨⟨h.1, decide_eq_true (List.mem_map_of_mem (List.mem_filter.mpr h))⟩, h.2⟩
  by_cases hnone : rows = []
  · rw [if_pos hnone]
    refine Ensures.pure ⟨rfl, ⟨hs, .refl _ _⟩, rfl, fun m hm hactive t ht => ?_, [], by simp,
      by simp⟩
    have hnot : m ∉ rows := by simp [hnone]
    by_contra hle
    exact hnot ((hmem m).mpr ⟨hm, isDue_iff.mpr ⟨hactive, t, ht, not_lt.mp hle⟩⟩)
  · rw [if_neg hnone]
    refine bump_bind rfl ?_
    refine expireRows_ensures.bind fun _ s₁ hs₁ => ?_
    obtain ⟨extra, hquiet, rfl⟩ := hs₁
    rw [map_picked hs.messages.ids hmem]
    refine suppressStale_bind hs.executions.ids (fun _ _ => ⟨rfl, rfl⟩) fun more hmore => ?_
    refine Ensures.pure ⟨rfl, ?_⟩
    have hactive : ∀ m ∈ s.messages, (if m.isDue w.now then
        terminated .expired w.now none "expired" none m else m).state = .active →
          m.isDue w.now = false ∧ m.state = .active := by
      intro m _ ha
      by_cases hdue : m.isDue w.now = true
      · rw [if_pos hdue] at ha
        cases ha
      · rw [if_neg hdue] at ha
        exact ⟨Bool.eq_false_iff.mpr hdue, ha⟩
    have hid : ∀ m : Message, (if m.isDue w.now then
        terminated .expired w.now none "expired" none m else m).id = m.id := by
      intro m
      split <;> rfl
    have hmessages : MessagesSound (s.messages.map fun m => if m.isDue w.now then
        terminated .expired w.now none "expired" none m else m) := by
      refine hs.messages.map hid (fun m => ?_) fun m hm ha => ?_
      · split <;> exact ⟨rfl, rfl⟩
      · obtain ⟨hdue, hold⟩ := hactive m hm ha
        rw [if_neg (by simp [hdue])]
        exact ⟨hold, hs.messages.complete m hm hold⟩
    obtain ⟨row, hrow⟩ := List.exists_mem_of_ne_nil rows hnone
    obtain ⟨hrowMem, hrowDue⟩ := (hmem row).mp hrow
    have hchanged := hs.messages.activeIds_map_ne hid hrowMem (isDue_iff.mp hrowDue).1
      (by rw [if_pos hrowDue]; exact nofun)
    refine hs.sweep w.now rfl hmessages hchanged (fun m hm hterminal => ?_) rfl
      (fun m hm ha t ht => ?_) ⟨extra ++ more, ?_, ?_⟩
    · refine List.mem_map.mpr ⟨m, hm, if_neg ?_⟩
      intro hdue
      rw [(isDue_iff.mp hdue).1] at hterminal
      cases hterminal
    · obtain ⟨m', hm', rfl⟩ := List.mem_map.mp hm
      obtain ⟨hdue, hold⟩ := hactive m' hm' ha
      rw [if_neg (by simp [hdue])] at ht
      by_contra hle
      rw [isDue_iff.mpr ⟨hold, t, ht, not_lt.mp hle⟩] at hdue
      cases hdue
    · intro e he
      exact (List.mem_append.mp he).elim (hquiet e) (hmore e)
    · exact List.append_assoc _ _ _

end IsadoraAir.ActiveMessages
