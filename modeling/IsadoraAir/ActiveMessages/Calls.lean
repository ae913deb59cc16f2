import IsadoraAir.ActiveMessages.Effects

/-!
# The calls on messages

What preparing, binding, setting an expiry, activating, clearing and sweeping
keep. An activation supersedes first, and its slot is then free.
-/

namespace IsadoraAir.ActiveMessages

open Transaction

variable {ev : Event} {m row : Message} {change : Message → Message}
  {expectedRevision : Option String} {expiresAt : Option Time} {actor : Option User}
  {previous : Option Uuid} {policy : Policy} {s' : Store} {user : User} {message successor : Uuid}
  {s : Store} {w : World}

/-- With quiet events only. -/
structure Kept (now : Time) (s s' : Store) : Prop extends Lawful now s s' where
  quiet : ∃ extra : List Event, (∀ e ∈ extra, e.IsQuiet) ∧ s'.events = s.events ++ extra

theorem Swept.kept {now : Time} (h : Swept now s s') : Kept now s s' := ⟨h.toLawful, h.quiet⟩

theorem Sound.kept (h : Sound s) (now : Time) : Kept now s s :=
  ⟨⟨h, .refl now s⟩, [], by simp, by simp⟩

theorem Event.quiet_singleton {e : Event} (he : e.IsQuiet) : ∀ e' ∈ [e], e'.IsQuiet := by
  simpa using he

/-- Messages change, and the active set does not. -/
theorem Sound.rewrite (h : Sound s) (now : Time) (hpolicy : s'.policy = s.policy)
    (hexecutions : s'.executions = s.executions) (hmessages : MessagesSound s'.messages)
    (hactive : activeIds s'.messages = activeIds s.messages)
    (hfinal : ∀ m ∈ s.messages, m.state.isTerminal = true → m ∈ s'.messages)
    (hev : ev.IsQuiet) (hevents : s'.events = s.events ++ [ev]) : Kept now s s' where
  toLawful := by
    refine ⟨⟨hmessages, by rw [hpolicy, hexecutions]; exact h.executions⟩, ?_⟩
    constructor
    · rw [if_pos hactive, hpolicy, Nat.add_zero]
    · exact hfinal
    · intro e he
      exact ⟨e, hexecutions ▸ he, rfl, rfl⟩
    · intro e he hnew
      exact absurd (List.mem_map_of_mem (hexecutions ▸ he)) hnew
    · exact hevents ▸ List.prefix_append _ _
  quiet := ⟨[ev], Event.quiet_singleton hev, hevents⟩

namespace MessagesSound

variable {ms : List Message}

/-- A write to a row that is not terminal leaves the terminal rows. -/
theorem final_map (h : MessagesSound ms) (hrow : row ∈ ms) (hopen : row.state.isTerminal = false)
    (hm : m ∈ ms) (hterminal : m.state.isTerminal = true) :
    m ∈ ms.map fun m => if m.id = row.id then change m else m := by
  refine List.mem_map.mpr ⟨m, hm, if_neg fun hid => ?_⟩
  rw [eq_of_id_eq h.ids hm hrow hid, hopen] at hterminal
  cases hterminal

/-- A write to one row, which does not become active by it. -/
theorem map_row (h : MessagesSound ms) (hrow : row ∈ ms) (hid : ∀ m, (change m).id = m.id)
    (hslot : ∀ m, (change m).SameSlot m)
    (hactive : (change row).state = .active → row.state = .active ∧ (change row).IsComplete) :
    MessagesSound (ms.map fun m => if m.id = row.id then change m else m) := by
  apply h.map
  · intro m
    split
    · exact hid m
    · rfl
  · intro m
    split
    · exact hslot m
    · exact ⟨rfl, rfl⟩
  · intro m hm ha
    by_cases hmid : m.id = row.id
    · rw [if_pos hmid, eq_of_id_eq h.ids hm hrow hmid] at ha ⊢
      exact hactive ha
    · rw [if_neg hmid] at ha ⊢
      exact ⟨ha, h.complete m hm ha⟩

/-- A write that leaves the row active or leaves it inactive. -/
theorem activeIds_map_row (h : MessagesSound ms) (hrow : row ∈ ms) (hid : ∀ m, (change m).id = m.id)
    (hstate : (change row).state = .active ↔ row.state = .active) :
    activeIds (ms.map fun m => if m.id = row.id then change m else m) = activeIds ms := by
  apply activeIds_map_eq
  · intro m
    split
    · exact hid m
    · rfl
  · intro m hm
    by_cases hmid : m.id = row.id
    · rw [if_pos hmid, eq_of_id_eq h.ids hm hrow hmid]
      exact hstate
    · rw [if_neg hmid]

end MessagesSound

theorem not_terminal_of_prepared {state : MessageState} (h : state = .prepared) :
    state.isTerminal = false := by
  subst h
  rfl

theorem prepareMessage_ensures {contentType : TypeRef} {title : String}
    {newId : Uuid} (hs : Sound s) :
    Ensures (prepareMessage w actor contentType title expiresAt newId) s
      fun _ s' => Kept w.now s s' := by
  unfold prepareMessage
  refine requireProducer_bind fun user => ?_
  refine Ensures.raised_bind fun t _ => ?_
  refine Ensures.raised_bind fun _ _ => ?_
  refine Ensures.require_bind fun kind _ => ?_
  refine Ensures.refuseIf_bind fun _ => ?_
  refine Ensures.raised_bind fun _ _ => ?_
  refine Ensures.get_bind ?_
  refine insertMessage_bind fun hid => ?_
  refine event_bind (Ensures.pure ?_)
  have hstate : MessageState.prepared ≠ .active := by decide
  refine hs.rewrite w.now rfl rfl (hs.messages.append hid hstate)
    (MessagesSound.activeIds_append _ hstate) (fun m hm _ => List.mem_append_left _ hm) ?_ rfl
  exact ⟨rfl, by simp [userEvent], by simp [userEvent]⟩

theorem bindMessageMedia_ensures {media : Uuid} (hs : Sound s) :
    Ensures (bindMessageMedia w message media actor expectedRevision) s
      fun _ s' => Kept w.now s s' := by
  unfold bindMessageMedia
  refine requireProducer_bind fun user => ?_
  refine lockMessage_bind fun row _ _ => ?_
  refine Ensures.get_bind ?_
  dsimp only
  refine Ensures.refuseIf_bind fun _ => ?_
  refine Ensures.refuseIf_bind fun _ => ?_
  refine Ensures.refuseIf_bind fun _ => ?_
  refine Ensures.refuseIf_bind fun _ => ?_
  refine Ensures.raised_bind fun t _ => ?_
  refine Ensures.raised_bind fun _ _ => ?_
  by_cases hsame : row.messageMedia = some media
  · rw [if_pos hsame]
    exact Ensures.pure (hs.kept w.now)
  · rw [if_neg hsame]
    refine Ensures.raised_bind fun bound _ => ?_
    refine Ensures.raised_bind fun duration _ => ?_
    refine writeMessage_bind fun stored hstored hid hmatch => ?_
    refine event_bind (Ensures.pure ?_)
    have hprepared : stored.state = .prepared := (of_decide_eq_true hmatch).1
    rw [← hid]
    refine hs.rewrite w.now rfl rfl ?_ ?_ (fun m hm => ?_) ?_ rfl
    · refine hs.messages.map_row hstored (fun _ => rfl) (fun _ => ⟨rfl, rfl⟩) fun ha => ?_
      exact absurd (hprepared.symm.trans ha) (by decide)
    · exact hs.messages.activeIds_map_row hstored (fun _ => rfl) Iff.rfl
    · exact hs.messages.final_map hstored (not_terminal_of_prepared hprepared) hm
    · exact ⟨rfl, by simp [userEvent, Event.about], by simp [userEvent, Event.about]⟩

theorem not_terminal_of_expiryChange
    (h : requireExpiryChange w user row = .ok ()) : row.state.isTerminal = false := by
  unfold requireExpiryChange at h
  cases hstate : row.state with
  | prepared => rfl
  | active => rfl
  | cleared => simp [hstate] at h
  | expired => simp [hstate] at h

theorem setMessageExpiry_ensures {expected : ExpectedExpiry} (hs : Sound s) :
    Ensures (setMessageExpiry w message expiresAt actor expected) s
      fun _ s' => Kept w.now s s' := by
  unfold setMessageExpiry
  refine Ensures.raised_bind fun _ _ => ?_
  refine requireProducer_bind fun user => ?_
  refine lockPolicy_bind ?_
  refine lockMessage_bind fun row _ _ => ?_
  refine Ensures.raised_bind fun _ hallowed => ?_
  refine Ensures.refuseIf_bind fun _ => ?_
  by_cases hsame : row.expiresAt = expiresAt
  · rw [if_pos hsame]
    exact Ensures.pure (hs.kept w.now)
  · rw [if_neg hsame]
    dsimp only
    refine writeMessage_bind fun stored hstored hid hmatch => ?_
    refine event_bind (Ensures.pure ?_)
    have hopen : stored.state.isTerminal = false := by
      rw [(of_decide_eq_true hmatch).1]
      exact not_terminal_of_expiryChange hallowed
    rw [← hid]
    refine hs.rewrite w.now rfl rfl ?_ ?_ (fun m hm => ?_) ?_ rfl
    · refine hs.messages.map_row hstored (fun _ => rfl) (fun _ => ⟨rfl, rfl⟩) fun ha => ?_
      exact ⟨ha, hs.messages.complete stored hstored ha⟩
    · exact hs.messages.activeIds_map_row hstored (fun _ => rfl) Iff.rfl
    · exact hs.messages.final_map hstored hopen hm
    · exact ⟨rfl, by simp [userEvent, Event.about], by simp [userEvent, Event.about]⟩

theorem expireDueMessages_ensures {actorKind : ActorKind} (hs : Sound s) :
    Ensures (expireDueMessages w actorKind) s fun _ s' => Kept w.now s s' := by
  unfold expireDueMessages
  refine lockPolicy_bind ?_
  refine (expireLocked_ensures hs rfl).bind fun swept s' h => ?_
  exact Ensures.pure h.2.kept

/-! ## Activating and clearing -/

theorem mem_of_find?_decide {α : Type} {p : α → Prop} [DecidablePred p] {rows : List α} {a : α}
    (h : rows.find? (fun a => p a) = some a) : a ∈ rows ∧ p a :=
  ⟨List.mem_of_find?_eq_some h, by simpa using List.find?_some h⟩

/-- What superseding leaves: nothing active was added, and the previous message is not active. -/
structure Superseded (previous : Option Uuid) (s s' : Store) : Prop where
  policy : s'.policy = s.policy
  executions : s'.executions = s.executions
  messages : MessagesSound s'.messages
  active : ∀ m ∈ s'.messages, m.state = .active → m ∈ s.messages ∧ some m.id ≠ previous
  prepared : ∀ m ∈ s'.messages, m.state = .prepared → m ∈ s.messages
  final : ∀ m ∈ s.messages, m.state.isTerminal = true → m ∈ s'.messages
  quiet : ∃ extra : List Event, (∀ e ∈ extra, e.IsQuiet) ∧ s'.events = s.events ++ extra

theorem supersede_ensures (hs : MessagesSound s.messages) :
    Ensures (supersede w policy user successor previous) s fun _ s' => Superseded previous s s' := by
  cases previous with
  | none =>
    refine Ensures.pure ⟨rfl, rfl, hs, fun m hm _ => ⟨hm, nofun⟩, fun m hm _ => hm,
      fun m hm _ => hm, [], by simp, by simp⟩
  | some previous =>
    unfold supersede
    refine writeMessage_bind fun row hrow hid hmatch => ?_
    refine event_ensures ?_
    have hactive : row.state = .active := of_decide_eq_true hmatch
    have hback : ∀ {state : MessageState}, state ≠ .cleared → ∀ m ∈ s.messages.map (fun m =>
        if m.id = previous then terminated .cleared w.now (some user) "superseded" (some successor) m
        else m), m.state = state → m ∈ s.messages ∧ m.id ≠ previous := by
      intro state hstate m hm hm'
      obtain ⟨old, hold, rfl⟩ := List.mem_map.mp hm
      by_cases h : old.id = previous
      · rw [if_pos h] at hm'
        exact absurd hm'.symm hstate
      · rw [if_neg h]
        exact ⟨hold, h⟩
    refine ⟨rfl, rfl, ?_, fun m hm ha => ?_, fun m hm hp => (hback (by decide) m hm hp).1,
      fun m hm hterminal => ?_, _, Event.quiet_singleton ?_, rfl⟩
    · rw [← hid]
      exact hs.map_row hrow (fun _ => rfl) (fun _ => ⟨rfl, rfl⟩) nofun
    · obtain ⟨hold, hne⟩ := hback (by decide) m hm ha
      exact ⟨hold, fun h => hne (Option.some.inj h)⟩
    · rw [← hid]
      exact hs.final_map hrow (by rw [hactive]; rfl) hm hterminal
    · exact ⟨rfl, by simp [userEvent, Event.about], by simp [userEvent, Event.about]⟩

theorem supersede_bind {α : Type} {Q : α → Store → Prop} {f : Unit → Tx α}
    (hs : MessagesSound s.messages) (h : ∀ s', Superseded previous s s' → Ensures (f ()) s' Q) :
    Ensures (supersede w policy user successor previous >>= f) s Q :=
  (supersede_ensures hs).bind fun _ s' hs' => h s' hs'

/-- Who holds the slot of a message, the message itself apart. -/
theorem currentActiveId_eq (hs : MessagesSound s.messages) {target : Message} (hm : m ∈ s.messages)
    (hactive : m.state = .active) (hslot : m.SameSlot target) (hne : m.id ≠ target.id) :
    currentActiveId s target.producerKey target.contentType target.id = some m.id := by
  unfold currentActiveId
  cases hfind : s.messages.find? (fun m => m.state = .active ∧
      m.producerKey = target.producerKey ∧ m.contentType = target.contentType ∧
      m.id ≠ target.id) with
  | none =>
    have hnone := List.find?_eq_none.mp hfind m hm
    exact absurd (decide_eq_true ⟨hactive, hslot.1, hslot.2, hne⟩) hnone
  | some held =>
    obtain ⟨hheldMem, hheldActive, hkey, htype, -⟩ := mem_of_find?_decide hfind
    have hheld : held = m := hs.oneActive held hheldMem m hm hheldActive hactive
       ⟨hkey.trans hslot.1.symm, htype.trans hslot.2.symm⟩
    rw [Option.map_some, hheld]

theorem lockMessages_bind {α : Type} {Q : α → Store → Prop} {ids : List Uuid}
    {f : List Message → Tx α}
    (h : ∀ rows : List Message, (∀ m, m ∈ rows ↔ m ∈ s.messages ∧ m.id ∈ ids) →
      Ensures (f rows) s Q) : Ensures (lockMessages ids >>= f) s Q := by
  unfold lockMessages
  rw [bind_assoc]
  refine Ensures.get_bind (h _ fun m => ?_)
  simp

/-- Superseding, activating and suppressing, one after another, under a new generation. -/
theorem Superseded.activate {s₁ : Store} {stored : Message} {interval : ℕ} (now : Time)
    (hs : Sound s) (h : Superseded previous { s with policy := policy } s₁)
    (hgeneration : policy.generation = s.policy.generation + 1) (hrow : row ∈ s.messages)
    (hprepared : row.state = .prepared)
    (hprevious : currentActiveId s row.producerKey row.contentType row.id = previous)
    (hstored : stored ∈ s₁.messages) (hid : stored.id = row.id) (hstate : stored.state = .prepared)
    (hmedia : stored.messageMedia.isSome = true) (hpolicy : s'.policy = policy)
    (hmessages : s'.messages = s₁.messages.map fun m =>
      if m.id = row.id then activated policy now user interval m else m)
    (hexecutions : s'.executions = s₁.executions.map fun e =>
      if e.isStale policy then suppressed policy now e else e)
    {ev : Event} (hev : ev.IsQuiet) {more : List Event} (hmore : ∀ e ∈ more, e.IsQuiet)
    (hevents : s'.events = s₁.events ++ [ev] ++ more) : Kept now s s' := by
  have hsame : stored = row := eq_of_id_eq hs.messages.ids (h.prepared stored hstored hstate) hrow hid
  subst hsame
  obtain ⟨extra, hextra, hold⟩ := h.quiet
  have hfree : ∀ m ∈ s₁.messages, m.state = .active → ¬m.SameSlot stored := by
    intro m hm ha hslot
    obtain ⟨hmem, hne⟩ := h.active m hm ha
    refine hne (hprevious ▸ (currentActiveId_eq hs.messages hmem ha hslot fun hmid => ?_).symm)
    rw [eq_of_id_eq hs.messages.ids hmem hrow hmid, hprepared] at ha
    cases ha
  have hsound : MessagesSound s'.messages := by
    rw [hmessages]
    exact h.messages.activate hstored rfl hfree rfl ⟨rfl, rfl⟩ ⟨hmedia, rfl, rfl⟩
  have hquiet : s'.events = s.events ++ (extra ++ [ev] ++ more) := by
    rw [hevents, hold]
    simp only [List.append_assoc]
  have hmem : activated policy now user interval stored ∈ s'.messages :=
    hmessages ▸ List.mem_map.mpr ⟨stored, hstored, if_pos rfl⟩
  have hactive : activeIds s'.messages ≠ activeIds s.messages := by
    intro heq
    have hin : stored.id ∈ activeIds s.messages := heq ▸ mem_activeIds.mpr ⟨_, hmem, rfl, rfl⟩
    rw [hs.messages.active_iff hrow, hprepared] at hin
    cases hin
  have hlawful := hs.recompose now (by rw [hpolicy, hgeneration]) hsound hactive
    (fun m hm hterminal => hmessages ▸ h.messages.final_map hstored
      (not_terminal_of_prepared hstate) (h.final m hm hterminal) hterminal)
    (by rw [hexecutions, h.executions, hpolicy]) (hquiet ▸ List.prefix_append _ _)
  refine ⟨hlawful, extra ++ [ev] ++ more, fun e he => ?_, hquiet⟩
  simp only [List.mem_append, List.mem_singleton] at he
  rcases he with (he | rfl) | he
  · exact hextra e he
  · exact hev
  · exact hmore e he

theorem activateMessage_ensures (hs : Sound s) :
    Ensures (activateMessage w message actor expectedRevision) s fun _ s' => Kept w.now s s' := by
  unfold activateMessage
  refine requireProducer_bind fun user => ?_
  refine lockPolicy_bind ?_
  refine Ensures.get_bind ?_
  refine Ensures.require_bind fun target htarget => ?_
  obtain ⟨htargetMem, rfl⟩ := mem_of_find?_decide htarget
  dsimp only
  refine lockMessages_bind fun rows hrows => ?_
  refine Ensures.require_bind fun row hfound => ?_
  have hrow : row = target := by
    obtain ⟨hmem, hid⟩ := mem_of_find?_decide hfound
    exact eq_of_id_eq hs.messages.ids ((hrows row).mp hmem).1 htargetMem hid
  subst hrow
  refine Ensures.raised_bind fun _ _ => ?_
  by_cases hactive : row.state = .active
  · rw [if_pos hactive]
    exact Ensures.pure (hs.kept w.now)
  · rw [if_neg hactive]
    refine Ensures.refuseIf_bind fun hprepared => ?_
    refine Ensures.refuseIf_bind fun _ => ?_
    refine Ensures.raised_bind fun t _ => ?_
    refine Ensures.require_bind fun mediaId _ => ?_
    refine Ensures.refuseIf_bind fun _ => ?_
    refine Ensures.raised_bind fun media _ => ?_
    refine Ensures.get_bind ?_
    refine Ensures.raised_bind fun _ _ => ?_
    refine bump_bind rfl ?_
    refine supersede_bind hs.messages fun s₁ h₁ => ?_
    refine writeMessage_bind fun stored hstored hid hmatch => ?_
    refine event_bind ?_
    refine suppressStale_bind ?_ (fun _ _ => ⟨rfl, rfl⟩) fun more hmore => Ensures.pure ?_
    · rw [h₁.executions]
      exact hs.executions.ids
    obtain ⟨hstate, hmedia⟩ := of_decide_eq_true hmatch
    refine h₁.activate w.now hs rfl htargetMem (not_not.mp hprepared) rfl hstored hid hstate ?_
      h₁.policy rfl rfl ?_ hmore rfl
    · rw [hmedia]
      rfl
    · exact ⟨rfl, by simp [userEvent, Event.about], by simp [userEvent, Event.about]⟩

/-- An active row leaves, under a new generation. -/
theorem Sound.withdraw (h : Sound s) (now : Time) (change : Message → Message)
    (hrow : row ∈ s.messages) (hactive : row.state = .active) (hid : ∀ m, (change m).id = m.id)
    (hslot : ∀ m, (change m).SameSlot m) (hleaves : (change row).state ≠ .active)
    (hgeneration : s'.policy.generation = s.policy.generation + 1)
    (hmessages : s'.messages = s.messages.map fun m => if m.id = row.id then change m else m)
    (hexecutions : s'.executions = s.executions.map fun e =>
      if e.isStale s'.policy then suppressed s'.policy now e else e)
    (hev : ev.IsQuiet) {more : List Event} (hmore : ∀ e ∈ more, e.IsQuiet)
    (hevents : s'.events = s.events ++ [ev] ++ more) : Kept now s s' := by
  have hids : ∀ m : Message, (if m.id = row.id then change m else m).id = m.id := by
    intro m
    split
    · exact hid m
    · rfl
  have hquiet : s'.events = s.events ++ ([ev] ++ more) := by
    rw [hevents, List.append_assoc]
  have hopen : row.state.isTerminal = false := by
    rw [hactive]
    rfl
  have hchanged : activeIds s'.messages ≠ activeIds s.messages :=
    hmessages ▸ h.messages.activeIds_map_ne hids hrow hactive (by rwa [if_pos rfl])
  have hlawful := h.recompose now hgeneration
    (hmessages ▸ h.messages.map_row hrow hid hslot fun ha => absurd ha hleaves) hchanged
    (fun m hm hterminal => hmessages ▸ h.messages.final_map hrow hopen hm hterminal) hexecutions
    (hquiet ▸ List.prefix_append _ _)
  refine ⟨hlawful, [ev] ++ more, fun e he => ?_, hquiet⟩
  rcases List.mem_append.mp he with he | he
  · exact Event.quiet_singleton hev e he
  · exact hmore e he

theorem clearMessage_ensures {reason : String}
    {expectedState : Option MessageState} (hs : Sound s) :
    Ensures (clearMessage w message actor reason expectedState) s
      fun _ s' => Kept w.now s s' := by
  unfold clearMessage
  refine Ensures.refuseIf_bind fun _ => ?_
  refine requireEither_bind fun user => ?_
  refine Ensures.refuseIf_bind fun _ => ?_
  refine lockPolicy_bind ?_
  refine lockMessage_bind fun row _ _ => ?_
  by_cases hterminal : row.state.isTerminal = true
  · rw [if_pos hterminal]
    exact Ensures.pure (hs.kept w.now)
  · rw [if_neg hterminal]
    refine Ensures.refuseIf_bind fun _ => ?_
    by_cases hprepared : row.state = .prepared
    · rw [if_pos hprepared]
      refine Ensures.refuseIf_bind fun _ => ?_
      refine writeMessage_bind fun stored hstored hid hmatch => ?_
      refine event_bind (Ensures.pure ?_)
      have hstate : stored.state = .prepared := of_decide_eq_true hmatch
      rw [← hid]
      refine hs.rewrite w.now rfl rfl ?_ ?_ (fun m hm => ?_) ?_ rfl
      · exact hs.messages.map_row hstored (fun _ => rfl) (fun _ => ⟨rfl, rfl⟩) nofun
      · refine hs.messages.activeIds_map_row hstored (fun _ => rfl) ?_
        simp [hstate, terminated]
      · exact hs.messages.final_map hstored (not_terminal_of_prepared hstate) hm
      · exact ⟨rfl, by simp [userEvent, Event.about], by simp [userEvent, Event.about]⟩
    · rw [if_neg hprepared]
      refine Ensures.raised_bind fun _ _ => ?_
      refine bump_bind rfl ?_
      refine writeMessage_bind fun stored hstored hid hmatch => ?_
      refine event_bind ?_
      refine suppressStale_bind hs.executions.ids (fun _ _ => ⟨rfl, rfl⟩) fun more hmore =>
        Ensures.pure ?_
      have hactive : stored.state = .active := of_decide_eq_true hmatch
      rw [← hid]
      refine hs.withdraw w.now (terminated .cleared w.now (some user) reason none) hstored hactive
        (fun _ => rfl) (fun _ => ⟨rfl, rfl⟩) (by simp [terminated]) rfl rfl rfl ?_ hmore rfl
      exact ⟨rfl, by simp [userEvent, Event.about], by simp [userEvent, Event.about]⟩

end IsadoraAir.ActiveMessages
