import IsadoraAir.ActiveMessages.Airings
import IsadoraAir.Foundation.Runs

/-!
# The authority of active messages

Every call leaves a sound store and changes it lawfully, so every run does. A
token that was resolved once, and a failure that was reconciled once, answer the
same for ever: their events stay the first of their kind.
-/

namespace IsadoraAir.ActiveMessages

open Transaction

variable {ev : Event} {extra : List Event} {c : Made} {e : Option Execution}
  {outcome : ReplayOutcome} {now : Time} {token : Uuid} {s : Store} {w : World}

/-! ## Reconciliations over a run -/

/-- The events that link an execution to the failed one it replaces. -/
def successorLinks (s : Store) (failed : Uuid) : List Event :=
  s.events.filter fun e => e.event = "reconciles" ∧ e.predecessor = some failed

/-- One successor at most, and none before the reconciliation is recorded. -/
structure LinkedOnce (s : Store) : Prop where
  one : ∀ failed, (successorLinks s failed).length ≤ 1
  recorded : ∀ failed, reconciliationOf s failed = none → successorLinks s failed = []

/-- How the events of one call continue the history. -/
inductive Grown (s s' : Store) : Prop where
  | unlinked (extra : List Event) (h : ∀ e ∈ extra, e.IsUnlinked)
      (hevents : s'.events = s.events ++ extra)
  | reconciled {failed : Uuid} {successor : Option Uuid} (h : Reconciled failed s s' successor)

theorem Kept.grown {s' : Store} (h : Kept now s s') : Grown s s' := by
  obtain ⟨extra, hextra, hevents⟩ := h.quiet
  exact .unlinked extra (fun e he => (hextra e he).2) hevents

theorem reconciliationOf_stable {s' : Store} {failed : Uuid}
    (hcontinues : s.events <+: s'.events) (h : reconciliationOf s failed = some ev) :
    reconciliationOf s' failed = some ev := by
  obtain ⟨extra, hevents⟩ := hcontinues
  unfold reconciliationOf at h ⊢
  rw [← hevents, List.find?_append, h]
  rfl

theorem priorRequest_stable {s' : Store}
    (hcontinues : s.events <+: s'.events) (h : priorRequest s token = some ev) :
    priorRequest s' token = some ev := by
  obtain ⟨extra, hevents⟩ := hcontinues
  unfold priorRequest at h ⊢
  rw [← hevents, List.find?_append, h]
  rfl

theorem links_unlinked (h : ∀ e ∈ extra, e.IsUnlinked) (failed : Uuid) :
    extra.filter (fun e => e.event = "reconciles" ∧ e.predecessor = some failed) = [] := by
  refine List.filter_eq_nil_iff.mpr fun e he => ?_
  simp [(h e he).2]

theorem reconciliation_unlinked (h : ∀ e ∈ extra, e.IsUnlinked) (failed : Uuid) :
    extra.find? (fun e => e.execution = some failed ∧ e.event = "reconciled") = none := by
  refine List.find?_eq_none.mpr fun e he => ?_
  simp [(h e he).1]

namespace Reconciled

variable {s' : Store} {failed : Uuid} {successor : Option Uuid}

/-- The record made now is the one found from now on. -/
theorem found (h : Reconciled failed s s' successor) :
    ∃ ev, reconciliationOf s' failed = some ev ∧ ev.successor = successor := by
  obtain ⟨extra, links, ev, hextra, -, hlinks, hexecution, hevent, hsuccessor, hevents⟩ := h.events
  refine ⟨ev, ?_, hsuccessor⟩
  have hquiet := reconciliation_unlinked (fun e he => (hextra e he).2) failed
  have hlinked : links.find? (fun e => e.execution = some failed ∧ e.event = "reconciled") =
      none := by
    refine List.find?_eq_none.mpr fun e he => ?_
    simp [(hlinks e he).1]
  have hfirst := h.first
  unfold reconciliationOf at hfirst ⊢
  rw [hevents, List.find?_append, List.find?_append, List.find?_append, hfirst, hquiet, hlinked]
  simp [hexecution, hevent]

theorem linkedOnce (h : Reconciled failed s s' successor) (hs : LinkedOnce s) : LinkedOnce s' := by
  obtain ⟨ev, hfound, -⟩ := h.found
  have hnone := hs.recorded failed h.first
  obtain ⟨extra, links, record, hextra, hlength, hlinks, -, hevent, -, hevents⟩ := h.events
  have hquiet := links_unlinked fun e he => (hextra e he).2
  have hrecord : record.event ≠ "reconciles" := by simp [hevent]
  have hother : ∀ other, other ≠ failed → successorLinks s' other = successorLinks s other := by
    intro other hne
    have hlinked : links.filter (fun e => e.event = "reconciles" ∧ e.predecessor = some other) =
        [] := by
      refine List.filter_eq_nil_iff.mpr fun e he => ?_
      simp [(hlinks e he).2, hne.symm]
    unfold successorLinks
    rw [hevents, List.filter_append, List.filter_append, List.filter_append, hquiet, hlinked]
    simp [hrecord]
  have hcontinues : s.events <+: s'.events := by
    rw [hevents]
    simp only [List.append_assoc]
    exact List.prefix_append _ _
  constructor
  · intro other
    by_cases hother' : other = failed
    · subst hother'
      have hall : (successorLinks s' other).length ≤ links.length := by
        unfold successorLinks at hnone ⊢
        rw [hevents, List.filter_append, List.filter_append, List.filter_append, hquiet, hnone]
        simpa [hrecord] using List.length_filter_le _ links
      exact hall.trans hlength
    · rw [hother other hother']
      exact hs.one other
  · intro other hother'
    by_cases heq : other = failed
    · rw [heq, hfound] at hother'
      cases hother'
    · rw [hother other heq]
      apply hs.recorded
      cases hold : reconciliationOf s other with
      | none => rfl
      | some ev =>
        rw [reconciliationOf_stable hcontinues hold] at hother'
        cases hother'

end Reconciled

theorem Grown.linkedOnce {s' : Store} (h : Grown s s') (hs : LinkedOnce s) : LinkedOnce s' := by
  cases h with
  | reconciled h => exact h.linkedOnce hs
  | unlinked extra hextra hevents =>
    have hlinks : ∀ failed, successorLinks s' failed = successorLinks s failed := by
      intro failed
      unfold successorLinks
      rw [hevents, List.filter_append, links_unlinked hextra, List.append_nil]
    have hrecords : ∀ failed, reconciliationOf s' failed = reconciliationOf s failed := by
      intro failed
      unfold reconciliationOf
      rw [hevents, List.find?_append, reconciliation_unlinked hextra, Option.or_none]
    constructor
    · intro failed
      rw [hlinks failed]
      exact hs.one failed
    · intro failed h
      rw [hlinks failed]
      exact hs.recorded failed (hrecords failed ▸ h)

/-! ## One call -/

theorem Answered.grown {s' : Store} {failed : Uuid}
    {result : Except ServiceError (Option Execution)} (h : Answered now failed s s' result) :
    Grown s s' := by
  rcases h.recorded with ⟨⟨extra, hextra, hevents⟩, -⟩ | ⟨e, -, hrecorded⟩
  · exact .unlinked extra (fun e he => (hextra e he).2) hevents
  · exact .reconciled hrecorded

theorem Answered.settled {s' : Store} {failed : Uuid} (h : Answered now failed s s' (.ok e)) :
    ∃ ev, reconciliationOf s' failed = some ev ∧ ev.successor = e.map Execution.id := by
  rcases h.recorded with ⟨-, hprior⟩ | ⟨e', he', hrecorded⟩
  · obtain ⟨prior, hfound, hsuccessor⟩ := hprior e rfl
    exact ⟨prior, reconciliationOf_stable h.changes.history hfound, hsuccessor⟩
  · cases he'
    exact hrecorded.found

/-- A failure that was reconciled before answers as before. -/
theorem Answered.again {s' : Store} {failed : Uuid}
    (h : Answered now failed s s' (.ok e)) (ev : Event)
    (hev : reconciliationOf s failed = some ev) : ev.successor = e.map Execution.id := by
  rcases h.recorded with ⟨-, hprior⟩ | ⟨e', -, hrecorded⟩
  · obtain ⟨prior, hfound, hsuccessor⟩ := hprior e rfl
    rw [hev] at hfound
    cases hfound
    exact hsuccessor
  · rw [hrecorded.first] at hev
    cases hev

theorem perform_ensures (hs : Sound s) (c : Call) :
    Ensures (perform w c) s fun _ s' => Lawful w.now s s' ∧ Grown s s' := by
  have hkept : ∀ {α : Type} {m : Tx α} {f : α → Except ServiceError Reply},
      Ensures m s (fun _ s' => Kept w.now s s') →
      Ensures (m >>= fun a => pure (f a)) s fun _ s' => Lawful w.now s s' ∧ Grown s s' :=
    fun hm => hm.bind fun _ _ h => Ensures.pure ⟨h.toLawful, h.grown⟩
  cases c with
  | prepare actor contentType title expiresAt newId => exact hkept (prepareMessage_ensures hs)
  | bindMedia message media actor expectedRevision => exact hkept (bindMessageMedia_ensures hs)
  | setExpiry message expiresAt actor expected => exact hkept (setMessageExpiry_ensures hs)
  | activate message actor expectedRevision => exact hkept (activateMessage_ensures hs)
  | clear message actor reason expectedState => exact hkept (clearMessage_ensures hs)
  | expire actorKind => exact hkept (expireDueMessages_ensures hs)
  | materialize actorKind blockingCodes newId => exact hkept (materializeDueExecution_ensures hs)
  | reconcile execution actorKind newId =>
    exact (reconcileStingerFailure_ensures hs).bind fun r s' h =>
      Ensures.pure ⟨h.toLawful, h.grown⟩
  | replayNow actor requestToken newId =>
    refine (requestManualReplay_ensures hs).bind fun r s' h => Ensures.pure ⟨h.toLawful, ?_⟩
    obtain ⟨extra, hextra, hevents⟩ := h.unlinked
    exact .unlinked extra hextra hevents
  | bindMix execution media actorKind => exact hkept (bindExecutionMix_ensures hs)
  | fail execution code detail actorKind => exact hkept (failExecution_ensures hs)

namespace Made

/-- What every call keeps, refused or not. -/
theorem step_lawful (c : Made) (hs : Sound s) :
    Lawful c.world.now s (c.step s) ∧ Grown s (c.step s) := by
  refine Transaction.commit_rel (R := fun s s' => Lawful c.world.now s s' ∧ Grown s s') ?_ ?_
  · exact ⟨⟨hs, .refl _ s⟩, .unlinked [] (by simp) (by simp)⟩
  · exact perform_ensures hs c.call

theorem ended_of_reply {r : Reply} (h : c.reply s = .ok r) : (c.ended s).1 = .ok (.ok r) := by
  unfold reply at h
  cases hended : (c.ended s).1 with
  | error e =>
    rw [hended] at h
    cases h
  | ok result =>
    rw [hended] at h
    exact congrArg Except.ok h

/-- A Replay Now of the token, with its execution and outcome. -/
def Replays (c : Made) (s : Store) (token : Uuid) (e : Execution) (outcome : ReplayOutcome) :
    Prop :=
  ∃ actor newId, c.call = .replayNow actor (some token) newId ∧
    c.reply s = .ok (.replay e outcome)

/-- A reconciliation of the failed execution, with the execution it answers. -/
def Reconciles (c : Made) (s : Store) (failed : Uuid) (e : Option Execution) : Prop :=
  ∃ actorKind newId, c.call = .reconcile failed actorKind newId ∧ c.reply s = .ok (.execution e)

theorem Replays.resolved {e : Execution}
    (hs : Sound s) (h : c.Replays s token e outcome) : Resolved token s (c.step s) e outcome := by
  obtain ⟨actor, newId, hcall, hreply⟩ := h
  have hperform : Ensures (perform c.world c.call) s fun r s' =>
      ∃ result : Except ServiceError (Execution × ReplayOutcome),
        r = result.map (fun r => .replay r.1 r.2) ∧
          Replayed c.world.now (some token) s s' result := by
    rw [hcall]
    exact (requestManualReplay_ensures hs).bind fun r s' h => Ensures.pure ⟨r, rfl, h⟩
  obtain ⟨result, hresult, hreplayed⟩ := Transaction.commit_ok hperform (ended_of_reply hreply)
  cases result with
  | error e => cases hresult
  | ok r =>
    cases hresult
    obtain ⟨t, ht, hresolved⟩ := hreplayed.resolved r rfl
    cases ht
    exact hresolved

theorem Reconciles.answered {failed : Uuid} (hs : Sound s)
    (h : c.Reconciles s failed e) : Answered c.world.now failed s (c.step s) (.ok e) := by
  obtain ⟨actorKind, newId, hcall, hreply⟩ := h
  have hperform : Ensures (perform c.world c.call) s fun r s' =>
      ∃ result : Except ServiceError (Option Execution),
        r = result.map .execution ∧ Answered c.world.now failed s s' result := by
    rw [hcall]
    exact (reconcileStingerFailure_ensures hs).bind fun r s' h => Ensures.pure ⟨r, rfl, h⟩
  obtain ⟨result, hresult, hanswered⟩ := Transaction.commit_ok hperform (ended_of_reply hreply)
  cases result with
  | error e => cases hresult
  | ok r =>
    cases hresult
    exact hanswered

end Made

/-! ## Every run -/

theorem initial_sound (policy : Policy) : Sound (.initial policy) where
  messages := ⟨List.nodup_nil, by simp [Store.initial], by simp [Store.initial]⟩
  executions := ⟨List.nodup_nil, by simp [Store.initial], by simp [Store.initial]⟩

/-- The store after the calls, in the order the policy lock serializes them. -/
def after (policy : Policy) (calls : List Made) : Store :=
  Runs.run Made.step calls (.initial policy)

theorem run_sound (calls : List Made) (hs : Sound s) : Sound (Runs.run Made.step calls s) :=
  Runs.invariant (P := fun _ _ => True) (fun c _ _ h => (c.step_lawful h).1.sound) hs
    (Runs.throughout_true calls s)

theorem run_history (calls : List Made) (hs : Sound s) :
    s.events <+: (Runs.run Made.step calls s).events := by
  induction calls generalizing s with
  | nil => exact List.prefix_rfl
  | cons c rest ih =>
    have hlawful := (c.step_lawful hs).1
    exact hlawful.changes.history.trans (ih hlawful.sound)

theorem after_sound (policy : Policy) (calls : List Made) : Sound (after policy calls) :=
  run_sound calls (initial_sound policy)

theorem after_linkedOnce (policy : Policy) (calls : List Made) :
    LinkedOnce (after policy calls) := by
  have hboth : Sound (after policy calls) ∧ LinkedOnce (after policy calls) := by
    refine Runs.invariant (P := fun _ _ => True) (I := fun s => Sound s ∧ LinkedOnce s)
      (fun c s _ h => ?_) ⟨initial_sound policy, ?_⟩ (Runs.throughout_true calls _)
    · obtain ⟨hlawful, hgrown⟩ := c.step_lawful h.1
      exact ⟨hlawful.sound, hgrown.linkedOnce h.2⟩
    · exact ⟨fun failed => by simp [successorLinks, Store.initial], fun _ _ => rfl⟩
  exact hboth.2

/-- Between a call and a later one, the history only grows. -/
theorem after_history (policy : Policy) (before : List Made) (c : Made) (middle : List Made) :
    (c.step (after policy before)).events <+:
      (after policy (before ++ c :: middle)).events := by
  unfold after
  rw [Runs.run_append, Runs.run_cons]
  exact run_history middle (c.step_lawful (after_sound policy before)).1.sound

/-- In every run of calls the store stays sound and each call changes it lawfully; a token of
Replay Now answers with one execution, created once at most, and a reconciled failure with one
successor. -/
theorem active_message_authority (policy : Policy) (calls : List Made) :
    Runs.Throughout Made.step (fun c s => Lawful c.world.now s (c.step s)) calls
      (.initial policy) ∧
    (∀ failed, (successorLinks (after policy calls) failed).length ≤ 1) ∧
    ∀ before c₁ middle c₂ rest, calls = before ++ c₁ :: (middle ++ c₂ :: rest) →
      (∀ token e₁ o₁ e₂ o₂, c₁.Replays (after policy before) token e₁ o₁ →
        c₂.Replays (after policy (before ++ c₁ :: middle)) token e₂ o₂ →
        e₂.id = e₁.id ∧ o₂ = .repeated) ∧
      ∀ failed e₁ e₂, c₁.Reconciles (after policy before) failed e₁ →
        c₂.Reconciles (after policy (before ++ c₁ :: middle)) failed e₂ →
        e₂.map Execution.id = e₁.map Execution.id := by
  refine ⟨?_, fun failed => (after_linkedOnce policy calls).one failed, ?_⟩
  · exact Runs.throughout_of_invariant (P := fun _ _ => True)
      (fun c _ _ h => (c.step_lawful h).1.sound) (fun c _ _ h => (c.step_lawful h).1)
      (initial_sound policy) (Runs.throughout_true calls _)
  · rintro before c₁ middle c₂ rest -
    have hhistory := after_history policy before c₁ middle
    constructor
    · intro token e₁ o₁ e₂ o₂ h₁ h₂
      obtain ⟨ev, hfound, hexecution⟩ := (h₁.resolved (after_sound policy before)).now
      obtain ⟨hagain, hrepeated⟩ := (h₂.resolved (after_sound policy _)).again ev
        (priorRequest_stable hhistory hfound)
      exact ⟨Option.some.inj (hagain.symm.trans hexecution), hrepeated⟩
    · intro failed e₁ e₂ h₁ h₂
      obtain ⟨ev, hfound, hsuccessor⟩ := (h₁.answered (after_sound policy before)).settled
      have hagain := (h₂.answered (after_sound policy _)).again ev
        (reconciliationOf_stable hhistory hfound)
      exact hagain.symm.trans hsuccessor

/-! ## Two Replay Now requests of one token -/

def sampleUser : User := ⟨7, "control"⟩

def samplePolicy : Policy := ⟨1, 900, "", 5, 120, 600, false⟩

def sampleMedia (id : Uuid) : Media := ⟨id, false, some 7, "00", some 30000000, ""⟩

/-- Every media is valid and half a minute long, and every user may do everything. -/
def sampleWorld : World where
  now := 1000
  createdAt := 1000
  authorize := fun _ _ => none
  resolve := fun _ => some ⟨3, "notice", .publicAddress, true, some true, some true, none⟩
  isAssigned := fun _ _ => true
  lockForBinding := fun id => .ok (sampleMedia id)
  media := sampleMedia
  typeKey := fun _ => "notice"
  resolveReference := fun _ => .error "reference_missing"
  proves := fun _ _ => true
  sha256 := fun _ => "00"
  isoformat := fun _ => "1970-01-01T00:00:00.001000+00:00"

/-- One message on the air. -/
def sampleCalls : List Made :=
  [.prepare (some sampleUser) (.pk 3) "Closed" none "m",
    .bindMedia "m" "media" (some sampleUser) none,
    .activate "m" (some sampleUser) none].map (Made.mk sampleWorld)

def sampleReplay (newId : Uuid) : Made :=
  ⟨sampleWorld, .replayNow (some sampleUser) (some "t") newId⟩

def outcomeOf : Except ServiceError Reply → Option (Uuid × ReplayOutcome)
  | .ok (.replay e o) => some (e.id, o)
  | _ => none

theorem replays_of_outcome {newId id : Uuid}
    (h : outcomeOf ((sampleReplay newId).reply s) = some (id, outcome)) :
    ∃ e, e.id = id ∧ (sampleReplay newId).Replays s "t" e outcome := by
  unfold outcomeOf at h
  split at h
  · next e o hreply =>
    cases h
    exact ⟨e, rfl, some sampleUser, newId, rfl, hreply⟩
  · cases h

theorem active_message_authority_replayed : ∃ e₁ e₂,
    (sampleReplay "x").Replays (after samplePolicy sampleCalls) "t" e₁ .created ∧
    (sampleReplay "y").Replays (after samplePolicy (sampleCalls ++ sampleReplay "x" :: [])) "t" e₂
      .repeated ∧ e₂.id = e₁.id := by
  have hfirst : outcomeOf ((sampleReplay "x").reply (after samplePolicy sampleCalls)) =
      some ("x", .created) := by decide +kernel
  have hsecond : outcomeOf ((sampleReplay "y").reply
      (after samplePolicy (sampleCalls ++ sampleReplay "x" :: []))) = some ("x", .repeated) := by
    decide +kernel
  obtain ⟨e₁, -, h₁⟩ := replays_of_outcome hfirst
  obtain ⟨e₂, -, h₂⟩ := replays_of_outcome hsecond
  have hagree := (active_message_authority samplePolicy
    (sampleCalls ++ sampleReplay "x" :: ([] ++ sampleReplay "y" :: []))).2.2 sampleCalls _ [] _ []
    rfl
  exact ⟨e₁, e₂, h₁, h₂, (hagree.1 "t" e₁ .created e₂ .repeated h₁ h₂).1⟩

end IsadoraAir.ActiveMessages
