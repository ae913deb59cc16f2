import IsadoraAir.Spoken.Programs

/-!
# The lifecycle of spoken items

What holds in every run of operations by any number of submitters, managers and
workers, and what every step of it keeps.
-/

namespace IsadoraAir.Spoken

variable {α : Type} [DecidableEq α] {s : State α} {e : Event α} {a b : α} {i j : ItemId}
  {t : Token}

abbrev Reachable (s : State α) : Prop := staff.Sound assertions s

theorem initial_reachable : Reachable (initial : State α) :=
  Crew.idle_sound initial_invariant fun a => Sessions.initial_clean _ a

theorem step_reachable (e : Event α) (h : Reachable s) : Reachable (step e s) :=
  lawful.step_sound h e

theorem run_reachable (h : Reachable s) (events : List (Event α)) :
    Reachable (Runs.run step events s) :=
  lawful.run_sound h events

/-! ## The steps that change an item -/

/-- The step commits what has been written to answer the call. -/
structure Commits (a : α) (call : Call) (e : Event α) (s : State α) : Prop where
  acts : ∃ choice, e = .act a choice
  task : ∃ done m, s.task a = some ⟨call, done, m⟩
  shared : (step e s).shared = commitSession s.shared a
  invariant : (service call a).invariant s.shared

theorem Calm.tokens {s s' : Shared α} (h : Calm a s s') : s'.tokens = s.tokens := by
  rw [Shared.tokens, Shared.tokens, h.drawn, h.hand, h.db]

/-- A step commits, or leaves the items alone. -/
theorem step_db (e : Event α) (h : Reachable s) :
    ((step e s).shared.db = s.shared.db ∧ ((step e s).shared.tokens = s.shared.tokens ∨
      ∃ a, Tokens.Step a s.shared.tokens (step e s).shared.tokens)) ∨
    ∃ a call, Commits a call e s := by
  rcases Crew.step_shared staff program e s with hsame | ⟨a, hrollback⟩ |
    ⟨a, choice, call, done, x, next, r, he, htask, hexec, hnext⟩
  · exact .inl ⟨congrArg Shared.db hsame, .inl (congrArg Shared.tokens hsame)⟩
  · left
    change (step e s).shared = rollbackSession s.shared a at hrollback
    rw [hrollback]
    exact ⟨rfl, .inr ⟨a, rollback_tokens s.shared a⟩⟩
  · have heffect := exec_effect hexec
    change Effect a s.shared x (step e s).shared at heffect
    generalize hshared : (step e s).shared = s' at heffect
    cases heffect with
    | calm hcalm => exact .inl ⟨hcalm.db, .inl hcalm.tokens⟩
    | draw uuid huuid => exact .inl ⟨rfl, .inr ⟨a, .draw uuid huuid⟩⟩
    | write w witnessed hrow hrefuses => exact .inl ⟨rfl, .inl rfl⟩
    | commit =>
      exact .inr ⟨a, call, ⟨choice, he⟩, ⟨done, _, htask⟩, hshared, h.shared, h.during htask⟩
    | rollback => exact .inl ⟨rfl, .inr ⟨a, rollback_tokens s.shared a⟩⟩

theorem Commits.moves {call : Call} (h : Commits a call e s) (i : ItemId) :
    Moves (Owns s.shared a) (s.shared.hand a) call s.shared.db (step e s).shared.db
      (s.shared.sessions.pending a) i := by
  rw [h.shared]
  exact Justified.moves h.invariant.2 i

theorem step_tokens (e : Event α) (h : Reachable s) :
    (step e s).shared.tokens = s.shared.tokens ∨
      ∃ a, Tokens.Step a s.shared.tokens (step e s).shared.tokens := by
  rcases step_db e h with ⟨-, htokens⟩ | ⟨a, call, hcommits⟩
  · exact htokens
  · right
    rw [hcommits.shared]
    exact ⟨a, commit_tokens hcommits.invariant⟩

theorem spent_run (h : Reachable s) (ht : s.shared.tokens.Spent t) (events : List (Event α)) :
    (Runs.run step events s).shared.tokens.Spent t := by
  refine (Runs.invariant (P := fun _ _ => True)
    (I := fun s : State α => Reachable s ∧ s.shared.tokens.Spent t) (fun e s _ hs => ?_)
    ⟨h, ht⟩ (Runs.throughout_true events s)).2
  refine ⟨step_reachable e hs.1, ?_⟩
  rcases step_tokens e hs.1 with hsame | ⟨a, hstep⟩
  · rw [hsame]
    exact hs.2
  · exact hstep.spent hs.2

/-! ## Attempts -/

/-- The worker's start of an attempt, or its reclaim of an expired one, leases the item by the
token that it has drawn. -/
structure Starts (a : α) (i : ItemId) (t : Token) (e : Event α) (s : State α) : Prop where
  answers : ∃ choice leaseSeconds kind done m, e = .act a choice ∧
    s.task a = some ⟨.startProcessing i leaseSeconds kind, done, m⟩
  hand : s.shared.hand a = some t
  leases : (step e s).shared.db.leaseOf i = some t
  vacant : ∀ row, s.shared.db.items.get? i = some row → row.state = .processing →
    ∃ expiry row' now, row.leaseExpiresAt = some expiry ∧
      (step e s).shared.db.items.get? i = some row' ∧ row'.stateChangedAt = some now ∧ expiry ≤ now

/-- The worker's completion or failure, by which it presents the token, ends the attempt. -/
structure Concludes (a : α) (i : ItemId) (t : Token) (e : Event α) (s : State α) : Prop where
  answers : ∃ choice call toState done m, e = .act a choice ∧ s.task a = some ⟨call, done, m⟩ ∧
    call.concludes = some (i, t, toState) ∧
    ∃ row', (step e s).shared.db.items.get? i = some row' ∧ row'.state = toState
  processing : ∃ row, s.shared.db.items.get? i = some row ∧ row.state = .processing

/-- The token is the lease of the item, and has not expired at the time of the transition. -/
structure Unexpired (i : ItemId) (t : Token) (e : Event α) (s : State α) : Prop where
  before : ∃ row expiry row' now, s.shared.db.items.get? i = some row ∧
    row.leaseToken = some t ∧ row.leaseExpiresAt = some expiry ∧
    (step e s).shared.db.items.get? i = some row' ∧ row'.leaseToken = none ∧
    row'.stateChangedAt = some now ∧ now < expiry

theorem concludes_cases {call : Call} {toState : ItemState}
    (h : call.concludes = some (i, t, toState)) : toState = .processed ∨ toState = .failed := by
  cases call with
  | completeProcessing item leaseToken evidence kind =>
    cases leaseToken with
    | none => cases h
    | some token =>
      cases h
      exact .inl rfl
  | failProcessing item leaseToken code detail kind =>
    cases leaseToken with
    | none => cases h
    | some token =>
      cases h
      exact .inr rfl
  | _ => cases h

/-- What becomes of an item that is being processed. -/
theorem attempt_step (h : Reachable s) {row : Item} (hrow : s.shared.db.items.get? i = some row)
    (hprocessing : row.state = .processing) :
    ((step e s).shared.db.items.get? i = some row ∧
      (step e s).shared.db.eventsOf i = s.shared.db.eventsOf i) ∨
    ∃ a t, Starts a i t e s ∨ (Concludes a i t e s ∧ Unexpired i t e s) := by
  rcases step_db e h with ⟨hdb, -⟩ | ⟨a, call, hcommits⟩
  · left
    rw [hdb]
    exact ⟨hrow, rfl⟩
  · obtain ⟨choice, he⟩ := hcommits.acts
    obtain ⟨done, m, htask⟩ := hcommits.task
    cases hcommits.moves i with
    | same hsame hevents => exact .inl ⟨hsame.trans hrow, hevents⟩
    | @moved w rule hw hi haccepted hlicensed hafter hevents =>
      subst hi
      right
      have hstate := haccepted.after_state
      cases hlicensed with
      | @starts row' token now leaseSeconds kind hto hrow' hcall hhand hfree hvalues =>
        rw [hrow] at hrow'
        cases hrow'
        obtain ⟨htoken, -, -, hnow⟩ := after_starts hrow hvalues
        refine ⟨a, token, .inl ⟨⟨choice, leaseSeconds, kind, done, m, he, ?_⟩, hhand, ?_, ?_⟩⟩
        · rw [htask, hcall]
        · rw [Database.leaseOf, hafter]
          exact htoken
        · intro row'' hrow'' _
          rw [hrow] at hrow''
          cases hrow''
          obtain ⟨expiry, hexpiry, hle⟩ := hfree hprocessing
          exact ⟨expiry, _, now, hexpiry, hafter, hnow, hle⟩
      | @completes row' media now hto hrow' hlease hvalues howns hunbound =>
        rw [hrow] at hrow'
        cases hrow'
        obtain ⟨token, hpresents, htoken⟩ := hlease.presents
        obtain ⟨expiry, hexpiry, hlt⟩ := hlease.unexpired
        obtain ⟨hcleared, -, hnow⟩ := after_completes hrow hvalues
        exact ⟨a, token, .inr ⟨⟨⟨choice, call, _, done, m, he, htask, hpresents, _, hafter,
          hstate.trans hto⟩, row, hrow, hprocessing⟩,
          ⟨row, expiry, _, now, hrow, htoken, hexpiry, hafter, hcleared, hnow, hlt⟩⟩⟩
      | @fails row' code detail now hto hrow' hlease hvalues =>
        rw [hrow] at hrow'
        cases hrow'
        obtain ⟨token, hpresents, htoken⟩ := hlease.presents
        obtain ⟨expiry, hexpiry, hlt⟩ := hlease.unexpired
        obtain ⟨hcleared, -, hnow⟩ := after_fails hrow hvalues
        exact ⟨a, token, .inr ⟨⟨⟨choice, call, _, done, m, he, htask, hpresents, _, hafter,
          hstate.trans hto⟩, row, hrow, hprocessing⟩,
          ⟨row, expiry, _, now, hrow, htoken, hexpiry, hafter, hcleared, hnow, hlt⟩⟩⟩
      | other hto =>
        have hpermits := haccepted.permits_isSome hrow
        rw [hprocessing] at hpermits
        rw [isAttempt_of_processing _ hpermits] at hto
        cases hto

/-- A call ends an attempt only by the lease of the item. -/
theorem Concludes.unexpired (hconcludes : Concludes a i t e s) (h : Reachable s) :
    Unexpired i t e s := by
  obtain ⟨choice, call, toState, done, m, he, htask, hpresents, row', hrow', hstate⟩ :=
    hconcludes.answers
  obtain ⟨row, hrow, hprocessing⟩ := hconcludes.processing
  have hto := concludes_cases hpresents
  rcases attempt_step (e := e) h hrow hprocessing with ⟨hsame, -⟩ | ⟨b, u, hstarts | ⟨hb, hunexpired⟩⟩
  · rw [hrow'] at hsame
    cases hsame
    rw [hprocessing] at hstate
    rcases hto with rfl | rfl <;> cases hstate
  · obtain ⟨choice', leaseSeconds, kind, done', m', he', htask'⟩ := hstarts.answers
    rw [he] at he'
    cases he'
    rw [htask] at htask'
    cases htask'
    cases hpresents
  · obtain ⟨choice', call', toState', done', m', he', htask', hpresents', -⟩ := hb.answers
    rw [he] at he'
    cases he'
    rw [htask] at htask'
    cases htask'
    rw [hpresents] at hpresents'
    cases hpresents'
    exact hunexpired

/-- The worker has started the attempt, and the item has not changed since. -/
structure Latest (i : ItemId) (t : Token) (before : List (Event α)) : Prop where
  started : ∃ first g rest b, before = first ++ g :: rest ∧
    Starts b i t g (Runs.run step first initial) ∧
    (Runs.run step before initial).shared.db.items.get? i =
      (Runs.run step (first ++ [g]) initial).shared.db.items.get? i ∧
    (Runs.run step before initial).shared.db.eventsOf i =
      (Runs.run step (first ++ [g]) initial).shared.db.eventsOf i

/-- The step by which an item gets a lease. -/
theorem starts_of_lease (h : Reachable s) (hlease : (step e s).shared.db.leaseOf i = some t) :
    ((step e s).shared.db.items.get? i = s.shared.db.items.get? i ∧
      (step e s).shared.db.eventsOf i = s.shared.db.eventsOf i) ∨ ∃ a, Starts a i t e s := by
  rcases step_db e h with ⟨hdb, -⟩ | ⟨a, call, hcommits⟩
  · left
    rw [hdb]
    exact ⟨rfl, rfl⟩
  · cases hcommits.moves i with
    | same hsame hevents => exact .inl ⟨hsame, hevents⟩
    | @moved w rule hw hi haccepted hlicensed hafter hevents =>
      subst hi
      right
      have hdb := hcommits.invariant.1.sound
      rw [Database.leaseOf, hafter, Option.bind_some] at hlease
      have hto := (after_lease hdb haccepted hlicensed).mp (by rw [hlease]; rfl)
      obtain ⟨choice, he⟩ := hcommits.acts
      obtain ⟨done, m, htask⟩ := hcommits.task
      cases hlicensed with
      | @starts row token now leaseSeconds kind hto' hrow hcall hhand hfree hvalues =>
        obtain ⟨htoken, -, -, hnow⟩ := after_starts hrow hvalues
        rw [htoken] at hlease
        cases hlease
        refine ⟨a, ⟨choice, leaseSeconds, kind, done, m, he, ?_⟩, hhand, ?_, ?_⟩
        · rw [htask, hcall]
        · rw [Database.leaseOf, hafter]
          exact htoken
        · intro row' hrow' hprocessing
          rw [hrow] at hrow'
          cases hrow'
          obtain ⟨expiry, hexpiry, hle⟩ := hfree hprocessing
          exact ⟨expiry, _, now, hexpiry, hafter, hnow, hle⟩
      | completes hto' => rw [hto] at hto'; cases hto'
      | fails hto' => rw [hto] at hto'; cases hto'
      | other hto' => rw [hto] at hto'; cases hto'

/-- By induction on the run, from its end. -/
theorem latest_of_lease {before : List (Event α)}
    (h : (Runs.run step before initial).shared.db.leaseOf i = some t) : Latest i t before := by
  induction before using List.reverseRecOn with
  | nil => cases h
  | append_singleton before e ih =>
    have hreachable := run_reachable initial_reachable before
    rw [Runs.run_append] at h
    rcases starts_of_lease hreachable h with ⟨hsame, hevents⟩ | ⟨b, hstarts⟩
    · have hbefore : (Runs.run step before initial).shared.db.leaseOf i = some t := by
        rw [Database.leaseOf, ← hsame]
        exact h
      obtain ⟨first, g, rest, b, hsplit, hstarts, hrow, hlog⟩ := (ih hbefore).started
      refine ⟨first, g, rest ++ [e], b, by rw [hsplit]; simp, hstarts, ?_, ?_⟩
      · rw [Runs.run_append]
        exact hsame.trans hrow
      · rw [Runs.run_append]
        exact hevents.trans hlog
    · exact ⟨before, e, [], b, rfl, hstarts, rfl, rfl⟩

/-- The outcome of an attempt spends its token. -/
theorem Concludes.spent (hconcludes : Concludes a i t e s) (h : Reachable s) :
    (step e s).shared.tokens.Spent t := by
  obtain ⟨row, expiry, row', now, hrow, htoken, -, hrow', hnone, -⟩ :=
    (hconcludes.unexpired h).before
  have hbefore : s.shared.tokens.slot i = some t := by
    change s.shared.db.leaseOf i = some t
    rw [Database.leaseOf, hrow]
    exact htoken
  have hafter : (step e s).shared.tokens.slot i ≠ some t := by
    change (step e s).shared.db.leaseOf i ≠ some t
    rw [Database.leaseOf, hrow', Option.bind_some, hnone]
    exact fun h => by cases h
  rcases step_tokens e h with hsame | ⟨a, hstep⟩
  · rw [hsame] at hafter
    exact absurd hbefore hafter
  · exact hstep.spent_of_taken h.shared.tokens hbefore hafter

/-! ## The lifecycle -/

/-- What one step keeps. -/
structure Kept (e : Event α) (s : State α) : Prop where
  terminal : ∀ i row, s.shared.db.items.get? i = some row → row.state.isTerminal →
    (step e s).shared.db.items.get? i = some row
  attempt : ∀ i row, s.shared.db.items.get? i = some row → row.state = .processing →
    (step e s).shared.db.items.get? i ≠ some row →
    ∃ a t, Starts a i t e s ∨ (Concludes a i t e s ∧ Unexpired i t e s)
  bound : ∀ i row media, s.shared.db.items.get? i = some row → row.renditionMedia = some media →
    ∃ row', (step e s).shared.db.items.get? i = some row' ∧ row'.renditionMedia = some media

theorem step_kept (e : Event α) (h : Reachable s) : Kept e s := by
  refine ⟨fun i row hrow hterminal => ?_, fun i row hrow hprocessing hchanged => ?_,
    fun i row media hrow hmedia => ?_⟩
  · rcases step_db e h with ⟨hdb, -⟩ | ⟨a, call, hcommits⟩
    · rw [hdb]
      exact hrow
    · cases hcommits.moves i with
      | same hsame hevents => exact hsame.trans hrow
      | moved hw hi haccepted hlicensed hafter hevents =>
        subst hi
        have hpermits := haccepted.permits_isSome hrow
        rw [transitions_of_terminal _ _ hterminal] at hpermits
        cases hpermits
  · rcases attempt_step (e := e) h hrow hprocessing with ⟨hsame, -⟩ | hattempt
    · exact absurd hsame hchanged
    · exact hattempt
  · rcases step_db e h with ⟨hdb, -⟩ | ⟨a, call, hcommits⟩
    · rw [hdb]
      exact ⟨row, hrow, hmedia⟩
    · cases hcommits.moves i with
      | same hsame hevents => exact ⟨row, hsame.trans hrow, hmedia⟩
      | moved hw hi haccepted hlicensed hafter hevents =>
        subst hi
        exact ⟨_, hafter, after_bound h.shared.sound haccepted hlicensed hrow hmedia⟩

theorem run_bound {media : MediaId} (h : Reachable s) (events : List (Event α))
    (hbound : ∃ row, s.shared.db.items.get? i = some row ∧ row.renditionMedia = some media) :
    ∃ row, (Runs.run step events s).shared.db.items.get? i = some row ∧
      row.renditionMedia = some media := by
  refine (Runs.invariant (P := fun _ _ => True) (I := fun s : State α => Reachable s ∧
    ∃ row, s.shared.db.items.get? i = some row ∧ row.renditionMedia = some media)
    (fun e s _ hs => ?_) ⟨h, hbound⟩ (Runs.throughout_true events s)).2
  obtain ⟨hs, row, hrow, hmedia⟩ := hs
  exact ⟨step_reachable e hs, (step_kept e hs).bound i row media hrow hmedia⟩

/-- In every run: the events of an item lead through the table to its state, and a terminal state
is not left; an item is leased while it is processed; an attempt is ended by the worker who started
the latest one, before its lease expires, and no token ends two; and no two items are ever bound
to one rendition. -/
theorem item_lifecycle (events : List (Event α)) :
    (∀ i, replay ((Runs.run step events initial).shared.db.eventsOf i) =
      some (((Runs.run step events initial).shared.db.items.get? i).map Item.state)) ∧
    (∀ i row, (Runs.run step events initial).shared.db.items.get? i = some row →
      (row.leaseToken.isSome ↔ row.state = .processing)) ∧
    Runs.Throughout step Kept events initial ∧
    (∀ before e after a i t, events = before ++ e :: after →
      Concludes a i t e (Runs.run step before initial) →
      Latest i t before ∧ Unexpired i t e (Runs.run step before initial)) ∧
    (∀ before e₁ between e₂ after a b i j t, events = before ++ e₁ :: (between ++ e₂ :: after) →
      Concludes a i t e₁ (Runs.run step before initial) →
      ¬Concludes b j t e₂ (Runs.run step (before ++ e₁ :: between) initial)) ∧
    ∀ first second i j row row' media, events = first ++ second →
      (Runs.run step first initial).shared.db.items.get? i = some row →
      row.renditionMedia = some media →
      (Runs.run step events initial).shared.db.items.get? j = some row' →
      row'.renditionMedia = some media → i = j := by
  have hsound (events : List (Event α)) := run_reachable initial_reachable events
  refine ⟨(hsound events).shared.sound.path, (hsound events).shared.sound.lease, ?_, ?_, ?_, ?_⟩
  · exact Runs.throughout_of_invariant (P := fun _ _ => True) (I := Reachable)
      (fun e _ _ hs => step_reachable e hs) (fun e _ _ hs => step_kept e hs) initial_reachable
      (Runs.throughout_true events _)
  · intro before e after a i t _ hconcludes
    have hunexpired := hconcludes.unexpired (hsound before)
    refine ⟨latest_of_lease ?_, hunexpired⟩
    obtain ⟨row, expiry, row', now, hrow, htoken, -⟩ := hunexpired.before
    rw [Database.leaseOf, hrow]
    exact htoken
  · intro before e₁ between e₂ after a b i j t _ hfirst hsecond
    have hspent := hfirst.spent (hsound before)
    have hlater := spent_run (step_reachable e₁ (hsound before)) hspent between
    rw [← Runs.run_cons, ← Runs.run_append] at hlater
    obtain ⟨row, expiry, row', now, hrow, htoken, -⟩ :=
      (hsecond.unexpired (hsound (before ++ e₁ :: between))).before
    refine hlater.slot j ?_
    change Database.leaseOf _ j = some t
    rw [Database.leaseOf, hrow]
    exact htoken
  · intro first second i j row row' media hsplit hrow hmedia hrow' hmedia'
    obtain ⟨later, hlater, hbound⟩ := run_bound (hsound first) second ⟨row, hrow, hmedia⟩
    rw [← Runs.run_append, ← hsplit] at hlater
    exact (hsound events).shared.sound.rendition i j later row' media hlater hrow' hbound hmedia'

end IsadoraAir.Spoken
