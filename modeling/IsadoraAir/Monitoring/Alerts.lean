import IsadoraAir.Monitoring.Outages

/-!
# Alerts and recoveries of a run

What a check reports, when it alerts again within an outage, and which outages end with a
recovery mail, for every run of the manager: any results, saved settings and deliveries, and
processes that end at any moment.
-/

namespace IsadoraAir.Monitoring

open PastTime

variable {e : Event} {ledger : Ledger} {h : List Record} {mail : Mail} {m : MonitorManager}
  {outcome : Outcome} {now : ℚ}

section Spacing

variable (c : ℕ)

/-- An alert was handed over at the time. -/
def AlertAt (t : ℚ) (r : Record) (_ : List Record) : Prop :=
  ∃ mail ∈ mail? c r, mail.status ≠ .ok ∧ mail.attemptedAt = t

/-- The first result that a process sees is bad, but not often enough. -/
def ShortFirst (r : Record) : Prop :=
  ∃ v ∈ poll? c r, (r.before.entries c).since = none ∧ v.short (r.before.entries c)

/-- The outage goes on with a check that is in sight and whose cooldown outlives a restart. -/
def Continues (r : Record) (older : List Record) : Prop :=
  Down c r older ∧ (∀ v ∈ poll? c r, v.hides = false) ∧ ¬ShortFirst c r ∧ SavedRestart r older

/-- The last alert is no earlier than the time. -/
def Cooling (entry : Entry) (t : ℚ) : Prop := ∃ last, entry.ledger.cooldown = some last ∧ t ≤ last

variable {c} {v : Visit} {entry next : Entry} {r : Record} {older : List Record} {t : ℚ}

theorem alertAt_of_mail (hmail : mail? c r = some mail) :
    AlertAt c t r older ↔ mail.status ≠ .ok ∧ mail.attemptedAt = t := by
  simp [AlertAt, hmail]

theorem not_alertAt_of_none (hmail : mail? c r = none) : ¬AlertAt c t r older := by
  simp [AlertAt, hmail]

/-- A moment without an alert that leaves the cooldown as it is. -/
theorem cooling_of_same (hcooldown : next.ledger.cooldown = entry.ledger.cooldown)
    (halert : ¬AlertAt c t r older) (h : Since (Continues c) (AlertAt c t) older → Cooling entry t)
    (hs : Since (Continues c) (AlertAt c t) (r :: older)) : Cooling next t := by
  obtain ⟨last, hlast, hle⟩ := h (hs.resolve_left halert).2
  exact ⟨last, hcooldown.trans hlast, hle⟩

/-- In an outage that goes on no poll counts as a recovery. -/
theorem Continues.ne_ok (h : Continues c r older) (hpoll : poll? c r = some v)
    (hfirst : (r.before.entries c).since = none) :
    (v.current (r.before.entries c)).getD .ok ≠ .ok := by
  obtain ⟨hdown, -, hshort, -⟩ := h
  have hnot : ¬v.short (r.before.entries c) := fun hs => hshort ⟨v, hpoll, hfirst, hs⟩
  rw [Visit.current, if_neg hnot]
  simpa [Down, raw?_of_poll? hpoll] using hdown

theorem Continues.raw_ne_ok (h : Continues c r older) (hpoll : poll? c r = some v) :
    v.raw ≠ .ok := by
  simpa [Down, raw?_of_poll? hpoll] using h.1

/-- An alert waits until the last one is a cooldown ago. -/
theorem Alerts.spaced {severity : Severity} {enabled : Bool}
    (halert : Alerts v (reconcileNotificationPreferences v.check enabled entry.ledger) severity
      mail)
    (h : Cooling entry t) : t + v.config.cooldownMinutes * 60 ≤ mail.attemptedAt := by
  obtain ⟨last, hlast, hle⟩ := h
  have hcooled := halert.cooled
  rw [reconcile_cooldown, hlast, Option.getD_some, ← halert.attemptedAt] at hcooled
  linarith

theorem cooling_polled (hpoll : poll? c r = some v) {mail : Option Mail} (hmail : mail? c r = mail)
    (hpolled : Polled v (r.before.entries c)
      (reconcileNotificationPreferences v.check v.config.enabled (r.before.entries c).ledger)
      mail next.ledger)
    (h : Since (Continues c) (AlertAt c t) older → Cooling (r.before.entries c) t)
    (hs : Since (Continues c) (AlertAt c t) (r :: older)) : Cooling next t := by
  generalize hledger : next.ledger = ledger at hpolled
  cases hpolled with
  | unchanged =>
    exact cooling_of_same (hledger ▸ reconcile_cooldown _ _ _) (not_alertAt_of_none hmail) h hs
  | silent hfirst hok =>
    obtain ⟨hcontinues, -⟩ := hs.resolve_left (not_alertAt_of_none hmail)
    exact absurd hok (hcontinues.ne_ok hpoll hfirst)
  | quiet =>
    exact cooling_of_same (hledger ▸ reconcile_cooldown _ _ _) (not_alertAt_of_none hmail) h hs
  | resolved _ hok hbefore hrecovers =>
    have halert : ¬AlertAt c t r older := by
      rintro ⟨x, hx, hne, -⟩
      exact hne (hrecovers.answers x (hmail ▸ hx)).1
    obtain ⟨hcontinues, -⟩ := hs.resolve_left halert
    exact absurd (raw_ok_of_current hok hbefore) (hcontinues.raw_ne_ok hpoll)
  | alert _ halert =>
    refine ⟨v.now, by rw [hledger]; rfl, ?_⟩
    rcases hs with hat | ⟨-, hs⟩
    · obtain ⟨-, rfl⟩ := (alertAt_of_mail hmail).mp hat
      exact halert.attemptedAt.le
    · have hspaced := halert.spaced (h hs)
      have hcooldown : (0 : ℚ) ≤ v.config.cooldownMinutes * 60 := by positivity
      rw [halert.attemptedAt] at hspaced
      linarith

theorem cooling_turn {next : Entry}
    (hturn : Turn c ⟨m, e⟩ next) (hfile : Saved older → FileCurrent c m)
    (h : Since (Continues c) (AlertAt c t) older → Cooling (m.entries c) t) :
    Since (Continues c) (AlertAt c t) (⟨m, e⟩ :: older) → Cooling next t := by
  intro hs
  cases hturn with
  | idle hpoll => exact cooling_of_same rfl (not_alertAt_of_none (mail?_of_none hpoll)) h hs
  | reset hpoll => exact cooling_of_same rfl (not_alertAt_of_none (mail?_of_none hpoll)) h hs
  | leftOut hpoll => exact cooling_of_same rfl (not_alertAt_of_none (mail?_of_none hpoll)) h hs
  | hidden hpoll _ _ hhides hmail =>
    obtain ⟨hcontinues, -⟩ := hs.resolve_left (not_alertAt_of_none hmail)
    rw [hcontinues.2.1 _ hpoll] at hhides
    cases hhides
  | polled hpoll _ _ _ _ hmail => exact cooling_polled hpoll hmail (notify_cases _ _) h hs
  | restart hpoll hrestart =>
    have halert : ¬AlertAt c t ⟨m, e⟩ older := not_alertAt_of_none (mail?_of_none hpoll)
    have hledger := hfile ((hs.resolve_left halert).1.2.2.2 hrestart)
    exact cooling_of_same (congrArg Ledger.cooldown hledger) halert h hs

end Spacing

section Recoveries

variable (c : ℕ)

/-- The outage goes on in one process, in sight, with the severity notified and none graver. -/
structure Underway (severity : Severity) (r : Record) (older : List Record) : Prop where
  down : Down c r older
  goesOn : isRestart r = false
  inSight : resets c r = false
  polled : leavesOut c r = false
  eligible : Eligible c severity r
  gravest : ∀ graver, Attempted c graver r older → graver.rank ≤ severity.rank

/-- An alert of the severity is attempted, and none graver was in the outage. -/
def Gravest (severity : Severity) (r : Record) (older : List Record) : Prop :=
  Attempted c severity r older ∧
    ∀ graver, Since (Down c) (Attempted c graver) older → graver.rank ≤ severity.rank

/-- The alert is on record, so that an `ok` ends it with a mail. -/
structure Alerted (severity : Severity) (entry : Entry) : Prop where
  seen : entry.since ≠ none
  shown : ∃ s, entry.currentStatus = some s ∧ s ≠ .ok
  incident : ∃ i, entry.ledger.incident = some i ∧ i.attemptedSeverity = severity

variable {c} {v : Visit} {entry next : Entry} {r : Record} {older : List Record}
  {severity : Severity}

theorem Severity.rank_injective {s s' : Severity} (h : s.rank = s'.rank) : s = s' := by
  cases s <;> cases s' <;> first | rfl | cases h

theorem recordAttempt_isSome (ledger : Ledger) (severity : Severity) (now : ℚ)
    (outcome : Outcome) : ∃ i, (recordAttempt ledger severity now outcome).incident = some i := by
  unfold recordAttempt
  rcases ledger.incident with _ | existing
  · exact ⟨_, rfl⟩
  · dsimp only
    split_ifs
    · exact ⟨_, rfl⟩
    · exact ⟨_, rfl⟩

/-- An attempt that is the gravest of its outage is what the record says. -/
theorem recordAttempt_gravest
    (h : ∀ i, ledger.incident = some i → i.attemptedSeverity.rank ≤ severity.rank) :
    ∃ i, (recordAttempt ledger severity now outcome).incident = some i ∧
      i.attemptedSeverity = severity := by
  obtain ⟨i, hi⟩ := recordAttempt_isSome ledger severity now outcome
  rcases recordAttempt_incident hi with hsame | ⟨hold, hgraver⟩
  · exact ⟨i, hi, hsame⟩
  · exact absurd (h i hold) (Nat.not_le_of_lt hgraver)

/-- An attempt that is no graver does not change what severity is on record. -/
theorem recordAttempt_kept {lesser : Severity}
    (h : ∃ i, ledger.incident = some i ∧ i.attemptedSeverity = severity)
    (hrank : lesser.rank ≤ severity.rank) :
    ∃ i, (recordAttempt ledger lesser now outcome).incident = some i ∧
      i.attemptedSeverity = severity := by
  obtain ⟨existing, hexisting, rfl⟩ := h
  by_cases heq : existing.attemptedSeverity.rank ≤ lesser.rank
  · obtain rfl := Severity.rank_injective (Nat.le_antisymm hrank heq)
    refine recordAttempt_gravest fun i hi => ?_
    rw [hexisting] at hi
    cases hi
    exact le_rfl
  · refine ⟨existing, ?_, rfl⟩
    simp [recordAttempt, hexisting, heq]

theorem attempted_of_mail (hmail : mail? c r = some mail) :
    Attempted c severity r older ↔ mail.status = severity.status := by
  simp [Attempted, hmail]

theorem not_attempted_of_none (hmail : mail? c r = none) : ¬Attempted c severity r older := by
  simp [Attempted, hmail]

/-- Of the mails of a poll only the alert attempts a severity. -/
theorem Recovers.not_attempted {i : Option Incident} {mail : Option Mail}
    (h : Recovers v i mail) (hmail : mail? c r = mail) : ¬Attempted c severity r older := by
  rintro ⟨x, hx, hstatus⟩
  exact Severity.status_ne_ok severity (hstatus ▸ (h.answers x (hmail ▸ hx)).1)

theorem alerted_of_gravest {mail : Option Mail} (hmail : mail? c r = mail)
    (hsince : next.since ≠ none) (hcurrent : next.currentStatus = v.current entry)
    (hpolled : Polled v entry
      (reconcileNotificationPreferences v.check v.config.enabled entry.ledger) mail next.ledger)
    (haccounted : Accounted c entry older) (hgravest : Gravest c severity r older) :
    Alerted severity next := by
  generalize hledger : next.ledger = ledger at hpolled
  cases hpolled with
  | unchanged => exact absurd hgravest.1 (not_attempted_of_none hmail)
  | silent => exact absurd hgravest.1 (not_attempted_of_none hmail)
  | quiet => exact absurd hgravest.1 (not_attempted_of_none hmail)
  | resolved _ _ _ hrecovers => exact absurd hgravest.1 (hrecovers.not_attempted hmail)
  | alert hstatus halert =>
    have hseverity := (attempted_of_mail hmail).mp hgravest.1
    obtain rfl := Severity.status_injective (halert.status.symm.trans hseverity)
    refine ⟨hsince, ?_, ?_⟩
    · rw [hcurrent]
      exact current_of_ne_ok (hstatus ▸ Severity.status_ne_ok _)
    · rw [hledger]
      refine recordAttempt_gravest fun i hi => hgravest.2 _ ?_
      exact (haccounted i (reconcile_incident.mp hi).1).2.mono (fun _ _ h => h.1) fun _ _ h => h

/-- What an underway outage has on record stays there while its severity is notified. -/
theorem reconcile_kept (hpoll : poll? c r = some v) (heligible : Eligible c severity r)
    (h : ∃ i, entry.ledger.incident = some i ∧ i.attemptedSeverity = severity) :
    ∃ i, (reconcileNotificationPreferences v.check v.config.enabled entry.ledger).incident =
      some i ∧ i.attemptedSeverity = severity := by
  obtain ⟨i, hi, rfl⟩ := h
  exact ⟨i, reconcile_incident.mpr ⟨hi, (eligible_of_poll hpoll).mp heligible⟩, rfl⟩

theorem alerted_of_underway (hpoll : poll? c r = some v) {mail : Option Mail}
    (hmail : mail? c r = mail) (hsince : next.since ≠ none)
    (hcurrent : next.currentStatus = v.current entry) (hpolled : Polled v entry
      (reconcileNotificationPreferences v.check v.config.enabled entry.ledger) mail next.ledger)
    (hunderway : Underway c severity r older) (h : Alerted severity entry) :
    Alerted severity next := by
  have hkept := reconcile_kept hpoll hunderway.eligible h.incident
  have hraw : v.raw ≠ .ok := by simpa [Down, raw?_of_poll? hpoll] using hunderway.down
  generalize hledger : next.ledger = ledger at hpolled
  cases hpolled with
  | unchanged _ hsame =>
    obtain ⟨s, hs, hne⟩ := h.shown
    refine ⟨hsince, ?_, hledger ▸ hkept⟩
    rw [hcurrent]
    exact current_of_ne_ok (by rw [hsame, hs]; exact hne)
  | silent hfirst => exact absurd hfirst h.seen
  | quiet hstatus => exact ⟨hsince, hcurrent ▸ current_of_ne_ok hstatus, hledger ▸ hkept⟩
  | resolved _ hok hbefore => exact absurd (raw_ok_of_current hok hbefore) hraw
  | alert hstatus halert =>
    have hrank := hunderway.gravest _ ((attempted_of_mail hmail).mpr halert.status)
    refine ⟨hsince, ?_, hledger ▸ recordAttempt_kept hkept hrank⟩
    rw [hcurrent]
    exact current_of_ne_ok (hstatus ▸ Severity.status_ne_ok _)

theorem alerted_turn (hturn : Turn c r next) (haccounted : Accounted c (r.before.entries c) older)
    (h : Since (Underway c severity) (Gravest c severity) older →
      Alerted severity (r.before.entries c))
    (hs : Since (Underway c severity) (Gravest c severity) (r :: older)) :
    Alerted severity next := by
  cases hturn with
  | idle hpoll =>
    obtain ⟨-, hs⟩ := hs.resolve_left fun hg => not_attempted_of_none (mail?_of_none hpoll) hg.1
    exact h hs
  | reset hpoll _ hresets =>
    obtain ⟨hunder, -⟩ := hs.resolve_left fun hg => not_attempted_of_none (mail?_of_none hpoll) hg.1
    rw [hunder.inSight] at hresets
    cases hresets
  | leftOut hpoll _ _ hout =>
    obtain ⟨hunder, -⟩ := hs.resolve_left fun hg => not_attempted_of_none (mail?_of_none hpoll) hg.1
    rw [hunder.polled] at hout
    cases hout
  | hidden _ _ hresets _ hmail =>
    obtain ⟨hunder, -⟩ := hs.resolve_left fun hg => not_attempted_of_none hmail hg.1
    rw [hunder.inSight] at hresets
    cases hresets
  | polled hpoll _ _ _ _ hmail =>
    rcases hs with hgravest | ⟨hunderway, hs⟩
    · exact alerted_of_gravest hmail (notify_since _ _) (notify_currentStatus _ _)
        (notify_cases _ _) haccounted hgravest
    · exact alerted_of_underway hpoll hmail (notify_since _ _) (notify_currentStatus _ _)
        (notify_cases _ _) hunderway (h hs)
  | restart hpoll hrestart =>
    obtain ⟨hunder, -⟩ := hs.resolve_left fun hg => not_attempted_of_none (mail?_of_none hpoll) hg.1
    rw [hunder.goesOn] at hrestart
    cases hrestart

end Recoveries

section Reports

variable (c : ℕ)

/-- A reading of the transmitter reported the status. -/
def Told (s : Status) (r : Record) (_ : List Record) : Prop :=
  reported? c r = some s ∧ ∃ v ∈ poll? c r, v.check.isTransmitter = true

/-- The process goes on, with no other reading of the transmitter for the check. -/
def Untold (r : Record) (_ : List Record) : Prop :=
  isRestart r = false ∧ resets c r = false ∧ ∀ v ∈ poll? c r, v.check.isTransmitter = false

variable {c} {v : Visit} {next : Entry} {r : Record} {older : List Record} {s : Status}

theorem reported?_of_poll? (hpoll : poll? c r = some v) (hhides : v.hides = false) :
    reported? c r = some ((v.current (r.before.entries c)).getD .ok) := by
  simp [reported?, hpoll, hhides, debounced_eq]

theorem told_turn (hturn : Turn c r next)
    (h : ∀ s, (r.before.entries c).lastTxResult = some s → Since (Untold c) (Told c s) older)
    (hs : next.lastTxResult = some s) : Since (Untold c) (Told c s) (r :: older) := by
  cases hturn with
  | idle hpoll hrestart hresets => exact .inr ⟨⟨hrestart, hresets, by simp [hpoll]⟩, h s hs⟩
  | leftOut hpoll hrestart hresets => exact .inr ⟨⟨hrestart, hresets, by simp [hpoll]⟩, h s hs⟩
  | reset => cases hs
  | hidden => cases hs
  | @polled v _ hpoll hrestart hresets _ hhides _ hlast =>
    dsimp only at hs
    rw [hs] at hlast
    split_ifs at hlast with htx
    · refine .inl ⟨?_, v, hpoll, htx⟩
      rw [hlast, reported?_of_poll? hpoll hhides, debounced_eq]
    · exact .inr ⟨⟨hrestart, hresets, by simpa [hpoll] using htx⟩, h s hlast.symm⟩
  | restart => cases hs

/-- The streak goes on from where a bad status was reached. -/
theorem le_streak_of_since {N : ℕ} (hs : Since (Steady c) (Reached c) h)
    (hconstant : ∀ r ∈ h, ∀ v ∈ poll? c r, v.check.consecutiveFailuresRequired = N) :
    N ≤ streak c h := by
  induction h with
  | nil => exact hs.elim
  | cons r older ih =>
    rcases hs with ⟨v, hv, -, hreached⟩ | ⟨⟨hrestart, hresets, hbad⟩, hs⟩
    · rwa [hconstant r (by simp) v hv] at hreached
    · have hle := ih hs fun x hx => hconstant x (List.mem_cons_of_mem _ hx)
      rcases hraw : raw? c r with _ | raw
      · simpa [streak, hrestart, hresets, hraw] using hle
      · simp only [streak, hrestart, hresets, hraw, if_pos (hbad raw hraw)]
        simp only [Bool.or_self, Bool.false_eq_true, if_false]
        omega

/-- A reported status is the current one after the poll, or `ok` where there is none. -/
theorem reported_spec (hs : reported? c r = some s) :
    ∃ v, poll? c r = some v ∧ s = (v.current (r.before.entries c)).getD .ok ∧
      ((MonitorManager.step r.event r.before).entries c).currentStatus =
        v.current (r.before.entries c) := by
  have hturn := turn c r
  generalize (MonitorManager.step r.event r.before).entries c = next at hturn
  have hnone : poll? c r ≠ none := fun hnone => by simp [reported?, hnone] at hs
  cases hturn with
  | idle hpoll => exact absurd hpoll hnone
  | reset hpoll => exact absurd hpoll hnone
  | leftOut hpoll => exact absurd hpoll hnone
  | hidden hpoll _ _ hhides => simp [reported?, hpoll, hhides] at hs
  | @polled v _ hpoll _ _ _ hhides =>
    rw [reported?_of_poll? hpoll hhides, Option.some.injEq] at hs
    exact ⟨v, hpoll, hs.symm, notify_currentStatus _ _⟩
  | restart hpoll => exact absurd hpoll hnone

/-- The mail of a poll that the check is shown after. -/
theorem polled_of_poll (hpoll : poll? c r = some v) (hshown : v.hides = false) :
    Polled v (r.before.entries c)
      (reconcileNotificationPreferences v.check v.config.enabled (r.before.entries c).ledger)
      (mail? c r) (v.notify (r.before.entries c)).2.ledger := by
  have hturn := turn c r
  generalize (MonitorManager.step r.event r.before).entries c = next at hturn
  cases hturn with
  | idle hnone => rw [hnone] at hpoll; cases hpoll
  | reset hnone => rw [hnone] at hpoll; cases hpoll
  | leftOut hnone => rw [hnone] at hpoll; cases hpoll
  | hidden hv _ _ hhides =>
    obtain rfl := Option.some.inj (hpoll.symm.trans hv)
    rw [hshown] at hhides
    cases hhides
  | polled hv _ _ _ _ hmail =>
    obtain rfl := Option.some.inj (hpoll.symm.trans hv)
    exact hmail ▸ notify_cases _ _
  | restart hnone => rw [hnone] at hpoll; cases hpoll

/-- A mail comes of a poll that the check is shown after. -/
theorem polled_of_mail (hmail : mail? c r = some mail) :
    ∃ v, poll? c r = some v ∧ Polled v (r.before.entries c)
      (reconcileNotificationPreferences v.check v.config.enabled (r.before.entries c).ledger)
      (some mail) (v.notify (r.before.entries c)).2.ledger := by
  rcases hpoll : poll? c r with _ | v
  · rw [mail?_of_none hpoll] at hmail
    cases hmail
  · refine ⟨v, rfl, ?_⟩
    rcases hhides : v.hides with _ | _
    · exact hmail ▸ polled_of_poll hpoll hhides
    · rw [mail?, hpoll, Option.bind_some, Visit.poll, if_pos hhides] at hmail
      split_ifs at hmail

/-- A recovery is mailed at a result `ok` only, for an incident that the poll leaves. -/
theorem recovered_spec (hmail : mail? c r = some mail) (hok : mail.status = .ok) :
    ∃ v i, poll? c r = some v ∧ v.raw = .ok ∧ (r.before.entries c).ledger.incident = some i ∧
      v.config.enabled = true ∧ v.check.notifies i.attemptedSeverity = true := by
  obtain ⟨v, hpoll, hpolled⟩ := polled_of_mail hmail
  generalize (v.notify (r.before.entries c)).2.ledger = ledger at hpolled
  cases hpolled with
  | resolved _ hstatus hbefore hrecovers =>
    obtain ⟨i, hi⟩ := Option.isSome_iff_exists.mp (hrecovers.answers mail rfl).2
    obtain ⟨hincident, henabled, hnotifies⟩ := reconcile_incident.mp hi
    exact ⟨v, i, hpoll, raw_ok_of_current hstatus hbefore, hincident, henabled, hnotifies⟩
  | alert _ halert => exact absurd (halert.status.symm.trans hok) (Severity.status_ne_ok _)

end Reports

section Conduct

variable (c : ℕ)

/-- A recovery was handed over. -/
def Recovered (r : Record) (_ : List Record) : Prop := ∃ mail ∈ mail? c r, mail.status = .ok

/-- What the monitor does at a moment of a run, given the moments before. -/
structure Conduct (r : Record) (older : List Record) : Prop where
  /-- A bad status is reported once enough results in a row are bad, and from then on until a
  result is not or the process no longer follows the check. -/
  reports : ∀ s, reported? c r = some s → (s.isBad ↔ Since (Steady c) (Reached c) (r :: older))
  /-- With a constant requirement these are the last results. -/
  lastBad : ∀ s N, reported? c r = some s → s.isBad →
    (∀ x ∈ r :: older, ∀ v ∈ poll? c x, v.check.consecutiveFailuresRequired = N) →
      N ≤ streak c (r :: older)
  repeats : ∀ s, repeated? c r = some s → Since (Untold c) (Told c s) older
  spaced : ∀ v mail t, poll? c r = some v → mail? c r = some mail → mail.status ≠ .ok →
    Since (Continues c) (AlertAt c t) older →
      t + v.config.cooldownMinutes * 60 ≤ mail.attemptedAt
  recovers : Historically SavedRestart older → Recovered c r older →
    raw? c r = some .ok ∧ ∃ severity, Eligible c severity r ∧
      Since (Pending c severity) (Attempted c severity) older
  /-- Between two recoveries an alert is attempted. -/
  once : Historically SavedRestart older → Recovered c r older →
    ¬Since (fun x earlier => ∀ severity, ¬Attempted c severity x earlier) (Recovered c) older
  promised : Historically SavedRestart older → ∀ v severity, poll? c r = some v → v.raw = .ok →
    v.config.recipientList ≠ [] → Eligible c severity r →
      Since (Underway c severity) (Gravest c severity) older → Recovered c r older

/-- What the manager holds of the check, and what it has in the file, fits the history. -/
structure Kept (m : MonitorManager) (h : List Record) : Prop where
  debounced : Debounced c (m.entries c) h
  told : ∀ s, (m.entries c).lastTxResult = some s → Since (Untold c) (Told c s) h
  file : Saved h → FileCurrent c m
  cooling : ∀ t, Since (Continues c) (AlertAt c t) h → Cooling (m.entries c) t
  accounted : Historically SavedRestart h → Accounted c (m.entries c) h
  alerted : Historically SavedRestart h → ∀ severity,
    Since (Underway c severity) (Gravest c severity) h → Alerted severity (m.entries c)

variable {c} {older : List Record} {severity : Severity} {s : Status} {v : Visit}

theorem kept_start : Kept c {} [] where
  debounced := ⟨rfl, fun _ => rfl, by simp⟩
  told := by simp
  file := fun _ => rfl
  cooling := by simp
  accounted := fun _ i hi => by cases hi
  alerted := by simp

theorem Kept.step (e : Event) (h : Kept c m older) :
    Kept c (MonitorManager.step e m) (⟨m, e⟩ :: older) where
  debounced := debounced_turn (turn c ⟨m, e⟩) h.debounced
  told := fun _ hs => told_turn (turn c ⟨m, e⟩) h.told hs
  file := fileCurrent_step
  cooling := fun t => cooling_turn (turn c ⟨m, e⟩) h.file (h.cooling t)
  accounted := fun hsaved => accounted_turn (turn c ⟨m, e⟩) hsaved.1 h.file (h.accounted hsaved.2)
  alerted := fun hsaved severity => alerted_turn (turn c ⟨m, e⟩) (h.accounted hsaved.2)
    (h.alerted hsaved.2 severity)

theorem Kept.reports (h : Kept c m older) (hs : reported? c ⟨m, e⟩ = some s) :
    s.isBad ↔ Since (Steady c) (Reached c) (⟨m, e⟩ :: older) := by
  obtain ⟨v, -, rfl, hcurrent⟩ := reported_spec hs
  rw [← (h.step e).debounced.stands, hcurrent]
  rcases v.current (m.entries c) with _ | s
  · simp [Status.isBad]
  · simp

theorem Kept.repeats (h : Kept c m older)
    (hs : repeated? c ⟨m, e⟩ = some s) : Since (Untold c) (Told c s) older := by
  cases e with
  | visit v =>
    dsimp only [repeated?] at hs
    split_ifs at hs
    exact h.told s hs
  | _ => cases hs

theorem Kept.spaced (h : Kept c m older) {t : ℚ}
    (hpoll : poll? c ⟨m, e⟩ = some v) (hmail : mail? c ⟨m, e⟩ = some mail)
    (halert : mail.status ≠ .ok) (hs : Since (Continues c) (AlertAt c t) older) :
    t + v.config.cooldownMinutes * 60 ≤ mail.attemptedAt := by
  obtain ⟨w, hw, hpolled⟩ := polled_of_mail hmail
  obtain rfl := Option.some.inj (hpoll.symm.trans hw)
  generalize (v.notify (m.entries c)).2.ledger = ledger at hpolled
  cases hpolled with
  | resolved _ _ _ hrecovers => exact absurd (hrecovers.answers mail rfl).1 halert
  | alert _ halerts => exact halerts.spaced (h.cooling t hs)

theorem Kept.recovers (h : Kept c m older)
    (hsaved : Historically SavedRestart older) (hrecovered : Recovered c ⟨m, e⟩ older) :
    raw? c ⟨m, e⟩ = some .ok ∧ ∃ severity, Eligible c severity ⟨m, e⟩ ∧
      Since (Pending c severity) (Attempted c severity) older := by
  obtain ⟨mail, hmail, hok⟩ := hrecovered
  obtain ⟨v, i, hpoll, hraw, hincident, heligible⟩ := recovered_spec hmail hok
  refine ⟨by rw [raw?_of_poll? hpoll, hraw], i.attemptedSeverity, ?_, ?_⟩
  · exact (eligible_of_poll hpoll).mpr heligible
  · exact (h.accounted hsaved i hincident).2

/-- No recovery follows the last attempt before the outage is over. -/
theorem not_recovered_since (hs : Since (Pending c severity) (Attempted c severity) h) :
    ¬Since (fun x earlier => ∀ severity, ¬Attempted c severity x earlier) (Recovered c) h := by
  intro hrecovered
  refine hs.excludes ?_ ?_ (hrecovered.mono (fun _ _ hnone => hnone severity) fun _ _ h => h)
  · rintro x earlier ⟨hdown, -⟩ ⟨mail, hmail, hok⟩
    obtain ⟨v, i, hpoll, hraw, -⟩ := recovered_spec hmail hok
    exact hdown (by rw [raw?_of_poll? hpoll, hraw])
  · rintro x earlier ⟨mail, hmail, hstatus⟩ ⟨mail', hmail', hok⟩
    obtain rfl := Option.some.inj (hmail.symm.trans hmail')
    exact Severity.status_ne_ok severity (hstatus.symm.trans hok)

theorem Kept.promised (h : Kept c m older) (hsaved : Historically SavedRestart older)
    (hpoll : poll? c ⟨m, e⟩ = some v) (hraw : v.raw = .ok)
    (hrecipients : v.config.recipientList ≠ []) (heligible : Eligible c severity ⟨m, e⟩)
    (hs : Since (Underway c severity) (Gravest c severity) older) :
    Recovered c ⟨m, e⟩ older := by
  have halerted := h.alerted hsaved severity hs
  have hcurrent : v.current (m.entries c) = some .ok := current_of_raw_ok hraw
  obtain ⟨s, hshown, hne⟩ := halerted.shown
  obtain ⟨i, hi, -⟩ := reconcile_kept hpoll heligible halerted.incident
  have hpolled := polled_of_poll hpoll (by simp [Visit.hides, hraw])
  generalize hmail : mail? c ⟨m, e⟩ = mail at hpolled
  generalize (v.notify (m.entries c)).2.ledger = ledger at hpolled
  cases hpolled with
  | unchanged _ hsame =>
    rw [hcurrent, hshown] at hsame
    exact absurd hsame.symm hne
  | silent hfirst => exact absurd hfirst halerted.seen
  | quiet hstatus => simp [hcurrent] at hstatus
  | resolved _ _ _ hrecovers =>
    have henabled := ((eligible_of_poll hpoll).mp heligible).1
    obtain ⟨x, hx⟩ := Option.isSome_iff_exists.mp
      (hrecovers.mailed (Option.isSome_iff_exists.mpr ⟨i, hi⟩) henabled hrecipients)
    exact ⟨x, hmail.trans hx, (hrecovers.answers x hx).1⟩
  | alert hstatus =>
    rw [hcurrent] at hstatus
    exact absurd hstatus.symm (Severity.status_ne_ok _)

/-- Every moment of every run, for every check. -/
theorem alerts_conduct (c : ℕ) (events : List Event) :
    Historically (Conduct c) (watched events).2 :=
  historically_watch kept_start (fun _ _ e h => h.step e)
    (fun _ _ _ h =>
      { reports := fun _ hs => h.reports hs
        lastBad := fun _ _ hs hbad => le_streak_of_since ((h.reports hs).mp hbad)
        repeats := fun _ hs => h.repeats hs
        spaced := fun _ _ _ hpoll hmail halert hs => h.spaced hpoll hmail halert hs
        recovers := fun hsaved hrecovered => h.recovers hsaved hrecovered
        once := fun hsaved hrecovered => by
          obtain ⟨-, severity, -, hs⟩ := h.recovers hsaved hrecovered
          exact not_recovered_since hs
        promised := fun hsaved _ _ hpoll hraw hrecipients heligible hs =>
          h.promised hsaved hpoll hraw hrecipients heligible hs }) events

/-- What a recovery comes to while the process only ever ends between two cycles. -/
structure Recovery (c : ℕ) (r : Record) (older : List Record) : Prop where
  answers : Recovered c r older → raw? c r = some .ok ∧ ∃ severity, Eligible c severity r ∧
    Since (Pending c severity) (Attempted c severity) older
  once : Recovered c r older →
    ¬Since (fun x earlier => ∀ severity, ¬Attempted c severity x earlier) (Recovered c) older
  promised : ∀ v severity, poll? c r = some v → v.raw = .ok → v.config.recipientList ≠ [] →
    Eligible c severity r → Since (Underway c severity) (Gravest c severity) older →
      Recovered c r older

theorem Kept.recovery (h : Kept c m older)
    (hsaved : Historically SavedRestart older) : Recovery c ⟨m, e⟩ older where
  answers := h.recovers hsaved
  once hrecovered := by
    obtain ⟨-, severity, -, hs⟩ := h.recovers hsaved hrecovered
    exact not_recovered_since hs
  promised _ _ hpoll hraw hrecipients heligible := h.promised hsaved hpoll hraw hrecipients heligible

end Conduct

/-! ## Where a run departs from what one would expect -/

section Departures

/-- A check of the engine at a minute, alerting at most every half hour. -/
def engineAt (minute required : ℕ) (raw : Status) (enabled : Bool) : Event :=
  .visit
    { check := { id := 7, name := "Engine", consecutiveFailuresRequired := required }
      config := { enabled := enabled, recipientList := ["ops@example.com"] }
      raw := raw
      changedAt := minute
      now := minute * 60 }

/-- A reading of a transmitter at a minute. -/
def powerAt (minute : ℕ) (raw : Status) : Event :=
  .visit
    { check :=
        { id := 7, name := "Power", kind := .transmitterParam, consecutiveFailuresRequired := 1 }
      config := { recipientList := ["ops@example.com"] }
      raw := raw
      changedAt := minute
      now := minute * 60 }

/-- What the check reported, the first report first. -/
def reports (events : List Event) : List Status :=
  ((watched events).2.filterMap (reported? 7)).reverse

/-- The mails of the check with the minutes they were handed over in, the first mail first. -/
def mails (events : List Event) : List (Status × ℚ) :=
  (((watched events).2.filterMap (mail? 7)).map fun mail =>
    (mail.status, mail.attemptedAt / 60)).reverse

/-- An outage with one alert and, half an hour later, the recovery. -/
example : mails [engineAt 40 2 .critical true, engineAt 41 2 .critical true, .writeState,
    engineAt 70 2 .ok true] = [(.critical, 41), (.ok, 70)] := by decide +kernel

/-- A process that ends forgets the debounce, and with it a cooldown; it forgets an alert that is
not in the file yet. A requirement that is raised does not take back what is reported. An outage
ends without a mail when notifications are off or a cycle leaves the check out, and a transmitter
that does not know the check ends it as well. -/
theorem alerts_departures :
    reports [engineAt 40 2 .critical true, engineAt 41 2 .critical true, .writeState, .restart,
        engineAt 42 2 .critical true] = [.ok, .critical, .ok] ∧
      mails [engineAt 40 2 .critical true, engineAt 41 2 .critical true, .writeState, .restart,
        engineAt 42 2 .critical true, engineAt 43 2 .critical true] =
          [(.critical, 41), (.critical, 43)] ∧
      mails [engineAt 40 1 .critical true, .restart, engineAt 41 1 .critical true] =
        [(.critical, 40), (.critical, 41)] ∧
      reports [engineAt 40 1 .critical true, engineAt 41 3 .critical true] =
        [.critical, .critical] ∧
      mails [engineAt 40 1 .critical true, engineAt 41 1 .ok false] = [(.critical, 40)] ∧
      mails [engineAt 40 1 .critical true, .writeState, .dropInactive [], .writeState,
        engineAt 41 1 .ok true] = [(.critical, 40)] ∧
      mails [powerAt 40 .critical, powerAt 41 .unsupported, powerAt 42 .critical] =
        [(.critical, 40), (.critical, 42)] := by
  decide +kernel

end Departures

end IsadoraAir.Monitoring
