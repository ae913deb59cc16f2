import IsadoraAir.Monitoring.Polls

/-!
# The past of a check

What the manager holds of a check says what has happened to the check: the bad results in a row,
whether a bad status stands, which alert is unresolved and when the last one was attempted. Each
is an invariant of a run and its history, kept turn by turn.
-/

namespace IsadoraAir.Monitoring

open PastTime

variable {e : Event} {i : Incident} {m : MonitorManager} {severity : Severity}

section Past

variable (c : ℕ)

/-- The bad results in a row that this process has seen. -/
def streak : List Record → ℕ
  | [] => 0
  | r :: older =>
    if isRestart r || resets c r then 0
    else match raw? c r with
      | none => streak older
      | some raw => if raw.isBad then streak older + 1 else 0

/-- The process goes on, and no result is other than bad. -/
def Steady (r : Record) (_ : List Record) : Prop :=
  isRestart r = false ∧ resets c r = false ∧ ∀ raw ∈ raw? c r, raw.isBad

/-- As many bad results in a row as the check then requires. -/
def Reached (r : Record) (older : List Record) : Prop :=
  ∃ v ∈ poll? c r, v.raw.isBad ∧ v.check.consecutiveFailuresRequired ≤ streak c (r :: older)

/-- An alert of the severity was attempted. -/
def Attempted (severity : Severity) (r : Record) (_ : List Record) : Prop :=
  ∃ mail ∈ mail? c r, mail.status = severity.status

/-- No result is `ok`, and a poll finds the severity notified. -/
def Eligible (severity : Severity) (r : Record) : Prop :=
  ∀ v ∈ poll? c r, v.config.enabled = true ∧ v.check.notifies severity = true

/-- The outage goes on. -/
def Down (r : Record) (_ : List Record) : Prop := raw? c r ≠ some .ok

def Pending (severity : Severity) (r : Record) (older : List Record) : Prop :=
  Down c r older ∧ Eligible c severity r

end Past

section Debounce

variable {c : ℕ} {older : List Record} {r : Record} {v : Visit}

/-- What the entry says of the results so far. -/
structure Debounced (c : ℕ) (entry : Entry) (h : List Record) : Prop where
  streak : entry.consecutiveBad.getD 0 = streak c h
  unseen : entry.since = none → entry.currentStatus = none
  stands : (∃ s, entry.currentStatus = some s ∧ s.isBad) ↔ Since (Steady c) (Reached c) h

theorem raw?_of_poll? (h : poll? c r = some v) :
    raw? c r = some v.raw := by
  rw [raw?, h, Option.map_some]

theorem raw?_of_none (h : poll? c r = none) : raw? c r = none := by
  rw [raw?, h, Option.map_none]

theorem mail?_of_none (h : poll? c r = none) : mail? c r = none := by
  rw [mail?, h, Option.bind_none]

theorem not_reached_of_none (h : poll? c r = none) :
    ¬Reached c r older := by
  rintro ⟨v, hv, -⟩
  rw [Option.mem_def, h] at hv
  cases hv

theorem not_isBad_of_hides (h : v.hides = true) : ¬v.raw.isBad := by
  have hraw : v.raw = .unsupported := by
    simp only [Visit.hides, Bool.and_eq_true, decide_eq_true_eq] at h
    exact h.2
  rw [hraw]
  decide

theorem streak_of_poll {entry : Entry} (hpoll : poll? c r = some v) (hrestart : isRestart r = false)
    (hresets : resets c r = false) (h : entry.consecutiveBad.getD 0 = streak c older) :
    streak c (r :: older) = v.count entry := by
  simp [streak, hrestart, hresets, raw?_of_poll? hpoll, Visit.count, h]

/-- A moment without a result leaves the debounce as it is. -/
theorem Debounced.idle {entry next : Entry}
    (h : Debounced c entry older) (hpoll : poll? c r = none) (hrestart : isRestart r = false)
    (hresets : resets c r = false) (hcount : next.consecutiveBad = entry.consecutiveBad)
    (hsince : next.since = entry.since) (hcurrent : next.currentStatus = entry.currentStatus) :
    Debounced c next (r :: older) where
  streak := by simp [Monitoring.streak, hrestart, hresets, raw?_of_none hpoll, hcount, h.streak]
  unseen := by
    rw [hsince, hcurrent]
    exact h.unseen
  stands := by
    have hsteady : Steady c r older := ⟨hrestart, hresets, by simp [raw?_of_none hpoll]⟩
    rw [hcurrent, h.stands, since_cons]
    simp [not_reached_of_none hpoll, hsteady]

/-- A check that is out of sight starts anew. -/
theorem debounced_anew {next : Entry}
    (hinterrupt : isRestart r || resets c r) (hreached : ¬Reached c r older)
    (hcount : next.consecutiveBad = none) (hcurrent : next.currentStatus = none) :
    Debounced c next (r :: older) where
  streak := by simp [Monitoring.streak, hinterrupt, hcount]
  unseen := fun _ => hcurrent
  stands := by
    have hsteady : ¬Steady c r older := by
      rintro ⟨hrestart, hresets, -⟩
      simp [hrestart, hresets] at hinterrupt
    rw [since_cons]
    simp [hcurrent, hreached, hsteady]

/-- After a poll a bad status stands when it is reached, or stood and no result spoke against. -/
theorem debounced_polled {entry next : Entry}
    (hpoll : poll? c r = some v) (hrestart : isRestart r = false) (hresets : resets c r = false)
    (hcount : next.consecutiveBad = some (v.count entry)) (hsince : next.since ≠ none)
    (hcurrent : next.currentStatus = v.current entry) (h : Debounced c entry older) :
    Debounced c next (r :: older) where
  streak := by rw [hcount, Option.getD_some, streak_of_poll hpoll hrestart hresets h.streak]
  unseen := fun hnone => absurd hnone hsince
  stands := by
    have hstreak := streak_of_poll hpoll hrestart hresets h.streak
    have hreached : Reached c r older ↔ v.raw.isBad ∧ ¬v.short entry := by
      simp only [Reached, hpoll, Option.mem_def, Option.some.injEq, exists_eq_left', hstreak,
        Visit.short]
      grind
    have hsteady : Steady c r older ↔ v.raw.isBad := by
      simp [Steady, hrestart, hresets, raw?_of_poll? hpoll]
    rw [since_cons, hreached, hsteady, ← h.stands, hcurrent, Visit.current]
    by_cases hshort : v.short entry
    · simp [hshort, hshort.1]
    · by_cases hbad : v.raw.isBad <;> simp [hshort, hbad]

theorem debounced_turn {next : Entry} (hturn : Turn c r next)
    (h : Debounced c (r.before.entries c) older) : Debounced c next (r :: older) := by
  cases hturn with
  | idle hpoll hrestart hresets => exact h.idle hpoll hrestart hresets rfl rfl rfl
  | leftOut hpoll hrestart hresets => exact h.idle hpoll hrestart hresets rfl rfl rfl
  | reset hpoll _ hresets =>
    exact debounced_anew (by simp [hresets]) (not_reached_of_none hpoll) rfl rfl
  | hidden hpoll _ hresets hhides =>
    refine debounced_anew (by simp [hresets]) ?_ rfl rfl
    rintro ⟨w, hw, hbad, -⟩
    rw [Option.mem_def, hpoll, Option.some.injEq] at hw
    exact not_isBad_of_hides hhides (hw ▸ hbad)
  | polled hpoll hrestart hresets =>
    exact debounced_polled hpoll hrestart hresets (notify_consecutiveBad _ _) (notify_since _ _)
      (notify_currentStatus _ _) h
  | restart hpoll hrestart =>
    exact debounced_anew (by simp [hrestart]) (not_reached_of_none hpoll) rfl rfl

end Debounce

/-! ## The unresolved alert -/

section Incidents

variable {c : ℕ} {v : Visit} {entry next : Entry} {r : Record} {older : List Record}

theorem current_of_ne_ok (h : (v.current entry).getD .ok ≠ .ok) :
    ∃ s, v.current entry = some s ∧ s ≠ .ok := by
  rcases hs : v.current entry with _ | s
  · simp [hs] at h
  · exact ⟨s, rfl, by simpa [hs] using h⟩

theorem current_of_raw_ok (h : v.raw = .ok) : v.current entry = some .ok := by
  have hshort : ¬v.short entry := fun hshort => absurd hshort.1 (h ▸ by decide)
  rw [Visit.current, if_neg hshort, h]

/-- An `ok` that was not there before is the result itself. -/
theorem raw_ok_of_current (hok : (v.current entry).getD .ok = .ok)
    (hbefore : entry.currentStatus.getD .ok ≠ .ok) : v.raw = .ok := by
  unfold Visit.current at hok
  split_ifs at hok
  · exact absurd hok hbefore
  · exact hok

theorem down_of_ne_ok (hpoll : poll? c r = some v) (h : v.raw ≠ .ok) : Down c r older := by
  simpa [Down, raw?_of_poll? hpoll] using h

theorem down_of_none (hpoll : poll? c r = none) : Down c r older := by
  simp [Down, raw?_of_none hpoll]

theorem eligible_of_none (hpoll : poll? c r = none) (severity : Severity) :
    Eligible c severity r := by
  simp [Eligible, hpoll]

theorem eligible_of_poll (hpoll : poll? c r = some v) :
    Eligible c severity r ↔ v.config.enabled = true ∧ v.check.notifies severity = true := by
  simp [Eligible, hpoll]

/-- A status other than `ok` stands, or the process has not seen the check yet. -/
def Entry.unsettled (entry : Entry) : Prop :=
  entry.since = none ∨ ∃ s, entry.currentStatus = some s ∧ s ≠ .ok

/-- An incident on record was attempted in the outage that goes on, and is notified ever since. -/
def Accounted (c : ℕ) (entry : Entry) (h : List Record) : Prop :=
  ∀ i, entry.ledger.incident = some i → entry.unsettled ∧
    Since (Pending c i.attemptedSeverity) (Attempted c i.attemptedSeverity) h

/-- A moment without a result at which nothing is put on record. -/
theorem Accounted.idle (h : Accounted c entry older) (hpoll : poll? c r = none)
    (hincident : ∀ i, next.ledger.incident = some i → entry.ledger.incident = some i)
    (hunsettled : entry.unsettled → next.unsettled) : Accounted c next (r :: older) := by
  intro i hi
  obtain ⟨hentry, hsince⟩ := h i (hincident i hi)
  exact ⟨hunsettled hentry, .inr ⟨⟨down_of_none hpoll, eligible_of_none hpoll _⟩, hsince⟩⟩

/-- A poll that leaves the check unsettled keeps the incident of a notified severity. -/
theorem Accounted.kept (h : Accounted c entry older) (hpoll : poll? c r = some v)
    (hi : (reconcileNotificationPreferences v.check v.config.enabled entry.ledger).incident =
      some i)
    (hraw : v.raw ≠ .ok) :
    Since (Pending c i.attemptedSeverity) (Attempted c i.attemptedSeverity) (r :: older) := by
  obtain ⟨hincident, heligible⟩ := reconcile_incident.mp hi
  exact .inr ⟨⟨down_of_ne_ok hpoll hraw, (eligible_of_poll hpoll).mpr heligible⟩,
    (h i hincident).2⟩

theorem recordAttempt_incident {ledger : Ledger} {now : ℚ} {outcome : Outcome}
    (h : (recordAttempt ledger severity now outcome).incident = some i) :
    i.attemptedSeverity = severity ∨
      ledger.incident = some i ∧ severity.rank < i.attemptedSeverity.rank := by
  unfold recordAttempt at h
  rcases hledger : ledger.incident with _ | existing
  · rw [hledger] at h
    cases h
    exact .inl rfl
  · rw [hledger] at h
    dsimp only at h
    split_ifs at h with hrank
    · cases h
      exact .inl rfl
    · cases h
      exact .inr ⟨rfl, Nat.lt_of_not_le hrank⟩

theorem accounted_polled (hpoll : poll? c r = some v) {mail : Option Mail}
    (hmail : mail? c r = mail) (hcurrent : next.currentStatus = v.current entry)
    (hpolled : Polled v entry
      (reconcileNotificationPreferences v.check v.config.enabled entry.ledger) mail next.ledger)
    (h : Accounted c entry older) : Accounted c next (r :: older) := by
  have hshown : (v.current entry).getD .ok ≠ .ok → next.unsettled ∧ v.raw ≠ .ok := by
    intro hne
    refine ⟨.inr (hcurrent ▸ current_of_ne_ok hne), fun hraw => hne ?_⟩
    rw [current_of_raw_ok hraw, Option.getD_some]
  intro i hi
  generalize next.ledger = ledger at hpolled hi
  cases hpolled with
  | unchanged hseen hsame =>
    obtain ⟨hincident, -⟩ := reconcile_incident.mp hi
    rcases (h i hincident).1 with hnone | ⟨s, hs, hne⟩
    · exact absurd hnone hseen
    · obtain ⟨hunsettled, hraw⟩ := hshown (by rw [hsame, hs]; exact hne)
      exact ⟨hunsettled, h.kept hpoll hi hraw⟩
  | silent => cases hi
  | quiet hstatus => exact ⟨(hshown hstatus).1, h.kept hpoll hi (hshown hstatus).2⟩
  | resolved => cases hi
  | alert hstatus halert =>
    obtain ⟨hunsettled, hraw⟩ := hshown (hstatus ▸ Severity.status_ne_ok _)
    refine ⟨hunsettled, ?_⟩
    rcases recordAttempt_incident hi with rfl | ⟨hold, -⟩
    · exact .inl ⟨_, hmail, halert.status⟩
    · exact h.kept hpoll hold hraw

/-- The state file holds what the manager does. -/
def FileCurrent (c : ℕ) (m : MonitorManager) : Prop :=
  (m.stateFile.map (· c)).getD {} = (m.entries c).ledger

/-- The process that ends has written its state. -/
def SavedRestart (r : Record) (older : List Record) : Prop := isRestart r = true → Saved older

theorem accounted_turn {next : Entry}
    (hturn : Turn c ⟨m, e⟩ next) (hsaved : SavedRestart ⟨m, e⟩ older)
    (hfile : Saved older → FileCurrent c m) (h : Accounted c (m.entries c) older) :
    Accounted c next (⟨m, e⟩ :: older) := by
  cases hturn with
  | idle hpoll => exact h.idle hpoll (fun _ hi => hi) id
  | reset hpoll => exact h.idle hpoll (fun _ hi => hi) fun _ => .inl rfl
  | leftOut hpoll => exact h.idle hpoll (fun _ hi => by cases hi) id
  | hidden => exact fun i hi => by cases hi
  | polled hpoll _ _ _ _ hmail =>
    exact accounted_polled hpoll hmail (notify_currentStatus _ _) (notify_cases _ _) h
  | restart hpoll hrestart =>
    have hledger := hfile (hsaved hrestart)
    exact h.idle hpoll (fun _ hi => hledger ▸ hi) fun _ => .inl rfl

theorem fileCurrent_step
    (h : Saved (⟨m, e⟩ :: older)) : FileCurrent c (MonitorManager.step e m) := by
  cases e with
  | writeState => rfl
  | restart => rfl
  | _ => exact h.elim

/-- Events of one process leave the restarts of a history as they are. -/
theorem savedRestart_foldl {events : List Event} (hevents : ∀ e ∈ events, e ≠ .restart)
    {s : MonitorManager × List Record} (h : Historically SavedRestart s.2) :
    Historically SavedRestart (events.foldl (observe MonitorManager.step) s).2 := by
  induction events generalizing s with
  | nil => exact h
  | cons e events ih =>
    refine ih (fun x hx => hevents x (List.mem_cons_of_mem e hx)) ⟨fun hrestart => ?_, h⟩
    cases e with
    | restart => exact absurd rfl (hevents .restart List.mem_cons_self)
    | _ => cases hrestart

/-- A process that ends between two cycles has written its state. -/
theorem savedRestart_periods (periods : List Period) :
    Historically SavedRestart (watched (periods.flatMap Period.events)).2 ∧
      Saved (watched (periods.flatMap Period.events)).2 := by
  induction periods using List.reverseRecOn with
  | nil => exact ⟨trivial, trivial⟩
  | append_singleton periods period ih =>
    rw [List.flatMap_append, List.flatMap_singleton, watched, watch, List.foldl_append]
    cases period with
    | cycle inputs =>
      refine ⟨savedRestart_foldl ?_ ih.1, ?_⟩
      · rintro e he rfl
        simp [Period.events, Cycle.events] at he
      · rw [Period.events, Cycle.events, List.foldl_append]
        trivial
    | restart => exact ⟨⟨fun _ => ih.2, ih.1⟩, trivial⟩

end Incidents

end IsadoraAir.Monitoring
