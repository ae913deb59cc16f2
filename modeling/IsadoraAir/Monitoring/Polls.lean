import Mathlib.Tactic.Linarith
import IsadoraAir.Monitoring.Checks

/-!
# What a run shows of one check

A poll of a check is a turn of the loop that runs its probe. The result of a poll, the status it
reports and the mail it hands over are read off the state it finds. Whatever comes in a run does
one of six things to what the manager holds of the check.
-/

namespace IsadoraAir.Monitoring

open PastTime

variable {enabled : Bool} {i : Incident} {s : Severity}

abbrev Record := Moment MonitorManager Event

/-! ## Notifications, by cases -/

section Notifications

variable {check : MonitorCheck} {ledger : Ledger}

@[simp] theorem reconcile_cooldown (check : MonitorCheck) (enabled : Bool) (ledger : Ledger) :
    (reconcileNotificationPreferences check enabled ledger).cooldown = ledger.cooldown := by
  unfold reconcileNotificationPreferences
  split
  · rfl
  · split_ifs <;> rfl

/-- An incident stays while its severity is to be notified. -/
theorem reconcile_incident :
    (reconcileNotificationPreferences check enabled ledger).incident = some i ↔
      ledger.incident = some i ∧ enabled = true ∧ check.notifies i.attemptedSeverity = true := by
  unfold reconcileNotificationPreferences
  split
  next h => simp [h]
  next j h =>
    cases enabled <;> cases hn : check.notifies j.attemptedSeverity <;> simp [h]
    · rintro rfl
      simp [hn]
    · rintro rfl
      exact hn

theorem reconcile_of_none (check : MonitorCheck) (enabled : Bool) (h : ledger.incident = none) :
    reconcileNotificationPreferences check enabled ledger = ledger := by
  simp [reconcileNotificationPreferences, h]

theorem reconcile_of_kept (h : ledger.incident = some i)
    (henabled : enabled = true) (hnotifies : check.notifies i.attemptedSeverity = true) :
    reconcileNotificationPreferences check enabled ledger = ledger := by
  simp [reconcileNotificationPreferences, h, henabled, hnotifies]

theorem reconcile_twice (check : MonitorCheck) (enabled : Bool) (ledger : Ledger) :
    reconcileNotificationPreferences check enabled
      (reconcileNotificationPreferences check enabled ledger) =
        reconcileNotificationPreferences check enabled ledger := by
  rcases hi : (reconcileNotificationPreferences check enabled ledger).incident with _ | i
  · exact reconcile_of_none check enabled hi
  · obtain ⟨-, henabled, hnotifies⟩ := reconcile_incident.mp hi
    exact reconcile_of_kept hi henabled hnotifies

@[simp] theorem Severity.status_ne_ok (s : Severity) : s.status ≠ .ok := by cases s <;> decide

theorem Severity.status_injective {s' : Severity} (h : s.status = s'.status) : s = s' := by
  cases s <;> cases s' <;> first | rfl | cases h

theorem Status.eq_of_severity? {x : Status} (h : x.severity? = some s) : x = s.status := by
  cases x <;> cases h <;> rfl

/-- An alert that is handed over: it is to be notified, and the last one is a cooldown ago. -/
structure Alerts (v : Visit) (ledger : Ledger) (severity : Severity) (mail : Mail) : Prop where
  status : mail.status = severity.status
  attemptedAt : mail.attemptedAt = v.now
  enabled : v.config.enabled = true
  notifies : v.check.notifies severity = true
  cooled : ledger.cooldown.getD 0 + v.config.cooldownMinutes * 60 ≤ v.now

/-- A recovery that is handed over answers an incident. -/
structure Recovers (v : Visit) (incident : Option Incident) (mail : Option Mail) : Prop where
  answers : ∀ x ∈ mail, x.status = .ok ∧ incident.isSome
  mailed : incident.isSome → v.config.enabled = true → v.config.recipientList ≠ [] → mail.isSome

/-- What a notification with the status does to the preferences' ledger. -/
inductive Notified (v : Visit) (ledger : Ledger) : Status → Option Mail → Ledger → Prop
  | quiet {status : Status} (hstatus : status ≠ .ok) : Notified v ledger status none ledger
  | resolved {mail : Option Mail} (h : Recovers v ledger.incident mail) :
      Notified v ledger .ok mail {}
  | alert {severity : Severity} {mail : Mail} {outcome : Outcome}
      (h : Alerts v ledger severity mail) :
      Notified v ledger severity.status (some mail) (recordAttempt ledger severity v.now outcome)

theorem send_isSome {config : NotificationConfig} (transport : Outcome)
    (h : config.recipientList ≠ []) : send config transport = some transport := if_neg h

theorem maybeNotify_cases (v : Visit) (status : Status) (ledger : Ledger) :
    Notified v (reconcileNotificationPreferences v.check v.config.enabled ledger) status
      (maybeNotify v.check status v.detail v.config v.now v.transport ledger).1
      (maybeNotify v.check status v.detail v.config v.now v.transport ledger).2 := by
  simp only [maybeNotify]
  generalize reconcileNotificationPreferences v.check v.config.enabled ledger = l
  by_cases hok : status = .ok
  · subst hok
    rw [if_pos rfl]
    by_cases hincident : l.incident.isSome && v.config.enabled
    · rw [if_pos hincident]
      obtain ⟨hsome, henabled⟩ := Bool.and_eq_true_iff.mp hincident
      refine .resolved ⟨fun x hx => ?_, fun _ _ hrecipients => ?_⟩
      · obtain ⟨outcome, -, rfl⟩ := Option.map_eq_some_iff.mp hx
        exact ⟨rfl, hsome⟩
      · rw [send_isSome v.transport hrecipients]
        rfl
    · rw [if_neg hincident]
      refine .resolved ⟨by simp, fun hsome henabled _ => ?_⟩
      exact absurd (Bool.and_eq_true_iff.mpr ⟨hsome, henabled⟩) hincident
  · rw [if_neg hok]
    rcases hseverity : status.severity? with _ | severity
    · exact .quiet hok
    · obtain rfl := Status.eq_of_severity? hseverity
      dsimp only
      split_ifs with henabled hnotifies hcooldown
      · exact .quiet hok
      · exact .quiet hok
      · exact .quiet hok
      · rcases send v.config v.transport with _ | outcome
        · exact .quiet hok
        · refine .alert ⟨rfl, rfl, by simpa using henabled, by simpa using hnotifies, ?_⟩
          linarith

/-- A ledger with nothing on it is left so. -/
theorem maybeNotify_cleared (v : Visit) :
    maybeNotify v.check .ok v.detail v.config v.now v.transport {} = (none, {}) := by
  simp [maybeNotify, reconcileNotificationPreferences, clearNotificationIncident]

end Notifications

/-! ## Polls, by cases -/

section Polls

variable {v : Visit} {entry : Entry}

/-- The bad results in a row, this one included. -/
def Visit.count (v : Visit) (entry : Entry) : ℕ :=
  if v.raw.isBad then entry.consecutiveBad.getD 0 + 1 else 0

/-- A bad result that came too few times. -/
def Visit.short (v : Visit) (entry : Entry) : Prop :=
  v.raw.isBad ∧ v.count entry < v.check.consecutiveFailuresRequired

instance (v : Visit) (entry : Entry) : Decidable (v.short entry) :=
  inferInstanceAs (Decidable (_ ∧ _))

theorem debounced_of_short (h : v.short entry) :
    v.debounced entry =
      (entry.currentStatus.getD .ok, { entry with consecutiveBad := some (v.count entry) }) :=
  if_pos h

theorem debounced_of_not_short (h : ¬v.short entry) :
    v.debounced entry =
      (v.raw, { entry with
        consecutiveBad := some (v.count entry), currentStatus := some v.raw }) :=
  if_neg h

/-- The current status after a poll. -/
def Visit.current (v : Visit) (entry : Entry) : Option Status :=
  if v.short entry then entry.currentStatus else some v.raw

theorem debounced_eq (v : Visit) (entry : Entry) :
    v.debounced entry = ((v.current entry).getD .ok, { entry with
      consecutiveBad := some (v.count entry), currentStatus := v.current entry }) := by
  unfold Visit.current
  split_ifs with h
  · exact debounced_of_short h
  · exact debounced_of_not_short h

/-- What a poll that runs its probe does to the ledger, and the mail it hands over. -/
inductive Polled (v : Visit) (entry : Entry) (ledger : Ledger) : Option Mail → Ledger → Prop
  /-- The reported status is the one before. -/
  | unchanged (hseen : entry.since ≠ none)
      (hsame : (v.current entry).getD .ok = entry.currentStatus.getD .ok) :
      Polled v entry ledger none ledger
  /-- The first result that the process sees counts as a recovery nobody saw. -/
  | silent (hfirst : entry.since = none) (hok : (v.current entry).getD .ok = .ok) :
      Polled v entry ledger none {}
  | quiet (hstatus : (v.current entry).getD .ok ≠ .ok) : Polled v entry ledger none ledger
  | resolved {mail : Option Mail} (hseen : entry.since ≠ none)
      (hok : (v.current entry).getD .ok = .ok) (hbefore : entry.currentStatus.getD .ok ≠ .ok)
      (h : Recovers v ledger.incident mail) : Polled v entry ledger mail {}
  | alert {severity : Severity} {mail : Mail} {outcome : Outcome}
      (hstatus : (v.current entry).getD .ok = severity.status) (h : Alerts v ledger severity mail) :
      Polled v entry ledger (some mail) (recordAttempt ledger severity v.now outcome)

theorem notify_cases (v : Visit) (entry : Entry) :
    Polled v entry (reconcileNotificationPreferences v.check v.config.enabled entry.ledger)
      (v.notify entry).1 (v.notify entry).2.ledger := by
  have hnotified := maybeNotify_cases v ((v.current entry).getD .ok)
    (reconcileNotificationPreferences v.check v.config.enabled entry.ledger)
  rw [reconcile_twice] at hnotified
  simp only [Visit.notify, debounced_eq]
  generalize reconcileNotificationPreferences v.check v.config.enabled entry.ledger = l at *
  by_cases hchange : (v.current entry).getD .ok ≠ entry.currentStatus.getD .ok ∨
      entry.since.isNone = true
  · rw [if_pos hchange]
    by_cases hclear : entry.since.isNone = true ∧ (v.current entry).getD .ok = .ok
    · rw [if_pos hclear, hclear.2]
      dsimp only [clearNotificationIncident]
      rw [maybeNotify_cleared]
      exact .silent (Option.isNone_iff_eq_none.mp hclear.1) hclear.2
    · rw [if_neg hclear]
      generalize hstatus : (v.current entry).getD .ok = status at *
      generalize maybeNotify v.check status v.detail v.config v.now v.transport l = result at *
      obtain ⟨mail, ledger⟩ := result
      dsimp only at hnotified ⊢
      cases hnotified with
      | quiet hne => exact .quiet (hstatus ▸ hne)
      | resolved h =>
        have hseen : entry.since ≠ none := by simpa using hclear
        have hbefore : .ok ≠ entry.currentStatus.getD .ok := by simpa [hseen] using hchange
        exact .resolved hseen hstatus hbefore.symm h
      | alert h => exact .alert hstatus h
  · rw [if_neg hchange]
    obtain ⟨hsame, hseen⟩ := not_or.mp hchange
    exact .unchanged (by simpa using hseen) (not_not.mp hsame)

@[simp] theorem notify_consecutiveBad (v : Visit) (entry : Entry) :
    (v.notify entry).2.consecutiveBad = some (v.count entry) := by
  simp only [Visit.notify, debounced_eq]
  split_ifs <;> rfl

@[simp] theorem notify_currentStatus (v : Visit) (entry : Entry) :
    (v.notify entry).2.currentStatus = v.current entry := by
  simp only [Visit.notify, debounced_eq]
  split_ifs <;> rfl

@[simp] theorem notify_lastTxResult (v : Visit) (entry : Entry) :
    (v.notify entry).2.lastTxResult = entry.lastTxResult := by
  simp only [Visit.notify, debounced_eq]
  split_ifs <;> rfl

/-- After its first result a check counts as seen. -/
theorem notify_since (v : Visit) (entry : Entry) : (v.notify entry).2.since ≠ none := by
  simp only [Visit.notify, debounced_eq]
  split_ifs with h
  · simp
  · simp
  · simpa using (not_or.mp h).2

end Polls

/-! ## What is seen of a check -/

section Observations

variable (c : ℕ)

/-- The turn of the loop, if the check is probed in it. -/
def poll? (r : Record) : Option Visit :=
  match r.event with
  | .visit v => if v.check.id = c && !v.cached (r.before.entries c) then some v else none
  | _ => none

def raw? (r : Record) : Option Status := (poll? c r).map (·.raw)

/-- The status that a poll reports; a check that the transmitter lacks is not shown. -/
def reported? (r : Record) : Option Status :=
  (poll? c r).bind fun v =>
    if v.hides then none else some (v.debounced (r.before.entries c)).1

/-- The status that is shown again between two readings of the transmitter. -/
def repeated? (r : Record) : Option Status :=
  match r.event with
  | .visit v =>
    if v.check.id = c && v.cached (r.before.entries c) then (r.before.entries c).lastTxResult
    else none
  | _ => none

def mail? (r : Record) : Option Mail := (poll? c r).bind fun v => (v.poll (r.before.entries c)).1

def isRestart (r : Record) : Bool :=
  match r.event with
  | .restart => true
  | _ => false

/-- The transmitter's answer or its configuration takes the check out of sight. -/
def resets (r : Record) : Bool :=
  match r.event with
  | .transmitterType type checks => decide (some type ≠ r.before.lastTxType ∧ c ∈ checks)
  | .clearTransmitterState checks => decide (c ∈ checks)
  | .visit v => decide (v.check.id = c) && !v.cached (r.before.entries c) && v.hides
  | _ => false

/-- A cycle leaves the check out. -/
def leavesOut (r : Record) : Bool :=
  match r.event with
  | .dropInactive active => decide (c ∉ active)
  | _ => false

/-- What the process knows of notifications is in the state file. -/
def Saved : List Record → Prop
  | [] => True
  | r :: _ =>
    match r.event with
    | .writeState => True
    | .restart => True
    | _ => False

end Observations

/-- What an event does to what the manager holds of the check. -/
inductive Turn (c : ℕ) (r : Record) : Entry → Prop
  | idle (hpoll : poll? c r = none) (hrestart : isRestart r = false) (hresets : resets c r = false)
      (hout : leavesOut c r = false) : Turn c r (r.before.entries c)
  | reset (hpoll : poll? c r = none) (hrestart : isRestart r = false) (hresets : resets c r = true)
      (hout : leavesOut c r = false) : Turn c r (r.before.entries c).clearTransmitterState
  | leftOut (hpoll : poll? c r = none) (hrestart : isRestart r = false)
      (hresets : resets c r = false) (hout : leavesOut c r = true) :
      Turn c r { r.before.entries c with
        ledger := { (r.before.entries c).ledger with incident := none } }
  | hidden {v : Visit} (hpoll : poll? c r = some v) (hrestart : isRestart r = false)
      (hresets : resets c r = true) (hhides : v.hides = true) (hmail : mail? c r = none) :
      Turn c r { (r.before.entries c).clearTransmitterState with ledger := {} }
  | polled {v : Visit} {lastTxResult : Option Status} (hpoll : poll? c r = some v)
      (hrestart : isRestart r = false) (hresets : resets c r = false)
      (hout : leavesOut c r = false) (hhides : v.hides = false)
      (hmail : mail? c r = (v.notify (r.before.entries c)).1)
      (hlast : lastTxResult =
        if v.check.isTransmitter then some (v.debounced (r.before.entries c)).1
        else (r.before.entries c).lastTxResult) :
      Turn c r { (v.notify (r.before.entries c)).2 with lastTxResult := lastTxResult }
  | restart (hpoll : poll? c r = none) (hrestart : isRestart r = true) :
      Turn c r { ledger := (r.before.stateFile.map (· c)).getD {} }

theorem turn_visit (c : ℕ) (m : MonitorManager) (v : Visit) :
    Turn c ⟨m, .visit v⟩ ((MonitorManager.step (.visit v) m).entries c) := by
  change Turn c _ (Function.update m.entries v.check.id (v.poll (m.entries v.check.id)).2 c)
  by_cases hid : v.check.id = c
  · subst hid
    rw [Function.update_self]
    by_cases hcached : v.cached (m.entries v.check.id) = true
    · rw [Visit.poll, if_pos hcached]
      exact .idle (by simp [poll?, hcached]) rfl (by simp [resets, hcached]) rfl
    · have hpoll : poll? v.check.id ⟨m, .visit v⟩ = some v := by simp [poll?, hcached]
      by_cases hhides : v.hides = true
      · have hmail : mail? v.check.id ⟨m, .visit v⟩ = none := by
          simp [mail?, hpoll, Visit.poll, hcached, hhides]
        rw [Visit.poll, if_neg hcached, if_pos hhides]
        exact .hidden hpoll rfl (by simp [resets, hcached, hhides]) hhides hmail
      · have hmail : mail? v.check.id ⟨m, .visit v⟩ = (v.notify (m.entries v.check.id)).1 := by
          simp only [mail?, hpoll, Option.bind_some, Visit.poll, if_neg hcached, if_neg hhides]
          split_ifs <;> rfl
        have hturn := Turn.polled hpoll rfl (by simp [resets, hhides]) rfl
          (Bool.eq_false_iff.mpr hhides) hmail rfl
        rw [Visit.poll, if_neg hcached, if_neg hhides]
        split_ifs at hturn ⊢ with htx
        · exact hturn
        · rw [← notify_lastTxResult v] at hturn
          exact hturn
  · rw [Function.update_of_ne (Ne.symm hid)]
    exact .idle (by simp [poll?, hid]) rfl (by simp [resets, hid]) rfl

theorem turn_clearTransmitterState (c : ℕ) {r : Record} {checks : List ℕ}
    (hpoll : poll? c r = none) (hrestart : isRestart r = false) (hout : leavesOut c r = false)
    (hresets : resets c r = decide (c ∈ checks)) :
    Turn c r ((r.before.clearTransmitterState checks).entries c) := by
  unfold MonitorManager.clearTransmitterState
  by_cases hc : c ∈ checks
  · simp only [if_pos hc]
    exact .reset hpoll hrestart (by simpa [hc] using hresets) hout
  · simp only [if_neg hc]
    exact .idle hpoll hrestart (by simpa [hc] using hresets) hout

theorem turn (c : ℕ) (r : Record) :
    Turn c r ((MonitorManager.step r.event r.before).entries c) := by
  obtain ⟨m, e⟩ := r
  cases e with
  | transmitterType type checks =>
    by_cases htype : some type ≠ m.lastTxType
    · rw [MonitorManager.step, if_pos htype]
      exact turn_clearTransmitterState c rfl rfl rfl (by simp [resets, htype])
    · rw [MonitorManager.step, if_neg htype]
      exact .idle rfl rfl (by simp [resets, htype]) rfl
  | clearTransmitterState checks => exact turn_clearTransmitterState c rfl rfl rfl rfl
  | dropInactive active =>
    dsimp only [MonitorManager.step, MonitorManager.dropInactive]
    split_ifs with hc
    · exact .idle rfl rfl rfl (by simp [leavesOut, hc])
    · exact .leftOut rfl rfl rfl (by simp [leavesOut, hc])
  | visit v => exact turn_visit c m v
  | writeState => exact .idle rfl rfl rfl rfl
  | restart => exact .restart rfl rfl

end IsadoraAir.Monitoring
