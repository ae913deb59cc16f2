import Mathlib.Algebra.Order.Ring.Rat
import IsadoraAir.Foundation.Runs

/-!
# The monitoring loop

Each cycle polls the enabled checks, debounces what a probe says and mails alerts and recoveries.
What the manager's dictionaries hold under a check's id is one record here; the cooldown and the
incident of it go to the state file, which a new process starts from. The events are finer than
the cycle: a process may die between any two of them.
-/

namespace IsadoraAir.Monitoring

open PastTime

/-- What a probe says of a check. -/
inductive Status
  | ok | warning | critical | unknown | unsupported
deriving DecidableEq, Repr

/-- The statuses that an alert is mailed for. -/
inductive Severity
  | warning | critical
deriving DecidableEq, Repr

namespace Severity

def status : Severity → Status
  | .warning => .warning
  | .critical => .critical

def rank : Severity → ℕ
  | .warning => 1
  | .critical => 2

end Severity

namespace Status

def severity? : Status → Option Severity
  | .warning => some .warning
  | .critical => some .critical
  | _ => none

def upper : Status → String
  | .ok => "OK"
  | .warning => "WARNING"
  | .critical => "CRITICAL"
  | .unknown => "UNKNOWN"
  | .unsupported => "UNSUPPORTED"

def isBad (s : Status) : Prop := s = .critical ∨ s = .warning

instance (s : Status) : Decidable s.isBad := inferInstanceAs (Decidable (_ ∨ _))

end Status

inductive Kind
  | systemd | disk | cpu | memory | temperature | transmitterParam | transmitterIndicator
  | audioSilence | encoderGroup | rbds | weather | backup
deriving DecidableEq, Repr

namespace Kind

def display : Kind → String
  | .systemd => "Systemd Service"
  | .disk => "Disk Usage"
  | .cpu => "CPU Usage"
  | .memory => "Memory Usage"
  | .temperature => "Temperature"
  | .transmitterParam => "Transmitter Parameter"
  | .transmitterIndicator => "Transmitter Status Indicator"
  | .audioSilence => "Audio Silence (Liquidsoap)"
  | .encoderGroup => "Encoder Stream Health"
  | .rbds => "RBDS Connection"
  | .weather => "Weather Health"
  | .backup => "Backup Recovery Assurance"

end Kind

def transmitterKinds : List Kind := [.transmitterParam, .transmitterIndicator]

structure MonitorCheck where
  id : ℕ
  name : String
  kind : Kind := .systemd
  transmitterParameter : String := ""
  transmitterIndicator : String := ""
  consecutiveFailuresRequired : ℕ := 2
  notifyOnWarning : Bool := true
  notifyOnCritical : Bool := true

namespace MonitorCheck

def isTransmitter (check : MonitorCheck) : Bool := decide (check.kind ∈ transmitterKinds)

def notifies (check : MonitorCheck) : Severity → Bool
  | .warning => check.notifyOnWarning
  | .critical => check.notifyOnCritical

/-- `check.transmitter_parameter or check.transmitter_indicator`. -/
def reference (check : MonitorCheck) : String :=
  if check.transmitterParameter = "" then check.transmitterIndicator else check.transmitterParameter

end MonitorCheck

structure NotificationConfig where
  enabled : Bool := true
  recipientList : List String
  cooldownMinutes : ℕ := 30

/-- How an attempted delivery ended. -/
inductive Outcome
  | sent | failed
deriving DecidableEq, Repr

/-- The evidence that an alert of an unresolved incident was attempted. -/
structure Incident where
  attemptedSeverity : Severity
  attemptedAt : ℚ
  deliveryOutcome : Outcome
deriving DecidableEq

/-- What the state file keeps of a check. -/
structure Ledger where
  cooldown : Option ℚ := none
  incident : Option Incident := none
deriving DecidableEq

/-- What the manager holds under the id of a check. -/
structure Entry where
  consecutiveBad : Option ℕ := none
  since : Option ℚ := none
  currentStatus : Option Status := none
  lastTxResult : Option Status := none
  ledger : Ledger := {}
deriving DecidableEq

/-- A mail that was handed to the transport, with the status it was written for. -/
structure Mail where
  subject : String
  body : String
  status : Status
  attemptedAt : ℚ
  outcome : Outcome
deriving DecidableEq

/-! ## Notifications -/

def clearNotificationIncident (_ledger : Ledger) : Ledger := ⟨none, none⟩

def reconcileNotificationPreferences (check : MonitorCheck) (notificationsEnabled : Bool)
    (ledger : Ledger) : Ledger :=
  match ledger.incident with
  | none => ledger
  | some incident =>
    if !notificationsEnabled || !check.notifies incident.attemptedSeverity then
      { ledger with incident := none }
    else ledger

/-- The values of the detail are given as they print. -/
def formatBody (check : MonitorCheck) (status : Status) (detail : List (String × String)) :
    String :=
  "\n".intercalate <|
    ["Check: " ++ check.name, "Kind: " ++ check.kind.display, "Status: " ++ status.upper, ""] ++
      detail.map fun (key, value) => key ++ ": " ++ value

def subject (check : MonitorCheck) (status : Status) : String :=
  "[IsadoraAir] " ++ check.name ++ ": " ++ if status = .ok then "RECOVERED" else status.upper

/-- Nothing is attempted where nobody is to receive it. -/
def send (config : NotificationConfig) (transport : Outcome) : Option Outcome :=
  if config.recipientList = [] then none else some transport

/-- An attempt takes the place of an incident that is not graver. -/
def recordAttempt (ledger : Ledger) (severity : Severity) (now : ℚ) (outcome : Outcome) :
    Ledger where
  cooldown := some now
  incident :=
    match ledger.incident with
    | none => some ⟨severity, now, outcome⟩
    | some existing =>
      if existing.attemptedSeverity.rank ≤ severity.rank then some ⟨severity, now, outcome⟩
      else some existing

def maybeNotify (check : MonitorCheck) (status : Status) (detail : List (String × String))
    (config : NotificationConfig) (now : ℚ) (transport : Outcome) (ledger : Ledger) :
    Option Mail × Ledger :=
  let mail := Mail.mk (subject check status) (formatBody check status detail) status now
  let ledger := reconcileNotificationPreferences check config.enabled ledger
  if status = .ok then
    if ledger.incident.isSome && config.enabled then
      ((send config transport).map mail, clearNotificationIncident ledger)
    else (none, clearNotificationIncident ledger)
  else match status.severity? with
    | none => (none, ledger)
    | some severity =>
      if !config.enabled then (none, ledger)
      else if !check.notifies severity then (none, ledger)
      else if now - ledger.cooldown.getD 0 < config.cooldownMinutes * 60 then (none, ledger)
      else match send config transport with
        | none => (none, ledger)
        | some outcome => (some (mail outcome), recordAttempt ledger severity now outcome)

/-! ## One check of a cycle -/

/-- What one turn of the loop over the checks reads: the check and the configuration as they are
saved at that time, the raw result of the probe (an exception counts as `unknown`), and the clock
at each of its two readings. -/
structure Visit where
  check : MonitorCheck
  config : NotificationConfig
  txDue : Bool := true
  raw : Status
  detail : List (String × String) := []
  changedAt : ℚ
  now : ℚ
  transport : Outcome := .sent

namespace Entry

/-- The reported status; a bad result that came too few times leaves the last stable status. -/
def debounce (required : ℕ) (raw : Status) (entry : Entry) : Status × Entry :=
  let count := if raw.isBad then entry.consecutiveBad.getD 0 + 1 else 0
  let entry := { entry with consecutiveBad := some count }
  if raw.isBad ∧ count < required then (entry.currentStatus.getD .ok, entry)
  else (raw, { entry with currentStatus := some raw })

def clearTransmitterState (entry : Entry) : Entry :=
  { entry with lastTxResult := none, consecutiveBad := none, since := none, currentStatus := none }

end Entry

namespace Visit

/-- A transmitter check between two readings of the transmitter repeats its last result. -/
def cached (v : Visit) (entry : Entry) : Bool :=
  v.check.isTransmitter && !v.txDue && entry.lastTxResult.isSome

/-- The transmitter says that it does not have what is checked. -/
def hides (v : Visit) : Bool := v.check.isTransmitter && decide (v.raw = .unsupported)

def debounced (v : Visit) (entry : Entry) : Status × Entry :=
  entry.debounce v.check.consecutiveFailuresRequired v.raw

/-- The notifications of a poll: a change of status, or the first result the process sees. -/
def notify (v : Visit) (entry : Entry) : Option Mail × Entry :=
  let prevStatus := entry.currentStatus.getD .ok
  let (status, entry) := v.debounced entry
  let firstObservation := entry.since.isNone
  let ledger := reconcileNotificationPreferences v.check v.config.enabled entry.ledger
  if status ≠ prevStatus ∨ firstObservation then
    let ledger :=
      if firstObservation ∧ status = .ok then clearNotificationIncident ledger else ledger
    let (mail, ledger) := maybeNotify v.check status v.detail v.config v.now v.transport ledger
    (mail, { entry with since := some v.changedAt, ledger := ledger })
  else (none, { entry with ledger := ledger })

def poll (v : Visit) (entry : Entry) : Option Mail × Entry :=
  if v.cached entry then (none, entry)
  else if v.hides then
    (none, { entry.clearTransmitterState with
      ledger := clearNotificationIncident entry.ledger })
  else
    let (mail, next) := v.notify entry
    if v.check.isTransmitter then
      (mail, { next with lastTxResult := some (v.debounced entry).1 })
    else (mail, next)

end Visit

/-! ## The manager -/

structure MonitorManager where
  entries : ℕ → Entry := fun _ => {}
  lastTxType : Option String := none
  stateFile : Option (ℕ → Ledger) := none

inductive Event
  /-- The transmitter type is read; a new one forgets what the checks of the old one said. -/
  | transmitterType (type : String) (checks : List ℕ)
  | clearTransmitterState (checks : List ℕ)
  /-- The incidents of checks that this cycle does not poll are dropped. -/
  | dropInactive (active : List ℕ)
  | visit (v : Visit)
  | writeState
  /-- The process ends, and a new one loads the state file. -/
  | restart

namespace MonitorManager

def clearTransmitterState (checks : List ℕ) (m : MonitorManager) : MonitorManager :=
  { m with
    entries := fun c => if c ∈ checks then (m.entries c).clearTransmitterState else m.entries c }

def dropInactive (active : List ℕ) (m : MonitorManager) : MonitorManager :=
  { m with
    entries := fun c =>
      if c ∈ active then m.entries c
      else { m.entries c with ledger := { (m.entries c).ledger with incident := none } } }

def writeState (m : MonitorManager) : MonitorManager :=
  { m with stateFile := some fun c => (m.entries c).ledger }

def restart (m : MonitorManager) : MonitorManager :=
  { entries := fun c => { ledger := (m.stateFile.map (· c)).getD {} }, stateFile := m.stateFile }

def step : Event → MonitorManager → MonitorManager
  | .transmitterType type checks, m =>
    if some type ≠ m.lastTxType then
      { m.clearTransmitterState checks with lastTxType := some type }
    else m
  | .clearTransmitterState checks, m => m.clearTransmitterState checks
  | .dropInactive active, m => m.dropInactive active
  | .visit v, m =>
    { m with entries := Function.update m.entries v.check.id (v.poll (m.entries v.check.id)).2 }
  | .writeState, m => m.writeState
  | .restart, m => m.restart

end MonitorManager

/-! ## A cycle -/

/-- What becomes of the transmitter driver at the start of a cycle. -/
inductive Driver
  | unresolved
  | absent
  | present (supports : String → Bool)

/-- What a cycle reads from outside. -/
structure Cycle where
  checks : List MonitorCheck
  transmitterType : String
  driver : Driver
  config : NotificationConfig
  reading : MonitorCheck → Visit

namespace Cycle

def txChecks (cycle : Cycle) : List MonitorCheck := cycle.checks.filter (·.isTransmitter)

/-- The transmitter checks that the driver takes out of the cycle. -/
def withdrawn (cycle : Cycle) : List MonitorCheck :=
  match cycle.driver with
  | .unresolved => []
  | .absent => cycle.txChecks
  | .present supports => cycle.txChecks.filter fun check => !supports check.reference

def polled (cycle : Cycle) : List MonitorCheck :=
  cycle.checks.filter fun check => check.id ∉ cycle.withdrawn.map (·.id)

/-- The events of `_run_cycle`, in their order. -/
def events (cycle : Cycle) : List Event :=
  [.transmitterType cycle.transmitterType (cycle.txChecks.map (·.id)),
    .clearTransmitterState (cycle.withdrawn.map (·.id)),
    .dropInactive (cycle.polled.map (·.id))] ++
  cycle.polled.map (fun check =>
    .visit { cycle.reading check with check := check, config := cycle.config }) ++
  [.writeState]

end Cycle

/-- The life of the service by whole cycles. -/
inductive Period
  | cycle (inputs : Cycle)
  | restart

def Period.events : Period → List Event
  | .cycle inputs => inputs.events
  | .restart => [.restart]

/-- The run of a fresh manager without a state file. -/
abbrev watched (events : List Event) : MonitorManager × List (Moment MonitorManager Event) :=
  watch MonitorManager.step {} events

end IsadoraAir.Monitoring
