import IsadoraAir.Foundation.Runs
import IsadoraAir.Rbds.Payload

/-!
# The send gate

One tick of the manager: a full payload goes out when something has changed,
when the last one is old, or while the connection is down. What was sent is
committed when the transmission succeeds. The repeats for RT+ and the clock
follow on the same connection.
-/

namespace IsadoraAir.Rbds

/-! ## State and input -/

/-- The fields of `RBDSManager` that a tick goes by. -/
structure Manager where
  lastSentPs : Option Text
  lastSentRt : Option Text
  lastSentLanguageCode : Option ℤ
  lastSentLongPsEnabled : Option Bool
  lastLongPsSource : Option Text
  lastSentLongPs : Option Text
  lastFullResend : ℚ
  lastRtPlusResend : ℚ
  connected : Bool
  connectedSince : Option ℚ
  lastSendCtState : Option Bool
  lastCtSyncedConnectedSince : Option ℚ
  lastCtSentMinute : Option ℕ

def Manager.new : Manager where
  lastSentPs := none
  lastSentRt := none
  lastSentLanguageCode := none
  lastSentLongPsEnabled := none
  lastLongPsSource := none
  lastSentLongPs := none
  lastFullResend := 0
  lastRtPlusResend := 0
  connected := false
  connectedSince := none
  lastSendCtState := none
  lastCtSyncedConnectedSince := none
  lastCtSentMinute := none

/-- What a tick reads, and which of its transmissions fail. -/
structure Tick where
  config : Config
  shown : Shown
  /-- `long_ps_text`, as `_resolve_long_ps` gives it. -/
  longPsText : Text
  /-- The readings of `time.time()`, in order. -/
  clock : ℕ → ℚ
  utc : UtcTime
  offsetMinutes : ℤ
  sendFails : Bool
  resendFails : Bool
  ctStateFails : Bool
  ctFails : Bool

inductive Payload where
  | uecp (elements : List Element)
  | ascii (commands : List Text)

def Payload.elements : Payload → List Element
  | .uecp elements => elements
  | .ascii _ => []

/-- An attempt to send a full payload. -/
structure FullSend where
  payload : Except PyError Payload
  ok : Bool

/-- What a tick has put on the wire, or tried to. -/
structure Record where
  tick : Tick
  full : Option FullSend
  others : List Element

/-! ## The full payload -/

def fullResendSeconds : ℚ := 30
def rtPlusResendSeconds : ℚ := 2

/-- `long_ps_text if long_ps_enabled else None` -/
def Tick.longPsContent (t : Tick) : Option Text :=
  if t.config.longPsManaged = true ∧ t.config.longPsEnabled = true then some t.longPsText else none

namespace Manager

variable (m : Manager) (t : Tick)

/-- While Long PS is unmanaged, what was sent of it is forgotten. -/
def resolved : Manager :=
  if t.config.longPsManaged = true then m
  else { m with lastSentLongPsEnabled := none, lastLongPsSource := none, lastSentLongPs := none }

def longPsChanged : Bool :=
  t.config.longPsManaged = true ∧
    (m.lastSentLongPsEnabled = none ∨ m.lastSentLongPsEnabled ≠ some t.config.longPsEnabled ∨
      t.config.longPsEnabled = true ∧
        (m.lastSentLongPs ≠ some t.longPsText ∨ m.lastLongPsSource ≠ some t.config.longPsSource))

def rtChanged : Bool := m.lastSentRt ≠ some t.shown.rt.text

def changed : Bool :=
  m.lastSentPs ≠ some t.shown.ps ∨ m.rtChanged t = true ∨
    m.lastSentLanguageCode ≠ t.config.languageCode ∨ m.longPsChanged t = true

def dueForFullResend : Bool := fullResendSeconds ≤ t.clock 0 - m.lastFullResend

def gateOpens : Bool := m.changed t = true ∨ m.dueForFullResend t = true ∨ m.connected = false

/-- The payload that `_send` builds. -/
def buildPayload (nfc : Text → Text) : Except PyError Payload :=
  match t.config.protocol with
  | .uecp => do
      return .uecp (← buildUecpPayload nfc t.config t.shown m.lastSentLanguageCode (m.rtChanged t)
        t.config.longPsManaged t.longPsContent)
  | .ascii => return .ascii (buildAsciiCommands t.config t.shown)

/-- `_send` -/
def send (nfc : Text → Text) : FullSend :=
  match m.buildPayload t nfc with
  | .ok payload => ⟨.ok payload, !t.sendFails⟩
  | .error error => ⟨.error error, false⟩

def markUp : Manager :=
  if m.connected = true then m
  else { m with connected := true, connectedSince := some (t.clock 1) }

def markDown : Manager := { m with connected := false }

/-- What is committed when the payload has been sent. -/
def commit : Manager :=
  { m with
    lastSentPs := some t.shown.ps
    lastSentRt := some t.shown.rt.text
    lastSentLanguageCode := t.config.languageCode
    lastFullResend := t.clock 2
    lastSentLongPsEnabled :=
      if t.config.longPsManaged = true then some t.config.longPsEnabled
      else m.lastSentLongPsEnabled
    lastLongPsSource :=
      if t.config.longPsManaged = true then some t.config.longPsSource else m.lastLongPsSource
    lastSentLongPs := if t.config.longPsManaged = true then t.longPsContent else m.lastSentLongPs
    lastRtPlusResend := t.clock 3 }

/-- The full payload of a tick, if the gate opens, and the state after it. -/
def sendFull (nfc : Text → Text) : Manager × Option FullSend :=
  if m.gateOpens t = true then
    let full := m.send t nfc
    if full.ok = true then ((m.markUp t).commit t, some full) else (m.markDown, some full)
  else (m, none)

/-! ## Repeats and clock -/

/-- The resend of the RT+ elements. -/
def resendRtPlus : Manager × List Element :=
  if t.config.useRtPlus = true ∧ t.config.protocol = .uecp ∧ m.connected = true ∧
      rtPlusResendSeconds ≤ t.clock 4 - m.lastRtPlusResend then
    match rtPlusOnly t.shown.rt with
    | .error _ => (m, [])
    | .ok elements =>
      if elements ≠ [] ∧ t.resendFails = true then (m, elements)
      else ({ m with lastRtPlusResend := t.clock 5 }, elements)
  else (m, [])

/-- CT On/Off; `due` is whether a full resend was due in this tick. -/
def sendCtState (due : Bool) : Manager × List Element :=
  if t.config.protocol = .uecp ∧
      (m.lastSendCtState = none ∨ m.lastSendCtState ≠ some t.config.sendCt ∨ due = true ∨
        m.connected = true ∧ m.connectedSince ≠ m.lastCtSyncedConnectedSince) then
    if t.ctStateFails = true then (m, [mecCtOnOff t.config.sendCt])
    else ({ m with
        lastSendCtState := some t.config.sendCt
        lastCtSyncedConnectedSince := m.connectedSince }, [mecCtOnOff t.config.sendCt])
  else (m, [])

/-- The clock, once a minute. -/
def sendCt : Manager × List Element :=
  if t.config.protocol = .uecp ∧ t.config.sendCt = true ∧
      m.lastCtSentMinute ≠ some t.utc.minute then
    match mecCt t.utc t.offsetMinutes with
    | .error _ => (m, [])
    | .ok element =>
      if t.ctFails = true then (m, [element])
      else ({ m with lastCtSentMinute := some t.utc.minute }, [element])
  else (m, [])

/-- `_tick` -/
def tick (nfc : Text → Text) : Manager × Record :=
  let m := m.resolved t
  let (afterFull, full) := m.sendFull t nfc
  let (afterResend, resent) := afterFull.resendRtPlus t
  let (afterCtState, ctState) := afterResend.sendCtState t (m.dueForFullResend t)
  let (afterCt, ct) := afterCtState.sendCt t
  (afterCt, ⟨t, full, resent ++ ctState ++ ct⟩)

end Manager

/-! ## Runs -/

/-- The manager and what it has sent so far. -/
structure World where
  manager : Manager
  history : List Record

def World.new : World := ⟨.new, []⟩

def World.step (nfc : Text → Text) (t : Tick) (w : World) : World :=
  let (manager, record) := w.manager.tick t nfc
  ⟨manager, w.history ++ [record]⟩

end IsadoraAir.Rbds
