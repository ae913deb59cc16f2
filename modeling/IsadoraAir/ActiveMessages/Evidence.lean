import IsadoraAir.ActiveMessages.Executions

/-!
# Air evidence and the policy

What the deck's own evidence does to an execution and to the due times of its
messages, and the services that change the policy.
-/

namespace IsadoraAir.ActiveMessages

open Transaction

/-! ## Air evidence -/

/-- A confirmed duration as it is reported: a `Decimal`, in microseconds, or some other value. -/
inductive Confirmed where
  | decimal (micros : ℤ)
  | other
  deriving DecidableEq

def evidenceRefused (message code : String) : ServiceError := ⟨.evidenceRefused, code, message⟩

def attemptMismatch : ServiceError :=
  evidenceRefused "the evidence is not from the execution's current attempt" "attempt_mismatch"

def evidenceOrder : ServiceError :=
  evidenceRefused "the air evidence ends before it started" "evidence_order"

/-- `str(row.attempt_token)` -/
def Execution.attemptText (row : Execution) : String := row.attemptToken.getD "None"

/-- The row has an attempt, and the evidence names another. -/
def Execution.isOtherAttempt (row : Execution) (attemptToken : String) : Bool :=
  row.attemptToken = none ∨ row.attemptText ≠ attemptToken

/-- `ActiveBroadcastExecution.objects...get(pk)` -/
def getExecution (id : Uuid) : Tx Execution := do
  let s ← get
  require (integrityError "execution") (s.executions.find? fun e => e.id = id)

def checkDuration : Option Confirmed → Except ServiceError (Option ℤ)
  | none => .ok none
  | some (.decimal micros) =>
    if micros < 0 then
      .error (evidenceRefused "confirmed duration is a non-negative Decimal" "evidence_duration")
    else .ok (some micros)
  | some .other =>
    .error (evidenceRefused "confirmed duration is a non-negative Decimal" "evidence_duration")

/-- `_check_evidence`: the end and the duration that it lets through. A missing end and a naive one
are refused alike; an execution on air has its start. -/
def checkEvidence (row : Execution) (attemptToken : String) (endedAt : Option Time)
    (duration : Option Confirmed) : Except ServiceError (Time × Option ℤ) :=
  if row.isOtherAttempt attemptToken then .error attemptMismatch
  else match endedAt, row.startedAt with
    | some ended, some started =>
      if ended < started then .error evidenceOrder
      else (checkDuration duration).map fun micros => (ended, micros)
    | none, _ => .error evidenceOrder
    | some _, none => .error (integrityError "execution")

/-- The column has three decimals and nine digits; another value does not read back as planned. -/
def fitsColumn (micros : ℤ) : Bool := micros % 1000 = 0 ∧ micros < 1000000000000

/-- `_lock_for_evidence` -/
def lockForEvidence (execution : Uuid) : Tx (Policy × List Message × Execution) := do
  let policy ← lockPolicy
  let found ← lockExecution execution
  let messages ← lockMessages (Composition.messageIds found.compositionSnapshot)
  let row ← lockExecution execution
  return (policy, messages, row)

/-- What the cadence writes to a message: due again one interval after the anchor. -/
def nextDue (anchor : Time) (interval : ℕ) (completed : Bool) (m : Message) : Message :=
  { m with
    nextDueAt := some (anchor + interval * 1000000)
    lastCompletedAt := if completed then some anchor else m.lastCompletedAt }

/-- One turn of `_apply_cadence`; an active message has its interval. -/
def cadenceRow (w : World) (policy : Policy) (execution : Uuid) (anchor : Time) (completed : Bool)
    (actorKind : ActorKind) (m : Message) : Tx Unit := do
  if m.state ≠ .active then return ()
  else
    let interval ← require (integrityError "message") m.replayIntervalSeconds
    let stored ← writeMessage m.id (fun r => r.state = .active) (nextDue anchor interval completed)
    event { actorEvent (if completed then "aired" else "air_interrupted") actorKind
        policy.generation with
      message := some stored.id
      execution := some execution
      detail := .obj [("next_due_at", isoOf w stored.nextDueAt)] }

/-- `_apply_cadence` -/
def applyCadence (w : World) (policy : Policy) (execution : Uuid) (messages : List Message)
    (anchor : Time) (completed : Bool) (actorKind : ActorKind) : Tx Unit :=
  messages.forM (cadenceRow w policy execution anchor completed actorKind)

def recordAirStarted (w : World) (execution : Uuid) (attemptToken : String)
    (startedAt claimedAt : Option Time) (actorKind : ActorKind) : Tx Execution := do
  let started ← require (evidenceRefused "air start evidence is a timezone-aware time"
    "evidence_order") startedAt
  let policy ← lockPolicy
  let row ← getExecution execution
  refuseIf (row.isOtherAttempt attemptToken) attemptMismatch
  if (row.state = .started ∨ row.state = .completed ∨ row.state = .interrupted) ∧
      row.startedAt.isSome then return row
  else
    refuseIf (row.state ≠ .accepted ∧ row.state ≠ .claimed)
      (transitionError ("a " ++ row.state.value ++ " execution cannot start") "not_engine_held")
    let claimed := (row.claimedAt.or claimedAt).getD started
    let stored ← writeExecution row.id
      (fun e => e.state = row.state ∧ e.attemptToken = row.attemptToken)
      fun e => { e with state := .started, claimedAt := some claimed, startedAt := some started }
    event { actorEvent "air_started" actorKind policy.generation with
      execution := some stored.id
      fromState := ExecutionState.claimed.value
      toState := ExecutionState.started.value
      detail := .obj [("started_at", .str (w.isoformat started))] }
    return stored

/-- What the end of an airing writes to its row. -/
def airEnded (state : ExecutionState) (now ended : Time) (duration : Option ℤ) (e : Execution) :
    Execution :=
  { e with
    state := state
    openSlot := none
    endedAt := some ended
    terminalAt := some now
    confirmedDuration := duration }

/-- The write, the event and the cadence that both ends of an airing make. -/
def endAiring (w : World) (policy : Policy) (messages : List Message) (row : Execution)
    (state : ExecutionState) (ended : Time) (duration : Option ℤ) (name : String) (detail : Json)
    (actorKind : ActorKind) : Tx Execution := do
  refuseIf (duration.any fun micros => fitsColumn micros = false) (integrityError "execution")
  let stored ← writeExecution row.id
    (fun e => e.state = .started ∧ e.attemptToken = row.attemptToken)
    (airEnded state w.now ended duration)
  event { actorEvent name actorKind policy.generation with
    execution := some stored.id
    fromState := ExecutionState.started.value
    toState := state.value
    detail := detail }
  applyCadence w policy stored.id messages ended (state = .completed) actorKind
  return stored

def recordAirCompleted (w : World) (execution : Uuid) (attemptToken : String)
    (endedAt : Option Time) (duration : Option Confirmed) (actorKind : ActorKind) :
    Tx Execution := do
  let (policy, messages, row) ← lockForEvidence execution
  if row.state = .completed ∧ row.attemptText = attemptToken then return row
  else
    refuseIf (row.state ≠ .started)
      (transitionError ("a " ++ row.state.value ++ " execution cannot complete") "not_on_air")
    let (ended, micros) ← raised (checkEvidence row attemptToken endedAt duration)
    let micros ← require (evidenceRefused "completion needs the confirmed duration"
      "evidence_duration") micros
    endAiring w policy messages row .completed ended (some micros) "air_completed"
      (.obj [("ended_at", .str (w.isoformat ended)),
        ("confirmed_duration_seconds", .str (decimalText micros))]) actorKind

def recordAirInterrupted (w : World) (execution : Uuid) (attemptToken : String)
    (lastEvidenceAt : Option Time) (duration : Option Confirmed) (actorKind : ActorKind) :
    Tx Execution := do
  let (policy, messages, row) ← lockForEvidence execution
  if row.state = .interrupted ∧ row.attemptText = attemptToken then return row
  else
    refuseIf (row.state ≠ .started)
      (transitionError ("a " ++ row.state.value ++ " execution cannot be interrupted") "not_on_air")
    let (ended, micros) ← raised (checkEvidence row attemptToken lastEvidenceAt duration)
    endAiring w policy messages row .interrupted ended micros "air_interrupted"
      (.obj [("last_evidence_at", .str (w.isoformat ended))]) actorKind

def recordRenderRetry (execution : Uuid) (code : String) (actorKind : ActorKind) : Tx Bool := do
  let policy ← lockPolicy
  let row ← lockExecution execution
  if row.state ≠ .pendingRender then return false
  else
    event { actorEvent "render_retry" actorKind policy.generation with
      execution := some row.id
      detail := .obj [("code", .str (String.ofList (code.toList.take 64)))] }
    return true

/-! ## The policy -/

def replayIntervalMinSeconds : ℤ := 60

def replayIntervalMaxSeconds : ℤ := 86400

def setDefaultReplayInterval (w : World) (seconds : ℤ) (actor : Option User) : Tx Policy := do
  let user ← requireCapability w actor .control
  refuseIf (¬(replayIntervalMinSeconds ≤ seconds ∧ seconds ≤ replayIntervalMaxSeconds))
    (invalidRequest ("the interval is " ++ toString replayIntervalMinSeconds ++ ".." ++
      toString replayIntervalMaxSeconds ++ " seconds") "invalid_request")
  let policy ← lockPolicy
  if (policy.defaultReplayIntervalSeconds : ℤ) = seconds then return policy
  else
    let stored ← writePolicy policy.generation
      fun p => { p with defaultReplayIntervalSeconds := seconds.toNat }
    event { userEvent "policy_replay_interval" user stored.generation with
      detail := .obj [("seconds", .int seconds),
        ("previous", .int policy.defaultReplayIntervalSeconds)] }
    return stored

/-- `validate_stinger_key` -/
def validateStingerKey (w : World) (key : String) : Except ServiceError Unit :=
  let unavailable := (usableStinger w key).unavailable
  if key = "" ∨ unavailable = "" then .ok ()
  else .error (invalidRequest ("the stinger ReferenceAudio key is not usable (" ++ unavailable ++
    ")") unavailable)

/-- A new generation with the policy changed, and whatever still waits suppressed. -/
def renewPolicy (w : World) (policy : Policy) (user : User) (change : Policy → Policy)
    (name : String) (detail : Json) : Tx Policy := do
  let policy ← bump policy
  let policy ← writePolicy policy.generation change
  event { userEvent name user policy.generation with detail := detail }
  suppressStale policy w.now fun name => userEvent name user
  return policy

def setStingerKey (w : World) (key : String) (actor : Option User) : Tx Policy := do
  let user ← requireCapability w actor .control
  raised (validateStingerKey w key)
  let policy ← lockPolicy
  if policy.stingerKey = key then return policy
  else
    renewPolicy w policy user (fun p => { p with stingerKey := key }) "policy_stinger"
      (.obj [("stinger_key", .str key), ("previous", .str policy.stingerKey)])

/-- The three limits, each as it is or as it is asked for. -/
structure Limits (α : Type) where
  maxActiveMessages : α
  maxMessageSeconds : α
  maxAggregateSeconds : α

namespace Limits

variable {α β γ : Type}

/-- The limits under their names, in the order of `requested`. -/
def items (l : Limits α) : List (String × α) :=
  [("max_active_messages", l.maxActiveMessages), ("max_message_seconds", l.maxMessageSeconds),
    ("max_aggregate_seconds", l.maxAggregateSeconds)]

def zip (f : α → β → γ) (l : Limits α) (l' : Limits β) : Limits γ :=
  ⟨f l.maxActiveMessages l'.maxActiveMessages, f l.maxMessageSeconds l'.maxMessageSeconds,
    f l.maxAggregateSeconds l'.maxAggregateSeconds⟩

/-- `LIMIT_CEILINGS` -/
def ceilings : Limits ℤ := ⟨Composition.absoluteMaxActiveMessages, 600, 1200⟩

def ofPolicy (p : Policy) : Limits ℤ :=
  ⟨p.maxActiveMessages, p.maxMessageSeconds, p.maxAggregateSeconds⟩

/-- The first limit that is asked for out of its range. -/
def outOfRange (requested : Limits (Option ℤ)) : Option (String × ℤ) :=
  ((requested.zip (fun value ceiling => (value, ceiling)) ceilings).items.find? fun item =>
    item.2.1.any fun value => ¬(1 ≤ value ∧ value ≤ item.2.2)).map fun item => (item.1, item.2.2)

end Limits

def setLimits (w : World) (requested : Limits (Option ℤ)) (actor : Option User) : Tx Policy := do
  let user ← requireCapability w actor .control
  match requested.outOfRange with
  | some (name, ceiling) =>
    throw (invalidRequest (name ++ " is a whole number from 1 to " ++ toString ceiling)
      "limit_out_of_range")
  | none =>
    let policy ← lockPolicy
    let current := Limits.ofPolicy policy
    let merged : Limits ℤ := requested.zip (fun value old => value.getD old) current
    refuseIf (merged.maxAggregateSeconds < merged.maxMessageSeconds)
      (invalidRequest "the per-message limit cannot exceed the aggregate limit"
        "message_exceeds_aggregate")
    let changed := (merged.zip (fun value old => (value, old)) current).items.filter fun item =>
      item.2.1 ≠ item.2.2
    if changed = [] then return policy
    else
      renewPolicy w policy user
        (fun p => { p with
          maxActiveMessages := merged.maxActiveMessages.toNat
          maxMessageSeconds := merged.maxMessageSeconds.toNat
          maxAggregateSeconds := merged.maxAggregateSeconds.toNat }) "policy_limits"
        (.obj [("previous", .obj (changed.map fun item => (item.1, .int item.2.2))),
          ("limits", .obj (changed.map fun item => (item.1, .int item.2.1)))])

/-- `available` is `NATIVE_AIRING_AVAILABLE`, which the source has switched off. -/
def setNativeAiring (w : World) (available enabled : Bool) (actor : Option User) :
    Tx Policy := do
  let user ← requireCapability w actor .control
  refuseIf (enabled ∧ available = false) ⟨.nativeAiringUnavailable, "native_airing_unavailable",
    "native airing is not available in this release; OGRemote stays authoritative"⟩
  let policy ← lockPolicy
  if policy.nativeAiringEnabled = enabled then return policy
  else
    renewPolicy w policy user (fun p => { p with nativeAiringEnabled := enabled })
      "policy_native_airing" (.obj [("enabled", .bool enabled)])

end IsadoraAir.ActiveMessages
