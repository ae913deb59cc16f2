import IsadoraAir.ActiveMessages.Composition

/-!
# The services of the active-message domain

Each call is one transaction under the policy lock, or under the message's own.
A call raises inside its transaction, and everything is rolled back, or after
it, as the result of a transaction that has committed.
-/

namespace IsadoraAir.ActiveMessages

open Transaction

def detailLimitBytes : ℕ := 4096

def titleLimit : ℕ := 200

def reasonLimit : ℕ := 500

def failureDetailLimit : ℕ := 200

def invalidRequest (message : String) (code : String) : ServiceError :=
  ⟨.invalidRequest, code, message⟩

def integrityError (label : String) : ServiceError := ⟨.integrity, "", label ++ " no longer matches"⟩

/-! ## Rows -/

/-- `UPDATE ... WHERE pk AND match`; exactly one row, or the change is refused. -/
def updateRow {α : Type} (pk : α → Uuid) (id : Uuid) (matching : α → Bool) (change : α → α)
    (rows : List α) : Option (α × List α) :=
  (rows.find? fun row => pk row = id ∧ matching row).map fun row =>
    (change row, rows.map fun row => if pk row = id then change row else row)

def insertMessage (row : Message) : Tx Message := do
  let s ← get
  refuseIf (row.id ∈ s.messages.map Message.id) (integrityError "message")
  set { s with messages := s.messages ++ [row] }
  return row

def writeMessage (id : Uuid) (matching : Message → Bool) (change : Message → Message) :
    Tx Message := do
  let s ← get
  let updated ← require (integrityError "message")
    (updateRow Message.id id matching change s.messages)
  set { s with messages := updated.2 }
  return updated.1

def insertExecution (row : Execution) : Tx Execution := do
  let s ← get
  refuseIf (row.id ∈ s.executions.map Execution.id) (integrityError "execution")
  set { s with executions := s.executions ++ [row] }
  return row

def writeExecution (id : Uuid) (matching : Execution → Bool) (change : Execution → Execution) :
    Tx Execution := do
  let s ← get
  let updated ← require (integrityError "execution")
    (updateRow Execution.id id matching change s.executions)
  set { s with executions := updated.2 }
  return updated.1

def writePolicy (generation : ℕ) (change : Policy → Policy) : Tx Policy := do
  let s ← get
  refuseIf (s.policy.generation ≠ generation) (integrityError "policy")
  set { s with policy := change s.policy }
  return change s.policy

/-- `_event` -/
def event (e : Event) : Tx Unit := do
  refuseIf (detailLimitBytes < (canonicalJson e.detail).utf8ByteSize)
    (invalidRequest "event detail exceeds its bound" "invalid_request")
  modify fun s => { s with events := s.events ++ [e] }

/-- An event of a change that the user makes. -/
def userEvent (name : String) (user : User) (generation : ℕ) : Event where
  message := none
  execution := none
  event := name
  fromState := ""
  toState := ""
  actorKind := .user
  actor := some user.pk
  actorUsername := user.username
  generation := generation
  requestToken := none
  detail := .obj []

/-- An event without a user. -/
def actorEvent (name : String) (actorKind : ActorKind) (generation : ℕ) : Event where
  message := none
  execution := none
  event := name
  fromState := ""
  toState := ""
  actorKind := actorKind
  actor := none
  actorUsername := ""
  generation := generation
  requestToken := none
  detail := .obj []

def Event.about (e : Event) (m : Message) (fromState : MessageState) (detail : Json) : Event :=
  { e with message := some m.id, fromState := fromState.value, toState := m.state.value,
           detail := detail }

def lockPolicy : Tx Policy := return (← get).policy

def lockMessage (id : Uuid) : Tx Message := do
  let s ← get
  require (invalidRequest "no such active message" "unknown_message")
    (s.messages.find? fun m => m.id = id)

def lockExecution (id : Uuid) : Tx Execution := do
  let s ← get
  require (invalidRequest "no such execution" "unknown_execution")
    (s.executions.find? fun e => e.id = id)

/-- The rows of several messages in UUID order. -/
def lockMessages (ids : List Uuid) : Tx (List Message) := do
  let s ← get
  return (s.messages.filter fun m => m.id ∈ ids).mergeSort fun a b => a.id ≤ b.id

/-- The later of two rows, by the time of creation and then the id. -/
def later (a b : Execution) : Execution :=
  if a.createdAt < b.createdAt ∨ a.createdAt = b.createdAt ∧ a.id ≤ b.id then b else a

/-- `order_by("-created_at", "-id").first()` -/
def newest : List Execution → Option Execution
  | [] => none
  | e :: rows => some (rows.foldl later e)

def openExecution : Tx (Option Execution) := do
  let s ← get
  return newest (s.executions.filter fun e => e.state.isUnfinished)

def activeMessages : Tx (List Message) := do
  let s ← get
  return s.messages.filter fun m => m.state = .active

/-- `_current_active_id` -/
def currentActiveId (s : Store) (producerKey : String) (contentType : ℕ) (exclude : Uuid) :
    Option Uuid :=
  (s.messages.find? fun m => m.state = .active ∧ m.producerKey = producerKey ∧
    m.contentType = contentType ∧ m.id ≠ exclude).map Message.id

/-- `_prior_request` -/
def priorRequest (s : Store) (token : Uuid) : Option Event :=
  s.events.find? fun e => e.requestToken = some token

def isoOf (w : World) (t : Option Time) : Json := Json.optional (fun t => .str (w.isoformat t)) t

/-! ## Permissions -/

def can (w : World) (user : User) (c : Capability) : Bool := (w.authorize user c).isNone

def refusePermission (message code : String) : ServiceError := ⟨.notPermitted, code, message⟩

/-- An authenticated user with the capability. -/
def requireCapability (w : World) (user : Option User) (c : Capability) : Tx User := do
  let u ← require (refusePermission "this action needs an authenticated user" "unauthenticated") user
  match w.authorize u c with
  | none => return u
  | some (reason, code) => throw (refusePermission reason code)

/-- `if not can(actor, CONTROL): _require(actor, PRODUCE)` -/
def requireProducer (w : World) (user : Option User) : Tx User :=
  match user with
  | some u => if can w u .control then return u else requireCapability w user .produce
  | none => requireCapability w user .produce

def producerKeyOf (user : User) : String := "user:" ++ toString user.pk

def refuseType (message code : String) : ServiceError := ⟨.contentTypeRefused, code, message⟩

/-- `_content_type` -/
def contentTypeOf (w : World) (value : TypeRef) : Except ServiceError ContentType :=
  match w.resolve value with
  | none => .error (refuseType "no such produced content type" "unknown_content_type")
  | some t =>
    if t.deliveryMode.kind? = none then
      .error (refuseType (t.key ++ " is a " ++ t.deliveryMode.display ++
        " type, not an urgent or public-address type") "not_an_active_message_type")
    else if t.enabled = false then
      .error (refuseType (t.key ++ " is disabled") "content_type_disabled")
    else .ok t

/-- `_message_type` -/
def messageType (w : World) (row : Message) : Except ServiceError ContentType := do
  let t ← contentTypeOf w (.pk row.contentType)
  if t.deliveryMode.kind? ≠ some row.kind then
    .error (refuseType (t.key ++ " is no longer a " ++ row.kind.value ++ " type")
      "content_type_mode_changed")
  else .ok t

def requireAssignment (w : World) (actor : User) (t : ContentType) : Except ServiceError Unit :=
  if can w actor .control ∨ w.isAssigned actor t.pk then .ok ()
  else .error (refusePermission ("you are not assigned to " ++ t.key) "not_assigned")

/-- `_aware_future` -/
def awareFuture (value : Option Time) (now : Time) (label : String) : Except ServiceError Unit :=
  match value with
  | some t =>
    if t ≤ now then .error (invalidRequest (label ++ " must be in the future") "not_in_future")
    else .ok ()
  | none => .ok ()

def refuseMedia (message code : String) : ServiceError := ⟨.mediaRefused, code, message⟩

def lockMedia (w : World) (media : Uuid) : Except ServiceError Media :=
  match w.lockForBinding media with
  | .ok m => .ok m
  | .error .purged => .error (refuseMedia "the media's bytes have been purged" "media_purged")
  | .error .notValidated =>
    .error (refuseMedia "the media has not been validated as valid" "media_not_valid")
  | .error .airingProhibited =>
    .error (refuseMedia "this media was made under TEST / NO AIR and can never air"
      "airing_prohibited")
  | .error .inconsistent => .error (refuseMedia "no such production media" "unknown_media")

def limitExceeded (message code : String) : ServiceError := ⟨.limitExceeded, code, message⟩

/-- `_check_message_media` -/
def checkMessageMedia (media : Media) (actor : User) (control : Bool) (maxSeconds : ℕ) :
    Except ServiceError ℤ :=
  if media.isBed then
    .error (refuseMedia "station beds are not producer messages" "bed_not_message")
  else if media.owner ≠ some actor.pk ∧ control = false then
    .error (refuseMedia "only your own recordings and uploads can be bound" "not_your_media")
  else match media.decodedDuration with
    | none => .error (refuseMedia "the media has no measured duration" "duration_unknown")
    | some duration =>
      if duration ≤ 0 then
        .error (refuseMedia "the media has no measured duration" "duration_unknown")
      else if maxSeconds * 1000000 < duration then
        .error (limitExceeded ("the media is " ++ decimalText duration ++ " s; a message is at most "
          ++ toString maxSeconds ++ " s (policy limit; media is never truncated)")
          "message_too_long")
      else .ok duration

/-! ## Eligibility -/

def ineligible (message code : String) : ServiceError := ⟨.compositionIneligible, code, message⟩

def tooLong (w : World) (policy : Policy) (m : Message) : Bool :=
  match (Composition.mediaOf w m).decodedDuration with
  | none => true
  | some duration => duration ≤ 0 ∨ policy.maxMessageSeconds * 1000000 < duration

/-- `_check_eligible` -/
def checkEligible (w : World) (policy : Policy) (messages : List Message)
    (stingerSeconds : Option ℤ) : Except ServiceError ℤ :=
  if policy.maxActiveMessages < messages.length then
    .error (ineligible (toString messages.length ++ " messages would be active; the limit is " ++
      toString policy.maxActiveMessages) "too_many_active")
  else match (messages.mergeSort fun a b => a.id ≤ b.id).find? (tooLong w policy) with
    | some m =>
      .error (ineligible ("message " ++ m.id ++ " is " ++
        (Composition.mediaOf w m).decodedDuration.elim "None" decimalText ++
        " s; the per-message limit is " ++ toString policy.maxMessageSeconds ++ " s")
        "message_too_long")
    | none =>
      let total := Composition.accountedSeconds w messages stingerSeconds
      if policy.maxAggregateSeconds * 1000000 < total then
        .error (ineligible ("the active set is " ++ decimalText total ++
          " s (stinger included when urgent); the aggregate limit is " ++
          toString policy.maxAggregateSeconds ++ " s") "aggregate_too_long")
      else .ok total

/-- `(pin, unavailable code, validated decoded duration)` -/
structure Stinger where
  pin : Option Pin
  unavailable : String
  seconds : Option ℤ

def usableStinger (w : World) (key : String) : Stinger :=
  match w.resolveReference key with
  | .error code => ⟨none, code, none⟩
  | .ok (pin, some duration) =>
    if duration ≤ 0 then ⟨none, "reference_duration_unknown", none⟩ else ⟨some pin, "", some duration⟩
  | .ok (_, none) => ⟨none, "reference_duration_unknown", none⟩

/-- `_stinger` -/
def stingerOf (w : World) (policy : Policy) (messages : List Message) : Stinger :=
  if policy.stingerKey = "" ∨ Composition.hasUrgent messages = false then ⟨none, "", none⟩
  else usableStinger w policy.stingerKey

/-! ## Generation and staleness -/

/-- `_bump` -/
def bump (policy : Policy) : Tx Policy :=
  writePolicy policy.generation fun p => { p with generation := policy.generation + 1 }

def suppressed (policy : Policy) (now : Time) (e : Execution) : Execution :=
  { e with
    state := .suppressed
    openSlot := none
    terminalAt := some now
    failureCode := "stale_generation"
    failureDetail := "built for generation " ++ toString e.policyGeneration ++ "; generation " ++
      toString policy.generation ++ " is current" }

/-- Built for another generation, and still the domain's own. -/
def Execution.isStale (policy : Policy) (e : Execution) : Bool :=
  e.state.isPrestart ∧ e.policyGeneration ≠ policy.generation

/-- One turn of `_suppress_stale`; `as` says whose the event is. -/
def suppressRow (policy : Policy) (now : Time) (as : String → ℕ → Event) (e : Execution) :
    Tx Unit := do
  let row ← writeExecution e.id
    (fun r => r.state = e.state ∧ r.policyGeneration = e.policyGeneration) (suppressed policy now)
  event { as "execution_suppressed" policy.generation with
    execution := some row.id
    fromState := e.state.value
    toState := ExecutionState.suppressed.value
    detail := .obj [("code", .str "stale_generation"), ("built_for", .int e.policyGeneration)] }

/-- `_suppress_stale` -/
def suppressStale (policy : Policy) (now : Time) (as : String → ℕ → Event) : Tx Unit := do
  let s ← get
  let stale := (s.executions.filter (Execution.isStale policy)).mergeSort fun a b => a.id ≤ b.id
  stale.forM (suppressRow policy now as)

/-- `_terminal_message_values` -/
def terminated (state : MessageState) (now : Time) (user : Option User) (reason : String)
    (supersededBy : Option Uuid) (m : Message) : Message :=
  { m with
    state := state
    stateChangedAt := now
    terminalAt := some now
    terminalBy := user.map User.pk
    terminalByUsername := user.elim "" User.username
    terminalReason := reason
    nextDueAt := none
    supersededBy := supersededBy }

/-- Active, with an expiry that has passed. -/
def Message.isDue (now : Time) (m : Message) : Bool :=
  m.state = .active ∧ m.expiresAt.any (· ≤ now)

/-- One turn of the sweep. -/
def expireRow (w : World) (policy : Policy) (actorKind : ActorKind) (row : Message) : Tx Unit := do
  let stored ← writeMessage row.id (fun m => m.state = .active)
    (terminated .expired w.now none "expired" none)
  event ((actorEvent "expired" actorKind policy.generation).about stored .active
    (.obj [("expires_at", isoOf w row.expiresAt)]))

/-- `_expire_locked` -/
def expireLocked (w : World) (policy : Policy) (actorKind : ActorKind) :
    Tx (Policy × List Message) := do
  let s ← get
  let due := (s.messages.filter (Message.isDue w.now)).map Message.id
  let locked ← lockMessages due
  let rows := locked.filter (Message.isDue w.now)
  if rows = [] then return (policy, [])
  else
    let policy ← bump policy
    rows.forM (expireRow w policy actorKind)
    suppressStale policy w.now fun name => actorEvent name actorKind
    return (policy, rows.map (terminated .expired w.now none "expired" none))

end IsadoraAir.ActiveMessages
