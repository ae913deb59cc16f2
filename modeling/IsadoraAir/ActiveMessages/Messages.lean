import IsadoraAir.ActiveMessages.Services

/-!
# The lifecycle of a message

Preparing, binding media, setting an expiry, activating, clearing, and the
expiry sweep.
-/

namespace IsadoraAir.ActiveMessages

open Transaction

def transitionError (message code : String) : ServiceError := ⟨.invalidTransition, code, message⟩

def conflict (message : String) : ServiceError := ⟨.revisionConflict, "stale_revision", message⟩

/-- The number of the last `media_bound` event of a message, or zero. -/
def lastBind (events : List Event) (id : Uuid) : ℕ :=
  ((events.zipIdx 1).filter fun e => e.1.message = some id ∧ e.1.event = "media_bound").getLast?.elim
    0 Prod.snd

/-- `message_revision` -/
def messageRevision (w : World) (s : Store) (row : Message) : String :=
  String.ofList ((w.sha256 (row.id ++ "|" ++ row.state.value ++ "|" ++ row.messageMedia.getD "" ++
    "|" ++ toString (lastBind s.events row.id))).toList.take 24)

def prepareMessage (w : World) (actor : Option User) (contentType : TypeRef) (title : String)
    (expiresAt : Option Time) (newId : Uuid) : Tx Message := do
  let user ← requireProducer w actor
  let t ← raised (contentTypeOf w contentType)
  raised (requireAssignment w user t)
  let kind ← require (refuseType (t.key ++ " has no message kind") "not_an_active_message_type")
    t.deliveryMode.kind?
  refuseIf (titleLimit < title.toList.length)
    (invalidRequest ("title is text of at most " ++ toString titleLimit ++ " characters")
      "invalid_request")
  raised (awareFuture expiresAt w.now "expires_at")
  let generation := (← get).policy.generation
  let row ← insertMessage {
    id := newId
    kind := kind
    contentType := t.pk
    state := .prepared
    title := title
    producer := user.pk
    producerKey := producerKeyOf user
    producerUsername := user.username
    messageMedia := none
    stateChangedAt := w.now
    expiresAt := expiresAt
    activationGeneration := none
    activatedBy := none
    activatedByUsername := ""
    activatedAt := none
    replayIntervalSeconds := none
    nextDueAt := none
    terminalAt := none
    terminalBy := none
    terminalByUsername := ""
    terminalReason := ""
    supersededBy := none }
  event { userEvent "prepared" user generation with
    message := some row.id
    toState := MessageState.prepared.value
    detail := .obj [("kind", .str kind.value), ("content_type", .str t.key),
      ("expires_at", isoOf w expiresAt)] }
  return row

def notProducer : ServiceError :=
  refusePermission "only the producer binds media to a prepared message" "not_permitted"

def bindMessageMedia (w : World) (message : Uuid) (media : Uuid) (actor : Option User)
    (expectedRevision : Option String) : Tx Message := do
  let user ← requireProducer w actor
  let row ← lockMessage message
  let s ← get
  let current := messageRevision w s row
  refuseIf (expectedRevision.isSome ∧ row.producer ≠ user.pk ∧ can w user .control = false)
    notProducer
  refuseIf (expectedRevision.any (· ≠ current))
    (conflict "the message changed since this editor opened it")
  refuseIf (row.state ≠ .prepared)
    (transitionError ("a " ++ row.state.value ++ " message's media cannot change") "media_immutable")
  let control := can w user .control
  refuseIf (row.producer ≠ user.pk ∧ control = false) notProducer
  let t ← raised (messageType w row)
  raised (requireAssignment w user t)
  if row.messageMedia = some media then return row
  else
    let bound ← raised (lockMedia w media)
    let duration ← raised (checkMessageMedia bound user control s.policy.maxMessageSeconds)
    let previous := row.messageMedia
    let row ← writeMessage row.id (fun m => m.state = .prepared ∧ m.messageMedia = previous)
      fun m => { m with messageMedia := some bound.pk }
    event ((userEvent "media_bound" user s.policy.generation).about row .prepared
      (.obj [("media", .str bound.pk), ("sha256", .str bound.sha256),
        ("duration_seconds", .str (decimalText duration)),
        ("replaced", Json.optional .str previous)]))
    return row

/-- `expected_expires_at`, unless it is not checked. -/
inductive ExpectedExpiry where
  | unchecked
  | exactly (value : Option Time)

def ExpectedExpiry.differs (expected : ExpectedExpiry) (value : Option Time) : Bool :=
  match expected with
  | .unchecked => false
  | .exactly e => value ≠ e

/-- Who may change the expiry of the message, by its state. -/
def requireExpiryChange (w : World) (user : User) (row : Message) : Except ServiceError Unit :=
  match row.state with
  | .active => match w.authorize user .control with
    | none => .ok ()
    | some (reason, code) => .error (refusePermission reason code)
  | .prepared =>
    if row.producer ≠ user.pk ∧ can w user .control = false then
      .error (refusePermission "only the producer changes a prepared message" "not_permitted")
    else (messageType w row).bind (requireAssignment w user)
  | state => .error (transitionError ("a " ++ state.value ++ " message is final") "terminal")

def setMessageExpiry (w : World) (message : Uuid) (expiresAt : Option Time) (actor : Option User)
    (expected : ExpectedExpiry) : Tx Message := do
  raised (awareFuture expiresAt w.now "expires_at")
  let user ← requireProducer w actor
  let policy ← lockPolicy
  let row ← lockMessage message
  raised (requireExpiryChange w user row)
  refuseIf (expected.differs row.expiresAt)
    (transitionError "the message's expiry changed since this page was loaded" "expiry_changed")
  if row.expiresAt = expiresAt then return row
  else
    let previous := row
    let row ← writeMessage row.id
      (fun m => m.state = previous.state ∧ m.expiresAt = previous.expiresAt)
      fun m => { m with expiresAt := expiresAt }
    event ((userEvent "expiry_set" user policy.generation).about row previous.state
      (.obj [("expires_at", isoOf w expiresAt), ("previous", isoOf w previous.expiresAt)]))
    return row

/-- `_require_activation` -/
def requireActivation (w : World) (actor : User) (row : Message) (control : Bool) :
    Except ServiceError Unit :=
  if control then .ok ()
  else if row.producerKey ≠ producerKeyOf actor then
    .error (refusePermission "only control activates another producer's message" "not_your_message")
  else match w.resolve (.pk row.contentType) with
    | none => .error (refusePermission "you are not assigned to this message's content type"
        "not_assigned")
    | some t =>
      if w.isAssigned actor t.pk = false then
        .error (refusePermission "you are not assigned to this message's content type"
          "not_assigned")
      else if t.producerSelfPublish ≠ some true then
        .error (refusePermission (t.key ++ " needs control to activate (no producer self-publish)")
          "self_publish_disabled")
      else .ok ()

/-- `content_type.replay_interval_seconds or policy.default_replay_interval_seconds` -/
def replayInterval (t : ContentType) (policy : Policy) : ℕ :=
  match t.replayIntervalSeconds with
  | some n => if n = 0 then policy.defaultReplayIntervalSeconds else n
  | none => policy.defaultReplayIntervalSeconds

def activated (policy : Policy) (now : Time) (actor : User) (interval : ℕ) (m : Message) :
    Message :=
  { m with
    state := .active
    stateChangedAt := now
    activationGeneration := some policy.generation
    activatedBy := some actor.pk
    activatedByUsername := actor.username
    activatedAt := some now
    replayIntervalSeconds := some interval
    nextDueAt := some now }

/-- Clear the message that the activated one replaces, if there is one. -/
def supersede (w : World) (policy : Policy) (user : User) (successor : Uuid) :
    Option Uuid → Tx Unit
  | none => return ()
  | some previous => do
    let cleared ← writeMessage previous (fun m => m.state = .active)
      (terminated .cleared w.now (some user) "superseded" (some successor))
    event ((userEvent "superseded" user policy.generation).about cleared .active
      (.obj [("superseded_by", .str successor)]))

def activateMessage (w : World) (message : Uuid) (actor : Option User)
    (expectedRevision : Option String) : Tx Message := do
  let user ← requireProducer w actor
  let control := can w user .control
  let policy ← lockPolicy
  let s ← get
  let target ← require (invalidRequest "no such active message" "unknown_message")
    (s.messages.find? fun m => m.id = message)
  let previousId := currentActiveId s target.producerKey target.contentType message
  let rows ← lockMessages (message :: previousId.toList)
  let row ← require (invalidRequest "no such active message" "unknown_message")
    (rows.find? fun m => m.id = message)
  raised (requireActivation w user row control)
  if row.state = .active then return row
  else
    refuseIf (row.state ≠ .prepared)
      (transitionError ("a " ++ row.state.value ++ " message cannot be activated") "terminal")
    let current := messageRevision w s row
    refuseIf (expectedRevision.any (· ≠ current))
      (conflict "the draft changed since it was reviewed")
    let t ← raised (messageType w row)
    let interval := replayInterval t policy
    let mediaId ← require (transitionError "bind the message's media first" "media_required")
      row.messageMedia
    refuseIf (row.expiresAt.any (· ≤ w.now))
      (transitionError "the message has already expired" "already_expired")
    let media ← raised (lockMedia w mediaId)
    let row := { row with messageMedia := some media.pk }
    -- The active set this activation would produce must fit every policy limit.
    let active ← activeMessages
    let candidate := (active.filter fun m => some m.id ≠ previousId) ++ [row]
    let _ ← raised (checkEligible w policy candidate (stingerOf w policy candidate).seconds)
    let policy ← bump policy
    supersede w policy user row.id previousId
    let row ← writeMessage row.id (fun m => m.state = .prepared ∧ m.messageMedia = some media.pk)
      (activated policy w.now user interval)
    event ((userEvent "activated" user policy.generation).about row .prepared
      (.obj [("media", .str media.pk), ("sha256", .str media.sha256), ("content_type", .str t.key),
        ("replay_interval_seconds", .int interval), ("self_published", .bool (!control)),
        ("supersedes", Json.optional .str previousId)]))
    suppressStale policy w.now fun name => userEvent name user
    return row

/-- `_require_recall` -/
def requireRecall (w : World) (actor : User) (row : Message) : Except ServiceError Bool :=
  if can w actor .control then .ok false
  else if row.producerKey ≠ producerKeyOf actor then
    .error (refusePermission "only control clears another producer's message" "not_your_message")
  else if ((w.resolve (.pk row.contentType)).bind ContentType.recallable) ≠ some true then
    .error (refusePermission
      "this message's content type is not recallable by its producer; ask control" "not_recallable")
  else .ok true

/-- `PRODUCE` or `CONTROL`. -/
def requireEither (w : World) (user : Option User) : Tx User :=
  match user with
  | some u => if can w u .produce ∨ can w u .control then return u
      else requireCapability w user .control
  | none => requireCapability w user .control

def clearMessage (w : World) (message : Uuid) (actor : Option User) (reason : String)
    (expectedState : Option MessageState) : Tx Message := do
  refuseIf (expectedState.any fun state => state ≠ .prepared ∧ state ≠ .active)
    (invalidRequest "expected_state is prepared or active" "invalid_request")
  let user ← requireEither w actor
  refuseIf (reasonLimit < reason.toList.length)
    (invalidRequest ("reason is text of at most " ++ toString reasonLimit ++ " characters")
      "invalid_request")
  let policy ← lockPolicy
  let row ← lockMessage message
  if row.state.isTerminal then return row
  else
    refuseIf (expectedState.any (· ≠ row.state))
      (transitionError ("the message is " ++ row.state.value ++ ", not " ++
        expectedState.elim "" MessageState.value) "state_changed")
    if row.state = .prepared then
      refuseIf (row.producer ≠ user.pk ∧ can w user .control = false)
        (refusePermission "only the producer discards a prepared message" "not_permitted")
      let row ← writeMessage row.id (fun m => m.state = .prepared)
        (terminated .cleared w.now (some user) reason none)
      event ((userEvent "discarded" user policy.generation).about row .prepared
        (.obj [("reason", .str reason)]))
      return row
    else
      let producerRecall ← raised (requireRecall w user row)
      let policy ← bump policy
      let row ← writeMessage row.id (fun m => m.state = .active)
        (terminated .cleared w.now (some user) reason none)
      event ((userEvent "cleared" user policy.generation).about row .active
        (.obj [("reason", .str reason), ("producer_recall", .bool producerRecall)]))
      suppressStale policy w.now fun name => userEvent name user
      return row

def expireDueMessages (w : World) (actorKind : ActorKind) : Tx (List Message) := do
  let policy ← lockPolicy
  let swept ← expireLocked w policy actorKind
  return swept.2

end IsadoraAir.ActiveMessages
