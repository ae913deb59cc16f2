import IsadoraAir.ActiveMessages.Messages

/-!
# Executions

Materializing the due airing, reconciling one that failed by its stinger, Replay
Now, and the two outcomes of a render.
-/

namespace IsadoraAir.ActiveMessages

open Transaction

/-- `_built` -/
def built (w : World) (messages : List Message) (stinger : Stinger) :
    Except ServiceError (Snapshot × String) :=
  match Composition.build w messages stinger.pin stinger.unavailable stinger.seconds with
  | .ok snapshot => .ok (snapshot, Composition.digest w snapshot)
  | .error e => .error (limitExceeded e.message e.code)

/-- Whom a new execution is for, and the event that records it. -/
structure Request where
  reason : ExecutionReason
  user : Option User
  event : Event

/-- `_create_execution`, with the snapshot and digest that `_built` gives. -/
def createExecution (w : World) (policy : Policy) (snapshot : Snapshot) (digest : String)
    (unavailable : String) (request : Request) (dueAt : Time) (newId : Uuid) : Tx Execution := do
  let execution ← insertExecution {
    id := newId
    reason := request.reason
    state := .pendingRender
    openSlot := some 1
    policyGeneration := policy.generation
    compositionDigest := digest
    compositionSnapshot := snapshot
    componentCount := snapshot.components.length
    mixMedia := none
    requestedBy := request.user.map User.pk
    requestedByUsername := request.user.elim "" User.username
    createdAt := w.createdAt
    dueAt := dueAt
    readyAt := none
    terminalAt := none
    failureCode := ""
    failureDetail := "" }
  event { request.event with
    execution := some execution.id
    toState := ExecutionState.pendingRender.value
    detail := .obj [("reason", .str request.reason.value), ("digest", .str digest),
      ("components", .int snapshot.components.length),
      ("stinger_unavailable", if unavailable = "" then .null else .str unavailable)] }
  return execution

/-- `_blocking_failure` -/
def blockingFailure (s : Store) (policy : Policy) (digest : String) (codes : List String) :
    Option String :=
  if codes = [] then none
  else match newest s.executions with
    | some last =>
      if last.state = .failed ∧ last.failureCode ∈ codes ∧
          last.policyGeneration = policy.generation ∧ last.compositionDigest = digest then
        some last.failureCode
      else none
    | none => none

def blockedError (code : String) : ServiceError :=
  ⟨.compositionBlocked, code, "the current composition failed permanently (" ++ code ++
    "); an operator change (clear, replacement, limit) makes a new one"⟩

/-- `min(due)` of the due messages. -/
def firstDue (now : Time) (messages : List Message) : Option Time :=
  ((messages.filterMap Message.nextDueAt).filter (· ≤ now)).min?

def materializeDueExecution (w : World) (actorKind : ActorKind) (blockingCodes : List String)
    (newId : Uuid) : Tx (Except ServiceError (Option Execution)) := do
  let policy ← lockPolicy
  let (policy, _) ← expireLocked w policy actorKind
  suppressStale policy w.now fun name => actorEvent name actorKind
  match ← openExecution with
  | some unfinished => return .ok (some unfinished)
  | none =>
    let messages ← activeMessages
    match firstDue w.now messages with
    | none => return .ok none
    | some dueAt =>
      let stinger := stingerOf w policy messages
      match checkEligible w policy messages stinger.seconds with
      | .error refusal => return .error refusal
      | .ok _ =>
        let (snapshot, digest) ← raised (built w messages stinger)
        match blockingFailure (← get) policy digest blockingCodes with
        | some code => return .error (blockedError code)
        | none =>
          let execution ← createExecution w policy snapshot digest stinger.unavailable
            ⟨.scheduled, none, actorEvent "execution_materialized" actorKind policy.generation⟩
            dueAt newId
          return .ok (some execution)

def stingerPinUnavailable : String := "stinger_pin_unavailable"

/-- The predecessor's one `reconciled` event. -/
def reconciliationOf (s : Store) (failed : Uuid) : Option Event :=
  s.events.find? fun e => e.execution = some failed ∧ e.event = "reconciled"

/-- `record.detail.get("successor")` -/
def Event.successor (e : Event) : Option Uuid :=
  (e.detail.obj?.bind fun items => (Json.lookup items "successor").str?)

def executionOf (id : Option Uuid) : Tx (Option Execution) := do
  match id with
  | none => return none
  | some id =>
    let s ← get
    let row ← require (integrityError "execution") (s.executions.find? fun e => e.id = id)
    return some row

/-- `record` -/
def recordReconciled (policy : Policy) (actorKind : ActorKind) (failed : Execution)
    (outcome : String) (successor : Option Execution) :
    Tx (Except ServiceError (Option Execution)) := do
  event { actorEvent "reconciled" actorKind policy.generation with
    execution := some failed.id
    detail := .obj [("outcome", .str outcome),
      ("successor", Json.optional (fun e => .str e.id) successor)] }
  return .ok successor

def reconcileStingerFailure (w : World) (execution : Uuid) (actorKind : ActorKind)
    (newId : Uuid) : Tx (Except ServiceError (Option Execution)) := do
  let policy ← lockPolicy
  let failed ← lockExecution execution
  refuseIf (failed.state ≠ .failed ∨ failed.failureCode ≠ stingerPinUnavailable)
    (invalidRequest "only an occurrence failed by its frozen stinger is reconciled"
      "not_reconcilable")
  match reconciliationOf (← get) failed.id with
  | some record => return .ok (← executionOf record.successor)
  | none =>
    let (policy, _) ← expireLocked w policy actorKind
    suppressStale policy w.now fun name => actorEvent name actorKind
    if failed.policyGeneration ≠ policy.generation then
      recordReconciled policy actorKind failed "composition_changed" none
    else match ← openExecution with
      | some unfinished => recordReconciled policy actorKind failed "absorbed" (some unfinished)
      | none =>
        let messages ← activeMessages
        if messages = [] then recordReconciled policy actorKind failed "nothing_active" none
        else
          let stinger := stingerOf w policy messages
          match checkEligible w policy messages stinger.seconds with
          | .error refusal => return .error refusal
          | .ok _ =>
            let (snapshot, digest) ← raised (built w messages stinger)
            let successor ← createExecution w policy snapshot digest stinger.unavailable
              ⟨.reconcile, none, actorEvent "execution_reconciled" actorKind policy.generation⟩
              w.now newId
            event { actorEvent "reconciles" actorKind policy.generation with
              execution := some successor.id
              detail := .obj [("predecessor", .str failed.id),
                ("predecessor_reason", .str failed.reason.value)] }
            recordReconciled policy actorKind failed "successor" (some successor)

inductive ReplayOutcome where
  | created | repeated | coalesced
  deriving DecidableEq

/-- `request_manual_replay_outcome`; `none` for a token that is no UUID. -/
def requestManualReplay (w : World) (actor : Option User) (requestToken : Option Uuid)
    (newId : Uuid) : Tx (Except ServiceError (Execution × ReplayOutcome)) := do
  let user ← requireCapability w actor .control
  let token ← require (invalidRequest "request_token is a UUID" "invalid_request_token")
    requestToken
  let policy ← lockPolicy
  match priorRequest (← get) token with
  | some prior =>
    refuseIf (prior.actor ≠ some user.pk)
      (invalidRequest "that request token belongs to another request" "request_token_conflict")
    let execution ← executionOf prior.execution
    let execution ← require (integrityError "execution") execution
    return .ok (execution, .repeated)
  | none =>
    let (policy, _) ← expireLocked w policy .system
    suppressStale policy w.now fun name => userEvent name user
    match ← openExecution with
    | some unfinished =>
      refuseIf (unfinished.policyGeneration ≠ policy.generation)
        ⟨.executionBusy, "execution_busy",
          "an airing of an earlier composition is still with the engine"⟩
      event { userEvent "replay_coalesced" user policy.generation with
        execution := some unfinished.id
        requestToken := some token
        detail := .obj [("state", .str unfinished.state.value)] }
      return .ok (unfinished, .coalesced)
    | none =>
      let messages ← activeMessages
      refuseIf (messages = []) ⟨.nothingActive, "nothing_active", "no message is active"⟩
      let stinger := stingerOf w policy messages
      match checkEligible w policy messages stinger.seconds with
      | .error refusal => return .error refusal
      | .ok _ =>
        let (snapshot, digest) ← raised (built w messages stinger)
        let execution ← createExecution w policy snapshot digest stinger.unavailable
          ⟨.manual, some user, { userEvent "replay_requested" user policy.generation with
            requestToken := some token }⟩
          w.now newId
        return .ok (execution, .created)

/-! ## Render outcomes -/

def failureCodes : List String :=
  ["input_unavailable", stingerPinUnavailable, "provenance_mismatch", "rendition_invalid",
    "aggregate_too_long", "render_failed"]

def mixRefused (message code : String) : ServiceError := ⟨.mixRefused, code, message⟩

/-- `lock_for_binding` of a rendition. -/
def lockRendition (w : World) (media : Uuid) : Except ServiceError Media :=
  match w.lockForBinding media with
  | .ok m => .ok m
  | .error .airingProhibited =>
    .error (mixRefused "the rendition derives from TEST / NO AIR media and can never air"
      "input_unavailable")
  | .error _ => .error (mixRefused "the rendition is missing, purged or not valid"
      "rendition_unavailable")

/-- What `_bind_proven` proves of the rendition; its measured duration. -/
def provenDuration (w : World) (policy : Policy) (row : Execution) (bound : Media) :
    Except ServiceError ℤ :=
  if Composition.digest w row.compositionSnapshot ≠ row.compositionDigest then
    .error (mixRefused "the frozen snapshot no longer hashes to its digest" "provenance_mismatch")
  else if w.proves bound row.compositionSnapshot = false then
    .error (mixRefused "the rendition is not the aggregate of this frozen composition"
      "provenance_mismatch")
  else match bound.decodedDuration with
    | none => .error (mixRefused "the rendition has no measured duration" "rendition_invalid")
    | some seconds =>
      if seconds ≤ 0 then
        .error (mixRefused "the rendition has no measured duration" "rendition_invalid")
      else if policy.maxAggregateSeconds * 1000000 < seconds then
        .error (mixRefused ("the rendered aggregate is " ++ decimalText seconds ++
          " s; the aggregate limit is " ++ toString policy.maxAggregateSeconds ++ " s")
          "aggregate_too_long")
      else .ok seconds

/-- `_bind_proven` -/
def bindProven (w : World) (policy : Policy) (row : Execution) (bound : Media)
    (actorKind : ActorKind) : Tx Execution := do
  let seconds ← raised (provenDuration w policy row bound)
  let row ← writeExecution row.id
    (fun e => e.state = .pendingRender ∧ e.policyGeneration = row.policyGeneration ∧
      e.mixMedia = none)
    fun e => { e with state := .ready, mixMedia := some bound.pk, readyAt := some w.now }
  event { actorEvent "mix_bound" actorKind policy.generation with
    execution := some row.id
    fromState := ExecutionState.pendingRender.value
    toState := ExecutionState.ready.value
    detail := .obj [("media", .str bound.pk), ("sha256", .str bound.sha256),
      ("seconds", .str (decimalText seconds)),
      ("provenance_digest", .str bound.recipeParamsDigest)] }
  return row

def bindExecutionMix (w : World) (execution media : Uuid) (actorKind : ActorKind) :
    Tx (Except ServiceError Execution) := do
  let policy ← lockPolicy
  let bound ← raised (lockRendition w media)
  let row ← lockExecution execution
  if row.state = .ready ∧ row.mixMedia = some bound.pk then return .ok row
  else
    refuseIf (row.state ≠ .pendingRender)
      (mixRefused ("a " ++ row.state.value ++ " execution takes no aggregate")
        "execution_not_pending")
    if row.policyGeneration ≠ policy.generation then
      suppressStale policy w.now fun name => actorEvent name actorKind
      return .error (mixRefused "the execution is no longer the current composition"
        "stale_generation")
    else
      let row ← bindProven w policy row bound actorKind
      return .ok row

/-- `_bounded_detail`: one line, without the words that hold a path, bounded. -/
def boundedDetail (text : String) : String :=
  let words := (text.toList.splitOnP Char.isWhitespace).filter fun word => word ≠ [] ∧ '/' ∉ word
  String.ofList (([' '].intercalate words).take failureDetailLimit)

def failExecution (w : World) (execution : Uuid) (code detail : String) (actorKind : ActorKind) :
    Tx Execution := do
  refuseIf (code ∉ failureCodes)
    (invalidRequest ("unknown render failure code " ++ String.ofList (code.toList.take 64))
      "invalid_request")
  let policy ← lockPolicy
  let row ← lockExecution execution
  if row.state ≠ .pendingRender then return row
  else if row.policyGeneration ≠ policy.generation then
    suppressStale policy w.now fun name => actorEvent name actorKind
    lockExecution row.id
  else
    let row ← writeExecution row.id (fun e => e.state = .pendingRender) fun e =>
      { e with
        state := .failed
        openSlot := none
        terminalAt := some w.now
        failureCode := code
        failureDetail := boundedDetail detail }
    event { actorEvent "render_failed" actorKind policy.generation with
      execution := some row.id
      fromState := ExecutionState.pendingRender.value
      toState := ExecutionState.failed.value
      detail := .obj [("code", .str code)] }
    return row

/-! ## Calls -/

/-- One service call with its arguments; `newId` is the UUID it generates. -/
inductive Call where
  | prepare (actor : Option User) (contentType : TypeRef) (title : String)
      (expiresAt : Option Time) (newId : Uuid)
  | bindMedia (message media : Uuid) (actor : Option User) (expectedRevision : Option String)
  | setExpiry (message : Uuid) (expiresAt : Option Time) (actor : Option User)
      (expected : ExpectedExpiry)
  | activate (message : Uuid) (actor : Option User) (expectedRevision : Option String)
  | clear (message : Uuid) (actor : Option User) (reason : String)
      (expectedState : Option MessageState)
  | expire (actorKind : ActorKind)
  | materialize (actorKind : ActorKind) (blockingCodes : List String) (newId : Uuid)
  | reconcile (execution : Uuid) (actorKind : ActorKind) (newId : Uuid)
  | replayNow (actor : Option User) (requestToken : Option Uuid) (newId : Uuid)
  | bindMix (execution media : Uuid) (actorKind : ActorKind)
  | fail (execution : Uuid) (code detail : String) (actorKind : ActorKind)

inductive Reply where
  | message (m : Message)
  | messages (ms : List Message)
  | execution (e : Option Execution)
  | replay (e : Execution) (outcome : ReplayOutcome)

/-- The transaction of a call, whose result may be an error raised after the commit. -/
def perform (w : World) : Call → Tx (Except ServiceError Reply)
  | .prepare actor contentType title expiresAt newId => do
    return .ok (.message (← prepareMessage w actor contentType title expiresAt newId))
  | .bindMedia message media actor expectedRevision => do
    return .ok (.message (← bindMessageMedia w message media actor expectedRevision))
  | .setExpiry message expiresAt actor expected => do
    return .ok (.message (← setMessageExpiry w message expiresAt actor expected))
  | .activate message actor expectedRevision => do
    return .ok (.message (← activateMessage w message actor expectedRevision))
  | .clear message actor reason expectedState => do
    return .ok (.message (← clearMessage w message actor reason expectedState))
  | .expire actorKind => do
    return .ok (.messages (← expireDueMessages w actorKind))
  | .materialize actorKind blockingCodes newId => do
    return (← materializeDueExecution w actorKind blockingCodes newId).map .execution
  | .reconcile execution actorKind newId => do
    return (← reconcileStingerFailure w execution actorKind newId).map .execution
  | .replayNow actor requestToken newId => do
    return (← requestManualReplay w actor requestToken newId).map fun r => .replay r.1 r.2
  | .bindMix execution media actorKind => do
    return (← bindExecutionMix w execution media actorKind).map fun e => .execution (some e)
  | .fail execution code detail actorKind => do
    return .ok (.execution (some (← failExecution w execution code detail actorKind)))

/-- A call at the time and in the surroundings it is made in. -/
structure Made where
  world : World
  call : Call

namespace Made

def ended (c : Made) (s : Store) : Except ServiceError (Except ServiceError Reply) × Store :=
  (perform c.world c.call).commit s

/-- The store after the call. -/
def step (c : Made) (s : Store) : Store := (c.ended s).2

/-- What the caller gets. -/
def reply (c : Made) (s : Store) : Except ServiceError Reply := (c.ended s).1.bind id

end Made

/-- No rows, and whatever limits the operator has set. -/
def Store.initial (policy : Policy) : Store := ⟨policy, [], [], []⟩

end IsadoraAir.ActiveMessages
