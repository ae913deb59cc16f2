import IsadoraAir.ActiveMessages.Evidence

/-!
# Playout of an execution

How an execution that is ready reaches the deck: attempts are dispatched, accepted with the log
item that the engine splices in, and claimed when the deck opens it; one that did not air is sent
again, and one that the composition has overtaken is suppressed.
-/

namespace IsadoraAir.ActiveMessages

open Transaction

def dispatchTimeoutSeconds : ℤ := 60

def maxAttempts : ℕ := 50

structure Publication where
  id : Uuid
  track : ℕ
  media : Uuid
  libraryRelpath : String
  deriving DecidableEq

/-- `logItem` is the log item while its row exists, `logItemSnapshot` its id for ever. -/
structure Insertion where
  execution : Uuid
  attempt : Uuid
  publication : Publication
  logItem : Option ℕ
  logItemSnapshot : ℕ
  deriving DecidableEq

/-- What the playout finds outside the domain's rows: the code constant that opens the gate, the
library and its Tracks, the publications and insertions made so far, the log items with their
playback claims and plays, and the deck's ledger. -/
structure Deck where
  available : Bool
  libraryRoot : String
  trackPath : ℕ → Option String
  categoryExists : Bool
  publicationOf : Uuid → Option Publication
  /-- `_publication_problem`, "" for none. -/
  problem : Publication → String
  insertions : List Insertion
  logItem : ℕ → Option (Option Time × Option Time)
  hasPlayEvent : ℕ → Bool

def gateOpen (deck : Deck) (policy : Policy) : Bool := deck.available ∧ policy.nativeAiringEnabled

/-- A lower case hexadecimal digit. -/
def isHexDigit (c : Char) : Bool := c.isDigit ∨ 'a' ≤ c ∧ c ≤ 'f'

/-- `is_candidate`, of a path: the last part is `am-`, 32 hexadecimal digits and `.flac`. -/
def isCandidate (path : String) : Bool :=
  let name := (path.toList.splitOn '/').getLast?.getD []
  name.take 3 = ['a', 'm', '-'] ∧ name.drop 35 = ['.', 'f', 'l', 'a', 'c'] ∧
    ((name.drop 3).take 32).length = 32 ∧ ((name.drop 3).take 32).all isHexDigit

/-- `ENGINE_HELD` -/
def ExecutionState.isEngineHeld (s : ExecutionState) : Bool := s = .accepted ∨ s = .claimed

/-- The row has not changed since it was read. -/
def Execution.isUnchanged (row e : Execution) : Bool :=
  e.state = row.state ∧ e.attemptToken = row.attemptToken

/-- `_event` of the playout: under the committed policy's generation. -/
def playoutEvent (name : String) (row : Execution) (actorKind : ActorKind)
    (fromState toState : String) (detail : Json) : Tx Unit := do
  let policy ← lockPolicy
  event { actorEvent name actorKind policy.generation with
    execution := some row.id
    fromState := fromState
    toState := toState
    detail := detail }

/-! ## Transitions -/

/-- `_fail` -/
def failPlayout (w : World) (row : Execution) (code detail : String) (actorKind : ActorKind) :
    Tx Execution := do
  let stored ← writeExecution row.id row.isUnchanged fun e =>
    { e with
      state := .failed
      openSlot := none
      terminalAt := some w.now
      failureCode := code
      failureDetail := boundedDetail detail }
  playoutEvent "playout_failed" stored actorKind row.state.value ExecutionState.failed.value
    (.obj [("code", .str code)])
  return stored

/-- `_suppress` -/
def suppressPlayout (w : World) (row : Execution) (actorKind : ActorKind) : Tx Execution := do
  let stored ← writeExecution row.id row.isUnchanged fun e =>
    { e with
      state := .suppressed
      openSlot := none
      terminalAt := some w.now
      failureCode := "stale_generation"
      failureDetail := "authority moved on before it aired" }
  playoutEvent "execution_suppressed" stored actorKind row.state.value
    ExecutionState.suppressed.value (.obj [("code", .str "stale_generation")])
  return stored

/-- `_new_attempt`; `token` is the UUID it generates. -/
def newAttempt (w : World) (row : Execution) (publication : Publication) (actorKind : ActorKind)
    (redispatch : Bool) (token : Uuid) : Tx (Option Uuid) := do
  if maxAttempts ≤ row.attemptCount then
    let _ ← failPlayout w row "dispatch_exhausted" (toString row.attemptCount ++ " attempts")
      actorKind
    return none
  else
    let stored ← writeExecution row.id row.isUnchanged fun e =>
      { e with
        attemptToken := some token
        dispatchedAt := some w.now
        attemptCount := row.attemptCount + 1 }
    playoutEvent "dispatched" stored actorKind "" ""
      (.obj [("attempt", .str token), ("track", .int publication.track),
        ("redispatch", .bool redispatch)])
    return some token

/-- `_redispatch` -/
def redispatch (w : World) (deck : Deck) (row : Execution) (publication : Publication)
    (actorKind : ActorKind) (again : Bool) (token : Uuid) : Tx (Option Uuid) := do
  if deck.problem publication ≠ "" then
    let _ ← failPlayout w row "publication_unavailable" (deck.problem publication) actorKind
    return none
  else newAttempt w row publication actorKind again token

def sentWithin (now : Time) (row : Execution) : Bool :=
  row.dispatchedAt.any fun sent => now - sent < dispatchTimeoutSeconds * 1000000

def dispatch (w : World) (deck : Deck) (execution : Uuid) (token : Uuid) : Tx (Option Uuid) := do
  let policy ← lockPolicy
  let row ← lockExecution execution
  if row.state ≠ .ready ∨ row.policyGeneration ≠ policy.generation ∨ gateOpen deck policy = false then
    return none
  else match deck.publicationOf row.id with
    | none => return none
    | some publication =>
      if sentWithin w.now row then return none
      else redispatch w deck row publication .worker row.dispatchedAt.isSome token

/-! ## The engine -/

/-- `Refused` -/
def refusedCommand (reason : String) : ServiceError := ⟨.invalidTransition, "refused", reason⟩

/-- The published Track is the one that the command names. -/
def Publication.matches (deck : Deck) (row : Execution) (track : ℕ) (p : Publication) : Bool :=
  p.track = track ∧ some p.media = row.mixMedia ∧
    (deck.trackPath track).any fun path =>
      path = deck.libraryRoot ++ "/" ++ p.libraryRelpath ∧ isCandidate path

/-- `admit`: may this insertion command splice its Track? -/
def admitTrack (deck : Deck) (execution attempt : Uuid) (track : ℕ) : Tx Execution := do
  let policy ← lockPolicy
  let s ← get
  let row ← require (refusedCommand "unknown execution")
    (s.executions.find? fun e => e.id = execution)
  refuseIf (row.attemptToken ≠ some attempt) (refusedCommand "superseded or unknown attempt")
  refuseIf (deck.insertions.any fun i => i.attempt = attempt)
    (refusedCommand "duplicate command: this attempt is already inserted")
  refuseIf (row.state ≠ .ready ∧ row.state.isEngineHeld = false)
    (refusedCommand ("execution is " ++ row.state.value))
  refuseIf (row.policyGeneration ≠ policy.generation) (refusedCommand "stale generation")
  refuseIf (gateOpen deck policy = false) (refusedCommand "native airing is closed")
  refuseIf ((deck.publicationOf row.id).all fun p => p.matches deck row track = false)
    (refusedCommand "publication does not match")
  refuseIf (deck.categoryExists = false) (refusedCommand "category missing")
  return row

/-- `admit` and `record_insertion`, in the transaction of the splice; `logItem` is the new one. -/
def recordInsertion (w : World) (deck : Deck) (execution attempt : Uuid) (track logItem : ℕ)
    (engineInstance : String) : Tx Execution := do
  let row ← admitTrack deck execution attempt track
  let stored ← writeExecution row.id (fun e => e.state = row.state ∧ e.attemptToken = some attempt)
    fun e =>
      { e with state := .accepted, acceptedAt := some w.now, engineInstance := engineInstance }
  playoutEvent "accepted" stored .engine row.state.value ExecutionState.accepted.value
    (.obj [("attempt", .str attempt), ("log_item", .int logItem)])
  return stored

/-- `_judge`: "" for an insertion that may play, else the reason. -/
def judge (deck : Deck) (policy : Policy) (row : Execution) (insertion : Insertion)
    (track : Option ℕ) (engineInstance : String) : String :=
  if track ≠ some insertion.publication.track then "native insertion does not name this Track"
  else if row.attemptToken ≠ some insertion.attempt then "superseded native insertion attempt"
  else if gateOpen deck policy = false then "native airing is closed"
  else if row.state = .accepted then
    if row.policyGeneration ≠ policy.generation then
      "stale native urgent/PA aggregate (composition changed)"
    else if row.mixMedia ≠ some insertion.publication.media then
      "native aggregate identity changed"
    else ""
  else if (row.state = .claimed ∨ row.state = .started) ∧ row.engineInstance = engineInstance then
    ""
  else "native urgent/PA execution is " ++ row.state.value

/-- `_insertion_for` -/
def Deck.insertionFor (deck : Deck) (logItem : ℕ) : Option Insertion :=
  deck.insertions.find? fun i => i.logItemSnapshot = logItem

def Deck.insertionOf (deck : Deck) (row : Execution) : Option Insertion :=
  deck.insertions.find? fun i => i.execution = row.id ∧ some i.attempt = row.attemptToken

/-- `authorize_open`, of a log item whose Track is a candidate: "" allows. -/
def authorizeOpen (w : World) (deck : Deck) (logItem : ℕ) (track : Option ℕ)
    (engineInstance : String) : Tx String := do
  match deck.insertionFor logItem with
  | none => return "native urgent/PA Track without insertion authority"
  | some insertion =>
    let policy ← lockPolicy
    let row ← lockExecution insertion.execution
    let reason := judge deck policy row insertion track engineInstance
    if reason ≠ "" then
      if row.state = .accepted ∧ row.attemptToken = some insertion.attempt ∧
          row.policyGeneration ≠ policy.generation then
        let _ ← suppressPlayout w row .engine
        return reason
      else return reason
    else if row.state = .accepted then
      if deck.logItem logItem = none then return "native LogItem no longer exists"
      else
        let stored ← writeExecution row.id
          (fun e => e.state = .accepted ∧ e.attemptToken = row.attemptToken) fun e =>
          { e with state := .claimed, claimedAt := some w.now, engineInstance := engineInstance }
        playoutEvent "claimed" stored .engine ExecutionState.accepted.value
          ExecutionState.claimed.value (.obj [("log_item", .int logItem)])
        return ""
    else return ""

def notAiredStages : List String := ["discarded", "left_queue", "deck_not_opened"]

/-- A claimed log item that this engine cannot have played. -/
def surelyUnplayed (deck : Deck) (row : Execution) (logItem : ℕ) (engineInstance : String) : Bool :=
  row.engineInstance = engineInstance ∧ deck.logItem logItem = some (none, none)

def reportNotAired (w : World) (deck : Deck) (logItem : ℕ) (engineInstance stage : String)
    (token : Uuid) : Tx String := do
  refuseIf (stage ∉ notAiredStages) (invalidRequest ("unknown stage " ++ stage) "value_error")
  match deck.insertionFor logItem with
  | none => return "unknown"
  | some insertion =>
    let policy ← lockPolicy
    let row ← lockExecution insertion.execution
    if row.attemptToken ≠ some insertion.attempt then return "superseded"
    else if row.state.isEngineHeld = false ∨ row.startedAt.isSome then return row.state.value
    else if deck.hasPlayEvent logItem then return "evidence"
    else
      let detail := Json.obj [("stage", .str stage), ("log_item", .int logItem),
        ("attempt", .str row.attemptText)]
      if row.state = .claimed ∧ surelyUnplayed deck row logItem engineInstance = false then
        playoutEvent "claimed_not_aired" row .engine "" "" detail
        return "held"
      else if row.policyGeneration ≠ policy.generation ∨ gateOpen deck policy = false then
        let _ ← suppressPlayout w row .engine
        return "suppressed"
      else
        playoutEvent "not_aired" row .engine "" "" detail
        let sent ← redispatch w deck row insertion.publication .engine true token
        return if sent.isSome then "resent" else "failed"

/-- One row of `engine_started`, after its evidence: an attempt that another process accepted or
claimed is sent again. -/
def engineStarted (w : World) (deck : Deck) (execution : Uuid) (engineInstance : String)
    (token : Uuid) : Tx Unit := do
  let policy ← lockPolicy
  let row ← lockExecution execution
  if row.state.isEngineHeld = false ∨ row.engineInstance = engineInstance then return ()
  else if row.policyGeneration ≠ policy.generation ∨ gateOpen deck policy = false then
    let _ ← suppressPlayout w row .engine
    return ()
  else match deck.publicationOf row.id with
    | none => return ()
    | some publication =>
      let _ ← redispatch w deck row publication .engine true token
      return ()

/-! ## The worker -/

/-- `_engine_held_step` -/
def engineHeldStep (w : World) (deck : Deck) (execution token : Uuid) : Tx String := do
  let policy ← lockPolicy
  let row ← lockExecution execution
  let insertion := deck.insertionOf row
  let stale := row.policyGeneration ≠ policy.generation ∨ gateOpen deck policy = false
  if row.state.isEngineHeld = false then return row.state.value
  else if stale ∧ (row.state = .accepted ∨ insertion = none) then
    let _ ← suppressPlayout w row .worker
    return "suppressed"
  else match insertion with
    | none =>
      if sentWithin w.now row then return "in_flight"
      else match deck.publicationOf row.id with
        | none => return row.state.value
        | some publication =>
          let sent ← redispatch w deck row publication .worker true token
          return if sent.isSome then "resent" else "failed"
    | some insertion =>
      if row.state = .accepted ∧ insertion.logItem = none then
        playoutEvent "not_aired" row .worker "" "" (.obj [("stage", .str "log_item_deleted"),
          ("log_item", .int insertion.logItemSnapshot), ("attempt", .str row.attemptText)])
        let sent ← redispatch w deck row insertion.publication .worker true token
        return if sent.isSome then "resent" else "failed"
      else return row.state.value

/-- `PUBLICATION_PERMANENT` -/
def publicationPermanent : List String := ["aggregate_unavailable", "destination_conflict"]

/-- `_publication_step` after a publication that failed for good. -/
def failPublication (w : World) (execution : Uuid) (code detail : String) : Tx Unit := do
  let row ← lockExecution execution
  if code ∈ publicationPermanent ∧ row.state = .ready then
    let _ ← failPlayout w row code detail .worker
    return ()
  else return ()

def recordPublicationRetry (execution : Uuid) (code detail : String) : Tx Bool := do
  let row ← lockExecution execution
  if row.state ≠ .ready then return false
  else
    playoutEvent "publication_retry" row .worker "" ""
      (.obj [("code", .str (String.ofList (code.toList.take 64))),
        ("detail", .str (boundedDetail detail))])
    return true

end IsadoraAir.ActiveMessages
