import IsadoraAir.Foundation.Routine
import IsadoraAir.UpdateJob.JobStore

/-!
# What an execution reads and does

An execution is a routine of actions on the job store, the database, the live
checkout and the host. What the outside decides about an action is its answer;
the effects on production are kept in the order in which they happened.
-/

namespace IsadoraAir.UpdateJob

open Releases (TrustedPlan)

/-- How an exception leaves a call: an `ExecutionError`, one of the other errors that
`execute` catches, or one that it does not. -/
inductive Failure where
  | execution (classification : String) (manual : Bool)
  | safe (alwaysManual : Bool)
  | unexpected
  deriving DecidableEq

/-- What a migration probe reports, as far as it is read. -/
structure Payload where
  plan : List MigrationRef
  nodes : Dict MigrationRef (List MigrationRef)
  applied : List MigrationRef
  conflicts : Bool
  replacements : Bool
  manifestSha256 : Option String
  migrationPlanDigest : Option String
  manualOperations : List String
  recoveryPlan : Option (List MigrationRef)
  recoveryMigrationPlanDigest : Option String
  recoveryManualOperations : List String

/-- Nothing is left to migrate, and nothing is in the way. -/
def Payload.clean (payload : Payload) : Bool :=
  !payload.conflicts && !payload.replacements && payload.plan.isEmpty

/-- The identity that the supervisor reports. -/
structure RuntimeState where
  activeSlot : String
  activeGeneration : ℕ
  activeDescriptorSha256 : String
  activationInFlight : Bool
  deriving DecidableEq

/-- What a job does to production. -/
inductive EffectKind where
  | migrate (migration : MigrationRef)
  | advance (commit : String)
  | collectstatic
  | reconcile
  | restart (service : String)
  deriving DecidableEq

/-- An effect, with whether it succeeded, the execution that it belongs to, and the live
commit and the milestones at its moment. -/
structure Effect where
  jobId : JobId
  kind : EffectKind
  ok : Bool
  execution : ℕ
  head : String
  milestones : List Milestone

/-- A guarded command; it runs in a session of its own and outlives an execution that dies. -/
structure Command where
  request : GuardedApply
  outcome : Option GuardOutcome
  orphaned : Bool

/-- Everything that outlives an execution; executions are counted, and so are nonces. -/
structure World where
  store : JobStore
  database : Database
  commands : List Command
  head : String
  effects : List Effect
  executions : ℕ
  nextNonce : Nonce

inductive ProbeSource where
  | application
  | staged
  deriving DecidableEq

inductive Action where
  | load (job : JobId)
  | listStates
  | update (job : JobId) (change : Change)
  | milestone (job : JobId) (name : Milestone)
  | liveIdentity
  | fetch
  | probe (source : ProbeSource) (recoveryPlanRefs : List MigrationRef)
  | materialize (job : JobId) (commit : String)
  | cleanup (job : JobId)
  | preflights (pending : List MigrationRef)
  | authorize (manualOperations : List String)
  | verifyCheckpoint (checkpoint : Checkpoint)
  | createCheckpoint (job : JobId) (plan : TrustedPlan)
  | observeRecords (refs : List MigrationRef)
  | observeReceipt (nonce : Nonce)
  | uuid4
  | launchGuarded (request : GuardedApply)
  | awaitGuarded
  | appFetch
  | appTargetIsFastForward (plan : TrustedPlan)
  | merge (job : JobId) (commit : String)
  | collectstatic (job : JobId)
  | reconcile (job : JobId) (plan : TrustedPlan)
  | restart (job : JobId) (service : String)
  | postflightHttp
  | runtimeState
  | stageCandidate (job : JobId) (plan : TrustedPlan)
  | verifyCandidate (job : JobId) (plan : TrustedPlan)
  | requestActivation (job : JobId) (candidate : RuntimeCandidate)
  | confirmAcceptance (job : JobId) (candidate : RuntimeCandidate)
  | closeStore

/-- How the wait for a guarded command ends. -/
inductive CommandEnd where
  | killed
  | garbled
  | ended
  deriving DecidableEq

/-- What a guarded command reported to the execution that waited for it. -/
inductive GuardReport where
  | notOk
  | invalid
  | outcome (outcome : GuardOutcome)

/-- What an action returns when it raises nothing. -/
abbrev Action.Value : Action → Type
  | .load _ => JobState
  | .listStates => List JobState
  | .update .. | .milestone .. => Unit
  | .liveIdentity => String
  | .fetch => String
  | .probe .. => Payload
  | .materialize .. | .cleanup .. => Unit
  | .preflights _ => Unit
  | .authorize _ => AuthorizationSource
  | .verifyCheckpoint _ => Bool
  | .createCheckpoint .. => Checkpoint
  | .observeRecords _ => Dict MigrationRef Row
  | .observeReceipt _ => List Receipt
  | .uuid4 => Nonce
  | .launchGuarded _ => Unit
  | .awaitGuarded => GuardReport
  | .appFetch | .appTargetIsFastForward _ => Bool
  | .merge .. => Bool
  | .collectstatic _ | .reconcile .. | .restart .. | .postflightHttp => Unit
  | .runtimeState => RuntimeState
  | .stageCandidate .. => RuntimeCandidate
  | .verifyCandidate .. | .requestActivation .. => Unit
  -- whether the supervisor took the confirmation
  | .confirmAcceptance .. => Bool
  | .closeStore => Unit

abbrev Action.Result (a : Action) : Type := Except Failure a.Value

/-- How a durable write ends; it may raise although the record was replaced. -/
inductive Write where
  | done
  | refused (failure : Failure)
  | torn (failure : Failure)
  deriving DecidableEq

/-- How the fast-forward ends: what Git says, and whether the checkout moved. -/
structure Merge where
  ok : Bool
  moved : Bool
  deriving DecidableEq

/-- What the outside decides about an action. -/
abbrev Action.Answer : Action → Type
  | .load _ | .listStates | .liveIdentity | .observeRecords _ | .observeReceipt _ | .uuid4 =>
    Option Failure
  | .update .. | .milestone .. => Write
  | .launchGuarded _ => Option Failure
  | .awaitGuarded => CommandEnd
  | .merge .. => Merge
  | .collectstatic _ | .reconcile .. | .restart .. => Option Failure
  | a => Except Failure a.Value

def raiseOr {α : Type} (failure : Option Failure) (value : α) : Except Failure α :=
  failure.elim (.ok value) .error

namespace World

def stateOf (w : World) (job : JobId) : Option JobState := w.store.records.get? job

def milestonesOf (w : World) (job : JobId) : List Milestone :=
  (w.stateOf job).elim [] JobState.milestones

/-- A write of one record, as the disk takes it. -/
def writing (w : World) (answer : Write) (state : JobState) : Except Failure Unit × World :=
  match answer with
  | .done => (.ok (), { w with store := w.store.write state })
  | .refused failure => (.error failure, w)
  | .torn failure => (.error failure, { w with store := w.store.write state })

def effect (w : World) (job : JobId) (kind : EffectKind) (ok : Bool) : World :=
  { w with
    effects := w.effects ++ [⟨job, kind, ok, w.executions, w.head, w.milestonesOf job⟩] }

/-- The command that was started last. -/
def lastCommand (w : World) : Option Command := w.commands.getLast?

/-- A command that did not come to its end was killed. -/
def reportOf (outcome : Option GuardOutcome) (ending : CommandEnd) : GuardReport :=
  match ending, outcome with
  | .ended, some outcome => .outcome outcome
  | .garbled, some _ => .invalid
  | _, _ => .notOk

def perform (w : World) : (a : Action) → a.Answer → a.Result × World
  | .load job, failure =>
    match w.stateOf job with
    | some state => (raiseOr failure state, w)
    | none => (.error (.safe false), w)
  | .listStates, failure => (raiseOr failure w.store.listStates, w)
  | .update job change, answer =>
    match w.stateOf job with
    | none => (.error (.safe false), w)
    | some state =>
      if state.frozen change then (.error (.safe false), w)
      else w.writing answer (state.change change)
  | .milestone job name, answer =>
    match w.stateOf job with
    | none => (.error (.safe false), w)
    | some state => w.writing answer (state.addMilestone name)
  | .liveIdentity, failure => (raiseOr failure w.head, w)
  | .observeRecords refs, failure =>
    match w.database.observe refs with
    | some observed => (raiseOr failure observed, w)
    | none => (.error (failure.getD (.execution "MIGRATION_RECORD_AMBIGUOUS" true)), w)
  | .observeReceipt nonce, failure => (raiseOr failure (w.database.receiptsOf nonce), w)
  | .uuid4, failure => (raiseOr failure w.nextNonce, { w with nextNonce := w.nextNonce + 1 })
  | .launchGuarded request, failure =>
    match failure with
    | some failure => (.error failure, w)
    | none =>
      (.ok (), { w.effect request.jobId (.migrate request.migration) true with
        commands := w.commands ++ [⟨request, none, false⟩] })
  | .awaitGuarded, ending =>
    (.ok (reportOf (w.lastCommand.bind Command.outcome) ending),
      { w with commands := w.commands.dropLast })
  | .merge job commit, answer =>
    (.ok answer.ok,
      if answer.moved then { w.effect job (.advance commit) answer.ok with head := commit } else w)
  | .collectstatic job, failure => (raiseOr failure (), w.effect job .collectstatic failure.isNone)
  | .reconcile job _, failure => (raiseOr failure (), w.effect job .reconcile failure.isNone)
  | .restart job service, failure => (raiseOr failure (), w.effect job (.restart service) failure.isNone)
  | .fetch, answer => (answer, w)
  | .probe .., answer => (answer, w)
  | .materialize .., answer => (answer, w)
  | .cleanup .., answer => (answer, w)
  | .preflights _, answer => (answer, w)
  | .authorize _, answer => (answer, w)
  | .verifyCheckpoint _, answer => (answer, w)
  | .createCheckpoint .., answer => (answer, w)
  | .appFetch, answer => (answer, w)
  | .appTargetIsFastForward _, answer => (answer, w)
  | .postflightHttp, answer => (answer, w)
  | .runtimeState, answer => (answer, w)
  | .stageCandidate .., answer => (answer, w)
  | .verifyCandidate .., answer => (answer, w)
  | .requestActivation .., answer => (answer, w)
  | .confirmAcceptance .., answer => (answer, w)
  | .closeStore, answer => (answer, w)

end World

/-! ## Programs -/

abbrev Program (α : Type) := Routine Action.Result Failure α

/-- An action whose exception is raised. -/
def call (a : Action) : Program a.Value := do
  match ← (Routine.perform a : Program a.Result) with
  | .ok value => return value
  | .error failure => .raise failure

def raiseError {α : Type} (classification : String) (manual : Bool) : Program α :=
  .raise (.execution classification manual)

/-- Raise when a check fails. -/
def require (condition : Bool) (classification : String) (manual : Bool) : Program Unit :=
  if condition then return () else raiseError classification manual

end IsadoraAir.UpdateJob
