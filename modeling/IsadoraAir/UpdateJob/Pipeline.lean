import IsadoraAir.UpdateJob.Recovery

/-!
# The execution of a job

`execute` from its first read to its last write: the plan, the protected runtime,
the migrations, the source, and what follows it. Every step is an effect and then
its milestone; a later execution starts from the milestones that are there.
-/

namespace IsadoraAir.UpdateJob

open Releases (TrustedPlan ProtectedRuntimeTransition Repository derivePlan)

/-- What the supervisor told a candidate worker to be. -/
structure HandoffIdentity where
  generation : ℕ
  descriptorSha256 : String
  resumableJobUuid : JobId
  deriving DecidableEq

/-- What an executor is constructed with, besides the trusted repository. -/
structure Executor where
  knownUnits : List String
  supervisorConfigured : Bool
  expectedHandoff : Option HandoffIdentity

def recordMilestone (job : JobId) (name : Milestone) : Program Unit := call (.milestone job name)

/-! ## The plan -/

def manifestProtocolVersion : ℕ := 5

/-- `manual_blockers` -/
def manualBlockers (plan : TrustedPlan) (knownUnits : List String) : List String :=
  (if manifestProtocolVersion < plan.minimumUpdaterProtocolVersion then
    ["UPDATER_UPGRADE_REQUIRED"] else []) ++
  (if plan.manualBootstrapRequired then ["MANUAL_BOOTSTRAP_REQUIRED"] else []) ++
  (if plan.pythonRequirementsChanged then ["PYTHON_REQUIREMENTS_MANUAL"] else []) ++
  (if plan.aptPackagesNew ≠ [] then ["APT_PACKAGES_MANUAL"] else []) ++
  (if plan.migrationCompatibility = some "destructive" then ["DESTRUCTIVE_MIGRATION_MANUAL"]
    else []) ++
  (if plan.systemdUnitsRemovedOrRenamed ≠ [] then ["SYSTEMD_REMOVAL_MANUAL"] else []) ++
  (if plan.protectedRuntimeTransition = none ∧
      ¬ plan.systemdUnitsChanged ++ plan.systemdUnitsNewRequired ⊆ knownUnits then
    ["UNKNOWN_MANAGED_UNIT"] else []) ++
  (if plan.nginxChanged then ["NGINX_CHANGE_MANUAL"] else []) ++
  (if plan.runtimeComponentsChanged then ["RUNTIME_COMPONENT_CHANGE_MANUAL"] else [])

/-- The plan that an execution works on. -/
structure Derived where
  plan : TrustedPlan
  sourceAlreadyAtTarget : Bool

/-- The live source is where the recorded plan leads, and the database is ready for it. -/
def sourceAlreadyAtTarget (state : JobState) (head : String) : Bool :=
  decide (Milestone.databaseVerified ∈ state.milestones) &&
    state.trustedPlan.any fun previous => head = previous.targetCommit

/-- The commit that the plan is derived from. -/
def basisHead (state : JobState) (head : String) : String :=
  match state.trustedPlan with
  | none => head
  | some previous =>
    if Milestone.sourceAdvanced ∈ state.milestones ∨ sourceAlreadyAtTarget state head then
      previous.installedCommit
    else head

def derive (repository : Repository) (ex : Executor) (job : JobId) (state : JobState) :
    Program Derived := do
  let head ← call .liveIdentity
  let trustedTip ← call .fetch
  recordMilestone job .trustedSourceFetched
  match derivePlan repository trustedTip (basisHead state head)
      state.requestedTargetReleaseId with
  | .error _ => .raise (.safe false)
  | .ok plan =>
    require (plan.fingerprint = state.expectedPlanFingerprint) "PLAN_FINGERPRINT_MISMATCH" false
    require (manualBlockers plan ex.knownUnits = []) "MANUAL_PREREQUISITE" true
    call (.update job (.trustedPlan plan))
    recordMilestone job .trustedPlanValidated
    return ⟨plan, sourceAlreadyAtTarget state head⟩

/-! ## The protected runtime -/

/-- `mutation_gate_satisfied` -/
def mutationGateSatisfied (milestones : List Milestone) : Bool :=
  decide (Milestone.runtimeActivationAccepted ∈ milestones) ||
    decide (Milestone.runtimeAlreadyAuthoritative ∈ milestones)

/-- `_require_mutation_allowed` -/
def requireMutationAllowed (plan : TrustedPlan) (milestones : List Milestone) : Program Unit :=
  require (plan.protectedRuntimeTransition.isNone || mutationGateSatisfied milestones)
    "RUNTIME_ACTIVATION_NOT_ACCEPTED" true

def alreadyAuthoritativeRecord (plan : TrustedPlan) (transition : ProtectedRuntimeTransition)
    (activeSlot : String) : RuntimeSatisfaction where
  generation := transition.field.generation
  descriptorSha256 := transition.field.descriptorSha256
  activeSlot := activeSlot
  introducingReleaseId := transition.releaseId
  introducingCommit := transition.commit
  targetReleaseId := plan.targetReleaseId
  targetCommit := plan.targetCommit
  trustedPlanFingerprint := plan.fingerprint

/-- The supervisor runs exactly the generation of the transition. -/
def RuntimeState.matches (runtime : RuntimeState) (transition : ProtectedRuntimeTransition) :
    Bool :=
  runtime.activeGeneration = transition.field.generation &&
    runtime.activeDescriptorSha256 = transition.field.descriptorSha256

/-- `_validate_already_authoritative_satisfaction` -/
def validateAlreadyAuthoritativeSatisfaction (job : JobId) (plan : TrustedPlan)
    (transition : ProtectedRuntimeTransition) : Program Unit := do
  let state ← call (.load job)
  let runtime ← call .runtimeState
  require (runtime.matches transition && !runtime.activationInFlight &&
      state.runtimeSatisfaction =
        some (alreadyAuthoritativeRecord plan transition runtime.activeSlot))
    "RUNTIME_AUTHORITY_EVIDENCE_MISMATCH" true

/-- A milestone that is recorded only once. -/
def ensureMilestone (job : JobId) (milestones : List Milestone) (name : Milestone) :
    Program Unit :=
  if name ∈ milestones then return () else recordMilestone job name

/-- The exact runtime is active already: the job records that instead of a handoff. -/
def recordAlreadyAuthoritative (job : JobId) (plan : TrustedPlan)
    (transition : ProtectedRuntimeTransition) (runtime : RuntimeState)
    (milestones : List Milestone) : Program Unit := do
  let state ← call (.load job)
  require (!decide (Milestone.runtimeCandidateStaged ∈ milestones) &&
      !decide (Milestone.runtimeCandidateVerified ∈ milestones) &&
      !decide (Milestone.runtimeActivationRequested ∈ milestones) &&
      state.runtimeCandidate.isNone)
    "RUNTIME_HANDOFF_STATE_AMBIGUOUS" true
  call (.update job
    (.runtimeSatisfaction (alreadyAuthoritativeRecord plan transition runtime.activeSlot)))
  ensureMilestone job milestones .runtimeAlreadyAuthoritative

/-- `_execute_runtime_handoff`, and whether it yielded. -/
def executeRuntimeHandoff (job : JobId) (plan : TrustedPlan)
    (transition : ProtectedRuntimeTransition) (milestones : List Milestone) : Program Bool := do
  ensureMilestone job milestones .runtimeDescriptorValidated
  let runtime ← call .runtimeState
  require (!runtime.activationInFlight) "PROTECTED_RUNTIME_ACTIVATION_IN_FLIGHT" true
  if runtime.matches transition then
    recordAlreadyAuthoritative job plan transition runtime milestones
    return false
  else
    require (decide (runtime.activeGeneration < transition.field.generation))
      "PROTECTED_RUNTIME_REPLAY_OR_ROLLBACK" true
    if Milestone.runtimeCandidateStaged ∉ milestones then
      let candidate ← call (.stageCandidate job plan)
      call (.update job (.runtimeCandidate candidate))
      recordMilestone job .runtimeCandidateStaged
    if Milestone.runtimeCandidateVerified ∉ milestones then
      call (.verifyCandidate job plan)
      recordMilestone job .runtimeCandidateVerified
    if Milestone.runtimeActivationRequested ∉ milestones then
      let state ← call (.load job)
      match state.runtimeCandidate with
      | none => .raise .unexpected
      | some candidate =>
        let _ ← call .runtimeState
        call (.requestActivation job candidate)
        recordMilestone job .runtimeActivationRequested
    call .closeStore
    return true

/-- `_is_authorized_candidate_for` -/
def Executor.isAuthorizedCandidateFor (ex : Executor) (job : JobId)
    (transition : ProtectedRuntimeTransition) : Bool :=
  ex.expectedHandoff = some
    ⟨transition.field.generation, transition.field.descriptorSha256, job⟩

/-- `_accept_runtime_as_candidate`; the confirmation may fail. -/
def acceptRuntimeAsCandidate (job : JobId) (transition : ProtectedRuntimeTransition) :
    Program Unit := do
  let state ← call (.load job)
  match state.runtimeCandidate with
  | none => raiseError "CANDIDATE_IDENTITY_MISMATCH" true
  | some candidate =>
    require (candidate.generation = transition.field.generation &&
        candidate.descriptorSha256 = transition.field.descriptorSha256)
      "CANDIDATE_IDENTITY_MISMATCH" true
    ensureMilestone job state.milestones .runtimeActivationAccepted
    let _ ← call (.confirmAcceptance job candidate)

/-- The three-way branch of a plan that crosses a protected runtime. The milestones are
those that the execution goes on with; there are none when it leaves the job to another. -/
def runtimeGate (ex : Executor) (job : JobId) (plan : TrustedPlan)
    (milestones : List Milestone) : Program (Option (List Milestone)) :=
  match plan.protectedRuntimeTransition with
  | none => return some milestones
  | some transition => do
    require ex.supervisorConfigured "UNBOOTSTRAPPED_SUPERVISOR" true
    if Milestone.runtimeAlreadyAuthoritative ∈ milestones then
      validateAlreadyAuthoritativeSatisfaction job plan transition
    if mutationGateSatisfied milestones then return some milestones
    else if Milestone.runtimeActivationRequested ∈ milestones then
      if ex.isAuthorizedCandidateFor job transition then
        acceptRuntimeAsCandidate job transition
        return some (← call (.load job)).milestones
      else return none
    else if ← executeRuntimeHandoff job plan transition milestones then return none
    else return some (← call (.load job)).milestones

/-! ## The target -/

/-- What is known of the target before anything is migrated. -/
structure Target where
  payload : Payload
  recovery : Option Evidence
  actualMigrations : List MigrationRef
  authorizationSource : AuthorizationSource

/-- `_validate_current_schema`; an advanced source is not probed. -/
def validateCurrentSchema (milestones : List Milestone) : Program (Option Payload) :=
  if Milestone.sourceAdvanced ∈ milestones then return none
  else do
    let payload ← call (.probe .application [])
    require payload.clean "CURRENT_SCHEMA_UNHEALTHY" false
    return some payload

def validateTarget (job : JobId) (plan : TrustedPlan) (milestones : List Milestone) :
    Program Target := do
  let current ← validateCurrentSchema milestones
  recordMilestone job .currentSchemaValidated
  call (.materialize job plan.targetCommit)
  recordMilestone job .targetStaged
  let payload ← call (.probe .staged [])
  let recovery ← findPartialRecovery plan payload current
  let payload ← match recovery with
    | none => pure payload
    | some recovery => call (.probe .staged recovery.orderedTargetPlan)
  let (actualMigrations, source) ← validateTargetSchema plan payload current
    (decide (Milestone.migrationStarted ∈ milestones)) recovery
  recordMilestone job .targetSchemaValidated
  return ⟨payload, recovery, actualMigrations, source⟩

/-! ## The migrations -/

/-- How a refusal of the guarded command is classified. -/
def Refusal.failure : Refusal → Failure
  | .lockTimeout | .deadlockVictim => .execution "MIGRATION_LOCK_TIMEOUT" false
  | .nonAtomicUnsupported => .execution "NON_ATOMIC_MIGRATION_UNSUPPORTED" true
  | _ => .execution "TARGET_MIGRATION_PREAPPLIED" true

/-- `_apply_migration_guarded` -/
def applyMigrationGuarded (request : GuardedApply) : Program Row := do
  call (.launchGuarded request)
  match ← call .awaitGuarded with
  | .notOk => raiseError "MIGRATION_FAILED" true
  | .invalid => raiseError "MIGRATION_GUARD_INVALID" true
  | .outcome .raised => raiseError "MIGRATION_FAILED" true
  | .outcome (.refused reason) => .raise reason.failure
  | .outcome (.applied row) => return row

/-- The `--owned` arguments. -/
def Evidence.owned (e : Evidence) : List (MigrationRef × Row) :=
  e.orderedTargetPlan.filterMap fun ref => (e.prefixRecords.get? ref).map fun row => (ref, row)

/-- The migration `ref` is about to be applied. -/
def Evidence.starting (e : Evidence) (ref : MigrationRef) (nonce : Nonce) : Evidence :=
  { e with inFlight := some ⟨ref, nonce⟩ }

/-- The migration `ref` was applied as `row`. -/
def Evidence.extend (e : Evidence) (ref : MigrationRef) (row : Row) : Evidence :=
  { e with
    successfulPrefix := e.successfulPrefix ++ [ref]
    prefixRecords := e.prefixRecords.insert ref row
    inFlight := none }

/-- What is observed after the command, before its migration is owned. -/
def confirmApplied (job : JobId) (e : Evidence) (ref : MigrationRef) (nonce : Nonce) (row : Row) :
    Program Unit := do
  let observed ← call (.observeRecords e.orderedTargetPlan)
  require (contiguousPrefix e.orderedTargetPlan observed.keys = e.successfulPrefix ++ [ref] &&
    sameRefs observed.keys (e.successfulPrefix ++ [ref])) "MIGRATION_STATE_DRIFT" true
  require (!rowsChanged observed e.prefixRecords e.successfulPrefix) "MIGRATION_STATE_DRIFT" true
  require (observed.get? ref = some row) "MIGRATION_STATE_DRIFT" true
  require (← receiptProves nonce job ref row) "MIGRATION_STATE_DRIFT" true

/-- The loop over the migrations that are left. -/
def migrateEach (job : JobId) : List MigrationRef → Evidence → Program Evidence
  | [], e => return e
  | ref :: rest, e => do
    let nonce ← call .uuid4
    call (.update job (.migrationRecovery (e.starting ref nonce)))
    let row ← applyMigrationGuarded ⟨job, nonce, ref, e.orderedTargetPlan, e.owned⟩
    confirmApplied job e ref nonce row
    call (.update job (.migrationRecovery (e.extend ref row)))
    migrateEach job rest (e.extend ref row)

/-- A checkpoint that verifies: the recorded one, or a new one. -/
def usableCheckpoint (job : JobId) (plan : TrustedPlan) (recorded : Option Checkpoint) :
    Program Checkpoint :=
  match recorded with
  | none => call (.createCheckpoint job plan)
  | some checkpoint => do
    if ← call (.verifyCheckpoint checkpoint) then return checkpoint
    else call (.createCheckpoint job plan)

/-- `recovery_record`: a continuation takes over the plan and the prefix of the evidence. -/
def newEvidence (job : JobId) (plan : TrustedPlan) (target : Target) (checkpoint : Checkpoint) :
    Evidence where
  evidenceJobId := job
  continuedFromJobId := target.recovery.map Evidence.evidenceJobId
  releaseId := plan.targetReleaseId
  targetCommit := plan.targetCommit
  manifestSha256 := target.payload.manifestSha256
  migrationPlanDigest :=
    match target.recovery with
    | some _ => target.payload.recoveryMigrationPlanDigest
    | none => target.payload.migrationPlanDigest
  trustedPlanFingerprint := plan.fingerprint
  orderedTargetPlan := target.recovery.elim target.payload.plan Evidence.orderedTargetPlan
  successfulPrefix := target.recovery.elim [] Evidence.successfulPrefix
  prefixRecords := target.recovery.elim Dict.empty Evidence.prefixRecords
  inFlight := none
  checkpoint := checkpoint
  failureClassification := ""
  authorizationSource := target.authorizationSource
  finalized := false

/-- `full_plan[len(successful_prefix)]` names the first migration that is left. -/
def Evidence.hasRemaining (e : Evidence) : Bool :=
  decide (e.successfulPrefix.length < e.orderedTargetPlan.length)

/-- The branch with migrations to run. -/
def migrate (job : JobId) (state : JobState) (plan : TrustedPlan) (milestones : List Milestone)
    (target : Target) : Program Unit := do
  call (.preflights target.actualMigrations)
  recordMilestone job .migrationPreflightPassed
  requireMutationAllowed plan milestones
  let checkpoint ← usableCheckpoint job plan
    (target.recovery.elim state.checkpoint fun recovery => some recovery.checkpoint)
  call (.update job (.checkpoint checkpoint))
  recordMilestone job .checkpointCreated
  let e := newEvidence job plan target checkpoint
  if !e.hasRemaining then .raise .unexpected
  else
    match target.recovery with
    | none => pure ()
    | some recovery => assertOwnedPrefix recovery
    call (.update job (.migrationRecovery e))
    recordMilestone job .migrationStarted
    let e ← migrateEach job target.actualMigrations e
    let verified ← call (.probe .staged [])
    require verified.clean "MIGRATION_VERIFY_FAILED" true
    call (.update job (.migrationRecovery { e with finalized := true }))

/-- The branch of a prefix that is complete already. -/
def verifyCompletePrefix (recovery : Evidence) : Program Unit := do
  let verified ← call (.probe .staged [])
  require verified.clean "MIGRATION_VERIFY_FAILED" true
  assertOwnedPrefix recovery

def reachDatabaseVerified (job : JobId) (state : JobState) (plan : TrustedPlan)
    (milestones : List Milestone) (target : Target) : Program Unit := do
  if Milestone.databaseVerified ∈ milestones then pure ()
  else if target.actualMigrations ≠ [] then migrate job state plan milestones target
  else
    match target.recovery with
    | none => pure ()
    | some recovery => verifyCompletePrefix recovery
  recordMilestone job .databaseVerified

/-! ## The source and what follows it -/

/-- `_advance_source` -/
def advanceSource (job : JobId) (plan : TrustedPlan) : Program Unit := do
  let before ← call .liveIdentity
  require (before = plan.installedCommit) "LIVE_CHECKOUT_CHANGED" false
  require (← call .appFetch) "LIVE_FETCH_FAILED" false
  require (← call (.appTargetIsFastForward plan)) "LIVE_TARGET_NOT_FAST_FORWARD" false
  require (← call (.merge job plan.targetCommit)) "LIVE_SOURCE_ADVANCE_FAILED" true
  let head ← call .liveIdentity
  require (head = plan.targetCommit) "LIVE_SOURCE_VERIFY_FAILED" true

def reachSourceAdvanced (job : JobId) (derived : Derived) (milestones : List Milestone) :
    Program Unit := do
  if Milestone.sourceAdvanced ∈ milestones then
    let head ← call .liveIdentity
    require (head = derived.plan.targetCommit) "LIVE_SOURCE_VERIFY_FAILED" true
  else if derived.sourceAlreadyAtTarget then pure ()
  else
    requireMutationAllowed derived.plan milestones
    advanceSource job derived.plan
  recordMilestone job .sourceAdvanced

def reachStaticCollected (job : JobId) (plan : TrustedPlan) (milestones : List Milestone) :
    Program Unit := do
  if plan.collectstaticRequired ∧ Milestone.staticCollected ∉ milestones then
    requireMutationAllowed plan milestones
    call (.collectstatic job)
  recordMilestone job .staticCollected

def reachSystemdReconciled (job : JobId) (plan : TrustedPlan) (milestones : List Milestone) :
    Program Unit := do
  if Milestone.systemdReconciled ∉ milestones then
    requireMutationAllowed plan milestones
    call (.reconcile job plan)
  recordMilestone job .systemdReconciled

/-- The loop over the services; the markers are also kept in memory. -/
def restartEach (job : JobId) : List String → List Milestone → Program Unit
  | [], _ => return ()
  | service :: rest, milestones =>
    if Milestone.serviceRestarted (slug service) ∈ milestones then restartEach job rest milestones
    else if Milestone.serviceRestartStarted (slug service) ∈ milestones then
      raiseError "AMBIGUOUS_INTERRUPTED_SERVICE_RESTART" true
    else do
      recordMilestone job (.serviceRestartStarted (slug service))
      call (.restart job service)
      recordMilestone job (.serviceRestarted (slug service))
      restartEach job rest (milestones ++
        [.serviceRestartStarted (slug service), .serviceRestarted (slug service)])

def reachServicesRestarted (job : JobId) (plan : TrustedPlan) (milestones : List Milestone) :
    Program Unit := do
  if Milestone.servicesRestarted ∉ milestones then
    requireMutationAllowed plan milestones
    restartEach job plan.servicesRequiringRestart milestones
  recordMilestone job .servicesRestarted

/-- `cleanup_staging` -/
def cleanupStaging (job : JobId) : Program Unit := do
  match ← ((call (.cleanup job)).attempt : Program (Except Failure Unit)) with
  | .ok _ => return ()
  | .error (.safe _) => return ()
  | .error failure => .raise failure

def postflight (job : JobId) (plan : TrustedPlan) : Program Unit := do
  let head ← call .liveIdentity
  require (head = plan.targetCommit) "POSTFLIGHT_SOURCE_FAILED" true
  let schema ← call (.probe .application [])
  require schema.clean "POSTFLIGHT_SCHEMA_FAILED" true
  if "isadoraair-gunicorn" ∈ plan.servicesRequiringRestart then call .postflightHttp
  recordMilestone job .postflightComplete
  cleanupStaging job
  recordMilestone job .stagingCleaned
  call (.update job .succeeded)

/-! ## `execute` -/

/-- What is done once mutation is allowed. -/
def mutationPipeline (job : JobId) (state : JobState) (derived : Derived)
    (milestones : List Milestone) : Program Unit := do
  requireMutationAllowed derived.plan milestones
  let target ← validateTarget job derived.plan milestones
  reachDatabaseVerified job state derived.plan milestones target
  reachSourceAdvanced job derived milestones
  reachStaticCollected job derived.plan milestones
  reachSystemdReconciled job derived.plan milestones
  reachServicesRestarted job derived.plan milestones
  postflight job derived.plan

/-- The body of the `try`; a job that is left to another worker is returned as it is. -/
def attemptExecution (repository : Repository) (ex : Executor) (job : JobId)
    (state : JobState) : Program (Option JobState) := do
  let derived ← derive repository ex job state
  match ← runtimeGate ex job derived.plan state.milestones with
  | none => return some (← call (.load job))
  | some milestones =>
    mutationPipeline job state derived milestones
    return none

def failJob (job : JobId) (classification : String) (manual : Bool) : Program Unit :=
  call (.update job (.failed classification manual))

/-- The handlers of the `try`. -/
def handleFailure (job : JobId) : Failure → Program Unit
  | .execution classification manual => do
    cleanupStaging job
    finalizeRecoveryFromObservation job classification
    failJob job classification manual
  | .safe alwaysManual => do
    cleanupStaging job
    let current ← call (.load job)
    if Milestone.migrationStarted ∈ current.milestones then
      finalizeRecoveryFromObservation job "SAFE_EXECUTION_FAILURE"
    let crossed := decide (Milestone.migrationStarted ∈ current.milestones) ||
      decide (Milestone.databaseVerified ∈ current.milestones) ||
      decide (Milestone.sourceAdvanced ∈ current.milestones)
    failJob job "SAFE_EXECUTION_FAILURE" (crossed || alwaysManual)
  | .unexpected => .raise .unexpected

/-- The worker died between the start of a migration and the verification. -/
def interruptedMigration (milestones : List Milestone) : Bool :=
  decide (Milestone.migrationStarted ∈ milestones) &&
    !decide (Milestone.databaseVerified ∈ milestones)

def execute (repository : Repository) (ex : Executor) (job : JobId) :
    Program (Option JobState) := do
  let state ← call (.load job)
  if state.status.terminal then return none
  else if interruptedMigration state.milestones then
    finalizeRecoveryFromObservation job "AMBIGUOUS_INTERRUPTED_MIGRATION"
    failJob job "AMBIGUOUS_INTERRUPTED_MIGRATION" true
    return none
  else
    call (.update job .running)
    match ← (attemptExecution repository ex job state).attempt with
    | .ok result => return result
    | .error failure =>
      handleFailure job failure
      return none

/-- `_run_worker` -/
def runWorker (repository : Repository) (ex : Executor) (job : JobId) :
    Program (Option JobState) := do
  match ← (execute repository ex job).attempt with
  | .ok result => return result
  | .error _ =>
    let _ ← ((failJob job "UNEXPECTED_EXECUTOR_FAILURE" true).attempt :
      Program (Except Failure Unit))
    return none

end IsadoraAir.UpdateJob
