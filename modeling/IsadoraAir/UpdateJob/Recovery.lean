import IsadoraAir.UpdateJob.World

/-!
# Recovery evidence

What an interrupted job is known to have applied is decided by the recorder and
the receipts. A later job for the same release continues from the evidence that
is exactly what is applied now.
-/

namespace IsadoraAir.UpdateJob

open Releases (TrustedPlan)

/-- `set(xs) == set(ys)` -/
def sameRefs (xs ys : List MigrationRef) : Bool := decide (xs ⊆ ys) && decide (ys ⊆ xs)

/-- `_contiguous_prefix` -/
def contiguousPrefix (ordered present : List MigrationRef) : List MigrationRef :=
  ordered.takeWhile fun ref => ref ∈ present

def rowsChanged (observed records : Dict MigrationRef Row) (refs : List MigrationRef) : Bool :=
  refs.any fun ref => observed.get? ref ≠ records.get? ref

/-- `{ref: observed[ref] for ref in refs}` -/
def rowsOf (observed : Dict MigrationRef Row) (refs : List MigrationRef) : Dict MigrationRef Row :=
  Dict.ofList (refs.filterMap fun ref => (observed.get? ref).map fun row => (ref, row))

/-! ## The dependency closure -/

/-- `visit`; the refs being visited are distinct nodes, which bounds the depth. -/
def visit (nodes : Dict MigrationRef (List MigrationRef)) :
    ℕ → List MigrationRef → MigrationRef → List MigrationRef →
      Except Failure (List MigrationRef)
  | 0, _, _, _ => .error (.execution "TARGET_MIGRATION_CONFLICT" false)
  | depth + 1, visiting, ref, closure =>
    if ref ∈ visiting then .error (.execution "TARGET_MIGRATION_CONFLICT" false)
    else if ref ∈ closure then .ok closure
    else do
      let closure ← ((nodes.get? ref).getD []).foldlM
        (fun closure dependency =>
          if dependency ∉ nodes.keys then .error (.execution "TARGET_MIGRATION_MISMATCH" false)
          else visit nodes depth (ref :: visiting) dependency closure)
        closure
      .ok (closure ++ [ref])

/-- `_dependency_closure` -/
def dependencyClosure (nodes : Dict MigrationRef (List MigrationRef))
    (expected : List MigrationRef) : Except Failure (List MigrationRef) :=
  if ¬ expected ⊆ nodes.keys then .error (.execution "TARGET_MIGRATION_MISMATCH" false)
  else expected.foldlM (fun closure ref => visit nodes (nodes.keys.length + 1) [] ref closure) []

def ofExcept {α : Type} : Except Failure α → Program α
  | .ok value => return value
  | .error failure => .raise failure

/-! ## Ownership -/

/-- `_assert_exact_prefix` -/
def assertExactPrefix (ordered owned : List MigrationRef) (records : Dict MigrationRef Row) :
    Program Unit := do
  let observed ← call (.observeRecords ordered)
  require (sameRefs observed.keys owned) "TARGET_MIGRATION_PREAPPLIED" true
  require (!rowsChanged observed records owned) "TARGET_MIGRATION_PREAPPLIED" true

/-- `_assert_owned_prefix` -/
def assertOwnedPrefix (recovery : Evidence) : Program Unit :=
  assertExactPrefix recovery.orderedTargetPlan recovery.successfulPrefix recovery.prefixRecords

/-- `_receipt_proves` -/
def receiptProves (nonce : Nonce) (jobId : JobId) (migration : MigrationRef) (row : Row) :
    Program Bool := do
  let receipts ← call (.observeReceipt nonce)
  return receipts = [⟨nonce, jobId, migration, row⟩]

/-- The evidence is about the transition of the job's own plan. -/
def Evidence.fits (e : Evidence) (plan : TrustedPlan) : Bool :=
  e.releaseId = plan.targetReleaseId && e.targetCommit = plan.targetCommit &&
    e.trustedPlanFingerprint = plan.fingerprint &&
    e.checkpoint.targetReleaseId = plan.targetReleaseId &&
    e.checkpoint.targetCommit = plan.targetCommit &&
    e.checkpoint.installedReleaseId = plan.installedReleaseId &&
    e.checkpoint.installedCommit = plan.installedCommit

/-- The plan, the prefix, its records and the migration in flight belong together. -/
def Evidence.wellFormed (e : Evidence) : Bool :=
  e.manifestSha256.isSome && e.migrationPlanDigest.isSome &&
    !e.orderedTargetPlan.isEmpty && decide e.orderedTargetPlan.Nodup &&
    e.successfulPrefix = e.orderedTargetPlan.take e.successfulPrefix.length &&
    e.inFlight.all (fun inFlight =>
      e.orderedTargetPlan[e.successfulPrefix.length]? = some inFlight.migration) &&
    sameRefs e.prefixRecords.keys e.successfulPrefix

/-- `_recovery_evidence_problem` -/
def recoveryEvidenceProblem (state : JobState) (e : Evidence) : Program Bool :=
  if !(e.evidenceJobId = state.jobId && state.trustedPlan.any e.fits && e.wellFormed) then
    return true
  else do
    let verified ← call (.verifyCheckpoint e.checkpoint)
    return !verified

/-! ## Finalization -/

/-- The number of `OBSERVATION_READINESS_DELAYS`. -/
def observationReadinessDelays : ℕ := 6

/-- `_observe_migration_records_when_ready` -/
def observeRecordsWhenReady (refs : List MigrationRef) : ℕ → Program (Dict MigrationRef Row)
  | 0 => call (.observeRecords refs)
  | delays + 1 => do
    match ← (call (.observeRecords refs)).attempt with
    | .ok observed => return observed
    | .error failure =>
      if failure = .execution "MIGRATION_OBSERVATION_FAILED" true then
        observeRecordsWhenReady refs delays
      else .raise failure

/-- The migration in flight may be claimed with the receipt of its own nonce. -/
def claimable (e : Evidence) (observed : Dict MigrationRef Row) : Program Bool :=
  match e.inFlight with
  | none => return false
  | some inFlight =>
    match observed.get? inFlight.migration with
    | none => return false
    | some row => receiptProves inFlight.nonce e.evidenceJobId inFlight.migration row

/-- `recorded`, or it with the migration in flight. -/
def Evidence.allows (e : Evidence) (claimed : Bool) (applied : List MigrationRef) : Bool :=
  applied = e.successfulPrefix ||
    claimed && e.inFlight.any fun inFlight =>
      applied = e.successfulPrefix ++ [inFlight.migration]

def Evidence.finalize (e : Evidence) (applied : List MigrationRef)
    (observed : Dict MigrationRef Row) (classification : String) : Evidence :=
  { e with
    successfulPrefix := applied
    prefixRecords := rowsOf observed applied
    inFlight := none
    failureClassification := classification
    finalized := true }

/-- What `_finalize_recovery_from_observation` tries. -/
def finalizeFromObservation (job : JobId) (classification : String) : Program Unit := do
  let state ← call (.load job)
  match state.migrationRecovery with
  | none => return ()
  | some e =>
    if e.finalized then return ()
    else if ← recoveryEvidenceProblem state e then return ()
    else
      let observed ← observeRecordsWhenReady e.orderedTargetPlan observationReadinessDelays
      let applied := contiguousPrefix e.orderedTargetPlan observed.keys
      if !sameRefs observed.keys applied then return ()
      else
        let claimed ← claimable e observed
        if !e.allows claimed applied then return ()
        else if rowsChanged observed e.prefixRecords e.successfulPrefix then return ()
        else if applied = [] then return ()
        else call (.update job (.migrationRecovery (e.finalize applied observed classification)))

/-- `_finalize_recovery_from_observation` never raises. -/
def finalizeRecoveryFromObservation (job : JobId) (classification : String) : Program Unit := do
  let _ ← ((finalizeFromObservation job classification).attempt : Program (Except Failure Unit))
  return ()

/-! ## Continuation -/

/-- A failed job of this release whose evidence may still be finalized. -/
def JobState.awaitsFinalization (state : JobState) (plan : TrustedPlan) : Bool :=
  (state.status = .failed || state.status = .manualInterventionRequired) &&
    decide (Milestone.migrationStarted ∈ state.milestones) &&
    state.migrationRecovery.any fun e =>
      !e.finalized && e.releaseId = plan.targetReleaseId && e.targetCommit = plan.targetCommit &&
        e.trustedPlanFingerprint = plan.fingerprint

def finalizeEach (plan : TrustedPlan) : List JobState → Program Unit
  | [] => return ()
  | state :: rest => do
    if state.awaitsFinalization plan then
      finalizeRecoveryFromObservation state.jobId
        (if state.failureClassification = "" then "INTERRUPTED" else state.failureClassification)
    finalizeEach plan rest

/-- The evidence is about this transition, and its prefix is what is applied. -/
def Evidence.continues (e : Evidence) (plan : TrustedPlan) (payload : Payload)
    (transition applied : List MigrationRef) : Bool :=
  !e.successfulPrefix.isEmpty && e.releaseId = plan.targetReleaseId &&
    e.targetCommit = plan.targetCommit && e.manifestSha256 = payload.manifestSha256 &&
    e.trustedPlanFingerprint = plan.fingerprint &&
    e.checkpoint.installedReleaseId = plan.installedReleaseId &&
    e.checkpoint.installedCommit = plan.installedCommit &&
    sameRefs e.orderedTargetPlan transition && sameRefs e.successfulPrefix applied

/-- The loop that collects `candidates`, each with its `updated_at`. -/
def candidatesAmong (plan : TrustedPlan) (payload : Payload)
    (transition applied : List MigrationRef) : List JobState → Program (List (ℕ × Evidence))
  | [] => return []
  | state :: rest => do
    let found ← match state.migrationRecovery with
      | none => pure none
      | some e =>
        if !e.finalized ||
            !(state.status = .failed || state.status = .manualInterventionRequired) then
          pure none
        else do
          let problem ← recoveryEvidenceProblem state e
          pure (if !problem && e.continues plan payload transition applied then
            some (state.updatedAt, e) else none)
    let others ← candidatesAmong plan payload transition applied rest
    return found.toList ++ others

/-- `candidates.sort(key=..., reverse=True)` and its first: the longest prefix, then the latest. -/
def bestCandidate : List (ℕ × Evidence) → Option (ℕ × Evidence)
  | [] => none
  | c :: rest =>
    match bestCandidate rest with
    | none => some c
    | some d =>
      if c.2.successfulPrefix.length < d.2.successfulPrefix.length ∨
          c.2.successfulPrefix.length = d.2.successfulPrefix.length ∧ c.1 < d.1 then some d
      else some c

/-- `_find_partial_recovery`; there is no current graph once the source is advanced. -/
def findPartialRecovery (plan : TrustedPlan) (payload : Payload) (current : Option Payload) :
    Program (Option Evidence) :=
  match current with
  | none => return none
  | some current => do
    let closure ← ofExcept (dependencyClosure payload.nodes plan.migrationsRequired)
    let transition := closure.filter fun ref => ref ∉ current.nodes.keys
    let applied := transition.filter fun ref => ref ∈ payload.applied
    if applied = [] then return none
    else
      finalizeEach plan (← call .listStates)
      let candidates ← candidatesAmong plan payload transition applied (← call .listStates)
      match bestCandidate candidates with
      | none => return none
      | some (_, e) =>
        assertOwnedPrefix e
        return some e

/-- The applied migrations of the transition, as `_validate_target_schema` computes them. -/
def alreadyAppliedTransition (closure : List MigrationRef) (payload : Payload)
    (current : Option Payload) : List MigrationRef :=
  match current with
  | none => []
  | some current =>
    (closure.filter fun ref => ref ∉ current.nodes.keys).filter fun ref => ref ∈ payload.applied

/-- The part of `_validate_target_schema` that a continuation adds. -/
def validateRecovery (payload : Payload) (applied : List MigrationRef) (recovery : Evidence) :
    Program Unit := do
  require (payload.recoveryPlan = some recovery.orderedTargetPlan &&
    payload.recoveryMigrationPlanDigest = recovery.migrationPlanDigest)
    "TARGET_MIGRATION_PREAPPLIED" true
  require (sameRefs applied recovery.successfulPrefix) "TARGET_MIGRATION_PREAPPLIED" true
  assertOwnedPrefix recovery

/-- `_validate_target_schema`, with the authorization that it records. -/
def validateTargetSchema (plan : TrustedPlan) (payload : Payload) (current : Option Payload)
    (migrationAlreadyStarted : Bool) (recovery : Option Evidence) :
    Program (List MigrationRef × AuthorizationSource) := do
  require (!payload.conflicts) "TARGET_MIGRATION_CONFLICT" false
  require (!payload.replacements) "TARGET_MIGRATION_AMBIGUOUS" true
  let closure ← ofExcept (dependencyClosure payload.nodes plan.migrationsRequired)
  let expected := closure.filter fun ref => ref ∉ payload.applied
  require (sameRefs payload.plan expected && decide payload.plan.Nodup)
    "TARGET_MIGRATION_MISMATCH" false
  let applied := alreadyAppliedTransition closure payload current
  require (applied.isEmpty || migrationAlreadyStarted || recovery.isSome)
    "TARGET_MIGRATION_PREAPPLIED" true
  require (payload.plan.isEmpty || plan.migrationCompatibility = some "additive")
    "MIGRATION_NOT_AUTOMATABLE" true
  let manualOperations ← match recovery with
    | none => pure payload.manualOperations
    | some recovery => do
      validateRecovery payload applied recovery
      pure payload.recoveryManualOperations
  if manualOperations = [] then return (payload.plan, .notRequired)
  else
    let source ← call (.authorize manualOperations)
    return (payload.plan, source)

end IsadoraAir.UpdateJob
