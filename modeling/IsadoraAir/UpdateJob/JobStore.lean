import IsadoraAir.Releases.Derivation

/-!
# Durable state

The migration recorder with its receipts, and the state of a job.
-/

/-!
## The migration recorder and the guarded apply

`django_migrations` and the receipts of the guarded command. The command proves,
applies and writes its receipt in one transaction that holds the recorder; it is
one step here, taken when it commits.
-/

namespace IsadoraAir.UpdateJob

/-- `app.name` -/
abbrev MigrationRef := String

abbrev JobId := String

/-- A uuid4, which is never drawn twice. -/
abbrev Nonce := ℕ

/-- What identifies a row of the recorder. -/
structure Row where
  id : ℕ
  applied : ℕ
  deriving DecidableEq

/-- A row of `django_migrations`. -/
structure Recorded where
  ref : MigrationRef
  row : Row
  deriving DecidableEq

/-- A row of `updatecenter_guarded_migration_receipt`. -/
structure Receipt where
  nonce : Nonce
  jobId : JobId
  migration : MigrationRef
  row : Row
  deriving DecidableEq

/-- The arguments of `apply_guarded`. -/
structure GuardedApply where
  jobId : JobId
  nonce : Nonce
  migration : MigrationRef
  transition : List MigrationRef
  owned : List (MigrationRef × Row)
  deriving DecidableEq

/-- A guarded transaction that was committed, with the row that it created. -/
structure GuardedTransaction where
  request : GuardedApply
  row : Row
  deriving DecidableEq

def GuardedTransaction.receipt (t : GuardedTransaction) : Receipt :=
  ⟨t.request.nonce, t.request.jobId, t.request.migration, t.row⟩

/-- The recorder, and the guarded transactions in the order of their commits; the receipts
are theirs. -/
structure Database where
  recorded : List Recorded
  nextId : ℕ
  history : List GuardedTransaction

def Database.receipts (db : Database) : List Receipt :=
  db.history.map GuardedTransaction.receipt

/-- The loop of `_observe_migration_records`; a second row for a ref is ambiguous. -/
def observeRows (refs : List MigrationRef) : List Recorded → Dict MigrationRef Row →
    Option (Dict MigrationRef Row)
  | [], records => some records
  | r :: rest, records =>
    if r.ref ∉ refs then observeRows refs rest records
    else if r.ref ∈ records.keys then none
    else observeRows refs rest (records.insert r.ref r.row)

def Database.observe (db : Database) (refs : List MigrationRef) :
    Option (Dict MigrationRef Row) :=
  observeRows refs db.recorded Dict.empty

/-- The receipts of `_observe_guarded_receipt`. -/
def Database.receiptsOf (db : Database) (nonce : Nonce) : List Receipt :=
  db.receipts.filter fun receipt => receipt.nonce = nonce

/-! ### The guarded apply -/

/-- The reasons of `GuardRefusal`. -/
inductive Refusal where
  | invalidRequest
  | ownedEntriesAreNotTheExactTransitionPrefix
  | migrationIsNotTheFirstUnownedTransitionMigration
  | lockTimeout
  | deadlockVictim
  | duplicateTransitionRecorderRows
  | nextMigrationAlreadyApplied
  | appliedTransitionDiffersFromOwnedPrefix
  | ownedRecorderRowIdentityChanged
  | nonceAlreadyUsed
  | djangoPlanIsNotExactlyTheRequestedMigration
  | nonAtomicUnsupported
  | migrateChangedMoreThanTheRequestedMigration
  deriving DecidableEq

/-- How far PostgreSQL and Django let a guarded apply come. -/
inductive Attempt where
  | lockTimeout
  | deadlockVictim
  | otherPlan
  | nonAtomic
  | changesMore
  | raises
  | completes (applied : ℕ)
  deriving DecidableEq

inductive GuardOutcome where
  | refused (reason : Refusal)
  | raised
  | applied (row : Row)
  deriving DecidableEq

namespace GuardedApply

/-- The checks made before the transaction. -/
def malformed (request : GuardedApply) : Option Refusal :=
  if request.transition = [] ∨ ¬ request.transition.Nodup then some .invalidRequest
  else if request.owned.map Prod.fst ≠ request.transition.take request.owned.length then
    some .ownedEntriesAreNotTheExactTransitionPrefix
  else if request.transition[request.owned.length]? ≠ some request.migration then
    some .migrationIsNotTheFirstUnownedTransitionMigration
  else none

/-- The proof made under the lock. -/
def unproven (request : GuardedApply) (db : Database) : Option Refusal :=
  let transitionRows := db.recorded.filter fun r => r.ref ∈ request.transition
  let present := transitionRows.map Recorded.ref
  if ¬ present.Nodup then some .duplicateTransitionRecorderRows
  else if request.migration ∈ present then some .nextMigrationAlreadyApplied
  else if ¬ (present ⊆ request.owned.map Prod.fst ∧ request.owned.map Prod.fst ⊆ present) then
    some .appliedTransitionDiffersFromOwnedPrefix
  else if transitionRows.any fun r => (r.ref, r.row) ∉ request.owned then
    some .ownedRecorderRowIdentityChanged
  else if db.receiptsOf request.nonce ≠ [] then some .nonceAlreadyUsed
  else none

/-- The row of the requested migration and its receipt. -/
def commit (request : GuardedApply) (applied : ℕ) (db : Database) : Database where
  recorded := db.recorded ++ [⟨request.migration, ⟨db.nextId, applied⟩⟩]
  nextId := db.nextId + 1
  history := db.history ++ [⟨request, ⟨db.nextId, applied⟩⟩]

/-- The proof, the migration and the receipt, or nothing. -/
def prove (request : GuardedApply) (attempt : Attempt) (db : Database) : GuardOutcome × Database :=
  match request.unproven db with
  | some reason => (.refused reason, db)
  | none =>
    match attempt with
    | .completes applied => (.applied ⟨db.nextId, applied⟩, request.commit applied db)
    | .otherPlan => (.refused .djangoPlanIsNotExactlyTheRequestedMigration, db)
    | .nonAtomic => (.refused .nonAtomicUnsupported, db)
    | .changesMore => (.refused .migrateChangedMoreThanTheRequestedMigration, db)
    | .lockTimeout => (.refused .lockTimeout, db)
    | .deadlockVictim => (.refused .deadlockVictim, db)
    | .raises => (.raised, db)

/-- `apply_guarded` -/
def apply (request : GuardedApply) (attempt : Attempt) (db : Database) : GuardOutcome × Database :=
  match request.malformed with
  | some reason => (.refused reason, db)
  | none =>
    match attempt with
    -- the lock of the recorder itself may not be had
    | .lockTimeout => (.refused .lockTimeout, db)
    | .deadlockVictim => (.refused .deadlockVictim, db)
    | attempt => request.prove attempt db

end GuardedApply

/-! ### What an observation and a commit say -/

end IsadoraAir.UpdateJob

/-!
## The durable job state

One record for each job, replaced as a whole by every write. Milestones are only
ever added; recovery evidence that is finalized is never replaced.
-/

namespace IsadoraAir.UpdateJob

open Releases (TrustedPlan)

inductive Status where
  | accepted
  | running
  | succeeded
  | failed
  | manualInterventionRequired
  deriving DecidableEq

/-- `TERMINAL_STATES`; the others are the active ones. -/
def Status.terminal : Status → Bool
  | .accepted | .running => false
  | .succeeded | .failed | .manualInterventionRequired => true

/-- `service.replace("-", "_")` -/
def slug (service : String) : String :=
  String.ofList (service.toList.map fun c => if c = '-' then '_' else c)

inductive Milestone where
  | trustedSourceFetched
  | trustedPlanValidated
  | runtimeDescriptorValidated
  | runtimeCandidateStaged
  | runtimeCandidateVerified
  | runtimeActivationRequested
  | runtimeActivationAccepted
  | runtimeAlreadyAuthoritative
  | currentSchemaValidated
  | targetStaged
  | targetSchemaValidated
  | migrationPreflightPassed
  | checkpointCreated
  | migrationStarted
  | databaseVerified
  | sourceAdvanced
  | staticCollected
  | systemdReconciled
  | serviceRestartStarted (slug : String)
  | serviceRestarted (slug : String)
  | servicesRestarted
  | postflightComplete
  | stagingCleaned
  deriving DecidableEq

/-- The metadata of a dump, without what only its verification reads. -/
structure Checkpoint where
  installedReleaseId : String
  installedCommit : String
  targetReleaseId : String
  targetCommit : String
  dumpFile : String
  deriving DecidableEq

inductive AuthorizationSource where
  | notRequired
  | central
  | localApproval
  deriving DecidableEq

/-- `in_flight_migration` and `in_flight_nonce`, which are written together. -/
structure InFlight where
  migration : MigrationRef
  nonce : Nonce
  deriving DecidableEq

/-- `migration_recovery`; digests were checked when the probe was read. -/
structure Evidence where
  evidenceJobId : JobId
  continuedFromJobId : Option JobId
  releaseId : String
  targetCommit : String
  manifestSha256 : Option String
  migrationPlanDigest : Option String
  trustedPlanFingerprint : String
  orderedTargetPlan : List MigrationRef
  successfulPrefix : List MigrationRef
  prefixRecords : Dict MigrationRef Row
  inFlight : Option InFlight
  checkpoint : Checkpoint
  failureClassification : String
  authorizationSource : AuthorizationSource
  finalized : Bool
  deriving DecidableEq

/-- `protected_runtime_candidate` -/
structure RuntimeCandidate where
  generation : ℕ
  descriptorSha256 : String
  candidateSlot : String
  deriving DecidableEq

/-- `protected_runtime_satisfaction` -/
structure RuntimeSatisfaction where
  generation : ℕ
  descriptorSha256 : String
  activeSlot : String
  introducingReleaseId : String
  introducingCommit : String
  targetReleaseId : String
  targetCommit : String
  trustedPlanFingerprint : String
  deriving DecidableEq

structure JobState where
  jobId : JobId
  requestedTargetReleaseId : String
  expectedPlanFingerprint : String
  status : Status
  milestones : List Milestone
  failureClassification : String
  trustedPlan : Option TrustedPlan
  checkpoint : Option Checkpoint
  runtimeCandidate : Option RuntimeCandidate
  runtimeSatisfaction : Option RuntimeSatisfaction
  migrationRecovery : Option Evidence
  updatedAt : ℕ

/-- What one call of `update`, `fail` or `succeed` writes. -/
inductive Change where
  | running
  | trustedPlan (plan : TrustedPlan)
  | checkpoint (checkpoint : Checkpoint)
  | runtimeCandidate (candidate : RuntimeCandidate)
  | runtimeSatisfaction (satisfaction : RuntimeSatisfaction)
  | migrationRecovery (evidence : Evidence)
  | failed (classification : String) (manual : Bool)
  | succeeded
  deriving DecidableEq

namespace JobState

/-- Finalized recovery evidence is immutable. -/
def frozen (state : JobState) (change : Change) : Bool :=
  match state.migrationRecovery, change with
  | some recorded, .migrationRecovery evidence => recorded.finalized && evidence ≠ recorded
  | _, _ => false

def change (state : JobState) : Change → JobState
  | .running => { state with status := .running }
  | .trustedPlan plan => { state with trustedPlan := some plan }
  | .checkpoint checkpoint => { state with checkpoint := some checkpoint }
  | .runtimeCandidate candidate => { state with runtimeCandidate := some candidate }
  | .runtimeSatisfaction satisfaction =>
    { state with runtimeSatisfaction := some satisfaction }
  | .migrationRecovery evidence => { state with migrationRecovery := some evidence }
  | .failed classification manual =>
    { state with
      status := if manual then .manualInterventionRequired else .failed
      failureClassification := classification }
  | .succeeded => { state with status := .succeeded }

def addMilestone (state : JobState) (name : Milestone) : JobState :=
  { state with
    milestones :=
      if name ∈ state.milestones then state.milestones else state.milestones ++ [name]
    status := .running }

/-- The state of a job that was just accepted. -/
def fresh (jobId : JobId) (targetRelease fingerprint : String) (now : ℕ) : JobState where
  jobId := jobId
  requestedTargetReleaseId := targetRelease
  expectedPlanFingerprint := fingerprint
  status := .accepted
  milestones := []
  failureClassification := ""
  trustedPlan := none
  checkpoint := none
  runtimeCandidate := none
  runtimeSatisfaction := none
  migrationRecovery := none
  updatedAt := now

@[simp] theorem mem_addMilestone {state : JobState} {name name' : Milestone} :
    name' ∈ (state.addMilestone name).milestones ↔ name' = name ∨ name' ∈ state.milestones := by
  unfold addMilestone
  split_ifs with h
  · constructor
    · exact .inr
    · rintro (rfl | hmem)
      · exact h
      · exact hmem
  · simp [or_comm]

@[simp] theorem change_milestones (state : JobState) (c : Change) :
    (state.change c).milestones = state.milestones := by
  cases c <;> rfl

@[simp] theorem change_jobId (state : JobState) (c : Change) :
    (state.change c).jobId = state.jobId := by
  cases c <;> rfl

end JobState

/-- The record of every job, read and replaced one at a time. -/
structure JobStore where
  records : Dict JobId JobState
  clock : ℕ

namespace JobStore

/-- `list_states`, in the order of the file names. -/
def listStates (store : JobStore) : List JobState :=
  store.records.values.insertionSort fun a b => a.jobId ≤ b.jobId

/-- One atomic write, with its `updated_at`. -/
def write (store : JobStore) (state : JobState) : JobStore where
  records := store.records.insert state.jobId { state with updatedAt := store.clock }
  clock := store.clock + 1

/-- `accept` answers with the job when its record is there or is written now. -/
def accept (store : JobStore) (jobId : JobId) (targetRelease fingerprint : String) : JobStore :=
  match store.records.get? jobId with
  | some _ => store
  | none =>
    if store.records.values.any fun state => !state.status.terminal then store
    else store.write (.fresh jobId targetRelease fingerprint store.clock)

end JobStore

end IsadoraAir.UpdateJob
