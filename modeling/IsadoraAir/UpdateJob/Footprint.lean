import IsadoraAir.UpdateJob.Progress

/-!
# Which actions a routine takes

The recovery reads, and writes evidence; the rest of what precedes and follows a
phase touches only what no phase depends on; and an execution of a job acts for
that job.
-/

namespace IsadoraAir.UpdateJob

open Routine
open Releases (TrustedPlan Repository derivePlan)

variable {a : Action}
  {A : Action → Prop} {job : JobId} {α β : Type} {name : Milestone} {m : Program α}

/-! ## Kinds of actions -/

/-- No record is written and no effect is made. -/
def Action.Reads : Action → Prop
  | .update .. | .milestone .. => False
  | .launchGuarded _ | .merge .. | .collectstatic _ | .reconcile .. | .restart .. => False
  | _ => True

/-- Nothing is written but evidence. -/
def Action.Recovers : Action → Prop
  | .update _ (.migrationRecovery _) => True
  | .update .. | .milestone .. => False
  | .launchGuarded _ | .merge .. | .collectstatic _ | .reconcile .. | .restart .. => False
  | _ => True

def Change.Quiet : Change → Prop
  | .checkpoint _ | .runtimeCandidate _ | .runtimeSatisfaction _ | .migrationRecovery _ => True
  | _ => False

/-- Nothing that a phase of the job depends on is written. -/
def Action.Quiet (job : JobId) : Action → Prop
  | .update _ change => change.Quiet
  | .milestone job' name => job' = job ∧ name.stage = 0
  | .launchGuarded _ | .merge .. | .collectstatic _ | .reconcile .. | .restart .. => False
  | _ => True

/-- Evidence is written, or that the job failed. -/
def Action.Concludes (job : JobId) : Action → Prop
  | .update job' (.failed ..) => job' = job
  | a => a.Recovers

/-- Evidence apart, only this job is acted for. -/
def Action.Concerns (job : JobId) : Action → Prop
  | .update job' change => job' = job ∨ change.Quiet
  | .milestone job' _ => job' = job
  | .launchGuarded request => request.jobId = job
  | .merge job' _ | .collectstatic job' | .reconcile job' _ | .restart job' _ => job' = job
  | _ => True

theorem Action.Recovers.quiet (h : a.Recovers) : a.Quiet job := by
  cases a with
  | update job' change => cases change <;> trivial
  | milestone job' name => exact h.elim
  | _ => exact h

theorem Action.Recovers.concludes (h : a.Recovers) : a.Concludes job := by
  cases a with
  | update job' change => cases change <;> trivial
  | _ => exact h

theorem Action.Concludes.concerns (h : a.Concludes job) : a.Concerns job := by
  cases a with
  | update job' change =>
    cases change with
    | failed classification manual => exact .inl h
    | migrationRecovery evidence => exact .inr trivial
    | _ => exact h.elim
  | launchGuarded request => exact h.elim
  | merge job' commit => exact h.elim
  | collectstatic job' => exact h.elim
  | reconcile job' plan => exact h.elim
  | restart job' service => exact h.elim
  | milestone job' name => exact h.elim
  | _ => trivial

theorem Action.Quiet.concerns (h : a.Quiet job) : a.Concerns job := by
  cases a with
  | update job' change => exact .inr h
  | milestone job' name => exact h.1
  | _ => trivial

/-! ## Calls and checks -/

theorem uses_call (h : A a) : (call a).Uses A := by
  refine Uses.bind (Uses.perform h) fun r => ?_
  cases r with
  | ok value => exact .pure
  | error failure => exact .raise

theorem uses_require (condition : Bool) (classification : String) (manual : Bool) :
    (require condition classification manual).Uses A := by
  unfold require
  split
  · exact .pure
  · exact .raise

theorem uses_require_bind {condition : Bool} {classification : String} {manual : Bool}
    {f : Unit → Program α} (h : (f ()).Uses A) :
    (require condition classification manual >>= f).Uses A :=
  (uses_require condition classification manual).bind fun _ => h

theorem uses_call_bind {f : a.Value → Program α} (ha : A a)
    (hf : ∀ value, (f value).Uses A) : (call a >>= f).Uses A :=
  (uses_call ha).bind hf

theorem uses_ofExcept (r : Except Failure α) : (ofExcept r).Uses A := by
  cases r with
  | ok value => exact .pure
  | error failure => exact .raise

/-! ## Recovery -/

theorem uses_assertExactPrefix (ordered owned : List MigrationRef)
    (records : Dict MigrationRef Row) :
    (assertExactPrefix ordered owned records).Uses Action.Recovers :=
  uses_call_bind trivial fun _ => uses_require_bind (uses_require ..)

theorem uses_assertOwnedPrefix (recovery : Evidence) :
    (assertOwnedPrefix recovery).Uses Action.Recovers :=
  uses_assertExactPrefix ..

theorem uses_receiptProves (nonce : Nonce) (job : JobId) (migration : MigrationRef) (row : Row) :
    (receiptProves nonce job migration row).Uses Action.Recovers :=
  uses_call_bind trivial fun _ => .pure

theorem uses_recoveryEvidenceProblem (state : JobState) (e : Evidence) :
    (recoveryEvidenceProblem state e).Uses Action.Recovers := by
  unfold recoveryEvidenceProblem
  split
  · exact .pure
  · exact uses_call_bind trivial fun _ => .pure

theorem uses_observeRecordsWhenReady (refs : List MigrationRef) (delays : ℕ) :
    (observeRecordsWhenReady refs delays).Uses Action.Recovers := by
  induction delays with
  | zero => exact uses_call trivial
  | succ delays ih =>
    unfold observeRecordsWhenReady
    refine Uses.bind (uses_call trivial).attempt fun r => ?_
    cases r with
    | ok observed => exact .pure
    | error failure =>
      dsimp only
      split
      · exact ih
      · exact .raise

theorem uses_claimable (e : Evidence) (observed : Dict MigrationRef Row) :
    (claimable e observed).Uses Action.Recovers := by
  unfold claimable
  split
  · exact .pure
  · split
    · exact .pure
    · exact uses_receiptProves ..

theorem uses_finalizeFromObservation (job : JobId) (classification : String) :
    (finalizeFromObservation job classification).Uses Action.Recovers := by
  unfold finalizeFromObservation
  refine uses_call_bind trivial fun state => ?_
  split
  · exact .pure
  · split
    · exact .pure
    · refine Uses.bind (uses_recoveryEvidenceProblem ..) fun problem => ?_
      split
      · exact .pure
      · refine Uses.bind (uses_observeRecordsWhenReady ..) fun observed => ?_
        dsimp only
        split
        · exact .pure
        · refine Uses.bind (uses_claimable ..) fun claimed => ?_
          split
          · exact .pure
          · split
            · exact .pure
            · split
              · exact .pure
              · exact uses_call trivial

theorem uses_finalizeRecoveryFromObservation (job : JobId) (classification : String) :
    (finalizeRecoveryFromObservation job classification).Uses Action.Recovers :=
  (uses_finalizeFromObservation job classification).attempt.bind fun _ => .pure

theorem uses_finalizeEach (plan : TrustedPlan) (states : List JobState) :
    (finalizeEach plan states).Uses Action.Recovers := by
  induction states with
  | nil => exact .pure
  | cons state rest ih =>
    unfold finalizeEach
    dsimp only
    split
    · exact (uses_finalizeRecoveryFromObservation ..).bind fun _ => ih
    · exact ih

theorem uses_candidatesAmong (plan : TrustedPlan) (payload : Payload)
    (transition applied : List MigrationRef) (states : List JobState) :
    (candidatesAmong plan payload transition applied states).Uses Action.Recovers := by
  induction states with
  | nil => exact .pure
  | cons state rest ih =>
    unfold candidatesAmong
    dsimp only
    split
    · exact ih.bind fun _ => .pure
    · split
      · exact ih.bind fun _ => .pure
      · exact (uses_recoveryEvidenceProblem ..).bind fun _ => ih.bind fun _ => .pure

theorem uses_findPartialRecovery (plan : TrustedPlan) (payload : Payload)
    (current : Option Payload) :
    (findPartialRecovery plan payload current).Uses Action.Recovers := by
  unfold findPartialRecovery
  split
  · exact .pure
  · refine (uses_ofExcept _).bind fun closure => ?_
    dsimp only
    split
    · exact .pure
    · refine uses_call_bind trivial fun states => (uses_finalizeEach ..).bind fun _ => ?_
      refine uses_call_bind trivial fun states => (uses_candidatesAmong ..).bind fun found => ?_
      split
      · exact .pure
      · exact (uses_assertOwnedPrefix _).bind fun _ => .pure

theorem uses_validateRecovery (payload : Payload) (applied : List MigrationRef)
    (recovery : Evidence) :
    (validateRecovery payload applied recovery).Uses Action.Recovers :=
  uses_require_bind (uses_require_bind (uses_assertOwnedPrefix _))

theorem uses_validateTargetSchema (plan : TrustedPlan) (payload : Payload)
    (current : Option Payload) (migrationAlreadyStarted : Bool) (recovery : Option Evidence) :
    (validateTargetSchema plan payload current migrationAlreadyStarted recovery).Uses
      Action.Recovers := by
  unfold validateTargetSchema
  refine uses_require_bind (uses_require_bind ((uses_ofExcept _).bind fun closure => ?_))
  refine uses_require_bind (uses_require_bind (uses_require_bind ?_))
  have hauthorize : ∀ manualOperations : List String,
      (if manualOperations = [] then return (payload.plan, AuthorizationSource.notRequired)
      else do
        let source ← call (.authorize manualOperations)
        return (payload.plan, source) : Program (List MigrationRef × AuthorizationSource)).Uses
          Action.Recovers := by
    intro manualOperations
    split
    · exact .pure
    · exact uses_call_bind trivial fun _ => .pure
  split
  · exact hauthorize _
  · exact (uses_validateRecovery ..).bind fun _ => hauthorize _

theorem uses_usableCheckpoint (job : JobId) (plan : TrustedPlan) (recorded : Option Checkpoint) :
    (usableCheckpoint job plan recorded).Uses Action.Recovers := by
  unfold usableCheckpoint
  split
  · exact uses_call trivial
  · refine uses_call_bind trivial fun verified => ?_
    split
    · exact .pure
    · exact uses_call trivial

theorem uses_verifyCompletePrefix (recovery : Evidence) :
    (verifyCompletePrefix recovery).Uses Action.Recovers :=
  uses_call_bind trivial fun _ => uses_require_bind (uses_assertOwnedPrefix _)

theorem uses_confirmApplied (job : JobId) (e : Evidence) (ref : MigrationRef) (nonce : Nonce)
    (row : Row) : (confirmApplied job e ref nonce row).Uses Action.Recovers :=
  uses_call_bind trivial fun _ => uses_require_bind <| uses_require_bind <| uses_require_bind <|
    (uses_receiptProves ..).bind fun _ => uses_require ..

theorem uses_cleanupStaging (job : JobId) : (cleanupStaging job).Uses Action.Recovers := by
  unfold cleanupStaging
  refine Uses.bind (uses_call trivial).attempt fun r => ?_
  split
  · exact .pure
  · exact .pure
  · exact .raise

/-! ## The protected runtime and the target -/

theorem uses_recordMilestone (h : name.stage = 0) :
    (recordMilestone job name).Uses (Action.Quiet job) :=
  uses_call ⟨rfl, h⟩

theorem uses_ensureMilestone {milestones : List Milestone}
    (h : name.stage = 0) : (ensureMilestone job milestones name).Uses (Action.Quiet job) := by
  unfold ensureMilestone
  split
  · exact .pure
  · exact uses_recordMilestone h

theorem uses_executeRuntimeHandoff (job : JobId) (plan : TrustedPlan)
    (transition : Releases.ProtectedRuntimeTransition) (milestones : List Milestone) :
    (executeRuntimeHandoff job plan transition milestones).Uses (Action.Quiet job) := by
  unfold executeRuntimeHandoff
  refine (uses_ensureMilestone rfl).bind fun _ => uses_call_bind trivial fun runtime => ?_
  refine uses_require_bind ?_
  dsimp only
  split
  · refine Uses.bind ?_ fun _ => .pure
    unfold recordAlreadyAuthoritative
    exact uses_call_bind trivial fun _ => uses_require_bind <|
      uses_call_bind trivial fun _ => uses_ensureMilestone rfl
  · refine uses_require_bind ?_
    -- each of the three steps is skipped when its milestone is there
    repeat' first
      | exact .pure
      | exact .raise
      | exact (uses_recordMilestone rfl).bind fun _ => uses_call_bind trivial fun _ => .pure
      | refine (uses_recordMilestone rfl).bind fun _ => ?_
      | refine uses_call_bind trivial fun _ => ?_
      | split

theorem uses_acceptRuntimeAsCandidate (job : JobId)
    (transition : Releases.ProtectedRuntimeTransition) :
    (acceptRuntimeAsCandidate job transition).Uses (Action.Quiet job) := by
  unfold acceptRuntimeAsCandidate
  refine uses_call_bind trivial fun state => ?_
  split
  · exact .raise
  · exact uses_require_bind <| (uses_ensureMilestone rfl).bind fun _ =>
      uses_call_bind trivial fun _ => .pure

theorem uses_validateAlreadyAuthoritativeSatisfaction (job : JobId) (plan : TrustedPlan)
    (transition : Releases.ProtectedRuntimeTransition) :
    (validateAlreadyAuthoritativeSatisfaction job plan transition).Uses Action.Recovers :=
  uses_call_bind trivial fun _ => uses_call_bind trivial fun _ => uses_require ..

theorem uses_runtimeGate (ex : Executor) (job : JobId) (plan : TrustedPlan)
    (milestones : List Milestone) :
    (runtimeGate ex job plan milestones).Uses (Action.Quiet job) := by
  unfold runtimeGate
  split
  · exact .pure
  · next transition _ =>
    refine uses_require_bind ?_
    have hbranches : (if mutationGateSatisfied milestones then
        (return some milestones : Program (Option (List Milestone)))
      else if Milestone.runtimeActivationRequested ∈ milestones then
        if ex.isAuthorizedCandidateFor job transition then do
          acceptRuntimeAsCandidate job transition
          return some (← call (.load job)).milestones
        else return none
      else do
        if ← executeRuntimeHandoff job plan transition milestones then return none
        else return some (← call (.load job)).milestones).Uses (Action.Quiet job) := by
      split
      · exact .pure
      · split
        · split
          · exact (uses_acceptRuntimeAsCandidate ..).bind fun _ =>
              uses_call_bind trivial fun _ => .pure
          · exact .pure
        · refine (uses_executeRuntimeHandoff ..).bind fun yielded => ?_
          split
          · exact .pure
          · exact uses_call_bind trivial fun _ => .pure
    dsimp only
    split
    · exact ((uses_validateAlreadyAuthoritativeSatisfaction ..).mono
        fun _ => Action.Recovers.quiet).bind fun _ => hbranches
    · exact hbranches

theorem uses_requireMutationAllowed (plan : TrustedPlan) (milestones : List Milestone) :
    (requireMutationAllowed plan milestones).Uses A :=
  uses_require ..

theorem uses_validateTarget (job : JobId) (plan : TrustedPlan) (milestones : List Milestone) :
    (validateTarget job plan milestones).Uses (Action.Quiet job) := by
  unfold validateTarget
  refine Uses.bind ?_ fun current => (uses_recordMilestone rfl).bind fun _ =>
    uses_call_bind trivial fun _ => (uses_recordMilestone rfl).bind fun _ =>
      uses_call_bind trivial fun payload => ?_
  · unfold validateCurrentSchema
    split
    · exact .pure
    · exact uses_call_bind trivial fun _ => uses_require_bind .pure
  · refine ((uses_findPartialRecovery ..).mono fun _ => Action.Recovers.quiet).bind
      fun recovery => ?_
    have hschema : ∀ payload : Payload, (validateTargetSchema plan payload current
        (decide (Milestone.migrationStarted ∈ milestones)) recovery).Uses (Action.Quiet job) :=
      fun payload => (uses_validateTargetSchema ..).mono fun _ => Action.Recovers.quiet
    split
    · exact (hschema _).bind fun _ => (uses_recordMilestone rfl).bind fun _ => .pure
    · exact uses_call_bind trivial fun _ =>
        (hschema _).bind fun _ => (uses_recordMilestone rfl).bind fun _ => .pure

/-! ## Whole executions -/

theorem Uses.concerns (h : m.Uses (Action.Quiet job)) :
    m.Uses (Action.Concerns job) :=
  h.mono fun _ => Action.Quiet.concerns

theorem Uses.recovers (h : m.Uses Action.Recovers) : m.Uses (Action.Concerns job) :=
  h.mono fun _ ha => ha.quiet.concerns

theorem uses_milestone (name : Milestone) : (recordMilestone job name).Uses (Action.Concerns job) :=
  uses_call rfl

theorem uses_derive (repository : Repository) (ex : Executor) (job : JobId) (state : JobState) :
    (derive repository ex job state).Uses (Action.Concerns job) := by
  unfold derive
  refine uses_call_bind trivial fun head => uses_call_bind trivial fun tip =>
    (uses_milestone _).bind fun _ => ?_
  split
  · exact .raise
  · exact uses_require_bind <| uses_require_bind <| uses_call_bind (.inl rfl) fun _ =>
      (uses_milestone _).bind fun _ => .pure

theorem uses_applyMigrationGuarded (request : GuardedApply) (h : request.jobId = job) :
    (applyMigrationGuarded request).Uses (Action.Concerns job) := by
  refine uses_call_bind h fun _ => uses_call_bind trivial fun report => ?_
  split
  · exact .raise
  · exact .raise
  · exact .raise
  · exact .raise
  · exact .pure

theorem uses_migrateEach (job : JobId) (refs : List MigrationRef) (e : Evidence) :
    (migrateEach job refs e).Uses (Action.Concerns job) := by
  induction refs generalizing e with
  | nil => exact .pure
  | cons ref rest ih =>
    refine uses_call_bind trivial fun nonce => uses_call_bind (.inl rfl) fun _ => ?_
    refine (uses_applyMigrationGuarded _ rfl).bind fun row => ?_
    exact (Uses.recovers (uses_confirmApplied ..)).bind fun _ =>
      uses_call_bind (.inl rfl) fun _ => ih _

theorem uses_migrate (job : JobId) (state : JobState) (plan : TrustedPlan)
    (milestones : List Milestone) (target : Target) :
    (migrate job state plan milestones target).Uses (Action.Concerns job) := by
  unfold migrate
  refine uses_call_bind trivial fun _ => (uses_milestone _).bind fun _ =>
    (uses_requireMutationAllowed ..).bind fun _ =>
      (Uses.recovers (uses_usableCheckpoint ..)).bind fun checkpoint =>
        uses_call_bind (.inl rfl) fun _ => (uses_milestone _).bind fun _ => ?_
  have hmigrations : (do
      call (.update job (.migrationRecovery (newEvidence job plan target checkpoint)))
      recordMilestone job .migrationStarted
      let e ← migrateEach job target.actualMigrations (newEvidence job plan target checkpoint)
      let verified ← call (.probe .staged [])
      require verified.clean "MIGRATION_VERIFY_FAILED" true
      call (.update job (.migrationRecovery { e with finalized := true })) : Program Unit).Uses
        (Action.Concerns job) :=
    uses_call_bind (.inl rfl) fun _ => (uses_milestone _).bind fun _ =>
      (uses_migrateEach ..).bind fun _ => uses_call_bind trivial fun _ =>
        uses_require_bind (uses_call (.inl rfl))
  dsimp only
  split
  · exact .raise
  · split
    · exact hmigrations
    · exact (Uses.recovers (uses_assertOwnedPrefix _)).bind fun _ => hmigrations

theorem uses_reachDatabaseVerified (job : JobId) (state : JobState) (plan : TrustedPlan)
    (milestones : List Milestone) (target : Target) :
    (reachDatabaseVerified job state plan milestones target).Uses (Action.Concerns job) := by
  unfold reachDatabaseVerified
  dsimp only
  split
  · exact uses_milestone _
  · split
    · exact (uses_migrate ..).bind fun _ => uses_milestone _
    · split
      · exact uses_milestone _
      · exact (Uses.recovers (uses_verifyCompletePrefix _)).bind fun _ => uses_milestone _

theorem uses_advanceSource (job : JobId) (plan : TrustedPlan) :
    (advanceSource job plan).Uses (Action.Concerns job) :=
  uses_call_bind trivial fun _ => uses_require_bind <| uses_call_bind trivial fun _ =>
    uses_require_bind <| uses_call_bind trivial fun _ => uses_require_bind <|
      uses_call_bind rfl fun _ => uses_require_bind <|
        uses_call_bind trivial fun _ => uses_require ..

theorem uses_reachSourceAdvanced (job : JobId) (derived : Derived) (milestones : List Milestone) :
    (reachSourceAdvanced job derived milestones).Uses (Action.Concerns job) := by
  unfold reachSourceAdvanced
  dsimp only
  split
  · exact uses_call_bind trivial fun _ => uses_require_bind (uses_milestone _)
  · split
    · exact uses_milestone _
    · exact (uses_requireMutationAllowed ..).bind fun _ =>
        (uses_advanceSource ..).bind fun _ => uses_milestone _

theorem uses_reachStaticCollected (job : JobId) (plan : TrustedPlan) (milestones : List Milestone) :
    (reachStaticCollected job plan milestones).Uses (Action.Concerns job) := by
  unfold reachStaticCollected
  dsimp only
  split
  · exact (uses_requireMutationAllowed ..).bind fun _ =>
      uses_call_bind rfl fun _ => uses_milestone _
  · exact uses_milestone _

theorem uses_reachSystemdReconciled (job : JobId) (plan : TrustedPlan)
    (milestones : List Milestone) :
    (reachSystemdReconciled job plan milestones).Uses (Action.Concerns job) := by
  unfold reachSystemdReconciled
  dsimp only
  split
  · exact (uses_requireMutationAllowed ..).bind fun _ =>
      uses_call_bind rfl fun _ => uses_milestone _
  · exact uses_milestone _

theorem uses_restartEach (job : JobId) (services : List String) (milestones : List Milestone) :
    (restartEach job services milestones).Uses (Action.Concerns job) := by
  induction services generalizing milestones with
  | nil => exact .pure
  | cons service rest ih =>
    unfold restartEach
    split
    · exact ih _
    · split
      · exact .raise
      · exact (uses_milestone _).bind fun _ => uses_call_bind rfl fun _ =>
          (uses_milestone _).bind fun _ => ih _

theorem uses_reachServicesRestarted (job : JobId) (plan : TrustedPlan)
    (milestones : List Milestone) :
    (reachServicesRestarted job plan milestones).Uses (Action.Concerns job) := by
  unfold reachServicesRestarted
  dsimp only
  split
  · exact (uses_requireMutationAllowed ..).bind fun _ =>
      (uses_restartEach ..).bind fun _ => uses_milestone _
  · exact uses_milestone _

theorem uses_postflight (job : JobId) (plan : TrustedPlan) :
    (postflight job plan).Uses (Action.Concerns job) := by
  unfold postflight
  refine uses_call_bind trivial fun _ => uses_require_bind <| uses_call_bind trivial fun _ =>
    uses_require_bind ?_
  have hrest : (do
      recordMilestone job .postflightComplete
      cleanupStaging job
      recordMilestone job .stagingCleaned
      call (.update job .succeeded) : Program Unit).Uses (Action.Concerns job) :=
    (uses_milestone _).bind fun _ => (Uses.recovers (uses_cleanupStaging _)).bind fun _ =>
      (uses_milestone _).bind fun _ => uses_call (.inl rfl)
  dsimp only
  split
  · exact uses_call_bind trivial fun _ => hrest
  · exact hrest

theorem uses_attemptExecution (repository : Repository) (ex : Executor) (job : JobId)
    (state : JobState) :
    (attemptExecution repository ex job state).Uses (Action.Concerns job) := by
  refine (uses_derive ..).bind fun derived => (Uses.concerns (uses_runtimeGate ..)).bind
    fun gate => ?_
  split
  · exact uses_call_bind trivial fun _ => .pure
  · refine Uses.bind ?_ fun _ => .pure
    exact (uses_requireMutationAllowed ..).bind fun _ =>
      (Uses.concerns (uses_validateTarget ..)).bind fun target =>
        (uses_reachDatabaseVerified ..).bind fun _ => (uses_reachSourceAdvanced ..).bind fun _ =>
          (uses_reachStaticCollected ..).bind fun _ =>
            (uses_reachSystemdReconciled ..).bind fun _ =>
              (uses_reachServicesRestarted ..).bind fun _ => uses_postflight ..

/-! ## After a failure -/

theorem uses_handleFailure (job : JobId) (failure : Failure) :
    (handleFailure job failure).Uses (Action.Concludes job) := by
  have hcleanup : (cleanupStaging job).Uses (Action.Concludes job) :=
    (uses_cleanupStaging job).mono fun _ => Action.Recovers.concludes
  have hfinalize : ∀ classification,
      (finalizeRecoveryFromObservation job classification).Uses (Action.Concludes job) :=
    fun classification => (uses_finalizeRecoveryFromObservation job classification).mono
      fun _ => Action.Recovers.concludes
  have hfail : ∀ classification manual,
      (failJob job classification manual).Uses (Action.Concludes job) :=
    fun _ _ => uses_call rfl
  cases failure with
  | execution classification manual =>
    exact hcleanup.bind fun _ => (hfinalize _).bind fun _ => hfail ..
  | safe alwaysManual =>
    unfold handleFailure
    refine hcleanup.bind fun _ => uses_call_bind trivial fun current => ?_
    dsimp only
    split
    · exact (hfinalize _).bind fun _ => hfail ..
    · exact hfail ..
  | unexpected => exact .raise

theorem uses_execute (repository : Repository) (ex : Executor) (job : JobId) :
    (execute repository ex job).Uses (Action.Concerns job) := by
  unfold execute
  refine uses_call_bind trivial fun state => ?_
  split
  · exact .pure
  · split
    · exact (Uses.recovers (uses_finalizeRecoveryFromObservation ..)).bind fun _ =>
        uses_call_bind (.inl rfl) fun _ => .pure
    · refine uses_call_bind (.inl rfl) fun _ => (uses_attemptExecution ..).attempt.bind fun r => ?_
      split
      · exact .pure
      · exact ((uses_handleFailure ..).mono fun _ => Action.Concludes.concerns).bind
          fun _ => .pure

theorem uses_runWorker (repository : Repository) (ex : Executor) (job : JobId) :
    (runWorker repository ex job).Uses (Action.Concerns job) := by
  refine (uses_execute ..).attempt.bind fun r => ?_
  split
  · exact .pure
  · refine Uses.bind (Uses.attempt (uses_call (.inl rfl))) fun _ => .pure

end IsadoraAir.UpdateJob
