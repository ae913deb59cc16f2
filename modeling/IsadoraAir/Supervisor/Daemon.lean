import IsadoraAir.Supervisor.IpcServer

/-!
# The supervisor's event loop

One tick reacts to the phase of the activation in flight: it waits for the old
worker, launches the candidate, watches it, rolls it back, or keeps the active
worker alive. A tick that raises leaves what it had already done.
-/

namespace IsadoraAir.Supervisor

open ActivationPhase Procedure

/-- A launched worker: what it was launched as, and whether it has exited. -/
structure TrackedChild where
  pid : ℕ
  slot : Slot
  generation : ℤ
  descriptorSha256 : String
  jobUuid : Option String
  exited : Bool
  deriving DecidableEq

def TrackedChild.identity (c : TrackedChild) : Slot × ℤ × String :=
  (c.slot, c.generation, c.descriptorSha256)

structure SupervisorDaemon where
  ipc : IpcServer
  lifecycle : WorkerLifecycle
  activeWorker : Option TrackedChild
  candidateWorker : Option TrackedChild
  candidateDeadline : Option ℚ
  candidateReadyAt : Option ℚ
  oldWorkerStopRequestedAt : Option ℚ
  now : ℚ

structure DaemonConfig where
  oldWorkerYieldTimeout : ℚ := 15
  candidateReadinessTimeout : ℚ := 30
  candidateAcceptanceTimeout : ℚ := 60

abbrev Daemon := Procedure SupervisorDaemon Raised

/-- What the outside decides within one tick: the outcomes of its writes, and
the process that a launch starts. -/
structure TickContext where
  writes : Writes
  activeLaunch : Except Raised ℕ
  candidateLaunch : Except Raised ℕ

def onIpc {α : Type} (m : Ipc α) : Daemon α :=
  within SupervisorDaemon.ipc (fun s ipc => { s with ipc := ipc }) m

def onLifecycle {α : Type} (m : Procedure WorkerLifecycle Raised α) : Daemon α :=
  within SupervisorDaemon.lifecycle (fun s lifecycle => { s with lifecycle := lifecycle }) m

/-! ## The functions -/

/-- `ActiveIdentity.__post_init__`; the slot is one of the two by its type. -/
def checkIdentity (generation : ℤ) (descriptorSha256 : String) : Except Raised Unit := do
  raiseIf (generation < 1) (.value "ActiveIdentity.generation must be a positive integer")
  raiseIf (¬isHexDigest descriptorSha256)
    (.value "ActiveIdentity.descriptor_sha256 must be exactly 64 lowercase hex characters")

/-- `CandidateIdentity.__post_init__` -/
def checkCandidateIdentity (generation : ℤ) (descriptorSha256 jobUuid : String) :
    Except Raised Unit := do
  checkIdentity generation descriptorSha256
  raiseIf (¬isCanonicalUuid jobUuid)
    (.value "CandidateIdentity.job_uuid must be a canonical lowercase UUID")

/-- `_launch_active_worker` -/
def launchActiveWorker (context : TickContext) : Daemon Unit := do
  let s ← get
  let state := s.ipc.state
  MonadExcept.ofExcept (checkIdentity state.activeGeneration state.activeDescriptorSha256)
  let pid ← MonadExcept.ofExcept context.activeLaunch
  modify fun s =>
    { s with
      activeWorker := some ⟨pid, state.activeSlot, state.activeGeneration,
        state.activeDescriptorSha256, none, false⟩ }
  onLifecycle (WorkerLifecycle.recordLaunch pid s.now)

/-- `require_can_launch` with its refusal caught. -/
def launchPermitted (now : ℚ) : Daemon Bool :=
  tryCatch
    (do
      onLifecycle (WorkerLifecycle.requireCanLaunch now)
      pure true)
    fun
      | .lifecycle _ => pure false
      | e => throw e

/-- `_restart_active_worker_if_needed` -/
def restartActiveWorkerIfNeeded (context : TickContext) : Daemon Unit := do
  let s ← get
  if s.activeWorker.any fun w => ¬w.exited then pure ()
  else do
    let permitted ← launchPermitted s.now
    if permitted then launchActiveWorker context else pure ()

/-- `_adopt_promoted_candidate_if_any` -/
def adoptPromotedCandidateIfAny (s : SupervisorDaemon) : SupervisorDaemon :=
  match s.candidateWorker with
  | none => s
  | some promoted =>
    { s with
      activeWorker := some promoted
      candidateWorker := none
      candidateDeadline := none
      candidateReadyAt := none
      lifecycle := s.lifecycle.adoptRunningWorker promoted.pid }

def noteActiveWorkerExit : Daemon Unit := do
  onLifecycle (do
    WorkerLifecycle.recordExit
    WorkerLifecycle.acknowledgeExit)
  modify fun s => { s with activeWorker := none }

/-- `_check_active_worker_liveness` -/
def checkActiveWorkerLiveness (context : TickContext) : Daemon Unit := do
  let s ← get
  match s.activeWorker with
  | none => restartActiveWorkerIfNeeded context
  | some w =>
    if ¬w.exited then pure ()
    else do
      noteActiveWorkerExit
      restartActiveWorkerIfNeeded context

variable (config : DaemonConfig)

/-- `_old_worker_has_yielded` -/
def oldWorkerHasYielded : Daemon Bool := do
  let s ← get
  match s.activeWorker with
  | none => pure true
  | some w =>
    if w.exited then do
      noteActiveWorkerExit
      modify fun s => { s with oldWorkerStopRequestedAt := none }
      pure true
    else match s.oldWorkerStopRequestedAt with
      | none => do
        modify fun s => { s with oldWorkerStopRequestedAt := some s.now }
        pure false
      | some requestedAt =>
        if config.oldWorkerYieldTimeout ≤ s.now - requestedAt then do
          noteActiveWorkerExit
          modify fun s => { s with oldWorkerStopRequestedAt := none }
          pure true
        else pure false

/-- `_resumable_job_uuid_for` -/
def resumableJobUuidFor (s : SupervisorDaemon) (internalTransactionId : String) :
    Except Raised String :=
  orRaise ((s.ipc.clientTransactions.items.find? fun item => item.2 = internalTransactionId).map
      Prod.fst)
    (.daemon "no correlated job UUID found for the in-flight activation transaction")

/-- The part of `_begin_candidate_launch` after the phase has been written. -/
def launchCandidate (context : TickContext) (activation : ActivationTransaction) :
    Daemon Unit := do
  let s ← get
  let jobUuid ← MonadExcept.ofExcept (resumableJobUuidFor s activation.transactionId)
  MonadExcept.ofExcept (checkCandidateIdentity activation.candidateGeneration
    activation.candidateDescriptorSha256 jobUuid)
  let pid ← MonadExcept.ofExcept context.candidateLaunch
  modify fun s =>
    { s with
      candidateWorker := some ⟨pid, activation.candidateSlot, activation.candidateGeneration,
        activation.candidateDescriptorSha256, some jobUuid, false⟩
      candidateDeadline := some (s.now + config.candidateReadinessTimeout) }

/-- The announcement of the launch; a refusal is logged and ends the tick. -/
def announceCandidateLaunch (context : TickContext) : Daemon Bool :=
  tryCatch
    (do
      onIpc (beginCandidateLaunch context.writes)
      pure true)
    fun
      | .supervisor _ => pure false
      | e => throw e

/-- `_begin_candidate_launch` -/
def beginCandidateLaunchTick (context : TickContext) (activation : ActivationTransaction) :
    Daemon Unit := do
  let s ← get
  if s.candidateWorker.isSome then pure ()
  else do
    let yielded ← oldWorkerHasYielded config
    if ¬yielded then pure ()
    else do
      modify fun s => { s with candidateReadyAt := none }
      let announced ← announceCandidateLaunch context
      if announced then launchCandidate config context activation else pure ()

/-- `_finish_rollback` -/
def finishRollbackTick (context : TickContext) : Daemon Unit := do
  let s ← get
  let finished ← MonadExcept.ofExcept (finishRollback s.ipc.state)
  onIpc (persist context.writes.finished finished)
  restartActiveWorkerIfNeeded context

/-- The `except` branch of `_rollback`. -/
def failInsteadOfRollback (context : TickContext) : Daemon Unit := do
  let s ← get
  let failedState ← MonadExcept.ofExcept (failTransaction s.ipc.state)
  onIpc (persist context.writes.failed failedState)
  restartActiveWorkerIfNeeded context

/-- The `try` of `_rollback`: whether the rollback is under way. -/
def recordRollback (context : TickContext) : Daemon Bool :=
  tryCatch
    (do
      let s ← get
      let rolled ← MonadExcept.ofExcept (requestRollback s.ipc.state)
      onIpc (persist context.writes.rollback rolled)
      pure true)
    fun
      | .supervisor _ => do
        failInsteadOfRollback context
        pure false
      | e => throw e

/-- `_rollback` -/
def rollback (context : TickContext) : Daemon Unit := do
  modify fun s =>
    { s with candidateWorker := none, candidateDeadline := none, candidateReadyAt := none }
  let rolling ← recordRollback context
  if rolling then finishRollbackTick context else pure ()

/-- `_check_candidate_readiness_timeout` -/
def checkCandidateReadinessTimeout (context : TickContext) : Daemon Unit := do
  let s ← get
  if s.candidateWorker.any TrackedChild.exited then rollback context
  else if s.candidateDeadline.any fun deadline => deadline ≤ s.now then rollback context
  else pure ()

/-- `_check_candidate_still_alive_while_ready` -/
def checkCandidateStillAliveWhileReady (context : TickContext) : Daemon Unit := do
  let s ← get
  if s.candidateWorker.any TrackedChild.exited then rollback context
  else match s.candidateReadyAt with
    | none => modify fun s => { s with candidateReadyAt := some s.now }
    | some readyAt =>
      if config.candidateAcceptanceTimeout ≤ s.now - readyAt then rollback context
      else pure ()

/-- `_tick` -/
def tick (context : TickContext) : Daemon Unit := do
  let s ← get
  match s.ipc.state.activation with
  | none => do
    modify adoptPromotedCandidateIfAny
    checkActiveWorkerLiveness context
  | some activation =>
    match activation.phase with
    | activationRequested => beginCandidateLaunchTick config context activation
    | candidateStarting => checkCandidateReadinessTimeout context
    | candidateReady => checkCandidateStillAliveWhileReady config context
    | rollbackRequested => finishRollbackTick context
    | _ => pure ()

/-- `start` up to the loop: recover, then launch the active worker. -/
def start (context : TickContext) : Daemon Unit := do
  let s ← get
  if recoveryActionFor s.ipc.state ≠ .noAction then
    onIpc (persist context.writes.recovered
      (applyRecovery s.ipc.state (recoveryActionFor s.ipc.state)))
  launchActiveWorker context

/-- A supervisor process that has read its state and done nothing yet. -/
def SupervisorDaemon.initial (state : RuntimeState) (now : ℚ) : SupervisorDaemon where
  ipc := ⟨state, [state], .empty⟩
  lifecycle := {}
  activeWorker := none
  candidateWorker := none
  candidateDeadline := none
  candidateReadyAt := none
  oldWorkerStopRequestedAt := none
  now := now

end IsadoraAir.Supervisor
