import IsadoraAir.Supervisor.Persistence

/-!
# The two threads of the supervisor

A handler of the socket thread runs as a whole, under its lock. The event loop rolls back without
that lock: it reads the record, computes another one from it, renames the state file and assigns
the record, and a request can come between any two of these. Left alone, the steps of the event
loop make up one tick.
-/

namespace IsadoraAir.Supervisor

open ActivationPhase Procedure Relation

variable {activation : ActivationTransaction} {rest : Daemon Unit} {purpose : Purpose}
  {s : SupervisorDaemon}

/-! ## The event loop, step by step -/

/-- The records that the event loop computes outside the lock, by the function that does. -/
inductive Purpose where
  | rollback
  | failure
  | finish
  deriving DecidableEq, Repr

namespace Purpose

def compute : Purpose → RuntimeState → Except Raised RuntimeState
  | rollback => requestRollback
  | failure => failTransaction
  | finish => finishRollback

def write : Purpose → Writes → Write
  | rollback => Writes.rollback
  | failure => Writes.failed
  | finish => Writes.finished

end Purpose

/-- Where the event loop stands, with what it has read by then. -/
inductive DaemonPoint where
  | betweenTicks
  | idle
  | requested
  | announcing (activation : Option ActivationTransaction)
  | launching (activation : Option ActivationTransaction)
  | starting
  | ready
  | reading (purpose : Purpose)
  | writing (purpose : Purpose) (record : RuntimeState)
  | assigning (purpose : Purpose) (record : RuntimeState)
  | restarting

/-- The supervisor with its event loop in the middle of a tick. -/
structure Threads where
  daemon : SupervisorDaemon
  point : DaemonPoint

variable (config : DaemonConfig) (context : TickContext)

/-- `_tick` has read the activation. -/
def tickPoint : Option ActivationTransaction → DaemonPoint
  | none => .idle
  | some activation =>
    match activation.phase with
    | activationRequested => .requested
    | candidateStarting => .starting
    | candidateReady => .ready
    | rollbackRequested => .reading .finish
    | _ => .betweenTicks

/-- `_rollback` has let go of the candidate. -/
def lettingGo (s : SupervisorDaemon) : Threads :=
  ⟨{ s with candidateWorker := none, candidateDeadline := none, candidateReadyAt := none },
    .reading .rollback⟩

/-- Where a refusal to compute leads: from the `try` of `_rollback` into its `except`, else out of
the tick. -/
def refusedPoint : Purpose → Raised → DaemonPoint
  | .rollback, .supervisor _ => .reading .failure
  | _, _ => .betweenTicks

def Purpose.next : Purpose → DaemonPoint
  | .rollback => .reading .finish
  | _ => .restarting

def daemonStep : DaemonPoint → SupervisorDaemon → Threads
  | .betweenTicks, s => ⟨s, tickPoint s.ipc.state.activation⟩
  | .idle, s =>
    ⟨((checkActiveWorkerLiveness context).exec (adoptPromotedCandidateIfAny s)).2, .betweenTicks⟩
  | .requested, s =>
    if s.candidateWorker.isSome then ⟨s, .betweenTicks⟩
    else match (oldWorkerHasYielded config).exec s with
      | (.ok true, s') => ⟨{ s' with candidateReadyAt := none }, .announcing s'.ipc.state.activation⟩
      | (_, s') => ⟨s', .betweenTicks⟩
  | .announcing activation, s =>
    match (announceCandidateLaunch context).exec s with
    | (.ok true, s') => ⟨s', .launching activation⟩
    | (_, s') => ⟨s', .betweenTicks⟩
  | .launching none, s => ⟨s, .betweenTicks⟩
  | .launching (some activation), s =>
    ⟨((launchCandidate config context activation).exec s).2, .betweenTicks⟩
  | .starting, s =>
    if s.candidateWorker.any TrackedChild.exited then lettingGo s
    else if s.candidateDeadline.any fun deadline => deadline ≤ s.now then lettingGo s
    else ⟨s, .betweenTicks⟩
  | .ready, s =>
    if s.candidateWorker.any TrackedChild.exited then lettingGo s
    else match s.candidateReadyAt with
      | none => ⟨{ s with candidateReadyAt := some s.now }, .betweenTicks⟩
      | some readyAt =>
        if config.candidateAcceptanceTimeout ≤ s.now - readyAt then lettingGo s
        else ⟨s, .betweenTicks⟩
  | .reading purpose, s =>
    match purpose.compute s.ipc.state with
    | .ok record => ⟨s, .writing purpose record⟩
    | .error e => ⟨s, refusedPoint purpose e⟩
  | .writing purpose record, s =>
    let replaced := { s with ipc := { s.ipc with disk := record :: s.ipc.disk } }
    match purpose.write context.writes with
    | .done => ⟨replaced, .assigning purpose record⟩
    | .failed => ⟨s, .betweenTicks⟩
    | .undetermined => ⟨replaced, .betweenTicks⟩
  | .assigning purpose record, s => ⟨{ s with ipc := { s.ipc with state := record } }, purpose.next⟩
  | .restarting, s => ⟨((restartActiveWorkerIfNeeded context).exec s).2, .betweenTicks⟩

/-- Steps of the event loop with nothing in between. -/
def Leads : Threads → Threads → Prop :=
  TransGen fun t t' => t' = daemonStep config context t.point t.daemon

variable {config context}

/-! ## A tick that is left alone -/

theorem leads_step (point : DaemonPoint) (s : SupervisorDaemon) :
    Leads config context ⟨s, point⟩ (daemonStep config context point s) := .single rfl

theorem leads_of_step {point : DaemonPoint} {t t' : Threads}
    (h : daemonStep config context point s = t) (hrest : Leads config context t t') :
    Leads config context ⟨s, point⟩ t' := .head h.symm hrest

theorem restarting_leads (s : SupervisorDaemon) :
    Leads config context ⟨s, .restarting⟩
      ⟨((restartActiveWorkerIfNeeded context).exec s).2, .betweenTicks⟩ := leads_step _ s

theorem exec_get_bind {σ ε β : Type} (f : σ → Procedure σ ε β) (s : σ) :
    (get >>= f : Procedure σ ε β).exec s = (f s).exec s := rfl

/-- What a purpose does in the procedures of a tick, once its record is computed. -/
theorem writing_leads {record : RuntimeState} {s' : SupervisorDaemon}

    (hrest : ∀ s, Leads config context ⟨s, purpose.next⟩ ⟨(rest.exec s).2, .betweenTicks⟩)
    (hs : ((onIpc (persist (purpose.write context.writes) record) >>=
      fun _ => rest).exec s).2 = s') :
    Leads config context ⟨s, .writing purpose record⟩ ⟨s', .betweenTicks⟩ := by
  subst hs
  cases hwrite : purpose.write context.writes with
  | done =>
    have hstep : daemonStep config context (.writing purpose record) s =
        ⟨{ s with ipc := { s.ipc with disk := record :: s.ipc.disk } },
          .assigning purpose record⟩ := by
      simp only [daemonStep, hwrite]
    exact leads_of_step hstep (leads_of_step rfl (hrest _))
  | failed =>
    refine .single ?_
    simp only [daemonStep, hwrite]
    rfl
  | undetermined =>
    refine .single ?_
    simp only [daemonStep, hwrite]
    rfl

/-- What a purpose that is not tried does, from the reading on. -/
theorem reading_leads (hrefused : ∀ e, refusedPoint purpose e = .betweenTicks)
    (hrest : ∀ s, Leads config context ⟨s, purpose.next⟩ ⟨(rest.exec s).2, .betweenTicks⟩)
    (s : SupervisorDaemon) :
    Leads config context ⟨s, .reading purpose⟩
      ⟨((do
          let s ← get
          let record ← MonadExcept.ofExcept (purpose.compute s.ipc.state)
          onIpc (persist (purpose.write context.writes) record)
          rest : Daemon Unit).exec s).2, .betweenTicks⟩ := by
  cases hcomputed : purpose.compute s.ipc.state with
  | ok record =>
    have hstep : daemonStep config context (.reading purpose) s = ⟨s, .writing purpose record⟩ := by
      simp only [daemonStep, hcomputed]
    refine leads_of_step hstep (writing_leads hrest ?_)
    rw [exec_get_bind, hcomputed]
    rfl
  | error e =>
    refine .single ?_
    simp only [daemonStep, hcomputed, hrefused]
    rw [exec_get_bind, hcomputed]
    rfl

theorem finishing_leads (s : SupervisorDaemon) :
    Leads config context ⟨s, .reading .finish⟩
      ⟨((finishRollbackTick context).exec s).2, .betweenTicks⟩ :=
  reading_leads (fun e => by cases e <;> rfl) restarting_leads s

theorem failing_leads (s : SupervisorDaemon) :
    Leads config context ⟨s, .reading .failure⟩
      ⟨((failInsteadOfRollback context).exec s).2, .betweenTicks⟩ :=
  reading_leads (fun e => by cases e <;> rfl) restarting_leads s

/-- What `_rollback` does once the candidate is let go, as the procedures of a tick have it. -/
def rollingBack (context : TickContext) : Daemon Unit := do
  let rolling ← recordRollback context
  if rolling then finishRollbackTick context else pure ()

theorem rolling_leads (s : SupervisorDaemon) :
    Leads config context ⟨s, .reading .rollback⟩
      ⟨((rollingBack context).exec s).2, .betweenTicks⟩ := by
  unfold rollingBack recordRollback
  rw [exec_bind, exec_tryCatch, exec_get_bind]
  cases hrolled : requestRollback s.ipc.state with
  | ok record =>
    have hstep : daemonStep config context (.reading .rollback) s =
        ⟨s, .writing .rollback record⟩ := by
      simp only [daemonStep, Purpose.compute, hrolled]
    refine leads_of_step hstep (writing_leads finishing_leads ?_)
    cases hwrite : context.writes.rollback <;> simp only [Purpose.write, hwrite] <;> rfl
  | error e =>
    cases e with
    | supervisor detail =>
      have hstep : daemonStep config context (.reading .rollback) s = ⟨s, .reading .failure⟩ := by
        simp only [daemonStep, Purpose.compute, hrolled, refusedPoint]
      refine leads_of_step hstep ?_
      have hfailing : Leads config context _ _ := failing_leads s
      convert hfailing using 2
      have hraised : (do
          let rolled ← MonadExcept.ofExcept (Except.error (.supervisor detail))
          onIpc (persist context.writes.rollback rolled)
          pure true : Daemon Bool).exec s = (.error (.supervisor detail), s) := rfl
      rw [hraised]
      dsimp only
      rw [exec_bind]
      rcases (failInsteadOfRollback context).exec s with ⟨e | u, s'⟩ <;> rfl
    | _ =>
      refine .single ?_
      simp only [daemonStep, Purpose.compute, hrolled, refusedPoint]
      rfl

theorem lettingGo_leads (s : SupervisorDaemon) :
    Leads config context (lettingGo s) ⟨((rollback context).exec s).2, .betweenTicks⟩ :=
  rolling_leads _

theorem starting_leads (s : SupervisorDaemon) :
    Leads config context ⟨s, .starting⟩
      ⟨((checkCandidateReadinessTimeout context).exec s).2, .betweenTicks⟩ := by
  unfold checkCandidateReadinessTimeout
  rw [exec_get_bind]
  by_cases hexited : s.candidateWorker.any TrackedChild.exited
  · refine leads_of_step (t := lettingGo s) (by simp only [daemonStep, if_pos hexited]) ?_
    rw [if_pos hexited]
    exact lettingGo_leads s
  · by_cases hdue : s.candidateDeadline.any fun deadline => deadline ≤ s.now
    · refine leads_of_step (t := lettingGo s)
        (by simp only [daemonStep, if_neg hexited, if_pos hdue]) ?_
      rw [if_neg hexited, if_pos hdue]
      exact lettingGo_leads s
    · refine .single ?_
      simp only [daemonStep, if_neg hexited, if_neg hdue]
      rfl

theorem ready_leads (s : SupervisorDaemon) :
    Leads config context ⟨s, .ready⟩
      ⟨((checkCandidateStillAliveWhileReady config context).exec s).2, .betweenTicks⟩ := by
  unfold checkCandidateStillAliveWhileReady
  rw [exec_get_bind]
  by_cases hexited : s.candidateWorker.any TrackedChild.exited
  · refine leads_of_step (t := lettingGo s) (by simp only [daemonStep, if_pos hexited]) ?_
    rw [if_pos hexited]
    exact lettingGo_leads s
  · rw [if_neg hexited]
    cases hready : s.candidateReadyAt with
    | none =>
      refine .single ?_
      simp only [daemonStep, if_neg hexited, hready]
      rfl
    | some readyAt =>
      by_cases hdue : config.candidateAcceptanceTimeout ≤ s.now - readyAt
      · refine leads_of_step (t := lettingGo s)
          (by simp only [daemonStep, if_neg hexited, hready, if_pos hdue]) ?_
        dsimp only
        rw [if_pos hdue]
        exact lettingGo_leads s
      · refine .single ?_
        simp only [daemonStep, if_neg hexited, hready, if_neg hdue]
        rfl

theorem onLifecycle_preserves {α : Type} (m : Procedure WorkerLifecycle Raised α) :
    Preserves SupervisorDaemon.ipc (onLifecycle m) :=
  .within fun _ _ => rfl

theorem noteActiveWorkerExit_preserves : Preserves SupervisorDaemon.ipc noteActiveWorkerExit :=
  .bind (onLifecycle_preserves _) fun _ => .modify fun _ => rfl

theorem oldWorkerHasYielded_preserves :
    Preserves SupervisorDaemon.ipc (oldWorkerHasYielded config) := by
  have hgone : Preserves SupervisorDaemon.ipc (do
      noteActiveWorkerExit
      modify fun s => { s with oldWorkerStopRequestedAt := none }
      pure true) :=
    .bind noteActiveWorkerExit_preserves fun _ =>
      .bind (.modify fun _ => rfl) fun _ => .pure true
  refine .get_bind fun s => ?_
  cases s.activeWorker with
  | none => exact .pure true
  | some w =>
    dsimp only
    split_ifs
    · exact hgone
    · cases s.oldWorkerStopRequestedAt with
      | none => exact .bind (.modify fun _ => rfl) fun _ => .pure false
      | some requestedAt =>
        dsimp only
        split_ifs
        · exact hgone
        · exact .pure false

theorem announcing_leads (s : SupervisorDaemon) :
    Leads config context ⟨s, .announcing (some activation)⟩
      ⟨((announceCandidateLaunch context >>= fun announced =>
        if announced then launchCandidate config context activation else pure ()).exec s).2,
        .betweenTicks⟩ := by
  rw [exec_bind]
  generalize hannounced : (announceCandidateLaunch context).exec s = result
  match result with
  | (.error e, s') =>
    refine .single ?_
    simp only [daemonStep, hannounced]
  | (.ok false, s') =>
    refine .single ?_
    simp only [daemonStep, hannounced]
    rfl
  | (.ok true, s') =>
    exact leads_of_step (t := ⟨s', .launching (some activation)⟩)
      (by simp only [daemonStep, hannounced]) (leads_step _ s')

theorem requested_leads (hactivation : s.ipc.state.activation = some activation) :
    Leads config context ⟨s, .requested⟩
      ⟨((beginCandidateLaunchTick config context activation).exec s).2, .betweenTicks⟩ := by
  have hsame : ((oldWorkerHasYielded config).exec s).2.ipc = s.ipc :=
    oldWorkerHasYielded_preserves s
  unfold beginCandidateLaunchTick
  rw [exec_get_bind]
  by_cases hheld : s.candidateWorker.isSome
  · refine .single ?_
    simp only [daemonStep, if_pos hheld]
    rfl
  · rw [if_neg hheld, exec_bind]
    generalize hyielded : (oldWorkerHasYielded config).exec s = result at hsame ⊢
    match result with
    | (.error e, s') =>
      refine .single ?_
      simp only [daemonStep, if_neg hheld, hyielded]
    | (.ok false, s') =>
      refine .single ?_
      simp only [daemonStep, if_neg hheld, hyielded]
      rfl
    | (.ok true, s') =>
      have hread : s'.ipc.state.activation = some activation := by rw [hsame, hactivation]
      refine leads_of_step
        (t := ⟨{ s' with candidateReadyAt := none }, .announcing (some activation)⟩)
        (by simp only [daemonStep, if_neg hheld, hyielded, hread]) ?_
      exact announcing_leads _

/-- Nothing coming in between, the event loop does what the tick does as a whole. -/
theorem tick_leads (s : SupervisorDaemon) :
    Leads config context ⟨s, .betweenTicks⟩ ⟨((tick config context).exec s).2, .betweenTicks⟩ := by
  unfold tick
  rw [exec_get_bind]
  cases hactivation : s.ipc.state.activation with
  | none => exact leads_of_step (by rw [daemonStep, hactivation, tickPoint]) (leads_step _ s)
  | some activation =>
    have hread (point : DaemonPoint) (h : tickPoint (some activation) = point) :
        daemonStep config context .betweenTicks s = ⟨s, point⟩ := by
      rw [daemonStep, hactivation, h]
    dsimp only
    split
    · next hphase =>
      exact leads_of_step (hread .requested (by simp [tickPoint, hphase]))
        (requested_leads hactivation)
    · next hphase =>
      exact leads_of_step (hread .starting (by simp [tickPoint, hphase])) (starting_leads s)
    · next hphase =>
      exact leads_of_step (hread .ready (by simp [tickPoint, hphase])) (ready_leads s)
    · next hphase =>
      exact leads_of_step (hread (.reading .finish) (by simp [tickPoint, hphase]))
        (finishing_leads s)
    · next hrequested hstarting hready hrollback =>
      refine .single (hread .betweenTicks ?_).symm
      simp only [tickPoint]

end IsadoraAir.Supervisor
