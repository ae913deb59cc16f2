import IsadoraAir.Supervisor.Daemon

/-!
# What a tick does

Each function of the event loop with everything it can leave behind, under the
bookkeeping that holds between ticks: the lifecycle runs exactly when an active
worker is held, and none is held while a candidate has been announced.
-/

namespace IsadoraAir.Supervisor

open ActivationPhase Procedure

variable {i i' : IpcServer} {write : Write}
  {a : ActivationTransaction} {r : RuntimeState} {s : SupervisorDaemon}
  {config : DaemonConfig} {context : TickContext}

/-- The lifecycle follows the active worker. -/
def SupervisorDaemon.Tracked (s : SupervisorDaemon) : Prop :=
  s.lifecycle.state = if s.activeWorker.isSome then .running else .none

/-- The phases from the announcement of a candidate on. -/
def announcedPhases : List ActivationPhase := [candidateStarting, candidateReady, rollbackRequested]

/-- What holds between any two steps of the event loop. -/
structure SupervisorDaemon.Orderly (s : SupervisorDaemon) : Prop where
  tracked : s.Tracked
  yielded : ∀ a, s.ipc.state.activation = some a → a.phase ∈ announcedPhases →
    s.activeWorker = none

/-! ## Restarting the active worker -/

/-- The launch of the active worker succeeds. -/
def ActiveLaunches (context : TickContext) (state : RuntimeState) : Prop :=
  checkIdentity state.activeGeneration state.activeDescriptorSha256 = .ok () ∧
    ∃ pid, context.activeLaunch = .ok pid

/-- A restart is refused by the window, fails, or launches what is recorded as
active. -/
inductive Restart (context : TickContext) (s : SupervisorDaemon) : SupervisorDaemon → Prop
  | refused (l : WorkerLifecycle) (hl : l.state = .none) (hexhausted : l.Exhausted s.now) :
    Restart context s { s with lifecycle := l }
  | failed (l : WorkerLifecycle) (hl : l.state = .none)
    (hfails : ¬ActiveLaunches context s.ipc.state) : Restart context s { s with lifecycle := l }
  | launched (w : TrackedChild) (l : WorkerLifecycle) (hl : l.state = .running)
    (hidentity : w.identity = s.ipc.state.active) (hrunning : w.exited = false) :
    Restart context s { s with activeWorker := some w, lifecycle := l }

theorem onIpc_ensures {α : Type} {m : Ipc α}
    {R : Except Raised α → IpcServer → Prop} (h : Ensures m s.ipc R) :
    Ensures (onIpc m) s fun r s' => ∃ i, s' = { s with ipc := i } ∧ R r i :=
  Ensures.within h

theorem onLifecycle_ensures {α : Type} {m : Procedure WorkerLifecycle Raised α}
    {R : Except Raised α → WorkerLifecycle → Prop} (h : Ensures m s.lifecycle R) :
    Ensures (onLifecycle m) s fun r s' => ∃ l, s' = { s with lifecycle := l } ∧ R r l :=
  Ensures.within h

/-- A launch that returns has launched. -/
theorem launchActiveWorker_ensures (hl : s.lifecycle.state = .none)
    (hbudget : ¬s.lifecycle.Exhausted s.now) :
    Ensures (launchActiveWorker context) s fun r s' => Restart context s s' ∧
      (r = .ok () → s'.activeWorker.isSome ∧ s'.ipc = s.ipc ∧
        checkIdentity s.ipc.state.activeGeneration s.ipc.state.activeDescriptorSha256 = .ok ()) := by
  refine .get_bind ?_
  dsimp only
  cases hidentity : checkIdentity s.ipc.state.activeGeneration
      s.ipc.state.activeDescriptorSha256 with
  | error e =>
    refine .ofExcept_bind_error rfl ⟨.failed s.lifecycle hl fun hlaunches => ?_, nofun⟩
    rw [ActiveLaunches, hidentity] at hlaunches
    cases hlaunches.1
  | ok _ =>
    refine .ofExcept_bind rfl ?_
    cases hlaunch : context.activeLaunch with
    | error e =>
      refine .ofExcept_bind_error rfl ⟨.failed s.lifecycle hl fun hlaunches => ?_, nofun⟩
      obtain ⟨pid, hpid⟩ := hlaunches.2
      rw [hlaunch] at hpid
      cases hpid
    | ok pid =>
      refine .ofExcept_bind rfl (.modify_bind
        (.mono (onLifecycle_ensures (WorkerLifecycle.recordLaunch_ensures pid hl hbudget)) ?_))
      rintro _ _ ⟨l, rfl, -, hrunning⟩
      exact ⟨.launched _ l hrunning rfl rfl, fun _ => ⟨rfl, rfl, rfl⟩⟩

/-- The restart window, asked for a permission. -/
inductive Permitted (s : SupervisorDaemon) : Except Raised Bool → SupervisorDaemon → Prop
  | granted (hbudget : ¬s.lifecycle.Exhausted s.now) :
    Permitted s (.ok true) { s with lifecycle := s.lifecycle.pruneOldAttempts s.now }
  | refused (hexhausted : s.lifecycle.Exhausted s.now) :
    Permitted s (.ok false) { s with lifecycle := s.lifecycle.pruneOldAttempts s.now }

theorem launchPermitted_ensures (hl : s.lifecycle.state = .none) :
    Ensures (launchPermitted s.now) s (Permitted s) := by
  have hasked := onLifecycle_ensures (WorkerLifecycle.requireCanLaunch_ensures s.now hl)
  have htried : Ensures (do onLifecycle (WorkerLifecycle.requireCanLaunch s.now); pure true) s
      fun r s' => s' = { s with lifecycle := s.lifecycle.pruneOldAttempts s.now } ∧
        ((s.lifecycle.Exhausted s.now ∧ ∃ detail, r = .error (.lifecycle detail)) ∨
          (¬s.lifecycle.Exhausted s.now ∧ r = .ok true)) := by
    refine .bind hasked ?_ ?_
    · rintro _ _ ⟨_, rfl, rfl, ⟨-, _, hr⟩ | ⟨hbudget, -⟩⟩
      · cases hr
      · exact .pure ⟨rfl, .inr ⟨hbudget, rfl⟩⟩
    · rintro _ _ ⟨_, rfl, rfl, ⟨hexhausted, detail, hr⟩ | ⟨-, hr⟩⟩
      · cases hr
        exact ⟨rfl, .inl ⟨hexhausted, detail, rfl⟩⟩
      · cases hr
  refine .tryCatch htried ?_ ?_
  · rintro _ _ ⟨rfl, ⟨-, _, hr⟩ | ⟨hbudget, hr⟩⟩
    · cases hr
    · cases hr
      exact .granted hbudget
  · rintro _ _ ⟨rfl, ⟨hexhausted, detail, hr⟩ | ⟨-, hr⟩⟩
    · cases hr
      exact .pure (.refused hexhausted)
    · cases hr

theorem restartActiveWorkerIfNeeded_ensures
    (hactive : s.activeWorker = none) (hl : s.lifecycle.state = .none) :
    Ensures (restartActiveWorkerIfNeeded context) s fun _ s' => Restart context s s' := by
  refine .get_bind ?_
  rw [if_neg (by simp [hactive])]
  refine .bind (launchPermitted_ensures hl) ?_ ?_
  · intro permitted s₁ h
    cases h with
    | refused hexhausted =>
      exact .pure (.refused _ hl (WorkerLifecycle.exhausted_pruneOldAttempts.mpr hexhausted))
    | granted hbudget =>
      have hbudget' := fun h => hbudget (WorkerLifecycle.exhausted_pruneOldAttempts.mp h)
      refine .mono (launchActiveWorker_ensures hl hbudget') fun _ s' h => ?_
      cases h.1 with
      | refused l hl hexhausted => exact .refused l hl hexhausted
      | failed l hl hfails => exact .failed l hl hfails
      | launched w l hl hidentity hrunning => exact .launched w l hl hidentity hrunning
  · intro e s₁ h
    cases h

/-! ## Watching the active worker -/

/-- A running worker is kept; a missing or exited one is replaced. -/
inductive Liveness (context : TickContext) (s : SupervisorDaemon) : SupervisorDaemon → Prop
  | kept (w : TrackedChild) (hw : s.activeWorker = some w) (hrunning : w.exited = false) :
    Liveness context s s
  | restarted (l : WorkerLifecycle) (s' : SupervisorDaemon)
    (h : Restart context { s with activeWorker := none, lifecycle := l } s') :
    Liveness context s s'

theorem SupervisorDaemon.Tracked.lifecycle_none (h : s.Tracked)
    (hactive : s.activeWorker = none) : s.lifecycle.state = .none := by
  rw [h, hactive]
  rfl

theorem SupervisorDaemon.Tracked.lifecycle_running (h : s.Tracked)
    {w : TrackedChild} (hactive : s.activeWorker = some w) : s.lifecycle.state = .running := by
  rw [h, hactive]
  rfl

theorem noteActiveWorkerExit_ensures (hl : s.lifecycle.state = .running) :
    Ensures noteActiveWorkerExit s fun r s' => r = .ok () ∧ ∃ l, l.state = .none ∧
      s' = { s with activeWorker := none, lifecycle := l } := by
  refine .bind (onLifecycle_ensures (WorkerLifecycle.recordExit_ensures hl)) ?_ ?_
  · rintro _ _ ⟨l, rfl, -, hcleared⟩
    exact .modify ⟨rfl, l, by rw [hcleared], rfl⟩
  · rintro _ _ ⟨_, -, hr, -⟩
    cases hr

theorem checkActiveWorkerLiveness_ensures (h : s.Tracked) :
    Ensures (checkActiveWorkerLiveness context) s fun _ s' => Liveness context s s' := by
  refine .get_bind ?_
  cases hactive : s.activeWorker with
  | none =>
    refine .mono (restartActiveWorkerIfNeeded_ensures hactive (h.lifecycle_none hactive)) ?_
    intro _ s' hrestart
    have hsame : { s with activeWorker := none, lifecycle := s.lifecycle } = s := by rw [← hactive]
    exact .restarted s.lifecycle s' (by rwa [hsame])
  | some w =>
    dsimp only
    split_ifs with hexited
    · refine .bind (noteActiveWorkerExit_ensures (h.lifecycle_running hactive)) ?_ ?_
      · rintro _ _ ⟨-, l, hl, rfl⟩
        exact .mono (restartActiveWorkerIfNeeded_ensures rfl hl) fun _ s' h => .restarted l s' h
      · rintro _ _ ⟨hr, -⟩
        cases hr
    · exact .pure (.kept w hactive (by simpa using hexited))

/-! ## Waiting for the old worker -/

/-- The old worker is gone, or its time is up. -/
def oldWorkerYields (config : DaemonConfig) (s : SupervisorDaemon) : Bool :=
  s.activeWorker.all TrackedChild.exited ||
    s.oldWorkerStopRequestedAt.any fun t => config.oldWorkerYieldTimeout ≤ s.now - t

/-- A running worker is waited for with a timer armed; in the end none is left. -/
inductive Yield (config : DaemonConfig) (s : SupervisorDaemon) :
    Except Raised Bool → SupervisorDaemon → Prop
  | waiting (w : TrackedChild) (hw : s.activeWorker = some w)
    (hwaits : oldWorkerYields config s = false) :
    Yield config s (.ok false)
      { s with oldWorkerStopRequestedAt := some (s.oldWorkerStopRequestedAt.getD s.now) }
  | yielded (l : WorkerLifecycle) (hl : l.state = .none) (stop : Option ℚ)
    (hstop : stop = none ∨ stop = s.oldWorkerStopRequestedAt)
    (hyields : oldWorkerYields config s = true) :
    Yield config s (.ok true)
      { s with activeWorker := none, lifecycle := l, oldWorkerStopRequestedAt := stop }

theorem oldWorkerHasYielded_ensures (h : s.Tracked) :
    Ensures (oldWorkerHasYielded config) s (Yield config s) := by
  refine .get_bind ?_
  cases hactive : s.activeWorker with
  | none =>
    have hsame : s = { s with
        activeWorker := none
        lifecycle := s.lifecycle
        oldWorkerStopRequestedAt := s.oldWorkerStopRequestedAt } := by rw [← hactive]
    have hyields : oldWorkerYields config s = true := by simp [oldWorkerYields, hactive]
    refine .pure ?_
    conv => arg 4; rw [hsame]
    exact .yielded s.lifecycle (h.lifecycle_none hactive) _ (.inr rfl) hyields
  | some w =>
    have hnoted : oldWorkerYields config s = true →
        Ensures (do
            noteActiveWorkerExit
            modify fun s => { s with oldWorkerStopRequestedAt := none }
            pure true) s (Yield config s) := by
      intro hyields
      refine .bind (noteActiveWorkerExit_ensures (h.lifecycle_running hactive)) ?_ ?_
      · rintro _ _ ⟨-, l, hl, rfl⟩
        exact .modify_bind (.pure (.yielded l hl none (.inl rfl) hyields))
      · rintro _ _ ⟨hr, -⟩
        cases hr
    dsimp only
    split_ifs with hexited
    · exact hnoted (by simp [oldWorkerYields, hactive, hexited])
    · cases hstop : s.oldWorkerStopRequestedAt with
      | none =>
        have hwaits : oldWorkerYields config s = false := by
          simp [oldWorkerYields, hactive, hexited, hstop]
        have hwaiting := Yield.waiting w hactive hwaits
        rw [hstop] at hwaiting
        exact .modify_bind (.pure hwaiting)
      | some t =>
        dsimp only
        split_ifs with hdue
        · exact hnoted (by simp [oldWorkerYields, hstop, hdue])
        · have hwaits : oldWorkerYields config s = false := by
            simp [oldWorkerYields, hactive, hexited, hstop, hdue]
          have hwaiting := Yield.waiting w hactive hwaits
          have hsame : { s with oldWorkerStopRequestedAt := some (s.oldWorkerStopRequestedAt.getD s.now) } = s := by
            rw [hstop, Option.getD_some, ← hstop]
          rw [hsame] at hwaiting
          exact .pure hwaiting

/-! ## The records a tick writes -/

/-- What a tick may write: the settled record, or the transaction in another phase. -/
def TickWrites (r d : RuntimeState) : Prop :=
  d = r.settled ∨ ∃ a p, r.activation = some a ∧ d = r.withActivation { a with phase := p }

theorem TickWrites.moved {d : RuntimeState} {p : ActivationPhase}
    (ha : r.activation = some a) (h : TickWrites (r.withActivation { a with phase := p }) d) :
    TickWrites r d := by
  obtain hsettled | ⟨a', q, ha', hd⟩ := h
  · exact .inl hsettled
  · cases ha'
    exact .inr ⟨a, q, ha, hd⟩

/-- The server after writes of a tick, with the record they have led to. -/
structure IpcServer.Became (i : IpcServer) (r : RuntimeState) (i' : IpcServer) : Prop where
  state : i'.state = r
  clients : i'.clientTransactions = i.clientTransactions
  wrote : Wrote (TickWrites i.state) i i'

theorem Persisted.became {u : Unit}
    (h : Persisted write r i (.ok u) i') (hr : TickWrites i.state r) :
    write = .done ∧ i.Became r i' := by
  cases h with
  | done hwrite => exact ⟨hwrite, rfl, rfl, .one rfl hr⟩

theorem Persisted.stayed {e : Raised}
    (h : Persisted write r i (.error e) i') (hr : TickWrites i.state r) :
    write ≠ .done ∧ (∀ detail, e ≠ .supervisor detail) ∧ i.Became i.state i' := by
  cases h with
  | raised hwrite e he i' hstate hclients hdisk =>
    refine ⟨hwrite, he, hstate, hclients, hdisk.mono fun d hd => ?_⟩
    rwa [hd.1]

/-! ## Launching the candidate -/

/-- The candidate of `a` can be identified and its process starts. -/
def CandidateLaunches (context : TickContext) (s : SupervisorDaemon) (a : ActivationTransaction) :
    Prop :=
  ∃ uuid pid, resumableJobUuidFor s a.transactionId = .ok uuid ∧
    checkCandidateIdentity a.candidateGeneration a.candidateDescriptorSha256 uuid = .ok () ∧
    context.candidateLaunch = .ok pid

/-- What a transaction's candidate is launched as. -/
def ActivationTransaction.candidate (a : ActivationTransaction) : Slot × ℤ × String :=
  (a.candidateSlot, a.candidateGeneration, a.candidateDescriptorSha256)

theorem launchCandidate_ensures (a : ActivationTransaction) :
    Ensures (launchCandidate config context a) s fun _ s' =>
      (¬CandidateLaunches context s a ∧ s' = s) ∨
        ∃ c : TrackedChild, c.identity = a.candidate ∧
          s' = { s with
            candidateWorker := some c
            candidateDeadline := some (s.now + config.candidateReadinessTimeout) } := by
  refine .get_bind ?_
  cases huuid : resumableJobUuidFor s a.transactionId with
  | error e =>
    refine .ofExcept_bind_error rfl (.inl ⟨?_, rfl⟩)
    rintro ⟨_, _, huuid', -, -⟩
    rw [huuid] at huuid'
    cases huuid'
  | ok uuid =>
    refine .ofExcept_bind rfl ?_
    cases hidentity : checkCandidateIdentity a.candidateGeneration a.candidateDescriptorSha256
        uuid with
    | error e =>
      refine .ofExcept_bind_error rfl (.inl ⟨?_, rfl⟩)
      rintro ⟨_, _, huuid', hidentity', -⟩
      rw [huuid] at huuid'
      cases huuid'
      rw [hidentity] at hidentity'
      cases hidentity'
    | ok _ =>
      refine .ofExcept_bind rfl ?_
      cases hlaunch : context.candidateLaunch with
      | error e =>
        refine .ofExcept_bind_error rfl (.inl ⟨?_, rfl⟩)
        rintro ⟨_, _, -, -, hlaunch'⟩
        rw [hlaunch] at hlaunch'
        cases hlaunch'
      | ok pid => exact .ofExcept_bind rfl (.modify (.inr ⟨_, rfl, rfl⟩))

/-- The tick's state once the old worker is gone. -/
def SupervisorDaemon.yielded (s : SupervisorDaemon) (l : WorkerLifecycle) (stop : Option ℚ)
    (i : IpcServer) : SupervisorDaemon :=
  { s with
    ipc := i, activeWorker := none, lifecycle := l, oldWorkerStopRequestedAt := stop
    candidateReadyAt := none }

/-- How a tick serves a requested activation. -/
inductive Serving (config : DaemonConfig) (context : TickContext) (a : ActivationTransaction)
    (s : SupervisorDaemon) : SupervisorDaemon → Prop
  | held (h : s.candidateWorker.isSome) : Serving config context a s s
  | waiting (w : TrackedChild) (hw : s.activeWorker = some w)
    (hwaits : oldWorkerYields config s = false) : Serving config context a s
      { s with oldWorkerStopRequestedAt := some (s.oldWorkerStopRequestedAt.getD s.now) }
  | unannounced (l : WorkerLifecycle) (hl : l.state = .none) (stop : Option ℚ)
    (hstop : stop = none ∨ stop = s.oldWorkerStopRequestedAt) (i : IpcServer)
    (hi : s.ipc.Became s.ipc.state i) (hwrite : context.writes.starting ≠ .done)
    (hfree : s.candidateWorker = none) : Serving config context a s (s.yielded l stop i)
  | unlaunched (l : WorkerLifecycle) (hl : l.state = .none) (stop : Option ℚ)
    (hstop : stop = none ∨ stop = s.oldWorkerStopRequestedAt) (i : IpcServer)
    (hi : s.ipc.Became (s.ipc.state.withActivation { a with phase := candidateStarting }) i)
    (hyields : oldWorkerYields config s) (hwrite : context.writes.starting = .done)
    (hfree : s.candidateWorker = none) (hfails : ¬CandidateLaunches context s a) :
    Serving config context a s (s.yielded l stop i)
  | launched (l : WorkerLifecycle) (hl : l.state = .none) (stop : Option ℚ)
    (hstop : stop = none ∨ stop = s.oldWorkerStopRequestedAt) (i : IpcServer)
    (hi : s.ipc.Became (s.ipc.state.withActivation { a with phase := candidateStarting }) i)
    (c : TrackedChild) (hidentity : c.identity = a.candidate) : Serving config context a s
      { s.yielded l stop i with
        candidateWorker := some c
        candidateDeadline := some (s.now + config.candidateReadinessTimeout) }

/-- The announcement is written, or its write ends the tick. -/
theorem announceCandidateLaunch_ensures
    (ha : s.ipc.state.activation = some a) (hphase : a.phase = activationRequested) :
    Ensures (announceCandidateLaunch context) s fun r s' => ∃ i, s' = { s with ipc := i } ∧
      ((r = .ok true ∧ context.writes.starting = .done ∧
          s.ipc.Became (s.ipc.state.withActivation { a with phase := candidateStarting }) i) ∨
        (∃ e, r = .error e ∧ context.writes.starting ≠ .done ∧ s.ipc.Became s.ipc.state i)) := by
  have hrequested : s.ipc.state.phase = some activationRequested := by
    rw [RuntimeState.phase, ha, Option.map_some, hphase]
  have hallowed : TickWrites s.ipc.state
      (s.ipc.state.withActivation { a with phase := candidateStarting }) := .inr ⟨a, _, ha, rfl⟩
  have hbegun : Ensures (onIpc (beginCandidateLaunch context.writes)) s fun r s' =>
      ∃ i, s' = { s with ipc := i } ∧ Persisted context.writes.starting
        (s.ipc.state.withActivation { a with phase := candidateStarting }) s.ipc r i := by
    refine .mono (onIpc_ensures (beginCandidateLaunch_ensures context.writes s.ipc)) ?_
    rintro r _ ⟨i, rfl, ⟨e, -, -, hnot⟩ | ⟨a', ha', -, hpersisted⟩⟩
    · exact absurd hrequested hnot
    · obtain rfl : a = a' := Option.some.inj (ha.symm.trans ha')
      exact ⟨i, rfl, hpersisted⟩
  have htried : Ensures (do onIpc (beginCandidateLaunch context.writes); pure true) s
      fun r s' => ∃ i, s' = { s with ipc := i } ∧
        ((r = .ok true ∧ context.writes.starting = .done ∧
            s.ipc.Became (s.ipc.state.withActivation { a with phase := candidateStarting }) i) ∨
          (∃ e, r = .error e ∧ (∀ detail, e ≠ .supervisor detail) ∧
            context.writes.starting ≠ .done ∧ s.ipc.Became s.ipc.state i)) := by
    refine .bind hbegun ?_ ?_
    · rintro _ _ ⟨i, rfl, hpersisted⟩
      exact .pure ⟨i, rfl, .inl ⟨rfl, hpersisted.became hallowed⟩⟩
    · rintro e _ ⟨i, rfl, hpersisted⟩
      obtain ⟨hwrite, he, hbecame⟩ := hpersisted.stayed hallowed
      exact ⟨i, rfl, .inr ⟨e, rfl, he, hwrite, hbecame⟩⟩
  refine .tryCatch htried ?_ ?_
  · rintro _ _ ⟨i, rfl, ⟨hr, hdone⟩ | ⟨_, hr, -⟩⟩
    · exact ⟨i, rfl, .inl ⟨hr, hdone⟩⟩
    · cases hr
  · rintro e _ ⟨i, rfl, ⟨hr, -⟩ | ⟨_, hr, he, hfailed⟩⟩
    · cases hr
    · cases hr
      cases e with
      | supervisor detail => exact absurd rfl (he detail)
      | _ => exact .throw ⟨i, rfl, .inr ⟨_, rfl, hfailed⟩⟩

theorem beginCandidateLaunchTick_ensures (h : s.Tracked) (ha : s.ipc.state.activation = some a)
    (hphase : a.phase = activationRequested) :
    Ensures (beginCandidateLaunchTick config context a) s fun _ s' =>
      Serving config context a s s' := by
  refine .get_bind ?_
  split_ifs with hheld
  · exact .pure (.held hheld)
  · have hfree : s.candidateWorker = none := by simpa using hheld
    refine .bind (oldWorkerHasYielded_ensures h) ?_ ?_
    · intro yielded s₁ hyield
      cases hyield with
      | waiting w hw hwaits => exact .pure (.waiting w hw hwaits)
      | yielded l hl stop hstop hyields =>
        refine .modify_bind (.bind (announceCandidateLaunch_ensures ha hphase) ?_ ?_)
        · rintro _ _ ⟨i, rfl, ⟨hr, hwrite, hi⟩ | ⟨_, hr, -⟩⟩
          · cases hr
            refine .mono (launchCandidate_ensures a) ?_
            rintro _ _ (⟨hfails, rfl⟩ | ⟨c, hidentity, rfl⟩)
            · refine .unlaunched l hl stop hstop i hi hyields hwrite hfree ?_
              rintro ⟨uuid, pid, huuid, hrest⟩
              refine hfails ⟨uuid, pid, ?_, hrest⟩
              rw [← huuid]
              unfold resumableJobUuidFor
              dsimp only
              rw [hi.clients]
            · exact .launched l hl stop hstop i hi c hidentity
          · cases hr
        · rintro e _ ⟨i, rfl, ⟨hr, -⟩ | ⟨_, -, hwrite, hi⟩⟩
          · cases hr
          · exact .unannounced l hl stop hstop i hi hwrite hfree
    · intro e s₁ hyield
      cases hyield

/-! ## Rolling back -/

/-- A rollback under way is finished, or its write ends the tick. -/
inductive Finishing (context : TickContext) (s : SupervisorDaemon) : SupervisorDaemon → Prop
  | unfinished (hwrite : context.writes.finished ≠ .done) (i : IpcServer)
    (hi : s.ipc.Became s.ipc.state i) : Finishing context s { s with ipc := i }
  | finished (i : IpcServer) (hi : s.ipc.Became s.ipc.state.settled i) (s' : SupervisorDaemon)
    (h : Restart context { s with ipc := i } s') : Finishing context s s'

theorem finishRollbackTick_ensures (htracked : s.Tracked)
    (hactive : s.activeWorker = none) (hphase : s.ipc.state.phase = some rollbackRequested) :
    Ensures (finishRollbackTick context) s fun _ s' => Finishing context s s' := by
  have hfinish : finishRollback s.ipc.state = .ok s.ipc.state.settled :=
    finishRollback_ok.mpr ⟨hphase, rfl⟩
  refine .get_bind (.ofExcept_bind hfinish (.bind (onIpc_ensures (persist_ensures _ _ _)) ?_ ?_))
  · rintro _ _ ⟨i, rfl, hpersisted⟩
    obtain ⟨-, hi⟩ := hpersisted.became (.inl rfl)
    exact .mono (restartActiveWorkerIfNeeded_ensures hactive (htracked.lifecycle_none hactive))
      fun _ s' h => .finished i hi s' h
  · rintro _ _ ⟨i, rfl, hpersisted⟩
    obtain ⟨hwrite, -, hi⟩ := hpersisted.stayed (.inl rfl)
    exact .unfinished hwrite i hi

/-- The tick's state once the candidate has been terminated. -/
def SupervisorDaemon.withoutCandidate (s : SupervisorDaemon) (i : IpcServer) : SupervisorDaemon :=
  { s with ipc := i, candidateWorker := none, candidateDeadline := none, candidateReadyAt := none }

/-- A rollback terminates the candidate, whatever becomes of its writes. -/
inductive RollingBack (context : TickContext) (a : ActivationTransaction) (s : SupervisorDaemon) :
    SupervisorDaemon → Prop
  | unrecorded (hwrite : context.writes.rollback ≠ .done) (i : IpcServer)
    (hi : s.ipc.Became s.ipc.state i) : RollingBack context a s (s.withoutCandidate i)
  | recorded (i : IpcServer)
    (hi : s.ipc.Became (s.ipc.state.withActivation { a with phase := rollbackRequested }) i)
    (s' : SupervisorDaemon) (h : Finishing context (s.withoutCandidate i) s') :
    RollingBack context a s s'

theorem recordRollback_ensures
    (ha : s.ipc.state.activation = some a) (hlive : a.phase ∈ phasesWithALiveCandidateProcess) :
    Ensures (recordRollback context) s fun r s' => ∃ i, s' = { s with ipc := i } ∧
      ((r = .ok true ∧
          s.ipc.Became (s.ipc.state.withActivation { a with phase := rollbackRequested }) i) ∨
        (∃ e, r = .error e ∧ context.writes.rollback ≠ .done ∧ s.ipc.Became s.ipc.state i)) := by
  have hallowed : TickWrites s.ipc.state
      (s.ipc.state.withActivation { a with phase := rollbackRequested }) := .inr ⟨a, _, ha, rfl⟩
  have hrequest : requestRollback s.ipc.state =
      .ok (s.ipc.state.withActivation { a with phase := rollbackRequested }) :=
    requestRollback_ok.mpr ⟨a, ha, hlive, rfl⟩
  have htried : Ensures (do
        let s ← get
        let rolled ← MonadExcept.ofExcept (requestRollback s.ipc.state)
        onIpc (persist context.writes.rollback rolled)
        pure true) s fun r s' => ∃ i, s' = { s with ipc := i } ∧
      ((r = .ok true ∧
          s.ipc.Became (s.ipc.state.withActivation { a with phase := rollbackRequested }) i) ∨
        (∃ e, r = .error e ∧ (∀ detail, e ≠ .supervisor detail) ∧
          context.writes.rollback ≠ .done ∧ s.ipc.Became s.ipc.state i)) := by
    refine .get_bind (.ofExcept_bind hrequest
      (.bind (onIpc_ensures (persist_ensures _ _ _)) ?_ ?_))
    · rintro _ _ ⟨i, rfl, hpersisted⟩
      exact .pure ⟨i, rfl, .inl ⟨rfl, (hpersisted.became hallowed).2⟩⟩
    · rintro e _ ⟨i, rfl, hpersisted⟩
      obtain ⟨hwrite, he, hi⟩ := hpersisted.stayed hallowed
      exact ⟨i, rfl, .inr ⟨e, rfl, he, hwrite, hi⟩⟩
  refine .tryCatch htried ?_ ?_
  · rintro _ _ ⟨i, rfl, hdone | ⟨_, hr, -⟩⟩
    · exact ⟨i, rfl, .inl hdone⟩
    · cases hr
  · rintro e _ ⟨i, rfl, ⟨hr, -⟩ | ⟨_, hr, he, hfailed⟩⟩
    · cases hr
    · cases hr
      cases e with
      | supervisor detail => exact absurd rfl (he detail)
      | _ => exact .throw ⟨i, rfl, .inr ⟨_, rfl, hfailed⟩⟩

theorem rollback_ensures (htracked : s.Tracked) (hactive : s.activeWorker = none)
    (ha : s.ipc.state.activation = some a) (hlive : a.phase ∈ phasesWithALiveCandidateProcess) :
    Ensures (rollback context) s fun _ s' => RollingBack context a s s' := by
  refine .modify_bind (.bind (recordRollback_ensures ha hlive) ?_ ?_)
  · rintro _ _ ⟨i, rfl, ⟨hr, hi⟩ | ⟨_, hr, -⟩⟩
    · cases hr
      have hphase : i.state.phase = some rollbackRequested := by
        rw [hi.state]
        rfl
      refine .mono (finishRollbackTick_ensures htracked hactive hphase) ?_
      intro _ s' h
      have hi' : s.ipc.Became (s.ipc.state.withActivation { a with phase := rollbackRequested }) i :=
        hi
      exact RollingBack.recorded i hi' s' h
    · cases hr
  · rintro _ _ ⟨i, rfl, ⟨hr, -⟩ | ⟨_, -, hwrite, hi⟩⟩
    · cases hr
    · exact .unrecorded hwrite i hi

/-! ## The tick -/

/-- The candidate of a transaction has exited or run out of time. -/
def overdue (config : DaemonConfig) (s : SupervisorDaemon) (p : ActivationPhase) : Bool :=
  s.candidateWorker.any TrackedChild.exited ||
    if p = candidateStarting then s.candidateDeadline.any fun deadline => deadline ≤ s.now
    else s.candidateReadyAt.any fun t => config.candidateAcceptanceTimeout ≤ s.now - t

/-- The phases for which a tick has a branch. -/
def servedPhases : List ActivationPhase :=
  [activationRequested, candidateStarting, candidateReady, rollbackRequested]

/-- Everything a tick can leave behind. -/
inductive TickEffect (config : DaemonConfig) (context : TickContext) (s : SupervisorDaemon) :
    SupervisorDaemon → Prop
  | idle (hidle : s.ipc.state.activation = none) (s' : SupervisorDaemon)
    (h : Liveness context (adoptPromotedCandidateIfAny s) s') : TickEffect config context s s'
  | serving (a : ActivationTransaction) (ha : s.ipc.state.activation = some a)
    (hphase : a.phase = activationRequested) (s' : SupervisorDaemon)
    (h : Serving config context a s s') : TickEffect config context s s'
  | starting (a : ActivationTransaction) (ha : s.ipc.state.activation = some a)
    (hphase : a.phase = candidateStarting) (hnot : overdue config s a.phase = false) :
    TickEffect config context s s
  | ready (a : ActivationTransaction) (ha : s.ipc.state.activation = some a)
    (hphase : a.phase = candidateReady) (hnot : overdue config s a.phase = false) :
    TickEffect config context s { s with candidateReadyAt := some (s.candidateReadyAt.getD s.now) }
  | overdue (a : ActivationTransaction) (ha : s.ipc.state.activation = some a)
    (hlive : a.phase ∈ phasesWithALiveCandidateProcess) (hdue : overdue config s a.phase)
    (s' : SupervisorDaemon) (h : RollingBack context a s s') : TickEffect config context s s'
  | finishing (a : ActivationTransaction) (ha : s.ipc.state.activation = some a)
    (hphase : a.phase = rollbackRequested) (s' : SupervisorDaemon)
    (h : Finishing context s s') : TickEffect config context s s'
  | ignored (a : ActivationTransaction) (ha : s.ipc.state.activation = some a)
    (hphase : a.phase ∉ servedPhases) : TickEffect config context s s

theorem adoptPromotedCandidateIfAny_tracked (h : s.Tracked) :
    (adoptPromotedCandidateIfAny s).Tracked := by
  unfold adoptPromotedCandidateIfAny
  cases s.candidateWorker with
  | none => exact h
  | some c => rfl

theorem checkCandidateReadinessTimeout_ensures
    (h : s.Orderly) (ha : s.ipc.state.activation = some a) (hphase : a.phase = candidateStarting) :
    Ensures (checkCandidateReadinessTimeout context) s fun _ s' => TickEffect config context s s' := by
  have hactive : s.activeWorker = none := h.yielded a ha (by rw [hphase]; decide)
  have hlive : a.phase ∈ phasesWithALiveCandidateProcess := by rw [hphase]; decide
  have hrollback : overdue config s a.phase → Ensures (rollback context) s fun _ s' =>
      TickEffect config context s s' := fun hdue =>
    .mono (rollback_ensures h.tracked hactive ha hlive)
      fun _ s' hrolled => .overdue a ha hlive hdue s' hrolled
  refine .get_bind ?_
  split_ifs with hexited hdue
  · exact hrollback (by simp [Supervisor.overdue, hexited])
  · exact hrollback (by simp [Supervisor.overdue, hphase, hdue])
  · exact .pure (.starting a ha hphase (by simp [Supervisor.overdue, hphase, hexited, hdue]))

theorem checkCandidateStillAliveWhileReady_ensures (h : s.Orderly)
    (ha : s.ipc.state.activation = some a) (hphase : a.phase = candidateReady) :
    Ensures (checkCandidateStillAliveWhileReady config context) s fun _ s' =>
      TickEffect config context s s' := by
  have hactive : s.activeWorker = none := h.yielded a ha (by rw [hphase]; decide)
  have hlive : a.phase ∈ phasesWithALiveCandidateProcess := by rw [hphase]; decide
  have hrollback : overdue config s a.phase → Ensures (rollback context) s fun _ s' =>
      TickEffect config context s s' := fun hdue =>
    .mono (rollback_ensures h.tracked hactive ha hlive)
      fun _ s' hrolled => .overdue a ha hlive hdue s' hrolled
  refine .get_bind ?_
  split_ifs with hexited
  · exact hrollback (by simp [Supervisor.overdue, hexited])
  · cases hready : s.candidateReadyAt with
    | none =>
      have hnot : overdue config s a.phase = false := by
        simp [Supervisor.overdue, hphase, hexited, hready]
      have heffect : TickEffect config context s _ := .ready a ha hphase hnot
      rw [hready] at heffect
      exact .modify heffect
    | some t =>
      dsimp only
      split_ifs with hdue
      · exact hrollback (by simp [Supervisor.overdue, hphase, hready, hdue])
      · have hnot : overdue config s a.phase = false := by
          simp [Supervisor.overdue, hphase, hexited, hready, not_le.mp hdue]
        have heffect : TickEffect config context s _ := .ready a ha hphase hnot
        have hsame : { s with candidateReadyAt := some (s.candidateReadyAt.getD s.now) } = s := by
          rw [hready, Option.getD_some, ← hready]
        rw [hsame] at heffect
        exact .pure heffect

theorem tick_ensures (h : s.Orderly) :
    Ensures (tick config context) s fun _ s' => TickEffect config context s s' := by
  refine .get_bind ?_
  cases ha : s.ipc.state.activation with
  | none =>
    have htracked := adoptPromotedCandidateIfAny_tracked h.tracked
    exact .modify_bind (.mono (checkActiveWorkerLiveness_ensures htracked)
      fun _ s' hliveness => .idle ha s' hliveness)
  | some a =>
    dsimp only
    split
    · next hphase =>
      exact .mono (beginCandidateLaunchTick_ensures h.tracked ha hphase)
        fun _ s' hserving => .serving a ha hphase s' hserving
    · next hphase => exact checkCandidateReadinessTimeout_ensures h ha hphase
    · next hphase => exact checkCandidateStillAliveWhileReady_ensures h ha hphase
    · next hphase =>
      have hactive : s.activeWorker = none := h.yielded a ha (by rw [hphase]; decide)
      have hrequested : s.ipc.state.phase = some rollbackRequested := by
        rw [RuntimeState.phase, ha, Option.map_some, hphase]
      exact .mono (finishRollbackTick_ensures h.tracked hactive hrequested)
        fun _ s' hfinishing => .finishing a ha hphase s' hfinishing
    · next hrequested hstarting hready hrollback =>
      refine .pure (.ignored a ha ?_)
      simp only [servedPhases, List.mem_cons, List.not_mem_nil, or_false, not_or]
      exact ⟨hrequested, hstarting, hready, hrollback⟩

end IsadoraAir.Supervisor
