import IsadoraAir.Foundation.Runs
import IsadoraAir.Supervisor.Tick

/-!
# Runs of the supervisor

Requests, process exits, passing time and ticks in any order, each taken as a
whole and carrying what the outside decides about it. A step that raises keeps
what it had done: the event loop and the connection handler both go on.
-/

namespace IsadoraAir.Supervisor

open ActivationPhase Procedure

variable {a' : ActivationTransaction} {i i' : IpcServer} {state : RuntimeState}
  {s s' : SupervisorDaemon} {context : TickContext} {now : ℚ}

structure SupervisorConfig where
  ipc : IpcConfig := {}
  daemon : DaemonConfig := {}

inductive Event where
  | request (context : RequestContext) (request : Request)
  | exit (pid : ℕ)
  | elapse (seconds : ℚ) (forward : 0 ≤ seconds)
  | tick (context : TickContext)

def TrackedChild.noteExit (pid : ℕ) (c : TrackedChild) : TrackedChild :=
  { c with exited := c.exited || c.pid = pid }

def step (config : SupervisorConfig) : Event → SupervisorDaemon → SupervisorDaemon
  | .request context request, s => ((onIpc (dispatch config.ipc context request)).exec s).2
  | .exit pid, s =>
    { s with
      activeWorker := s.activeWorker.map (TrackedChild.noteExit pid)
      candidateWorker := s.candidateWorker.map (TrackedChild.noteExit pid) }
  | .elapse seconds _, s => { s with now := s.now + seconds }
  | .tick context, s => ((tick config.daemon context).exec s).2

/-! ## What a request does -/

/-- What one request can leave behind, by its kind. -/
inductive IpcEffect (config : IpcConfig) (context : RequestContext) (i : IpcServer) :
    Request → IpcServer → Prop
  | queried (request : Request) : IpcEffect config context i request i
  | activation (r : ActivationRequest) (i' : IpcServer)
    (hwrote : Wrote (RequestWrites context r i) i i')
    (h : RequestEffect config context r i i') : IpcEffect config context i (.requestActivation r) i'
  | readiness (report : ReadinessReport) (i' : IpcServer)
    (hclients : i'.clientTransactions = i.clientTransactions)
    (hwrote : Wrote (ReportWrites i) i i')
    (h : ReportEffect config context.writes report i i') :
    IpcEffect config context i (.reportReadiness report) i'
  | acceptance (acceptance : RuntimeAcceptance) (i' : IpcServer)
    (hwrote : Wrote (AcceptanceWrites i) i i')
    (h : AcceptanceEffect context.writes acceptance i i') :
    IpcEffect config context i (.confirmRuntimeAcceptance acceptance) i'

theorem dispatch_ensures (config : IpcConfig) (context : RequestContext) (request : Request)
    (i : IpcServer) :
    Ensures (dispatch config context request) i fun _ i' =>
      IpcEffect config context i request i' := by
  cases request with
  | ping => exact .get_bind (.pure (.queried _))
  | getRuntimeState => exact .get_bind (.pure (.queried _))
  | requestActivation r =>
    exact .mono (handleRequestActivation_ensures context r i)
      fun _ i' h => .activation r i' h.1 h.2
  | getActivationStatus transactionId => exact .get_bind (.pure (.queried _))
  | reportReadiness report =>
    exact .mono (handleReportReadiness_ensures context.writes report i)
      fun _ i' h => .readiness report i' h.1 h.2.1 h.2.2
  | confirmRuntimeAcceptance acceptance =>
    exact .mono (handleConfirmRuntimeAcceptance_ensures context.writes acceptance i)
      fun _ i' h => .acceptance acceptance i' h.1 h.2

variable {config : SupervisorConfig}

theorem step_request (context : RequestContext) (request : Request) (s : SupervisorDaemon) :
    ∃ i, step config (.request context request) s = { s with ipc := i } ∧
      IpcEffect config.ipc context s.ipc request i :=
  onIpc_ensures (dispatch_ensures config.ipc context request s.ipc)

theorem step_tick (context : TickContext) (h : s.Orderly) :
    TickEffect config.daemon context s (step config (.tick context) s) :=
  tick_ensures h

/-- The phases in which an activation request can leave its transaction. -/
def requestPhases : List ActivationPhase := [candidateStaged, candidateVerified, activationRequested]

theorem Admission.activation {w : Writes} {v : Except Raised (Option String)} {base : RuntimeState}
    {transaction : ActivationPhase → ActivationTransaction} (h : Admission w v base transaction i')
    (ha' : i'.state.activation = some a') : ∃ p ∈ requestPhases, a' = transaction p := by
  cases h with
  | refused hstate =>
    rw [hstate] at ha'
    cases ha'
  | stopped p hp hstate =>
    rw [hstate] at ha'
    cases ha'
    exact ⟨p, by rcases hp with rfl | rfl <;> decide, rfl⟩
  | requested hstate =>
    rw [hstate] at ha'
    cases ha'
    exact ⟨activationRequested, by decide, rfl⟩

/-- A request never announces a candidate. -/
theorem IpcEffect.announced {config : IpcConfig} {context : RequestContext}
    {request : Request} (h : IpcEffect config context i request i')
    (ha' : i'.state.activation = some a') (hannounced : a'.phase ∈ announcedPhases) :
    ∃ a, i.state.activation = some a ∧ a.phase ∈ announcedPhases := by
  cases h with
  | queried request => exact ⟨a', ha', hannounced⟩
  | activation r i' hwrote h =>
    cases h with
    | unchanged hstate => exact ⟨a', by rwa [← hstate], hannounced⟩
    | began hbegins hwrite hclients hadmission =>
      have hearlier : ∀ p ∈ requestPhases, p ∉ announcedPhases := by decide
      obtain ⟨p, hp, rfl⟩ := hadmission.activation ha'
      exact absurd hannounced (hearlier p hp)
  | readiness report i' hclients hwrote h =>
    cases h with
    | unchanged hstate => exact ⟨a', by rwa [← hstate], hannounced⟩
    | failed hphase hfault hwrite hstate =>
      rw [hstate] at ha'
      cases ha'
    | ready a ha hphase => exact ⟨a, ha, by rw [hphase]; decide⟩
  | acceptance acceptance i' hwrote h =>
    cases h with
    | unchanged hstate => exact ⟨a', by rwa [← hstate], hannounced⟩
    | failed hphase hmismatch hwrite hclients hstate =>
      rw [hstate] at ha'
      cases ha'
    | committed a ha hphase hmatches hwrite hclients hstate =>
      rw [hstate] at ha'
      cases ha'

/-! ## The bookkeeping holds in every run -/

theorem Restart.orderly (h : Restart context s s') (hactive : s.activeWorker = none)
    (hidle : s.ipc.state.activation = none) : s'.Orderly := by
  cases h with
  | refused l hl hexhausted =>
    refine ⟨?_, fun a ha => ?_⟩
    · show l.state = _
      rw [hl, hactive]
      rfl
    · exact absurd (hidle.symm.trans ha) nofun
  | failed l hl hfails =>
    refine ⟨?_, fun a ha => ?_⟩
    · show l.state = _
      rw [hl, hactive]
      rfl
    · exact absurd (hidle.symm.trans ha) nofun
  | launched w l hl hidentity hrunning =>
    exact ⟨hl, fun a ha => absurd (hidle.symm.trans ha) nofun⟩

theorem Finishing.orderly
    (h : Finishing context s s') (hs : s.Tracked) (hactive : s.activeWorker = none) :
    s'.Orderly := by
  cases h with
  | unfinished hwrite i hi => exact ⟨hs, fun _ _ _ => hactive⟩
  | finished i hi s' h =>
    refine h.orderly hactive ?_
    show i.state.activation = none
    rw [hi.state]
    rfl

theorem Serving.orderly {config : DaemonConfig} {a : ActivationTransaction}
    (h : Serving config context a s s') (hs : s.Orderly) : s'.Orderly := by
  cases h with
  | held => exact hs
  | waiting => exact ⟨hs.tracked, hs.yielded⟩
  | unannounced l hl => exact ⟨hl, fun _ _ _ => rfl⟩
  | unlaunched l hl => exact ⟨hl, fun _ _ _ => rfl⟩
  | launched l hl => exact ⟨hl, fun _ _ _ => rfl⟩

theorem adoptPromotedCandidateIfAny_ipc (s : SupervisorDaemon) :
    (adoptPromotedCandidateIfAny s).ipc = s.ipc := by
  unfold adoptPromotedCandidateIfAny
  cases s.candidateWorker <;> rfl

theorem TickEffect.orderly {config : DaemonConfig}
    (h : TickEffect config context s s') (hs : s.Orderly) :
    s'.Orderly := by
  cases h with
  | idle hidle s' h =>
    have hidle' : (adoptPromotedCandidateIfAny s).ipc.state.activation = none := by
      rwa [adoptPromotedCandidateIfAny_ipc]
    cases h with
    | kept w hw hrunning =>
      refine ⟨adoptPromotedCandidateIfAny_tracked hs.tracked, fun a ha => ?_⟩
      exact absurd (hidle'.symm.trans ha) nofun
    | restarted l s' h => exact h.orderly rfl hidle'
  | serving a ha hphase s' h => exact h.orderly hs
  | starting => exact hs
  | ready => exact ⟨hs.tracked, hs.yielded⟩
  | overdue a ha hlive hdue s' h =>
    have hannounced : ∀ p ∈ phasesWithALiveCandidateProcess, p ∈ announcedPhases := by decide
    have hactive := hs.yielded a ha (hannounced _ hlive)
    cases h with
    | unrecorded hwrite i hi => exact ⟨hs.tracked, fun _ _ _ => hactive⟩
    | recorded i hi s' h => exact h.orderly hs.tracked hactive
  | finishing a ha hphase s' h =>
    exact h.orderly hs.tracked (hs.yielded a ha (by rw [hphase]; decide))
  | ignored => exact hs

theorem step_orderly (event : Event) (s : SupervisorDaemon) (hs : s.Orderly) :
    (step config event s).Orderly := by
  cases event with
  | request context request =>
    obtain ⟨i, hstep, heffect⟩ := step_request context request s
    rw [hstep]
    refine ⟨hs.tracked, fun a' ha' hannounced => ?_⟩
    obtain ⟨a, ha, hbefore⟩ := heffect.announced ha' hannounced
    exact hs.yielded a ha hbefore
  | exit pid =>
    refine ⟨?_, fun a ha hannounced => ?_⟩
    · show s.lifecycle.state = _
      rw [hs.tracked]
      simp [step]
    · show s.activeWorker.map _ = none
      rw [hs.yielded a ha hannounced]
      rfl
  | elapse seconds forward => exact ⟨hs.tracked, hs.yielded⟩
  | tick context => exact (step_tick context hs).orderly hs

/-! ## Starting -/

/-- What a start leaves behind: the recovered record, or the record that it
could not recover and no worker. -/
structure Started (state : RuntimeState) (now : ℚ) (s : SupervisorDaemon) : Prop where
  record : s.ipc.state = state.settled ∨ (s.ipc.state = state ∧ s.activeWorker = none)
  disk : ∀ d ∈ s.ipc.disk, d = state ∨ d = state.settled
  clients : s.ipc.clientTransactions = .empty
  idle : s.candidateWorker = none ∧ s.candidateDeadline = none ∧ s.candidateReadyAt = none ∧
    s.oldWorkerStopRequestedAt = none ∧ s.now = now
  tracked : s.Tracked
  active : ∀ w, s.activeWorker = some w → w.identity = state.active

/-- A process that came up: recovered, with its active worker launched. -/
structure CameUp (state : RuntimeState) (s : SupervisorDaemon) : Prop where
  record : s.ipc.state = state.settled
  identity : checkIdentity state.activeGeneration state.activeDescriptorSha256 = .ok ()
  active : s.activeWorker.isSome

/-- Nothing has been launched yet, so the window is open. -/
theorem launch_started
    (hrecord : i.state = state.settled) (hdisk : ∀ d ∈ i.disk, d = state ∨ d = state.settled)
    (hclients : i.clientTransactions = .empty) :
    Ensures (launchActiveWorker context) { SupervisorDaemon.initial state now with ipc := i }
      fun r s' => Started state now s' ∧ (r = .ok () → CameUp state s') := by
  have hbudget : ¬WorkerLifecycle.Exhausted {} now := by
    simp [WorkerLifecycle.Exhausted, WorkerLifecycle.pruneOldAttempts]
  refine .mono (launchActiveWorker_ensures rfl hbudget) fun r s' h => ⟨?_, fun hr => ?_⟩
  · cases h.1 with
    | refused l hl hexhausted =>
      refine ⟨.inl hrecord, hdisk, hclients, ⟨rfl, rfl, rfl, rfl, rfl⟩, hl, fun w hw => ?_⟩
      cases hw
    | failed l hl hfails =>
      refine ⟨.inl hrecord, hdisk, hclients, ⟨rfl, rfl, rfl, rfl, rfl⟩, hl, fun w hw => ?_⟩
      cases hw
    | launched w l hl hidentity hrunning =>
      refine ⟨.inl hrecord, hdisk, hclients, ⟨rfl, rfl, rfl, rfl, rfl⟩, hl, fun w' hw' => ?_⟩
      cases hw'
      rw [hidentity]
      show i.state.active = state.active
      rw [hrecord]
      rfl
  · obtain ⟨hsome, hipc, hchecked⟩ := h.2 hr
    refine ⟨by rw [hipc]; exact hrecord, ?_, hsome⟩
    have hsettled : checkIdentity i.state.activeGeneration i.state.activeDescriptorSha256 =
        .ok () := hchecked
    rwa [hrecord] at hsettled

theorem start_ensures (context : TickContext) (state : RuntimeState) (now : ℚ) :
    Ensures (start context) (SupervisorDaemon.initial state now) fun r s' =>
      Started state now s' ∧ (r = .ok () → CameUp state s') := by
  have hdisk : ∀ d ∈ [state], d = state ∨ d = state.settled := by simp
  refine .get_bind ?_
  show Ensures (if recoveryActionFor state ≠ .noAction then do
      onIpc (persist context.writes.recovered (applyRecovery state (recoveryActionFor state)))
      launchActiveWorker context
    else launchActiveWorker context) _ _
  rw [applyRecovery_eq]
  cases ha : state.activation with
  | none =>
    have haction : recoveryActionFor state = .noAction := by simp [recoveryActionFor, ha]
    rw [if_neg (not_not.mpr haction)]
    exact launch_started (RuntimeState.settled_of_none ha).symm hdisk rfl
  | some a =>
    have haction : recoveryActionFor state ≠ .noAction := by simp [recoveryActionFor, ha]
    rw [if_pos haction]
    refine .bind (onIpc_ensures (persist_ensures _ _ _)) ?_ ?_
    · rintro _ _ ⟨i, rfl, hpersisted⟩
      cases hpersisted with
      | done hwrite => exact launch_started rfl (List.forall_mem_cons.mpr ⟨.inr rfl, hdisk⟩) rfl
    · rintro e _ ⟨i, rfl, hpersisted⟩
      cases hpersisted with
      | raised hwrite _ he _ hstate hclients hwrote =>
        obtain ⟨written, hwritten, hall⟩ := hwrote
        refine ⟨⟨.inr ⟨hstate, rfl⟩, fun d hd => ?_, hclients, ⟨rfl, rfl, rfl, rfl, rfl⟩, rfl, nofun⟩,
          nofun⟩
        rw [hwritten] at hd
        rcases List.mem_append.mp hd with hd | hd
        · exact .inr (hall d hd).1
        · exact hdisk d hd

/-- Every process starts in order, whether or not it comes up. -/
theorem Started.orderly (h : Started state now s) : s.Orderly := by
  refine ⟨h.tracked, fun a ha _ => ?_⟩
  rcases h.record with hsettled | ⟨-, hactive⟩
  · rw [hsettled] at ha
    cases ha
  · exact hactive

/-- The state in which a start from a record ends, whether or not it raised. -/
def started (context : TickContext) (state : RuntimeState) (now : ℚ) : SupervisorDaemon :=
  ((start context).exec (SupervisorDaemon.initial state now)).2

/-- The start returned, so that the event loop begins. -/
def Starts (context : TickContext) (state : RuntimeState) (now : ℚ) : Prop :=
  ((start context).exec (SupervisorDaemon.initial state now)).1 = .ok ()

theorem started_spec (context : TickContext) (state : RuntimeState) (now : ℚ) :
    Started state now (started context state now) :=
  (start_ensures context state now).1

theorem Starts.cameUp (h : Starts context state now) : CameUp state (started context state now) :=
  (start_ensures context state now).2 h

/-! ## A sample station

Slot A runs generation 5; generation 6 is staged in slot B. -/

def sampleDigest (c : Char) : String := String.ofList (List.replicate 64 c)

def sampleUuid : String := "00000000-0000-4000-8000-000000000000"

def sampleState : RuntimeState where
  schemaVersion := .int 1
  activeSlot := .a
  activeGeneration := 5
  activeDescriptorSha256 := sampleDigest 'a'
  previousSlot := none
  previousGeneration := none
  previousDescriptorSha256 := none
  activation := none

def sampleTick : TickContext := ⟨{}, .ok 10, .ok 11⟩

def sampleStaged : StagedCandidate where
  descriptor := some (.ok ⟨6, 1, [3], by decide, by decide⟩)
  descriptorSha256 := sampleDigest 'b'
  unsafeEntry := .ok none
  bundle := .ok []
  threshold _ := ⟨true, 1, 1⟩
  digest_hex := by decide

theorem sampleGeneration_pos : (1 : ℤ) ≤ 6 := by decide

def sampleContext : RequestContext := ⟨{}, sampleUuid, sampleStaged, by decide⟩

def sampleClaim (generation : ℤ) (generation_pos : 1 ≤ generation) : CandidateClaim :=
  ⟨sampleUuid, .b, generation, sampleDigest 'b', by decide, generation_pos, by decide⟩

def sampleRequest (generation : ℤ) (generation_pos : 1 ≤ generation) : ActivationRequest :=
  ⟨sampleClaim generation generation_pos, "r0002", some "r0001", by decide, by decide⟩

end IsadoraAir.Supervisor
