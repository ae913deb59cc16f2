import IsadoraAir.Foundation.Dict
import IsadoraAir.Supervisor.Transaction

/-!
# The activation server

The handlers of the private activation protocol. Each runs under one lock; a
handler that raises leaves whatever it had already written.
-/

namespace IsadoraAir.Supervisor

open ActivationPhase Procedure

variable {a : ActivationTransaction} {write : Write}

/-! ## Requests -/

/-- The identity every activation request carries, as the decoder has checked it. -/
structure CandidateClaim where
  transactionId : String
  candidateSlot : Slot
  candidateGeneration : ℤ
  candidateDescriptorSha256 : String
  transactionId_uuid : isCanonicalUuid transactionId
  generation_pos : 1 ≤ candidateGeneration
  sha : isSha256 candidateDescriptorSha256

structure ActivationRequest extends CandidateClaim where
  releaseId : String
  previousReleaseId : Option String
  releaseId_ok : isReleaseId releaseId
  previousReleaseId_ok : previousReleaseId.all isReleaseId

structure ReadinessReport extends CandidateClaim where
  bootstrapProtocolVersion : ℤ
  supportedWireProtocols : List ℤ
  configParsed : Bool
  privilegeDropSelfCheckPassed : Bool
  jobStoreReady : Bool
  workerSocketBound : Bool
  trustedRepositoryUsable : Bool
  resumableJobUuid : String

structure RuntimeAcceptance extends CandidateClaim where
  resumableJobUuid : String

inductive Request where
  | ping
  | getRuntimeState
  | requestActivation (request : ActivationRequest)
  | getActivationStatus (transactionId : String)
  | reportReadiness (report : ReadinessReport)
  | confirmRuntimeAcceptance (acceptance : RuntimeAcceptance)

abbrev Response := List (String × Json)

def Response.isOk (response : Response) : Bool := response.head?.any fun item =>
  item.1 = "ok" && item.2.eqInt 1

def refusal (error detail : String) : Response :=
  [("ok", .bool false), ("error", .str error), ("detail", .str detail)]

/-! ## The server -/

/-- `disk` lists what the state file has held, newest first. -/
structure IpcServer where
  state : RuntimeState
  disk : List RuntimeState
  clientTransactions : Dict String String

structure IpcConfig where
  bootstrapProtocolVersion : ℤ := 1
  wireProtocolVersion : ℤ := 3

abbrev Ipc := Procedure IpcServer Raised

/-- How a state write ends: completed, failed before its rename, or renamed
with the directory flush failing. -/
inductive Write where
  | done
  | failed
  | undetermined
  deriving DecidableEq, Repr

/-- The outcome of each write a step may attempt, by what it writes. -/
structure Writes where
  staged : Write := .done
  failed : Write := .done
  verified : Write := .done
  requested : Write := .done
  starting : Write := .done
  ready : Write := .done
  committed : Write := .done
  rollback : Write := .done
  finished : Write := .done
  recovered : Write := .done
  deriving DecidableEq

/-- `_persist` -/
def persist (write : Write) (newState : RuntimeState) : Ipc Unit :=
  match write with
  | .done => modify fun s => { s with disk := newState :: s.disk, state := newState }
  | .failed => throw .osError
  | .undetermined => do
    modify fun s => { s with disk := newState :: s.disk }
    throw .indeterminateStateWrite

/-- `_status_payload` -/
def statusPayload (s : IpcServer) : Response :=
  [("ok", .bool true),
    ("active_slot", .str s.state.activeSlot.value),
    ("active_generation", .int s.state.activeGeneration),
    ("active_descriptor_sha256", .str s.state.activeDescriptorSha256),
    ("activation_in_flight", .bool s.state.activation.isSome),
    ("phase", .optional (fun p => .str p.value) s.state.phase),
    ("runtime_activation_accepted", .bool (s.state.phase.any runtimeActivationAccepted))]

/-- The `try` of `_fail_in_flight`. -/
def recordFailure (write : Write) : Ipc Unit :=
  tryCatch
    (do
      let s ← get
      let failedState ← MonadExcept.ofExcept (failTransaction s.state)
      persist write failedState)
    fun
      | .supervisor _ => pure ()
      | e => throw e

/-- `_fail_in_flight` -/
def failInFlight (write : Write) (detail : String) : Ipc Response := do
  recordFailure write
  pure (refusal "CandidateRejected" (detail.take 500).toString)

variable (config : IpcConfig)

/-- What the independent verification says of a request: `none` when nothing
speaks against the candidate, else the reason to fail the transaction. -/
def verdict (activeGeneration : ℤ) (request : ActivationRequest) (staged : StagedCandidate) :
    Except Raised (Option String) :=
  match staged.descriptor with
  | none => .ok (some "candidate descriptor is not staged where expected")
  | some descriptor => do
    let result ← verifyCandidateBundle request.releaseId request.previousReleaseId
      activeGeneration descriptor staged config.bootstrapProtocolVersion
      config.wireProtocolVersion 1
    if result.reasons ≠ [] then .ok (some ("; ".intercalate result.reasons))
    else if result.descriptor.map RuntimeDescriptor.generation = some request.candidateGeneration ∧
        result.descriptorSha256 = some request.candidateDescriptorSha256 then .ok none
    else .ok (some
      "independently-verified candidate identity does not match the activation request")

/-- The second half of `_handle_request_activation`, once the transaction is staged. -/
def admitCandidate (w : Writes) (request : ActivationRequest) (staged : StagedCandidate) :
    Ipc Response := do
  let s ← get
  let rejection ← MonadExcept.ofExcept (verdict config s.state.activeGeneration request staged)
  match rejection with
  | some detail => failInFlight w.failed detail
  | none =>
    let verifiedState ← MonadExcept.ofExcept (markCandidateVerified s.state)
    persist w.verified verifiedState
    let s ← get
    let requestedState ← MonadExcept.ofExcept (requestActivation s.state)
    persist w.requested requestedState
    let s ← get
    pure (statusPayload s)

/-- The correlated transaction of a wire id is the one in flight. -/
def correlated (s : IpcServer) (transactionId : String) : Prop :=
  ∃ a, s.state.activation = some a ∧
    s.clientTransactions.get? transactionId = some a.transactionId

instance (s : IpcServer) (transactionId : String) : Decidable (correlated s transactionId) :=
  match h : s.state.activation with
  | none => .isFalse fun ⟨a, ha, _⟩ => by rw [h] at ha; cases ha
  | some a =>
    decidable_of_iff (s.clientTransactions.get? transactionId = some a.transactionId)
      ⟨fun hget => ⟨a, h, hget⟩, fun ⟨a', ha', hget⟩ => by rw [h] at ha'; cases ha'; exact hget⟩

/-- `_handle_request_activation`; `freshId` is the minted transaction id. -/
def handleRequestActivation (w : Writes) (freshId : String) (staged : StagedCandidate)
    (request : ActivationRequest) : Ipc Response := do
  let s ← get
  let begun := beginTransaction freshId s.state request.candidateSlot
    request.candidateGeneration request.candidateDescriptorSha256
  if correlated s request.transactionId then pure (statusPayload s)
  else if s.state.activation.isSome then
    pure (refusal "SupervisorError" "a transaction is already in flight")
  else match begun with
    | .error (.supervisor detail) => pure (refusal "SupervisorError" detail)
    | .error e => throw e
    | .ok stagedState => do
      persist w.staged stagedState
      modify fun s =>
        { s with clientTransactions := s.clientTransactions.insert request.transactionId freshId }
      admitCandidate config w request staged

/-- `begin_candidate_launch` -/
def beginCandidateLaunch (w : Writes) : Ipc Unit := do
  let s ← get
  let startingState ← MonadExcept.ofExcept (markCandidateStarting s.state)
  persist w.starting startingState

/-- `_matches_transaction` -/
def matchesTransaction (s : IpcServer) (claim : CandidateClaim) (resumableJobUuid : String) : Bool :=
  match s.state.activation with
  | none => false
  | some a =>
    s.clientTransactions.get? claim.transactionId = some a.transactionId ∧
      resumableJobUuid = claim.transactionId ∧ a.candidateSlot = claim.candidateSlot ∧
      a.candidateGeneration = claim.candidateGeneration ∧
      a.candidateDescriptorSha256 = claim.candidateDescriptorSha256

/-- Why a report fails the activation, if it does. -/
def readinessFault (s : IpcServer) (report : ReadinessReport) : Option String :=
  if ¬matchesTransaction s report.toCandidateClaim report.resumableJobUuid then
    some "reported readiness identity does not match the activation transaction"
  else if config.bootstrapProtocolVersion < report.bootstrapProtocolVersion then
    some "candidate requires a bootstrap protocol this supervisor does not understand"
  else if config.wireProtocolVersion ∉ report.supportedWireProtocols then
    some "candidate does not support this supervisor's current wire protocol"
  else none

def ReadinessReport.fullyReady (report : ReadinessReport) : Bool :=
  report.configParsed && report.privilegeDropSelfCheckPassed && report.jobStoreReady &&
    report.workerSocketBound && report.trustedRepositoryUsable

/-- `_handle_report_readiness` -/
def handleReportReadiness (w : Writes) (report : ReadinessReport) : Ipc Response := do
  let s ← get
  if s.state.phase ≠ some candidateStarting then
    pure (refusal "SupervisorError" "no candidate is currently starting")
  else match readinessFault config s report with
    | some detail => failInFlight w.failed detail
    | none =>
      if ¬report.fullyReady then pure (statusPayload s)
      else do
        let readyState ← MonadExcept.ofExcept (markCandidateReady s.state)
        persist w.ready readyState
        let s ← get
        pure (statusPayload s)

/-- `_handle_confirm_runtime_acceptance` -/
def handleConfirmRuntimeAcceptance (w : Writes) (acceptance : RuntimeAcceptance) : Ipc Response := do
  let s ← get
  if s.state.phase ≠ some candidateReady then
    pure (refusal "SupervisorError" "no candidate is currently ready to accept")
  else if ¬matchesTransaction s acceptance.toCandidateClaim acceptance.resumableJobUuid then
    failInFlight w.failed "reported acceptance identity does not match the activation transaction"
  else do
    let committedState ← MonadExcept.ofExcept (commitTransaction s.state)
    persist w.committed committedState
    modify fun s =>
      { s with clientTransactions := s.clientTransactions.erase acceptance.transactionId }
    let s ← get
    pure (statusPayload s)

def getActivationStatus (s : IpcServer) (transactionId : String) : Response :=
  let internalId := s.clientTransactions.get? transactionId
  if s.state.activation.all fun a => internalId.any fun id => a.transactionId ≠ id then
    [("ok", .bool true), ("activation_in_flight", .bool false), ("phase", .null),
      ("runtime_activation_accepted", .bool false),
      ("active_slot", .str s.state.activeSlot.value),
      ("active_generation", .int s.state.activeGeneration),
      ("active_descriptor_sha256", .str s.state.activeDescriptorSha256)]
  else statusPayload s

/-- What the outside supplies to a request: the outcomes of its writes, a
minted transaction id, and the staged candidate. -/
structure RequestContext where
  writes : Writes
  freshId : String
  staged : StagedCandidate
  freshId_uuid : isCanonicalUuid freshId

/-- `_dispatch` -/
def dispatch (context : RequestContext) (request : Request) : Ipc Response :=
  match request with
  | .ping => do
    let s ← get
    pure [("ok", .bool true),
      ("bootstrap_protocol_version", .int config.bootstrapProtocolVersion),
      ("active_slot", .str s.state.activeSlot.value),
      ("active_generation", .int s.state.activeGeneration)]
  | .getRuntimeState => do
    let s ← get
    pure (statusPayload s)
  | .requestActivation r =>
    handleRequestActivation config context.writes context.freshId context.staged r
  | .getActivationStatus transactionId => do
    let s ← get
    pure (getActivationStatus s transactionId)
  | .reportReadiness report => handleReportReadiness config context.writes report
  | .confirmRuntimeAcceptance acceptance =>
    handleConfirmRuntimeAcceptance context.writes acceptance

/-- What `handle_connection` answers. -/
def answer (result : Except Raised Response) : Response :=
  match result with
  | .ok response => response
  | .error .indeterminateStateWrite =>
    refusal "DurabilityError"
      "os.replace() succeeded but the parent-directory fsync failed afterward"
  | .error _ =>
    refusal "InternalError" "activation request failed after an indeterminate boundary"

/-! ## What the handlers do -/

/-- Only states that satisfy `allowed` have been given to the state file. -/
def Wrote (allowed : RuntimeState → Prop) (s s' : IpcServer) : Prop :=
  ∃ written, s'.disk = written ++ s.disk ∧ ∀ d ∈ written, allowed d

namespace Wrote

variable {allowed allowed' : RuntimeState → Prop} {s s' s'' : IpcServer}

theorem refl (s : IpcServer) : Wrote allowed s s :=
  ⟨[], rfl, fun _ hd => (List.not_mem_nil hd).elim⟩

theorem one {d : RuntimeState} (h : s'.disk = d :: s.disk) (hd : allowed d) :
    Wrote allowed s s' := by
  refine ⟨[d], h, fun x hx => ?_⟩
  rwa [List.mem_singleton.mp hx]

theorem trans (h : Wrote allowed s s') (h' : Wrote allowed s' s'') : Wrote allowed s s'' := by
  obtain ⟨written, hdisk, hall⟩ := h
  obtain ⟨written', hdisk', hall'⟩ := h'
  refine ⟨written' ++ written, ?_, fun d hd => ?_⟩
  · rw [hdisk', hdisk, List.append_assoc]
  · rcases List.mem_append.mp hd with hd | hd
    · exact hall' d hd
    · exact hall d hd

theorem mono (h : Wrote allowed s s') (himp : ∀ d, allowed d → allowed' d) :
    Wrote allowed' s s' := by
  obtain ⟨written, hdisk, hall⟩ := h
  exact ⟨written, hdisk, fun d hd => himp d (hall d hd)⟩

end Wrote

/-- A write that completes replaces the state; one that does not leaves it. -/
inductive Persisted (write : Write) (newState : RuntimeState) (s : IpcServer) :
    Except Raised Unit → IpcServer → Prop
  | done (hwrite : write = .done) : Persisted write newState s (.ok ())
    { s with disk := newState :: s.disk, state := newState }
  | raised (hwrite : write ≠ .done) (e : Raised) (he : ∀ detail, e ≠ .supervisor detail)
    (s' : IpcServer) (hstate : s'.state = s.state)
    (hclients : s'.clientTransactions = s.clientTransactions)
    (hdisk : Wrote (fun d => d = newState ∧ write ≠ .failed) s s') :
    Persisted write newState s (.error e) s'

theorem persist_ensures (write : Write) (newState : RuntimeState) (s : IpcServer) :
    Ensures (persist write newState) s (Persisted write newState s) := by
  cases write with
  | done => exact .done rfl
  | failed => exact .raised (by decide) .osError (by simp) s rfl rfl (.refl s)
  | undetermined =>
    exact .raised (by decide) .indeterminateStateWrite (by simp) _ rfl rfl ⟨[newState], rfl, by simp⟩

theorem recordFailure_ensures {s : IpcServer}
    (ha : s.state.activation = some a) (hfails : failed ∈ allowedTransitions a.phase) :
    Ensures (recordFailure write) s (Persisted write s.state.settled s) := by
  have hfailed : failTransaction s.state = .ok s.state.settled :=
    failTransaction_ok.mpr ⟨a, ha, hfails, rfl⟩
  refine .tryCatch
    (.get_bind (.ofExcept_bind hfailed (persist_ensures write s.state.settled s))) ?_ ?_
  · exact fun _ _ h => h
  · intro e s' h
    cases h with
    | raised hwrite _ he _ hstate hclients hdisk =>
      cases e with
      | supervisor detail => exact absurd rfl (he detail)
      | _ => exact .throw (.raised hwrite _ he s' hstate hclients hdisk)

/-- Failing the transaction in flight is recorded, or stopped by its write. -/
theorem failInFlight_ensures {detail : String} {s : IpcServer} (ha : s.state.activation = some a)
    (hfails : failed ∈ allowedTransitions a.phase) :
    Ensures (failInFlight write detail) s fun _ s' =>
      s'.clientTransactions = s.clientTransactions ∧ Wrote (· = s.state.settled) s s' ∧
        ((write = .done ∧ s'.state = s.state.settled) ∨
          (write ≠ .done ∧ s'.state = s.state)) := by
  refine .bind (recordFailure_ensures ha hfails) ?_ ?_
  · intro _ s' h
    cases h with
    | done hwrite => exact .pure ⟨rfl, ⟨[s.state.settled], rfl, by simp⟩, .inl ⟨hwrite, rfl⟩⟩
  · intro e s' h
    cases h with
    | raised hwrite _ _ _ hstate hclients hdisk =>
      exact ⟨hclients, hdisk.mono fun d hd => hd.1, .inr ⟨hwrite, hstate⟩⟩

/-! ### Requesting an activation -/

variable {config : IpcConfig}

/-- The transaction that a request begins, in a given phase. -/
def ActivationRequest.transaction (request : ActivationRequest) (freshId : String)
    (p : ActivationPhase) : ActivationTransaction :=
  ⟨freshId, request.candidateSlot, request.candidateGeneration,
    request.candidateDescriptorSha256, p⟩

/-- The request begins a transaction. -/
def Begins (s : IpcServer) (request : ActivationRequest) : Prop :=
  s.state.activation = none ∧ request.candidateSlot ≠ s.state.activeSlot

instance (s : IpcServer) (request : ActivationRequest) : Decidable (Begins s request) :=
  decidable_of_iff (s.state.activation.isNone ∧ request.candidateSlot ≠ s.state.activeSlot)
    (by simp [Begins])

/-- After its first write the handler raises: the verification does, or the
write of what the verification led to. -/
def StopsHalfway (w : Writes) : Except Raised (Option String) → Prop
  | .error _ => True
  | .ok (some _) => w.failed ≠ .done
  | .ok none => w.verified ≠ .done ∨ w.requested ≠ .done

instance (w : Writes) : (v : Except Raised (Option String)) → Decidable (StopsHalfway w v)
  | .error _ => .isTrue trivial
  | .ok (some _) => inferInstanceAs (Decidable (w.failed ≠ .done))
  | .ok none => inferInstanceAs (Decidable (w.verified ≠ .done ∨ w.requested ≠ .done))

/-- How a staged transaction ends the request. -/
inductive Admission (w : Writes) (v : Except Raised (Option String)) (base : RuntimeState)
    (transaction : ActivationPhase → ActivationTransaction) (s' : IpcServer) : Prop
  | refused (hstate : s'.state = base.settled)
  | stopped (p : ActivationPhase) (hp : p = candidateStaged ∨ p = candidateVerified)
    (hstate : s'.state = base.withActivation (transaction p)) (hstops : StopsHalfway w v)
  | requested (hstate : s'.state = base.withActivation (transaction activationRequested))
    (haccepted : v = .ok none)

theorem admitCandidate_ensures {w : Writes} {request : ActivationRequest}
    {staged : StagedCandidate} {s : IpcServer} {base : RuntimeState} {freshId : String}
    (hs : s.state = base.withActivation (request.transaction freshId candidateStaged)) :
    Ensures (admitCandidate config w request staged) s fun _ s' =>
      s'.clientTransactions = s.clientTransactions ∧
        Wrote (fun d => d = base.settled ∨
          ∃ p, d = base.withActivation (request.transaction freshId p)) s s' ∧
        Admission w (verdict config base.activeGeneration request staged) base
          (request.transaction freshId) s' := by
  have hactive : s.state.activeGeneration = base.activeGeneration := by rw [hs]; rfl
  have hsettled : s.state.settled = base.settled := by rw [hs]; rfl
  refine .get_bind ?_
  rw [hactive]
  generalize hv : verdict config base.activeGeneration request staged = v
  match v with
  | .error e =>
    refine .ofExcept_bind_error rfl ⟨rfl, .refl s, ?_⟩
    exact .stopped candidateStaged (.inl rfl) hs trivial
  | .ok (some detail) =>
    have ha : s.state.activation = some (request.transaction freshId candidateStaged) := by
      rw [hs]; rfl
    have hfails : failed ∈ allowedTransitions candidateStaged := by decide
    refine .ofExcept_bind rfl ((failInFlight_ensures ha hfails).mono ?_)
    rintro _ s' ⟨hclients, hdisk, hfailed⟩
    refine ⟨hclients, hdisk.mono fun d hd => .inl (hd.trans hsettled), ?_⟩
    rcases hfailed with ⟨-, hstate⟩ | ⟨hwrite, hstate⟩
    · exact .refused (hstate.trans hsettled)
    · exact .stopped candidateStaged (.inl rfl) (hstate.trans hs) hwrite
  | .ok none =>
    have hnext : candidateVerified ∈ allowedTransitions candidateStaged := by decide
    have hnext' : activationRequested ∈ allowedTransitions candidateVerified := by decide
    have hverified : markCandidateVerified s.state =
        .ok (base.withActivation (request.transaction freshId candidateVerified)) :=
      advance_ok.mpr ⟨_, by rw [hs]; rfl, hnext, by rw [hs]; rfl⟩
    refine .ofExcept_bind rfl (.ofExcept_bind hverified (.bind (persist_ensures _ _ s) ?_ ?_))
    · intro _ s₁ h₁
      cases h₁ with
      | done hwrite =>
        have hrequested : requestActivation
            (base.withActivation (request.transaction freshId candidateVerified)) =
              .ok (base.withActivation (request.transaction freshId activationRequested)) :=
          advance_ok.mpr ⟨_, rfl, hnext', rfl⟩
        refine .get_bind (.ofExcept_bind hrequested (.bind (persist_ensures _ _ _) ?_ ?_))
        · intro _ s₂ h₂
          cases h₂ with
          | done hwrite' =>
            refine .get_bind (.pure ⟨rfl, ⟨[_, _], rfl, ?_⟩, .requested rfl rfl⟩)
            exact List.forall_mem_cons.mpr
              ⟨.inr ⟨_, rfl⟩, List.forall_mem_singleton.mpr (.inr ⟨_, rfl⟩)⟩
        · intro e s₂ h₂
          cases h₂ with
          | raised hwrite' _ _ _ hstate hclients hdisk =>
            refine ⟨hclients, ?_, .stopped candidateVerified (.inr rfl) hstate (.inr hwrite')⟩
            have hfirst : Wrote (fun d => d = base.settled ∨
                ∃ p, d = base.withActivation (request.transaction freshId p)) s
                { s with
                  disk := base.withActivation (request.transaction freshId candidateVerified) ::
                    s.disk
                  state := base.withActivation (request.transaction freshId candidateVerified) } :=
              .one rfl (.inr ⟨_, rfl⟩)
            exact hfirst.trans (hdisk.mono fun d hd => .inr ⟨_, hd.1⟩)
    · intro e s₁ h₁
      cases h₁ with
      | raised hwrite _ _ _ hstate hclients hdisk =>
        refine ⟨hclients, hdisk.mono fun d hd => .inr ⟨_, hd.1⟩, ?_⟩
        exact .stopped candidateStaged (.inl rfl) (hstate.trans hs) (.inl hwrite)

/-- What an activation request leaves behind: the state it found, or that of
the transaction it began. -/
inductive RequestEffect (config : IpcConfig) (context : RequestContext)
    (request : ActivationRequest) (s s' : IpcServer) : Prop
  | unchanged (hstate : s'.state = s.state)
    (hclients : s'.clientTransactions = s.clientTransactions)
  | began (hbegins : Begins s request) (hwrite : context.writes.staged = .done)
    (hclients : s'.clientTransactions =
      s.clientTransactions.insert request.transactionId context.freshId)
    (hadmission : Admission context.writes
      (verdict config s.state.activeGeneration request context.staged) s.state
      (request.transaction context.freshId) s')

/-- What an activation request may write. -/
def RequestWrites (context : RequestContext) (request : ActivationRequest) (s : IpcServer)
    (d : RuntimeState) : Prop :=
  Begins s request ∧ context.writes.staged ≠ .failed ∧ (d = s.state.settled ∨
    ∃ p, d = s.state.withActivation (request.transaction context.freshId p))

theorem handleRequestActivation_ensures (context : RequestContext) (request : ActivationRequest)
    (s : IpcServer) :
    Ensures (handleRequestActivation config context.writes context.freshId context.staged request)
      s fun _ s' => Wrote (RequestWrites context request s) s s' ∧
        RequestEffect config context request s s' := by
  have hsame : Wrote (RequestWrites context request s) s s ∧
      RequestEffect config context request s s := ⟨.refl s, .unchanged rfl rfl⟩
  refine .get_bind ?_
  dsimp only
  split_ifs with hcorrelated hflight
  · exact .pure hsame
  · exact .pure hsame
  · have hidle : s.state.activation = none := by simpa using hflight
    by_cases hslot : request.candidateSlot = s.state.activeSlot
    · have hbegun : beginTransaction context.freshId s.state request.candidateSlot
          request.candidateGeneration request.candidateDescriptorSha256 =
            .error (.supervisor "candidate_slot must not be the active slot") := by
        simp only [beginTransaction, hidle, hslot]
        rfl
      rw [hbegun]
      exact .pure hsame
    · have hbegun : beginTransaction context.freshId s.state request.candidateSlot
          request.candidateGeneration request.candidateDescriptorSha256 =
            .ok (s.state.withActivation (request.transaction context.freshId candidateStaged)) :=
        beginTransaction_ok.mpr ⟨hidle, hslot, rfl⟩
      have hbegins : Begins s request := ⟨hidle, hslot⟩
      rw [hbegun]
      refine .bind (persist_ensures _ _ s) ?_ ?_
      · intro _ s₁ h₁
        cases h₁ with
        | done hwrite =>
          refine .modify_bind ((admitCandidate_ensures rfl).mono ?_)
          rintro _ s' ⟨hclients, hdisk, hadmission⟩
          refine ⟨?_, .began hbegins hwrite hclients hadmission⟩
          obtain ⟨written, hwritten, hall⟩ := hdisk
          refine ⟨written ++
            [s.state.withActivation (request.transaction context.freshId candidateStaged)], ?_, ?_⟩
          · rw [hwritten, List.append_assoc]
            rfl
          · have hstaged : context.writes.staged ≠ .failed := by rw [hwrite]; decide
            intro d hd
            rcases List.mem_append.mp hd with hd | hd
            · exact ⟨hbegins, hstaged, hall d hd⟩
            · exact ⟨hbegins, hstaged, .inr ⟨_, List.mem_singleton.mp hd⟩⟩
      · intro e s₁ h₁
        cases h₁ with
        | raised _ _ _ _ hstate hclients hdisk =>
          exact ⟨hdisk.mono fun d hd => ⟨hbegins, hd.2, .inr ⟨_, hd.1⟩⟩, .unchanged hstate hclients⟩

/-! ### Launching, readiness and acceptance -/

/-- Announcing the launch is refused without a trace, or is one write. -/
theorem beginCandidateLaunch_ensures (w : Writes) (s : IpcServer) :
    Ensures (beginCandidateLaunch w) s fun r s' =>
      (∃ e, r = .error e ∧ s' = s ∧ s.state.phase ≠ some activationRequested) ∨
        ∃ a, s.state.activation = some a ∧ a.phase = activationRequested ∧
          Persisted w.starting (s.state.withActivation { a with phase := candidateStarting }) s
            r s' := by
  have hphase : ∀ p, candidateStarting ∈ allowedTransitions p ↔ p = activationRequested := by
    intro p
    cases p <;> decide
  refine .get_bind ?_
  cases hstarting : markCandidateStarting s.state with
  | error e =>
    refine .ofExcept_bind_error rfl (.inl ⟨e, rfl, rfl, fun hrequested => ?_⟩)
    obtain ⟨a, ha, hp⟩ := RuntimeState.phase_eq_some hrequested
    have hok := advance_ok.mpr ⟨a, ha, (hphase _).mpr hp, rfl⟩
    rw [markCandidateStarting, hok] at hstarting
    cases hstarting
  | ok startingState =>
    obtain ⟨a, ha, hnext, rfl⟩ := advance_ok.mp hstarting
    refine .ofExcept_bind rfl ((persist_ensures _ _ s).mono fun r s' h => ?_)
    exact .inr ⟨a, ha, (hphase _).mp hnext, h⟩

inductive ReportEffect (config : IpcConfig) (w : Writes) (report : ReadinessReport)
    (s s' : IpcServer) : Prop
  | unchanged (hstate : s'.state = s.state)
  | failed (hphase : s.state.phase = some candidateStarting)
    (hfault : (readinessFault config s report).isSome) (hwrite : w.failed = .done)
    (hstate : s'.state = s.state.settled)
  | ready (a : ActivationTransaction) (ha : s.state.activation = some a)
    (hphase : a.phase = candidateStarting)
    (hstate : s'.state = s.state.withActivation { a with phase := candidateReady })

/-- What a report may write. -/
def ReportWrites (s : IpcServer) (d : RuntimeState) : Prop :=
  d = s.state.settled ∨
    ∃ a, s.state.activation = some a ∧ d = s.state.withActivation { a with phase := candidateReady }

theorem handleReportReadiness_ensures (w : Writes) (report : ReadinessReport) (s : IpcServer) :
    Ensures (handleReportReadiness config w report) s fun _ s' =>
      s'.clientTransactions = s.clientTransactions ∧ Wrote (ReportWrites s) s s' ∧
        ReportEffect config w report s s' := by
  refine .get_bind ?_
  by_cases hphase : s.state.phase = some candidateStarting
  · obtain ⟨a, ha, hstarting⟩ := RuntimeState.phase_eq_some hphase
    have hfails : failed ∈ allowedTransitions a.phase := by rw [hstarting]; decide
    have hready : candidateReady ∈ allowedTransitions a.phase := by rw [hstarting]; decide
    rw [if_neg (not_not.mpr hphase)]
    cases hfault : readinessFault config s report with
    | some detail =>
      refine (failInFlight_ensures ha hfails).mono ?_
      rintro _ s' ⟨hclients, hdisk, ⟨hwrite, hstate⟩ | ⟨-, hstate⟩⟩
      · exact ⟨hclients, hdisk.mono fun d hd => .inl hd,
          .failed hphase (by rw [hfault]; rfl) hwrite hstate⟩
      · exact ⟨hclients, hdisk.mono fun d hd => .inl hd, .unchanged hstate⟩
    | none =>
      by_cases hfull : report.fullyReady
      · rw [if_neg (not_not.mpr hfull)]
        have hmark := advance_ok.mpr ⟨a, ha, hready, rfl⟩
        refine .ofExcept_bind hmark (.bind (persist_ensures _ _ s) ?_ ?_)
        · intro _ s₁ h₁
          cases h₁ with
          | done hwrite =>
            refine .get_bind (.pure ⟨rfl, ⟨[_], rfl, ?_⟩, .ready a ha hstarting rfl⟩)
            exact List.forall_mem_singleton.mpr (.inr ⟨a, ha, rfl⟩)
        · intro e s₁ h₁
          cases h₁ with
          | raised _ _ _ _ hstate hclients hdisk =>
            exact ⟨hclients, hdisk.mono fun d hd => .inr ⟨a, ha, hd.1⟩, .unchanged hstate⟩
      · rw [if_pos hfull]
        exact .pure ⟨rfl, .refl s, .unchanged rfl⟩
  · rw [if_pos hphase]
    exact .pure ⟨rfl, .refl s, .unchanged rfl⟩

inductive AcceptanceEffect (w : Writes) (acceptance : RuntimeAcceptance) (s s' : IpcServer) : Prop
  | unchanged (hstate : s'.state = s.state)
    (hclients : s'.clientTransactions = s.clientTransactions)
  | failed (hphase : s.state.phase = some candidateReady)
    (hmismatch : ¬matchesTransaction s acceptance.toCandidateClaim acceptance.resumableJobUuid)
    (hwrite : w.failed = .done) (hclients : s'.clientTransactions = s.clientTransactions)
    (hstate : s'.state = s.state.settled)
  | committed (a : ActivationTransaction) (ha : s.state.activation = some a)
    (hphase : a.phase = candidateReady)
    (hmatches : matchesTransaction s acceptance.toCandidateClaim acceptance.resumableJobUuid)
    (hwrite : w.committed = .done)
    (hclients : s'.clientTransactions = s.clientTransactions.erase acceptance.transactionId)
    (hstate : s'.state = s.state.promoting a)

/-- What an acceptance may write. -/
def AcceptanceWrites (s : IpcServer) (d : RuntimeState) : Prop :=
  d = s.state.settled ∨
    ∃ a, s.state.activation = some a ∧ a.phase = candidateReady ∧ d = s.state.promoting a

theorem handleConfirmRuntimeAcceptance_ensures (w : Writes) (acceptance : RuntimeAcceptance)
    (s : IpcServer) :
    Ensures (handleConfirmRuntimeAcceptance w acceptance) s fun _ s' =>
      Wrote (AcceptanceWrites s) s s' ∧ AcceptanceEffect w acceptance s s' := by
  refine .get_bind ?_
  by_cases hphase : s.state.phase = some candidateReady
  · obtain ⟨a, ha, hready⟩ := RuntimeState.phase_eq_some hphase
    have hfails : failed ∈ allowedTransitions a.phase := by rw [hready]; decide
    rw [if_neg (not_not.mpr hphase)]
    by_cases hmatches : matchesTransaction s acceptance.toCandidateClaim acceptance.resumableJobUuid
    · rw [if_neg (not_not.mpr hmatches)]
      have hcommit := commitTransaction_ok.mpr ⟨a, ha, hready, rfl⟩
      refine .ofExcept_bind hcommit (.bind (persist_ensures _ _ s) ?_ ?_)
      · intro _ s₁ h₁
        cases h₁ with
        | done hwrite =>
          refine .modify_bind (.get_bind (.pure ⟨⟨[_], rfl, ?_⟩, ?_⟩))
          · exact List.forall_mem_singleton.mpr (.inr ⟨a, ha, hready, rfl⟩)
          · exact .committed a ha hready hmatches hwrite rfl rfl
      · intro e s₁ h₁
        cases h₁ with
        | raised _ _ _ _ hstate hclients hdisk =>
          exact ⟨hdisk.mono fun d hd => .inr ⟨a, ha, hready, hd.1⟩, .unchanged hstate hclients⟩
    · rw [if_pos hmatches]
      refine (failInFlight_ensures ha hfails).mono ?_
      rintro _ s' ⟨hclients, hdisk, ⟨hwrite, hstate⟩ | ⟨-, hstate⟩⟩
      · exact ⟨hdisk.mono fun d hd => .inl hd, .failed hphase hmatches hwrite hclients hstate⟩
      · exact ⟨hdisk.mono fun d hd => .inl hd, .unchanged hstate hclients⟩
  · rw [if_pos hphase]
    exact .pure ⟨.refl s, .unchanged rfl rfl⟩

end IsadoraAir.Supervisor
