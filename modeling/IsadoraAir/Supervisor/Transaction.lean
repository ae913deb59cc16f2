import IsadoraAir.Supervisor.State

/-!
# Activation transactions

The pure functions that move a runtime state through one activation, and the
only four ways in which they change the record: a transaction begins, moves to
another phase, is abandoned, or is committed.
-/

namespace IsadoraAir.Supervisor

open ActivationPhase

variable {s s' : RuntimeState}

/-! ## The functions -/

def beginTransaction (transactionId : String) (state : RuntimeState) (candidateSlot : Slot)
    (candidateGeneration : ℤ) (candidateDescriptorSha256 : String) :
    Except Raised RuntimeState := do
  raiseIf state.activation.isSome (.supervisor "a transaction is already in flight")
  validateTransition idle candidateStaged
  raiseIf (candidateSlot = state.activeSlot)
    (.supervisor "candidate_slot must not be the active slot")
  .ok { state with
    activation := some ⟨transactionId, candidateSlot, candidateGeneration,
      candidateDescriptorSha256, candidateStaged⟩ }

/-- `_advance` -/
def advance (state : RuntimeState) (nextPhase : ActivationPhase) : Except Raised RuntimeState := do
  let activation ← orRaise state.activation (.supervisor "no transaction is in flight")
  validateTransition activation.phase nextPhase
  .ok { state with activation := some { activation with phase := nextPhase } }

def markCandidateVerified (state : RuntimeState) : Except Raised RuntimeState :=
  advance state candidateVerified

def requestActivation (state : RuntimeState) : Except Raised RuntimeState :=
  advance state activationRequested

def markCandidateStarting (state : RuntimeState) : Except Raised RuntimeState :=
  advance state candidateStarting

def markCandidateReady (state : RuntimeState) : Except Raised RuntimeState :=
  advance state candidateReady

def commitTransaction (state : RuntimeState) : Except Raised RuntimeState := do
  let transaction ← orRaise state.activation (.supervisor "no transaction is in flight")
  validateTransition transaction.phase committed
  .ok { state with
    activeSlot := transaction.candidateSlot
    activeGeneration := transaction.candidateGeneration
    activeDescriptorSha256 := transaction.candidateDescriptorSha256
    previousSlot := some state.activeSlot
    previousGeneration := some state.activeGeneration
    previousDescriptorSha256 := some state.activeDescriptorSha256
    activation := none }

def requestRollback (state : RuntimeState) : Except Raised RuntimeState := do
  let activation ← orRaise state.activation (.supervisor "no transaction is in flight")
  raiseIf (activation.phase ∉ phasesWithALiveCandidateProcess)
    (.supervisor ("cannot roll back from phase '" ++ activation.phase.value ++ "'"))
  advance state rollbackRequested

def finishRollback (state : RuntimeState) : Except Raised RuntimeState := do
  let activation ← orRaise state.activation (.supervisor "no transaction is in flight")
  validateTransition activation.phase rolledBack
  .ok { state with activation := none }

def failTransaction (state : RuntimeState) : Except Raised RuntimeState := do
  let activation ← orRaise state.activation (.supervisor "no transaction is in flight")
  validateTransition activation.phase failed
  .ok { state with activation := none }

inductive RecoveryAction where
  | noAction
  | discardCandidate
  deriving DecidableEq, Repr

def recoveryActionFor (state : RuntimeState) : RecoveryAction :=
  if state.activation.isNone then .noAction else .discardCandidate

def applyRecovery (state : RuntimeState) (action : RecoveryAction) : RuntimeState :=
  if action = .noAction then state
  else if state.activation.isNone then state
  else { state with activation := none }

/-! ## The record and its changes -/

namespace RuntimeState

/-- The record without a transaction. -/
def settled (s : RuntimeState) : RuntimeState := { s with activation := none }

def withActivation (s : RuntimeState) (a : ActivationTransaction) : RuntimeState :=
  { s with activation := some a }

/-- The record once the candidate of `a` is the active one. -/
def promoting (s : RuntimeState) (a : ActivationTransaction) : RuntimeState :=
  { s with
    activeSlot := a.candidateSlot
    activeGeneration := a.candidateGeneration
    activeDescriptorSha256 := a.candidateDescriptorSha256
    previousSlot := some s.activeSlot
    previousGeneration := some s.activeGeneration
    previousDescriptorSha256 := some s.activeDescriptorSha256
    activation := none }

/-- The phase of the transaction in flight. -/
def phase (s : RuntimeState) : Option ActivationPhase := s.activation.map ActivationTransaction.phase

/-- Slot, generation and descriptor of a runtime. -/
def active (s : RuntimeState) : Slot × ℤ × String :=
  (s.activeSlot, s.activeGeneration, s.activeDescriptorSha256)

def previous (s : RuntimeState) : Option Slot × Option ℤ × Option String :=
  (s.previousSlot, s.previousGeneration, s.previousDescriptorSha256)

theorem settled_of_none (h : s.activation = none) : s.settled = s := by
  cases s
  cases h
  rfl

theorem phase_eq_some {p : ActivationPhase} (h : s.phase = some p) :
    ∃ a, s.activation = some a ∧ a.phase = p :=
  Option.map_eq_some_iff.mp h

end RuntimeState

/-! ### What each function does -/

theorem validateTransition_ok {current next : ActivationPhase} {u : Unit} :
    validateTransition current next = .ok u ↔ next ∈ allowedTransitions current :=
  raiseIf_eq_ok.trans not_not

theorem beginTransaction_ok {transactionId sha : String} {slot : Slot} {generation : ℤ} :
    beginTransaction transactionId s slot generation sha = .ok s' ↔
      s.activation = none ∧ slot ≠ s.activeSlot ∧
        s' = s.withActivation ⟨transactionId, slot, generation, sha, candidateStaged⟩ := by
  constructor
  · intro h
    obtain ⟨_, hidle, h⟩ := bind_eq_ok.mp h
    obtain ⟨_, -, h⟩ := bind_eq_ok.mp h
    obtain ⟨_, hslot, h⟩ := bind_eq_ok.mp h
    cases h
    exact ⟨by simpa using raiseIf_eq_ok.mp hidle, raiseIf_eq_ok.mp hslot, rfl⟩
  · rintro ⟨hidle, hslot, rfl⟩
    refine bind_eq_ok.mpr ⟨(), raiseIf_eq_ok.mpr (by simp [hidle]), ?_⟩
    refine bind_eq_ok.mpr ⟨(), validateTransition_ok.mpr (by decide), ?_⟩
    exact bind_eq_ok.mpr ⟨(), raiseIf_eq_ok.mpr hslot, rfl⟩

theorem advance_ok {next : ActivationPhase} :
    advance s next = .ok s' ↔ ∃ a, s.activation = some a ∧ next ∈ allowedTransitions a.phase ∧
      s' = s.withActivation { a with phase := next } := by
  constructor
  · intro h
    obtain ⟨a, ha, h⟩ := bind_eq_ok.mp h
    obtain ⟨_, hnext, h⟩ := bind_eq_ok.mp h
    cases h
    exact ⟨a, orRaise_eq_ok.mp ha, validateTransition_ok.mp hnext, rfl⟩
  · rintro ⟨a, ha, hnext, rfl⟩
    refine bind_eq_ok.mpr ⟨a, orRaise_eq_ok.mpr ha, ?_⟩
    exact bind_eq_ok.mpr ⟨(), validateTransition_ok.mpr hnext, rfl⟩

theorem commitTransaction_ok :
    commitTransaction s = .ok s' ↔
      ∃ a, s.activation = some a ∧ a.phase = candidateReady ∧ s' = s.promoting a := by
  have hphase : ∀ p, committed ∈ allowedTransitions p ↔ p = candidateReady := by
    intro p
    cases p <;> decide
  constructor
  · intro h
    obtain ⟨a, ha, h⟩ := bind_eq_ok.mp h
    obtain ⟨_, hnext, h⟩ := bind_eq_ok.mp h
    cases h
    exact ⟨a, orRaise_eq_ok.mp ha, (hphase _).mp (validateTransition_ok.mp hnext), rfl⟩
  · rintro ⟨a, ha, hready, rfl⟩
    refine bind_eq_ok.mpr ⟨a, orRaise_eq_ok.mpr ha, ?_⟩
    exact bind_eq_ok.mpr ⟨(), validateTransition_ok.mpr ((hphase _).mpr hready), rfl⟩

theorem requestRollback_ok :
    requestRollback s = .ok s' ↔
      ∃ a, s.activation = some a ∧ a.phase ∈ phasesWithALiveCandidateProcess ∧
        s' = s.withActivation { a with phase := rollbackRequested } := by
  have hallowed : ∀ p ∈ phasesWithALiveCandidateProcess,
      rollbackRequested ∈ allowedTransitions p := by decide
  constructor
  · intro h
    obtain ⟨a, ha, h⟩ := bind_eq_ok.mp h
    obtain ⟨_, hlive, h⟩ := bind_eq_ok.mp h
    obtain ⟨a', ha', -, rfl⟩ := advance_ok.mp h
    obtain rfl : a = a' := Option.some.inj ((orRaise_eq_ok.mp ha).symm.trans ha')
    exact ⟨a, ha', not_not.mp (raiseIf_eq_ok.mp hlive), rfl⟩
  · rintro ⟨a, ha, hlive, rfl⟩
    refine bind_eq_ok.mpr ⟨a, orRaise_eq_ok.mpr ha, ?_⟩
    refine bind_eq_ok.mpr ⟨(), raiseIf_eq_ok.mpr (not_not.mpr hlive), ?_⟩
    exact advance_ok.mpr ⟨a, ha, hallowed _ hlive, rfl⟩

theorem finishRollback_ok :
    finishRollback s = .ok s' ↔ s.phase = some rollbackRequested ∧ s' = s.settled := by
  have hphase : ∀ p, rolledBack ∈ allowedTransitions p ↔ p = rollbackRequested := by
    intro p
    cases p <;> decide
  constructor
  · intro h
    obtain ⟨a, ha, h⟩ := bind_eq_ok.mp h
    obtain ⟨_, hnext, h⟩ := bind_eq_ok.mp h
    cases h
    refine ⟨?_, rfl⟩
    rw [RuntimeState.phase, orRaise_eq_ok.mp ha, Option.map_some]
    exact congrArg some ((hphase _).mp (validateTransition_ok.mp hnext))
  · rintro ⟨h, rfl⟩
    obtain ⟨a, ha, hp⟩ := RuntimeState.phase_eq_some h
    refine bind_eq_ok.mpr ⟨a, orRaise_eq_ok.mpr ha, ?_⟩
    exact bind_eq_ok.mpr ⟨(), validateTransition_ok.mpr ((hphase _).mpr hp), rfl⟩

theorem failTransaction_ok :
    failTransaction s = .ok s' ↔
      ∃ a, s.activation = some a ∧ failed ∈ allowedTransitions a.phase ∧ s' = s.settled := by
  constructor
  · intro h
    obtain ⟨a, ha, h⟩ := bind_eq_ok.mp h
    obtain ⟨_, hnext, h⟩ := bind_eq_ok.mp h
    cases h
    exact ⟨a, orRaise_eq_ok.mp ha, validateTransition_ok.mp hnext, rfl⟩
  · rintro ⟨a, ha, hnext, rfl⟩
    refine bind_eq_ok.mpr ⟨a, orRaise_eq_ok.mpr ha, ?_⟩
    exact bind_eq_ok.mpr ⟨(), validateTransition_ok.mpr hnext, rfl⟩

/-- Recovery discards whatever was in flight. -/
theorem applyRecovery_eq (s : RuntimeState) :
    applyRecovery s (recoveryActionFor s) = s.settled := by
  unfold applyRecovery recoveryActionFor
  cases h : s.activation with
  | none =>
    show s = s.settled
    exact (RuntimeState.settled_of_none h).symm
  | some a => rfl

/-! ### The changes -/

/-- The ways a record changes: a transaction begins, moves to another phase, is
abandoned, or is committed once its candidate is ready. -/
inductive Change (s : RuntimeState) : RuntimeState → Prop
  | began (a : ActivationTransaction) (hidle : s.activation = none) :
    Change s (s.withActivation a)
  | moved (a : ActivationTransaction) (p : ActivationPhase) (ha : s.activation = some a) :
    Change s (s.withActivation { a with phase := p })
  | abandoned : Change s s.settled
  | committed (a : ActivationTransaction) (ha : s.activation = some a)
    (hready : a.phase = candidateReady) : Change s (s.promoting a)

theorem RuntimeState.WellFormed.settled (h : s.WellFormed) : s.settled.WellFormed where
  schema := h.schema
  generation_pos := h.generation_pos
  sha := h.sha
  previous := h.previous
  activation := nofun

theorem RuntimeState.WellFormed.withActivation (h : s.WellFormed)
    {a : ActivationTransaction} (ha : a.WellFormed s.activeSlot s.activeGeneration) :
    (s.withActivation a).WellFormed where
  schema := h.schema
  generation_pos := h.generation_pos
  sha := h.sha
  previous := h.previous
  activation a' h' := by
    cases h'
    exact ha

/-- A change keeps the record readable when the transaction it begins is. -/
theorem Change.wellFormed (h : Change s s') (hs : s.WellFormed)
    (hbegan : s.activation = none → ∀ a, s'.activation = some a →
      a.WellFormed s.activeSlot s.activeGeneration) : s'.WellFormed := by
  cases h with
  | began a hidle => exact hs.withActivation (hbegan hidle a rfl)
  | moved a p ha =>
    have hwell := hs.activation a ha
    exact hs.withActivation
      ⟨hwell.transactionId, hwell.slot, hwell.generation_pos, hwell.sha, hwell.advances⟩
  | abandoned => exact hs.settled
  | committed a ha hready =>
    have hwell := hs.activation a ha
    exact {
      schema := hs.schema
      generation_pos := hwell.generation_pos
      sha := hwell.sha
      previous := .former s.activeSlot s.activeGeneration s.activeDescriptorSha256
        hwell.slot.symm hs.generation_pos hwell.advances hs.sha
      activation := nofun }

/-- Anything but a commit leaves the settled record alone. -/
theorem Change.settled_or_committed (h : Change s s') :
    s'.settled = s.settled ∨
      ∃ a, s.activation = some a ∧ a.phase = candidateReady ∧ s' = s.promoting a := by
  cases h with
  | began a hidle => exact .inl rfl
  | moved a p ha => exact .inl rfl
  | abandoned => exact .inl rfl
  | committed a ha hready => exact .inr ⟨a, ha, hready, rfl⟩

end IsadoraAir.Supervisor

/-!
## Independent verification of a candidate

What the supervisor finds about a staged candidate, and how the findings become
a list of reasons to reject it. Reading files and running the signature
verifier happen outside; either may raise.
-/

namespace IsadoraAir.Supervisor

/-- `RELEASE_ID_RE.match` -/
def isReleaseId (s : String) : Bool :=
  let body := if s.toList.getLast? = some '\n' then s.toList.dropLast else s.toList
  body.head? = some 'r' ∧ 5 ≤ body.length ∧ body.tail.all fun c => '0' ≤ c ∧ c ≤ '9'

def maxGeneration : ℤ := 1000000

/-- The facts of a parsed descriptor that are compared here. -/
structure RuntimeDescriptor where
  generation : ℤ
  manifestProtocolVersion : ℤ
  supportedWireProtocols : List ℤ
  generation_pos : 1 ≤ generation
  generation_le : generation ≤ maxGeneration

structure ThresholdEvaluation where
  satisfied : Bool
  threshold : ℕ
  verifiedCount : ℕ

/-- What is found for a candidate: its descriptor (`none` when the file cannot
be read, an error text when it does not parse), the digest of its bytes, an
unsafe entry of the bundle, the differences from the inventory, and the
signatures over a statement. -/
structure StagedCandidate where
  descriptor : Option (Except String RuntimeDescriptor)
  descriptorSha256 : String
  unsafeEntry : Except Raised (Option String)
  bundle : Except Raised (List String)
  threshold : String → ThresholdEvaluation
  digest_hex : isHexDigest descriptorSha256

def buildAttestationStatement (releaseId : String) (previousReleaseId : Option String)
    (generation : ℤ) (descriptorSha256 : String) : Except Raised String := do
  raiseIf (¬isReleaseId releaseId)
    (.attestation "release_id does not match the required r#### pattern")
  raiseIf (previousReleaseId.any fun previous => ¬isReleaseId previous)
    (.attestation "previous_release_id does not match the required r#### pattern")
  raiseIf (previousReleaseId = some releaseId)
    (.attestation "previous_release_id cannot equal release_id")
  raiseIf (generation < 1 ∨ maxGeneration < generation)
    (.attestation "generation must be an integer between 1 and the maximum")
  raiseIf (¬isSha256 descriptorSha256)
    (.attestation "descriptor_sha256 must be exactly 64 lowercase hex characters")
  .ok ("\n".intercalate ["ISADORAAIR-PROTECTED-RUNTIME-V1", "release_id=" ++ releaseId,
    "previous_release_id=" ++ previousReleaseId.getD "", "generation=" ++ toString generation,
    "descriptor_sha256=" ++ descriptorSha256, ""])

structure CandidateVerificationResult where
  reasons : List String
  descriptor : Option RuntimeDescriptor
  descriptorSha256 : Option String

/-- `reasons.append(reason)` under a condition -/
def reasonIf (condition : Prop) [Decidable condition] (reason : String) : List String :=
  if condition then [reason] else []

def reprList (xs : List ℤ) : String := "[" ++ ", ".intercalate (xs.map toString) ++ "]"

def verifyCandidateBundle (releaseId : String) (previousReleaseId : Option String)
    (previousGeneration : ℤ) (descriptor : Except String RuntimeDescriptor)
    (staged : StagedCandidate) (currentBootstrapProtocolVersion currentWireProtocolVersion
      candidateMinimumBootstrapProtocolVersion : ℤ) :
    Except Raised CandidateVerificationResult :=
  let unsupported := reasonIf
    (currentBootstrapProtocolVersion < candidateMinimumBootstrapProtocolVersion)
    ("candidate requires bootstrap protocol " ++
      toString candidateMinimumBootstrapProtocolVersion ++
      ", this supervisor only understands up to " ++ toString currentBootstrapProtocolVersion ++
      " -- unsupported bootstrap protocol")
  match descriptor with
  | .error reason =>
    .ok ⟨unsupported ++ [reason] ++
      ["attestation threshold could not be evaluated -- no valid descriptor"], none, none⟩
  | .ok d => do
    let replayed := reasonIf (¬generationAdvances d.generation (some previousGeneration))
      ("generation " ++ toString d.generation ++ " does not legitimately follow previous generation " ++
        toString previousGeneration ++ " -- replay/rollback refused")
    let manifestProtocol := reasonIf (d.manifestProtocolVersion < 1)
      "descriptor manifest_protocol_version is invalid"
    let stranded := reasonIf (currentWireProtocolVersion ∉ d.supportedWireProtocols)
      ("descriptor supported_wire_protocols " ++ reprList d.supportedWireProtocols ++
        " does not include this supervisor's current wire protocol " ++
        toString currentWireProtocolVersion ++ " -- would strand an already-connected client")
    let unsafeEntry ← staged.unsafeEntry
    let diskReasons ← staged.bundle
    let statement ← buildAttestationStatement releaseId previousReleaseId d.generation
      staged.descriptorSha256
    let evaluation := staged.threshold statement
    let unattested := reasonIf (¬evaluation.satisfied)
      ("attestation threshold not satisfied: " ++ toString evaluation.verifiedCount ++ "/" ++
        toString evaluation.threshold ++ " required signers verified")
    .ok ⟨unsupported ++ replayed ++ manifestProtocol ++ stranded ++
      (unsafeEntry.map fun entry => "bundle contains an unsafe entry: " ++ entry).toList ++
      diskReasons.map (fun reason => "bundle mismatch: " ++ reason) ++ unattested,
      some d, some staged.descriptorSha256⟩

theorem reasonIf_eq_nil {condition : Prop} [Decidable condition] {reason : String} :
    reasonIf condition reason = [] ↔ ¬condition := by
  by_cases h : condition <;> simp [reasonIf, h]

/-- A candidate without a reason against it advances the generation, and its
digest is the one of the bytes found. -/
theorem verifyCandidateBundle_accepted {releaseId : String} {previousReleaseId : Option String}
    {previousGeneration bootstrap wire minimum : ℤ} {descriptor : Except String RuntimeDescriptor}
    {staged : StagedCandidate} {result : CandidateVerificationResult} {d : RuntimeDescriptor}
    (h : verifyCandidateBundle releaseId previousReleaseId previousGeneration descriptor staged
      bootstrap wire minimum = .ok result)
    (hreasons : result.reasons = []) (hdescriptor : result.descriptor = some d) :
    previousGeneration < d.generation ∧ result.descriptorSha256 = some staged.descriptorSha256 := by
  unfold verifyCandidateBundle at h
  cases descriptor with
  | error reason =>
    cases h
    cases hdescriptor
  | ok found =>
    obtain ⟨entry, -, h⟩ := bind_eq_ok.mp h
    obtain ⟨diskReasons, -, h⟩ := bind_eq_ok.mp h
    obtain ⟨statement, -, h⟩ := bind_eq_ok.mp h
    cases h
    cases hdescriptor
    simp only [List.append_eq_nil_iff, reasonIf_eq_nil, not_not] at hreasons
    obtain ⟨⟨⟨⟨⟨⟨-, hadvances⟩, -⟩, -⟩, -⟩, -⟩, -⟩ := hreasons
    exact ⟨of_decide_eq_true hadvances, rfl⟩

end IsadoraAir.Supervisor
