import IsadoraAir.Foundation.Json
import IsadoraAir.Supervisor.Activation

/-!
# The supervisor's runtime state

The durable record of the active slot and of the activation in flight, its
dictionary form, and the strict reader that refuses anything ambiguous. What
the reader accepts of a state's own dictionary is exactly what is well formed.
-/

namespace IsadoraAir.Supervisor

variable {activeSlot : Slot} {activeGeneration n : ℤ}

inductive Slot where
  | a
  | b
  deriving DecidableEq, Repr

def Slot.value : Slot → String
  | a => "A"
  | b => "B"

def Slot.other : Slot → Slot
  | a => b
  | b => a

/-! ## Text patterns -/

def isLowerHex (c : Char) : Bool := ('0' ≤ c ∧ c ≤ '9') ∨ ('a' ≤ c ∧ c ≤ 'f')

/-- `SHA256_RE.fullmatch` -/
def isHexDigest (s : String) : Bool := s.toList.length = 64 ∧ s.toList.all isLowerHex

/-- `SHA256_RE.match`: the pattern's `$` also matches before a final newline. -/
def isSha256 (s : String) : Bool :=
  isHexDigest s ∨ (s.toList.getLast? = some '\n' ∧ isHexDigest (String.ofList s.toList.dropLast))

/-- The canonical lowercase form, as `str(uuid.UUID(value)) == value` accepts it. -/
def isCanonicalUuid (s : String) : Bool :=
  s.toList.length = 36 ∧
    (List.range 36).all fun i =>
      if i ∈ [8, 13, 18, 23] then s.toList[i]? = some '-' else (s.toList[i]?).any isLowerHex

/-! ## The record -/

structure ActivationTransaction where
  transactionId : String
  candidateSlot : Slot
  candidateGeneration : ℤ
  candidateDescriptorSha256 : String
  phase : ActivationPhase
  deriving DecidableEq

structure RuntimeState where
  schemaVersion : Json
  activeSlot : Slot
  activeGeneration : ℤ
  activeDescriptorSha256 : String
  previousSlot : Option Slot
  previousGeneration : Option ℤ
  previousDescriptorSha256 : Option String
  activation : Option ActivationTransaction

def ActivationTransaction.toDict (a : ActivationTransaction) : Json :=
  .obj [("transaction_id", .str a.transactionId),
    ("candidate_slot", .str a.candidateSlot.value),
    ("candidate_generation", .int a.candidateGeneration),
    ("candidate_descriptor_sha256", .str a.candidateDescriptorSha256),
    ("phase", .str a.phase.value)]

def RuntimeState.toDict (s : RuntimeState) : Json :=
  .obj [("schema_version", s.schemaVersion),
    ("active_slot", .str s.activeSlot.value),
    ("active_generation", .int s.activeGeneration),
    ("active_descriptor_sha256", .str s.activeDescriptorSha256),
    ("previous_slot", .optional (fun slot => .str slot.value) s.previousSlot),
    ("previous_generation", .optional .int s.previousGeneration),
    ("previous_descriptor_sha256", .optional .str s.previousDescriptorSha256),
    ("activation", .optional ActivationTransaction.toDict s.activation)]

/-! ## The reader -/

inductive StateError where
  | notAnObject
  | keys (found : List String)
  | schemaVersion
  | sha (field : String)
  | slot (field : String)
  | positiveInt (field : String)
  | uuid (field : String)
  | previousPartial
  | previousSlot
  | previousGeneration
  | activationNotAnObject
  | activationKeys
  | phase
  | candidateSlot
  | candidateGeneration
  deriving DecidableEq, Repr

def requireSha (value : Json) (field : String) : Except StateError String :=
  match value with
  | .str s => if isSha256 s then .ok s else .error (.sha field)
  | _ => .error (.sha field)

def requireSlot (value : Json) (field : String) : Except StateError Slot :=
  match value with
  | .str s => if s = "A" then .ok .a else if s = "B" then .ok .b else .error (.slot field)
  | _ => .error (.slot field)

def requirePositiveInt (value : Json) (field : String) : Except StateError ℤ :=
  match value with
  | .int n => if n < 1 then .error (.positiveInt field) else .ok n
  | _ => .error (.positiveInt field)

def requireUuid (value : Json) (field : String) : Except StateError String :=
  match value with
  | .str s => if isCanonicalUuid s then .ok s else .error (.uuid field)
  | _ => .error (.uuid field)

def requirePhase (value : Json) : Except StateError ActivationPhase :=
  match value with
  | .str s => orRaise (ActivationPhase.ofValue s) .phase
  | _ => .error .phase

def activationKeys : List String :=
  ["transaction_id", "candidate_slot", "candidate_generation", "candidate_descriptor_sha256",
    "phase"]

def parseActivation (value : Json) : Except StateError (Option ActivationTransaction) :=
  match value with
  | .null => .ok none
  | .obj data => do
    raiseIf (¬Json.hasKeys data activationKeys) .activationKeys
    let transactionId ← requireUuid (Json.lookup data "transaction_id") "activation.transaction_id"
    let candidateSlot ← requireSlot (Json.lookup data "candidate_slot") "activation.candidate_slot"
    let candidateGeneration ← requirePositiveInt (Json.lookup data "candidate_generation")
      "activation.candidate_generation"
    let candidateDescriptorSha256 ← requireSha (Json.lookup data "candidate_descriptor_sha256")
      "activation.candidate_descriptor_sha256"
    let phase ← requirePhase (Json.lookup data "phase")
    .ok (some ⟨transactionId, candidateSlot, candidateGeneration, candidateDescriptorSha256, phase⟩)
  | _ => .error .activationNotAnObject

/-- The three `previous_*` fields: all null or all present. -/
def parsePrevious (data : List (String × Json)) (activeSlot : Slot) (activeGeneration : ℤ) :
    Except StateError (Option Slot × Option ℤ × Option String) :=
  let slotRaw := Json.lookup data "previous_slot"
  let generationRaw := Json.lookup data "previous_generation"
  let shaRaw := Json.lookup data "previous_descriptor_sha256"
  if slotRaw.isNull ∧ generationRaw.isNull ∧ shaRaw.isNull then .ok (none, none, none)
  else if slotRaw.isNull ∨ generationRaw.isNull ∨ shaRaw.isNull then .error .previousPartial
  else do
    let slot ← requireSlot slotRaw "previous_slot"
    let generation ← requirePositiveInt generationRaw "previous_generation"
    let sha ← requireSha shaRaw "previous_descriptor_sha256"
    raiseIf (slot = activeSlot) .previousSlot
    raiseIf (activeGeneration ≤ generation) .previousGeneration
    .ok (some slot, some generation, some sha)

def generationAdvances (generation : ℤ) (previousGeneration : Option ℤ) : Bool :=
  match previousGeneration with
  | none => generation = 1
  | some previous => previous < generation

/-- The activation against the active slot and generation. -/
def checkActivation (activation : Option ActivationTransaction) (activeSlot : Slot)
    (activeGeneration : ℤ) : Except StateError Unit :=
  match activation with
  | none => .ok ()
  | some a => do
    raiseIf (a.candidateSlot = activeSlot) .candidateSlot
    raiseIf (¬generationAdvances a.candidateGeneration (some activeGeneration))
      .candidateGeneration

def stateKeys : List String :=
  ["schema_version", "active_slot", "active_generation", "active_descriptor_sha256",
    "previous_slot", "previous_generation", "previous_descriptor_sha256", "activation"]

def parseRuntimeStateDict (value : Json) : Except StateError RuntimeState :=
  match value with
  | .obj data => do
    raiseIf (¬Json.hasKeys data stateKeys) (.keys (data.map Prod.fst))
    raiseIf (¬(Json.lookup data "schema_version").eqInt 1) .schemaVersion
    let activeSlot ← requireSlot (Json.lookup data "active_slot") "active_slot"
    let activeGeneration ←
      requirePositiveInt (Json.lookup data "active_generation") "active_generation"
    let activeDescriptorSha256 ←
      requireSha (Json.lookup data "active_descriptor_sha256") "active_descriptor_sha256"
    let previous ← parsePrevious data activeSlot activeGeneration
    let activation ← parseActivation (Json.lookup data "activation")
    checkActivation activation activeSlot activeGeneration
    .ok { schemaVersion := Json.lookup data "schema_version"
          activeSlot := activeSlot
          activeGeneration := activeGeneration
          activeDescriptorSha256 := activeDescriptorSha256
          previousSlot := previous.1
          previousGeneration := previous.2.1
          previousDescriptorSha256 := previous.2.2
          activation := activation }
  | _ => .error .notAnObject

/-! ## Well-formed states -/

/-- An activation that the reader accepts next to the given active slot. -/
structure ActivationTransaction.WellFormed (a : ActivationTransaction) (activeSlot : Slot)
    (activeGeneration : ℤ) : Prop where
  transactionId : isCanonicalUuid a.transactionId
  slot : a.candidateSlot ≠ activeSlot
  generation_pos : 1 ≤ a.candidateGeneration
  sha : isSha256 a.candidateDescriptorSha256
  advances : activeGeneration < a.candidateGeneration

/-- The former active slot, or nothing at all. -/
inductive PreviousWellFormed (activeSlot : Slot) (activeGeneration : ℤ) :
    Option Slot → Option ℤ → Option String → Prop
  | absent : PreviousWellFormed activeSlot activeGeneration none none none
  | former (slot : Slot) (generation : ℤ) (sha : String) (hother : slot ≠ activeSlot)
    (hpos : 1 ≤ generation) (holder : generation < activeGeneration) (hdigest : isSha256 sha) :
    PreviousWellFormed activeSlot activeGeneration (some slot) (some generation) (some sha)

structure RuntimeState.WellFormed (s : RuntimeState) : Prop where
  schema : s.schemaVersion.eqInt 1
  generation_pos : 1 ≤ s.activeGeneration
  sha : isSha256 s.activeDescriptorSha256
  previous : PreviousWellFormed s.activeSlot s.activeGeneration s.previousSlot
    s.previousGeneration s.previousDescriptorSha256
  activation : ∀ a, s.activation = some a → a.WellFormed s.activeSlot s.activeGeneration

/-! ### What is accepted is well formed -/

theorem requireSha_ok {value : Json} {field s : String} (h : requireSha value field = .ok s) :
    isSha256 s := by
  unfold requireSha at h
  split at h
  · split_ifs at h with hsha
    cases h
    exact hsha
  · cases h

theorem requirePositiveInt_ok {value : Json} {field : String}
    (h : requirePositiveInt value field = .ok n) : 1 ≤ n := by
  unfold requirePositiveInt at h
  split at h
  · split_ifs at h with hn
    cases h
    omega
  · cases h

theorem requireUuid_ok {value : Json} {field s : String} (h : requireUuid value field = .ok s) :
    isCanonicalUuid s := by
  unfold requireUuid at h
  split at h
  · split_ifs at h with huuid
    cases h
    exact huuid
  · cases h

theorem parseActivation_ok {value : Json} {a : ActivationTransaction}
    (h : parseActivation value = .ok (some a)) :
    isCanonicalUuid a.transactionId ∧ 1 ≤ a.candidateGeneration ∧
      isSha256 a.candidateDescriptorSha256 := by
  unfold parseActivation at h
  split at h
  · cases h
  · obtain ⟨_, -, h⟩ := bind_eq_ok.mp h
    obtain ⟨_, huuid, h⟩ := bind_eq_ok.mp h
    obtain ⟨_, -, h⟩ := bind_eq_ok.mp h
    obtain ⟨_, hgeneration, h⟩ := bind_eq_ok.mp h
    obtain ⟨_, hsha, h⟩ := bind_eq_ok.mp h
    obtain ⟨_, -, h⟩ := bind_eq_ok.mp h
    cases h
    exact ⟨requireUuid_ok huuid, requirePositiveInt_ok hgeneration, requireSha_ok hsha⟩
  · cases h

theorem checkActivation_ok {a : ActivationTransaction}
    (h : checkActivation (some a) activeSlot activeGeneration = .ok ()) :
    a.candidateSlot ≠ activeSlot ∧ activeGeneration < a.candidateGeneration := by
  obtain ⟨_, hslot, hgeneration⟩ := bind_eq_ok.mp h
  have hadvances := not_not.mp (raiseIf_eq_ok.mp hgeneration)
  exact ⟨raiseIf_eq_ok.mp hslot, of_decide_eq_true hadvances⟩

/-- Whatever the reader accepts is well formed. -/
theorem wellFormed_of_parse {value : Json} {s : RuntimeState}
    (h : parseRuntimeStateDict value = .ok s) : s.WellFormed := by
  unfold parseRuntimeStateDict at h
  split at h
  · obtain ⟨_, -, h⟩ := bind_eq_ok.mp h
    obtain ⟨_, hschema, h⟩ := bind_eq_ok.mp h
    obtain ⟨activeSlot, -, h⟩ := bind_eq_ok.mp h
    obtain ⟨activeGeneration, hgeneration, h⟩ := bind_eq_ok.mp h
    obtain ⟨sha, hsha, h⟩ := bind_eq_ok.mp h
    obtain ⟨previous, hprevious, h⟩ := bind_eq_ok.mp h
    obtain ⟨activation, hactivation, h⟩ := bind_eq_ok.mp h
    obtain ⟨_, hcheck, h⟩ := bind_eq_ok.mp h
    cases h
    refine ⟨not_not.mp (raiseIf_eq_ok.mp hschema), requirePositiveInt_ok hgeneration,
      requireSha_ok hsha, ?_, ?_⟩
    · unfold parsePrevious at hprevious
      dsimp only at hprevious
      split_ifs at hprevious
      · cases hprevious
        exact .absent
      · obtain ⟨slot, -, hprevious⟩ := bind_eq_ok.mp hprevious
        obtain ⟨generation, hpos, hprevious⟩ := bind_eq_ok.mp hprevious
        obtain ⟨digest, hdigest, hprevious⟩ := bind_eq_ok.mp hprevious
        obtain ⟨_, hother, hprevious⟩ := bind_eq_ok.mp hprevious
        obtain ⟨_, holder, hprevious⟩ := bind_eq_ok.mp hprevious
        cases hprevious
        exact .former slot generation digest (raiseIf_eq_ok.mp hother)
          (requirePositiveInt_ok hpos) (not_le.mp (raiseIf_eq_ok.mp holder)) (requireSha_ok hdigest)
    · rintro a rfl
      obtain ⟨huuid, hpos, hdigest⟩ := parseActivation_ok hactivation
      obtain ⟨hslot, hadvances⟩ := checkActivation_ok hcheck
      exact ⟨huuid, hslot, hpos, hdigest, hadvances⟩
  · cases h

/-! ### A well-formed state is read back -/

theorem requireSlot_value (slot : Slot) (field : String) :
    requireSlot (.str slot.value) field = .ok slot := by
  cases slot <;> rfl

theorem requireSha_str {s : String} (h : isSha256 s) (field : String) :
    requireSha (.str s) field = .ok s := if_pos h

theorem requirePositiveInt_int (h : 1 ≤ n) (field : String) :
    requirePositiveInt (.int n) field = .ok n := if_neg (by omega)

theorem requireUuid_str {s : String} (h : isCanonicalUuid s) (field : String) :
    requireUuid (.str s) field = .ok s := if_pos h

theorem requirePhase_value (p : ActivationPhase) : requirePhase (.str p.value) = .ok p :=
  orRaise_eq_ok.mpr (ActivationPhase.ofValue_value p)

theorem parseActivation_toDict {a : ActivationTransaction}
    (h : a.WellFormed activeSlot activeGeneration) :
    parseActivation a.toDict = .ok (some a) := by
  refine bind_eq_ok.mpr ⟨(), raiseIf_eq_ok.mpr (not_not.mpr rfl), ?_⟩
  refine bind_eq_ok.mpr ⟨_, requireUuid_str h.transactionId _, ?_⟩
  refine bind_eq_ok.mpr ⟨_, requireSlot_value _ _, ?_⟩
  refine bind_eq_ok.mpr ⟨_, requirePositiveInt_int h.generation_pos _, ?_⟩
  refine bind_eq_ok.mpr ⟨_, requireSha_str h.sha _, ?_⟩
  exact bind_eq_ok.mpr ⟨_, requirePhase_value _, rfl⟩

theorem checkActivation_wellFormed {a : ActivationTransaction}
    (h : a.WellFormed activeSlot activeGeneration) :
    checkActivation (some a) activeSlot activeGeneration = .ok () := by
  refine bind_eq_ok.mpr ⟨(), raiseIf_eq_ok.mpr h.slot, ?_⟩
  exact raiseIf_eq_ok.mpr (not_not.mpr (decide_eq_true h.advances))

theorem parsePrevious_optional {slot : Option Slot} {generation : Option ℤ} {sha : Option String}
    (h : PreviousWellFormed activeSlot activeGeneration slot generation sha)
    {data : List (String × Json)}
    (hslot : Json.lookup data "previous_slot" = .optional (fun slot => .str slot.value) slot)
    (hgeneration : Json.lookup data "previous_generation" = .optional .int generation)
    (hsha : Json.lookup data "previous_descriptor_sha256" = .optional .str sha) :
    parsePrevious data activeSlot activeGeneration = .ok (slot, generation, sha) := by
  unfold parsePrevious
  rw [hslot, hgeneration, hsha]
  cases h with
  | absent => rfl
  | former slot generation sha hother hpos holder hdigest =>
    refine bind_eq_ok.mpr ⟨_, requireSlot_value slot _, ?_⟩
    refine bind_eq_ok.mpr ⟨_, requirePositiveInt_int hpos _, ?_⟩
    refine bind_eq_ok.mpr ⟨_, requireSha_str hdigest _, ?_⟩
    refine bind_eq_ok.mpr ⟨(), raiseIf_eq_ok.mpr hother, ?_⟩
    exact bind_eq_ok.mpr ⟨(), raiseIf_eq_ok.mpr (not_le.mpr holder), rfl⟩

theorem parse_toDict {s : RuntimeState} (h : s.WellFormed) :
    parseRuntimeStateDict s.toDict = .ok s := by
  have hactivation : parseActivation (.optional ActivationTransaction.toDict s.activation) =
      .ok s.activation ∧ checkActivation s.activation s.activeSlot s.activeGeneration = .ok () := by
    cases ha : s.activation with
    | none => exact ⟨rfl, rfl⟩
    | some a =>
      have hwell := h.activation a ha
      exact ⟨parseActivation_toDict hwell, checkActivation_wellFormed hwell⟩
  refine bind_eq_ok.mpr ⟨(), raiseIf_eq_ok.mpr (not_not.mpr rfl), ?_⟩
  refine bind_eq_ok.mpr ⟨(), raiseIf_eq_ok.mpr (not_not.mpr h.schema), ?_⟩
  refine bind_eq_ok.mpr ⟨_, requireSlot_value s.activeSlot _, ?_⟩
  refine bind_eq_ok.mpr ⟨_, requirePositiveInt_int h.generation_pos _, ?_⟩
  refine bind_eq_ok.mpr ⟨_, requireSha_str h.sha _, ?_⟩
  refine bind_eq_ok.mpr ⟨_, parsePrevious_optional h.previous rfl rfl rfl, ?_⟩
  refine bind_eq_ok.mpr ⟨_, hactivation.1, ?_⟩
  exact bind_eq_ok.mpr ⟨(), hactivation.2, rfl⟩

end IsadoraAir.Supervisor
