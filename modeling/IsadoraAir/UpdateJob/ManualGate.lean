import IsadoraAir.Foundation.Checks
import IsadoraAir.Supervisor.State
import IsadoraAir.UpdateJob.Recovery

/-!
# Probes and the manual gate

What a migration probe says, and the gate for manual operations.
-/

/-!
## What a migration probe says

The output of the probe, read strictly in one of the shapes its caller asked
for. The classification of the operations stands in the plan and once more in
the list of manual operations; a recovery probe has both for its own plan too.
-/

namespace IsadoraAir.UpdateJob

open Supervisor (isHexDigest)

/-! ### References -/

def isRefChar (c : Char) : Bool := ('a' ≤ c ∧ c ≤ 'z') ∨ ('0' ≤ c ∧ c ≤ '9') ∨ c = '_'

/-- `_MIGRATION_REF_RE.fullmatch` -/
def isMigrationRef (s : String) : Bool :=
  let app := s.toList.takeWhile (· ≠ '.')
  let name := s.toList.drop (app.length + 1)
  app.length < s.toList.length ∧ app.head?.any (fun c => 'a' ≤ c ∧ c ≤ 'z') ∧ app.all isRefChar ∧
    (name.take 4).length = 4 ∧ (name.take 4).all Char.isDigit ∧ name[4]? = some '_' ∧
      name.drop 5 ≠ [] ∧ (name.drop 5).all isRefChar

/-! ### The payload -/

inductive Classification where
  | additive
  | manual
  deriving DecidableEq

/-- An operation of a migration; only its classification was checked. -/
structure PlanOperation where
  operation : Json
  classification : Classification
  detail : Json

structure PlanItem where
  ref : MigrationRef
  dependencies : List MigrationRef
  operations : List PlanOperation
  migrationFileSha256 : String

/-- An entry of `manual_operations`, all of which are classified as manual. -/
structure ManualOperation where
  ref : MigrationRef
  operationIndex : ℕ
  operation : String
  detail : String
  deriving DecidableEq

/-- What a probe adds that knows the reviewed-plan shape. -/
structure ReviewPart where
  releaseId : Option String
  targetCommit : Option String
  manifestSha256 : Option String
  migrationPlanDigest : Option String
  manualOperations : List ManualOperation

/-- What a recovery probe adds. -/
structure RecoveryPart where
  plan : List PlanItem
  migrationPlanDigest : String
  manualOperations : List ManualOperation

structure ProbePayload where
  plan : List PlanItem
  nodes : Dict MigrationRef (List MigrationRef)
  applied : List MigrationRef
  conflicts : List (String × Json)
  replacements : List Json
  review : Option ReviewPart
  recovery : Option RecoveryPart

/-! ### The strict parser -/

/-- `_LEGACY_PROBE_KEYS` -/
def legacyProbeKeys : List String :=
  ["schema_version", "status", "plan", "nodes", "applied", "conflicts", "replacements"]

/-- `_REVIEW_PROBE_KEYS` -/
def reviewProbeKeys : List String :=
  legacyProbeKeys ++ ["release_id", "target_commit", "manifest_sha256", "migration_plan_digest",
    "manual_operations", "approval"]

/-- `_RECOVERY_PROBE_KEYS` -/
def recoveryProbeKeys : List String :=
  reviewProbeKeys ++ ["recovery_plan", "recovery_migration_plan_digest",
    "recovery_manual_operations"]

def probeInvalid : Failure := .execution "PROBE_INVALID" false

def readRef (raw : Json) : Except Failure MigrationRef := do
  let ref ← orRaise raw.str? probeInvalid
  raiseIf (¬isMigrationRef ref) probeInvalid
  return ref

/-- An item of `nodes`. -/
def readNode (item : String × Json) : Except Failure (MigrationRef × List MigrationRef) := do
  raiseIf (¬isMigrationRef item.1) probeInvalid
  let dependencies ← orRaise item.2.list? probeInvalid
  return (item.1, ← dependencies.mapM readRef)

/-- A null or a string that the check accepts. -/
def readOptional (check : String → Bool) : Json → Except Failure (Option String)
  | .null => return none
  | .str s => if check s = true then return some s else .error probeInvalid
  | _ => .error probeInvalid

/-- Looking a list or an object up in a set raises. -/
def readClassification (raw : Json) : Except Failure Classification :=
  if raw.unhashable = true then .error .unexpected
  else if raw.str? = some "additive" then return .additive
  else if raw.str? = some "manual" then return .manual
  else .error probeInvalid

def readOperation (raw : Json) : Except Failure PlanOperation := do
  let items ← orRaise raw.obj? probeInvalid
  raiseIf (¬Json.hasKeys items ["operation", "classification", "detail"]) probeInvalid
  let classification ← readClassification (Json.lookup items "classification")
  return ⟨Json.lookup items "operation", classification, Json.lookup items "detail"⟩

/-- An item of a plan, after those with the references `seen`. -/
def readPlanItem (nodes : Dict MigrationRef (List MigrationRef)) (seen : List MigrationRef)
    (raw : Json) : Except Failure PlanItem := do
  let items ← orRaise raw.obj? probeInvalid
  raiseIf (¬Json.hasKeys items ["ref", "dependencies", "operations", "migration_file_sha256"])
    probeInvalid
  raiseIf ((Json.lookup items "ref").unhashable) .unexpected
  let ref ← orRaise (Json.lookup items "ref").str? probeInvalid
  raiseIf (ref ∈ seen) probeInvalid
  let dependencies ← orRaise (nodes.get? ref) probeInvalid
  let given ← orRaise (Json.lookup items "dependencies").list? probeInvalid
  raiseIf (given.mapM Json.str? ≠ some dependencies) probeInvalid
  let digest ← orRaise (Json.lookup items "migration_file_sha256").str? probeInvalid
  raiseIf (¬isHexDigest digest) probeInvalid
  let operations ← orRaise (Json.lookup items "operations").list? probeInvalid
  return ⟨ref, dependencies, ← operations.mapM readOperation, digest⟩

def readPlan (nodes : Dict MigrationRef (List MigrationRef)) (raws : List Json) :
    Except Failure (List PlanItem) :=
  raws.foldlM (fun plan raw => do
    let item ← readPlanItem nodes (plan.map PlanItem.ref) raw
    return plan ++ [item]) []

/-- `_valid_manual_operations`, with the entries it accepts. -/
def readManualOperation (planRefs : List MigrationRef) (raw : Json) :
    Except Failure ManualOperation := do
  let items ← orRaise raw.obj? probeInvalid
  raiseIf (¬Json.hasKeys items ["ref", "operation_index", "operation", "classification", "detail"])
    probeInvalid
  let ref ← readRef (Json.lookup items "ref")
  raiseIf (ref ∉ planRefs) probeInvalid
  let index ← orRaise (Json.lookup items "operation_index").int? probeInvalid
  raiseIf (index < 0) probeInvalid
  raiseIf ((Json.lookup items "classification").str? ≠ some "manual") probeInvalid
  let operation ← orRaise (Json.lookup items "operation").str? probeInvalid
  let detail ← orRaise (Json.lookup items "detail").str? probeInvalid
  return ⟨ref, index.toNat, operation, detail⟩

/-- The review fields, with the manual operations as they were sent. -/
def readReview (reviewContext : Bool) (items : List (String × Json)) :
    Except Failure (ReviewPart × List Json) := do
  let releaseId ← readOptional (fun _ => true) (Json.lookup items "release_id")
  let targetCommit ← readOptional (fun _ => true) (Json.lookup items "target_commit")
  let manifest ← readOptional isHexDigest (Json.lookup items "manifest_sha256")
  let digest ← readOptional isHexDigest (Json.lookup items "migration_plan_digest")
  let manual ← orRaise (Json.lookup items "manual_operations").list? probeInvalid
  raiseIf (¬(Json.lookup items "approval").isNull) probeInvalid
  raiseIf (reviewContext = false ∧ (releaseId.isSome ∨ targetCommit.isSome ∨ manifest.isSome ∨
    digest.isSome ∨ manual ≠ [])) probeInvalid
  return (⟨releaseId, targetCommit, manifest, digest, []⟩, manual)

def readRecovery (nodes : Dict MigrationRef (List MigrationRef)) (items : List (String × Json)) :
    Except Failure RecoveryPart := do
  let raws ← orRaise (Json.lookup items "recovery_plan").list? probeInvalid
  raiseIf (raws = []) probeInvalid
  let digest ← orRaise (Json.lookup items "recovery_migration_plan_digest").str? probeInvalid
  raiseIf (¬isHexDigest digest) probeInvalid
  let plan ← readPlan nodes raws
  let manual ← orRaise (Json.lookup items "recovery_manual_operations").list? probeInvalid
  return ⟨plan, digest, ← manual.mapM (readManualOperation (plan.map PlanItem.ref))⟩

/-- The keys of the shape that was asked for, and whether they include the review fields. -/
def probeShape (reviewContext recoveryContext : Bool) (items : List (String × Json)) :
    Except Failure Bool :=
  if recoveryContext = true then
    if Json.hasKeys items recoveryProbeKeys = true then return true else .error probeInvalid
  else if Json.hasKeys items reviewProbeKeys = true then return true
  else if reviewContext = false ∧ Json.hasKeys items legacyProbeKeys = true then return false
  else .error probeInvalid

/-- `_strict_probe`; `oversized` is the limit of 1 MiB, `loaded` is the parsed document. -/
def strictProbe (oversized : Bool) (loaded : Option Json) (reviewContext recoveryContext : Bool) :
    Except Failure ProbePayload := do
  raiseIf (recoveryContext = true ∧ reviewContext = false) probeInvalid
  raiseIf oversized probeInvalid
  let items ← orRaise (loaded.bind Json.obj?) probeInvalid
  let hasReviewFields ← probeShape reviewContext recoveryContext items
  raiseIf (¬(Json.lookup items "schema_version").eqInt 1 ∨
    (Json.lookup items "status").str? ≠ some "ok") probeInvalid
  let rawPlan ← orRaise (Json.lookup items "plan").list? probeInvalid
  let rawNodes ← orRaise (Json.lookup items "nodes").obj? probeInvalid
  let rawApplied ← orRaise (Json.lookup items "applied").list? probeInvalid
  let conflicts ← orRaise (Json.lookup items "conflicts").obj? probeInvalid
  let replacements ← orRaise (Json.lookup items "replacements").list? probeInvalid
  let header ← if hasReviewFields = true then (readReview reviewContext items).map some else pure none
  let nodes := Dict.ofList (← rawNodes.mapM readNode)
  let applied ← rawApplied.mapM readRef
  let plan ← readPlan nodes rawPlan
  let review ← match header with
    | none => pure none
    | some (review, rawManual) => do
        let manual ← rawManual.mapM (readManualOperation (plan.map PlanItem.ref))
        raiseIf (manual ≠ [] ∧ review.migrationPlanDigest = none) probeInvalid
        pure (some { review with manualOperations := manual })
  let recovery ← if recoveryContext = true then (readRecovery nodes items).map some else pure none
  return ⟨plan, nodes, applied, conflicts, replacements, review, recovery⟩

end IsadoraAir.UpdateJob

/-!
## The gate for manual operations

Operations outside the automatic allowlist run only with a trusted companion for
each of them or a stored approval of the exact plan. The gate reads one list of
manual operations; the plan it releases classifies its operations itself.
-/

namespace IsadoraAir.UpdateJob

open Releases (TrustedPlan)

variable {condition manual : Bool} {evidence : Evidence} {applied : List MigrationRef}
  {classification : String}

/-! ### Trusted companions -/

/-- `manual_operation_identity`; every one is classified as manual. -/
structure OperationIdentity where
  ref : MigrationRef
  migrationFileSha256 : String
  operationIndex : ℕ
  operation : String
  deriving DecidableEq

/-- The operations that the companions of the plan's releases authorize. -/
abbrev Companions := Dict String (List OperationIdentity)

/-- `frozenset().union(*authorizations.values())` -/
def Companions.union (companions : Companions) : List OperationIdentity := companions.values.flatten

/-- `{item["ref"]: item["migration_file_sha256"] for item in plan_items}` -/
def fileDigests (plan : List PlanItem) : Dict MigrationRef String :=
  Dict.ofList (plan.map fun item => (item.ref, item.migrationFileSha256))

def ManualOperation.identity (operation : ManualOperation) (digest : String) : OperationIdentity :=
  ⟨operation.ref, digest, operation.operationIndex, operation.operation⟩

/-- `central_authorization_covers` -/
def centralAuthorizationCovers (companions : Companions) (plan : List PlanItem)
    (manualOperations : List ManualOperation) : Bool :=
  if manualOperations = [] ∨ companions.items = [] then false
  else manualOperations.all fun operation =>
    ((fileDigests plan).get? operation.ref).any fun digest =>
      operation.identity digest ∈ companions.union

/-! ### The authorization -/

/-- `approval_identity` -/
structure ApprovalIdentity where
  targetReleaseId : Option String
  targetCommit : Option String
  targetManifestSha256 : Option String
  migrationPlanDigest : Option String
  trustedPlanFingerprint : String
  deriving DecidableEq

/-- What the station answers to a validation: the recorder, the companions of the plan's releases,
and whether an approval is stored, unless the store rejects the identity. -/
structure Station where
  observed : List MigrationRef → Except Failure (Dict MigrationRef Row)
  companions : Except Failure Companions
  approvals : ApprovalIdentity → Except Unit Bool

/-- `authorization_payload`, as far as the gate reads it. -/
structure Authorized where
  plan : List PlanItem
  migrationPlanDigest : Option String
  manualOperations : List ManualOperation

namespace ProbePayload

/-- The plan that is authorized: the reconstructed one when a recovery continues. -/
def authorization (reported : ProbePayload) (review : ReviewPart) (recovery : Option Evidence) :
    Authorized :=
  match recovery, reported.recovery with
  | some _, some part => ⟨part.plan, some part.migrationPlanDigest, part.manualOperations⟩
  | _, _ => ⟨reported.plan, review.migrationPlanDigest, review.manualOperations⟩

def identity (plan : TrustedPlan) (review : ReviewPart) (authorization : Authorized) :
    ApprovalIdentity :=
  ⟨review.releaseId, review.targetCommit, review.manifestSha256, authorization.migrationPlanDigest,
    plan.fingerprint⟩

end ProbePayload

/-- The gate, for a plan with manual operations. -/
def authorizeManual (station : Station) (plan : TrustedPlan) (review : ReviewPart)
    (authorization : Authorized) : Except Failure AuthorizationSource := do
  let companions ← station.companions
  if centralAuthorizationCovers companions authorization.plan authorization.manualOperations = true then
    return .central
  match station.approvals (ProbePayload.identity plan review authorization) with
  | .error () => .error (.execution "MIGRATION_APPROVAL_STORE_INVALID" true)
  | .ok true => return .localApproval
  | .ok false => .error (.execution "MIGRATION_OPERATION_MANUAL" true)

/-! ### The validation of the target schema -/

/-- How a manual operation is named in a refusal. -/
def ManualOperation.text (operation : ManualOperation) : String :=
  operation.ref ++ " contains " ++ operation.operation ++ ": " ++ operation.detail

/-- The payload as the validation reads it. -/
def ProbePayload.toPayload (reported : ProbePayload) (review : ReviewPart) : Payload where
  plan := reported.plan.map PlanItem.ref
  nodes := reported.nodes
  applied := reported.applied
  conflicts := reported.conflicts ≠ []
  replacements := reported.replacements ≠ []
  manifestSha256 := review.manifestSha256
  migrationPlanDigest := review.migrationPlanDigest
  manualOperations := review.manualOperations.map ManualOperation.text
  recoveryPlan := reported.recovery.map fun part => part.plan.map PlanItem.ref
  recoveryMigrationPlanDigest := reported.recovery.map RecoveryPart.migrationPlanDigest
  recoveryManualOperations := reported.recovery.elim [] fun part =>
    part.manualOperations.map ManualOperation.text

def Station.results (station : Station) (authorized : Except Failure AuthorizationSource) :
    (a : Action) → a.Result
  | .observeRecords refs => station.observed refs
  | .authorize _ => authorized
  | _ => .error .unexpected

/-- `_validate_target_schema` on a payload that the strict parser has accepted; a payload without the
review fields has no manual operations to look up. -/
def validateReported (station : Station) (plan : TrustedPlan) (reported : ProbePayload)
    (current : Option Payload) (migrationAlreadyStarted : Bool) (recovery : Option Evidence) :
    Except Failure (List MigrationRef × AuthorizationSource) :=
  match reported.review with
  | none => .error .unexpected
  | some review =>
    (validateTargetSchema plan (reported.toPayload review) current migrationAlreadyStarted
      recovery).evaluate (station.results
        (authorizeManual station plan review (reported.authorization review recovery)))

/-! ### Evaluation -/

section Evaluation

variable {results : (a : Action) → a.Result}

theorem evaluate_call (a : Action) : (call a).evaluate results = results a := by
  rw [call, Routine.evaluate_bind]
  cases h : results a with
  | error failure => simp only [Routine.perform, Routine.evaluate, h]; rfl
  | ok value => simp only [Routine.perform, Routine.evaluate, h]; rfl

theorem evaluate_require_bind {α : Type} {f : Unit → Program α} {a : α} :
    (require condition classification manual >>= f).evaluate results = .ok a ↔
      condition = true ∧ (f ()).evaluate results = .ok a := by
  rw [Routine.evaluate_bind, require]
  cases condition with
  | true =>
    rw [if_pos rfl]
    exact ⟨fun h => ⟨rfl, h⟩, fun h => h.2⟩
  | false =>
    refine ⟨fun h => ?_, fun h => absurd h.1 (by simp)⟩
    simp [raiseError, Routine.evaluate, bind, Except.bind] at h

theorem evaluate_require {u : Unit} :
    (require condition classification manual).evaluate results = .ok u ↔ condition = true := by
  cases condition with
  | true => exact ⟨fun _ => rfl, fun _ => rfl⟩
  | false => simp [require, raiseError, Routine.evaluate]

theorem evaluate_ofExcept_bind {α β : Type} {x : Except Failure α} {f : α → Program β} {b : β} :
    (ofExcept x >>= f).evaluate results = .ok b ↔ ∃ a, x = .ok a ∧ (f a).evaluate results = .ok b := by
  rw [Routine.evaluate_bind, ← bind_eq_ok]
  cases x <;> rfl

end Evaluation

/-! ### What is released -/

/-- The part of the recovery checks that a continuation has to pass. -/
structure Continues (station : Station) (payload : Payload) (applied : List MigrationRef)
    (recovery : Evidence) : Prop where
  plan : payload.recoveryPlan = some recovery.orderedTargetPlan
  digest : payload.recoveryMigrationPlanDigest = recovery.migrationPlanDigest
  applied : sameRefs applied recovery.successfulPrefix = true
  observed : ∃ rows, station.observed recovery.orderedTargetPlan = .ok rows ∧
    sameRefs rows.keys recovery.successfulPrefix = true ∧
      rowsChanged rows recovery.prefixRecords recovery.successfulPrefix = false

/-- The payload passes every check before the gate for manual operations. -/
structure Admitted (station : Station) (plan : TrustedPlan) (payload : Payload)
    (current : Option Payload) (migrationAlreadyStarted : Bool) (recovery : Option Evidence) :
    Prop where
  conflicts : payload.conflicts = false
  replacements : payload.replacements = false
  closure : ∃ closure, dependencyClosure payload.nodes plan.migrationsRequired = .ok closure ∧
    sameRefs payload.plan (closure.filter fun ref => ref ∉ payload.applied) = true ∧
      payload.plan.Nodup ∧
      (alreadyAppliedTransition closure payload current = [] ∨ migrationAlreadyStarted = true ∨
        recovery.isSome = true) ∧
      ∀ evidence, recovery = some evidence →
        Continues station payload (alreadyAppliedTransition closure payload current) evidence
  additive : payload.plan = [] ∨ plan.migrationCompatibility = some "additive"

section Released

variable {station : Station} {plan : TrustedPlan} {payload : Payload} {current : Option Payload}
  {started : Bool} {recovery : Option Evidence} {authorized : Except Failure AuthorizationSource}
  {refs : List MigrationRef} {source : AuthorizationSource}

theorem evaluate_validateRecovery :
    (validateRecovery payload applied evidence).evaluate (station.results authorized) = .ok () ↔
      Continues station payload applied evidence := by
  simp only [validateRecovery, assertOwnedPrefix, assertExactPrefix, evaluate_require_bind,
    Bool.and_eq_true, decide_eq_true_eq]
  rw [Routine.evaluate_bind, evaluate_call, bind_eq_ok]
  simp only [evaluate_require_bind, evaluate_require, Bool.not_eq_true']
  constructor
  · rintro ⟨⟨hplan, hdigest⟩, happlied, rows, hrows, hkeys, hsame⟩
    exact ⟨hplan, hdigest, happlied, rows, hrows, hkeys, hsame⟩
  · rintro ⟨hplan, hdigest, happlied, rows, hrows, hkeys, hsame⟩
    exact ⟨⟨hplan, hdigest⟩, happlied, rows, hrows, hkeys, hsame⟩

/-- The end of the validation, once it is known which list the gate reads. -/
theorem evaluate_gate {manual : List String} :
    (if manual = [] then pure (payload.plan, .notRequired)
      else call (.authorize manual) >>= fun source => pure (payload.plan, source) :
        Program (List MigrationRef × AuthorizationSource)).evaluate (station.results authorized) =
          .ok (refs, source) ↔
      refs = payload.plan ∧
        (manual = [] ∧ source = .notRequired ∨ manual ≠ [] ∧ authorized = .ok source) := by
  by_cases hnone : manual = []
  · rw [if_pos hnone]
    constructor
    · intro h
      cases h
      exact ⟨rfl, .inl ⟨hnone, rfl⟩⟩
    · rintro ⟨rfl, ⟨-, rfl⟩ | ⟨hsome, -⟩⟩
      · rfl
      · exact absurd hnone hsome
  · rw [if_neg hnone, Routine.evaluate_bind, evaluate_call, bind_eq_ok]
    constructor
    · rintro ⟨given, hgiven, h⟩
      cases h
      exact ⟨rfl, .inr ⟨hnone, hgiven⟩⟩
    · rintro ⟨rfl, ⟨hsome, -⟩ | ⟨-, hgiven⟩⟩
      · exact absurd hsome hnone
      · exact ⟨source, hgiven, rfl⟩

theorem evaluate_continuation {manual : List String} :
    (validateRecovery payload applied evidence >>= fun _ =>
      if manual = [] then pure (payload.plan, .notRequired)
      else call (.authorize manual) >>= fun source => pure (payload.plan, source) :
        Program (List MigrationRef × AuthorizationSource)).evaluate (station.results authorized) =
          .ok (refs, source) ↔
      Continues station payload applied evidence ∧ refs = payload.plan ∧
        (manual = [] ∧ source = .notRequired ∨ manual ≠ [] ∧ authorized = .ok source) := by
  rw [Routine.evaluate_bind, bind_eq_ok]
  constructor
  · rintro ⟨_, hcontinues, h⟩
    exact ⟨evaluate_validateRecovery.1 hcontinues, evaluate_gate.1 h⟩
  · rintro ⟨hcontinues, hgate⟩
    exact ⟨(), evaluate_validateRecovery.2 hcontinues, evaluate_gate.2 hgate⟩

/-- A validation that returns has released the whole plan, and says by which authority. -/
theorem evaluate_validateTargetSchema :
    (validateTargetSchema plan payload current started recovery).evaluate
        (station.results authorized) = .ok (refs, source) ↔
      Admitted station plan payload current started recovery ∧ refs = payload.plan ∧
        ((recovery.elim payload.manualOperations fun _ => payload.recoveryManualOperations) = [] ∧
            source = .notRequired ∨
          (recovery.elim payload.manualOperations fun _ => payload.recoveryManualOperations) ≠ [] ∧
            authorized = .ok source) := by
  unfold validateTargetSchema
  simp only [evaluate_require_bind, evaluate_ofExcept_bind, Bool.not_eq_true', Bool.and_eq_true,
    Bool.or_eq_true, List.isEmpty_iff, decide_eq_true_eq, or_assoc]
  cases recovery with
  | none =>
    simp only [Option.elim_none]
    constructor
    · rintro ⟨hconflicts, hreplacements, closure, hclosure, ⟨hsame, hnodup⟩, happlied, hadditive, h⟩
      exact ⟨⟨hconflicts, hreplacements, ⟨closure, hclosure, hsame, hnodup, happlied, by simp⟩,
        hadditive⟩, evaluate_gate.1 h⟩
    · rintro ⟨⟨hconflicts, hreplacements, ⟨closure, hclosure, hsame, hnodup, happlied, -⟩,
        hadditive⟩, h⟩
      exact ⟨hconflicts, hreplacements, closure, hclosure, ⟨hsame, hnodup⟩, happlied, hadditive,
        evaluate_gate.2 h⟩
  | some evidence =>
    simp only [Option.elim_some]
    constructor
    · rintro ⟨hconflicts, hreplacements, closure, hclosure, ⟨hsame, hnodup⟩, happlied, hadditive, h⟩
      obtain ⟨hcontinues, hgate⟩ := evaluate_continuation.1 h
      exact ⟨⟨hconflicts, hreplacements, ⟨closure, hclosure, hsame, hnodup, happlied,
        fun _ hevidence => Option.some.inj hevidence ▸ hcontinues⟩, hadditive⟩, hgate⟩
    · rintro ⟨⟨hconflicts, hreplacements, ⟨closure, hclosure, hsame, hnodup, happlied, hcontinues⟩,
        hadditive⟩, hgate⟩
      exact ⟨hconflicts, hreplacements, closure, hclosure, ⟨hsame, hnodup⟩, happlied, hadditive,
        evaluate_continuation.2 ⟨hcontinues _ rfl, hgate⟩⟩

end Released

end IsadoraAir.UpdateJob
