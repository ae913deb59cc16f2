import IsadoraAir.Releases.Agreement
import IsadoraAir.UpdateJob.ManualGate

/-!
# Manual operations that get through the gate

A payload classifies operations as manual in its plans and in its lists, and the
gate asks for the authority of one of the lists only. What it releases is
covered as far as the other classifications agree with that list.
-/

namespace IsadoraAir.UpdateJob

open Releases (TrustedPlan)

variable {authorization : Authorized}

/-! ## Classified operations -/

/-- An operation classified as manual; in a plan its name may be any value. -/
structure ClassifiedOperation where
  ref : MigrationRef
  migrationFileSha256 : String
  operationIndex : ℕ
  operation : Json

def OperationIdentity.classified (identity : OperationIdentity) : ClassifiedOperation :=
  ⟨identity.ref, identity.migrationFileSha256, identity.operationIndex, .str identity.operation⟩

/-- The operations that an item of a plan classifies as manual. -/
def PlanItem.manual (item : PlanItem) : List ClassifiedOperation :=
  item.operations.zipIdx.filterMap fun operation =>
    if operation.1.classification = .manual then
      some ⟨item.ref, item.migrationFileSha256, operation.2, operation.1.operation⟩
    else none

/-- The identities of a list of manual operations, with the digests of its plan. -/
def listed (plan : List PlanItem) (manual : List ManualOperation) : List OperationIdentity :=
  manual.filterMap fun operation =>
    ((fileDigests plan).get? operation.ref).map operation.identity

/-- What a plan and its list of manual operations classify. -/
def classified (plan : List PlanItem) (manual : List ManualOperation) : List ClassifiedOperation :=
  plan.flatMap PlanItem.manual ++ (listed plan manual).map OperationIdentity.classified

def ProbePayload.classified (reported : ProbePayload) (review : ReviewPart) :
    List ClassifiedOperation :=
  UpdateJob.classified reported.plan review.manualOperations ++
    reported.recovery.elim [] fun part => UpdateJob.classified part.plan part.manualOperations

/-! ## Authorities -/

/-- A trusted companion authorizes this very operation. -/
def Station.CompanionCovers (station : Station) (operation : ClassifiedOperation) : Prop :=
  ∃ companions, station.companions = .ok companions ∧
    ∃ identity ∈ companions.union, identity.classified = operation

/-- The companions cover the list that the gate reads. -/
def Station.CentrallyAuthorizes (station : Station) (authorization : Authorized) : Prop :=
  ∃ companions, station.companions = .ok companions ∧
    centralAuthorizationCovers companions authorization.plan authorization.manualOperations = true

/-- The exact plan has a stored approval. -/
def Station.Approves (station : Station) (plan : TrustedPlan) (review : ReviewPart)
    (authorization : Authorized) : Prop :=
  station.approvals (ProbePayload.identity plan review authorization) = .ok true

/-- Each operation about to run that the payload classifies as manual has one of the authorities. -/
def Covered (station : Station) (plan : TrustedPlan) (reported : ProbePayload)
    (review : ReviewPart) (recovery : Option Evidence) (refs : List MigrationRef) : Prop :=
  ∀ operation ∈ reported.classified review, operation.ref ∈ refs →
    station.CompanionCovers operation ∨
      station.Approves plan review (reported.authorization review recovery)

/-- What the list of the gate does not name is authorized by a companion all the same. -/
def UnlistedCovered (station : Station) (reported : ProbePayload) (review : ReviewPart)
    (authorization : Authorized) : Prop :=
  ∀ operation ∈ reported.classified review, operation.ref ∈ reported.plan.map PlanItem.ref →
    operation ∉ (listed authorization.plan authorization.manualOperations).map
        OperationIdentity.classified →
      station.CompanionCovers operation

theorem covers_of_listed {station : Station}
    {identity : OperationIdentity} (h : station.CentrallyAuthorizes authorization)
    (hlisted : identity ∈ listed authorization.plan authorization.manualOperations) :
    station.CompanionCovers identity.classified := by
  obtain ⟨companions, hcompanions, hcovers⟩ := h
  obtain ⟨operation, hmem, hidentity⟩ := List.mem_filterMap.1 hlisted
  obtain ⟨digest, hdigest, rfl⟩ := Option.map_eq_some_iff.1 hidentity
  rw [centralAuthorizationCovers] at hcovers
  split_ifs at hcovers
  have hunion := List.all_eq_true.1 hcovers operation hmem
  rw [hdigest, Option.any_some, decide_eq_true_eq] at hunion
  exact ⟨companions, hcompanions, _, hunion, rfl⟩

theorem authorizeManual_eq_ok {station : Station} {plan : TrustedPlan} {review : ReviewPart}
    (h : ¬station.Approves plan review authorization) :
    (∃ source, authorizeManual station plan review authorization = .ok source) ↔
      station.CentrallyAuthorizes authorization := by
  simp only [authorizeManual, bind_eq_ok]
  constructor
  · rintro ⟨source, companions, hcompanions, hgate⟩
    split_ifs at hgate with hcovers
    · exact ⟨companions, hcompanions, hcovers⟩
    · split at hgate
      · cases hgate
      · exact absurd ‹_› h
      · cases hgate
  · rintro ⟨companions, hcompanions, hcovers⟩
    exact ⟨.central, companions, hcompanions, by rw [if_pos hcovers]; rfl⟩

/-! ## What is released -/

section Released

variable {oversized : Bool} {loaded : Option Json} {recoveryContext started : Bool}
  {reported : ProbePayload} {review : ReviewPart} {station : Station} {plan : TrustedPlan}
  {current : Option Payload} {recovery : Option Evidence}

theorem probeShape_review {items : List (String × Json)} {hasReviewFields : Bool}
    (h : probeShape true recoveryContext items = .ok hasReviewFields) : hasReviewFields = true := by
  rw [probeShape] at h
  split_ifs at h with hrecovery hkeys hkeys hlegacy
  · exact (Except.ok.inj h).symm
  · exact (Except.ok.inj h).symm
  · exact absurd hlegacy.1 (by decide)

/-- A payload that was asked for its review fields has them. -/
theorem review_of_strictProbe
    (h : strictProbe oversized loaded true recoveryContext = .ok reported) :
    ∃ review, reported.review = some review := by
  simp only [strictProbe, bind_eq_ok] at h
  obtain ⟨-, -, -, -, items, -, hasReviewFields, hshape, -, -, rawPlan, -, rawNodes, -, rawApplied,
    -, conflicts, -, replacements, -, rest⟩ := h
  obtain rfl := probeShape_review hshape
  rw [if_pos rfl] at rest
  obtain ⟨_, hheader, rest⟩ := bind_eq_ok.1 rest
  cases hread : readReview true items with
  | error failure =>
    rw [hread] at hheader
    cases hheader
  | ok header =>
    rw [hread] at hheader
    cases hheader
    simp only [bind_eq_ok] at rest
    obtain ⟨nodes, -, applied, -, parsed, -, manual, -, -, -, rest⟩ := rest
    refine ⟨{ header.1 with manualOperations := manual }, ?_⟩
    split_ifs at rest with hrecovery
    · obtain ⟨_, hsome, rest⟩ := rest
      cases hsome
      obtain ⟨recovery, -, hreported⟩ := bind_eq_ok.1 rest
      cases hreported
      rfl
    · obtain ⟨_, hsome, hreported⟩ := rest
      cases hsome
      cases hreported
      rfl

/-- The gate reads the list that is authorized. -/
theorem gateList_eq_nil_iff
    (hadmitted : Admitted station plan (reported.toPayload review) current started recovery) :
    (recovery.elim (reported.toPayload review).manualOperations fun _ =>
        (reported.toPayload review).recoveryManualOperations) = [] ↔
      (reported.authorization review recovery).manualOperations = [] := by
  cases recovery with
  | none => exact List.map_eq_nil_iff
  | some evidence =>
    obtain ⟨closure, -, -, -, -, hcontinues⟩ := hadmitted.closure
    have hplan := (hcontinues evidence rfl).plan
    cases hpart : reported.recovery with
    | none => simp [ProbePayload.toPayload, hpart] at hplan
    | some part => simp [ProbePayload.toPayload, ProbePayload.authorization, hpart]

theorem validateReported_eq_ok_iff (hreview : reported.review = some review)
    {refs : List MigrationRef} {source : AuthorizationSource} :
    validateReported station plan reported current started recovery = .ok (refs, source) ↔
      Admitted station plan (reported.toPayload review) current started recovery ∧
        refs = reported.plan.map PlanItem.ref ∧
        ((reported.authorization review recovery).manualOperations = [] ∧ source = .notRequired ∨
          (reported.authorization review recovery).manualOperations ≠ [] ∧
            authorizeManual station plan review (reported.authorization review recovery) =
              .ok source) := by
  rw [validateReported, hreview]
  dsimp only
  rw [evaluate_validateTargetSchema]
  refine and_congr_right fun hadmitted => ?_
  rw [ne_eq, gateList_eq_nil_iff hadmitted]
  rfl

theorem covered_iff_unlistedCovered
    (happroves : ¬station.Approves plan review (reported.authorization review recovery))
    (hgate : (reported.authorization review recovery).manualOperations = [] ∨
      station.CentrallyAuthorizes (reported.authorization review recovery)) :
    Covered station plan reported review recovery (reported.plan.map PlanItem.ref) ↔
      UnlistedCovered station reported review (reported.authorization review recovery) := by
  constructor
  · intro hcovered operation hmem href _
    exact (hcovered operation hmem href).resolve_right happroves
  · intro hunlisted operation hmem href
    left
    by_cases hlisted : operation ∈ (listed (reported.authorization review recovery).plan
        (reported.authorization review recovery).manualOperations).map OperationIdentity.classified
    · obtain ⟨identity, hidentity, rfl⟩ := List.mem_map.1 hlisted
      rcases hgate with hnone | hcentral
      · rw [hnone] at hidentity
        cases hidentity
      · exact covers_of_listed hcentral hidentity
    · exact hunlisted operation hmem href hlisted

/-- An accepted payload is released only with its manual operations covered, if and only if it is
not released at all, its plan is approved, or companions cover what the gate does not see. -/
theorem released_covered_iff
    (haccepted : strictProbe oversized loaded true recoveryContext = .ok reported)
    (station : Station) (plan : TrustedPlan) (current : Option Payload) (started : Bool)
    (recovery : Option Evidence) :
    ∃ review, reported.review = some review ∧
      ((∀ refs source,
          validateReported station plan reported current started recovery = .ok (refs, source) →
            Covered station plan reported review recovery refs) ↔
        ¬Admitted station plan (reported.toPayload review) current started recovery ∨
          station.Approves plan review (reported.authorization review recovery) ∨
          ((reported.authorization review recovery).manualOperations ≠ [] ∧
            ¬station.CentrallyAuthorizes (reported.authorization review recovery)) ∨
          UnlistedCovered station reported review (reported.authorization review recovery)) := by
  obtain ⟨review, hreview⟩ := review_of_strictProbe haccepted
  refine ⟨review, hreview, ?_⟩
  by_cases happroves : station.Approves plan review (reported.authorization review recovery)
  · exact ⟨fun _ => .inr (.inl happroves), fun _ _ _ _ _ _ _ => .inr happroves⟩
  simp only [validateReported_eq_ok_iff hreview, happroves, false_or]
  constructor
  · intro hsound
    by_cases hadmitted : Admitted station plan (reported.toPayload review) current started recovery
    · right
      by_cases hnone : (reported.authorization review recovery).manualOperations = []
      · right
        exact (covered_iff_unlistedCovered happroves (.inl hnone)).1
          (hsound _ _ ⟨hadmitted, rfl, .inl ⟨hnone, rfl⟩⟩)
      · by_cases hcentral : station.CentrallyAuthorizes (reported.authorization review recovery)
        · right
          obtain ⟨source, hsource⟩ := (authorizeManual_eq_ok happroves).2 hcentral
          exact (covered_iff_unlistedCovered happroves (.inr hcentral)).1
            (hsound _ _ ⟨hadmitted, rfl, .inr ⟨hnone, hsource⟩⟩)
        · exact .inl ⟨hnone, hcentral⟩
    · exact .inl hadmitted
  · rintro hcondition refs source ⟨hadmitted, rfl, hgate⟩
    have hreleased : (reported.authorization review recovery).manualOperations = [] ∨
        station.CentrallyAuthorizes (reported.authorization review recovery) :=
      hgate.imp And.left fun h => (authorizeManual_eq_ok happroves).1 ⟨source, h.2⟩
    refine (covered_iff_unlistedCovered happroves hreleased).2 ?_
    rcases hcondition with hrefused | ⟨hsome, hcentral⟩ | hunlisted
    · exact absurd hadmitted hrefused
    · exact absurd hreleased (not_or.2 ⟨hsome, hcentral⟩)
    · exact hunlisted

end Released

/-! ## A manual operation that no list names -/

def sampleRef : MigrationRef := "library.0002_remove_genre"

def sampleDigest : String := String.ofList (List.replicate 64 'a')

/-- The plan classifies its operation as manual, the list of manual operations is empty. -/
def sampleProbe : Json :=
  .obj [("schema_version", .int 1), ("status", .str "ok"),
    ("plan", .list [.obj [("ref", .str sampleRef), ("dependencies", .list []),
      ("operations", .list [.obj [("operation", .str "RemoveField"),
        ("classification", .str "manual"), ("detail", .str "drops a column")]]),
      ("migration_file_sha256", .str sampleDigest)]]),
    ("nodes", .obj [(sampleRef, .list [])]), ("applied", .list []), ("conflicts", .obj []),
    ("replacements", .list []), ("release_id", .str "r0002"), ("target_commit", .str "1111"),
    ("manifest_sha256", .str sampleDigest), ("migration_plan_digest", .str sampleDigest),
    ("manual_operations", .list []), ("approval", .null)]

def sampleReview : ReviewPart :=
  ⟨some "r0002", some "1111", some sampleDigest, some sampleDigest, []⟩

def sampleReported : ProbePayload where
  plan := [⟨sampleRef, [], [⟨.str "RemoveField", .manual, .str "drops a column"⟩], sampleDigest⟩]
  nodes := Dict.ofList [(sampleRef, [])]
  applied := []
  conflicts := []
  replacements := []
  review := some sampleReview
  recovery := none

/-- A station without companions and without approvals. -/
def sampleStation : Station where
  observed _ := .ok .empty
  companions := .ok .empty
  approvals _ := .ok false

def sampleRemoval : TrustedPlan :=
  { Releases.samplePlan with
    migrationsRequired := [sampleRef]
    migrationCompatibility := some "additive" }

theorem sampleProbe_accepted : strictProbe false (some sampleProbe) true false = .ok sampleReported := by
  rfl

theorem sampleReported_released :
    validateReported sampleStation sampleRemoval sampleReported none false none =
      .ok ([sampleRef], .notRequired) := by
  rfl

theorem unlisted_operation_released :
    ¬∀ (oversized : Bool) (loaded : Option Json) (recoveryContext : Bool) (reported : ProbePayload)
        (review : ReviewPart) (station : Station) (plan : TrustedPlan) (current : Option Payload)
        (started : Bool) (recovery : Option Evidence) (refs : List MigrationRef)
        (source : AuthorizationSource),
      strictProbe oversized loaded true recoveryContext = .ok reported →
      reported.review = some review →
      validateReported station plan reported current started recovery = .ok (refs, source) →
        Covered station plan reported review recovery refs := by
  intro h
  have hcovered := h false (some sampleProbe) false sampleReported sampleReview sampleStation
    sampleRemoval none false none [sampleRef] .notRequired sampleProbe_accepted rfl
    sampleReported_released
  rcases hcovered ⟨sampleRef, sampleDigest, 0, .str "RemoveField"⟩ (.head _) (.head _) with
    ⟨companions, hcompanions, identity, hmem, -⟩ | happroves
  · cases hcompanions
    cases hmem
  · cases happroves

theorem released_covered_iff_sample :
    sampleReported.review = some sampleReview ∧
      ∀ refs source, validateReported { sampleStation with approvals := fun _ => .ok true }
          sampleRemoval sampleReported none false none = .ok (refs, source) →
        Covered { sampleStation with approvals := fun _ => .ok true } sampleRemoval sampleReported
          sampleReview none refs := by
  obtain ⟨review, hreview, h⟩ := released_covered_iff sampleProbe_accepted
    { sampleStation with approvals := fun _ => .ok true } sampleRemoval none false none
  cases hreview
  exact ⟨rfl, h.2 (.inr (.inl rfl))⟩

end IsadoraAir.UpdateJob
