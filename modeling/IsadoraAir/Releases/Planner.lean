import IsadoraAir.Releases.Chain

/-!
# The application's planner

`build_plan` refuses with a reason or returns the aggregated plan of all
releases between the installed one and the latest, with the fingerprint of its
execution contract.
-/

namespace IsadoraAir.Releases

variable {checkout : Checkout}

inductive SafetyStatus where
  | readyToPlan
  | upToDate
  | dirtyCheckout
  | detachedHead
  | noOriginRemote
  | localCommitsNotOnOrigin
  | divergedFromOrigin
  | invalidReleaseManifest
  | installedReleaseUnknown
  | targetCommitUnknown
  | installedReleaseTooOld
  | crossCheckFailed
  | manualSystemPackageActionRequired
  | migrationManualGateRequired
  | manualBootstrapRequired
  | schemaDriftDetected
  | checkoutNotAtReleaseCommit
  deriving DecidableEq, Repr

def SafetyStatus.text : SafetyStatus → String
  | readyToPlan => "ready_to_plan"
  | upToDate => "up_to_date"
  | dirtyCheckout => "dirty_checkout"
  | detachedHead => "detached_head"
  | noOriginRemote => "no_origin_remote"
  | localCommitsNotOnOrigin => "local_commits_not_on_origin"
  | divergedFromOrigin => "diverged_from_origin"
  | invalidReleaseManifest => "invalid_release_manifest"
  | installedReleaseUnknown => "installed_release_unknown"
  | targetCommitUnknown => "target_commit_unknown"
  | installedReleaseTooOld => "installed_release_too_old"
  | crossCheckFailed => "cross_check_failed"
  | manualSystemPackageActionRequired => "manual_system_package_action_required"
  | migrationManualGateRequired => "migration_manual_gate_required"
  | manualBootstrapRequired => "manual_bootstrap_required"
  | schemaDriftDetected => "schema_drift_detected"
  | checkoutNotAtReleaseCommit => "checkout_not_at_release_commit"

inductive SchemaHealthStatus where
  | schemaCurrent
  | unappliedMigrationsDetected
  | migrationStateIndeterminate
  deriving DecidableEq, Repr

structure SchemaHealth where
  status : SchemaHealthStatus
  pendingMigrations : List String
  detail : String
  deriving DecidableEq

inductive TargetSchemaValidationStatus where
  | notApplicable
  | notEvaluated
  | pending
  deriving DecidableEq, Repr

def TargetSchemaValidationStatus.text : TargetSchemaValidationStatus → String
  | notApplicable => "not_applicable_no_target_transition"
  | notEvaluated => "not_evaluated_plan_blocked"
  | pending => "target_schema_plan_validation_pending"

structure CrossCheckFinding where
  field : String
  detail : String
  deriving DecidableEq

structure MigrationPlan where
  explicitlyRequired : List String
  currentGraphDependencyPreview : List String
  unknownToCurrentGraph : List String
  alreadyApplied : List String
  expectedTransitionUnapplied : List String
  compatibility : Option String
  deriving DecidableEq

structure Plan where
  safetyStatus : SafetyStatus
  safetyDetail : String
  installedReleaseId : Option String
  installedCommit : Option String
  targetReleaseId : Option String
  targetCommit : Option String
  releasesInPlan : List String
  migrations : Option MigrationPlan
  pythonRequirementsChanged : Bool
  aptPackagesNew : List String
  systemdUnitsChanged : List String
  systemdUnitsNewRequired : List String
  systemdUnitsNewOptional : List String
  systemdUnitsRemovedOrRenamed : List String
  collectstaticRequired : Bool
  servicesRequiringRestart : List String
  nginxChanged : Bool
  runtimeComponentsChanged : Bool
  minimumUpdaterProtocolVersion : ℕ
  manualBootstrapRequired : Bool
  crossCheckFindings : List CrossCheckFinding
  fingerprint : String
  schemaHealthStatus : SchemaHealthStatus
  schemaPendingMigrations : List String
  schemaHealthDetail : String
  targetSchemaValidationStatus : TargetSchemaValidationStatus
  targetSchemaValidationDetail : String
  deriving DecidableEq

/-- What `build_plan` reads: the checkout, its history, the database's
migration state, and the per-release check of a manifest against its commit. -/
structure Checkout where
  schemaHealth : SchemaHealth
  dirty : Bool
  detachedHead : Bool
  originUrl : Option String
  branch : Option String
  revParse : String → Option String
  aheadBehind : String → String → Option (ℕ × ℕ)
  manifestsAt : String → Except String ManifestSet
  git : GitHistory
  crossCheck : ReleaseManifest → String → String → List CrossCheckFinding
  previewMigrations : List String → List String × List String × List String
  appliedMigrations : List String
  sha256 : String → String

def updaterProtocolVersion : ℕ := 5

/-- The keyword arguments of `_safe`. -/
structure Overrides where
  installedReleaseId : Option String
  installedCommit : Option String
  targetReleaseId : Option String
  targetCommit : Option String
  crossCheckFindings : Option (List CrossCheckFinding)
  targetSchemaValidation : Option (TargetSchemaValidationStatus × String)

def Overrides.none : Overrides := ⟨.none, .none, .none, .none, .none, .none⟩

def CrossCheckFinding.json (finding : CrossCheckFinding) : Json :=
  .obj [("field", .str finding.field), ("detail", .str finding.detail)]

def Overrides.items (o : Overrides) : List (String × Json) :=
  (o.installedReleaseId.map fun v => ("installed_release_id", Json.str v)).toList ++
    (o.installedCommit.map fun v => ("installed_commit", Json.str v)).toList ++
    (o.targetReleaseId.map fun v => ("target_release_id", Json.str v)).toList ++
    (o.targetCommit.map fun v => ("target_commit", Json.str v)).toList ++
    (o.crossCheckFindings.map fun v =>
      ("cross_check_findings", Json.list (v.map CrossCheckFinding.json))).toList ++
    (o.targetSchemaValidation.elim [] fun v =>
      [("target_schema_validation_status", Json.str v.1.text),
        ("target_schema_validation_detail", Json.str v.2)])

/-- A plan that recommends nothing. -/
def safe (checkout : Checkout) (status : SafetyStatus) (detail : String) (o : Overrides) : Plan where
  safetyStatus := status
  safetyDetail := detail
  installedReleaseId := o.installedReleaseId
  installedCommit := o.installedCommit
  targetReleaseId := o.targetReleaseId
  targetCommit := o.targetCommit
  releasesInPlan := []
  migrations := none
  pythonRequirementsChanged := false
  aptPackagesNew := []
  systemdUnitsChanged := []
  systemdUnitsNewRequired := []
  systemdUnitsNewOptional := []
  systemdUnitsRemovedOrRenamed := []
  collectstaticRequired := false
  servicesRequiringRestart := []
  nginxChanged := false
  runtimeComponentsChanged := false
  minimumUpdaterProtocolVersion := updaterProtocolVersion
  manualBootstrapRequired := false
  crossCheckFindings := o.crossCheckFindings.getD []
  fingerprint := UpdateCenter.fingerprint checkout.sha256
    (("safety_status", .str status.text) :: o.items)
  schemaHealthStatus := checkout.schemaHealth.status
  schemaPendingMigrations := checkout.schemaHealth.pendingMigrations
  schemaHealthDetail := checkout.schemaHealth.detail
  targetSchemaValidationStatus := (o.targetSchemaValidation.map Prod.fst).getD .notEvaluated
  targetSchemaValidationDetail := (o.targetSchemaValidation.map Prod.snd).getD
    "No target-source migration plan has been evaluated because update planning is blocked or not yet applicable."

/-! ## Commits -/

def shortSha (commit : String) : String := (commit.take 12).toString

/-- `resolve_unique_release_commits`: the commit of every release, in order;
`resolved` holds the earlier ones. -/
def resolveUniqueReleaseCommits (git : GitHistory) (canonicalTip : String) :
    List (String × String) → List ChainedRelease → Except String (List (String × String))
  | resolved, [] => .ok resolved
  | resolved, chained :: rest =>
    let releaseId := chained.manifest.releaseId
    let commit := if chained.manifest.isBootstrap then chained.manifest.bootstrapCommit
      else git.introducingCommit (releaseDir ++ "/" ++ releaseId ++ ".json") canonicalTip
    match commit.filter git.commitExists with
    | none => .error ("release " ++ quoted releaseId ++
        " has no unique, immutable, reachable commit identity on authoritative canonical history")
    | some commit =>
      match resolved.find? fun item => item.2 = commit with
      | some other => .error ("releases " ++ quoted other.1 ++ " and " ++ quoted releaseId ++
          " resolve to the same commit " ++ shortSha commit ++
          " -- each release transition must be introduced by its own commit")
      | none => resolveUniqueReleaseCommits git canonicalTip (resolved ++ [(releaseId, commit)]) rest

/-- `release_commits[release_id]`; every release of the chain has an entry. -/
def commitOf (commits : List (String × String)) (releaseId : String) : String :=
  ((commits.find? fun item => item.1 = releaseId).map Prod.snd).getD ""

/-- The latest release whose commit is `head` or an ancestor of it. -/
def resolveInstalledRelease (git : GitHistory) (commits : List (String × String))
    (chain : List ChainedRelease) (head : String) : Option ChainedRelease :=
  chain.reverse.find? fun chained =>
    let commit := commitOf commits chained.manifest.releaseId
    commit = head || git.isAncestor commit head = some true

/-! ## Aggregation -/

def restartOrder : List String :=
  ["isadoraair-gunicorn", "isadoraair-engine", "isadoraair-monitoring",
    "isadoraair-spoken-render-worker", "isadoraair-active-message-worker", "isadoraair-encoders",
    "isadoraair-rbds"]

/-- `for x in xs: if x not in acc: acc.append(x)` -/
def appendNew (acc xs : List String) : List String :=
  xs.foldl (fun acc x => if x ∈ acc then acc else acc ++ [x]) acc

/-- The accumulators of the loop over the releases in the plan. -/
structure Aggregate where
  explicitRefs : List String
  aptNew : List String
  unitsChanged : List String
  unitsNewRequired : List String
  unitsNewOptional : List String
  unitsRemoved : List String
  restartSet : List String
  requirementsChanged : Bool
  collectstatic : Bool
  nginxChanged : Bool
  runtimeComponentsChanged : Bool
  compatibilitySeen : List (Option String)
  minimumProtocol : ℕ
  manualBootstrapRequired : Bool

def Aggregate.initial : Aggregate :=
  ⟨[], [], [], [], [], [], [], false, false, false, false, [], 1, false⟩

def Aggregate.add (a : Aggregate) (m : ReleaseManifest) : Aggregate where
  explicitRefs := appendNew a.explicitRefs m.migrationsRequired
  aptNew := appendNew a.aptNew m.aptPackagesNew
  unitsChanged := appendNew a.unitsChanged m.systemdUnitsChanged
  unitsNewRequired := appendNew a.unitsNewRequired m.systemdUnitsNewRequired
  unitsNewOptional := appendNew a.unitsNewOptional m.systemdUnitsNewOptional
  unitsRemoved := appendNew a.unitsRemoved m.systemdUnitsRemovedOrRenamed
  restartSet := a.restartSet ++ m.servicesRequiringRestart
  requirementsChanged := a.requirementsChanged || m.pythonRequirementsChanged
  collectstatic := a.collectstatic || m.collectstaticRequired
  nginxChanged := a.nginxChanged || m.nginxChanged
  runtimeComponentsChanged := a.runtimeComponentsChanged || m.runtimeComponentsChanged
  compatibilitySeen :=
    if m.migrationsRequired = [] then a.compatibilitySeen
    else a.compatibilitySeen ++ [m.migrationCompatibility]
  minimumProtocol := max a.minimumProtocol m.minimumUpdaterProtocolVersion
  manualBootstrapRequired := a.manualBootstrapRequired || m.manualBootstrapRequired

def aggregate (releases : List ReleaseManifest) : Aggregate :=
  releases.foldl Aggregate.add .initial

/-- One destructive migration makes the whole plan destructive. -/
def overallCompatibility (seen : List (Option String)) : Option String :=
  if seen = [] then none
  else if some "destructive" ∈ seen then some "destructive" else some "additive"

/-! ## The plan -/

/-- What the checks up to the cross-check have established. -/
structure Transition where
  chain : List ChainedRelease
  commits : List (String × String)
  installed : ChainedRelease
  installedCommit : String
  latest : ChainedRelease
  targetCommit : String
  releasesInPlan : List ChainedRelease

/-- The position of `HEAD` against its remote branch. -/
def checkRemote (checkout : Checkout) (head : String) : Except Plan Unit :=
  match checkout.branch with
  | none => .ok ()
  | some branch =>
    let remoteRef := "origin/" ++ branch
    match checkout.aheadBehind "HEAD" remoteRef with
    | none => .ok ()
    | some (ahead, behind) =>
      if 0 < ahead ∧ 0 < behind then
        .error <| safe checkout .divergedFromOrigin
          ("Local " ++ branch ++ " has diverged from " ++ remoteRef ++ " (" ++ toString ahead ++
            " ahead, " ++ toString behind ++ " behind) -- refusing to guess a merge.")
          { Overrides.none with installedCommit := some head }
      else if 0 < ahead then
        .error <| safe checkout .localCommitsNotOnOrigin
          ("Local " ++ branch ++ " has " ++ toString ahead ++ " commit(s) not present on " ++
            remoteRef ++
            " -- release identity is not authoritative until history is synchronized.")
          { Overrides.none with installedCommit := some head }
      else .ok ()

/-- `origin/<branch>` where it resolves, else `HEAD`. -/
def readRef (checkout : Checkout) : String :=
  match checkout.branch with
  | none => "HEAD"
  | some branch =>
    if (checkout.revParse ("origin/" ++ branch)).isSome then "origin/" ++ branch else "HEAD"

/-- The tip of the authoritative history that the plan is read from. -/
def canonicalTip (checkout : Checkout) : Option String := checkout.revParse (readRef checkout)

/-- A release in the plan that needs a later baseline than the installed one. -/
def tooOld (chain : List ChainedRelease) (installed : ChainedRelease)
    (releases : List ChainedRelease) : Option (ChainedRelease × String) :=
  releases.findSome? fun chained =>
    (chained.manifest.minimumSupportedReleaseId.filter fun minimum =>
      (indexById chain minimum).any fun index => installed.index < index).map (chained, ·)

/-- The manifests of the tip, in order. -/
def loadReleaseChain (checkout : Checkout) (tip : String) : Except String (List ChainedRelease) := do
  let manifests ← checkout.manifestsAt tip
  (buildChain manifests).mapError ChainError.message

/-- All checks of `build_plan` before it aggregates. -/
def checkTransition (checkout : Checkout) : Except Plan Transition := do
  raiseIf checkout.dirty <| safe checkout .dirtyCheckout
    "The checkout has uncommitted changes -- refusing to plan until it is clean." .none
  raiseIf checkout.detachedHead <| safe checkout .detachedHead
    "HEAD is detached (not on a branch) -- refusing to plan from an ambiguous position." .none
  raiseIf (checkout.originUrl.getD "" = "") <| safe checkout .noOriginRemote
    "No 'origin' remote is configured -- cannot determine an available update." .none
  let head ← orRaise (checkout.revParse "HEAD") <| safe checkout .installedReleaseUnknown
    "Could not resolve the current commit (HEAD)." .none
  checkRemote checkout head
  let tip ← orRaise (canonicalTip checkout) <| safe checkout .targetCommitUnknown
    ("Could not resolve authoritative canonical history at " ++ quoted (readRef checkout) ++ ".")
    { Overrides.none with installedCommit := some head }
  let chain ← (loadReleaseChain checkout tip).mapError fun message =>
    safe checkout .invalidReleaseManifest message .none
  let commits ← (resolveUniqueReleaseCommits checkout.git tip [] chain).mapError fun message =>
    safe checkout .targetCommitUnknown message .none
  let installed ← orRaise (resolveInstalledRelease checkout.git commits chain head) <|
    safe checkout .installedReleaseUnknown
      "Could not determine which known release this checkout's current commit corresponds to."
      { Overrides.none with installedCommit := some head }
  let installedId := installed.manifest.releaseId
  let installedCommit := commitOf commits installedId
  let known := { Overrides.none with
    installedReleaseId := some installedId, installedCommit := some installedCommit }
  raiseIf (checkout.schemaHealth.status ≠ .schemaCurrent) <|
    safe checkout .schemaDriftDetected
      ("The database is not synchronized with the CURRENTLY installed Django source; a future release plan cannot make current schema drift healthy." ++
        (if checkout.schemaHealth.pendingMigrations = [] then ""
          else " Pending: " ++ ", ".intercalate checkout.schemaHealth.pendingMigrations ++ "."))
      known
  raiseIf (head ≠ installedCommit) <|
    safe checkout .checkoutNotAtReleaseCommit
      ("Checkout HEAD " ++ shortSha head ++ " is not the exact canonical commit " ++
        shortSha installedCommit ++ " for the inferred installed release " ++ quoted installedId ++
        " -- it is a descendant, not that exact release commit. Protected updates require the live checkout to be positioned exactly at a release commit; this is a detection-only refusal and Update Center will not reposition the checkout automatically.")
      known
  -- a chain has at least its bootstrap
  let latest := chain.getLast?.getD installed
  let latestId := latest.manifest.releaseId
  raiseIf (latestId = installedId) <|
    safe checkout .upToDate "Already on the latest known release."
      { known with
        targetReleaseId := some installedId
        targetCommit := some installedCommit
        targetSchemaValidation := some (.notApplicable,
          "No newer target release exists, so target-source migration validation is not applicable.") }
  let targetCommit := commitOf commits latestId
  let releasesInPlan := (chain.drop (installed.index + 1)).take (latest.index - installed.index)
  let targeted := { known with
    targetReleaseId := some latestId, targetCommit := some targetCommit }
  (tooOld chain installed releasesInPlan).elim (.ok ()) fun refused =>
    .error <| safe checkout .installedReleaseTooOld
      ("Release " ++ quoted refused.1.manifest.releaseId ++
        " requires an installed baseline of at least " ++ quoted refused.2 ++
        "; this station is on " ++ quoted installedId ++ ".") targeted
  let findings := releasesInPlan.flatMap fun chained =>
    checkout.crossCheck chained.manifest (commitOf commits chained.manifest.releaseId)
      (((chain[chained.index - 1]?).map fun previous =>
        commitOf commits previous.manifest.releaseId).getD "")
  raiseIf (findings ≠ []) <|
    safe checkout .crossCheckFailed
      (toString findings.length ++
        " manifest claim(s) disagree with actual repository content -- see cross_check_findings.")
      { targeted with crossCheckFindings := some findings }
  .ok ⟨chain, commits, installed, installedCommit, latest, targetCommit, releasesInPlan⟩

namespace Transition

variable (t : Transition)

def aggregated : Aggregate := aggregate (t.releasesInPlan.map ChainedRelease.manifest)

/-- `_fingerprint_values` -/
def fingerprintValues : PlanValues where
  installedReleaseId := t.installed.manifest.releaseId
  installedCommit := t.installedCommit
  targetReleaseId := t.latest.manifest.releaseId
  targetCommit := t.targetCommit
  releasesInPlan := t.releasesInPlan.map fun chained => chained.manifest.releaseId
  migrationsRequired := t.aggregated.explicitRefs
  migrationCompatibility := overallCompatibility t.aggregated.compatibilitySeen
  pythonRequirementsChanged := t.aggregated.requirementsChanged
  aptPackagesNew := t.aggregated.aptNew
  systemdUnitsChanged := t.aggregated.unitsChanged
  systemdUnitsNewRequired := t.aggregated.unitsNewRequired
  systemdUnitsNewOptional := t.aggregated.unitsNewOptional
  systemdUnitsRemovedOrRenamed := t.aggregated.unitsRemoved
  collectstaticRequired := t.aggregated.collectstatic
  servicesRequiringRestart := restartOrder.filter fun s => s ∈ t.aggregated.restartSet
  nginxChanged := t.aggregated.nginxChanged
  runtimeComponentsChanged := t.aggregated.runtimeComponentsChanged
  minimumUpdaterProtocolVersion := t.aggregated.minimumProtocol
  manualBootstrapRequired := t.aggregated.manualBootstrapRequired

def ofField (field : ProtectedRuntimeManifestField) : RuntimeValues where
  generation := field.generation
  descriptorSha256 := field.descriptorSha256
  minimumBootstrapProtocolVersion := field.minimumBootstrapProtocolVersion
  runtimeVersion := field.runtimeVersion
  manifestProtocolVersion := field.manifestProtocolVersion
  supportedWireProtocols := field.supportedWireProtocols

/-- The payload that is hashed. The newest release in the plan that declares a
protected runtime decides the contract. -/
def executionPayload : List (String × Json) :=
  match t.releasesInPlan.reverse.findSome? fun chained =>
      chained.manifest.protectedRuntime.map (chained, ·) with
  | none => UpdateCenter.executionFingerprintPayload t.fingerprintValues
  | some (chained, field) =>
    if chained.manifest.releaseId = t.latest.manifest.releaseId then
      UpdateCenter.protectedRuntimeFingerprintPayload t.fingerprintValues (ofField field)
    else
      UpdateCenter.intermediateProtectedRuntimeFingerprintPayload t.fingerprintValues
        (ofField field)
        ⟨chained.manifest.releaseId, chained.manifest.previousReleaseId,
          commitOf t.commits chained.manifest.releaseId⟩

/-- The current-graph preview of the declared migrations. -/
def migrationPlan (checkout : Checkout) : Option MigrationPlan :=
  let refs := t.aggregated.explicitRefs
  if refs = [] then none
  else
    let (explicit, extra, unknown) := checkout.previewMigrations refs
    let all := explicit ++ extra
    let unapplied := all.filter fun ref => ref ∉ checkout.appliedMigrations
    some ⟨explicit, extra, unknown, all.filter fun ref => ref ∉ unapplied, unapplied,
      overallCompatibility t.aggregated.compatibilitySeen⟩

/-- The status of an aggregated plan: ready, or one of the manual gates. -/
def safetyStatus (checkout : Checkout) : SafetyStatus × String :=
  let ids := t.releasesInPlan.map fun chained => chained.manifest.releaseId
  if t.aggregated.manualBootstrapRequired then
    (.manualBootstrapRequired,
      "This release chain explicitly requires manual bootstrap and cannot use unattended execution.")
  else if t.aggregated.aptNew ≠ [] then
    (.manualSystemPackageActionRequired,
      "New apt package(s) required: " ++ ", ".intercalate t.aggregated.aptNew ++
        " -- must be installed manually before this update can proceed.")
  else if (t.migrationPlan checkout).bind MigrationPlan.compatibility = some "destructive" then
    (.migrationManualGateRequired,
      "This update includes a non-additive (destructive) migration -- requires an explicit maintenance-window gate, not the unattended path.")
  else
    (.readyToPlan, toString ids.length ++ " release(s) available: " ++ ", ".intercalate ids ++ ".")

def plan (checkout : Checkout) : Plan :=
  let v := t.fingerprintValues
  { safetyStatus := (t.safetyStatus checkout).1
    safetyDetail := (t.safetyStatus checkout).2
    installedReleaseId := some v.installedReleaseId
    installedCommit := some v.installedCommit
    targetReleaseId := some v.targetReleaseId
    targetCommit := some v.targetCommit
    releasesInPlan := v.releasesInPlan
    migrations := t.migrationPlan checkout
    pythonRequirementsChanged := v.pythonRequirementsChanged
    aptPackagesNew := v.aptPackagesNew
    systemdUnitsChanged := v.systemdUnitsChanged
    systemdUnitsNewRequired := v.systemdUnitsNewRequired
    systemdUnitsNewOptional := v.systemdUnitsNewOptional
    systemdUnitsRemovedOrRenamed := v.systemdUnitsRemovedOrRenamed
    collectstaticRequired := v.collectstaticRequired
    servicesRequiringRestart := v.servicesRequiringRestart
    nginxChanged := v.nginxChanged
    runtimeComponentsChanged := v.runtimeComponentsChanged
    minimumUpdaterProtocolVersion := v.minimumUpdaterProtocolVersion
    manualBootstrapRequired := v.manualBootstrapRequired
    crossCheckFindings := []
    fingerprint := UpdateCenter.fingerprint checkout.sha256 t.executionPayload
    schemaHealthStatus := checkout.schemaHealth.status
    schemaPendingMigrations := checkout.schemaHealth.pendingMigrations
    schemaHealthDetail := checkout.schemaHealth.detail
    targetSchemaValidationStatus := .pending
    targetSchemaValidationDetail :=
      "TARGET_SCHEMA_PLAN_VALIDATION_PENDING: Phase A has only the release-chain declaration and a current-graph preview. Phase B must stage the target source, compute its read-only Django migration plan, and require an exact match before APPLY." }

end Transition

def buildPlan (checkout : Checkout) : Plan :=
  match checkTransition checkout with
  | .error plan => plan
  | .ok t => t.plan checkout

/-! ## What a plan rests on -/

/-- What the checks have established about a transition. -/
structure Transition.Checked (t : Transition) (checkout : Checkout) (head tip : String) : Prop where
  chain : loadReleaseChain checkout tip = .ok t.chain
  commits : resolveUniqueReleaseCommits checkout.git tip [] t.chain = .ok t.commits
  installed : t.installed ∈ t.chain
  installedCommit : t.installedCommit = commitOf t.commits t.installed.manifest.releaseId
  atHead : head = t.installedCommit
  latest : t.chain.getLast? = some t.latest
  targetCommit : t.targetCommit = commitOf t.commits t.latest.manifest.releaseId
  releasesInPlan : t.releasesInPlan =
    (t.chain.drop (t.installed.index + 1)).take (t.latest.index - t.installed.index)

theorem checkTransition_ok {t : Transition} (h : checkTransition checkout = .ok t) :
    ∃ head tip, checkout.revParse "HEAD" = some head ∧ canonicalTip checkout = some tip ∧
      t.Checked checkout head tip := by
  obtain ⟨_, -, h⟩ := bind_eq_ok.mp h
  obtain ⟨_, -, h⟩ := bind_eq_ok.mp h
  obtain ⟨_, -, h⟩ := bind_eq_ok.mp h
  obtain ⟨head, hhead, h⟩ := bind_eq_ok.mp h
  obtain ⟨_, -, h⟩ := bind_eq_ok.mp h
  obtain ⟨tip, htip, h⟩ := bind_eq_ok.mp h
  obtain ⟨chain, hchain, h⟩ := bind_eq_ok.mp h
  obtain ⟨commits, hcommits, h⟩ := bind_eq_ok.mp h
  obtain ⟨installed, hinstalled, h⟩ := bind_eq_ok.mp h
  obtain ⟨_, -, h⟩ := bind_eq_ok.mp h
  obtain ⟨_, hexact, h⟩ := bind_eq_ok.mp h
  obtain ⟨_, -, h⟩ := bind_eq_ok.mp h
  obtain ⟨_, -, h⟩ := bind_eq_ok.mp h
  obtain ⟨_, -, h⟩ := bind_eq_ok.mp h
  cases h
  have hmem : installed ∈ chain :=
    List.mem_reverse.mp (List.mem_of_find?_eq_some (orRaise_eq_ok.mp hinstalled))
  obtain ⟨latest, hlatest⟩ : ∃ latest, chain.getLast? = some latest :=
    ⟨_, List.getLast?_eq_some_getLast (List.ne_nil_of_mem hmem)⟩
  refine ⟨head, tip, orRaise_eq_ok.mp hhead, orRaise_eq_ok.mp htip, ?_⟩
  exact {
    chain := mapError_eq_ok.mp hchain
    commits := mapError_eq_ok.mp hcommits
    installed := hmem
    installedCommit := rfl
    atHead := not_not.mp (raiseIf_eq_ok.mp hexact)
    latest := by rw [hlatest, Option.getD_some]
    targetCommit := rfl
    releasesInPlan := rfl }

def Plan.NotReady (plan : Plan) : Prop := plan.safetyStatus ≠ .readyToPlan

theorem safe_notReady {status : SafetyStatus} {detail : String}
    {o : Overrides} (h : status ≠ .readyToPlan) : (safe checkout status detail o).NotReady := h

theorem checkRemote_notReady (checkout : Checkout) (head : String) :
    Raises Plan.NotReady (checkRemote checkout head) := by
  intro plan h
  unfold checkRemote at h
  split at h
  · cases h
  · dsimp only at h
    split at h
    · cases h
    · split_ifs at h <;> cases h <;> exact safe_notReady (by decide)

/-- A refusal never reports a ready plan. -/
theorem checkTransition_notReady (checkout : Checkout) :
    Raises Plan.NotReady (checkTransition checkout) := by
  refine .bind (.raiseIf (safe_notReady (by decide))) fun _ => ?_
  refine .bind (.raiseIf (safe_notReady (by decide))) fun _ => ?_
  refine .bind (.raiseIf (safe_notReady (by decide))) fun _ => ?_
  refine .bind (.orRaise (safe_notReady (by decide))) fun head => ?_
  refine .bind (checkRemote_notReady checkout head) fun _ => ?_
  refine .bind (.orRaise (safe_notReady (by decide))) fun tip => ?_
  refine .bind (.mapError fun _ => safe_notReady (by decide)) fun chain => ?_
  refine .bind (.mapError fun _ => safe_notReady (by decide)) fun commits => ?_
  refine .bind (.orRaise (safe_notReady (by decide))) fun installed => ?_
  refine .bind (.raiseIf (safe_notReady (by decide))) fun _ => ?_
  refine .bind (.raiseIf (safe_notReady (by decide))) fun _ => ?_
  refine .bind (.raiseIf (safe_notReady (by decide))) fun _ => ?_
  refine .bind ?_ fun _ => .bind (.raiseIf (safe_notReady (by decide))) fun _ => ?_
  · intro plan h
    cases htooOld : tooOld chain installed _ with
    | none =>
      rw [htooOld] at h
      cases h
    | some refused =>
      rw [htooOld] at h
      cases h
      exact safe_notReady (by decide)
  · intro plan h
    cases h

/-- A ready plan is the aggregate of a checked transition. -/
theorem transition_of_ready (h : (buildPlan checkout).safetyStatus = .readyToPlan) :
    ∃ t, checkTransition checkout = .ok t ∧ buildPlan checkout = t.plan checkout := by
  unfold buildPlan at h ⊢
  cases hcheck : checkTransition checkout with
  | error plan =>
    rw [hcheck] at h
    exact absurd h (checkTransition_notReady checkout plan hcheck)
  | ok t => exact ⟨t, rfl, rfl⟩

end IsadoraAir.Releases
