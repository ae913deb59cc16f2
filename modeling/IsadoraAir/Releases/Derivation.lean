import IsadoraAir.Releases.Chain

/-!
# The updater's own derivation

`derive_plan` reads the trusted branch by itself, requires the live commit to
be exactly one release of it, and aggregates every transition up to the latest
release.
-/

namespace IsadoraAir.Releases

variable {repository : Repository} {liveHead requestedTargetReleaseId trustedTip : String}
  {plan : TrustedPlan}

/-- The effective protected runtime together with the release that declares it. -/
structure ProtectedRuntimeTransition where
  field : ProtectedRuntimeField
  releaseId : String
  previousReleaseId : Option String
  commit : String
  deriving DecidableEq

structure TrustedPlan extends PlanValues where
  fingerprint : String
  protectedRuntimeTransition : Option ProtectedRuntimeTransition
  deriving DecidableEq

def ProtectedRuntimeField.values (field : ProtectedRuntimeField) : RuntimeValues where
  generation := field.generation
  descriptorSha256 := field.descriptorSha256
  minimumBootstrapProtocolVersion := field.minimumBootstrapProtocolVersion
  runtimeVersion := field.runtimeVersion
  manifestProtocolVersion := field.manifestProtocolVersion
  supportedWireProtocols := field.supportedWireProtocols

/-- `fingerprint_payload` -/
def TrustedPlan.fingerprintPayload (plan : TrustedPlan) : List (String × Json) :=
  match plan.protectedRuntimeTransition with
  | none => Updater.executionFingerprintPayload plan.toPlanValues
  | some transition =>
    if transition.releaseId = plan.targetReleaseId then
      Updater.protectedRuntimeFingerprintPayload plan.toPlanValues transition.field.values
    else
      Updater.intermediateProtectedRuntimeFingerprintPayload plan.toPlanValues
        transition.field.values
        ⟨transition.releaseId, transition.previousReleaseId, transition.commit⟩

/-- What the updater reads: the manifests of a trusted tip, their history, and
the check of an entry against its predecessor's commit and the whole chain. -/
structure Repository where
  manifestsAt : String → Except ReleaseError TrustedManifestSet
  git : GitHistory
  crossCheck : String → ChainEntry → List ChainEntry → Except ReleaseError Unit
  sha256 : String → String

def Updater.restartOrder : List String :=
  ["isadoraair-gunicorn", "isadoraair-engine", "isadoraair-monitoring",
    "isadoraair-spoken-render-worker", "isadoraair-active-message-worker", "isadoraair-encoders",
    "isadoraair-rbds"]

/-! ## The transitions -/

def entryIndex (chain : List ChainEntry) (releaseId : String) : Option ℕ :=
  (chain.find? fun entry => entry.manifest.releaseId = releaseId).map ChainEntry.index

/-- The loop over the transitions; every minimum names a release of the chain. -/
def checkTransitions (repository : Repository) (chain : List ChainEntry) (installed : ChainEntry) :
    List ChainEntry → Except ReleaseError Unit
  | [] => .ok ()
  | entry :: rest => do
    let previousCommit := (chain[entry.index - 1]?.map ChainEntry.commit).getD ""
    repository.crossCheck previousCommit entry chain
    raiseIf (entry.manifest.minimumSupportedReleaseId.any fun minimum =>
        minimum ≠ "" && (entryIndex chain minimum).any fun index => installed.index < index)
      ⟨"installed release is older than " ++ entry.manifest.releaseId ++ " permits"⟩
    checkTransitions repository chain installed rest

/-! ## Aggregation -/

/-- `for value in source: if value not in destination: destination.append(value)` -/
def collect (source destination : List String) : List String :=
  source.foldl (fun acc value => if value ∈ acc then acc else acc ++ [value]) destination

structure Collected where
  migrations : List String
  packages : List String
  changed : List String
  required : List String
  optional : List String
  removed : List String
  restartSet : List String
  compatibility : List (Option String)

def Collected.initial : Collected := ⟨[], [], [], [], [], [], [], []⟩

def Collected.add (c : Collected) (item : Manifest) : Collected where
  migrations := collect item.migrationsRequired c.migrations
  packages := collect item.aptPackagesNew c.packages
  changed := collect item.systemdUnitsChanged c.changed
  required := collect item.systemdUnitsNewRequired c.required
  optional := collect item.systemdUnitsNewOptional c.optional
  removed := collect item.systemdUnitsRemovedOrRenamed c.removed
  restartSet := c.restartSet ++ item.servicesRequiringRestart
  compatibility :=
    if item.migrationsRequired = [] then c.compatibility
    else c.compatibility ++ [item.migrationCompatibility]

/-- One destructive migration decides. -/
def overall (compatibility : List (Option String)) : Option String :=
  if some "destructive" ∈ compatibility then some "destructive"
  else if compatibility ≠ [] then some "additive" else none

/-- The values that `derive_plan` fingerprints. -/
def planValues (installed target : ChainEntry) (transitions : List ChainEntry) : PlanValues :=
  let items := transitions.map ChainEntry.manifest
  let collected := items.foldl Collected.add .initial
  { installedReleaseId := installed.manifest.releaseId
    installedCommit := installed.commit
    targetReleaseId := target.manifest.releaseId
    targetCommit := target.commit
    releasesInPlan := items.map Manifest.releaseId
    migrationsRequired := collected.migrations
    migrationCompatibility := overall collected.compatibility
    pythonRequirementsChanged := items.any Manifest.pythonRequirementsChanged
    aptPackagesNew := collected.packages
    systemdUnitsChanged := collected.changed
    systemdUnitsNewRequired := collected.required
    systemdUnitsNewOptional := collected.optional
    systemdUnitsRemovedOrRenamed := collected.removed
    collectstaticRequired := items.any Manifest.collectstaticRequired
    servicesRequiringRestart :=
      Updater.restartOrder.filter fun name => name ∈ collected.restartSet
    nginxChanged := items.any Manifest.nginxChanged
    runtimeComponentsChanged := items.any Manifest.runtimeComponentsChanged
    minimumUpdaterProtocolVersion :=
      (items.map Manifest.minimumUpdaterProtocolVersion).max?.getD 0
    manualBootstrapRequired := items.any Manifest.manualBootstrapRequired }

/-- The latest runtime-bearing release still to be crossed. -/
def effectiveProtectedRuntimeTransition (transitions : List ChainEntry) :
    Option ProtectedRuntimeTransition :=
  transitions.reverse.findSome? fun entry =>
    entry.manifest.protectedRuntime.map fun field =>
      ⟨field, entry.manifest.releaseId, entry.manifest.previousReleaseId, entry.commit⟩

/-- The plan without its fingerprint. -/
def provisionalPlan (installed target : ChainEntry) (transitions : List ChainEntry) :
    TrustedPlan where
  toPlanValues := planValues installed target transitions
  fingerprint := ""
  protectedRuntimeTransition := effectiveProtectedRuntimeTransition transitions

/-- The one release that the live commit is. -/
def exactEntry (chain : List ChainEntry) (liveHead : String) : Except ReleaseError ChainEntry :=
  match chain.filter fun entry => entry.commit = liveHead with
  | [installed] => .ok installed
  | _ => .error ⟨"live HEAD must exactly equal one independently resolved release commit"⟩

def derivePlan (repository : Repository) (trustedTip liveHead requestedTargetReleaseId : String) :
    Except ReleaseError TrustedPlan := do
  let manifests ← repository.manifestsAt trustedTip
  let chain ← loadChain repository.git trustedTip manifests
  let installed ← exactEntry chain liveHead
  -- a loaded chain has at least its bootstrap
  let target := chain.getLast?.getD installed
  raiseIf (requestedTargetReleaseId ≠ target.manifest.releaseId)
    ⟨"requested target is not the independently derived latest trusted release"⟩
  raiseIf (target.index ≤ installed.index)
    ⟨"station is already current or target does not advance the installed release"⟩
  let transitions := (chain.drop (installed.index + 1)).take (target.index - installed.index)
  checkTransitions repository chain installed transitions
  let provisional := provisionalPlan installed target transitions
  .ok { provisional with
    fingerprint := Updater.fingerprint repository.sha256 provisional.fingerprintPayload }

/-! ## What a derived plan rests on -/

/-- The release a derived plan starts from. -/
structure DerivedFrom (repository : Repository) (trustedTip liveHead : String)
    (chain : List ChainEntry) (installed target : ChainEntry) : Prop where
  loaded : ∃ manifests, repository.manifestsAt trustedTip = .ok manifests ∧
    loadChain repository.git trustedTip manifests = .ok chain
  exact : chain.filter (fun entry => entry.commit = liveHead) = [installed]
  last : chain.getLast? = some target
  advances : installed.index < target.index

theorem exactEntry_ok {chain : List ChainEntry} {installed : ChainEntry}
    (h : exactEntry chain liveHead = .ok installed) :
    chain.filter (fun entry => entry.commit = liveHead) = [installed] := by
  unfold exactEntry at h
  split at h
  · rename_i found hfound
    cases h
    exact hfound
  · cases h

theorem derivePlan_ok

    (h : derivePlan repository trustedTip liveHead requestedTargetReleaseId = .ok plan) :
    ∃ chain installed target, DerivedFrom repository trustedTip liveHead chain installed target ∧
      let transitions := (chain.drop (installed.index + 1)).take (target.index - installed.index)
      let provisional := provisionalPlan installed target transitions
      plan = { provisional with
        fingerprint := Updater.fingerprint repository.sha256 provisional.fingerprintPayload } := by
  obtain ⟨manifests, hmanifests, h⟩ := bind_eq_ok.mp h
  obtain ⟨chain, hchain, h⟩ := bind_eq_ok.mp h
  obtain ⟨installed, hinstalled, h⟩ := bind_eq_ok.mp h
  have hexact := exactEntry_ok hinstalled
  have hmem : installed ∈ chain := by
    have : installed ∈ chain.filter fun entry => entry.commit = liveHead := by
      rw [hexact]
      exact List.mem_singleton_self _
    exact (List.mem_filter.mp this).1
  obtain ⟨target, hlast⟩ : ∃ target, chain.getLast? = some target :=
    ⟨_, List.getLast?_eq_some_getLast (List.ne_nil_of_mem hmem)⟩
  rw [hlast, Option.getD_some] at h
  obtain ⟨_, hrequested, h⟩ := bind_eq_ok.mp h
  obtain ⟨_, hadvances, h⟩ := bind_eq_ok.mp h
  obtain ⟨_, hchecked, h⟩ := bind_eq_ok.mp h
  cases h
  exact ⟨chain, installed, target,
    ⟨⟨manifests, hmanifests, hchain⟩, hexact, hlast, Nat.lt_of_not_le (raiseIf_eq_ok.mp hadvances)⟩, rfl⟩

/-- A plan leads from the live commit to another one. -/
theorem derivePlan_commits

    (h : derivePlan repository trustedTip liveHead requestedTargetReleaseId = .ok plan) :
    plan.installedCommit = liveHead ∧ plan.targetCommit ≠ liveHead := by
  obtain ⟨chain, installed, target, hderived, rfl⟩ := derivePlan_ok h
  have hmem : installed ∈ chain.filter fun entry => entry.commit = liveHead := by
    rw [hderived.exact]
    exact List.mem_singleton_self _
  refine ⟨of_decide_eq_true (List.mem_filter.mp hmem).2, fun htarget => ?_⟩
  have htarget : target ∈ chain.filter fun entry => entry.commit = liveHead :=
    List.mem_filter.mpr ⟨List.mem_of_getLast? hderived.last, decide_eq_true htarget⟩
  rw [hderived.exact, List.mem_singleton] at htarget
  exact absurd hderived.advances (by rw [htarget]; exact lt_irrefl _)

theorem derivePlan_services

    (h : derivePlan repository trustedTip liveHead requestedTargetReleaseId = .ok plan) :
    plan.servicesRequiringRestart ⊆ Updater.restartOrder := by
  obtain ⟨chain, installed, target, -, rfl⟩ := derivePlan_ok h
  exact List.filter_subset_self _

/-! ## Contracts and plans -/

theorem strings_inj {xs ys : List String} : Json.strings xs = Json.strings ys ↔ xs = ys := by
  unfold Json.strings
  rw [Json.list.injEq]
  exact List.map_inj_right fun x y h => by simpa using h

theorem optional_str_inj {x y : Option String} :
    Json.optional .str x = Json.optional .str y ↔ x = y := by
  cases x <;> cases y <;> simp [Json.optional]

theorem Updater.executionFingerprintPayload_tail_inj {v v' : PlanValues}
    (h : (executionFingerprintPayload v).tail = (executionFingerprintPayload v').tail) : v = v' := by
  simp only [executionFingerprintPayload, List.tail_cons, List.cons.injEq, Prod.mk.injEq,
    true_and, and_true, Json.str.injEq, Json.bool.injEq, Json.int.injEq, strings_inj,
    optional_str_inj, Int.natCast_inj] at h
  cases v
  cases v'
  simp_all

/-- The contract without its version begins with the plan, whatever the version. -/
theorem TrustedPlan.fingerprintPayload_take (plan : TrustedPlan) :
    (withoutVersion plan.fingerprintPayload).take 19 =
      (Updater.executionFingerprintPayload plan.toPlanValues).tail := by
  unfold fingerprintPayload
  split
  · rfl
  · split
    · rfl
    · rfl

theorem TrustedPlan.fingerprintPayload_length (plan : TrustedPlan) :
    plan.fingerprintPayload.length =
      match plan.protectedRuntimeTransition with
      | none => 20
      | some transition => if transition.releaseId = plan.targetReleaseId then 21 else 22 := by
  unfold fingerprintPayload
  split
  · rfl
  · split
    · rfl
    · rfl

theorem TrustedPlan.fingerprintPayload_inj {p q : TrustedPlan}
    (h : p.fingerprintPayload = q.fingerprintPayload) : p.toPlanValues = q.toPlanValues := by
  apply Updater.executionFingerprintPayload_tail_inj
  rw [← p.fingerprintPayload_take, ← q.fingerprintPayload_take, h]

end IsadoraAir.Releases
