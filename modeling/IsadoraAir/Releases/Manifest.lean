import IsadoraAir.Foundation.PointerLine
import IsadoraAir.Foundation.Json

/-!
# Manifests and contracts

Release manifests on both sides, and the execution contract they carry.
-/

/-!
## Release manifests on both sides

The application and the protected updater parse the same manifest file into
records of their own; the updater keeps everything a plan is derived from.
-/

namespace IsadoraAir.Releases

/-- The application's view of a declared protected runtime. -/
structure ProtectedRuntimeManifestField where
  generation : ℕ
  descriptorPath : String
  descriptorSha256 : String
  minimumBootstrapProtocolVersion : ℕ
  runtimeVersion : ℕ
  manifestProtocolVersion : ℕ
  supportedWireProtocols : List ℕ
  attestations : List String
  deriving DecidableEq

/-- The application's manifest. Both parsers refuse a protocol version below
one, so a parsed manifest never has one. -/
structure ReleaseManifest where
  schemaVersion : ℕ
  releaseId : String
  previousReleaseId : Option String
  bootstrapCommit : Option String
  minimumUpdaterProtocolVersion : ℕ
  summary : String
  migrationsRequired : List String
  migrationCompatibility : Option String
  pythonRequirementsChanged : Bool
  requirementsSha256 : Option String
  aptPackagesNew : List String
  systemdUnitsChanged : List String
  systemdUnitsNewRequired : List String
  systemdUnitsNewOptional : List String
  systemdUnitsRemovedOrRenamed : List String
  collectstaticRequired : Bool
  servicesRequiringRestart : List String
  nginxChanged : Bool
  runtimeComponentsChanged : Bool
  minimumSupportedReleaseId : Option String
  manualBootstrapRequired : Bool
  protectedRuntime : Option ProtectedRuntimeManifestField
  protocol_pos : 1 ≤ minimumUpdaterProtocolVersion
  deriving DecidableEq

def ReleaseManifest.isBootstrap (m : ReleaseManifest) : Bool := m.previousReleaseId = none

/-- The updater's view of a declared protected runtime. -/
structure ProtectedRuntimeField where
  generation : ℕ
  descriptorPath : String
  descriptorSha256 : String
  minimumBootstrapProtocolVersion : ℕ
  runtimeVersion : ℕ
  manifestProtocolVersion : ℕ
  supportedWireProtocols : List ℕ
  attestations : List String
  deriving DecidableEq

/-- The updater's manifest. -/
structure Manifest where
  releaseId : String
  previousReleaseId : Option String
  bootstrapCommit : Option String
  minimumUpdaterProtocolVersion : ℕ
  migrationsRequired : List String
  migrationCompatibility : Option String
  pythonRequirementsChanged : Bool
  requirementsSha256 : Option String
  aptPackagesNew : List String
  systemdUnitsChanged : List String
  systemdUnitsNewRequired : List String
  systemdUnitsNewOptional : List String
  systemdUnitsRemovedOrRenamed : List String
  collectstaticRequired : Bool
  servicesRequiringRestart : List String
  nginxChanged : Bool
  runtimeComponentsChanged : Bool
  minimumSupportedReleaseId : Option String
  manualBootstrapRequired : Bool
  protectedRuntime : Option ProtectedRuntimeField
  deriving DecidableEq

def ProtectedRuntimeManifestField.onUpdater (field : ProtectedRuntimeManifestField) :
    ProtectedRuntimeField where
  generation := field.generation
  descriptorPath := field.descriptorPath
  descriptorSha256 := field.descriptorSha256
  minimumBootstrapProtocolVersion := field.minimumBootstrapProtocolVersion
  runtimeVersion := field.runtimeVersion
  manifestProtocolVersion := field.manifestProtocolVersion
  supportedWireProtocols := field.supportedWireProtocols
  attestations := field.attestations

/-- The same manifest file as the updater reads it. -/
def ReleaseManifest.onUpdater (m : ReleaseManifest) : Manifest where
  releaseId := m.releaseId
  previousReleaseId := m.previousReleaseId
  bootstrapCommit := m.bootstrapCommit
  minimumUpdaterProtocolVersion := m.minimumUpdaterProtocolVersion
  migrationsRequired := m.migrationsRequired
  migrationCompatibility := m.migrationCompatibility
  pythonRequirementsChanged := m.pythonRequirementsChanged
  requirementsSha256 := m.requirementsSha256
  aptPackagesNew := m.aptPackagesNew
  systemdUnitsChanged := m.systemdUnitsChanged
  systemdUnitsNewRequired := m.systemdUnitsNewRequired
  systemdUnitsNewOptional := m.systemdUnitsNewOptional
  systemdUnitsRemovedOrRenamed := m.systemdUnitsRemovedOrRenamed
  collectstaticRequired := m.collectstaticRequired
  servicesRequiringRestart := m.servicesRequiringRestart
  nginxChanged := m.nginxChanged
  runtimeComponentsChanged := m.runtimeComponentsChanged
  minimumSupportedReleaseId := m.minimumSupportedReleaseId
  manualBootstrapRequired := m.manualBootstrapRequired
  protectedRuntime := m.protectedRuntime.map ProtectedRuntimeManifestField.onUpdater

/-- Manifests in the order of a dictionary keyed by release id. -/
structure ManifestSet where
  items : List ReleaseManifest
  ids : (items.map ReleaseManifest.releaseId).Nodup

/-- The updater's dictionary of manifests. -/
structure TrustedManifestSet where
  items : List Manifest
  ids : (items.map Manifest.releaseId).Nodup

end IsadoraAir.Releases

/-!
## The execution contract

The facts a plan is authorized by, as the dictionary that is hashed. The
application and the updater keep independent copies of the three payload
functions: ordinary plans (2), a protected target (3), and a protected release
crossed on the way (4).
-/

namespace IsadoraAir.Releases

instance decidableMemCompatibility (value : Option String) (seen : List (Option String)) :
    Decidable (value ∈ seen) := inferInstance

/-- The keyword arguments of the payload functions. -/
structure PlanValues where
  installedReleaseId : String
  installedCommit : String
  targetReleaseId : String
  targetCommit : String
  releasesInPlan : List String
  migrationsRequired : List String
  migrationCompatibility : Option String
  pythonRequirementsChanged : Bool
  aptPackagesNew : List String
  systemdUnitsChanged : List String
  systemdUnitsNewRequired : List String
  systemdUnitsNewOptional : List String
  systemdUnitsRemovedOrRenamed : List String
  collectstaticRequired : Bool
  servicesRequiringRestart : List String
  nginxChanged : Bool
  runtimeComponentsChanged : Bool
  minimumUpdaterProtocolVersion : ℕ
  manualBootstrapRequired : Bool
  deriving DecidableEq

/-- The further arguments of contract 3. -/
structure RuntimeValues where
  generation : ℕ
  descriptorSha256 : String
  minimumBootstrapProtocolVersion : ℕ
  runtimeVersion : ℕ
  manifestProtocolVersion : ℕ
  supportedWireProtocols : List ℕ
  deriving DecidableEq

/-- The further arguments of contract 4. -/
structure TransitionValues where
  releaseId : String
  previousReleaseId : Option String
  commit : String
  deriving DecidableEq

/-- `{key: value for key, value in base.items() if key != "contract_version"}` -/
def withoutVersion (base : List (String × Json)) : List (String × Json) :=
  base.filter fun item => item.1 ≠ "contract_version"

/-! ### The application's copy -/

namespace UpdateCenter

def executionFingerprintPayload (v : PlanValues) : List (String × Json) :=
  [("contract_version", .int 2),
    ("installed_release_id", .str v.installedReleaseId),
    ("installed_commit", .str v.installedCommit),
    ("target_release_id", .str v.targetReleaseId),
    ("target_commit", .str v.targetCommit),
    ("releases_in_plan", .strings v.releasesInPlan),
    ("migrations_required", .strings v.migrationsRequired),
    ("migration_compatibility", .optional .str v.migrationCompatibility),
    ("python_requirements_changed", .bool v.pythonRequirementsChanged),
    ("apt_packages_new", .strings v.aptPackagesNew),
    ("systemd_units_changed", .strings v.systemdUnitsChanged),
    ("systemd_units_new_required", .strings v.systemdUnitsNewRequired),
    ("systemd_units_new_optional", .strings v.systemdUnitsNewOptional),
    ("systemd_units_removed_or_renamed", .strings v.systemdUnitsRemovedOrRenamed),
    ("collectstatic_required", .bool v.collectstaticRequired),
    ("services_requiring_restart", .strings v.servicesRequiringRestart),
    ("nginx_changed", .bool v.nginxChanged),
    ("runtime_components_changed", .bool v.runtimeComponentsChanged),
    ("minimum_updater_protocol_version", .int v.minimumUpdaterProtocolVersion),
    ("manual_bootstrap_required", .bool v.manualBootstrapRequired)]

def protectedRuntimeFingerprintPayload (v : PlanValues) (r : RuntimeValues) :
    List (String × Json) :=
  withoutVersion (executionFingerprintPayload v) ++
    [("contract_version", .int 3),
      ("protected_runtime", .obj
        [("generation", .int r.generation),
          ("descriptor_sha256", .str r.descriptorSha256),
          ("minimum_bootstrap_protocol_version", .int r.minimumBootstrapProtocolVersion),
          ("runtime_version", .int r.runtimeVersion),
          ("manifest_protocol_version", .int r.manifestProtocolVersion),
          ("supported_wire_protocols", .nats r.supportedWireProtocols)])]

def intermediateProtectedRuntimeFingerprintPayload (v : PlanValues) (r : RuntimeValues)
    (t : TransitionValues) : List (String × Json) :=
  withoutVersion (protectedRuntimeFingerprintPayload v r) ++
    [("contract_version", .int 4),
      ("protected_runtime_transition", .obj
        [("release_id", .str t.releaseId),
          ("previous_release_id", .optional .str t.previousReleaseId),
          ("commit", .str t.commit)])]

/-- The hash of a payload's canonical text. -/
def fingerprint (sha256 : String → String) (payload : List (String × Json)) : String :=
  sha256 (Json.obj payload).dumps

end UpdateCenter

/-! ### The updater's copy -/

namespace Updater

def executionFingerprintPayload (v : PlanValues) : List (String × Json) :=
  [("contract_version", .int 2),
    ("installed_release_id", .str v.installedReleaseId),
    ("installed_commit", .str v.installedCommit),
    ("target_release_id", .str v.targetReleaseId),
    ("target_commit", .str v.targetCommit),
    ("releases_in_plan", .strings v.releasesInPlan),
    ("migrations_required", .strings v.migrationsRequired),
    ("migration_compatibility", .optional .str v.migrationCompatibility),
    ("python_requirements_changed", .bool v.pythonRequirementsChanged),
    ("apt_packages_new", .strings v.aptPackagesNew),
    ("systemd_units_changed", .strings v.systemdUnitsChanged),
    ("systemd_units_new_required", .strings v.systemdUnitsNewRequired),
    ("systemd_units_new_optional", .strings v.systemdUnitsNewOptional),
    ("systemd_units_removed_or_renamed", .strings v.systemdUnitsRemovedOrRenamed),
    ("collectstatic_required", .bool v.collectstaticRequired),
    ("services_requiring_restart", .strings v.servicesRequiringRestart),
    ("nginx_changed", .bool v.nginxChanged),
    ("runtime_components_changed", .bool v.runtimeComponentsChanged),
    ("minimum_updater_protocol_version", .int v.minimumUpdaterProtocolVersion),
    ("manual_bootstrap_required", .bool v.manualBootstrapRequired)]

def protectedRuntimeFingerprintPayload (v : PlanValues) (r : RuntimeValues) :
    List (String × Json) :=
  withoutVersion (executionFingerprintPayload v) ++
    [("contract_version", .int 3),
      ("protected_runtime", .obj
        [("generation", .int r.generation),
          ("descriptor_sha256", .str r.descriptorSha256),
          ("minimum_bootstrap_protocol_version", .int r.minimumBootstrapProtocolVersion),
          ("runtime_version", .int r.runtimeVersion),
          ("manifest_protocol_version", .int r.manifestProtocolVersion),
          ("supported_wire_protocols", .nats r.supportedWireProtocols)])]

def intermediateProtectedRuntimeFingerprintPayload (v : PlanValues) (r : RuntimeValues)
    (t : TransitionValues) : List (String × Json) :=
  withoutVersion (protectedRuntimeFingerprintPayload v r) ++
    [("contract_version", .int 4),
      ("protected_runtime_transition", .obj
        [("release_id", .str t.releaseId),
          ("previous_release_id", .optional .str t.previousReleaseId),
          ("commit", .str t.commit)])]

def fingerprint (sha256 : String → String) (payload : List (String × Json)) : String :=
  sha256 (Json.obj payload).dumps

end Updater

/-! ### The copies agree -/

theorem executionFingerprintPayload_eq (v : PlanValues) :
    UpdateCenter.executionFingerprintPayload v = Updater.executionFingerprintPayload v := rfl

end IsadoraAir.Releases
