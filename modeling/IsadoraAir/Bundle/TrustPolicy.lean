import IsadoraAir.Bundle.Descriptor

/-!
# Trust policies

A policy keeps the rules on its signers in its type. What differs between the
two parsers of its documents is the type they ask of the version; both hand a
key file's name to the path validator of the descriptors and let its error pass.
-/

namespace IsadoraAir.Bundle

variable {shown : List String} {candidate directory : PosixPath} {label outside : String}

def signatureAlgorithm : String := "ed25519"
def maxSigners : ℕ := 16
def policySchemaVersion : ℤ := 1

/-- `SIGNER_ID_RE.match(signer_id)` -/
def isSignerId (s : String) : Bool :=
  match matchedText s with
  | [] => false
  | first :: rest => ('a' ≤ first ∧ first ≤ 'z') ∧ rest.length ≤ 63 ∧
      rest.all fun c => ('a' ≤ c ∧ c ≤ 'z') ∨ ('0' ≤ c ∧ c ≤ '9') ∨ c = '-'

/-- What the ownership checks of the signer directory and of its parents find. -/
inductive Protection where
  | rootOwned
  | exposed (reason : String)
  | unreadable
  deriving DecidableEq

structure SignerDirectory where
  path : PosixPath
  protection : Protection

structure KeyPath where
  path : PosixPath
  name_safe : IsRelativePath maxPathLen path.name

structure Signer where
  id : String
  publicKeyPath : KeyPath
  id_matches : isSignerId id

structure TrustPolicy where
  schemaVersion : Json
  signatureAlgorithm : String
  threshold : ℤ
  signers : List Signer
  algorithm_fixed : signatureAlgorithm = Bundle.signatureAlgorithm
  signers_distinct : (signers.map Signer.id).Nodup
  threshold_range : 1 ≤ threshold ∧ threshold ≤ signers.length

def policyKeys : List String := ["schema_version", "signature_algorithm", "signers", "threshold"]

def signerKeys : List String := ["id", "public_key_path"]

/-! ## What a document spells -/

/-- The path names a file in the directory, apart from what is asked of its name. -/
structure NamesKey (directory : PosixPath) (raw : String) (path : PosixPath) : Prop where
  absolute : raw.toList.head? = some '/'
  resolves : PosixPath.ofText raw = path
  upward : ".." ∉ path.parts
  parent : path.parent = directory

structure SpellsSigner (directory : PosixPath) (raw : Json) (signer : Signer) : Prop where
  content : ∃ fields key, raw = .obj fields ∧ Json.hasKeys fields signerKeys ∧
    Json.lookup fields "id" = .str signer.id ∧ Json.lookup fields "public_key_path" = .str key ∧
    NamesKey directory key signer.publicKeyPath.path

/-- The document spells this policy, whatever the type of its version. -/
def SpellsPolicy (directory : SignerDirectory) (data : Json) (policy : TrustPolicy) : Prop :=
  directory.path.isAbsolute ∧ directory.protection = .rootOwned ∧
  ∃ items raws, data = .obj items ∧ Json.hasKeys items policyKeys ∧
    Json.lookup items "schema_version" = policy.schemaVersion ∧
    Json.lookup items "signature_algorithm" = .str policy.signatureAlgorithm ∧
    Json.lookup items "signers" = .list raws ∧ raws ≠ [] ∧ raws.length ≤ maxSigners ∧
    List.Forall₂ (SpellsSigner directory.path) raws policy.signers ∧
    Json.lookup items "threshold" = .int policy.threshold

/-- An absolute path without `..` whose name is no relative path. -/
def HasUnsafeKey (value : Json) : Prop :=
  ∃ raw, value = .str raw ∧ raw.toList.head? = some '/' ∧ ".." ∉ (PosixPath.ofText raw).parts ∧
    ¬IsRelativePath maxPathLen (PosixPath.ofText raw).name

/-- The signer's key is such a path, and every check before it passes. -/
def HasUnsafeName (seen : List String) (raw : Json) : Prop :=
  ∃ fields id, raw = .obj fields ∧ Json.hasKeys fields signerKeys ∧
    Json.lookup fields "id" = .str id ∧ isSignerId id ∧ id ∉ seen ∧
    HasUnsafeKey (Json.lookup fields "public_key_path")

/-- The checks reach a signer whose key has such a name. -/
def ReachesUnsafeName (directory : SignerDirectory) (data : Json) : Prop :=
  directory.path.isAbsolute ∧ directory.protection = .rootOwned ∧
  ∃ items before raw after, ∃ signers : Distinct Signer.id,
    data = .obj items ∧ Json.hasKeys items policyKeys ∧
    (Json.lookup items "schema_version").eqInt policySchemaVersion ∧
    Json.lookup items "signature_algorithm" = .str signatureAlgorithm ∧
    Json.lookup items "signers" = .list (before ++ raw :: after) ∧
    (before ++ raw :: after).length ≤ maxSigners ∧
    List.Forall₂ (SpellsSigner directory.path) before signers.items ∧
    HasUnsafeName signers.keys raw

/-- `_resolve_root_protected_directory`, the same in both copies. -/
def resolveRootProtectedDirectory (directory : SignerDirectory) (label : String) :
    Except Raised PosixPath := do
  raiseIf (¬directory.path.isAbsolute)
    (.trustPolicy label "signer_directory must be an absolute path" [])
  match directory.protection with
  | .rootOwned => .ok directory.path
  | .exposed reason =>
    .error (.trustPolicy label "signer directory is not safely root-protected" [reason])
  | .unreadable => .error .osError

theorem resolveRootProtectedDirectory_eq_ok {directory : SignerDirectory} {resolved : PosixPath} :
    resolveRootProtectedDirectory directory label = .ok resolved ↔
      directory.path.isAbsolute ∧ directory.protection = .rootOwned ∧ directory.path = resolved := by
  simp only [resolveRootProtectedDirectory, raiseIf_bind_eq_ok, not_not]
  cases directory.protection <;> simp

/-- The file system fails while the directory is looked at. -/
def SignerDirectory.Unreadable (directory : SignerDirectory) : Prop :=
  directory.path.isAbsolute ∧ directory.protection = .unreadable

theorem resolveRootProtectedDirectory_raises {directory : SignerDirectory} :
    Raises Raised.IsTrustPolicyError (resolveRootProtectedDirectory directory label) ↔
      ¬directory.Unreadable := by
  constructor
  · rintro h ⟨habsolute, hunreadable⟩
    refine h .osError ?_
    simp [resolveRootProtectedDirectory, raiseIf, habsolute, hunreadable, bind, Except.bind]
  · intro h e he
    rcases bind_eq_error.mp he with hrelative | ⟨_, habsolute, hprotection⟩
    · obtain ⟨-, rfl⟩ := raiseIf_eq_error.mp hrelative
      trivial
    · cases hfound : directory.protection with
      | rootOwned =>
        rw [hfound] at hprotection
        cases hprotection
      | exposed reason =>
        rw [hfound] at hprotection
        cases hprotection
        trivial
      | unreadable => exact absurd ⟨not_not.mp (raiseIf_eq_ok.mp habsolute), hfound⟩ h

/-- The end of `_resolve_signer_key_path`, the same in both copies but for one message. -/
def resolveBelow (directory : PosixPath) (label outside : String) (shown : List String)
    (candidate : PosixPath) : Except Raised KeyPath := do
  raiseIf (".." ∈ candidate.parts)
    (.trustPolicy label "public_key_path must not contain '..'" [])
  let safe ← checkRelativePath candidate.name (label ++ ".public_key_path basename") maxPathLen
  raiseIf (candidate.parent ≠ directory) (.trustPolicy label outside shown)
  .ok ⟨candidate, safe.down⟩

theorem resolveBelow_eq_ok {key : KeyPath} :
    resolveBelow directory label outside shown candidate = .ok key ↔
      ".." ∉ candidate.parts ∧ candidate = key.path ∧ candidate.parent = directory := by
  simp only [resolveBelow, raiseIf_bind_eq_ok]
  constructor
  · rintro ⟨hup, h⟩
    obtain ⟨safe, -, h⟩ := bind_eq_ok.mp h
    obtain ⟨hparent, hkey⟩ := raiseIf_bind_eq_ok.mp h
    cases hkey
    exact ⟨hup, rfl, not_ne_iff.mp hparent⟩
  · rintro ⟨hup, rfl, hparent⟩
    exact ⟨hup, bind_eq_ok.mpr ⟨⟨key.name_safe⟩, checkRelativePath_eq_ok key.name_safe,
      raiseIf_bind_eq_ok.mpr ⟨not_ne_iff.mpr hparent, rfl⟩⟩⟩

/-- An error that is not the declared one is the path validator's, on the key's name. -/
theorem resolveBelow_unsafeName {e : Raised} (he : ¬e.IsTrustPolicyError)
    (h : resolveBelow directory label outside shown candidate = .error e) :
    ".." ∉ candidate.parts ∧ ¬IsRelativePath maxPathLen candidate.name := by
  unfold resolveBelow at h
  obtain ⟨_, hup, h⟩ := Raises.passes (.raiseIf trivial) he h
  rcases bind_eq_error.mp h with hcheck | ⟨safe, -, h⟩
  · exact ⟨raiseIf_eq_ok.mp hup, checkRelativePath_eq_error.mp ⟨e, hcheck⟩⟩
  · obtain ⟨_, -, h⟩ := Raises.passes (.raiseIf trivial) he h
    cases h

theorem resolveBelow_of_unsafeName (hup : ".." ∉ candidate.parts)
    (hname : ¬IsRelativePath maxPathLen candidate.name) :
    ∃ e : Raised, ¬e.IsTrustPolicyError ∧
      resolveBelow directory label outside shown candidate = .error e := by
  obtain ⟨e, he⟩ := checkRelativePath_eq_error.mpr hname
  have hdescriptor := checkRelativePath_raises _ (label ++ ".public_key_path basename") _ e he
  refine ⟨e, ?_, ?_⟩
  · cases e <;> simp_all [Raised.IsDescriptorError, Raised.IsTrustPolicyError]
  · simp only [resolveBelow, bind_eq_error]
    exact .inr ⟨(), raiseIf_eq_ok.mpr hup, .inl he⟩

end IsadoraAir.Bundle
