import IsadoraAir.Bundle.DescriptorParsers
import IsadoraAir.Bundle.TrustPolicyParsers

/-!
# Parity of the two copies

On which documents the supervisor's and the worker's validators agree: the same
documents accepted with equal results, and only the declared error raised.
-/

namespace IsadoraAir.Bundle

variable {data : Json} {label : String}

/-- Two validators agree on a document. -/
structure Agree {ε α : Type} (declared : ε → Prop) (x y : Except ε α) : Prop where
  accepted : ∀ a, x = .ok a ↔ y = .ok a
  left : Raises declared x
  right : Raises declared y

theorem Agree.isOk {ε α : Type} {declared : ε → Prop} {x y : Except ε α}
    (h : Agree declared x y) : x.isOk = y.isOk := by
  cases x with
  | ok a =>
    rw [(h.accepted a).mp rfl]
  | error e =>
    cases y with
    | ok a => cases (h.accepted a).mpr rfl
    | error e' => rfl

/-- The two copies of both validators agree on the document. -/
structure CopiesAgree (hexdigest : String → String) (directory : SignerDirectory) (label : String)
    (data : Json) : Prop where
  descriptors : Agree Raised.IsDescriptorError (Bootstrap.parseDescriptorDict hexdigest label data)
    (Worker.parseDescriptorDict hexdigest label data)
  policies : Agree Raised.IsTrustPolicyError (Bootstrap.parseTrustPolicyDict directory label data)
    (Worker.parseTrustPolicyDict directory label data)

/-- A trust policy in order but for its version, which is `true` or a float that equals one. -/
def HasLooseVersion (directory : SignerDirectory) (data : Json) : Prop :=
  ∃ policy, SpellsPolicy directory data policy ∧
    (policy.schemaVersion = .bool true ∨ ∃ text, policy.schemaVersion = .float 1 text)

theorem eqInt_one_iff {v : Json} :
    v.eqInt policySchemaVersion ↔
      v = .int policySchemaVersion ∨ v = .bool true ∨ ∃ text, v = .float 1 text := by
  cases v with
  | bool b => cases b <;> simp [Json.eqInt, policySchemaVersion]
  | int n => simp [Json.eqInt]
  | float value text => simp [Json.eqInt, policySchemaVersion]
  | _ => simp [Json.eqInt]

theorem descriptors_agree_iff {hexdigest : String → String} :
    Agree Raised.IsDescriptorError (Bootstrap.parseDescriptorDict hexdigest label data)
      (Worker.parseDescriptorDict hexdigest label data) ↔ ¬ReachesUnhashableMode data := by
  constructor
  · intro h
    exact Bootstrap.parseDescriptorDict_raises.mp h.left
  · intro h
    refine ⟨?_, Bootstrap.parseDescriptorDict_raises.mpr h, Worker.parseDescriptorDict_raises _ _ _⟩
    intro d
    rw [Bootstrap.parseDescriptorDict_eq_ok, Worker.parseDescriptorDict_eq_ok]

theorem policies_agree_iff {directory : SignerDirectory} :
    Agree Raised.IsTrustPolicyError (Bootstrap.parseTrustPolicyDict directory label data)
      (Worker.parseTrustPolicyDict directory label data) ↔
      ¬directory.Unreadable ∧ ¬ReachesUnsafeName directory data ∧
        ¬HasLooseVersion directory data := by
  constructor
  · intro h
    obtain ⟨hreadable, hsafe⟩ := Bootstrap.parseTrustPolicyDict_raises.mp h.left
    refine ⟨hreadable, hsafe, ?_⟩
    rintro ⟨policy, hspells, hloose⟩
    have hone : policy.schemaVersion.eqInt policySchemaVersion := eqInt_one_iff.mpr (.inr hloose)
    have hworker := (h.accepted policy).mp (Bootstrap.parseTrustPolicyDict_eq_ok.mpr ⟨hspells, hone⟩)
    obtain ⟨-, hint⟩ := Worker.parseTrustPolicyDict_eq_ok.mp hworker
    rw [hint] at hloose
    rcases hloose with hbool | ⟨text, hfloat⟩
    · cases hbool
    · cases hfloat
  · rintro ⟨hreadable, hsafe, hstrict⟩
    refine ⟨?_, Bootstrap.parseTrustPolicyDict_raises.mpr ⟨hreadable, hsafe⟩,
      Worker.parseTrustPolicyDict_raises hreadable hsafe⟩
    intro policy
    rw [Bootstrap.parseTrustPolicyDict_eq_ok, Worker.parseTrustPolicyDict_eq_ok]
    apply and_congr_right
    intro hspells
    rw [eqInt_one_iff]
    constructor
    · rintro (hint | hloose)
      · exact hint
      · exact absurd ⟨policy, hspells, hloose⟩ hstrict
    · exact .inl

/-- The copies agree on a document exactly when the checks reach no mode without a hash and no
unsafe key name, the directory can be looked at, and no policy spells its version loosely. -/
theorem copies_agree_iff (hexdigest : String → String) (directory : SignerDirectory)
    (label : String) (data : Json) :
    CopiesAgree hexdigest directory label data ↔
      ¬ReachesUnhashableMode data ∧ ¬directory.Unreadable ∧ ¬ReachesUnsafeName directory data ∧
        ¬HasLooseVersion directory data := by
  constructor
  · intro h
    exact ⟨descriptors_agree_iff.mp h.descriptors, policies_agree_iff.mp h.policies⟩
  · rintro ⟨hdescriptor, hpolicy⟩
    exact ⟨descriptors_agree_iff.mpr hdescriptor, policies_agree_iff.mpr hpolicy⟩

section Samples

def sampleDirectory : SignerDirectory where
  path := .ofText "/etc/signers"
  protection := .rootOwned

/-- A policy with one signer. -/
def samplePolicy (version : Json) (key : String) : Json :=
  .obj [("schema_version", version), ("signature_algorithm", .str "ed25519"),
    ("threshold", .int 1),
    ("signers", .list [.obj [("id", .str "a"), ("public_key_path", .str key)]])]

/-- A descriptor with one file. -/
def sampleDescriptor (mode : Json) : Json :=
  .obj [("schema_version", .int 1), ("generation", .int 1), ("runtime_version", .int 1),
    ("manifest_protocol_version", .int 1), ("supported_wire_protocols", .list [.int 1]),
    ("entrypoint", .str "a"),
    ("files", .list [.obj [("path", .str "a"), ("sha256", .str (String.ofList (.replicate 64 '0'))),
      ("mode", mode), ("size_bytes", .int 0)]]),
    ("bundle_sha256", .str "")]

/-- The copies disagree on a policy whose version is `true`; a key without a name makes both
raise the other validator's error; a list for a mode makes the supervisor's copy raise the
interpreter's. -/
theorem copies_disagree :
    ¬CopiesAgree id sampleDirectory "" (samplePolicy (.bool true) "/etc/signers/a.pem") ∧
    ¬CopiesAgree id sampleDirectory "" (samplePolicy (.int 1) "/") ∧
    ¬CopiesAgree id sampleDirectory "" (sampleDescriptor (.list [])) := by
  refine ⟨?_, ?_, ?_⟩
  · intro h
    have hsame := h.policies.isOk
    revert hsame
    decide
  · intro h
    have hraised : Bootstrap.parseTrustPolicyDict sampleDirectory "" (samplePolicy (.int 1) "/") =
        .error (.descriptor ": signers[0].public_key_path basename" "must be a non-empty string"
          []) := rfl
    exact h.policies.left _ hraised
  · intro h
    have hraised : Bootstrap.parseDescriptorDict id "" (sampleDescriptor (.list [])) =
        .error .typeError := rfl
    exact h.descriptors.left _ hraised

end Samples

end IsadoraAir.Bundle
