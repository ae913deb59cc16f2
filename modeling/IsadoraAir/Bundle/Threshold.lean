import IsadoraAir.Bundle.TrustPolicyParsers

/-!
# The signature threshold

The evaluator counts the ids of a policy's signers. A policy may name one key
file under two ids, and such a key counts twice.
-/

namespace IsadoraAir.Bundle

variable {signerId : String}

structure VerificationOutcome where
  verified : Bool
  detail : String

/-- An entry of the list of assertions, `malformed` when it is no `SignatureAssertion`. -/
inductive Assertion (Signature : Type*) where
  | malformed
  | signature (signerId : String) (signature : Signature)

structure ThresholdEvaluation where
  satisfied : Bool
  threshold : ℤ
  verifiedSignerIds : List String
  rejected : List String

/-- The lists of the loop; the set `counted` has the entries of `verified`. -/
structure Tally where
  verified : List String
  rejected : List String
  distinct : verified.Nodup

namespace Tally

def empty : Tally := ⟨[], [], .nil⟩

def reject (t : Tally) (text : String) : Tally := { t with rejected := t.rejected ++ [text] }

def count (t : Tally) (signerId : String) (fresh : signerId ∉ t.verified) : Tally where
  verified := t.verified ++ [signerId]
  rejected := t.rejected
  distinct := by
    rw [← List.concat_eq_append]
    exact t.distinct.concat fresh

@[simp] theorem verified_reject (t : Tally) (text : String) :
    (t.reject text).verified = t.verified := rfl

@[simp] theorem verified_count (t : Tally) (signerId : String) (fresh : signerId ∉ t.verified) :
    (t.count signerId fresh).verified = t.verified ++ [signerId] := rfl

end Tally

/-- `signer_by_id().get(signer_id)` -/
def TrustPolicy.signerById (policy : TrustPolicy) (signerId : String) : Option Signer :=
  policy.signers.find? fun signer => signer.id = signerId

theorem TrustPolicy.signerById_eq_some {policy : TrustPolicy} {signer : Signer} :
    policy.signerById signerId = some signer ↔ signer ∈ policy.signers ∧ signer.id = signerId := by
  constructor
  · intro h
    have hid := List.find?_some h
    exact ⟨List.mem_of_find?_eq_some h, of_decide_eq_true hid⟩
  · rintro ⟨hmem, rfl⟩
    cases hfound : policy.signerById signer.id with
    | none => simpa using List.find?_eq_none.mp hfound signer hmem
    | some other =>
      have hother := List.mem_of_find?_eq_some hfound
      have hid := List.find?_some hfound
      rw [List.inj_on_of_nodup_map policy.signers_distinct hother hmem (of_decide_eq_true hid)]

section Evaluation

variable {Statement Signature : Type*}
  (verifyEd25519 : PosixPath → Statement → Signature → Except String VerificationOutcome)
  (policy : TrustPolicy) (statement : Statement)

/-- One pass of the loop. -/
def Tally.assess (t : Tally) : Assertion Signature → Tally
  | .malformed => t.reject "malformed assertion"
  | .signature signerId signature =>
    match policy.signerById signerId with
    | none => t.reject (signerId ++ ": unknown signer")
    | some signer =>
      if fresh : signerId ∉ t.verified then
        match verifyEd25519 signer.publicKeyPath.path statement signature with
        | .error text => t.reject (signerId ++ ": verification could not run (" ++ text ++ ")")
        | .ok outcome =>
          if outcome.verified then t.count signerId fresh
          else t.reject (signerId ++ ": " ++ outcome.detail)
      else t

def tally (assertions : List (Assertion Signature)) : Tally :=
  assertions.foldl (Tally.assess verifyEd25519 policy statement) .empty

def evaluateThreshold (assertions : List (Assertion Signature)) : ThresholdEvaluation :=
  let t := tally verifyEd25519 policy statement assertions
  { satisfied := policy.threshold ≤ t.verified.length
    threshold := policy.threshold
    verifiedSignerIds := t.verified.mergeSort fun a b => decide (a ≤ b)
    rejected := t.rejected }

/-! ## What is counted -/

/-- The assertion is of this signer, and the signer's key verifies its signature. -/
def Vouches (signer : Signer) (assertion : Assertion Signature) : Prop :=
  ∃ signature outcome, assertion = .signature signer.id signature ∧
    verifyEd25519 signer.publicKeyPath.path statement signature = .ok outcome ∧
    outcome.verified = true

def IsVerifiedId (assertions : List (Assertion Signature)) (signerId : String) : Prop :=
  ∃ signer ∈ policy.signers, signer.id = signerId ∧
    ∃ assertion ∈ assertions, Vouches verifyEd25519 statement signer assertion

def IsVerifiedKey (assertions : List (Assertion Signature)) (key : PosixPath) : Prop :=
  ∃ signer ∈ policy.signers, signer.publicKeyPath.path = key ∧
    ∃ assertion ∈ assertions, Vouches verifyEd25519 statement signer assertion

variable {verifyEd25519 policy statement} {assertion : Assertion Signature}
  {assertions : List (Assertion Signature)} {t : Tally} {n : ℤ}

theorem isVerifiedId_cons :
    IsVerifiedId verifyEd25519 policy statement (assertion :: assertions) signerId ↔
      IsVerifiedId verifyEd25519 policy statement [assertion] signerId ∨
        IsVerifiedId verifyEd25519 policy statement assertions signerId := by
  simp only [IsVerifiedId, List.mem_cons, List.not_mem_nil, or_false, exists_eq_or_imp,
    exists_eq_left, and_or_left, exists_or]

/-- An assertion verifies the id it names, if any. -/
theorem isVerifiedId_singleton {id : String} {signature : Signature} :
    IsVerifiedId verifyEd25519 policy statement [.signature id signature] signerId ↔
      signerId = id ∧ ∃ signer, policy.signerById id = some signer ∧
        ∃ outcome, verifyEd25519 signer.publicKeyPath.path statement signature = .ok outcome ∧
          outcome.verified = true := by
  constructor
  · rintro ⟨signer, hmem, rfl, assertion, hin, found, outcome, rfl, hverify, hverified⟩
    obtain ⟨rfl, rfl⟩ := Assertion.signature.inj (List.mem_singleton.mp hin)
    exact ⟨rfl, signer, TrustPolicy.signerById_eq_some.mpr ⟨hmem, rfl⟩, outcome, hverify, hverified⟩
  · rintro ⟨rfl, signer, hsigner, outcome, hverify, hverified⟩
    obtain ⟨hmem, rfl⟩ := TrustPolicy.signerById_eq_some.mp hsigner
    exact ⟨signer, hmem, rfl, _, List.mem_singleton.mpr rfl, signature, outcome, rfl, hverify,
      hverified⟩

/-- A pass adds the id that its assertion verifies. -/
theorem Tally.mem_assess :
    signerId ∈ (t.assess verifyEd25519 policy statement assertion).verified ↔
      signerId ∈ t.verified ∨
        IsVerifiedId verifyEd25519 policy statement [assertion] signerId := by
  cases assertion with
  | malformed =>
    have hno : ¬IsVerifiedId verifyEd25519 policy statement
        [(.malformed : Assertion Signature)] signerId := by
      rintro ⟨signer, -, -, assertion, hin, _, _, rfl, -⟩
      cases List.mem_singleton.mp hin
    simp [assess, hno]
  | signature id signature =>
    rw [isVerifiedId_singleton]
    simp only [assess]
    cases hsigner : policy.signerById id with
    | none => simp
    | some signer =>
      simp only [Option.some.injEq, exists_eq_left']
      by_cases fresh : id ∉ t.verified
      · rw [dif_pos fresh]
        cases hverify : verifyEd25519 signer.publicKeyPath.path statement signature with
        | error text => simp
        | ok outcome =>
          cases hverified : outcome.verified with
          | true => simp [hverified]
          | false => simp [hverified]
      · rw [dif_neg fresh]
        -- a counted id is not looked at again
        constructor
        · exact Or.inl
        · rintro (h | ⟨rfl, -⟩)
          · exact h
          · exact not_not.mp fresh

theorem Tally.mem_foldl_assess :
    signerId ∈ (assertions.foldl (Tally.assess verifyEd25519 policy statement) t).verified ↔
      signerId ∈ t.verified ∨ IsVerifiedId verifyEd25519 policy statement assertions signerId := by
  induction assertions generalizing t with
  | nil => simp [IsVerifiedId]
  | cons assertion assertions ih =>
    rw [List.foldl_cons, ih, mem_assess, or_assoc]
    exact or_congr_right isVerifiedId_cons.symm

theorem mem_tally :
    signerId ∈ (tally verifyEd25519 policy statement assertions).verified ↔
      IsVerifiedId verifyEd25519 policy statement assertions signerId := by
  rw [tally, Tally.mem_foldl_assess]
  simp [Tally.empty]

theorem satisfied_iff_atLeast_ids :
    (evaluateThreshold verifyEd25519 policy statement assertions).satisfied = true ↔
      AtLeast policy.threshold (IsVerifiedId verifyEd25519 policy statement assertions) := by
  rw [atLeast_iff_le_length (tally verifyEd25519 policy statement assertions).distinct
    fun _ => mem_tally]
  simp [evaluateThreshold]

/-- A verified key is the key of a verified id. -/
theorem atLeast_ids_of_keys
    (h : AtLeast n (IsVerifiedKey verifyEd25519 policy statement assertions)) :
    AtLeast n (IsVerifiedId verifyEd25519 policy statement assertions) := by
  have hsigners : AtLeast n fun signer => signer ∈ policy.signers ∧
      ∃ assertion ∈ assertions, Vouches verifyEd25519 statement signer assertion :=
    AtLeast.of_image (h.mono fun _ ⟨signer, hmem, hkey, hvouches⟩ => ⟨signer, hkey, hmem, hvouches⟩)
  exact (atLeast_image_iff policy.signers_distinct).mpr hsigners

/-- Where no two signers name one key file, ids and keys are counted alike. -/
theorem atLeast_ids_iff_keys
    (hkeys : (policy.signers.map fun signer => signer.publicKeyPath.path).Nodup) :
    AtLeast n (IsVerifiedId verifyEd25519 policy statement assertions) ↔
      AtLeast n (IsVerifiedKey verifyEd25519 policy statement assertions) :=
  (atLeast_image_iff policy.signers_distinct).trans (atLeast_image_iff hkeys).symm

theorem satisfied_of_subset {more : List (Assertion Signature)} (hsub : assertions ⊆ more)
    (h : (evaluateThreshold verifyEd25519 policy statement assertions).satisfied = true) :
    (evaluateThreshold verifyEd25519 policy statement more).satisfied = true := by
  rw [satisfied_iff_atLeast_ids] at h ⊢
  refine h.mono ?_
  rintro signerId ⟨signer, hmem, hid, assertion, hin, hvouches⟩
  exact ⟨signer, hmem, hid, assertion, hsub hin, hvouches⟩

end Evaluation

/-- The threshold counts the signer ids that some assertion verifies. The order of the assertions
and their copies do not matter, and no assertion takes the verdict back. Keys are counted where no
two signers name one key, and a verdict on the keys is never missed. -/
theorem evaluateThreshold_counts_ids {Statement Signature : Type*}
    (verifyEd25519 : PosixPath → Statement → Signature → Except String VerificationOutcome)
    (policy : TrustPolicy) (statement : Statement) (assertions : List (Assertion Signature)) :
    ((evaluateThreshold verifyEd25519 policy statement assertions).satisfied = true ↔
      AtLeast policy.threshold (IsVerifiedId verifyEd25519 policy statement assertions)) ∧
    (∀ more, assertions ⊆ more →
      (evaluateThreshold verifyEd25519 policy statement assertions).satisfied = true →
      (evaluateThreshold verifyEd25519 policy statement more).satisfied = true) ∧
    (∀ other, (∀ assertion, assertion ∈ other ↔ assertion ∈ assertions) →
      (evaluateThreshold verifyEd25519 policy statement other).satisfied =
        (evaluateThreshold verifyEd25519 policy statement assertions).satisfied) ∧
    (AtLeast policy.threshold (IsVerifiedKey verifyEd25519 policy statement assertions) →
      (evaluateThreshold verifyEd25519 policy statement assertions).satisfied = true) ∧
    ((policy.signers.map fun signer => signer.publicKeyPath.path).Nodup →
      (evaluateThreshold verifyEd25519 policy statement assertions).satisfied = true →
      AtLeast policy.threshold (IsVerifiedKey verifyEd25519 policy statement assertions)) := by
  refine ⟨satisfied_iff_atLeast_ids, ?_, ?_, ?_, ?_⟩
  · intro more hsub
    exact satisfied_of_subset hsub
  · intro other hsame
    rw [Bool.eq_iff_iff]
    constructor
    · exact satisfied_of_subset fun assertion => (hsame assertion).mp
    · exact satisfied_of_subset fun assertion => (hsame assertion).mpr
  · intro h
    exact satisfied_iff_atLeast_ids.mpr (atLeast_ids_of_keys h)
  · intro hkeys h
    exact (atLeast_ids_iff_keys hkeys).mp (satisfied_iff_atLeast_ids.mp h)

section Samples

def rootOwnedDirectory : SignerDirectory where
  path := .ofText "/etc/signers"
  protection := .rootOwned

def sharedKey : KeyPath where
  path := .ofText "/etc/signers/a.pem"
  name_safe := by constructor <;> decide

/-- Two of two signers, whose ids name one key file. -/
def sharedKeyPolicy : TrustPolicy where
  schemaVersion := .int 1
  signatureAlgorithm := "ed25519"
  threshold := 2
  signers := [⟨"a", sharedKey, by decide⟩, ⟨"b", sharedKey, by decide⟩]
  algorithm_fixed := rfl
  signers_distinct := by decide
  threshold_range := by decide

def sharedKeyDocument : Json :=
  .obj [("schema_version", .int 1), ("signature_algorithm", .str "ed25519"),
    ("threshold", .int 2),
    ("signers", .list [.obj [("id", .str "a"), ("public_key_path", .str "/etc/signers/a.pem")],
      .obj [("id", .str "b"), ("public_key_path", .str "/etc/signers/a.pem")]])]

/-- The one key verifies the one signature. -/
def verifiesAll (_ : PosixPath) (_ _ : Unit) : Except String VerificationOutcome :=
  .ok ⟨true, "Ed25519 signature verified"⟩

/-- One key meets a threshold of two under two ids. -/
theorem one_key_counts_twice :
    Bootstrap.parseTrustPolicyDict rootOwnedDirectory "" sharedKeyDocument = .ok sharedKeyPolicy ∧
      (evaluateThreshold verifiesAll sharedKeyPolicy ()
        [.signature "a" (), .signature "b" ()]).satisfied = true ∧
      ¬AtLeast sharedKeyPolicy.threshold (IsVerifiedKey verifiesAll sharedKeyPolicy ()
        [.signature "a" (), .signature "b" ()]) := by
  refine ⟨rfl, by decide, ?_⟩
  intro h
  have hone : (2 : ℤ) ≤ [sharedKey.path].length := by
    refine h.le_length ?_
    rintro key ⟨signer, hmem, rfl, -⟩
    simp only [sharedKeyPolicy, List.mem_cons, List.not_mem_nil, or_false] at hmem
    rcases hmem with rfl | rfl
    · exact List.mem_singleton.mpr rfl
    · exact List.mem_singleton.mpr rfl
  exact absurd hone (by decide)

end Samples

end IsadoraAir.Bundle
