import IsadoraAir.Bundle.TrustPolicy

/-!
# The two trust policy parsers

The supervisor's parser takes every version that equals one, the worker's only
the integer. Apart from this they accept the documents that spell a policy, and
an error that is not theirs is the path validator's or the file system's.
-/

namespace IsadoraAir.Bundle

variable {seen signers : Distinct Signer.id} {data raw value : Json} {key : KeyPath}
  {raws : List Json} {directory : PosixPath} {e : Raised} {label : String} {policy : TrustPolicy}

/-! ## The supervisor's copy -/

namespace Bootstrap

def resolveSignerKeyPath (directory : PosixPath) (value : Json) (label : String) :
    Except Raised KeyPath := do
  let raw ← orRaise value.str?
    (.trustPolicy label "public_key_path must be an absolute string" [])
  raiseIf (raw.toList.head? ≠ some '/')
    (.trustPolicy label "public_key_path must be an absolute string" [])
  resolveBelow directory label "public_key_path must be a direct child of" [directory.text]
    (.ofText raw)

def readSigner (directory : PosixPath) (label : String) (seen : Distinct Signer.id) (raw : Json) :
    Except Raised {signer : Signer // signer.id ∉ seen.keys} := do
  let item := label ++ ": signers[" ++ toString seen.items.length ++ "]"
  let fields ← orRaise raw.obj?
    (.trustPolicy item "must be an object with exactly id/public_key_path" [])
  raiseIf (¬Json.hasKeys fields signerKeys)
    (.trustPolicy item "must be an object with exactly id/public_key_path" [])
  let id ← orRaise (Json.lookup fields "id").str? (.trustPolicy item "id must match" [])
  let matched ← refuse (¬isSignerId id) (.trustPolicy item "id must match" [])
  let fresh ← refuse (id ∈ seen.keys) (.trustPolicy item "duplicate signer id" [id])
  let key ← resolveSignerKeyPath directory (Json.lookup fields "public_key_path") item
  .ok ⟨⟨id, key, not_not.mp matched.down⟩, fresh.down⟩

/-- `_parse_trust_policy_dict_against_resolved_directory` -/
def parseAgainstResolvedDirectory (directory : PosixPath) (label : String) (data : Json) :
    Except Raised TrustPolicy := do
  let items ← orRaise data.obj? (.trustPolicy label "trust policy must be a JSON object" [])
  raiseIf (¬Json.hasKeys items policyKeys)
    (.trustPolicy label "must have exactly" policyKeys)
  let schemaVersion := Json.lookup items "schema_version"
  raiseIf (¬schemaVersion.eqInt policySchemaVersion)
    (.trustPolicy label "unsupported schema_version" [])
  let algorithm ← orRaise (Json.lookup items "signature_algorithm").str?
    (.trustPolicy label "signature_algorithm must be" [signatureAlgorithm])
  let fixed ← refuse (algorithm ≠ signatureAlgorithm)
    (.trustPolicy label "signature_algorithm must be" [signatureAlgorithm])
  let rawSigners ← orRaise (Json.lookup items "signers").list?
    (.trustPolicy label "signers must be a non-empty, bounded list" [])
  raiseIf (rawSigners = [] ∨ maxSigners < rawSigners.length)
    (.trustPolicy label "signers must be a non-empty, bounded list" [])
  let signers ← Distinct.collect (readSigner directory label) .empty rawSigners
  let threshold ← orRaise (Json.lookup items "threshold").int?
    (.trustPolicy label "threshold must be between 1 and the signer count"
      [toString signers.items.length])
  let range ← refuse (¬(1 ≤ threshold ∧ threshold ≤ signers.items.length))
    (.trustPolicy label "threshold must be between 1 and the signer count"
      [toString signers.items.length])
  .ok {
    schemaVersion := schemaVersion
    signatureAlgorithm := algorithm
    threshold := threshold
    signers := signers.items
    algorithm_fixed := not_ne_iff.mp fixed.down
    signers_distinct := signers.distinct
    threshold_range := not_not.mp range.down }

def parseTrustPolicyDict (directory : SignerDirectory) (label : String) (data : Json) :
    Except Raised TrustPolicy := do
  let resolved ← resolveRootProtectedDirectory directory label
  parseAgainstResolvedDirectory resolved label data

theorem resolveSignerKeyPath_eq_ok :
    resolveSignerKeyPath directory value label = .ok key ↔
      ∃ raw, value = .str raw ∧ NamesKey directory raw key.path := by
  simp only [resolveSignerKeyPath, orRaise_bind_eq_ok, raiseIf_bind_eq_ok, Json.str?_eq_some,
    resolveBelow_eq_ok, not_ne_iff]
  constructor
  · rintro ⟨raw, hraw, habsolute, hup, hkey, hparent⟩
    rw [hkey] at hup hparent
    exact ⟨raw, hraw, habsolute, hkey, hup, hparent⟩
  · rintro ⟨raw, hraw, habsolute, hkey, hup, hparent⟩
    rw [← hkey] at hup hparent
    exact ⟨raw, hraw, habsolute, hup, hkey, hparent⟩

theorem readSigner_eq_ok {signer : {signer : Signer // signer.id ∉ seen.keys}} :
    readSigner directory label seen raw = .ok signer ↔ SpellsSigner directory raw signer.val := by
  simp only [readSigner, orRaise_bind_eq_ok, raiseIf_bind_eq_ok, refuse_bind_eq_ok,
    bind_eq_ok_of fun _ => resolveSignerKeyPath_eq_ok, Json.obj?_eq_some, Json.str?_eq_some,
    Except.ok.injEq]
  constructor
  · rintro ⟨fields, rfl, hkeys, id, hid, _, _, key, ⟨text, htext, hnames⟩, rfl⟩
    exact ⟨fields, text, rfl, not_not.mp hkeys, hid, htext, hnames⟩
  · rintro ⟨fields, text, rfl, hkeys, hid, htext, hnames⟩
    exact ⟨fields, rfl, not_not.mpr hkeys, signer.val.id, hid, not_not.mpr signer.val.id_matches,
      signer.property, signer.val.publicKeyPath, ⟨text, htext, hnames⟩, rfl⟩

theorem readSigners_eq_ok :
    Distinct.collect (readSigner directory label) .empty raws = .ok signers ↔
      List.Forall₂ (SpellsSigner directory) raws signers.items :=
  Distinct.collect_empty_eq_ok fun _ _ _ => readSigner_eq_ok

/-- The supervisor's copy takes every version that equals one. -/
theorem parseTrustPolicyDict_eq_ok {directory : SignerDirectory} :
    parseTrustPolicyDict directory label data = .ok policy ↔
      SpellsPolicy directory data policy ∧ policy.schemaVersion.eqInt policySchemaVersion := by
  simp only [parseTrustPolicyDict, bind_eq_ok_of fun _ => resolveRootProtectedDirectory_eq_ok,
    parseAgainstResolvedDirectory, orRaise_bind_eq_ok, raiseIf_bind_eq_ok, refuse_bind_eq_ok,
    bind_eq_ok_of fun _ => readSigners_eq_ok, Json.obj?_eq_some, Json.str?_eq_some,
    Json.list?_eq_some, Json.int?_eq_some, Except.ok.injEq]
  constructor
  · rintro ⟨_, ⟨habsolute, hprotection, rfl⟩, items, rfl, hkeys, hversion, _, halgorithm, _, raws,
      hraws, hbounds, signers, hsigners, _, hthreshold, _, rfl⟩
    rw [not_or, not_lt] at hbounds
    exact ⟨⟨habsolute, hprotection, items, raws, rfl, not_not.mp hkeys, rfl, halgorithm, hraws,
      hbounds.1, hbounds.2, hsigners, hthreshold⟩, not_not.mp hversion⟩
  · rintro ⟨⟨habsolute, hprotection, items, raws, rfl, hkeys, hversion, halgorithm, hraws, hne,
      hbound, hsigners, hthreshold⟩, hone⟩
    obtain ⟨version, algorithm, threshold, signers, hfixed, hdistinct, hrange⟩ := policy
    subst hversion
    exact ⟨_, ⟨habsolute, hprotection, rfl⟩, items, rfl, not_not.mpr hkeys, not_not.mpr hone, _,
      halgorithm, not_ne_iff.mpr hfixed, raws, hraws, not_or.mpr ⟨hne, not_lt.mpr hbound⟩,
      ⟨signers, hdistinct⟩, hsigners, threshold, hthreshold, not_not.mpr hrange, rfl⟩

theorem resolveSignerKeyPath_unsafeName (he : ¬e.IsTrustPolicyError)
    (h : resolveSignerKeyPath directory value label = .error e) : HasUnsafeKey value := by
  unfold resolveSignerKeyPath at h
  obtain ⟨raw, hraw, h⟩ := Raises.passes (.orRaise trivial) he h
  obtain ⟨_, habsolute, h⟩ := Raises.passes (.raiseIf trivial) he h
  obtain ⟨hup, hname⟩ := resolveBelow_unsafeName he h
  exact ⟨raw, Json.str?_eq_some.mp (orRaise_eq_ok.mp hraw),
    not_ne_iff.mp (raiseIf_eq_ok.mp habsolute), hup, hname⟩

theorem resolveSignerKeyPath_of_unsafeName (directory : PosixPath) (label : String)
    (h : HasUnsafeKey value) :
    ∃ e : Raised, ¬e.IsTrustPolicyError ∧ resolveSignerKeyPath directory value label = .error e := by
  obtain ⟨raw, rfl, habsolute, hup, hname⟩ := h
  obtain ⟨e, he, hbelow⟩ := resolveBelow_of_unsafeName hup hname
  refine ⟨e, he, ?_⟩
  simp only [resolveSignerKeyPath, bind_eq_error]
  exact .inr ⟨raw, rfl, .inr ⟨(), raiseIf_eq_ok.mpr (not_ne_iff.mpr habsolute), hbelow⟩⟩

theorem readSigner_unsafeName (he : ¬e.IsTrustPolicyError)
    (h : readSigner directory label seen raw = .error e) : HasUnsafeName seen.keys raw := by
  unfold readSigner at h
  obtain ⟨fields, hfields, h⟩ := Raises.passes (.orRaise trivial) he h
  obtain ⟨_, hkeys, h⟩ := Raises.passes (.raiseIf trivial) he h
  obtain ⟨id, hid, h⟩ := Raises.passes (.orRaise trivial) he h
  obtain ⟨hmatched, -, h⟩ := Raises.passes (.refuse trivial) he h
  obtain ⟨hfresh, -, h⟩ := Raises.passes (.refuse trivial) he h
  rcases bind_eq_error.mp h with hkey | ⟨key, -, h⟩
  · exact ⟨fields, id, Json.obj?_eq_some.mp (orRaise_eq_ok.mp hfields),
      not_not.mp (raiseIf_eq_ok.mp hkeys), Json.str?_eq_some.mp (orRaise_eq_ok.mp hid),
      not_not.mp hmatched.down, hfresh.down, resolveSignerKeyPath_unsafeName he hkey⟩
  · cases h

theorem readSigner_of_unsafeName (directory : PosixPath)
    (label : String) (h : HasUnsafeName seen.keys raw) :
    ∃ e : Raised, ¬e.IsTrustPolicyError ∧ readSigner directory label seen raw = .error e := by
  obtain ⟨fields, id, rfl, hkeys, hid, hmatches, hfresh, hkey⟩ := h
  obtain ⟨e, he, hresolve⟩ := resolveSignerKeyPath_of_unsafeName directory
    (label ++ ": signers[" ++ toString seen.items.length ++ "]") hkey
  refine ⟨e, he, ?_⟩
  simp only [readSigner, bind_eq_error]
  exact .inr ⟨fields, rfl, .inr ⟨(), raiseIf_eq_ok.mpr (not_not.mpr hkeys), .inr ⟨id,
    orRaise_eq_ok.mpr (Json.str?_eq_some.mpr hid), .inr ⟨⟨not_not.mpr hmatches⟩,
    refuse_eq_ok.mpr (not_not.mpr hmatches), .inr ⟨⟨hfresh⟩, refuse_eq_ok.mpr hfresh,
    .inl hresolve⟩⟩⟩⟩⟩

/-- An error that is not the declared one needs an unreadable directory or an unsafe name. -/
theorem parseTrustPolicyDict_unsafeName {directory : SignerDirectory}
    (hreadable : ¬directory.Unreadable) (he : ¬e.IsTrustPolicyError)
    (h : parseTrustPolicyDict directory label data = .error e) :
    ReachesUnsafeName directory data := by
  unfold parseTrustPolicyDict parseAgainstResolvedDirectory at h
  obtain ⟨resolved, hresolved, h⟩ :=
    (resolveRootProtectedDirectory_raises.mpr hreadable).passes he h
  obtain ⟨habsolute, hprotection, rfl⟩ := resolveRootProtectedDirectory_eq_ok.mp hresolved
  obtain ⟨items, hitems, h⟩ := Raises.passes (.orRaise trivial) he h
  obtain ⟨_, hkeys, h⟩ := Raises.passes (.raiseIf trivial) he h
  obtain ⟨_, hversion, h⟩ := Raises.passes (.raiseIf trivial) he h
  obtain ⟨algorithm, halgorithm, h⟩ := Raises.passes (.orRaise trivial) he h
  obtain ⟨hfixed, -, h⟩ := Raises.passes (.refuse trivial) he h
  obtain ⟨raws, hraws, h⟩ := Raises.passes (.orRaise trivial) he h
  obtain ⟨_, hbounds, h⟩ := Raises.passes (.raiseIf trivial) he h
  rcases bind_eq_error.mp h with hloop | ⟨signers, -, h⟩
  · obtain ⟨before, raw, after, gathered, rfl, hbefore, hraw⟩ := Distinct.collect_eq_error.mp hloop
    have hbound := (not_or.mp (raiseIf_eq_ok.mp hbounds)).2
    have halgorithm' := Json.str?_eq_some.mp (orRaise_eq_ok.mp halgorithm)
    rw [not_ne_iff.mp hfixed.down] at halgorithm'
    exact ⟨habsolute, hprotection, items, before, raw, after, gathered,
      Json.obj?_eq_some.mp (orRaise_eq_ok.mp hitems), not_not.mp (raiseIf_eq_ok.mp hkeys),
      not_not.mp (raiseIf_eq_ok.mp hversion), halgorithm',
      Json.list?_eq_some.mp (orRaise_eq_ok.mp hraws), not_lt.mp hbound,
      readSigners_eq_ok.mp hbefore, readSigner_unsafeName he hraw⟩
  · obtain ⟨threshold, -, h⟩ := Raises.passes (.orRaise trivial) he h
    obtain ⟨_, -, h⟩ := Raises.passes (.refuse trivial) he h
    cases h

theorem parseTrustPolicyDict_of_unsafeName {directory : SignerDirectory}
    (label : String) (h : ReachesUnsafeName directory data) :
    ∃ e : Raised, ¬e.IsTrustPolicyError ∧ parseTrustPolicyDict directory label data = .error e := by
  obtain ⟨habsolute, hprotection, items, before, raw, after, signers, rfl, hkeys, hversion,
    halgorithm, hraws, hbound, hbefore, hraw⟩ := h
  obtain ⟨e, he, hsigner⟩ := readSigner_of_unsafeName directory.path label hraw
  have hloop : Distinct.collect (readSigner directory.path label) .empty (before ++ raw :: after) =
      .error e :=
    Distinct.collect_eq_error.mpr ⟨before, raw, after, signers, rfl, readSigners_eq_ok.mpr hbefore,
      hsigner⟩
  have hbounds : ¬(before ++ raw :: after = [] ∨ maxSigners < (before ++ raw :: after).length) :=
    not_or.mpr ⟨by simp, not_lt.mpr hbound⟩
  have hfixed : ¬signatureAlgorithm ≠ signatureAlgorithm := not_ne_iff.mpr rfl
  refine ⟨e, he, ?_⟩
  simp only [parseTrustPolicyDict, parseAgainstResolvedDirectory, bind_eq_error]
  exact .inr ⟨directory.path,
    resolveRootProtectedDirectory_eq_ok.mpr ⟨habsolute, hprotection, rfl⟩, .inr ⟨items, rfl,
    .inr ⟨(), raiseIf_eq_ok.mpr (not_not.mpr hkeys), .inr ⟨(),
    raiseIf_eq_ok.mpr (not_not.mpr hversion), .inr ⟨_,
    orRaise_eq_ok.mpr (Json.str?_eq_some.mpr halgorithm), .inr ⟨⟨hfixed⟩, refuse_eq_ok.mpr hfixed,
    .inr ⟨_, orRaise_eq_ok.mpr (Json.list?_eq_some.mpr hraws), .inr ⟨(),
    raiseIf_eq_ok.mpr hbounds, .inl hloop⟩⟩⟩⟩⟩⟩⟩⟩

theorem parseTrustPolicyDict_of_unreadable {directory : SignerDirectory}
    (data : Json) (h : directory.Unreadable) :
    ¬Raises Raised.IsTrustPolicyError (parseTrustPolicyDict directory label data) := by
  intro hraises
  have hresolve : Raises Raised.IsTrustPolicyError
      (resolveRootProtectedDirectory directory label) := by
    intro e he
    exact hraises e (bind_eq_error.mpr (.inl he))
  exact resolveRootProtectedDirectory_raises.mp hresolve h

/-- The declared error is the only one exactly when the directory can be looked at and no unsafe
name is reached. -/
theorem parseTrustPolicyDict_raises {directory : SignerDirectory} :
    Raises Raised.IsTrustPolicyError (parseTrustPolicyDict directory label data) ↔
      ¬directory.Unreadable ∧ ¬ReachesUnsafeName directory data := by
  constructor
  · intro h
    refine ⟨fun hunreadable => parseTrustPolicyDict_of_unreadable data hunreadable h, ?_⟩
    intro hreaches
    obtain ⟨e, he, hparse⟩ := parseTrustPolicyDict_of_unsafeName label hreaches
    exact he (h e hparse)
  · rintro ⟨hreadable, hsafe⟩ e hparse
    by_contra he
    exact hsafe (parseTrustPolicyDict_unsafeName hreadable he hparse)

end Bootstrap

/-! ## The worker's copy -/

namespace Worker

def resolveSignerKeyPath (directory : PosixPath) (value : Json) (label : String) :
    Except Raised KeyPath := do
  let raw ← orRaise value.str?
    (.trustPolicy label "public_key_path must be a non-empty string" [])
  raiseIf (raw = "") (.trustPolicy label "public_key_path must be a non-empty string" [])
  raiseIf (raw.toList.head? ≠ some '/')
    (.trustPolicy label "public_key_path must be absolute" [])
  resolveBelow directory label
    "public_key_path must be a direct child of the configured signer directory"
    [directory.text, (PosixPath.ofText raw).text] (.ofText raw)

def readSigner (directory : PosixPath) (label : String) (seen : Distinct Signer.id) (raw : Json) :
    Except Raised {signer : Signer // signer.id ∉ seen.keys} := do
  let item := label ++ ": signers[" ++ toString seen.items.length ++ "]"
  let fields ← orRaise raw.obj? (.trustPolicy item "must be a JSON object" [])
  raiseIf (Json.unknownKeys fields signerKeys ≠ [])
    (.trustPolicy item "unrecognized field(s)" (Json.unknownKeys fields signerKeys))
  raiseIf (Json.missingKeys fields signerKeys ≠ [])
    (.trustPolicy item "missing field(s)" (Json.missingKeys fields signerKeys))
  let id ← orRaise (Json.lookup fields "id").str? (.trustPolicy item "id must match" [])
  let matched ← refuse (¬isSignerId id) (.trustPolicy item "id must match" [])
  let fresh ← refuse (id ∈ seen.keys) (.trustPolicy item "duplicate signer id" [id])
  let key ← resolveSignerKeyPath directory (Json.lookup fields "public_key_path") item
  .ok ⟨⟨id, key, not_not.mp matched.down⟩, fresh.down⟩

def parseTrustPolicyDict (directory : SignerDirectory) (label : String) (data : Json) :
    Except Raised TrustPolicy := do
  let items ← orRaise data.obj? (.trustPolicy label "trust policy must be a JSON object" [])
  raiseIf (Json.unknownKeys items policyKeys ≠ [])
    (.trustPolicy label "unrecognized field(s)" (Json.unknownKeys items policyKeys))
  raiseIf (Json.missingKeys items policyKeys ≠ [])
    (.trustPolicy label "missing required field(s)" (Json.missingKeys items policyKeys))
  let schemaVersion ← orRaise (Json.lookup items "schema_version").int?
    (.trustPolicy label "schema_version must be an integer" [])
  raiseIf (schemaVersion ≠ policySchemaVersion)
    (.trustPolicy label "unsupported schema_version"
      [toString schemaVersion, toString policySchemaVersion])
  let algorithm ← orRaise (Json.lookup items "signature_algorithm").str?
    (.trustPolicy label "signature_algorithm must be"
      [signatureAlgorithm, (Json.lookup items "signature_algorithm").dumps])
  let fixed ← refuse (algorithm ≠ signatureAlgorithm)
    (.trustPolicy label "signature_algorithm must be" [signatureAlgorithm, algorithm])
  let rawSigners ← orRaise (Json.lookup items "signers").list?
    (.trustPolicy label "signers must be a non-empty list" [])
  raiseIf (rawSigners = []) (.trustPolicy label "signers must be a non-empty list" [])
  raiseIf (maxSigners < rawSigners.length)
    (.trustPolicy label "signers exceeds the maximum number of entries" [toString maxSigners])
  let resolved ← resolveRootProtectedDirectory directory label
  let signers ← Distinct.collect (readSigner resolved label) .empty rawSigners
  let threshold ← orRaise (Json.lookup items "threshold").int?
    (.trustPolicy label "threshold must be an integer" [])
  let range ← refuse (¬(1 ≤ threshold ∧ threshold ≤ signers.items.length))
    (.trustPolicy label "threshold must be between 1 and the signer count"
      [toString signers.items.length, toString threshold])
  .ok {
    schemaVersion := .int schemaVersion
    signatureAlgorithm := algorithm
    threshold := threshold
    signers := signers.items
    algorithm_fixed := not_ne_iff.mp fixed.down
    signers_distinct := signers.distinct
    threshold_range := not_not.mp range.down }

theorem resolveSignerKeyPath_eq_ok :
    resolveSignerKeyPath directory value label = .ok key ↔
      ∃ raw, value = .str raw ∧ NamesKey directory raw key.path := by
  simp only [resolveSignerKeyPath, orRaise_bind_eq_ok, raiseIf_bind_eq_ok, Json.str?_eq_some,
    resolveBelow_eq_ok, not_ne_iff]
  constructor
  · rintro ⟨raw, hraw, _, habsolute, hup, hkey, hparent⟩
    rw [hkey] at hup hparent
    exact ⟨raw, hraw, habsolute, hkey, hup, hparent⟩
  · rintro ⟨raw, hraw, habsolute, hkey, hup, hparent⟩
    rw [← hkey] at hup hparent
    refine ⟨raw, hraw, ?_, habsolute, hup, hkey, hparent⟩
    rintro rfl
    cases habsolute

theorem readSigner_eq_ok {signer : {signer : Signer // signer.id ∉ seen.keys}} :
    readSigner directory label seen raw = .ok signer ↔ SpellsSigner directory raw signer.val := by
  simp only [readSigner, orRaise_bind_eq_ok, raiseIf_bind_eq_ok, refuse_bind_eq_ok,
    bind_eq_ok_of fun _ => resolveSignerKeyPath_eq_ok, Json.obj?_eq_some, Json.str?_eq_some,
    Except.ok.injEq]
  constructor
  · rintro ⟨fields, rfl, hunknown, hmissing, id, hid, _, _, key, ⟨text, htext, hnames⟩, rfl⟩
    exact ⟨fields, text, rfl, Json.hasKeys_iff.mpr ⟨not_ne_iff.mp hunknown, not_ne_iff.mp hmissing⟩,
      hid, htext, hnames⟩
  · rintro ⟨fields, text, rfl, hkeys, hid, htext, hnames⟩
    obtain ⟨hunknown, hmissing⟩ := Json.hasKeys_iff.mp hkeys
    exact ⟨fields, rfl, not_ne_iff.mpr hunknown, not_ne_iff.mpr hmissing, signer.val.id, hid,
      not_not.mpr signer.val.id_matches, signer.property, signer.val.publicKeyPath,
      ⟨text, htext, hnames⟩, rfl⟩

theorem readSigners_eq_ok :
    Distinct.collect (readSigner directory label) .empty raws = .ok signers ↔
      List.Forall₂ (SpellsSigner directory) raws signers.items :=
  Distinct.collect_empty_eq_ok fun _ _ _ => readSigner_eq_ok

/-- The worker's copy takes the integer one only. -/
theorem parseTrustPolicyDict_eq_ok {directory : SignerDirectory} :
    parseTrustPolicyDict directory label data = .ok policy ↔
      SpellsPolicy directory data policy ∧ policy.schemaVersion = .int policySchemaVersion := by
  simp only [parseTrustPolicyDict, bind_eq_ok_of fun _ => resolveRootProtectedDirectory_eq_ok,
    orRaise_bind_eq_ok, raiseIf_bind_eq_ok, refuse_bind_eq_ok,
    bind_eq_ok_of fun _ => readSigners_eq_ok, Json.obj?_eq_some, Json.str?_eq_some,
    Json.list?_eq_some, Json.int?_eq_some, Except.ok.injEq, not_ne_iff]
  constructor
  · rintro ⟨items, rfl, hunknown, hmissing, version, hversion, rfl, _, halgorithm, _, raws, hraws,
      hne, hbound, _, ⟨habsolute, hprotection, rfl⟩, signers, hsigners, _, hthreshold, _, rfl⟩
    exact ⟨⟨habsolute, hprotection, items, raws, rfl, Json.hasKeys_iff.mpr ⟨hunknown, hmissing⟩,
      hversion, halgorithm, hraws, hne, not_lt.mp hbound, hsigners, hthreshold⟩, rfl⟩
  · rintro ⟨⟨habsolute, hprotection, items, raws, rfl, hkeys, hversion, halgorithm, hraws, hne,
      hbound, hsigners, hthreshold⟩, hone⟩
    obtain ⟨version, algorithm, threshold, signers, hfixed, hdistinct, hrange⟩ := policy
    obtain ⟨hunknown, hmissing⟩ := Json.hasKeys_iff.mp hkeys
    subst hone
    exact ⟨items, rfl, hunknown, hmissing, _, hversion, rfl, _, halgorithm, hfixed, raws,
      hraws, hne, not_lt.mpr hbound, _, ⟨habsolute, hprotection, rfl⟩, ⟨signers, hdistinct⟩,
      hsigners, threshold, hthreshold, not_not.mpr hrange, rfl⟩

theorem resolveSignerKeyPath_unsafeName (he : ¬e.IsTrustPolicyError)
    (h : resolveSignerKeyPath directory value label = .error e) : HasUnsafeKey value := by
  unfold resolveSignerKeyPath at h
  obtain ⟨raw, hraw, h⟩ := Raises.passes (.orRaise trivial) he h
  obtain ⟨_, -, h⟩ := Raises.passes (.raiseIf trivial) he h
  obtain ⟨_, habsolute, h⟩ := Raises.passes (.raiseIf trivial) he h
  obtain ⟨hup, hname⟩ := resolveBelow_unsafeName he h
  exact ⟨raw, Json.str?_eq_some.mp (orRaise_eq_ok.mp hraw),
    not_ne_iff.mp (raiseIf_eq_ok.mp habsolute), hup, hname⟩

theorem readSigner_unsafeName (he : ¬e.IsTrustPolicyError)
    (h : readSigner directory label seen raw = .error e) : HasUnsafeName seen.keys raw := by
  unfold readSigner at h
  obtain ⟨fields, hfields, h⟩ := Raises.passes (.orRaise trivial) he h
  obtain ⟨_, hunknown, h⟩ := Raises.passes (.raiseIf trivial) he h
  obtain ⟨_, hmissing, h⟩ := Raises.passes (.raiseIf trivial) he h
  obtain ⟨id, hid, h⟩ := Raises.passes (.orRaise trivial) he h
  obtain ⟨hmatched, -, h⟩ := Raises.passes (.refuse trivial) he h
  obtain ⟨hfresh, -, h⟩ := Raises.passes (.refuse trivial) he h
  have hkeys := Json.hasKeys_iff.mpr
    ⟨not_ne_iff.mp (raiseIf_eq_ok.mp hunknown), not_ne_iff.mp (raiseIf_eq_ok.mp hmissing)⟩
  rcases bind_eq_error.mp h with hkey | ⟨key, -, h⟩
  · exact ⟨fields, id, Json.obj?_eq_some.mp (orRaise_eq_ok.mp hfields), hkeys,
      Json.str?_eq_some.mp (orRaise_eq_ok.mp hid), not_not.mp hmatched.down, hfresh.down,
      resolveSignerKeyPath_unsafeName he hkey⟩
  · cases h

/-- An error that is not the declared one needs an unreadable directory or an unsafe name. -/
theorem parseTrustPolicyDict_unsafeName {directory : SignerDirectory}
    (hreadable : ¬directory.Unreadable) (he : ¬e.IsTrustPolicyError)
    (h : parseTrustPolicyDict directory label data = .error e) :
    ReachesUnsafeName directory data := by
  unfold parseTrustPolicyDict at h
  obtain ⟨items, hitems, h⟩ := Raises.passes (.orRaise trivial) he h
  obtain ⟨_, hunknown, h⟩ := Raises.passes (.raiseIf trivial) he h
  obtain ⟨_, hmissing, h⟩ := Raises.passes (.raiseIf trivial) he h
  obtain ⟨version, hversion, h⟩ := Raises.passes (.orRaise trivial) he h
  obtain ⟨_, hone, h⟩ := Raises.passes (.raiseIf trivial) he h
  obtain ⟨algorithm, halgorithm, h⟩ := Raises.passes (.orRaise trivial) he h
  obtain ⟨hfixed, -, h⟩ := Raises.passes (.refuse trivial) he h
  obtain ⟨raws, hraws, h⟩ := Raises.passes (.orRaise trivial) he h
  obtain ⟨_, -, h⟩ := Raises.passes (.raiseIf trivial) he h
  obtain ⟨_, hbound, h⟩ := Raises.passes (.raiseIf trivial) he h
  obtain ⟨resolved, hresolved, h⟩ :=
    (resolveRootProtectedDirectory_raises.mpr hreadable).passes he h
  obtain ⟨habsolute, hprotection, rfl⟩ := resolveRootProtectedDirectory_eq_ok.mp hresolved
  rcases bind_eq_error.mp h with hloop | ⟨signers, -, h⟩
  · obtain ⟨before, raw, after, gathered, rfl, hbefore, hraw⟩ := Distinct.collect_eq_error.mp hloop
    have hkeys := Json.hasKeys_iff.mpr
      ⟨not_ne_iff.mp (raiseIf_eq_ok.mp hunknown), not_ne_iff.mp (raiseIf_eq_ok.mp hmissing)⟩
    have hversion' := Json.int?_eq_some.mp (orRaise_eq_ok.mp hversion)
    have halgorithm' := Json.str?_eq_some.mp (orRaise_eq_ok.mp halgorithm)
    rw [not_ne_iff.mp hfixed.down] at halgorithm'
    have hversionOne : (Json.lookup items "schema_version").eqInt policySchemaVersion := by
      rw [hversion', not_ne_iff.mp (raiseIf_eq_ok.mp hone)]
      rfl
    exact ⟨habsolute, hprotection, items, before, raw, after, gathered,
      Json.obj?_eq_some.mp (orRaise_eq_ok.mp hitems), hkeys, hversionOne, halgorithm',
      Json.list?_eq_some.mp (orRaise_eq_ok.mp hraws), not_lt.mp (raiseIf_eq_ok.mp hbound),
      readSigners_eq_ok.mp hbefore, readSigner_unsafeName he hraw⟩
  · obtain ⟨threshold, -, h⟩ := Raises.passes (.orRaise trivial) he h
    obtain ⟨_, -, h⟩ := Raises.passes (.refuse trivial) he h
    cases h

/-- Where the supervisor's copy keeps to the declared error, the worker's does too. -/
theorem parseTrustPolicyDict_raises {directory : SignerDirectory}
    (hreadable : ¬directory.Unreadable) (hsafe : ¬ReachesUnsafeName directory data) :
    Raises Raised.IsTrustPolicyError (parseTrustPolicyDict directory label data) := by
  intro e hparse
  by_contra he
  exact hsafe (parseTrustPolicyDict_unsafeName hreadable he hparse)

end Worker

end IsadoraAir.Bundle
