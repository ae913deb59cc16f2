import IsadoraAir.Bundle.Descriptor

/-!
# The two descriptor parsers

The supervisor's parser and the worker's are translated separately. Each accepts
exactly the documents that spell a descriptor; the supervisor's asks for a mode
in the set of modes before it knows that the mode is a text.
-/

namespace IsadoraAir.Bundle

variable {head : DescriptorHead} {entries seen : Distinct FileEntry.pathText}
  {data declared mode raw : Json} {items : List (String × Json)} {raws : List Json} {m : Mode}
  {e : Raised} {d : RuntimeDescriptor} {field item label : String} {hexdigest : String → String}

/-! ## The supervisor's copy -/

namespace Bootstrap

def positiveInt (items : List (String × Json)) (field : String) :
    Except Raised {n : ℤ // ¬n < 1} := do
  let value ← orRaise (Json.lookup items field).int? (.descriptor field "must be an integer" [])
  let positive ← refuse (value < 1) (.descriptor field "must be positive" [])
  .ok ⟨value, positive.down⟩

def parseHead (label : String) (items : List (String × Json)) : Except Raised DescriptorHead := do
  raiseIf (Json.unknownKeys items topKeys ≠ [])
    (.descriptor label "unrecognized field(s)" (Json.unknownKeys items topKeys))
  raiseIf (Json.missingKeys items topKeys ≠ [])
    (.descriptor label "missing required field(s)" (Json.missingKeys items topKeys))
  let schemaVersion ← orRaise (Json.lookup items "schema_version").int?
    (.descriptor label "unsupported schema_version" [])
  let supported ← refuse (schemaVersion ≠ supportedSchemaVersion)
    (.descriptor label "unsupported schema_version" [])
  let generation ← positiveInt items "generation"
  let maximum ← refuse (maxGeneration < generation.val)
    (.descriptor "generation" "exceeds maximum" [toString maxGeneration])
  let runtimeVersion ← positiveInt items "runtime_version"
  let manifestProtocolVersion ← positiveInt items "manifest_protocol_version"
  let wire ← orRaise (Json.lookup items "supported_wire_protocols").list?
    (.descriptor label "supported_wire_protocols must be a non-empty, bounded list" [])
  let nonempty ← refuse (wire = [])
    (.descriptor label "supported_wire_protocols must be a non-empty, bounded list" [])
  let bounded ← refuse (maxWireProtocols < wire.length)
    (.descriptor label "supported_wire_protocols must be a non-empty, bounded list" [])
  let versions ← orRaise (Json.ints? wire)
    (.descriptor label "supported_wire_protocols must contain only positive integers" [])
  let positive ← refuse (∃ v ∈ versions.val, v < 1)
    (.descriptor label "supported_wire_protocols must contain only positive integers" [])
  let unique ← refuse (¬versions.val.Nodup)
    (.descriptor label "supported_wire_protocols must be unique and canonically sorted" [])
  let sorted ← refuse (versions.val ≠ versions.val.insertionSort (· ≤ ·))
    (.descriptor label "supported_wire_protocols must be unique and canonically sorted" [])
  let entrypoint ← validateRelativePath (Json.lookup items "entrypoint") "entrypoint"
    maxEntrypointLen
  .ok {
    schemaVersion := schemaVersion
    generation := generation.val
    runtimeVersion := runtimeVersion.val
    manifestProtocolVersion := manifestProtocolVersion.val
    supportedWireProtocols := .ofChecked versions nonempty.down bounded.down positive.down
      unique.down sorted.down
    entrypoint := entrypoint
    schema_supported := not_ne_iff.mp supported.down
    generation_range := ⟨not_lt.mp generation.property, not_lt.mp maximum.down⟩
    runtimeVersion_pos := not_lt.mp runtimeVersion.property
    manifestProtocolVersion_pos := not_lt.mp manifestProtocolVersion.property }

/-- `if mode not in ALLOWED_MODES: raise` -/
def requireMode (item : String) (mode : Json) : Except Raised Mode := do
  raiseIf mode.unhashable .typeError
  orRaise (mode.str?.bind Mode.ofText) (.descriptor item "mode must be one of" ["0644", "0755"])

def readFile (label : String) (seen : Distinct FileEntry.pathText) (raw : Json) :
    Except Raised {entry : FileEntry // entry.pathText ∉ seen.keys} := do
  let item := label ++ ": files[" ++ toString seen.items.length ++ "]"
  let fields ← orRaise raw.obj? (.descriptor item "must be an object with exactly" fileKeys)
  raiseIf (¬Json.hasKeys fields fileKeys)
    (.descriptor item "must be an object with exactly" fileKeys)
  let path ← validateRelativePath (Json.lookup fields "path") (item ++ ".path") maxPathLen
  let fresh ← refuse (path.text ∈ seen.keys) (.descriptor item "duplicate path" [path.text])
  let sha256 ← orRaise (sha256? (Json.lookup fields "sha256"))
    (.descriptor item "sha256 must be exactly 64 lowercase hex characters" [])
  let mode ← requireMode item (Json.lookup fields "mode")
  let sizeBytes ← orRaise (Json.lookup fields "size_bytes").int?
    (.descriptor item "size_bytes out of range" [])
  let range ← refuse (¬(0 ≤ sizeBytes ∧ sizeBytes ≤ maxFileBytes))
    (.descriptor item "size_bytes out of range" [])
  .ok ⟨⟨path, sha256, mode, sizeBytes, not_not.mp range.down⟩, fresh.down⟩

/-- The checks that follow the loop over the files. -/
def parseBundle (hexdigest : String → String) (label : String) (head : DescriptorHead)
    (entries : Distinct FileEntry.pathText) (declared : Json) : Except Raised RuntimeDescriptor := do
  let total ← refuse (maxTotalBytes < totalBytes entries.items)
    (.descriptor label "total declared size exceeds the maximum" [toString maxTotalBytes])
  let sorted ← refuse (entries.keys ≠ entries.keys.insertionSort (· ≤ ·))
    (.descriptor label "files must be in canonical ascending path order" [])
  raiseIf (head.entrypoint.text ∉ entries.keys)
    (.descriptor label "entrypoint is not present in files" [head.entrypoint.text])
  let executable ← refuse (modeOf entries.items head.entrypoint.text ≠ some .executable)
    (.descriptor label "entrypoint must have mode 0755" [])
  let bundleSha256 ← orRaise (sha256? declared)
    (.descriptor label "bundle_sha256 must be exactly 64 lowercase hex characters" [])
  raiseIf (bundleSha256.text ≠ computeBundleSha256 hexdigest entries.items)
    (.descriptor label "bundle_sha256 does not match the recomputed digest" [])
  .ok {
    toDescriptorHead := head
    files := entries.items
    bundleSha256 := bundleSha256
    total_bounded := not_lt.mp total.down
    files_increasing := pairwise_lt_iff.mpr ⟨entries.distinct, not_ne_iff.mp sorted.down⟩
    entry_executable := not_ne_iff.mp executable.down }

def parseDescriptorDict (hexdigest : String → String) (label : String) (data : Json) :
    Except Raised RuntimeDescriptor := do
  let items ← orRaise data.obj? (.descriptor label "descriptor must be a JSON object" [])
  let head ← parseHead label items
  let rawFiles ← orRaise (Json.lookup items "files").list?
    (.descriptor label "files must be a non-empty list" [])
  raiseIf (rawFiles = []) (.descriptor label "files must be a non-empty list" [])
  raiseIf (maxFiles < rawFiles.length)
    (.descriptor label "files exceeds the maximum number of entries" [toString maxFiles])
  let entries ← Distinct.collect (readFile label) .empty rawFiles
  parseBundle hexdigest label head entries (Json.lookup items "bundle_sha256")

theorem positiveInt_eq_ok {n : {n : ℤ // ¬n < 1}} :
    positiveInt items field = .ok n ↔ Json.lookup items field = .int n.val := by
  obtain ⟨n, hn⟩ := n
  simp only [positiveInt, orRaise_bind_eq_ok, refuse_bind_eq_ok, Json.int?_eq_some,
    Except.ok.injEq, Subtype.mk.injEq, exists_prop]
  constructor
  · rintro ⟨_, h, _, rfl⟩
    exact h
  · intro h
    exact ⟨n, h, hn, rfl⟩

theorem parseHead_eq_ok : parseHead label items = .ok head ↔ SpellsHead items head := by
  simp only [parseHead, raiseIf_bind_eq_ok, orRaise_bind_eq_ok, refuse_bind_eq_ok,
    bind_eq_ok_of fun _ => positiveInt_eq_ok, bind_eq_ok_of fun _ => validateRelativePath_eq_ok,
    Json.int?_eq_some, Json.list?_eq_some, Except.ok.injEq]
  constructor
  · rintro ⟨hunknown, hmissing, _, hschema, _, _, hgeneration, _, _, hruntime, _, hprotocol, _, hwire,
      _, _, ⟨_, rfl⟩, _, _, _, _, _, hentry, rfl⟩
    exact ⟨Json.hasKeys_iff.mpr ⟨not_ne_iff.mp hunknown, not_ne_iff.mp hmissing⟩, hschema,
      hgeneration, hruntime, hprotocol, hwire, hentry⟩
  · rintro ⟨hkeys, hschema, hgeneration, hruntime, hprotocol, hwire, hentry⟩
    obtain ⟨hunknown, hmissing⟩ := Json.hasKeys_iff.mp hkeys
    have hpasses := head.supportedWireProtocols.passes
    exact ⟨not_ne_iff.mpr hunknown, not_ne_iff.mpr hmissing, head.schemaVersion, hschema,
      not_ne_iff.mpr head.schema_supported, ⟨head.generation, not_lt.mpr head.generation_range.1⟩,
      hgeneration, not_lt.mpr head.generation_range.2,
      ⟨head.runtimeVersion, not_lt.mpr head.runtimeVersion_pos⟩, hruntime,
      ⟨head.manifestProtocolVersion, not_lt.mpr head.manifestProtocolVersion_pos⟩, hprotocol,
      _, hwire, hpasses.nonempty, hpasses.bounded, ⟨head.supportedWireProtocols.versions, rfl⟩,
      Json.ints?_eq_some, hpasses.positive, hpasses.unique, hpasses.sorted, head.entrypoint, hentry,
      rfl⟩

theorem requireMode_eq_ok : requireMode item mode = .ok m ↔ mode = .str m.text := by
  simp only [requireMode, raiseIf_bind_eq_ok, orRaise_eq_ok, Option.bind_eq_some_iff,
    Json.str?_eq_some, Mode.ofText_eq_some]
  constructor
  · rintro ⟨-, _, h, rfl⟩
    exact h
  · rintro rfl
    exact ⟨by simp [Json.unhashable], _, rfl, rfl⟩

theorem readFile_eq_ok {entry : {entry : FileEntry // entry.pathText ∉ seen.keys}} :
    readFile label seen raw = .ok entry ↔ SpellsFile raw entry.val := by
  simp only [readFile, raiseIf_bind_eq_ok, orRaise_bind_eq_ok, refuse_bind_eq_ok,
    bind_eq_ok_of fun _ => validateRelativePath_eq_ok, bind_eq_ok_of fun _ => requireMode_eq_ok,
    sha256?_eq_some, Json.int?_eq_some, Json.obj?_eq_some, Except.ok.injEq]
  constructor
  · rintro ⟨fields, rfl, hkeys, _, hpath, _, _, hsha, _, hmode, _, hsize, _, rfl⟩
    exact ⟨fields, rfl, ⟨not_not.mp hkeys, hpath, hsha⟩, hmode, hsize⟩
  · rintro ⟨fields, rfl, ⟨hkeys, hpath, hsha⟩, hmode, hsize⟩
    exact ⟨fields, rfl, not_not.mpr hkeys, _, hpath, entry.property, _, hsha, _, hmode, _, hsize,
      not_not.mpr entry.val.size_range, rfl⟩

theorem readFiles_eq_ok :
    Distinct.collect (readFile label) .empty raws = .ok entries ↔
      List.Forall₂ SpellsFile raws entries.items :=
  Distinct.collect_empty_eq_ok fun _ _ _ => readFile_eq_ok

theorem parseBundle_eq_ok :
    parseBundle hexdigest label head entries declared = .ok d ↔
      d.toDescriptorHead = head ∧ d.files = entries.items ∧ declared = .str d.bundleSha256.text ∧
        d.bundleSha256.text = computeBundleSha256 hexdigest d.files := by
  simp only [parseBundle, raiseIf_bind_eq_ok, orRaise_bind_eq_ok, refuse_bind_eq_ok,
    sha256?_eq_some, Except.ok.injEq]
  constructor
  · rintro ⟨_, _, _, _, sha, hdeclared, hdigest, rfl⟩
    exact ⟨rfl, rfl, hdeclared, not_ne_iff.mp hdigest⟩
  · rintro ⟨rfl, hfiles, hdeclared, hdigest⟩
    obtain ⟨head, files, sha, htotal, hincreasing, hexecutable⟩ := d
    obtain ⟨items, hdistinct⟩ := entries
    cases hfiles
    exact ⟨not_lt.mpr htotal, not_ne_iff.mpr (pairwise_lt_iff.mp hincreasing).2,
      not_not.mpr (mem_of_modeOf hexecutable), not_ne_iff.mpr hexecutable, sha, hdeclared,
      not_ne_iff.mpr hdigest, rfl⟩

theorem parseDescriptorDict_eq_ok :
    parseDescriptorDict hexdigest label data = .ok d ↔ SpellsDescriptor hexdigest data d := by
  simp only [parseDescriptorDict, raiseIf_bind_eq_ok, orRaise_bind_eq_ok,
    bind_eq_ok_of fun _ => parseHead_eq_ok, bind_eq_ok_of fun _ => readFiles_eq_ok, Json.obj?_eq_some,
    Json.list?_eq_some, parseBundle_eq_ok]
  constructor
  · rintro ⟨items, rfl, head, hhead, raws, hraws, hne, hbound, entries, hfiles, rfl, hentries,
      hdeclared, hdigest⟩
    exact ⟨items, raws, rfl, hhead, hraws, hne, not_lt.mp hbound, hentries ▸ hfiles, hdeclared,
      hdigest⟩
  · rintro ⟨items, raws, rfl, hhead, hraws, hne, hbound, hfiles, hdeclared, hdigest⟩
    exact ⟨items, rfl, d.toDescriptorHead, hhead, raws, hraws, hne, not_lt.mpr hbound,
      ⟨d.files, (pairwise_lt_iff.mp d.files_increasing).1⟩, hfiles, rfl, rfl, hdeclared, hdigest⟩

theorem positiveInt_raises (items : List (String × Json)) (field : String) :
    Raises Raised.IsDescriptorError (positiveInt items field) := by
  unfold positiveInt
  apply Raises.bind
  · exact .orRaise trivial
  intro value
  apply Raises.bind
  · exact .refuse trivial
  intro positive
  apply Raises.ok

theorem parseHead_raises (label : String) (items : List (String × Json)) :
    Raises Raised.IsDescriptorError (parseHead label items) := by
  unfold parseHead
  repeat
    apply Raises.bind
    · first
      | exact .raiseIf trivial
      | exact .orRaise trivial
      | exact .refuse trivial
      | exact positiveInt_raises _ _
      | exact validateRelativePath_raises _ _ _
    intro _
  apply Raises.ok

theorem parseBundle_raises (hexdigest : String → String) (label : String) (head : DescriptorHead)
    (entries : Distinct FileEntry.pathText) (declared : Json) :
    Raises Raised.IsDescriptorError (parseBundle hexdigest label head entries declared) := by
  unfold parseBundle
  repeat
    apply Raises.bind
    · first
      | exact .raiseIf trivial
      | exact .orRaise trivial
      | exact .refuse trivial
    intro _
  apply Raises.ok

theorem requireMode_eq_error :
    requireMode item mode = .error e ↔
      mode.unhashable ∧ e = .typeError ∨
        ¬mode.unhashable ∧ mode.str?.bind Mode.ofText = none ∧
          e = .descriptor item "mode must be one of" ["0644", "0755"] := by
  simp only [requireMode, bind_eq_error, raiseIf_eq_error, raiseIf_eq_ok, orRaise_eq_error]
  constructor
  · rintro (⟨h, rfl⟩ | ⟨_, h, hnone, rfl⟩)
    · exact .inl ⟨h, rfl⟩
    · exact .inr ⟨h, hnone, rfl⟩
  · rintro (⟨h, rfl⟩ | ⟨h, hnone, rfl⟩)
    · exact .inl ⟨h, rfl⟩
    · exact .inr ⟨(), h, hnone, rfl⟩

theorem readFile_hasUnhashableMode
    (he : ¬e.IsDescriptorError)
    (h : readFile label seen raw = .error e) : e = .typeError ∧ HasUnhashableMode seen.keys raw := by
  unfold readFile at h
  obtain ⟨fields, hfields, h⟩ := Raises.passes (.orRaise trivial) he h
  obtain ⟨_, hkeys, h⟩ := Raises.passes (.raiseIf trivial) he h
  obtain ⟨path, hpath, h⟩ := Raises.passes (validateRelativePath_raises _ _ _) he h
  obtain ⟨hfresh, -, h⟩ := Raises.passes (.refuse trivial) he h
  obtain ⟨sha256, hsha, h⟩ := Raises.passes (.orRaise trivial) he h
  rcases bind_eq_error.mp h with hmode | ⟨mode, -, h⟩
  · rcases requireMode_eq_error.mp hmode with ⟨hunhashable, rfl⟩ | ⟨-, -, rfl⟩
    · refine ⟨rfl, fields, path, sha256, ?_, ⟨?_, ?_, ?_⟩, hfresh.down, hunhashable⟩
      · exact Json.obj?_eq_some.mp (orRaise_eq_ok.mp hfields)
      · exact not_not.mp (raiseIf_eq_ok.mp hkeys)
      · exact validateRelativePath_eq_ok.mp hpath
      · exact sha256?_eq_some.mp (orRaise_eq_ok.mp hsha)
    · exact absurd trivial he
  · obtain ⟨sizeBytes, -, h⟩ := Raises.passes (.orRaise trivial) he h
    obtain ⟨_, -, h⟩ := Raises.passes (.refuse trivial) he h
    cases h

theorem readFile_eq_typeError :
    readFile label seen raw = .error .typeError ↔ HasUnhashableMode seen.keys raw := by
  constructor
  · intro h
    have hother : ¬Raised.IsDescriptorError .typeError := id
    exact (readFile_hasUnhashableMode hother h).2
  · rintro ⟨fields, path, sha256, rfl, ⟨hkeys, hpath, hsha⟩, hfresh, hunhashable⟩
    simp only [readFile, bind_eq_error]
    exact .inr ⟨fields, rfl, .inr ⟨(), raiseIf_eq_ok.mpr (not_not.mpr hkeys), .inr ⟨path,
      validateRelativePath_eq_ok.mpr hpath, .inr ⟨⟨hfresh⟩, refuse_eq_ok.mpr hfresh, .inr ⟨sha256,
      orRaise_eq_ok.mpr (sha256?_eq_some.mpr hsha),
      .inl (requireMode_eq_error.mpr (.inl ⟨hunhashable, rfl⟩))⟩⟩⟩⟩⟩

/-- An error of the parser that is not the declared one is the missing hash of a mode. -/
theorem parseDescriptorDict_reaches (he : ¬e.IsDescriptorError)
    (h : parseDescriptorDict hexdigest label data = .error e) : ReachesUnhashableMode data := by
  unfold parseDescriptorDict at h
  obtain ⟨items, hitems, h⟩ := Raises.passes (.orRaise trivial) he h
  obtain ⟨head, hhead, h⟩ := Raises.passes (parseHead_raises _ _) he h
  obtain ⟨rawFiles, hraws, h⟩ := Raises.passes (.orRaise trivial) he h
  obtain ⟨_, -, h⟩ := Raises.passes (.raiseIf trivial) he h
  obtain ⟨_, hbound, h⟩ := Raises.passes (.raiseIf trivial) he h
  rcases bind_eq_error.mp h with hloop | ⟨entries, -, h⟩
  · obtain ⟨before, raw, after, gathered, rfl, hbefore, hraw⟩ := Distinct.collect_eq_error.mp hloop
    obtain ⟨-, hunhashable⟩ := readFile_hasUnhashableMode he hraw
    exact ⟨items, head, before, raw, after, gathered,
      Json.obj?_eq_some.mp (orRaise_eq_ok.mp hitems), parseHead_eq_ok.mp hhead,
      Json.list?_eq_some.mp (orRaise_eq_ok.mp hraws), not_lt.mp (raiseIf_eq_ok.mp hbound),
      readFiles_eq_ok.mp hbefore, hunhashable⟩
  · exact absurd (parseBundle_raises _ _ _ _ _ e h) he

theorem parseDescriptorDict_of_reaches (h : ReachesUnhashableMode data) :
    parseDescriptorDict hexdigest label data = .error .typeError := by
  obtain ⟨items, head, before, raw, after, entries, rfl, hhead, hraws, hbound, hbefore, hraw⟩ := h
  have hloop : Distinct.collect (readFile label) .empty (before ++ raw :: after) =
      .error .typeError :=
    Distinct.collect_eq_error.mpr ⟨before, raw, after, entries, rfl, readFiles_eq_ok.mpr hbefore,
      readFile_eq_typeError.mpr hraw⟩
  simp only [parseDescriptorDict, bind_eq_error]
  exact .inr ⟨items, rfl, .inr ⟨head, parseHead_eq_ok.mpr hhead, .inr ⟨_, orRaise_eq_ok.mpr
    (Json.list?_eq_some.mpr hraws), .inr ⟨(), raiseIf_eq_ok.mpr (by simp), .inr ⟨(),
    raiseIf_eq_ok.mpr (not_lt.mpr hbound), .inl hloop⟩⟩⟩⟩⟩

/-- The declared error is the only one exactly when no mode without a hash is reached. -/
theorem parseDescriptorDict_raises :
    Raises Raised.IsDescriptorError (parseDescriptorDict hexdigest label data) ↔
      ¬ReachesUnhashableMode data := by
  constructor
  · intro h hreaches
    exact h _ (parseDescriptorDict_of_reaches hreaches)
  · intro h e he
    by_contra hother
    exact h (parseDescriptorDict_reaches hother he)

end Bootstrap

/-! ## The worker's copy -/

namespace Worker

def requireInt (value : Json) (field : String) : Except Raised ℤ :=
  orRaise value.int? (.descriptor field "must be an integer" [])

def parseHead (label : String) (items : List (String × Json)) : Except Raised DescriptorHead := do
  raiseIf (Json.unknownKeys items topKeys ≠ [])
    (.descriptor label "unrecognized field(s)" (Json.unknownKeys items topKeys))
  raiseIf (Json.missingKeys items topKeys ≠ [])
    (.descriptor label "missing required field(s)" (Json.missingKeys items topKeys))
  let schemaVersion ← requireInt (Json.lookup items "schema_version") "schema_version"
  let supported ← refuse (schemaVersion ≠ supportedSchemaVersion)
    (.descriptor label "unsupported schema_version"
      [toString schemaVersion, toString supportedSchemaVersion])
  let generation ← requireInt (Json.lookup items "generation") "generation"
  let range ← refuse (¬(1 ≤ generation ∧ generation ≤ maxGeneration))
    (.descriptor label "generation must be between 1 and the maximum" [toString maxGeneration])
  let runtimeVersion ← requireInt (Json.lookup items "runtime_version") "runtime_version"
  let runtimePositive ← refuse (runtimeVersion < 1)
    (.descriptor label "runtime_version must be a positive integer" [])
  let manifestProtocolVersion ← requireInt (Json.lookup items "manifest_protocol_version")
    "manifest_protocol_version"
  let manifestPositive ← refuse (manifestProtocolVersion < 1)
    (.descriptor label "manifest_protocol_version must be a positive integer" [])
  let wire ← orRaise (Json.lookup items "supported_wire_protocols").list?
    (.descriptor label "supported_wire_protocols must be a non-empty list" [])
  let nonempty ← refuse (wire = [])
    (.descriptor label "supported_wire_protocols must be a non-empty list" [])
  let bounded ← refuse (maxWireProtocols < wire.length)
    (.descriptor label "supported_wire_protocols exceeds the maximum number of entries"
      [toString maxWireProtocols])
  let versions ← orRaise (Json.ints? wire)
    (.descriptor label "supported_wire_protocols must contain only positive integers" [])
  let positive ← refuse (∃ v ∈ versions.val, v < 1)
    (.descriptor label "supported_wire_protocols must contain only positive integers" [])
  let unique ← refuse (¬versions.val.Nodup)
    (.descriptor label "supported_wire_protocols contains a duplicate" [])
  let sorted ← refuse (versions.val ≠ versions.val.insertionSort (· ≤ ·))
    (.descriptor label "supported_wire_protocols must be in canonical ascending order" [])
  let entrypoint ← validateRelativePath (Json.lookup items "entrypoint") "entrypoint"
    maxEntrypointLen
  .ok {
    schemaVersion := schemaVersion
    generation := generation
    runtimeVersion := runtimeVersion
    manifestProtocolVersion := manifestProtocolVersion
    supportedWireProtocols := .ofChecked versions nonempty.down bounded.down positive.down
      unique.down sorted.down
    entrypoint := entrypoint
    schema_supported := not_ne_iff.mp supported.down
    generation_range := not_not.mp range.down
    runtimeVersion_pos := not_lt.mp runtimePositive.down
    manifestProtocolVersion_pos := not_lt.mp manifestPositive.down }

/-- `MODE_RE.match(mode)` -/
def isOctalMode (mode : String) : Bool :=
  match matchedText mode with
  | ['0', a, b, c] => [a, b, c].all fun digit => '0' ≤ digit ∧ digit ≤ '7'
  | _ => false

/-- `isinstance(mode, str)` is asked before `ALLOWED_MODES` is. -/
def requireMode (item : String) (mode : Json) : Except Raised Mode := do
  let text ← orRaise mode.str? (.descriptor item "mode must be one of" ["0644", "0755"])
  raiseIf (¬isOctalMode text) (.descriptor item "mode must be one of" ["0644", "0755"])
  orRaise (Mode.ofText text) (.descriptor item "mode must be one of" ["0644", "0755"])

def readFile (label : String) (seen : Distinct FileEntry.pathText) (raw : Json) :
    Except Raised {entry : FileEntry // entry.pathText ∉ seen.keys} := do
  let item := label ++ ": files[" ++ toString seen.items.length ++ "]"
  let fields ← orRaise raw.obj? (.descriptor item "must be a JSON object" [])
  raiseIf (Json.unknownKeys fields fileKeys ≠ [])
    (.descriptor item "unrecognized field(s)" (Json.unknownKeys fields fileKeys))
  raiseIf (Json.missingKeys fields fileKeys ≠ [])
    (.descriptor item "missing field(s)" (Json.missingKeys fields fileKeys))
  let path ← validateRelativePath (Json.lookup fields "path") (item ++ ".path") maxPathLen
  let fresh ← refuse (path.text ∈ seen.keys) (.descriptor item "duplicate path" [path.text])
  let sha256 ← orRaise (sha256? (Json.lookup fields "sha256"))
    (.descriptor item "sha256 must be exactly 64 lowercase hex characters" [])
  let mode ← requireMode item (Json.lookup fields "mode")
  let sizeBytes ← requireInt (Json.lookup fields "size_bytes") (item ++ ".size_bytes")
  let range ← refuse (¬(0 ≤ sizeBytes ∧ sizeBytes ≤ maxFileBytes))
    (.descriptor item "size_bytes must be between 0 and the maximum" [toString maxFileBytes])
  .ok ⟨⟨path, sha256, mode, sizeBytes, not_not.mp range.down⟩, fresh.down⟩

/-- The checks that follow the loop over the files. -/
def parseBundle (hexdigest : String → String) (label : String) (head : DescriptorHead)
    (entries : Distinct FileEntry.pathText) (declared : Json) : Except Raised RuntimeDescriptor := do
  let total ← refuse (maxTotalBytes < totalBytes entries.items)
    (.descriptor label "total declared file size exceeds the maximum" [toString maxTotalBytes])
  let sorted ← refuse (entries.keys ≠ entries.keys.insertionSort (· ≤ ·))
    (.descriptor label "files must be listed in canonical ascending path order" [])
  raiseIf (head.entrypoint.text ∉ entries.keys)
    (.descriptor label "entrypoint is not present in files" [head.entrypoint.text])
  let executable ← refuse (modeOf entries.items head.entrypoint.text ≠ some .executable)
    (.descriptor label "entrypoint must have mode 0755" (head.entrypoint.text ::
      ((modeOf entries.items head.entrypoint.text).map Mode.text).toList))
  let bundleSha256 ← orRaise (sha256? declared)
    (.descriptor label "bundle_sha256 must be exactly 64 lowercase hex characters" [])
  raiseIf (bundleSha256.text ≠ computeBundleSha256 hexdigest entries.items)
    (.descriptor label
      "bundle_sha256 does not match the recomputed digest of the declared files" [])
  .ok {
    toDescriptorHead := head
    files := entries.items
    bundleSha256 := bundleSha256
    total_bounded := not_lt.mp total.down
    files_increasing := pairwise_lt_iff.mpr ⟨entries.distinct, not_ne_iff.mp sorted.down⟩
    entry_executable := not_ne_iff.mp executable.down }

def parseDescriptorDict (hexdigest : String → String) (label : String) (data : Json) :
    Except Raised RuntimeDescriptor := do
  let items ← orRaise data.obj? (.descriptor label "descriptor must be a JSON object" [])
  let head ← parseHead label items
  let rawFiles ← orRaise (Json.lookup items "files").list?
    (.descriptor label "files must be a list" [])
  raiseIf (rawFiles = []) (.descriptor label "files must not be empty" [])
  raiseIf (maxFiles < rawFiles.length)
    (.descriptor label "files exceeds the maximum number of entries" [toString maxFiles])
  let entries ← Distinct.collect (readFile label) .empty rawFiles
  parseBundle hexdigest label head entries (Json.lookup items "bundle_sha256")

theorem requireInt_bind_eq_ok {β : Type} {value : Json} {f : ℤ → Except Raised β} {b : β} :
    (requireInt value field >>= f) = .ok b ↔ ∃ n, value = .int n ∧ f n = .ok b := by
  simp only [requireInt, orRaise_bind_eq_ok, Json.int?_eq_some]

theorem parseHead_eq_ok : parseHead label items = .ok head ↔ SpellsHead items head := by
  simp only [parseHead, raiseIf_bind_eq_ok, orRaise_bind_eq_ok, refuse_bind_eq_ok,
    requireInt_bind_eq_ok, bind_eq_ok_of fun _ => validateRelativePath_eq_ok,
    Json.list?_eq_some, Except.ok.injEq]
  constructor
  · rintro ⟨hunknown, hmissing, _, hschema, _, _, hgeneration, _, _, hruntime, _, _, hprotocol, _, _,
      hwire, _, _, ⟨_, rfl⟩, _, _, _, _, _, hentry, rfl⟩
    exact ⟨Json.hasKeys_iff.mpr ⟨not_ne_iff.mp hunknown, not_ne_iff.mp hmissing⟩, hschema,
      hgeneration, hruntime, hprotocol, hwire, hentry⟩
  · rintro ⟨hkeys, hschema, hgeneration, hruntime, hprotocol, hwire, hentry⟩
    obtain ⟨hunknown, hmissing⟩ := Json.hasKeys_iff.mp hkeys
    have hpasses := head.supportedWireProtocols.passes
    exact ⟨not_ne_iff.mpr hunknown, not_ne_iff.mpr hmissing, head.schemaVersion, hschema,
      not_ne_iff.mpr head.schema_supported, head.generation, hgeneration,
      not_not.mpr head.generation_range, head.runtimeVersion, hruntime,
      not_lt.mpr head.runtimeVersion_pos, head.manifestProtocolVersion, hprotocol,
      not_lt.mpr head.manifestProtocolVersion_pos, _, hwire, hpasses.nonempty, hpasses.bounded,
      ⟨head.supportedWireProtocols.versions, rfl⟩, Json.ints?_eq_some, hpasses.positive,
      hpasses.unique, hpasses.sorted, head.entrypoint, hentry, rfl⟩

/-- `MODE_RE` asks nothing that `ALLOWED_MODES` does not. -/
theorem isOctalMode_text (m : Mode) : isOctalMode m.text := by
  cases m <;> decide

theorem requireMode_eq_ok : requireMode item mode = .ok m ↔ mode = .str m.text := by
  simp only [requireMode, orRaise_bind_eq_ok, raiseIf_bind_eq_ok, orRaise_eq_ok,
    Json.str?_eq_some, Mode.ofText_eq_some]
  constructor
  · rintro ⟨_, h, -, rfl⟩
    exact h
  · rintro rfl
    exact ⟨_, rfl, not_not.mpr (isOctalMode_text m), rfl⟩

theorem readFile_eq_ok {entry : {entry : FileEntry // entry.pathText ∉ seen.keys}} :
    readFile label seen raw = .ok entry ↔ SpellsFile raw entry.val := by
  simp only [readFile, raiseIf_bind_eq_ok, orRaise_bind_eq_ok, refuse_bind_eq_ok,
    requireInt_bind_eq_ok, bind_eq_ok_of fun _ => validateRelativePath_eq_ok,
    bind_eq_ok_of fun _ => requireMode_eq_ok, sha256?_eq_some, Json.obj?_eq_some,
    Except.ok.injEq]
  constructor
  · rintro ⟨fields, rfl, hunknown, hmissing, _, hpath, _, _, hsha, _, hmode, _, hsize, _, rfl⟩
    exact ⟨fields, rfl, ⟨Json.hasKeys_iff.mpr ⟨not_ne_iff.mp hunknown, not_ne_iff.mp hmissing⟩,
      hpath, hsha⟩, hmode, hsize⟩
  · rintro ⟨fields, rfl, ⟨hkeys, hpath, hsha⟩, hmode, hsize⟩
    obtain ⟨hunknown, hmissing⟩ := Json.hasKeys_iff.mp hkeys
    exact ⟨fields, rfl, not_ne_iff.mpr hunknown, not_ne_iff.mpr hmissing, _, hpath, entry.property,
      _, hsha, _, hmode, _, hsize, not_not.mpr entry.val.size_range, rfl⟩

theorem readFiles_eq_ok :
    Distinct.collect (readFile label) .empty raws = .ok entries ↔
      List.Forall₂ SpellsFile raws entries.items :=
  Distinct.collect_empty_eq_ok fun _ _ _ => readFile_eq_ok

theorem parseBundle_eq_ok :
    parseBundle hexdigest label head entries declared = .ok d ↔
      d.toDescriptorHead = head ∧ d.files = entries.items ∧ declared = .str d.bundleSha256.text ∧
        d.bundleSha256.text = computeBundleSha256 hexdigest d.files := by
  simp only [parseBundle, raiseIf_bind_eq_ok, orRaise_bind_eq_ok, refuse_bind_eq_ok,
    sha256?_eq_some, Except.ok.injEq]
  constructor
  · rintro ⟨_, _, _, _, sha, hdeclared, hdigest, rfl⟩
    exact ⟨rfl, rfl, hdeclared, not_ne_iff.mp hdigest⟩
  · rintro ⟨rfl, hfiles, hdeclared, hdigest⟩
    obtain ⟨head, files, sha, htotal, hincreasing, hexecutable⟩ := d
    obtain ⟨items, hdistinct⟩ := entries
    cases hfiles
    exact ⟨not_lt.mpr htotal, not_ne_iff.mpr (pairwise_lt_iff.mp hincreasing).2,
      not_not.mpr (mem_of_modeOf hexecutable), not_ne_iff.mpr hexecutable, sha, hdeclared,
      not_ne_iff.mpr hdigest, rfl⟩

theorem parseDescriptorDict_eq_ok :
    parseDescriptorDict hexdigest label data = .ok d ↔ SpellsDescriptor hexdigest data d := by
  simp only [parseDescriptorDict, raiseIf_bind_eq_ok, orRaise_bind_eq_ok,
    bind_eq_ok_of fun _ => parseHead_eq_ok, bind_eq_ok_of fun _ => readFiles_eq_ok, Json.obj?_eq_some,
    Json.list?_eq_some, parseBundle_eq_ok]
  constructor
  · rintro ⟨items, rfl, head, hhead, raws, hraws, hne, hbound, entries, hfiles, rfl, hentries,
      hdeclared, hdigest⟩
    exact ⟨items, raws, rfl, hhead, hraws, hne, not_lt.mp hbound, hentries ▸ hfiles, hdeclared,
      hdigest⟩
  · rintro ⟨items, raws, rfl, hhead, hraws, hne, hbound, hfiles, hdeclared, hdigest⟩
    exact ⟨items, rfl, d.toDescriptorHead, hhead, raws, hraws, hne, not_lt.mpr hbound,
      ⟨d.files, (pairwise_lt_iff.mp d.files_increasing).1⟩, hfiles, rfl, rfl, hdeclared, hdigest⟩

theorem parseHead_raises (label : String) (items : List (String × Json)) :
    Raises Raised.IsDescriptorError (parseHead label items) := by
  unfold parseHead requireInt
  repeat
    apply Raises.bind
    · first
      | exact .raiseIf trivial
      | exact .orRaise trivial
      | exact .refuse trivial
      | exact validateRelativePath_raises _ _ _
    intro _
  apply Raises.ok

theorem readFile_raises (label : String) (seen : Distinct FileEntry.pathText) (raw : Json) :
    Raises Raised.IsDescriptorError (readFile label seen raw) := by
  have hmode : ∀ item mode, Raises Raised.IsDescriptorError (requireMode item mode) := by
    intro item mode
    unfold requireMode
    repeat
      apply Raises.bind
      · first
        | exact .raiseIf trivial
        | exact .orRaise trivial
      intro _
    exact .orRaise trivial
  unfold readFile requireInt
  repeat
    apply Raises.bind
    · first
      | exact .raiseIf trivial
      | exact .orRaise trivial
      | exact .refuse trivial
      | exact validateRelativePath_raises _ _ _
      | exact hmode _ _
    intro _
  apply Raises.ok

theorem parseBundle_raises (hexdigest : String → String) (label : String) (head : DescriptorHead)
    (entries : Distinct FileEntry.pathText) (declared : Json) :
    Raises Raised.IsDescriptorError (parseBundle hexdigest label head entries declared) := by
  unfold parseBundle
  repeat
    apply Raises.bind
    · first
      | exact .raiseIf trivial
      | exact .orRaise trivial
      | exact .refuse trivial
    intro _
  apply Raises.ok

/-- The declared error is the only one. -/
theorem parseDescriptorDict_raises (hexdigest : String → String) (label : String) (data : Json) :
    Raises Raised.IsDescriptorError (parseDescriptorDict hexdigest label data) := by
  unfold parseDescriptorDict
  repeat
    apply Raises.bind
    · first
      | exact .raiseIf trivial
      | exact .orRaise trivial
      | exact parseHead_raises _ _
      | exact Distinct.collect_raises (readFile_raises label)
    intro _
  apply parseBundle_raises

end Worker

end IsadoraAir.Bundle
