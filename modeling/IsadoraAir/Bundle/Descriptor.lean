import IsadoraAir.Foundation.Checks
import IsadoraAir.Supervisor.State
import Mathlib.Algebra.BigOperators.Group.List.Basic

/-!
# Bundle documents

Paths and errors that both validators share, and runtime descriptors.
-/

/-!
## Paths and errors of the bundle documents

The supervisor and the worker keep separate copies of the validators of a
runtime descriptor and of a trust policy. What both copies write in the same
words is stated once here.
-/

namespace IsadoraAir.Bundle

open Supervisor (isSha256)

variable {value : Json} {field : String} {maxLen : ℕ}

/-- What a validator raises: its declared error, as the subject and the text of
the message with the values shown in it, or an error of the interpreter. -/
inductive Raised where
  | descriptor (subject text : String) (shown : List String)
  | trustPolicy (subject text : String) (shown : List String)
  | typeError
  | osError
  deriving DecidableEq, Repr

namespace Raised

/-- `isinstance(error, DescriptorError)` -/
def IsDescriptorError : Raised → Prop
  | descriptor .. => True
  | _ => False

/-- `isinstance(error, TrustPolicyError)` -/
def IsTrustPolicyError : Raised → Prop
  | trustPolicy .. => True
  | _ => False

end Raised

/-! ### Relative paths -/

/-- Looking for a character in a text walks the text, not the characters there are. -/
instance decidableExistsInText (text : List Char) (p : Char → Prop) [DecidablePred p] :
    Decidable (∃ c ∈ text, p c) :=
  List.decidableBEx p text

def maxPathLen : ℕ := 255

/-- `value.split("/")` -/
def pathSegments (value : String) : List String :=
  (value.toList.splitOn '/').map String.ofList

/-- What `^...$` is matched against: `$` also stands before a final newline. -/
def matchedText (s : String) : List Char :=
  if s.toList.getLast? = some '\n' then s.toList.dropLast else s.toList

def isWordChar (c : Char) : Bool :=
  ('A' ≤ c ∧ c ≤ 'Z') ∨ ('a' ≤ c ∧ c ≤ 'z') ∨ ('0' ≤ c ∧ c ≤ '9') ∨ c = '_'

/-- `_PATH_SEGMENT_RE.match(segment)` -/
def isPathSegment (segment : String) : Bool :=
  match matchedText segment with
  | [] => false
  | first :: rest => isWordChar first ∧ rest.all fun c => isWordChar c ∨ c = '.' ∨ c = '-'

structure IsRelativePath (maxLen : ℕ) (value : String) : Prop where
  nonempty : ¬value = ""
  bounded : ¬maxLen < value.toList.length
  forward : ¬ '\\' ∈ value.toList
  printable : ¬∃ c ∈ value.toList, c.toNat < 0x20 ∨ c.toNat = 0x7f
  inner : ¬(value.toList.head? = some '/' ∨ value.toList.getLast? = some '/')
  plain : ¬∃ segment ∈ pathSegments value, segment ∈ ["", ".", ".."]
  supported : ¬∃ segment ∈ pathSegments value, ¬isPathSegment segment

/-- A path that has passed the check. -/
structure RelativePath (maxLen : ℕ) where
  text : String
  safe : IsRelativePath maxLen text

/-- The checks of a text. -/
def checkRelativePath (text field : String) (maxLen : ℕ) :
    Except Raised (PLift (IsRelativePath maxLen text)) := do
  let nonempty ← refuse (text = "") (.descriptor field "must be a non-empty string" [])
  let bounded ← refuse (maxLen < text.toList.length)
    (.descriptor field "exceeds the maximum number of characters" [toString maxLen])
  let forward ← refuse ('\\' ∈ text.toList)
    (.descriptor field "backslashes are not a supported path separator" [])
  let printable ← refuse (∃ c ∈ text.toList, c.toNat < 0x20 ∨ c.toNat = 0x7f)
    (.descriptor field "contains a control character" [])
  let inner ← refuse (text.toList.head? = some '/' ∨ text.toList.getLast? = some '/')
    (.descriptor field "must be a relative path with no leading/trailing slash" [])
  let plain ← refuse (∃ segment ∈ pathSegments text, segment ∈ ["", ".", ".."])
    (.descriptor field "contains an empty, '.', or '..' path segment" [])
  let supported ← refuse (∃ segment ∈ pathSegments text, ¬isPathSegment segment)
    (.descriptor field "path segment contains an unsupported character"
      ((pathSegments text).find? fun segment => !isPathSegment segment).toList)
  .ok ⟨nonempty.down, bounded.down, forward.down, printable.down, inner.down, plain.down,
    supported.down⟩

def validateRelativePath (value : Json) (field : String) (maxLen : ℕ) :
    Except Raised (RelativePath maxLen) := do
  let text ← orRaise value.str? (.descriptor field "must be a non-empty string" [])
  let safe ← checkRelativePath text field maxLen
  .ok ⟨text, safe.down⟩

theorem checkRelativePath_eq_ok {text : String}
    (safe : IsRelativePath maxLen text) : checkRelativePath text field maxLen = .ok ⟨safe⟩ := by
  unfold checkRelativePath
  apply refuse_bind_eq_ok.mpr ⟨safe.nonempty, ?_⟩
  apply refuse_bind_eq_ok.mpr ⟨safe.bounded, ?_⟩
  apply refuse_bind_eq_ok.mpr ⟨safe.forward, ?_⟩
  apply refuse_bind_eq_ok.mpr ⟨safe.printable, ?_⟩
  apply refuse_bind_eq_ok.mpr ⟨safe.inner, ?_⟩
  apply refuse_bind_eq_ok.mpr ⟨safe.plain, ?_⟩
  exact refuse_bind_eq_ok.mpr ⟨safe.supported, rfl⟩

theorem checkRelativePath_raises (text field : String) (maxLen : ℕ) :
    Raises Raised.IsDescriptorError (checkRelativePath text field maxLen) := by
  unfold checkRelativePath
  repeat
    apply Raises.bind
    · exact .refuse trivial
    intro _
  apply Raises.ok

/-- The checks stop exactly at the texts that are no relative path. -/
theorem checkRelativePath_eq_error {text : String} :
    (∃ e, checkRelativePath text field maxLen = .error e) ↔ ¬IsRelativePath maxLen text := by
  constructor
  · rintro ⟨e, he⟩ safe
    rw [checkRelativePath_eq_ok safe] at he
    cases he
  · intro hname
    cases h : checkRelativePath text field maxLen with
    | error e => exact ⟨e, rfl⟩
    | ok safe => exact absurd safe.down hname

theorem validateRelativePath_eq_ok
    {path : RelativePath maxLen} :
    validateRelativePath value field maxLen = .ok path ↔ value = .str path.text := by
  simp only [validateRelativePath, orRaise_bind_eq_ok, Json.str?_eq_some]
  constructor
  · rintro ⟨text, htext, hcheck⟩
    obtain ⟨safe, -, hpath⟩ := bind_eq_ok.mp hcheck
    cases hpath
    exact htext
  · intro h
    exact ⟨path.text, h, bind_eq_ok.mpr ⟨⟨path.safe⟩, checkRelativePath_eq_ok path.safe, rfl⟩⟩

theorem validateRelativePath_raises (value : Json) (field : String) (maxLen : ℕ) :
    Raises Raised.IsDescriptorError (validateRelativePath value field maxLen) := by
  unfold validateRelativePath
  apply Raises.bind
  · exact .orRaise trivial
  intro text
  apply Raises.bind
  · exact checkRelativePath_raises text field maxLen
  intro safe
  apply Raises.ok

/-! ### Digests -/

/-- A text that matches `SHA256_RE`. -/
structure Sha256 where
  text : String
  hex : isSha256 text

def sha256? : Json → Option Sha256
  | .str s => if h : isSha256 s then some ⟨s, h⟩ else none
  | _ => none

theorem sha256?_eq_some {sha : Sha256} : sha256? value = some sha ↔ value = .str sha.text := by
  obtain ⟨text, hex⟩ := sha
  cases value with
  | str s =>
    simp only [sha256?, Json.str.injEq]
    constructor
    · intro h
      split_ifs at h with hs
      cases h
      rfl
    · rintro rfl
      simp [hex]
  | _ => simp [sha256?]

/-! ### Paths of the host -/

/-- `pathlib.PurePosixPath`: the root and the parts below it. -/
structure PosixPath where
  root : String
  parts : List String
  deriving DecidableEq

namespace PosixPath

/-- Two leading slashes are a root of their own, three or more are one. -/
def rootOf (raw : List Char) : String :=
  match raw with
  | '/' :: '/' :: '/' :: _ => "/"
  | '/' :: '/' :: _ => "//"
  | '/' :: _ => "/"
  | _ => ""

/-- `Path(raw)`: empty and `.` segments are dropped. -/
def ofText (raw : String) : PosixPath where
  root := rootOf raw.toList
  parts := (pathSegments raw).filter fun part => part ≠ "" ∧ part ≠ "."

def isAbsolute (p : PosixPath) : Bool := p.root ≠ ""

/-- `str(path)` -/
def text (p : PosixPath) : String :=
  if p.root = "" ∧ p.parts = [] then "." else p.root ++ "/".intercalate p.parts

def name (p : PosixPath) : String := p.parts.getLast?.getD ""

def parent (p : PosixPath) : PosixPath := { p with parts := p.parts.dropLast }

end PosixPath

end IsadoraAir.Bundle

/-!
## Runtime descriptors

A runtime descriptor keeps what its validators promise in its type, so that a
document is accepted when it spells one whose digest is its own.
-/

namespace IsadoraAir.Bundle

variable {mode : Mode}

def maxFiles : ℕ := 256
def maxFileBytes : ℤ := 16 * 1024 * 1024
def maxTotalBytes : ℤ := 64 * 1024 * 1024
def maxGeneration : ℤ := 1000000
def maxWireProtocols : ℕ := 8
def maxEntrypointLen : ℕ := 255
def supportedSchemaVersion : ℤ := 1

/-! ### Descriptors -/

/-- `ALLOWED_MODES` -/
inductive Mode where
  | executable
  | plain
  deriving DecidableEq, Repr

namespace Mode

def text : Mode → String
  | executable => "0755"
  | plain => "0644"

def ofText (s : String) : Option Mode :=
  if s = "0755" then some executable else if s = "0644" then some plain else none

@[simp] theorem ofText_eq_some {s : String} : ofText s = some mode ↔ s = mode.text := by
  constructor
  · intro h
    unfold ofText at h
    split_ifs at h with h₁ h₂
    · cases h
      exact h₁
    · cases h
      exact h₂
  · rintro rfl
    cases mode <;> decide

end Mode

structure FileEntry where
  path : RelativePath maxPathLen
  sha256 : Sha256
  mode : Mode
  sizeBytes : ℤ
  size_range : 0 ≤ sizeBytes ∧ sizeBytes ≤ maxFileBytes

namespace FileEntry

def pathText (entry : FileEntry) : String := entry.path.text

end FileEntry

/-- Unique positive versions in ascending order. -/
structure WireProtocols where
  versions : List ℤ
  nonempty : versions ≠ []
  bounded : versions.length ≤ maxWireProtocols
  positive : ∀ v ∈ versions, 1 ≤ v
  increasing : versions.Pairwise (· < ·)

/-- The versions, once every check on the listed values has passed. -/
def WireProtocols.ofChecked {wire : List Json} (versions : {ns : List ℤ // wire = ns.map .int})
    (nonempty : ¬wire = []) (bounded : ¬maxWireProtocols < wire.length)
    (positive : ¬∃ v ∈ versions.val, v < 1) (unique : ¬¬versions.val.Nodup)
    (sorted : ¬versions.val ≠ versions.val.insertionSort (· ≤ ·)) : WireProtocols where
  versions := versions.val
  nonempty := by
    intro h
    apply nonempty
    rw [versions.property, h, List.map_nil]
  bounded := by
    rw [versions.property, List.length_map] at bounded
    omega
  positive := by
    intro v hv
    by_contra hlt
    exact positive ⟨v, hv, by omega⟩
  increasing := pairwise_lt_iff.mpr ⟨not_not.mp unique, not_ne_iff.mp sorted⟩

namespace WireProtocols

/-- What the checks find on the document of the versions. -/
structure Passes (wire : List Json) (versions : List ℤ) : Prop where
  nonempty : ¬wire = []
  bounded : ¬maxWireProtocols < wire.length
  positive : ¬∃ v ∈ versions, v < 1
  unique : ¬¬versions.Nodup
  sorted : ¬versions ≠ versions.insertionSort (· ≤ ·)

theorem passes (wire : WireProtocols) : Passes (wire.versions.map .int) wire.versions := by
  obtain ⟨hunique, hsorted⟩ := pairwise_lt_iff.mp wire.increasing
  refine ⟨?_, ?_, ?_, not_not.mpr hunique, not_ne_iff.mpr hsorted⟩
  · simpa using wire.nonempty
  · simpa using wire.bounded
  · rintro ⟨v, hv, hlt⟩
    have hpos := wire.positive v hv
    omega

end WireProtocols

/-- The fields of a descriptor that are read before its files. -/
structure DescriptorHead where
  schemaVersion : ℤ
  generation : ℤ
  runtimeVersion : ℤ
  manifestProtocolVersion : ℤ
  supportedWireProtocols : WireProtocols
  entrypoint : RelativePath maxEntrypointLen
  schema_supported : schemaVersion = supportedSchemaVersion
  generation_range : 1 ≤ generation ∧ generation ≤ maxGeneration
  runtimeVersion_pos : 1 ≤ runtimeVersion
  manifestProtocolVersion_pos : 1 ≤ manifestProtocolVersion

def totalBytes (files : List FileEntry) : ℤ := (files.map FileEntry.sizeBytes).sum

/-- `next(e.mode for e in entries if e.path == path)` -/
def modeOf (files : List FileEntry) (path : String) : Option Mode :=
  (files.find? fun entry => entry.pathText = path).map FileEntry.mode

theorem mem_of_modeOf {files : List FileEntry} {path : String}
    (h : modeOf files path = some mode) : path ∈ files.map FileEntry.pathText := by
  obtain ⟨entry, hfind, -⟩ := Option.map_eq_some_iff.mp h
  have hpath : entry.pathText = path := by simpa using List.find?_some hfind
  rw [← hpath]
  exact List.mem_map_of_mem (List.mem_of_find?_eq_some hfind)

structure RuntimeDescriptor extends DescriptorHead where
  files : List FileEntry
  bundleSha256 : Sha256
  total_bounded : totalBytes files ≤ maxTotalBytes
  files_increasing : (files.map FileEntry.pathText).Pairwise (· < ·)
  entry_executable : modeOf files entrypoint.text = some .executable

/-- The bytes that are hashed, as text: every part is ASCII. -/
def bundleText (files : List FileEntry) : String :=
  String.join (files.map fun entry =>
    entry.pathText ++ "\x00" ++ entry.sha256.text ++ "\x00" ++ entry.mode.text ++ "\x00" ++
      toString entry.sizeBytes ++ "\n")

section Documents

variable (hexdigest : String → String)

def computeBundleSha256 (files : List FileEntry) : String := hexdigest (bundleText files)

def topKeys : List String :=
  ["schema_version", "generation", "runtime_version", "manifest_protocol_version",
    "supported_wire_protocols", "entrypoint", "files", "bundle_sha256"]

def fileKeys : List String := ["mode", "path", "sha256", "size_bytes"]

/-! ### What a document spells -/

structure SpellsHead (items : List (String × Json)) (head : DescriptorHead) : Prop where
  keys : Json.hasKeys items topKeys
  schemaVersion : Json.lookup items "schema_version" = .int head.schemaVersion
  generation : Json.lookup items "generation" = .int head.generation
  runtimeVersion : Json.lookup items "runtime_version" = .int head.runtimeVersion
  manifestProtocolVersion :
    Json.lookup items "manifest_protocol_version" = .int head.manifestProtocolVersion
  wire : Json.lookup items "supported_wire_protocols" =
    .list (head.supportedWireProtocols.versions.map .int)
  entrypoint : Json.lookup items "entrypoint" = .str head.entrypoint.text

/-- The part of an entry that is read before its mode. -/
structure SpellsContent (fields : List (String × Json)) (path : RelativePath maxPathLen)
    (sha256 : Sha256) : Prop where
  keys : Json.hasKeys fields fileKeys
  path : Json.lookup fields "path" = .str path.text
  sha256 : Json.lookup fields "sha256" = .str sha256.text

structure SpellsFile (raw : Json) (entry : FileEntry) : Prop where
  content : ∃ fields, raw = .obj fields ∧ SpellsContent fields entry.path entry.sha256 ∧
    Json.lookup fields "mode" = .str entry.mode.text ∧
    Json.lookup fields "size_bytes" = .int entry.sizeBytes

/-- The document spells this descriptor, and the digest it declares is the one of its files. -/
def SpellsDescriptor (data : Json) (descriptor : RuntimeDescriptor) : Prop :=
  ∃ items raws, data = .obj items ∧ SpellsHead items descriptor.toDescriptorHead ∧
    Json.lookup items "files" = .list raws ∧ raws ≠ [] ∧ raws.length ≤ maxFiles ∧
    List.Forall₂ SpellsFile raws descriptor.files ∧
    Json.lookup items "bundle_sha256" = .str descriptor.bundleSha256.text ∧
    descriptor.bundleSha256.text = computeBundleSha256 hexdigest descriptor.files

end Documents

/-- The mode is a list or an object, and every check of the entry before it passes. -/
def HasUnhashableMode (seen : List String) (raw : Json) : Prop :=
  ∃ fields path sha256, raw = .obj fields ∧ SpellsContent fields path sha256 ∧ path.text ∉ seen ∧
    (Json.lookup fields "mode").unhashable

/-- The checks reach an entry whose mode is a list or an object. -/
def ReachesUnhashableMode (data : Json) : Prop :=
  ∃ items head before raw after, ∃ entries : Distinct FileEntry.pathText,
    data = .obj items ∧ SpellsHead items head ∧
    Json.lookup items "files" = .list (before ++ raw :: after) ∧
    (before ++ raw :: after).length ≤ maxFiles ∧ List.Forall₂ SpellsFile before entries.items ∧
    HasUnhashableMode entries.keys raw

end IsadoraAir.Bundle
