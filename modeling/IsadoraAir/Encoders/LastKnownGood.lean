import IsadoraAir.Foundation.PyValue
import IsadoraAir.Foundation.Runs
import IsadoraAir.Foundation.TextLines

/-!
# The last-known-good store

One slug of the versioned store: a promotion writes a new version directory and
then swaps the pointer to it, and prunes the directories it no longer keeps. A
reader goes through the pointer in separate steps. Every file operation is one
event; a promotion may be killed between any two of them.
-/

namespace IsadoraAir.LastKnownGood

open Text

abbrev Items := List (String × PyValue)

/-- A generated version id; every id is new, and `strip` leaves it as it is. -/
abbrev VersionId := ℕ

/-- One call of `write_lkg`, with the version id it generates. -/
structure Promotion where
  script : Text
  document : Items
  versionId : VersionId

/-- What a version directory holds. The metadata file is kept as the document written to it. -/
structure VersionDir where
  script : Option Text
  metadata : Option Items

/-- How far the one writer is. -/
inductive Writer where
  | idle
  | preparing (p : Promotion)
  | creating (p : Promotion) (oldVersionId : Option VersionId)
  | writingScript (p : Promotion) (oldVersionId : Option VersionId)
  | writingMetadata (p : Promotion) (oldVersionId : Option VersionId)
  | swapping (p : Promotion) (oldVersionId : Option VersionId)
  | listing (keep : List VersionId)
  | pruning (entries : List VersionId)

/-- How a read ends: `(None, None)`, a script with its metadata or with none, or an exception. -/
inductive Answer where
  | nothing
  | pair (script : Text) (metadata : Option Items)
  | raised

/-- How far a reader is, with the number of swaps that precede its start. -/
inductive Reader where
  | idle
  | foundPointer (before : ℕ)
  | holding (before : ℕ) (versionId : VersionId)
  | foundScript (before : ℕ) (versionId : VersionId)
  | readScript (before : ℕ) (versionId : VersionId) (script : Text)
  | foundMetadata (before : ℕ) (versionId : VersionId) (script : Text)
  | done (before : ℕ) (answer : Answer)

/-- The store, the writer and the readers. `swapped` is the history of promotions whose pointer
swap has happened. -/
structure Store where
  current : Option VersionId
  versions : Dict VersionId VersionDir
  issued : List VersionId
  writer : Writer
  readers : ℕ → Reader
  swapped : List Promotion

def Store.initial : Store where
  current := none
  versions := .empty
  issued := []
  writer := .idle
  readers := fun _ => .idle
  swapped := []

inductive Event where
  | promote (p : Promotion)
  | advance
  | list (entries : List VersionId)
  | unlinkScript
  | unlinkMetadata
  | removeDirectory
  | giveUp
  | kill
  | read (reader : ℕ)

namespace Store

def scriptOf (s : Store) (v : VersionId) : Option Text := (s.versions.get? v).bind VersionDir.script

def metadataOf (s : Store) (v : VersionId) : Option Items :=
  (s.versions.get? v).bind VersionDir.metadata

/-- Replace what a version directory holds. -/
def putDir (s : Store) (v : VersionId) (script : Option Text) (metadata : Option Items) : Store :=
  { s with versions := s.versions.insert v ⟨script, metadata⟩ }

def setReader (s : Store) (i : ℕ) (r : Reader) : Store :=
  { s with readers := Function.update s.readers i r }

end Store

section Steps

variable (sha256 : Text → String)

/-- The metadata with the hash of its script. -/
def Promotion.metadata (p : Promotion) : Items :=
  Dict.put "script_sha256" (.text (sha256 p.script)) p.document

/-- The next operation of `write_lkg`, up to the pointer swap, and its return. -/
def advance (s : Store) : Store :=
  match s.writer with
  | .preparing p => { s with writer := .creating p s.current }
  | .creating p old =>
      if p.versionId ∈ s.issued then s
      else { s.putDir p.versionId none none with
        issued := p.versionId :: s.issued, writer := .writingScript p old }
  | .writingScript p old =>
      match encode p.script with
      | none => { s with writer := .idle }
      | some _ => { s.putDir p.versionId (some p.script) none with writer := .writingMetadata p old }
  | .writingMetadata p old =>
      { s.putDir p.versionId (s.scriptOf p.versionId) (some (p.metadata sha256)) with
        writer := .swapping p old }
  | .swapping p old =>
      { s with
        current := some p.versionId
        swapped := s.swapped ++ [p]
        writer := .listing (p.versionId :: old.toList) }
  | .pruning [] => { s with writer := .idle }
  | _ => s

/-- One removal of `_prune_old_versions`, in the directory it is at, or an `OSError` there. -/
def prune (s : Store) : Event → Store
  | .unlinkScript =>
      match s.writer with
      | .pruning (v :: _) =>
          match s.versions.get? v with
          | some dir => s.putDir v none dir.metadata
          | none => s
      | _ => s
  | .unlinkMetadata =>
      match s.writer with
      | .pruning (v :: _) =>
          match s.versions.get? v with
          | some dir => s.putDir v dir.script none
          | none => s
      | _ => s
  | .removeDirectory =>
      match s.writer with
      | .pruning (v :: entries) =>
          if s.scriptOf v = none ∧ (s.metadataOf v).isNone = true then
            { s with versions := s.versions.erase v, writer := .pruning entries }
          else { s with writer := .pruning entries }
      | _ => s
  | .giveUp =>
      match s.writer with
      | .listing _ => { s with writer := .idle }
      | .pruning (_ :: entries) => { s with writer := .pruning entries }
      | _ => s
  | _ => s

/-- The end of `read_lkg`, once the metadata has been looked at. -/
def conclude (script : Text) : Option Items → Answer
  | none => .pair script none
  | some metadata =>
      match Dict.find "script_sha256" metadata with
      | none => .pair script (some metadata)
      | some expected =>
          if (PyValue.text (sha256 script)).equal expected = true then .pair script (some metadata)
          else .nothing

/-- The next operation of a `read_lkg`; a reader that is done starts anew. -/
def advanceReader (s : Store) : Reader → Reader
  | .foundPointer before =>
      match s.current with
      | some v => .holding before v
      | none => .done before .nothing
  | .holding before v =>
      match s.scriptOf v with
      | some _ => .foundScript before v
      | none => .done before .nothing
  | .foundScript before v =>
      match s.scriptOf v with
      | some text => .readScript before v (translate text)
      | none => .done before .raised
  | .readScript before v script =>
      match s.metadataOf v with
      | some _ => .foundMetadata before v script
      | none => .done before (conclude sha256 script none)
  | .foundMetadata before v script => .done before (conclude sha256 script (s.metadataOf v))
  | _ =>
      match s.current with
      | some _ => .foundPointer s.swapped.length
      | none => .done s.swapped.length .nothing

def step (event : Event) (s : Store) : Store :=
  match event with
  | .promote p =>
      match s.writer with
      | .idle => { s with writer := .preparing p }
      | _ => s
  | .advance => advance sha256 s
  | .list entries =>
      match s.writer with
      | .listing keep =>
          if entries.Perm s.versions.keys then
            { s with writer := .pruning (entries.filter fun v => v ∉ keep) }
          else s
      | _ => s
  | .kill => { s with writer := .idle }
  | .read i => s.setReader i (advanceReader sha256 s (s.readers i))
  | event => prune s event

end Steps

/-! ## When the reads are right -/

/-- The read has taken the version from the pointer and not looked at its script yet. -/
def Reader.AwaitsScript (v : VersionId) : Reader → Prop
  | .holding _ w => w = v
  | _ => False

/-- The read has taken the version from the pointer and not read its metadata yet. -/
def Reader.AwaitsMetadata (v : VersionId) : Reader → Prop
  | .holding _ w => w = v
  | .foundScript _ w => w = v
  | .readScript _ w _ => w = v
  | .foundMetadata _ w _ => w = v
  | _ => False

/-- The promoted script has no carriage return, and the pruning removes no file that a read in
progress still has to look at. -/
def Harmless (event : Event) (s : Store) : Prop :=
  match event with
  | .promote p => cr ∉ p.script
  | .unlinkScript =>
      ∀ v entries, s.writer = .pruning (v :: entries) → ∀ i, ¬(s.readers i).AwaitsScript v
  | .unlinkMetadata =>
      ∀ v entries, s.writer = .pruning (v :: entries) → ∀ i, ¬(s.readers i).AwaitsMetadata v
  | _ => True

/-- What a finished read may have returned, given the promotions swapped in by then. -/
def Justified (sha256 : Text → String) (swapped : List Promotion) (before : ℕ) : Answer → Prop
  | .nothing => before = 0
  | .pair script metadata =>
      ∃ p ∈ swapped, script = p.script ∧ metadata = some (p.metadata sha256)
  | .raised => True

end IsadoraAir.LastKnownGood
