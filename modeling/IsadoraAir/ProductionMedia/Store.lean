import IsadoraAir.Foundation.Dict
import Mathlib.Data.String.Basic

/-!
# The production media store

`production/models.py`, `layout.py`, `transitions.py`: the rows of the media,
what refers to them, and the storage key that names the bytes of a row. A row is
never deleted, and only two of its columns ever change.
-/

namespace IsadoraAir.ProductionMedia

def isHexDigit (c : Char) : Bool := c ∈ "0123456789abcdef".toList

/-- `uuid.uuid4().hex` -/
structure Uuid where
  hex : List Char
  length_eq : hex.length = 32
  digits : hex.all isHexDigit = true
  deriving DecidableEq

abbrev MediaId := Uuid

/-- `<2 hex>/<32 hex>` -/
def storageKeyFor (id : MediaId) : String := String.ofList (id.hex.take 2 ++ '/' :: id.hex)

/-- `STORAGE_KEY_RE` -/
def isStorageKey (key : String) : Bool :=
  match key.toList with
  | a :: b :: '/' :: name =>
    isHexDigit a && isHexDigit b && name.length = 32 && name.all isHexDigit
  | _ => false

/-- What a sweep may remove: the name starts with its shard. -/
def isPlausible (key : String) : Bool :=
  isStorageKey key && (key.toList.drop 3).take 2 = key.toList.take 2

theorem storageKeyFor_injective {id id' : MediaId} (h : storageKeyFor id = storageKeyFor id') :
    id = id' := by
  have hlist : id.hex.take 2 ++ '/' :: id.hex = id'.hex.take 2 ++ '/' :: id'.hex :=
    String.ofList_injective h
  have hlength : (id.hex.take 2).length = (id'.hex.take 2).length := by
    rw [List.length_take, List.length_take, id.length_eq, id'.length_eq]
  have hhex := (List.append_inj hlist hlength).2
  cases id
  cases id'
  simpa using hhex

/-! ## Rows -/

inductive Kind where
  | recording
  | upload
  | edit
  | rendition
  | bed
  deriving DecidableEq

/-- `DERIVED_KINDS` -/
def Kind.isDerived : Kind → Bool
  | .edit | .rendition => true
  | _ => false

inductive Validation where
  | unvalidated
  | valid
  | invalid
  deriving DecidableEq

inductive Retention where
  | present
  | purged
  deriving DecidableEq

abbrev Bytes := List UInt8

/-- The columns that anything here reads. -/
structure Row where
  kind : Kind
  storageKey : String
  sha256 : String
  byteSize : ℕ
  derivedFrom : Option MediaId
  airingProhibited : Bool
  validation : Validation
  retention : Retention
  deriving DecidableEq

/-- A row of another domain that refers to a media, through the air-capable binding lock or
the one for TEST / NO AIR. -/
structure Reference where
  media : MediaId
  airing : Bool
  deriving DecidableEq

structure Db where
  media : Dict MediaId Row
  references : Dict ℕ Reference

inductive Write where
  /-- The row of an ingest; a rendition's verdict is recorded in the same transaction. -/
  | insert (id : MediaId) (row : Row)
  /-- `record_verdict` -/
  | verdict (id : MediaId) (v : Validation)
  /-- `mark_purged` -/
  | purge (id : MediaId)
  | bind (slot : ℕ) (reference : Reference)
  | unbind (slot : ℕ)

/-- A single conditional UPDATE. -/
def Db.update (db : Db) (id : MediaId) (p : Row → Bool) (f : Row → Row) : Db :=
  match db.media.get? id with
  | some row => if p row then { db with media := db.media.insert id (f row) } else db
  | none => db

def Db.apply (db : Db) : Write → Db
  | .insert id row => { db with media := db.media.insert id row }
  | .verdict id v =>
    db.update id (fun row => row.validation = .unvalidated ∧ row.retention = .present)
      fun row => { row with validation := v }
  | .purge id =>
    db.update id (fun row => row.retention = .present) fun row => { row with retention := .purged }
  | .bind slot reference => { db with references := db.references.insert slot reference }
  | .unbind slot => { db with references := db.references.erase slot }

/-- `find_references`: the derivatives of a media count as well. -/
def Db.referenceCount (db : Db) (id : MediaId) : ℕ :=
  db.references.values.countP (fun r => r.media = id) +
    db.media.values.countP fun row => row.derivedFrom = some id

/-- `_inheritance_problem`, or the key is taken. -/
def Db.refusesInsert (db : Db) (id : MediaId) (row : Row) : Bool :=
  (db.media.get? id).isSome || (db.media.values.any fun other => other.storageKey = row.storageKey) ||
    match row.derivedFrom with
    | none => false
    | some parent => (db.media.get? parent).elim true fun p => p.airingProhibited && !row.airingProhibited

/-- The state of the row that owns a storage key. -/
def Db.retentionOf (db : Db) (key : String) : Option Retention :=
  (db.media.values.find? fun row => row.storageKey = key).map Row.retention

end IsadoraAir.ProductionMedia
