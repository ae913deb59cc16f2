import IsadoraAir.ProductionMedia.Requests
import IsadoraAir.Foundation.Crew
import IsadoraAir.Foundation.Sessions

/-!
# Steps of the media store

What each action does to the rows, the files and the locks. Rows are committed
in a transaction; files come and go at once, whatever becomes of the process.
-/

namespace IsadoraAir.ProductionMedia

variable {α : Type}

/-- A file, with the time of its creation or last write. -/
structure File where
  bytes : Bytes
  touched : ℤ
  deriving DecidableEq

/-- Bytes that are permanent, but have no row yet. -/
structure Promotion where
  id : MediaId
  bytes : Bytes
  promotedAt : ℤ

abbrev Promotion.key (p : Promotion) : String := storageKeyFor p.id

/-- What the agents `α` share. The last six only tell what has happened. -/
structure Shared (α : Type) where
  store : Sessions Db Write MediaId α
  files : Dict String File
  parts : Dict Uuid File
  /-- The staging file that an agent has opened. -/
  uploads : α → Option Uuid
  clock : ℤ
  /-- The id that an agent has drawn, and not linked yet. -/
  reserved : α → Option MediaId
  inflight : α → Option Promotion
  drawn : List String
  stored : List (String × Bytes)
  removed : List String
  graces : List ℤ

abbrev Shared.db (s : Shared α) : Db := s.store.db

/-- What the outside decides about an action. -/
structure Decision where
  /-- The call raises. -/
  fault : Bool
  /-- `uuid.uuid4()` -/
  uuid : Uuid
  analysis : Analysis
  commit : Commit
  /-- The status of a file may have changed since it was written. -/
  changed : ℤ

/-! ## Files -/

def appendPart (parts : Dict Uuid File) (part : Uuid) (bytes : Bytes) (now : ℤ) : Dict Uuid File :=
  match parts.get? part with
  | some file => parts.insert part ⟨file.bytes ++ bytes, now⟩
  | none => parts

def unlinkFile {κ : Type} [DecidableEq κ] (files : Dict κ File) (name : κ) (fault : Bool) : Unlinked :=
  if fault then .failed else if name ∈ files.keys then .done else .missing

/-- The status change that a `stat` tells. -/
def File.age (f : File) (d : Decision) (now : ℤ) : ℤ := max f.touched (min d.changed now)

/-- An ingest whose row would come later than some sweep has allowed for. -/
def Late (s : Shared α) (p : Promotion) : Prop := ∃ grace ∈ s.graces, grace ≤ s.clock - p.promotedAt

instance (s : Shared α) (p : Promotion) : Decidable (Late s p) :=
  inferInstanceAs (Decidable (∃ grace ∈ s.graces, _))

variable [DecidableEq α]

def openPart (s : Shared α) (a : α) (part : Uuid) : Shared α :=
  { s with
    parts := s.parts.insert part ⟨[], s.clock⟩
    uploads := Function.update s.uploads a (some part)
    drawn := s.drawn ++ [storageKeyFor part] }

def writeChunk (s : Shared α) (a : α) (bytes : Bytes) : Shared α :=
  match s.uploads a with
  | some part => { s with parts := appendPart s.parts part bytes s.clock }
  | none => s

def newId (s : Shared α) (a : α) (id : MediaId) : Shared α :=
  { s with
    reserved := Function.update s.reserved a (some id)
    drawn := s.drawn ++ [storageKeyFor id] }

def promoteFile (s : Shared α) (a : α) (id : MediaId) (bytes : Bytes) : Shared α :=
  { s with
    files := s.files.insert (storageKeyFor id) ⟨bytes, s.clock⟩
    reserved := Function.update s.reserved a none
    inflight := Function.update s.inflight a (some ⟨id, bytes, s.clock⟩)
    stored := s.stored ++ [(storageKeyFor id, bytes)] }

/-- `os.link`: it never overwrites. An agent links under the id that it has drawn. -/
def link (s : Shared α) (a : α) (part : Uuid) (id : MediaId) (fault : Bool) : Linked × Shared α :=
  match s.parts.get? part with
  | none => (.failed, s)
  | some file =>
    if storageKeyFor id ∈ s.files.keys then (.exists, s)
    else if fault ∨ s.reserved a ≠ some id then (.failed, s)
    else (.done, promoteFile s a id file.bytes)

/-- The permanent name is gone; its ingest gives it up. -/
def unlink (s : Shared α) (a : α) (key : String) (result : Unlinked) : Shared α :=
  { s with
    files := if result = .done then s.files.erase key else s.files
    inflight :=
      if (s.inflight a).any fun p => p.key = key then Function.update s.inflight a none
      else s.inflight
    removed := if result = .done then s.removed ++ [key] else s.removed }

/-! ## Transactions -/

/-- The row is locked, once it is free; no row is locked that does not exist. -/
def lock (s : Shared α) (a : α) (id : MediaId) : Option (Locked × Shared α) :=
  match s.db.media.get? id with
  | none => some (.found none, s)
  | some row =>
    if s.store.locks.available a id then
      some (.found (some row), { s with store := s.store.lock a fun other => other = id })
    else none

def refuses (s : Shared α) (a : α) : Write → Bool
  | .insert id row => (s.store.view Db.apply a).refusesInsert id row
  | _ => false

def write (s : Shared α) (a : α) (w : Write) (fault : Bool) : Bool × Shared α :=
  if fault || refuses s a w then (false, s) else (true, { s with store := s.store.write a w })

def rollback (s : Shared α) (a : α) : Shared α := { s with store := s.store.rollback a }

/-- What is committed has its row, and is no longer in flight. -/
def commit (s : Shared α) (a : α) : Shared α :=
  { s with
    store := s.store.commit Db.apply a
    inflight := Function.update s.inflight a none }

def endTransaction (s : Shared α) (a : α) : Commit → Shared α
  | .done | .lost => commit s a
  | .refused => rollback s a

def statesOf (db : Db) (keys : List String) (key : String) : Option Retention :=
  if key ∈ keys then db.retentionOf key else none

def exec (d : Decision) (a : α) : (x : Action) → Shared α → Option (x.Result × Shared α)
  | .look id, s => some (s.db.media.get? id, s)
  | .openPart, s =>
    if d.fault then some (none, s)
    else if storageKeyFor d.uuid ∈ s.drawn then none
    else some (some d.uuid, openPart s a d.uuid)
  | .writeChunk bytes, s => some (if d.fault then (false, s) else (true, writeChunk s a bytes))
  | .sync, s => some (!d.fault, s)
  | .analyze, s => some (if d.fault then none else some d.analysis, s)
  | .newId, s =>
    if storageKeyFor d.uuid ∈ s.drawn then none else some (d.uuid, newId s a d.uuid)
  | .link part id, s => some (link s a part id d.fault)
  | .unlinkPart part, s =>
    let result := unlinkFile s.parts part d.fault
    some (result, if result = .done then { s with parts := s.parts.erase part } else s)
  | .unlink key, s =>
    let result := unlinkFile s.files key d.fault
    some (result, unlink s a key result)
  | .lock id, s => if d.fault then some (.raised, s) else lock s a id
  | .references id, s =>
    some (if d.fault then none else some ((s.store.view Db.apply a).referenceCount id), s)
  | .write w, s => some (write s a w d.fault)
  | .commit, s => some (d.commit, endTransaction s a d.commit)
  | .rollback, s => some ((), rollback s a)
  | .beginSweep grace, s => some (s.clock, { s with graces := s.graces ++ [grace] })
  | .scan, s => some (s.files.keys, s)
  | .stat key, s => some ((s.files.get? key).map fun f => f.age d s.clock, s)
  | .states keys, s => some (statesOf s.db keys, s)
  | .scanParts, s => some (s.parts.keys, s)
  | .statPart part, s => some ((s.parts.get? part).map fun f => f.age d s.clock, s)
  | .elapse microseconds, s => some ((), { s with clock := s.clock + microseconds })

/-- A killed process: its transaction is rolled back, its files stay. -/
def kill (a : α) (s : Shared α) : Shared α :=
  { rollback s a with inflight := Function.update s.inflight a none }

def crew : Crew Action.Result (Shared α) α Decision where
  exec := exec
  abandon := kill

abbrev State (α : Type) := Crew.State Action.Result (Shared α) α Call Refusal Answer

abbrev Event (α : Type) := Crew.Event α Decision Call

variable (sha256 : Bytes → String)

def step (e : Event α) (s : State α) : State α := crew.step (program sha256) e s

/-- No row yet; there may be files that nobody owns. -/
def initial (files : Dict String File) (parts : Dict Uuid File) (clock : ℤ) : State α :=
  Crew.idle
    { store := .initial ⟨.empty, .empty⟩
      files := files
      parts := parts
      uploads := fun _ => none
      clock := clock
      reserved := fun _ => none
      inflight := fun _ => none
      drawn := files.keys ++ parts.keys.map storageKeyFor
      stored := files.items.map fun file => (file.1, file.2.bytes)
      removed := []
      graces := [] }

/-! ## Commits in time -/

/-- An ingest commits before any sweep may take its file, and is told so. -/
def InTime (d : Decision) (a : α) : Action → Shared α → Prop
  | .commit, s => ∀ p ∈ s.inflight a, d.commit ≠ .lost ∧ (d.commit = .done → ¬Late s p)
  | _, _ => True

instance (d : Decision) (a : α) (x : Action) (s : Shared α) : Decidable (InTime d a x s) := by
  cases x with
  | commit => exact inferInstanceAs (Decidable (∀ p ∈ s.inflight a, _))
  | _ => exact .isTrue trivial

end IsadoraAir.ProductionMedia
