import IsadoraAir.Foundation.Dict
import IsadoraAir.Foundation.Sessions
import IsadoraAir.Foundation.Crew

/-!
# Files, Tracks and their deletion

The library as the services see it, and the services.
-/

/-!
## Library files and their Tracks

The directory entries as `lstat` shows them, the Tracks by their unique file
path, and the locks: the advisory lock of a path, by its key, and the row locks.
-/

namespace IsadoraAir.TrackDeletion

abbrev Path := String

def isAbsolute (path : Path) : Bool := path.toList.head? = some '/'

/-- `_source_witness`: the identity of one directory entry. -/
structure Witness where
  dev : ℕ
  ino : ℕ
  size : ℕ
  mtimeNs : ℤ
  ctimeNs : ℤ
  format : ℕ
  deriving DecidableEq

inductive Look where
  | missing
  | unavailable
  | found (witness : Witness)
  deriving DecidableEq

structure Files where
  entry : Path → Option Witness
  resolve : Path → Option Path
  /-- What the cleanups have unlinked so far; no action reads it. -/
  unlinked : List Path

def Files.unlink (files : Files) (path : Path) : Files where
  entry := Function.update files.entry path none
  resolve := files.resolve
  unlinked := files.unlinked ++ [path]

structure Track where
  id : ℕ
  /-- A publication's foreign key points to the row. -/
  published : Bool
  /-- How much had been unlinked when its registration looked at the file. -/
  seen : ℕ
  deriving DecidableEq

variable {path : Path} {track : Track}

abbrev Tracks := Dict Path Track

inductive Write where
  | put (path : Path) (track : Track)
  | delete (tracks : List (Path × ℕ))

def apply (db : Tracks) : Write → Tracks
  | .put path track => db.insert path track
  | .delete tracks => (tracks.map Prod.fst).foldl Dict.erase db

inductive Lock where
  | key (key : ℤ)
  | track (id : ℕ)
  deriving DecidableEq

def Write.tracks : Write → List ℕ
  | .put _ track => [track.id]
  | .delete tracks => tracks.map Prod.snd

/-- The sessions on the database, and the file system. -/
structure Shared (α : Type) where
  sessions : Sessions Tracks Write Lock α
  files : Files
  /-- The file that a registration has looked at, and how much had been unlinked then; no action
  reads it. -/
  looks : α → Option (Path × ℕ)

namespace Shared

variable {α : Type}

abbrev db (s : Shared α) : Tracks := s.sessions.db

abbrev view (s : Shared α) (a : α) : Tracks := s.sessions.view apply a

theorem view_of_pending {s : Shared α} {a : α} (h : s.sessions.pending a = []) : s.view a = s.db :=
  Sessions.view_of_clean h

end Shared

theorem get?_foldl_erase (db : Tracks) (paths : List Path) (path : Path) :
    (paths.foldl Dict.erase db).get? path = if path ∈ paths then none else db.get? path := by
  induction paths generalizing db with
  | nil => simp
  | cons head rest ih =>
    rw [List.foldl_cons, ih, Dict.get?_erase]
    split_ifs <;> simp_all

/-- A write that leaves the path alone, or only takes its Track away. -/
theorem get?_apply {db : Tracks} {w : Write} (h : (apply db w).get? path = some track) :
    w = .put path track ∨ db.get? path = some track := by
  cases w with
  | put path' track' =>
    simp only [apply, Dict.get?_insert] at h
    split_ifs at h with hpath
    · cases h
      exact .inl (by rw [hpath])
    · exact .inr h
  | delete tracks =>
    simp only [apply, get?_foldl_erase] at h
    split_ifs at h
    exact .inr h

/-- By induction on the writes: what is there has been there, or has been put there. -/
theorem get?_foldl_apply {ws : List Write} {db : Tracks}
    (h : (ws.foldl apply db).get? path = some track) :
    .put path track ∈ ws ∨ db.get? path = some track := by
  induction ws generalizing db with
  | nil => exact .inr h
  | cons w ws ih =>
    rcases ih h with hmem | hget
    · exact .inl (List.mem_cons_of_mem w hmem)
    · rcases get?_apply hget with rfl | hget
      · exact .inl List.mem_cons_self
      · exact .inr hget

end IsadoraAir.TrackDeletion

/-!
## Track deletion

`track_deletion.py`: a deletion captures the witness of the source file in its
transaction, and unlinks the file after the commit, under the path's lock. A
registration takes the same lock, looks at the file and commits its Track.
-/

namespace IsadoraAir.TrackDeletion

/-- `SourceCleanup.status` -/
inductive Status where
  | missing
  | retainedUnverified
  | retainedReplaced
  | retainedRecent
  | retainedLiveOwner
  | retainedInvalidPath
  | retainedBusy
  | removed
  | failed
  deriving DecidableEq

inductive Fault where
  | protectedError
  | rolledBack
  | pathBusy
  | fileNotFound
  | osError
  | disappeared
  | changed
  deriving DecidableEq

inductive Unlinked where
  | removed
  | fileNotFound
  | osError
  deriving DecidableEq

/-- The rows of a queryset. -/
abbrev Matching := Path → Track → Bool

inductive Action where
  /-- The Tracks that a live publication owns. -/
  | owned (ids : List ℕ)
  | rows (matching : Matching)
  | deleteRows (matching : Matching)
  | resolve (path : Path)
  | lstat (path : Path)
  | commit
  | rollback
  | acquire (path : Path)
  | now
  | isRegistered (path : Path)
  | unlink (path : Path)
  /-- `stat_source`, and how much has been unlinked. -/
  | stat (path : Path)
  | updateOrCreate (path : Path) (published : Bool) (seen : ℕ)
  /-- Another program's change of the files. -/
  | change (entry : Path → Option Witness) (resolve : Path → Option Path)

abbrev Action.Result : Action → Type
  | .owned _ => List ℕ
  | .rows _ => List (ℕ × Path)
  | .deleteRows _ => Except Fault Unit
  | .resolve _ => Option Path
  | .lstat _ => Look
  | .commit | .acquire _ | .isRegistered _ => Bool
  | .rollback | .change _ _ => Unit
  | .now => ℤ
  | .unlink _ => Unlinked
  | .stat _ => Option Witness × ℕ
  | .updateOrCreate _ _ _ => ℕ

abbrev Service := Routine Action.Result Fault

abbrev perform (a : Action) : Service a.Result := Routine.perform a

def raiseIf (condition : Prop) [Decidable condition] (fault : Fault) : Service Unit :=
  if condition then .raise fault else pure ()

/-- `transaction.atomic`; a commit may fail. -/
def atomic {α : Type} (body : Service α) : Service α := do
  let result : Except Fault α ← body.attempt
  match result with
  | .ok a =>
    let committed ← perform .commit
    if committed then pure a else .raise .rolledBack
  | .error e =>
    let _ ← perform .rollback
    .raise e

/-! ### Cleanup -/

/-- What a deletion has captured of one source. -/
structure Cleanup where
  track : ℕ
  path : Path
  canonical : Option Path
  witness : Look
  grace : Bool

def validatedSourceIdentity (path : Path) : Service (Option Path) :=
  if isAbsolute path then do
    let canonical ← perform (.resolve path)
    pure (if canonical = some path then canonical else none)
  else pure none

def scheduleSourceCleanup (path : Path) (track : ℕ) (grace : Bool) : Service Cleanup := do
  let canonical ← validatedSourceIdentity path
  let scheduledWitness ← perform (.lstat path)
  pure ⟨track, path, canonical, scheduledWitness, grace⟩

def sourceFreshnessGraceNs : ℤ := 60 * 1000000000

def isRecent (now : ℤ) (witness : Witness) : Bool :=
  now - witness.ctimeNs < sourceFreshnessGraceNs

/-- The last look, and the unlink. -/
def unlinkIfSame (path : Path) (scheduled : Witness) : Service Status := do
  let last ← perform (.lstat path)
  if last = .found scheduled then do
    let result ← perform (.unlink path)
    match result with
    | .removed => pure .removed
    | .fileNotFound => .raise .fileNotFound
    | .osError => .raise .osError
  else pure .retainedReplaced

def decideAndUnlink (cleanup : Cleanup) (canonical : Path) : Service Status := do
  let current ← perform (.lstat cleanup.path)
  match current, cleanup.witness with
  | .unavailable, _ => pure .retainedUnverified
  | _, .unavailable => pure .retainedUnverified
  | .missing, _ => pure .missing
  | .found _, .missing => pure .retainedReplaced
  | .found current, .found scheduled =>
    if current ≠ scheduled then pure .retainedReplaced
    else do
      let now ← perform .now
      if cleanup.grace ∧ isRecent now current then pure .retainedRecent
      else do
        let registered ← perform (.isRegistered canonical)
        if registered then pure .retainedLiveOwner
        else unlinkIfSame cleanup.path scheduled

/-- The decision, in a transaction of its own. -/
def cleanupTransaction (cleanup : Cleanup) (canonical : Path) : Service Status :=
  atomic do
    let acquired ← perform (.acquire canonical)
    raiseIf (acquired = false) .pathBusy
    decideAndUnlink cleanup canonical

def remove (cleanup : Cleanup) : Service Status :=
  match cleanup.canonical with
  | none => pure .retainedInvalidPath
  | some canonical => do
    let result : Except Fault Status ← (cleanupTransaction cleanup canonical).attempt
    match result with
    | .ok status => pure status
    | .error .pathBusy => pure .retainedBusy
    | .error .fileNotFound => pure .missing
    | .error _ => pure .failed

def scheduleAll (grace : Bool) : List (ℕ × Path) → Service (List Cleanup)
  | [] => pure []
  | (track, path) :: rest => do
    let cleanup ← scheduleSourceCleanup path track grace
    let cleanups ← scheduleAll grace rest
    pure (cleanup :: cleanups)

/-- The commit hooks, in their order. -/
def removeAll : List Cleanup → Service (List Status)
  | [] => pure []
  | cleanup :: rest => do
    let status ← remove cleanup
    let statuses ← removeAll rest
    pure (status :: statuses)

/-! ### Deletion and registration -/

structure Options where
  removeSources : Bool
  sourceGrace : Bool
  /-- The caller's own transaction fails after the deletion. -/
  fails : Bool

inductive Answer where
  | cleanups (statuses : List Status)
  | track (id : ℕ)
  | done
  deriving DecidableEq

/-- The rows whose sources are to be removed. -/
def sources (o : Options) (owned : List ℕ) (rows : List (ℕ × Path)) : List (ℕ × Path) :=
  rows.filter fun row => o.removeSources ∧ row.2 ≠ "" ∧ row.1 ∉ owned

def deletion (matching : Matching) (rows : List (ℕ × Path)) (owned : List ℕ) (o : Options) :
    Service Answer := do
  let cleanups ← atomic do
    let deleted ← perform (.deleteRows matching)
    match deleted with
    | .error e => .raise e
    | .ok _ =>
      let cleanups ← scheduleAll o.sourceGrace (sources o owned rows)
      raiseIf (o.fails = true) .rolledBack
      pure cleanups
  let statuses ← removeAll cleanups
  pure (.cleanups statuses)

def hasId (id : ℕ) : Matching := fun _ track => track.id = id

/-- The Track as the caller has loaded it. -/
def deleteTrack (id : ℕ) (filepath : Path) (o : Options) : Service Answer := do
  let owned ← perform (.owned [id])
  deletion (hasId id) [(id, filepath)] owned o

def ownedOf (rows : List (ℕ × Path)) : Service (List ℕ) :=
  if rows = [] then pure [] else perform (.owned (rows.map Prod.fst))

def deleteTracks (matching : Matching) (o : Options) : Service Answer := do
  let rows ← perform (.rows matching)
  let owned ← ownedOf rows
  deletion matching rows owned o

/-- `_register`; the caller knows the file whose metadata it has read. -/
def register (path : Path) (isSame : Witness → Bool) (published : Bool) : Service Answer := do
  let id ← atomic do
    let acquired ← perform (.acquire path)
    raiseIf (acquired = false) .pathBusy
    let looked ← perform (.stat path)
    match looked with
    | (none, _) => .raise .disappeared
    | (some current, seen) =>
      raiseIf (isSame current = false) .changed
      perform (.updateOrCreate path published seen)
  pure (.track id)

inductive Call where
  | deleteTrack (id : ℕ) (filepath : Path) (o : Options)
  | deleteTracks (matching : Matching) (o : Options)
  | register (path : Path) (isSame : Witness → Bool) (published : Bool)
  | change (entry : Path → Option Witness) (resolve : Path → Option Path)

def program : Call → Service Answer
  | .deleteTrack id filepath o => deleteTrack id filepath o
  | .deleteTracks matching o => deleteTracks matching o
  | .register path isSame published => register path isSame published
  | .change entry resolve => do
    let _ ← perform (.change entry resolve)
    pure .done

end IsadoraAir.TrackDeletion
