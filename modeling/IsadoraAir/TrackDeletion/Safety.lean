import IsadoraAir.Foundation.Ledgers
import IsadoraAir.TrackDeletion.Services

/-!
# Safety of deletions and registrations

What each action does, and what a registration may rely on.
-/

/-!
## Steps of deletions and registrations

What each action does to the database and the files, and what it waits for.
-/

namespace IsadoraAir.TrackDeletion

variable {α : Type}

/-- What the outside decides about an action. -/
structure Choice where
  /-- The primary key of a new row. -/
  id : ℕ
  /-- A foreign key refuses the deletion, the commit fails. -/
  refuses : Bool
  /-- The file cannot be looked at, or not unlinked. -/
  osError : Bool
  /-- The lock has been waited for too long. -/
  timeout : Bool
  now : ℤ

def lockRows (s : Shared α) (a : α) (locks : List Lock) : Shared α :=
  { s with sessions := s.sessions.lock a fun lock => decide (lock ∈ locks) }

variable [DecidableEq α]

def available (s : Shared α) (a : α) (locks : List Lock) : Prop :=
  ∀ lock ∈ locks, s.sessions.locks.available a lock = true

instance (s : Shared α) (a : α) (locks : List Lock) : Decidable (available s a locks) :=
  inferInstanceAs (Decidable (∀ lock ∈ locks, _))

/-- The rows are locked and written, or waited for. -/
def writeRows {β : Type} (s : Shared α) (a : α) (w : Write) (result : β) :
    Option (β × Shared α) :=
  let locks := w.tracks.map .track
  if available s a locks then
    let locked := lockRows s a locks
    some (result, { locked with sessions := locked.sessions.write a w })
  else none

def note (s : Shared α) (a : α) (looked : Option (Path × ℕ)) : Shared α :=
  { s with looks := Function.update s.looks a looked }

def rollback (s : Shared α) (a : α) : Shared α :=
  note { s with sessions := s.sessions.rollback a } a none

def commit (s : Shared α) (a : α) : Shared α :=
  note { s with sessions := s.sessions.commit apply a } a none

def matchingRows (db : Tracks) (matching : Matching) : List (Path × ℕ) :=
  (db.items.filter fun item => matching item.1 item.2).map fun item => (item.1, item.2.id)

/-- A live publication owns the source of the Track. -/
def isOwned (db : Tracks) (id : ℕ) : Bool :=
  db.items.any fun item => item.2.id = id ∧ item.2.published

def look (files : Files) (path : Path) (osError : Bool) : Look :=
  if osError then .unavailable
  else match files.entry path with
    | some witness => .found witness
    | none => .missing

def unlinkEntry (s : Shared α) (path : Path) (osError : Bool) : Unlinked × Shared α :=
  if osError then (.osError, s)
  else match s.files.entry path with
    | some _ => (.removed, { s with files := s.files.unlink path })
    | none => (.fileNotFound, s)

variable (lockKey : Path → ℤ)

def acquire (s : Shared α) (a : α) (path : Path) (timeout : Bool) : Option (Bool × Shared α) :=
  if available s a [.key (lockKey path)] then
    some (true, lockRows s a [.key (lockKey path)])
  else if timeout then some (false, s)
  else none

def exec (c : Choice) (a : α) : (x : Action) → Shared α → Option (x.Result × Shared α)
  | .owned ids, s => some (ids.filter (isOwned (s.view a)), s)
  | .rows matching, s =>
    some ((matchingRows (s.view a) matching).map fun row => (row.2, row.1), s)
  | .deleteRows matching, s =>
    if c.refuses then some (.error .protectedError, s)
    else writeRows s a (.delete (matchingRows (s.view a) matching)) (.ok ())
  | .resolve path, s => some (s.files.resolve path, s)
  | .lstat path, s => some (look s.files path c.osError, s)
  | .commit, s => if c.refuses then some (false, rollback s a) else some (true, commit s a)
  | .rollback, s => some ((), rollback s a)
  | .acquire path, s => acquire lockKey s a path c.timeout
  | .now, s => some (c.now, s)
  | .isRegistered path, s => some (((s.view a).get? path).isSome, s)
  | .unlink path, s => some (unlinkEntry s path c.osError)
  | .stat path, s =>
    some ((s.files.entry path, s.files.unlinked.length),
      note s a (some (path, s.files.unlinked.length)))
  | .updateOrCreate path published seen, s =>
    match (s.view a).get? path with
    | some track => writeRows s a (.put path { track with seen := seen }) track.id
    | none => writeRows s a (.put path ⟨c.id, published, seen⟩) c.id
  | .change entry resolve, s => some ((), { s with files := ⟨entry, resolve, s.files.unlinked⟩ })

/-- The requests and programs; a lost connection is rolled back. -/
def crew : Crew Action.Result (Shared α) α Choice where
  exec := exec lockKey
  abandon a s := rollback s a

abbrev State (α : Type) := Crew.State Action.Result (Shared α) α Call Fault Answer

abbrev Event (α : Type) := Crew.Event α Choice Call

def step (e : Event α) (s : State α) : State α := (crew lockKey).step program e s

/-- Nothing has been unlinked yet. -/
def initial (db : Tracks) (entry : Path → Option Witness) (resolve : Path → Option Path) :
    State α :=
  Crew.idle ⟨Sessions.initial db, ⟨entry, resolve, []⟩, fun _ => none⟩

/-! ### What an action does -/

/-- The rows of the write are locked, and it is pending. -/
def written (s : Shared α) (a : α) (w : Write) : Shared α :=
  { s with sessions := (lockRows s a (w.tracks.map .track)).sessions.write a w }

inductive Effect (a : α) (s : Shared α) : Action → Shared α → Prop
  | none (x : Action) : Effect a s x s
  | lock (path : Path) (h : available s a [.key (lockKey path)]) :
    Effect a s (.acquire path) (lockRows s a [.key (lockKey path)])
  | delete (matching : Matching) (tracks : List (Path × ℕ))
    (h : available s a ((Write.delete tracks).tracks.map .track)) :
    Effect a s (.deleteRows matching) (written s a (.delete tracks))
  | put (path : Path) (published : Bool) (track : Track)
    (h : available s a ((Write.put path track).tracks.map .track)) :
    Effect a s (.updateOrCreate path published track.seen) (written s a (.put path track))
  | commit : Effect a s .commit (commit s a)
  | rollback (x : Action) : Effect a s x (rollback s a)
  | unlink (path : Path) : Effect a s (.unlink path) { s with files := s.files.unlink path }
  | stat (path : Path) :
    Effect a s (.stat path) (note s a (some (path, s.files.unlinked.length)))
  | change (entry : Path → Option Witness) (resolve : Path → Option Path) :
    Effect a s (.change entry resolve) { s with files := ⟨entry, resolve, s.files.unlinked⟩ }

variable {lockKey} {s s' : Shared α} {a : α}

theorem writeRows_eq_some {β : Type} {w : Write} {result r : β} :
    writeRows s a w result = some (r, s') ↔
      available s a (w.tracks.map .track) ∧ result = r ∧ written s a w = s' := by
  simp [writeRows, written, lockRows]

theorem exec_effect {c : Choice} {x : Action} {r : x.Result}
    (h : exec lockKey c a x s = some (r, s')) : Effect lockKey a s x s' := by
  cases x with
  | deleteRows matching =>
    simp only [exec] at h
    split_ifs at h
    · cases h
      exact .none _
    · obtain ⟨hlocks, -, rfl⟩ := writeRows_eq_some.mp h
      exact .delete matching _ hlocks
  | commit =>
    simp only [exec] at h
    split_ifs at h <;> cases h
    · exact .rollback _
    · exact .commit
  | rollback =>
    cases h
    exact .rollback _
  | acquire path =>
    simp only [exec, acquire] at h
    split_ifs at h with hlocks <;> cases h
    · exact .lock path hlocks
    · exact .none _
  | unlink path =>
    simp only [exec, unlinkEntry] at h
    split_ifs at h
    · cases h
      exact .none _
    · split at h <;> cases h
      · exact .unlink path
      · exact .none _
  | updateOrCreate path published seen =>
    simp only [exec] at h
    split at h
    · next track htrack =>
      obtain ⟨hlocks, -, rfl⟩ := writeRows_eq_some.mp h
      exact .put path published { track with seen := seen } hlocks
    · obtain ⟨hlocks, -, rfl⟩ := writeRows_eq_some.mp h
      exact .put path published ⟨c.id, published, seen⟩ hlocks
  | stat path =>
    cases h
    exact .stat path
  | change entry resolve =>
    cases h
    exact .change entry resolve
  | _ =>
    cases h
    exact .none _

end IsadoraAir.TrackDeletion

/-!
## What a registration has seen is still there

No cleanup has unlinked a path since the registration of its Track looked at the
file: a cleanup unlinks under the lock of the path, and so does a registration
look at the file and commit.
-/

namespace IsadoraAir.TrackDeletion

open Routine (Safe Setting Uses)

variable {files : Files} {locks : List Lock} {lock : Lock} {path : Path} {w : Write} {seen : ℕ}
  {α : Type} {lockKey : Path → ℤ}

def Owns (s : Shared α) (a : α) (lock : Lock) : Prop := s.sessions.locks.owner lock = some a

/-- The path has not been unlinked since then. -/
structure Clear (files : Files) (path : Path) (seen : ℕ) : Prop where
  le : seen ≤ files.unlinked.length
  notMem : path ∉ files.unlinked.drop seen

variable (lockKey) in
structure Invariant (s : Shared α) : Prop where
  rows : ∀ path track, s.db.get? path = some track → Clear s.files path track.seen
  pending : ∀ a path track, .put path track ∈ s.sessions.pending a →
    Owns s a (.key (lockKey path)) ∧ Clear s.files path track.seen
  looks : ∀ a path seen, s.looks a = some (path, seen) → Owns s a (.key (lockKey path)) →
    Clear s.files path seen

/-- Nothing is written, locked or looked at. -/
structure Clean (a : α) (s : Shared α) : Prop where
  session : s.sessions.Clean a
  looks : s.looks a = none

theorem Clear.unlink {other : Path} (h : Clear files path seen)
    (hne : path ≠ other) : Clear (files.unlink other) path seen where
  le := by
    rw [Files.unlink, List.length_append]
    exact h.le.trans (Nat.le_add_right _ _)
  notMem := by
    rw [Files.unlink, List.drop_append_of_le_length h.le, List.mem_append, List.mem_singleton]
    exact fun hmem => hmem.elim h.notMem hne

/-- A Track that has been unlinked is not clear. -/
theorem ne_of_clear_unlink {other : Path}
    (h : Clear (files.unlink other) path seen) (hle : seen ≤ files.unlinked.length) :
    path ≠ other := by
  rintro rfl
  apply h.notMem
  rw [Files.unlink, List.drop_append_of_le_length hle]
  exact List.mem_append_right _ List.mem_cons_self

theorem clear_now (files : Files) (path : Path) : Clear files path files.unlinked.length :=
  ⟨le_rfl, by simp⟩

/-- Nothing else of the file system matters. -/
theorem Clear.of_unlinked {files' : Files}
    (h : Clear files path seen) (heq : files'.unlinked = files.unlinked) :
    Clear files' path seen :=
  ⟨heq ▸ h.le, heq ▸ h.notMem⟩

variable {a b : α} {s s' : Shared α} {x : Action}

theorem owns_lockRows_iff (h : lock ∉ locks) :
    Owns (lockRows s b locks) a lock ↔ Owns s a lock := by
  simp [Owns, lockRows, Sessions.lock, RowLocks.lock, h]

theorem owns_lockRows (h : lock ∈ locks) : Owns (lockRows s a locks) a lock :=
  RowLocks.owner_lock_of_mem (decide_eq_true h)

/-- Under the lock of the path, with no Track there and none on the way. -/
theorem invariant_unlink (hs : Invariant lockKey s)
    (ho : Owns s a (.key (lockKey path))) (hpending : s.sessions.pending a = [])
    (hlooks : s.looks a = none) (hpath : s.db.get? path = none) :
    Invariant lockKey { s with files := s.files.unlink path } where
  rows path' track hget := by
    refine (hs.rows path' track hget).unlink fun heq => ?_
    rw [heq, hpath] at hget
    cases hget
  pending b path' track hmem := by
    obtain ⟨howner, hclear⟩ := hs.pending b path' track hmem
    refine ⟨howner, hclear.unlink ?_⟩
    rintro rfl
    obtain rfl : b = a := Option.some.inj (howner.symm.trans ho)
    rw [hpending] at hmem
    cases hmem
  looks b path' seen hlook howner := by
    refine (hs.looks b path' seen hlook howner).unlink ?_
    rintro rfl
    obtain rfl : b = a := Option.some.inj (howner.symm.trans ho)
    rw [hlooks] at hlook
    cases hlook

variable [DecidableEq α]

/-! ### The others -/

theorem Owns.lockRows (h : Owns s a lock)
    (hlocks : available s b locks) : Owns (lockRows s b locks) a lock := by
  by_cases hab : a = b
  · subst hab
    exact RowLocks.owner_lock_of_owner h
  · exact RowLocks.owner_lock_of_ne (fun row hrow => hlocks row (of_decide_eq_true hrow)) hab h

theorem owns_written_iff {key : ℤ} : Owns (written s b w) a (.key key) ↔ Owns s a (.key key) := by
  have hlock : Lock.key key ∉ w.tracks.map Lock.track := by simp
  exact owns_lockRows_iff hlock

theorem spared_lockRows (hab : a ≠ b) (h : available s b locks) :
    Sessions.Spared a s.sessions (lockRows s b locks).sessions :=
  Sessions.lock_spared (fun row hrow => h row (of_decide_eq_true hrow)) hab

theorem spared_written (hab : a ≠ b) (h : available s b (w.tracks.map .track)) :
    Sessions.Spared a s.sessions (written s b w).sessions :=
  (spared_lockRows hab h).trans (Sessions.write_spared w hab)

theorem Effect.spared (h : Effect lockKey b s x s') (hab : a ≠ b) :
    Sessions.Spared a s.sessions s'.sessions := by
  cases h with
  | lock path hlocks => exact spared_lockRows hab hlocks
  | delete matching tracks hlocks => exact spared_written hab hlocks
  | put path published track hlocks => exact spared_written hab hlocks
  | commit => exact Sessions.commit_spared apply hab
  | rollback => exact Sessions.rollback_spared hab
  | _ => exact .refl a s.sessions

theorem Effect.looks (h : Effect lockKey b s x s') (hab : a ≠ b) : s'.looks a = s.looks a := by
  cases h with
  | commit | rollback | stat => exact Function.update_of_ne hab ..
  | _ => rfl

/-- Nobody else registers a path whose lock is held. -/
theorem db_of_effect (h : Effect lockKey b s x s') (hab : a ≠ b) (hs : Invariant lockKey s)
    (ho : Owns s a (.key (lockKey path)))
    (hpath : s.db.get? path = none) : s'.db.get? path = none := by
  cases h with
  | commit =>
    cases hget : (commit s b).db.get? path with
    | none => rfl
    | some track =>
      rcases get?_foldl_apply hget with hmem | hget
      · have howner := (hs.pending b path track hmem).1
        exact absurd (Option.some.inj (ho.symm.trans howner)) hab
      · rw [hpath] at hget
        cases hget
  | _ => exact hpath

/-! ### What one action keeps -/

theorem invariant_lockRows (hs : Invariant lockKey s)
    (h : available s a [.key (lockKey path)]) (hlooks : s.looks a = none) :
    Invariant lockKey (lockRows s a [.key (lockKey path)]) where
  rows := hs.rows
  pending b path' track hmem :=
    ⟨(hs.pending b path' track hmem).1.lockRows h, (hs.pending b path' track hmem).2⟩
  looks b path' seen hlook ho := by
    change s.looks b = some (path', seen) at hlook
    have hb : b ≠ a := by
      rintro rfl
      rw [hlooks] at hlook
      cases hlook
    refine hs.looks b path' seen hlook ?_
    by_cases hkey : lockKey path' = lockKey path
    · rw [hkey] at ho
      have hself : Owns (lockRows s a [.key (lockKey path)]) a (.key (lockKey path)) :=
        owns_lockRows (by simp)
      exact absurd (Option.some.inj (ho.symm.trans hself)) hb
    · exact (owns_lockRows_iff (by simpa using hkey)).mp ho

theorem invariant_written (hs : Invariant lockKey s) (hw : ∀ path track, w = .put path track →
      Owns s a (.key (lockKey path)) ∧ Clear s.files path track.seen) :
    Invariant lockKey (written s a w) where
  rows := hs.rows
  pending b path track hmem := by
    rw [owns_written_iff]
    change Write.put path track ∈ ((lockRows s a _).sessions.write a w).pending b at hmem
    by_cases hb : b = a
    · subst hb
      rw [Sessions.write_pending_self, List.mem_append, List.mem_singleton] at hmem
      rcases hmem with hmem | heq
      · exact hs.pending b path track hmem
      · exact hw path track heq.symm
    · rw [Sessions.write_pending_of_ne _ hb] at hmem
      exact hs.pending b path track hmem
  looks b path seen hlook ho := hs.looks b path seen hlook (owns_written_iff.mp ho)

theorem owns_rollback (h : Owns (rollback s a) b lock) : b ≠ a ∧ Owns s b lock := by
  have hb : b ≠ a := by
    rintro rfl
    exact (Sessions.rollback_clean s.sessions b).owner lock h
  refine ⟨hb, ?_⟩
  simp only [Owns, rollback, note, Sessions.rollback, RowLocks.release] at h
  split_ifs at h
  exact h

theorem invariant_rollback (hs : Invariant lockKey s) : Invariant lockKey (rollback s a) where
  rows := hs.rows
  pending b path track hmem := by
    change Write.put path track ∈ (s.sessions.rollback a).pending b at hmem
    by_cases hb : b = a
    · subst hb
      rw [(Sessions.rollback_clean s.sessions b).pending] at hmem
      cases hmem
    · rw [Sessions.rollback_pending_of_ne hb] at hmem
      obtain ⟨ho, hclear⟩ := hs.pending b path track hmem
      exact ⟨RowLocks.owner_release_of_ne hb ho, hclear⟩
  looks b path seen hlook ho := by
    obtain ⟨hb, ho⟩ := owns_rollback ho
    change Function.update s.looks a none b = some (path, seen) at hlook
    rw [Function.update_of_ne hb] at hlook
    exact hs.looks b path seen hlook ho

theorem invariant_commit (hs : Invariant lockKey s) : Invariant lockKey (commit s a) where
  rows path track hget := by
    rcases get?_foldl_apply hget with hmem | hget
    · exact (hs.pending a path track hmem).2
    · exact hs.rows path track hget
  pending := (invariant_rollback (a := a) hs).pending
  looks := (invariant_rollback (a := a) hs).looks

theorem invariant_stat (hs : Invariant lockKey s) (path : Path) :
    Invariant lockKey (note s a (some (path, s.files.unlinked.length))) where
  rows := hs.rows
  pending := hs.pending
  looks b path' seen hlook ho := by
    change Function.update s.looks a _ b = some (path', seen) at hlook
    by_cases hb : b = a
    · subst hb
      rw [Function.update_self] at hlook
      cases hlook
      exact clear_now s.files path
    · rw [Function.update_of_ne hb] at hlook
      exact hs.looks b path' seen hlook ho

/-- The actions that need no lock. -/
def Ordinary : Action → Prop
  | .acquire _ | .unlink _ | .updateOrCreate _ _ _ => False
  | _ => True

theorem Effect.invariant (h : Effect lockKey a s x s') (hx : Ordinary x)
    (hs : Invariant lockKey s) : Invariant lockKey s' := by
  cases h with
  | none => exact hs
  | lock | put | unlink => exact hx.elim
  | delete matching tracks hlocks => exact invariant_written hs nofun
  | commit => exact invariant_commit hs
  | rollback => exact invariant_rollback hs
  | stat path => exact invariant_stat hs path
  | change =>
    exact ⟨fun path track h => (hs.rows path track h).of_unlinked rfl,
      fun b path track h => ⟨(hs.pending b path track h).1,
        (hs.pending b path track h).2.of_unlinked rfl⟩,
      fun b path seen h ho => (hs.looks b path seen h ho).of_unlinked rfl⟩

end IsadoraAir.TrackDeletion
