import IsadoraAir.Foundation.Runs

/-!
# The finalization lock

Workers enter and leave `finalization_lock` for one session by single file
operations, in any order. A lock belongs to the opened inode, the lock file's
name to whatever inode it was last created for: after a release the name is
removed, so that the two can come apart.
-/

namespace IsadoraAir.Aircheck

open Runs

variable {p : Place} {inode : ℕ} {α : Type} [DecidableEq α]

/-- Where a worker is in `finalization_lock`; the numbers are inodes. -/
inductive Place where
  | outside
  | madeDirectory (blocking : Bool)
  | opened (blocking : Bool) (inode : ℕ)
  | refused (inode : ℕ)
  | inside (inode : ℕ)
  | unlocked (inode : ℕ)
  | closed
  | unlinked
  deriving DecidableEq, Repr

/-- The inode that the worker has locked, or is about to lock. -/
def Place.claim : Place → Option ℕ
  | opened _ inode => some inode
  | inside inode => some inode
  | _ => none

/-- The staging directory with its lock file, the locks held on inodes, and the
workers. -/
structure LockState (α : Type) where
  staging : Bool
  otherEntries : Bool
  lockFile : Option ℕ
  nextInode : ℕ
  owner : ℕ → Option α
  place : α → Place

inductive LockEvent (α : Type) where
  | enter (a : α) (blocking : Bool)
  | openFile (a : α)
  | flock (a : α)
  | giveUp (a : α)
  | unlock (a : α)
  | close (a : α)
  | unlink (a : α)
  | rmdir (a : α)
  | die (a : α)
  | contents (otherEntries : Bool)

namespace LockState

variable {blocking : Bool} {s : LockState α} {a b : α}

def moveTo (s : LockState α) (a : α) (p : Place) : LockState α :=
  { s with place := Function.update s.place a p }

/-- `staging.mkdir(parents=True, exist_ok=True)` -/
def enter (s : LockState α) (a : α) (blocking : Bool) : LockState α :=
  match s.place a with
  | .outside => { s with staging := true }.moveTo a (.madeDirectory blocking)
  | _ => s

/-- `os.open(lock_path, os.O_CREAT | os.O_RDWR)`, which raises when the
directory has gone again. -/
def openFile (s : LockState α) (a : α) : LockState α :=
  match s.place a with
  | .madeDirectory blocking =>
    if s.staging then
      match s.lockFile with
      | some inode => s.moveTo a (.opened blocking inode)
      | none =>
        { s with lockFile := some s.nextInode, nextInode := s.nextInode + 1 }.moveTo a
          (.opened blocking s.nextInode)
    else s.moveTo a .outside
  | _ => s

/-- `fcntl.flock(fd, flags)`: a blocking caller waits where it is. -/
def flock (s : LockState α) (a : α) : LockState α :=
  match s.place a with
  | .opened blocking inode =>
    if s.owner inode = none then
      { s with owner := Function.update s.owner inode (some a) }.moveTo a (.inside inode)
    else if blocking then s
    else s.moveTo a (.refused inode)
  | _ => s

/-- The caller that was given `False` closes the file and leaves. -/
def giveUp (s : LockState α) (a : α) : LockState α :=
  match s.place a with
  | .refused _ => s.moveTo a .outside
  | _ => s

/-- `fcntl.flock(fd, fcntl.LOCK_UN)` -/
def unlock (s : LockState α) (a : α) : LockState α :=
  match s.place a with
  | .inside inode =>
    { s with owner := Function.update s.owner inode none }.moveTo a (.unlocked inode)
  | _ => s

def close (s : LockState α) (a : α) : LockState α :=
  match s.place a with
  | .unlocked _ => s.moveTo a .closed
  | _ => s

/-- `lock_path.unlink()` -/
def unlink (s : LockState α) (a : α) : LockState α :=
  match s.place a with
  | .closed => { s with lockFile := none }.moveTo a .unlinked
  | _ => s

/-- `staging.rmdir()`, which only removes an empty directory. -/
def rmdir (s : LockState α) (a : α) : LockState α :=
  match s.place a with
  | .unlinked =>
    { s with staging := s.staging && (s.lockFile.isSome || s.otherEntries) }.moveTo a .outside
  | _ => s

/-- The process dies: its files are closed and its lock is released. -/
def die (s : LockState α) (a : α) : LockState α :=
  match s.place a with
  | .inside inode => { s with owner := Function.update s.owner inode none }.moveTo a .outside
  | _ => s.moveTo a .outside

def step : LockEvent α → LockState α → LockState α
  | .enter a blocking, s => s.enter a blocking
  | .openFile a, s => s.openFile a
  | .flock a, s => s.flock a
  | .giveUp a, s => s.giveUp a
  | .unlock a, s => s.unlock a
  | .close a, s => s.close a
  | .unlink a, s => s.unlink a
  | .rmdir a, s => s.rmdir a
  | .die a, s => s.die a
  | .contents otherEntries, s => { s with otherEntries := otherEntries }

/-- The worker is inside the block with a `True` result. -/
def Inside (s : LockState α) (a : α) : Prop := ∃ inode, s.place a = .inside inode

def Exclusive (s : LockState α) : Prop := ∀ a b, s.Inside a → s.Inside b → a = b

@[simp] theorem moveTo_place_self (s : LockState α) (a : α) (p : Place) :
    (s.moveTo a p).place a = p := by
  unfold moveTo
  exact Function.update_self _ _ _

theorem moveTo_place_of_ne (s : LockState α) (p : Place) (h : b ≠ a) :
    (s.moveTo a p).place b = s.place b := by
  unfold moveTo
  exact Function.update_of_ne h _ _

@[simp] theorem moveTo_owner (s : LockState α) (a : α) (p : Place) :
    (s.moveTo a p).owner = s.owner := rfl

@[simp] theorem moveTo_lockFile (s : LockState α) (a : α) (p : Place) :
    (s.moveTo a p).lockFile = s.lockFile := rfl

/-! ## One lock as long as the name stays -/

/-- Every inode that is locked or about to be is the one the name stands for,
and a lock is owned exactly by the worker inside. -/
structure Sound (s : LockState α) : Prop where
  named : ∀ a inode, (s.place a).claim = some inode → s.lockFile = some inode
  owned : ∀ a inode, s.owner inode = some a ↔ s.place a = .inside inode

omit [DecidableEq α] in
theorem Sound.exclusive (h : s.Sound) : s.Exclusive := by
  rintro a b ⟨i, ha⟩ ⟨j, hb⟩
  have hi := h.named a i (by rw [ha]; rfl)
  have hj := h.named b j (by rw [hb]; rfl)
  obtain rfl : i = j := Option.some.inj (hi.symm.trans hj)
  have howner := (h.owned a i).mpr ha
  rw [(h.owned b i).mpr hb] at howner
  exact (Option.some.inj howner).symm

/-- A worker that neither takes nor drops the lock, and keeps to the named file. -/
theorem Sound.moveTo (h : s.Sound)
    (hclaim : ∀ inode, p.claim = some inode → s.lockFile = some inode)
    (hnew : ∀ inode, p ≠ .inside inode) (hold : ∀ inode, s.place a ≠ .inside inode) :
    (s.moveTo a p).Sound := by
  refine ⟨fun b inode hb => ?_, fun b inode => ?_⟩
  · by_cases hba : b = a
    · subst hba
      rw [moveTo_place_self] at hb
      exact hclaim inode hb
    · rw [moveTo_place_of_ne s p hba] at hb
      exact h.named b inode hb
  · by_cases hba : b = a
    · subst hba
      rw [moveTo_place_self, moveTo_owner, h.owned]
      exact iff_of_false (hold inode) (hnew inode)
    · rw [moveTo_place_of_ne s p hba]
      exact h.owned b inode

/-- Dropping the lock frees its inode. -/
theorem Sound.drop (h : s.Sound) (ha : s.place a = .inside inode) (hclaim : p.claim = none) :
    ({ s with owner := Function.update s.owner inode none }.moveTo a p).Sound := by
  have hnew : ∀ i, p ≠ .inside i := by
    rintro i rfl
    cases hclaim
  refine ⟨fun b i hb => ?_, fun b i => ?_⟩
  · by_cases hba : b = a
    · subst hba
      rw [moveTo_place_self, hclaim] at hb
      cases hb
    · rw [moveTo_place_of_ne _ p hba] at hb
      exact h.named b i hb
  · show Function.update s.owner inode none i = some b ↔ _
    by_cases hba : b = a
    · subst hba
      rw [moveTo_place_self]
      refine iff_of_false (fun howner => ?_) (hnew i)
      by_cases hi : i = inode
      · rw [hi, Function.update_self] at howner
        cases howner
      · rw [Function.update_of_ne hi] at howner
        have hb := (h.owned b i).mp howner
        rw [ha] at hb
        exact hi (Place.inside.inj hb).symm
    · rw [moveTo_place_of_ne _ p hba]
      by_cases hi : i = inode
      · rw [hi, Function.update_self]
        refine iff_of_false nofun fun hb => hba ?_
        exact h.exclusive b a ⟨inode, hb⟩ ⟨inode, ha⟩
      · rw [Function.update_of_ne hi]
        exact h.owned b i

/-- The name of the lock file is only removed while nobody has locked it or is
about to. -/
def UnlinksUnused (event : LockEvent α) (s : LockState α) : Prop :=
  ∀ a, event = .unlink a → s.place a = .closed →
    ∀ inode, s.lockFile = some inode → ∀ b, (s.place b).claim ≠ some inode

/-- Taking a free lock on the named file. -/
theorem Sound.take (h : s.Sound)
    (ha : s.place a = .opened blocking inode) (hfree : s.owner inode = none) :
    ({ s with owner := Function.update s.owner inode (some a) }.moveTo a (.inside inode)).Sound := by
  have hnamed := h.named a inode (by rw [ha]; rfl)
  refine ⟨fun b i hb => ?_, fun b i => ?_⟩
  · by_cases hba : b = a
    · subst hba
      rw [moveTo_place_self] at hb
      cases hb
      exact hnamed
    · rw [moveTo_place_of_ne _ _ hba] at hb
      exact h.named b i hb
  · show Function.update s.owner inode (some a) i = some b ↔ _
    by_cases hba : b = a
    · subst hba
      rw [moveTo_place_self]
      by_cases hi : i = inode
      · simp [hi]
      · rw [Function.update_of_ne hi, h.owned, ha]
        exact iff_of_false nofun fun hinside => hi (Place.inside.inj hinside).symm
    · rw [moveTo_place_of_ne _ _ hba]
      by_cases hi : i = inode
      · subst hi
        rw [Function.update_self, ← h.owned, hfree]
        exact iff_of_false (fun hsame => hba (Option.some.inj hsame).symm) nofun
      · rw [Function.update_of_ne hi]
        exact h.owned b i

omit [DecidableEq α] in
/-- A new lock file, when there is none. -/
theorem Sound.create (h : s.Sound) (hnone : s.lockFile = none) (inode next : ℕ) :
    { s with lockFile := some inode, nextInode := next }.Sound := by
  refine ⟨fun b i hb => ?_, h.owned⟩
  have hnamed := h.named b i hb
  rw [hnone] at hnamed
  cases hnamed

theorem step_sound (event : LockEvent α) (s : LockState α) (hunused : UnlinksUnused event s)
    (h : s.Sound) : (step event s).Sound := by
  cases event with
  | enter a blocking =>
    show (s.enter a blocking).Sound
    unfold enter
    split
    · next ha =>
      have hmade : { s with staging := true }.Sound := ⟨h.named, h.owned⟩
      exact hmade.moveTo nofun nofun (by rw [ha]; exact nofun)
    · exact h
  | openFile a =>
    show (s.openFile a).Sound
    unfold openFile
    split
    · next blocking ha =>
      split_ifs with hstaging
      · split
        · next inode hfile =>
          refine h.moveTo (fun i hi => ?_) nofun (by rw [ha]; exact nofun)
          cases hi
          exact hfile
        · next hfile =>
          refine (h.create hfile _ _).moveTo (fun i hi => ?_) nofun (by rw [ha]; exact nofun)
          cases hi
          rfl
      · exact h.moveTo nofun nofun (by rw [ha]; exact nofun)
    · exact h
  | flock a =>
    show (s.flock a).Sound
    unfold flock
    split
    · next blocking inode ha =>
      split_ifs with hfree hblocking
      · exact h.take ha hfree
      · exact h
      · exact h.moveTo nofun nofun (by rw [ha]; exact nofun)
    · exact h
  | giveUp a =>
    show (s.giveUp a).Sound
    unfold giveUp
    split
    · next inode ha => exact h.moveTo nofun nofun (by rw [ha]; exact nofun)
    · exact h
  | unlock a =>
    show (s.unlock a).Sound
    unfold unlock
    split
    · next inode ha => exact h.drop ha rfl
    · exact h
  | close a =>
    show (s.close a).Sound
    unfold close
    split
    · next inode ha => exact h.moveTo nofun nofun (by rw [ha]; exact nofun)
    · exact h
  | unlink a =>
    show (s.unlink a).Sound
    unfold unlink
    split
    · next ha =>
      -- nobody claims the named inode, and no other one is claimed
      have hunclaimed : ∀ b inode, (s.place b).claim ≠ some inode := fun b inode hb =>
        hunused a rfl ha inode (h.named b inode hb) b hb
      have hremoved : { s with lockFile := none }.Sound :=
        ⟨fun b inode hb => absurd hb (hunclaimed b inode), h.owned⟩
      exact hremoved.moveTo nofun nofun (by rw [ha]; exact nofun)
    · exact h
  | rmdir a =>
    show (s.rmdir a).Sound
    unfold rmdir
    split
    · next ha =>
      have hemptied : { s with staging := s.staging && (s.lockFile.isSome || s.otherEntries) }.Sound :=
        ⟨h.named, h.owned⟩
      exact hemptied.moveTo nofun nofun (by rw [ha]; exact nofun)
    · exact h
  | die a =>
    show (s.die a).Sound
    unfold die
    split
    · next inode ha => exact h.drop ha rfl
    · next hnot => exact h.moveTo nofun nofun hnot
  | contents otherEntries => exact ⟨h.named, h.owned⟩

/-! ## The runs -/

/-- Nobody is in `finalization_lock`; the directory may have been left in any
state. -/
structure Idle (s : LockState α) : Prop where
  outside : ∀ a, s.place a = .outside
  free : ∀ inode, s.owner inode = none

omit [DecidableEq α] in
theorem Idle.sound (h : s.Idle) : s.Sound := by
  refine ⟨fun a inode ha => ?_, fun a inode => ?_⟩
  · rw [h.outside] at ha
    cases ha
  · rw [h.outside, h.free]
    exact iff_of_false nofun nofun

/-- After the step at most one worker is inside, and one that has just got in
found nobody there. -/
def KeepsApart (event : LockEvent α) (s : LockState α) : Prop :=
  (step event s).Exclusive ∧
    ∀ a, (step event s).Inside a → ¬s.Inside a → ∀ b, ¬s.Inside b

theorem moveTo_inside (h : (s.moveTo b p).Inside a)
    (hp : ∀ inode, p ≠ .inside inode) : s.Inside a := by
  obtain ⟨inode, ha⟩ := h
  by_cases hab : a = b
  · subst hab
    rw [moveTo_place_self] at ha
    exact absurd ha (hp inode)
  · rw [moveTo_place_of_ne _ p hab] at ha
    exact ⟨inode, ha⟩

/-- Only a free lock lets a worker in. -/
theorem opened_of_enters {event : LockEvent α} (h : (step event s).Inside a) (hnot : ¬s.Inside a) :
    ∃ blocking inode, s.place a = .opened blocking inode ∧ s.owner inode = none := by
  cases event with
  | flock b =>
    have hstep : (s.flock b).Inside a := h
    unfold flock at hstep
    split at hstep
    · next blocking inode hb =>
      split_ifs at hstep with hfree hblocking
      · by_cases hab : a = b
        · subst hab
          exact ⟨blocking, inode, hb, hfree⟩
        · obtain ⟨i, hi⟩ := hstep
          rw [moveTo_place_of_ne _ _ hab] at hi
          exact absurd ⟨i, hi⟩ hnot
      · exact absurd hstep hnot
      · exact absurd (moveTo_inside hstep nofun) hnot
    · exact absurd hstep hnot
  | enter b blocking =>
    have hstep : (s.enter b blocking).Inside a := h
    unfold enter at hstep
    split at hstep
    · exact absurd (moveTo_inside hstep nofun) hnot
    · exact absurd hstep hnot
  | openFile b =>
    have hstep : (s.openFile b).Inside a := h
    unfold openFile at hstep
    split at hstep
    · split_ifs at hstep
      · split at hstep
        · exact absurd (moveTo_inside hstep nofun) hnot
        · exact absurd (moveTo_inside hstep nofun) hnot
      · exact absurd (moveTo_inside hstep nofun) hnot
    · exact absurd hstep hnot
  | giveUp b =>
    have hstep : (s.giveUp b).Inside a := h
    unfold giveUp at hstep
    split at hstep
    · exact absurd (moveTo_inside hstep nofun) hnot
    · exact absurd hstep hnot
  | unlock b =>
    have hstep : (s.unlock b).Inside a := h
    unfold unlock at hstep
    split at hstep
    · exact absurd (moveTo_inside hstep nofun) hnot
    · exact absurd hstep hnot
  | close b =>
    have hstep : (s.close b).Inside a := h
    unfold close at hstep
    split at hstep
    · exact absurd (moveTo_inside hstep nofun) hnot
    · exact absurd hstep hnot
  | unlink b =>
    have hstep : (s.unlink b).Inside a := h
    unfold unlink at hstep
    split at hstep
    · exact absurd (moveTo_inside hstep nofun) hnot
    · exact absurd hstep hnot
  | rmdir b =>
    have hstep : (s.rmdir b).Inside a := h
    unfold rmdir at hstep
    split at hstep
    · exact absurd (moveTo_inside hstep nofun) hnot
    · exact absurd hstep hnot
  | die b =>
    have hstep : (s.die b).Inside a := h
    unfold die at hstep
    split at hstep
    · exact absurd (moveTo_inside hstep nofun) hnot
    · exact absurd (moveTo_inside hstep nofun) hnot
  | contents otherEntries => exact absurd h hnot

omit [DecidableEq α] in
/-- Nobody is inside while a free lock file is opened. -/
theorem Sound.nobody_inside (h : s.Sound)
    (ha : s.place a = .opened blocking inode) (hfree : s.owner inode = none) (b : α) :
    ¬s.Inside b := by
  rintro ⟨j, hb⟩
  have hi := h.named a inode (by rw [ha]; rfl)
  have hj := h.named b j (by rw [hb]; rfl)
  obtain rfl : inode = j := Option.some.inj (hi.symm.trans hj)
  have howner := (h.owned b inode).mpr hb
  rw [hfree] at howner
  cases howner

theorem step_keepsApart (event : LockEvent α) (s : LockState α) (hunused : UnlinksUnused event s)
    (h : s.Sound) : KeepsApart event s := by
  refine ⟨(step_sound event s hunused h).exclusive, fun a hinside hnot => ?_⟩
  obtain ⟨blocking, inode, ha, hfree⟩ := opened_of_enters hinside hnot
  exact h.nobody_inside ha hfree

/-- As long as the lock file's name is never removed while somebody has locked
the file, or has opened it to lock it, at most one worker is inside. -/
theorem finalization_lock_excludes {s : LockState α} (hidle : s.Idle) {events : List (LockEvent α)}
    (hrun : Throughout step UnlinksUnused events s) : Throughout step KeepsApart events s :=
  throughout_of_invariant step_sound step_keepsApart hidle.sound hrun

/-! ### Two workers inside -/

/-- An empty station: nobody there, no staging directory. -/
def fresh : LockState ℕ := ⟨false, false, none, 0, fun _ => none, fun _ => .outside⟩

theorem fresh_idle : fresh.Idle := ⟨fun _ => rfl, fun _ => rfl⟩

/-- Worker 0 leaves after worker 1 has opened the file: worker 2 finds no name
and locks a new file next to worker 1. -/
def removedName : List (LockEvent ℕ) :=
  [.enter 0 true, .openFile 0, .flock 0, .enter 1 true, .openFile 1, .unlock 0, .close 0, .flock 1,
    .unlink 0, .enter 2 false, .openFile 2, .flock 2]

theorem finalization_lock_excludes_sample :
    Throughout step KeepsApart [.enter 0 true, .openFile 0, .flock 0, .enter 1 false, .openFile 1,
      .flock 1, .giveUp 1, .unlock 0, .close 0, .unlink 0, .rmdir 0] fresh := by
  refine finalization_lock_excludes fresh_idle ⟨nofun, nofun, nofun, nofun, nofun, nofun, nofun,
    nofun, nofun, ?_, nofun, trivial⟩
  intro a ha _ inode _ b
  match b with
  | 0 => exact nofun
  | 1 => exact nofun
  | b + 2 => exact nofun

theorem two_workers_inside :
    fresh.Idle ∧ (run step removedName fresh).Inside 1 ∧ (run step removedName fresh).Inside 2 :=
  ⟨fresh_idle, ⟨0, rfl⟩, ⟨1, rfl⟩⟩

end LockState

end IsadoraAir.Aircheck
