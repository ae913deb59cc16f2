import Mathlib.Data.Set.Basic

/-!
# Locks and sessions

Row locks, and sessions that write under them and commit.
-/

/-!
## Exclusive row locks

A transaction locks rows as it goes and gives all of them back when it ends. A
row that it does not get it waits for, or skips.
-/

namespace IsadoraAir

/-- Who holds which row. -/
structure RowLocks (ρ α : Type) where
  owner : ρ → Option α

namespace RowLocks

variable {ρ α : Type} {locks : RowLocks ρ α} {a b : α} {row : ρ} {rows : ρ → Bool}

def none : RowLocks ρ α := ⟨fun _ => Option.none⟩

def lock (locks : RowLocks ρ α) (a : α) (rows : ρ → Bool) : RowLocks ρ α :=
  ⟨fun row => if rows row then some a else locks.owner row⟩

theorem owner_lock_of_mem (h : rows row) : (locks.lock a rows).owner row = some a := by
  simp [lock, h]

theorem owner_lock_of_owner (h : locks.owner row = some a) :
    (locks.lock a rows).owner row = some a := by
  simp [lock, h]

variable [DecidableEq α]

/-- The row is free, or the transaction's already. -/
def available (locks : RowLocks ρ α) (a : α) (row : ρ) : Bool :=
  locks.owner row = Option.none ∨ locks.owner row = some a

def release (locks : RowLocks ρ α) (a : α) : RowLocks ρ α :=
  ⟨fun row => if locks.owner row = some a then Option.none else locks.owner row⟩

/-- Taking available rows takes nothing from anybody else. -/
theorem owner_lock_of_ne (hrows : ∀ row, rows row → locks.available a row) (hb : b ≠ a)
    (h : locks.owner row = some b) : (locks.lock a rows).owner row = some b := by
  simp only [lock]
  split_ifs with hrow
  · have havailable := hrows row hrow
    simp [available, h, hb] at havailable
  · exact h

theorem owner_release_of_ne (hb : b ≠ a) (h : locks.owner row = some b) :
    (locks.release a).owner row = some b := by
  simp [release, h, hb]

theorem ne_of_available (h : locks.available a row) (hb : b ≠ a) : locks.owner row ≠ some b := by
  intro howner
  simp [available, howner, hb] at h

end RowLocks

end IsadoraAir

/-!
## Database sessions

A session sees what is committed and its own writes, which nobody else sees
before its commit. It keeps the rows it has locked until it ends.
-/

namespace IsadoraAir

/-- A database, the writes not yet committed, and the locks. -/
structure Sessions (δ ω ρ α : Type) where
  db : δ
  pending : α → List ω
  locks : RowLocks ρ α

namespace Sessions

variable {δ ω ρ α : Type} {a b : α} {row : ρ} {s s' : Sessions δ ω ρ α}

def initial (db : δ) : Sessions δ ω ρ α := ⟨db, fun _ => [], .none⟩

/-- What the session sees. -/
def view (apply : δ → ω → δ) (s : Sessions δ ω ρ α) (a : α) : δ := (s.pending a).foldl apply s.db

def lock (s : Sessions δ ω ρ α) (a : α) (rows : ρ → Bool) : Sessions δ ω ρ α :=
  { s with locks := s.locks.lock a rows }

theorem view_of_clean {apply : δ → ω → δ} (h : s.pending a = []) : s.view apply a = s.db := by
  simp [view, h]

/-- The session has written nothing and holds nothing. -/
structure Clean (a : α) (s : Sessions δ ω ρ α) : Prop where
  pending : s.pending a = []
  owner : ∀ row, s.locks.owner row ≠ some a

theorem initial_clean (db : δ) (a : α) : Clean a (initial db : Sessions δ ω ρ α) :=
  ⟨rfl, fun _ h => by cases h⟩

/-- What the session has written and locked is left alone. -/
structure Spared (b : α) (s s' : Sessions δ ω ρ α) : Prop where
  pending : s'.pending b = s.pending b
  owner : ∀ row, s.locks.owner row = some b → s'.locks.owner row = some b
  clean : Clean b s → Clean b s'

theorem Spared.refl (b : α) (s : Sessions δ ω ρ α) : Spared b s s := ⟨rfl, fun _ h => h, id⟩

theorem Spared.trans {s'' : Sessions δ ω ρ α} (h : Spared b s s') (h' : Spared b s' s'') :
    Spared b s s'' :=
  ⟨h'.pending.trans h.pending, fun row ho => h'.owner row (h.owner row ho),
    fun hclean => h'.clean (h.clean hclean)⟩

variable [DecidableEq α]

def write (s : Sessions δ ω ρ α) (a : α) (w : ω) : Sessions δ ω ρ α :=
  { s with pending := Function.update s.pending a (s.pending a ++ [w]) }

def rollback (s : Sessions δ ω ρ α) (a : α) : Sessions δ ω ρ α :=
  ⟨s.db, Function.update s.pending a [], s.locks.release a⟩

def commit (apply : δ → ω → δ) (s : Sessions δ ω ρ α) (a : α) : Sessions δ ω ρ α :=
  { s.rollback a with db := s.view apply a }

theorem write_pending_self (w : ω) : (s.write a w).pending a = s.pending a ++ [w] :=
  Function.update_self ..

theorem write_pending_of_ne (w : ω) (h : b ≠ a) : (s.write a w).pending b = s.pending b :=
  Function.update_of_ne h ..

theorem rollback_pending_of_ne (h : b ≠ a) : (s.rollback a).pending b = s.pending b :=
  Function.update_of_ne h ..

theorem rollback_clean (s : Sessions δ ω ρ α) (a : α) : Clean a (s.rollback a) := by
  refine ⟨Function.update_self .., fun row h => ?_⟩
  by_cases howner : s.locks.owner row = some a <;> simp [rollback, RowLocks.release, howner] at h

theorem commit_clean (apply : δ → ω → δ) (s : Sessions δ ω ρ α) (a : α) :
    Clean a (s.commit apply a) :=
  ⟨(rollback_clean s a).pending, (rollback_clean s a).owner⟩

theorem lock_spared {rows : ρ → Bool} (hrows : ∀ row, rows row → s.locks.available a row)
    (hb : b ≠ a) : Spared b s (s.lock a rows) where
  pending := rfl
  owner _ h := RowLocks.owner_lock_of_ne hrows hb h
  clean h := by
    refine ⟨h.pending, fun row howner => ?_⟩
    simp only [lock, RowLocks.lock] at howner
    split at howner
    · exact hb (Option.some.inj howner).symm
    · exact h.owner row howner

theorem write_spared (w : ω) (hb : b ≠ a) : Spared b s (s.write a w) where
  pending := write_pending_of_ne w hb
  owner _ h := h
  clean h := ⟨(write_pending_of_ne w hb).trans h.pending, h.owner⟩

theorem rollback_spared (hb : b ≠ a) : Spared b s (s.rollback a) where
  pending := rollback_pending_of_ne hb
  owner _ h := RowLocks.owner_release_of_ne hb h
  clean h := by
    refine ⟨(rollback_pending_of_ne hb).trans h.pending, fun row howner => ?_⟩
    simp only [rollback, RowLocks.release] at howner
    split at howner
    · cases howner
    · exact h.owner row howner

theorem commit_spared (apply : δ → ω → δ) (hb : b ≠ a) : Spared b s (s.commit apply a) :=
  ⟨(rollback_spared hb).pending, (rollback_spared hb).owner,
    fun h => ⟨((rollback_spared hb).clean h).pending, ((rollback_spared hb).clean h).owner⟩⟩

end Sessions

end IsadoraAir
