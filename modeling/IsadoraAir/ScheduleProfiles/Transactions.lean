import IsadoraAir.ScheduleProfiles.Services

/-!
# Transactions on the profile tables

What each query answers from what is committed and the transaction's own writes,
what it waits for, and what everybody else's locked rows are spared.
-/

namespace IsadoraAir.ScheduleProfiles

variable {α : Type} [DecidableEq α] {s s' : Shared α} {a : α}

/-- The key and the UUID that a new row comes with. A state row that changed while it was
waited for may not join its profiles any more. -/
structure Choice where
  profile : ℕ
  uuid : Uuid
  joins : Bool

def storableSortOrder (value : ℤ) : Prop := -2147483648 ≤ value ∧ value ≤ 2147483647

instance (value : ℤ) : Decidable (storableSortOrder value) :=
  inferInstanceAs (Decidable (_ ∧ _))

namespace Database

variable (db : Database)

def maxSortOrder : Option ℤ := (db.profiles.values.map Profile.sortOrder).max?

def isNameTaken (name : Text) (own : Option ℕ) : Bool :=
  db.profiles.items.any fun item => item.2.name = name ∧ some item.1 ≠ own

def sourceRows (source : ℕ) (includeDateOverrides : Bool) : List ScheduleBlock :=
  db.blocks.filter fun block =>
    block.profile = source ∧ (includeDateOverrides ∨ block.specificDate = none)

/-- The new row would repeat a key of a unique index. -/
def Repeats (profile : ℕ) (row : Profile) : Prop :=
  profile ∈ db.profiles.keys ∨ db.isNameTaken row.name none ∨
    ∃ p ∈ db.profiles.values, p.uuid = row.uuid

instance decidableRepeats (profile : ℕ) (row : Profile) : Decidable (db.Repeats profile row) :=
  inferInstanceAs (Decidable (_ ∨ _ ∨ _))

/-- Why a write is refused at once. -/
def refuses : Write → Option Fault
  | .edit profile e =>
    if ∃ value ∈ e.sortOrder, ¬storableSortOrder value then some .dataError
    else if ∃ name ∈ e.name, db.isNameTaken name (some profile) then some .integrityError
    else none
  | .insert profile row =>
    if ¬storableSortOrder row.sortOrder then some .dataError
    else if db.Repeats profile row then some .integrityError
    else none
  | .delete profile =>
    if db.IsUsed profile ∨ ∃ row ∈ db.state, row.activeProfile = profile ∨
      row.defaultProfile = profile then some .protectedError
    else none
  | _ => none

end Database

abbrev view (s : Shared α) (a : α) : Database := Sessions.view Database.apply s a

def available (s : Shared α) (a : α) (rows : List Row) : Prop :=
  ∀ row ∈ rows, s.locks.available a row = true

instance (s : Shared α) (a : α) (rows : List Row) : Decidable (available s a rows) :=
  inferInstanceAs (Decidable (∀ row ∈ rows, _))

def lockRows (s : Shared α) (a : α) (rows : List Row) : Shared α :=
  s.lock a fun row => decide (row ∈ rows)

/-- A query that locks what it returns. -/
def selectForUpdate {β : Type} (s : Shared α) (a : α) (rows : List Row) (result : β) :
    Option (β × Shared α) :=
  if available s a rows then some (result, lockRows s a rows) else none

def writeRow {β : Type} (s : Shared α) (a : α) (w : Write) (result : β) :
    Option (Except Fault β × Shared α) :=
  if available s a w.rows then
    match (view s a).refuses w with
    | some fault => some (.error fault, s)
    | none => some (.ok result, (lockRows s a w.rows).write a w)
  else none

/-- The foreign keys are checked now, so that the referenced rows are waited for. -/
def commitRows (s : Shared α) (a : α) : Option (Except Fault Unit × Shared α) :=
  if available s a (((s.pending a).flatMap Write.references).map .profile) then
    if (view s a).Refers then some (.ok (), s.commit Database.apply a)
    else some (.error .integrityError, s.rollback a)
  else none

def exec (c : Choice) (a : α) : (x : Action) → Shared α → Option (x.Result × Shared α)
  | .readState, s => some ((view s a).state, s)
  | .profileIds, s => some ((view s a).profiles.keys, s)
  | .lockState, s =>
    match (view s a).joined with
    | some state =>
      if c.joins then
        selectForUpdate s a
          [.state, .profile state.row.activeProfile, .profile state.row.defaultProfile]
          (some state)
      else some (none, s)
    | none => some (none, s)
  | .lockProfile profile, s =>
    match (view s a).profiles.get? profile with
    | some row => selectForUpdate s a [.profile profile] (some row)
    | none => some (none, s)
  | .maxSortOrder, s => some ((view s a).maxSortOrder, s)
  | .isNameTaken name own, s => some ((view s a).isNameTaken name own, s)
  | .sourceRows source includeDateOverrides, s =>
    some ((view s a).sourceRows source includeDateOverrides, s)
  | .countBlocks profile, s =>
    some ((view s a).blocks.countP fun block => block.profile = profile, s)
  | .countLogs profile, s => some ((view s a).logs.count (some profile), s)
  | .insert values, s =>
    let row : Profile := ⟨c.uuid, values.name, values.description, values.sortOrder, false⟩
    writeRow s a (.insert c.profile row) (c.profile, row)
  | .write (.createState profile), s =>
    if (view s a).state = none then writeRow s a (.createState profile) ()
    else some (.ok (), s)
  | .write w, s => writeRow s a w ()
  | .commit, s => commitRows s a
  | .rollback, s => some ((), s.rollback a)

/-- Operators sharing the tables; the connection of an abandoned request is rolled back. -/
def operators : Crew Action.Result (Shared α) α Choice where
  exec := exec
  abandon a s := s.rollback a

abbrev State (α : Type) := Crew.State Action.Result (Shared α) α Call Fault Answer

abbrev Event (α : Type) := Crew.Event α Choice Call

def step (e : Event α) (s : State α) : State α := operators.step program e s

def initial (db : Database) : State α := Crew.idle (Sessions.initial db)

/-! ## What an action does -/

inductive Effect (a : α) (s : Shared α) : Action → Shared α → Prop
  | none (x : Action) : Effect a s x s
  | lock (x : Action) (rows : List Row) (h : available s a rows) :
    Effect a s x (lockRows s a rows)
  | write (x : Action) (w : Write) (h : available s a w.rows)
    (hrefuses : (view s a).refuses w = Option.none) :
    Effect a s x ((lockRows s a w.rows).write a w)
  | commit (h : (view s a).Refers) : Effect a s .commit (s.commit Database.apply a)
  | rollback (x : Action) : Effect a s x (s.rollback a)

theorem selectForUpdate_eq_some {β : Type} {rows : List Row}
    {result r : β} : selectForUpdate s a rows result = some (r, s') ↔
      available s a rows ∧ result = r ∧ lockRows s a rows = s' := by
  simp [selectForUpdate]

theorem writeRow_eq_some {β : Type} {w : Write} {result : β}
    {r : Except Fault β} (h : writeRow s a w result = some (r, s')) :
    ((view s a).refuses w = none ∧ r = .ok result ∧ available s a w.rows ∧
      s' = (lockRows s a w.rows).write a w) ∨ (∃ fault, r = .error fault) ∧ s' = s := by
  unfold writeRow at h
  split_ifs at h with hrows
  split at h
  · next fault hrefuses =>
    cases h
    exact .inr ⟨⟨fault, rfl⟩, rfl⟩
  · next hrefuses =>
    cases h
    exact .inl ⟨hrefuses, rfl, hrows, rfl⟩

theorem commitRows_eq_some {r : Except Fault Unit}
    (h : commitRows s a = some (r, s')) :
    (r = .ok () ∧ (view s a).Refers ∧ s' = s.commit Database.apply a) ∨
      r = .error .integrityError ∧ s' = s.rollback a := by
  unfold commitRows at h
  split_ifs at h with hrows hrefers
  · cases h
    exact .inl ⟨rfl, hrefers, rfl⟩
  · cases h
    exact .inr ⟨rfl, rfl⟩

theorem writeRow_effect (x : Action) {β : Type} {w : Write} {result : β}
    {r : Except Fault β} (h : writeRow s a w result = some (r, s')) : Effect a s x s' := by
  rcases writeRow_eq_some h with ⟨hrefuses, -, hrows, rfl⟩ | ⟨-, rfl⟩
  · exact .write x w hrows hrefuses
  · exact .none x

theorem exec_effect {c : Choice} {x : Action} {r : x.Result}
    (h : exec c a x s = some (r, s')) : Effect a s x s' := by
  cases x with
  | lockState =>
    simp only [exec] at h
    split at h
    · split_ifs at h
      · obtain ⟨hrows, -, rfl⟩ := selectForUpdate_eq_some.mp h
        exact .lock _ _ hrows
      · cases h
        exact .none _
    · cases h
      exact .none _
  | lockProfile profile =>
    simp only [exec] at h
    split at h
    · obtain ⟨hrows, -, rfl⟩ := selectForUpdate_eq_some.mp h
      exact .lock _ _ hrows
    · cases h
      exact .none _
  | insert values => exact writeRow_effect _ h
  | write w =>
    cases w with
    | createState profile =>
      simp only [exec] at h
      split_ifs at h
      · exact writeRow_effect _ h
      · cases h
        exact .none _
    | _ => exact writeRow_effect _ h
  | commit =>
    rcases commitRows_eq_some h with ⟨-, hrefers, rfl⟩ | ⟨-, rfl⟩
    · exact .commit hrefers
    · exact .rollback _
  | rollback =>
    cases h
    exact .rollback _
  | _ =>
    cases h
    exact .none _

end IsadoraAir.ScheduleProfiles
