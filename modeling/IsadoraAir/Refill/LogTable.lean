import IsadoraAir.Foundation.Keyed
import IsadoraAir.Foundation.PyError
import Mathlib.Tactic.Linarith

/-!
# The log item table

A table carries its two unique constraints: the primary key and one row for
each position of a log. Statements work row by row and are checked row by row,
as they are by the database, and rows are stored in no particular order.
-/

namespace IsadoraAir.Refill

variable {row : LogItem}

inductive InstallStatus where
  | installed
  | dryRunOnly
  | liveFillPending
  | refillInFlight
  | adoptionPending
  | attemptLimit
  | snapshotUnavailable
  | stale
  | unsafeWindow
  | noSafeAnchor
  | lockContended
  | duplicate
  | policyRefused
  deriving DecidableEq, Repr

/-- What can leave the install transaction: an abort of its own, a database
error, or an exception of the interpreter. -/
inductive InstallError where
  | abort (status : InstallStatus) (reason : String)
  | integrityError
  | dataError
  | operationalError (code : Option String)
  | doesNotExist
  | python (error : PyError)
  deriving DecidableEq, Repr

inductive LogItemOrigin where
  | generatedSchedule
  | generatedFill
  | liveFill
  | operatorInserted
  | engineInserted
  | refillInstalled
  deriving DecidableEq, Repr

structure LogItem where
  id : ℕ
  playlistLogId : ℕ
  position : ℕ
  scheduledTime : ℚ
  trackId : Option ℕ
  trackTitle : String
  trackArtist : String
  categoryId : Option ℕ
  playbackClaimedAt : Option ℚ
  playedAt : Option ℚ
  origin : Option LogItemOrigin
  deriving DecidableEq

namespace LogItem

/-- `unique_together` forbids two of these. -/
def SamePlace (a b : LogItem) : Prop :=
  a.playlistLogId = b.playlistLogId ∧ a.position = b.position

instance (a b : LogItem) : Decidable (SamePlace a b) := inferInstanceAs (Decidable (_ ∧ _))

theorem SamePlace.symm {a b : LogItem} (h : SamePlace a b) : SamePlace b a := ⟨h.1.symm, h.2.symm⟩

def atPosition (row : LogItem) (position : ℕ) : LogItem := { row with position := position }

@[simp] theorem atPosition_id (row : LogItem) (p : ℕ) : (row.atPosition p).id = row.id := rfl

@[simp] theorem atPosition_playlistLogId (row : LogItem) (p : ℕ) :
    (row.atPosition p).playlistLogId = row.playlistLogId := rfl

@[simp] theorem atPosition_position (row : LogItem) (p : ℕ) :
    (row.atPosition p).position = p := rfl

@[simp] theorem atPosition_atPosition (row : LogItem) (p q : ℕ) :
    (row.atPosition p).atPosition q = row.atPosition q := rfl

@[simp] theorem atPosition_self (row : LogItem) : row.atPosition row.position = row := rfl

end LogItem

structure LogTable where
  rows : List LogItem
  ids : (rows.map LogItem.id).Nodup
  unique : rows.Pairwise fun a b => ¬ a.SamePlace b

namespace LogTable

/-- The rows of one log, ordered by position. -/
def ofLog (table : LogTable) (logId : ℕ) : List LogItem :=
  sortedBy LogItem.position (table.rows.filter fun row => row.playlistLogId = logId)

/-- The range of a positive integer column. -/
def positionLimit : ℤ := 2147483647

/-- A value too large for the column is no integrity error; a negative one
violates the column's check. -/
def storedPosition (position : ℤ) : Except InstallError ℕ :=
  if positionLimit < position then .error .dataError
  else if position < 0 then .error .integrityError
  else .ok position.toNat

/-- The rows after the row `id` was given a new position. -/
def rowsAt (rows : List LogItem) (id position : ℕ) : List LogItem :=
  rows.map fun row => if row.id = id then row.atPosition position else row

theorem map_id_rowsAt (rows : List LogItem) (id position : ℕ) :
    (rowsAt rows id position).map LogItem.id = rows.map LogItem.id := by
  simp only [rowsAt, List.map_map]
  apply List.map_congr_left
  intro row _
  by_cases h : row.id = id <;> simp [h]

/-- The check of the unique index when one row is rewritten. -/
def Free (rows : List LogItem) (id position : ℕ) : Prop :=
  ∀ row ∈ rows, row.id = id → ∀ other ∈ rows, other.id ≠ id →
    ¬ (row.atPosition position).SamePlace other

instance (rows : List LogItem) (id position : ℕ) : Decidable (Free rows id position) :=
  inferInstanceAs (Decidable (∀ row ∈ rows, row.id = id → ∀ other ∈ rows, other.id ≠ id →
    ¬ (row.atPosition position).SamePlace other))

theorem unique_rowsAt {table : LogTable} {id position : ℕ} (h : Free table.rows id position) :
    (rowsAt table.rows id position).Pairwise fun a b => ¬ a.SamePlace b := by
  rw [rowsAt, List.pairwise_map]
  have hids : table.rows.Pairwise fun a b => a.id ≠ b.id := List.pairwise_map.mp table.ids
  refine (hids.imp₂ (fun _ _ hne hplace => And.intro hne hplace) table.unique).imp_of_mem ?_
  intro a b ha hb hab
  obtain ⟨hne, hplace⟩ := hab
  by_cases hai : a.id = id
  · have hbi : b.id ≠ id := fun hbi => hne (hai.trans hbi.symm)
    simpa [hai, hbi] using h a ha hai b hb hbi
  · by_cases hbi : b.id = id
    · simpa [hai, hbi] using fun hs => h b hb hbi a ha hai (LogItem.SamePlace.symm hs)
    · simpa [hai, hbi] using hplace

def setPosition (table : LogTable) (id : ℕ) (position : ℤ) : Except InstallError LogTable := do
  let position ← storedPosition position
  if h : Free table.rows id position then
    .ok ⟨rowsAt table.rows id position, by rw [map_id_rowsAt]; exact table.ids, unique_rowsAt h⟩
  else .error .integrityError

/-- The rows of an `UPDATE` statement, one after another. -/
def shiftEach (shift : ℤ) : List LogItem → LogTable → Except InstallError LogTable
  | [], table => .ok table
  | row :: rest, table => do
    let table ← table.setPosition row.id (row.position + shift)
    shiftEach shift rest table

/-- `filter(...).update(position=F("position") + shift)`. The rows and their
old positions are those found when the statement starts. -/
def updatePosition (table : LogTable) (selected : LogItem → Bool) (shift : ℤ) :
    Except InstallError LogTable :=
  shiftEach shift (table.rows.filter selected) table

def insert (table : LogTable) (row : LogItem) : Except InstallError LogTable :=
  if positionLimit < row.position then .error .dataError
  else if h : ∀ other ∈ table.rows, other.id ≠ row.id ∧ ¬ other.SamePlace row then
    .ok
      { rows := table.rows ++ [row]
        ids := by
          rw [List.map_append, List.nodup_append]
          refine ⟨table.ids, List.nodup_singleton _, ?_⟩
          intro a ha b hb
          obtain ⟨other, hother, rfl⟩ := List.mem_map.mp ha
          rw [List.mem_singleton.mp hb]
          exact (h other hother).1
        unique := by
          refine List.pairwise_append.mpr ⟨table.unique, List.pairwise_singleton _ _, ?_⟩
          intro other hother b hb
          rw [List.mem_singleton.mp hb]
          exact (h other hother).2 }
  else .error .integrityError

/-! ## What the statements do -/

theorem rows_of_insert {table table' : LogTable}
    (h : table.insert row = .ok table') : table'.rows = table.rows ++ [row] := by
  unfold insert at h
  split_ifs at h
  cases h
  rfl

theorem rows_of_setPosition {table table' : LogTable} {id : ℕ} {position : ℤ}
    (h : table.setPosition id position = .ok table') :
    table'.rows = rowsAt table.rows id position.toNat := by
  obtain ⟨p, hp, h⟩ := bind_eq_ok.mp h
  have hp' : p = position.toNat := by
    unfold storedPosition at hp
    split_ifs at hp
    cases hp
    rfl
  split_ifs at h
  cases h
  exact congrArg (rowsAt table.rows id) hp'

/-- The effect of an update on one of its rows. -/
def moved (shift : ℤ) (row : LogItem) : LogItem :=
  row.atPosition (row.position + shift).toNat

theorem rows_of_shiftEach {shift : ℤ} {todo : List LogItem} {table table' : LogTable}
    (hids : (todo.map LogItem.id).Nodup) (hsub : ∀ row ∈ todo, row ∈ table.rows)
    (h : shiftEach shift todo table = .ok table') :
    table'.rows = table.rows.map fun row => if row ∈ todo then moved shift row else row := by
  induction todo generalizing table with
  | nil =>
    cases h
    simp
  | cons x rest ih =>
    obtain ⟨mid, hmid, h⟩ := bind_eq_ok.mp h
    have hmid := rows_of_setPosition hmid
    obtain ⟨hx, hrest⟩ := List.nodup_cons.mp hids
    have hxid : ∀ row ∈ rest, row.id ≠ x.id := by
      intro row hrow he
      exact hx (he ▸ List.mem_map_of_mem hrow)
    have heq : ∀ row ∈ table.rows, row.id = x.id → row = x := by
      intro row hrow he
      exact List.inj_on_of_nodup_map table.ids hrow (hsub x List.mem_cons_self) he
    have hsubmid : ∀ row ∈ rest, row ∈ mid.rows := by
      intro row hrow
      rw [hmid, rowsAt]
      refine List.mem_map.mpr ⟨row, hsub row (List.mem_cons_of_mem _ hrow), ?_⟩
      simp [hxid row hrow]
    rw [ih hrest hsubmid h, hmid, rowsAt, List.map_map]
    apply List.map_congr_left
    intro row hrow
    by_cases hid : row.id = x.id
    · have hmem : row.atPosition (x.position + shift).toNat ∉ rest :=
        fun hin => hxid _ hin (by simpa using hid)
      rw [heq row hrow hid] at hmem ⊢
      simp [hmem, moved]
    · have hne : row ≠ x := fun he => hid (he ▸ rfl)
      simp [hid, hne]

theorem rows_of_updatePosition {shift : ℤ} {selected : LogItem → Bool} {table table' : LogTable}
    (h : table.updatePosition selected shift = .ok table') :
    table'.rows = table.rows.map fun row => if selected row then moved shift row else row := by
  have hids : ((table.rows.filter selected).map LogItem.id).Nodup :=
    table.ids.sublist (List.filter_sublist.map LogItem.id)
  rw [rows_of_shiftEach hids (fun row hrow => List.mem_of_mem_filter hrow) h]
  apply List.map_congr_left
  intro row hrow
  simp [List.mem_filter, hrow]

theorem ofLog_perm (table : LogTable) (logId : ℕ) :
    (table.ofLog logId).Perm (table.rows.filter fun row => row.playlistLogId = logId) :=
  sortedBy_perm _ _

theorem mem_ofLog {table : LogTable} {logId : ℕ} :
    row ∈ table.ofLog logId ↔ row ∈ table.rows ∧ row.playlistLogId = logId := by
  simp [ofLog]

/-- The positions of one log are strictly increasing in its ordered rows. -/
theorem ofLog_pairwise (table : LogTable) (logId : ℕ) :
    (table.ofLog logId).Pairwise fun a b => a.position < b.position := by
  apply sortedBy_pairwise
  refine (table.unique.filter _).imp_of_mem ?_
  intro a b ha hb hab hpos
  have hlog : a.playlistLogId = b.playlistLogId := by
    rw [of_decide_eq_true (List.mem_filter.mp ha).2, of_decide_eq_true (List.mem_filter.mp hb).2]
  exact hab ⟨hlog, hpos⟩

theorem ofLog_eq {table : LogTable} {logId : ℕ} {rows : List LogItem}
    (hperm : (table.rows.filter fun row => row.playlistLogId = logId).Perm rows)
    (hrows : rows.Pairwise fun a b => a.position < b.position) : table.ofLog logId = rows :=
  sortedBy_eq _ hperm hrows

/-! ## Rows spliced into a log -/

/-- Move up by `k` what stands at `start` or beyond in one log. -/
def makeRoom (logId start k : ℕ) (row : LogItem) : LogItem :=
  if row.playlistLogId = logId ∧ start ≤ row.position then row.atPosition (row.position + k)
  else row

@[simp] theorem makeRoom_playlistLogId (logId start k : ℕ) (row : LogItem) :
    (makeRoom logId start k row).playlistLogId = row.playlistLogId := by
  unfold makeRoom
  split_ifs <;> rfl

theorem makeRoom_of_lt {logId start k : ℕ} (h : row.position < start) :
    makeRoom logId start k row = row :=
  if_neg fun hstart => absurd hstart.2 (Nat.not_le.mpr h)

theorem makeRoom_of_le {logId start k : ℕ} (hlog : row.playlistLogId = logId)
    (h : start ≤ row.position) :
    makeRoom logId start k row = row.atPosition (row.position + k) :=
  if_pos ⟨hlog, h⟩

/-- `created` was put in at `start`, with room made for it. -/
structure SplicedAt (table table' : LogTable) (logId start : ℕ) (created : List LogItem) :
    Prop where
  rows : table'.rows = table.rows.map (makeRoom logId start created.length) ++ created
  log : ∀ row ∈ created, row.playlistLogId = logId
  positions : created.map LogItem.position = (List.range created.length).map (start + ·)

namespace SplicedAt

variable {table table' : LogTable} {logId start : ℕ} {created : List LogItem}

theorem created_pairwise (h : SplicedAt table table' logId start created) :
    created.Pairwise fun a b => a.position < b.position := by
  have hrange : ((List.range created.length).map (start + ·)).Pairwise (· < ·) := by
    rw [List.pairwise_map]
    exact List.pairwise_lt_range.imp fun hab => by omega
  rw [← h.positions] at hrange
  exact List.pairwise_map.mp hrange

theorem created_bounds (h : SplicedAt table table' logId start created) (hrow : row ∈ created) :
    start ≤ row.position ∧ row.position < start + created.length := by
  have hmem : row.position ∈ created.map LogItem.position := List.mem_map_of_mem hrow
  rw [h.positions] at hmem
  obtain ⟨i, hi, heq⟩ := List.mem_map.mp hmem
  have := List.mem_range.mp hi
  omega

/-- The ordered rows afterwards: nothing before `start` changed, the new rows
come next, and the rest follows with its order kept. -/
theorem ofLog_eq (h : SplicedAt table table' logId start created) {before after : List LogItem}
    (hrows : table.ofLog logId = before ++ after) (hbefore : ∀ row ∈ before, row.position < start)
    (hafter : ∀ row ∈ after, start ≤ row.position) :
    table'.ofLog logId =
      before ++ (created ++ after.map fun row => row.atPosition (row.position + created.length)) := by
  have hlog : ∀ row ∈ before ++ after, row.playlistLogId = logId := by
    intro row hrow
    rw [← hrows] at hrow
    exact (mem_ofLog.mp hrow).2
  have hsorted := table.ofLog_pairwise logId
  rw [hrows] at hsorted
  obtain ⟨hb, ha, -⟩ := List.pairwise_append.mp hsorted
  apply LogTable.ofLog_eq
  · have hperm := (table.ofLog_perm logId).symm.map (makeRoom logId start created.length)
    have hfilter : table'.rows.filter (fun row => row.playlistLogId = logId) =
        (table.rows.filter fun row => row.playlistLogId = logId).map
          (makeRoom logId start created.length) ++ created := by
      rw [h.rows, List.filter_append, List.filter_map]
      congr 1
      · simp [Function.comp_def]
      · exact List.filter_eq_self.mpr fun row hrow => decide_eq_true (h.log row hrow)
    have hmap : (before ++ after).map (makeRoom logId start created.length) =
        before ++ after.map fun row => row.atPosition (row.position + created.length) := by
      rw [List.map_append]
      congr 1
      · exact (List.map_congr_left fun row hrow => makeRoom_of_lt (hbefore row hrow)).trans
          (List.map_id _)
      · exact List.map_congr_left fun row hrow =>
          makeRoom_of_le (hlog row (List.mem_append_right _ hrow)) (hafter row hrow)
    rw [hrows, hmap] at hperm
    rw [hfilter]
    refine (hperm.append_right created).trans ?_
    rw [List.append_assoc]
    exact List.Perm.append_left _ List.perm_append_comm
  · refine List.pairwise_append.mpr ⟨hb, List.pairwise_append.mpr ⟨h.created_pairwise, ?_, ?_⟩, ?_⟩
    · exact List.pairwise_map.mpr (ha.imp fun hab => by simpa using hab)
    · intro a ha' b hb'
      obtain ⟨row, hrow, rfl⟩ := List.mem_map.mp hb'
      have h1 := h.created_bounds ha'
      have h2 := hafter row hrow
      simp only [LogItem.atPosition_position]
      omega
    · intro a ha' b hb'
      have h1 := hbefore a ha'
      rcases List.mem_append.mp hb' with hb' | hb'
      · have h2 := h.created_bounds hb'
        omega
      · obtain ⟨row, hrow, rfl⟩ := List.mem_map.mp hb'
        have h2 := hafter row hrow
        simp only [LogItem.atPosition_position]
        omega

/-- Rows of other logs stay as they are. -/
theorem ofLog_other (h : SplicedAt table table' logId start created) {other : ℕ}
    (hother : other ≠ logId) : table'.ofLog other = table.ofLog other := by
  have hfilter : table'.rows.filter (fun row => row.playlistLogId = other) =
      table.rows.filter fun row => row.playlistLogId = other := by
    rw [h.rows, List.filter_append, List.filter_map]
    have hcreated : created.filter (fun row => row.playlistLogId = other) = [] := by
      refine List.filter_eq_nil_iff.mpr fun row hrow => ?_
      simp [h.log row hrow, hother.symm]
    rw [hcreated, List.append_nil]
    simp only [Function.comp_def, makeRoom_playlistLogId]
    refine (List.map_congr_left fun row hrow => ?_).trans (List.map_id _)
    have hlog : row.playlistLogId = other := of_decide_eq_true (List.mem_filter.mp hrow).2
    exact if_neg fun hroom => hother (hlog ▸ hroom.1)
  rw [ofLog, ofLog, hfilter]

end SplicedAt

end LogTable

end IsadoraAir.Refill
