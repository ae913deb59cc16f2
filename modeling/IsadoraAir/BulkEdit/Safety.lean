import IsadoraAir.BulkEdit.Planning
import IsadoraAir.BulkEdit.Claiming

/-!
# The transaction of a Track

What it does, and that it writes only what was previewed.
-/

/-!
## What the transaction of a Track does

It writes the Track only as it was previewed and not refused, and what it writes
is what the change set asks for.
-/

namespace IsadoraAir.BulkEdit

variable {d : Disposition}

variable {ρ : Type} {cfg : Config} {job : Job} {id : ℕ} {known : Dict ℕ String}
  {guard : Option String} {now : ℤ} {db db' : Db ρ} {t t' : Track ρ}

/-- The Track is as the preview has seen it, and the preview has not refused it. -/
def AsPreviewed (cfg : Config) (record : Record) (db : Db ρ) (id : ℕ) (t : Track ρ) : Prop :=
  ∃ previewed, record.tracks.get? id = some (editState cfg db t, previewed) ∧
    ∀ reason, previewed ≠ .refused reason

/-- The Track before and after its edit; the looked-up rows are those of `prepared` or of the
transaction itself. -/
structure Edited (cfg : Config) (changes : Changes) (prepared after : Db ρ) (albumArtist : String)
    (t t' : Track ρ) : Prop where
  unnamed : ∀ f, changes.op f = none → t'.columns f = t.columns f
  cleared : ∀ f, changes.op f = some .clear → t'.columns f = f.spec.empty
  literal : ∀ f v, changes.op f = some (.set v) → f.isNamed = false → t'.columns f = v
  named : ∀ f name, f.isNamed = true → changes.name f = some name →
    ∃ row, t'.columns f = .row row ∧
      (Names cfg prepared albumArtist name row f ∨ Names cfg after albumArtist name row f)
  additional : ∀ c, c ∈ t'.additional ↔ .row c ≠ t'.columns .category ∧
    (c ∈ changes.addCategories ∨ c ∈ t.additional ∧ c ∉ changes.removeCategories)
  holidays : ∀ c, c ∈ t'.holidays ↔
    c ∈ changes.addHolidays ∨ c ∈ t.holidays ∧ c ∉ changes.removeHolidays
  filepath : t'.filepath = t.filepath
  rest : t'.rest = t.rest

theorem planned_extends : db.Extends (planned job db t).2 := albumRow_extends

theorem name_op {changes : Changes} {f : Field} {name : String} (h : changes.name f = some name) :
    changes.op f = some (.set (.text name)) := by
  unfold Changes.name at h
  split at h
  · next name' hop =>
    cases h
    exact hop
  · cases h

/-- What a plan writes is what the change set asks for. -/
theorem planned_edited (now : ℤ) (db : Db ρ) (t : Track ρ) {prepared : Db ρ}
    (h : Prepared cfg job.changes prepared job.targets) :
    Edited cfg job.changes prepared (planned job db t).2 ((db.albumArtist t).getD "") t
      ((planned job db t).1.write now t) where
  unnamed f hop := plan_column_of_none hop
  cleared f hop := plan_column_of_some hop rfl
  literal f v hop hnamed := plan_column_of_some hop (by simp [target, hnamed])
  named f name hnamed hname := by
    have hcolumn {row : ℕ}
        (hrow : preparedRows job.targets (albumRow job.changes job.targets db t).1 f = some row) :
        (planned job db t).1.column t f = .row row :=
      plan_column_of_some (name_op hname) (by simp [target, hnamed, hrow])
    cases f with
    | artist =>
      obtain ⟨row, hrow, hnames⟩ := h.artist name hname
      exact ⟨row, hcolumn hrow, .inl hnames⟩
    | album =>
      obtain ⟨row, hrow, hnames⟩ := albumRow_names db t h hname
      exact ⟨row, hcolumn hrow, hnames⟩
    | genre =>
      obtain ⟨row, hrow, hnames⟩ := h.genre name hname
      exact ⟨row, hcolumn hrow, .inl hnames⟩
    | _ => cases hnamed
  additional c := by
    have hprimary : ((planned job db t).1.write now t).columns .category =
        newPrimary job.changes
          (preparedRows job.targets (albumRow job.changes job.targets db t).1) t := plan_category
    rw [hprimary]
    exact mem_additional
  holidays c := mem_holidays
  filepath := rfl
  rest := rfl

/-! ### How the transaction ends -/

theorem writePlan_ended (h : (writePlan cfg job id known guard now db t).1 = .ended d db') :
    d = .unchanged ∧ db' = (planned job db t).2 ∨
    (∃ stays, d = .updated stays) ∧ db' = { (planned job db t).2 with
      tracks := (planned job db t).2.tracks.insert id ((planned job db t).1.write now t) } := by
  unfold writePlan at h
  dsimp only at h
  split_ifs at h with hfetched hempty
  · cases h
    exact .inl ⟨rfl, rfl⟩
  · split at h
    · cases h
    · cases h
      exact .inr ⟨⟨_, rfl⟩, rfl⟩

/-- A Track that is reported as updated was as it was previewed, and its plan is written. -/
theorem editTrack_updated {stays : Bool}
    (h : (editTrack cfg job id known guard now db).1 = .ended (.updated stays) db') :
    ∃ t, db.tracks.get? id = some t ∧ AsPreviewed cfg job.record db id t ∧
      db' = { (planned job db t).2 with
        tracks := (planned job db t).2.tracks.insert id ((planned job db t).1.write now t) } := by
  unfold editTrack at h
  split at h
  · cases h
  · cases h
  · next t state previewed htrack hrecord =>
    split_ifs at h with hstate
    · cases h
    · split at h
      · cases h
      · next hprevious =>
        rcases writePlan_ended h with ⟨heq, -⟩ | ⟨-, hdb⟩
        · cases heq
        · refine ⟨t, htrack, ⟨previewed, ?_, hprevious⟩, hdb⟩
          rw [hrecord, not_not.mp hstate]

/-- Otherwise no Track is written. -/
theorem editTrack_tracks (h : (editTrack cfg job id known guard now db).1 = .ended d db')
    (hd : ∀ stays, d ≠ .updated stays) : db'.tracks = db.tracks := by
  unfold editTrack at h
  split at h
  · cases h
    rfl
  · cases h
    rfl
  · split_ifs at h
    · cases h
      rfl
    · split at h
      · cases h
        rfl
      · rcases writePlan_ended h with ⟨-, rfl⟩ | ⟨⟨stays, heq⟩, -⟩
        · exact planned_extends.tracks
        · exact absurd heq (hd stays)

end IsadoraAir.BulkEdit

/-!
## Every write is one that was previewed

The Tracks are what the last writes say, and each write of an apply belongs to a
redeemed preview. A request keeps this on its own, whatever the others do
between two of its actions.
-/

namespace IsadoraAir.BulkEdit

open Routine (Safe Setting Uses)

variable {known : Dict ℕ String} {d : Disposition} {id : ℕ}

variable {ρ α : Type} {cfg : Config} {start : Dict ℕ (Track ρ)} {a b : α} {s s' : Shared ρ α}
  {job : Job}

/-- A Track after these writes. -/
def current (start : Dict ℕ (Track ρ)) (log : List (Write ρ)) (id : ℕ) : Option (Track ρ) :=
  log.foldl (fun value w => if w.id = id then w.after else value) (start.get? id)

theorem current_concat (log : List (Write ρ)) (w : Write ρ) (id : ℕ) :
    current start (log ++ [w]) id = if w.id = id then w.after else current start log id := by
  rw [current, List.foldl_append]
  rfl

variable (cfg) in
/-- What an apply has redeemed and prepared. -/
structure Ready (s : Shared ρ α) (job : Job) : Prop where
  redeemed : job.nonce ∈ s.redeemed
  record : s.records.get? job.nonce = some job.record
  ids : job.record.ids = cfg.idsDigest job.ids
  ops : job.record.ops = cfg.opsDigest job.changes
  prepared : ∃ db, (job.targets, db) ∈ s.prepared ∧ Prepared cfg job.changes db job.targets

variable (cfg) in
structure Edit.Sound (s : Shared ρ α) (w : Write ρ) (e : Edit ρ) : Prop where
  ready : Ready cfg s e.job
  edited : ∃ known guard now stays,
    (editTrack cfg e.job w.id known guard now e.before).1 = .ended (.updated stays) e.after
  after : w.after = e.after.tracks.get? w.id

variable (cfg start) in
structure Logged (s : Shared ρ α) : Prop where
  tracks : ∀ id, s.db.tracks.get? id = current start s.log id
  sound : ∀ w ∈ s.log, ∀ e, w.edit = some e → e.Sound cfg s w
  before : ∀ earlier w later e, s.log = earlier ++ w :: later → w.edit = some e →
    ∀ id, e.before.tracks.get? id = current start earlier id

variable (cfg start) in
structure Invariant (s : Shared ρ α) : Prop where
  claiming : Claiming cfg s
  logged : Logged cfg start s

/-! ### What grows -/

structure Grows (s s' : Shared ρ α) : Prop where
  clock : s.clock ≤ s'.clock
  records : ∀ nonce record, s.records.get? nonce = some record →
    s'.records.get? nonce = some record
  redeemed : s.redeemed ⊆ s'.redeemed
  prepared : s.prepared ⊆ s'.prepared

theorem Grows.refl (s : Shared ρ α) : Grows s s :=
  ⟨le_rfl, fun _ _ h => h, fun _ h => h, fun _ h => h⟩

theorem Ready.mono (h : Ready cfg s job) (hgrows : Grows s s') : Ready cfg s' job where
  redeemed := hgrows.redeemed h.redeemed
  record := hgrows.records _ _ h.record
  ids := h.ids
  ops := h.ops
  prepared := h.prepared.imp fun _ hdb => ⟨hgrows.prepared hdb.1, hdb.2⟩

theorem Edit.Sound.mono {w : Write ρ} {e : Edit ρ} (h : e.Sound cfg s w) (hgrows : Grows s s') :
    e.Sound cfg s' w :=
  ⟨h.ready.mono hgrows, h.edited, h.after⟩

/-- The Tracks and their log stay. -/
theorem Logged.of_eq (hs : Logged cfg start s) (hgrows : Grows s s')
    (htracks : s'.db.tracks = s.db.tracks) (hlog : s'.log = s.log) : Logged cfg start s' where
  tracks id := by
    rw [htracks, hlog]
    exact hs.tracks id
  sound w h e he := (hs.sound w (hlog ▸ h) e he).mono hgrows
  before earlier w later e h := hs.before earlier w later e (hlog ▸ h)

/-- One Track is written, and the log tells it. -/
theorem Logged.write (hs : Logged cfg start s) (hgrows : Grows s s') (w : Write ρ)
    (hlog : s'.log = s.log ++ [w])
    (htracks : ∀ id, s'.db.tracks.get? id = if w.id = id then w.after else s.db.tracks.get? id)
    (hsound : ∀ e, w.edit = some e → e.Sound cfg s' w ∧ e.before = s.db) :
    Logged cfg start s' where
  tracks id := by
    rw [htracks, hlog, current_concat, hs.tracks]
  sound w' h e he := by
    rw [hlog] at h
    rcases List.mem_append.mp h with h | h
    · exact (hs.sound w' h e he).mono hgrows
    · obtain rfl := List.mem_singleton.mp h
      exact (hsound e he).1
  before earlier w' later e h he id := by
    rw [hlog] at h
    rcases List.eq_nil_or_concat later with rfl | ⟨front, last, rfl⟩
    · obtain ⟨rfl, hw⟩ := List.append_inj' h rfl
      cases hw
      rw [(hsound e he).2]
      exact hs.tracks id
    · rw [List.concat_eq_append, ← List.cons_append, ← List.append_assoc] at h
      exact hs.before earlier w' front e (List.append_inj' h rfl).1 he id

theorem issue_grows {session nonce : String} {record : Record} (hfresh : nonce ∉ s.records.keys) :
    Grows s (issue s session nonce record).2 := by
  unfold issue
  split
  · exact .refl s
  · refine ⟨le_rfl, fun nonce' record' h => ?_, fun _ h => h, fun _ h => h⟩
    change (s.records.insert nonce record).get? nonce' = some record'
    rw [Dict.get?_insert, if_neg]
    · exact h
    · rintro rfl
      exact hfresh (Dict.mem_keys_of_get? h)

theorem commitTrack_grows {db : Db ρ} : Grows s (commitTrack s job id db d) := by
  cases d <;> exact ⟨le_rfl, fun _ _ h => h, fun _ h => h, fun _ h => h⟩

theorem commitTrack_logged (hs : Logged cfg start s) (hready : Ready cfg s job)
    {guard : Option String} {now : ℤ} {db : Db ρ}
    (h : (editTrack cfg job id known guard now s.db).1 = .ended d db) :
    Logged cfg start (commitTrack s job id db d) := by
  have hgrows : Grows s (commitTrack s job id db d) := commitTrack_grows
  cases d with
  | updated stays =>
    obtain ⟨t, -, -, hdb⟩ := editTrack_updated h
    refine hs.write hgrows ⟨id, db.tracks.get? id, some ⟨job, s.db, db⟩⟩ rfl (fun id' => ?_)
      fun e he => ?_
    · change db.tracks.get? id' = _
      by_cases hid : id = id'
      · rw [if_pos hid, hid]
      · rw [if_neg hid, hdb, Dict.get?_insert, if_neg fun heq => hid heq.symm,
          planned_extends.tracks]
    · cases he
      exact ⟨⟨hready.mono hgrows, ⟨known, guard, now, stays, h⟩, rfl⟩, rfl⟩
  | missing => exact hs.of_eq hgrows (editTrack_tracks h fun _ h => by cases h) rfl
  | stale => exact hs.of_eq hgrows (editTrack_tracks h fun _ h => by cases h) rfl
  | refused reason => exact hs.of_eq hgrows (editTrack_tracks h fun _ h => by cases h) rfl
  | unchanged => exact hs.of_eq hgrows (editTrack_tracks h fun _ h => by cases h) rfl

theorem commitTrack_claiming (hs : Claiming cfg s) {db : Db ρ} :
    Claiming cfg (commitTrack s job id db d) := by
  cases d <;> exact hs.of_eq rfl rfl rfl le_rfl rfl rfl rfl rfl

/-- An edit commits what its transaction ends with, or nothing. -/
theorem edit_cases (cfg : Config) (s : Shared ρ α) (job : Job) (id : ℕ) (known : Dict ℕ String)
    (d : Decision) :
    (edit cfg s job id known d).2 = s ∨
    ∃ disposition db, (editTrack cfg job id known d.guard s.clock s.db).1 = .ended disposition db ∧
      (edit cfg s job id known d).2 = commitTrack s job id db disposition := by
  unfold edit
  dsimp only
  split
  · exact .inl rfl
  · cases hbody : (editTrack cfg job id known d.guard s.clock s.db).1 with
    | raised r => exact .inl rfl
    | ended disposition db =>
      by_cases hrefused : d.commit = .refused
      · left
        simp [endTrack, hrefused]
      · right
        exact ⟨disposition, db, rfl, by simp [endTrack, hrefused]⟩

theorem edit_invariant (hs : Invariant cfg start s) (hready : Ready cfg s job)
    {d : Decision} : Invariant cfg start (edit cfg s job id known d).2 := by
  rcases edit_cases cfg s job id known d with hsame | ⟨disposition, db, hbody, hsame⟩
  · rw [hsame]
    exact hs
  · rw [hsame]
    exact ⟨commitTrack_claiming hs.claiming, commitTrack_logged hs.logged hready hbody⟩

theorem writeTrack_logged (hs : Logged cfg start s) (id : ℕ) (track : Option (Track ρ)) :
    Logged cfg start (writeTrack s id track) := by
  refine hs.write ⟨le_rfl, fun _ _ h => h, fun _ h => h, fun _ h => h⟩ ⟨id, track, none⟩ rfl
    (fun id' => ?_) fun e he => by cases he
  change (setTrack s.db.tracks id track).get? id' = _
  cases track with
  | none => simp only [setTrack, Dict.get?_erase, eq_comm]
  | some t => simp only [setTrack, Dict.get?_insert, eq_comm]

end IsadoraAir.BulkEdit
