import IsadoraAir.BulkEdit.Operations
import IsadoraAir.BulkEdit.Reports

/-!
# What bulk edits do to a library

In every run of previews, applies and other programs: each preview is redeemed
once, each Track is what its last write says, and an apply's report is exact if
no commit of its transactions raises.
-/

namespace IsadoraAir.BulkEdit

open Routine (Safe Heeds Uses)

variable {d : Decision} {id : ℕ} {ρ α : Type} {cfg : Config} {start : Dict ℕ (Track ρ)} {a : α}
  {s : Shared ρ α}

/-- Why an apply was right to write a Track, and that it wrote what was asked for. -/
structure Write.Justified (cfg : Config) (s : Shared ρ α) (before : Option (Track ρ)) (w : Write ρ)
    (e : Edit ρ) : Prop where
  redeemed : e.job.nonce ∈ s.redeemed
  record : s.records.get? e.job.nonce = some e.job.record
  ids : e.job.record.ids = cfg.idsDigest e.job.ids
  ops : e.job.record.ops = cfg.opsDigest e.job.changes
  edited : ∃ t t' prepared, before = some t ∧ w.after = some t' ∧
    AsPreviewed cfg e.job.record e.before w.id t ∧ (e.job.targets, prepared) ∈ s.prepared ∧
    Edited cfg e.job.changes prepared e.after ((e.before.albumArtist t).getD "") t t'

theorem names_tracks {db : Db ρ} {tracks : Dict ℕ (Track ρ)} {albumArtist name : String}
    {f : Field} (h : Names cfg db albumArtist name id f) :
    Names cfg { db with tracks := tracks } albumArtist name id f := by
  cases f <;> exact h

theorem Edit.Sound.justified {w : Write ρ} {e : Edit ρ} {before : Option (Track ρ)}
    (h : e.Sound cfg s w) (hbefore : e.before.tracks.get? w.id = before) :
    w.Justified cfg s before e where
  redeemed := h.ready.redeemed
  record := h.ready.record
  ids := h.ready.ids
  ops := h.ready.ops
  edited := by
    obtain ⟨known, guard, now, stays, hbody⟩ := h.edited
    obtain ⟨t, htrack, hpreviewed, hafter⟩ := editTrack_updated hbody
    obtain ⟨prepared, hmem, hprepared⟩ := h.ready.prepared
    refine ⟨t, (planned e.job e.before t).1.write now t, prepared, hbefore ▸ htrack, ?_, hpreviewed,
      hmem, ?_⟩
    · rw [h.after, hafter]
      simp
    · have hedited := planned_edited now e.before t hprepared
      rw [hafter]
      refine { hedited with named := fun f name hnamed hname => ?_ }
      obtain ⟨row, hrow, hnames⟩ := hedited.named f name hnamed hname
      exact ⟨row, hrow, hnames.imp_right names_tracks⟩

/-! ## Every run -/

section Runs

variable [DecidableEq α]

theorem program_safe (call : Call ρ) (hs : Invariant cfg start s) :
    (program cfg call).Safe (service cfg start a) s fun _ => Invariant cfg start := by
  have other {x : Action ρ} (hx : Ordinary x) :
      (single x).Safe (service cfg start a) s fun _ => Invariant cfg start :=
    ordinary_safe (Uses.bind (Uses.perform hx) fun _ => Uses.pure) hs
  cases call with
  | preview session user selection changes =>
    exact Safe.bind (preview_safe hs) (fun _ _ h => h) fun _ _ h => h
  | apply session user token selection changes =>
    exact Safe.bind (apply_safe hs) (fun _ _ h => h) fun _ _ h => h
  | writeTrack id track => exact other (x := .writeTrack id track) trivial
  | writeLookups artists albums genres categories =>
    exact other (x := .writeLookups artists albums genres categories) trivial
  | saveSession session copy => exact other (x := .saveSession session copy) trivial
  | openSession session => exact other (x := .openSession session) trivial
  | closeSession session => exact other (x := .closeSession session) trivial
  | clearSessions => exact other (x := .clearSessions) trivial
  | elapse microseconds => exact other (x := .elapse microseconds) trivial

theorem lawful : (crew cfg).Lawful (assertions cfg start : Crew.Assertions (Shared ρ α) α (Call ρ))
    (program cfg) where
  abandon _ _ h := ⟨h, trivial⟩
  during _ _ _ _ _ hothers := ⟨hothers.2.1, trivial⟩
  clean _ _ _ _ _ := trivial
  start call _ _ hs _ := (program_safe call hs).mono fun _ _ h => ⟨h, trivial⟩

variable (cfg start) in
/-- What holds in every state of a run. -/
structure Reachable (s : State ρ α) : Prop where
  sound : (crew cfg).Sound (assertions cfg start) s
  follows : Crew.Tasks (fun task => (program cfg task.call).Follows task.done task.rest) s

theorem run_reachable (db : Db ρ) (clock : ℤ) (markers : Dict String ℤ) (events : List (Event ρ α)) :
    Reachable cfg db.tracks (Runs.run (step cfg) events (initial db clock markers)) := by
  have hinitial : Invariant cfg db.tracks (initial (α := α) db clock markers).shared := {
    claiming := {
      sessions := fun _ _ h => by cases h
      copies := fun _ h => by cases h
      issued := fun _ _ h => by cases h
      known := fun _ h => by cases h
      unavailable := fun _ h => by cases h
      once := .empty }
    logged := {
      tracks := fun _ => rfl
      sound := fun _ h => by cases h
      before := fun earlier w later e h => by simp [initial, Crew.idle] at h } }
  have hstart : Reachable cfg db.tracks (initial (α := α) db clock markers) :=
    ⟨Crew.idle_sound hinitial fun _ => trivial, fun _ _ h => by cases h⟩
  exact Runs.invariant (P := fun _ _ => True)
    (fun e s _ hs => ⟨lawful.step_sound hs.sound e, Crew.step_follows hs.follows e⟩) hstart
    (Runs.throughout_true events _)

end Runs

/-! ## What a run has come to -/

/-- The state after a run that began with these Tracks. -/
structure Outcome (cfg : Config) (start : Dict ℕ (Track ρ)) (s : State ρ α) : Prop where
  redeemed : s.shared.redeemed.Nodup
  tracks : ∀ id, s.shared.db.tracks.get? id = current start s.shared.log id
  edits : ∀ earlier w later e, s.shared.log = earlier ++ w :: later → w.edit = some e →
    w.Justified cfg s.shared (current start earlier w.id) e
  reports : ∀ a session user token selection changes done answer,
    s.task a = some
      ⟨.apply session user token selection changes, done, .pure (.applied answer)⟩ →
    (answer.Exact selection (editResults done) ↔
      ∀ item ∈ editResults done, item.2.settled = true)

theorem Logged.justified (h : Logged cfg start s) {earlier later : List (Write ρ)}
    {w : Write ρ} {e : Edit ρ} (hlog : s.log = earlier ++ w :: later) (he : w.edit = some e) :
    w.Justified cfg s (current start earlier w.id) e := by
  have hmem : w ∈ s.log := hlog ▸ List.mem_append_right _ List.mem_cons_self
  exact (h.sound w hmem e he).justified (h.before earlier w later e hlog he w.id)

/-- What an apply has answered is the report of its history. -/
theorem applied_report {session : String} {user : ℕ} {token : Option Token} {selection : Selection}
    {changes : Changes} {done : History (Action.Result (ρ := ρ))} {answer : Report}
    (h : (program (ρ := ρ) cfg (.apply session user token selection changes)).Follows done
      (.pure (.applied answer))) :
    answer = report selection.missing (editResults done) ∧
      (editResults done).map Prod.fst = selection.ids := by
  have hheeds : (program (ρ := ρ) cfg (.apply session user token selection changes)).Heeds
      (fun _ _ => True) [] fun r d => ∀ answer, r = .ok (.applied answer) →
        answer = report selection.missing (editResults d) ∧
          (editResults d).map Prod.fst = selection.ids := by
    refine Heeds.bind apply_heeds (fun report d h answer heq => ?_) fun _ _ _ _ heq => by cases heq
    cases heq
    exact h report rfl
  exact h.heeds hheeds answer rfl

/-! ## What a step does -/

/-- What an action with this result writes. -/
def Logs (s s' : Shared ρ α) : (x : Action ρ) → x.Result → Prop
  | .edit job id _, r =>
    s'.log = s.log ++ if r.1.wrote then [⟨id, s'.db.tracks.get? id, some ⟨job, s.db, s'.db⟩⟩] else []
  | .writeTrack id track, _ => s'.log = s.log ++ [⟨id, track, none⟩]
  | _, _ => s'.log = s.log

theorem edit_logs {job : Job} {known : Dict ℕ String} :
    Logs s (edit cfg s job id known d).2 (.edit job id known) (edit cfg s job id known d).1 := by
  unfold Logs edit
  dsimp only
  split
  · simp [Result.wrote]
  · cases (editTrack cfg job id known d.guard s.clock s.db).1 with
    | raised r => simp [endTrack, Result.wrote]
    | ended disposition db =>
      by_cases hcommit : d.commit = .refused
      · cases disposition <;> simp [endTrack, hcommit, Result.wrote]
      · cases disposition <;> simp [endTrack, hcommit, Result.wrote, commitTrack]

variable [DecidableEq α]

theorem exec_logs {s' : Shared ρ α} {x : Action ρ} {r : x.Result}
    (h : exec cfg d a x s = some (r, s')) : Logs s s' x r := by
  cases x with
  | issue session record =>
    simp only [exec] at h
    split_ifs at h
    obtain rfl := congrArg Prod.snd (Option.some.inj h)
    change (issue s session d.nonce record).2.log = s.log
    unfold issue
    split <;> rfl
  | claim session nonce =>
    obtain rfl := congrArg Prod.snd (Option.some.inj h)
    exact claimed_eq_log.2
  | prepare nonce changes ids =>
    obtain rfl := congrArg Prod.snd (Option.some.inj h)
    change (prepare cfg (redeemNonce s a nonce) changes ids d.fault).2.log = s.log
    unfold prepare
    split <;> rfl
  | edit job id known =>
    obtain rfl := congrArg Prod.fst (Option.some.inj h)
    obtain rfl := congrArg Prod.snd (Option.some.inj h)
    exact edit_logs
  | saveSession session copy =>
    cases h
    change (saveSession s session copy).log = s.log
    unfold saveSession
    split
    · split_ifs <;> rfl
    · rfl
  | openSession session =>
    cases h
    change (openSession s session).log = s.log
    unfold openSession
    split_ifs <;> rfl
  | _ => cases h; rfl

variable (cfg) in
/-- A step writes what its action's result says, and otherwise nothing. -/
structure Accounted (e : Event ρ α) (s : State ρ α) : Prop where
  result : ∀ a call done x r next rest, s.task a = some ⟨call, done, .act x next⟩ →
    (step cfg e s).task a = some ⟨call, done ++ [⟨x, r⟩], rest⟩ →
    Logs s.shared (step cfg e s).shared x r
  other : (step cfg e s).shared.log = s.shared.log ∨ ∃ a call done x r next rest,
    s.task a = some ⟨call, done, .act x next⟩ ∧
    (step cfg e s).task a = some ⟨call, done ++ [⟨x, r⟩], rest⟩

theorem step_accounted (e : Event ρ α) (s : State ρ α) : Accounted cfg e s where
  result a call done x r next rest htask hstep := by
    obtain ⟨d, -, hexec⟩ := Crew.exec_of_step htask hstep
    exact exec_logs hexec
  other := by
    rcases (crew cfg).step_shared (program cfg) e s with hsame | ⟨a, hsame⟩ |
      ⟨a, d, call, done, x, next, r, -, htask, -, hstep⟩
    · left
      rw [step, hsame]
    · left
      rw [step, hsame]
      rfl
    · exact .inr ⟨a, call, done, x, r, next, next r, htask, hstep⟩

theorem Reachable.outcome {s : State ρ α} (h : Reachable cfg start s) : Outcome cfg start s where
  redeemed := h.sound.shared.claiming.once.nodupDone
  tracks := h.sound.shared.logged.tracks
  edits earlier w later e hlog he := h.sound.shared.logged.justified hlog he
  reports a session user token selection changes done answer htask := by
    have hfollows : (program cfg (.apply session user token selection changes)).Follows done
      (.pure (.applied answer)) := h.follows a _ htask
    obtain ⟨rfl, hids⟩ := applied_report hfollows
    exact report_exact hids

theorem edits_as_previewed (cfg : Config) (db : Db ρ) (clock : ℤ) (markers : Dict String ℤ)
    (events : List (Event ρ α)) :
    Outcome cfg db.tracks (Runs.run (step cfg) events (initial db clock markers)) ∧
    Runs.Throughout (step cfg) (Accounted cfg) events (initial db clock markers) :=
  ⟨(run_reachable db clock markers events).outcome,
    Runs.throughout_of_invariant (P := fun _ _ => True) (I := fun _ => True)
      (fun _ _ _ _ => trivial) (fun e s _ _ => step_accounted e s) trivial
      (Runs.throughout_true _ _)⟩

/-! ## A commit that fails -/

namespace Refused

def config : Config where
  stateDigest st := st.filepath
  idsDigest ids := toString ids
  opsDigest changes := toString changes.addCategories
  nonceDigest nonce := nonce
  upper name := name
  categoryFolder _ := none

/-- Set the year. -/
def changes : Changes where
  op
    | .year => some (.set (.int 1999))
    | _ => none
  fits f o h := by
    cases f <;> cases h
    exact ⟨1999, rfl⟩
  addCategories := []
  removeCategories := []
  addHolidays := []
  removeHolidays := []
  categories _ h := by cases h
  holidays _ h := by cases h

def selection : Selection := ⟨[1], [], by decide⟩

def track : Track Unit := ⟨"a.flac", fun f => f.spec.empty, [], [], 0, ()⟩

def db : Db Unit := ⟨.ofList [(1, track)], [], [], [], []⟩

def acts (worker steps : ℕ) (commit : Commit) : List (Event Unit ℕ) :=
  List.replicate steps (.act worker ⟨"n", none, none, commit⟩)

/-- Preview, then apply; the commit of the Track's transaction raises. -/
def events : List (Event Unit ℕ) :=
  [.start 1 (.openSession "s")] ++ acts 1 1 .done ++
  [.start 1 (.preview "s" 7 selection changes)] ++ acts 1 10 .done ++
  [.start 1 (.apply "s" 7 (some 0) selection changes)] ++ acts 1 10 .refused

def final : State Unit ℕ := Runs.run (step config) events (initial db 0 .empty)

/-- The report of a finished apply. -/
def answered : Option Report :=
  match final.task 1 with
  | some ⟨_, _, .pure (.applied report)⟩ => some report
  | _ => none

end Refused

/-- A Track is reported as updated and as failed, and has not been changed. -/
theorem reported_twice :
    Refused.answered.map (fun r => (r.updated, r.failed)) = some ([1], [(1, .notSaved)]) ∧
    (Refused.final.shared.db.tracks.get? 1).map (fun t => t.columns .year) = some .null ∧
    Refused.final.shared.log.length = 0 := by
  decide +kernel

end IsadoraAir.BulkEdit
