import IsadoraAir.DuplicateResolution.Operations

/-!
# No recording is lost

What holds in every run of previews and apply requests, and what does not: the
survivor of one finding may be discarded in another.
-/

namespace IsadoraAir.DuplicateResolution

open Routine (Safe)

variable {α : Type} {cfg : Config} {start : List TrackId} {a : α} {s : Shared α}

/-! ## Every run -/

section Runs

theorem initial_invariant (w : Station) (reports : List Report) (clock : ℤ)
    (claims : Dict String ℤ) :
    Invariant cfg w.tracks.keys (initial (α := α) w reports clock claims).shared where
  spending := {
    nonces := List.nodup_nil
    signed := fun _ h => by cases h
    issued := fun _ h => by cases h
    unavailable := fun _ h => by cases h
    once := .empty }
  recorded := {
    present := List.mem_singleton_self w
    previewed := fun _ h => by cases h
    sound := fun _ h => by cases h
    survivors := fun track h => ⟨track, h, .refl⟩ }

variable [DecidableEq α]

theorem program_safe (call : Call) (hs : Invariant cfg start s) :
    (program cfg call).Safe (service cfg start a) s fun _ => Invariant cfg start := by
  have other {x : Action} {f : x.Result → Service Answer} (hx : Ordinary x)
      (hf : ∀ r, f r = pure .done) :
      (perform x >>= f).Safe (service cfg start a) s fun _ => Invariant cfg start := by
    refine ordinary_safe (Routine.Uses.bind (Routine.Uses.perform hx) fun r => ?_) hs
    rw [hf r]
    exact Routine.Uses.pure
  cases call with
  | preview user scan raw =>
    exact Safe.bind (preview_safe hs) (fun _ _ h => h) fun _ _ h => h
  | apply token rawChoice confirm user =>
    exact Safe.bind (apply_safe hs) (fun _ _ h => h) fun _ _ h => h
  | clearSessions => exact other (x := .purge) trivial fun _ => rfl
  | edit f => exact other (x := .edit f) trivial fun _ => rfl
  | publish report => exact other (x := .publish report) trivial fun _ => rfl
  | elapse microseconds => exact other (x := .elapse microseconds) trivial fun _ => rfl

theorem lawful : (crew cfg).Lawful (assertions cfg start : Crew.Assertions (Shared α) α Call)
    (program cfg) where
  abandon _ _ h := ⟨h, trivial⟩
  during _ _ _ _ _ hothers := ⟨hothers.2.1, trivial⟩
  clean _ _ _ _ _ := trivial
  start call _ _ hs _ := (program_safe call hs).mono fun _ _ h => ⟨h, trivial⟩

theorem run_invariant (w : Station) (reports : List Report) (clock : ℤ) (claims : Dict String ℤ)
    (events : List (Event α)) :
    Invariant cfg w.tracks.keys
      (Runs.run (step cfg) events (initial w reports clock claims)).shared :=
  (lawful.run_sound (Crew.idle_sound (initial_invariant w reports clock claims) fun _ => trivial)
    events).shared

end Runs

/-! ## What a run has done -/

/-- Why a deletion was right: what the report, the token and the station said. -/
structure Deletion.Justified (s : Shared α) (d : Deletion) : Prop where
  finding : ∃ report ∈ s.reports, report.status = "complete" ∧ d.job.finding ∈ report.findings ∧
    findingEligibility d.job.finding = .ok ()
  members : d.job.finding.members = [d.job.entry.keep, d.job.entry.discard] ∨
    d.job.finding.members = [d.job.entry.discard, d.job.entry.keep]
  distinct : d.job.entry.keep ≠ d.job.entry.discard
  verified : Verified d.before d.job.finding d.job.entry.keep d.job.entry.discard
  previewed : ∃ view, View (s.drawn d.nonce) view ∧ Matches view d.job.entry
  unchanged : Matches d.before d.job.entry
  tracks : d.after.tracks = d.before.tracks.erase d.job.entry.discard
  files : d.after.lstat = d.before.lstat
  categories : ∀ track category, (track, category) ∈ d.after.additional ↔
    track ≠ d.job.entry.discard ∧ ((track, category) ∈ d.before.additional ∨
      track = d.job.entry.keep ∧ category ∈ d.job.choice.categories)

theorem Deletion.Sound.justified {d : Deletion} (h : d.Sound s) (hs : Recorded start s) :
    d.Justified s where
  finding := ⟨d.job.report, h.report, h.complete.1, (finding?_eq_some h.finding).1,
    (offers_members h.offers).1⟩
  members := (offers_members h.offers).2
  distinct := by
    obtain ⟨_, _, i, hchecked⟩ := h.checked
    exact (recheck_verified hchecked h.offers).1
  verified := by
    obtain ⟨_, _, i, hchecked⟩ := h.checked
    exact (recheck_verified hchecked h.offers).2
  previewed := hs.previewed d.job.plan h.issued d.job.entry h.entry
  unchanged := by
    obtain ⟨_, _, i, hchecked⟩ := h.checked
    exact recheck_matches hchecked
  tracks := by rw [h.resolved, resolve_tracks]
  files := by rw [h.resolved]; rfl
  categories track category := by rw [h.resolved, mem_resolve_additional]

/-- No other finding names one of its Tracks. -/
def Alone (reports : List Report) (f : Finding) : Prop :=
  ∀ track ∈ f.members, ∀ other, Linked reports track other → other ∈ f.members

theorem Alone.connected {reports : List Report} {f : Finding} (h : Alone reports f)
    {track other : TrackId} (htrack : track ∈ f.members) (hpath : Connected reports track other) :
    other ∈ f.members := by
  induction hpath with
  | refl => exact htrack
  | tail _ hlinked ih => exact h _ ih _ hlinked

/-- The state after a run that began with these Tracks. -/
structure NothingLost (start : List TrackId) (s : Shared α) : Prop where
  /-- A token is spent once, and deletes one Track. -/
  spent : s.spent.Nodup
  tokens : (s.ledger.map Deletion.nonce).Nodup
  claimed : ∀ d ∈ s.ledger, d.nonce ∈ s.spent
  justified : ∀ d ∈ s.ledger, d.Justified s
  groups : ∀ track ∈ start, ∃ survivor ∈ s.station.tracks.keys, Connected s.reports track survivor
  alone : ∀ f : Finding, Alone s.reports f → (∃ track ∈ f.members, track ∈ start) →
    ∃ track ∈ f.members, track ∈ s.station.tracks.keys

theorem Invariant.nothingLost (h : Invariant cfg start s) : NothingLost start s where
  spent := h.spending.once.nodup
  tokens := h.spending.once.nodupDone
  claimed d hd := h.spending.once.subset d.nonce (List.mem_map_of_mem hd)
  justified d hd := (h.recorded.sound d hd).justified h.recorded
  groups := h.recorded.survivors
  alone f halone hstart := by
    obtain ⟨track, hmember, htrack⟩ := hstart
    obtain ⟨survivor, hsurvivor, hpath⟩ := h.recorded.survivors track htrack
    exact ⟨survivor, halone.connected hmember hpath, hsurvivor⟩

/-! ## What a step does -/

/-- The rows of the Tracks and of their categories. -/
def SameTracks (w w' : Station) : Prop :=
  w'.tracks = w.tracks ∧ w'.additional = w.additional

/-- Another program writes. -/
def Edits (e : Event α) (s : State α) : Prop :=
  ∃ a d call done f next, e = .act a d ∧ s.task a = some ⟨call, done, .act (.edit f) next⟩

variable [DecidableEq α]

variable (cfg) in
/-- A step of a request changes the Tracks and the categories by one deletion, or not at all. -/
def Accounted (e : Event α) (s : State α) : Prop :=
  (∃ d, (step cfg e s).shared.ledger = s.shared.ledger ++ [d] ∧ d.before = s.shared.station ∧
    d.after = (step cfg e s).shared.station) ∨
  (step cfg e s).shared.ledger = s.shared.ledger ∧
    (SameTracks s.shared.station (step cfg e s).shared.station ∨ Edits e s)

theorem keepBoth_additional (track other : TrackId) (w : Station) :
    (keepBoth track other w).2.additional = w.additional := by
  unfold keepBoth
  split_ifs
  · rfl
  · split
    · split_ifs <;> rfl
    · rfl

theorem step_accounted (e : Event α) (s : State α) : Accounted cfg e s := by
  rcases (crew cfg).step_shared (program cfg) e s with hsame | ⟨a, hsame⟩ |
    ⟨a, d, call, done, x, next, r, rfl, htask, hexec, -⟩
  · right
    rw [step, hsame]
    exact ⟨rfl, .inl ⟨rfl, rfl⟩⟩
  · right
    rw [step, hsame]
    exact ⟨rfl, .inl ⟨rfl, rfl⟩⟩
  · have heffect := exec_effect (show exec cfg d a x s.shared = some (r, _) from hexec)
    unfold Accounted step
    revert heffect
    generalize ((crew cfg).step (program cfg) (.act a d) s).shared = t
    intro heffect
    cases heffect with
    | pair job i hchecked => exact .inl ⟨_, rfl, rfl, rfl⟩
    | edit f hkeeps => exact .inr ⟨rfl, .inr ⟨a, d, call, done, f, next, rfl, htask⟩⟩
    | keepBoth track other =>
      exact .inr ⟨rfl, .inl ⟨keepBoth_tracks track other _, keepBoth_additional track other _⟩⟩
    | _ => exact .inr ⟨rfl, .inl ⟨rfl, rfl⟩⟩

theorem no_recording_lost (cfg : Config) (w : Station) (reports : List Report) (clock : ℤ)
    (claims : Dict String ℤ) (events : List (Event α)) :
    NothingLost w.tracks.keys
      (Runs.run (step cfg) events (initial w reports clock claims)).shared ∧
    Runs.Throughout (step cfg) (Accounted cfg) events (initial w reports clock claims) :=
  ⟨(run_invariant w reports clock claims events).nothingLost,
    Runs.throughout_of_invariant (P := fun _ _ => True) (I := fun _ => True)
      (fun _ _ _ _ => trivial) (fun e s _ _ => step_accounted e s) trivial
      (Runs.throughout_true _ _)⟩

/-! ## A chain of findings -/

namespace Chain

def digest : String := "aaaaaaaaaaaaaaaaaaaaaaaaaaaaaaaaaaaaaaaaaaaaaaaaaaaaaaaaaaaaaaaa"

def config : Config := ⟨fun _ => (0, 0), fun nonce => nonce⟩

def columns (path : String) : Columns := ⟨path, path, "flac", "", none, none, none, none, ""⟩

/-- The file of a Track: its inode is the Track's number. -/
def file (track : TrackId) (path : String) : Entry :=
  ⟨some track, some path, some 7, some 8, some [1, track, 7, 8, 9, 1], some digest,
    some ⟨some algorithm, some digest, some 44100, some 5, some 2, some "s32le"⟩⟩

/-- Tracks 1 and 2 have the same bytes, 2 and 3 the same decoded audio. -/
def sameBytes : Finding :=
  ⟨"ab", "duplicate", some "exact", [1, 2], none, [file 1 "a", file 2 "b"], none⟩

def sameSound : Finding :=
  ⟨"bc", "duplicate", some "audio_equivalent", [2, 3], none, [],
    some ⟨some "verified", some [file 2 "b", file 3 "c"]⟩⟩

def report : Report := ⟨"scan", "complete", [sameBytes, sameSound]⟩

def lstat (path : String) : Lstat :=
  if path = "a" then .regular 1 1 7 8 9 1
  else if path = "b" then .regular 1 2 7 8 9 1
  else if path = "c" then .regular 1 3 7 8 9 1
  else .notFound

def station : Station where
  tracks := .ofList [(1, columns "a"), (2, columns "b"), (3, columns "c")]
  additional := []
  playlists := []
  rotations := []
  voicetracks := []
  logItems := []
  playEvents := []
  decisions := .empty
  lstat := lstat
  isCanonical _ := true
  protection := ⟨fun _ => none, fun _ => none⟩
  engine := .state ⟨some 0, some [("A", .free), ("B", .free)], some [], some none⟩

def acts (worker steps : ℕ) (nonce : String) : List (Event ℕ) :=
  List.replicate steps (.act worker ⟨nonce, false, none⟩)

def previewOf (worker : ℕ) (finding : String) (keep discard : TrackId) : List (Event ℕ) :=
  .start worker (.preview 7 "scan" (some [⟨some finding, some "delete", some keep, some discard⟩]))
    :: acts worker 10 finding

def applyOf (worker : ℕ) (token : Token) : List (Event ℕ) :=
  .start worker (.apply (some token) (some ⟨some [], false⟩) true 7) :: acts worker 7 ""

/-- Keep 2 and discard 3, then keep 1 and discard 2. -/
def events : List (Event ℕ) :=
  previewOf 1 "bc" 2 3 ++ previewOf 2 "ab" 1 2 ++ applyOf 3 0 ++ applyOf 4 1

end Chain

/-- Both Tracks of one finding of a complete report may be gone in the end. -/
theorem both_of_a_finding_deleted :
    findingEligibility Chain.sameSound = .ok () ∧ Chain.sameSound ∈ Chain.report.findings ∧
    Chain.report.status = "complete" ∧
    (∀ track ∈ Chain.sameSound.members, track ∈ Chain.station.tracks.keys) ∧
    ∀ track ∈ Chain.sameSound.members, track ∉ (Runs.run (step Chain.config) Chain.events
      (initial Chain.station [Chain.report] 0 .empty)).shared.station.tracks.keys := by
  refine ⟨by decide +kernel, List.mem_cons_of_mem _ List.mem_cons_self, rfl, by decide +kernel,
    by decide +kernel⟩

end IsadoraAir.DuplicateResolution
