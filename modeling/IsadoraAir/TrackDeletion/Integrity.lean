import IsadoraAir.TrackDeletion.Sessions

/-!
# Integrity of source cleanup

What a cleanup knows when it unlinks, and that it unlinks no referenced file.
-/

/-!
## What a cleanup knows when it unlinks

The history of a deletion up to an unlink: it has asked for publications, deleted
the rows, captured the witness of the file, committed, and seen the same file in
its last look.
-/

namespace IsadoraAir.TrackDeletion

open Routine (Heeds Uses)

variable {x : Action} {cleanup : Cleanup} {rows : List (ℕ × Path)} {owned : List ℕ} {path : Path}

abbrev History := IsadoraAir.History Action.Result

/-- Which rows the deletion was about, and which of them a publication owned. -/
def Asked (rows : List (ℕ × Path)) (owned : List ℕ) : Call → History → Prop
  | .deleteTrack id filepath _, asked =>
    rows = [(id, filepath)] ∧ asked = [⟨.owned [id], owned⟩]
  | .deleteTracks matching _, asked =>
    asked = [⟨.rows matching, rows⟩, ⟨.owned (rows.map Prod.fst), owned⟩]
  | _, _ => False

/-- No transaction ends there. -/
def Within (d : History) : Prop := ∀ step ∈ d, step.1 ≠ .commit ∧ step.1 ≠ .rollback

/-- The transaction that deletes the rows captures the witness of the source, and commits. -/
structure Captures (call : Call) (path : Path) (witness : Look) (d : History) : Prop where
  exists_split : ∃ rows owned id asked matching deleting capturing ending,
    Asked rows owned call asked ∧ (id, path) ∈ rows ∧ id ∉ owned ∧
    Within (deleting ++ capturing) ∧
    d = asked ++ ⟨.deleteRows matching, .ok ()⟩ ::
      (deleting ++ ⟨.lstat path, witness⟩ :: capturing) ++ ⟨.commit, true⟩ :: ending

/-- What an action of the call requires of what has been done. -/
def Requires (call : Call) : Action → History → Prop
  | .unlink path, d => ∃ witness before, Captures call path (.found witness) before ∧
    d = before ++ [⟨.lstat path, .found witness⟩]
  | .updateOrCreate path _ seen, d => ∃ witness,
    d = [⟨.acquire path, true⟩, ⟨.stat path, (some witness, seen)⟩]
  | _, _ => True

theorem Captures.append {call : Call} {witness : Look} {d : History}
    (h : Captures call path witness d) (later : History) :
    Captures call path witness (d ++ later) := by
  obtain ⟨rows, owned, id, asked, matching, deleting, capturing, ending, hasked, hmem, howned,
    hwithin, rfl⟩ := h.exists_split
  exact ⟨rows, owned, id, asked, matching, deleting, capturing, ending ++ later, hasked, hmem,
    howned, hwithin, by simp⟩

theorem Within.append {d d' : History} (h : Within d) (h' : Within d') : Within (d ++ d') :=
  List.forall_mem_append.mpr ⟨h, h'⟩

variable {call : Call} {d : History} {β : Type}

/-- The actions that require nothing. -/
def Free : Action → Prop
  | .unlink _ | .updateOrCreate _ _ _ => False
  | _ => True

theorem Free.requires (h : Free x) (d : History) : Requires call x d := by
  cases x <;> trivial

/-- What is done without ending the transaction. -/
def Inside : Action → Prop
  | .resolve _ | .lstat _ => True
  | _ => False

theorem Inside.free (h : Inside x) : Free x := by
  cases x <;> trivial

theorem within_of_inside {d : History} (h : ∀ step ∈ d, Inside step.1) : Within d := by
  intro step hstep
  have hinside := h step hstep
  constructor <;>
  · intro heq
    rw [heq] at hinside
    exact hinside

theorem atomic_heeds {body : Service β} {Q : Except Fault β → History → Prop}
    {P : Except Fault β → History → Prop} (h : Heeds (Requires call) body d Q)
    (hok : ∀ b d, Q (.ok b) d → P (.ok b) (d ++ [⟨.commit, true⟩]))
    (herror : ∀ e d, P (.error e) d) : Heeds (Requires call) (atomic body) d P := by
  refine Heeds.attempt_bind h fun r d hd => ?_
  cases r with
  | ok b =>
    refine Heeds.perform_bind trivial fun committed => ?_
    cases committed with
    | true => exact hok b d hd
    | false => exact herror _ _
  | error e => exact Heeds.perform_bind trivial fun _ => herror e _

/-! ### Cleanup -/

theorem unlinkIfSame_heeds {scheduled : Witness} (h : Captures call path (.found scheduled) d) :
    Heeds (Requires call) (unlinkIfSame path scheduled) d
      fun _ d' => ∃ later, d' = d ++ later := by
  refine Heeds.perform_bind trivial fun last => ?_
  split_ifs with hlast
  · subst hlast
    refine Heeds.perform_bind ⟨scheduled, d, h, rfl⟩ fun result => ?_
    cases result <;> exact ⟨_, List.append_assoc ..⟩
  · exact ⟨_, rfl⟩

theorem decideAndUnlink_heeds {canonical : Path}
    (h : Captures call cleanup.path cleanup.witness d) :
    Heeds (Requires call) (decideAndUnlink cleanup canonical) d
      fun _ d' => ∃ later, d' = d ++ later := by
  refine Heeds.perform_bind trivial fun current => ?_
  split
  · exact ⟨_, rfl⟩
  · exact ⟨_, rfl⟩
  · exact ⟨_, rfl⟩
  · exact ⟨_, rfl⟩
  · next current scheduled hscheduled =>
    split_ifs
    · exact ⟨_, rfl⟩
    · refine Heeds.perform_bind trivial fun now => ?_
      split_ifs
      · exact ⟨_, List.append_assoc ..⟩
      · refine Heeds.perform_bind trivial fun registered => ?_
        split_ifs
        · exact ⟨_, by simp only [List.append_assoc]; rfl⟩
        · rw [hscheduled] at h
          refine (unlinkIfSame_heeds (((h.append _).append _).append _)).mono fun _ d' hd => ?_
          obtain ⟨later, rfl⟩ := hd
          exact ⟨_, by simp only [List.append_assoc]; rfl⟩

theorem remove_heeds (h : Captures call cleanup.path cleanup.witness d) :
    Heeds (Requires call) (remove cleanup) d fun _ d' => ∃ later, d' = d ++ later := by
  unfold remove
  split
  · exact ⟨[], (List.append_nil d).symm⟩
  · next canonical hcanonical =>
    have hbody : Heeds (Requires call) (cleanupTransaction cleanup canonical) d
        fun _ d' => ∃ later, d' = d ++ later := by
      refine Heeds.attempt_bind (Q := fun _ d' => ∃ later, d' = d ++ later) ?_ fun r d' hd => ?_
      · refine Heeds.perform_bind trivial fun acquired => ?_
        cases acquired with
        | false => exact ⟨_, rfl⟩
        | true =>
          refine (decideAndUnlink_heeds (h.append _)).mono fun _ d' hd => ?_
          obtain ⟨later, rfl⟩ := hd
          exact ⟨_, List.append_assoc ..⟩
      · obtain ⟨later, rfl⟩ := hd
        cases r with
        | ok b =>
          refine Heeds.perform_bind trivial fun committed => ?_
          cases committed <;> exact ⟨_, List.append_assoc ..⟩
        | error e => exact Heeds.perform_bind trivial fun _ => ⟨_, List.append_assoc ..⟩
    refine Heeds.attempt_bind hbody fun r d' hd => ?_
    cases r with
    | ok status => exact hd
    | error fault => cases fault <;> exact hd

theorem removeAll_heeds {cleanups : List Cleanup}
    (h : ∀ c ∈ cleanups, Captures call c.path c.witness d) :
    Heeds (Requires call) (removeAll cleanups) d fun _ _ => True := by
  induction cleanups generalizing d with
  | nil => trivial
  | cons cleanup rest ih =>
    obtain ⟨hcleanup, hrest⟩ := List.forall_mem_cons.mp h
    refine Heeds.bind (remove_heeds hcleanup) (fun status d' hd => ?_) fun _ _ _ => trivial
    obtain ⟨later, rfl⟩ := hd
    refine Heeds.bind (ih fun c hc => (hrest c hc).append later) (fun _ _ _ => trivial)
      fun _ _ _ => trivial

/-! ### Deletion -/

/-- The cleanup's look is among what has been done. -/
def Looked (cleanup : Cleanup) (d : History) : Prop :=
  ∃ before after, d = before ++ ⟨.lstat cleanup.path, cleanup.witness⟩ :: after

theorem Looked.append {d : History} (h : Looked cleanup d)
    (later : History) : Looked cleanup (d ++ later) := by
  obtain ⟨before, after, rfl⟩ := h
  exact ⟨before, after ++ later, by simp⟩

theorem scheduleSourceCleanup_heeds (path : Path) (track : ℕ) (grace : Bool) (d : History) :
    Heeds (Requires call) (scheduleSourceCleanup path track grace) d fun r d' =>
      ∃ later, d' = d ++ later ∧ Within later ∧
        ∀ cleanup, r = .ok cleanup →
          Looked cleanup later ∧ cleanup.track = track ∧ cleanup.path = path := by
  have hidentity : (validatedSourceIdentity path).Uses Inside := by
    unfold validatedSourceIdentity
    split_ifs
    · exact Uses.bind (Uses.perform trivial) fun _ => trivial
    · trivial
  refine Heeds.bind (Heeds.of_uses hidentity fun x d hx => hx.free.requires d)
    (fun canonical d' hd => ?_) fun e d' hd => ?_
  · obtain ⟨later, rfl, hlater⟩ := hd
    refine Heeds.perform_bind trivial fun witness => ⟨_, List.append_assoc .., ?_, ?_⟩
    · exact (within_of_inside hlater).append (within_of_inside (by simp [Inside]))
    · intro cleanup hcleanup
      cases hcleanup
      exact ⟨⟨later, [], rfl⟩, rfl, rfl⟩
  · obtain ⟨later, rfl, hlater⟩ := hd
    exact ⟨later, rfl, within_of_inside hlater, nofun⟩

theorem scheduleAll_heeds (grace : Bool) (rows : List (ℕ × Path)) (d : History) :
    Heeds (Requires call) (scheduleAll grace rows) d fun r d' =>
      ∃ later, d' = d ++ later ∧ Within later ∧
        ∀ cleanups, r = .ok cleanups → ∀ c ∈ cleanups,
          Looked c later ∧ (c.track, c.path) ∈ rows := by
  induction rows generalizing d with
  | nil =>
    refine ⟨[], (List.append_nil d).symm, nofun, fun cleanups hcleanups => ?_⟩
    cases hcleanups
    exact nofun
  | cons row rest ih =>
    refine Heeds.bind (scheduleSourceCleanup_heeds row.2 row.1 grace d)
      (fun cleanup d' hd => ?_) fun e d' hd => ?_
    · obtain ⟨first, rfl, hfirst, hcleanup⟩ := hd
      obtain ⟨hlooked, htrack, hpath⟩ := hcleanup cleanup rfl
      refine Heeds.bind (ih _) (fun cleanups d' hd => ?_) fun e d' hd => ?_
      · obtain ⟨later, rfl, hlater, hcleanups⟩ := hd
        refine ⟨first ++ later, List.append_assoc .., hfirst.append hlater, fun all hall => ?_⟩
        cases hall
        refine List.forall_mem_cons.mpr ⟨⟨hlooked.append later, ?_⟩, fun c hc => ?_⟩
        · rw [htrack, hpath]
          exact List.mem_cons_self
        · obtain ⟨⟨before, after, heq⟩, hmem⟩ := hcleanups cleanups rfl c hc
          exact ⟨⟨first ++ before, after, by simp [heq]⟩, List.mem_cons_of_mem _ hmem⟩
      · obtain ⟨later, rfl, hlater, -⟩ := hd
        exact ⟨first ++ later, List.append_assoc .., hfirst.append hlater, nofun⟩
    · obtain ⟨first, rfl, hfirst, -⟩ := hd
      exact ⟨first, rfl, hfirst, nofun⟩

theorem mem_sources {o : Options} {row : ℕ × Path}
    (h : row ∈ sources o owned rows) : row ∈ rows ∧ row.1 ∉ owned := by
  simp only [sources, List.mem_filter, decide_eq_true_eq] at h
  exact ⟨h.1, h.2.2.2⟩

theorem deletion_heeds (matching : Matching)
    (o : Options) (hasked : rows = [] ∨ Asked rows owned call d) :
    Heeds (Requires call) (deletion matching rows owned o) d fun _ _ => True := by
  refine Heeds.bind (Q := fun r d' => ∀ cleanups, r = .ok cleanups → ∀ c ∈ cleanups,
    Captures call c.path c.witness d') (atomic_heeds (Q := fun r d' => ∀ cleanups,
      r = .ok cleanups → ∃ later, d' = d ++ ⟨.deleteRows matching, .ok ()⟩ :: later ∧
        Within later ∧ ∀ c ∈ cleanups, Looked c later ∧ (c.track, c.path) ∈ sources o owned rows)
      ?_ ?_ fun _ _ => nofun) (fun cleanups d' hd => ?_) fun _ _ _ => trivial
  · refine Heeds.perform_bind trivial fun deleted => ?_
    cases deleted with
    | error e => exact nofun
    | ok u =>
      refine Heeds.bind (scheduleAll_heeds o.sourceGrace _ _) (fun cleanups d' hd => ?_)
        fun _ _ _ => nofun
      obtain ⟨later, rfl, hlater, hcleanups⟩ := hd
      unfold raiseIf
      split_ifs
      · exact nofun
      · intro all hall
        cases hall
        exact ⟨later, by simp, hlater, hcleanups cleanups rfl⟩
  · intro cleanups d' hd all hall c hc
    cases hall
    obtain ⟨later, rfl, hlater, hlooked⟩ := hd cleanups rfl
    obtain ⟨⟨before, after, rfl⟩, hmem⟩ := hlooked c hc
    obtain ⟨hrow, howned⟩ := mem_sources hmem
    have hasked := hasked.resolve_left fun hnil => by simp [hnil] at hrow
    refine ⟨rows, owned, c.track, d, matching, before, after, [], hasked, hrow, howned, ?_,
      by simp⟩
    intro step hstep
    refine hlater step ?_
    rcases List.mem_append.mp hstep with hstep | hstep
    · exact List.mem_append_left _ hstep
    · exact List.mem_append_right _ (List.mem_cons_of_mem _ hstep)
  · exact Heeds.bind (removeAll_heeds (hd cleanups rfl)) (fun _ _ _ => trivial)
      fun _ _ _ => trivial

theorem program_heeds (call : Call) : Heeds (Requires call) (program call) [] fun _ _ => True := by
  cases call with
  | deleteTrack id filepath o =>
    exact Heeds.perform_bind trivial fun owned => deletion_heeds _ o (.inr ⟨rfl, rfl⟩)
  | deleteTracks matching o =>
    refine Heeds.perform_bind trivial fun rows => ?_
    unfold ownedOf
    split_ifs with hrows
    · exact deletion_heeds matching o (.inl hrows)
    · exact Heeds.perform_bind trivial fun owned => deletion_heeds matching o (.inr rfl)
  | register path isSame published =>
    refine Heeds.bind (Q := fun _ _ => True) (atomic_heeds (Q := fun _ _ => True) ?_
      (fun _ _ _ => trivial) fun _ _ => trivial) (fun _ _ _ => trivial) fun _ _ _ => trivial
    refine Heeds.perform_bind trivial fun acquired => ?_
    cases acquired with
    | false => trivial
    | true =>
      refine Heeds.perform_bind trivial fun looked => ?_
      obtain ⟨entry, seen⟩ := looked
      cases entry with
      | none => trivial
      | some current =>
        dsimp only
        unfold raiseIf
        split_ifs
        · trivial
        · exact ⟨⟨current, rfl⟩, fun _ => trivial⟩
  | change entry resolve => exact Heeds.perform_bind trivial fun _ => trivial

end IsadoraAir.TrackDeletion

/-!
## Integrity of source cleanup

What holds in every run of deletions, registrations and other programs: a file is
unlinked on the evidence of its own deletion, and never under a Track.
-/

namespace IsadoraAir.TrackDeletion

variable {x : Action} {call : Call} {path : Path} {α : Type} [DecidableEq α] (lockKey : Path → ℤ)
  {s : State α} {a : α}

structure Reachable (s : State α) : Prop where
  sound : (crew lockKey).Sound (assertions lockKey) s
  follows : Crew.Tasks (fun task => (program task.call).Follows task.done task.rest) s

/-- A cleanup of the deletion that `a` answers unlinks the path. -/
structure Unlinks (a : α) (path : Path) (e : Event α) (s : State α) : Prop where
  acts : ∃ choice, e = .act a choice
  task : ∃ call done next, s.task a = some ⟨call, done, .act (.unlink path) next⟩
  unlinked : (step lockKey e s).shared.files = s.shared.files.unlink path

/-- Another program changes the files. -/
def Changes (e : Event α) (s : State α) : Prop :=
  ∃ a choice call done entry resolve next, e = .act a choice ∧
    s.task a = some ⟨call, done, .act (.change entry resolve) next⟩

/-- What one step guarantees. -/
structure Guarded (e : Event α) (s : State α) : Prop where
  /-- The deletion has committed, and the last look showed what it had captured. -/
  evidence : ∀ a path, Unlinks lockKey a path e s → ∃ call witness before next,
    s.task a = some ⟨call, before ++ [⟨.lstat path, .found witness⟩], .act (.unlink path) next⟩ ∧
    Captures call path (.found witness) before
  unregistered : ∀ a path, Unlinks lockKey a path e s → s.shared.db.get? path = none
  files : (step lockKey e s).shared.files ≠ s.shared.files →
    (∃ a path, Unlinks lockKey a path e s) ∨ Changes e s
  /-- A registration writes its Track after it has seen the file under the lock. -/
  registers : ∀ a call done path published seen next,
    s.task a = some ⟨call, done, .act (.updateOrCreate path published seen) next⟩ →
    ∃ witness, done = [⟨.acquire path, true⟩, ⟨.stat path, (some witness, seen)⟩]

variable {lockKey}

theorem step_reachable (e : Event α) (h : Reachable lockKey s) :
    Reachable lockKey (step lockKey e s) :=
  ⟨lawful.step_sound h.sound e, Crew.step_follows h.follows e⟩

theorem initial_reachable {db : Tracks} {entry : Path → Option Witness}
    {resolve : Path → Option Path}
    (hdb : ∀ path track, db.get? path = some track → track.seen = 0) :
    Reachable lockKey (initial db entry resolve : State α) := by
  refine ⟨Crew.idle_sound ⟨fun path track hget => ?_, nofun, nofun⟩ fun a =>
    ⟨Sessions.initial_clean db a, rfl⟩, nofun⟩
  rw [hdb path track hget]
  exact ⟨le_rfl, List.not_mem_nil⟩

theorem Reachable.requires (h : Reachable lockKey s)
    {done : History} {next : x.Result → Service Answer}
    (htask : s.task a = some ⟨call, done, .act x next⟩) : Requires call x done :=
  ((h.follows a _ htask).heeds (program_heeds call)).1

theorem files_of_effect {s s' : Shared α} (h : Effect lockKey a s x s')
    (hfiles : s'.files ≠ s.files) :
    (∃ path, x = .unlink path ∧ s'.files = s.files.unlink path) ∨
      ∃ entry resolve, x = .change entry resolve := by
  cases h with
  | unlink path => exact .inl ⟨path, rfl, rfl⟩
  | change entry resolve => exact .inr ⟨entry, resolve, rfl⟩
  | _ => exact absurd rfl hfiles

theorem db_of_unlink {s s' : Shared α}
    (h : Effect lockKey a s (.unlink path) s') (hfiles : s'.files = s.files.unlink path) :
    s'.db = s.db := by
  cases h with
  | rollback => rfl
  | _ => rfl

theorem step_guarded (e : Event α) (h : Reachable lockKey s) :
    Guarded lockKey e s where
  evidence a path hunlinks := by
    obtain ⟨call, done, next, htask⟩ := hunlinks.task
    obtain ⟨witness, before, hcaptures, rfl⟩ := h.requires htask
    exact ⟨call, witness, before, next, htask, hcaptures⟩
  unregistered a path hunlinks := by
    have hsound := (step_reachable e h).sound.shared
    cases hget : s.shared.db.get? path with
    | none => rfl
    | some track =>
      have hle := (h.sound.shared.rows path track hget).le
      have hsame : (step lockKey e s).shared.db.get? path = some track := by
        rcases Crew.step_shared (crew lockKey) program e s with hsame | ⟨b, hrollback⟩ |
          ⟨b, choice, call, done, x, next, r, he, htask, hexec, -⟩
        · exact (congrArg (fun t : Shared α => t.db.get? path) hsame).trans hget
        · exact (congrArg (fun t : Shared α => t.db.get? path) hrollback).trans hget
        · obtain ⟨choice', he'⟩ := hunlinks.acts
          obtain ⟨call', done', next', htask'⟩ := hunlinks.task
          rw [he] at he'
          cases he'
          rw [htask] at htask'
          cases htask'
          have hdb := db_of_unlink (crew_effect hexec) hunlinks.unlinked
          exact (congrArg (fun db : Tracks => db.get? path) hdb).trans hget
      have hclear := hsound.rows path track hsame
      rw [hunlinks.unlinked] at hclear
      exact absurd rfl (ne_of_clear_unlink hclear hle)
  files hfiles := by
    rcases Crew.step_shared (crew lockKey) program e s with hsame | ⟨a, hrollback⟩ |
      ⟨a, choice, call, done, x, next, r, he, htask, hexec, -⟩
    · exact absurd (congrArg Shared.files hsame) hfiles
    · exact absurd (congrArg Shared.files hrollback) hfiles
    · rcases files_of_effect (crew_effect hexec) hfiles with ⟨path, rfl, hunlinked⟩ |
        ⟨entry, resolve, rfl⟩
      · exact .inl ⟨a, path, ⟨choice, he⟩, ⟨call, done, next, htask⟩, hunlinked⟩
      · exact .inr ⟨a, choice, call, done, entry, resolve, next, he, htask⟩
  registers a call done path published seen next htask := h.requires htask

/-- A file is unlinked only after the deletion that has captured it has committed, on a last look
that has shown what was captured, for a row that no publication owned when the deletion asked,
and where no Track is registered. No cleanup has unlinked the path of a Track since its
registration looked at the file. -/
theorem source_cleanup {db : Tracks} {entry : Path → Option Witness} {resolve : Path → Option Path}
    (hdb : ∀ path track, db.get? path = some track → track.seen = 0) (events : List (Event α)) :
    Runs.Throughout (step lockKey) (Guarded lockKey) events (initial db entry resolve) ∧
    ∀ path track,
      (Runs.run (step lockKey) events (initial db entry resolve)).shared.db.get? path =
        some track →
      Clear (Runs.run (step lockKey) events (initial db entry resolve)).shared.files path
        track.seen := by
  have hinitial : Reachable lockKey (initial db entry resolve : State α) := initial_reachable hdb
  constructor
  · exact Runs.throughout_of_invariant (P := fun _ _ => True) (I := Reachable lockKey)
      (fun e _ _ hs => step_reachable e hs) (fun e _ _ hs => step_guarded e hs) hinitial
      (Runs.throughout_true events _)
  · exact (Runs.invariant (P := fun _ _ => True) (I := Reachable lockKey)
      (fun e _ _ hs => step_reachable e hs) hinitial
      (Runs.throughout_true events _)).sound.shared.rows

/-! ### A file that is replaced, and a Track that is deleted twice -/

def song : Witness := ⟨1, 100, 5000, 10, 10, 0⟩

def delivery : Witness := ⟨1, 101, 7000, 90, 90, 0⟩

def library (published : Bool) : Tracks := ⟨[("/music/a.flac", ⟨7, published, 0⟩)], List.nodup_singleton _⟩

theorem library_seen (published : Bool) (path : Path) (track : Track)
    (hget : (library published).get? path = some track) : track.seen = 0 := by
  have hmem := Dict.get?_eq_some_iff.mp hget
  simp only [library, List.mem_singleton, Prod.mk.injEq] at hmem
  rw [hmem.2]

def holding (witness : Witness) (path : Path) : Option Witness :=
  if path = "/music/a.flac" then some witness else none

def proceed (a : ℕ) : Event ℕ := .act a ⟨8, false, false, false, 100000000000⟩

def deletes (a : ℕ) (removeSources : Bool) : Event ℕ :=
  .start a (.deleteTrack 7 "/music/a.flac" ⟨removeSources, true, false⟩)

/-- Up to the unlink; another program delivers a new file after the last look. -/
def replaced : List (Event ℕ) :=
  deletes 0 true :: List.replicate 10 (proceed 0) ++
    [.start 1 (.change (holding delivery) some), proceed 1]

/-- Both requests have loaded the Track; the first one leaves the file to the publication. -/
def deletedTwice : List (Event ℕ) :=
  deletes 0 true :: deletes 1 false :: List.replicate 3 (proceed 1) ++
    List.replicate 10 (proceed 0)

def lstat? : ((x : Action) × x.Result) → Option Look
  | ⟨.lstat _, look⟩ => some look
  | _ => none

theorem Captures.mem_lstats {witness : Look} {d : History}
    (h : Captures call path witness d) : witness ∈ d.filterMap lstat? := by
  obtain ⟨rows, owned, id, asked, matching, deleting, capturing, ending, -, -, -, -, rfl⟩ :=
    h.exists_split
  exact List.mem_filterMap.mpr ⟨⟨.lstat path, witness⟩, by simp, rfl⟩

/-- The unlink takes what is there by then; and a publication's foreign key is gone with the row. -/
theorem unlinks_what_it_should_keep :
    (¬∀ (db : Tracks) (entry : Path → Option Witness) (events : List (Event ℕ)) (e : Event ℕ)
      (a : ℕ) (path : Path), (∀ p track, db.get? p = some track → track.seen = 0) →
      Unlinks (fun _ => 0) a path e
        (Runs.run (step fun _ => 0) events (initial db entry some)) →
      ∃ call done next witness,
        (Runs.run (step fun _ => 0) events (initial db entry some)).task a =
          some ⟨call, done, .act (.unlink path) next⟩ ∧
        Captures call path (.found witness) done ∧
        (Runs.run (step fun _ => 0) events (initial db entry some)).shared.files.entry path =
          some witness) ∧
    ¬∀ (db : Tracks) (entry : Path → Option Witness) (events : List (Event ℕ)) (e : Event ℕ)
      (a : ℕ) (path : Path) (track : Track) (o : Options),
      (∀ p track, db.get? p = some track → track.seen = 0) → db.get? path = some track →
      track.published = true → (∀ call, .start a call ∉ events) →
      ¬Unlinks (fun _ => 0) a path e (Runs.run (step fun _ => 0)
        (.start a (.deleteTrack track.id path o) :: events) (initial db entry some)) := by
  constructor
  · intro h
    obtain ⟨call, done, next, witness, htask, hcaptures, hentry⟩ :=
      h (library false) (holding song) replaced (proceed 0) 0 "/music/a.flac" (library_seen false)
        ⟨⟨_, rfl⟩, ⟨_, _, _, rfl⟩, rfl⟩
    have hwitness : some delivery = some witness := hentry
    cases hwitness
    have hlooks := congrArg (Option.map fun task => task.done.filterMap lstat?) htask
    have hdone : done.filterMap lstat? = List.replicate 3 (.found song) :=
      (Option.some.inj hlooks).symm
    have hmem := hcaptures.mem_lstats
    rw [hdone] at hmem
    exact absurd hmem (by decide)
  · intro h
    refine h (library true) (holding song) (deletedTwice.drop 1) (proceed 0) 0 "/music/a.flac"
      ⟨7, true, 0⟩ ⟨true, true, false⟩ (library_seen true) rfl rfl (fun call hmem => ?_)
      ⟨⟨_, rfl⟩, ⟨_, _, _, rfl⟩, rfl⟩
    simp [deletedTwice, deletes, proceed] at hmem

theorem source_cleanup_replaced :
    Runs.Throughout (step fun _ => 0) (Guarded fun _ => 0) (replaced ++ [proceed 0])
      (initial (library false) (holding song) some) ∧
    ∀ path track,
      (Runs.run (step fun _ => 0) (replaced ++ [proceed 0])
        (initial (library false) (holding song) some)).shared.db.get? path = some track →
      Clear (Runs.run (step fun _ => 0) (replaced ++ [proceed 0])
        (initial (library false) (holding song) some)).shared.files path track.seen := by
  refine source_cleanup (fun path track hget => ?_) _
  have hmem := Dict.get?_eq_some_iff.mp hget
  simp only [library, List.mem_singleton, Prod.mk.injEq] at hmem
  rw [hmem.2]

end IsadoraAir.TrackDeletion
