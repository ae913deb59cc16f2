import IsadoraAir.TrackDeletion.Safety

/-!
# Every deletion and registration is safe

Between two of its actions, a cleanup relies on the lock that it holds: no Track
is registered at the path, and nobody has looked at the file to register it.
-/

namespace IsadoraAir.TrackDeletion

open Routine (Safe Setting Uses)

variable {x : Action} {path : Path} {cleanup : Cleanup}
  {α : Type} [DecidableEq α] (lockKey : Path → ℤ)

def assertions : Crew.Assertions (Shared α) α Call where
  invariant := Invariant lockKey
  during _ _ _ := True
  clean := Clean

abbrev service (call : Call) (a : α) : Setting Action.Result (Shared α) :=
  (crew lockKey).setting (assertions lockKey) call a

variable {lockKey} {β : Type} {a : α} {s s' : Shared α} {call : Call}

theorem crew_effect {c : Choice} {r : x.Result}
    (h : (crew lockKey).exec c a x s = some (r, s')) : Effect lockKey a s x s' :=
  exec_effect h

theorem effect_of_others (h : (crew lockKey).Others (assertions lockKey) a s s') :
    ∃ b x, a ≠ b ∧ Effect lockKey b s x s' := by
  obtain ⟨-, -, b, hb, rfl | ⟨choice, x, r, hexec⟩⟩ := h
  · exact ⟨b, .rollback, hb.symm, .rollback _⟩
  · exact ⟨b, x, hb.symm, crew_effect hexec⟩

theorem stable_invariant (call : Call) (a : α) :
    (service lockKey call a).Stable (Invariant lockKey) :=
  fun _ _ _ hothers => hothers.2.1

theorem clean_of_others (hs : Clean a s)
    (h : (crew lockKey).Others (assertions lockKey) a s s') : Clean a s' := by
  obtain ⟨b, x, hab, heffect⟩ := effect_of_others h
  exact ⟨(heffect.spared hab).clean hs.session, (heffect.looks hab).trans hs.looks⟩

/-! ## What a session holds -/

variable (lockKey) in
structure Resting (a : α) (s : Shared α) : Prop where
  invariant : Invariant lockKey s
  clean : Clean a s

variable (lockKey) in
/-- The session holds the lock of the path and has written nothing. -/
structure Holds (a : α) (path : Path) (s : Shared α) : Prop where
  invariant : Invariant lockKey s
  pending : s.sessions.pending a = []
  owner : Owns s a (.key (lockKey path))

variable (lockKey) in
/-- It has not looked at the file to register it, either. -/
structure Guards (a : α) (path : Path) (s : Shared α) : Prop extends Holds lockKey a path s where
  looks : s.looks a = none

theorem stable_resting (call : Call) (a : α) :
    (service lockKey call a).Stable (Resting lockKey a) :=
  fun _ _ hs hothers => ⟨hothers.2.1, clean_of_others hs.clean hothers⟩

theorem stable_holds (call : Call) (a : α) (path : Path) :
    (service lockKey call a).Stable (Holds lockKey a path) := by
  intro s s' hs hothers
  obtain ⟨b, x, hab, heffect⟩ := effect_of_others hothers
  exact ⟨hothers.2.1, (heffect.spared hab).pending.trans hs.pending,
    (heffect.spared hab).owner _ hs.owner⟩

theorem stable_looks (call : Call) (a : α) (looked : Option (Path × ℕ)) :
    (service lockKey call a).Stable fun s => s.looks a = looked := by
  intro s s' hs hothers
  obtain ⟨b, x, hab, heffect⟩ := effect_of_others hothers
  exact (heffect.looks hab).trans hs

theorem stable_guards (call : Call) (a : α) (path : Path) :
    (service lockKey call a).Stable (Guards lockKey a path) :=
  fun s s' hs hothers => ⟨stable_holds call a path s s' hs.toHolds hothers,
    stable_looks call a none s s' hs.looks hothers⟩

/-- As long as the lock is held, nobody registers a Track there. -/
theorem stable_unregistered (call : Call) (a : α) (path : Path) :
    (service lockKey call a).Stable fun s => Guards lockKey a path s ∧ s.db.get? path = none := by
  intro s s' hs hothers
  obtain ⟨b, x, hab, heffect⟩ := effect_of_others hothers
  exact ⟨stable_guards call a path s s' hs.1 hothers,
    db_of_effect heffect hab hs.1.invariant hs.1.owner hs.2⟩

/-! ## Rules -/

theorem atomic_safe {body : Service β} {G : β → Prop}
    (h : body.Safe (service lockKey call a) s fun r s =>
      Invariant lockKey s ∧ ∀ b, r = .ok b → G b) :
    (atomic body).Safe (service lockKey call a) s fun r s =>
      Resting lockKey a s ∧ ∀ b, r = .ok b → G b := by
  have hrollback {s : Shared α} (hs : Invariant lockKey s) :
      Resting lockKey a (rollback s a) :=
    ⟨invariant_rollback hs, Sessions.rollback_clean s.sessions a, Function.update_self ..⟩
  refine Safe.attempt_bind h fun r s hs => ?_
  cases r with
  | ok b =>
    refine Safe.perform_bind hs.1 (stable_invariant call a) (fun s h => ⟨h, trivial⟩) ?_
    rintro s r s' hinv ⟨choice, hexec⟩
    change exec lockKey choice a .commit s = some (r, s') at hexec
    simp only [exec] at hexec
    split_ifs at hexec <;> cases hexec
    · exact ⟨hrollback hinv, fun b hb => by cases hb⟩
    · refine ⟨⟨invariant_commit hinv, Sessions.commit_clean apply s.sessions a,
        Function.update_self ..⟩, fun c hc => ?_⟩
      cases hc
      exact hs.2 b rfl
  | error fault =>
    refine Safe.perform_bind hs.1 (stable_invariant call a) (fun s h => ⟨h, trivial⟩) ?_
    rintro s r s' hinv ⟨choice, hexec⟩
    cases hexec
    exact ⟨hrollback hinv, fun b hb => by cases hb⟩

/-- A look at something else than the locked path's registration. -/
theorem read_safe {f : x.Result → Service β} {P : Shared α → Prop}
    {Q : Except Fault β → Shared α → Prop} (hP : P s)
    (hstable : (service lockKey call a).Stable P) (hinv : ∀ s, P s → Invariant lockKey s)
    (hread : ∀ c s r s', exec lockKey c a x s = some (r, s') → s' = s)
    (hf : ∀ r s, P s → (f r).Safe (service lockKey call a) s Q) :
    (perform x >>= f).Safe (service lockKey call a) s Q := by
  refine Safe.perform_bind hP hstable (fun s h => ⟨hinv s h, trivial⟩) ?_
  rintro s r s' hP ⟨choice, hexec⟩
  rw [hread choice s r s' hexec]
  exact hf r s hP

theorem lstat_reads (path : Path) (c : Choice) (s : Shared α) (r : Look) (s' : Shared α)
    (h : exec lockKey c a (.lstat path) s = some (r, s')) : s' = s := by
  cases h
  rfl

/-! ## Cleanup -/

theorem unlinkIfSame_keeps {scheduled : Witness}
    (hs : Guards lockKey a path s) (hpath : s.db.get? path = none) :
    (unlinkIfSame path scheduled).Safe (service lockKey call a) s fun _ => Invariant lockKey := by
  refine read_safe ⟨hs, hpath⟩ (stable_unregistered call a path) (fun s h => h.1.invariant)
    (lstat_reads path) fun last s hs => ?_
  split_ifs
  · refine Safe.perform_bind hs (stable_unregistered call a path)
      (fun s h => ⟨h.1.invariant, trivial⟩) ?_
    rintro s r s' ⟨hs, hpath⟩ ⟨choice, hexec⟩
    have hinv : Invariant lockKey s' := by
      cases crew_effect hexec with
      | none => exact hs.invariant
      | rollback => exact invariant_rollback hs.invariant
      | unlink => exact invariant_unlink hs.invariant hs.owner hs.pending hs.looks hpath
    cases r <;> exact hinv
  · exact hs.1.invariant

theorem decideAndUnlink_keeps (hs : Guards lockKey a cleanup.path s) :
    (decideAndUnlink cleanup cleanup.path).Safe (service lockKey call a) s
      fun _ => Invariant lockKey := by
  have hstable : (service lockKey call a).Stable (Guards lockKey a cleanup.path) :=
    stable_guards call a cleanup.path
  refine read_safe hs hstable (fun s h => h.invariant) (lstat_reads _) fun current s hs => ?_
  split
  · exact hs.invariant
  · exact hs.invariant
  · exact hs.invariant
  · exact hs.invariant
  · split_ifs
    · exact hs.invariant
    · refine read_safe hs hstable (fun s h => h.invariant) (fun c s r s' h => by cases h; rfl)
        fun now s hs => ?_
      split_ifs
      · exact hs.invariant
      · refine Safe.perform_bind hs hstable (fun s h => ⟨h.invariant, trivial⟩) ?_
        rintro s r s' hs ⟨choice, hexec⟩
        cases hexec
        split_ifs with hregistered
        · exact hs.invariant
        · refine unlinkIfSame_keeps hs ?_
          rw [Shared.view_of_pending hs.pending] at hregistered
          simpa using hregistered

/-- The lock is taken, or has been waited for too long. -/
theorem acquire_safe {f : Bool → Service β}
    {Q : Except Fault β → Shared α → Prop} (hs : Resting lockKey a s)
    (hheld : ∀ s, Guards lockKey a path s → (f true).Safe (service lockKey call a) s Q)
    (hbusy : ∀ s, Invariant lockKey s → (f false).Safe (service lockKey call a) s Q) :
    (perform (.acquire path) >>= f).Safe (service lockKey call a) s Q := by
  refine Safe.perform_bind hs (stable_resting call a) (fun s h => ⟨h.invariant, trivial⟩) ?_
  rintro s r s' hs ⟨choice, hexec⟩
  change exec lockKey choice a (.acquire path) s = some (r, s') at hexec
  simp only [exec, acquire] at hexec
  split_ifs at hexec with hlocks <;> cases hexec
  · exact hheld _ ⟨⟨invariant_lockRows hs.invariant hlocks hs.clean.looks, hs.clean.session.pending,
      owns_lockRows (by simp)⟩, hs.clean.looks⟩
  · exact hbusy _ hs.invariant

theorem cleanupTransaction_safe (hs : Resting lockKey a s) :
    (cleanupTransaction cleanup cleanup.path).Safe (service lockKey call a) s
      fun _ => Resting lockKey a := by
  refine Safe.mono (atomic_safe (G := fun _ => True) (acquire_safe hs ?_ ?_)) fun _ _ h => h.1
  · intro s hs
    exact Safe.mono (decideAndUnlink_keeps hs) fun _ _ h => ⟨h, fun _ _ => trivial⟩
  · exact fun s hs => ⟨hs, fun _ _ => trivial⟩

/-- What a deletion has captured is an identity. -/
def Cleanup.Identifies (cleanup : Cleanup) : Prop :=
  cleanup.canonical = none ∨ cleanup.canonical = some cleanup.path

theorem remove_safe (hcleanup : cleanup.Identifies) (hs : Resting lockKey a s) :
    (remove cleanup).Safe (service lockKey call a) s fun _ => Resting lockKey a := by
  unfold remove
  rcases hcleanup with hnone | hsome
  · rw [hnone]
    exact hs
  · rw [hsome]
    refine Safe.attempt_bind (cleanupTransaction_safe hs) fun r s hs => ?_
    cases r with
    | ok status => exact hs
    | error fault => cases fault <;> exact hs

theorem removeAll_safe {cleanups : List Cleanup} (hcleanups : ∀ c ∈ cleanups, c.Identifies)
    (hs : Resting lockKey a s) :
    (removeAll cleanups).Safe (service lockKey call a) s fun _ => Resting lockKey a := by
  induction cleanups generalizing s with
  | nil => exact hs
  | cons cleanup rest ih =>
    obtain ⟨hcleanup, hrest⟩ := List.forall_mem_cons.mp hcleanups
    refine Safe.bind (remove_safe hcleanup hs) (fun status s hs => ?_) fun _ _ h => h
    exact Safe.bind (ih hrest hs) (fun statuses s hs => hs) fun _ _ h => h

/-! ## Deletion -/

theorem scheduleSourceCleanup_safe (path : Path) (track : ℕ) (grace : Bool)
    (hs : Invariant lockKey s) :
    (scheduleSourceCleanup path track grace).Safe (service lockKey call a) s fun r s =>
      Invariant lockKey s ∧ ∀ cleanup, r = .ok cleanup → cleanup.Identifies := by
  have hidentity : (validatedSourceIdentity path).Safe (service lockKey call a) s fun r s =>
      Invariant lockKey s ∧ ∀ canonical, r = .ok canonical →
        canonical = none ∨ canonical = some path := by
    unfold validatedSourceIdentity
    split_ifs
    · refine read_safe hs (stable_invariant call a) (fun s h => h)
        (fun c s r s' h => by cases h; rfl) fun canonical s hs => ⟨hs, fun result hresult => ?_⟩
      cases hresult
      split_ifs with heq
      · exact .inr heq
      · exact .inl rfl
    · refine ⟨hs, fun canonical hcanonical => ?_⟩
      cases hcanonical
      exact .inl rfl
  refine Safe.bind hidentity (fun canonical s hs => ?_) fun e s h => ⟨h.1, nofun⟩
  refine read_safe hs.1 (stable_invariant call a) (fun s h => h) (lstat_reads path)
    fun witness t ht => ⟨ht, fun cleanup hcleanup => ?_⟩
  cases hcleanup
  exact hs.2 canonical rfl

theorem scheduleAll_safe (grace : Bool) (rows : List (ℕ × Path)) (hs : Invariant lockKey s) :
    (scheduleAll grace rows).Safe (service lockKey call a) s fun r s =>
      Invariant lockKey s ∧ ∀ cleanups, r = .ok cleanups → ∀ c ∈ cleanups, c.Identifies := by
  induction rows generalizing s with
  | nil =>
    refine ⟨hs, fun cleanups hcleanups => ?_⟩
    cases hcleanups
    exact nofun
  | cons row rest ih =>
    refine Safe.bind (scheduleSourceCleanup_safe row.2 row.1 grace hs) (fun cleanup s hs => ?_)
      fun e s h => ⟨h.1, nofun⟩
    refine Safe.bind (ih hs.1) (fun cleanups s hrest => ⟨hrest.1, fun all hall => ?_⟩)
      fun e s h => ⟨h.1, nofun⟩
    cases hall
    exact List.forall_mem_cons.mpr ⟨hs.2 cleanup rfl, hrest.2 cleanups rfl⟩

theorem deletion_completes (matching : Matching) (rows : List (ℕ × Path)) (owned : List ℕ)
    (o : Options) (hs : Resting lockKey a s) :
    (deletion matching rows owned o).Safe (service lockKey call a) s
      fun _ => Resting lockKey a := by
  refine Safe.bind (atomic_safe (G := fun cleanups => ∀ c ∈ cleanups, c.Identifies) ?_)
    (fun cleanups s hs => ?_) fun e s h => h.1
  · refine Safe.perform_bind hs.invariant (stable_invariant call a) (fun s h => ⟨h, trivial⟩) ?_
    rintro s r s' hs ⟨choice, hexec⟩
    have hinv : Invariant lockKey s' := (crew_effect hexec).invariant trivial hs
    cases r with
    | error fault => exact ⟨hinv, nofun⟩
    | ok u =>
      refine Safe.bind (scheduleAll_safe o.sourceGrace _ hinv) (fun cleanups s hs => ?_)
        fun e s h => ⟨h.1, nofun⟩
      unfold raiseIf
      split_ifs
      · exact ⟨hs.1, nofun⟩
      · refine ⟨hs.1, fun all hall => ?_⟩
        cases hall
        exact hs.2 cleanups rfl
  · exact Safe.bind (removeAll_safe (hs.2 cleanups rfl) hs.1) (fun statuses s hs => hs)
      fun e s h => h

theorem register_completes (path : Path) (isSame : Witness → Bool) (published : Bool)
    (hs : Resting lockKey a s) :
    (register path isSame published).Safe (service lockKey call a) s
      fun _ => Resting lockKey a := by
  refine Safe.bind (atomic_safe (G := fun _ => True) (acquire_safe hs ?_ ?_))
    (fun id s hs => hs.1) fun e s h => h.1
  · intro s hs
    refine Safe.perform_bind hs.toHolds (stable_holds call a path)
      (fun s h => ⟨h.invariant, trivial⟩) ?_
    rintro s r s' hs ⟨choice, hexec⟩
    cases hexec
    have hinv : Invariant lockKey (note s a (some (path, s.files.unlinked.length))) :=
      invariant_stat hs.invariant path
    cases s.files.entry path with
    | none => exact ⟨hinv, fun _ _ => trivial⟩
    | some current =>
      dsimp only
      unfold raiseIf
      split_ifs
      · exact ⟨hinv, fun _ _ => trivial⟩
      · have hlooked : Holds lockKey a path (note s a (some (path, s.files.unlinked.length))) ∧
            (note s a (some (path, s.files.unlinked.length))).looks a =
              some (path, s.files.unlinked.length) :=
          ⟨⟨hinv, hs.pending, hs.owner⟩, Function.update_self ..⟩
        refine Safe.perform hlooked ((stable_holds call a path).and (stable_looks call a _))
          (fun s h => ⟨h.1.invariant, trivial⟩) ?_
        rintro t r t' ⟨ht, hlooks⟩ ⟨choice, hexec⟩
        have hclear := ht.invariant.looks a path _ hlooks ht.owner
        refine ⟨?_, fun _ _ => trivial⟩
        change exec lockKey choice a (.updateOrCreate path published _) t = some (r, t') at hexec
        simp only [exec] at hexec
        split at hexec <;> obtain ⟨-, -, rfl⟩ := writeRows_eq_some.mp hexec <;>
        · refine invariant_written ht.invariant fun path' track hput => ?_
          cases hput
          exact ⟨ht.owner, hclear⟩
  · exact fun s hs => ⟨hs, fun _ _ => trivial⟩

theorem program_completes (call : Call) (hs : Resting lockKey a s) :
    (program call).Safe (service lockKey call a) s (Crew.Ends (assertions lockKey) a) := by
  have hends {m : Service Answer}
      (h : m.Safe (service lockKey call a) s fun _ => Resting lockKey a) :
      m.Safe (service lockKey call a) s (Crew.Ends (assertions lockKey) a) :=
    h.mono fun _ _ hr => ⟨hr.invariant, hr.clean⟩
  cases call with
  | deleteTrack id filepath o =>
    refine hends (read_safe hs (stable_resting _ a) (fun s h => h.invariant)
      (fun c s r s' h => by cases h; rfl) fun owned s hs => ?_)
    exact deletion_completes _ _ owned o hs
  | deleteTracks matching o =>
    refine hends (read_safe hs (stable_resting _ a) (fun s h => h.invariant)
      (fun c s r s' h => by cases h; rfl) fun rows s hs => ?_)
    have howned : (ownedOf rows).Safe (service lockKey (.deleteTracks matching o) a) s
        fun _ => Resting lockKey a := by
      unfold ownedOf
      split_ifs
      · exact hs
      · refine Safe.perform hs (stable_resting _ a) (fun s h => ⟨h.invariant, trivial⟩) ?_
        rintro s r s' hs ⟨choice, hexec⟩
        cases hexec
        exact hs
    exact Safe.bind howned (fun owned s hs => deletion_completes _ _ owned o hs) fun e s h => h
  | register path isSame published => exact hends (register_completes path isSame published hs)
  | change entry resolve =>
    refine hends (Safe.perform_bind hs (stable_resting _ a) (fun s h => ⟨h.invariant, trivial⟩) ?_)
    rintro s r s' hs ⟨choice, hexec⟩
    cases hexec
    exact ⟨(Effect.change (a := a) entry resolve).invariant trivial hs.invariant,
      hs.clean.session, hs.clean.looks⟩

theorem lawful : (crew lockKey : Crew Action.Result (Shared α) α Choice).Lawful
    (assertions lockKey) program where
  abandon _ s hs := ⟨invariant_rollback hs, Sessions.rollback_clean s.sessions _,
    Function.update_self ..⟩
  during _ _ _ _ _ hothers := ⟨hothers.2.1, trivial⟩
  clean _ _ _ hs hothers := clean_of_others hs hothers
  start call _ _ hs hclean := program_completes call ⟨hs, hclean⟩

end IsadoraAir.TrackDeletion
