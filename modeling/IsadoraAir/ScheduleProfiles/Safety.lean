import IsadoraAir.ScheduleProfiles.Operations

/-!
# Every service is safe

Each service, from a session with nothing written and nothing locked, keeps the
tables sound and ends with nothing written and nothing locked.
-/

namespace IsadoraAir.ScheduleProfiles

open Routine (Safe)

variable {α : Type} {a : α} {s : Shared α}

abbrev Resting (a : α) (s : Shared α) : Prop := Invariant s ∧ s.Clean a

theorem Resting.idle (h : Resting a s) : Idle a s := idle_of_clean h.1 h.2

variable [DecidableEq α] {call : Call}

/-- The service ends its session. -/
abbrev Completes (call : Call) (a : α) (m : Service Answer) (s : Shared α) : Prop :=
  m.Safe (service call a) s (Crew.Ends assertions a)

theorem stable_resting (call : Call) (a : α) : (service call a).Stable (Resting a) :=
  stable_ends call a (.ok () : Except Fault Unit)

theorem nextSortOrder_safe {P : Shared α → Prop} (hP : P s) (hstable : (service call a).Stable P)
    (hinv : ∀ s, P s → (service call a).invariant s) :
    nextSortOrder.Safe (service call a) s fun _ => P := by
  refine Safe.perform_bind hP hstable hinv ?_
  rintro s r s' hP ⟨choice, hexec⟩
  cases hexec
  exact hP

theorem createProfile_completes (hs : Resting a s) (name description : Text)
    (sortOrder : Option ℤ) : Completes call a (createProfile name description sortOrder) s := by
  refine ends_orRaise hs fun name => ?_
  have hsort : (createSortOrder sortOrder).Safe (service call a) s fun _ => Resting a := by
    cases sortOrder with
    | some value => exact hs
    | none => exact nextSortOrder_safe hs (stable_resting call a) fun s h => h.idle.service call
  refine Safe.bind hsort (fun sortOrder s hs => ?_) fun e s hs => hs
  refine inserted_ends (Safe.bind (load_safe hs.idle) (fun row s h => ?_) fun e s h =>
    h.1.service call)
  refine keeps_insert h.1 (fun i row s hinv hpending => hinv) fun fault s hs => keeps_raise hs

theorem editProfile_completes (hs : Resting a s) (profile : ℕ) (changes : Changes) :
    Completes call a (editProfile profile changes) s := by
  refine atomic_ends ?_
  refine keeps_lockedProfile (P := fun _ => True) hs.idle trivial (fun _ _ _ _ => trivial)
    (fun _ _ _ => trivial) fun row s hs _ hrow => ?_
  refine keeps_raiseIf hs fun hused => ?_
  refine keeps_raiseIf hs fun _ => keeps_raiseIf hs fun _ => ?_
  refine keeps_orRaise hs fun name _ => keeps_orRaise hs fun sortOrder _ => ?_
  dsimp only
  split_ifs
  · exact hs.service call
  · refine keeps_write hs hrow (stable_holdsProfile call a profile row)
      (fun i h => by cases h) ?_ (fun s hinv => hinv) fun fault s hs => ?_
    · intro s hrow owns howns hrows hrefuses
      refine .edit hrows ⟨row, hrow.profile, Bool.not_eq_true _ ▸ hused⟩ fun n hn => ?_
      simp only [Database.refuses] at hrefuses
      split_ifs at hrefuses with _ htaken
      rw [← Bool.not_eq_true]
      exact fun h => htaken ⟨n, hn, h⟩
    · exact nameConflict_safe (P := (service call a).invariant) (hs.service call)
        (stable_invariant call a) fun s h => h

theorem cloneProfile_completes (hs : Resting a s) (source : Source) (name : Text)
    (description : Option Text) (sortOrder : Option (Option ℤ)) (includeDateOverrides : Bool) :
    Completes call a (cloneProfile source name description sortOrder includeDateOverrides) s := by
  refine ends_orRaise hs fun name => inserted_ends ?_
  have hsort : (cloneSortOrder sortOrder).Safe (service call a) s fun _ => Idle a := by
    match sortOrder with
    | none => exact nextSortOrder_safe hs.idle (stable_idle call a) fun s h => h.service call
    | some (some value) => exact hs.idle
    | some none => exact hs.idle
  refine Safe.bind hsort (fun sortOrder s hs => ?_) fun e s hs => hs.service call
  refine keeps_insert hs (fun i row s hinv hpending => ?_) fun fault s hs => keeps_raise hs
  refine keeps_read (P := fun s => (service call a).invariant s ∧ s.pending a = [.insert i row])
    ⟨hinv, hpending⟩ (stable_written call a _) (fun s h => h.1) (fun c s r s' hexec => ?_)
    fun rows s hs => ?_
  · cases hexec
    rfl
  · exact keeps_addBlocks hs.1 hs.2 (fun s hinv => hinv) fun fault s hinv => hinv

theorem expectedUuid_eq_ok {expected : Expected} {uuid : Uuid}
    (h : expectedUuid expected = .ok uuid) : expected = .uuid uuid := by
  cases expected with
  | uuid u =>
    cases h
    rfl
  | _ => cases h

/-- The two locks that the guards of the pointers rely on. -/
theorem keeps_locked {i : ℕ} {f : LockedState → Profile → Service Answer} (hs : Idle a s)
    (hf : ∀ state row s, Idle a s → HoldsState a state s → HoldsProfile a i row s →
      Keeps call a (f state row) s) :
    Keeps call a (lockedState >>= fun state => lockedProfile i >>= f state) s :=
  keeps_lockedState hs fun state _ hs hstate =>
    keeps_lockedProfile hs hstate (stable_holdsState call a state)
      (fun _ rows h => h.lockRows rows) (hf state)

theorem activateProfile_completes (hs : Resting a s) (profile : ℕ) (expected : Expected) :
    Completes (.activate profile expected) a (activateProfile profile expected) s := by
  refine atomic_ends (keeps_orRaise hs.idle fun uuid huuid => ?_)
  refine keeps_locked hs.idle fun state row s hs hstate hrow => ?_
  refine keeps_raiseIf hs fun hused => keeps_raiseIf hs fun hstale => ?_
  refine keeps_saveIf hs ⟨hstate, hrow⟩ ((stable_holdsState _ a state).and
    (stable_holdsProfile _ a profile row)) (fun _ => nofun) ?_
  rintro hchanges s ⟨hstate, hrow⟩ owns howns - -
  rw [expectedUuid_eq_ok huuid, ← not_not.mp hstale]
  obtain ⟨hstate', hactive, -⟩ := joined_eq_some.mp hstate.joined
  exact .activate (howns _ hstate.owner) (howns _ hrow.owner) (howns _ hstate.active) hstate'
    hactive hchanges ⟨row, hrow.profile, Bool.not_eq_true _ ▸ hused⟩

theorem setDefaultProfile_completes (hs : Resting a s) (profile : ℕ) :
    Completes call a (setDefaultProfile profile) s := by
  refine atomic_ends (keeps_locked hs.idle fun state row s hs hstate hrow => ?_)
  refine keeps_raiseIf hs fun hused => ?_
  refine keeps_saveIf hs hrow (stable_holdsProfile _ a profile row) (fun _ => nofun) ?_
  intro _ s hrow owns howns _ _
  exact .setDefault (howns _ hrow.owner) ⟨row, hrow.profile, Bool.not_eq_true _ ▸ hused⟩

theorem pointerBlockers_eq_nil {state : StateRow} {profile : ℕ} :
    pointerBlockers state profile = [] ↔
      state.activeProfile ≠ profile ∧ state.defaultProfile ≠ profile := by
  unfold pointerBlockers
  split_ifs <;> simp_all

theorem archiveProfile_completes (hs : Resting a s) (profile : ℕ) :
    Completes call a (archiveProfile profile) s := by
  refine atomic_ends (keeps_locked hs.idle fun state row s hs hstate hrow => ?_)
  refine keeps_raiseIf hs fun hblockers => ?_
  obtain ⟨hactive, hdefault⟩ := pointerBlockers_eq_nil.mp (not_not.mp hblockers)
  refine keeps_saveIf hs hstate (stable_holdsState _ a state) (fun _ => nofun) ?_
  intro _ s hstate owns howns _ _
  exact .archive (howns _ hstate.owner) (joined_eq_some.mp hstate.joined).1 hactive hdefault

theorem restoreProfile_completes (hs : Resting a s) (profile : ℕ) :
    Completes call a (restoreProfile profile) s := by
  refine atomic_ends ?_
  refine keeps_lockedProfile (P := fun _ => True) hs.idle trivial (fun _ _ _ _ => trivial)
    (fun _ _ _ => trivial) fun row s hs _ hrow => ?_
  exact keeps_saveIf (P := fun _ => True) hs trivial (fun _ _ _ _ => trivial) (fun _ => nofun)
    fun _ s _ owns _ _ _ => .restore

theorem deleteProfile_completes (hs : Resting a s) (profile : ℕ) :
    Completes call a (deleteProfile profile) s := by
  refine atomic_ends (keeps_locked hs.idle fun state row s hs hstate hrow => ?_)
  have hstable := (stable_idle call a).and (stable_holdsState call a state)
  refine keeps_read ⟨hs, hstate⟩ hstable (fun s h => h.1.service call)
    (fun c s r s' hexec => by cases hexec; rfl) fun blockCount s hs => ?_
  refine keeps_read hs hstable (fun s h => h.1.service call)
    (fun c s r s' hexec => by cases hexec; rfl) fun logCount s hs => ?_
  refine keeps_raiseIf hs.1 fun hblockers => ?_
  have hpointers := (List.append_eq_nil_iff.mp (not_not.mp hblockers)).1
  obtain ⟨hactive, hdefault⟩ := pointerBlockers_eq_nil.mp hpointers
  refine keeps_write hs.1 hs.2 (stable_holdsState call a state) (fun _ => nofun) ?_
    (fun s hinv => hinv) fun fault s hs => keeps_raise hs
  intro s hstate owns howns _ _
  exact .delete (howns _ hstate.owner) (joined_eq_some.mp hstate.joined).1 hactive hdefault

theorem changeRows_completes (hs : Resting a s) (change : RowChange) :
    Completes call a (changeRows change) s := by
  refine atomic_ends (keeps_write (P := fun _ => True) hs.idle trivial (fun _ _ _ _ => trivial)
    (fun i => ?_) (fun s _ owns _ _ _ => .changeRows change) (fun s hinv => hinv)
    fun fault s hs => keeps_raise hs)
  cases change <;> nofun

theorem program_completes (hs : Resting a s) (call : Call) : Completes call a (program call) s := by
  cases call with
  | create name description sortOrder =>
    exact createProfile_completes hs name description sortOrder
  | edit profile changes => exact editProfile_completes hs profile changes
  | clone source name description sortOrder includeDateOverrides =>
    exact cloneProfile_completes hs source name description sortOrder includeDateOverrides
  | activate profile expected => exact activateProfile_completes hs profile expected
  | setDefault profile => exact setDefaultProfile_completes hs profile
  | archive profile => exact archiveProfile_completes hs profile
  | restore profile => exact restoreProfile_completes hs profile
  | delete profile => exact deleteProfile_completes hs profile
  | changeRows change => exact changeRows_completes hs change

theorem lawful : (operators : Crew Action.Result (Shared α) α Choice).Lawful assertions program where
  abandon _ _ hs := ⟨⟨hs.sound, (Effect.rollback .rollback).covered hs⟩, Sessions.rollback_clean _ _⟩
  during := stable_invariant
  clean _ _ _ hs hothers := (spared_of_others hothers).clean hs
  start call _ _ hs hclean := program_completes ⟨hs, hclean⟩ call

theorem initial_sound {db : Database} (h : db.Sound) :
    operators.Sound assertions (initial db : State α) :=
  Crew.idle_sound ⟨h, fun _ _ hw => nomatch hw⟩ fun a => Sessions.initial_clean db a

end IsadoraAir.ScheduleProfiles

/-!
## A request changes the tables when it is answered

A service commits at most once, and its answer comes with the commit: the tables
change in no other step of it.
-/

namespace IsadoraAir.ScheduleProfiles

open Routine (Uses)

variable {α β γ : Type}

/-- The answer is there as soon as the commit has gone through. -/
inductive CommitsLast : Service β → Prop
  | pure (b : β) : CommitsLast (.pure b)
  | raise (fault : Fault) : CommitsLast (.raise fault)
  | act {x : Action} {next : x.Result → Service β} (hx : x ≠ .commit)
    (hnext : ∀ r, CommitsLast (next r)) : CommitsLast (.act x next)
  | commit {next : Except Fault Unit → Service β} {b : β} (hok : next (.ok ()) = .pure b)
    (herror : ∀ fault, CommitsLast (next (.error fault))) : CommitsLast (.act .commit next)

theorem CommitsLast.next {x : Action} {next : x.Result → Service β}
    (h : CommitsLast (.act x next)) (r : x.Result) : CommitsLast (next r) := by
  cases h with
  | act hx hnext => exact hnext r
  | commit hok herror =>
    cases r with
    | ok u =>
      rw [hok]
      exact .pure _
    | error fault => exact herror fault

/-- The routine does not commit. -/
abbrev Silent (m : Service β) : Prop := m.Uses (· ≠ .commit)

theorem Silent.bind_commitsLast {m : Service β} {f : β → Service γ} (h : Silent m)
    (hf : ∀ b, CommitsLast (f b)) : CommitsLast (m >>= f) := by
  induction m with
  | pure b => exact hf b
  | raise fault => exact .raise fault
  | act x next ih => exact .act h.1 fun r => ih r (h.2 r)

theorem atomic_commitsLast {body : Service β} (h : Silent body) : CommitsLast (atomic body) := by
  induction body with
  | pure b => exact .commit rfl fun fault => .raise fault
  | raise fault => exact .act nofun fun _ => .raise fault
  | act x next ih => exact .act h.1 fun r => ih r (h.2 r)

theorem inserted_commitsLast {body : Service (ℕ × Profile)} {name : Text} (h : Silent body) :
    CommitsLast (inserted name body) := by
  have hconflict (fault : Fault) : CommitsLast (nameConflict name none fault : Service Answer) := by
    unfold nameConflict
    split_ifs
    · exact .act nofun fun taken => .raise _
    · exact .raise fault
  induction body with
  | pure b => exact .commit rfl hconflict
  | raise fault => exact .act nofun fun _ => hconflict fault
  | act x next ih => exact .act h.1 fun r => ih r (h.2 r)

/-! ### The bodies are silent -/

theorem silent_perform {x : Action} (hx : x ≠ .commit) : Silent (perform x) := Uses.perform hx

theorem silent_raiseIf (condition : Prop) [Decidable condition] (fault : Fault) :
    Silent (raiseIf condition fault) := by
  unfold raiseIf
  split_ifs <;> trivial

theorem silent_orRaise (result : Except Fault β) : Silent (orRaise result) := by
  cases result <;> trivial

theorem silent_get (result : Option β) : Silent (get result) := by
  cases result <;> trivial

theorem silent_load : Silent load := by
  refine Uses.bind (silent_perform nofun) fun state => ?_
  cases state with
  | some row => trivial
  | none =>
    refine Uses.bind (silent_perform nofun) fun profileIds => ?_
    match profileIds with
    | [profile] =>
      refine Uses.bind (silent_perform nofun) fun created => Uses.bind (silent_orRaise created) ?_
      exact fun _ => Uses.bind (silent_perform nofun) fun row => silent_get row
    | [] => trivial
    | _ :: _ :: _ => trivial

theorem silent_lockedState : Silent lockedState :=
  Uses.bind silent_load fun _ => Uses.bind (silent_perform nofun) fun state => silent_get state

theorem silent_lockedProfile (profile : ℕ) : Silent (lockedProfile profile) :=
  Uses.bind (silent_perform nofun) fun row => silent_get row

theorem silent_nextSortOrder : Silent nextSortOrder :=
  Uses.bind (silent_perform nofun) fun _ => trivial

theorem silent_nameConflict (name : Text) (own : Option ℕ) (fault : Fault) :
    Silent (nameConflict name own fault : Service β) := by
  unfold nameConflict
  split_ifs
  · exact Uses.bind (silent_perform nofun) fun _ => trivial
  · trivial

theorem silent_saveIf (changes : Prop) [Decidable changes] (w : Write) (answer : Bool → Answer) :
    Silent (saveIf changes w answer) := by
  unfold saveIf
  split_ifs
  · refine Uses.bind (silent_perform nofun) fun saved => Uses.bind (silent_orRaise saved) ?_
    exact fun _ => trivial
  · trivial

theorem createProfile_commitsLast (name description : Text) (sortOrder : Option ℤ) :
    CommitsLast (createProfile name description sortOrder) := by
  refine (silent_orRaise _).bind_commitsLast fun name => ?_
  refine Silent.bind_commitsLast (m := createSortOrder sortOrder) ?_ fun sortOrder => ?_
  · cases sortOrder with
    | none => exact silent_nextSortOrder
    | some value => trivial
  · refine inserted_commitsLast (Uses.bind silent_load fun _ => ?_)
    exact Uses.bind (silent_perform nofun) fun created => silent_orRaise created

theorem editProfile_commitsLast (profile : ℕ) (changes : Changes) :
    CommitsLast (editProfile profile changes) := by
  refine atomic_commitsLast (Uses.bind (silent_lockedProfile profile) fun row => ?_)
  refine Uses.bind (silent_raiseIf _ _) fun _ => Uses.bind (silent_raiseIf _ _) fun _ => ?_
  refine Uses.bind (silent_raiseIf _ _) fun _ => Uses.bind (silent_orRaise _) fun name => ?_
  refine Uses.bind (silent_orRaise _) fun sortOrder => ?_
  dsimp only
  split_ifs
  · trivial
  · refine Uses.bind (silent_perform nofun) fun saved => ?_
    cases saved with
    | ok _ => trivial
    | error fault => exact silent_nameConflict _ _ fault

theorem cloneProfile_commitsLast (source : Source) (name : Text) (description : Option Text)
    (sortOrder : Option (Option ℤ)) (includeDateOverrides : Bool) :
    CommitsLast (cloneProfile source name description sortOrder includeDateOverrides) := by
  refine (silent_orRaise _).bind_commitsLast fun name => inserted_commitsLast ?_
  refine Uses.bind (m := cloneSortOrder sortOrder) ?_ fun sortOrder => ?_
  · match sortOrder with
    | none => exact silent_nextSortOrder
    | some (some value) => trivial
    | some none => trivial
  · refine Uses.bind (silent_perform nofun) fun created => Uses.bind (silent_orRaise created) ?_
    refine fun clone => Uses.bind (silent_perform nofun) fun rows => ?_
    refine Uses.bind (silent_perform nofun) fun copied => Uses.bind (silent_orRaise copied) ?_
    exact fun _ => trivial

theorem silent_locked {f : LockedState → Profile → Service β} {profile : ℕ}
    (hf : ∀ state row, Silent (f state row)) :
    Silent (lockedState >>= fun state => lockedProfile profile >>= f state) :=
  Uses.bind silent_lockedState fun state => Uses.bind (silent_lockedProfile profile) (hf state)

theorem activateProfile_commitsLast (profile : ℕ) (expected : Expected) :
    CommitsLast (activateProfile profile expected) := by
  refine atomic_commitsLast (Uses.bind (silent_orRaise _) fun uuid => silent_locked ?_)
  intro state row
  refine Uses.bind (silent_raiseIf _ _) fun _ => Uses.bind (silent_raiseIf _ _) fun _ => ?_
  exact silent_saveIf _ _ _

theorem setDefaultProfile_commitsLast (profile : ℕ) : CommitsLast (setDefaultProfile profile) :=
  atomic_commitsLast (silent_locked fun _ _ =>
    Uses.bind (silent_raiseIf _ _) fun _ => silent_saveIf _ _ _)

theorem archiveProfile_commitsLast (profile : ℕ) : CommitsLast (archiveProfile profile) :=
  atomic_commitsLast (silent_locked fun _ _ =>
    Uses.bind (silent_raiseIf _ _) fun _ => silent_saveIf _ _ _)

theorem restoreProfile_commitsLast (profile : ℕ) : CommitsLast (restoreProfile profile) :=
  atomic_commitsLast (Uses.bind (silent_lockedProfile profile) fun _ => silent_saveIf _ _ _)

theorem deleteProfile_commitsLast (profile : ℕ) : CommitsLast (deleteProfile profile) := by
  refine atomic_commitsLast (silent_locked fun state row => ?_)
  refine Uses.bind (silent_perform nofun) fun blockCount => ?_
  refine Uses.bind (silent_perform nofun) fun logCount => ?_
  refine Uses.bind (silent_raiseIf _ _) fun _ => Uses.bind (silent_perform nofun) fun deleted => ?_
  exact Uses.bind (silent_orRaise deleted) fun _ => trivial

theorem changeRows_commitsLast (change : RowChange) : CommitsLast (changeRows change) :=
  atomic_commitsLast (Uses.bind (silent_perform nofun) fun saved =>
    Uses.bind (silent_orRaise saved) fun _ => trivial)

theorem program_commitsLast (call : Call) : CommitsLast (program call) := by
  cases call with
  | create name description sortOrder => exact createProfile_commitsLast name description sortOrder
  | edit profile changes => exact editProfile_commitsLast profile changes
  | clone source name description sortOrder includeDateOverrides =>
    exact cloneProfile_commitsLast source name description sortOrder includeDateOverrides
  | activate profile expected => exact activateProfile_commitsLast profile expected
  | setDefault profile => exact setDefaultProfile_commitsLast profile
  | archive profile => exact archiveProfile_commitsLast profile
  | restore profile => exact restoreProfile_commitsLast profile
  | delete profile => exact deleteProfile_commitsLast profile
  | changeRows change => exact changeRows_commitsLast change

end IsadoraAir.ScheduleProfiles
