import IsadoraAir.ScheduleProfiles.Soundness

/-!
# What the services hold

Every service keeps the tables sound and writes only what is justified, whatever
the other transactions do between two of its queries.
-/

namespace IsadoraAir.ScheduleProfiles

open Routine (Safe Setting)

variable {rows : List Row} {state : LockedState} {row : Row} {α : Type}

def Owns (s : Shared α) (a : α) (row : Row) : Prop := s.locks.owner row = some a

structure Invariant (s : Shared α) : Prop where
  sound : s.db.Sound
  covered : ∀ a, ∀ w ∈ s.pending a, ∀ row ∈ w.rows, Owns s a row

/-- The transaction has written nothing yet. -/
structure Idle (a : α) (s : Shared α) : Prop where
  invariant : Invariant s
  pending : s.pending a = []

structure HoldsState (a : α) (state : LockedState) (s : Shared α) : Prop where
  owner : Owns s a .state
  active : Owns s a (.profile state.row.activeProfile)
  default : Owns s a (.profile state.row.defaultProfile)
  joined : s.db.joined = some state

structure HoldsProfile (a : α) (i : ℕ) (row : Profile) (s : Shared α) : Prop where
  owner : Owns s a (.profile i)
  profile : s.db.profiles.get? i = some row

section

variable {a : α} {s : Shared α}

theorem joined_eq_some {db : Database} :
    db.joined = some state ↔ db.state = some state.row ∧
      db.profiles.get? state.row.activeProfile = some state.activeProfile ∧
      db.profiles.get? state.row.defaultProfile = some state.defaultProfile := by
  constructor
  · intro h
    simp only [Database.joined, Option.bind_eq_bind, Option.bind_eq_some_iff,
      Option.some.injEq] at h
    obtain ⟨row, hrow, active, hactive, default, hdefault, rfl⟩ := h
    exact ⟨hrow, hactive, hdefault⟩
  · rintro ⟨hrow, hactive, hdefault⟩
    simp [Database.joined, hrow, hactive, hdefault]

theorem Idle.view (h : Idle a s) : ScheduleProfiles.view s a = s.db := Sessions.view_of_clean h.pending

theorem idle_of_clean (h : Invariant s) (hclean : s.Clean a) : Idle a s := ⟨h, hclean.pending⟩

theorem owns_lockRows (h : row ∈ rows) : Owns (lockRows s a rows) a row :=
  RowLocks.owner_lock_of_mem (decide_eq_true h)

theorem Owns.lockRows (h : Owns s a row) (rows : List Row) : Owns (lockRows s a rows) a row :=
  RowLocks.owner_lock_of_owner h

theorem HoldsState.lockRows (h : HoldsState a state s) (rows : List Row) :
    HoldsState a state (lockRows s a rows) :=
  ⟨h.owner.lockRows rows, h.active.lockRows rows, h.default.lockRows rows, h.joined⟩

end

variable [DecidableEq α]

def assertions : Crew.Assertions (Shared α) α Call where
  invariant := Invariant
  during call a s := Justified (Owns s a) s.db call (s.pending a)
  clean := Sessions.Clean

abbrev service (call : Call) (a : α) : Setting Action.Result (Shared α) :=
  operators.setting assertions call a

/-! ## What the others do -/

variable {a b : α} {s s' : Shared α} {x : Action} {call : Call}

theorem Effect.covered (h : Effect b s x s') (hs : Invariant s) :
    ∀ a, ∀ w ∈ s'.pending a, ∀ row ∈ w.rows, Owns s' a row := by
  have hlock (rows : List Row) (hrows : available s b rows) (a : α) (row : Row)
      (ho : Owns s a row) : Owns (lockRows s b rows) a row := by
    by_cases hab : a = b
    · subst hab
      exact RowLocks.owner_lock_of_owner ho
    · exact RowLocks.owner_lock_of_ne (fun r hr => hrows r (of_decide_eq_true hr)) hab ho
  have hrelease (a : α) : ∀ w ∈ (s.rollback b).pending a, ∀ row ∈ w.rows,
      Owns (s.rollback b) a row := by
    intro w hw row hrow
    by_cases hab : a = b
    · subst hab
      rw [(Sessions.rollback_clean s a).pending] at hw
      cases hw
    · rw [Sessions.rollback_pending_of_ne hab] at hw
      exact RowLocks.owner_release_of_ne hab (hs.covered a w hw row hrow)
  intro a w hw row hrow
  cases h with
  | none => exact hs.covered a w hw row hrow
  | lock _ rows hrows => exact hlock rows hrows a row (hs.covered a w hw row hrow)
  | write _ w' hrows hrefuses =>
    change w ∈ ((lockRows s b w'.rows).write b w').pending a at hw
    by_cases hab : a = b
    · subst hab
      rw [Sessions.write_pending_self, List.mem_append, List.mem_singleton] at hw
      rcases hw with hw | rfl
      · exact hlock _ hrows a row (hs.covered a w hw row hrow)
      · exact RowLocks.owner_lock_of_mem (decide_eq_true hrow)
    · rw [Sessions.write_pending_of_ne _ hab] at hw
      exact hlock _ hrows a row (hs.covered a w hw row hrow)
  | commit hrefers => exact hrelease a w hw row hrow
  | rollback => exact hrelease a w hw row hrow

theorem Effect.spared (h : Effect b s x s') (hab : a ≠ b) : Sessions.Spared a s s' := by
  cases h with
  | none => exact .refl a s
  | lock _ rows hrows =>
    exact Sessions.lock_spared (fun r hr => hrows r (of_decide_eq_true hr)) hab
  | write _ w hrows hrefuses =>
    have hlock : Sessions.Spared a s (lockRows s b w.rows) :=
      Sessions.lock_spared (fun r hr => hrows r (of_decide_eq_true hr)) hab
    exact hlock.trans (Sessions.write_spared w hab)
  | commit hrefers => exact Sessions.commit_spared Database.apply hab
  | rollback => exact Sessions.rollback_spared hab

/-- The others leave the rows alone that the transaction holds. -/
theorem Effect.agree (h : Effect b s x s') (hab : a ≠ b) (hs : Invariant s) :
    Agree (Owns s a) s.db s'.db := by
  cases h with
  | commit hrefers =>
    refine agree_foldl (fun w hw row hrow ho => ?_) s.db
    have howner := hs.covered b w hw row hrow
    exact hab (Option.some.inj (ho.symm.trans howner))
  | _ => exact .refl _ _

theorem effect_of_others (h : operators.Others assertions a s s') :
    ∃ b x, a ≠ b ∧ Effect b s x s' := by
  obtain ⟨-, -, b, hb, rfl | ⟨choice, x, r, hexec⟩⟩ := h
  · exact ⟨b, .rollback, hb.symm, .rollback _⟩
  · exact ⟨b, x, hb.symm, exec_effect hexec⟩

theorem agree_of_others (h : operators.Others assertions a s s') : Agree (Owns s a) s.db s'.db := by
  obtain ⟨b, x, hab, heffect⟩ := effect_of_others h
  exact heffect.agree hab h.1

theorem spared_of_others (h : operators.Others assertions a s s') : Sessions.Spared a s s' := by
  obtain ⟨b, x, hab, heffect⟩ := effect_of_others h
  exact heffect.spared hab

theorem stable_invariant (call : Call) (a : α) :
    (service call a).Stable (service call a).invariant := by
  intro s s' hs hothers
  have hspared := spared_of_others hothers
  refine ⟨hothers.2.1, ?_⟩
  change Justified (Owns s' a) s'.db call (s'.pending a)
  rw [hspared.pending]
  exact (agree_of_others hothers).justified (fun row ho => hspared.owner row ho) hs.2

/-! ## What the transaction holds -/

theorem Idle.service (h : Idle a s) (call : Call) : (service call a).invariant s := by
  refine ⟨h.invariant, ?_⟩
  change Justified _ _ call (s.pending a)
  rw [h.pending]
  exact .nothing call

theorem stable_idle (call : Call) (a : α) : (service call a).Stable (Idle a) :=
  fun _ _ hs hothers => ⟨hothers.2.1, (spared_of_others hothers).pending.trans hs.pending⟩

theorem stable_holdsState (call : Call) (a : α) (state : LockedState) :
    (service call a).Stable (HoldsState a state) := by
  intro s s' hs hothers
  have hspared := spared_of_others hothers
  have hagree := agree_of_others hothers
  refine ⟨hspared.owner _ hs.owner, hspared.owner _ hs.active, hspared.owner _ hs.default, ?_⟩
  obtain ⟨hrow, hactive, hdefault⟩ := joined_eq_some.mp hs.joined
  exact joined_eq_some.mpr ⟨(hagree.state hs.owner).trans hrow,
    (hagree.profile _ hs.active).trans hactive, (hagree.profile _ hs.default).trans hdefault⟩

theorem stable_holdsProfile (call : Call) (a : α) (i : ℕ) (row : Profile) :
    (service call a).Stable (HoldsProfile a i row) := by
  intro s s' hs hothers
  exact ⟨(spared_of_others hothers).owner _ hs.owner,
    ((agree_of_others hothers).profile i hs.owner).trans hs.profile⟩

theorem idle_lockRows (h : Idle a s) (hrows : available s a rows) : Idle a (lockRows s a rows) :=
  ⟨⟨h.invariant.sound, (Effect.lock .lockState rows hrows).covered h.invariant⟩, h.pending⟩

/-- What justifies the first write of a transaction. -/
theorem idle_write (h : Idle a s) {w : Write} (hrows : available s a w.rows)
    (hrefuses : (view s a).refuses w = none)
    (hw : Justified (Owns ((lockRows s a w.rows).write a w) a) s.db call [w]) :
    (service call a).invariant ((lockRows s a w.rows).write a w) := by
  refine ⟨⟨h.invariant.sound, (Effect.write (.write w) w hrows hrefuses).covered h.invariant⟩, ?_⟩
  change Justified _ s.db call (((lockRows s a w.rows).write a w).pending a)
  rw [Sessions.write_pending_self]
  change Justified _ s.db call (s.pending a ++ [w])
  rw [h.pending]
  exact hw

end IsadoraAir.ScheduleProfiles

/-!
## Safety of the services

One rule for each kind of query, and with them the safety of each service.
-/

namespace IsadoraAir.ScheduleProfiles

open Routine (Safe Setting)

variable {db : Database} {fault : Fault} {row : Profile} {owns : Row → Prop} {name : Text}
  {w : Write} {i : ℕ} {α : Type} [DecidableEq α] {β : Type} {a : α} {s : Shared α} {call : Call}
  {P : Shared α → Prop} {f : Except Fault Unit → Service β} {r : Except Fault β}

/-- The transaction writes only what is justified. -/
abbrev Keeps (call : Call) (a : α) (m : Service β) (s : Shared α) : Prop :=
  m.Safe (service call a) s fun _ => (service call a).invariant

/-! ### Rules -/

theorem keeps_raise (h : Idle a s) : Keeps call a (.raise fault : Service β) s :=
  Safe.raise (h.service call)

theorem keeps_raiseIf {condition : Prop} [Decidable condition]
    {f : Unit → Service β} (hs : Idle a s) (hf : ¬condition → Keeps call a (f ()) s) :
    Keeps call a (raiseIf condition fault >>= f) s := by
  unfold raiseIf
  split_ifs with h
  · exact keeps_raise hs
  · exact hf h

theorem keeps_orRaise {γ : Type} {result : Except Fault γ} {f : γ → Service β} (hs : Idle a s)
    (hf : ∀ c, result = .ok c → Keeps call a (f c) s) :
    Keeps call a (orRaise result >>= f) s := by
  cases result with
  | ok c => exact hf c rfl
  | error fault => exact keeps_raise hs

theorem load_safe (hs : Idle a s) :
    load.Safe (service call a) s fun r s' => Idle a s' ∧ ∃ row, r = .ok row := by
  refine Safe.perform_bind hs (stable_idle call a) (fun s h => h.service call) ?_
  rintro s r s' hs ⟨choice, hexec⟩
  cases hexec
  obtain ⟨row, hrow, -⟩ := hs.invariant.sound.state
  rw [hs.view, hrow]
  exact ⟨hs, row, rfl⟩

theorem lockedState_safe (hs : Idle a s) :
    lockedState.Safe (service call a) s fun r s' =>
      Idle a s' ∧ ∀ state, r = .ok state → HoldsState a state s' := by
  refine (load_safe hs).bind (fun _ s hs => ?_) fun e s h => ?_
  swap
  · obtain ⟨-, row, hrow⟩ := h
    cases hrow
  refine Safe.perform_bind hs.1 (stable_idle call a) (fun s h => h.service call) ?_
  rintro s r s' hs ⟨choice, hexec⟩
  change exec choice a .lockState s = some (r, s') at hexec
  simp only [exec, hs.view] at hexec
  split at hexec
  · next state hjoined =>
    split_ifs at hexec
    · obtain ⟨hrows, rfl, rfl⟩ := selectForUpdate_eq_some.mp hexec
      refine ⟨idle_lockRows hs hrows, fun state' hstate' => ?_⟩
      cases hstate'
      refine ⟨?_, ?_, ?_, hjoined⟩ <;> exact owns_lockRows (by simp)
    · cases hexec
      exact ⟨hs, fun state hstate => by cases hstate⟩
  · cases hexec
    exact ⟨hs, fun state hstate => by cases hstate⟩

theorem keeps_lockedState {f : LockedState → Service β} (hs : Idle a s)
    (hf : ∀ state s, Idle a s → HoldsState a state s → Keeps call a (f state) s) :
    Keeps call a (lockedState >>= f) s :=
  (lockedState_safe hs).bind (fun state s h => hf state s h.1 (h.2 state rfl))
    fun _ _ h => h.1.service call

/-- The profile is locked under whatever is held already. -/
theorem lockedProfile_safe (hs : Idle a s) (hP : P s)
    (hstable : (service call a).Stable P) (hlock : ∀ s rows, P s → P (lockRows s a rows)) :
    (lockedProfile i).Safe (service call a) s fun r s' =>
      Idle a s' ∧ P s' ∧ ∀ row, r = .ok row → HoldsProfile a i row s' := by
  refine Safe.perform_bind ⟨hs, hP⟩ ((stable_idle call a).and hstable)
    (fun s h => h.1.service call) ?_
  rintro s r s' ⟨hs, hP⟩ ⟨choice, hexec⟩
  change exec choice a (.lockProfile i) s = some (r, s') at hexec
  simp only [exec, hs.view] at hexec
  split at hexec
  · next row hrow =>
    obtain ⟨hrows, rfl, rfl⟩ := selectForUpdate_eq_some.mp hexec
    refine ⟨idle_lockRows hs hrows, hlock s _ hP, fun row' hrow' => ?_⟩
    cases hrow'
    exact ⟨owns_lockRows (by simp), hrow⟩
  · cases hexec
    exact ⟨hs, hP, fun row hrow => by cases hrow⟩

theorem keeps_lockedProfile {f : Profile → Service β} (hs : Idle a s)
    (hP : P s) (hstable : (service call a).Stable P) (hlock : ∀ s rows, P s → P (lockRows s a rows))
    (hf : ∀ row s, Idle a s → P s → HoldsProfile a i row s → Keeps call a (f row) s) :
    Keeps call a (lockedProfile i >>= f) s :=
  (lockedProfile_safe hs hP hstable hlock).bind
    (fun row s h => hf row s h.1 h.2.1 (h.2.2 row rfl)) fun _ _ h => h.1.service call

/-- A query that only reads. -/
theorem keeps_read {x : Action} {f : x.Result → Service β} (hP : P s)
    (hstable : (service call a).Stable P) (hinv : ∀ s, P s → (service call a).invariant s)
    (hread : ∀ c s r s', exec c a x s = some (r, s') → s' = s)
    (hf : ∀ r s, P s → Keeps call a (f r) s) : Keeps call a (perform x >>= f) s := by
  refine Safe.perform_bind hP hstable hinv ?_
  rintro s r s' hP ⟨choice, hexec⟩
  rw [hread choice s r s' hexec]
  exact hf r s hP

/-- The outcome of the first write: it is justified, or refused. -/
theorem outcome_of_writeRow (call : Call) {γ : Type} {result : γ} {s' : Shared α}
    {r : Except Fault γ} (hs : Idle a s)
    (hw : ∀ owns : Row → Prop, (∀ row, Owns s a row → owns row) → (∀ row ∈ w.rows, owns row) →
      s.db.refuses w = none → Justified owns s.db call [w])
    (hexec : writeRow s a w result = some (r, s')) :
    (r = .ok result ∧ (service call a).invariant s' ∧ s'.pending a = [w]) ∨
      (∃ fault, r = .error fault) ∧ s' = s := by
  rcases writeRow_eq_some hexec with ⟨hrefuses, rfl, hrows, rfl⟩ | herror
  · rw [hs.view] at hrefuses
    refine .inl ⟨rfl, idle_write hs hrows (by rw [hs.view]; exact hrefuses) ?_, ?_⟩
    · exact hw _ (fun row ho => ho.lockRows w.rows) (fun row hrow => owns_lockRows hrow) hrefuses
    · rw [Sessions.write_pending_self]
      change s.pending a ++ [w] = [w]
      rw [hs.pending, List.nil_append]
  · exact .inr herror

theorem keeps_write (hs : Idle a s)
    (hP : P s) (hstable : (service call a).Stable P) (hcreate : ∀ i, w ≠ .createState i)
    (hw : ∀ s, P s → ∀ owns : Row → Prop, (∀ row, Owns s a row → owns row) →
      (∀ row ∈ w.rows, owns row) → s.db.refuses w = none → Justified owns s.db call [w])
    (hok : ∀ s, (service call a).invariant s → Keeps call a (f (.ok ())) s)
    (herror : ∀ fault s, Idle a s → Keeps call a (f (.error fault)) s) :
    Keeps call a (perform (.write w) >>= f) s := by
  refine Safe.perform_bind ⟨hs, hP⟩ ((stable_idle call a).and hstable)
    (fun s h => h.1.service call) ?_
  rintro s r s' ⟨hs, hP⟩ ⟨choice, hexec⟩
  have hrow : writeRow s a w () = some (r, s') := by
    cases w with
    | createState i => exact absurd rfl (hcreate i)
    | _ => exact hexec
  rcases outcome_of_writeRow call hs (hw s hP) hrow with ⟨rfl, hinv, -⟩ | ⟨⟨fault, rfl⟩, rfl⟩
  · exact hok s' hinv
  · exact herror fault s' hs

theorem keeps_saveIf {changes : Prop} [Decidable changes] {answer : Bool → Answer} (hs : Idle a s)
    (hP : P s) (hstable : (service call a).Stable P) (hcreate : ∀ i, w ≠ .createState i)
    (hw : changes → ∀ s, P s → ∀ owns : Row → Prop, (∀ row, Owns s a row → owns row) →
      (∀ row ∈ w.rows, owns row) → s.db.refuses w = none → Justified owns s.db call [w]) :
    Keeps call a (saveIf changes w answer) s := by
  unfold saveIf
  split_ifs with hchanges
  · refine keeps_write hs hP hstable hcreate (hw hchanges) (fun s hinv => hinv) ?_
    exact fun fault s hs => keeps_raise hs
  · exact hs.service call

/-! ### Ending a transaction -/

theorem ends_rollback (h : Invariant s) :
    Crew.Ends assertions a r (s.rollback a) :=
  ⟨⟨h.sound, (Effect.rollback .rollback).covered h⟩, Sessions.rollback_clean s a⟩

theorem ends_commit (h : (service call a).invariant s)
    (hrefers : (view s a).Refers) : Crew.Ends assertions a r (s.commit Database.apply a) := by
  obtain ⟨hinv, hjustified⟩ := h
  exact ⟨⟨hjustified.sound hinv.sound hrefers, (Effect.commit hrefers).covered hinv⟩,
    Sessions.commit_clean Database.apply s a⟩

theorem atomic_ends {body : Service β} (h : Keeps call a body s) :
    (atomic body).Safe (service call a) s (Crew.Ends assertions a) := by
  refine Safe.attempt_bind h fun r s hs => ?_
  cases r with
  | ok b =>
    refine Safe.perform_bind hs (stable_invariant call a) (fun s h => h) ?_
    rintro s r s' hs ⟨choice, hexec⟩
    rcases commitRows_eq_some hexec with ⟨rfl, hrefers, rfl⟩ | ⟨rfl, rfl⟩
    · exact ends_commit hs hrefers
    · exact ends_rollback hs.1
  | error fault =>
    refine Safe.perform_bind hs (stable_invariant call a) (fun s h => h) ?_
    rintro s r s' hs ⟨choice, hexec⟩
    cases hexec
    exact ends_rollback hs.1

theorem stable_ends (call : Call) (a : α) (r : Except Fault β) :
    (service call a).Stable (Crew.Ends assertions a r) :=
  fun _ _ hs hothers => ⟨hothers.2.1, (spared_of_others hothers).clean hs.2⟩

theorem nameConflict_safe {own : Option ℕ} (hP : P s)
    (hstable : (service call a).Stable P) (hinv : ∀ s, P s → (service call a).invariant s) :
    (nameConflict name own fault : Service β).Safe (service call a) s fun _ => P := by
  unfold nameConflict
  split_ifs
  · refine Safe.perform_bind hP hstable hinv ?_
    rintro s r s' hP ⟨choice, hexec⟩
    cases hexec
    exact hP
  · exact hP

theorem ends_orRaise {γ : Type} {result : Except Fault γ} {f : γ → Service β}
    (hs : Invariant s ∧ s.Clean a)
    (hf : ∀ c, (f c).Safe (service call a) s (Crew.Ends assertions a)) :
    (orRaise result >>= f).Safe (service call a) s (Crew.Ends assertions a) := by
  cases result with
  | ok c => exact hf c
  | error fault => exact hs

theorem inserted_ends {body : Service (ℕ × Profile)} (h : Keeps call a body s) :
    (inserted name body).Safe (service call a) s (Crew.Ends assertions a) := by
  refine Safe.attempt_bind (atomic_ends h) fun r s hs => ?_
  cases r with
  | ok clone => exact hs
  | error fault =>
    exact nameConflict_safe (P := Crew.Ends assertions a (.error fault : Except Fault Answer)) hs
      (stable_ends call a _) fun s h => (idle_of_clean h.1 h.2).service call

theorem stable_written (call : Call) (a : α) (ws : List Write) :
    (service call a).Stable fun s => (service call a).invariant s ∧ s.pending a = ws :=
  fun s s' hs hothers => ⟨stable_invariant call a s s' hs.1 hothers,
    (spared_of_others hothers).pending.trans hs.2⟩

theorem justified_insert
    (hrows : ∀ r ∈ (Write.insert i row).rows, owns r) (hrefuses : db.refuses (.insert i row) = none) :
    Justified owns db call [.insert i row] := by
  refine .insert hrows (fresh_of_not_repeats fun hrepeats => ?_)
  simp only [Database.refuses, if_pos hrepeats] at hrefuses
  split_ifs at hrefuses

theorem keeps_insert {values : Values} {f : Except Fault (ℕ × Profile) → Service β} (hs : Idle a s)
    (hok : ∀ i row s, (service call a).invariant s → s.pending a = [.insert i row] →
      Keeps call a (f (.ok (i, row))) s)
    (herror : ∀ fault s, Idle a s → Keeps call a (f (.error fault)) s) :
    Keeps call a (perform (.insert values) >>= f) s := by
  refine Safe.perform_bind hs (stable_idle call a) (fun s h => h.service call) ?_
  rintro s r s' hs ⟨choice, hexec⟩
  have hrow := hexec
  change writeRow s a (.insert choice.profile _) _ = some (r, s') at hrow
  rcases outcome_of_writeRow call hs (fun _ _ => justified_insert) hrow with
    ⟨rfl, hinv, hpending⟩ | ⟨⟨fault, rfl⟩, rfl⟩
  · exact hok _ _ s' hinv hpending
  · exact herror fault s' hs

theorem Justified.of_insert (h : Justified owns db call [.insert i row]) :
    (∀ r ∈ (Write.insert i row).rows, owns r) ∧ db.Fresh i row := by
  generalize hws : [Write.insert i row] = ws at h
  cases h with
  | insert hrows hfresh =>
    cases hws
    exact ⟨hrows, hfresh⟩
  | changeRows change => cases change <;> cases hws
  | _ => cases hws

/-- The blocks of a clone are written under the justification of its row. -/
theorem keeps_addBlocks {blocks : List ScheduleBlock}
    (hs : (service call a).invariant s) (hpending : s.pending a = [.insert i row])
    (hok : ∀ s, (service call a).invariant s → Keeps call a (f (.ok ())) s)
    (herror : ∀ fault s, (service call a).invariant s → Keeps call a (f (.error fault)) s) :
    Keeps call a (perform (.write (.addBlocks blocks)) >>= f) s := by
  refine Safe.perform_bind ⟨hs, hpending⟩ (stable_written call a _) (fun s h => h.1) ?_
  rintro s r s' ⟨hs, hpending⟩ ⟨choice, hexec⟩
  have hrow := hexec
  change writeRow s a (.addBlocks blocks) () = some (r, s') at hrow
  rcases writeRow_eq_some hrow with ⟨hrefuses, rfl, hrows, rfl⟩ | ⟨⟨fault, rfl⟩, rfl⟩
  · refine hok _ ⟨⟨hs.1.sound, (writeRow_effect (.write (.addBlocks blocks)) hrow).covered hs.1⟩, ?_⟩
    have hjustified : Justified (Owns s a) s.db call (s.pending a) := hs.2
    rw [hpending] at hjustified
    change Justified _ s.db call (((lockRows s a _).write a (.addBlocks blocks)).pending a)
    rw [Sessions.write_pending_self]
    change Justified _ s.db call (s.pending a ++ [.addBlocks blocks])
    rw [hpending]
    obtain ⟨hrows, hfresh⟩ := hjustified.of_insert
    exact .clone (fun r hr => (hrows r hr).lockRows _) hfresh
  · exact herror fault s' hs

end IsadoraAir.ScheduleProfiles
