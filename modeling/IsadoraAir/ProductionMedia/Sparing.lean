import IsadoraAir.ProductionMedia.Transitions

/-!
# Agents and their rules

What others leave alone, what an agent keeps, and the rules for its requests.
-/

/-!
## What others leave alone

An agent relies on its session, on the rows that it has locked, on the staging
file that it has opened, and on what is abandoned staying so.
-/

namespace IsadoraAir.ProductionMedia

variable {α : Type} {sha256 : Bytes → String} {s s' : Shared α} {a b : α}

structure Spares (a : α) (s s' : Shared α) : Prop where
  grows : Grows s s'
  session : Sessions.Spared a s.store s'.store
  inflight : s'.inflight a = s.inflight a
  reserved : s'.reserved a = s.reserved a
  uploads : s'.uploads a = s.uploads a
  row : ∀ id row, Owns s a id → s.db.media.get? id = some row → s'.db.media.get? id = some row
  unreferenced : ∀ id, Owns s a id → Unreferenced s.db id → Unreferenced s'.db id
  abandoned : ∀ key, Abandoned s key → Abandoned s' key
  unowned : ∀ key, Unowned s key → Unowned s' key
  part : ∀ part f, s.uploads a = some part → s'.parts.get? part = some f →
    ∃ f₀, s.parts.get? part = some f₀ ∧ f.bytes = f₀.bytes

namespace Spares

theorem refl (a : α) (s : Shared α) : Spares a s s :=
  ⟨.refl s, .refl a s.store, rfl, rfl, rfl, fun _ _ _ h => h, fun _ _ h => h, fun _ h => h,
    fun _ h => h, fun _ f _ h => ⟨f, h, rfl⟩⟩

/-- The rows stay, and no name gets new bytes. -/
theorem of_db (hgrows : Grows s s') (hsession : Sessions.Spared a s.store s'.store)
    (hdb : s'.db = s.db) (hinflight : s'.inflight a = s.inflight a)
    (hreserved : s'.reserved a = s.reserved a) (huploads : s'.uploads a = s.uploads a)
    (habandoned : ∀ key, Abandoned s key → Abandoned s' key)
    (hpart : ∀ part f, s.uploads a = some part → s'.parts.get? part = some f →
      ∃ f₀, s.parts.get? part = some f₀ ∧ f.bytes = f₀.bytes) : Spares a s s' :=
  ⟨hgrows, hsession, hinflight, hreserved, huploads, fun _ _ _ h => hdb ▸ h,
    fun _ _ h => hdb ▸ h, habandoned,
    fun key h => ⟨habandoned key h.abandoned, fun id row hrow => h.purged id row (hdb ▸ hrow)⟩, hpart⟩

/-- Only the staging files, the clock and the graces change. -/
theorem of_parts (hgrows : Grows s s') (hstore : s'.store = s.store)
    (hinflight : s'.inflight = s.inflight) (hreserved : s'.reserved = s.reserved)
    (huploads : s'.uploads a = s.uploads a)
    (hpart : ∀ part f, s.uploads a = some part → s'.parts.get? part = some f →
      ∃ f₀, s.parts.get? part = some f₀ ∧ f.bytes = f₀.bytes) : Spares a s s' := by
  refine of_db hgrows (hstore ▸ .refl a s.store) (congrArg Sessions.db hstore)
    (congrFun hinflight a) (congrFun hreserved a) huploads (fun key h => ?_) hpart
  exact h.mono hgrows (fun _ _ h => .inl (hreserved ▸ h)) fun _ _ h => .inl (hinflight ▸ h)

/-- Only the session of another agent changes, and its rows stay. -/
theorem of_store {store : Sessions Db Write MediaId α}
    (hsession : Sessions.Spared a s.store store) (hdb : store.db = s.store.db) :
    Spares a s { s with store := store } :=
  of_db ⟨le_rfl, fun _ h => h, fun _ h => h⟩ hsession hdb rfl rfl rfl
    (fun _ h => ⟨h.drawn, h.reserved, h.inflight⟩) fun _ f _ h => ⟨f, h, rfl⟩

/-- Staging files are removed. -/
theorem unlinkPart (part : Uuid) : Spares a s { s with parts := s.parts.erase part } := by
  refine of_parts ⟨le_rfl, fun _ h => h, fun _ h => h⟩ rfl rfl rfl rfl fun part' f _ h => ?_
  rw [Dict.get?_erase] at h
  split_ifs at h
  exact ⟨f, h, rfl⟩

theorem beginSweep (grace : ℤ) : Spares a s { s with graces := s.graces ++ [grace] } :=
  of_parts ⟨le_rfl, fun _ h => List.mem_append_left _ h, fun _ h => h⟩ rfl rfl rfl rfl
    fun _ f _ h => ⟨f, h, rfl⟩

theorem elapse (microseconds : ℕ) : Spares a s { s with clock := s.clock + microseconds } := by
  have hclock : s.clock ≤ s.clock + (microseconds : ℤ) := by omega
  exact of_parts ⟨hclock, fun _ h => h, fun _ h => h⟩ rfl rfl rfl rfl fun _ f _ h => ⟨f, h, rfl⟩

theorem writeChunk (hs : Invariant sha256 s) (hab : a ≠ b) (bytes : Bytes) :
    Spares a s (writeChunk s b bytes) := by
  unfold ProductionMedia.writeChunk
  split
  · next part hpart =>
    refine of_parts ⟨le_rfl, fun _ h => h, fun _ h => h⟩ rfl rfl rfl rfl fun part' f h hf => ?_
    have hne : part' ≠ part := by
      rintro rfl
      exact hab (hs.uploadsOnce a b part' h hpart)
    change (appendPart s.parts part bytes s.clock).get? part' = some f at hf
    unfold appendPart at hf
    split at hf
    · rw [Dict.get?_insert, if_neg hne] at hf
      exact ⟨f, hf, rfl⟩
    · exact ⟨f, hf, rfl⟩
  · exact .refl a s

variable [DecidableEq α]

theorem openPart (hs : Invariant sha256 s) (hab : a ≠ b) {part : Uuid}
    (hfresh : storageKeyFor part ∉ s.drawn) : Spares a s (openPart s b part) := by
  refine of_parts ⟨le_rfl, fun _ h => h, fun _ h => List.mem_append_left _ h⟩ rfl rfl rfl
    (Function.update_of_ne hab ..) fun part' f h hf => ?_
  have hne : part' ≠ part := by
    rintro rfl
    exact hfresh (hs.uploads a part' h)
  change (s.parts.insert part _).get? part' = some f at hf
  rw [Dict.get?_insert, if_neg hne] at hf
  exact ⟨f, hf, rfl⟩

theorem newId (hab : a ≠ b) {id : MediaId} (hfresh : storageKeyFor id ∉ s.drawn) :
    Spares a s (newId s b id) := by
  have hgrows : Grows s (ProductionMedia.newId s b id) :=
    ⟨le_rfl, fun _ h => h, fun _ h => List.mem_append_left _ h⟩
  refine of_db hgrows (.refl a s.store) rfl rfl (Function.update_of_ne hab ..) rfl (fun key h => ?_)
    fun _ f _ h => ⟨f, h, rfl⟩
  refine h.mono hgrows (fun c id' hc => ?_) fun _ _ h => .inl h
  rcases update_eq_some hc with ⟨-, heq⟩ | ⟨-, hold⟩
  · cases heq
    exact .inr fun heq => hfresh (heq ▸ h.drawn)
  · exact .inl hold

theorem promoteFile (hab : a ≠ b) {id : MediaId} (hid : s.reserved b = some id) (bytes : Bytes) :
    Spares a s (promoteFile s b id bytes) := by
  have hgrows : Grows s (ProductionMedia.promoteFile s b id bytes) :=
    ⟨le_rfl, fun _ h => h, fun _ h => h⟩
  refine of_db hgrows (.refl a s.store) rfl (Function.update_of_ne hab ..)
    (Function.update_of_ne hab ..) rfl (fun key h => ?_) fun _ f _ h => ⟨f, h, rfl⟩
  refine h.mono hgrows (fun c id' hc => .inl (update_none_eq_some hc).2) fun c p hc => ?_
  rcases update_eq_some hc with ⟨-, heq⟩ | ⟨-, hold⟩
  · cases heq
    exact .inr (h.reserved b id hid)
  · exact .inl hold

theorem link (hab : a ≠ b) (part : Uuid) (id : MediaId) (fault : Bool) :
    Spares a s (link s b part id fault).2 := by
  unfold ProductionMedia.link
  split
  · exact .refl a s
  · split_ifs with hexists hfault
    · exact .refl a s
    · exact .refl a s
    · simp only [not_or, not_not] at hfault
      exact promoteFile hab hfault.2 _

theorem unlink (hab : a ≠ b) (key : String) (result : Unlinked) :
    Spares a s (unlink s b key result) := by
  have hgrows : Grows s (ProductionMedia.unlink s b key result) :=
    ⟨le_rfl, fun _ h => h, fun _ h => h⟩
  refine of_db hgrows (.refl a s.store) rfl ?_ rfl rfl (fun key' h => ?_) fun _ f _ h => ⟨f, h, rfl⟩
  · unfold ProductionMedia.unlink
    dsimp only
    split_ifs
    · exact Function.update_of_ne hab ..
    · rfl
  · refine h.mono hgrows (fun _ _ h => .inl h) fun c p hc => ?_
    unfold ProductionMedia.unlink at hc
    dsimp only at hc
    split_ifs at hc
    · exact .inl (update_none_eq_some hc).2
    · exact .inl hc

theorem rollback (hab : a ≠ b) : Spares a s (rollback s b) :=
  of_store (Sessions.rollback_spared hab) rfl

theorem kill (hab : a ≠ b) : Spares a s (kill b s) := by
  have hgrows : Grows s (ProductionMedia.kill b s) := ⟨le_rfl, fun _ h => h, fun _ h => h⟩
  refine of_db hgrows (Sessions.rollback_spared hab) rfl (Function.update_of_ne hab ..) rfl rfl
    (fun key h => ?_) fun _ f _ h => ⟨f, h, rfl⟩
  exact h.mono hgrows (fun _ _ h => .inl h) fun _ _ hc => .inl (update_none_eq_some hc).2

theorem commit (hs : Invariant sha256 s) (hab : a ≠ b)
    (htime : ∀ p, s.inflight b = some p → ¬Late s p) : Spares a s (commit s b) := by
  have hgrows : Grows s (ProductionMedia.commit s b) := ⟨le_rfl, fun _ h => h, fun _ h => h⟩
  have hcommits := commits_view hs b
  have hnot {id : MediaId} (hown : Owns s a id) : ¬Owns s b id :=
    fun h => hab (Option.some.inj (hown.symm.trans h))
  have habandoned {key : String} (h : Abandoned s key) :
      Abandoned (ProductionMedia.commit s b) key :=
    h.mono hgrows (fun _ _ h => .inl h) fun _ _ hc => .inl (update_none_eq_some hc).2
  exact ⟨hgrows, Sessions.commit_spared Db.apply hab, Function.update_of_ne hab .., rfl, rfl,
    fun id row hown hrow => hcommits.get?_of_not_owns hrow (hnot hown),
    fun id hown h => hcommits.unreferenced h (hnot hown), fun key h => habandoned h,
    fun key h => ⟨habandoned h.abandoned, fun id row => Invariant.purged_commits hcommits htime h⟩,
    fun _ f _ h => ⟨f, h, rfl⟩⟩

end Spares

end IsadoraAir.ProductionMedia

/-!
## Agents of the media store

What one agent may do at a time, and what it relies on while others do the same.
-/

namespace IsadoraAir.ProductionMedia

open Routine (Setting)

variable {d : Decision}

variable {α : Type} {sha256 : Bytes → String} {s s' : Shared α} {a b : α}
  {P : Shared α → Prop}

/-- The commit of an ingest is in time. -/
theorem not_late_of_inTime (h : InTime d a .commit s) (hcommit : d.commit ≠ .refused) :
    ∀ p, s.inflight a = some p → ¬Late s p := by
  intro p hp
  obtain ⟨hlost, hdone⟩ := h p hp
  cases hcase : d.commit with
  | done => exact hdone hcase
  | refused => exact absurd hcase hcommit
  | lost => exact absurd hcase hlost

variable [DecidableEq α]

/-- An action, unless it is an ingest's commit that comes too late or whose response is lost. -/
abbrev execInTime (d : Decision) (a : α) (x : Action) (s : Shared α) :
    Option (x.Result × Shared α) :=
  (crew.restrict InTime).exec d a x s

theorem exec_of_inTime {x : Action} {r : x.Result}
    (h : execInTime d a x s = some (r, s')) : InTime d a x s ∧ exec d a x s = some (r, s') := by
  change (if InTime d a x s then exec d a x s else none) = _ at h
  split_ifs at h with htime
  exact ⟨htime, h⟩

theorem lock_spares {id : MediaId} {r : Locked} (hab : a ≠ b) (h : lock s b id = some (r, s')) :
    Spares a s s' := by
  unfold lock at h
  split at h
  · cases h
    exact .refl a s
  · split_ifs at h with havailable
    cases h
    refine .of_store (Sessions.lock_spared (fun row hrow => ?_) hab) rfl
    rw [of_decide_eq_true hrow]
    exact havailable

theorem exec_spares {x : Action} {r : x.Result} (hs : Invariant sha256 s)
    (hab : a ≠ b) (h : execInTime d b x s = some (r, s')) : Spares a s s' := by
  obtain ⟨htime, h⟩ := exec_of_inTime h
  cases x with
  | openPart =>
    simp only [exec] at h
    split_ifs at h with hfault hfresh
    · cases h
      exact .refl a s
    · cases h
      exact .openPart hs hab hfresh
  | writeChunk bytes =>
    simp only [exec] at h
    split_ifs at h
    · cases h
      exact .refl a s
    · cases h
      exact .writeChunk hs hab bytes
  | newId =>
    simp only [exec] at h
    split_ifs at h with hfresh
    cases h
    exact .newId hab hfresh
  | link part id =>
    obtain rfl := congrArg Prod.snd (Option.some.inj h)
    exact .link hab part id d.fault
  | unlinkPart part =>
    obtain rfl := congrArg Prod.snd (Option.some.inj h)
    split_ifs
    · exact .unlinkPart part
    · exact .refl a s
  | unlink key => cases h; exact .unlink hab key _
  | lock id =>
    simp only [exec] at h
    split_ifs at h
    · cases h
      exact .refl a s
    · exact lock_spares hab h
  | write w =>
    obtain rfl := congrArg Prod.snd (Option.some.inj h)
    unfold write
    split_ifs
    · exact .refl a s
    · exact .of_store (Sessions.write_spared w hab) rfl
  | commit =>
    cases h
    cases hcommit : d.commit with
    | refused => exact .rollback hab
    | done => exact .commit hs hab (not_late_of_inTime htime (by simp [hcommit]))
    | lost => exact .commit hs hab (not_late_of_inTime htime (by simp [hcommit]))
  | rollback => cases h; exact .rollback hab
  | beginSweep grace => cases h; exact .beginSweep grace
  | elapse microseconds => cases h; exact .elapse microseconds
  | _ => cases h; exact .refl a s

/-- The agent has written and locked nothing, and has no bytes in flight. -/
structure Clean (a : α) (s : Shared α) : Prop where
  session : s.store.Clean a
  inflight : s.inflight a = none

variable (sha256) in
/-- The shared state, as the agent `a` acts on it among others. -/
def service (a : α) : Setting Action.Result (Shared α) where
  exec x s r s' := ∃ d, execInTime d a x s = some (r, s')
  others s s' := Invariant sha256 s ∧ Invariant sha256 s' ∧
    ∃ b, b ≠ a ∧ (s' = kill b s ∨ ∃ d x r, execInTime d b x s = some (r, s'))
  invariant s := Invariant sha256 s ∧ True

variable (sha256) in
def assertions : Crew.Assertions (Shared α) α Call :=
  ⟨Invariant sha256, fun _ _ _ => True, fun a s => Clean a s⟩

theorem others_spares (h : (service sha256 a).others s s') :
    Invariant sha256 s' ∧ Spares a s s' := by
  obtain ⟨hs, hs', b, hb, rfl | ⟨d, x, r, hexec⟩⟩ := h
  · exact ⟨hs', .kill hb.symm⟩
  · exact ⟨hs', exec_spares hs hb.symm hexec⟩

theorem stable_of (h : ∀ s s', P s → Spares a s s' → P s') :
    (service sha256 a).Stable fun s => Invariant sha256 s ∧ P s := by
  intro s s' hs hothers
  obtain ⟨hs', hspares⟩ := others_spares hothers
  exact ⟨hs', h s s' hs.2 hspares⟩

/-- What others leave alone. -/
def Kept (a : α) (P : Shared α → Prop) : Prop := ∀ s s', P s → Spares a s s' → P s'

omit [DecidableEq α] in
theorem Kept.and {P P' : Shared α → Prop} (h : Kept a P) (h' : Kept a P') :
    Kept a fun s => P s ∧ P' s :=
  fun s s' hs hspares => ⟨h s s' hs.1 hspares, h' s s' hs.2 hspares⟩

omit [DecidableEq α] in
theorem kept_clean : Kept a (Clean a) :=
  fun _ _ h hspares => ⟨hspares.session.clean h.session, hspares.inflight.trans h.inflight⟩

end IsadoraAir.ProductionMedia

/-!
## Rules for the requests

One rule for each thing that requests are built of: a quiet part, a part whose
failure is caught, a lock, a write, a transaction.
-/

namespace IsadoraAir.ProductionMedia

open Routine (Safe Setting Uses)

variable {α : Type} {sha256 : Bytes → String} {s s' : Shared α} {a : α} {β : Type}
  {P : Shared α → Prop} [DecidableEq α]
  {m : Service β} {E : Shared α → Prop} {Q : β → Shared α → Prop}

/-- An action at an assertion that others leave alone. -/
theorem act_safe {x : Action} {f : x.Result → Service β} {Q : Except Refusal β → Shared α → Prop}
    (hs : Invariant sha256 s) (hP : P s) (hkept : Kept a P)
    (hf : ∀ d s r s', Invariant sha256 s → P s → InTime d a x s → exec d a x s = some (r, s') →
      (f r).Safe (service sha256 a) s' Q) :
    (perform x >>= f).Safe (service sha256 a) s Q := by
  refine Safe.perform_bind ⟨hs, hP⟩ (stable_of hkept) (fun s h => ⟨h.1, trivial⟩) ?_
  rintro s r s' ⟨hs, hP⟩ ⟨d, hexec⟩
  obtain ⟨htime, hexec⟩ := exec_of_inTime hexec
  exact hf d s r s' hs hP htime hexec

/-- Actions that change nothing. -/
def Quiet : Action → Prop
  | .look _ | .sync | .analyze => True
  | _ => False

theorem quiet_safe (hm : m.Uses Quiet) (hs : Invariant sha256 s) (hP : P s)
    (hkept : Kept a P) :
    m.Safe (service sha256 a) s fun _ s => Invariant sha256 s ∧ P s := by
  refine Uses.safe hm ⟨hs, hP⟩ (stable_of hkept) (fun s h => ⟨h.1, trivial⟩) ?_
  rintro x s r s' hx hP ⟨d, hexec⟩
  have hexec := (exec_of_inTime hexec).2
  cases x <;> first | exact hx.elim | (cases hexec; exact hP)

/-- What a part of a request comes to: an assertion for its result, or one for its failure. -/
def Ends (sha256 : Bytes → String) (Q : β → Shared α → Prop) (E : Shared α → Prop) :
    Except Refusal β → Shared α → Prop
  | .ok b, s => Invariant sha256 s ∧ Q b s
  | .error _, s => Invariant sha256 s ∧ E s

/-- A part of a request, and then the rest of it. -/
theorem bind_safe {γ : Type} {f : β → Service γ}
    {R : Except Refusal γ → Shared α → Prop}
    (hm : m.Safe (service sha256 a) s (Ends sha256 Q E))
    (hok : ∀ b s, Invariant sha256 s → Q b s → (f b).Safe (service sha256 a) s R)
    (herror : ∀ e s, Invariant sha256 s → E s → R (.error e) s) :
    (m >>= f).Safe (service sha256 a) s R :=
  hm.bind (fun b s h => hok b s h.1 h.2) fun e s h => herror e s h.1 h.2

/-- A part of a request whose failure is caught. -/
theorem attempt_safe {γ : Type} {f : Except Refusal β → Service γ}
    {R : Except Refusal γ → Shared α → Prop}
    (hm : m.Safe (service sha256 a) s (Ends sha256 Q E))
    (hok : ∀ b s, Invariant sha256 s → Q b s → (f (.ok b)).Safe (service sha256 a) s R)
    (herror : ∀ e s, Invariant sha256 s → E s → (f (.error e)).Safe (service sha256 a) s R) :
    ((m.attempt : Service (Except Refusal β)) >>= f).Safe (service sha256 a) s R := by
  refine Safe.attempt_bind hm fun r s h => ?_
  cases r with
  | ok b => exact hok b s h.1 h.2
  | error e => exact herror e s h.1 h.2

/-- A quiet part of a request. -/
theorem quiet_bind {γ : Type} {f : β → Service γ} {Q : γ → Shared α → Prop}
    (hm : m.Uses Quiet) (hs : Invariant sha256 s) (hP : P s)
    (hkept : Kept a P) (himp : ∀ s, P s → E s)
    (hf : ∀ b s, Invariant sha256 s → P s → (f b).Safe (service sha256 a) s (Ends sha256 Q E)) :
    (m >>= f).Safe (service sha256 a) s (Ends sha256 Q E) :=
  (quiet_safe hm hs hP hkept).bind (fun b s h => hf b s h.1 h.2) fun _ s h => ⟨h.1, himp s h.2⟩

/-- Nothing is asserted of the staging files. -/
def Staging (P : Shared α → Prop) : Prop := ∀ s parts, P s → P { s with parts := parts }

/-- A staging file is removed. -/
theorem unlinkPart_safe {part : Uuid} {f : Unlinked → Service β}
    {R : Except Refusal β → Shared α → Prop} (hs : Invariant sha256 s) (hP : P s)
    (hkept : Kept a P) (hparts : Staging P)
    (hf : ∀ r s, Invariant sha256 s → P s → (f r).Safe (service sha256 a) s R) :
    (perform (.unlinkPart part) >>= f).Safe (service sha256 a) s R := by
  refine act_safe hs hP hkept fun d s r s' hs hP _ hexec => ?_
  obtain rfl := congrArg Prod.snd (Option.some.inj hexec)
  dsimp only
  split_ifs
  · exact hf r _ (hs.of_parts _) (hparts s _ hP)
  · exact hf r s hs hP

omit [DecidableEq α] in
theorem staging_clean : Staging (Clean a) := fun _ _ h => ⟨h.session, h.inflight⟩

/-! ### Transactions -/

/-- A row that the transaction has locked. -/
structure Holds (a : α) (id : MediaId) (row : Row) (s : Shared α) : Prop where
  owns : Owns s a id
  row : s.db.media.get? id = some row

omit [DecidableEq α] in
theorem kept_holds {id : MediaId} {row : Row} : Kept a (Holds a id row) :=
  fun _ _ h hspares => ⟨hspares.session.owner id h.owns, hspares.row id row h.owns h.row⟩

/-- Nothing is asserted of locks that are not held. -/
def Locking (a : α) (P : Shared α → Prop) : Prop :=
  ∀ s rows, P s → P { s with store := s.store.lock a rows }

theorem lockRow_safe {id : MediaId} (hs : Invariant sha256 s) (hP : P s) (hkept : Kept a P)
    (hlocking : Locking a P) :
    (lockRow id).Safe (service sha256 a) s
      (Ends sha256 (fun row s => P s ∧ Holds a id row s) P) := by
  refine act_safe hs hP hkept fun d s r s' hs hP _ hexec => ?_
  simp only [exec] at hexec
  split_ifs at hexec
  · cases hexec
    exact ⟨hs, hP⟩
  · unfold lock at hexec
    split at hexec
    · cases hexec
      exact ⟨hs, hP⟩
    · next row hrow =>
      split_ifs at hexec with havailable
      cases hexec
      refine ⟨hs.lock havailable, hlocking s _ hP, ?_, hrow⟩
      exact RowLocks.owner_lock_of_mem (by simp)

/-- A write that is justified, or raises. -/
theorem save_safe {w : Write} {Q : Unit → Shared α → Prop}
    (hs : Invariant sha256 s) (hP : P s) (hkept : Kept a P) (himp : ∀ s, P s → E s)
    (hw : ∀ s, Invariant sha256 s → P s → Justified sha256 s a w)
    (hshape : ∀ s, P s → Shape (s.store.pending a ++ [w]))
    (hQ : ∀ s, P s → Q () { s with store := s.store.write a w }) :
    (save w).Safe (service sha256 a) s (Ends sha256 Q E) := by
  refine act_safe hs hP hkept fun d s r s' hs hP _ hexec => ?_
  have hresult : write s a w d.fault = (r, s') := Option.some.inj hexec
  unfold write at hresult
  split_ifs at hresult <;> cases hresult
  · exact ⟨hs, himp s hP⟩
  · exact ⟨hs.write (hw s hs hP) (hshape s hP), hQ s hP⟩

/-- A transaction: the body, and then its commit or its rollback. -/
theorem atomic_safe {body : Service β} {R : β → Shared α → Prop} {F : Shared α → Prop}
    (hbody : body.Safe (service sha256 a) s (Ends sha256 Q E)) (hQ : ∀ b, Kept a (Q b))
    (hE : Kept a E) (hrollback : ∀ s, E s → F (rollback s a))
    (hdone : ∀ b s, Invariant sha256 s → Q b s → R b (commit s a))
    (hrefused : ∀ b s, Q b s → F (rollback s a))
    (hlost : ∀ d b s, Q b s → InTime d a .commit s → d.commit = .lost → F (commit s a)) :
    (atomic body).Safe (service sha256 a) s (Ends sha256 R F) := by
  refine attempt_safe hbody (fun b s hs hb => ?_) fun e s hs he => ?_
  · refine act_safe hs hb (hQ b) fun d s r s' hs hb htime hexec => ?_
    cases hexec
    cases hcommit : d.commit with
    | done => exact ⟨hs.commit (not_late_of_inTime htime (by simp [hcommit])), hdone b s hs hb⟩
    | refused => exact ⟨hs.rollback a, hrefused b s hb⟩
    | lost =>
      exact ⟨hs.commit (not_late_of_inTime htime (by simp [hcommit])), hlost d b s hb htime hcommit⟩
  · refine act_safe hs he hE fun d s r s' hs he _ hexec => ?_
    cases hexec
    exact ⟨hs.rollback a, hrollback s he⟩

theorem commit_clean (s : Shared α) (a : α) : Clean a (commit s a) :=
  ⟨Sessions.commit_clean Db.apply s.store a, Function.update_self ..⟩

theorem rollback_clean (h : s.inflight a = none) : Clean a (rollback s a) :=
  ⟨Sessions.rollback_clean s.store a, h⟩

end IsadoraAir.ProductionMedia
