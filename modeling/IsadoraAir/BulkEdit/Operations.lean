import IsadoraAir.BulkEdit.Safety

/-!
# Previews and applies are safe

Each request on its own: a preview issues a record that is not from the future,
and an apply edits Tracks only after it has redeemed its nonce.
-/

namespace IsadoraAir.BulkEdit

open Routine (Safe Setting Uses)

variable {token : Option Token} {id : ℕ}

variable {changes : Changes} {known : Dict ℕ String} {ids : List ℕ} {fault : Option Problem}
  {selection : Selection} {session : String} {user : ℕ}

variable {ρ α : Type} {cfg : Config} {start : Dict ℕ (Track ρ)} {a b : α} {s s' : Shared ρ α}
  {job : Job} {nonce : String} {record : Record} {β : Type}

/-! ## What others leave alone -/

section Others

/-- Nothing of this changes. -/
theorem Grows.of_eq (hclock : s'.clock = s.clock) (hrecords : s'.records = s.records)
    (hredeemed : s'.redeemed = s.redeemed) (hprepared : s'.prepared = s.prepared) : Grows s s' :=
  ⟨hclock.ge, fun _ _ h => hrecords ▸ h, fun _ h => hredeemed ▸ h, fun _ h => hprepared ▸ h⟩

theorem Grows.trans {s'' : Shared ρ α} (h : Grows s s') (h' : Grows s' s'') : Grows s s'' :=
  ⟨h.clock.trans h'.clock, fun nonce record hget => h'.records _ _ (h.records nonce record hget),
    List.Subset.trans h.redeemed h'.redeemed, List.Subset.trans h.prepared h'.prepared⟩

theorem prepare_grows : Grows s (prepare cfg s changes ids fault).2 := by
  cases fault with
  | none => exact ⟨le_rfl, fun _ _ h => h, fun _ h => h, fun _ h => List.mem_append_left _ h⟩
  | some problem => exact .refl s

theorem prepare_holding : (prepare cfg s changes ids fault).2.holding = s.holding := by
  cases fault <;> rfl

theorem edit_grows {d : Decision} : Grows s (edit cfg s job id known d).2 := by
  rcases edit_cases cfg s job id known d with hsame | ⟨disposition, db, -, hsame⟩
  · rw [hsame]
    exact .refl s
  · rw [hsame]
    exact commitTrack_grows

theorem edit_holding {d : Decision} : (edit cfg s job id known d).2.holding = s.holding := by
  rcases edit_cases cfg s job id known d with hsame | ⟨disposition, db, -, hsame⟩
  · rw [hsame]
  · rw [hsame]
    cases disposition <;> rfl

theorem saveSession_grows {copy : ℕ} : Grows s (saveSession s session copy) := by
  unfold saveSession
  split
  · split_ifs <;> exact .of_eq rfl rfl rfl rfl
  · exact .refl s

theorem openSession_grows : Grows s (openSession s session) := by
  unfold openSession
  split_ifs <;> exact .of_eq rfl rfl rfl rfl

variable [DecidableEq α]

theorem claimNonce_grows : Grows s (claimNonce cfg s a session nonce).2 := by
  unfold claimNonce
  split
  · exact .refl s
  · split
    · exact .refl s
    · split_ifs <;> exact .of_eq rfl rfl rfl rfl

theorem claimNonce_holding (hab : a ≠ b) :
    (claimNonce cfg s b session nonce).2.holding a = s.holding a := by
  unfold claimNonce
  split
  · rfl
  · split
    · rfl
    · split_ifs
      · rfl
      · exact Function.update_of_ne hab ..

theorem redeemNonce_grows : Grows s (redeemNonce s a nonce) :=
  ⟨le_rfl, fun _ _ h => h, fun _ h => List.mem_append_left _ h, fun _ h => h⟩

variable {d : Decision} {x : Action ρ} {r : x.Result}

theorem exec_grows (h : exec cfg d a x s = some (r, s')) : Grows s s' := by
  cases x with
  | issue session record =>
    simp only [exec] at h
    split_ifs at h with hfresh
    obtain rfl := congrArg Prod.snd (Option.some.inj h)
    exact issue_grows hfresh
  | claim session nonce =>
    obtain rfl := congrArg Prod.snd (Option.some.inj h)
    exact claimNonce_grows
  | prepare nonce changes ids =>
    obtain rfl := congrArg Prod.snd (Option.some.inj h)
    exact redeemNonce_grows.trans prepare_grows
  | edit job id known =>
    obtain rfl := congrArg Prod.snd (Option.some.inj h)
    exact edit_grows
  | saveSession session copy => cases h; exact saveSession_grows
  | openSession session => cases h; exact openSession_grows
  | elapse microseconds =>
    cases h
    have hclock : s.clock ≤ s.clock + (microseconds : ℤ) := by omega
    exact ⟨hclock, fun _ _ h => h, fun _ h => h, fun _ h => h⟩
  | _ => cases h; exact .of_eq rfl rfl rfl rfl

theorem exec_holding (h : exec cfg d b x s = some (r, s')) (hab : a ≠ b) :
    s'.holding a = s.holding a := by
  cases x with
  | issue session record =>
    simp only [exec] at h
    split_ifs at h with hfresh
    obtain rfl := congrArg Prod.snd (Option.some.inj h)
    unfold issue
    split <;> rfl
  | claim session nonce =>
    obtain rfl := congrArg Prod.snd (Option.some.inj h)
    exact claimNonce_holding hab
  | prepare nonce changes ids =>
    obtain rfl := congrArg Prod.snd (Option.some.inj h)
    rw [prepare_holding]
    exact Function.update_of_ne hab ..
  | edit job id known =>
    obtain rfl := congrArg Prod.snd (Option.some.inj h)
    rw [edit_holding]
  | saveSession session copy =>
    cases h
    unfold saveSession
    split
    · split_ifs <;> rfl
    · rfl
  | openSession session =>
    cases h
    unfold openSession
    split_ifs <;> rfl
  | _ => cases h; rfl

variable (cfg start) in
/-- The shared state, as the agent `a` acts on it among others. -/
def service (a : α) : Setting (Action.Result (ρ := ρ)) (Shared ρ α) where
  exec x s r s' := ∃ d, exec cfg d a x s = some (r, s')
  others s s' := Invariant cfg start s ∧ Invariant cfg start s' ∧
    ∃ b, b ≠ a ∧ (s' = s ∨ ∃ d x r, exec cfg d b x s = some (r, s'))
  invariant s := Invariant cfg start s ∧ True

variable (cfg start) in
def assertions : Crew.Assertions (Shared ρ α) α (Call ρ) :=
  ⟨Invariant cfg start, fun _ _ _ => True, fun _ _ => True⟩

theorem stable_of {P : Shared ρ α → Prop}
    (h : ∀ s s', P s → Grows s s' → s'.holding a = s.holding a → P s') :
    (service cfg start a).Stable fun s => Invariant cfg start s ∧ P s := by
  rintro s s' ⟨-, hP⟩ ⟨-, hinv, b, hb, rfl | ⟨d, x, r, hexec⟩⟩
  · exact ⟨hinv, hP⟩
  · exact ⟨hinv, h s s' hP (exec_grows hexec) (exec_holding hexec hb.symm)⟩

theorem stable_invariant : (service cfg start a).Stable (Invariant cfg start) :=
  fun _ _ _ hothers => hothers.2.1

end Others

/-! ## What one action keeps -/

/-- The actions that rely on nothing. -/
def Ordinary : Action ρ → Prop
  | .issue _ _ | .prepare _ _ _ | .edit _ _ _ => False
  | _ => True

theorem claimed_eq_log [DecidableEq α] :
    (claimNonce cfg s a session nonce).2.db = s.db ∧
      (claimNonce cfg s a session nonce).2.log = s.log := by
  unfold claimNonce
  split
  · exact ⟨rfl, rfl⟩
  · split
    · exact ⟨rfl, rfl⟩
    · split_ifs <;> exact ⟨rfl, rfl⟩

theorem Invariant.saveSession (hs : Invariant cfg start s) (session : String) (copy : ℕ) :
    Invariant cfg start (saveSession s session copy) := by
  refine ⟨hs.claiming.saveSession session copy, hs.logged.of_eq saveSession_grows ?_ ?_⟩
  all_goals
    unfold BulkEdit.saveSession
    split
    · split_ifs <;> rfl
    · rfl

theorem Invariant.openSession (hs : Invariant cfg start s) (session : String) :
    Invariant cfg start (openSession s session) := by
  refine ⟨hs.claiming.openSession session, hs.logged.of_eq openSession_grows ?_ ?_⟩
  all_goals
    unfold BulkEdit.openSession
    split_ifs <;> rfl

theorem Invariant.issue (hs : Invariant cfg start s) (session : String)
    (hfresh : nonce ∉ s.records.keys) (record : Record) (hissued : record.issued ≤ s.clock) :
    Invariant cfg start (issue s session nonce record).2 := by
  refine ⟨hs.claiming.issue hfresh hissued, hs.logged.of_eq (issue_grows hfresh) ?_ ?_⟩
  all_goals
    unfold BulkEdit.issue
    split <;> rfl

/-- Nothing but the clock, the tokens and the rows that a Track refers to. -/
theorem Invariant.of_eq (hs : Invariant cfg start s) (hgrows : Grows s s')
    (hclaiming : Claiming cfg s') (htracks : s'.db.tracks = s.db.tracks) (hlog : s'.log = s.log) :
    Invariant cfg start s' :=
  ⟨hclaiming, hs.logged.of_eq hgrows htracks hlog⟩

variable [DecidableEq α]

theorem exec_invariant {d : Decision} {x : Action ρ} {r : x.Result} (hx : Ordinary x)
    (hs : Invariant cfg start s) (h : exec cfg d a x s = some (r, s')) :
    Invariant cfg start s' := by
  have hgrows := exec_grows h
  cases x with
  | issue session record => exact hx.elim
  | prepare nonce changes ids => exact hx.elim
  | edit job id known => exact hx.elim
  | claim session nonce =>
    obtain rfl := congrArg Prod.snd (Option.some.inj h)
    exact hs.of_eq hgrows (hs.claiming.claimNonce session nonce)
      (congrArg Db.tracks claimed_eq_log.1) claimed_eq_log.2
  | writeTrack id track =>
    cases h
    exact ⟨hs.claiming.of_eq rfl rfl rfl le_rfl rfl rfl rfl rfl, writeTrack_logged hs.logged id track⟩
  | saveSession session copy => cases h; exact hs.saveSession session copy
  | openSession session => cases h; exact hs.openSession session
  | closeSession session =>
    cases h
    exact hs.of_eq hgrows (hs.claiming.closeSession session) rfl rfl
  | clearSessions =>
    cases h
    exact hs.of_eq hgrows hs.claiming.unexpired rfl rfl
  | elapse microseconds =>
    cases h
    exact hs.of_eq hgrows (hs.claiming.of_eq rfl rfl rfl hgrows.clock rfl rfl rfl rfl) rfl rfl
  | _ =>
    cases h
    exact hs.of_eq hgrows (hs.claiming.of_eq rfl rfl rfl le_rfl rfl rfl rfl rfl) rfl rfl

theorem ordinary_safe {m : Service ρ β} (hm : m.Uses Ordinary) (hs : Invariant cfg start s) :
    m.Safe (service cfg start a) s fun _ => Invariant cfg start := by
  refine Uses.safe hm hs stable_invariant (fun s h => ⟨h, trivial⟩) ?_
  rintro x s r s' hx hs ⟨d, hexec⟩
  exact exec_invariant hx hs hexec

/-! ## Preview -/

theorem previewTracks_uses {memberships rows found : Db ρ} {entries : Dict ℕ (String × Previewed)} :
    (previewTracks cfg changes memberships rows found ids known entries).Uses Ordinary := by
  induction ids generalizing known entries with
  | nil => exact Uses.pure
  | cons id ids ih =>
    unfold previewTracks
    split
    · exact ih
    · dsimp only
      split_ifs
      · exact Uses.raise
      · exact ih
      · refine Uses.bind ?_ fun refusal => ih
        unfold guardRefusal
        split_ifs
        · exact Uses.pure
        · exact Uses.perform trivial

theorem wholeSeconds_le (time : ℤ) : time / 1000000 * 1000000 ≤ time := by omega

theorem stable_past (time : ℤ) :
    (service cfg start a).Stable fun s => Invariant cfg start s ∧ time ≤ s.clock :=
  stable_of fun _ _ h hgrows _ => h.trans hgrows.clock

theorem preview_safe (hs : Invariant cfg start s) :
    (preview cfg session user selection changes).Safe (service cfg start a) s
      fun _ => Invariant cfg start := by
  have look {f : Db ρ → Service ρ Token}
      (hf : ∀ db s, Invariant cfg start s →
        (f db).Safe (service cfg start a) s fun _ => Invariant cfg start)
      {s : Shared ρ α} (hs : Invariant cfg start s) :
      (perform .look >>= f).Safe (service cfg start a) s fun _ => Invariant cfg start :=
    Safe.bind (ordinary_safe (Uses.perform trivial) hs) hf fun _ _ h => h
  refine look (fun memberships s => look (fun rows s => look fun found s hs => ?_)) hs
  refine Safe.bind (ordinary_safe previewTracks_uses hs) (fun tracks s hs => ?_) fun _ _ h => h
  refine Safe.perform_bind hs stable_invariant (fun s h => ⟨h, trivial⟩) ?_
  rintro s now s' hs ⟨d, hexec⟩
  cases hexec
  refine Safe.perform_bind ⟨hs, le_refl s.clock⟩ (stable_past s.clock) (fun s h => ⟨h.1, trivial⟩) ?_
  rintro t nonce t' ⟨ht, hclock⟩ ⟨d, hexec⟩
  simp only [exec] at hexec
  split_ifs at hexec with hfresh
  obtain rfl := congrArg Prod.snd (Option.some.inj hexec)
  have hissued := ht.issue session hfresh ⟨user, cfg.idsDigest selection.ids,
    cfg.opsDigest changes, s.clock / 1000000 * 1000000, tracks⟩
    ((wholeSeconds_le s.clock).trans hclock)
  cases nonce with
  | none => exact hissued
  | some nonce => exact ordinary_safe (Uses.perform trivial) hissued

/-! ## Apply -/

/-- The claimed record is that of a preview; the nonce is held, unless the record is too old. -/
def Claimed (s : Shared ρ α) (a : α) (nonce : String) (record : Record) : Prop :=
  s.records.get? nonce = some record ∧
    (s.holding a = some nonce ∨ tokenMaxAge < s.clock - record.issued)

def Held (s : Shared ρ α) (a : α) (nonce : String) (record : Record) : Prop :=
  s.records.get? nonce = some record ∧ s.holding a = some nonce

theorem stable_claimed : (service cfg start a).Stable fun s =>
    Invariant cfg start s ∧ Claimed s a nonce record :=
  stable_of fun _ _ h hgrows hholding => ⟨hgrows.records _ _ h.1, h.2.imp (hholding.trans ·)
    fun hlate => hlate.trans_le (Int.sub_le_sub_right hgrows.clock _)⟩

theorem stable_held : (service cfg start a).Stable fun s =>
    Invariant cfg start s ∧ Held s a nonce record :=
  stable_of fun _ _ h hgrows hholding => ⟨hgrows.records _ _ h.1, hholding.trans h.2⟩

theorem stable_ready : (service cfg start a).Stable fun s =>
    Invariant cfg start s ∧ Ready cfg s job :=
  stable_of fun _ _ h hgrows _ => h.mono hgrows

theorem claimNonce_claimed (hs : Invariant cfg start s)
    (h : (claimNonce cfg s a session nonce).1 = .claimed record) :
    Claimed (claimNonce cfg s a session nonce).2 a nonce record := by
  unfold claimNonce at h ⊢
  split at h
  · cases h
  · next pending hsession =>
    split at h
    · cases h
    · next record' hrecord =>
      by_cases hmarked : ((unexpired s.markers s.clock).get? (claimKey cfg nonce)).isSome = true
      · rw [if_pos hmarked] at h
        cases h
      · rw [if_neg hmarked] at h
        cases h
        rw [if_neg hmarked]
        refine ⟨hs.claiming.sessions session pending hsession nonce record hrecord, ?_⟩
        by_cases htimely : isTimely s record = true
        · left
          simp [claimed, htimely]
        · right
          simp only [isTimely, decide_eq_true_eq, not_le] at htimely
          exact htimely

theorem redeem_safe (hs : Invariant cfg start s) :
    (redeem cfg session user token selection changes).Safe (service cfg start a) s fun r s =>
      Invariant cfg start s ∧ ∀ redeemed, r = .ok redeemed → Held s a redeemed.1 redeemed.2 ∧
        redeemed.2.ids = cfg.idsDigest selection.ids ∧ redeemed.2.ops = cfg.opsDigest changes := by
  have error {e : Refusal} {s : Shared ρ α} (hs : Invariant cfg start s) :
      (.raise e : Service ρ (String × Record)).Safe (service cfg start a) s fun r s =>
        Invariant cfg start s ∧ ∀ redeemed, r = .ok redeemed → Held s a redeemed.1 redeemed.2 ∧
          redeemed.2.ids = cfg.idsDigest selection.ids ∧ redeemed.2.ops = cfg.opsDigest changes :=
    ⟨hs, fun _ h => by cases h⟩
  cases token with
  | none => exact error hs
  | some token =>
    refine Safe.bind (ordinary_safe (Uses.perform trivial) hs) (fun loaded s hs => ?_)
      fun _ _ h => ⟨h, fun _ h => by cases h⟩
    split
    · exact error hs
    · exact error hs
    · next claims =>
      split_ifs
      · exact error hs
      · refine Safe.perform_bind hs stable_invariant (fun s h => ⟨h, trivial⟩) ?_
        rintro s result s' hs ⟨d, hexec⟩
        have hs' := exec_invariant (x := .claim session claims.nonce) trivial hs hexec
        have hresult := congrArg Prod.fst (Option.some.inj hexec)
        obtain rfl := congrArg Prod.snd (Option.some.inj hexec)
        split
        · exact error hs'
        · exact error hs'
        · next record =>
          by_cases huser : record.user ≠ user
          · rw [if_pos huser]
            exact error hs'
          · rw [if_neg huser]
            refine Safe.perform_bind ⟨hs', claimNonce_claimed hs hresult⟩ stable_claimed
              (fun s h => ⟨h.1, trivial⟩) ?_
            rintro s now s' ⟨hs, hclaimed⟩ ⟨d, hexec⟩
            cases hexec
            split_ifs with hlate hids hops
            · exact error hs
            · exact error hs
            · exact error hs
            · refine ⟨hs, fun redeemed h => ?_⟩
              cases h
              simp only [not_or, not_not] at hids hops
              exact ⟨⟨hclaimed.1, hclaimed.2.resolve_right hlate⟩, hids.2.trans hids.1,
                hops.2.trans hops.1⟩

theorem prepare_invariant (hs : Invariant cfg start s) (hheld : Held s a nonce record)
    (changes : Changes) (ids : List ℕ) (fault : Option Problem) :
    Invariant cfg start (prepare cfg (redeemNonce s a nonce) changes ids fault).2 := by
  have hclaiming := hs.claiming.redeemNonce hheld.2
  have hgrows : Grows s (prepare cfg (redeemNonce s a nonce) changes ids fault).2 :=
    redeemNonce_grows.trans prepare_grows
  cases fault with
  | some problem => exact hs.of_eq hgrows hclaiming rfl rfl
  | none =>
    exact hs.of_eq hgrows (hclaiming.of_eq rfl rfl rfl le_rfl rfl rfl rfl rfl)
      prepareTargets_extends.tracks rfl

theorem prepare_ready (hheld : Held s a nonce record) {targets : Targets}
    (hids : record.ids = cfg.idsDigest ids) (hops : record.ops = cfg.opsDigest changes)
    (h : (prepare cfg (redeemNonce s a nonce) changes ids fault).1 = some targets) :
    Ready cfg (prepare cfg (redeemNonce s a nonce) changes ids fault).2
      ⟨nonce, record, ids, changes, targets⟩ := by
  cases fault with
  | some problem => cases h
  | none =>
    cases h
    exact ⟨List.mem_append_right _ (List.mem_singleton_self _), hheld.1, hids, hops,
      ⟨_, List.mem_append_right _ (List.mem_singleton_self _), prepareTargets_prepared⟩⟩

theorem editAll_safe (hs : Invariant cfg start s) (hready : Ready cfg s job) :
    (editAll job ids known).Safe (service cfg start a) s fun _ => Invariant cfg start := by
  induction ids generalizing s known with
  | nil => exact hs
  | cons id ids ih =>
    refine Safe.perform_bind ⟨hs, hready⟩ stable_ready (fun s h => ⟨h.1, trivial⟩) ?_
    rintro s r s' ⟨hs, hready⟩ ⟨d, hexec⟩
    have hgrows := exec_grows hexec
    obtain rfl := congrArg Prod.snd (Option.some.inj hexec)
    exact Safe.bind (ih (edit_invariant hs hready) (hready.mono hgrows)) (fun _ _ h => h)
      fun _ _ h => h

theorem apply_safe (hs : Invariant cfg start s) :
    (apply cfg session user token selection changes).Safe (service cfg start a) s
      fun _ => Invariant cfg start := by
  refine Safe.bind (redeem_safe hs) (fun redeemed s h => ?_) fun _ _ h => h.1
  obtain ⟨hs, hredeemed⟩ := h
  obtain ⟨hheld, hids, hops⟩ := hredeemed redeemed rfl
  refine Safe.perform_bind ⟨hs, hheld⟩ stable_held (fun s h => ⟨h.1, trivial⟩) ?_
  rintro s r s' ⟨hs, hheld⟩ ⟨d, hexec⟩
  have htargets := congrArg Prod.fst (Option.some.inj hexec)
  obtain rfl := congrArg Prod.snd (Option.some.inj hexec)
  have hs' := prepare_invariant hs hheld changes selection.ids d.fault
  cases r with
  | none => exact hs'
  | some targets =>
    exact Safe.bind (editAll_safe hs' (prepare_ready hheld hids hops htargets)) (fun _ _ h => h)
      fun _ _ h => h

end IsadoraAir.BulkEdit
