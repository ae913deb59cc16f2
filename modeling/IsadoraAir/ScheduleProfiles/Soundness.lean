import IsadoraAir.ScheduleProfiles.Transactions

/-!
# Soundness of the profile tables

The tables are sound in every state, and what a transaction has written is
justified: what it has checked cannot change as long as it holds its locks.
-/

namespace IsadoraAir.ScheduleProfiles

variable {call : Call} {f : Profile → Profile} {ws : List Write} {row : Profile} {i : ℕ} {α : Type}

/-- The profile exists and is not archived. -/
def Database.Usable (db : Database) (profile : ℕ) : Prop :=
  ∃ p, db.profiles.get? profile = some p ∧ p.isArchived = false

structure Database.Sound (db : Database) : Prop where
  state : ∃ row, db.state = some row ∧ db.Usable row.activeProfile ∧ db.Usable row.defaultProfile
  name : ∀ i j p q, db.profiles.get? i = some p → db.profiles.get? j = some q →
    p.name = q.name → i = j
  uuid : ∀ i j p q, db.profiles.get? i = some p → db.profiles.get? j = some q →
    p.uuid = q.uuid → i = j
  refers : db.Refers

/-! ## Locked rows -/

/-- The locked rows and index entries are the same in both. -/
structure Agree (owns : Row → Prop) (db db' : Database) : Prop where
  state : owns .state → db'.state = db.state
  profile : ∀ i, owns (.profile i) → db'.profiles.get? i = db.profiles.get? i
  name : ∀ n, owns (.name n) → ∀ i p, db'.profiles.get? i = some p → p.name = n →
    ∃ q, db.profiles.get? i = some q ∧ q.name = n
  uuid : ∀ u, owns (.uuid u) → ∀ i p, db'.profiles.get? i = some p → p.uuid = u →
    ∃ q, db.profiles.get? i = some q ∧ q.uuid = u

namespace Agree

variable {owns : Row → Prop} {db db' db'' : Database}

theorem refl (owns : Row → Prop) (db : Database) : Agree owns db db :=
  ⟨fun _ => rfl, fun _ _ => rfl, fun _ _ _ p h hn => ⟨p, h, hn⟩, fun _ _ _ p h hu => ⟨p, h, hu⟩⟩

theorem trans (h : Agree owns db db') (h' : Agree owns db' db'') : Agree owns db db'' where
  state ho := (h'.state ho).trans (h.state ho)
  profile i ho := (h'.profile i ho).trans (h.profile i ho)
  name n ho i p hp hn := by
    obtain ⟨q, hq, hqn⟩ := h'.name n ho i p hp hn
    exact h.name n ho i q hq hqn
  uuid u ho i p hp hu := by
    obtain ⟨q, hq, hqu⟩ := h'.uuid u ho i p hp hu
    exact h.uuid u ho i q hq hqu

/-- Nothing but one profile changes, and it takes no locked name or UUID. -/
theorem of_profile (hstate : db'.state = db.state)
    (hprofiles : ∀ j, j ≠ i → db'.profiles.get? j = db.profiles.get? j) (hi : ¬owns (.profile i))
    (hrow : ∀ p, db'.profiles.get? i = some p →
      (owns (.name p.name) → ∃ q, db.profiles.get? i = some q ∧ q.name = p.name) ∧
      (owns (.uuid p.uuid) → ∃ q, db.profiles.get? i = some q ∧ q.uuid = p.uuid)) :
    Agree owns db db' where
  state _ := hstate
  profile j ho := hprofiles j fun hj => hi (hj ▸ ho)
  name n ho j p hp hn := by
    by_cases hj : j = i
    · subst hj
      subst hn
      exact (hrow p hp).1 ho
    · exact ⟨p, hprofiles j hj ▸ hp, hn⟩
  uuid u ho j p hp hu := by
    by_cases hj : j = i
    · subst hj
      subst hu
      exact (hrow p hp).2 ho
    · exact ⟨p, hprofiles j hj ▸ hp, hu⟩

end Agree

theorem Database.get?_update (db : Database) (i j : ℕ) (f : Profile → Profile) :
    (db.update i f).profiles.get? j =
      if j = i then (db.profiles.get? i).map f else db.profiles.get? j := by
  unfold Database.update
  split
  · next p hp =>
    rw [Dict.get?_insert]
    split_ifs with hj
    · simp [hp]
    · rfl
  · next hp =>
    split_ifs with hj
    · rw [hj, hp]
      rfl
    · rfl

theorem Database.update_rest (db : Database) (i : ℕ) (f : Profile → Profile) :
    (db.update i f).state = db.state ∧ (db.update i f).blocks = db.blocks ∧
      (db.update i f).logs = db.logs := by
  unfold Database.update
  split <;> exact ⟨rfl, rfl, rfl⟩

theorem agree_update {owns : Row → Prop} {db : Database}
    (hi : ¬owns (.profile i)) (huuid : ∀ p, (f p).uuid = p.uuid)
    (hname : ∀ p, (f p).name = p.name ∨ ¬owns (.name (f p).name)) :
    Agree owns db (db.update i f) := by
  apply Agree.of_profile (db.update_rest i f).1 _ hi
  · intro p hp
    rw [Database.get?_update, if_pos rfl, Option.map_eq_some_iff] at hp
    obtain ⟨q, hq, rfl⟩ := hp
    refine ⟨fun ho => ⟨q, hq, ?_⟩, fun _ => ⟨q, hq, (huuid q).symm⟩⟩
    exact ((hname q).resolve_right fun h => h ho).symm
  · intro j hj
    rw [Database.get?_update, if_neg hj]

/-- A write leaves the rows alone that it does not change. -/
theorem agree_apply {owns : Row → Prop} (db : Database) {w : Write}
    (hrows : ∀ row ∈ w.rows, ¬owns row) : Agree owns db (db.apply w) := by
  have hrefl := Agree.refl owns db
  cases w with
  | createState profile | activate profile | setDefault profile =>
    have hstate : ¬owns .state := hrows _ (by simp [Write.rows])
    exact ⟨fun ho => absurd ho hstate, hrefl.profile, hrefl.name, hrefl.uuid⟩
  | insert profile row =>
    have hi : ¬owns (.profile profile) := hrows _ (by simp [Write.rows])
    refine Agree.of_profile rfl (fun j hj => ?_) hi fun p hp => ?_
    · simp [Database.apply, Dict.get?_insert, hj]
    · simp only [Database.apply, Dict.get?_insert, if_pos] at hp
      cases hp
      exact ⟨fun ho => absurd ho (hrows _ (by simp [Write.rows])),
        fun ho => absurd ho (hrows _ (by simp [Write.rows]))⟩
  | edit profile e =>
    have hi : ¬owns (.profile profile) := hrows _ (by simp [Write.rows])
    refine agree_update (f := e.apply) hi (fun p => rfl) fun p => ?_
    cases hname : e.name with
    | none => simp [Edit.apply, hname]
    | some n =>
      right
      simp only [Edit.apply, hname, Option.getD_some]
      exact hrows _ (by simp [Write.rows, hname])
  | setArchived profile value =>
    have hi : ¬owns (.profile profile) := hrows _ (by simp [Write.rows])
    exact agree_update (f := fun p => { p with isArchived := value }) hi (fun p => rfl)
      fun p => .inl rfl
  | delete profile =>
    have hi : ¬owns (.profile profile) := hrows _ (by simp [Write.rows])
    refine Agree.of_profile rfl (fun j hj => ?_) hi fun p hp => ?_
    · simp [Database.apply, Dict.get?_erase, hj]
    · simp [Database.apply, Dict.get?_erase] at hp
  | addBlocks rows | removeBlocks rows | addLogs rows | removeLogs rows =>
    exact ⟨hrefl.state, hrefl.profile, hrefl.name, hrefl.uuid⟩

theorem agree_foldl {owns : Row → Prop}
    (hrows : ∀ w ∈ ws, ∀ row ∈ w.rows, ¬owns row) (db : Database) :
    Agree owns db (ws.foldl Database.apply db) := by
  induction ws generalizing db with
  | nil => exact .refl owns db
  | cons w ws ih =>
    obtain ⟨hw, hws⟩ := List.forall_mem_cons.mp hrows
    exact (agree_apply db hw).trans (ih hws (db.apply w))

/-! ## What a transaction may have written -/

/-- No profile has one of the unique keys of the new row. -/
structure Database.Fresh (db : Database) (i : ℕ) (row : Profile) : Prop where
  profile : db.profiles.get? i = none
  name : ∀ j p, db.profiles.get? j = some p → p.name ≠ row.name
  uuid : ∀ j p, db.profiles.get? j = some p → p.uuid ≠ row.uuid

theorem isNameTaken_eq_false_iff {db : Database} {name : Text} {own : Option ℕ} :
    db.isNameTaken name own = false ↔
      ∀ i p, db.profiles.get? i = some p → p.name = name → some i = own := by
  simp only [Database.isNameTaken, List.any_eq_false, decide_eq_true_eq, not_and, not_not,
    Dict.get?_eq_some_iff]
  exact ⟨fun h i p hp hn => h (i, p) hp hn, fun h item hitem hn => h item.1 item.2 hitem hn⟩

theorem fresh_of_not_repeats {db : Database} (h : ¬db.Repeats i row) : db.Fresh i row := by
  simp only [Database.Repeats, not_or, Bool.not_eq_true] at h
  obtain ⟨hi, hname, huuid⟩ := h
  refine ⟨Dict.get?_eq_none_iff.mpr hi, fun j p hp hn => ?_, fun j p hp hu => ?_⟩
  · cases isNameTaken_eq_false_iff.mp hname j p hp hn
  · exact huuid ⟨p, Dict.mem_values_of_get? hp, hu⟩

/-- What a transaction has written to answer the call, and what it holds to justify it. -/
inductive Justified (owns : Row → Prop) (db : Database) : Call → List Write → Prop
  | nothing (call : Call) : Justified owns db call []
  | insert {call : Call} {i : ℕ} {row : Profile} (hrows : ∀ r ∈ (Write.insert i row).rows, owns r)
    (hfresh : db.Fresh i row) : Justified owns db call [.insert i row]
  | clone {call : Call} {i : ℕ} {row : Profile} {blocks : List ScheduleBlock}
    (hrows : ∀ r ∈ (Write.insert i row).rows, owns r) (hfresh : db.Fresh i row) :
    Justified owns db call [.insert i row, .addBlocks blocks]
  | edit {call : Call} {i : ℕ} {e : Edit} (hrows : ∀ r ∈ (Write.edit i e).rows, owns r)
    (husable : db.Usable i) (hname : ∀ n ∈ e.name, db.isNameTaken n (some i) = false) :
    Justified owns db call [.edit i e]
  | archive {call : Call} {i : ℕ} {row : StateRow} (hstate : owns .state)
    (hrow : db.state = some row) (hactive : row.activeProfile ≠ i)
    (hdefault : row.defaultProfile ≠ i) : Justified owns db call [.setArchived i true]
  | restore {call : Call} {i : ℕ} : Justified owns db call [.setArchived i false]
  | activate {i : ℕ} {row : StateRow} {p : Profile} (hstate : owns .state)
    (hi : owns (.profile i)) (hj : owns (.profile row.activeProfile))
    (hrow : db.state = some row) (hp : db.profiles.get? row.activeProfile = some p)
    (hactive : row.activeProfile ≠ i) (husable : db.Usable i) :
    Justified owns db (.activate i (.uuid p.uuid)) [.activate i]
  | setDefault {call : Call} {i : ℕ} (hi : owns (.profile i)) (husable : db.Usable i) :
    Justified owns db call [.setDefault i]
  | delete {call : Call} {i : ℕ} {row : StateRow} (hstate : owns .state)
    (hrow : db.state = some row) (hactive : row.activeProfile ≠ i)
    (hdefault : row.defaultProfile ≠ i) : Justified owns db call [.delete i]
  | changeRows {call : Call} (change : RowChange) : Justified owns db call [change.write]

namespace Agree

variable {owns owns' : Row → Prop} {db db' : Database}

theorem usable (h : Agree owns db db') (hi : owns (.profile i)) (husable : db.Usable i) :
    db'.Usable i := by
  unfold Database.Usable
  rw [h.profile i hi]
  exact husable

theorem fresh (h : Agree owns db db')
    (hrows : ∀ r ∈ (Write.insert i row).rows, owns r) (hfresh : db.Fresh i row) :
    db'.Fresh i row where
  profile := (h.profile i (hrows _ (by simp [Write.rows]))).trans hfresh.profile
  name j p hp hn := by
    obtain ⟨q, hq, hqn⟩ := h.name row.name (hrows _ (by simp [Write.rows])) j p hp hn
    exact hfresh.name j q hq hqn
  uuid j p hp hu := by
    obtain ⟨q, hq, hqu⟩ := h.uuid row.uuid (hrows _ (by simp [Write.rows])) j p hp hu
    exact hfresh.uuid j q hq hqu

/-- What is justified stays so while the locked rows are the same. -/
theorem justified (h : Agree owns db db') (howns : ∀ row, owns row → owns' row)
    (hw : Justified owns db call ws) : Justified owns' db' call ws := by
  cases hw with
  | nothing => exact .nothing call
  | insert hrows hfresh => exact .insert (fun r hr => howns r (hrows r hr)) (h.fresh hrows hfresh)
  | clone hrows hfresh => exact .clone (fun r hr => howns r (hrows r hr)) (h.fresh hrows hfresh)
  | @edit _ i e hrows husable hname =>
    refine .edit (fun r hr => howns r (hrows r hr))
      (h.usable (hrows _ (by simp [Write.rows])) husable) fun n hn => ?_
    rw [isNameTaken_eq_false_iff]
    intro j p hp hpn
    have hlocked : owns (.name n) := by
      refine hrows _ ?_
      simpa [Write.rows] using hn
    obtain ⟨q, hq, hqn⟩ := h.name n hlocked j p hp hpn
    exact isNameTaken_eq_false_iff.mp (hname n hn) j q hq hqn
  | archive hstate hrow hactive hdefault =>
    exact .archive (howns _ hstate) ((h.state hstate).trans hrow) hactive hdefault
  | restore => exact .restore
  | activate hstate hi hj hrow hp hactive husable =>
    exact .activate (howns _ hstate) (howns _ hi) (howns _ hj) ((h.state hstate).trans hrow)
      ((h.profile _ hj).trans hp) hactive (h.usable hi husable)
  | setDefault hi husable => exact .setDefault (howns _ hi) (h.usable hi husable)
  | delete hstate hrow hactive hdefault =>
    exact .delete (howns _ hstate) ((h.state hstate).trans hrow) hactive hdefault
  | changeRows change => exact .changeRows change

end Agree

/-! ## A justified commit keeps the tables sound -/

theorem Database.Usable.of_get? {db db' : Database} (h : db.Usable i)
    (hi : ∀ p, db.profiles.get? i = some p →
      ∃ q, db'.profiles.get? i = some q ∧ (p.isArchived = false → q.isArchived = false)) :
    db'.Usable i := by
  obtain ⟨p, hp, hused⟩ := h
  obtain ⟨q, hq, himp⟩ := hi p hp
  exact ⟨q, hq, himp hused⟩

theorem sound_insert {db : Database} (h : db.Sound)
    (hfresh : db.Fresh i row) {db' : Database} (hstate : db'.state = db.state)
    (hprofiles : db'.profiles = db.profiles.insert i row) (hrefers : db'.Refers) : db'.Sound := by
  have hget j : db'.profiles.get? j = if j = i then some row else db.profiles.get? j := by
    rw [hprofiles, Dict.get?_insert]
  have hkeep {j : ℕ} (hj : db.Usable j) : db'.Usable j := by
    obtain ⟨p, hp, hused⟩ := hj
    refine ⟨p, ?_, hused⟩
    rw [hget, if_neg, hp]
    rintro rfl
    rw [hfresh.profile] at hp
    cases hp
  obtain ⟨state, hrow, hactive, hdefault⟩ := h.state
  refine ⟨⟨state, hstate.trans hrow, hkeep hactive, hkeep hdefault⟩, ?_, ?_, hrefers⟩
  · intro j k p q hp hq hpq
    rw [hget] at hp hq
    split_ifs at hp hq with hj hk hk
    · rw [hj, hk]
    · cases hp
      exact absurd hpq.symm (hfresh.name k q hq)
    · cases hq
      exact absurd hpq (hfresh.name j p hp)
    · exact h.name j k p q hp hq hpq
  · intro j k p q hp hq hpq
    rw [hget] at hp hq
    split_ifs at hp hq with hj hk hk
    · rw [hj, hk]
    · cases hp
      exact absurd hpq.symm (hfresh.uuid k q hq)
    · cases hq
      exact absurd hpq (hfresh.uuid j p hp)
    · exact h.uuid j k p q hp hq hpq

theorem sound_update {db : Database} (h : db.Sound)
    (hname : ∀ p, db.profiles.get? i = some p → (f p).name = p.name ∨
      db.isNameTaken (f p).name (some i) = false) (huuid : ∀ p, (f p).uuid = p.uuid)
    (harchived : (∀ p, (f p).isArchived = p.isArchived ∨ (f p).isArchived = false) ∨
      ∀ row, db.state = some row → row.activeProfile ≠ i ∧ row.defaultProfile ≠ i)
    (hrefers : (db.update i f).Refers) : (db.update i f).Sound := by
  have hget := db.get?_update i
  obtain ⟨state, hrow, hactive, hdefault⟩ := h.state
  have hkeep {j : ℕ} (hj : db.Usable j) (hne : (∀ p, (f p).isArchived = p.isArchived ∨
      (f p).isArchived = false) ∨ j ≠ i) : (db.update i f).Usable j := by
    obtain ⟨p, hp, hused⟩ := hj
    by_cases hji : j = i
    · subst hji
      refine ⟨f p, by rw [hget, if_pos rfl, hp]; rfl, ?_⟩
      rcases hne.resolve_right (fun hne => hne rfl) p with hsame | hfalse
      · exact hsame.trans hused
      · exact hfalse
    · exact ⟨p, by rw [hget, if_neg hji, hp], hused⟩
  have hnames {j : ℕ} {p q : Profile} (hp : db.profiles.get? i = some p)
      (hq : db.profiles.get? j = some q) (hpq : (f p).name = q.name) : i = j := by
    rcases hname p hp with hsame | hfree
    · exact h.name i j p q hp hq (hsame.symm.trans hpq)
    · exact (Option.some.inj (isNameTaken_eq_false_iff.mp hfree j q hq hpq.symm)).symm
  refine ⟨⟨state, (db.update_rest i f).1.trans hrow, ?_, ?_⟩, ?_, ?_, hrefers⟩
  · exact hkeep hactive (harchived.imp_right fun hne => (hne state hrow).1)
  · exact hkeep hdefault (harchived.imp_right fun hne => (hne state hrow).2)
  · intro j k p q hp hq hpq
    rw [hget] at hp hq
    split_ifs at hp hq with hj hk hk
    · rw [hj, hk]
    · obtain ⟨p', hp', rfl⟩ := Option.map_eq_some_iff.mp hp
      rw [hj]
      exact hnames hp' hq hpq
    · obtain ⟨q', hq', rfl⟩ := Option.map_eq_some_iff.mp hq
      rw [hk]
      exact (hnames hq' hp hpq.symm).symm
    · exact h.name j k p q hp hq hpq
  · intro j k p q hp hq hpq
    rw [hget] at hp hq
    split_ifs at hp hq with hj hk hk
    · rw [hj, hk]
    · obtain ⟨p', hp', rfl⟩ := Option.map_eq_some_iff.mp hp
      rw [hj]
      exact h.uuid i k p' q hp' hq ((huuid p').symm.trans hpq)
    · obtain ⟨q', hq', rfl⟩ := Option.map_eq_some_iff.mp hq
      rw [hk]
      exact h.uuid j i p q' hp hq' (hpq.trans (huuid q'))
    · exact h.uuid j k p q hp hq hpq

/-- The profiles stay, or some that are not in use go. -/
theorem sound_of_subset {db db' : Database} (h : db.Sound)
    (hprofiles : ∀ i p, db'.profiles.get? i = some p → db.profiles.get? i = some p)
    (hstate : ∃ row, db'.state = some row ∧ db'.Usable row.activeProfile ∧
      db'.Usable row.defaultProfile) (hrefers : db'.Refers) : db'.Sound where
  state := hstate
  name i j p q hp hq := h.name i j p q (hprofiles i p hp) (hprofiles j q hq)
  uuid i j p q hp hq := h.uuid i j p q (hprofiles i p hp) (hprofiles j q hq)
  refers := hrefers

theorem Justified.sound {owns : Row → Prop} {db : Database}
    (hw : Justified owns db call ws) (h : db.Sound)
    (hrefers : (ws.foldl Database.apply db).Refers) : (ws.foldl Database.apply db).Sound := by
  cases hw with
  | nothing => exact h
  | insert hrows hfresh => exact sound_insert h hfresh rfl rfl hrefers
  | clone hrows hfresh => exact sound_insert h hfresh rfl rfl hrefers
  | @edit _ i e hrows husable hname =>
    refine sound_update h (fun p hp => ?_) (fun p => rfl) (.inl fun p => .inl rfl) hrefers
    cases hn : e.name with
    | none => simp [Edit.apply, hn]
    | some n =>
      right
      simpa [Edit.apply, hn] using hname n hn
  | archive hstate hrow hactive hdefault =>
    refine sound_update h (fun p hp => .inl rfl) (fun p => rfl) (.inr fun row hrow' => ?_) hrefers
    rw [hrow] at hrow'
    cases hrow'
    exact ⟨hactive, hdefault⟩
  | restore =>
    exact sound_update h (fun p hp => .inl rfl) (fun p => rfl) (.inl fun p => .inr rfl) hrefers
  | @activate i row p hstate hi hj hrow hp hactive husable =>
    obtain ⟨state, hstate', -, hdefault⟩ := h.state
    refine sound_of_subset h (fun j q hq => hq) ⟨{ state with activeProfile := i }, ?_, husable,
      hdefault⟩ hrefers
    simp [Database.apply, hstate']
  | @setDefault _ i hi husable =>
    obtain ⟨state, hstate', hactive, -⟩ := h.state
    refine sound_of_subset h (fun j q hq => hq) ⟨{ state with defaultProfile := i }, ?_, hactive,
      husable⟩ hrefers
    simp [Database.apply, hstate']
  | @delete _ i row hstate hrow hactive hdefault =>
    obtain ⟨state, hstate', hused, hused'⟩ := h.state
    rw [hrow] at hstate'
    cases hstate'
    refine sound_of_subset h (fun j q hq => ?_) ⟨row, hrow, ?_, ?_⟩ hrefers
    · simp only [List.foldl_cons, List.foldl_nil, Database.apply, Dict.get?_erase] at hq
      split_ifs at hq
      exact hq
    · exact hused.of_get? fun p hp => ⟨p, by simp [Database.apply, Dict.get?_erase, hactive, hp], id⟩
    · exact hused'.of_get? fun p hp => ⟨p, by simp [Database.apply, Dict.get?_erase, hdefault, hp], id⟩
  | changeRows change =>
    obtain ⟨state, hstate', hused, hused'⟩ := h.state
    cases change <;> exact sound_of_subset h (fun j q hq => hq) ⟨state, hstate', hused, hused'⟩ hrefers

end IsadoraAir.ScheduleProfiles
