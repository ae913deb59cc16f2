import IsadoraAir.ScheduleProfiles.Safety

/-!
# Lifecycle of the schedule profiles

What holds in every run of requests by any number of operators, and what every
step of it keeps.
-/

namespace IsadoraAir.ScheduleProfiles

variable {uuid : Uuid} {α : Type} [DecidableEq α] {s : State α}

/-- What the runs keep: soundness, and that answers come with the commit. -/
structure Reachable (s : State α) : Prop where
  sound : operators.Sound assertions s
  answers : Crew.Tasks (fun task => CommitsLast task.rest) s

theorem initial_reachable {db : Database} (h : db.Sound) : Reachable (initial db : State α) :=
  ⟨initial_sound h, nofun⟩

theorem step_reachable (e : Event α) (h : Reachable s) : Reachable (step e s) :=
  ⟨lawful.step_sound h.sound e,
    Crew.step_tasks program_commitsLast (fun _ _ _ _ hnext r => hnext.next r) h.answers e⟩

theorem run_reachable (h : Reachable s) (events : List (Event α)) :
    Reachable (Runs.run step events s) :=
  Runs.invariant (P := fun _ _ => True) (I := Reachable) (fun e _ _ hs => step_reachable e hs) h
    (Runs.throughout_true events s)

/-! ## The steps that change the tables -/

theorem exec_db {c : Choice} {a : α} {x : Action} {s s' : Shared α} {r : x.Result}
    (h : exec c a x s = some (r, s')) (hx : x ≠ .commit) : s'.db = s.db := by
  cases exec_effect h with
  | commit hrefers => exact absurd rfl hx
  | _ => rfl

/-- The step commits what the operator has written to answer the call. -/
structure Commits (a : α) (call : Call) (e : Event α) (s : State α) : Prop where
  acts : ∃ choice, e = .act a choice
  task : ∃ done next, s.task a = some ⟨call, done, .act .commit next⟩
  answered : ∃ done answer, (step e s).task a = some ⟨call, done, .pure answer⟩
  db : (step e s).shared.db = (s.shared.pending a).foldl Database.apply s.shared.db
  justified : Justified (Owns s.shared a) s.shared.db call (s.shared.pending a)
  refers : (step e s).shared.db.Refers

theorem step_db (e : Event α) (h : Reachable s) :
    (step e s).shared.db = s.shared.db ∨ ∃ a call, Commits a call e s := by
  rcases Crew.step_shared operators program e s with hsame | ⟨a, hrollback⟩ |
    ⟨a, choice, call, done, x, next, r, he, htask, hexec, hnext⟩
  · exact .inl (congrArg Sessions.db hsame)
  · left
    change (operators.step program e s).shared.db = s.shared.db
    rw [hrollback]
    rfl
  · by_cases hx : x = .commit
    · subst hx
      rcases commitRows_eq_some hexec with ⟨rfl, hrefers, hcommit⟩ | ⟨-, hrollback⟩
      · right
        have hanswer := h.answers a _ htask
        cases hanswer with
        | act hx _ => exact absurd rfl hx
        | @commit _ answer hok _ =>
          refine ⟨a, call, ⟨choice, he⟩, ⟨done, next, htask⟩, ⟨_, answer, hok ▸ hnext⟩,
            congrArg Sessions.db hcommit, h.sound.during htask, ?_⟩
          have hdb : (step e s).shared.db = view s.shared a := congrArg Sessions.db hcommit
          rw [hdb]
          exact hrefers
      · left
        change (operators.step program e s).shared.db = s.shared.db
        rw [hrollback]
        rfl
    · exact .inl (exec_db hexec hx)

/-! ## What a justified commit changes -/

/-- The profile that is active has this UUID. -/
def Database.ActiveIs (db : Database) (uuid : Uuid) : Prop :=
  ∃ row p, db.state = some row ∧ db.profiles.get? row.activeProfile = some p ∧ p.uuid = uuid

def Database.activeProfile (db : Database) : Option ℕ := db.state.map StateRow.activeProfile

section

variable {owns : Row → Prop} {db : Database} {call : Call} {ws : List Write}

/-- What an archived profile is called stays. -/
theorem Justified.frozen (h : Justified owns db call ws) {i : ℕ} {p q : Profile}
    (hp : db.profiles.get? i = some p) (harchived : p.isArchived = true)
    (hq : (ws.foldl Database.apply db).profiles.get? i = some q) :
    q.name = p.name ∧ q.description = p.description ∧ q.sortOrder = p.sortOrder := by
  have hsame (h : db.profiles.get? i = some q) :
      q.name = p.name ∧ q.description = p.description ∧ q.sortOrder = p.sortOrder := by
    rw [hp] at h
    cases h
    exact ⟨rfl, rfl, rfl⟩
  cases h with
  | nothing => exact hsame hq
  | @insert _ j row hrows hfresh | @clone _ j row blocks hrows hfresh =>
    simp only [List.foldl_cons, List.foldl_nil, Database.apply, Dict.get?_insert] at hq
    split_ifs at hq with hi
    · rw [hi, hfresh.profile] at hp
      cases hp
    · exact hsame hq
  | @edit _ j e hrows husable hname =>
    simp only [List.foldl_cons, List.foldl_nil, Database.apply, Database.get?_update] at hq
    split_ifs at hq with hi
    · obtain ⟨p', hp', hused⟩ := husable
      rw [hi, hp'] at hp
      cases hp
      rw [hused] at harchived
      cases harchived
    · exact hsame hq
  | @archive _ j row hstate hrow hactive hdefault =>
    simp only [List.foldl_cons, List.foldl_nil, Database.apply, Database.get?_update] at hq
    split_ifs at hq with hi
    · rw [← hi, hp] at hq
      cases hq
      exact ⟨rfl, rfl, rfl⟩
    · exact hsame hq
  | @restore _ j =>
    simp only [List.foldl_cons, List.foldl_nil, Database.apply, Database.get?_update] at hq
    split_ifs at hq with hi
    · rw [← hi, hp] at hq
      cases hq
      exact ⟨rfl, rfl, rfl⟩
    · exact hsame hq
  | activate | setDefault => exact hsame hq
  | @delete _ j row hstate hrow hactive hdefault =>
    simp only [List.foldl_cons, List.foldl_nil, Database.apply, Dict.get?_erase] at hq
    split_ifs at hq
    exact hsame hq
  | changeRows change =>
    cases change <;> exact hsame hq

/-- Only a profile that nothing refers to goes. -/
theorem Justified.deleted (h : Justified owns db call ws)
    (hrefers : (ws.foldl Database.apply db).Refers) {i : ℕ} {p : Profile}
    (hp : db.profiles.get? i = some p)
    (hdeleted : (ws.foldl Database.apply db).profiles.get? i = none) : ¬db.IsUsed i := by
  have hgone := Dict.get?_eq_none_iff.mp hdeleted
  have hkept (hsame : db.profiles.get? i = none) : ¬db.IsUsed i := by
    rw [hp] at hsame
    cases hsame
  have hupdate {j : ℕ} {f : Profile → Profile}
      (h : (db.update j f).profiles.get? i = none) : ¬db.IsUsed i := by
    rw [Database.get?_update] at h
    split_ifs at h with hi
    · rw [← hi, hp] at h
      cases h
    · exact hkept h
  cases h with
  | nothing => exact hkept hdeleted
  | insert hrows hfresh | clone hrows hfresh =>
    simp only [List.foldl_cons, List.foldl_nil, Database.apply, Dict.get?_insert] at hdeleted
    split_ifs at hdeleted
    exact hkept hdeleted
  | edit => exact hupdate hdeleted
  | archive => exact hupdate hdeleted
  | restore => exact hupdate hdeleted
  | activate | setDefault => exact hkept hdeleted
  | delete hstate hrow hactive hdefault =>
    rintro (⟨block, hblock, rfl⟩ | hlog)
    · exact hgone (hrefers.1 block hblock)
    · exact hgone (hrefers.2.1 _ hlog i rfl)
  | changeRows change => cases change <;> exact hkept hdeleted

/-- Only an activation based on the active profile makes another one active. -/
theorem Justified.activation (h : Justified owns db call ws)
    (hactive : (ws.foldl Database.apply db).activeProfile ≠ db.activeProfile) :
    ∃ i row p, call = .activate i (.uuid p.uuid) ∧ db.state = some row ∧
      db.profiles.get? row.activeProfile = some p ∧ row.activeProfile ≠ i ∧ ws = [.activate i] := by
  have hupdate {j : ℕ} {f : Profile → Profile} :
      (db.update j f).activeProfile = db.activeProfile := by
    simp [Database.activeProfile, (db.update_rest j f).1]
  cases h with
  | activate hstate hi hj hrow hp hne husable => exact ⟨_, _, _, rfl, hrow, hp, hne, rfl⟩
  | edit => exact absurd hupdate hactive
  | archive => exact absurd hupdate hactive
  | restore => exact absurd hupdate hactive
  | @setDefault _ i hi husable =>
    refine absurd ?_ hactive
    cases hstate : db.state <;> simp [Database.activeProfile, Database.apply, hstate]
  | changeRows change => cases change <;> exact absurd rfl hactive
  | _ => exact absurd rfl hactive

/-- Otherwise the active profile keeps its UUID. -/
theorem Justified.activeIs (h : Justified owns db call ws) (hdb : db.Sound)
    (hactive : (ws.foldl Database.apply db).activeProfile = db.activeProfile)
    (huuid : (ws.foldl Database.apply db).ActiveIs uuid) : db.ActiveIs uuid := by
  obtain ⟨row, hrow, ⟨p, hp, -⟩, -⟩ := hdb.state
  obtain ⟨row', q, hrow', hq, rfl⟩ := huuid
  have hsame : row'.activeProfile = row.activeProfile := by
    simpa [Database.activeProfile, hrow, hrow'] using hactive
  rw [hsame] at hq
  refine ⟨row, p, hrow, hp, ?_⟩
  have hkept (h : db.profiles.get? row.activeProfile = some q) : p.uuid = q.uuid := by
    rw [hp] at h
    cases h
    rfl
  have hupdate {j : ℕ} {f : Profile → Profile}
      (h : (db.update j f).profiles.get? row.activeProfile = some q)
      (hf : ∀ p, (f p).uuid = p.uuid) : p.uuid = q.uuid := by
    rw [Database.get?_update] at h
    split_ifs at h with hi
    · rw [← hi, hp] at h
      cases h
      exact (hf p).symm
    · exact hkept h
  cases h with
  | nothing => exact hkept hq
  | insert hrows hfresh | clone hrows hfresh =>
    simp only [List.foldl_cons, List.foldl_nil, Database.apply, Dict.get?_insert] at hq
    split_ifs at hq with hi
    · rw [hi, hfresh.profile] at hp
      cases hp
    · exact hkept hq
  | edit => exact hupdate hq fun _ => rfl
  | archive => exact hupdate hq fun _ => rfl
  | restore => exact hupdate hq fun _ => rfl
  | activate | setDefault => exact hkept hq
  | delete =>
    simp only [List.foldl_cons, List.foldl_nil, Database.apply, Dict.get?_erase] at hq
    split_ifs at hq
    exact hkept hq
  | changeRows change => cases change <;> exact hkept hq

end

/-! ## The lifecycle -/

/-- The operator's activation, based on the profile that it expects, makes another one active. -/
structure Activates (expected target : Uuid) (e : Event α) (s : State α) : Prop where
  answers : ∃ a choice i done m, e = .act a choice ∧
    s.task a = some ⟨.activate i (.uuid expected), done, m⟩
  changes : (step e s).shared.db.activeProfile ≠ s.shared.db.activeProfile
  target : (step e s).shared.db.ActiveIs target

/-- What one step keeps. -/
structure Kept (e : Event α) (s : State α) : Prop where
  frozen : ∀ i p q, s.shared.db.profiles.get? i = some p → p.isArchived = true →
    (step e s).shared.db.profiles.get? i = some q →
    q.name = p.name ∧ q.description = p.description ∧ q.sortOrder = p.sortOrder
  deleted : ∀ i p, s.shared.db.profiles.get? i = some p →
    (step e s).shared.db.profiles.get? i = none → ¬s.shared.db.IsUsed i
  answered : (step e s).shared.db ≠ s.shared.db → ∃ a call answer,
    (∃ choice, e = .act a choice) ∧ (∃ done x next, s.task a = some ⟨call, done, .act x next⟩) ∧
    ∃ done, (step e s).task a = some ⟨call, done, .pure answer⟩

theorem step_kept (e : Event α) (h : Reachable s) : Kept e s := by
  rcases step_db e h with hsame | ⟨a, call, hcommit⟩
  · refine ⟨fun i p q hp _ hq => ?_, fun i p hp hdeleted => ?_, fun hne => absurd hsame hne⟩
    · rw [hsame, hp] at hq
      cases hq
      exact ⟨rfl, rfl, rfl⟩
    · rw [hsame, hp] at hdeleted
      cases hdeleted
  · obtain ⟨done, answer, hanswer⟩ := hcommit.answered
    obtain ⟨done', next, htask⟩ := hcommit.task
    refine ⟨fun i p q hp harchived hq => ?_, fun i p hp hdeleted => ?_,
      fun _ => ⟨a, call, answer, hcommit.acts, ⟨done', _, next, htask⟩, done, hanswer⟩⟩
    · rw [hcommit.db] at hq
      exact hcommit.justified.frozen hp harchived hq
    · have hrefers := hcommit.refers
      rw [hcommit.db] at hdeleted hrefers
      exact hcommit.justified.deleted hrefers hp hdeleted

/-- Another UUID becomes the active one by an activation only. -/
theorem activates_of_activeIs {e : Event α} (h : Reachable s)
    (hbefore : ¬s.shared.db.ActiveIs uuid) (hafter : (step e s).shared.db.ActiveIs uuid) :
    ∃ expected, Activates expected uuid e s := by
  rcases step_db e h with hsame | ⟨a, call, hcommit⟩
  · rw [hsame] at hafter
    exact absurd hafter hbefore
  · by_cases hactive : (step e s).shared.db.activeProfile = s.shared.db.activeProfile
    · rw [hcommit.db] at hactive hafter
      exact absurd (hcommit.justified.activeIs h.sound.shared.sound hactive hafter) hbefore
    · have hchanges := hactive
      rw [hcommit.db] at hactive
      obtain ⟨i, row, p, rfl, -⟩ := hcommit.justified.activation hactive
      obtain ⟨choice, he⟩ := hcommit.acts
      obtain ⟨done, next, htask⟩ := hcommit.task
      exact ⟨p.uuid, ⟨a, choice, i, done, _, he, htask⟩, hchanges, hafter⟩

/-- An activation that changes the active profile was based on it. -/
theorem Activates.expected {e : Event α} (h : Reachable s) {expected target : Uuid}
    (hactivates : Activates expected target e s) :
    s.shared.db.ActiveIs expected ∧ ¬(step e s).shared.db.ActiveIs expected := by
  have hchanges := hactivates.changes
  rcases step_db e h with hsame | ⟨a, call, hcommit⟩
  · rw [hsame] at hchanges
    exact absurd rfl hchanges
  · have hsound := (step_reachable e h).sound.shared.sound
    obtain ⟨b, choice, j, done, m, he, hcall⟩ := hactivates.answers
    obtain ⟨choice', he'⟩ := hcommit.acts
    obtain ⟨done', next, htask⟩ := hcommit.task
    rw [he'] at he
    cases he
    rw [hcommit.db] at hchanges hsound
    obtain ⟨i, row, p, hcall', hrow, hp, hne, hws⟩ := hcommit.justified.activation hchanges
    rw [htask, hcall'] at hcall
    cases hcall
    refine ⟨⟨row, p, hrow, hp, rfl⟩, ?_⟩
    rintro ⟨row', q, hrow', hq, hqp⟩
    rw [hcommit.db, hws] at hrow' hq
    rw [hws] at hsound
    simp only [List.foldl_cons, List.foldl_nil, Database.apply, hrow, Option.map_some,
      Option.some.injEq] at hrow'
    subst hrow'
    exact hne (hsound.uuid _ _ p q hp hq hqp.symm)

/-- By induction on the run: the step at which the UUID becomes the active one. -/
theorem exists_activates (h : Reachable s) {events : List (Event α)}
    (hbefore : ¬s.shared.db.ActiveIs uuid)
    (hafter : (Runs.run step events s).shared.db.ActiveIs uuid) :
    ∃ first e last expected, events = first ++ e :: last ∧
      Activates expected uuid e (Runs.run step first s) := by
  induction events generalizing s with
  | nil => exact absurd hafter hbefore
  | cons e rest ih =>
    by_cases hactive : (step e s).shared.db.ActiveIs uuid
    · obtain ⟨expected, hactivates⟩ := activates_of_activeIs h hbefore hactive
      exact ⟨[], e, rest, expected, rfl, hactivates⟩
    · obtain ⟨first, e', last, expected, rfl, hactivates⟩ :=
        ih (step_reachable e h) hactive hafter
      exact ⟨e :: first, e', last, expected, rfl, hactivates⟩

/-- The profiles that are in use exist and are not archived; an archived profile keeps its name,
a profile that is referred to is kept, and a refused request changes nothing. Between two
activations that were based on the same profile, it has been activated again. -/
theorem profile_lifecycle {db : Database} (h : db.Sound) (events : List (Event α)) :
    (Runs.run step events (initial db)).shared.db.Sound ∧
    Runs.Throughout step Kept events (initial db) ∧
    ∀ before between after e₁ e₂ expected t₁ t₂,
      events = before ++ e₁ :: (between ++ e₂ :: after) →
      Activates expected t₁ e₁ (Runs.run step before (initial db)) →
      Activates expected t₂ e₂ (Runs.run step (before ++ e₁ :: between) (initial db)) →
      ∃ first e last expected', between = first ++ e :: last ∧
        Activates expected' expected e
          (Runs.run step (before ++ e₁ :: first) (initial db)) := by
  have hinitial : Reachable (initial db : State α) := initial_reachable h
  refine ⟨(run_reachable hinitial events).sound.shared.sound, ?_, ?_⟩
  · exact Runs.throughout_of_invariant (P := fun _ _ => True) (I := Reachable)
      (fun e _ _ hs => step_reachable e hs) (fun e _ _ hs => step_kept e hs) hinitial
      (Runs.throughout_true events _)
  · intro before between after e₁ e₂ expected t₁ t₂ _ hfirst hsecond
    have hbefore := run_reachable hinitial before
    obtain ⟨-, hleft⟩ := hfirst.expected hbefore
    have hmiddle := run_reachable hinitial (before ++ e₁ :: between)
    obtain ⟨hback, -⟩ := hsecond.expected hmiddle
    rw [Runs.run_append, Runs.run_cons] at hback
    obtain ⟨first, e, last, expected', hsplit, hactivates⟩ :=
      exists_activates (step_reachable e₁ hbefore) hleft hback
    refine ⟨first, e, last, expected', hsplit, ?_⟩
    rw [Runs.run_append, Runs.run_cons]
    exact hactivates

/-! ## A profile that is activated, left and activated again -/

def mornings : Profile := ⟨"a1", codePoints "Mornings", [], 10, false⟩

def holidays : Profile := ⟨"b2", codePoints "Holidays", [], 20, false⟩

def station : Database where
  profiles := ⟨[(1, mornings), (2, holidays)], by decide⟩
  state := some ⟨1, 1⟩
  blocks := []
  logs := [some 1]

theorem station_sound : station.Sound := by
  have hprofiles (i : ℕ) (p : Profile) (hp : station.profiles.get? i = some p) :
      (i = 1 ∧ p = mornings) ∨ (i = 2 ∧ p = holidays) := by
    have hmem := Dict.get?_eq_some_iff.mp hp
    simpa [station] using hmem
  refine ⟨⟨⟨1, 1⟩, rfl, ⟨mornings, rfl, rfl⟩, ⟨mornings, rfl, rfl⟩⟩, ?_, ?_, by decide⟩
  · intro i j p q hp hq hpq
    rcases hprofiles i p hp with ⟨rfl, rfl⟩ | ⟨rfl, rfl⟩ <;>
      rcases hprofiles j q hq with ⟨rfl, rfl⟩ | ⟨rfl, rfl⟩ <;> first | rfl | exact absurd hpq (by decide)
  · intro i j p q hp hq hpq
    rcases hprofiles i p hp with ⟨rfl, rfl⟩ | ⟨rfl, rfl⟩ <;>
      rcases hprofiles j q hq with ⟨rfl, rfl⟩ | ⟨rfl, rfl⟩ <;> first | rfl | exact absurd hpq (by decide)

def proceed (operator : ℕ) : Event ℕ := .act operator ⟨3, "c3", true⟩

/-- An activation up to its commit. -/
def activation (operator profile : ℕ) (expected : Uuid) : List (Event ℕ) :=
  .start operator (.activate profile (.uuid expected)) :: List.replicate 4 (proceed operator)

/-- Two operators have seen "Mornings" active; in between, a third one has gone back to it. -/
def alternation : List (Event ℕ) :=
  activation 0 2 "a1" ++ proceed 0 :: (activation 1 1 "b2" ++ proceed 1 :: activation 2 2 "a1" ++
    proceed 2 :: [])

theorem profile_lifecycle_alternation :
    (Runs.run step alternation (initial station)).shared.db.Sound ∧
    Runs.Throughout step Kept alternation (initial station) ∧
    ∀ before between after e₁ e₂ expected t₁ t₂,
      alternation = before ++ e₁ :: (between ++ e₂ :: after) →
      Activates expected t₁ e₁ (Runs.run step before (initial station)) →
      Activates expected t₂ e₂ (Runs.run step (before ++ e₁ :: between) (initial station)) →
      ∃ first e last expected', between = first ++ e :: last ∧
        Activates expected' expected e
          (Runs.run step (before ++ e₁ :: first) (initial station)) :=
  profile_lifecycle station_sound alternation

/-- Both activations of "Holidays" were based on "Mornings", and both change the active profile. -/
theorem same_expectation_changes_twice :
    ¬∀ (db : Database) (before between : List (Event ℕ)) (e₁ e₂ : Event ℕ)
      (expected t₁ t₂ : Uuid), db.Sound →
      Activates expected t₁ e₁ (Runs.run step before (initial db)) →
      ¬Activates expected t₂ e₂ (Runs.run step (before ++ e₁ :: between) (initial db)) := by
  intro h
  refine h station (activation 0 2 "a1") (activation 1 1 "b2" ++ proceed 1 :: activation 2 2 "a1")
    (proceed 0) (proceed 2) "a1" "b2" "b2" station_sound ?_ ?_
  · exact ⟨⟨0, _, 2, _, _, rfl, rfl⟩, by decide, ⟨_, _, rfl, rfl, rfl⟩⟩
  · exact ⟨⟨2, _, 2, _, _, rfl, rfl⟩, by decide, ⟨_, _, rfl, rfl, rfl⟩⟩

end IsadoraAir.ScheduleProfiles
