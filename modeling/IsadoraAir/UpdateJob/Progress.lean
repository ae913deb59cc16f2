import IsadoraAir.UpdateJob.Ledger

/-!
# What an action does to the ledgers

A record that is replaced and an effect that is made each keep the ledgers when
the job is entitled to them. Everything else leaves them alone.
-/

namespace IsadoraAir.UpdateJob

open Releases (TrustedPlan PlanValues Repository)

variable {repository : Repository} {w w' : World} {job job' : JobId} {state state' : JobState}

/-! ## Records -/

def World.put (w : World) (state : JobState) : World := { w with store := w.store.write state }

theorem World.stateOf_put (w : World) (state : JobState) (job : JobId) :
    (w.put state).stateOf job =
      if job = state.jobId then some { state with updatedAt := w.store.clock } else w.stateOf job :=
  Dict.get?_insert ..

/-- A write may or may not replace the record, and does when it succeeds. -/
theorem World.writing_cases (w : World) (answer : Write) (state : JobState) :
    (∃ failure, (w.writing answer state).1 = .error failure) ∧ (w.writing answer state).2 = w ∨
      (w.writing answer state).2 = w.put state := by
  cases answer with
  | done => exact .inr rfl
  | refused failure => exact .inl ⟨⟨failure, rfl⟩, rfl⟩
  | torn failure => exact .inr rfl

theorem World.view_put_of_ne (hne : job ≠ state.jobId) : (w.put state).view job = w.view job := by
  simp only [World.view, World.milestonesOf, World.stateOf_put, if_neg hne]
  rfl

theorem World.view_put (w : World) (state : JobState) :
    (w.put state).view state.jobId =
      { w.view state.jobId with
        marks := {m | 0 < m.stage ∧ m ∈ state.milestones}
        fingerprint := state.expectedPlanFingerprint
        plan := state.trustedPlan.map TrustedPlan.toPlanValues } := by
  simp only [World.view, World.milestonesOf, World.stateOf_put]
  rfl

theorem World.view_marks (h : w.stateOf job = some state) :
    (w.view job).marks = {m | 0 < m.stage ∧ m ∈ state.milestones} := by
  simp only [World.view, World.milestonesOf, h, Option.elim_some]

theorem World.view_plan (h : w.stateOf job = some state) :
    (w.view job).plan = state.trustedPlan.map TrustedPlan.toPlanValues := by
  simp only [World.view, h, Option.bind_some]

theorem World.view_fingerprint (h : w.stateOf job = some state) :
    (w.view job).fingerprint = state.expectedPlanFingerprint := by
  simp only [World.view, h, Option.elim_some]

/-- The plan that a change leaves on record. -/
def Change.planAfter (plan : Option PlanValues) : Change → Option PlanValues
  | .trustedPlan p => some p.toPlanValues
  | _ => plan

theorem World.view_put_change (h : w.stateOf job = some state) (hid : state.jobId = job)
    (change : Change) :
    (w.put (state.change change)).view job =
      { w.view job with plan := change.planAfter (w.view job).plan } := by
  subst hid
  have hview := w.view_put (state.change change)
  rw [state.change_jobId] at hview
  rw [hview, state.change_milestones, World.view_plan h]
  have hmarks := World.view_marks h
  have hfingerprint := World.view_fingerprint h
  cases hv : w.view state.jobId
  rw [hv] at hmarks hfingerprint
  subst hmarks hfingerprint
  cases change <;> rfl

theorem World.view_put_addMilestone (h : w.stateOf job = some state) (hid : state.jobId = job)
    (name : Milestone) :
    (w.put (state.addMilestone name)).view job =
      if 0 < name.stage then (w.view job).mark name else w.view job := by
  subst hid
  have hview : (w.put (state.addMilestone name)).view state.jobId =
      { w.view state.jobId with
        marks := {m | 0 < m.stage ∧ m ∈ (state.addMilestone name).milestones}
        fingerprint := state.expectedPlanFingerprint
        plan := state.trustedPlan.map TrustedPlan.toPlanValues } :=
    w.view_put (state.addMilestone name)
  rw [hview]
  have hmarks := World.view_marks h
  have hfingerprint := World.view_fingerprint h
  have hplan := World.view_plan h
  have hset : {m | 0 < m.stage ∧ m ∈ (state.addMilestone name).milestones} =
      if 0 < name.stage then insert name (w.view state.jobId).marks
        else (w.view state.jobId).marks := by
    ext m
    rw [hmarks]
    split_ifs with hstage <;> simp only [Set.mem_ofPred_eq, Set.mem_insert_iff,
      JobState.mem_addMilestone]
    · constructor
      · rintro ⟨hm, rfl | hmem⟩
        · exact .inl rfl
        · exact .inr ⟨hm, hmem⟩
      · rintro (rfl | ⟨hm, hmem⟩)
        · exact ⟨hstage, .inl rfl⟩
        · exact ⟨hm, .inr hmem⟩
    · constructor
      · rintro ⟨hm, rfl | hmem⟩
        · exact absurd hm hstage
        · exact ⟨hm, hmem⟩
      · rintro ⟨hm, hmem⟩
        exact ⟨hm, .inr hmem⟩
  rw [hset]
  cases hv : w.view state.jobId
  rw [hv] at hfingerprint hplan
  subst hfingerprint hplan
  split_ifs <;> rfl

/-- The record of a job is replaced by one that belongs to what was done. -/
theorem Ledger.put (h : Ledger repository w) (hstate : w.stateOf state'.jobId = some state)
    (hactive : state'.status.terminal = false → state.status.terminal = false)
    (hbooks : Books repository state' ((w.put state').view state'.jobId)) :
    Ledger repository (w.put state') where
  named job found hfound := by
    rw [World.stateOf_put] at hfound
    split_ifs at hfound with hjob
    · cases hfound
      exact hjob.symm
    · exact h.named job found hfound
  books job found hfound := by
    rw [World.stateOf_put] at hfound
    split_ifs at hfound with hjob
    · cases hfound
      subst hjob
      exact ⟨hbooks.plans, hbooks.trail, hbooks.placed, hbooks.succeeded⟩
    · rw [World.view_put_of_ne hjob]
      exact h.books job found hfound
  single job job' found found' hfound hfound' hterminal hterminal' := by
    have hbefore : ∀ j s, (w.put state').stateOf j = some s → s.status.terminal = false →
        ∃ s', w.stateOf j = some s' ∧ s'.status.terminal = false := by
      intro j s hs hs'
      rw [World.stateOf_put] at hs
      split_ifs at hs with hj
      · cases hs
        subst hj
        exact ⟨state, hstate, hactive hs'⟩
      · exact ⟨s, hs, hs'⟩
    obtain ⟨s, hs, hs'⟩ := hbefore _ _ hfound hterminal
    obtain ⟨t, ht, ht'⟩ := hbefore _ _ hfound' hterminal'
    exact h.single job job' s t hs ht hs' ht'
  owned e he := by
    obtain ⟨found, hfound⟩ := h.owned e he
    rw [World.stateOf_put]
    split_ifs with hjob
    · exact ⟨_, rfl⟩
    · exact ⟨found, hfound⟩

/-- A change of the record of a job. -/
theorem Ledger.change (h : Ledger repository w) (hstate : w.stateOf job = some state)
    {change : Change}
    (hactive : (state.change change).status.terminal = false → state.status.terminal = false)
    (hplan : ∀ plan, change = .trustedPlan plan → Derives repository plan ∧
      plan.fingerprint = state.expectedPlanFingerprint ∧
      (∀ p, (w.view job).plan = some p → p = plan.toPlanValues) ∧
      ((w.view job).plan = none → w.head = plan.installedCommit))
    (hsucceeded : change = .succeeded → .servicesRestarted ∈ (w.view job).marks) :
    Ledger repository (w.put (state.change change)) := by
  obtain rfl := h.named job state hstate
  have hbooks := h.books _ _ hstate
  have hview := World.view_put_change hstate rfl change
  refine h.put (by rwa [state.change_jobId]) hactive ?_
  rw [state.change_jobId, hview]
  cases change with
  | trustedPlan plan =>
    obtain ⟨hderives, hfingerprint, hsame, hinstalled⟩ := hplan plan rfl
    have hplans : ∀ plan', (state.change (.trustedPlan plan)).trustedPlan = some plan' →
        Derives repository plan' ∧ plan'.fingerprint = state.expectedPlanFingerprint := by
      rintro plan' ⟨rfl⟩
      exact ⟨hderives, hfingerprint⟩
    cases hrecorded : (w.view state.jobId).plan with
    | none =>
      refine ⟨hplans, hbooks.trail.planned hrecorded _, fun _ p hp => ?_, hbooks.succeeded⟩
      obtain rfl : plan.toPlanValues = p := Option.some.inj hp
      refine ⟨fun hadvanced => ?_, fun _ => hinstalled hrecorded⟩
      obtain ⟨e, he, -⟩ := hadvanced
      rw [show _ = [] from (hbooks.trail.unplanned hrecorded).2] at he
      cases he
    | some p =>
      have hsame : ({ w.view state.jobId with plan := some plan.toPlanValues } : View) =
          w.view state.jobId := by
        rw [← hsame p hrecorded, ← hrecorded]
      rw [show Change.planAfter _ _ = some plan.toPlanValues from rfl, hsame]
      exact ⟨hplans, hbooks.trail, hbooks.placed, hbooks.succeeded⟩
  | running =>
    exact ⟨hbooks.plans, hbooks.trail, fun _ => hbooks.placed (hactive rfl), nofun⟩
  | succeeded => exact ⟨hbooks.plans, hbooks.trail, nofun, fun _ => hsucceeded rfl⟩
  | failed classification manual =>
    refine ⟨hbooks.plans, hbooks.trail, fun hterminal => ?_, fun hstatus => ?_⟩
    · exact hbooks.placed (hactive hterminal)
    · have hne : (state.change (.failed classification manual)).status ≠ .succeeded := by
        cases manual <;> nofun
      exact absurd hstatus hne
  | _ => exact ⟨hbooks.plans, hbooks.trail, hbooks.placed, hbooks.succeeded⟩

/-- An active job records a milestone that it is entitled to. -/
theorem Ledger.addMilestone (h : Ledger repository w) (hstate : w.stateOf job = some state)
    (hactive : state.status.terminal = false) {name : Milestone}
    (hentitled : 0 < name.stage → (w.view job).plan ≠ none ∧ (w.view job).Entitled name) :
    Ledger repository (w.put (state.addMilestone name)) := by
  obtain rfl := h.named job state hstate
  have hbooks := h.books _ _ hstate
  have hown : w.stateOf (state.addMilestone name).jobId = some state := hstate
  refine h.put hown (fun _ => hactive) ?_
  show Books _ _ ((w.put (state.addMilestone name)).view state.jobId)
  rw [World.view_put_addMilestone hstate rfl]
  split_ifs with hstage
  · obtain ⟨hplan, hname⟩ := hentitled hstage
    exact ⟨hbooks.plans, hbooks.trail.mark hplan hname, fun _ => hbooks.placed hactive, nofun⟩
  · exact ⟨hbooks.plans, hbooks.trail, fun _ => hbooks.placed hactive, nofun⟩

/-! ## Effects -/

/-- The effect that a job makes now. -/
def World.effectOf (w : World) (job : JobId) (kind : EffectKind) (ok : Bool) : Effect :=
  ⟨job, kind, ok, w.executions, w.head, w.milestonesOf job⟩

theorem World.view_effect (w : World) (job : JobId) (kind : EffectKind) (ok : Bool) :
    (w.effect job kind ok).view job = (w.view job).append (w.effectOf job kind ok) := by
  simp only [World.view, World.effect, View.append, List.filter_append]
  congr 1
  simp [World.effectOf]

theorem World.view_effect_of_ne (hne : job' ≠ job) (kind : EffectKind) (ok : Bool) :
    (w.effect job kind ok).view job' = w.view job' := by
  simp only [World.view, World.effect, List.filter_append]
  congr 1
  simp [hne.symm]

/-- The active job makes an effect, and may move the live source by it. -/
theorem Ledger.effect (h : Ledger repository w) (hstate : w.stateOf job = some state)
    (hactive : state.status.terminal = false) {kind : EffectKind} {ok : Bool} {head : String}
    (htrail : Trail ((w.view job).append (w.effectOf job kind ok)))
    (hplaced : View.Placed { (w.view job).append (w.effectOf job kind ok) with head := head }) :
    Ledger repository { w.effect job kind ok with head := head } where
  named := h.named
  books j found hfound := by
    have hfound : w.stateOf j = some found := hfound
    have hbooks := h.books j found hfound
    by_cases hj : j = job
    · subst hj
      obtain rfl : state = found := Option.some.inj (hstate.symm.trans hfound)
      have hview : World.view { w.effect j kind ok with head := head } j =
          { (w.view j).append (w.effectOf j kind ok) with head := head } := by
        rw [← w.view_effect j kind ok]
        rfl
      rw [hview]
      exact ⟨hbooks.plans, ⟨htrail.unplanned, htrail.entitled, htrail.fits, htrail.known,
        htrail.follows⟩, fun _ => hplaced, hbooks.succeeded⟩
    · have hview : World.view { w.effect job kind ok with head := head } j =
          { w.view j with head := head } := by
        rw [← w.view_effect_of_ne hj kind ok]
        rfl
      rw [hview]
      have htrail := hbooks.trail
      refine ⟨hbooks.plans, ⟨htrail.unplanned, htrail.entitled, htrail.fits, htrail.known,
        htrail.follows⟩, fun hterminal => ?_, hbooks.succeeded⟩
      -- another job is not active
      exact absurd (h.single _ _ _ _ hfound hstate hterminal hactive) hj
  single := h.single
  owned e he := by
    rcases List.mem_append.mp he with he | he
    · exact h.owned e he
    · rw [List.mem_singleton.mp he]
      exact ⟨state, hstate⟩

/-! ## Everything else -/

/-- The records, the live source and the effects are the same. -/
structure Alike (w w' : World) : Prop where
  store : w'.store.records = w.store.records
  head : w'.head = w.head
  effects : w'.effects = w.effects
  executions : w'.executions = w.executions

theorem Alike.refl (w : World) : Alike w w := ⟨rfl, rfl, rfl, rfl⟩

theorem Alike.stateOf (h : Alike w w') (job : JobId) : w'.stateOf job = w.stateOf job :=
  congrArg (fun records : Dict JobId JobState => records.get? job) h.store

theorem Alike.view (h : Alike w w') (job : JobId) : w'.view job = w.view job := by
  simp only [World.view, World.milestonesOf, h.stateOf, h.head, h.effects, h.executions]

theorem Ledger.alike (hledger : Ledger repository w) (h : Alike w w') : Ledger repository w' where
  named job state hstate := hledger.named job state (h.stateOf job ▸ hstate)
  books job state hstate := by
    rw [h.view]
    exact hledger.books job state (h.stateOf job ▸ hstate)
  single job job' state state' hstate hstate' :=
    hledger.single job job' state state' (h.stateOf job ▸ hstate) (h.stateOf job' ▸ hstate')
  owned e he := by
    rw [h.effects] at he
    rw [h.stateOf]
    exact hledger.owned e he

theorem Ledger.beginExecution (h : Ledger repository w) : Ledger repository w.beginExecution where
  named := h.named
  books job state hstate := by
    have hbooks := h.books job state hstate
    have htrail := hbooks.trail
    exact ⟨hbooks.plans, ⟨htrail.unplanned, htrail.entitled, htrail.fits, htrail.known,
      htrail.follows⟩, hbooks.placed, hbooks.succeeded⟩
  single := h.single
  owned := h.owned

/-- A job is only accepted when it is new and no other is active. -/
theorem World.accept_cases (w : World) (job : JobId) (targetRelease fingerprint : String) :
    w.accept job targetRelease fingerprint = w ∨
      w.stateOf job = none ∧
        (∀ job' state, w.stateOf job' = some state → state.status.terminal = true) ∧
        w.accept job targetRelease fingerprint =
          w.put (.fresh job targetRelease fingerprint w.store.clock) := by
  unfold accept JobStore.accept
  cases hstate : w.store.records.get? job with
  | some state => exact .inl rfl
  | none =>
    dsimp only
    split_ifs with hany
    · exact .inl rfl
    · refine .inr ⟨hstate, fun job' state hfound => ?_, rfl⟩
      by_contra hterminal
      refine hany (List.any_eq_true.mpr ⟨state, Dict.mem_values_of_get? hfound, ?_⟩)
      simpa using hterminal

theorem Ledger.accept (h : Ledger repository w) (targetRelease fingerprint : String) :
    Ledger repository (w.accept job targetRelease fingerprint) := by
  rcases w.accept_cases job targetRelease fingerprint with heq | ⟨hnone, hterminal, heq⟩
  · rwa [heq]
  rw [heq]
  have hlog : (w.view job).log = [] := by
    refine List.filter_eq_nil_iff.mpr fun e he => ?_
    obtain ⟨state, hstate⟩ := h.owned e he
    simp only [decide_eq_true_eq]
    rintro rfl
    rw [hnone] at hstate
    cases hstate
  generalize hfresh : JobState.fresh job targetRelease fingerprint w.store.clock = fresh
  have hid : fresh.jobId = job := hfresh ▸ rfl
  have hmilestones : fresh.milestones = [] := hfresh ▸ rfl
  have hplan : fresh.trustedPlan = none := hfresh ▸ rfl
  have hstatus : fresh.status = .accepted := hfresh ▸ rfl
  subst hid
  have hbooks : Books repository fresh ((w.put fresh).view fresh.jobId) := by
    rw [World.view_put]
    dsimp only
    rw [hlog, hmilestones, hplan]
    refine ⟨fun plan hsome => ?_, ⟨?_, ?_, ?_, ?_, ?_⟩, fun _ p hp => ?_, fun hsucceeded => ?_⟩
    · rw [hplan] at hsome
      cases hsome
    · simp
    · simp
    · simp
    · simp
    · simp
    · cases hp
    · rw [hstatus] at hsucceeded
      cases hsucceeded
  refine ⟨fun j found hfound => ?_, fun j found hfound => ?_, ?_, fun e he => ?_⟩
  · rw [World.stateOf_put] at hfound
    split_ifs at hfound with hj
    · cases hfound
      exact hj.symm
    · exact h.named j found hfound
  · rw [World.stateOf_put] at hfound
    split_ifs at hfound with hj
    · cases hfound
      subst hj
      exact ⟨hbooks.plans, hbooks.trail, hbooks.placed, hbooks.succeeded⟩
    · rw [World.view_put_of_ne hj]
      exact h.books j found hfound
  · have hself : ∀ j s, (w.put fresh).stateOf j = some s → s.status.terminal = false →
        j = fresh.jobId := by
      intro j s hs hs'
      rw [World.stateOf_put] at hs
      split_ifs at hs with hj
      · exact hj
      · rw [hterminal j s hs] at hs'
        cases hs'
    intro j j' s s' hs hs' ha ha'
    rw [hself j s hs ha, hself j' s' hs' ha']
  · obtain ⟨found, hfound⟩ := h.owned e he
    rw [World.stateOf_put]
    split_ifs with hj
    · exact ⟨_, rfl⟩
    · exact ⟨found, hfound⟩

theorem Ledger.others (h : Ledger repository w) (hstep : Others w w') : Ledger repository w' := by
  cases hstep with
  | accept job targetRelease fingerprint => exact h.accept _ _
  | resolve index attempt =>
    refine h.alike ?_
    unfold World.resolve
    split
    · exact ⟨rfl, rfl, rfl, rfl⟩
    · exact .refl w
  | insertRow ref applied => exact h.alike ⟨rfl, rfl, rfl, rfl⟩
  | deleteRow id => exact h.alike ⟨rfl, rfl, rfl, rfl⟩

/-- Nothing that happens beside an execution changes the record of a job that is there. -/
theorem Others.stateOf (hstep : Others w w') (h : w.stateOf job = some state) :
    w'.stateOf job = some state := by
  cases hstep with
  | accept job' targetRelease fingerprint =>
    rcases w.accept_cases job' targetRelease fingerprint with heq | ⟨hnone, -, heq⟩
    · rwa [heq]
    · rw [heq, World.stateOf_put]
      split_ifs with hj
      · rw [show job = job' from hj, hnone] at h
        cases h
      · exact h
  | resolve index attempt =>
    unfold World.resolve
    split
    · exact h
    · exact h
  | insertRow ref applied => exact h
  | deleteRow id => exact h

theorem Others.view (hstep : Others w w') (h : w.stateOf job = some state) :
    w'.view job = w.view job := by
  have hstate := hstep.stateOf h
  have hsame : w'.head = w.head ∧ w'.effects = w.effects ∧ w'.executions = w.executions := by
    cases hstep with
    | accept job' targetRelease fingerprint => exact ⟨rfl, rfl, rfl⟩
    | resolve index attempt =>
      unfold World.resolve
      split
      · exact ⟨rfl, rfl, rfl⟩
      · exact ⟨rfl, rfl, rfl⟩
    | insertRow ref applied => exact ⟨rfl, rfl, rfl⟩
    | deleteRow id => exact ⟨rfl, rfl, rfl⟩
  obtain ⟨hhead, heffects, hexecutions⟩ := hsame
  simp only [World.view, World.milestonesOf, hstate, h, hhead, heffects, hexecutions]

end IsadoraAir.UpdateJob
