import IsadoraAir.UpdateJob.Execution

/-!
# The whole life of a job

What the ledgers say of every run: each phase once and in its order, and no
migration after an interrupted one.
-/

namespace IsadoraAir.UpdateJob

open Relation Routine Runs
open Releases (TrustedPlan PlanValues Repository derivePlan)

variable {plan : TrustedPlan} {v : View} {a : Action}

/-- What a job did, in the order in which it happened. -/
def World.effectsOf (w : World) (job : JobId) : List Effect :=
  w.effects.filter fun e => e.jobId = job

theorem length_filter_le_one {α : Type} {q : α → Bool} {xs : List α}
    (h : xs.Pairwise fun a b => ¬ (q a = true ∧ q b = true)) : (xs.filter q).length ≤ 1 := by
  induction h with
  | nil => simp
  | @cons a rest hfirst _ ih =>
    by_cases ha : q a = true
    · have hnone : rest.filter q = [] := List.filter_eq_nil_iff.mpr fun b hb hqb =>
        hfirst b hb ⟨ha, hqb⟩
      simp [ha, hnone]
    · simpa [ha] using ih

/-- Everything a job does once it does once, after what precedes it and at the right source. -/
structure Sequenced (plan : TrustedPlan) (effects : List Effect) : Prop where
  restartOnce : ∀ service, (effects.filter fun e => e.kind = .restart service).length ≤ 1
  advanceOnce : (effects.filter fun e => e.kind.phase = 1).length ≤ 1
  advanceVerified : ∀ e ∈ effects, ∀ commit, e.kind = .advance commit →
    commit = plan.targetCommit ∧ .databaseVerified ∈ e.milestones
  liveAtTarget : ∀ e ∈ effects, 2 ≤ e.kind.phase → e.head = plan.targetCommit
  inOrder : effects.Pairwise fun a b => a.kind.phase ≤ b.kind.phase

/-- Everything of the plan was completed. -/
structure Completed (plan : TrustedPlan) (milestones : List Milestone) (effects : List Effect) :
    Prop where
  milestones : ∀ k ≤ 4, closing k ∈ milestones
  advanced : ∃ e ∈ effects, e.kind = .advance plan.targetCommit
  collected : plan.collectstaticRequired = true →
    ∃ e ∈ effects, e.kind = .collectstatic ∧ e.ok = true
  reconciled : ∃ e ∈ effects, e.kind = .reconcile ∧ e.ok = true
  restarted : ∀ service ∈ plan.servicesRequiringRestart,
    ∃ e ∈ effects, e.kind = .restart service ∧ e.ok = true

section Ledger

variable {repository : Repository} {job : JobId} {w : World} {state : JobState}

theorem sequenced_of_trail (h : Trail v)
    (hplan : v.plan = some plan.toPlanValues) : Sequenced plan v.log where
  restartOnce service := by
    refine length_filter_le_one (h.follows.imp fun {a b} hfollows hboth => ?_)
    simp only [decide_eq_true_eq] at hboth
    exact hfollows.restart service service hboth.1 hboth.2 rfl
  advanceOnce := by
    refine length_filter_le_one (h.follows.imp fun {a b} hfollows hboth => ?_)
    simp only [decide_eq_true_eq] at hboth
    exact hfollows.advance hboth.1 hboth.2
  advanceVerified e he commit hkind := by
    have hfits := h.fits _ hplan e he
    refine ⟨hfits.target commit hkind, (hfits.timely 0 (by decide)).mpr ?_⟩
    rw [hkind]
    exact Nat.one_pos
  liveAtTarget e he := (h.fits _ hplan e he).live
  inOrder := h.phases_sorted hplan

/-- The services of a plan have markers of their own. -/
theorem slug_injective : ∀ service ∈ Releases.Updater.restartOrder,
    ∀ service' ∈ Releases.Updater.restartOrder, slug service = slug service' →
      service = service' := by
  decide

theorem completed_of_trail {milestones : List Milestone}
    (h : Trail v) (hplan : v.plan = some plan.toPlanValues) (hderives : Derives repository plan)
    (hmarks : ∀ m ∈ v.marks, m ∈ milestones) (hdone : .servicesRestarted ∈ v.marks) :
    Completed plan milestones v.log := by
  have hclosed : ∀ k ≤ 4, closing k ∈ v.marks := fun k hk => h.closed hk (by decide) hdone
  obtain ⟨_, _, _, hderived⟩ := hderives
  have hservices := Releases.derivePlan_services hderived
  refine ⟨fun k hk => hmarks _ (hclosed k hk), ?_, fun hrequired => ?_, ?_, fun service hs => ?_⟩
  · obtain ⟨e, he, hphase⟩ := (h.entitled _ (hclosed 1 (by decide))).2
    cases hkind : e.kind with
    | advance commit =>
      obtain rfl := (h.fits _ hplan e he).target commit hkind
      exact ⟨e, he, hkind⟩
    | _ =>
      rw [hkind] at hphase
      simp [EffectKind.phase] at hphase
  · exact (h.entitled _ (hclosed 2 (by decide))).2 _ hplan hrequired
  · exact (h.entitled _ (hclosed 3 (by decide))).2
  · have hmark := (h.entitled _ hdone).2 _ hplan service hs
    obtain ⟨service', hslug, e, he, hkind, hok⟩ := h.entitled _ hmark
    have hdeclared := ((h.fits _ hplan e he).announced service' hkind).2
    obtain rfl := slug_injective _ (hservices hdeclared) _ (hservices hs) hslug
    exact ⟨e, he, hkind, hok⟩

/-- What the ledgers say of one job. -/
theorem Ledger.life (h : Ledger repository w) (hstate : w.stateOf job = some state) :
    (state.trustedPlan = none → w.effectsOf job = [] ∧ state.status ≠ .succeeded) ∧
      ∀ plan, state.trustedPlan = some plan → Sequenced plan (w.effectsOf job) ∧
        (state.status = .succeeded → Completed plan state.milestones (w.effectsOf job)) := by
  have hbooks := h.books job state hstate
  have hmarks := World.view_marks hstate
  have hplan := World.view_plan hstate
  refine ⟨fun hnone => ?_, fun plan hsome => ?_⟩
  · rw [hnone] at hplan
    obtain ⟨hempty, hlog⟩ := hbooks.trail.unplanned hplan
    refine ⟨hlog, fun hsucceeded => ?_⟩
    have hmem := hbooks.succeeded hsucceeded
    rw [hempty] at hmem
    exact hmem
  · rw [hsome] at hplan
    refine ⟨sequenced_of_trail hbooks.trail hplan, fun hsucceeded => ?_⟩
    refine completed_of_trail hbooks.trail hplan (hbooks.plans plan hsome).1 (fun m hm => ?_)
      (hbooks.succeeded hsucceeded)
    rw [hmarks] at hm
    exact hm.2

end Ledger

/-! ## Interrupted migrations -/

/-- A migration of the job was interrupted, and these are the migrations it had started. -/
def Interrupted (job : JobId) (migrations : List Effect) (w : World) : Prop :=
  (∀ job' state, w.stateOf job' = some state → state.jobId = job') ∧
    ∃ state, w.stateOf job = some state ∧ interruptedMigration state.milestones = true ∧
      (w.effectsOf job).filter (fun e => e.kind.phase = 0) = migrations

/-- No milestone of the job is recorded and no migration of it is started. -/
def Action.Spares (job : JobId) : Action → Prop
  | .milestone job' _ => job' ≠ job
  | .launchGuarded request => request.jobId ≠ job
  | _ => True

section Interrupted

variable {repository : Repository} {job job' : JobId} {migrations : List Effect} {w w' : World}

theorem Action.Concerns.spares (h : a.Concerns job') (hne : job' ≠ job) : a.Spares job := by
  cases a with
  | milestone job'' name =>
    obtain rfl : job'' = job' := h
    exact hne
  | launchGuarded request =>
    obtain rfl : request.jobId = job' := h
    exact hne
  | _ => trivial

theorem Action.Concludes.spares (h : a.Concludes job') : a.Spares job := by
  cases a with
  | milestone job'' name => exact h.elim
  | launchGuarded request => exact h.elim
  | _ => trivial

theorem Interrupted.alike (h : Interrupted job migrations w) (halike : Alike w w') :
    Interrupted job migrations w' := by
  obtain ⟨hnamed, state, hstate, hinterrupted, hmigrations⟩ := h
  refine ⟨fun j s hs => hnamed j s (halike.stateOf j ▸ hs), state, ?_, hinterrupted, ?_⟩
  · rwa [halike.stateOf]
  · rwa [World.effectsOf, halike.effects]

theorem Interrupted.put {state state' : JobState} (h : Interrupted job migrations w)
    (hstate : w.stateOf state'.jobId = some state)
    (hmilestones : state'.jobId = job → state'.milestones = state.milestones) :
    Interrupted job migrations (w.put state') := by
  obtain ⟨hnamed, own, hown, hinterrupted, hmigrations⟩ := h
  refine ⟨fun j s hs => ?_, ?_⟩
  · rw [World.stateOf_put] at hs
    split_ifs at hs with hj
    · cases hs
      exact hj.symm
    · exact hnamed j s hs
  · by_cases hjob : job = state'.jobId
    · subst hjob
      obtain rfl : state = own := Option.some.inj (hstate.symm.trans hown)
      refine ⟨{ state' with updatedAt := w.store.clock }, ?_, ?_, hmigrations⟩
      · rw [World.stateOf_put, if_pos rfl]
      · rw [← hmilestones rfl] at hinterrupted
        exact hinterrupted
    · refine ⟨own, ?_, hinterrupted, hmigrations⟩
      rwa [World.stateOf_put, if_neg hjob]

theorem Interrupted.effect (h : Interrupted job migrations w) (job' : JobId) (kind : EffectKind)
    (ok : Bool) (head : String) (hspares : kind.phase = 0 → job' ≠ job) :
    Interrupted job migrations { w.effect job' kind ok with head := head } := by
  obtain ⟨hnamed, state, hstate, hinterrupted, hmigrations⟩ := h
  refine ⟨hnamed, state, hstate, hinterrupted, ?_⟩
  rw [← hmigrations]
  simp only [World.effectsOf, World.effect, List.filter_append]
  by_cases hjob : job' = job
  · have hphase : kind.phase ≠ 0 := fun h0 => hspares h0 hjob
    simp [hphase, hjob]
  · simp [hjob]

theorem Interrupted.perform (h : Interrupted job migrations w)
    (hspares : a.Spares job) (answer : a.Answer) :
    Interrupted job migrations (w.perform a answer).2 := by
  cases a with
  | update job' change =>
    rcases w.update_cases job' change answer with ⟨-, heq⟩ | ⟨state, hstate, -, heq⟩
    · rwa [heq]
    · obtain rfl := h.1 job' state hstate
      rw [heq]
      have hown : w.stateOf (state.change change).jobId = some state := by
        rwa [state.change_jobId]
      exact h.put hown fun _ => state.change_milestones change
  | milestone job' name =>
    rcases w.milestone_cases job' name answer with ⟨-, heq⟩ | ⟨state, hstate, heq⟩
    · rwa [heq]
    · obtain rfl := h.1 job' state hstate
      rw [heq]
      have hown : w.stateOf (state.addMilestone name).jobId = some state := hstate
      exact h.put hown fun hjob => absurd hjob hspares
  | launchGuarded request =>
    cases answer with
    | some failure => exact h
    | none =>
      have heffect := h.effect request.jobId (.migrate request.migration) true w.head
        fun _ => hspares
      exact heffect.alike ⟨rfl, rfl, rfl, rfl⟩
  | merge job' commit =>
    obtain ⟨ok, moved⟩ := answer
    cases moved with
    | false => exact h
    | true => exact h.effect job' (.advance commit) ok commit nofun
  | collectstatic job' => exact h.effect job' .collectstatic _ w.head nofun
  | reconcile job' plan => exact h.effect job' .reconcile _ w.head nofun
  | restart job' service => exact h.effect job' (.restart service) _ w.head nofun
  | _ =>
    refine h.alike (World.alike_perform ?_ w answer)
    trivial

theorem Interrupted.others (h : Interrupted job migrations w) (hstep : Others w w') :
    Interrupted job migrations w' := by
  obtain ⟨hnamed, state, hstate, hinterrupted, hmigrations⟩ := h
  refine ⟨fun j s hs => ?_, state, hstep.stateOf hstate, hinterrupted, ?_⟩
  · cases hstep with
    | accept job'' targetRelease fingerprint =>
      rcases w.accept_cases job'' targetRelease fingerprint with heq | ⟨-, -, heq⟩
      · rw [heq] at hs
        exact hnamed j s hs
      · rw [heq, World.stateOf_put] at hs
        split_ifs at hs with hj
        · cases hs
          exact hj.symm
        · exact hnamed j s hs
    | resolve index attempt =>
      rw [(w.alike_resolve index attempt).stateOf] at hs
      exact hnamed j s hs
    | insertRow ref applied => exact hnamed j s hs
    | deleteRow id => exact hnamed j s hs
  · have hview := hstep.view hstate
    have hlog : w'.effectsOf job = w.effectsOf job := congrArg View.log hview
    rwa [hlog]

theorem Interrupted.safe {α : Type} {m : Program α} (hm : m.Uses (Action.Spares job))
    (h : Interrupted job migrations w) :
    Safe (Rules.any.setting (Interrupted job migrations)) m w
      fun _ => Interrupted job migrations := by
  refine Uses.safe hm h (fun _ _ hs hstep => hs.others hstep) (fun _ => id) ?_
  rintro a s r s' hspares hs ⟨answer, -, heq⟩
  have hafter := hs.perform hspares answer
  rwa [heq] at hafter

/-- No execution starts a migration of the job. -/
theorem Interrupted.runWorker (ex : Executor) (h : Interrupted job migrations w) :
    Safe (Rules.any.setting (Interrupted job migrations)) (runWorker repository ex job') w
      fun _ => Interrupted job migrations := by
  by_cases hjob : job' = job
  · subst hjob
    have hexecute : Safe (Rules.any.setting (Interrupted job' migrations))
        (execute repository ex job') w fun _ => Interrupted job' migrations := by
      unfold execute
      refine Rules.safe_call_bind h (fun _ _ hs hstep => hs.others hstep) (fun _ => id)
        (fun w answer state hw _ hvalue => ?_) fun w answer failure hw _ _ =>
          hw.perform (a := .load job') trivial answer
      obtain ⟨hnamed, own, hown, hinterrupted, hmigrations⟩ := hw
      have hw : Interrupted job' migrations w := ⟨hnamed, own, hown, hinterrupted, hmigrations⟩
      simp only [World.perform, hown] at hvalue ⊢
      obtain rfl : own = state := by
        cases answer with
        | none => exact Except.ok.inj hvalue
        | some failure => cases hvalue
      split
      · exact hw
      · refine Interrupted.safe (Uses.bind ((uses_finalizeRecoveryFromObservation ..).mono
          fun a ha => ?_) fun _ => uses_call_bind trivial fun _ => .pure) hw
        have hconcludes : a.Concludes job' := ha.concludes
        exact hconcludes.spares
    refine Safe.attempt_bind hexecute fun r w' hw' => ?_
    cases r with
    | ok result => exact hw'
    | error failure =>
      exact Interrupted.safe (Uses.bind (Uses.attempt (uses_call trivial)) fun _ => .pure) hw'
  · exact Interrupted.safe ((uses_runWorker repository ex job').mono
      fun _ ha => ha.spares hjob) h

theorem run_interrupted {s : System} (hs : s.execution = none)
    (h : Interrupted job migrations s.world) (events : List Event) :
    Interrupted job migrations (run (step repository) events s).world := by
  have hsound : Rules.any.Sound (Interrupted job migrations) s :=
    ⟨h, fun m hm => by rw [hs] at hm; cases hm⟩
  refine (Rules.run_sound (fun _ _ hs hstep => hs.others hstep)
    (fun w hw => hw.alike ⟨rfl, rfl, rfl, rfl⟩) (fun ex job w hw => ?_) hsound ?_).1
  · refine Interrupted.runWorker ex ?_
    obtain ⟨hnamed, own, hown, hinterrupted, hmigrations⟩ := hw
    exact ⟨hnamed, own, hown, hinterrupted, hmigrations⟩
  · generalize s = s'
    induction events generalizing s' with
    | nil => trivial
    | cons e rest ih => exact ⟨Rules.any_admit e s', ih _⟩

end Interrupted

end IsadoraAir.UpdateJob
