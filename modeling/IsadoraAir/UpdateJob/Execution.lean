import IsadoraAir.UpdateJob.Phases

/-!
# A whole execution keeps the ledgers

The plan of a job is the same in all its executions, because its fingerprint is;
so every execution begins with what the executions before it have recorded.
-/

namespace IsadoraAir.UpdateJob

open Relation Routine
open Releases (TrustedPlan PlanValues Repository derivePlan)

variable {ex : Executor} {plan : TrustedPlan}

/-- The hash of a contract tells it apart from the other contracts of the repository. -/
def Identifying (repository : Repository) : Prop :=
  ∀ plan plan', Derives repository plan → Derives repository plan' →
    plan.fingerprint = plan'.fingerprint → plan.fingerprintPayload = plan'.fingerprintPayload

theorem Identifying.values {repository : Repository} (h : Identifying repository)
    {plan' : TrustedPlan} (hplan : Derives repository plan)
    (hplan' : Derives repository plan') (heq : plan.fingerprint = plan'.fingerprint) :
    plan.toPlanValues = plan'.toPlanValues :=
  Releases.TrustedPlan.fingerprintPayload_inj (h plan plan' hplan hplan' heq)

variable {repository : Repository} {rules : Rules} {job : JobId} {F : View → Prop}
  {w w' : World} {state : JobState}

/-- The job is seen as the execution has loaded it. -/
structure View.Loaded (v : View) (state : JobState) : Prop where
  marks : ∀ m : Milestone, 0 < m.stage → (m ∈ state.milestones ↔ m ∈ v.marks)
  plan : v.plan = state.trustedPlan.map TrustedPlan.toPlanValues
  fingerprint : v.fingerprint = state.expectedPlanFingerprint

theorem World.loaded (h : w.stateOf job = some state) : (w.view job).Loaded state where
  marks m hstage := by
    rw [World.view_marks h]
    simp [hstage]
  plan := World.view_plan h
  fingerprint := World.view_fingerprint h

section Planning

variable (hothers : rules.Within) (hidentifying : Identifying repository)

include hothers

/-- The plan is recorded; if there was one, it was the same. -/
theorem recordPlan_triple (hderives : Derives repository plan)
    (hstate : ∀ plan', state.trustedPlan = some plan' → plan'.toPlanValues = plan.toPlanValues)
    (hfingerprint : plan.fingerprint = state.expectedPlanFingerprint)
    {head : String} (hinstalled : state.trustedPlan = none → plan.installedCommit = head) :
    Triple rules repository job (Ledger repository)
      (fun v => v.Loaded state ∧ v.head = head)
      (call (.update job (.trustedPlan plan)))
      fun _ v => v.plan = some plan.toPlanValues ∧
        (∀ m : Milestone, 0 < m.stage → (m ∈ state.milestones ↔ m ∈ v.marks)) ∧
        v.head = head := by
  refine Triple.call hothers fun w answer hw _ => ?_
  rcases w.update_cases job (.trustedPlan plan) answer with
    ⟨⟨failure, herror⟩, heq⟩ | ⟨own, hown, -, heq⟩
  · rw [herror, heq]
    exact hw.ledger
  · obtain ⟨found, hfound, hactive⟩ := hw.active
    obtain rfl : own = found := Option.some.inj (hown.symm.trans hfound)
    have hid := hw.ledger.named job own hown
    obtain ⟨hloaded, hhead⟩ := hw.holds
    have hledger : Ledger repository (w.put (own.change (.trustedPlan plan))) := by
      refine hw.ledger.change hown (fun _ => hactive) (fun plan' hchange => ?_)
        fun hchange => by cases hchange
      cases hchange
      have hown' := World.view_fingerprint hown
      refine ⟨hderives, ?_, fun p hp => ?_, fun hnone => ?_⟩
      · rw [hfingerprint, ← hloaded.fingerprint, hown']
      · rw [hloaded.plan] at hp
        obtain ⟨plan', hplan', rfl⟩ := Option.map_eq_some_iff.mp hp
        exact hstate plan' hplan'
      · rw [hloaded.plan, Option.map_eq_none_iff] at hnone
        rw [hinstalled hnone]
        exact hhead
    have hview := World.view_put_change hown hid (.trustedPlan plan)
    have hafter : Underway repository job (fun v => v.plan = some plan.toPlanValues ∧
        (∀ m : Milestone, 0 < m.stage → (m ∈ state.milestones ↔ m ∈ v.marks)) ∧ v.head = head)
        (w.put (own.change (.trustedPlan plan))) := by
      refine ⟨hledger, ?_, ?_⟩
      · rw [World.stateOf_put, own.change_jobId, if_pos hid.symm]
        exact ⟨_, rfl, hactive⟩
      · rw [hview]
        exact ⟨rfl, hloaded.marks, hhead⟩
    rw [heq]
    cases (w.perform (.update job (.trustedPlan plan)) answer).1 with
    | ok value => exact hafter
    | error failure => exact hledger

include hidentifying

/-- The plan of an execution, with the job as it is seen when the plan is recorded. -/
structure View.Planned (v : View) (state : JobState) (derived : Derived) : Prop where
  plan : v.plan = some derived.plan.toPlanValues
  marks : ∀ m : Milestone, 0 < m.stage → (m ∈ state.milestones ↔ m ∈ v.marks)
  moved : derived.sourceAlreadyAtTarget = true → v.head = derived.plan.targetCommit
  moves : derived.plan.targetCommit ≠ derived.plan.installedCommit

theorem derive_triple (hplans : ∀ plan, state.trustedPlan = some plan →
      Derives repository plan ∧ plan.fingerprint = state.expectedPlanFingerprint) :
    Triple rules repository job (Ledger repository) (fun v => v.Loaded state)
      (derive repository ex job state) fun derived v => v.Planned state derived := by
  unfold derive
  refine Triple.bind (liveIdentity_triple hothers) fun head => ?_
  refine Triple.quiet_bind hothers (uses_call trivial) fun tip => ?_
  refine Triple.quiet_bind hothers (uses_recordMilestone rfl) fun _ => ?_
  split
  · exact Triple.raise fun _ => Underway.ledger
  · next plan hplan =>
    have hderives : Derives repository plan := ⟨_, _, _, hplan⟩
    obtain ⟨hinstalled, hmoves⟩ := Releases.derivePlan_commits hplan
    refine Triple.require_bind (fun hfingerprint => ?_) fun _ => Underway.ledger
    have hfingerprint : plan.fingerprint = state.expectedPlanFingerprint :=
      of_decide_eq_true hfingerprint
    have hsame : ∀ plan', state.trustedPlan = some plan' →
        plan'.toPlanValues = plan.toPlanValues := by
      intro plan' hplan'
      obtain ⟨hderives', hfingerprint'⟩ := hplans plan' hplan'
      exact hidentifying.values hderives' hderives (hfingerprint'.trans hfingerprint.symm)
    refine Triple.require_bind (fun _ => ?_) fun _ => Underway.ledger
    refine Triple.bind (recordPlan_triple hothers hderives hsame hfingerprint fun hnone => ?_)
      fun _ => ?_
    · rw [hinstalled]
      simp [basisHead, hnone]
    · refine Triple.quiet_bind hothers (uses_recordMilestone rfl) fun _ =>
        Triple.pure fun v hv => ⟨hv.1, hv.2.1, fun hmoved => ?_, hinstalled ▸ hmoves⟩
      obtain ⟨-, hat⟩ := Bool.and_eq_true_iff.mp hmoved
      cases hprevious : state.trustedPlan with
      | none =>
        rw [hprevious] at hat
        cases hat
      | some previous =>
        rw [hprevious] at hat
        rw [hv.2.2, show head = previous.targetCommit from of_decide_eq_true hat,
          hsame previous hprevious]

omit hidentifying in
/-- What the gate goes on with is what the execution has loaded, as far as the phases go. -/
theorem runtimeGate_triple {derived : Derived} :
    Triple rules repository job (Ledger repository) (fun v => v.Planned state derived)
      (runtimeGate ex job derived.plan state.milestones)
      fun gate v => ∀ milestones, gate = some milestones → v.Planned state derived ∧
        ∀ m : Milestone, 0 < m.stage → (m ∈ milestones ↔ m ∈ v.marks) := by
  have hkept : ∀ v : View, v.Planned state derived → ∀ milestones,
      some state.milestones = some milestones → v.Planned state derived ∧
        ∀ m : Milestone, 0 < m.stage → (m ∈ milestones ↔ m ∈ v.marks) := by
    rintro v hv milestones ⟨rfl⟩
    exact ⟨hv, hv.marks⟩
  have hload : Triple rules repository job (Ledger repository)
      (fun v => v.Planned state derived)
      (do return some (← call (.load job)).milestones : Program (Option (List Milestone)))
      fun gate v => ∀ milestones, gate = some milestones → v.Planned state derived ∧
        ∀ m : Milestone, 0 < m.stage → (m ∈ milestones ↔ m ∈ v.marks) := by
    refine Triple.bind (G := fun loaded v => v.Planned state derived ∧
      ∀ m : Milestone, 0 < m.stage → (m ∈ loaded.milestones ↔ m ∈ v.marks)) ?_ fun loaded => ?_
    · refine Triple.call hothers fun w answer hw _ => ?_
      obtain ⟨own, hown, hactive⟩ := hw.active
      simp only [World.perform, hown]
      cases answer with
      | none => exact ⟨hw.ledger, ⟨own, hown, hactive⟩, hw.holds, (World.loaded hown).marks⟩
      | some failure => exact hw.ledger
    · refine Triple.pure fun v hv milestones hmilestones => ?_
      obtain rfl := Option.some.inj hmilestones
      exact hv
  unfold runtimeGate
  split
  · exact Triple.pure hkept
  · next transition _ =>
    refine Triple.require_bind (fun _ => ?_) fun _ => Underway.ledger
    have hbranches : Triple rules repository job (Ledger repository)
        (fun v => v.Planned state derived)
        (if mutationGateSatisfied state.milestones then
          (return some state.milestones : Program (Option (List Milestone)))
        else if Milestone.runtimeActivationRequested ∈ state.milestones then
          if ex.isAuthorizedCandidateFor job transition then do
            acceptRuntimeAsCandidate job transition
            return some (← call (.load job)).milestones
          else return none
        else do
          if ← executeRuntimeHandoff job derived.plan transition state.milestones then return none
          else return some (← call (.load job)).milestones)
        fun gate v => ∀ milestones, gate = some milestones → v.Planned state derived ∧
          ∀ m : Milestone, 0 < m.stage → (m ∈ milestones ↔ m ∈ v.marks) := by
      split
      · exact Triple.pure hkept
      · split
        · split
          · exact Triple.quiet_bind hothers (uses_acceptRuntimeAsCandidate ..) fun _ => hload
          · exact Triple.pure fun v hv milestones hnone => absurd hnone (Option.some_ne_none _).symm
        · refine Triple.quiet_bind hothers (uses_executeRuntimeHandoff ..) fun yielded => ?_
          split
          · exact Triple.pure fun v hv milestones hnone => absurd hnone (Option.some_ne_none _).symm
          · exact hload
    dsimp only
    split
    · exact Triple.recovers_bind hothers (uses_validateAlreadyAuthoritativeSatisfaction ..)
        fun _ => hbranches
    · exact hbranches

end Planning

/-! ## From the plan to the end -/

section Ending

variable (hothers : rules.Within)

/-- From `F` on, the routine keeps the ledgers however it ends. -/
def Keeps {α : Type} (rules : Rules) (repository : Repository) (job : JobId) (F : View → Prop)
    (m : Program α) : Prop :=
  ∀ w, Underway repository job F w →
    Safe (rules.setting (Ledger repository)) m w fun _ w' => Ledger repository w'

theorem Triple.keeps_bind {α β : Type} {m : Program α} {f : α → Program β} {G : α → View → Prop}
    (hm : Triple rules repository job (Ledger repository) F m G)
    (hf : ∀ a, Keeps rules repository job (G a) (f a)) :
    Keeps rules repository job F (m >>= f) :=
  fun w hw => (hm w hw).bind (fun a w' hr => hf a w' hr) fun _ _ hr => hr

include hothers

theorem Keeps.quiet_bind {α β : Type} {m : Program α} {f : α → Program β}
    (hm : m.Uses (Action.Quiet job)) (hf : ∀ a, Keeps rules repository job F (f a)) :
    Keeps rules repository job F (m >>= f) :=
  Triple.keeps_bind (Triple.quiet hothers hm fun _ => Underway.ledger) hf

omit hothers in
theorem Keeps.require_bind {α : Type} {condition : Bool} {classification : String} {manual : Bool}
    {f : Unit → Program α} (hf : Keeps rules repository job F (f ())) :
    Keeps rules repository job F (require condition classification manual >>= f) :=
  fun w hw => safe_require_bind (fun _ => hf w hw) hw.ledger

/-- A job succeeds after its services were restarted. -/
theorem succeed_keeps :
    Keeps rules repository job (fun v => .servicesRestarted ∈ v.marks)
      (call (.update job .succeeded)) := by
  intro w hw
  refine Rules.safe_call hw (fun _ _ hs hstep => hs.others (hothers _ _ hstep))
    (fun _ => Underway.ledger) fun w answer hw _ => ?_
  rcases w.update_cases job .succeeded answer with ⟨-, heq⟩ | ⟨own, hown, -, heq⟩
  · rw [heq]
    exact hw.ledger
  · rw [heq]
    refine hw.ledger.change hown (fun hterminal => ?_) (fun plan heq => ?_) fun _ => hw.holds
    · cases hterminal
    · cases heq

theorem postflight_keeps :
    Keeps rules repository job (fun v => .servicesRestarted ∈ v.marks) (postflight job plan) := by
  have hend : Keeps rules repository job (fun v => .servicesRestarted ∈ v.marks) (do
      recordMilestone job .postflightComplete
      cleanupStaging job
      recordMilestone job .stagingCleaned
      call (.update job .succeeded)) := by
    refine Keeps.quiet_bind hothers (uses_recordMilestone rfl) fun _ => ?_
    refine Keeps.quiet_bind hothers ((uses_cleanupStaging _).mono fun _ => Action.Recovers.quiet)
      fun _ => ?_
    exact Keeps.quiet_bind hothers (uses_recordMilestone rfl) fun _ => succeed_keeps hothers
  unfold postflight
  refine Keeps.quiet_bind hothers (uses_call trivial) fun head => Keeps.require_bind ?_
  refine Keeps.quiet_bind hothers (uses_call trivial) fun schema => Keeps.require_bind ?_
  dsimp only
  split
  · exact Keeps.quiet_bind hothers (uses_call trivial) fun _ => hend
  · exact hend

theorem mutationPipeline_keeps {derived : Derived} {milestones : List Milestone}
    (hwhole : interruptedMigration state.milestones = false) :
    Keeps rules repository job (fun v => v.Planned state derived ∧
      ∀ m : Milestone, 0 < m.stage → (m ∈ milestones ↔ m ∈ v.marks))
      (mutationPipeline job state derived milestones) := by
  intro w hw
  -- the facts about the plan are needed beside what is seen of the job
  have hmoves := hw.holds.1.moves
  have hbegun : Underway repository job (fun v => v.Begun derived.plan.toPlanValues milestones
      derived.sourceAlreadyAtTarget) w := by
    refine hw.imp fun v _ _ hv => ⟨⟨hv.1.plan, fun m hstage => hv.2 m (by omega), nofun⟩,
      fun hstarted => ?_, hv.1.moved⟩
    have hmem := (hv.1.marks .migrationStarted (by decide)).mpr hstarted
    by_contra hnot
    have hnot := mt (hv.1.marks .databaseVerified (by decide)).mp hnot
    simp [interruptedMigration, hmem, hnot] at hwhole
  have hkeeps : Keeps rules repository job (fun v => v.Begun derived.plan.toPlanValues milestones
      derived.sourceAlreadyAtTarget) (mutationPipeline job state derived milestones) := by
    unfold mutationPipeline
    refine Keeps.require_bind ?_
    refine Keeps.quiet_bind hothers (uses_validateTarget ..) fun target => ?_
    refine Triple.keeps_bind (reachDatabaseVerified_triple hothers) fun _ => ?_
    refine Triple.keeps_bind (reachSourceAdvanced_triple hothers hmoves) fun _ => ?_
    refine Triple.keeps_bind (reachStaticCollected_triple hothers) fun _ => ?_
    refine Triple.keeps_bind (reachSystemdReconciled_triple hothers) fun _ => ?_
    exact Triple.keeps_bind (reachServicesRestarted_triple hothers) fun _ =>
      postflight_keeps hothers
  exact hkeeps w hbegun

theorem attemptExecution_keeps (hidentifying : Identifying repository)
    (hplans : ∀ plan, state.trustedPlan = some plan →
      Derives repository plan ∧ plan.fingerprint = state.expectedPlanFingerprint)
    (hwhole : interruptedMigration state.milestones = false) :
    Keeps rules repository job (fun v => v.Loaded state)
      (attemptExecution repository ex job state) := by
  unfold attemptExecution
  refine Triple.keeps_bind (derive_triple hothers hidentifying hplans) fun derived => ?_
  refine Triple.keeps_bind (runtimeGate_triple hothers) fun gate => ?_
  split
  · exact Keeps.quiet_bind hothers (uses_call trivial) fun _ w hw => hw.ledger
  · next milestones =>
    intro w hw
    have hkeeps : Keeps rules repository job (fun v => v.Planned state derived ∧
        ∀ m : Milestone, 0 < m.stage → (m ∈ milestones ↔ m ∈ v.marks))
        (mutationPipeline job state derived milestones) :=
      mutationPipeline_keeps hothers hwhole
    have hpipeline := hkeeps w (hw.imp fun v _ _ hv => hv milestones rfl)
    exact hpipeline.bind (fun _ _ h => h) fun _ _ h => h

/-- What concludes an execution keeps the ledgers in any case. -/
theorem concludes_safe {α : Type} {m : Program α} (hm : m.Uses (Action.Concludes job))
    (hw : Ledger repository w) :
    Safe (rules.setting (Ledger repository)) m w fun _ w' => Ledger repository w' := by
  refine Uses.safe hm hw (fun _ _ hs hstep => hs.others (hothers _ _ hstep)) (fun _ => id) ?_
  rintro a s r s' hconcludes hs ⟨answer, -, heq⟩
  have hafter := hs.concludes hconcludes answer
  rwa [heq] at hafter

theorem running_triple :
    Triple rules repository job (Ledger repository) F (call (.update job .running)) fun _ => F := by
  refine Triple.call hothers fun w answer hw _ => ?_
  rcases w.update_cases job .running answer with ⟨⟨failure, herror⟩, heq⟩ | ⟨own, hown, -, heq⟩
  · rw [herror, heq]
    exact hw.ledger
  · obtain ⟨found, hfound, hactive⟩ := hw.active
    obtain rfl : own = found := Option.some.inj (hown.symm.trans hfound)
    have hid := hw.ledger.named job own hown
    have hledger : Ledger repository (w.put (own.change .running)) := by
      refine hw.ledger.change hown (fun _ => hactive) (fun plan heq => ?_) fun heq => ?_
      · cases heq
      · cases heq
    have hafter : Underway repository job F (w.put (own.change .running)) := by
      refine ⟨hledger, ?_, ?_⟩
      · rw [World.stateOf_put, own.change_jobId, if_pos hid.symm]
        exact ⟨_, rfl, rfl⟩
      · rw [World.view_put_change hown hid]
        exact hw.holds
    rw [heq]
    cases (w.perform (.update job .running) answer).1 with
    | ok value => exact hafter
    | error failure => exact hledger

theorem execute_safe (ex : Executor) (hidentifying : Identifying repository)
    (hw : Ledger repository w) :
    Safe (rules.setting (Ledger repository)) (execute repository ex job) w
      fun _ w' => Ledger repository w' := by
  unfold execute
  refine Rules.safe_call_bind hw (fun _ _ hs hstep => hs.others (hothers _ _ hstep)) (fun _ => id)
    (fun w answer state hw _ hvalue => ?_) fun w answer failure hw _ _ => ?_
  · have hstate : w.stateOf job = some state := by
      cases hown : w.stateOf job with
      | none =>
        simp only [World.perform, hown] at hvalue
        cases hvalue
      | some own =>
        simp only [World.perform, hown] at hvalue
        cases answer with
        | none =>
          cases hvalue
          rfl
        | some failure => cases hvalue
    have hsame : (w.perform (.load job) answer).2 = w := by
      simp only [World.perform, hstate]
    rw [hsame]
    split
    · exact hw
    · next hactive =>
      split
      · exact concludes_safe hothers (Uses.bind ((uses_finalizeRecoveryFromObservation ..).mono
          fun _ => Action.Recovers.concludes) fun _ => uses_call_bind rfl fun _ => .pure) hw
      · next hwhole =>
        have hbooks := hw.books job state hstate
        have hunderway : Underway repository job (fun v => v.Loaded state) w :=
          ⟨hw, ⟨state, hstate, Bool.eq_false_iff.mpr hactive⟩, World.loaded hstate⟩
        refine Triple.keeps_bind (running_triple hothers) (fun _ w hw => ?_) w hunderway
        refine Safe.attempt_bind (attemptExecution_keeps hothers hidentifying hbooks.plans
          (Bool.eq_false_iff.mpr hwhole) w hw) fun r w' hw' => ?_
        cases r with
        | ok result => exact hw'
        | error failure =>
          exact concludes_safe hothers (Uses.bind (uses_handleFailure ..) fun _ => .pure) hw'
  · have halike := World.alike_perform (a := .load job) trivial w answer
    exact hw.alike halike

theorem runWorker_safe (ex : Executor) (hidentifying : Identifying repository)
    (hw : Ledger repository w) :
    Safe (rules.setting (Ledger repository)) (runWorker repository ex job) w
      fun _ w' => Ledger repository w' := by
  unfold runWorker
  refine Safe.attempt_bind (execute_safe hothers ex hidentifying hw) fun r w' hw' => ?_
  cases r with
  | ok result => exact hw'
  | error failure =>
    exact concludes_safe hothers (Uses.bind (Uses.attempt (uses_call rfl)) fun _ => .pure) hw'

omit hothers in
theorem initial_ledger (head : String) (recorded : List Recorded) (nextId : ℕ) :
    Ledger repository (initial head recorded nextId).world where
  named job state hstate := by cases hstate
  books job state hstate := by cases hstate
  single job job' state state' hstate := by cases hstate
  owned e he := by cases he

end Ending

/-- The ledgers are kept over the whole life of the updater. -/
theorem run_ledger (hidentifying : Identifying repository) (head : String)
    (recorded : List Recorded) (nextId : ℕ) (events : List Event) :
    Rules.any.Sound (Ledger repository)
      (Runs.run (step repository) events (initial head recorded nextId)) := by
  have hothers : Rules.any.Within := fun _ _ => id
  refine Rules.run_sound (fun _ _ hs hstep => hs.others hstep)
    (fun w hw => hw.alike ⟨rfl, rfl, rfl, rfl⟩)
    (fun ex job w hw => runWorker_safe hothers ex hidentifying hw.beginExecution)
    ⟨initial_ledger head recorded nextId, nofun⟩ ?_
  generalize initial head recorded nextId = s
  induction events generalizing s with
  | nil => trivial
  | cons e rest ih => exact ⟨Rules.any_admit e s, ih _⟩

end IsadoraAir.UpdateJob
