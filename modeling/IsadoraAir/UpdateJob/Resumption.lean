import IsadoraAir.Releases.Agreement
import IsadoraAir.UpdateJob.DependencyClosure
import IsadoraAir.UpdateJob.Lifetime

/-!
# A source that was advanced and not recorded

The next execution of the job finds the live source at the target, and records
the milestone without moving it again, as long as its reads succeed until then.
-/

namespace IsadoraAir.UpdateJob

open Relation Routine Runs
open Releases (TrustedPlan PlanValues Repository derivePlan)

variable {a : Action} {name : Milestone} {m : Program (Option JobState)} {plan' : TrustedPlan}
  {R : World → Prop}

/-! ## What the next execution has to read -/

/-- The graph of the target, with everything of the plan applied. -/
structure Payload.Verified (payload : Payload) (plan : TrustedPlan) : Prop where
  clean : payload.clean = true
  applied : ∃ closure, dependencyClosure payload.nodes plan.migrationsRequired = .ok closure ∧
    closure ⊆ payload.applied
  automatic : payload.manualOperations = []

/-- The reads that the record depends on succeed, and the writes are made. -/
def Favourable (repository : Repository) (targetRelease : String) (plan : TrustedPlan)
    (payload : Payload) : (a : Action) → a.Answer → Prop
  | .load _, failure => failure = none
  | .liveIdentity, failure => failure = none
  | .update .., answer => answer = .done
  | .milestone .., answer => answer = .done
  | .fetch, answer => ∃ tip plan', answer = .ok tip ∧
      derivePlan repository tip plan.installedCommit targetRelease = .ok plan' ∧
        plan'.fingerprint = plan.fingerprint
  | .probe .., answer => answer = .ok payload
  | .materialize .., answer => answer = .ok ()
  | _, _ => True

def favourableRules (repository : Repository) (targetRelease : String) (plan : TrustedPlan)
    (payload : Payload) : Rules where
  answers _ a answer := Favourable repository targetRelease plan payload a answer
  others := Others

theorem ofExcept_ok_bind {α β : Type} (a : α) (f : α → Program β) : (ofExcept (.ok a) >>= f) = f a :=
  rfl

theorem return_bind {α β : Type} (a : α) (f : α → Program β) :
    ((return a : Program α) >>= f) = f a :=
  rfl

theorem require_true_bind {α : Type} (classification : String) (manual : Bool)
    (f : Unit → Program α) : (require true classification manual >>= f) = f () :=
  rfl

theorem findPartialRecovery_verified {payload : Payload} {plan : TrustedPlan}
    (h : payload.Verified plan) :
    findPartialRecovery plan payload (some payload) = (return none : Program (Option Evidence)) := by
  obtain ⟨closure, hclosure, -⟩ := h.applied
  have hnone : closure.filter (fun ref => ref ∉ payload.nodes.keys) = [] :=
    List.filter_eq_nil_iff.mpr fun ref href => by
      simpa using dependencyClosure_subset hclosure href
  unfold findPartialRecovery
  simp only [hclosure, ofExcept_ok_bind, hnone, List.filter_nil, if_true]

theorem validateTargetSchema_verified {payload : Payload} {plan : TrustedPlan}
    (h : payload.Verified plan) (started : Bool) :
    validateTargetSchema plan payload (some payload) started none =
      (return ([], .notRequired) : Program (List MigrationRef × AuthorizationSource)) := by
  obtain ⟨closure, hclosure, happlied⟩ := h.applied
  have hnone : closure.filter (fun ref => ref ∉ payload.nodes.keys) = [] :=
    List.filter_eq_nil_iff.mpr fun ref href => by
      simpa using dependencyClosure_subset hclosure href
  have hexpected : closure.filter (fun ref => ref ∉ payload.applied) = [] :=
    List.filter_eq_nil_iff.mpr fun ref href => by simpa using happlied href
  have hclean := h.clean
  simp only [Payload.clean, Bool.and_eq_true, Bool.not_eq_true', List.isEmpty_iff] at hclean
  obtain ⟨⟨hconflicts, hreplacements⟩, hplan⟩ := hclean
  unfold validateTargetSchema
  simp only [hconflicts, hreplacements, hclosure, hplan, h.automatic, Bool.not_false,
    ofExcept_ok_bind, require_true_bind, hexpected, alreadyAppliedTransition, hnone,
    List.filter_nil]
  rfl

/-! ## The milestone stays -/

/-- The milestone is on record. -/
def Settled (job : JobId) (w : World) : Prop :=
  (∀ job' state, w.stateOf job' = some state → state.jobId = job') ∧
    ∃ state, w.stateOf job = some state ∧ .sourceAdvanced ∈ state.milestones

section Settled

variable {job : JobId} {w w' : World}

theorem Settled.alike (h : Settled job w) (halike : Alike w w') : Settled job w' := by
  obtain ⟨hnamed, state, hstate, hrecorded⟩ := h
  refine ⟨fun j s hs => hnamed j s (halike.stateOf j ▸ hs), state, ?_, hrecorded⟩
  rwa [halike.stateOf]

theorem Settled.put {state state' : JobState} (h : Settled job w)
    (hstate : w.stateOf state'.jobId = some state)
    (hmilestones : state.milestones ⊆ state'.milestones) : Settled job (w.put state') := by
  obtain ⟨hnamed, own, hown, hrecorded⟩ := h
  refine ⟨fun j s hs => ?_, ?_⟩
  · rw [World.stateOf_put] at hs
    split_ifs at hs with hj
    · cases hs
      exact hj.symm
    · exact hnamed j s hs
  · rw [World.stateOf_put]
    split_ifs with hjob
    · subst hjob
      obtain rfl : state = own := Option.some.inj (hstate.symm.trans hown)
      exact ⟨_, rfl, hmilestones hrecorded⟩
    · exact ⟨own, hown, hrecorded⟩

theorem Settled.perform (h : Settled job w) (answer : a.Answer) :
    Settled job (w.perform a answer).2 := by
  cases a with
  | update job' change =>
    rcases w.update_cases job' change answer with ⟨-, heq⟩ | ⟨state, hstate, -, heq⟩
    · rwa [heq]
    · obtain rfl := h.1 job' state hstate
      rw [heq]
      have hown : w.stateOf (state.change change).jobId = some state := by
        rwa [state.change_jobId]
      refine h.put hown ?_
      rw [state.change_milestones]
      exact List.Subset.refl _
  | milestone job' name =>
    rcases w.milestone_cases job' name answer with ⟨-, heq⟩ | ⟨state, hstate, heq⟩
    · rwa [heq]
    · obtain rfl := h.1 job' state hstate
      rw [heq]
      have hown : w.stateOf (state.addMilestone name).jobId = some state := hstate
      exact h.put hown fun m hm => JobState.mem_addMilestone.mpr (.inr hm)
  | launchGuarded request =>
    cases answer with
    | some failure => exact h
    | none => exact h
  | merge job' commit =>
    obtain ⟨ok, moved⟩ := answer
    cases moved with
    | false => exact h
    | true => exact h
  | collectstatic job' => exact h
  | reconcile job' plan => exact h
  | restart job' service => exact h
  | _ =>
    refine h.alike (World.alike_perform ?_ w answer)
    trivial

theorem Settled.others (h : Settled job w) (hstep : Others w w') : Settled job w' := by
  obtain ⟨hnamed, state, hstate, hrecorded⟩ := h
  refine ⟨fun j s hs => ?_, state, hstep.stateOf hstate, hrecorded⟩
  cases hstep with
  | accept job'' targetRelease fingerprint =>
    rcases w.accept_cases job'' targetRelease fingerprint with heq | ⟨-, -, heq⟩
    · rw [heq] at hs
      exact hnamed j s hs
    · rw [heq, World.stateOf_put] at hs
      split_ifs at hs with hj
      · cases hs
        exact hj.symm
      · exact hnamed j s hs
  | resolve index attempt =>
    rw [(w.alike_resolve index attempt).stateOf] at hs
    exact hnamed j s hs
  | insertRow ref applied => exact hnamed j s hs
  | deleteRow id => exact hnamed j s hs

end Settled

/-! ## The next execution -/

section Resuming

variable {repository : Repository} {rules : Rules} {job : JobId} {F G : View → Prop}
  {w w' : World} {α β : Type}

/-- From `F` on, the routine ends with the milestone on record. -/
def Records (rules : Rules) (repository : Repository) (job : JobId) (F : View → Prop)
    (m : Program α) : Prop :=
  ∀ w, Underway repository job F w →
    Safe (rules.setting fun _ => True) m w fun _ => Settled job

theorem Triple.records_bind {m : Program α} {f : α → Program β} {G : α → View → Prop}
    (hm : Triple rules repository job (Settled job) F m G)
    (hf : ∀ a, Records rules repository job (G a) (f a)) :
    Records rules repository job F (m >>= f) :=
  fun w hw => ((hm w hw).weaken fun _ _ => trivial).bind (fun a w' hr => hf a w' hr)
    fun _ _ hr => hr

theorem Settled.safe (hothers : rules.Within) (m : Program α) (h : Settled job w) :
    Safe (rules.setting fun _ => True) m w fun _ => Settled job := by
  have huses : m.Uses fun _ => True := by
    induction m with
    | pure a => trivial
    | raise e => trivial
    | act a next ih => exact ⟨trivial, fun r => ih r⟩
  refine Uses.safe huses h (fun _ _ hs hstep => hs.others (hothers _ _ hstep))
    (fun _ _ => trivial) ?_
  rintro a s r s' - hs ⟨answer, -, heq⟩
  have hafter := hs.perform answer
  rwa [heq] at hafter

theorem Settled.of_underway (h : Underway repository job F w)
    (hmark : ∀ v, F v → .sourceAdvanced ∈ v.marks) : Settled job w := by
  obtain ⟨state, hstate, -⟩ := h.active
  have hmem := hmark _ h.holds
  rw [World.view_marks hstate] at hmem
  exact ⟨h.ledger.named, state, hstate, hmem.2⟩

/-- An action that cannot fail is as good with another end for its failure. -/
theorem Triple.sure {G : a.Value → View → Prop} (hothers : rules.Within)
    (h : Triple rules repository job (Ledger repository) F (UpdateJob.call a) G)
    (hok : ∀ w answer, Underway repository job F w → rules.answers w a answer →
      ∃ value, (w.perform a answer).1 = .ok value) :
    Triple rules repository job R F (UpdateJob.call a) G := by
  intro w hw
  have hsafe := h w hw
  refine ⟨hsafe.1, fun t hrun r t' hexec => ?_⟩
  have ht : Underway repository job F t :=
    (show (rules.setting (Ledger repository)).Stable (Underway repository job F) from
      fun _ _ hs hstep => hs.others (hothers _ _ hstep)).reflTransGen hw hrun
  have hafter := hsafe.2 t hrun r t' hexec
  obtain ⟨answer, hanswer, heq⟩ := hexec
  obtain ⟨value, hvalue⟩ := hok t answer ht hanswer
  rw [heq] at hvalue
  obtain rfl : r = .ok value := hvalue
  exact hafter

/-- A quiet action that answers in a known way. -/
theorem Triple.answer {V : a.Value → Prop} (hothers : rules.Within) (hquiet : a.Quiet job)
    (hok : ∀ w answer, Underway repository job F w → rules.answers w a answer →
      ∃ value, (w.perform a answer).1 = .ok value ∧ V value) :
    Triple rules repository job R F (UpdateJob.call a) fun value v => V value ∧ F v := by
  refine Triple.call hothers fun w answer hw hanswer => ?_
  obtain ⟨value, hvalue, hV⟩ := hok w answer hw hanswer
  have hafter := hw.quiet hquiet answer
  rw [hvalue]
  exact hafter.imp fun v _ _ hv => ⟨hV, hv⟩

end Resuming

/-- The values of the plan decide what blocks it, when no protected runtime is crossed. -/
theorem manualBlockers_eq {plan : TrustedPlan} (hvalues : plan.toPlanValues = plan'.toPlanValues)
    (htransition : plan.protectedRuntimeTransition = plan'.protectedRuntimeTransition)
    (knownUnits : List String) :
    manualBlockers plan knownUnits = manualBlockers plan' knownUnits := by
  unfold manualBlockers
  rw [hvalues, htransition]

/-- Where a job stands whose worker died between the advance and its record. -/
structure Unrecorded (repository : Repository) (plan : TrustedPlan) (state : JobState)
    (knownUnits : List String) : Prop where
  active : state.status.terminal = false
  recorded : state.trustedPlan = some plan
  derives : Derives repository plan
  fingerprint : plan.fingerprint = state.expectedPlanFingerprint
  ordinary : plan.protectedRuntimeTransition = none
  unblocked : manualBlockers plan knownUnits = []
  verified : .databaseVerified ∈ state.milestones
  unrecorded : .sourceAdvanced ∉ state.milestones

section Recovery

variable {repository : Repository} {targetRelease : String} {plan : TrustedPlan}
  {payload : Payload} {job : JobId} {state : JobState} {ex : Executor} {F G : View → Prop}

theorem favourable_within :
    (favourableRules repository targetRelease plan payload).Within := fun _ _ => id

theorem record_sure
    (h : Triple (favourableRules repository targetRelease plan payload) repository job
      (Ledger repository) F (recordMilestone job name) fun _ => G) :
    Triple (favourableRules repository targetRelease plan payload) repository job (Settled job) F
      (recordMilestone job name) fun _ => G := by
  refine Triple.sure favourable_within h fun w answer hw hanswer => ?_
  obtain ⟨own, hown, -⟩ := hw.active
  obtain rfl : answer = .done := hanswer
  exact ⟨(), by simp only [World.perform, hown, World.writing]⟩

theorem record_quiet (hstage : name.stage = 0) :
    Triple (favourableRules repository targetRelease plan payload) repository job (Settled job) F
      (recordMilestone job name) fun _ => F :=
  record_sure (Triple.quiet favourable_within (uses_recordMilestone hstage)
    fun _ => Underway.ledger)

theorem update_sure {change : Change} {G : Unit → View → Prop}
    (hfrozen : ∀ state : JobState, state.frozen change = false)
    (h : Triple (favourableRules repository targetRelease plan payload) repository job
      (Ledger repository) F (call (.update job change)) G) :
    Triple (favourableRules repository targetRelease plan payload) repository job (Settled job) F
      (call (.update job change)) G := by
  refine Triple.sure favourable_within h fun w answer hw hanswer => ?_
  obtain ⟨own, hown, -⟩ := hw.active
  obtain rfl : answer = .done := hanswer
  exact ⟨(), by simp [World.perform, hown, hfrozen own, World.writing]⟩

theorem probe_answer {source : ProbeSource} {refs : List MigrationRef} :
    Triple (favourableRules repository targetRelease plan payload) repository job (Settled job) F
      (call (.probe source refs)) fun value v => value = payload ∧ F v :=
  Triple.answer favourable_within trivial fun _ _ _ hanswer =>
    ⟨payload, hanswer, rfl⟩

/-- The plan is derived again, and it is the same. -/
theorem derive_recovers (hidentifying : Identifying repository)
    (h : Unrecorded repository plan state ex.knownUnits)
    (hrequested : state.requestedTargetReleaseId = targetRelease) :
    Triple (favourableRules repository targetRelease plan payload) repository job (Settled job)
      (fun v => v.Loaded state ∧ v.head = plan.targetCommit) (derive repository ex job state)
      fun derived v => v.Planned state derived ∧ derived.sourceAlreadyAtTarget = true ∧
        derived.plan.toPlanValues = plan.toPlanValues ∧
        derived.plan.protectedRuntimeTransition = none := by
  unfold derive
  refine Triple.bind (Triple.sure (G := fun head v => (v.Loaded state ∧ v.head = plan.targetCommit)
    ∧ v.head = head) favourable_within (liveIdentity_triple favourable_within)
    fun w answer _ hanswer => ?_) fun head => ?_
  · obtain rfl : answer = none := hanswer
    exact ⟨w.head, rfl⟩
  refine Triple.bind (Triple.answer (V := fun tip => ∃ plan',
    derivePlan repository tip plan.installedCommit targetRelease = .ok plan' ∧
      plan'.fingerprint = plan.fingerprint) favourable_within trivial
    fun w answer _ hanswer => ?_) fun tip => ?_
  · obtain ⟨tip, plan', rfl, hplan', hfingerprint⟩ := hanswer
    exact ⟨tip, rfl, plan', hplan', hfingerprint⟩
  refine Triple.bind (record_quiet rfl) fun _ w hw => ?_
  obtain ⟨⟨plan', hplan', hfingerprint⟩, ⟨-, hat⟩, hhead⟩ := hw.holds
  have htarget : head = plan.targetCommit := hhead.symm.trans hat
  have hmoved : sourceAlreadyAtTarget state head = true := by
    simp [sourceAlreadyAtTarget, h.verified, h.recorded, htarget]
  have hbasis : basisHead state head = plan.installedCommit := by
    simp [basisHead, h.recorded, hmoved]
  have hderives : Derives repository plan' := ⟨_, _, _, hplan'⟩
  have hpayload := hidentifying plan plan' h.derives hderives hfingerprint.symm
  have hvalues : plan.toPlanValues = plan'.toPlanValues :=
    Releases.TrustedPlan.fingerprintPayload_inj hpayload
  have htransition : plan'.protectedRuntimeTransition = none := by
    cases hcrossed : plan'.protectedRuntimeTransition with
    | none => rfl
    | some transition =>
      have hlength := congrArg List.length hpayload
      rw [Releases.TrustedPlan.fingerprintPayload_length, h.ordinary,
        Releases.TrustedPlan.fingerprintPayload_length, hcrossed] at hlength
      simp at hlength
      split at hlength <;> omega
  have hblockers : manualBlockers plan' ex.knownUnits = [] := by
    rw [← manualBlockers_eq hvalues (h.ordinary.trans htransition.symm), h.unblocked]
  have hsame : ∀ recorded, state.trustedPlan = some recorded →
      recorded.toPlanValues = plan'.toPlanValues := by
    intro recorded hrecorded
    rw [h.recorded] at hrecorded
    cases hrecorded
    exact hvalues
  rw [hbasis, hrequested, hplan']
  simp only [hfingerprint, h.fingerprint, hblockers, decide_true, require_true_bind, hmoved]
  have hrest : Triple (favourableRules repository targetRelease plan payload) repository job
      (Settled job) (fun v => v.Loaded state ∧ v.head = head) (do
        call (.update job (.trustedPlan plan'))
        recordMilestone job .trustedPlanValidated
        return ⟨plan', true⟩ : Program Derived)
      fun derived v => v.Planned state derived ∧ derived.sourceAlreadyAtTarget = true ∧
        derived.plan.toPlanValues = plan.toPlanValues ∧
        derived.plan.protectedRuntimeTransition = none := by
    refine Triple.bind (update_sure (fun own => ?_) (recordPlan_triple favourable_within hderives
      hsame (hfingerprint.trans h.fingerprint) fun hnone => ?_)) fun _ => ?_
    · cases hrecovery : own.migrationRecovery <;> simp [JobState.frozen, hrecovery]
    · rw [h.recorded] at hnone
      cases hnone
    · refine Triple.bind (record_quiet rfl) fun _ => Triple.pure fun v hv =>
        ⟨⟨hv.1, hv.2.1, fun _ => ?_, ?_⟩, rfl, hvalues.symm, htransition⟩
      · rw [hv.2.2, htarget, hvalues]
      · obtain ⟨hinstalled, hmoves⟩ := Releases.derivePlan_commits hplan'
        rwa [hinstalled]
  exact hrest w (hw.imp fun v _ _ hv => ⟨hv.2.1.1, hv.2.2⟩)

theorem materialize_quiet {commit : String} :
    Triple (favourableRules repository targetRelease plan payload) repository job (Settled job) F
      (call (.materialize job commit)) fun _ => F := by
  have hanswer : Triple (favourableRules repository targetRelease plan payload) repository job
      (Settled job) F (call (.materialize job commit)) fun _ v => True ∧ F v :=
    Triple.answer (V := fun _ => True) favourable_within trivial
      fun _ _ _ hanswer => ⟨(), hanswer, trivial⟩
  exact hanswer.imp (fun _ _ _ => id) fun _ _ hv => hv.2

theorem validateTarget_recovers
    (hvalues : plan'.toPlanValues = plan.toPlanValues) (hverified : payload.Verified plan)
    {milestones : List Milestone} (hopen : .sourceAdvanced ∉ milestones) :
    Triple (favourableRules repository targetRelease plan payload) repository job (Settled job) F
      (validateTarget job plan' milestones) fun _ => F := by
  have hverified : payload.Verified plan' := by
    obtain ⟨hclean, happlied, hautomatic⟩ := hverified
    rw [← hvalues] at happlied
    exact ⟨hclean, happlied, hautomatic⟩
  unfold validateTarget
  refine Triple.bind (G := fun current v => current = some payload ∧ F v) ?_ fun current => ?_
  · unfold validateCurrentSchema
    rw [if_neg hopen]
    refine Triple.bind probe_answer fun value => ?_
    intro w hw
    obtain ⟨rfl, -⟩ := hw.holds
    rw [hverified.clean, require_true_bind]
    exact hw.imp fun v _ _ hv => ⟨rfl, hv.2⟩
  refine Triple.bind (record_quiet rfl) fun _ => Triple.bind materialize_quiet fun _ => ?_
  refine Triple.bind (record_quiet rfl) fun _ => Triple.bind probe_answer fun value w hw => ?_
  obtain ⟨rfl, rfl, -⟩ := hw.holds
  rw [findPartialRecovery_verified hverified]
  have hschema : Triple (favourableRules repository targetRelease plan value) repository job
      (Settled job) F (validateTargetSchema plan' value (some value)
        (decide (Milestone.migrationStarted ∈ milestones)) none) fun _ => F := by
    rw [validateTargetSchema_verified hverified]
    exact Triple.pure fun _ => id
  rw [return_bind]
  dsimp only
  rw [return_bind]
  exact Triple.bind hschema (fun _ => Triple.bind (record_quiet rfl) fun _ =>
    Triple.pure fun _ => id) w (hw.imp fun v _ _ hv => hv.2.2)

theorem attemptExecution_records (hidentifying : Identifying repository)
    (h : Unrecorded repository plan state ex.knownUnits)
    (hrequested : state.requestedTargetReleaseId = targetRelease)
    (hverified : payload.Verified plan) :
    Records (favourableRules repository targetRelease plan payload) repository job
      (fun v => v.Loaded state ∧ v.head = plan.targetCommit)
      (attemptExecution repository ex job state) := by
  have hothers : (favourableRules repository targetRelease plan payload).Within :=
    favourable_within
  unfold attemptExecution
  refine Triple.records_bind (derive_recovers hidentifying h hrequested) fun derived w hw => ?_
  obtain ⟨-, hmoved, hvalues, htransition⟩ := hw.holds
  have hgate : runtimeGate ex job derived.plan state.milestones =
      (return some state.milestones : Program (Option (List Milestone))) := by
    unfold runtimeGate
    rw [htransition]
  have hallowed : ∀ {α : Type} (f : Unit → Program α),
      (requireMutationAllowed derived.plan state.milestones >>= f) = f () := by
    intro α f
    unfold requireMutationAllowed
    rw [htransition]
    exact require_true_bind _ _ f
  have hpipeline : Records (favourableRules repository targetRelease plan payload) repository job
      (fun v => v.Planned state derived) (mutationPipeline job state derived state.milestones) := by
    unfold mutationPipeline
    rw [hallowed]
    refine Triple.records_bind (validateTarget_recovers hvalues hverified h.unrecorded)
      fun target => ?_
    have hdatabase : reachDatabaseVerified job state derived.plan state.milestones target =
        recordMilestone job .databaseVerified := by
      unfold reachDatabaseVerified
      rw [if_pos h.verified]
    have hsource : reachSourceAdvanced job derived state.milestones =
        recordMilestone job .sourceAdvanced := by
      unfold reachSourceAdvanced
      rw [if_neg h.unrecorded, if_pos hmoved]
    rw [hdatabase, hsource]
    refine Triple.records_bind (record_sure (Triple.record hothers
      (G := fun v => v.Reached derived.plan.toPlanValues state.milestones 1 ∧
        v.head = derived.plan.targetCommit ∧
          derived.plan.targetCommit ≠ derived.plan.installedCommit)
      (fun v _ _ hv _ => ⟨?_, trivial⟩) fun v hv => ?_)) fun _ => ?_
    · rw [hv.plan]
      exact Option.some_ne_none _
    · rw [if_pos (by decide)]
      have hreached : v.Reached derived.plan.toPlanValues state.milestones 0 :=
        ⟨hv.plan, fun m hstage => hv.marks m (by omega), nofun⟩
      exact ⟨hreached.mark (k := 0) (by decide), hv.moved hmoved, hv.moves⟩
    · intro w hw
      have hmoves := hw.holds.2.2
      have hrecord : Triple (favourableRules repository targetRelease plan payload) repository
          job (Settled job)
          (fun v => v.Reached derived.plan.toPlanValues state.milestones 1 ∧
            v.head = derived.plan.targetCommit) (recordMilestone job .sourceAdvanced)
          fun _ v => v.Reached derived.plan.toPlanValues state.milestones 2 :=
        record_sure (closeSourceAdvanced_triple hothers hmoves)
      refine Triple.records_bind hrecord (fun _ w hw => ?_) w
        (hw.imp fun v _ _ hv => ⟨hv.1, hv.2.1⟩)
      exact Settled.safe hothers _ (Settled.of_underway hw fun v hv => hv.closed 1 (by decide))
  have hattempt : Safe ((favourableRules repository targetRelease plan payload).setting
      fun _ => True) (do
        mutationPipeline job state derived state.milestones
        return none : Program (Option JobState)) w fun _ => Settled job :=
    (hpipeline w (hw.imp fun v _ _ hv => hv.1)).bind (fun _ _ hr => hr) fun _ _ hr => hr
  rw [hgate]
  exact hattempt

/-- The next execution of the job records that the source was advanced. -/
theorem runWorker_records {w : World} (hidentifying : Identifying repository)
    (h : Unrecorded repository plan state ex.knownUnits)
    (hrequested : state.requestedTargetReleaseId = targetRelease)
    (hverified : payload.Verified plan) (hledger : Ledger repository w)
    (hstate : w.stateOf job = some state) (hhead : w.head = plan.targetCommit) :
    Safe ((favourableRules repository targetRelease plan payload).setting fun _ => True)
      (runWorker repository ex job) w fun _ => Settled job := by
  have hothers : (favourableRules repository targetRelease plan payload).Within :=
    favourable_within
  have hexecute : Safe ((favourableRules repository targetRelease plan payload).setting
      fun _ => True) (execute repository ex job) w fun _ => Settled job := by
    unfold execute
    refine Rules.safe_call_bind (P := fun w => w.stateOf job = some state ∧
      Ledger repository w ∧ w.head = plan.targetCommit) ⟨hstate, hledger, hhead⟩
      (fun w w' hs hstep => ⟨?_, ?_, ?_⟩) (fun _ _ => trivial)
      (fun w answer loaded hw hanswer hvalue => ?_) fun w answer failure hw hanswer herror => ?_
    · exact Others.stateOf hstep hs.1
    · exact hs.2.1.others hstep
    · have hview := congrArg View.head (Others.view hstep hs.1)
      exact hview.trans hs.2.2
    · obtain ⟨hstate, hledger, hhead⟩ := hw
      obtain rfl : answer = none := hanswer
      simp only [World.perform, hstate] at hvalue ⊢
      obtain rfl : state = loaded := Except.ok.inj hvalue
      have hwhole : interruptedMigration state.milestones = false := by
        simp [interruptedMigration, h.verified]
      rw [h.active, hwhole]
      simp only [Bool.false_eq_true, if_false]
      have hunderway : Underway repository job
          (fun v => v.Loaded state ∧ v.head = plan.targetCommit) w :=
        ⟨hledger, ⟨state, hstate, h.active⟩, World.loaded hstate, hhead⟩
      refine Triple.records_bind (update_sure (fun own => ?_) (running_triple hothers))
        (fun _ w hw => ?_) w hunderway
      · cases hrecovery : own.migrationRecovery <;> simp [JobState.frozen, hrecovery]
      · exact Safe.attempt_bind (attemptExecution_records hidentifying h hrequested hverified w hw)
          fun r w' hw' => Settled.safe hothers _ hw'
    · obtain rfl : answer = none := hanswer
      simp only [World.perform, hw.1] at herror
      cases herror
  exact Safe.attempt_bind hexecute fun r w' hw' => Settled.safe hothers _ hw'

end Recovery

/-! ## An execution comes to its end -/

/-- The worker is not killed, and goes on as long as it runs. -/
structure Uninterrupted (events : ℕ → Event) : Prop where
  alive : ∀ n, events n ≠ .crash
  goesOn : ∀ n, ∃ k, n ≤ k ∧ ∃ answer, events k = .act answer

section Along

variable {repository : Repository} {rules : Rules} {job : JobId} {events : ℕ → Event} {s : System}

/-- What is running is safe, or the milestone is on record. -/
def Recovering (rules : Rules) (job : JobId) (m : Program (Option JobState)) (s : System) : Prop :=
  s.execution = some m ∧
    Safe (rules.setting fun _ => True) m s.world fun _ => Settled job

/-- Whatever is not an action of the execution leaves it where it is. -/
theorem Recovering.wait (hothers : rules.Within) {e : Event}
    (h : Recovering rules job m s) (hallowed : rules.Admit e s) (halive : e ≠ .crash)
    (hact : ∀ answer, e ≠ .act answer) : Recovering rules job m (step repository e s) := by
  obtain ⟨hrunning, hsafe⟩ := h
  have hwait : ∀ w, rules.others s.world w → Recovering rules job m { s with world := w } :=
    fun w hstep => ⟨hrunning, hsafe.others (fun _ _ _ _ => trivial)
      (fun _ _ _ hs hstep => hs.others (hothers _ _ hstep)) hstep⟩
  cases e with
  | accept job' targetRelease fingerprint => exact hwait _ hallowed
  | execute ex job' =>
    simp only [step, hrunning]
    exact ⟨hrunning, hsafe⟩
  | act answer => exact absurd rfl (hact answer)
  | crash => exact absurd rfl halive
  | resolve index attempt => exact hwait _ hallowed
  | insertRow ref applied => exact hwait _ hallowed
  | deleteRow id => exact hwait _ hallowed

theorem Recovering.settles (hothers : rules.Within) (hevents : Uninterrupted events)
    (hallowed : ∀ n, rules.Admit (events n) (along (step repository) events s n)) {n : ℕ}
    (h : Recovering rules job m (along (step repository) events s n)) :
    ∃ k, Settled job (along (step repository) events s k).world := by
  induction m generalizing n with
  | pure a => exact ⟨n, h.2⟩
  | raise e => exact ⟨n, h.2⟩
  | act a next ih =>
    obtain ⟨k, hnk, answer, hact⟩ := hevents.goesOn n
    -- the number of events until the next action of the execution
    induction hd : k - n using Nat.strong_induction_on generalizing n with
    | _ d ihd =>
      by_cases hnow : ∃ answer, events n = .act answer
      · obtain ⟨answer, hnow⟩ := hnow
        have hstep : along (step repository) events s (n + 1) =
            step repository (.act answer) (along (step repository) events s n) := by
          rw [← hnow]
          rfl
        have hanswer := hallowed n
        rw [hnow] at hanswer
        have hafter : Safe (rules.setting fun _ => True)
            (next ((along (step repository) events s n).world.perform a (answer a)).1)
            ((along (step repository) events s n).world.perform a (answer a)).2
            fun _ => Settled job :=
          h.2.2 _ .refl _ _ ⟨answer a, hanswer a next h.1, rfl⟩
        simp only [step, h.1] at hstep
        cases hnext : next ((along (step repository) events s n).world.perform a (answer a)).1 with
        | pure result =>
          rw [hnext] at hafter hstep
          refine ⟨n + 1, ?_⟩
          rw [hstep]
          exact hafter
        | raise failure =>
          rw [hnext] at hafter hstep
          refine ⟨n + 1, ?_⟩
          rw [hstep]
          exact hafter
        | act a' next' =>
          refine ih ((along (step repository) events s n).world.perform a (answer a)).1
            (n := n + 1) ?_
          rw [hnext] at hafter hstep ⊢
          rw [hstep]
          exact ⟨rfl, hafter⟩
      · have hne : n ≠ k := fun heq => hnow ⟨answer, heq ▸ hact⟩
        have hafter : Recovering rules job (.act a next)
            (along (step repository) events s (n + 1)) :=
          h.wait hothers (hallowed n) (hevents.alive n) fun answer heq => hnow ⟨answer, heq⟩
        exact ihd (k - (n + 1)) (by omega) hafter (by omega) rfl

end Along

/-- The worker is gone, the job moved the live source and has no milestone for it. -/
structure DiedUnrecorded (s : System) (job : JobId) (state : JobState) (plan : TrustedPlan) :
    Prop where
  gone : s.execution = none
  found : s.world.stateOf job = some state
  active : state.status.terminal = false
  recorded : state.trustedPlan = some plan
  ordinary : plan.protectedRuntimeTransition = none
  advanced : ∃ e ∈ s.world.effectsOf job, e.kind.phase = 1
  unrecorded : .sourceAdvanced ∉ state.milestones

theorem DiedUnrecorded.recovers {repository : Repository} {s : System} {job : JobId}
    {state : JobState} {plan : TrustedPlan} {ex : Executor} {payload : Payload} {events : ℕ → Event}
    (h : DiedUnrecorded s job state plan) (hidentifying : Identifying repository)
    (hledger : Ledger repository s.world) (hunblocked : manualBlockers plan ex.knownUnits = [])
    (hverified : payload.Verified plan) (hevents : Uninterrupted events)
    (hallowed : ∀ n, Milestone.sourceAdvanced ∉ (along (step repository) events
        (step repository (.execute ex job) s) n).world.milestonesOf job →
      (favourableRules repository state.requestedTargetReleaseId plan payload).Admit (events n)
        (along (step repository) events (step repository (.execute ex job) s) n)) :
    ∃ n, Milestone.sourceAdvanced ∈ (along (step repository) events
      (step repository (.execute ex job) s) n).world.milestonesOf job := by
  by_contra hnever
  push Not at hnever
  have hallowed := fun n => hallowed n (hnever n)
  have hbooks := hledger.books job state h.found
  obtain ⟨hderives, hfingerprint⟩ := hbooks.plans plan h.recorded
  have hplan : (s.world.view job).plan = some plan.toPlanValues := by
    rw [World.view_plan h.found, h.recorded]
    rfl
  obtain ⟨e, he, hphase⟩ := h.advanced
  have hverifiedThen := ((hbooks.trail.fits _ hplan e he).timely 0 (by decide)).mpr (by omega)
  have hmark := hbooks.trail.known e he _ hverifiedThen (by decide)
  rw [World.view_marks h.found] at hmark
  have hunrecorded : Unrecorded repository plan state ex.knownUnits :=
    ⟨h.active, h.recorded, hderives, hfingerprint, h.ordinary, hunblocked, hmark.2, h.unrecorded⟩
  have hhead : s.world.head = plan.targetCommit :=
    (hbooks.placed h.active _ hplan).1 ⟨e, he, hphase⟩
  have hsafe : Safe ((favourableRules repository state.requestedTargetReleaseId plan
      payload).setting fun _ => True) (runWorker repository ex job) s.world.beginExecution
      fun _ => Settled job :=
    runWorker_records hidentifying hunrecorded rfl hverified hledger.beginExecution h.found hhead
  have hsettled : ∃ n, Settled job (along (step repository) events
      (step repository (.execute ex job) s) n).world := by
    have hstart : step repository (.execute ex job) s =
        .settle s.world.beginExecution (runWorker repository ex job) := by
      simp only [step, h.gone]
    cases hrun : runWorker repository ex job with
    | pure result =>
      rw [hrun] at hsafe hstart
      refine ⟨0, ?_⟩
      rw [along, hstart]
      exact hsafe
    | raise failure =>
      rw [hrun] at hsafe hstart
      refine ⟨0, ?_⟩
      rw [along, hstart]
      exact hsafe
    | act a next =>
      rw [hrun] at hsafe hstart
      refine Recovering.settles (n := 0) favourable_within hevents hallowed (m := .act a next) ?_
      rw [along, hstart]
      exact ⟨rfl, hsafe⟩
  obtain ⟨n, -, own, hown, hrecorded⟩ := hsettled
  refine hnever n ?_
  rwa [World.milestonesOf, hown]

open Releases (sampleRepository samplePlan sampleRepository_plan)

def samplePayload : Payload := ⟨[], Dict.empty, [], false, false, none, none, [], none, none, []⟩

/-- Everything answers, and the trusted branch is at `tip`. -/
def sampleAnswers (tip : String) : (a : Action) → a.Answer
  | .load _ | .listStates | .liveIdentity | .observeRecords _ | .observeReceipt _ | .uuid4 => none
  | .update .. | .milestone .. => .done
  | .launchGuarded _ => none
  | .awaitGuarded => .ended
  | .merge .. => ⟨true, true⟩
  | .collectstatic _ | .reconcile .. | .restart .. => none
  | .fetch => .ok tip
  | .probe .. => .ok samplePayload
  | .materialize .. | .cleanup .. | .preflights _ | .postflightHttp | .closeStore => .ok ()
  | .authorize _ => .ok .notRequired
  | .verifyCheckpoint _ => .ok true
  | .createCheckpoint .. | .runtimeState | .stageCandidate .. => .error .unexpected
  | .appFetch | .appTargetIsFastForward _ | .confirmAcceptance .. => .ok true
  | .verifyCandidate .. | .requestActivation .. => .ok ()

def sampleExecutor : Executor := ⟨[], false, none⟩

/-- The job is accepted and executed until the source has moved, and its worker dies. -/
def sampleAdvance : List Event :=
  [.accept "job" "r0002" samplePlan.fingerprint, .execute sampleExecutor "job"] ++
    List.replicate 18 (.act (sampleAnswers "1111")) ++ [.crash]

/-- The next execution, with another release published since. -/
def sampleRefusal : List Event :=
  .execute sampleExecutor "job" :: List.replicate 20 (.act (sampleAnswers "2222"))

theorem sampleRepository_identifying : Identifying sampleRepository := by
  have hplan : ∀ plan, Derives sampleRepository plan → plan = samplePlan := by
    rintro plan ⟨tip, head, targetRelease, hderived⟩
    obtain ⟨chain, installed, target, hfrom, rfl⟩ := Releases.derivePlan_ok hderived
    obtain ⟨manifests, hmanifests, hloaded⟩ := hfrom.loaded
    have htip : tip = "1111" := by
      by_contra hne
      simp [sampleRepository, hne] at hmanifests
    subst htip
    obtain rfl : Releases.sampleTrusted = manifests := Except.ok.inj hmanifests
    obtain rfl : [Releases.sampleInstalled, Releases.sampleTarget] = chain :=
      Except.ok.inj (Releases.sampleHistory_chain.symm.trans hloaded)
    obtain rfl : Releases.sampleTarget = target := Option.some.inj hfrom.last
    have hmem : installed ∈ [Releases.sampleInstalled, Releases.sampleTarget].filter
        fun entry => entry.commit = head := by
      rw [hfrom.exact]
      exact List.mem_singleton_self _
    obtain rfl : installed = Releases.sampleInstalled := by
      rcases List.mem_cons.mp (List.mem_filter.mp hmem).1 with rfl | hlast
      · rfl
      · obtain rfl := List.mem_singleton.mp hlast
        exact absurd hfrom.advances (lt_irrefl _)
    rfl
  intro plan plan' hderives hderives' _
  rw [hplan plan hderives, hplan plan' hderives']

theorem samplePayload_verified : samplePayload.Verified samplePlan :=
  ⟨rfl, ⟨[], rfl, List.nil_subset _⟩, rfl⟩

theorem sampleAnswers_favourable (a : Action) :
    Favourable sampleRepository "r0002" samplePlan samplePayload a (sampleAnswers "1111" a) := by
  cases a with
  | fetch => exact ⟨"1111", samplePlan, rfl, sampleRepository_plan, rfl⟩
  | _ => first | rfl | trivial

end IsadoraAir.UpdateJob
