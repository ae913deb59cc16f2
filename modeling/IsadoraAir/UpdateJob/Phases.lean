import IsadoraAir.UpdateJob.Underway

/-!
# The phases of an execution

Every phase makes its effects while its milestone is open and closes it. What the
execution has in memory is what was on record when it began, so a milestone that
it has not closed itself is known exactly.
-/

namespace IsadoraAir.UpdateJob

open Relation Routine
open Releases (TrustedPlan PlanValues Repository derivePlan)

variable {kind : EffectKind} {state : JobState} {before : List String} {target : Target}

/-- All phases before `k` are closed; of the milestones from `k` on, memory knows which are
recorded. -/
structure View.Reached (v : View) (p : PlanValues) (milestones : List Milestone) (k : ℕ) : Prop where
  plan : v.plan = some p
  known : ∀ m : Milestone, k + 2 ≤ m.stage → (m ∈ milestones ↔ m ∈ v.marks)
  closed : ∀ j < k, closing j ∈ v.marks

namespace View.Reached

variable {v : View} {p : PlanValues} {milestones : List Milestone} {k : ℕ} {e : Effect}

theorem mark (h : v.Reached p milestones k) (hk : k ≤ 4) :
    (v.mark (closing k)).Reached p milestones (k + 1) where
  plan := h.plan
  known m hstage := by
    have hne : m ≠ closing k := by
      rintro rfl
      have := closing_stage hk
      omega
    rw [h.known m (by omega)]
    exact ⟨.inr, fun hm => hm.resolve_left hne⟩
  closed j hj := by
    rcases Nat.lt_succ_iff_lt_or_eq.mp hj with hj | rfl
    · exact .inr (h.closed j hj)
    · exact .inl rfl

theorem append (h : v.Reached p milestones k) : (v.append e).Reached p milestones k :=
  ⟨h.plan, h.known, h.closed⟩

theorem closing_iff (h : v.Reached p milestones k) (hk : k ≤ 4) :
    closing k ∈ milestones ↔ closing k ∈ v.marks :=
  h.known _ (by rw [closing_stage hk])

/-- It is the turn of an effect of this phase, unless its kind asks for more. -/
theorem ready (h : v.Reached p milestones k) (hphase : kind.phase = k)
    (hopen : closing k ∉ milestones) (h2 : 2 ≤ k) (h3 : k ≤ 3) : v.Ready p kind where
  plan := h.plan
  before := by
    rw [hphase]
    exact h.closed
  pending := by
    rwa [hphase, ← h.closing_iff (by omega)]
  migration h0 := by omega
  target commit heq := by
    subst heq
    have : (1 : ℕ) = k := hphase
    omega
  restart service heq := by
    subst heq
    have : (4 : ℕ) = k := hphase
    omega

end View.Reached

variable {repository : Repository} {rules : Rules} {job : JobId} {F G : View → Prop}
  {p : PlanValues} {milestones : List Milestone}

/-! ## Records and effects -/

theorem Triple.record {name : Milestone} (hothers : rules.Within)
    (hentitled : ∀ v, Trail v → v.Placed → F v → 0 < name.stage →
      v.plan ≠ none ∧ v.Entitled name)
    (hG : ∀ v, F v → G (if 0 < name.stage then v.mark name else v)) :
    Triple rules repository job (Ledger repository) F (recordMilestone job name) fun _ => G := by
  refine Triple.call hothers fun w answer hw _ => ?_
  rcases w.milestone_cases job name answer with ⟨⟨failure, herror⟩, heq⟩ | ⟨state, hstate, heq⟩
  · rw [herror, heq]
    exact hw.ledger
  · obtain ⟨own, hown, hactive⟩ := hw.active
    have hbooks := hw.ledger.books job own hown
    have hafter : Underway repository job G (w.put (state.addMilestone name)) :=
      hw.addMilestone hstate (hentitled _ hbooks.trail (hbooks.placed hactive) hw.holds) hG
    rw [heq]
    cases (w.perform (.milestone job name) answer).1 with
    | ok value => exact hafter
    | error failure => exact hafter.ledger

/-- A phase is closed by what entitles to its milestone. -/
theorem Triple.close {k : ℕ} (hothers : rules.Within) (hk : k ≤ 4)
    (hF : ∀ v, Trail v → v.Placed → F v → v.Reached p milestones k ∧ v.Entitled (closing k)) :
    Triple rules repository job (Ledger repository) F (recordMilestone job (closing k))
      fun _ v => v.Reached p milestones (k + 1) := by
  have hstage := closing_stage hk
  have hrecord : Triple rules repository job (Ledger repository)
      (fun v => v.Reached p milestones k ∧ v.Entitled (closing k))
      (recordMilestone job (closing k)) fun _ v => v.Reached p milestones (k + 1) := by
    refine Triple.record hothers (fun v _ _ hv _ => ⟨?_, hv.2⟩) fun v hv => ?_
    · rw [hv.1.plan]
      exact Option.some_ne_none _
    · rw [if_pos (by omega)]
      exact hv.1.mark hk
  exact hrecord.imp hF fun _ _ => id

theorem Triple.effect {a : Action} (hothers : rules.Within) (kind : EffectKind)
    (hperform : ∀ (w : World) answer, ∃ ok, (w.perform a answer).2 = w.effect job kind ok ∧
      (ok = false → ∃ failure, (w.perform a answer).1 = .error failure))
    (hphase : kind.phase ≠ 1) (hready : ∀ v, Trail v → v.Placed → F v → ∃ p, v.Ready p kind)
    (hG : ∀ v e, F v → v.Makes kind true e → G (v.append e)) :
    Triple rules repository job (Ledger repository) F (UpdateJob.call a) fun _ => G := by
  refine Triple.call hothers fun w answer hw _ => ?_
  obtain ⟨ok, heq, herror⟩ := hperform w answer
  have hledger : Ledger repository (w.perform a answer).2 := by
    rw [heq]
    exact (hw.effect kind (G := fun _ => True) hphase hready fun _ _ _ _ => trivial).ledger
  cases hr : (w.perform a answer).1 with
  | error failure => exact hledger
  | ok value =>
    cases ok with
    | false =>
      obtain ⟨failure, herror⟩ := herror rfl
      rw [herror] at hr
      cases hr
    | true =>
      show Underway repository job G _
      rw [heq]
      exact hw.effect kind hphase hready hG

theorem Triple.requireMutationAllowed_bind {α : Type} {plan : TrustedPlan} {f : Unit → Program α}
    {H : α → View → Prop} (h : Triple rules repository job (Ledger repository) F (f ()) H) :
    Triple rules repository job (Ledger repository) F
      (requireMutationAllowed plan milestones >>= f) H :=
  Triple.require_bind (fun _ => h) fun _ => Underway.ledger

theorem Triple.quiet_bind {α β : Type} {m : Program α} {f : α → Program β} {H : β → View → Prop}
    (hothers : rules.Within) (hm : m.Uses (Action.Quiet job))
    (hf : ∀ a, Triple rules repository job (Ledger repository) F (f a) H) :
    Triple rules repository job (Ledger repository) F (m >>= f) H :=
  (Triple.quiet hothers hm fun _ => Underway.ledger).bind hf

theorem Triple.recovers_bind {α β : Type} {m : Program α} {f : α → Program β}
    {H : β → View → Prop} (hothers : rules.Within) (hm : m.Uses Action.Recovers)
    (hf : ∀ a, Triple rules repository job (Ledger repository) F (f a) H) :
    Triple rules repository job (Ledger repository) F (m >>= f) H :=
  Triple.quiet_bind hothers (hm.mono fun _ => Action.Recovers.quiet) hf

/-! ## The migrations -/

/-- No migration is interrupted, and the source is at the target if the execution says so. -/
structure View.Begun (v : View) (p : PlanValues) (milestones : List Milestone) (moved : Bool) :
    Prop where
  reached : v.Reached p milestones 0
  whole : .migrationStarted ∈ v.marks → .databaseVerified ∈ v.marks
  moved : moved = true → v.head = p.targetCommit

/-- The migrations are running, all of them in this execution. -/
structure View.Migrating (v : View) (p : PlanValues) (milestones : List Milestone) (moved : Bool) :
    Prop where
  reached : v.Reached p milestones 0
  started : .migrationStarted ∈ v.marks
  here : ∀ a ∈ v.log, a.kind.phase = 0 → a.execution = v.execution
  moved : moved = true → v.head = p.targetCommit

variable {moved : Bool}

theorem View.Migrating.ready {v : View} (h : v.Migrating p milestones moved)
    (hopen : .databaseVerified ∉ milestones) (ref : MigrationRef) : v.Ready p (.migrate ref) where
  plan := h.reached.plan
  before := nofun
  pending hmark := hopen ((h.reached.closing_iff (by decide)).mpr hmark)
  migration _ := ⟨h.started, h.here⟩
  target := nofun
  restart := nofun

theorem View.Migrating.append {v : View} {e : Effect} {ok : Bool}
    (h : v.Migrating p milestones moved) (hmakes : v.Makes kind ok e) :
    (v.append e).Migrating p milestones moved where
  reached := h.reached.append
  started := h.started
  here a ha hphase := by
    rcases List.mem_append.mp ha with ha | ha
    · exact h.here a ha hphase
    · rw [List.mem_singleton.mp ha]
      exact hmakes.execution
  moved := h.moved

section Migrations

variable (hothers : rules.Within)

include hothers

theorem applyMigrationGuarded_triple (hopen : .databaseVerified ∉ milestones)
    (request : GuardedApply) (hjob : request.jobId = job) :
    Triple rules repository job (Ledger repository) (fun v => v.Migrating p milestones moved)
      (applyMigrationGuarded request) fun _ v => v.Migrating p milestones moved := by
  subst hjob
  have hlaunch : Triple rules repository request.jobId (Ledger repository)
      (fun v => v.Migrating p milestones moved) (call (.launchGuarded request))
      fun _ v => v.Migrating p milestones moved := by
    refine Triple.call hothers fun w answer hw _ => ?_
    cases answer with
    | some failure => exact hw.ledger
    | none =>
      have heffect : Underway repository request.jobId (fun v => v.Migrating p milestones moved)
          (w.effect request.jobId (.migrate request.migration) true) :=
        hw.effect (.migrate request.migration) (by simp [EffectKind.phase])
          (fun v _ _ hv => ⟨p, hv.ready hopen request.migration⟩) fun v e hv hmakes =>
            hv.append hmakes
      exact heffect.alike ⟨rfl, rfl, rfl, rfl⟩
  refine hlaunch.bind fun _ => ?_
  refine Triple.quiet hothers (uses_call_bind trivial fun report => ?_) fun _ => Underway.ledger
  split
  · exact .raise
  · exact .raise
  · exact .raise
  · exact .raise
  · exact .pure

theorem migrateEach_triple (hopen : .databaseVerified ∉ milestones) (refs : List MigrationRef)
    (e : Evidence) :
    Triple rules repository job (Ledger repository) (fun v => v.Migrating p milestones moved)
      (migrateEach job refs e) fun _ v => v.Migrating p milestones moved := by
  induction refs generalizing e with
  | nil => exact Triple.pure fun _ => id
  | cons ref rest ih =>
    refine Triple.quiet_bind hothers (uses_call trivial) fun nonce => ?_
    refine Triple.quiet_bind hothers (uses_call trivial) fun _ => ?_
    refine Triple.bind (applyMigrationGuarded_triple hothers hopen _ rfl) fun row => ?_
    refine Triple.recovers_bind hothers (uses_confirmApplied ..) fun _ => ?_
    exact Triple.quiet_bind hothers (uses_call trivial) fun _ => ih _

theorem migrate_triple {plan : TrustedPlan} (hopen : .databaseVerified ∉ milestones) :
    Triple rules repository job (Ledger repository) (fun v => v.Begun p milestones moved)
      (migrate job state plan milestones target) fun _ v => v.Migrating p milestones moved := by
  -- no migration was started before, so none was made
  have hstart : Triple rules repository job (Ledger repository)
      (fun v => v.Begun p milestones moved) (recordMilestone job .migrationStarted)
      fun _ v => v.Migrating p milestones moved := by
    have hrecord : Triple rules repository job (Ledger repository)
        (fun v => v.Begun p milestones moved ∧ ∀ a ∈ v.log, a.kind.phase ≠ 0)
        (recordMilestone job .migrationStarted) fun _ v => v.Migrating p milestones moved := by
      refine Triple.record hothers (fun v _ _ hv _ => ⟨?_, trivial⟩) fun v hv => ?_
      · rw [hv.1.reached.plan]
        exact Option.some_ne_none _
      · rw [if_pos (by decide)]
        refine ⟨⟨hv.1.reached.plan, fun m hstage => ?_, nofun⟩, .inl rfl, fun a ha hphase => ?_,
          hv.1.moved⟩
        · rw [hv.1.reached.known m hstage]
          refine ⟨.inr, fun hm => hm.resolve_left ?_⟩
          rintro rfl
          simp [Milestone.stage] at hstage
        · exact absurd hphase (hv.2 a ha)
    refine hrecord.imp (fun v htrail _ hv => ⟨hv, fun a ha hphase => ?_⟩) fun _ _ => id
    have hstarted := (htrail.fits p hv.reached.plan a ha).started hphase
    have hverified := hv.whole (htrail.known a ha _ hstarted (by decide))
    exact hopen ((hv.reached.closing_iff (by decide)).mpr hverified)
  unfold migrate
  refine Triple.quiet_bind hothers (uses_call trivial) fun _ => ?_
  refine Triple.quiet_bind hothers (uses_recordMilestone rfl) fun _ =>
    Triple.requireMutationAllowed_bind ?_
  refine Triple.recovers_bind hothers (uses_usableCheckpoint ..) fun checkpoint => ?_
  refine Triple.quiet_bind hothers (uses_call trivial) fun _ => ?_
  refine Triple.quiet_bind hothers (uses_recordMilestone rfl) fun _ => ?_
  have hmigrations : Triple rules repository job (Ledger repository)
      (fun v => v.Begun p milestones moved) (do
        call (.update job (.migrationRecovery (newEvidence job plan target checkpoint)))
        recordMilestone job .migrationStarted
        let e ← migrateEach job target.actualMigrations (newEvidence job plan target checkpoint)
        let verified ← call (.probe .staged [])
        require verified.clean "MIGRATION_VERIFY_FAILED" true
        call (.update job (.migrationRecovery { e with finalized := true })) : Program Unit)
      fun _ v => v.Migrating p milestones moved := by
    refine Triple.quiet_bind hothers (uses_call trivial) fun _ => Triple.bind hstart fun _ => ?_
    refine Triple.bind (migrateEach_triple hothers hopen _ _) fun e => ?_
    exact Triple.quiet hothers (uses_call_bind trivial fun verified =>
      uses_require_bind (uses_call trivial)) fun _ => Underway.ledger
  dsimp only
  split
  · exact Triple.raise fun _ => Underway.ledger
  · split
    · exact hmigrations
    · exact Triple.recovers_bind hothers (uses_assertOwnedPrefix _) fun _ => hmigrations

theorem reachDatabaseVerified_triple {plan : TrustedPlan} :
    Triple rules repository job (Ledger repository) (fun v => v.Begun p milestones moved)
      (reachDatabaseVerified job state plan milestones target) fun _ v =>
        v.Reached p milestones 1 ∧ (moved = true → v.head = p.targetCommit) := by
  have hclose : Triple rules repository job (Ledger repository)
      (fun v => v.Reached p milestones 0 ∧ (moved = true → v.head = p.targetCommit))
      (recordMilestone job .databaseVerified) fun _ v =>
        v.Reached p milestones 1 ∧ (moved = true → v.head = p.targetCommit) := by
    refine Triple.record hothers (fun v _ _ hv _ => ⟨?_, trivial⟩) fun v hv => ?_
    · rw [hv.1.plan]
      exact Option.some_ne_none _
    · rw [if_pos (by decide)]
      exact ⟨hv.1.mark (k := 0) (by decide), hv.2⟩
  have hbegun : Triple rules repository job (Ledger repository)
      (fun v => v.Begun p milestones moved) (recordMilestone job .databaseVerified) fun _ v =>
        v.Reached p milestones 1 ∧ (moved = true → v.head = p.targetCommit) :=
    hclose.imp (fun v _ _ hv => ⟨hv.reached, hv.moved⟩) fun _ _ => id
  unfold reachDatabaseVerified
  dsimp only
  split
  · exact hbegun
  · next hopen =>
    split
    · refine Triple.bind (migrate_triple hothers hopen) fun _ => ?_
      exact hclose.imp (fun v _ _ hv => ⟨hv.reached, hv.moved⟩) fun _ _ => id
    · split
      · exact hbegun
      · exact Triple.recovers_bind hothers (uses_verifyCompletePrefix _) fun _ => hbegun

end Migrations

/-! ## The source, the static files and the units -/

section Phases

variable {plan : TrustedPlan} (hothers : rules.Within)

include hothers

/-- What is read of the live source is where it is. -/
theorem liveIdentity_triple :
    Triple rules repository job (Ledger repository) F (call .liveIdentity)
      fun head v => F v ∧ v.head = head := by
  refine Triple.call hothers fun w answer hw _ => ?_
  cases answer with
  | none => exact ⟨hw.ledger, hw.active, hw.holds, rfl⟩
  | some failure => exact hw.ledger

/-- The live source is at the target, so the job has moved it there. -/
theorem closeSourceAdvanced_triple (hmoves : plan.targetCommit ≠ plan.installedCommit) :
    Triple rules repository job (Ledger repository)
      (fun v => v.Reached plan.toPlanValues milestones 1 ∧ v.head = plan.targetCommit)
      (recordMilestone job .sourceAdvanced)
      fun _ v => v.Reached plan.toPlanValues milestones 2 := by
  refine Triple.close (k := 1) hothers (by decide) fun v _ hplaced hv => ⟨hv.1, ?_⟩
  refine ⟨hv.1.closed 0 (by decide), ?_⟩
  by_contra hnot
  exact hmoves (hv.2.symm.trans ((hplaced _ hv.1.plan).2 hnot))

theorem advanceSource_triple (hmoves : plan.targetCommit ≠ plan.installedCommit)
    (hopen : .sourceAdvanced ∉ milestones) :
    Triple rules repository job (Ledger repository)
      (fun v => v.Reached plan.toPlanValues milestones 1) (advanceSource job plan)
      fun _ v => v.Reached plan.toPlanValues milestones 1 ∧ v.head = plan.targetCommit := by
  have hledger : ∀ {F : View → Prop} w, Underway repository job F w → Ledger repository w :=
    fun _ => Underway.ledger
  have hmerge : Triple rules repository job (Ledger repository)
      (fun v => v.Reached plan.toPlanValues milestones 1 ∧ v.head = plan.installedCommit)
      (call (.merge job plan.targetCommit))
      fun _ v => v.Reached plan.toPlanValues milestones 1 := by
    refine Triple.call hothers fun w answer hw _ => ?_
    obtain ⟨ok, moved⟩ := answer
    cases moved with
    | false => exact hw.imp fun v _ _ hv => hv.1
    | true =>
      refine hw.advance (fun v _ hplaced hv => ⟨plan.toPlanValues, hv.1.plan, hv.1.closed, ?_,
        nofun, ?_, nofun⟩) fun v e hv _ => ⟨hv.1.plan, hv.1.known, hv.1.closed⟩
      · exact fun hmark => hopen ((hv.1.closing_iff (by decide)).mpr hmark)
      · rintro commit ⟨rfl⟩
        refine ⟨rfl, fun hadvanced => hmoves ?_⟩
        exact ((hplaced _ hv.1.plan).1 hadvanced).symm.trans hv.2
  unfold advanceSource
  refine Triple.bind (liveIdentity_triple hothers) fun before => ?_
  refine Triple.require_bind (fun hbefore => ?_) hledger
  have hbefore : before = plan.installedCommit := of_decide_eq_true hbefore
  refine Triple.quiet_bind hothers (uses_call trivial) fun fetched => ?_
  refine Triple.require_bind (fun _ => ?_) hledger
  refine Triple.quiet_bind hothers (uses_call trivial) fun forward => ?_
  refine Triple.require_bind (fun _ => ?_) hledger
  refine Triple.bind (hmerge.imp (fun v _ _ hv => ⟨hv.1, hv.2.trans hbefore⟩) fun _ _ => id)
    fun ok => ?_
  refine Triple.require_bind (fun _ => ?_) hledger
  refine Triple.bind (liveIdentity_triple hothers) fun head w hw => ?_
  refine safe_require (fun hhead => ?_) fun _ => hw.ledger
  exact hw.imp fun v _ _ hv => ⟨hv.1, hv.2.trans (of_decide_eq_true hhead)⟩

theorem reachSourceAdvanced_triple {moved : Bool}
    (hmoves : plan.targetCommit ≠ plan.installedCommit) :
    Triple rules repository job (Ledger repository)
      (fun v => v.Reached plan.toPlanValues milestones 1 ∧
        (moved = true → v.head = plan.targetCommit))
      (reachSourceAdvanced job ⟨plan, moved⟩ milestones)
      fun _ v => v.Reached plan.toPlanValues milestones 2 := by
  have hclose : Triple rules repository job (Ledger repository)
      (fun v => v.Reached plan.toPlanValues milestones 1 ∧ v.head = plan.targetCommit)
      (recordMilestone job .sourceAdvanced)
      fun _ v => v.Reached plan.toPlanValues milestones 2 :=
    closeSourceAdvanced_triple hothers hmoves
  unfold reachSourceAdvanced
  dsimp only
  split
  · refine Triple.bind (liveIdentity_triple hothers) fun head => ?_
    refine Triple.require_bind (fun hhead => ?_) fun _ => Underway.ledger
    exact hclose.imp (fun v _ _ hv => ⟨hv.1.1, hv.2.trans (of_decide_eq_true hhead)⟩) fun _ _ => id
  · next hopen =>
    split
    · next hmoved => exact hclose.imp (fun v _ _ hv => ⟨hv.1, hv.2 hmoved⟩) fun _ _ => id
    · refine Triple.requireMutationAllowed_bind ?_
      refine Triple.bind ?_ fun _ => hclose
      exact (advanceSource_triple hothers hmoves hopen).imp (fun v _ _ hv => hv.1) fun _ _ => id

theorem reachStaticCollected_triple :
    Triple rules repository job (Ledger repository)
      (fun v => v.Reached plan.toPlanValues milestones 2)
      (reachStaticCollected job plan milestones)
      fun _ v => v.Reached plan.toPlanValues milestones 3 := by
  unfold reachStaticCollected
  dsimp only
  split
  · next h =>
    obtain ⟨-, hopen⟩ := h
    refine Triple.requireMutationAllowed_bind ?_
    refine Triple.bind (G := fun _ v => v.Reached plan.toPlanValues milestones 2 ∧
      v.Did .collectstatic) ?_ fun _ => ?_
    · refine Triple.effect hothers .collectstatic (fun w answer => ?_) (by decide)
        (fun v _ _ hv => ⟨_, hv.ready rfl hopen (by decide) (by decide)⟩) fun v e hv hmakes => ?_
      · cases answer with
        | none => exact ⟨true, rfl, nofun⟩
        | some failure => exact ⟨false, rfl, fun _ => ⟨failure, rfl⟩⟩
      · exact ⟨hv.append, e, List.mem_append_right _ (List.mem_singleton_self e), hmakes.kind,
          hmakes.ok⟩
    · refine Triple.close (k := 2) hothers (by decide) fun v _ _ hv => ⟨hv.1, ?_⟩
      exact ⟨hv.1.closed 1 (by decide), fun _ _ _ => hv.2⟩
  · next h =>
    refine Triple.close (k := 2) hothers (by decide) fun v htrail _ hv => ⟨hv, ?_⟩
    by_cases hmem : Milestone.staticCollected ∈ milestones
    · exact htrail.entitled _ ((hv.closing_iff (by decide)).mp hmem)
    · refine ⟨hv.closed 1 (by decide), fun q hq hrequired => ?_⟩
      obtain rfl : plan.toPlanValues = q := Option.some.inj (hv.plan.symm.trans hq)
      exact absurd ⟨hrequired, hmem⟩ h

theorem reachSystemdReconciled_triple :
    Triple rules repository job (Ledger repository)
      (fun v => v.Reached plan.toPlanValues milestones 3)
      (reachSystemdReconciled job plan milestones)
      fun _ v => v.Reached plan.toPlanValues milestones 4 := by
  unfold reachSystemdReconciled
  dsimp only
  split
  · next hopen =>
    refine Triple.requireMutationAllowed_bind ?_
    refine Triple.bind (G := fun _ v => v.Reached plan.toPlanValues milestones 3 ∧
      v.Did .reconcile) ?_ fun _ => ?_
    · refine Triple.effect hothers .reconcile (fun w answer => ?_) (by decide)
        (fun v _ _ hv => ⟨_, hv.ready rfl hopen (by decide) (by decide)⟩) fun v e hv hmakes => ?_
      · cases answer with
        | none => exact ⟨true, rfl, nofun⟩
        | some failure => exact ⟨false, rfl, fun _ => ⟨failure, rfl⟩⟩
      · exact ⟨hv.append, e, List.mem_append_right _ (List.mem_singleton_self e), hmakes.kind,
          hmakes.ok⟩
    · refine Triple.close (k := 3) hothers (by decide) fun v _ _ hv => ⟨hv.1, ?_⟩
      exact ⟨hv.1.closed 2 (by decide), hv.2⟩
  · next h =>
    refine Triple.close (k := 3) hothers (by decide) fun v htrail _ hv => ⟨hv, ?_⟩
    exact htrail.entitled _ ((hv.closing_iff (by decide)).mp (not_not.mp h))

/-! ## The services -/

/-- The services before have their milestones; memory knows the markers of all. -/
structure View.Restarting (v : View) (p : PlanValues) (milestones : List Milestone)
    (before : List String) : Prop where
  reached : v.Reached p milestones 4
  pending : .servicesRestarted ∉ milestones
  restarted : ∀ service ∈ before, .serviceRestarted (slug service) ∈ v.marks

/-- The restart of a service is announced, and was not made before. -/
structure View.Announced (v : View) (p : PlanValues) (milestones : List Milestone)
    (before : List String) (service : String) : Prop where
  plan : v.plan = some p
  known : ∀ m : Milestone, 6 ≤ m.stage →
    (m ∈ v.marks ↔ m = .serviceRestartStarted (slug service) ∨ m ∈ milestones)
  closed : ∀ j < 4, closing j ∈ v.marks
  pending : .servicesRestarted ∉ milestones
  restarted : ∀ service ∈ before, .serviceRestarted (slug service) ∈ v.marks

theorem restartService_triple {service : String} (hservice : service ∈ p.servicesRequiringRestart)
    (hopen : Milestone.serviceRestartStarted (slug service) ∉ milestones) {α : Type}
    {f : Unit → Program α} {H : α → View → Prop}
    (hf : Triple rules repository job (Ledger repository)
      (fun v => v.Restarting p (milestones ++
        [.serviceRestartStarted (slug service), .serviceRestarted (slug service)])
        (before ++ [service])) (f ()) H) :
    Triple rules repository job (Ledger repository)
      (fun v => v.Restarting p milestones before) (do
        recordMilestone job (.serviceRestartStarted (slug service))
        call (.restart job service)
        recordMilestone job (.serviceRestarted (slug service))
        f ()) H := by
  have hannounce : Triple rules repository job (Ledger repository)
      (fun v => v.Restarting p milestones before ∧
        ∀ a ∈ v.log, ∀ service', a.kind = .restart service' → slug service' ≠ slug service)
      (recordMilestone job (.serviceRestartStarted (slug service)))
      fun _ v => v.Announced p milestones before service ∧
        ∀ a ∈ v.log, ∀ service', a.kind = .restart service' → slug service' ≠ slug service := by
    refine Triple.record hothers (fun v _ _ hv _ => ⟨?_, trivial⟩) fun v hv => ?_
    · rw [hv.1.reached.plan]
      exact Option.some_ne_none _
    · rw [if_pos (by simp [Milestone.stage])]
      refine ⟨⟨hv.1.reached.plan, fun m hstage => ?_, fun j hj => .inr (hv.1.reached.closed j hj),
        hv.1.pending, fun s hs => .inr (hv.1.restarted s hs)⟩, hv.2⟩
      rw [hv.1.reached.known m hstage]
      exact Iff.rfl
  have hrestart : Triple rules repository job (Ledger repository)
      (fun v => v.Announced p milestones before service ∧
        ∀ a ∈ v.log, ∀ service', a.kind = .restart service' → slug service' ≠ slug service)
      (call (.restart job service))
      fun _ v => v.Announced p milestones before service ∧ v.Did (.restart service) := by
    refine Triple.effect hothers (.restart service) (fun w answer => ?_) (by
      simp [EffectKind.phase]) (fun v _ _ hv => ⟨p, hv.1.plan, hv.1.closed, ?_, ?_, ?_, ?_⟩)
      fun v e hv hmakes => ?_
    · cases answer with
      | none => exact ⟨true, rfl, fun hfailed => absurd hfailed (by decide)⟩
      | some failure => exact ⟨false, rfl, fun _ => ⟨failure, rfl⟩⟩
    · intro hmark
      have hmem := (hv.1.known .servicesRestarted (by decide)).mp hmark
      simp only [reduceCtorEq, false_or] at hmem
      exact hv.1.pending hmem
    · intro hphase
      simp [EffectKind.phase] at hphase
    · intro commit hkind
      cases hkind
    · rintro service' ⟨rfl⟩
      exact ⟨(hv.1.known _ (by simp [Milestone.stage])).mpr (.inl rfl), hservice, hv.2⟩
    · exact ⟨⟨hv.1.plan, hv.1.known, hv.1.closed, hv.1.pending, hv.1.restarted⟩, e,
        List.mem_append_right _ (List.mem_singleton_self e), hmakes.kind, hmakes.ok⟩
  have hcomplete : Triple rules repository job (Ledger repository)
      (fun v => v.Announced p milestones before service ∧ v.Did (.restart service))
      (recordMilestone job (.serviceRestarted (slug service)))
      fun _ v => v.Restarting p (milestones ++
        [.serviceRestartStarted (slug service), .serviceRestarted (slug service)])
        (before ++ [service]) := by
    refine Triple.record hothers (fun v _ _ hv _ => ⟨?_, service, rfl, hv.2⟩) fun v hv => ?_
    · rw [hv.1.plan]
      exact Option.some_ne_none _
    · rw [if_pos (by simp [Milestone.stage])]
      refine ⟨⟨hv.1.plan, fun m hstage => ?_, fun j hj => .inr (hv.1.closed j hj)⟩, ?_,
        fun s hs => ?_⟩
      · have hknown := hv.1.known m hstage
        simp only [View.mark, Set.mem_insert_iff, List.mem_append, List.mem_cons,
          List.not_mem_nil, or_false, hknown]
        tauto
      · simpa using hv.1.pending
      · rcases List.mem_append.mp hs with hs | hs
        · exact .inr (hv.1.restarted s hs)
        · rw [List.mem_singleton.mp hs]
          exact .inl rfl
  refine Triple.bind ?_ fun _ => Triple.bind hrestart fun _ => Triple.bind hcomplete fun _ => hf
  refine hannounce.imp (fun v htrail _ hv => ⟨hv, fun a ha service' hkind hslug => ?_⟩) fun _ _ => id
  have hstarted := ((htrail.fits p hv.reached.plan a ha).announced service' hkind).1
  rw [hslug] at hstarted
  have hmark := htrail.known a ha _ hstarted (by simp [Milestone.stage])
  exact hopen ((hv.reached.known _ (by simp [Milestone.stage])).mpr hmark)

theorem restartEach_triple {services : List String}
    (hservices : ∀ service ∈ services, service ∈ p.servicesRequiringRestart) :
    Triple rules repository job (Ledger repository)
      (fun v => v.Restarting p milestones before) (restartEach job services milestones)
      fun _ v => ∃ milestones', v.Restarting p milestones' (before ++ services) := by
  induction services generalizing before milestones with
  | nil =>
    refine Triple.pure fun v hv => ⟨milestones, ?_⟩
    rwa [List.append_nil]
  | cons service rest ih =>
    obtain ⟨hservice, hrest⟩ := List.forall_mem_cons.mp hservices
    have hassoc : before ++ service :: rest = before ++ [service] ++ rest := by simp
    rw [hassoc]
    unfold restartEach
    split
    · next hrestarted =>
      refine (ih hrest).imp (fun v _ _ hv => ⟨hv.reached, hv.pending, fun s hs => ?_⟩) fun _ _ => id
      rcases List.mem_append.mp hs with hs | hs
      · exact hv.restarted s hs
      · rw [List.mem_singleton.mp hs]
        exact (hv.reached.known _ (by simp [Milestone.stage])).mp hrestarted
    · split
      · exact Triple.raise fun _ => Underway.ledger
      · next hopen =>
        exact restartService_triple hothers hservice hopen (f := fun _ => restartEach job rest _)
          (ih hrest)

theorem reachServicesRestarted_triple :
    Triple rules repository job (Ledger repository)
      (fun v => v.Reached plan.toPlanValues milestones 4)
      (reachServicesRestarted job plan milestones)
      fun _ v => .servicesRestarted ∈ v.marks := by
  have hclosed : ∀ {F : View → Prop} {milestones : List Milestone},
      (∀ v, Trail v → v.Placed → F v →
        v.Reached plan.toPlanValues milestones 4 ∧ v.Entitled .servicesRestarted) →
      Triple rules repository job (Ledger repository) F (recordMilestone job .servicesRestarted)
        fun _ v => .servicesRestarted ∈ v.marks :=
    fun hF => (Triple.close (k := 4) hothers (by decide) hF).imp (fun _ _ _ => id)
      fun _ v hv => hv.closed 4 (by decide)
  unfold reachServicesRestarted
  dsimp only
  split
  · next hopen =>
    refine Triple.requireMutationAllowed_bind ?_
    refine Triple.bind (G := fun _ v => ∃ milestones',
      v.Restarting plan.toPlanValues milestones' plan.servicesRequiringRestart) ?_ fun _ => ?_
    · have hrestart : Triple rules repository job (Ledger repository)
          (fun v => v.Restarting plan.toPlanValues milestones [])
          (restartEach job plan.servicesRequiringRestart milestones)
          fun _ v => ∃ milestones',
            v.Restarting plan.toPlanValues milestones' ([] ++ plan.servicesRequiringRestart) :=
        restartEach_triple hothers fun _ => id
      exact hrestart.imp (fun v _ _ hv => ⟨hv, hopen, nofun⟩) fun _ _ => id
    · refine Triple.record hothers (fun v _ _ hv _ => ?_) fun v _ => ?_
      · obtain ⟨milestones', hv⟩ := hv
        refine ⟨?_, hv.reached.closed 3 (by decide), fun q hq => ?_⟩
        · rw [hv.reached.plan]
          exact Option.some_ne_none _
        · obtain rfl : plan.toPlanValues = q := Option.some.inj (hv.reached.plan.symm.trans hq)
          exact hv.restarted
      · rw [if_pos (by decide)]
        exact .inl rfl
  · next h =>
    refine hclosed fun v htrail _ hv => ⟨hv, ?_⟩
    exact htrail.entitled _ ((hv.closing_iff (k := 4) (by decide)).mp (not_not.mp h))

end Phases

end IsadoraAir.UpdateJob
