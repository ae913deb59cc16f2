import IsadoraAir.UpdateJob.Footprint

/-!
# Reasoning about an execution under way

An assertion about the running job, kept together with the ledgers; one rule for
each kind of action, and triples for the routines made of them.
-/

namespace IsadoraAir.UpdateJob

open Relation Routine
open Releases (TrustedPlan PlanValues Repository derivePlan)

/-- The ledgers are kept, the job is active, and the assertion holds of it. -/
structure Underway (repository : Repository) (job : JobId) (F : View → Prop) (w : World) :
    Prop where
  ledger : Ledger repository w
  active : ∃ state, w.stateOf job = some state ∧ state.status.terminal = false
  holds : F (w.view job)

variable {repository : Repository} {job : JobId} {F G : View → Prop} {w w' : World}

theorem Underway.imp (h : Underway repository job F w) (himp : ∀ v, Trail v → v.Placed → F v → G v) :
    Underway repository job G w := by
  obtain ⟨state, hstate, hactive⟩ := h.active
  have hbooks := h.ledger.books job state hstate
  exact ⟨h.ledger, ⟨state, hstate, hactive⟩,
    himp _ hbooks.trail (hbooks.placed hactive) h.holds⟩

theorem Underway.alike (h : Underway repository job F w) (halike : Alike w w') :
    Underway repository job F w' := by
  refine ⟨h.ledger.alike halike, ?_, ?_⟩
  · rw [halike.stateOf]
    exact h.active
  · rw [halike.view]
    exact h.holds

theorem Underway.others (h : Underway repository job F w) (hstep : Others w w') :
    Underway repository job F w' := by
  obtain ⟨state, hstate, hactive⟩ := h.active
  refine ⟨h.ledger.others hstep, ⟨state, hstep.stateOf hstate, hactive⟩, ?_⟩
  rw [hstep.view hstate]
  exact h.holds

/-! ## Writes -/

theorem Change.Quiet.status {change : Change} (h : change.Quiet) (state : JobState) :
    (state.change change).status = state.status := by
  cases change <;> first | rfl | exact h.elim

theorem Change.Quiet.planAfter {change : Change} (h : change.Quiet) (plan : Option PlanValues) :
    change.planAfter plan = plan := by
  cases change <;> first | rfl | exact h.elim

theorem Ledger.quiet {state : JobState} {change : Change} (h : Ledger repository w)
    (hstate : w.stateOf job = some state) (hquiet : change.Quiet) :
    Ledger repository (w.put (state.change change)) := by
  refine h.change hstate (fun hterminal => ?_) (fun plan hplan => ?_) (fun hsucceeded => ?_)
  · rwa [hquiet.status] at hterminal
  · subst hplan
    exact hquiet.elim
  · subst hsucceeded
    exact hquiet.elim

/-- The record of a job changes, and the job that is under way stays active. -/
theorem Underway.change {job' : JobId} {state : JobState} {change : Change}
    (h : Underway repository job F w) (hstate : w.stateOf job' = some state)
    (hquiet : change.Quiet) : Underway repository job F (w.put (state.change change)) := by
  obtain rfl := h.ledger.named job' state hstate
  obtain ⟨own, hown, hactive⟩ := h.active
  by_cases hjob : job = state.jobId
  · subst hjob
    obtain rfl : state = own := Option.some.inj (hstate.symm.trans hown)
    refine ⟨h.ledger.quiet hstate hquiet, ?_, ?_⟩
    · rw [World.stateOf_put, state.change_jobId, if_pos rfl]
      exact ⟨_, rfl, (congrArg Status.terminal (hquiet.status state)).trans hactive⟩
    · rw [World.view_put_change hstate rfl, hquiet.planAfter]
      exact h.holds
  · have hne : job ≠ (state.change change).jobId := by rwa [state.change_jobId]
    refine ⟨h.ledger.quiet hstate hquiet, ⟨own, ?_, hactive⟩, ?_⟩
    · rw [World.stateOf_put, if_neg hne]
      exact hown
    · rw [World.view_put_of_ne hne]
      exact h.holds

/-- The job records a milestone that it is entitled to. -/
theorem Underway.addMilestone {state : JobState} {name : Milestone}
    (h : Underway repository job F w) (hstate : w.stateOf job = some state)
    (hentitled : 0 < name.stage → (w.view job).plan ≠ none ∧ (w.view job).Entitled name)
    (hG : ∀ v, F v → G (if 0 < name.stage then v.mark name else v)) :
    Underway repository job G (w.put (state.addMilestone name)) := by
  obtain ⟨own, hown, hactive⟩ := h.active
  obtain rfl : state = own := Option.some.inj (hstate.symm.trans hown)
  have hid := h.ledger.named job state hstate
  refine ⟨h.ledger.addMilestone hstate hactive hentitled, ?_, ?_⟩
  · rw [World.stateOf_put, if_pos (show job = (state.addMilestone name).jobId from hid.symm)]
    exact ⟨_, rfl, rfl⟩
  · rw [World.view_put_addMilestone hstate hid]
    exact hG _ h.holds

/-! ## Quiet actions -/

theorem World.alike_resolve (w : World) (index : ℕ) (attempt : Attempt) :
    Alike w (w.resolve index attempt) := by
  unfold World.resolve
  split
  · exact ⟨rfl, rfl, rfl, rfl⟩
  · exact .refl w

theorem World.alike_perform {a : Action} (hreads : a.Reads) (w : World) (answer : a.Answer) :
    Alike w (w.perform a answer).2 := by
  cases a with
  | update job change => exact hreads.elim
  | load job =>
    simp only [World.perform]
    split <;> exact .refl w
  | observeRecords refs =>
    simp only [World.perform]
    split <;> exact .refl w
  | uuid4 => exact ⟨rfl, rfl, rfl, rfl⟩
  | awaitGuarded => exact ⟨rfl, rfl, rfl, rfl⟩
  | milestone job name => exact hreads.elim
  | launchGuarded request => exact hreads.elim
  | merge job commit => exact hreads.elim
  | collectstatic job => exact hreads.elim
  | reconcile job plan => exact hreads.elim
  | restart job service => exact hreads.elim
  | _ => exact .refl w

/-- An update that is refused or that is not made leaves the world as it is. -/
theorem World.update_cases (w : World) (job : JobId) (change : Change) (answer : Write) :
    ((∃ failure, (w.perform (.update job change) answer).1 = .error failure) ∧
        (w.perform (.update job change) answer).2 = w) ∨
      ∃ state, w.stateOf job = some state ∧ state.frozen change = false ∧
        (w.perform (.update job change) answer).2 = w.put (state.change change) := by
  simp only [World.perform]
  cases hstate : w.stateOf job with
  | none => exact .inl ⟨⟨_, rfl⟩, rfl⟩
  | some state =>
    dsimp only
    split
    · exact .inl ⟨⟨_, rfl⟩, rfl⟩
    · next hfrozen =>
      rcases w.writing_cases answer (state.change change) with ⟨herror, heq⟩ | heq
      · exact .inl ⟨herror, heq⟩
      · exact .inr ⟨state, rfl, Bool.eq_false_iff.mpr hfrozen, heq⟩

theorem World.milestone_cases (w : World) (job : JobId) (name : Milestone) (answer : Write) :
    ((∃ failure, (w.perform (.milestone job name) answer).1 = .error failure) ∧
        (w.perform (.milestone job name) answer).2 = w) ∨
      ∃ state, w.stateOf job = some state ∧
        (w.perform (.milestone job name) answer).2 = w.put (state.addMilestone name) := by
  simp only [World.perform]
  cases hstate : w.stateOf job with
  | none => exact .inl ⟨⟨_, rfl⟩, rfl⟩
  | some state =>
    rcases w.writing_cases answer (state.addMilestone name) with ⟨herror, heq⟩ | heq
    · exact .inl ⟨herror, heq⟩
    · exact .inr ⟨state, rfl, heq⟩

theorem Underway.quiet {a : Action} (h : Underway repository job F w) (hquiet : a.Quiet job)
    (answer : a.Answer) : Underway repository job F (w.perform a answer).2 := by
  cases a with
  | update job' change =>
    rcases w.update_cases job' change answer with ⟨-, heq⟩ | ⟨state, hstate, -, heq⟩
    · rwa [heq]
    · rw [heq]
      exact h.change hstate hquiet
  | milestone job' name =>
    obtain ⟨rfl, hstage⟩ := hquiet
    rcases w.milestone_cases job' name answer with ⟨-, heq⟩ | ⟨state, hstate, heq⟩
    · rwa [heq]
    · rw [heq]
      refine h.addMilestone hstate (fun hpos => absurd hpos (by omega)) fun v hv => ?_
      rwa [if_neg (by omega)]
  | launchGuarded request => exact hquiet.elim
  | merge job' commit => exact hquiet.elim
  | collectstatic job' => exact hquiet.elim
  | reconcile job' plan => exact hquiet.elim
  | restart job' service => exact hquiet.elim
  | _ =>
    refine h.alike (World.alike_perform ?_ w answer)
    trivial

/-- What concludes an execution keeps the ledgers, whether the job is active or not. -/
theorem Ledger.concludes {a : Action} (h : Ledger repository w) (hconcludes : a.Concludes job)
    (answer : a.Answer) : Ledger repository (w.perform a answer).2 := by
  cases a with
  | update job' change =>
    rcases w.update_cases job' change answer with ⟨-, heq⟩ | ⟨state, hstate, -, heq⟩
    · rwa [heq]
    · rw [heq]
      cases change with
      | failed classification manual =>
        refine h.change hstate (fun hactive => ?_) (fun plan heq => ?_) (fun heq => ?_)
        · cases manual <;> simp [JobState.change, Status.terminal] at hactive
        · cases heq
        · cases heq
      | migrationRecovery evidence => exact h.quiet hstate trivial
      | _ => exact hconcludes.elim
  | milestone job' name => exact hconcludes.elim
  | launchGuarded request => exact hconcludes.elim
  | merge job' commit => exact hconcludes.elim
  | collectstatic job' => exact hconcludes.elim
  | reconcile job' plan => exact hconcludes.elim
  | restart job' service => exact hconcludes.elim
  | _ =>
    refine h.alike (World.alike_perform ?_ w answer)
    trivial

/-! ## Effects -/

/-- The effect is made by the job as it is seen. -/
structure View.Makes (v : View) (kind : EffectKind) (ok : Bool) (e : Effect) : Prop where
  kind : e.kind = kind
  ok : e.ok = ok
  execution : e.execution = v.execution
  head : e.head = v.head
  milestones : ∀ m, 0 < m.stage → (m ∈ e.milestones ↔ m ∈ v.marks)

/-- It is the turn of an effect of this kind. -/
structure View.Ready (v : View) (p : PlanValues) (kind : EffectKind) : Prop where
  plan : v.plan = some p
  before : ∀ j < kind.phase, closing j ∈ v.marks
  pending : closing kind.phase ∉ v.marks
  migration : kind.phase = 0 → .migrationStarted ∈ v.marks ∧
    ∀ a ∈ v.log, a.kind.phase = 0 → a.execution = v.execution
  target : ∀ commit, kind = .advance commit → commit = p.targetCommit ∧ ¬ v.Advanced
  restart : ∀ service, kind = .restart service →
    .serviceRestartStarted (slug service) ∈ v.marks ∧ service ∈ p.servicesRequiringRestart ∧
      ∀ a ∈ v.log, ∀ service', a.kind = .restart service' → slug service' ≠ slug service

theorem World.makes (w : World) (job : JobId) (kind : EffectKind) (ok : Bool) :
    (w.view job).Makes kind ok (w.effectOf job kind ok) where
  kind := rfl
  ok := rfl
  execution := rfl
  head := rfl
  milestones m hstage := by
    simp [World.effectOf, World.view, hstage]

section Effects

variable {v : View} {p : PlanValues} {kind : EffectKind} {ok : Bool} {e : Effect}

/-- The live source is at the target once that is recorded. -/
theorem Trail.live (h : Trail v) (hplaced : v.Placed) (hplan : v.plan = some p)
    (hmark : .sourceAdvanced ∈ v.marks) : v.head = p.targetCommit :=
  (hplaced p hplan).1 (h.entitled _ hmark).2

theorem Trail.effect (h : Trail v) (hplaced : v.Placed) (hready : v.Ready p kind)
    (hmakes : v.Makes kind ok e) : Trail (v.append e) := by
  obtain ⟨rfl, rfl, hexecution, hhead, hmilestones⟩ := hmakes
  refine h.append hready.plan ⟨?_, fun hphase => ?_, fun commit hkind => ?_, fun hphase => ?_,
    fun service hkind => ?_⟩ (fun m hm hstage => (hmilestones m hstage).mp hm)
    fun a ha => ⟨fun m hm hstage => ?_, fun hphase hphase' => ?_, fun hphase hphase' => ?_,
      fun service service' hkind hkind' => ?_⟩
  · exact h.timely hmilestones hready.before hready.pending
  · exact (hmilestones _ (by decide)).mpr (hready.migration hphase).1
  · exact (hready.target commit hkind).1
  · rw [hhead]
    exact h.live hplaced hready.plan (hready.before 1 (by omega))
  · obtain ⟨hstarted, hservice, -⟩ := hready.restart service hkind
    exact ⟨(hmilestones _ (by simp [Milestone.stage])).mpr hstarted, hservice⟩
  · exact (hmilestones m hstage).mpr (h.known a ha m hm hstage)
  · rw [hexecution]
    exact (hready.migration hphase').2 a ha hphase
  · cases hkind : e.kind with
    | advance commit => exact (hready.target commit hkind).2 ⟨a, ha, hphase⟩
    | _ =>
      rw [hkind] at hphase'
      simp [EffectKind.phase] at hphase'
  · exact (hready.restart service' hkind').2.2 a ha service hkind

theorem View.Placed.append (h : v.Placed) (hphase : e.kind.phase ≠ 1) : (v.append e).Placed := by
  have hiff : (v.append e).Advanced ↔ v.Advanced := by
    constructor
    · rintro ⟨a, ha, hadvance⟩
      rcases List.mem_append.mp ha with ha | ha
      · exact ⟨a, ha, hadvance⟩
      · rw [List.mem_singleton.mp ha] at hadvance
        exact absurd hadvance hphase
    · exact .append
  intro p hp
  rw [hiff]
  exact h p hp

/-- The job makes an effect, and the live source stays where it is. -/
theorem Underway.effect (h : Underway repository job F w) (kind : EffectKind) (hphase : kind.phase ≠ 1)
    (hready : ∀ v, Trail v → v.Placed → F v → ∃ p, v.Ready p kind)
    (hG : ∀ v e, F v → v.Makes kind ok e → G (v.append e)) :
    Underway repository job G (w.effect job kind ok) := by
  obtain ⟨state, hstate, hactive⟩ := h.active
  have hbooks := h.ledger.books job state hstate
  have hplaced := hbooks.placed hactive
  obtain ⟨p, hready⟩ := hready _ hbooks.trail hplaced h.holds
  have hmakes := w.makes job kind ok
  refine ⟨?_, ⟨state, hstate, hactive⟩, ?_⟩
  · have hledger : Ledger repository { w.effect job kind ok with head := w.head } :=
      h.ledger.effect hstate hactive (hbooks.trail.effect hplaced hready hmakes)
        (hplaced.append hphase)
    exact hledger
  · rw [World.view_effect]
    exact hG _ _ h.holds hmakes

/-- The job moves the live source. -/
theorem Underway.advance {commit : String} (h : Underway repository job F w)
    (hready : ∀ v, Trail v → v.Placed → F v → ∃ p, v.Ready p (.advance commit))
    (hG : ∀ v e, F v → v.Makes (.advance commit) ok e → G { v.append e with head := commit }) :
    Underway repository job G { w.effect job (.advance commit) ok with head := commit } := by
  obtain ⟨state, hstate, hactive⟩ := h.active
  have hbooks := h.ledger.books job state hstate
  have hplaced := hbooks.placed hactive
  obtain ⟨p, hready⟩ := hready _ hbooks.trail hplaced h.holds
  have hmakes := w.makes job (.advance commit) ok
  refine ⟨h.ledger.effect hstate hactive (hbooks.trail.effect hplaced hready hmakes) ?_,
    ⟨state, hstate, hactive⟩, ?_⟩
  · intro q hq
    obtain rfl : p = q := Option.some.inj (hready.plan.symm.trans hq)
    have hadvanced : ((w.view job).append (w.effectOf job (.advance commit) ok)).Advanced :=
      ⟨_, List.mem_append_right _ (List.mem_singleton_self _), rfl⟩
    exact ⟨fun _ => (hready.target commit rfl).1, fun hnot => absurd hadvanced hnot⟩
  · have hview : World.view { w.effect job (.advance commit) ok with head := commit } job =
        { (w.view job).append (w.effectOf job (.advance commit) ok) with head := commit } := by
      rw [← w.view_effect]
      rfl
    rw [hview]
    exact hG _ _ h.holds hmakes

end Effects

/-! ## Triples -/

/-- How a routine leaves the world: with an assertion about its value, or raised. -/
def Outcome {α : Type} (repository : Repository) (job : JobId) (R : World → Prop)
    (G : α → View → Prop) : Except Failure α → World → Prop
  | .ok a, w => Underway repository job (G a) w
  | .error _, w => R w

/-- Begun at `F`, the routine keeps the ledgers and ends at `G`, or raises at `R`. -/
def Triple {α : Type} (rules : Rules) (repository : Repository) (job : JobId) (R : World → Prop)
    (F : View → Prop) (m : Program α) (G : α → View → Prop) : Prop :=
  ∀ w, Underway repository job F w →
    Safe (rules.setting (Ledger repository)) m w (Outcome repository job R G)

/-- Nobody does more than the environment of the updater may. -/
def Rules.Within (rules : Rules) : Prop := ∀ w w', rules.others w w' → Others w w'

namespace Triple

variable {rules : Rules} {R : World → Prop} {α β : Type} {m : Program α}

theorem pure {a : α} {G : α → View → Prop} (h : ∀ v, F v → G a v) :
    Triple rules repository job R F (.pure a) G :=
  fun _ hw => hw.imp fun v _ _ => h v

theorem raise {failure : Failure} {G : α → View → Prop}
    (h : ∀ w, Underway repository job F w → R w) :
    Triple rules repository job R F (.raise failure) G :=
  fun w hw => h w hw

theorem imp {F' : View → Prop} {G G' : α → View → Prop} (h : Triple rules repository job R F m G)
    (hF : ∀ v, Trail v → v.Placed → F' v → F v) (hG : ∀ a v, G a v → G' a v) :
    Triple rules repository job R F' m G' := by
  intro w hw
  refine (h w (hw.imp hF)).mono fun r w' hr => ?_
  cases r with
  | ok a => exact Underway.imp hr fun v _ _ => hG a v
  | error failure => exact hr

theorem bind {f : α → Program β} {G : α → View → Prop} {H : β → View → Prop}
    (hm : Triple rules repository job R F m G)
    (hf : ∀ a, Triple rules repository job R (G a) (f a) H) :
    Triple rules repository job R F (m >>= f) H := by
  intro w hw
  exact (hm w hw).bind (fun a w' hr => hf a w' hr) fun failure w' hr => hr

theorem require_bind {condition : Bool} {classification : String} {manual : Bool}
    {f : Unit → Program α} {G : α → View → Prop}
    (hok : condition = true → Triple rules repository job R F (f ()) G)
    (herror : ∀ w, Underway repository job F w → R w) :
    Triple rules repository job R F (require condition classification manual >>= f) G :=
  fun w hw => safe_require_bind (fun hcondition => hok hcondition w hw) (herror w hw)

theorem call {a : Action} {G : a.Value → View → Prop} (hothers : rules.Within)
    (h : ∀ w answer, Underway repository job F w → rules.answers w a answer →
      Outcome repository job R G (w.perform a answer).1 (w.perform a answer).2) :
    Triple rules repository job R F (UpdateJob.call a) G :=
  fun _ hw => Rules.safe_call hw (fun _ _ hs hstep => hs.others (hothers _ _ hstep))
    (fun _ => Underway.ledger) h

/-- A routine of quiet actions leaves the assertion alone. -/
theorem quiet (hothers : rules.Within) (h : m.Uses (Action.Quiet job))
    (hR : ∀ w, Underway repository job F w → R w) :
    Triple rules repository job R F m fun _ => F := by
  intro w hw
  refine (Uses.safe h hw (fun _ _ hs hstep => hs.others (hothers _ _ hstep))
    (fun _ => Underway.ledger) ?_).mono fun r w' hr => ?_
  · rintro a s r s' hquiet hs ⟨answer, -, heq⟩
    have hafter := hs.quiet hquiet answer
    rwa [heq] at hafter
  · cases r with
    | ok a => exact hr
    | error failure => exact hR w' hr

end Triple

end IsadoraAir.UpdateJob
