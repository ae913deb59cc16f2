import IsadoraAir.UpdateJob.Pipeline
import IsadoraAir.Foundation.Runs

/-!
# The life of the updater and its ledger

Jobs one after another, and what each of them has done so far.
-/

/-!
## The life of the updater

Jobs are accepted and executed one at a time; an execution can be abandoned
before any of its actions, and the guarded command that it waits for goes on
without it. Others may write the recorder meanwhile.
-/

namespace IsadoraAir.UpdateJob

open Relation Runs Routine
open Releases (Repository)

variable {a : Action} {condition manual : Bool} {S : Setting Action.Result World}
  {classification : String} {s : System}

namespace World

/-- The transaction of a guarded command ends. -/
def resolve (w : World) (index : ℕ) (attempt : Attempt) : World :=
  match w.commands[index]? with
  | some ⟨request, none, orphaned⟩ =>
    { w with
      database := (request.apply attempt w.database).2
      commands := w.commands.set index
        ⟨request, some (request.apply attempt w.database).1, orphaned⟩ }
  | _ => w

/-- A row that someone else writes. -/
def insertRow (w : World) (ref : MigrationRef) (applied : ℕ) : World :=
  { w with database := { w.database with
      recorded := w.database.recorded ++ [⟨ref, ⟨w.database.nextId, applied⟩⟩]
      nextId := w.database.nextId + 1 } }

def deleteRow (w : World) (id : ℕ) : World :=
  { w with database := { w.database with
      recorded := w.database.recorded.filter fun r => r.row.id ≠ id } }

def accept (w : World) (job : JobId) (targetRelease fingerprint : String) : World :=
  { w with store := w.store.accept job targetRelease fingerprint }

/-- Another execution begins. -/
def beginExecution (w : World) : World := { w with executions := w.executions + 1 }

/-- The worker is gone, its commands are not. -/
def orphan (w : World) : World :=
  { w with commands := w.commands.map fun command => { command with orphaned := true } }

end World

/-- What happens besides the running execution. -/
inductive Others : World → World → Prop where
  | accept (w : World) (job : JobId) (targetRelease fingerprint : String) :
    Others w (w.accept job targetRelease fingerprint)
  | resolve (w : World) (index : ℕ) (attempt : Attempt) : Others w (w.resolve index attempt)
  | insertRow (w : World) (ref : MigrationRef) (applied : ℕ) : Others w (w.insertRow ref applied)
  | deleteRow (w : World) (id : ℕ) : Others w (w.deleteRow id)

structure System where
  world : World
  execution : Option (Program (Option JobState))

namespace System

/-- An execution that has come to its end is gone. -/
def settle (w : World) : Program (Option JobState) → System
  | .act a next => ⟨w, some (.act a next)⟩
  | .pure _ | .raise _ => ⟨w, none⟩

end System

inductive Event where
  | accept (job : JobId) (targetRelease fingerprint : String)
  | execute (ex : Executor) (job : JobId)
  | act (answer : (a : Action) → a.Answer)
  | crash
  | resolve (index : ℕ) (attempt : Attempt)
  | insertRow (ref : MigrationRef) (applied : ℕ)
  | deleteRow (id : ℕ)

def step (repository : Repository) : Event → System → System
  | .accept job targetRelease fingerprint, s =>
    { s with world := s.world.accept job targetRelease fingerprint }
  | .execute ex job, s =>
    match s.execution with
    | none => .settle s.world.beginExecution (runWorker repository ex job)
    | some _ => s
  | .act answer, s =>
    match s.execution with
    | some (.act a next) =>
      .settle (s.world.perform a (answer a)).2 (next (s.world.perform a (answer a)).1)
    | _ => s
  | .crash, s => ⟨s.world.orphan, none⟩
  | .resolve index attempt, s => { s with world := s.world.resolve index attempt }
  | .insertRow ref applied, s => { s with world := s.world.insertRow ref applied }
  | .deleteRow id, s => { s with world := s.world.deleteRow id }

/-- Nothing was ever done: the live checkout and the recorder are as they were found. -/
def initial (head : String) (recorded : List Recorded) (nextId : ℕ) : System where
  world := ⟨⟨Dict.empty, 0⟩, ⟨recorded, nextId, []⟩, [], head, [], 0, 0⟩
  execution := none

/-! ### Executions and invariants -/

/-- What the outside may answer and what others may do, with an invariant to keep. -/
structure Rules where
  answers : World → (a : Action) → a.Answer → Prop
  others : World → World → Prop

/-- Everything is possible. -/
def Rules.any : Rules := ⟨fun _ _ _ => True, Others⟩

def Rules.setting (rules : Rules) (I : World → Prop) : Setting Action.Result World where
  exec a w r w' := ∃ answer, rules.answers w a answer ∧ w.perform a answer = (r, w')
  others := rules.others
  invariant := I

/-- The event keeps to the rules. -/
def Rules.Admit (rules : Rules) : Event → System → Prop
  | .accept job targetRelease fingerprint, s =>
    rules.others s.world (s.world.accept job targetRelease fingerprint)
  | .execute _ _, _ => True
  | .act answer, s =>
    ∀ a next, s.execution = some (.act a next) → rules.answers s.world a (answer a)
  | .crash, _ => True
  | .resolve index attempt, s => rules.others s.world (s.world.resolve index attempt)
  | .insertRow ref applied, s => rules.others s.world (s.world.insertRow ref applied)
  | .deleteRow id, s => rules.others s.world (s.world.deleteRow id)

theorem Rules.any_admit (e : Event) (s : System) : Rules.any.Admit e s := by
  cases e with
  | accept job targetRelease fingerprint => exact .accept ..
  | execute ex job => trivial
  | act answer => exact fun _ _ _ => trivial
  | crash => trivial
  | resolve index attempt => exact .resolve ..
  | insertRow ref applied => exact .insertRow ..
  | deleteRow id => exact .deleteRow ..

/-- The invariant holds, and whatever is running keeps it. -/
def Rules.Sound (rules : Rules) (I : World → Prop) (s : System) : Prop :=
  I s.world ∧ ∀ m, s.execution = some m → Safe (rules.setting I) m s.world fun _ w => I w

section Invariant

variable {rules : Rules} {I : World → Prop} {repository : Repository}

theorem Rules.Sound.settle {w : World} {m : Program (Option JobState)}
    (h : Safe (rules.setting I) m w fun _ w => I w) : rules.Sound I (.settle w m) := by
  cases m with
  | pure result => exact ⟨h, nofun⟩
  | raise failure => exact ⟨h, nofun⟩
  | act a next =>
    refine ⟨h.1, ?_⟩
    rintro m ⟨rfl⟩
    exact h

theorem Rules.Sound.others {w : World} (h : rules.Sound I s)
    (hstable : (rules.setting I).Stable I) (hstep : rules.others s.world w) :
    rules.Sound I { s with world := w } :=
  ⟨hstable _ _ h.1 hstep,
    fun m hm => (h.2 m hm).others hstable (fun _ => hstable) hstep⟩

/-- An invariant of everything that is kept by whole executions is kept by every step. -/
theorem Rules.step_sound (hstable : (rules.setting I).Stable I) (horphan : ∀ w, I w → I w.orphan)
    (hexecute : ∀ ex job w, I w →
      Safe (rules.setting I) (runWorker repository ex job) w.beginExecution fun _ w => I w)
    (e : Event) (s : System) (hallowed : rules.Admit e s) (h : rules.Sound I s) :
    rules.Sound I (step repository e s) := by
  cases e with
  | accept job targetRelease fingerprint => exact h.others hstable hallowed
  | execute ex job =>
    unfold step
    dsimp only
    split
    · exact .settle (hexecute ex job _ h.1)
    · exact h
  | act answer =>
    unfold step
    dsimp only
    split
    · next a next hm =>
      have hsafe := h.2 _ hm
      exact .settle (hsafe.2 _ .refl _ _ ⟨answer a, hallowed a next hm, rfl⟩)
    · exact h
  | crash => exact ⟨horphan _ h.1, nofun⟩
  | resolve index attempt => exact h.others hstable hallowed
  | insertRow ref applied => exact h.others hstable hallowed
  | deleteRow id => exact h.others hstable hallowed

theorem Rules.run_sound (hstable : (rules.setting I).Stable I) (horphan : ∀ w, I w → I w.orphan)
    (hexecute : ∀ ex job w, I w →
      Safe (rules.setting I) (runWorker repository ex job) w.beginExecution fun _ w => I w)
    {events : List Event} (hs : rules.Sound I s)
    (hrun : Throughout (step repository) rules.Admit events s) :
    rules.Sound I (run (step repository) events s) :=
  invariant (Rules.step_sound hstable horphan hexecute) hs hrun

end Invariant

/-! ### Rules for programs -/

section Programs

variable {rules : Rules} {I P : World → Prop} {w : World} {α β : Type}

/-- An action is called at an assertion that others leave alone. -/
theorem Rules.safe_call {Q : Except Failure a.Value → World → Prop} (hw : P w)
    (hstable : (rules.setting I).Stable P) (hinv : ∀ w, P w → I w)
    (hnext : ∀ w answer, P w → rules.answers w a answer →
      Q (w.perform a answer).1 (w.perform a answer).2) :
    Safe (rules.setting I) (call a) w Q := by
  unfold call
  apply Safe.perform_bind hw hstable hinv
  rintro w r w' hP ⟨answer, hanswer, heq⟩
  have hQ := hnext w answer hP hanswer
  rw [heq] at hQ
  cases r with
  | ok value => exact .pure hQ
  | error failure => exact .raise hQ

theorem Rules.safe_call_bind {f : a.Value → Program α} {Q : Except Failure α → World → Prop}
    (hw : P w) (hstable : (rules.setting I).Stable P) (hinv : ∀ w, P w → I w)
    (hok : ∀ w answer value, P w → rules.answers w a answer →
      (w.perform a answer).1 = .ok value →
      Safe (rules.setting I) (f value) (w.perform a answer).2 Q)
    (herror : ∀ w answer failure, P w → rules.answers w a answer →
      (w.perform a answer).1 = .error failure → Q (.error failure) (w.perform a answer).2) :
    Safe (rules.setting I) (call a >>= f) w Q := by
  refine (Rules.safe_call (Q := fun r w' => match r with
    | .ok value => Safe (rules.setting I) (f value) w' Q
    | .error failure => Q (.error failure) w') hw hstable hinv ?_).bind
    (fun _ _ h => h) (fun _ _ h => h)
  intro w answer hP hanswer
  cases hr : (w.perform a answer).1 with
  | ok value => exact hok w answer value hP hanswer hr
  | error failure => exact herror w answer failure hP hanswer hr

theorem safe_require {Q : Except Failure Unit → World → Prop}
    (hok : condition = true → Q (.ok ()) w)
    (herror : condition = false → Q (.error (.execution classification manual)) w) :
    Safe S (require condition classification manual) w Q := by
  unfold require
  split
  · next h => exact .pure (hok h)
  · next h => exact .raise (herror (Bool.eq_false_iff.mpr h))

theorem safe_require_bind {f : Unit → Program α} {Q : Except Failure α → World → Prop}
    (hok : condition = true → Safe S (f ()) w Q)
    (herror : Q (.error (.execution classification manual)) w) :
    Safe S (require condition classification manual >>= f) w Q := by
  unfold require
  split
  · next h => exact hok h
  · exact herror

end Programs

end IsadoraAir.UpdateJob

/-!
## The ledger of a job

What a job did to production beside the milestones it has recorded: every effect
falls into its phase, and a milestone stands only for what was done. The live
checkout is where the active job left it.
-/

namespace IsadoraAir.UpdateJob

open Releases (TrustedPlan PlanValues Repository derivePlan)

variable {p : PlanValues} {k : ℕ}

/-! ### Phases -/

/-- Where a milestone stands in the pipeline; what precedes the migrations is at 0. -/
def Milestone.stage : Milestone → ℕ
  | .migrationStarted => 1
  | .databaseVerified => 2
  | .sourceAdvanced => 3
  | .staticCollected => 4
  | .systemdReconciled => 5
  | .serviceRestartStarted _ | .serviceRestarted _ | .servicesRestarted => 6
  | _ => 0

/-- The phase that an effect belongs to. -/
def EffectKind.phase : EffectKind → ℕ
  | .migrate _ => 0
  | .advance _ => 1
  | .collectstatic => 2
  | .reconcile => 3
  | .restart _ => 4

theorem EffectKind.phase_le (kind : EffectKind) : kind.phase ≤ 4 := by
  cases kind <;> simp [phase]

/-- The milestone that closes a phase. -/
def closing : ℕ → Milestone
  | 0 => .databaseVerified
  | 1 => .sourceAdvanced
  | 2 => .staticCollected
  | 3 => .systemdReconciled
  | _ => .servicesRestarted

theorem closing_stage (h : k ≤ 4) : (closing k).stage = k + 2 := by
  obtain _ | _ | _ | _ | _ | k := k
  · rfl
  · rfl
  · rfl
  · rfl
  · rfl
  · omega

/-! ### What is seen of a job -/

/-- The milestones of the pipeline, the values of the recorded plan, the live commit, the effects
of the job, and the number of the execution. -/
structure View where
  marks : Set Milestone
  fingerprint : String
  plan : Option PlanValues
  head : String
  log : List Effect
  execution : ℕ

def World.view (w : World) (job : JobId) : View where
  marks := {m | 0 < m.stage ∧ m ∈ w.milestonesOf job}
  fingerprint := (w.stateOf job).elim "" JobState.expectedPlanFingerprint
  plan := ((w.stateOf job).bind JobState.trustedPlan).map TrustedPlan.toPlanValues
  head := w.head
  log := w.effects.filter fun e => e.jobId = job
  execution := w.executions

namespace View

/-- The job moved the live source. -/
def Advanced (v : View) : Prop := ∃ e ∈ v.log, e.kind.phase = 1

def Did (v : View) (kind : EffectKind) : Prop := ∃ e ∈ v.log, e.kind = kind ∧ e.ok = true

/-- What a milestone stands for. -/
def Entitled (v : View) : Milestone → Prop
  | .sourceAdvanced => .databaseVerified ∈ v.marks ∧ v.Advanced
  | .staticCollected => .sourceAdvanced ∈ v.marks ∧
      ∀ p, v.plan = some p → p.collectstaticRequired = true → v.Did .collectstatic
  | .systemdReconciled => .staticCollected ∈ v.marks ∧ v.Did .reconcile
  | .serviceRestarted name => ∃ service, slug service = name ∧ v.Did (.restart service)
  | .servicesRestarted => .systemdReconciled ∈ v.marks ∧
      ∀ p, v.plan = some p → ∀ service ∈ p.servicesRequiringRestart,
        .serviceRestarted (slug service) ∈ v.marks
  | _ => True

/-- The live checkout is where the job found it, or where it moved it. -/
def Placed (v : View) : Prop :=
  ∀ p, v.plan = some p →
    (v.Advanced → v.head = p.targetCommit) ∧ (¬ v.Advanced → v.head = p.installedCommit)

def mark (v : View) (name : Milestone) : View := { v with marks := insert name v.marks }

def append (v : View) (e : Effect) : View := { v with log := v.log ++ [e] }

end View

/-! ### Effects -/

/-- An effect is made in its phase, for the plan of its job. -/
structure Effect.Fits (p : PlanValues) (e : Effect) : Prop where
  timely : ∀ k ≤ 4, closing k ∈ e.milestones ↔ k < e.kind.phase
  started : e.kind.phase = 0 → .migrationStarted ∈ e.milestones
  target : ∀ commit, e.kind = .advance commit → commit = p.targetCommit
  live : 2 ≤ e.kind.phase → e.head = p.targetCommit
  announced : ∀ service, e.kind = .restart service →
    .serviceRestartStarted (slug service) ∈ e.milestones ∧ service ∈ p.servicesRequiringRestart

/-- What an effect has to do with a later one of the same job. -/
structure Follows (a b : Effect) : Prop where
  known : ∀ m ∈ a.milestones, 0 < m.stage → m ∈ b.milestones
  migration : a.kind.phase = 0 → b.kind.phase = 0 → a.execution = b.execution
  advance : a.kind.phase = 1 → b.kind.phase ≠ 1
  restart : ∀ service service', a.kind = .restart service → b.kind = .restart service' →
    slug service ≠ slug service'

/-- The milestones and the effects of a job belong together. -/
structure Trail (v : View) : Prop where
  unplanned : v.plan = none → v.marks = ∅ ∧ v.log = []
  entitled : ∀ m ∈ v.marks, v.Entitled m
  fits : ∀ p, v.plan = some p → ∀ e ∈ v.log, e.Fits p
  known : ∀ e ∈ v.log, ∀ m ∈ e.milestones, 0 < m.stage → m ∈ v.marks
  follows : v.log.Pairwise Follows

/-! ### The ledger -/

/-- The plan is one that the updater derives from the trusted repository. -/
def Derives (repository : Repository) (plan : TrustedPlan) : Prop :=
  ∃ tip head targetRelease, derivePlan repository tip head targetRelease = .ok plan

structure Books (repository : Repository) (state : JobState) (v : View) : Prop where
  plans : ∀ plan, state.trustedPlan = some plan →
    Derives repository plan ∧ plan.fingerprint = state.expectedPlanFingerprint
  trail : Trail v
  placed : state.status.terminal = false → v.Placed
  succeeded : state.status = .succeeded → .servicesRestarted ∈ v.marks

structure Ledger (repository : Repository) (w : World) : Prop where
  named : ∀ job state, w.stateOf job = some state → state.jobId = job
  books : ∀ job state, w.stateOf job = some state → Books repository state (w.view job)
  single : ∀ job job' state state', w.stateOf job = some state → w.stateOf job' = some state' →
    state.status.terminal = false → state'.status.terminal = false → job = job'
  owned : ∀ e ∈ w.effects, ∃ state, w.stateOf e.jobId = some state

/-! ### Milestones and effects -/

namespace View

variable {v : View} {name : Milestone} {e : Effect}

theorem Did.append {kind : EffectKind} (h : v.Did kind) : (v.append e).Did kind := by
  obtain ⟨e', he', hdid⟩ := h
  exact ⟨e', List.mem_append_left _ he', hdid⟩

theorem Advanced.append (h : v.Advanced) : (v.append e).Advanced := by
  obtain ⟨e', he', hphase⟩ := h
  exact ⟨e', List.mem_append_left _ he', hphase⟩

/-- What entitles to a milestone is never lost. -/
theorem Entitled.grow {v' : View} (h : v.Entitled name) (hmarks : v.marks ⊆ v'.marks)
    (hplan : v'.plan = v.plan) (hadvanced : v.Advanced → v'.Advanced)
    (hdid : ∀ kind, v.Did kind → v'.Did kind) : v'.Entitled name := by
  cases name with
  | sourceAdvanced => exact ⟨hmarks h.1, hadvanced h.2⟩
  | staticCollected =>
    refine ⟨hmarks h.1, fun p hp hrequired => hdid _ (h.2 p ?_ hrequired)⟩
    rw [← hplan, hp]
  | systemdReconciled => exact ⟨hmarks h.1, hdid _ h.2⟩
  | serviceRestarted name =>
    obtain ⟨service, hslug, hrestart⟩ := h
    exact ⟨service, hslug, hdid _ hrestart⟩
  | servicesRestarted =>
    refine ⟨hmarks h.1, fun p hp service hservice => hmarks (h.2 p ?_ service hservice)⟩
    rw [← hplan, hp]
  | _ => trivial

end View

namespace Trail

variable {v : View} {name : Milestone} {e : Effect}

/-- The phases are closed one after the other. -/
theorem closed (h : Trail v) {i j : ℕ} (hij : i ≤ j) (hj : j ≤ 4) (hmark : closing j ∈ v.marks) :
    closing i ∈ v.marks := by
  induction j, hij using Nat.le_induction with
  | base => exact hmark
  | succ j hij ih =>
    apply ih (by omega)
    have hentitled := h.entitled _ hmark
    obtain _ | _ | _ | _ | j := j
    · exact hentitled.1
    · exact hentitled.1
    · exact hentitled.1
    · exact hentitled.1
    · omega

theorem mark (h : Trail v) (hplan : v.plan ≠ none) (hentitled : v.Entitled name) :
    Trail (v.mark name) where
  unplanned hnone := absurd hnone hplan
  entitled m hm := by
    have hgrow : v.Entitled m := by
      rcases hm with rfl | hm
      · exact hentitled
      · exact h.entitled m hm
    exact hgrow.grow (Set.subset_insert _ _) rfl id fun _ => id
  fits := h.fits
  known e he m hm hstage := Set.mem_insert_of_mem _ (h.known e he m hm hstage)
  follows := h.follows

theorem append (h : Trail v) (hplan : v.plan = some p) (hfits : e.Fits p)
    (hknown : ∀ m ∈ e.milestones, 0 < m.stage → m ∈ v.marks)
    (hfollows : ∀ a ∈ v.log, Follows a e) : Trail (v.append e) where
  unplanned hnone := by
    have hsome : (none : Option PlanValues) = some p := hnone.symm.trans hplan
    cases hsome
  entitled m hm := (h.entitled m hm).grow subset_rfl rfl .append fun _ => .append
  fits q hq a ha := by
    obtain rfl : p = q := Option.some.inj (hplan.symm.trans hq)
    rcases List.mem_append.mp ha with ha | ha
    · exact h.fits p hplan a ha
    · rwa [List.mem_singleton.mp ha]
  known a ha := by
    rcases List.mem_append.mp ha with ha | ha
    · exact h.known a ha
    · rwa [List.mem_singleton.mp ha]
  follows := by
    refine List.pairwise_append.mpr ⟨h.follows, List.pairwise_singleton _ _, ?_⟩
    intro a ha b hb
    rw [List.mem_singleton.mp hb]
    exact hfollows a ha

/-- A plan is recorded before anything is done. -/
theorem planned (h : Trail v) (hnone : v.plan = none) (p : PlanValues) :
    Trail { v with plan := some p } := by
  obtain ⟨hmarks, hlog⟩ := h.unplanned hnone
  refine ⟨nofun, ?_, ?_, ?_, ?_⟩ <;> simp [hmarks, hlog]

/-- An effect whose phase is open is made after everything of the phases before. -/
theorem timely (h : Trail v) {milestones : List Milestone}
    (hmarks : ∀ m, 0 < m.stage → (m ∈ milestones ↔ m ∈ v.marks))
    (hbefore : ∀ j < k, closing j ∈ v.marks) (hopen : closing k ∉ v.marks) :
    ∀ j ≤ 4, closing j ∈ milestones ↔ j < k := by
  intro j hj
  have hstage := closing_stage hj
  rw [hmarks _ (by omega)]
  constructor
  · intro hmark
    by_contra hle
    exact hopen (h.closed (Nat.le_of_not_lt hle) hj hmark)
  · exact hbefore j

/-- Later effects are of the same phase or of a later one. -/
theorem phases_sorted (h : Trail v) (hplan : v.plan = some p) :
    v.log.Pairwise fun a b => a.kind.phase ≤ b.kind.phase := by
  have hfits := h.fits p hplan
  refine h.follows.imp_of_mem fun {a b} ha hb hfollows => ?_
  by_contra hlt
  have hle := b.kind.phase_le
  have hstage := closing_stage hle
  have hmem := ((hfits a ha).timely _ hle).mpr (Nat.lt_of_not_le hlt)
  have hlater := hfollows.known _ hmem (by omega)
  exact lt_irrefl _ (((hfits b hb).timely _ hle).mp hlater)

end Trail

end IsadoraAir.UpdateJob
