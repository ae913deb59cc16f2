import IsadoraAir.Supervisor.Persistence

/-!
# Which process is adopted

A tick without a transaction takes a candidate process still held for the one
that was promoted. That is right as long as a transaction that ends without a
commit takes its candidate process with it; a readiness report or an acceptance
that is refused does not.
-/

namespace IsadoraAir.Supervisor

open ActivationPhase Procedure Runs

variable {a : ActivationTransaction} {s s' : SupervisorDaemon} {context : TickContext}
  {config : SupervisorConfig}

/-- No refused report or acceptance fails the transaction of a candidate
process that the event loop holds. -/
def SparesCandidate (config : SupervisorConfig) (event : Event) (s : SupervisorDaemon) : Prop :=
  match event with
  | .request context (.reportReadiness report) =>
    s.candidateWorker = none ∨ s.ipc.state.phase ≠ some candidateStarting ∨
      readinessFault config.ipc s.ipc report = none ∨ context.writes.failed ≠ .done
  | .request context (.confirmRuntimeAcceptance acceptance) =>
    s.candidateWorker = none ∨ s.ipc.state.phase ≠ some candidateReady ∨
      matchesTransaction s.ipc acceptance.toCandidateClaim acceptance.resumableJobUuid ∨
      context.writes.failed ≠ .done
  | _ => True

/-- What a held candidate process was launched as: the candidate of the
transaction in flight, or the active runtime once that has been committed. -/
inductive CandidateOf (r : RuntimeState) : Slot × ℤ × String → Prop
  | inFlight (a : ActivationTransaction) (ha : r.activation = some a)
    (hlive : a.phase ∈ phasesWithALiveCandidateProcess) : CandidateOf r a.candidate
  | promoted (hearly : ∀ a, r.activation = some a → a.phase ∈ requestPhases) :
    CandidateOf r r.active

structure SupervisorDaemon.Faithful (s : SupervisorDaemon) : Prop where
  orderly : s.Orderly
  active : ∀ w, s.activeWorker = some w → w.identity = s.ipc.state.active
  candidate : ∀ c, s.candidateWorker = some c → CandidateOf s.ipc.state c.identity

namespace CandidateOf

variable {r : RuntimeState} {identity : Slot × ℤ × String}

theorem of_idle (h : CandidateOf r identity) (hidle : r.activation = none) :
    identity = r.active := by
  cases h with
  | inFlight a ha => exact absurd (hidle.symm.trans ha) nofun
  | promoted => rfl

theorem of_live (h : CandidateOf r identity)
    (ha : r.activation = some a) (hlive : a.phase ∈ phasesWithALiveCandidateProcess) :
    identity = a.candidate := by
  have hlater : ∀ p ∈ phasesWithALiveCandidateProcess, p ∉ requestPhases := by decide
  cases h with
  | inFlight a' ha' =>
    obtain rfl : a' = a := Option.some.inj (ha'.symm.trans ha)
    rfl
  | promoted hearly => exact absurd (hearly a ha) (hlater _ hlive)

/-- No candidate process belongs to a rollback that is being finished. -/
theorem not_rollback (h : CandidateOf r identity)
    (ha : r.activation = some a) : a.phase ≠ rollbackRequested := by
  intro hphase
  cases h with
  | inFlight a' ha' hlive =>
    obtain rfl : a' = a := Option.some.inj (ha'.symm.trans ha)
    rw [hphase] at hlive
    exact absurd hlive (by decide)
  | promoted hearly =>
    have hearlier := hearly a ha
    rw [hphase] at hearlier
    exact absurd hearlier (by decide)

end CandidateOf

theorem SupervisorDaemon.Faithful.candidate_none (hs : s.Faithful)
    (ha : s.ipc.state.activation = some a)
    (hphase : a.phase = rollbackRequested) : s.candidateWorker = none :=
  Option.eq_none_iff_forall_ne_some.mpr fun c hc => (hs.candidate c hc).not_rollback ha hphase

/-! ## Requests -/

theorem request_faithful {context : RequestContext} {request : Request}
    {i : IpcServer} (h : IpcEffect config.ipc context s.ipc request i)
    (hspares : SparesCandidate config (.request context request) s) (hs : s.Faithful)
    (horderly : { s with ipc := i }.Orderly) : { s with ipc := i }.Faithful := by
  have hsame : i.state = s.ipc.state → { s with ipc := i }.Faithful := by
    intro hstate
    refine ⟨horderly, ?_, ?_⟩
    · show ∀ w, s.activeWorker = some w → w.identity = i.state.active
      rw [hstate]
      exact hs.active
    · show ∀ c, s.candidateWorker = some c → CandidateOf i.state c.identity
      rw [hstate]
      exact hs.candidate
  have hfailed : s.candidateWorker = none → i.state = s.ipc.state.settled →
      { s with ipc := i }.Faithful := by
    intro hnone hstate
    refine ⟨horderly, ?_, fun c hc => absurd (hnone.symm.trans hc) nofun⟩
    show ∀ w, s.activeWorker = some w → w.identity = i.state.active
    rw [hstate]
    exact hs.active
  cases h with
  | queried request => exact hsame rfl
  | activation r i hwrote h =>
    cases h with
    | unchanged hstate => exact hsame hstate
    | began hbegins hwrite hclients hadmission =>
      have hactive : i.state.active = s.ipc.state.active := by
        cases hadmission with
        | refused hstate => rw [hstate]; rfl
        | stopped p hp hstate => rw [hstate]; rfl
        | requested hstate => rw [hstate]; rfl
      refine ⟨horderly, fun w hw => (hs.active w hw).trans hactive.symm, fun c hc => ?_⟩
      have hpromoted : c.identity = i.state.active :=
        ((hs.candidate c hc).of_idle hbegins.1).trans hactive.symm
      rw [hpromoted]
      refine .promoted fun a ha => ?_
      obtain ⟨p, hp, rfl⟩ := hadmission.activation ha
      exact hp
  | readiness report i hclients hwrote h =>
    cases h with
    | unchanged hstate => exact hsame hstate
    | failed hphase hfault hwrite hstate =>
      obtain hnone | hother | hfine | hunwritten := hspares
      · exact hfailed hnone hstate
      · exact absurd hphase hother
      · rw [hfine] at hfault
        cases hfault
      · exact absurd hwrite hunwritten
    | ready a ha hphase hstate =>
      refine ⟨horderly, ?_, fun c hc => ?_⟩
      · show ∀ w, s.activeWorker = some w → w.identity = i.state.active
        rw [hstate]
        exact hs.active
      · have hlive : a.phase ∈ phasesWithALiveCandidateProcess := by rw [hphase]; decide
        have hidentity := (hs.candidate c hc).of_live ha hlive
        show CandidateOf i.state c.identity
        have hready : candidateReady ∈ phasesWithALiveCandidateProcess := by decide
        rw [hstate, hidentity]
        exact .inFlight { a with phase := candidateReady } rfl hready
  | acceptance acceptance i hwrote h =>
    cases h with
    | unchanged hstate => exact hsame hstate
    | failed hphase hmismatch hwrite hclients hstate =>
      obtain hnone | hother | hmatches | hunwritten := hspares
      · exact hfailed hnone hstate
      · exact absurd hphase hother
      · exact absurd hmatches hmismatch
      · exact absurd hwrite hunwritten
    | committed a ha hphase hmatches hwrite hclients hstate =>
      have hannounced : a.phase ∈ announcedPhases := by rw [hphase]; decide
      have hlive : a.phase ∈ phasesWithALiveCandidateProcess := by rw [hphase]; decide
      refine ⟨horderly, fun w hw => ?_, fun c hc => ?_⟩
      · exact absurd ((hs.orderly.yielded a ha hannounced).symm.trans hw) nofun
      · have hidentity := (hs.candidate c hc).of_live ha hlive
        show CandidateOf i.state c.identity
        rw [hstate, hidentity]
        exact .promoted fun _ hnone => absurd hnone nofun

/-! ## Ticks -/

/-- A restart launches what is recorded as active. -/
theorem Restart.active (h : Restart context s s') (hactive : s.activeWorker = none) :
    s'.candidateWorker = s.candidateWorker ∧
      ∀ w, s'.activeWorker = some w → w.identity = s'.ipc.state.active := by
  have hvacuous : ∀ w, s.activeWorker = some w → w.identity = s.ipc.state.active := fun w hw =>
    absurd (hactive.symm.trans hw) nofun
  cases h with
  | refused => exact ⟨rfl, hvacuous⟩
  | failed => exact ⟨rfl, hvacuous⟩
  | launched w l hl hidentity hrunning =>
    refine ⟨rfl, fun w' hw' => ?_⟩
    cases hw'
    exact hidentity

/-- The end of a rollback, which no candidate process survives. -/
theorem Finishing.faithful (h : Finishing context s s') (hactive : s.activeWorker = none)
    (hcandidate : s.candidateWorker = none) (horderly : s'.Orderly) :
    s'.Faithful ∧ s'.candidateWorker = none := by
  cases h with
  | unfinished hwrite i hi =>
    refine ⟨⟨horderly, fun w hw => ?_, fun c hc => ?_⟩, hcandidate⟩
    · exact absurd (hactive.symm.trans hw) nofun
    · exact absurd (hcandidate.symm.trans hc) nofun
  | finished i hi s' h =>
    obtain ⟨hkept, hlaunched⟩ := h.active hactive
    have hnone : s'.candidateWorker = none := hkept.trans hcandidate
    exact ⟨⟨horderly, hlaunched, fun c hc => absurd (hnone.symm.trans hc) nofun⟩, hnone⟩

theorem RollingBack.faithful (h : RollingBack context a s s') (hactive : s.activeWorker = none)
    (horderly : s'.Orderly) : s'.Faithful ∧ s'.candidateWorker = none := by
  cases h with
  | unrecorded hwrite i hi =>
    refine ⟨⟨horderly, fun w hw => ?_, nofun⟩, rfl⟩
    exact absurd (hactive.symm.trans hw) nofun
  | recorded i hi s' h => exact h.faithful hactive rfl horderly

theorem Serving.faithful {config : DaemonConfig} (h : Serving config context a s s')
    (hs : s.Faithful) (horderly : s'.Orderly) : s'.Faithful := by
  cases h with
  | held => exact hs
  | waiting => exact ⟨horderly, hs.active, hs.candidate⟩
  | unannounced l hl stop hstop i hi hwrite hfree =>
    exact ⟨horderly, nofun, fun c hc => absurd (hfree.symm.trans hc) nofun⟩
  | unlaunched l hl stop hstop i hi hyields hwrite hfree =>
    exact ⟨horderly, nofun, fun c hc => absurd (hfree.symm.trans hc) nofun⟩
  | launched l hl stop hstop i hi c hidentity =>
    refine ⟨horderly, nofun, fun c' hc' => ?_⟩
    cases hc'
    have hstarting : candidateStarting ∈ phasesWithALiveCandidateProcess := by decide
    show CandidateOf i.state c.identity
    rw [hi.state, hidentity]
    exact .inFlight { a with phase := candidateStarting } rfl hstarting

/-- Adopting the process that is still held adopts the active runtime. -/
theorem adopted_faithful (hs : s.Faithful) (hidle : s.ipc.state.activation = none) :
    (adoptPromotedCandidateIfAny s).candidateWorker = none ∧
      ∀ w, (adoptPromotedCandidateIfAny s).activeWorker = some w →
        w.identity = s.ipc.state.active := by
  unfold adoptPromotedCandidateIfAny
  cases hc : s.candidateWorker with
  | none => exact ⟨hc, hs.active⟩
  | some c =>
    refine ⟨rfl, fun w hw => ?_⟩
    cases hw
    exact (hs.candidate c hc).of_idle hidle

theorem TickEffect.faithful {config : DaemonConfig}
    (h : TickEffect config context s s') (hs : s.Faithful) :
    s'.Faithful := by
  have horderly := h.orderly hs.orderly
  cases h with
  | idle hidle s' h =>
    obtain ⟨hcandidate, hactive⟩ := adopted_faithful hs hidle
    cases h with
    | kept w hw hrunning =>
      refine ⟨horderly, ?_, fun c hc => absurd (hcandidate.symm.trans hc) nofun⟩
      rwa [adoptPromotedCandidateIfAny_ipc]
    | restarted l s' h =>
      obtain ⟨hkept, hlaunched⟩ := h.active rfl
      have hnone : s'.candidateWorker = none := hkept.trans hcandidate
      exact ⟨horderly, hlaunched, fun c hc => absurd (hnone.symm.trans hc) nofun⟩
  | serving a ha hphase s' h => exact h.faithful hs horderly
  | starting => exact hs
  | ready => exact ⟨horderly, hs.active, hs.candidate⟩
  | overdue a ha hlive hdue s' h =>
    have hannounced : ∀ p ∈ phasesWithALiveCandidateProcess, p ∈ announcedPhases := by decide
    exact (h.faithful (hs.orderly.yielded a ha (hannounced _ hlive)) horderly).1
  | finishing a ha hphase s' h =>
    have hactive := hs.orderly.yielded a ha (by rw [hphase]; decide)
    exact (h.faithful hactive (hs.candidate_none ha hphase) horderly).1
  | ignored => exact hs

theorem step_faithful (event : Event) (s : SupervisorDaemon)
    (hspares : SparesCandidate config event s) (hs : s.Faithful) :
    (step config event s).Faithful := by
  have horderly : (step config event s).Orderly := step_orderly event s hs.orderly
  cases event with
  | request context request =>
    obtain ⟨i, hstep, heffect⟩ := step_request context request s
    rw [hstep] at horderly ⊢
    exact request_faithful heffect hspares hs horderly
  | exit pid =>
    refine ⟨horderly, fun w hw => ?_, fun c hc => ?_⟩
    · obtain ⟨w', hw', rfl⟩ := Option.map_eq_some_iff.mp hw
      exact hs.active w' hw'
    · obtain ⟨c', hc', rfl⟩ := Option.map_eq_some_iff.mp hc
      exact hs.candidate c' hc'
  | elapse seconds forward => exact ⟨horderly, hs.active, hs.candidate⟩
  | tick context => exact (step_tick context hs.orderly).faithful hs

/-! ## The runs -/

/-- A transaction whose candidate was announced and that ends without a commit
leaves no candidate process to adopt. -/
theorem step_drops_candidate {event : Event}
    (hspares : SparesCandidate config event s) (hs : s.Faithful)
    (ha : s.ipc.state.activation = some a) (hannounced : a.phase ∈ announcedPhases)
    (hended : (step config event s).ipc.state.activation = none)
    (hnot : DoesNotCommit config event s) : (step config event s).candidateWorker = none := by
  have hbusy : s.ipc.state.activation ≠ none := by rw [ha]; exact nofun
  have hactive := hs.orderly.yielded a ha hannounced
  cases event with
  | request context request =>
    obtain ⟨i, hstep, heffect⟩ := step_request context request s
    unfold DoesNotCommit Commits at hnot
    rw [hstep] at hended hnot ⊢
    have hstays : i.state ≠ s.ipc.state := fun hstate => hbusy (by rwa [← hstate])
    cases heffect with
    | queried request => exact absurd rfl hstays
    | activation r i hwrote h =>
      cases h with
      | unchanged hstate => exact absurd hstate hstays
      | began hbegins => exact absurd hbegins.1 hbusy
    | readiness report i hclients hwrote h =>
      cases h with
      | unchanged hstate => exact absurd hstate hstays
      | failed hphase hfault hwrite hstate =>
        obtain hnone | hother | hfine | hunwritten := hspares
        · exact hnone
        · exact absurd hphase hother
        · rw [hfine] at hfault
          cases hfault
        · exact absurd hwrite hunwritten
      | ready a' ha' hphase hstate =>
        rw [hstate] at hended
        cases hended
    | acceptance acceptance i hwrote h =>
      cases h with
      | unchanged hstate => exact absurd hstate hstays
      | failed hphase hmismatch hwrite hclients hstate =>
        obtain hnone | hother | hmatches | hunwritten := hspares
        · exact hnone
        · exact absurd hphase hother
        · exact absurd hmatches hmismatch
        · exact absurd hwrite hunwritten
      | committed a' ha' hphase hmatches hwrite hclients hstate =>
        exact absurd (commitTransaction_ok.mpr ⟨a', ha', hphase, hstate⟩) hnot
  | exit pid => exact absurd hended hbusy
  | elapse seconds forward => exact absurd hended hbusy
  | tick context =>
    have heffect : TickEffect config.daemon context s _ := step_tick context hs.orderly
    have horderly := heffect.orderly hs.orderly
    generalize step config (.tick context) s = s' at hended heffect horderly ⊢
    cases heffect with
    | idle hidle => exact absurd hidle hbusy
    | serving a' ha' hphase =>
      obtain rfl : a' = a := Option.some.inj (ha'.symm.trans ha)
      rw [hphase] at hannounced
      exact absurd hannounced (by decide)
    | starting => exact absurd hended hbusy
    | ready => exact absurd hended hbusy
    | overdue a' ha' hlive hdue s' h => exact (h.faithful hactive horderly).2
    | finishing a' ha' hphase s' h =>
      exact (h.faithful hactive (hs.candidate_none ha' hphase) horderly).2
    | ignored => exact absurd hended hbusy

/-- After a tick without a transaction the active worker is what the record
says, and a transaction that ends uncommitted takes its candidate along. -/
def AdoptsOnlyPromoted (config : SupervisorConfig) (event : Event) (s : SupervisorDaemon) : Prop :=
  (∀ context, event = .tick context → s.ipc.state.activation = none →
      ∀ w, (step config event s).activeWorker = some w →
        w.identity = (step config event s).ipc.state.active) ∧
    ∀ a, s.ipc.state.activation = some a → a.phase ∈ announcedPhases →
      (step config event s).ipc.state.activation = none → DoesNotCommit config event s →
      (step config event s).candidateWorker = none

theorem Started.faithful {state : RuntimeState} {now : ℚ}
    (h : Started state now s) (hup : CameUp state s) : s.Faithful := by
  refine ⟨h.orderly, fun w hw => ?_, fun c hc => absurd (h.idle.1.symm.trans hc) nofun⟩
  rw [hup.record]
  exact h.active w hw

/-- As long as no refused report or acceptance fails the transaction of a held
candidate process, only the promoted process is ever adopted. -/
theorem only_the_promoted_candidate_is_adopted (config : SupervisorConfig) {state : RuntimeState}
    {context : TickContext} {now : ℚ} (hstarts : Starts context state now) {events : List Event}
    (hrun : Throughout (step config) (SparesCandidate config) events (started context state now)) :
    Throughout (step config) (AdoptsOnlyPromoted config) events (started context state now) := by
  have hfaithful := (started_spec context state now).faithful hstarts.cameUp
  refine throughout_of_invariant step_faithful (fun event s hspares hs => ⟨?_, ?_⟩) hfaithful hrun
  · intro _ _ _ w hw
    exact (step_faithful event s hspares hs).active w hw
  · intro a ha hannounced hended hnot
    exact step_drops_candidate hspares hs ha hannounced hended hnot

def sampleReport (resumableJobUuid : String) : ReadinessReport :=
  ⟨sampleClaim 6 sampleGeneration_pos, 1, [3], true, true, true, true, true, resumableJobUuid⟩

/-- The sample station up to a running candidate. -/
def sampleLaunch : List Event :=
  [.request sampleContext (.requestActivation (sampleRequest 6 sampleGeneration_pos)), .exit 10,
    .tick sampleTick]

theorem only_the_promoted_candidate_is_adopted_sample :
    Throughout (step {}) (AdoptsOnlyPromoted {})
      (sampleLaunch ++ [.request sampleContext (.reportReadiness (sampleReport sampleUuid)),
        .request sampleContext
          (.confirmRuntimeAcceptance ⟨sampleClaim 6 (by decide), sampleUuid⟩), .tick sampleTick])
      (started sampleTick sampleState 0) := by
  have hstarts : Starts sampleTick sampleState 0 := rfl
  refine only_the_promoted_candidate_is_adopted {} hstarts ⟨trivial, trivial, trivial, ?_, ?_,
    trivial, trivial⟩
  · exact .inr (.inr (.inl rfl))
  · exact .inr (.inr (.inl rfl))

/-- A report with the wrong job fails the transaction, and the next tick adopts
its candidate for the active runtime of slot A. -/
theorem failed_candidate_is_adopted :
    Starts sampleTick sampleState 0 ∧
      let s := run (step {}) (sampleLaunch ++
        [.request sampleContext (.reportReadiness (sampleReport "00000000-0000-4000-8000-000000000001"))])
        (started sampleTick sampleState 0)
      s.ipc.state.activation = none ∧
        ∃ w, (step {} (.tick sampleTick) s).activeWorker = some w ∧
          w.identity ≠ (step {} (.tick sampleTick) s).ipc.state.active :=
  ⟨rfl, rfl, ⟨11, .b, 6, sampleDigest 'b', some sampleUuid, false⟩, rfl, by decide⟩

end IsadoraAir.Supervisor
