import IsadoraAir.Supervisor.Run

/-!
# What the supervisor persists

Every record that is written can be read back, and only a commit changes the
active runtime, as long as a transaction is begun only for a newer generation:
that is checked after the first write of the transaction, not before.
-/

namespace IsadoraAir.Supervisor

open ActivationPhase Procedure Runs

variable {a : ActivationTransaction} {event : Event} {i i' : IpcServer} {events : List Event}
  {d : RuntimeState} {s s' : SupervisorDaemon} {context : TickContext} {config : SupervisorConfig}

/-! ## Every write is a change of the record -/

/-- A change of the record; one that begins a transaction begins the one of the
event's request. -/
def Traced (event : Event) (i : IpcServer) (d : RuntimeState) : Prop :=
  Change i.state d ∧ (i.state.activation = none → ∀ a, d.activation = some a →
    ∃ context request p, event = .request context (.requestActivation request) ∧
      Begins i request ∧ context.writes.staged ≠ .failed ∧
      a = request.transaction context.freshId p)

theorem Traced.of_change (ha : i.state.activation = some a) (h : Change i.state d) :
    Traced event i d :=
  ⟨h, fun hidle => absurd (hidle.symm.trans ha) nofun⟩

theorem Traced.settled (event : Event) (i : IpcServer) : Traced event i i.state.settled :=
  ⟨.abandoned, fun _ _ ha => absurd ha nofun⟩

theorem Traced.of_tickWrites (h : TickWrites i.state d) : Traced event i d := by
  obtain rfl | ⟨a, p, ha, rfl⟩ := h
  · exact .settled event i
  · exact .of_change ha (.moved a p ha)

theorem RequestWrites.traced {context : RequestContext} {request : ActivationRequest}
    (h : RequestWrites context request i d) :
    Traced (.request context (.requestActivation request)) i d := by
  obtain ⟨hbegins, hstaged, rfl | ⟨p, rfl⟩⟩ := h
  · exact .settled _ i
  · refine ⟨.began _ hbegins.1, fun _ a ha => ?_⟩
    cases ha
    exact ⟨context, request, p, rfl, hbegins, hstaged, rfl⟩

theorem IpcEffect.record {config : IpcConfig} {context : RequestContext}
    {request : Request} (h : IpcEffect config context i request i') :
    Wrote (Traced (.request context request) i) i i' ∧
      (i'.state = i.state ∨ Traced (.request context request) i i'.state) := by
  cases h with
  | queried request => exact ⟨.refl i, .inl rfl⟩
  | activation r i' hwrote h =>
    refine ⟨hwrote.mono fun d hd => hd.traced, ?_⟩
    cases h with
    | unchanged hstate => exact .inl hstate
    | began hbegins hwrite hclients hadmission =>
      have hstaged : context.writes.staged ≠ .failed := by rw [hwrite]; decide
      have htraced : ∀ p, Traced (.request context (.requestActivation r)) i
          (i.state.withActivation (r.transaction context.freshId p)) := fun p =>
        RequestWrites.traced ⟨hbegins, hstaged, .inr ⟨p, rfl⟩⟩
      cases hadmission with
      | refused hstate => exact .inr (hstate ▸ .settled _ i)
      | stopped p hp hstate => exact .inr (hstate ▸ htraced p)
      | requested hstate => exact .inr (hstate ▸ htraced activationRequested)
  | readiness report i' hclients hwrote h =>
    refine ⟨hwrote.mono fun d hd => ?_, ?_⟩
    · obtain rfl | ⟨a, ha, rfl⟩ := hd
      · exact .settled _ i
      · exact .of_change ha (.moved a _ ha)
    · cases h with
      | unchanged hstate => exact .inl hstate
      | failed hphase hfault hwrite hstate => exact .inr (hstate ▸ .settled _ i)
      | ready a ha hphase hstate => exact .inr (hstate ▸ .of_change ha (.moved a _ ha))
  | acceptance acceptance i' hwrote h =>
    refine ⟨hwrote.mono fun d hd => ?_, ?_⟩
    · obtain rfl | ⟨a, ha, hready, rfl⟩ := hd
      · exact .settled _ i
      · exact .of_change ha (.committed a ha hready)
    · cases h with
      | unchanged hstate => exact .inl hstate
      | failed hphase hmismatch hwrite hclients hstate => exact .inr (hstate ▸ .settled _ i)
      | committed a ha hready hmatches hwrite hclients hstate =>
        exact .inr (hstate ▸ .of_change ha (.committed a ha hready))

theorem Restart.ipc (h : Restart context s s') : s'.ipc = s.ipc := by
  cases h <;> rfl

theorem Liveness.ipc (h : Liveness context s s') : s'.ipc = s.ipc := by
  cases h with
  | kept => rfl
  | restarted l s' h => exact h.ipc

/-- The record a tick goes on with is the one before or one it may write. -/
def Ticked (i i' : IpcServer) : Prop :=
  Wrote (TickWrites i.state) i i' ∧ (i'.state = i.state ∨ TickWrites i.state i'.state)

theorem IpcServer.Became.ticked {r : RuntimeState} (h : i.Became r i')
    (hr : r = i.state ∨ TickWrites i.state r) : Ticked i i' :=
  ⟨h.wrote, h.state ▸ hr⟩

theorem Finishing.ticked (h : Finishing context s s') : Ticked s.ipc s'.ipc := by
  cases h with
  | unfinished hwrite i hi => exact hi.ticked (.inl rfl)
  | finished i hi s' h =>
    rw [h.ipc]
    exact hi.ticked (.inr (.inl rfl))

theorem Serving.ticked {config : DaemonConfig} (h : Serving config context a s s')
    (ha : s.ipc.state.activation = some a) : Ticked s.ipc s'.ipc := by
  have hstarting : TickWrites s.ipc.state
      (s.ipc.state.withActivation { a with phase := candidateStarting }) := .inr ⟨a, _, ha, rfl⟩
  cases h with
  | held => exact ⟨.refl _, .inl rfl⟩
  | waiting => exact ⟨.refl _, .inl rfl⟩
  | unannounced l hl stop hstop i hi => exact hi.ticked (.inl rfl)
  | unlaunched l hl stop hstop i hi => exact hi.ticked (.inr hstarting)
  | launched l hl stop hstop i hi => exact hi.ticked (.inr hstarting)

theorem RollingBack.ticked (h : RollingBack context a s s') (ha : s.ipc.state.activation = some a) :
    Ticked s.ipc s'.ipc := by
  cases h with
  | unrecorded hwrite i hi => exact hi.ticked (.inl rfl)
  | recorded i hi s' h =>
    obtain ⟨hwrote, hstate⟩ : Ticked i s'.ipc := h.ticked
    rw [hi.state] at hwrote hstate
    refine ⟨hi.wrote.trans (hwrote.mono fun d hd => hd.moved ha), .inr ?_⟩
    rcases hstate with hstate | hstate
    · exact .inr ⟨a, _, ha, hstate⟩
    · exact hstate.moved ha

theorem TickEffect.ticked {config : DaemonConfig}
    (h : TickEffect config context s s') : Ticked s.ipc s'.ipc := by
  cases h with
  | idle hidle s' h =>
    rw [h.ipc, adoptPromotedCandidateIfAny_ipc]
    exact ⟨.refl _, .inl rfl⟩
  | serving a ha hphase s' h => exact h.ticked ha
  | starting => exact ⟨.refl _, .inl rfl⟩
  | ready => exact ⟨.refl _, .inl rfl⟩
  | overdue a ha hlive hdue s' h => exact h.ticked ha
  | finishing a ha hphase s' h => exact h.ticked
  | ignored => exact ⟨.refl _, .inl rfl⟩

theorem step_record (event : Event) (hs : s.Orderly) :
    Wrote (Traced event s.ipc) s.ipc (step config event s).ipc ∧
      ((step config event s).ipc.state = s.ipc.state ∨
        Traced event s.ipc (step config event s).ipc.state) := by
  cases event with
  | request context request =>
    obtain ⟨i, hstep, heffect⟩ := step_request context request s
    rw [hstep]
    exact heffect.record
  | exit pid => exact ⟨.refl _, .inl rfl⟩
  | elapse seconds forward => exact ⟨.refl _, .inl rfl⟩
  | tick context =>
    obtain ⟨hwrote, hstate⟩ := (step_tick context hs).ticked
    exact ⟨hwrote.mono fun d hd => .of_tickWrites hd, hstate.imp_right .of_tickWrites⟩

/-! ## Every record is read back -/

/-- A request that begins a transaction names a generation above the active one. -/
def Advancing (event : Event) (s : SupervisorDaemon) : Prop :=
  ∀ context request, event = .request context (.requestActivation request) →
    Begins s.ipc request → context.writes.staged ≠ .failed →
    s.ipc.state.activeGeneration < request.candidateGeneration

/-- The record and all that has been written are well formed. -/
structure SupervisorDaemon.Readable (s : SupervisorDaemon) : Prop where
  orderly : s.Orderly
  record : s.ipc.state.WellFormed
  disk : ∀ d ∈ s.ipc.disk, d.WellFormed

theorem Traced.wellFormed
    (h : Traced event s.ipc d) (hs : s.ipc.state.WellFormed) (hadvancing : Advancing event s) :
    d.WellFormed := by
  refine h.1.wellFormed hs fun hidle a ha => ?_
  obtain ⟨context, request, p, hevent, hbegins, hstaged, rfl⟩ := h.2 hidle a ha
  exact {
    transactionId := context.freshId_uuid
    slot := hbegins.2
    generation_pos := request.generation_pos
    sha := request.sha
    advances := hadvancing context request hevent hbegins hstaged }

theorem step_readable (event : Event) (s : SupervisorDaemon) (hadvancing : Advancing event s)
    (hs : s.Readable) : (step config event s).Readable := by
  obtain ⟨⟨written, hdisk, hwritten⟩, hstate⟩ := step_record event hs.orderly
  refine ⟨step_orderly event s hs.orderly, ?_, fun d hd => ?_⟩
  · rcases hstate with hstate | htraced
    · rw [hstate]
      exact hs.record
    · exact htraced.wellFormed hs.record hadvancing
  · rw [hdisk] at hd
    rcases List.mem_append.mp hd with hd | hd
    · exact (hwritten d hd).wellFormed hs.record hadvancing
    · exact hs.disk d hd

theorem Started.readable {state : RuntimeState} {now : ℚ}
    (h : Started state now s) (hstate : state.WellFormed) : s.Readable := by
  refine ⟨h.orderly, ?_, fun d hd => ?_⟩
  · rcases h.record with hrecord | ⟨hrecord, -⟩
    · rw [hrecord]
      exact hstate.settled
    · rwa [hrecord]
  · rcases h.disk d hd with rfl | rfl
    · exact hstate
    · exact hstate.settled

/-! ## Only commits change the active runtime -/

/-- The step is a commit of the transaction in flight. -/
def Commits (config : SupervisorConfig) (event : Event) (s : SupervisorDaemon) : Prop :=
  commitTransaction s.ipc.state = .ok (step config event s).ipc.state

def DoesNotCommit (config : SupervisorConfig) (event : Event) (s : SupervisorDaemon) : Prop :=
  ¬Commits config event s

/-- Recovering `d` gives back the settled record `r`, or `d` is its commit. -/
def Conserves (r d : RuntimeState) : Prop :=
  applyRecovery d (recoveryActionFor d) = r.settled ∨ commitTransaction r = .ok d

theorem Traced.conserves (h : Traced event i d) : Conserves i.state d := by
  rcases h.1.settled_or_committed with hsettled | hcommitted
  · exact .inl ((applyRecovery_eq d).trans hsettled)
  · exact .inr (commitTransaction_ok.mpr hcommitted)

/-- Whatever a step writes, and whatever it goes on with, conserves the record. -/
def StepConserves (config : SupervisorConfig) (event : Event) (s : SupervisorDaemon) : Prop :=
  Wrote (Conserves s.ipc.state) s.ipc (step config event s).ipc ∧
    Conserves s.ipc.state (step config event s).ipc.state

theorem step_conserves (event : Event) (hs : s.Orderly) : StepConserves config event s := by
  obtain ⟨hwrote, hstate⟩ := step_record event hs
  refine ⟨hwrote.mono fun d hd => hd.conserves, ?_⟩
  rcases hstate with hstate | htraced
  · rw [hstate]
    exact .inl (applyRecovery_eq _)
  · exact htraced.conserves

theorem settled_of_not_commits
    (h : StepConserves config event s) (hnot : DoesNotCommit config event s) :
    (step config event s).ipc.state.settled = s.ipc.state.settled := by
  rcases h.2 with hrecovered | hcommits
  · rwa [applyRecovery_eq] at hrecovered
  · exact absurd hcommits hnot

/-- Without a commit the settled record stays what it is. -/
theorem run_settled (hconserves : Throughout (step config) (StepConserves config) events s)
    (hnot : Throughout (step config) (DoesNotCommit config) events s) :
    (run (step config) events s).ipc.state.settled = s.ipc.state.settled := by
  induction events generalizing s with
  | nil => rfl
  | cons event rest ih =>
    exact (ih hconserves.2 hnot.2).trans (settled_of_not_commits hconserves.1 hnot.1)

/-- The previous runtime is the one the last commit has replaced, or the run
has not committed and still knows the one it started with. -/
def DescribesLastCommit (config : SupervisorConfig) (events : List Event) (s : SupervisorDaemon) :
    Prop :=
  (Throughout (step config) (DoesNotCommit config) events s ∧
      (run (step config) events s).ipc.state.previous = s.ipc.state.previous) ∨
    ∃ before event after, events = before ++ event :: after ∧
      Commits config event (run (step config) before s) ∧
      Throughout (step config) (DoesNotCommit config) after
        (step config event (run (step config) before s)) ∧
      (run (step config) events s).ipc.state.previous =
        (some (run (step config) before s).ipc.state.activeSlot,
          some (run (step config) before s).ipc.state.activeGeneration,
          some (run (step config) before s).ipc.state.activeDescriptorSha256)

theorem describesLastCommit
    (hconserves : Throughout (step config) (StepConserves config) events s) :
    DescribesLastCommit config events s := by
  induction events generalizing s with
  | nil => exact .inl ⟨trivial, rfl⟩
  | cons event rest ih =>
    obtain ⟨hnot, hprevious⟩ | ⟨before, event', after, rfl, hlast⟩ := ih hconserves.2
    · by_cases hcommits : Commits config event s
      · obtain ⟨a, ha, hready, hstate⟩ := commitTransaction_ok.mp hcommits
        refine .inr ⟨[], event, rest, rfl, hcommits, hnot, ?_⟩
        show (run (step config) rest (step config event s)).ipc.state.previous = _
        rw [hprevious, hstate]
        rfl
      · refine .inl ⟨⟨hcommits, hnot⟩, hprevious.trans ?_⟩
        have hsettled := settled_of_not_commits hconserves.1 hcommits
        have hsame := congrArg RuntimeState.previous hsettled
        exact hsame
    · exact .inr ⟨event :: before, event', after, rfl, hlast⟩

/-! ## The runs -/

/-- Without its transaction the record is again the earlier one. -/
def Returned (earlier r : RuntimeState) : Prop :=
  applyRecovery r (recoveryActionFor r) = earlier ∧ (r.activation = none → r = earlier)

/-- What the record of a run is worth: all of it can be read back, no step but
a commit changes the active runtime, the previous runtime is the last one
replaced, and a transaction without a commit leaves no trace. -/
structure Durable (config : SupervisorConfig) (events : List Event) (s : SupervisorDaemon) :
    Prop where
  readBack : ∀ d ∈ (run (step config) events s).ipc.disk, parseRuntimeStateDict d.toDict = .ok d ∧
    ∀ a, d.activation = some a →
      a.candidateSlot ≠ d.activeSlot ∧ d.activeGeneration < a.candidateGeneration
  conserves : Throughout (step config) (StepConserves config) events s
  previous : DescribesLastCommit config events s
  abandoned : ∀ before during, events = before ++ during →
    (run (step config) before s).ipc.state.activation = none →
    Throughout (step config) (DoesNotCommit config) during (run (step config) before s) →
    Returned (run (step config) before s).ipc.state (run (step config) events s).ipc.state

/-- As long as every transaction is begun for a newer generation, whatever the
supervisor persists can be read back. -/
theorem persisted_records_are_read_back (config : SupervisorConfig) {value : Json}
    {state : RuntimeState} (hparse : parseRuntimeStateDict value = .ok state)
    (context : TickContext) (now : ℚ) {events : List Event}
    (hrun : Throughout (step config) Advancing events (started context state now)) :
    Durable config events (started context state now) := by
  have hstarted := started_spec context state now
  have hreadable := hstarted.readable (wellFormed_of_parse hparse)
  have hconserves : Throughout (step config) (StepConserves config) events
      (started context state now) :=
    throughout_of_invariant step_readable (fun event s _ hs => step_conserves event hs.orderly)
      hreadable hrun
  refine ⟨fun d hd => ?_, hconserves, describesLastCommit hconserves, ?_⟩
  · have hwell := (invariant step_readable hreadable hrun).disk d hd
    refine ⟨parse_toDict hwell, fun a ha => ?_⟩
    exact ⟨(hwell.activation a ha).slot, (hwell.activation a ha).advances⟩
  · rintro before during rfl hidle hnot
    rw [throughout_append] at hconserves
    have hsettled := run_settled hconserves.2 hnot
    rw [RuntimeState.settled_of_none hidle, ← run_append] at hsettled
    refine ⟨(applyRecovery_eq _).trans hsettled, fun hnone => ?_⟩
    rwa [RuntimeState.settled_of_none hnone] at hsettled

theorem persisted_records_are_read_back_sample :
    Durable {} [.request sampleContext (.requestActivation (sampleRequest 6 (by decide))),
      .tick sampleTick] (started sampleTick sampleState 0) := by
  have hparse : parseRuntimeStateDict sampleState.toDict = .ok sampleState := rfl
  refine persisted_records_are_read_back {} hparse sampleTick 0 ⟨?_, ?_, trivial⟩
  · intro context request hevent _ _
    cases hevent
    show (5 : ℤ) < 6
    decide
  · intro context request hevent
    cases hevent

/-- Generation 3 is staged next to the active generation 5 before it is
verified, and the record written for it cannot be read. -/
theorem staged_generation_is_not_read_back :
    parseRuntimeStateDict sampleState.toDict = .ok sampleState ∧
      ∃ d ∈ (run (step {}) [.request sampleContext (.requestActivation (sampleRequest 3 (by decide)))]
        (started sampleTick sampleState 0)).ipc.disk, ∀ r, parseRuntimeStateDict d.toDict ≠ .ok r := by
  refine ⟨rfl, sampleState.withActivation
    ((sampleRequest 3 (by decide)).transaction sampleUuid candidateStaged), ?_, fun r h => ?_⟩
  · exact List.mem_cons_of_mem _ List.mem_cons_self
  · have herror : parseRuntimeStateDict (sampleState.withActivation
        ((sampleRequest 3 (by decide)).transaction sampleUuid candidateStaged)).toDict =
          .error .candidateGeneration := rfl
    rw [herror] at h
    cases h

end IsadoraAir.Supervisor
