import IsadoraAir.Supervisor.Threads

/-!
# Acceptance across interleavings

Requests and steps of the event loop in any order. A commit that comes while the event loop holds a
record it has not assigned yet is overwritten by that record; as long as none does, an accepted
runtime stays the recorded one.
-/

namespace IsadoraAir.Supervisor

open ActivationPhase Procedure Runs

variable {request : ActivationRequest} {event : Event} {acceptance : RuntimeAcceptance}

variable {a : ActivationTransaction} {i i' : IpcServer} {events : List Event} {r : RuntimeState}
  {config : SupervisorConfig} {t t' : Threads} {context : TickContext}

/-! ## Runs of both threads -/

/-- One step of either thread; a tick is one step of the event loop. -/
def threadStep (config : SupervisorConfig) : Event → Threads → Threads
  | .tick context, t => daemonStep config.daemon context t.point t.daemon
  | event, t => { t with daemon := step config event t.daemon }

/-- The record that the event loop has computed and not assigned. -/
def DaemonPoint.record : DaemonPoint → Option RuntimeState
  | .writing _ record => some record
  | .assigning _ record => some record
  | _ => none

/-- The acceptance is that of the candidate in flight, which is ready. -/
def Acceptable (i : IpcServer) (acceptance : RuntimeAcceptance) : Prop :=
  i.state.phase = some candidateReady ∧
    matchesTransaction i acceptance.toCandidateClaim acceptance.resumableJobUuid

/-- No commit reaches the state file while the event loop holds a record, and none is left
undetermined by the flush of its directory. -/
def CommitsAlone : Event → Threads → Prop
  | .request context (.confirmRuntimeAcceptance acceptance), t =>
    Acceptable t.daemon.ipc acceptance →
      context.writes.committed = .failed ∨
        (context.writes.committed = .done ∧ t.point.record = none)
  | _, _ => True

/-- The request that the candidate makes when it has accepted. -/
abbrev confirming (context : RequestContext) (acceptance : RuntimeAcceptance) : Event :=
  .request context (.confirmRuntimeAcceptance acceptance)

/-- The event is an acceptance that is answered ok. -/
def Accepts (config : SupervisorConfig) : Event → Threads → Prop
  | .request context (.confirmRuntimeAcceptance acceptance), t =>
    Response.isOk (answer ((dispatch config.ipc context
      (.confirmRuntimeAcceptance acceptance)).exec t.daemon.ipc).1)
  | _, _ => False

def DoesNotAccept (config : SupervisorConfig) (event : Event) (t : Threads) : Prop :=
  ¬Accepts config event t

/-- What a candidate claims to be. -/
def CandidateClaim.identity (claim : CandidateClaim) : Slot × ℤ × String :=
  (claim.candidateSlot, claim.candidateGeneration, claim.candidateDescriptorSha256)

/-- The active runtime, in memory and in the newest record on disk. -/
def Serves (i : IpcServer) (identity : Slot × ℤ × String) : Prop :=
  i.state.active = identity ∧ i.disk.head?.map RuntimeState.active = some identity

/-! ## What keeps the active runtime -/

/-- Whatever was written, and the record that is kept, has the active runtime of before. -/
structure IpcServer.Keeps (i i' : IpcServer) : Prop where
  state : i'.state.active = i.state.active
  wrote : Wrote (fun d => d.active = i.state.active) i i'

theorem IpcServer.Keeps.refl (i : IpcServer) : i.Keeps i := ⟨rfl, .refl i⟩

theorem IpcServer.Keeps.serves (h : i.Keeps i')
    (hi : Serves i i.state.active) : Serves i' i.state.active := by
  obtain ⟨written, hdisk, hall⟩ := h.wrote
  refine ⟨h.state, ?_⟩
  rw [hdisk]
  cases written with
  | nil => exact hi.2
  | cons d rest => simp [hall d List.mem_cons_self]

/-- The phases of a transaction whose candidate may not have been verified. -/
def unverifiedPhases : List ActivationPhase := [candidateStaged, candidateVerified]

/-- From the request of the activation on, the candidate is newer than the active runtime. -/
def RuntimeState.Advances (r : RuntimeState) : Prop :=
  ∀ a, r.activation = some a → a.phase ∉ unverifiedPhases →
    r.activeGeneration < a.candidateGeneration

theorem RuntimeState.Advances.of_none (h : r.activation = none) : r.Advances := by
  intro a ha
  rw [h] at ha
  cases ha

theorem RuntimeState.Advances.moved (h : r.Advances)
    (ha : r.activation = some a) (hphase : a.phase ∉ unverifiedPhases)
    (p : ActivationPhase) : (r.withActivation { a with phase := p }).Advances := by
  intro a' ha' _
  cases ha'
  exact h a ha hphase

theorem verdict_advances {config : IpcConfig} {activeGeneration : ℤ}
    {staged : StagedCandidate} (h : verdict config activeGeneration request staged = .ok none) :
    activeGeneration < request.candidateGeneration := by
  unfold verdict at h
  cases hdescriptor : staged.descriptor with
  | none =>
    rw [hdescriptor] at h
    cases h
  | some descriptor =>
    rw [hdescriptor] at h
    obtain ⟨result, hresult, h⟩ := bind_eq_ok.mp h
    split_ifs at h with hreasons hclaimed
    · cases h
    · obtain ⟨d, hd, hgeneration⟩ := Option.map_eq_some_iff.mp hclaimed.1
      rw [← hgeneration]
      exact (verifyCandidateBundle_accepted hresult (not_not.mp hreasons) hd).1
    · cases h

/-! ## Requests -/

theorem Wrote.keeps {allowed : RuntimeState → Prop} (h : Wrote allowed i i')
    (hall : ∀ d, allowed d → d.active = i.state.active)
    (hstate : i'.state.active = i.state.active) : i.Keeps i' :=
  ⟨hstate, h.mono hall⟩

theorem activation_keeps {config : IpcConfig} {context : RequestContext}
    (hwrote : Wrote (RequestWrites context request i) i i')
    (h : RequestEffect config context request i i') (hi : i.state.Advances) :
    i.Keeps i' ∧ i'.state.Advances := by
  have hactive : ∀ d, RequestWrites context request i d → d.active = i.state.active := by
    rintro d ⟨-, -, rfl | ⟨p, rfl⟩⟩ <;> rfl
  cases h with
  | unchanged hstate => exact ⟨hwrote.keeps hactive (by rw [hstate]), hstate ▸ hi⟩
  | began hbegins hwrite hclients hadmission =>
    cases hadmission with
    | refused hstate =>
      exact ⟨hwrote.keeps hactive (by rw [hstate]; rfl), hstate ▸ .of_none rfl⟩
    | stopped p hp hstate =>
      refine ⟨hwrote.keeps hactive (by rw [hstate]; rfl), ?_⟩
      rw [hstate]
      intro a ha hphase
      cases ha
      have hunverified : p ∈ unverifiedPhases := by rcases hp with rfl | rfl <;> decide
      exact absurd hunverified hphase
    | requested hstate haccepted =>
      refine ⟨hwrote.keeps hactive (by rw [hstate]; rfl), ?_⟩
      rw [hstate]
      intro a ha _
      cases ha
      exact verdict_advances haccepted

theorem readiness_keeps {config : IpcConfig} {w : Writes}
    {report : ReadinessReport} (hwrote : Wrote (ReportWrites i) i i')
    (h : ReportEffect config w report i i') (hi : i.state.Advances) :
    i.Keeps i' ∧ i'.state.Advances := by
  have hactive : ∀ d, ReportWrites i d → d.active = i.state.active := by
    rintro d (rfl | ⟨a, -, rfl⟩) <;> rfl
  cases h with
  | unchanged hstate => exact ⟨hwrote.keeps hactive (by rw [hstate]), hstate ▸ hi⟩
  | failed hphase hfault hwrite hstate =>
    exact ⟨hwrote.keeps hactive (by rw [hstate]; rfl), hstate ▸ .of_none rfl⟩
  | ready a ha hphase hstate =>
    refine ⟨hwrote.keeps hactive (by rw [hstate]; rfl), ?_⟩
    rw [hstate]
    exact hi.moved ha (by rw [hphase]; decide) candidateReady

/-! ### Acceptances -/

/-- How an acceptance ends, by whether it is acceptable and how its write ends. -/
inductive Accepting (w : Writes) (acceptance : RuntimeAcceptance) (i : IpcServer) :
    Except Raised Response → IpcServer → Prop
  | refused (hnot : ¬Acceptable i acceptance) (r : Except Raised Response) (i' : IpcServer)
    (hanswer : Response.isOk (answer r) = false) (hkeeps : i.Keeps i')
    (hstate : i'.state = i.state ∨ i'.state = i.state.settled) : Accepting w acceptance i r i'
  | unwritten (hacceptable : Acceptable i acceptance) (hwrite : w.committed = .failed) :
    Accepting w acceptance i (.error .osError) i
  | undetermined (hacceptable : Acceptable i acceptance) (hwrite : w.committed = .undetermined)
    (r : Except Raised Response) (i' : IpcServer) : Accepting w acceptance i r i'
  | committed (hacceptable : Acceptable i acceptance) (hwrite : w.committed = .done)
    (a : ActivationTransaction) (ha : i.state.activation = some a)
    (hready : a.phase = candidateReady) (hidentity : a.candidate = acceptance.identity)
    (r : Except Raised Response) (i' : IpcServer)
    (hanswer : Response.isOk (answer r)) (hstate : i'.state = i.state.promoting a)
    (hdisk : i'.disk = i.state.promoting a :: i.disk) : Accepting w acceptance i r i'

theorem answer_refusal (error detail : String) :
    Response.isOk (answer (.ok (refusal error detail))) = false := rfl

theorem answer_error (e : Raised) : Response.isOk (answer (.error e)) = false := by
  cases e <;> rfl

theorem failInFlight_refuses {write : Write} {detail : String} (i : IpcServer) :
    Ensures (failInFlight write detail) i fun r _ => Response.isOk (answer r) = false := by
  have htrivial : Ensures (recordFailure write) i fun _ _ => True := trivial
  exact .bind htrivial (fun _ _ _ => .pure (answer_refusal _ _)) fun e _ _ => answer_error e

theorem matchesTransaction_candidate (ha : i.state.activation = some a)
    (h : matchesTransaction i acceptance.toCandidateClaim acceptance.resumableJobUuid) :
    a.candidate = acceptance.identity := by
  unfold matchesTransaction at h
  rw [ha] at h
  obtain ⟨-, -, hslot, hgeneration, hsha⟩ := of_decide_eq_true h
  rw [ActivationTransaction.candidate, CandidateClaim.identity, hslot, hgeneration, hsha]

theorem handleConfirmRuntimeAcceptance_accepting (w : Writes) (acceptance : RuntimeAcceptance)
    (i : IpcServer) :
    Ensures (handleConfirmRuntimeAcceptance w acceptance) i (Accepting w acceptance i) := by
  refine .get_bind ?_
  by_cases hphase : i.state.phase = some candidateReady
  · obtain ⟨a, ha, hready⟩ := RuntimeState.phase_eq_some hphase
    rw [if_neg (not_not.mpr hphase)]
    by_cases hmatches : matchesTransaction i acceptance.toCandidateClaim acceptance.resumableJobUuid
    · have hacceptable : Acceptable i acceptance := ⟨hphase, hmatches⟩
      rw [if_neg (not_not.mpr hmatches)]
      have hcommit := commitTransaction_ok.mpr ⟨a, ha, hready, rfl⟩
      refine .ofExcept_bind hcommit ?_
      cases hwrite : w.committed with
      | done =>
        exact .committed hacceptable hwrite a ha hready
          (matchesTransaction_candidate ha hmatches) _ _ rfl rfl rfl
      | failed => exact .unwritten hacceptable hwrite
      | undetermined => exact .undetermined hacceptable hwrite _ _
    · rw [if_pos hmatches]
      have hfails : failed ∈ allowedTransitions a.phase := by rw [hready]; decide
      refine .mono (.and (failInFlight_refuses i) (failInFlight_ensures ha hfails)) ?_
      rintro r i' ⟨hanswer, -, hdisk, hstate⟩
      have hactive : i'.state = i.state ∨ i'.state = i.state.settled := by
        rcases hstate with ⟨-, hstate⟩ | ⟨-, hstate⟩
        · exact .inr hstate
        · exact .inl hstate
      refine .refused (fun h => hmatches h.2) r i' hanswer (hdisk.keeps ?_ ?_) hactive
      · rintro d rfl
        rfl
      · rcases hactive with hstate | hstate <;> rw [hstate]
        rfl
  · rw [if_pos hphase]
    exact .refused (fun h => hphase h.1) _ i (answer_refusal _ _) (.refl i) (.inl rfl)

/-! ## Steps of the event loop -/

theorem Purpose.compute_keeps {purpose : Purpose} {record : RuntimeState}
    (h : purpose.compute r = .ok record) :
    record.active = r.active ∧ (r.Advances → record.Advances) := by
  cases purpose with
  | rollback =>
    obtain ⟨a, ha, hlive, rfl⟩ := requestRollback_ok.mp h
    have hverified : ∀ p ∈ phasesWithALiveCandidateProcess, p ∉ unverifiedPhases := by decide
    exact ⟨rfl, fun hr => hr.moved ha (hverified _ hlive) rollbackRequested⟩
  | failure =>
    obtain ⟨a, -, -, rfl⟩ := failTransaction_ok.mp h
    exact ⟨rfl, fun _ => .of_none rfl⟩
  | finish =>
    obtain ⟨-, rfl⟩ := finishRollback_ok.mp h
    exact ⟨rfl, fun _ => .of_none rfl⟩

theorem announceCandidateLaunch_keeps (context : TickContext) {s : SupervisorDaemon}
    (hs : s.ipc.state.Advances) :
    Ensures (announceCandidateLaunch context) s fun _ s' =>
      s.ipc.Keeps s'.ipc ∧ s'.ipc.state.Advances := by
  have hbegun : Ensures (onIpc (beginCandidateLaunch context.writes)) s fun _ s' =>
      s.ipc.Keeps s'.ipc ∧ s'.ipc.state.Advances := by
    refine .mono (onIpc_ensures (beginCandidateLaunch_ensures context.writes s.ipc)) ?_
    rintro r _ ⟨i, rfl, ⟨e, -, rfl, -⟩ | ⟨a, ha, hphase, hpersisted⟩⟩
    · exact ⟨.refl _, hs⟩
    · have hverified : a.phase ∉ unverifiedPhases := by rw [hphase]; decide
      cases hpersisted with
      | done hwrite => exact ⟨⟨rfl, .one rfl rfl⟩, hs.moved ha hverified candidateStarting⟩
      | raised hwrite e he i hstate hclients hdisk =>
        refine ⟨hdisk.keeps ?_ (by rw [hstate]), hstate ▸ hs⟩
        rintro d ⟨rfl, -⟩
        rfl
  have htried : Ensures (do onIpc (beginCandidateLaunch context.writes); pure true) s fun _ s' =>
      s.ipc.Keeps s'.ipc ∧ s'.ipc.state.Advances :=
    .bind hbegun (fun _ _ h => .pure h) fun _ _ h => h
  refine .tryCatch htried (fun _ _ h => h) fun e s' h => ?_
  cases e <;> exact h

theorem launchActiveWorker_preserves :
    Preserves SupervisorDaemon.ipc (launchActiveWorker context) := by
  refine .get_bind fun s => .bind (.ofExcept _) fun _ => .bind (.ofExcept _) fun _ => ?_
  exact .bind (.modify fun _ => rfl) fun _ => onLifecycle_preserves _

theorem restartActiveWorkerIfNeeded_preserves :
    Preserves SupervisorDaemon.ipc (restartActiveWorkerIfNeeded context) := by
  refine .get_bind fun s => ?_
  split_ifs
  · exact .pure ()
  · have hpermitted : Preserves SupervisorDaemon.ipc (launchPermitted s.now) := by
      refine .tryCatch (.bind (onLifecycle_preserves _) fun _ => .pure true) fun e => ?_
      cases e <;> first | exact .pure false | exact .throw _
    refine .bind hpermitted fun permitted => ?_
    cases permitted
    · exact .pure ()
    · exact launchActiveWorker_preserves

theorem checkActiveWorkerLiveness_preserves :
    Preserves SupervisorDaemon.ipc (checkActiveWorkerLiveness context) := by
  refine .get_bind fun s => ?_
  cases s.activeWorker with
  | none => exact restartActiveWorkerIfNeeded_preserves
  | some w =>
    dsimp only
    split_ifs
    · exact .bind noteActiveWorkerExit_preserves fun _ => restartActiveWorkerIfNeeded_preserves
    · exact .pure ()

theorem launchCandidate_preserves {config : DaemonConfig} {activation : ActivationTransaction} :
    Preserves SupervisorDaemon.ipc (launchCandidate config context activation) := by
  refine .get_bind fun s => .bind (.ofExcept _) fun _ => .bind (.ofExcept _) fun _ => ?_
  exact .bind (.ofExcept _) fun _ => .modify fun _ => rfl

/-! ## The invariant -/

/-- The records on disk never go back, the newest has the active runtime, and so has the record
that the event loop holds. -/
structure Threads.Sound (t : Threads) : Prop where
  serves : Serves t.daemon.ipc t.daemon.ipc.state.active
  generations : t.daemon.ipc.disk.Pairwise fun newer older =>
    older.activeGeneration ≤ newer.activeGeneration
  advances : t.daemon.ipc.state.Advances
  held : ∀ record, t.point.record = some record →
    record.active = t.daemon.ipc.state.active ∧ record.Advances

/-- After the step the active runtime of `i` is still the active one. -/
structure Threads.Keeps (i : IpcServer) (t : Threads) : Prop where
  server : i.Keeps t.daemon.ipc
  advances : t.daemon.ipc.state.Advances
  held : ∀ record, t.point.record = some record →
    record.active = i.state.active ∧ record.Advances

theorem Threads.Keeps.same (hi : i.state.Advances) (hipc : t.daemon.ipc = i)
    (hfree : t.point.record = none) : t.Keeps i := by
  refine ⟨hipc ▸ .refl _, hipc ▸ hi, fun record hrecord => ?_⟩
  rw [hfree] at hrecord
  cases hrecord

theorem generation_of_active {d : RuntimeState} (h : r.active = d.active) :
    r.activeGeneration = d.activeGeneration :=
  congrArg (fun identity => identity.2.1) h

theorem Threads.Sound.bounded (ht : t.Sound) :
    ∀ d ∈ t.daemon.ipc.disk, d.activeGeneration ≤ t.daemon.ipc.state.activeGeneration := by
  obtain ⟨newest, hnewest, hactive⟩ := Option.map_eq_some_iff.mp ht.serves.2
  obtain ⟨older, hdisk⟩ := List.head?_eq_some_iff.mp hnewest
  have hgenerations := ht.generations
  rw [hdisk, List.pairwise_cons] at hgenerations
  intro d hd
  rw [← generation_of_active hactive]
  rw [hdisk] at hd
  rcases List.mem_cons.mp hd with rfl | hd
  · exact le_rfl
  · exact hgenerations.1 d hd

/-- A step that keeps the active runtime, and holds no other, keeps the invariant. -/
theorem Threads.Sound.kept (ht : t.Sound) (h : t'.Keeps t.daemon.ipc) : t'.Sound := by
  obtain ⟨written, hdisk, hall⟩ := h.server.wrote
  refine ⟨?_, ?_, h.advances, ?_⟩
  · rw [h.server.state]
    exact h.server.serves ht.serves
  · rw [hdisk]
    have hsame : ∀ d ∈ written, d.activeGeneration = t.daemon.ipc.state.activeGeneration :=
      fun d hd => generation_of_active (hall d hd)
    refine List.pairwise_append.mpr ⟨?_, ht.generations, fun newer hnewer older holder => ?_⟩
    · refine List.pairwise_of_forall_mem_list fun newer hnewer older holder => ?_
      rw [hsame newer hnewer, hsame older holder]
    · rw [hsame newer hnewer]
      exact ht.bounded older holder
  · intro record hrecord
    rw [h.server.state]
    exact h.held record hrecord

/-- A commit that no record is held against keeps the invariant. -/
theorem Threads.Sound.committed (ht : t.Sound)
    (ha : t.daemon.ipc.state.activation = some a) (hready : a.phase = candidateReady)
    (hstate : t'.daemon.ipc.state = t.daemon.ipc.state.promoting a)
    (hdisk : t'.daemon.ipc.disk = t.daemon.ipc.state.promoting a :: t.daemon.ipc.disk)
    (hfree : t'.point.record = none) : t'.Sound := by
  have hnewer : t.daemon.ipc.state.activeGeneration < a.candidateGeneration :=
    ht.advances a ha (by rw [hready]; decide)
  refine ⟨⟨rfl, by rw [hdisk, hstate]; rfl⟩, ?_, by rw [hstate]; exact .of_none rfl, ?_⟩
  · rw [hdisk]
    refine List.pairwise_cons.mpr ⟨fun older holder => ?_, ht.generations⟩
    exact (ht.bounded older holder).trans hnewer.le
  · intro record hrecord
    rw [hfree] at hrecord
    cases hrecord

theorem tickPoint_record (activation : Option ActivationTransaction) :
    (tickPoint activation).record = none := by
  cases activation with
  | none => rfl
  | some a =>
    unfold tickPoint
    dsimp only
    split <;> rfl

theorem refusedPoint_record (purpose : Purpose) (e : Raised) :
    (refusedPoint purpose e).record = none := by
  cases purpose <;> cases e <;> rfl

theorem Purpose.next_record (purpose : Purpose) : purpose.next.record = none := by
  cases purpose <;> rfl

/-- Whatever the event loop does next, it keeps the active runtime. -/
theorem daemonStep_keeps (config : DaemonConfig) (context : TickContext) (ht : t.Sound) :
    (daemonStep config context t.point t.daemon).Keeps t.daemon.ipc := by
  obtain ⟨s, point⟩ := t
  have hadvances : s.ipc.state.Advances := ht.advances
  have hsame {t' : Threads} (hipc : t'.daemon.ipc = s.ipc) (hfree : t'.point.record = none) :
      t'.Keeps s.ipc := .same hadvances hipc hfree
  show (daemonStep config context point s).Keeps s.ipc
  cases point with
  | betweenTicks => exact hsame rfl (tickPoint_record _)
  | idle =>
    refine hsame ((checkActiveWorkerLiveness_preserves _).trans ?_) rfl
    exact adoptPromotedCandidateIfAny_ipc s
  | requested =>
    have hipc : ((oldWorkerHasYielded config).exec s).2.ipc = s.ipc :=
      oldWorkerHasYielded_preserves s
    simp only [daemonStep]
    split_ifs
    · exact hsame rfl rfl
    · generalize (oldWorkerHasYielded config).exec s = result at hipc ⊢
      split
      · exact hsame hipc rfl
      · exact hsame hipc rfl
  | announcing activation =>
    have hkeeps := announceCandidateLaunch_keeps context hadvances
    unfold Ensures at hkeeps
    simp only [daemonStep]
    generalize (announceCandidateLaunch context).exec s = result at hkeeps ⊢
    split
    · exact ⟨hkeeps.1, hkeeps.2, fun _ h => by cases h⟩
    · exact ⟨hkeeps.1, hkeeps.2, fun _ h => by cases h⟩
  | launching activation =>
    cases activation with
    | none => exact hsame rfl rfl
    | some activation => exact hsame (launchCandidate_preserves s) rfl
  | starting =>
    simp only [daemonStep]
    split_ifs
    · exact hsame rfl rfl
    · exact hsame rfl rfl
    · exact hsame rfl rfl
  | ready =>
    simp only [daemonStep]
    split_ifs
    · exact hsame rfl rfl
    · split
      · exact hsame rfl rfl
      · split_ifs
        · exact hsame rfl rfl
        · exact hsame rfl rfl
  | reading purpose =>
    simp only [daemonStep]
    split
    · next record hrecord =>
      obtain ⟨hactive, hrecordAdvances⟩ := Purpose.compute_keeps hrecord
      refine ⟨.refl _, hadvances, fun held hheld => ?_⟩
      cases hheld
      exact ⟨hactive, hrecordAdvances hadvances⟩
    · exact hsame rfl (refusedPoint_record purpose _)
  | writing purpose record =>
    obtain ⟨hactive, hrecordAdvances⟩ := ht.held record rfl
    have hwritten : s.ipc.Keeps { s.ipc with disk := record :: s.ipc.disk } :=
      ⟨rfl, .one rfl hactive⟩
    simp only [daemonStep]
    split
    · refine ⟨hwritten, hadvances, fun held hheld => ?_⟩
      cases hheld
      exact ⟨hactive, hrecordAdvances⟩
    · exact hsame rfl rfl
    · exact ⟨hwritten, hadvances, fun _ h => by cases h⟩
  | assigning purpose record =>
    obtain ⟨hactive, hrecordAdvances⟩ := ht.held record rfl
    refine ⟨⟨hactive, [], rfl, fun _ h => by cases h⟩, hrecordAdvances, fun held hheld => ?_⟩
    rw [daemonStep, Purpose.next_record] at hheld
    cases hheld
  | restarting => exact hsame (restartActiveWorkerIfNeeded_preserves s) rfl

/-! ## Every step -/

theorem request_keeps {config : IpcConfig} {context : RequestContext} {request : Request}
    (h : IpcEffect config context i request i')
    (hother : ∀ acceptance, request ≠ .confirmRuntimeAcceptance acceptance)
    (hi : i.state.Advances) : i.Keeps i' ∧ i'.state.Advances := by
  cases h with
  | queried => exact ⟨.refl i, hi⟩
  | activation r i' hwrote h => exact activation_keeps hwrote h hi
  | readiness report i' hclients hwrote h => exact readiness_keeps hwrote h hi
  | acceptance acceptance i' hwrote h => exact absurd rfl (hother acceptance)

theorem Accepts.inv (h : Accepts config event t) :
    ∃ context acceptance, event = confirming context acceptance := by
  unfold Accepts at h
  split at h
  · exact ⟨_, _, rfl⟩
  · exact h.elim

/-- The active runtime of the record in memory. -/
def Threads.active (t : Threads) : Slot × ℤ × String := t.daemon.ipc.state.active

theorem acceptance_step (config : SupervisorConfig) (context : RequestContext)
    (acceptance : RuntimeAcceptance) (t : Threads) :
    ∃ r i, threadStep config (confirming context acceptance) t =
        { t with daemon := { t.daemon with ipc := i } } ∧
      (Accepts config (confirming context acceptance) t ↔
        Response.isOk (answer r)) ∧
      Accepting context.writes acceptance t.daemon.ipc r i :=
  ⟨_, _, rfl, Iff.rfl,
    handleConfirmRuntimeAcceptance_accepting context.writes acceptance t.daemon.ipc⟩

/-- An acceptance puts its candidate in the place of the active runtime if and only if it is
answered ok, as long as it commits alone. -/
theorem acceptance_effect (config : SupervisorConfig) {context : RequestContext} (ht : t.Sound)
    (halone : CommitsAlone (confirming context acceptance) t)
    (hstep : threadStep config (confirming context acceptance) t = t') :
    t'.Sound ∧
      ((¬Accepts config (confirming context acceptance) t ∧
          t'.active = t.active) ∨
        (Accepts config (confirming context acceptance) t ∧
          t'.active = acceptance.identity)) := by
  obtain ⟨r, i, hthread, haccepts, heffect⟩ := acceptance_step config context acceptance t
  rw [← hstep, hthread, haccepts]
  cases heffect with
  | refused hnot _ _ hanswer hkeeps hstate =>
    refine ⟨ht.kept ⟨hkeeps, ?_, ht.held⟩, .inl ⟨by simp [hanswer], hkeeps.state⟩⟩
    rcases hstate with hstate | hstate
    · exact hstate ▸ ht.advances
    · exact hstate ▸ .of_none rfl
  | unwritten hacceptable hwrite =>
    exact ⟨ht.kept ⟨.refl _, ht.advances, ht.held⟩, .inl ⟨by simp [answer_error], rfl⟩⟩
  | undetermined hacceptable hwrite =>
    rcases halone hacceptable with hfailed | ⟨hdone, -⟩
    · rw [hwrite] at hfailed
      cases hfailed
    · rw [hwrite] at hdone
      cases hdone
  | committed hacceptable hwrite a ha hready hidentity _ _ hanswer hstate hdisk =>
    have hfree : t.point.record = none := by
      rcases halone hacceptable with hfailed | ⟨-, hfree⟩
      · rw [hwrite] at hfailed
        cases hfailed
      · exact hfree
    refine ⟨ht.committed ha hready hstate hdisk hfree, .inr ⟨hanswer, ?_⟩⟩
    show i.state.active = acceptance.identity
    rw [hstate, ← hidentity]
    rfl

/-- What one step of either thread does. -/
theorem threadStep_effect (config : SupervisorConfig) (halone : CommitsAlone event t)
    (ht : t.Sound) :
    (threadStep config event t).Sound ∧
      ((¬Accepts config event t ∧ (threadStep config event t).active = t.active) ∨
        (Accepts config event t ∧ ∀ context acceptance,
          event = confirming context acceptance →
            (threadStep config event t).active = acceptance.identity)) := by
  cases event with
  | tick context =>
    have hkeeps := daemonStep_keeps config.daemon context ht
    exact ⟨ht.kept hkeeps, .inl ⟨id, hkeeps.server.state⟩⟩
  | exit pid => exact ⟨ht.kept ⟨.refl _, ht.advances, ht.held⟩, .inl ⟨id, rfl⟩⟩
  | elapse seconds forward => exact ⟨ht.kept ⟨.refl _, ht.advances, ht.held⟩, .inl ⟨id, rfl⟩⟩
  | request context request =>
    by_cases hacceptance : ∃ acceptance, request = .confirmRuntimeAcceptance acceptance
    · obtain ⟨acceptance, rfl⟩ := hacceptance
      obtain ⟨hsound, heffect⟩ := acceptance_effect config ht halone rfl
      refine ⟨hsound, heffect.imp id fun haccepted => ⟨haccepted.1, fun _ _ hevent => ?_⟩⟩
      cases hevent
      exact haccepted.2
    · have hother : ∀ acceptance, request ≠ .confirmRuntimeAcceptance acceptance :=
        fun acceptance h => hacceptance ⟨acceptance, h⟩
      obtain ⟨i, hstep, heffect⟩ := @step_request config context request t.daemon
      obtain ⟨hkeeps, hadvances⟩ := request_keeps heffect hother ht.advances
      have hthread : threadStep config (.request context request) t =
          { t with daemon := { t.daemon with ipc := i } } := by
        rw [← hstep]
        rfl
      rw [hthread]
      refine ⟨ht.kept ⟨hkeeps, hadvances, ht.held⟩, .inl ⟨fun haccepts => ?_, hkeeps.state⟩⟩
      obtain ⟨_, acceptance, hevent⟩ := haccepts.inv
      cases hevent
      exact hother acceptance rfl

/-! ## Runs -/

/-- Without an acceptance that is answered ok the active runtime stays. -/
theorem run_active (ht : t.Sound) (halone : Throughout (threadStep config) CommitsAlone events t)
    (hnone : Throughout (threadStep config) (DoesNotAccept config) events t) :
    (run (threadStep config) events t).active = t.active := by
  induction events generalizing t with
  | nil => rfl
  | cons event rest ih =>
    obtain ⟨hsound, heffect⟩ := threadStep_effect config halone.1 ht
    rw [run_cons, ih hsound halone.2 hnone.2]
    rcases heffect with ⟨-, hsame⟩ | ⟨haccepts, -⟩
    · exact hsame
    · exact absurd haccepts hnone.1

theorem run_sound (ht : t.Sound) (halone : Throughout (threadStep config) CommitsAlone events t) :
    (run (threadStep config) events t).Sound :=
  invariant (I := Threads.Sound) (fun _ _ halone ht => (threadStep_effect config halone ht).1) ht halone

/-- The generations on disk never go back. An acceptance that is answered ok makes its candidate
the active runtime, and from then on, as from the start, only another one changes it, in memory or
in the newest record on disk. -/
structure Retains (config : SupervisorConfig) (events : List Event) (t : Threads) : Prop where
  generations : (run (threadStep config) events t).daemon.ipc.disk.Pairwise fun newer older =>
    older.activeGeneration ≤ newer.activeGeneration
  untouched : Throughout (threadStep config) (DoesNotAccept config) events t →
    Serves (run (threadStep config) events t).daemon.ipc t.active
  accepted : ∀ before context acceptance after,
    events = before ++ confirming context acceptance :: after →
    Accepts config (confirming context acceptance)
      (run (threadStep config) before t) →
    Throughout (threadStep config) (DoesNotAccept config) after (run (threadStep config)
      (before ++ [confirming context acceptance]) t) →
    Serves (run (threadStep config) events t).daemon.ipc acceptance.identity

theorem Threads.Sound.retains
    (ht : t.Sound) (halone : Throughout (threadStep config) CommitsAlone events t) :
    Retains config events t := by
  have hsound := run_sound ht halone
  refine ⟨hsound.generations, fun hnone => ?_, ?_⟩
  · rw [← run_active ht halone hnone]
    exact hsound.serves
  · rintro before context acceptance after rfl haccepts hnone
    rw [throughout_append] at halone
    obtain ⟨hbefore, hcommit, hafter⟩ := halone
    obtain ⟨haccepted, heffect⟩ := threadStep_effect config hcommit (run_sound ht hbefore)
    rw [run_append] at hnone
    have hactive := run_active haccepted hafter hnone
    rcases heffect with ⟨hnot, -⟩ | ⟨-, hidentity⟩
    · exact absurd haccepts hnot
    · rw [hidentity context acceptance rfl] at hactive
      rw [← hactive]
      rw [run_append] at hsound ⊢
      exact hsound.serves

theorem started_disk (context : TickContext) (state : RuntimeState) (now : ℚ) :
    (started context state now).ipc.disk ≠ [] := by
  have hlaunch (s : SupervisorDaemon) (hs : s.ipc.disk ≠ []) :
      Ensures (launchActiveWorker context) s fun _ s' => s'.ipc.disk ≠ [] := by
    have hipc : ((launchActiveWorker context).exec s).2.ipc = s.ipc :=
      launchActiveWorker_preserves s
    show ((launchActiveWorker context).exec s).2.ipc.disk ≠ []
    rwa [hipc]
  have hstart : Ensures (start context) (SupervisorDaemon.initial state now) fun _ s' =>
      s'.ipc.disk ≠ [] := by
    have hinitial : (SupervisorDaemon.initial state now).ipc.disk ≠ [] := List.cons_ne_nil _ _
    refine .get_bind ?_
    dsimp only
    split_ifs
    · refine .bind (onIpc_ensures (persist_ensures _ _ _)) ?_ ?_
      · rintro _ _ ⟨i, rfl, hpersisted⟩
        cases hpersisted with
        | done hwrite => exact hlaunch _ (List.cons_ne_nil _ _)
      · rintro e _ ⟨i, rfl, hpersisted⟩
        cases hpersisted with
        | raised hwrite _ he _ hstate hclients hdisk =>
          obtain ⟨written, hwritten, -⟩ := hdisk
          show i.disk ≠ []
          rw [hwritten]
          exact List.append_ne_nil_of_right_ne_nil _ hinitial
    · exact hlaunch _ hinitial
  exact hstart

/-- In every interleaving of requests and steps of the event loop in which commits come alone, an
accepted runtime is retained. -/
theorem accepted_runtime_is_retained (config : SupervisorConfig) {context : TickContext}
    {state : RuntimeState} {now : ℚ} (hstarts : Starts context state now) {events : List Event}
    (halone : Throughout (threadStep config) CommitsAlone events
      ⟨started context state now, .betweenTicks⟩) :
    Retains config events ⟨started context state now, .betweenTicks⟩ := by
  have hstarted := started_spec context state now
  have hrecord := hstarts.cameUp.record
  have hsame : ∀ d ∈ (started context state now).ipc.disk, d.active = state.active := by
    intro d hd
    rcases hstarted.disk d hd with rfl | rfl <;> rfl
  refine Threads.Sound.retains ⟨⟨rfl, ?_⟩, ?_, ?_, ?_⟩ halone
  · rw [hrecord]
    cases hdisk : (started context state now).ipc.disk with
    | nil => exact absurd hdisk (started_disk context state now)
    | cons newest older =>
      rw [List.head?_cons, Option.map_some, hsame newest (hdisk ▸ List.mem_cons_self)]
      rfl
  · refine List.pairwise_of_forall_mem_list fun newer hnewer older holder => ?_
    rw [generation_of_active (hsame newer hnewer), generation_of_active (hsame older holder)]
  · rw [hrecord]
    exact .of_none rfl
  · intro record hheld
    cases hheld

/-! ## A sample run -/

def sampleReadiness : ReadinessReport :=
  ⟨sampleClaim 6 sampleGeneration_pos, 1, [3], true, true, true, true, true, sampleUuid⟩

def sampleConfirmation : RuntimeAcceptance := ⟨sampleClaim 6 sampleGeneration_pos, sampleUuid⟩

/-- The old worker yields, the candidate is launched and reports ready, and the event loop is in
the middle of a tick when the acceptance comes. -/
def sampleInterleaving : List Event :=
  [.request sampleContext (.requestActivation (sampleRequest 6 sampleGeneration_pos)),
    .tick sampleTick, .tick sampleTick, .exit 10, .tick sampleTick, .tick sampleTick,
    .tick sampleTick, .tick sampleTick, .request sampleContext (.reportReadiness sampleReadiness),
    .tick sampleTick, .request sampleContext (.confirmRuntimeAcceptance sampleConfirmation),
    .tick sampleTick, .tick sampleTick]

theorem accepted_runtime_is_retained_sample :
    Retains {} sampleInterleaving ⟨started sampleTick sampleState 0, .betweenTicks⟩ ∧
      (run (threadStep {}) sampleInterleaving
        ⟨started sampleTick sampleState 0, .betweenTicks⟩).active = (.b, 6, sampleDigest 'b') := by
  have hstarts : Starts sampleTick sampleState 0 := rfl
  refine ⟨accepted_runtime_is_retained {} hstarts ?_, rfl⟩
  refine ⟨trivial, trivial, trivial, trivial, trivial, trivial, trivial, trivial, trivial, trivial,
    fun _ => .inr ⟨rfl, rfl⟩, trivial, trivial, trivial⟩

end IsadoraAir.Supervisor
