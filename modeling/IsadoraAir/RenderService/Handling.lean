import IsadoraAir.RenderService.Requests

/-!
# What a handler gives back

Each part of a handler is specified by what it does to the ledger, from the
reading of the request to the closing of its connection.
-/

namespace IsadoraAir.RenderService

open Routine (Accounts tryFinally)

variable {ended : Ended} {closed left : List Fd} {ρ α : Type} {l : Ledger}

/-- From the ledger `l`, every action is guarded, and `Q` holds at the end. -/
abbrev Spec (m : Handler ρ α) (l : Ledger) (Q : Except Raised α → Ledger → Prop) : Prop :=
  Accounts record Guard m l Q

/-! ## Reading a request -/

theorem remaining_spec (l : Ledger) : Spec (remaining : Handler ρ Unit) l fun r l' =>
    (r = .ok () ∧ l' = l) ∨ ∃ f, r = .error (.failure f) ∧ l' = { l with late := true } := by
  refine Accounts.perform_bind trivial fun left => ?_
  cases left with
  | false => exact .inr ⟨_, rfl, rfl⟩
  | true => exact .inl ⟨rfl, rfl⟩

theorem readRest_spec (fds : List Fd) (buffer : List UInt8) (l : Ledger) :
    Spec (readRest fds buffer : Handler ρ (List UInt8)) l fun r l' =>
      ((∃ line, r = .ok line) ∨ r = .error (.refused "invalid_request" fds)) ∧ l' = l ∨
        ∃ f, r = .error (.failure f) ∧ l' = { l with late := true } := by
  induction buffer using readRest.induct with
  | case1 buffer hend =>
    rw [readRest, if_pos hend]
    exact .inl ⟨.inl ⟨buffer, rfl⟩, rfl⟩
  | case2 buffer hend hfull =>
    rw [readRest, if_neg hend, if_pos hfull]
    exact .inl ⟨.inr rfl, rfl⟩
  | case3 buffer hend hfull ih =>
    rw [readRest, if_neg hend, if_neg hfull]
    refine Accounts.bind (remaining_spec l) ?_ ?_
    · intro u l' h
      rcases h with ⟨-, rfl⟩ | ⟨f, h, -⟩
      · refine Accounts.perform_bind trivial fun received => ?_
        cases received with
        | none => exact .inl ⟨.inr rfl, rfl⟩
        | some chunk =>
          dsimp only
          split_ifs with hchunk
          · exact .inl ⟨.inr rfl, rfl⟩
          · exact ih chunk hchunk
      · cases h
    · intro e l' h
      rcases h with ⟨h, -⟩ | ⟨f, h, rfl⟩
      · cases h
      · cases h
        exact .inr ⟨f, rfl, rfl⟩

/-- How the reading of a request ends. -/
inductive Read (l : Ledger) : Except Raised (ρ × List Fd) → Ledger → Prop
  | ok (request : ρ) (fds : List Fd) : Read l (.ok (request, fds)) { l with received := fds }
  | refused (fds : List Fd) :
    Read l (.error (.refused "invalid_request" fds)) { l with received := fds }
  | early (f : Failure) : Read l (.error (.failure f)) l
  | late (f : Failure) (fds : List Fd) :
    Read l (.error (.failure f)) { l with late := true, received := fds }
  | undecodable (f : Failure) (fds : List Fd) :
    Read l (.error (.failure f)) { l with undecodable := true, received := fds }

theorem readRequest_spec (h : l.received = []) :
    Spec (readRequest : Handler ρ (ρ × List Fd)) l (Read l) := by
  refine Accounts.bind (remaining_spec l) ?_ ?_
  · rintro u l' (⟨-, rfl⟩ | ⟨f, hf, -⟩)
    · refine Accounts.perform_bind trivial fun first => ?_
      cases first with
      | error f => exact .early f
      | ok packet =>
        have hrecord : record (ρ := ρ) .recvmsg (.ok packet) l' =
            { l' with received := packet.fds } := by
          simp [record, h]
        rw [hrecord]
        dsimp only
        split_ifs with hbound
        · exact .refused packet.fds
        · refine Accounts.bind (readRest_spec packet.fds packet.data _) ?_ ?_
          · rintro line l'' (⟨-, rfl⟩ | ⟨f, hf, -⟩)
            · refine Accounts.perform_bind trivial fun loaded => ?_
              cases loaded with
              | ok request => exact .ok request packet.fds
              | error f =>
                cases f with
                | valueError => exact .refused packet.fds
                | renderError code stage => exact .undecodable _ packet.fds
                | osError e => exact .undecodable _ packet.fds
                | other => exact .undecodable _ packet.fds
            · cases hf
          · rintro e l'' (⟨⟨line, hline⟩ | hrefused, rfl⟩ | ⟨f, hf, rfl⟩)
            · cases hline
            · cases hrefused
              exact .refused packet.fds
            · cases hf
              exact .late f packet.fds
    · cases hf
  · rintro e l' (⟨he, -⟩ | ⟨f, hf, rfl⟩)
    · cases he
    · cases hf
      have hlate := Read.late (ρ := ρ) (l := l) f []
      rwa [← h] at hlate

/-! ## The run slot -/

/-- No slot is held, nothing is counted, and nothing has gone wrong. -/
structure Ledger.Quiet (l : Ledger) : Prop where
  interrupted : l.interrupted = false
  outputs : l.outputs = []
  slot : l.slot = 0
  active : l.active = 0
  pending : l.pending = 0

/-- How the claim of a run slot ends. -/
inductive Claimed (l : Ledger) (fds : List Fd) : Except Raised Parsed → Ledger → Prop
  | claimed (parsed : Parsed) : Claimed l fds (.ok parsed) { l with slot := 1, active := 1 }
  | refused (code : String) : Claimed l fds (.error (.refused code fds)) l
  | failed (f : Failure) : Claimed l fds (.error (.failure f)) l
  | interrupted (f : Failure) (slot active pending : ℤ)
    (h : slot ≠ 0 ∨ active ≠ 0 ∨ pending ≠ 0) : Claimed l fds (.error (.failure f))
      { l with slot := slot, active := active, pending := pending, interrupted := true }

theorem count_spec (counter : Counter) (delta : ℤ) (failure : Option String) (l : Ledger) :
    Spec (count counter delta failure : Handler ρ Unit) l fun r l' =>
      (r = .ok () ∧ l' = l.count counter delta) ∨ ∃ f, r = .error (.failure f) ∧
        l' = { l.count counter delta with interrupted := l.interrupted || l.atStake delta } := by
  refine Accounts.perform_bind trivial fun written => ?_
  cases written with
  | ok u => exact .inl ⟨rfl, rfl⟩
  | error f => exact .inr ⟨f, rfl, rfl⟩

theorem waitForSlot_spec (h : l.slot = 0) :
    Spec (waitForSlot : Handler ρ Unit) l fun r l' =>
      (r = .ok () ∧ l' = { l with slot := 1 }) ∨ ∃ f, r = .error (.failure f) ∧ l' = l := by
  refine Accounts.perform_bind h fun waited => ?_
  cases waited with
  | acquired => exact .inl ⟨rfl, by simp [record, h]⟩
  | cancelled => exact .inr ⟨_, rfl, rfl⟩
  | busy => exact .inr ⟨_, rfl, rfl⟩

theorem Ledger.Quiet.count_back (h : l.Quiet) (slot : ℤ) :
    { l with slot := slot, pending := 1 }.count .pending (-1) = { l with slot := slot } := by
  simp [Ledger.count, h.pending]

/-- The wait, counted as pending. -/
theorem pendingWait_spec (h : l.Quiet) :
    Spec (tryFinally waitForSlot (count .pending (-1) none) : Handler ρ Unit)
      { l with pending := 1 } fun r l' =>
        (r = .ok () ∧ l' = { l with slot := 1 }) ∨ ∃ f, r = .error (.failure f) ∧
          (l' = l ∨ l' = { l with slot := 1, interrupted := true }) := by
  refine Accounts.tryFinally (waitForSlot_spec h.slot) ?_
  rintro r l' (⟨rfl, rfl⟩ | ⟨f, rfl, rfl⟩)
  · have hback := h.count_back 1
    refine (count_spec .pending (-1) none _).mono ?_
    rintro r l' (⟨rfl, rfl⟩ | ⟨f, rfl, rfl⟩)
    · exact ⟨fun e he => (by cases he), fun _ => .inl ⟨rfl, hback⟩⟩
    · refine ⟨fun e he => .inr ⟨f, he.symm, .inr ?_⟩, fun he => (by cases he)⟩
      rw [hback]
      simp [Ledger.atStake]
  · have hback : { l with pending := 1 }.count .pending (-1) = l := h.count_back l.slot
    refine (count_spec .pending (-1) none _).mono ?_
    rintro r l' (⟨rfl, rfl⟩ | ⟨f', rfl, rfl⟩)
    · exact ⟨fun e he => (by cases he), fun _ => .inr ⟨f, rfl, .inl hback⟩⟩
    · refine ⟨fun e he => .inr ⟨f', he.symm, .inl ?_⟩, fun he => (by cases he)⟩
      have hstake : { l with pending := 1 }.atStake (-1) = false := by
        simp [Ledger.atStake, h.slot, h.outputs]
      rw [hback, hstake, Bool.or_false]

theorem claimSlot_spec (request : ρ) (fds : List Fd) (h : l.Quiet) :
    Spec (claimSlot request fds) l (Claimed l fds) := by
  refine Accounts.perform_bind trivial fun parsed => ?_
  cases parsed with
  | error unparsed =>
    cases unparsed with
    | protocolError code => exact .refused code
    | failure f => exact .failed f
  | ok parsed =>
    dsimp only
    split_ifs
    · exact .refused _
    · have hcount : l.count .pending 1 = { l with pending := 1 } := by
        simp [Ledger.count, h.pending]
      refine Accounts.bind (count_spec .pending 1 none l) ?_ ?_
      · rintro u l' (⟨-, rfl⟩ | ⟨f, hf, -⟩)
        · rw [hcount]
          refine Accounts.bind (pendingWait_spec h) ?_ ?_
          · rintro u l' (⟨-, rfl⟩ | ⟨f, hf, -⟩)
            · refine Accounts.bind (count_spec .active 1 none _) ?_ ?_
              · rintro u l' (⟨-, rfl⟩ | ⟨f, hf, -⟩)
                · have hactive : { l with slot := 1 }.count .active 1 =
                      { l with slot := 1, active := 1 } := by
                    simp [Ledger.count, h.active]
                  rw [hactive]
                  exact .claimed parsed
                · cases hf
              · rintro e l' (⟨he, -⟩ | ⟨f, hf, rfl⟩)
                · cases he
                · cases hf
                  have hinterrupted : { { l with slot := 1 }.count .active 1 with
                      interrupted := l.interrupted || { l with slot := 1 }.atStake 1 } =
                      { l with slot := 1, active := l.active + 1, interrupted := true } := by
                    simp [Ledger.count, Ledger.atStake]
                  rw [hinterrupted]
                  exact .interrupted f 1 _ _ (.inl one_ne_zero)
            · cases hf
          · rintro e l' (⟨he, -⟩ | ⟨f, hf, rfl | rfl⟩)
            · cases he
            · cases hf
              exact .failed f
            · cases hf
              exact .interrupted f 1 _ _ (.inl one_ne_zero)
        · cases hf
      · rintro e l' (⟨he, -⟩ | ⟨f, hf, rfl⟩)
        · cases he
        · cases hf
          have hinterrupted : { l.count .pending 1 with
              interrupted := l.interrupted || l.atStake 1 } =
              { l with pending := 1, interrupted := true } := by
            simp [Ledger.atStake, hcount]
          rw [hinterrupted]
          exact .interrupted f _ _ 1 (.inr (.inr one_ne_zero))

/-! ## Rendering -/

/-- The descriptors are closed from the front; all of them unless a close raises. -/
theorem release_spec (fds : List Fd) (l : Ledger) :
    Spec (release fds : Handler ρ _) l fun r l' => ∃ closed released left,
      r = .ok (released, left) ∧ closed ++ left = fds ∧
        l' = { l with closed := l.closed ++ closed } := by
  induction fds generalizing l with
  | nil => exact ⟨[], .ok (), [], rfl, rfl, by simp⟩
  | cons fd fds ih =>
    refine Accounts.perform_bind trivial fun result => ?_
    cases result with
    | error e => exact ⟨[fd], .error e, fds, rfl, rfl, rfl⟩
    | ok u =>
      refine (ih _).mono ?_
      rintro r l' ⟨closed, released, left, rfl, rfl, rfl⟩
      exact ⟨fd :: closed, released, left, rfl, rfl, by simp [record]⟩

/-- The descriptor that a rendering hands over. -/
def outputFds {ε : Type} : Except ε Rendered → List Fd
  | .ok rendered => [rendered.fd]
  | .error _ => []

theorem execute_spec (parsed : Parsed) (fds : List Fd) (h : l.slot = 1) :
    Spec (execute parsed fds : Handler ρ _) l fun r l' => ∃ closed outcome left,
      r = .ok (outcome, left) ∧ (closed ++ left).Perm fds ∧
        l' = { l with closed := l.closed ++ closed, outputs := l.outputs ++ outputFds outcome } := by
  refine Accounts.perform_bind h fun taken => ?_
  cases taken with
  | error f => exact ⟨[], .error f, fds, rfl, .rfl, by simp [record, outputFds]⟩
  | ok u =>
    refine Accounts.bind (release_spec fds.reverse _) ?_ ?_
    · rintro result l' ⟨closed, released, left, hr, hfds, rfl⟩
      cases hr
      have hperm : (closed ++ left.reverse).Perm fds :=
        ((left.reverse_perm).append_left closed).trans (by rw [hfds]; exact fds.reverse_perm)
      cases released with
      | error e =>
        exact ⟨closed, .error (unwind e), left.reverse, rfl, hperm, by simp [record, outputFds]⟩
      | ok u =>
        refine Accounts.perform_bind h fun outcome => ?_
        refine ⟨closed, outcome, left.reverse, rfl, hperm, ?_⟩
        cases outcome with
        | error f => simp [record, outputFds]
        | ok rendered => simp [record, outputFds]
    · rintro e l' ⟨closed, released, left, hr, -⟩
      cases hr

/-- A request has ended: what is still open accounts for the rest, unless something is lost. -/
structure Served (ended : Ended) (l : Ledger) : Prop where
  answers : l.answers = []
  admission : l.admission = 1
  accounted : l.Accounted (heldFds ended ++ outputFds ended.1) ↔ ¬ l.Lost

/-- A connection that has got its request: nothing has been closed or answered. -/
structure Ledger.Fresh (l : Ledger) : Prop extends l.Quiet where
  answers : l.answers = []
  admission : l.admission = 1
  closed : l.closed = []
  late : l.late = false
  undecodable : l.undecodable = false

theorem Ledger.Fresh.not_lost (h : l.Fresh) : ¬ l.Lost := by
  simp [Ledger.Lost, h.late, h.undecodable, h.interrupted]

theorem Ledger.Fresh.served (h : l.Fresh)
    (hheld : heldFds ended ++ outputFds ended.1 = l.received) : Served ended l where
  answers := h.answers
  admission := h.admission
  accounted := by
    refine iff_of_true ⟨?_, h.slot, h.active, h.pending⟩ h.not_lost
    rw [h.closed, hheld, h.outputs, List.append_nil, List.nil_append]

/-- The executor has run, and the run slot has been given back. -/
theorem Ledger.Fresh.served_execution
    (outcome : Except Failure Rendered) (h : l.Fresh) (hfds : (closed ++ left).Perm l.received) :
    Served (outcome.mapError .failure, left)
      { l with closed := closed, outputs := outputFds outcome } where
  answers := h.answers
  admission := h.admission
  accounted := by
    have hlost : ¬ { l with closed := closed, outputs := outputFds outcome }.Lost := h.not_lost
    refine iff_of_true ⟨?_, h.slot, h.active, h.pending⟩ hlost
    cases outcome with
    | error f => simpa [Except.mapError, heldFds, outputFds] using hfds
    | ok rendered =>
      simp only [Except.mapError, heldFds, outputFds, ← List.append_assoc]
      exact hfds.append_right _

/-- The status cannot be written at the end: an output is lost. -/
theorem Ledger.Fresh.served_interrupted (outcome : Except Failure Rendered) (f : Failure)
    (h : l.Fresh) (hfds : (closed ++ left).Perm l.received) :
    Served (.error (.failure f), left) { l with
      closed := closed, outputs := outputFds outcome, interrupted := outputFds outcome ≠ [] } := by
  cases outcome with
  | error f' =>
    have herror := h.served_execution (.error f) hfds
    simpa [outputFds, Except.mapError, h.interrupted] using herror
  | ok rendered =>
    refine ⟨h.answers, h.admission, iff_of_false ?_ ?_⟩
    · intro haccounted
      have hlength := haccounted.fds.length_eq
      have hreceived := hfds.length_eq
      simp only [heldFds, outputFds, List.length_append, List.length_nil,
        List.length_singleton] at hlength hreceived
      omega
    · simp [Ledger.Lost, outputFds]

theorem render_spec (request : ρ) (h : l.Fresh) :
    Spec (render request l.received) l fun r l' => ∃ ended, r = .ok ended ∧ Served ended l' := by
  refine Accounts.attempt_bind (claimSlot_spec request l.received h.toQuiet) ?_
  intro claimed l' hclaimed
  cases hclaimed with
  | claimed parsed =>
    refine Accounts.bind (execute_spec parsed l.received rfl) ?_ ?_
    · rintro ended l' ⟨closed, outcome, left, hended, hfds, rfl⟩
      cases hended
      refine Accounts.perform_bind rfl fun u => Accounts.perform_bind trivial fun written => ?_
      cases written with
      | ok u =>
        refine ⟨_, rfl, ?_⟩
        have hserved := h.served_execution outcome hfds
        simpa [record, Ledger.count, h.closed, h.outputs, h.slot, h.active] using hserved
      | error f =>
        refine ⟨_, rfl, ?_⟩
        have hserved := h.served_interrupted outcome f hfds
        simpa [record, Ledger.count, Ledger.atStake, h.closed, h.outputs, h.slot, h.active,
          h.interrupted] using hserved
    · rintro e l' ⟨closed, outcome, left, hended, -⟩
      cases hended
  | refused code =>
    refine ⟨_, rfl, h.served ?_⟩
    simp [heldFds, outputFds]
  | failed f =>
    refine ⟨_, rfl, h.served ?_⟩
    simp [heldFds, outputFds]
  | interrupted f slot active pending hcounts =>
    refine ⟨_, rfl, h.answers, h.admission, iff_of_false ?_ ?_⟩
    · intro haccounted
      have hslot := haccounted.slot
      have hactive := haccounted.active
      have hpending := haccounted.pending
      dsimp only at hslot hactive hpending
      omega
    · exact not_not.mpr (.inr rfl)

/-- A request that has raised while it was read: its descriptors are lost. -/
theorem Ledger.Fresh.served_unread (late undecodable : Bool) (f : Failure) (fds : List Fd)
    (h : l.Fresh) (hflag : late = true ∨ undecodable = true) :
    Served (.error (.failure f), [])
      { l with late := late, undecodable := undecodable, received := fds } where
  answers := h.answers
  admission := h.admission
  accounted := by
    constructor
    · rintro haccounted (⟨hne, -⟩ | hinterrupted)
      · have hlength := haccounted.fds.length_eq
        simp [heldFds, outputFds, h.closed, h.outputs] at hlength
        exact hne (List.length_eq_zero_iff.mp hlength.symm)
      · rw [h.interrupted] at hinterrupted
        cases hinterrupted
    · intro hlost
      have hnil : fds = [] := by
        by_contra hne
        exact hlost (.inl ⟨hne, hflag⟩)
      refine ⟨?_, h.slot, h.active, h.pending⟩
      simp [heldFds, outputFds, h.closed, h.outputs, hnil]

theorem serveRequest_spec (h : l.Fresh) (hreceived : l.received = []) :
    Spec (serveRequest : Handler ρ Ended) l fun r l' => ∃ ended, r = .ok ended ∧ Served ended l' := by
  refine Accounts.attempt_bind (readRequest_spec hreceived) ?_
  intro read l' hread
  have hfresh (fds : List Fd) : { l with received := fds }.Fresh :=
    ⟨⟨h.interrupted, h.outputs, h.slot, h.active, h.pending⟩, h.answers, h.admission, h.closed,
      h.late, h.undecodable⟩
  cases hread with
  | ok request fds => exact render_spec request (hfresh fds)
  | refused fds => exact ⟨_, rfl, (hfresh fds).served (List.append_nil fds)⟩
  | early f => exact ⟨_, rfl, h.served hreceived.symm⟩
  | late f fds =>
    have hserved := h.served_unread true l.undecodable f fds (.inl rfl)
    exact ⟨_, rfl, hserved⟩
  | undecodable f fds =>
    have hserved := h.served_unread l.late true f fds (.inr rfl)
    exact ⟨_, rfl, hserved⟩

/-! ## One connection -/

theorem log_spec (l : Ledger) : Spec (log : Handler ρ Unit) l fun _ l' => l' = l := by
  refine Accounts.perform_bind trivial fun written => ?_
  cases written with
  | ok u => rfl
  | error e => rfl

/-- The failure is counted without a change. -/
theorem countFailure_spec (code : Option String) (l : Ledger) :
    Spec (count .active 0 code : Handler ρ Unit) l fun _ l' => l' = l := by
  have hcount : l.count .active 0 = l := by simp [Ledger.count]
  refine (count_spec .active 0 code l).mono ?_
  rintro r l' (⟨-, rfl⟩ | ⟨f, -, rfl⟩)
  · exact hcount
  · simp [Ledger.atStake, hcount]

/-- A request that is only logged. -/
theorem unanswered_spec (l : Ledger) :
    Spec (do log; pure none : Handler ρ (Option (Answer × List Fd))) l fun r l' => l' = l ∧
      ∀ answer fds, r = .ok (some (answer, fds)) → Carries answer fds := by
  refine Accounts.bind (log_spec l) ?_ ?_
  · rintro u l' rfl
    exact ⟨rfl, fun answer fds h => by cases h⟩
  · rintro e l' rfl
    exact ⟨rfl, fun answer fds h => by cases h⟩

theorem answerTo_spec (outcome : Except Raised Rendered) (l : Ledger) :
    Spec (answerTo outcome : Handler ρ _) l fun r l' => l' = l ∧
      ∀ answer fds, r = .ok (some (answer, fds)) → Carries answer fds := by
  cases outcome with
  | ok rendered =>
    refine ⟨rfl, fun answer fds h => ?_⟩
    cases h
    rfl
  | error e =>
    cases e with
    | refused code refused =>
      refine ⟨rfl, fun answer fds h => ?_⟩
      cases h
      rfl
    | failure f =>
      cases f with
      | renderError code stage =>
        refine Accounts.bind (log_spec l) ?_ ?_
        · rintro u l' rfl
          refine Accounts.bind (countFailure_spec _ l') ?_ ?_
          · rintro u l'' rfl
            refine ⟨rfl, fun answer fds h => ?_⟩
            cases h
            rfl
          · rintro e l'' rfl
            exact ⟨rfl, fun answer fds h => by cases h⟩
        · rintro e l' rfl
          exact ⟨rfl, fun answer fds h => by cases h⟩
      | other => exact ⟨rfl, fun answer fds h => by cases h⟩
      | osError e => exact unanswered_spec l
      | valueError => exact unanswered_spec l

theorem send_spec (answer : Answer) (fds : List Fd) (h : l.answers = [])
    (hcarries : Carries answer fds) :
    Spec (send answer fds : Handler ρ Unit) l fun _ l' => ∃ answers,
      l' = { l with answers := answers } := by
  refine Accounts.perform_bind ⟨h, hcarries⟩ fun sent => ?_
  rcases sent with (_ | e | _ | _) | u
  all_goals exact ⟨_, rfl⟩

theorem respond_spec (outcome : Except Raised Rendered) (h : l.answers = []) :
    Spec (respond outcome : Handler ρ Unit) l fun _ l' => ∃ answers,
      l' = { l with answers := answers } := by
  refine Accounts.bind (answerTo_spec outcome l) ?_ ?_
  · rintro answer l' ⟨rfl, hcarries⟩
    cases answer with
    | none => exact ⟨l'.answers, rfl⟩
    | some answer => exact send_spec answer.1 answer.2 h (hcarries _ _ rfl)
  · rintro e l' ⟨rfl, -⟩
    exact ⟨l'.answers, rfl⟩

theorem closeAll_spec (fds : List Fd) (l : Ledger) :
    Spec (closeAll fds : Handler ρ Unit) l fun r l' =>
      r = .ok () ∧ l' = { l with closed := l.closed ++ fds } := by
  induction fds generalizing l with
  | nil =>
    refine ⟨rfl, ?_⟩
    rw [List.append_nil]
  | cons fd fds ih =>
    refine Accounts.perform_bind trivial fun closed => (ih _).mono ?_
    rintro r l' ⟨rfl, rfl⟩
    exact ⟨rfl, by simp [record]⟩

theorem closeOutput_spec (outcome : Except Raised Rendered) (l : Ledger) :
    Spec (closeOutput outcome : Handler ρ Unit) l fun _ l' =>
      l' = { l with closed := l.closed ++ outputFds outcome } := by
  cases outcome with
  | error e =>
    change l = { l with closed := l.closed ++ [] }
    rw [List.append_nil]
  | ok rendered =>
    refine Accounts.perform_bind trivial fun closed => ?_
    cases closed with
    | ok u => rfl
    | error e => rfl

theorem closeConn_spec (h : ¬ l.Lost → l.Accounted []) :
    Spec (closeConn : Handler ρ Unit) l fun _ l' => l' = l :=
  Accounts.perform_bind h fun _ => rfl

/-- Everything that was still open is closed. -/
theorem Served.settled (h : Served ended l) (answers : List (Answer × List Fd)) :
    ({ l with answers := answers, closed :=
        l.closed ++ heldFds ended ++ outputFds ended.1 }.Accounted [] ↔
      ¬ { l with answers := answers, closed :=
        l.closed ++ heldFds ended ++ outputFds ended.1 }.Lost) := by
  have hlost : { l with answers := answers, closed :=
      l.closed ++ heldFds ended ++ outputFds ended.1 }.Lost ↔ l.Lost := Iff.rfl
  rw [hlost, ← h.accounted]
  constructor
  · intro haccounted
    refine ⟨?_, haccounted.slot, haccounted.active, haccounted.pending⟩
    simpa using haccounted.fds
  · intro haccounted
    refine ⟨?_, haccounted.slot, haccounted.active, haccounted.pending⟩
    simpa using haccounted.fds

/-- At the end everything is given back exactly if nothing has been lost. -/
theorem handle_spec (h : l.Fresh) (hreceived : l.received = []) :
    Spec (handle : Handler ρ Unit) l fun _ l' =>
      l'.admission = 1 ∧ (l'.Accounted [] ↔ ¬ l'.Lost) := by
  refine Accounts.bind (serveRequest_spec h hreceived) ?_ ?_
  · rintro ended l' ⟨ended', hended, hserved⟩
    cases hended
    refine Accounts.tryFinally (respond_spec ended.1 hserved.answers) ?_
    rintro r l'' ⟨answers, rfl⟩
    have hsettled := hserved.settled answers
    have hcleanup : Spec (do closeAll (heldFds ended); closeOutput ended.1; closeConn :
        Handler ρ Unit) { l' with answers := answers } fun _ l'' =>
          l''.admission = 1 ∧ (l''.Accounted [] ↔ ¬ l''.Lost) := by
      refine Accounts.bind (closeAll_spec _ _) ?_ ?_
      · rintro u m ⟨-, rfl⟩
        refine Accounts.bind (closeOutput_spec ended.1 _) ?_ ?_
        · rintro u m rfl
          refine (closeConn_spec hsettled.mpr).mono ?_
          rintro r m rfl
          exact ⟨hserved.admission, hsettled⟩
        · rintro e m rfl
          exact ⟨hserved.admission, hsettled⟩
      · rintro e m ⟨he, -⟩
        cases he
    exact hcleanup.mono fun r' m hm => ⟨fun _ _ => hm, fun _ => hm⟩
  · rintro e l' ⟨ended, hended, -⟩
    cases hended

/-! ## Admission -/

theorem releaseAdmitted_spec (h : l.admission = 1) :
    Spec (releaseAdmitted : Handler ρ Unit) l fun r l' =>
      r = .ok () ∧ l' = { l with admission := 0 } :=
  Accounts.perform_bind h fun _ => ⟨rfl, by simp [record, h]⟩

/-- A connection that has not been handled: nothing but answers. -/
theorem rejectBusy_spec : Spec (rejectBusy : Handler ρ Unit) .empty fun _ l =>
    l.admission = 0 ∧ (l.Accounted [] ↔ ¬ l.Lost) := by
  have hrejected (answers : List (Answer × List Fd)) :
      { Ledger.empty with answers := answers }.Accounted [] ∧
        ¬ { Ledger.empty with answers := answers }.Lost :=
    ⟨⟨.rfl, rfl, rfl, rfl⟩, by simp [Ledger.Lost, Ledger.empty]⟩
  refine Accounts.bind (send_spec _ _ rfl rfl) ?_ ?_
  · rintro u l ⟨answers, rfl⟩
    refine (closeConn_spec fun _ => (hrejected answers).1).mono ?_
    rintro r l rfl
    exact ⟨rfl, iff_of_true (hrejected answers).1 (hrejected answers).2⟩
  · rintro e l ⟨answers, rfl⟩
    exact ⟨rfl, iff_of_true (hrejected answers).1 (hrejected answers).2⟩

/-- A connection from its admission on. -/
theorem admitConn_spec : Spec (admitConn : Handler ρ Unit) .empty fun _ l =>
    l.admission = 0 ∧ (l.Accounted [] ↔ ¬ l.Lost) := by
  have hempty : Ledger.empty.Accounted [] ∧ ¬ Ledger.empty.Lost :=
    ⟨⟨.rfl, rfl, rfl, rfl⟩, by simp [Ledger.Lost, Ledger.empty]⟩
  refine Accounts.perform_bind trivial fun own => ?_
  split_ifs
  · refine Accounts.perform_bind rfl fun acquired => ?_
    cases acquired with
    | false => exact rejectBusy_spec
    | true =>
      refine Accounts.perform_bind trivial fun started => ?_
      have hfresh : { Ledger.empty with admission := 1 }.Fresh :=
        ⟨⟨rfl, rfl, rfl, rfl, rfl⟩, rfl, rfl, rfl, rfl, rfl⟩
      cases started with
      | false =>
        refine Accounts.bind (releaseAdmitted_spec rfl) ?_ ?_
        · rintro u l ⟨-, rfl⟩
          exact rejectBusy_spec
        · rintro e l ⟨he, -⟩
          cases he
      | true =>
        refine Accounts.tryFinally (handle_spec hfresh rfl) ?_
        rintro r l ⟨hadmission, hsettled⟩
        refine (releaseAdmitted_spec hadmission).mono ?_
        rintro r' l' ⟨rfl, rfl⟩
        have hsame : { l with admission := 0 }.Accounted [] ↔ l.Accounted [] :=
          ⟨fun h => ⟨h.fds, h.slot, h.active, h.pending⟩,
            fun h => ⟨h.fds, h.slot, h.active, h.pending⟩⟩
        have hend := hsame.trans hsettled
        exact ⟨fun e he => (by cases he), fun _ => ⟨rfl, hend⟩⟩
  · refine (closeConn_spec fun _ => hempty.1).mono ?_
    rintro r l rfl
    exact ⟨rfl, iff_of_true hempty.1 hempty.2⟩

end IsadoraAir.RenderService
