import IsadoraAir.RenderService.Handling

/-!
# The render service

Connections are accepted and handled at the same time, an action of one of them
after the other. They share the two semaphores and the two counters.
-/

namespace IsadoraAir.RenderService

open Routine (Accounts)

variable {account : Account} {t t' : Shared} {ρ α : Type}

structure Shared where
  slots : ℕ
  admitted : ℕ
  active : ℤ
  pending : ℤ
  lastFailure : Option String
  deriving DecidableEq

/-- How a line is decoded, and how a request is parsed. -/
structure Wire (ρ : Type) where
  loads : List UInt8 → Except Failure ρ
  parse : ρ → Except Unparsed Parsed

/-- What the outside answers to each action. -/
abbrev Choice (ρ : Type) := (x : Action ρ) → x.Result

def Shared.count (s : Shared) (counter : Counter) (delta : ℤ) (failure : Option String) : Shared :=
  let lastFailure := failure.or s.lastFailure
  match counter with
  | .active => { s with active := s.active + delta, lastFailure := lastFailure }
  | .pending => { s with pending := s.pending + delta, lastFailure := lastFailure }

def exec (wire : Wire ρ) (choice : Choice ρ) (_ : α) :
    (x : Action ρ) → Shared → Option (x.Result × Shared)
  | .acquireAdmitted, s =>
    if s.admitted = 0 then some (false, s)
    else some (true, { s with admitted := s.admitted - 1 })
  | .releaseAdmitted, s => some ((), { s with admitted := s.admitted + 1 })
  | .loads line, s => some (wire.loads line, s)
  | .parse request, s => some (wire.parse request, s)
  | .count counter delta failure, s =>
    some (choice (.count counter delta failure), s.count counter delta failure)
  | .awaitSlot, s =>
    match choice .awaitSlot with
    | .acquired => if s.slots = 0 then none else some (.acquired, { s with slots := s.slots - 1 })
    | .cancelled => some (.cancelled, s)
    | .busy => some (.busy, s)
  | .releaseSlot, s => some ((), { s with slots := s.slots + 1 })
  | x, s => some (choice x, s)

/-- The handlers; none is abandoned. -/
def crew (wire : Wire ρ) : Crew (@Action.Result ρ) Shared α (Choice ρ) where
  exec := exec wire
  abandon _ s := s

abbrev State (ρ α : Type) := Crew.State (@Action.Result ρ) Shared α Unit Raised Unit

abbrev Connection (ρ : Type) := Crew.Task (@Action.Result ρ) Unit Raised Unit

inductive Event (ρ α : Type) where
  | accept (a : α)
  | act (a : α) (choice : Choice ρ)

def Event.toCrew : Event ρ α → Crew.Event α (Choice ρ) Unit
  | accept a => .start a ()
  | act a choice => .act a choice

def program (_ : Unit) : Handler ρ Unit := admitConn

def step [DecidableEq α] (wire : Wire ρ) (e : Event ρ α) (s : State ρ α) : State ρ α :=
  (crew wire).step program e.toCrew s

def initial (maxActive maxPending : ℕ) : State ρ α :=
  Crew.idle ⟨maxActive, maxActive + maxPending, 0, 0, none⟩

namespace Connection

def ledger (c : Connection ρ) : Ledger := Routine.ledger record .empty c.done

/-- The handler has ended. -/
def Ended (c : Connection ρ) : Prop := ∀ x next, c.rest ≠ .act x next

end Connection

/-- The connections have got where they are by their histories. -/
def Followed (s : State ρ α) : Prop :=
  Crew.Tasks (fun c => (program c.call).Follows c.done c.rest) s

variable {s : State ρ α} {a : α} {c : Connection ρ}

theorem Followed.accounts (h : Followed s) (hc : s.task a = some c) :
    Accounts record Guard c.rest c.ledger fun _ l =>
      l.admission = 0 ∧ (l.Accounted [] ↔ ¬ l.Lost) :=
  (h a c hc).accounts admitConn_spec

theorem Followed.sound (h : Followed s) (hc : s.task a = some c) : c.ledger.Sound :=
  (h a c hc).ledger_invariant record_sound admitConn_spec empty_sound

/-- The next action is guarded. -/
theorem Followed.guard (h : Followed s) (hc : s.task a = some c) {x : Action ρ}
    {next : x.Result → Handler ρ Unit} (hrest : c.rest = .act x next) : Guard x c.ledger := by
  have haccounts := h.accounts hc
  rw [hrest] at haccounts
  exact haccounts.1

theorem Followed.ended (h : Followed s) (hc : s.task a = some c) (hended : c.Ended) :
    c.ledger.admission = 0 ∧ (c.ledger.Accounted [] ↔ ¬ c.ledger.Lost) := by
  have haccounts := h.accounts hc
  cases hrest : c.rest with
  | pure u =>
    rw [hrest] at haccounts
    exact haccounts
  | raise e =>
    rw [hrest] at haccounts
    exact haccounts
  | act x next => exact absurd hrest (hended x next)

/-- An action of the executor. -/
def Action.IsExecutor : Action ρ → Prop
  | .snapshot _ _ | .runSteps => True
  | _ => False

theorem Followed.executor_slot (h : Followed s) (hc : s.task a = some c) {x : Action ρ}
    {next : x.Result → Handler ρ Unit} (hrest : c.rest = .act x next) (hx : x.IsExecutor) :
    c.ledger.slot = 1 := by
  have hguard := h.guard hc hrest
  cases x with
  | snapshot parsed fds => exact hguard
  | runSteps => exact hguard
  | _ => cases hx

/-! ## What an action takes from what is shared -/

/-- What is shared and what the connection holds make the same as before. -/
structure Conserved (t : Shared) (l : Ledger) (t' : Shared) (l' : Ledger) : Prop where
  slots : (t'.slots : ℤ) + l'.slot = t.slots + l.slot
  admitted : (t'.admitted : ℤ) + l'.admission = t.admitted + l.admission
  active : -t'.active + l'.active = -t.active + l.active
  pending : -t'.pending + l'.pending = -t.pending + l.pending

theorem count_conserved (t : Shared) (l : Ledger) (counter : Counter) (delta : ℤ)
    (failure : Option String) :
    Conserved t l (t.count counter delta failure) (l.count counter delta) := by
  cases counter with
  | active =>
    refine ⟨rfl, rfl, ?_, rfl⟩
    simp only [Shared.count, Ledger.count]
    omega
  | pending =>
    refine ⟨rfl, rfl, rfl, ?_⟩
    simp only [Shared.count, Ledger.count]
    omega

theorem exec_conserved {wire : Wire ρ} {choice : Choice ρ} {x : Action ρ}
    {r : x.Result} (h : exec wire choice a x t = some (r, t')) (l : Ledger) :
    Conserved t l t' (record x r l) := by
  cases x with
  | acquireAdmitted =>
    simp only [exec] at h
    split_ifs at h with hnone
    · cases h
      exact ⟨rfl, rfl, rfl, rfl⟩
    · cases h
      refine ⟨rfl, ?_, rfl, rfl⟩
      simp only [record, if_true]
      omega
  | releaseAdmitted =>
    cases h
    refine ⟨rfl, ?_, rfl, rfl⟩
    simp only [record]
    omega
  | timeLeft =>
    cases h
    simp only [record]
    split_ifs
    · exact ⟨rfl, rfl, rfl, rfl⟩
    · exact ⟨rfl, rfl, rfl, rfl⟩
  | recvmsg =>
    cases h
    cases choice .recvmsg with
    | error f => exact ⟨rfl, rfl, rfl, rfl⟩
    | ok packet => exact ⟨rfl, rfl, rfl, rfl⟩
  | loads line =>
    cases h
    cases wire.loads line with
    | ok request => exact ⟨rfl, rfl, rfl, rfl⟩
    | error f =>
      simp only [record]
      split_ifs
      · exact ⟨rfl, rfl, rfl, rfl⟩
      · exact ⟨rfl, rfl, rfl, rfl⟩
  | count counter delta failure =>
    cases h
    have hcount := count_conserved t l counter delta failure
    cases choice (.count counter delta failure) with
    | ok u => exact hcount
    | error f => exact ⟨hcount.slots, hcount.admitted, hcount.active, hcount.pending⟩
  | awaitSlot =>
    simp only [exec] at h
    cases hchoice : choice .awaitSlot with
    | acquired =>
      simp only [hchoice] at h
      split_ifs at h with hnone
      cases h
      refine ⟨?_, rfl, rfl, rfl⟩
      simp only [record]
      omega
    | cancelled =>
      simp only [hchoice] at h
      cases h
      exact ⟨rfl, rfl, rfl, rfl⟩
    | busy =>
      simp only [hchoice] at h
      cases h
      exact ⟨rfl, rfl, rfl, rfl⟩
  | releaseSlot =>
    cases h
    refine ⟨?_, rfl, rfl, rfl⟩
    simp only [record]
    omega
  | runSteps =>
    cases h
    cases choice .runSteps with
    | error f => exact ⟨rfl, rfl, rfl, rfl⟩
    | ok rendered => exact ⟨rfl, rfl, rfl, rfl⟩
  | peerUid | startThread | recv limit | parse request | snapshot parsed fds | close fd | log
  | send answer fds | closeConn =>
    cases h
    exact ⟨rfl, rfl, rfl, rfl⟩

/-! ## Whole runs -/

variable {wire : Wire ρ} {maxActive maxPending : ℕ}

/-- The semaphores and the counters, and what the connections hold of each. -/
inductive Account where
  | slots
  | admitted
  | active
  | pending

namespace Account

def left : Account → Shared → ℤ
  | slots, t => t.slots
  | admitted, t => t.admitted
  | active, t => -t.active
  | pending, t => -t.pending

def held : Account → Ledger → ℤ
  | slots, l => l.slot
  | admitted, l => l.admission
  | active, l => l.active
  | pending, l => l.pending

def capacity (maxActive maxPending : ℕ) : Account → ℤ
  | slots => maxActive
  | admitted => maxActive + maxPending
  | active => 0
  | pending => 0

theorem conserved (account : Account) {l l' : Ledger} (h : Conserved t l t' l') :
    account.left t' + account.held l' = account.left t + account.held l := by
  cases account with
  | slots => exact h.slots
  | admitted => exact h.admitted
  | active => exact h.active
  | pending => exact h.pending

end Account

abbrev Balanced (account : Account) (total : ℤ) (s : State ρ α) : Prop :=
  Crew.Balanced account.left (fun c : Connection ρ => account.held c.ledger) total s

theorem initial_balanced (account : Account) :
    Balanced account (account.capacity maxActive maxPending)
      (initial maxActive maxPending : State ρ α) := by
  have hidle := Crew.idle_balanced account.left (fun c : Connection ρ => account.held c.ledger)
    ⟨maxActive, maxActive + maxPending, 0, 0, none⟩ (α := α)
  cases account <;> exact hidle

theorem initial_followed : Followed (initial maxActive maxPending : State ρ α) := by
  intro a c hc
  cases hc

theorem Followed.held_nonneg (h : Followed s) (hc : s.task a = some c)
    (haccount : account ∈ [Account.slots, .admitted]) : 0 ≤ account.held c.ledger := by
  have hsound := h.sound hc
  simp only [List.mem_cons, List.not_mem_nil, or_false] at haccount
  rcases haccount with rfl | rfl
  · rcases hsound.slot with hslot | hslot <;> simp [Account.held, hslot]
  · rcases hsound.admission with hadmission | hadmission <;> simp [Account.held, hadmission]

/-- Connections are sound, and no more is taken than there is. -/
structure Reached (maxActive maxPending : ℕ) (s : State ρ α) : Prop where
  followed : Followed s
  within : ∀ account ∈ [Account.slots, .admitted],
    ∃ total ≤ account.capacity maxActive maxPending, Balanced account total s

theorem initial_reached :
    Reached maxActive maxPending (initial maxActive maxPending : State ρ α) where
  followed := initial_followed
  within account _ := ⟨_, le_rfl, initial_balanced account⟩

/-- Connections that hold one each are no more than there is. -/
theorem Reached.card_le (h : Reached maxActive maxPending s) (account : Account)
    (haccount : account ∈ [Account.slots, .admitted]) {A : Finset α}
    (hA : ∀ a ∈ A, ∃ c : Connection ρ, s.task a = some c ∧ account.held c.ledger = 1) :
    (A.card : ℤ) ≤ account.capacity maxActive maxPending := by
  obtain ⟨total, hle, hbalanced⟩ := h.within account haccount
  have hleft : 0 ≤ account.left s.shared := by
    simp only [List.mem_cons, List.not_mem_nil, or_false] at haccount
    rcases haccount with rfl | rfl
    · exact Int.natCast_nonneg _
    · exact Int.natCast_nonneg _
  refine (hbalanced.card_le hleft ?_ ?_).trans hle
  · intro a
    cases hc : s.task a with
    | none => simp [Crew.holding, hc]
    | some c => simpa [Crew.holding, hc] using h.followed.held_nonneg hc haccount
  · intro a ha
    obtain ⟨c, hc, hheld⟩ := hA a ha
    simpa [Crew.holding, hc] using hheld

/-- Nothing that the connections have done has lost anything. -/
def NothingLost (s : State ρ α) : Prop :=
  ∀ a, ∀ c : Connection ρ, s.task a = some c → ¬ c.ledger.Lost

/-- Everything is accounted for as long as nothing is lost. -/
structure Intact (maxActive maxPending : ℕ) (s : State ρ α) : Prop where
  followed : Followed s
  nothingLost : NothingLost s
  balanced : ∀ account : Account, Balanced account (account.capacity maxActive maxPending) s

theorem Intact.ended_held (h : Intact maxActive maxPending s) (hc : s.task a = some c)
    (hended : c.Ended) (account : Account) : account.held c.ledger = 0 := by
  obtain ⟨hadmission, hsettled⟩ := h.followed.ended hc hended
  have haccounted := hsettled.mpr (h.nothingLost a c hc)
  cases account with
  | slots => exact haccounted.slot
  | admitted => exact hadmission
  | active => exact haccounted.active
  | pending => exact haccounted.pending

theorem Intact.left_eq (h : Intact maxActive maxPending s)
    (hended : ∀ a c, s.task a = some c → Connection.Ended c) (account : Account) :
    account.left s.shared = account.capacity maxActive maxPending := by
  refine (h.balanced account).eq_total fun a => ?_
  cases hc : s.task a with
  | none => simp [Crew.holding, hc]
  | some c => simpa [Crew.holding, hc] using h.ended_held hc (hended a c hc) account

variable [DecidableEq α]

/-- A connection that is replaced by another one takes with it what it still held. -/
theorem step_balanced {total : ℤ} (h : Balanced account total s)
    (e : Event ρ α) : Balanced account total (step wire e s) ∨
      ∃ a, ∃ c : Connection ρ, s.task a = some c ∧ c.Ended ∧
        Balanced account (total - account.held c.ledger) (step wire e s) := by
  have hstep := Crew.Balanced.step (crew wire) program h e.toCrew
    (fun a he => by cases e <;> cases he) (fun call => by cases account <;> rfl)
    fun a choice call done x next r t h => by
      have hexec : exec wire choice a x s.shared = some (r, t) := h
      have hnext : Connection.ledger ⟨call, done ++ [⟨x, r⟩], next r⟩ =
          record x r (Connection.ledger ⟨call, done, .act x next⟩) := Routine.ledger_snoc done x r
      have hconserved := account.conserved
        (exec_conserved hexec (Connection.ledger ⟨call, done, .act x next⟩))
      rw [← hnext] at hconserved
      exact hconserved
  rcases hstep with hstep | ⟨a, call, c, -, hc, hended, hstep⟩
  · exact .inl hstep
  · exact .inr ⟨a, c, hc, hended, hstep⟩

theorem Followed.step (h : Followed s) (e : Event ρ α) : Followed (step wire e s) := by
  unfold Followed
  exact Crew.step_follows h e.toCrew

theorem Reached.step (h : Reached maxActive maxPending s) (e : Event ρ α) :
    Reached maxActive maxPending (step wire e s) where
  followed := h.followed.step e
  within account haccount := by
    obtain ⟨total, hle, hbalanced⟩ := h.within account haccount
    rcases step_balanced hbalanced e with hstep | ⟨a, c, hc, -, hstep⟩
    · exact ⟨total, hle, hstep⟩
    · have hnonneg := h.followed.held_nonneg hc haccount
      exact ⟨_, by omega, hstep⟩

theorem Intact.step (h : Intact maxActive maxPending s) (e : Event ρ α)
    (hlost : NothingLost (step wire e s)) : Intact maxActive maxPending (step wire e s) where
  followed := h.followed.step e
  nothingLost := hlost
  balanced account := by
    rcases step_balanced (h.balanced account) e with hstep | ⟨a, c, hc, hended, hstep⟩
    · exact hstep
    · rwa [h.ended_held hc hended account, sub_zero] at hstep

/-- The service after some events. -/
def reached (wire : Wire ρ) (maxActive maxPending : ℕ) (events : List (Event ρ α)) : State ρ α :=
  Runs.run (step wire) events (initial maxActive maxPending)

theorem reached_reached (wire : Wire ρ) (maxActive maxPending : ℕ) (events : List (Event ρ α)) :
    Reached maxActive maxPending (reached wire maxActive maxPending events) :=
  Runs.invariant (P := fun _ _ => True) (fun e _ _ hs => hs.step e) initial_reached
    (Runs.throughout_true events _)

theorem reached_intact {events : List (Event ρ α)}
    (h : Runs.Throughout (step wire) (fun e s => NothingLost (step wire e s)) events
      (initial maxActive maxPending)) :
    Intact maxActive maxPending (reached wire maxActive maxPending events) := by
  have hinitial : Intact maxActive maxPending (initial maxActive maxPending : State ρ α) :=
    ⟨initial_followed, fun a c hc => (by cases hc), initial_balanced⟩
  exact Runs.invariant (fun e _ hlost hs => hs.step e hlost) hinitial h

/-- In every run: a connection that has ended has given back everything exactly if it
has lost nothing, and it has answered at most once. No more render or are admitted
than may. Where nothing is lost, everything is back when all have ended. -/
theorem service_accounts_iff (wire : Wire ρ) (maxActive maxPending : ℕ)
    (events : List (Event ρ α)) :
    (∀ a, ∀ c : Connection ρ, (reached wire maxActive maxPending events).task a = some c →
      (c.Ended → (c.ledger.Accounted [] ↔ ¬ c.ledger.Lost) ∧ c.ledger.admission = 0) ∧
      (∀ next, c.rest = .act .closeConn next → ¬ c.ledger.Lost → c.ledger.Accounted []) ∧
      (∀ x next, c.rest = .act x next → x.IsExecutor → c.ledger.slot = 1) ∧
      c.ledger.answers.length ≤ 1 ∧ ∀ answer ∈ c.ledger.answers, Carries answer.1 answer.2) ∧
    (∀ A : Finset α, (∀ a ∈ A, ∃ c : Connection ρ,
      (reached wire maxActive maxPending events).task a = some c ∧ c.ledger.slot = 1) → A.card ≤ maxActive) ∧
    (∀ A : Finset α, (∀ a ∈ A, ∃ c : Connection ρ,
      (reached wire maxActive maxPending events).task a = some c ∧ c.ledger.admission = 1) → A.card ≤ maxActive + maxPending) ∧
    (Runs.Throughout (step wire) (fun e s => NothingLost (step wire e s)) events
      (initial maxActive maxPending) →
      (∀ a, ∀ c : Connection ρ, (reached wire maxActive maxPending events).task a = some c → c.Ended) →
      (reached wire maxActive maxPending events).shared.slots = maxActive ∧
      (reached wire maxActive maxPending events).shared.admitted = maxActive + maxPending ∧
      (reached wire maxActive maxPending events).shared.active = 0 ∧
      (reached wire maxActive maxPending events).shared.pending = 0) := by
  have h := reached_reached wire maxActive maxPending events
  refine ⟨fun a c hc => ⟨?_, ?_, ?_, ?_, ?_⟩, fun A hA => ?_, fun A hA => ?_, fun hrun hended => ?_⟩
  · intro hended
    exact (h.followed.ended hc hended).symm
  · exact fun next hrest => h.followed.guard hc hrest
  · exact fun x next hrest hx => h.followed.executor_slot hc hrest hx
  · exact (h.followed.sound hc).answers
  · exact (h.followed.sound hc).carries
  · have hcard := h.card_le .slots (by simp) hA
    simp only [Account.capacity] at hcard
    omega
  · have hcard := h.card_le .admitted (by simp) hA
    simp only [Account.capacity] at hcard
    omega
  · have hleft := (reached_intact hrun).left_eq hended
    have hslots := hleft .slots
    have hadmitted := hleft .admitted
    have hactive := hleft .active
    have hpending := hleft .pending
    simp only [Account.left, Account.capacity] at hslots hadmitted hactive hpending
    omega

/-- A client that passes a descriptor and does not finish its line. -/
def unfinished (left : Bool) : Choice Unit
  | .peerUid => some true
  | .acquireAdmitted | .startThread => true
  | .timeLeft => left
  | .recvmsg => .ok ⟨[123], [7], false⟩
  | .recv _ => none
  | .loads _ => .error .other
  | .parse _ => .error (.failure .other)
  | .count _ _ _ | .snapshot _ _ | .send _ _ | .close _ | .log => .ok ()
  | .awaitSlot => .acquired
  | .runSteps => .error .other
  | .releaseAdmitted | .releaseSlot | .closeConn => ()

def unfinishedRequest : List (Event Unit ℕ) :=
  [.accept 0, .act 0 (unfinished true), .act 0 (unfinished true), .act 0 (unfinished true),
    .act 0 (unfinished true), .act 0 (unfinished true), .act 0 (unfinished false),
    .act 0 (unfinished true), .act 0 (unfinished true), .act 0 (unfinished true)]

/-- Nothing can be decoded. -/
def noWire : Wire Unit := ⟨fun _ => .error .other, fun _ => .error (.failure .other)⟩

/-- The loop looks at the clock before it receives more. -/
theorem readRest_late : ∃ next, (readRest [7] [123] : Handler Unit (List UInt8)) =
    .act .timeLeft next ∧ next false = .raise (.failure (.osError ⟨false⟩)) := by
  rw [readRest, if_neg (by decide), if_neg (by decide +kernel)]
  exact ⟨_, rfl, rfl⟩

/-- The handler ends, and the descriptor that came with the request is not closed. -/
theorem late_request_keeps_descriptors :
    ∃ c : Connection Unit, (reached noWire 1 2 unfinishedRequest).task 0 = some c ∧ c.Ended ∧
      c.ledger.received = [7] ∧ c.ledger.closed = [] := by
  obtain ⟨next, hnext, hlate⟩ := readRest_late
  have h : (reached noWire 1 2 unfinishedRequest).task 0 = some ⟨(),
      [⟨.peerUid, some true⟩, ⟨.acquireAdmitted, true⟩, ⟨.startThread, true⟩, ⟨.timeLeft, true⟩,
        ⟨.recvmsg, .ok ⟨[123], [7], false⟩⟩, ⟨.timeLeft, false⟩, ⟨.log, .ok ()⟩, ⟨.closeConn, ()⟩,
        ⟨.releaseAdmitted, ()⟩], .pure ()⟩ := by
    simp [reached, unfinishedRequest, step, Event.toCrew, Crew.step, initial, Crew.idle,
      Crew.State.update, crew, exec, unfinished, program, admitConn, admitted, handle, serveRequest, readRequest,
      Routine.perform, bind, Routine.bind, pure, Routine.tryFinally, Routine.attempt, remaining,
      hnext, hlate, maxFds, maxReferences, maxAssembleInputs, respond, answerTo, log, closeAll,
      heldFds, closeOutput, closeConn, releaseAdmitted]
  exact ⟨_, h, fun x next hrest => (by cases hrest), by decide, by decide⟩

end IsadoraAir.RenderService
