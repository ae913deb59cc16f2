import IsadoraAir.Foundation.Ledgers

/-!
# Render requests

A connection is admitted, its request is read with the descriptors passed along,
rendered in a slot, answered, and whatever is still held is closed. Raising is
part of each action's result: the executor, the peer and the clock decide it.
-/

namespace IsadoraAir.RenderService

open Routine (tryFinally)

/-- An open descriptor; a number that is handed out again stands for another one. -/
abbrev Fd := ℕ

def requestLimitBytes : ℕ := 16 * 1024

def maxReferences : ℕ := 4

def maxAssembleInputs : ℕ := 25

def maxFds : ℕ := max (1 + maxReferences) maxAssembleInputs

def codes : List String :=
  ["invalid_request", "unknown_recipe", "recipe_version_mismatch", "invalid_parameters",
    "reference_mismatch", "descriptor_invalid", "descriptor_mismatch", "provenance_mismatch",
    "source_too_long", "input_too_large", "empty_voice", "silent_render",
    "loudness_analysis_failed", "render_failed", "render_resource_limit", "input_order",
    "decoded_too_long", "busy", "render_timeout", "render_unavailable", "sandbox_unavailable",
    "service_unavailable", "cancelled"]

/-- An `OSError`; `resource` when its number means that there is no room. -/
structure OsError where
  resource : Bool
  deriving DecidableEq

/-- What the code outside this module raises. -/
inductive Failure where
  | renderError (code stage : String)
  | osError (e : OsError)
  | valueError
  | other
  deriving DecidableEq

/-- A refusal carries the descriptors that came with the request. -/
inductive Raised where
  | refused (code : String) (fds : List Fd)
  | failure (f : Failure)
  deriving DecidableEq

/-- The first packet of a request; `truncated` when the kernel says that it dropped some of it. -/
structure Packet where
  data : List UInt8
  fds : List Fd
  truncated : Bool
  deriving DecidableEq

/-- A request that has the right shape: what it needs a descriptor for. -/
inductive Parsed where
  | render (references : ℕ)
  | assemble (inputs : ℕ)
  deriving DecidableEq

def Parsed.descriptors : Parsed → ℕ
  | render references => 1 + references
  | assemble inputs => inputs

/-- How a request fails to be parsed. -/
inductive Unparsed where
  | protocolError (code : String)
  | failure (f : Failure)
  deriving DecidableEq

structure Rendered where
  fd : Fd
  sha256 : String
  size : ℕ
  deriving DecidableEq

inductive Answer where
  | ok (rendered : Rendered)
  | error (code stage : String)
  deriving DecidableEq

def Answer.status : Answer → String
  | ok _ => "ok"
  | error code _ => if code = "busy" then "busy" else "error"

inductive Counter where
  | active
  | pending
  deriving DecidableEq

inductive Waited where
  | acquired
  | cancelled
  | busy
  deriving DecidableEq

/-- `ρ` is what the decoder makes of a request line. -/
inductive Action (ρ : Type) where
  | peerUid
  | acquireAdmitted
  | startThread
  | releaseAdmitted
  /-- `remaining`: some time is left to read the request. -/
  | timeLeft
  | recvmsg
  | recv (limit : ℕ)
  | loads (line : List UInt8)
  | parse (request : ρ)
  /-- The counter is changed before the status is written. -/
  | count (counter : Counter) (delta : ℤ) (failure : Option String)
  /-- The loop that waits for a run slot. -/
  | awaitSlot
  | releaseSlot
  /-- The executor up to `release`, and after it. -/
  | snapshot (parsed : Parsed) (fds : List Fd)
  | runSteps
  | close (fd : Fd)
  | log
  | send (answer : Answer) (fds : List Fd)
  | closeConn

abbrev Action.Result {ρ : Type} : Action ρ → Type
  -- the peer is the service's own account; `none` when it cannot be told
  | .peerUid => Option Bool
  | .acquireAdmitted | .startThread | .timeLeft => Bool
  | .releaseAdmitted | .releaseSlot | .closeConn => Unit
  | .recvmsg => Except Failure Packet
  -- `none` when it raises an `OSError`
  | .recv _ => Option (List UInt8)
  | .loads _ => Except Failure ρ
  | .parse _ => Except Unparsed Parsed
  | .count _ _ _ | .snapshot _ _ | .send _ _ => Except Failure Unit
  | .awaitSlot => Waited
  | .runSteps => Except Failure Rendered
  | .close _ | .log => Except OsError Unit

abbrev Handler (ρ : Type) := Routine (@Action.Result ρ) Raised

variable {ρ : Type}

abbrev perform (x : Action ρ) : Handler ρ x.Result := Routine.perform x

def raise {α : Type} (f : Failure) : Handler ρ α := .raise (.failure f)

def refuse {α : Type} (fds : List Fd) : Handler ρ α := .raise (.refused "invalid_request" fds)

/-! ## Reading a request -/

def remaining : Handler ρ Unit := do
  let left ← perform .timeLeft
  if left then pure () else raise (.osError ⟨false⟩)

/-- The rest of the request line; a `recv` that fails refuses the request. -/
def readRest (fds : List Fd) (buffer : List UInt8) : Handler ρ (List UInt8) :=
  if buffer.getLast? = some 10 then pure buffer
  else if requestLimitBytes ≤ buffer.length then refuse fds
  else do
    remaining
    let received ← perform (.recv (requestLimitBytes - buffer.length))
    match received with
    | none => refuse fds
    | some chunk => if chunk = [] then refuse fds else readRest fds (buffer ++ chunk)
termination_by requestLimitBytes - buffer.length
decreasing_by
  rename_i hchunk
  have := List.length_pos_iff.mpr hchunk
  rw [List.length_append]
  omega

def readRequest : Handler ρ (ρ × List Fd) := do
  remaining
  let first ← perform .recvmsg
  match first with
  | .error f => raise f
  | .ok packet =>
    if packet.truncated ∨ maxFds < packet.fds.length then refuse packet.fds
    else do
      let line ← readRest packet.fds packet.data
      let loaded ← perform (.loads line)
      match loaded with
      | .ok request => pure (request, packet.fds)
      | .error .valueError => refuse packet.fds
      | .error f => raise f

/-! ## Rendering -/

/-- `_count` -/
def count (counter : Counter) (delta : ℤ) (failure : Option String) : Handler ρ Unit := do
  let written ← perform (.count counter delta failure)
  match written with
  | .ok _ => pure ()
  | .error f => raise f

def waitForSlot : Handler ρ Unit := do
  let waited ← perform .awaitSlot
  match waited with
  | .acquired => pure ()
  | .cancelled => raise (.renderError "cancelled" "admission")
  | .busy => raise (.renderError "busy" "admission")

/-- `render`, up to the run slot. -/
def claimSlot (request : ρ) (fds : List Fd) : Handler ρ Parsed := do
  let parsed ← perform (.parse request)
  match parsed with
  | .error (.protocolError code) => .raise (.refused code fds)
  | .error (.failure f) => raise f
  | .ok parsed =>
    if fds.length ≠ parsed.descriptors then refuse fds
    else do
      count .pending 1 none
      tryFinally waitForSlot (count .pending (-1) none)
      count .active 1 none
      pure parsed

/-- `release` pops the last descriptor first; when a close raises, the others are left. -/
def release : List Fd → Handler ρ (Except OsError Unit × List Fd)
  | [] => pure (.ok (), [])
  | fd :: fds => do
    let closed ← perform (.close fd)
    match closed with
    | .ok _ => release fds
    | .error e => pure (.error e, fds)

/-- The executor turns an error that means no room into its own. -/
def unwind (e : OsError) : Failure :=
  if e.resource then .renderError "render_resource_limit" "" else .osError e

/-- The executor, with the descriptors that are still open when it ends. -/
def execute (parsed : Parsed) (fds : List Fd) :
    Handler ρ (Except Failure Rendered × List Fd) := do
  let taken ← perform (.snapshot parsed fds)
  match taken with
  | .error f => pure (.error f, fds)
  | .ok _ => do
    let released ← release fds.reverse
    match released with
    | (.error e, left) => pure (.error (unwind e), left.reverse)
    | (.ok _, left) => do
      let outcome ← perform .runSteps
      pure (outcome, left.reverse)

/-- How a request ends, with the descriptors that are still open. -/
abbrev Ended := Except Raised Rendered × List Fd

def render (request : ρ) (fds : List Fd) : Handler ρ Ended := do
  let claimed : Except Raised Parsed ← (claimSlot request fds).attempt
  match claimed with
  | .error e => pure (.error e, fds)
  | .ok parsed => do
    let ended ← execute parsed fds
    let _ ← perform .releaseSlot
    let written ← perform (.count .active (-1) none)
    match written with
    | .error f => pure (.error (.failure f), ended.2)
    | .ok _ => pure (ended.1.mapError .failure, ended.2)

/-! ## One connection -/

/-- Nothing is known of the descriptors of a request that has raised while it was read. -/
def serveRequest : Handler ρ Ended := do
  let read : Except Raised (ρ × List Fd) ← readRequest.attempt
  match read with
  | .error e => pure (.error e, [])
  | .ok (request, fds) => render request fds

def log : Handler ρ Unit := do
  let written ← perform .log
  match written with
  | .ok _ => pure ()
  | .error e => raise (.osError e)

/-- The answer, if there is one. -/
def answerTo : Except Raised Rendered → Handler ρ (Option (Answer × List Fd))
  | .ok rendered => pure (some (.ok rendered, [rendered.fd]))
  | .error (.refused code _) => pure (some (.error code "", []))
  | .error (.failure (.renderError code stage)) => do
    let code := if code ∈ codes then code else "render_failed"
    log
    count .active 0 (some code)
    pure (some (.error code stage, []))
  | .error (.failure .other) => raise .other
  | .error (.failure _) => do
    log
    pure none

/-- A client that is gone is not told. -/
def send (answer : Answer) (fds : List Fd) : Handler ρ Unit := do
  let sent ← perform (.send answer fds)
  match sent with
  | .ok _ => pure ()
  | .error (.osError _) => pure ()
  | .error f => raise f

def respond (outcome : Except Raised Rendered) : Handler ρ Unit := do
  let answer ← answerTo outcome
  match answer with
  | none => pure ()
  | some (answer, fds) => send answer fds

/-- `fds or exc.fds` -/
def heldFds : Ended → List Fd
  | (.error (.refused _ refused), fds) => if fds = [] then refused else fds
  | (_, fds) => fds

def closeAll : List Fd → Handler ρ Unit
  | [] => pure ()
  | fd :: fds => do
    let _ ← perform (.close fd)
    closeAll fds

def closeOutput : Except Raised Rendered → Handler ρ Unit
  | .error _ => pure ()
  | .ok rendered => do
    let closed ← perform (.close rendered.fd)
    match closed with
    | .ok _ => pure ()
    | .error e => raise (.osError e)

def closeConn : Handler ρ Unit := do
  let _ ← perform .closeConn
  pure ()

def handle : Handler ρ Unit := do
  let ended ← serveRequest
  tryFinally (respond ended.1) do
    closeAll (heldFds ended)
    closeOutput ended.1
    closeConn

/-! ## Admission -/

def releaseAdmitted : Handler ρ Unit := do
  let _ ← perform .releaseAdmitted
  pure ()

/-- `_admitted` -/
def admitted : Handler ρ Unit := tryFinally handle releaseAdmitted

def rejectBusy : Handler ρ Unit := do
  send (.error "busy" "") []
  closeConn

/-- The accept loop's part, and the handler's thread. -/
def admitConn : Handler ρ Unit := do
  let own ← perform .peerUid
  if own = some true then do
    let acquired ← perform .acquireAdmitted
    if acquired then do
      let started ← perform .startThread
      if started then admitted
      else do
        releaseAdmitted
        rejectBusy
    else rejectBusy
  else closeConn

end IsadoraAir.RenderService

/-!
## What a connection has taken and given back

The ledger of a connection is read off its history. Everything is given back at
the end unless the history has lost something: descriptors that came with a
request whose reading raises, or a count whose status cannot be written.
-/

namespace IsadoraAir.RenderService

open Routine (Accounts tryFinally)

variable {ρ α : Type}

structure Ledger where
  /-- The time to read the request was up. -/
  late : Bool
  /-- The decoder has raised something else than a `ValueError`. -/
  undecodable : Bool
  /-- A status that could not be written has left something undone. -/
  interrupted : Bool
  received : List Fd
  outputs : List Fd
  closed : List Fd
  answers : List (Answer × List Fd)
  slot : ℤ
  admission : ℤ
  active : ℤ
  pending : ℤ
  deriving DecidableEq

def Ledger.empty : Ledger := ⟨false, false, false, [], [], [], [], 0, 0, 0, 0⟩

def Ledger.count (l : Ledger) (counter : Counter) (delta : ℤ) : Ledger :=
  match counter with
  | .active => { l with active := l.active + delta }
  | .pending => { l with pending := l.pending + delta }

/-- What is skipped when a count raises: counting back, the release of a slot that
has just been taken, or the return of the output. -/
def Ledger.atStake (l : Ledger) (delta : ℤ) : Bool :=
  0 < delta ∨ delta < 0 ∧ (l.slot = 1 ∨ l.outputs ≠ [])

def record : (x : Action ρ) → x.Result → Ledger → Ledger
  | .acquireAdmitted, acquired, l =>
    if acquired then { l with admission := l.admission + 1 } else l
  | .releaseAdmitted, _, l => { l with admission := l.admission - 1 }
  | .timeLeft, left, l => if left then l else { l with late := true }
  | .recvmsg, .ok packet, l => { l with received := l.received ++ packet.fds }
  | .loads _, .error f, l => if f = .valueError then l else { l with undecodable := true }
  | .count counter delta _, .ok _, l => l.count counter delta
  | .count counter delta _, .error _, l =>
    { l.count counter delta with interrupted := l.interrupted || l.atStake delta }
  | .awaitSlot, .acquired, l => { l with slot := l.slot + 1 }
  | .releaseSlot, _, l => { l with slot := l.slot - 1 }
  | .runSteps, .ok rendered, l => { l with outputs := l.outputs ++ [rendered.fd] }
  | .close fd, _, l => { l with closed := l.closed ++ [fd] }
  | .send answer fds, _, l => { l with answers := l.answers ++ [(answer, fds)] }
  | _, _, l => l

/-- Something is not given back. -/
def Ledger.Lost (l : Ledger) : Prop :=
  l.received ≠ [] ∧ (l.late = true ∨ l.undecodable = true) ∨ l.interrupted = true

instance Ledger.decidableLost (l : Ledger) : Decidable l.Lost := by
  unfold Lost
  infer_instance

/-- Everything is given back but `held`, which is still open. -/
structure Ledger.Accounted (l : Ledger) (held : List Fd) : Prop where
  fds : (l.closed ++ held).Perm (l.received ++ l.outputs)
  slot : l.slot = 0
  active : l.active = 0
  pending : l.pending = 0

def Carries : Answer → List Fd → Prop
  | .ok rendered, fds => fds = [rendered.fd]
  | .error _ _, fds => fds = []

/-- What a connection may do next. -/
def Guard : Action ρ → Ledger → Prop
  | .acquireAdmitted, l => l.admission = 0
  | .releaseAdmitted, l => l.admission = 1
  | .awaitSlot, l => l.slot = 0
  | .snapshot _ _, l | .runSteps, l | .releaseSlot, l => l.slot = 1
  | .send answer fds, l => l.answers = [] ∧ Carries answer fds
  | .closeConn, l => ¬ l.Lost → l.Accounted []
  | _, _ => True

/-- What holds of a connection all the time. -/
structure Ledger.Sound (l : Ledger) : Prop where
  slot : l.slot = 0 ∨ l.slot = 1
  admission : l.admission = 0 ∨ l.admission = 1
  answers : l.answers.length ≤ 1
  carries : ∀ a ∈ l.answers, Carries a.1 a.2

theorem empty_sound : Ledger.empty.Sound where
  slot := .inl rfl
  admission := .inl rfl
  answers := by simp [Ledger.empty]
  carries a ha := by cases ha

theorem Ledger.Sound.count {l : Ledger} (h : l.Sound) (counter : Counter) (delta : ℤ) :
    (l.count counter delta).Sound := by
  cases counter with
  | active => exact ⟨h.slot, h.admission, h.answers, h.carries⟩
  | pending => exact ⟨h.slot, h.admission, h.answers, h.carries⟩

/-- An action that is guarded keeps a connection sound. -/
theorem record_sound (x : Action ρ) (r : x.Result) (l : Ledger) (h : l.Sound)
    (hguard : Guard x l) : (record x r l).Sound := by
  cases x with
  | acquireAdmitted =>
    cases r with
    | false => exact h
    | true =>
      exact ⟨h.slot, .inr (by simp [record, show l.admission = 0 from hguard]), h.answers, h.carries⟩
  | releaseAdmitted =>
    exact ⟨h.slot, .inl (by simp [record, show l.admission = 1 from hguard]), h.answers, h.carries⟩
  | timeLeft =>
    cases r with
    | false => exact ⟨h.slot, h.admission, h.answers, h.carries⟩
    | true => exact h
  | recvmsg =>
    cases r with
    | error f => exact h
    | ok packet => exact ⟨h.slot, h.admission, h.answers, h.carries⟩
  | loads line =>
    cases r with
    | ok request => exact h
    | error f =>
      simp only [record]
      split_ifs
      · exact h
      · exact ⟨h.slot, h.admission, h.answers, h.carries⟩
  | count counter delta failure =>
    have hcount := h.count counter delta
    cases r with
    | ok u => exact hcount
    | error f => exact ⟨hcount.slot, hcount.admission, hcount.answers, hcount.carries⟩
  | awaitSlot =>
    cases r with
    | acquired =>
      exact ⟨.inr (by simp [record, show l.slot = 0 from hguard]), h.admission, h.answers, h.carries⟩
    | cancelled => exact h
    | busy => exact h
  | releaseSlot =>
    exact ⟨.inl (by simp [record, show l.slot = 1 from hguard]), h.admission, h.answers, h.carries⟩
  | runSteps =>
    cases r with
    | error f => exact h
    | ok rendered => exact ⟨h.slot, h.admission, h.answers, h.carries⟩
  | close fd => exact ⟨h.slot, h.admission, h.answers, h.carries⟩
  | send answer fds =>
    refine ⟨h.slot, h.admission, ?_, ?_⟩
    · simp [record, show l.answers = [] from hguard.1]
    · simpa [record, show l.answers = [] from hguard.1] using hguard.2
  | peerUid => exact h
  | startThread => exact h
  | recv limit => exact h
  | parse request => exact h
  | snapshot parsed fds => exact h
  | log => exact h
  | closeConn => exact h

end IsadoraAir.RenderService
