import IsadoraAir.Foundation.PyError
import IsadoraAir.Foundation.Procedure
import Mathlib.Algebra.Order.Ring.Rat

/-!
# Phases of an activation and of a worker

The two tables of transitions that the supervisor follows.
-/

/-!
## Activation phases

The phases of an activation transaction and the transitions between them.
-/

namespace IsadoraAir.Supervisor

inductive ActivationPhase where
  | idle
  | candidateStaged
  | candidateVerified
  | activationRequested
  | candidateStarting
  | candidateReady
  | committed
  | rollbackRequested
  | rolledBack
  | failed
  deriving DecidableEq, Repr

namespace ActivationPhase

def value : ActivationPhase → String
  | idle => "idle"
  | candidateStaged => "candidate_staged"
  | candidateVerified => "candidate_verified"
  | activationRequested => "activation_requested"
  | candidateStarting => "candidate_starting"
  | candidateReady => "candidate_ready"
  | committed => "committed"
  | rollbackRequested => "rollback_requested"
  | rolledBack => "rolled_back"
  | failed => "failed"

def all : List ActivationPhase :=
  [idle, candidateStaged, candidateVerified, activationRequested, candidateStarting,
    candidateReady, committed, rollbackRequested, rolledBack, failed]

/-- `ActivationPhase(value)` -/
def ofValue (value : String) : Option ActivationPhase := all.find? fun p => p.value = value

theorem ofValue_value (p : ActivationPhase) : ofValue p.value = some p := by
  cases p <;> decide

end ActivationPhase

open ActivationPhase

def allowedTransitions : ActivationPhase → List ActivationPhase
  | idle => [candidateStaged]
  | candidateStaged => [candidateVerified, failed]
  | candidateVerified => [activationRequested, failed]
  | activationRequested => [candidateStarting, failed]
  | candidateStarting => [candidateReady, rollbackRequested, failed]
  | candidateReady => [committed, rollbackRequested, failed]
  | committed => []
  | rollbackRequested => [rolledBack, failed]
  | rolledBack => []
  | failed => []

/-- The phases in which a candidate process may be running. -/
def phasesWithALiveCandidateProcess : List ActivationPhase := [candidateStarting, candidateReady]

def runtimeActivationAccepted (phase : ActivationPhase) : Bool := phase = committed

/-- What the supervisor's own code can raise. -/
inductive Raised where
  | supervisor (detail : String)
  | transition (current next : ActivationPhase)
  | osError
  | indeterminateStateWrite
  | attestation (detail : String)
  | descriptor (detail : String)
  | verifier
  | lifecycle (detail : String)
  | launch (detail : String)
  | value (detail : String)
  | daemon (detail : String)
  deriving DecidableEq, Repr

def validateTransition (current next : ActivationPhase) : Except Raised Unit :=
  raiseIf (next ∉ allowedTransitions current) (.transition current next)

end IsadoraAir.Supervisor

/-!
## Worker lifecycle

The policy that decides whether another worker may be launched: never next to
a running one, and only so often within a window.
-/

namespace IsadoraAir.Supervisor

open Procedure

variable {l : WorkerLifecycle}

inductive WorkerLifecycleState where
  | none
  | running
  | exitedUnacknowledged
  deriving DecidableEq, Repr

def WorkerLifecycleState.value : WorkerLifecycleState → String
  | none => "none"
  | running => "running"
  | exitedUnacknowledged => "exited_unacknowledged"

structure WorkerLifecycle where
  state : WorkerLifecycleState := .none
  pid : Option ℕ := Option.none
  maxConsecutiveRestartAttempts : ℕ := 5
  restartAttemptWindowSeconds : ℚ := 300
  attemptTimestamps : List ℚ := []
  deriving DecidableEq

namespace WorkerLifecycle

/-- `_prune_old_attempts` -/
def pruneOldAttempts (now : ℚ) (l : WorkerLifecycle) : WorkerLifecycle :=
  { l with
    attemptTimestamps := l.attemptTimestamps.filter fun t => now - l.restartAttemptWindowSeconds ≤ t }

/-- No further launch fits the window. -/
def Exhausted (l : WorkerLifecycle) (now : ℚ) : Prop :=
  l.maxConsecutiveRestartAttempts ≤ (l.pruneOldAttempts now).attemptTimestamps.length

instance (l : WorkerLifecycle) (now : ℚ) : Decidable (l.Exhausted now) :=
  inferInstanceAs (Decidable (_ ≤ _))

def requireCanLaunch (now : ℚ) : Procedure WorkerLifecycle Raised Unit := do
  let l ← get
  if l.state ≠ .none then
    throw (.lifecycle ("cannot launch a new worker while lifecycle state is '" ++ l.state.value ++
      "' -- a previously-launched worker must be observed exited AND acknowledged first"))
  else do
    modify (pruneOldAttempts now)
    if l.Exhausted now then
      throw (.lifecycle ("refusing to launch: " ++
        toString (l.pruneOldAttempts now).attemptTimestamps.length ++
        " restart attempts already recorded within the last " ++
        toString l.restartAttemptWindowSeconds ++ "s (bound: " ++
        toString l.maxConsecutiveRestartAttempts ++ ")"))
    else pure ()

def recordLaunch (pid : ℕ) (now : ℚ) : Procedure WorkerLifecycle Raised Unit := do
  requireCanLaunch now
  modify fun l =>
    { l with
      attemptTimestamps := l.attemptTimestamps ++ [now], state := .running, pid := some pid }

def recordExit : Procedure WorkerLifecycle Raised Unit := do
  let l ← get
  if l.state ≠ .running then
    throw (.lifecycle ("record_exit() called while lifecycle state is '" ++ l.state.value ++
      "', not 'running'"))
  else modify fun l => { l with state := .exitedUnacknowledged }

def acknowledgeExit : Procedure WorkerLifecycle Raised Unit := do
  let l ← get
  if l.state ≠ .exitedUnacknowledged then
    throw (.lifecycle ("acknowledge_exit() called while lifecycle state is '" ++ l.state.value ++
      "', not 'exited_unacknowledged'"))
  else modify fun l => { l with state := .none, pid := none }

def adoptRunningWorker (pid : ℕ) (l : WorkerLifecycle) : WorkerLifecycle :=
  { l with state := .running, pid := some pid, attemptTimestamps := [] }

/-! ### What they do -/

theorem exhausted_pruneOldAttempts {now : ℚ} :
    (l.pruneOldAttempts now).Exhausted now ↔ l.Exhausted now := by
  simp [Exhausted, pruneOldAttempts]

/-- Nothing is running: a launch is refused only by the window. -/
theorem requireCanLaunch_ensures (now : ℚ) (h : l.state = .none) :
    Ensures (requireCanLaunch now) l fun r l' => l' = l.pruneOldAttempts now ∧
      ((l.Exhausted now ∧ ∃ detail, r = .error (.lifecycle detail)) ∨
        (¬l.Exhausted now ∧ r = .ok ())) := by
  refine .get_bind ?_
  rw [if_neg (not_not.mpr h)]
  refine .modify_bind ?_
  split_ifs with hexhausted
  · exact .throw ⟨rfl, .inl ⟨hexhausted, _, rfl⟩⟩
  · exact .pure ⟨rfl, .inr ⟨hexhausted, rfl⟩⟩

/-- Right after a permission the launch is recorded. -/
theorem recordLaunch_ensures (pid : ℕ) {now : ℚ} (h : l.state = .none)
    (hbudget : ¬l.Exhausted now) :
    Ensures (recordLaunch pid now) l fun r l' => r = .ok () ∧ l'.state = .running := by
  refine .bind (requireCanLaunch_ensures now h) ?_ ?_
  · exact fun _ _ _ => .modify ⟨rfl, rfl⟩
  · rintro e l' ⟨-, ⟨hexhausted, -⟩ | ⟨-, hr⟩⟩
    · exact absurd hexhausted hbudget
    · cases hr

/-- Seeing a running worker's exit and acknowledging it makes room for the next. -/
theorem recordExit_ensures (h : l.state = .running) :
    Ensures (do recordExit; acknowledgeExit) l fun r l' =>
      r = .ok () ∧ l' = { l with state := .none, pid := none } := by
  have hexit : Ensures recordExit l fun r l' =>
      r = .ok () ∧ l' = { l with state := .exitedUnacknowledged } := by
    refine .get_bind ?_
    rw [if_neg (not_not.mpr h)]
    exact .modify ⟨rfl, rfl⟩
  refine .bind hexit ?_ ?_
  · rintro _ l' ⟨-, rfl⟩
    exact .get_bind (.modify ⟨rfl, rfl⟩)
  · rintro e l' ⟨hr, -⟩
    cases hr

end WorkerLifecycle

end IsadoraAir.Supervisor
