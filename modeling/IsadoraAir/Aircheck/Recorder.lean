import IsadoraAir.Aircheck.RecorderState
import IsadoraAir.Foundation.Routine
import IsadoraAir.Foundation.Runs

/-!
# The recorder service

Start, Stop and maintenance hold the one lock for their whole body, so at most
one of them is under way. The recording process goes on between any two of its
actions, and so does a process that dies give up the lock anywhere.
-/

namespace IsadoraAir.Aircheck.Recorder

/-- `SegmentError`, by where it is raised. -/
inductive SegmentError where
  | cannotCreateStaging
  | cannotCompareCommitted
  | committedCollision
  | committedCleanupFailed
  | persistentCopyFailed
  | handoffCleanupFailed
  | cannotRestorePending
  | pendingRestored
  | handoffAlreadyExists
  | cannotIsolate
  | workingPathRestored
  | restoreFailed
  | reopenResponseFailed
  deriving DecidableEq, Repr

abbrev Program (α : Type) := Routine Action.Result SegmentError α

open Routine (attempt)

abbrev perform (a : Action) : Program a.Result := Routine.perform a

/-- `raise SegmentError(...)` -/
def fail {α : Type} (error : SegmentError) : Program α := .raise error

/-- `AIRCHECK_WORKING_FILE_MAX_BYTES` -/
def workingFileMaxBytes : ℕ := 64 * 1024 * 1024

/-- The reopen command that was acknowledged, if it was. -/
def sendTelnet (forStart : Bool) : Program (Option ℕ) := do
  match ← perform (.reopen forStart) with
  | some command => if ← perform (.awaitReply command) then return some command else return none
  | none => return none

/-- Everything of `_copy_handoff_to_staging` once its directory is there. -/
def commitHandoff (key : Key) : Program Unit := do
  if ← perform (.segmentExists key) then
    match ← perform (.sameSize key) with
    | none => fail .cannotCompareCommitted
    | some false => fail .committedCollision
    | some true =>
      if ← perform (.unlinkHandoff key) then return () else fail .committedCleanupFailed
  else if ← perform (.copyToPartial key) then
    if ← perform (.publish key) then
      if ← perform (.unlinkHandoff key) then return () else fail .handoffCleanupFailed
    else fail .persistentCopyFailed
  else fail .persistentCopyFailed

def copyHandoffToStaging (key : Key) : Program Unit := do
  if ← perform .makeDirectory then commitHandoff key else fail .cannotCreateStaging

/-- The loop of `_recover_pending_handoffs`, with the sequences it has recovered. -/
def recoverEach (session : ℕ) : List ℕ → Program (List ℕ)
  | [] => return []
  | sequence :: rest => do
    if ← perform (.segmentExists ⟨session, sequence⟩) then
      copyHandoffToStaging ⟨session, sequence⟩
      return sequence :: (← recoverEach session rest)
    else if ← perform .workingExists then
      copyHandoffToStaging ⟨session, sequence⟩
      return sequence :: (← recoverEach session rest)
    else if ← perform (.restore ⟨session, sequence⟩) then fail .pendingRestored
    else fail .cannotRestorePending

def recoverPendingHandoffs (session : ℕ) : Program (List ℕ) := do
  recoverEach session (← perform (.pendingHandoffs session))

def nextSegmentSequence (session : ℕ) : Program ℕ := do
  let segments ← perform (.discoverSegments session)
  let handoffs ← perform (.pendingHandoffs session)
  return (segments ++ handoffs).foldr max 0 + 1

/-- The undo of a cut whose reopen failed. -/
def undoIsolation (key : Key) : Program Unit := do
  if ← perform .workingExists then fail .reopenResponseFailed
  else if ← perform (.restore key) then fail .workingPathRestored
  else fail .restoreFailed

def isolateActiveWorkingFile (key : Key) : Program Unit := do
  if ← perform (.handoffExists key) then fail .handoffAlreadyExists
  else if ← perform (.isolate key) then
    match ← sendTelnet false with
    | some _ => return ()
    | none => undoIsolation key
  else fail .cannotIsolate

def cutAndStageActiveSegment (session : ℕ) : Program Unit := do
  if ← perform .makeDirectory then
    let _ ← recoverPendingHandoffs session
    let sequence ← nextSegmentSequence session
    isolateActiveWorkingFile ⟨session, sequence⟩
    copyHandoffToStaging ⟨session, sequence⟩
  else fail .cannotCreateStaging

/-- The error, if any. -/
def startRecording (audioFormat : AudioFormat) : Program (Option String) := do
  match ← perform .currentSession with
  | some _ => return some "already recording"
  | none =>
    if ← perform .makeDirectory then
      match ← sendTelnet true with
      | some command =>
        perform (.createSession command audioFormat)
        return none
      | none => return some "liquidsoap telnet"
    else return some "cannot create output directory"

def finalizeDirectMove (session : ℕ) (source : Source) : Program Unit := do
  if ← perform (.sourceExists source) then
    if ← perform .makeDirectory then
      let _ ← perform (.moveSource session source)
      perform (.saveStopped session)
    else perform (.saveStopped session)
  else perform (.saveStopped session)

def finalizeHeAacAsync (session : ℕ) (source : Source) : Program Unit := do
  if ← perform (.sourceExists source) then
    let _ ← perform (.moveSource session source)
    perform (.saveStopped session)
  else perform (.saveStopped session)

def finalizeSource (session : Session) (source : Source) : Program Unit :=
  if session.audioFormat = .heAac then finalizeHeAacAsync session.id source
  else finalizeDirectMove session.id source

/-- The final cut of Stop and what becomes of it. -/
def stopAtCut (session : Session) (segmented : Bool) : Program (Option String) := do
  let sequence ← nextSegmentSequence session.id
  match ← attempt (isolateActiveWorkingFile ⟨session.id, sequence⟩) with
  | .error _ => return some "could not stop Aircheck safely"
  | .ok _ =>
    if segmented then
      match ← attempt (copyHandoffToStaging ⟨session.id, sequence⟩) with
      | .error _ => return some "could not persist final Aircheck segment"
      | .ok _ =>
        perform (.saveStopped session.id)
        return none
    else
      finalizeSource session (.handoff ⟨session.id, sequence⟩)
      return none

def isOversized : Except FileError ℕ → Bool
  | .ok size => workingFileMaxBytes ≤ size
  | .error _ => false

def stopRecording : Program (Option String) := do
  match ← perform .currentSession with
  | none => return some "no active session"
  | some session =>
    match ← attempt (recoverPendingHandoffs session.id) with
    | .error _ => return some "cannot recover pending Aircheck segment"
    | .ok _ =>
      let priorSegments ← perform (.discoverSegments session.id)
      let size ← perform .workingSize
      let isFile ← perform .workingExists
      if ¬isFile ∧ priorSegments = [] then
        let _ ← sendTelnet false
        finalizeSource session .working
        return none
      else
        stopAtCut session (priorSegments ≠ [] || isOversized size)

/-- The recovery at the beginning of maintenance. -/
def recoverActive : Option Session → Program (List ℕ)
  | some session => do
    match ← perform (.pendingHandoffs session.id) with
    | [] => return []
    | _ :: _ => recoverPendingHandoffs session.id
  | none => return []

/-- What maintenance does to a working file that has grown too large. -/
def rollOver : Option Session → Program (Option String)
  | some session => do
    match ← attempt (cutAndStageActiveSegment session.id) with
    | .ok _ => return some "active_segmented"
    | .error _ => return some "active_segment_failed"
  | none => do
    match ← sendTelnet false with
    | some _ => return some "idle_rolled"
    | none => return some "idle_error"

def maintainIdleBuffer (maxBytes : ℕ) : Program (Option String) := do
  let session ← perform .currentSession
  match ← attempt (recoverActive session) with
  | .error _ => return some "active_segment_failed"
  | .ok recovered =>
    match ← perform .workingSize with
    | .error .notFound => return some "missing"
    | .error .other => return some (if session.isSome then "active_segment_failed" else "idle_error")
    | .ok size =>
      if size < maxBytes then
        return some (if recovered ≠ [] then "active_segmented"
          else if session.isSome then "active_below_limit" else "idle_below_limit")
      else rollOver session

/-! ## Runs -/

inductive Operation where
  | start (audioFormat : AudioFormat)
  | stop
  | maintain (maxBytes : ℕ)

def Operation.program : Operation → Program (Option String)
  | .start audioFormat => startRecording audioFormat
  | .stop => stopRecording
  | .maintain maxBytes => maintainIdleBuffer maxBytes

/-- `program` is what is left to do for the operation that holds the lock. -/
structure State where
  disk : RecorderState
  program : Option (Program (Option String))

/-- `act` is the next action of the operation under way; a `begin` that meets the
lock waits, or is skipped. -/
inductive Event where
  | begin (operation : Operation)
  | act (ok : Bool)
  | crash
  | sample
  | handle (command : ℕ)

namespace State

/-- The lock is given back. -/
def release (d : RecorderState) : State := ⟨{ d with starting := none }, none⟩

/-- An operation that has no action left has ended. -/
def settle (d : RecorderState) : Program (Option String) → State
  | .act a next => ⟨d, some (.act a next)⟩
  | _ => release d

end State

def step : Event → State → State
  | .begin operation, s =>
    match s.program with
    | none => { s with program := some operation.program }
    | some _ => s
  | .act ok, s =>
    match s.program with
    | some (.act a next) => .settle (s.disk.perform ok a).2 (next (s.disk.perform ok a).1)
    | _ => s
  | .crash, s => .release s.disk
  | .sample, s => { s with disk := s.disk.sample }
  | .handle command, s => { s with disk := s.disk.handle command }

/-- No session yet; the recording process writes the working file. -/
def initial : State where
  disk :=
    { heard := 0, content := fun _ => [], birth := fun _ => 0, nextInode := 1, openInode := 0,
      working := some 0, handoffs := ∅, partials := ∅, segments := ∅, moved := [],
      sessions := [], nextSession := 1, pending := [], handled := fun _ => none,
      nextCommand := 0, starting := none, named := [] }
  program := none

end IsadoraAir.Aircheck.Recorder
