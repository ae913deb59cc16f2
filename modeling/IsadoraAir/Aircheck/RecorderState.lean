import Mathlib.Data.List.AList
import Mathlib.Data.List.Intervals
import Mathlib.Data.List.Sort

/-!
# The recorder's files

The recording process appends samples to the inode it has open, whatever name
the inode has; samples are numbered as they come. A reopen command that it
handles makes it switch to a new file at the fixed working path, whenever that
is. The service renames, copies and removes files by name.
-/

namespace IsadoraAir.Aircheck.Recorder

inductive AudioFormat where
  | heAac
  | mp3
  | flac
  | wav
  deriving DecidableEq, Repr

/-- A row of `AircheckSession`. `since` is the number of the first sample after
the reopen that Start sent. -/
structure Session where
  id : ℕ
  audioFormat : AudioFormat
  stillRunning : Bool
  since : ℕ
  deriving DecidableEq, Repr

/-- What the name of a handoff or of a segment says. -/
structure Key where
  session : ℕ
  sequence : ℕ
  deriving DecidableEq, Repr

/-- `birth` is the number of the next sample when an inode was created; `named`
records the pieces of audio, by their births, that a name was given to. -/
structure RecorderState where
  heard : ℕ
  content : ℕ → List ℕ
  birth : ℕ → ℕ
  nextInode : ℕ
  openInode : ℕ
  working : Option ℕ
  handoffs : AList fun _ : Key => ℕ
  partials : AList fun _ : Key => List ℕ
  segments : AList fun _ : Key => List ℕ
  moved : List (ℕ × List ℕ)
  sessions : List Session
  nextSession : ℕ
  pending : List ℕ
  handled : ℕ → Option ℕ
  nextCommand : ℕ
  starting : Option ℕ
  named : List (Key × ℕ)

namespace RecorderState

/-! ## The recording process -/

def sample (d : RecorderState) : RecorderState :=
  { d with
    heard := d.heard + 1
    content := Function.update d.content d.openInode (d.content d.openInode ++ [d.heard]) }

/-- A new empty file at the fixed path. -/
def switch (d : RecorderState) : RecorderState :=
  { d with
    content := Function.update d.content d.nextInode []
    birth := Function.update d.birth d.nextInode d.heard
    nextInode := d.nextInode + 1
    openInode := d.nextInode
    working := some d.nextInode }

def handle (d : RecorderState) (command : ℕ) : RecorderState :=
  if command ∈ d.pending then
    { d.switch with
      pending := d.pending.erase command
      handled := Function.update d.handled command (some d.heard) }
  else d

/-! ## What the names say -/

def sequences {β : Type} (entries : AList fun _ : Key => β) (session : ℕ) : List ℕ :=
  ((entries.keys.filter fun key => key.session = session).map Key.sequence).insertionSort (· ≤ ·)

/-- `_discover_segments` -/
def discoverSegments (d : RecorderState) (session : ℕ) : List ℕ := sequences d.segments session

/-- `_pending_handoffs` -/
def pendingHandoffs (d : RecorderState) (session : ℕ) : List ℕ := sequences d.handoffs session

def audioOf (d : RecorderState) (inode : Option ℕ) : List ℕ := inode.elim [] d.content

/-- The segment of this name, or the handoff while there is no segment. -/
def piece (d : RecorderState) (key : Key) : List ℕ :=
  (d.segments.lookup key).getD (d.audioOf (d.handoffs.lookup key))

/-- The segments and handoffs of a session in sequence order, each sequence once. -/
def pieces (d : RecorderState) (session : ℕ) : List ℕ :=
  (d.discoverSegments session ++ (d.pendingHandoffs session).filter
    fun q => q ∉ d.discoverSegments session).insertionSort (· ≤ ·)

/-- The audio of a session: its segments, its handoffs and the working file. -/
def audio (d : RecorderState) (session : ℕ) : List ℕ :=
  (d.pieces session).flatMap (fun q => d.piece ⟨session, q⟩) ++ d.audioOf d.working

def isMoved (d : RecorderState) (session : ℕ) : Bool := session ∈ d.moved.map Prod.fst

end RecorderState

/-! ## The actions of the service -/

inductive FileError where
  | notFound
  | other
  deriving DecidableEq, Repr

/-- What `_finalize_direct_move` and `_finalize_he_aac_async` are given. -/
inductive Source where
  | working
  | handoff (key : Key)
  deriving DecidableEq, Repr

inductive Action where
  | currentSession
  | makeDirectory
  | reopen (forStart : Bool)
  | awaitReply (command : ℕ)
  | createSession (command : ℕ) (audioFormat : AudioFormat)
  | pendingHandoffs (session : ℕ)
  | discoverSegments (session : ℕ)
  | workingExists
  | workingSize
  | segmentExists (key : Key)
  | handoffExists (key : Key)
  | sameSize (key : Key)
  | isolate (key : Key)
  | restore (key : Key)
  | copyToPartial (key : Key)
  | publish (key : Key)
  | unlinkHandoff (key : Key)
  | sourceExists (source : Source)
  | moveSource (session : ℕ) (source : Source)
  | saveStopped (session : ℕ)

/-- `reopen` tells which command was sent, `sameSize` nothing if a file cannot be read. -/
abbrev Action.Result : Action → Type
  | .currentSession => Option Session
  | .makeDirectory => Bool
  | .reopen _ => Option ℕ
  | .awaitReply _ => Bool
  | .createSession _ _ => Unit
  | .pendingHandoffs _ => List ℕ
  | .discoverSegments _ => List ℕ
  | .workingExists => Bool
  | .workingSize => Except FileError ℕ
  | .segmentExists _ => Bool
  | .handoffExists _ => Bool
  | .sameSize _ => Option Bool
  | .isolate _ => Bool
  | .restore _ => Bool
  | .copyToPartial _ => Bool
  | .publish _ => Bool
  | .unlinkHandoff _ => Bool
  | .sourceExists _ => Bool
  | .moveSource _ _ => Bool
  | .saveStopped _ => Unit

namespace RecorderState

/-- The command is sent and may be handled at any later time. -/
def reopen (d : RecorderState) (forStart : Bool) : RecorderState :=
  { d with
    pending := d.nextCommand :: d.pending
    nextCommand := d.nextCommand + 1
    starting := if forStart then some d.nextCommand else d.starting }

def createSession (d : RecorderState) (command : ℕ) (audioFormat : AudioFormat) : RecorderState :=
  { d with
    sessions := ⟨d.nextSession, audioFormat, true, (d.handled command).getD d.heard⟩ :: d.sessions
    nextSession := d.nextSession + 1
    starting := none }

/-- `working.rename(handoff)` -/
def isolate (d : RecorderState) (key : Key) (inode : ℕ) : RecorderState :=
  { d with
    working := none
    handoffs := d.handoffs.insert key inode
    named := (key, d.birth inode) :: d.named }

/-- `handoff.rename(working)` -/
def restore (d : RecorderState) (key : Key) (inode : ℕ) : RecorderState :=
  { d with working := some inode, handoffs := d.handoffs.erase key }

def copyToPartial (d : RecorderState) (key : Key) (inode : ℕ) : RecorderState :=
  { d with partials := d.partials.insert key (d.content inode) }

/-- `os.replace(partial, committed)` -/
def publish (d : RecorderState) (key : Key) (audio : List ℕ) : RecorderState :=
  { d with segments := d.segments.insert key audio, partials := d.partials.erase key }

def unlinkHandoff (d : RecorderState) (key : Key) : RecorderState :=
  { d with handoffs := d.handoffs.erase key }

def sourceInode (d : RecorderState) : Source → Option ℕ
  | .working => d.working
  | .handoff key => d.handoffs.lookup key

/-- To the destination of the session, or to its intermediate. -/
def moveSource (d : RecorderState) (session : ℕ) (source : Source) (inode : ℕ) : RecorderState :=
  match source with
  | .working => { d with working := none, moved := (session, d.content inode) :: d.moved }
  | .handoff key =>
    { d with handoffs := d.handoffs.erase key, moved := (session, d.content inode) :: d.moved }

def saveStopped (d : RecorderState) (session : ℕ) : RecorderState :=
  { d with
    sessions := d.sessions.map fun s =>
      if s.id = session then { s with stillRunning := false } else s }

/-- One action; `ok` says whether the operating system, the control connection
or the other end lets it succeed. -/
def perform (d : RecorderState) (ok : Bool) : (a : Action) → a.Result × RecorderState
  | .currentSession => (d.sessions.find? Session.stillRunning, d)
  | .makeDirectory => (ok, d)
  | .reopen forStart => if ok then (some d.nextCommand, d.reopen forStart) else (none, d)
  | .awaitReply command => (ok && (d.handled command).isSome, d)
  | .createSession command audioFormat => ((), d.createSession command audioFormat)
  | .pendingHandoffs session => (d.pendingHandoffs session, d)
  | .discoverSegments session => (d.discoverSegments session, d)
  | .workingExists => (d.working.isSome, d)
  | .workingSize =>
    match d.working with
    | some inode => (if ok then .ok (d.content inode).length else .error .other, d)
    | none => (.error .notFound, d)
  | .segmentExists key => ((d.segments.lookup key).isSome, d)
  | .handoffExists key => ((d.handoffs.lookup key).isSome, d)
  | .sameSize key =>
    match d.segments.lookup key, d.handoffs.lookup key with
    | some audio, some inode =>
      (if ok then some (audio.length = (d.content inode).length) else none, d)
    | _, _ => (none, d)
  | .isolate key =>
    match d.working with
    | some inode => if ok then (true, d.isolate key inode) else (false, d)
    | none => (false, d)
  | .restore key =>
    match d.handoffs.lookup key with
    | some inode => if ok then (true, d.restore key inode) else (false, d)
    | none => (false, d)
  | .copyToPartial key =>
    match d.handoffs.lookup key with
    | some inode => if ok then (true, d.copyToPartial key inode) else (false, d)
    | none => (false, d)
  | .publish key =>
    match d.partials.lookup key with
    | some audio => if ok then (true, d.publish key audio) else (false, d)
    | none => (false, d)
  | .unlinkHandoff key => if ok then (true, d.unlinkHandoff key) else (false, d)
  | .sourceExists source => ((d.sourceInode source).isSome, d)
  | .moveSource session source =>
    match d.sourceInode source with
    | some inode => if ok then (true, d.moveSource session source inode) else (false, d)
    | none => (false, d)
  | .saveStopped session => ((), d.saveStopped session)

end RecorderState

end IsadoraAir.Aircheck.Recorder
