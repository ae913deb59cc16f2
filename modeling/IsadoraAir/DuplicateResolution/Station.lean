import IsadoraAir.DuplicateResolution.Findings
import IsadoraAir.Foundation.PyValue
import Mathlib.Data.String.Basic

/-!
# What a deletion depends on

The rows and files of two Tracks, what refers to them, and what the playout
engine reports. `inspect` reads everything and lists what stands in the way of
deleting the discarded Track. Times are in microseconds.
-/

namespace IsadoraAir.DuplicateResolution

/-! ## The playout engine -/

inductive EngineProblem where
  | malformed
  | unreadable
  | absent
  | stale
  | noTimestamp
  | future
  | noDecks
  | noQueue
  | noLog
  deriving DecidableEq

inductive Deck where
  | free
  | track (id : ℤ)
  | malformed
  deriving DecidableEq

/-- The engine's state file; the time is `none` unless it is a finite number of seconds, and the
rest is `none` where it is missing or of another type. -/
structure EngineFile where
  timestamp : Option ℚ
  decks : Option (List (String × Deck))
  queue : Option (List (Option ℤ))
  logId : Option (Option ℤ)

/-- What `_read_engine_state` finds. -/
inductive EngineReading where
  | malformed
  | unreadable
  | absent
  | stale
  | state (file : EngineFile)

structure Engine where
  decks : List Deck
  queue : List ℤ
  logId : Option ℤ

def stateStalenessSeconds : ℚ := 30

def engineClockToleranceSeconds : ℚ := 5

def engineDecks : List String := ["A", "B"]

def checkDecks (decks : Option (List (String × Deck))) : Option (List Deck) :=
  decks.bind fun decks =>
    if engineDecks.all (· ∈ decks.map Prod.fst) ∧ .malformed ∉ decks.map Prod.snd then
      some (decks.map Prod.snd)
    else none

def checkQueue (queue : Option (List (Option ℤ))) : Option (List ℤ) :=
  queue.bind fun queue => if none ∈ queue then none else some queue.reduceOption

def checkState (now : ℚ) (file : EngineFile) : Except EngineProblem Engine := do
  let stamp ← orRaise file.timestamp .noTimestamp
  raiseIf (stateStalenessSeconds < now - stamp) .stale
  raiseIf (engineClockToleranceSeconds < stamp - now) .future
  let decks ← orRaise (checkDecks file.decks) .noDecks
  let queue ← orRaise (checkQueue file.queue) .noQueue
  let logId ← orRaise file.logId .noLog
  pure ⟨decks, queue, logId⟩

/-- `_engine_state` -/
def engineState (now : ℚ) : EngineReading → Except EngineProblem Engine
  | .malformed => .error .malformed
  | .unreadable => .error .unreadable
  | .absent => .error .absent
  | .stale => .error .stale
  | .state file => checkState now file

/-! ## The station -/

/-- `_protection_predicates` -/
structure Protection where
  pathOwner : String → Option String
  trackOwner : TrackId → Option String

/-- What a request has read before its transactions. -/
structure Observed where
  protection : Protection
  engine : Except EngineProblem Engine

/-- `TRACK_COLUMNS` -/
structure Columns where
  filepath : String
  filename : String
  format : String
  title : String
  artistId : Option ℤ
  albumId : Option ℤ
  durationSeconds : Option ℚ
  categoryId : Option ℤ
  remoteUrl : String
  deriving DecidableEq

/-- What `os.lstat` says of a path. -/
inductive Lstat where
  | notFound
  | osError
  | special
  | regular (dev ino size mtimeNs ctimeNs nlink : ℤ)
  deriving DecidableEq

structure LogItem where
  track : Option TrackId
  log : ℤ
  date : ℤ
  hour : ℕ
  playedAt : Option ℤ
  playbackClaimedAt : Option ℤ
  deriving DecidableEq

structure PlayEvent where
  track : Option TrackId
  startedAt : ℤ
  endedAt : Option ℤ
  deriving DecidableEq

/-- The database as far as it is read here, and the file system. -/
structure Station where
  tracks : Dict TrackId Columns
  /-- `Track.additional_categories.through` -/
  additional : List (TrackId × ℤ)
  /-- The Tracks of playlist items and of rotation slots, with the names. -/
  playlists : List (TrackId × String)
  rotations : List (TrackId × String)
  voicetracks : List TrackId
  logItems : List LogItem
  playEvents : List PlayEvent
  /-- `DuplicateCandidate.resolution` -/
  decisions : Dict (TrackId × TrackId) String
  lstat : String → Lstat
  /-- Inside the Library, and its own `os.path.realpath`. -/
  isCanonical : String → Bool
  protection : Protection
  engine : EngineReading

inductive Role where
  | kept
  | discarded
  deriving DecidableEq

/-- Why there is no identity. -/
inductive FileProblem where
  | noPath
  | notFound
  | osError
  | notRegular
  deriving DecidableEq

inductive OnAirReason where
  | onDeck
  | queued
  | claimed
  | playedRecently
  deriving DecidableEq

inductive Blocker where
  | noTrack (role : Role)
  | pathChanged (role : Role)
  | file (role : Role) (problem : FileProblem)
  | replaced (role : Role)
  | isProtected (role : Role) (owner : String)
  | sameFile
  | playlists (names : List String)
  | rotations (names : List String)
  | scheduled (hours : ℕ)
  | engine (problem : EngineProblem)
  | onAir (reason : OnAirReason)
  deriving DecidableEq

/-! ## Files and categories -/

/-- The stat witness of exactly this regular file, or a reason. -/
def fileIdentity (w : Station) (path : String) : Except FileProblem (List ℤ) :=
  if path = "" then .error .noPath
  else
    match w.lstat path with
    | .notFound => .error .notFound
    | .osError => .error .osError
    | .special => .error .notRegular
    | .regular dev ino size mtimeNs ctimeNs nlink =>
      .ok [dev, ino, size, mtimeNs, ctimeNs, nlink]

/-- `_additional` -/
def additionalOf (w : Station) (track : TrackId) : List ℤ :=
  ((w.additional.filter fun row => row.1 = track).map Prod.snd).insertionSort (· ≤ ·)

/-- Everything this workflow relies on about one Track. -/
structure Fingerprint where
  columns : Columns
  additional : List ℤ
  file : Option (List ℤ)
  deriving DecidableEq

def fingerprint (w : Station) (track : TrackId) (columns : Columns) : Fingerprint :=
  ⟨columns, additionalOf w track, (fileIdentity w columns.filepath).toOption⟩

def owner (w : Station) (o : Observed) (track : TrackId) (columns : Columns) : Option String :=
  match o.protection.trackOwner track with
  | some owner => some owner
  | none =>
    if columns.remoteUrl ≠ "" then some "remote-hosted Track"
    else if w.isCanonical columns.filepath = false then
      some "its file is not a canonical path inside the Library"
    else o.protection.pathOwner columns.filepath

/-- The file is no longer the one of the scan. -/
def fileBlocker (w : Station) (found : Dict TrackId Entry) (role : Role) (track : TrackId)
    (columns : Columns) : List Blocker :=
  let scanned := found.get? track
  if scanned.bind Entry.path ≠ some columns.filepath then [.pathChanged role]
  else
    match fileIdentity w columns.filepath with
    | .error problem => [.file role problem]
    | .ok identity => if scanned.bind Entry.witness ≠ some identity then [.replaced role] else []

def ownerBlocker (w : Station) (o : Observed) (role : Role) (track : TrackId)
    (columns : Columns) : List Blocker :=
  ((owner w o track columns).map (Blocker.isProtected role)).toList

/-- Both Tracks name one file. -/
def sharedFile (w : Station) (kept discarded : Columns) : Bool :=
  match fileIdentity w kept.filepath, fileIdentity w discarded.filepath with
  | .ok identity, .ok other => identity.take 2 = other.take 2
  | _, _ => false

def suggestions (w : Station) (keep discard : TrackId) (kept discarded : Columns) : List ℤ :=
  let have_ := additionalOf w keep ++ kept.categoryId.toList
  let offered := (discarded.categoryId.toList ++ additionalOf w discard).filter (· ∉ have_)
  offered.dedup.insertionSort (· ≤ ·)

/-! ## References -/

/-- The names of what refers to the Track. -/
def namesOf (rows : List (TrackId × String)) (track : TrackId) : List String :=
  ((rows.filter fun row => row.1 = track).map Prod.snd).dedup.insertionSort (· ≤ ·)

/-- The current or a later hour, or the engine's active log. -/
def isUpcoming (localHour : ℤ × ℕ) (engine : Except EngineProblem Engine) (item : LogItem) : Bool :=
  localHour.1 < item.date || item.date = localHour.1 && localHour.2 ≤ item.hour ||
    (engine.toOption.bind Engine.logId).any (· = item.log)

/-- `_upcoming_logs` -/
def upcomingLogs (w : Station) (track : TrackId) (localHour : ℤ × ℕ)
    (engine : Except EngineProblem Engine) : List ℤ :=
  let items := w.logItems.filter fun item => item.track = some track ∧ isUpcoming localHour engine item
  (items.map LogItem.log).dedup

/-- `CLAIM_WINDOW`, `PLAY_MARGIN` -/
def claimWindow : ℤ := 3 * 3600 * 1000000

def playMargin : ℤ := 10 * 60 * 1000000

/-- `timedelta(seconds=float(track.duration_seconds or 3600)) + PLAY_MARGIN` -/
def playSpan (columns : Columns) : ℤ :=
  let seconds := (columns.durationSeconds.filter (· ≠ 0)).getD 3600
  Double.roundHalfEven (seconds * 1000000) + playMargin

def onAir (w : Station) (track : TrackId) (columns : Columns) (now : ℤ)
    (engine : Except EngineProblem Engine) : List OnAirReason :=
  let state := engine.toOption
  let items := w.logItems.filter fun item => item.track = some track
  let events := w.playEvents.filter fun event => event.track = some track
  let since := now - playSpan columns
  (if state.any fun e => .track track ∈ e.decks then [.onDeck] else []) ++
  (if state.any fun e => track ∈ e.queue then [.queued] else []) ++
  (if items.any fun i => i.playedAt.isNone && i.playbackClaimedAt.any (now - claimWindow ≤ ·) then
    [.claimed] else []) ++
  (if items.any (fun i => i.playedAt.any (since ≤ ·)) ||
      events.any (fun e => e.endedAt.isNone && since ≤ e.startedAt) then [.playedRecently] else [])

def referenceBlockers (w : Station) (discard : TrackId) (localHour : ℤ × ℕ)
    (engine : Except EngineProblem Engine) : List Blocker :=
  let playlists := namesOf w.playlists discard
  let rotations := namesOf w.rotations discard
  let upcoming := upcomingLogs w discard localHour engine
  (if playlists = [] then [] else [.playlists playlists]) ++
  (if rotations = [] then [] else [.rotations rotations]) ++
  (if upcoming = [] then [] else [.scheduled upcoming.length])

def engineBlocker : Except EngineProblem Engine → List Blocker
  | .error problem => [.engine problem]
  | .ok _ => []

/-! ## The inspection -/

structure Fingerprints where
  kept : Fingerprint
  discarded : Fingerprint
  deriving DecidableEq

structure Inspection where
  fingerprints : Fingerprints
  suggestions : List ℤ
  blockers : List Blocker
  voicetracks : ℕ

/-- The current state of one pair; an error is that a Track does not exist. -/
def inspect (f : Finding) (keep discard : TrackId) (o : Observed) (localHour : ℤ → ℤ × ℕ)
    (now : ℤ) (w : Station) : Except Role Inspection := do
  let found := (evidence f).toOption.getD .empty
  let kept ← orRaise (w.tracks.get? keep) .kept
  let discarded ← orRaise (w.tracks.get? discard) .discarded
  pure {
    fingerprints := ⟨fingerprint w keep kept, fingerprint w discard discarded⟩
    suggestions := suggestions w keep discard kept discarded
    blockers :=
      fileBlocker w found .kept keep kept ++ ownerBlocker w o .kept keep kept ++
      fileBlocker w found .discarded discard discarded ++
      ownerBlocker w o .discarded discard discarded ++
      (if sharedFile w kept discarded then [.sameFile] else []) ++
      referenceBlockers w discard (localHour now) o.engine ++
      engineBlocker o.engine ++
      (onAir w discard discarded now o.engine).map Blocker.onAir
    voicetracks := (w.voicetracks.filter (· = discard)).length }

end IsadoraAir.DuplicateResolution
