import IsadoraAir.Foundation.Keyed
import Mathlib.Data.Finset.Card
import IsadoraAir.Foundation.Sessions
import IsadoraAir.Foundation.Runs

/-!
# Song requests

The rows that the scheduler, the reconciler and the engine share: a request, the
log item it is scheduled into, and the hour's log the item belongs to. What may
become of a request in one step is a relation between its rows.
-/

namespace IsadoraAir.WebRequests

inductive Status where
  | pending
  | noSlotSoon
  | scheduled
  | fulfilled
  | unavailable
  | expired
  deriving DecidableEq, Repr

namespace Status

/-- `WAITING_STATUSES` -/
def isWaiting : Status → Bool
  | pending => true
  | noSlotSoon => true
  | _ => false

/-- `TERMINAL_STATUSES` -/
def isTerminal : Status → Bool
  | fulfilled => true
  | unavailable => true
  | expired => true
  | _ => false

end Status

/-- Times are seconds; tracks, log items and requests are primary keys. -/
structure SongRequest where
  id : ℕ
  track : Option ℕ
  submittedAt : ℤ
  status : Status
  logItem : Option ℕ
  introLogItem : Option ℕ
  scheduledAt : Option ℤ
  fulfilledAt : Option ℤ
  resolvedAt : Option ℤ
  estimatedPlayTime : Option ℤ
  statusUpdatedAt : ℤ
  deriving DecidableEq, Repr

/-- `kind` is the code of the category's kind. -/
structure LogItem where
  id : ℕ
  playlistLog : ℕ
  track : Option ℕ
  trackTitle : String
  trackArtist : String
  kind : Option String
  scheduledTime : ℤ
  playbackClaimedAt : Option ℤ
  playedAt : Option ℤ
  deriving DecidableEq, Repr

structure PlaylistLog where
  approved : Bool
  date : ℕ
  hour : ℕ
  deriving DecidableEq, Repr

structure WebRequestConfig where
  enabled : Bool
  openSlots : List ℕ
  maxFulfilledPerHour : ℕ
  expireAfterHours : ℕ

/-- The configuration, the station's clock (`weekday() * 24 + hour` of a time)
and the texts of the tracks. -/
structure Station where
  cfg : WebRequestConfig
  slotOf : ℤ → ℕ
  title : ℕ → String
  artist : ℕ → String

/-- The tables; `airings` lists the occurrences that went on air with their
tracks, as the engine recorded them. -/
structure Database where
  logs : ℕ → Option PlaylistLog
  items : ℕ → Option LogItem
  requests : Distinct SongRequest.id
  airings : List (ℕ × ℕ)

/-- The assignments of an `UPDATE`; the primary key is never among them. -/
structure Assignment where
  apply : SongRequest → SongRequest
  keeps_id : ∀ r, (apply r).id = r.id

namespace Database

/-- `SongRequest.objects.filter(condition).update(...)` -/
def update (db : Database) (condition : SongRequest → Bool) (a : Assignment) : Database :=
  { db with
    requests := db.requests.map (fun r => if condition r then a.apply r else r) (by
      intro r
      split_ifs
      · exact a.keeps_id r
      · rfl) }

/-- `log_item.save()` -/
def put (db : Database) (item : LogItem) : Database :=
  { db with items := Function.update db.items item.id (some item) }

/-- The rows with the versions that a transaction has not committed yet. -/
def overlay (versions : List SongRequest) (r : SongRequest) : SongRequest :=
  (versions.find? fun v => v.id = r.id).getD r

theorem overlay_id (versions : List SongRequest) (r : SongRequest) :
    (overlay versions r).id = r.id := by
  unfold overlay
  cases h : versions.find? fun v => v.id = r.id with
  | none => rfl
  | some v => simpa using List.find?_some h

def writeVersions (db : Database) (versions : List SongRequest) : Database :=
  { db with requests := db.requests.map (overlay versions) (overlay_id versions) }

/-- The items that `values("log_item_id").distinct()` counts for a log. -/
def usedItems (db : Database) (log : ℕ) : List ℕ :=
  ((db.requests.items.filter fun r => r.status = .scheduled ∨ r.status = .fulfilled).filterMap
    SongRequest.logItem).filter fun i => (db.items i).map LogItem.playlistLog = some log

def usedSlots (db : Database) (log : ℕ) : ℕ := (db.usedItems log).dedup.length

/-- `SongRequest.objects.filter(status="scheduled", log_item_id=item).exists()` -/
def isReserved (db : Database) (item : ℕ) : Bool :=
  db.requests.items.any fun r => r.status = .scheduled ∧ r.logItem = some item

/-! ## The abstract view -/

/-- The log items of a log that carry a scheduled or fulfilled request. -/
def carriers (db : Database) (log : ℕ) : Finset ℕ := (db.usedItems log).toFinset

/-- The log item is reserved by a scheduled request. -/
def Reserved (db : Database) (item : ℕ) : Prop :=
  ∃ r ∈ db.requests.items, r.status = .scheduled ∧ r.logItem = some item

theorem isReserved_iff {db : Database} {item : ℕ} : db.isReserved item ↔ db.Reserved item := by
  simp [isReserved, Reserved]

theorem usedSlots_eq (db : Database) (log : ℕ) : db.usedSlots log = (db.carriers log).card :=
  (List.card_toFinset _).symm

theorem mem_carriers {db : Database} {log item : ℕ} :
    item ∈ db.carriers log ↔
      (∃ r ∈ db.requests.items, (r.status = .scheduled ∨ r.status = .fulfilled) ∧
        r.logItem = some item) ∧ (db.items item).map LogItem.playlistLog = some log := by
  simp [carriers, usedItems, and_assoc]

end Database

/-- What one step may make of a request: it keeps its track, it does not leave a
terminal status, and it is fulfilled from its schedule only, after its log item
went on air with its track. -/
structure Evolves (airings : List (ℕ × ℕ)) (r r' : SongRequest) : Prop where
  id : r'.id = r.id
  track : r'.track = r.track
  terminal : r.status.isTerminal → r' = r
  fulfilled : r'.status = .fulfilled → r' = r ∨
    r.status = .scheduled ∧ ∃ item track, r'.logItem = some item ∧ r'.track = some track ∧
      (item, track) ∈ airings

theorem Evolves.refl (airings : List (ℕ × ℕ)) (r : SongRequest) : Evolves airings r r :=
  ⟨rfl, rfl, fun _ => rfl, fun _ => .inl rfl⟩

end IsadoraAir.WebRequests

/-!
## Scheduling, reconciliation and air starts

Workers run in any order and number: scheduling transactions of the engine and
of the reconciler, the passes of the reconciler, and the engine's air starts.
Every statement is a step of its own. A transaction sees what is committed and
its own versions, and keeps the rows it has locked until it ends; a statement
that meets a locked row waits, which is a step without effect.
-/

namespace IsadoraAir.WebRequests

/-- The rows that are locked. -/
inductive Row where
  | log (id : ℕ)
  | item (id : ℕ)
  | request (id : ℕ)
  deriving DecidableEq

/-- What `engine_state.json` says; a deck is given by its log item. -/
structure EngineState where
  decks : List ℕ
  queue : List ℕ
  date : Option ℕ
  hour : Option ℕ

inductive Classification where
  | airing
  | queued
  | future
  | stranded
  | unknown
  deriving DecidableEq

/-- `classify_log_item`, given the log of the item. -/
def classifyLogItem (item : Option (LogItem × PlaylistLog)) (state : Option EngineState) :
    Classification :=
  match item with
  | none => .stranded
  | some (item, log) =>
    if ¬log.approved then .stranded
    else
      match state with
      | none => .unknown
      | some state =>
        if item.id ∈ state.decks then .airing
        else if item.id ∈ state.queue then .queued
        else
          match state.date, state.hour with
          | some date, some hour =>
            if date < log.date ∨ date = log.date ∧ hour < log.hour then .future else .stranded
          | _, _ => .unknown

/-- The reconciler's loops over requests. -/
inductive Pass where
  | aired
  | stranded
  | estimates
  | ageing
  | advisory
  deriving DecidableEq

/-- A request with the log item it was joined to when the pass began. -/
structure Reading where
  request : SongRequest
  item : Option LogItem
  log : Option PlaylistLog

/-- Where a worker is. -/
inductive Place where
  | idle
  | lockedLog (item log : ℕ) (now : ℤ)
  | lockedItem (item : LogItem) (log : ℕ) (now : ℤ)
  | asked (item : LogItem) (log : ℕ) (now : ℤ) (alreadyReserved : Bool)
  | counted (item : LogItem) (log : ℕ) (now : ℤ) (capacityAvailable alreadyReserved : Bool)
  | picked (item : LogItem) (log : ℕ) (now : ℤ) (capacityAvailable : Bool)
      (versions : List SongRequest)
  | collapsed (item : LogItem) (log : ℕ) (versions : List SongRequest)
  | airing (item : LogItem)
  | reconciling (pass : Pass) (state : Option EngineState) (rows : List Reading)

/-- The caller's log item may be stale in its track and its category; the log it
belongs to never changes. -/
inductive Event (α : Type) where
  | submit (id : ℕ) (track : Option ℕ) (submittedAt now : ℤ)
  | claimPlayback (item : ℕ) (now : ℤ)
  | beginScheduling (a : α) (item : ℕ) (callerTrack : Option ℕ) (callerKind : Option String)
      (now : ℤ)
  | lockItem (a : α)
  | askReserved (a : α)
  | countUsed (a : α)
  | pick (a : α) (eligible : ℕ → Bool) (estimate : Option ℤ)
  | collapse (a : α) (estimate : Option ℤ)
  | commit (a : α)
  | rollback (a : α)
  | lockAiring (a : α) (item : ℕ)
  | recordAirStart (a : α) (deckTrack : ℕ) (airedAt : ℤ)
  | beginPass (a : α) (pass : Pass) (state : Option EngineState)
  | resolve (a : α) (now : ℤ) (available : Bool) (estimate : Option ℤ)

/-- What the workers share. -/
structure Shared (α : Type) where
  db : Database
  locks : RowLocks Row α

structure State (α : Type) extends Shared α where
  place : α → Place

variable {α : Type} [DecidableEq α]

namespace State

def moveTo (s : State α) (a : α) (p : Place) : State α :=
  { s with place := Function.update s.place a p }

def lock (s : State α) (a : α) (rows : Row → Bool) : State α :=
  { s with locks := s.locks.lock a rows }

/-- The end of a transaction, committed or not. -/
def finish (s : State α) (a : α) : State α :=
  { s with locks := s.locks.release a }.moveTo a .idle

end State

/-! ### `maybe_schedule_song_request` -/

/-- What a scheduled request is set to, once as the candidate and once in the collapse. -/
def scheduleInto (item : ℕ) (now : ℤ) (estimate : Option ℤ) : Assignment where
  apply r := { r with
    status := .scheduled, logItem := some item, scheduledAt := some now, fulfilledAt := none,
    resolvedAt := none, estimatedPlayTime := estimate, statusUpdatedAt := now }
  keeps_id _ := rfl

/-- The checks on the locked row. -/
def isSchedulable (station : Station) (item : LogItem) : Bool :=
  item.playedAt = none ∧ item.playbackClaimedAt = none ∧ item.track ≠ none ∧
    item.kind = some "music" ∧ station.slotOf item.scheduledTime ∈ station.cfg.openSlots

def isApproved (db : Database) (log : ℕ) : Bool := (db.logs log).any PlaylistLog.approved

/-- `PlaylistLog.objects.select_for_update().get(pk=..., status="approved")` -/
def beginScheduling (station : Station) (a : α) (itemId : ℕ) (callerTrack : Option ℕ)
    (callerKind : Option String) (now : ℤ) (s : State α) : State α :=
  match s.place a, s.db.items itemId with
  | .idle, some item =>
    if callerTrack ≠ none ∧ callerKind = some "music" ∧ station.cfg.enabled ∧
        isApproved s.db item.playlistLog ∧ s.locks.available a (.log item.playlistLog) then
      (s.lock a (· = .log item.playlistLog)).moveTo a (.lockedLog itemId item.playlistLog now)
    else s
  | _, _ => s

/-- `LogItem.objects.select_for_update(of=("self",)).get(pk=...)` -/
def lockItem (station : Station) (a : α) (s : State α) : State α :=
  match s.place a with
  | .lockedLog itemId log now =>
    match s.db.items itemId with
    | some item =>
      if s.locks.available a (.item itemId) then
        if isSchedulable station item then
          (s.lock a (· = .item itemId)).moveTo a (.lockedItem item log now)
        else s.finish a
      else s
    | none => s.finish a
  | _ => s

def askReserved (a : α) (s : State α) : State α :=
  match s.place a with
  | .lockedItem item log now => s.moveTo a (.asked item log now (s.db.isReserved item.id))
  | _ => s

def countUsed (station : Station) (a : α) (s : State α) : State α :=
  match s.place a with
  | .asked item log now alreadyReserved =>
    s.moveTo a (.counted item log now
      (alreadyReserved || s.db.usedSlots log < station.cfg.maxFulfilledPerHour) alreadyReserved)
  | _ => s

/-- The waiting requests that `select_for_update(skip_locked=True)` returns, oldest first. -/
def candidates (a : α) (s : State α) : List SongRequest :=
  (s.db.requests.items.filter fun r => r.status.isWaiting ∧ r.track ≠ none ∧
    s.locks.available a (.request r.id)).insertionSort fun x y => x.submittedAt ≤ y.submittedAt

def isRequestIn (rows : List SongRequest) : Row → Bool
  | .request id => id ∈ rows.map SongRequest.id
  | _ => false

/-- The first eligible candidate's track replaces the item's. -/
def pick (station : Station) (a : α) (eligible : ℕ → Bool) (estimate : Option ℤ) (s : State α) :
    State α :=
  match s.place a with
  | .counted item log now capacityAvailable alreadyReserved =>
    if capacityAvailable ∧ ¬alreadyReserved then
      let rows := candidates a s
      match rows.find? fun r => r.track.any eligible with
      | some candidate =>
        (s.lock a (isRequestIn rows)).moveTo a (.picked
          { item with
            track := candidate.track
            trackTitle := candidate.track.elim "" station.title
            trackArtist := candidate.track.elim "" station.artist }
          log now capacityAvailable [(scheduleInto item.id now estimate).apply candidate])
      | none => (s.lock a (isRequestIn rows)).moveTo a (.picked item log now capacityAvailable [])
    else s.moveTo a (.picked item log now capacityAvailable [])
  | _ => s

/-- The waiting requests for a track, as the transaction sees them. -/
def collapsible (a : α) (track : Option ℕ) (versions : List SongRequest) (s : State α) :
    List SongRequest :=
  (s.db.requests.items.map (Database.overlay versions)).filter fun r =>
    r.status.isWaiting ∧ r.track = track ∧ s.locks.available a (.request r.id)

def collapse (a : α) (estimate : Option ℤ) (s : State α) : State α :=
  match s.place a with
  | .picked item log now capacityAvailable versions =>
    if capacityAvailable then
      let rows := collapsible a item.track versions s
      (s.lock a (isRequestIn rows)).moveTo a (.collapsed item log
        (versions ++ rows.map (scheduleInto item.id now estimate).apply))
    else s.moveTo a (.collapsed item log versions)
  | _ => s

/-- `locked_item.save(update_fields=["track", "track_title", "track_artist"])` -/
def saveTrack (db : Database) (item : LogItem) : Database :=
  { db with
    items := Function.update db.items item.id ((db.items item.id).map fun row =>
      { row with
        track := item.track, trackTitle := item.trackTitle, trackArtist := item.trackArtist }) }

def commit (a : α) (s : State α) : State α :=
  match s.place a with
  | .collapsed item _ versions =>
    { s with db := (saveTrack s.db item).writeVersions versions }.finish a
  | _ => s

/-- An error, a lock timeout or the death of the worker. -/
def rollback (a : α) (s : State α) : State α := s.finish a

/-! ### The engine -/

/-- The engine claims an occurrence under the lock of its row. -/
def claimPlayback (itemId : ℕ) (now : ℤ) (s : State α) : State α :=
  match s.db.items itemId with
  | some item =>
    if s.locks.owner (.item itemId) = none ∧ item.playbackClaimedAt = none then
      { s with db := s.db.put { item with playbackClaimedAt := some now } }
    else s
  | none => s

def lockAiring (a : α) (itemId : ℕ) (s : State α) : State α :=
  match s.place a, s.db.items itemId with
  | .idle, some item =>
    if s.locks.available a (.item itemId) then
      (s.lock a (· = .item itemId)).moveTo a (.airing item)
    else s
  | _, _ => s

/-- The requests that `mark_song_requests_aired` credits. -/
def isAiredBy (item : LogItem) (r : SongRequest) : Bool :=
  r.status = .scheduled ∧ r.logItem = some item.id ∧ r.track = item.track

def fulfil (at' : Option ℤ) (now : ℤ) : Assignment where
  apply r := { r with
    status := .fulfilled, fulfilledAt := at', resolvedAt := at', estimatedPlayTime := at',
    statusUpdatedAt := now }
  keeps_id _ := rfl

def markSongRequestsAired (db : Database) (item : LogItem) (airedAt : ℤ) : Database :=
  db.update (isAiredBy item) (fulfil (some airedAt) airedAt)

/-- `locked_item.played_at = air_started_at`, with the occurrence put on record. -/
def withAiring (db : Database) (item : LogItem) (track : ℕ) (airedAt : ℤ) : Database :=
  { db.put { item with playedAt := some airedAt } with
    airings := (item.id, track) :: db.airings }

/-- `_record_occurrence_air_start` after its row lock; the update of the requests waits while
another worker holds one of them. -/
def recordAirStart (a : α) (deckTrack : ℕ) (airedAt : ℤ) (s : State α) : State α :=
  match s.place a with
  | .airing item =>
    if item.playbackClaimedAt = none ∨ item.track ≠ some deckTrack ∨ item.playedAt ≠ none then
      s.finish a
    else if s.db.requests.items.all fun r =>
        !isAiredBy item r || s.locks.available a (.request r.id) then
      { s with
        db := markSongRequestsAired (withAiring s.db item deckTrack airedAt) item airedAt }.finish a
    else s
  | _ => s

/-! ### The reconciler -/

def join (db : Database) (r : SongRequest) : Reading where
  request := r
  item := r.logItem.bind db.items
  log := (r.logItem.bind db.items).bind fun item => db.logs item.playlistLog

/-- The filter of a pass's query. -/
def isSelected : Pass → Reading → Bool
  | .aired, x => x.request.status = .scheduled ∧ x.item.any fun item => item.playedAt ≠ none
  | .stranded, x => x.request.status = .scheduled ∧ ¬x.item.any fun item => item.playedAt ≠ none
  | .estimates, x => x.request.status = .scheduled ∧ x.item.any fun item => item.playedAt = none
  | .ageing, x => x.request.status.isWaiting
  | .advisory, x => x.request.status.isWaiting

def beginPass (a : α) (pass : Pass) (state : Option EngineState) (s : State α) : State α :=
  match s.place a with
  | .idle =>
    s.moveTo a (.reconciling pass state
      ((s.db.requests.items.map (join s.db)).filter (isSelected pass)))
  | _ => s

/-- `filter(id=req.id, status="scheduled", log_item_id=req.log_item_id)` -/
def isStillScheduled (read r : SongRequest) : Bool :=
  r.id = read.id ∧ r.status = .scheduled ∧ r.logItem = read.logItem

/-- `filter(id=req.id, status__in=WAITING_STATUSES)` -/
def isStillWaiting (read r : SongRequest) : Bool := r.id = read.id ∧ r.status.isWaiting

/-- The assignment is abandoned; a dedication's marker goes with it. -/
def abandon (status : Status) (resolvedAt : Option ℤ) (now : ℤ) : Assignment where
  apply r := { r with
    status := status, logItem := none, scheduledAt := none, fulfilledAt := none,
    resolvedAt := resolvedAt, estimatedPlayTime := none, introLogItem := none,
    statusUpdatedAt := now }
  keeps_id _ := rfl

def retire (status : Status) (now : ℤ) : Assignment where
  apply r := { r with
    status := status, estimatedPlayTime := none, resolvedAt := some now, statusUpdatedAt := now }
  keeps_id _ := rfl

def advise (status : Status) (estimate : Option ℤ) (now : ℤ) : Assignment where
  apply r := { r with status := status, estimatedPlayTime := estimate, statusUpdatedAt := now }
  keeps_id _ := rfl

def reestimate (estimate : Option ℤ) (now : ℤ) : Assignment where
  apply r := { r with estimatedPlayTime := estimate, statusUpdatedAt := now }
  keeps_id _ := rfl

/-- The update that a pass makes for one reading: its filter and its assignments. -/
def verdict (station : Station) (pass : Pass) (state : Option EngineState) (x : Reading) (now : ℤ)
    (available : Bool) (estimate : Option ℤ) : Option ((SongRequest → Bool) × Assignment) :=
  let read := x.request
  match pass with
  | .aired =>
    match x.item with
    | some item =>
      if item.track = read.track then
        some (fun r => isStillScheduled read r ∧ r.track = read.track, fulfil item.playedAt now)
      else some (isStillScheduled read, abandon .pending none now)
    | none => none
  | .stranded =>
    if ¬available then some (isStillScheduled read, abandon .unavailable (some now) now)
    else if classifyLogItem (x.item.bind fun item => x.log.map fun log => (item, log)) state =
          .stranded ∨ x.item.any fun item => item.track ≠ read.track then
      some (isStillScheduled read, abandon .pending none now)
    else none
  | .estimates =>
    if estimate ≠ read.estimatedPlayTime then
      some (isStillScheduled read, reestimate estimate now)
    else none
  | .ageing =>
    if ¬available then some (isStillWaiting read, retire .unavailable now)
    else if read.submittedAt ≤ now - 3600 * station.cfg.expireAfterHours then
      some (isStillWaiting read, retire .expired now)
    else none
  | .advisory =>
    let status := if estimate ≠ none then .pending else .noSlotSoon
    if status ≠ read.status ∨ estimate ≠ read.estimatedPlayTime then
      some (isStillWaiting read, advise status estimate now)
    else none

/-- The next reading's compare-and-set, which waits while another worker holds the row. -/
def resolve (station : Station) (a : α) (now : ℤ) (available : Bool) (estimate : Option ℤ)
    (s : State α) : State α :=
  match s.place a with
  | .reconciling pass state (x :: rows) =>
    if s.locks.owner (.request x.request.id) = none then
      match verdict station pass state x now available estimate with
      | some (condition, assignment) =>
        { s with db := s.db.update condition assignment }.moveTo a (.reconciling pass state rows)
      | none => s.moveTo a (.reconciling pass state rows)
    else s
  | .reconciling _ _ [] => s.moveTo a .idle
  | _ => s

/-- A new request is mirrored from the public site. -/
def newRequest (id : ℕ) (track : Option ℕ) (submittedAt now : ℤ) : SongRequest where
  id := id
  track := track
  submittedAt := submittedAt
  status := .pending
  logItem := none
  introLogItem := none
  scheduledAt := none
  fulfilledAt := none
  resolvedAt := none
  estimatedPlayTime := none
  statusUpdatedAt := now

def submit (id : ℕ) (track : Option ℕ) (submittedAt now : ℤ) (s : State α) : State α :=
  if h : id ∉ s.db.requests.keys then
    { s with db := { s.db with
      requests := s.db.requests.add (newRequest id track submittedAt now) h } }
  else s

/-- The worker whose step an event is; new requests and claims take no part in the locks. -/
def Event.worker : Event α → Option α
  | .submit .. => none
  | .claimPlayback .. => none
  | .beginScheduling a .. => some a
  | .lockItem a => some a
  | .askReserved a => some a
  | .countUsed a => some a
  | .pick a .. => some a
  | .collapse a _ => some a
  | .commit a => some a
  | .rollback a => some a
  | .lockAiring a _ => some a
  | .recordAirStart a .. => some a
  | .beginPass a .. => some a
  | .resolve a .. => some a

def step (station : Station) : Event α → State α → State α
  | .submit id track submittedAt now => submit id track submittedAt now
  | .claimPlayback item now => claimPlayback item now
  | .beginScheduling a item callerTrack callerKind now =>
    beginScheduling station a item callerTrack callerKind now
  | .lockItem a => lockItem station a
  | .askReserved a => askReserved a
  | .countUsed a => countUsed station a
  | .pick a eligible estimate => pick station a eligible estimate
  | .collapse a estimate => collapse a estimate
  | .commit a => commit a
  | .rollback a => rollback a
  | .lockAiring a item => lockAiring a item
  | .recordAirStart a deckTrack airedAt => recordAirStart a deckTrack airedAt
  | .beginPass a pass state => beginPass a pass state
  | .resolve a now available estimate => resolve station a now available estimate

end IsadoraAir.WebRequests
