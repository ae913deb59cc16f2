import IsadoraAir.Refill.FitFrame
import IsadoraAir.Refill.LogTable

/-!
# The guarded refill install

The whole install is one transaction: checks under the row locks, the new log
items, one ledger row, and a last look at the clock. An error anywhere leaves
the database as it was found.
-/

namespace IsadoraAir.Refill

variable {db : Database} {ctx : InstallContext} {rows : List LogItem} {positions : List ℕ}
  {table table' : LogTable} {placement : Placement} {s2 : PlaybackWindowSnapshot}
  {log : PlaylistLog} {proposal : RefillProposal} {k logId start : ℕ}

/-! ## The tables the transaction reads and writes -/

inductive LogStatus where
  | draft
  | approved
  deriving DecidableEq, Repr

structure PlaylistLog where
  id : ℕ
  date : ℕ
  hour : ℕ
  status : LogStatus
  deriving DecidableEq

structure Track where
  id : ℕ
  ready2air : Bool
  blockedSlots : List ℕ
  cueInSeconds : Option ℚ
  nextStartSeconds : Option ℚ
  durationSeconds : Option ℚ
  filepath : String
  title : String
  artistName : Option String
  categoryId : Option ℕ
  additionalCategories : List ℕ
  relatedArtists : String
  holidays : List String
  deriving DecidableEq

structure Category where
  id : ℕ
  kindCode : Option String
  deriving DecidableEq

inductive RequestStatus where
  | pending
  | noSlotSoon
  | scheduled
  | fulfilled
  | unavailable
  | expired
  deriving DecidableEq, Repr

structure SongRequest where
  status : RequestStatus
  trackId : Option ℕ
  logItemId : Option ℕ
  introLogItemId : Option ℕ
  deriving DecidableEq

def activeStatuses : List RequestStatus := [.pending, .noSlotSoon, .scheduled]

structure HourRefillPolicy where
  enabled : Bool
  dryRunOnly : Bool
  captureRequestSubstitution : Bool
  captureOperatorEject : Bool
  captureStartNext : Bool
  captureAutomaticSkip : Bool
  captureMediaFailure : Bool
  deriving DecidableEq

structure HourRefillInstall where
  id : ℕ
  installKey : String
  playlistLogIdSnapshot : ℕ
  logDate : ℕ
  logHour : ℕ
  causeIds : List ℕ
  placementMode : PlacementMode
  anchorLogItemId : Option ℕ
  installedLogItemIds : List ℕ
  trackIds : List ℕ
  netBeforeSeconds : ℚ
  residualAfterSeconds : ℚ
  safetyBudgetSeconds : ℚ
  engineInstance : String
  snapshotDigest : String
  deriving DecidableEq

/-- The append-only ledger; install keys are unique. -/
structure InstallLedger where
  rows : List HourRefillInstall
  keys : (rows.map HourRefillInstall.installKey).Nodup

structure Database where
  logs : List PlaylistLog
  items : LogTable
  installs : InstallLedger
  tracks : List Track
  categories : List Category
  requests : List SongRequest
  policy : Option HourRefillPolicy

/-- The ledger's insert: a positive budget, a placement mode and a net deficit
are required by its constraints. -/
def InstallLedger.insert (ledger : InstallLedger) (row : HourRefillInstall) :
    Except InstallError InstallLedger :=
  if row.safetyBudgetSeconds ≤ 0 then .error .integrityError
  else if h : row.installKey ∈ ledger.rows.map HourRefillInstall.installKey then
    .error .integrityError
  else .ok ⟨ledger.rows ++ [row], by
    rw [List.map_append, List.nodup_append]
    refine ⟨ledger.keys, List.nodup_singleton _, ?_⟩
    intro a ha b hb hab
    rw [List.map_singleton, List.mem_singleton] at hb
    exact h (hb ▸ hab ▸ ha)⟩

/-! ## The approved plan -/

structure ProposedItem where
  trackId : ℕ
  categoryId : ℕ
  deriving DecidableEq

/-- A proposal chooses one candidate for each music item and for the PSA. -/
structure RefillProposal where
  projection : RefillProjection
  placement : Placement
  music : List ProposedItem
  psa : Option ProposedItem
  chosen : List Candidate
  chosen_length : chosen.length = music.length + psa.toList.length

/-- Candidates in play order, with the slot category of each. -/
structure Planned where
  items : List Candidate
  categories : List ℕ
  sameLength : categories.length = items.length

def RefillProposal.planned (proposal : RefillProposal) : Planned :=
  { items := proposal.chosen
    categories := (proposal.music ++ proposal.psa.toList).map ProposedItem.categoryId
    sameLength := by rw [List.length_map, List.length_append, proposal.chosen_length] }

/-- What the attempt takes from outside the database: locks, clocks, sequence
values, hashing, and the calendar and artist lookups of other modules. -/
structure InstallContext where
  armed : Bool
  logLock : Option InstallError
  policyLock : Option InstallError
  commitClock : ℚ
  itemId : ℕ → ℕ
  installId : ℕ
  sha256 : String → String
  digest : PlaybackWindowSnapshot → String
  windowSlots : ℚ → Option ℚ → Except PyError (List ℕ)
  activeHolidaysAt : ℚ → List String
  trackIdentityKeys : Option String → String → List String

def maxCommitAgeSeconds : ℚ := 2
def shiftOffset : ℤ := 100000
def psaCategoryKind : String := "spot"

def HourRefillPolicy.switch (row : HourRefillPolicy) : CauseType → Bool
  | .requestSubstitution => row.captureRequestSubstitution
  | .operatorEject => row.captureOperatorEject
  | .startNext => row.captureStartNext
  | .automaticSkip => row.captureAutomaticSkip
  | .mediaFailure => row.captureMediaFailure

/-- A missing policy row is Off. -/
def installPermitted (policy : Option HourRefillPolicy) (armed : Bool)
    (causeTypes : List CauseType) : Bool :=
  policy.elim false fun row =>
    row.enabled && !row.dryRunOnly && armed && causeTypes.all row.switch

def causeTypes (projection : RefillProjection) : List CauseType :=
  (projection.qualifiedCauses.map QualifiedCause.causeType).dedup

def installKeyFor (sha256 : String → String) (logId : Option ℕ) (causeIds : List ℕ) : String :=
  let canonical := ",".intercalate ((causeIds.insertionSort (· ≤ ·)).map toString)
  let log := logId.elim "None" toString
  "refill:log" ++ log ++ ":causes:" ++ ((sha256 canonical).take 40).toString

/-- `round(x, 3)`: ties go to the even neighbour. -/
def roundMillis (x : ℚ) : ℚ :=
  let floor := (x * 1000).floor
  let rest := x * 1000 - floor
  let nearest := if rest < 1 / 2 ∨ rest = 1 / 2 ∧ floor % 2 = 0 then floor else floor + 1
  (nearest : ℚ) / 1000

/-- `if not condition: raise _Abort(status, reason)` -/
def require (condition : Bool) (status : InstallStatus) (reason : String) :
    Except InstallError Unit :=
  if condition then .ok () else .error (.abort status reason)

def acquire (lock : Option InstallError) : Except InstallError Unit :=
  lock.elim (.ok ()) .error

def liftPy {α : Type} (x : Except PyError α) : Except InstallError α :=
  x.mapError .python

/-- A row the engine has claimed or aired. -/
def LogItem.started (row : LogItem) : Bool :=
  row.playbackClaimedAt.isSome || row.playedAt.isSome

/-! ## Checks and writes -/

/-- The order of checks for one planned item. A track that is gone passes the
first ones and fails as changed. -/
def checkItem (ctx : InstallContext) (db : Database) (slots : List ℕ) (expectedKind : String)
    (candidate : Candidate) (categoryId : ℕ) : Except InstallError Unit := do
  let track := db.tracks.find? fun t => t.id = candidate.trackId
  let kind := (db.categories.find? fun c => c.id = categoryId).bind Category.kindCode
  require (kind = some expectedKind) .stale "category_changed"
  require (track.elim true fun t =>
    t.categoryId = some categoryId ∨ categoryId ∈ t.additionalCategories)
    .stale "category_membership_changed"
  require (track.elim true fun t => ∀ slot ∈ slots, slot ∉ t.blockedSlots)
    .stale "track_restricted"
  require (track.elim false fun t =>
    t.ready2air ∧ t.filepath = candidate.filepath ∧ t.cueInSeconds.getD 0 = candidate.cueIn ∧
      t.nextStartSeconds.or t.durationSeconds = some candidate.endPoint)
    .stale "track_changed"
  require (track.elim false fun t =>
    let keys := ctx.trackIdentityKeys t.artistName t.relatedArtists
    keys ⊆ candidate.identityKeys ∧ candidate.identityKeys ⊆ keys)
    .stale "track_identity_changed"

/-- The loop over the planned items; `index` counts them. -/
def checkItems (ctx : InstallContext) (db : Database) (slots : List ℕ) (musicCount : ℕ) :
    ℕ → List (Candidate × ℕ) → Except InstallError Unit
  | _, [] => .ok ()
  | index, (candidate, categoryId) :: rest => do
    let expectedKind := if index < musicCount then "music" else psaCategoryKind
    checkItem ctx db slots expectedKind candidate categoryId
    checkItems ctx db slots musicCount (index + 1) rest

/-- Shift the closing block up by `k` in two passes; the freed positions are
returned with the table. -/
def openGap (db : Database) (log : PlaylistLog) (rows : List LogItem) (placement : Placement)
    (s2 : PlaybackWindowSnapshot) (k : ℕ) : Except InstallError (List ℕ × LogTable) := do
  match placement.anchorLogItemId.bind fun anchor => rows.findIdx? fun row => row.id = anchor with
  | none => .error (.abort .noSafeAnchor "anchor_missing")
  | some index =>
    let block := rows.drop index
    match block with
    | [] => .error (.python .indexError)
    | anchor :: _ => do
      let snapshotIds := s2.queue.map ItemTiming.logItemId
      require (anchor.id ∈ snapshotIds ∧
        block.map LogItem.id = snapshotIds.drop (snapshotIds.idxOf anchor.id))
        .noSafeAnchor "closing_block_changed"
      require (!block.any LogItem.started) .noSafeAnchor "closing_block_claimed"
      let blockIds := block.map LogItem.id
      require (!db.requests.any fun request =>
        (request.logItemId.any (· ∈ blockIds)) || (request.introLogItemId.any (· ∈ blockIds)))
        .noSafeAnchor "closing_block_request_link"
      let lifted ← db.items.updatePosition
        (fun row => row.playlistLogId = log.id ∧ anchor.position ≤ row.position) shiftOffset
      let table ← lifted.updatePosition
        (fun row => row.playlistLogId = log.id ∧ anchor.position + shiftOffset ≤ row.position)
        (-(shiftOffset - k))
      .ok ((List.range k).map (anchor.position + ·), table)

/-- The free positions after the last row. -/
def tailPositions (rows : List LogItem) (placement : Placement) (k : ℕ) :
    Except InstallError (List ℕ) :=
  match rows.getLast? with
  | none => .error (.abort .stale "tail_changed")
  | some last =>
    if placement.afterLogItemId = some last.id then
      .ok ((List.range k).map (last.position + 1 + ·))
    else .error (.abort .stale "tail_changed")

def newPositions (db : Database) (log : PlaylistLog) (rows : List LogItem) (placement : Placement)
    (s2 : PlaybackWindowSnapshot) (k : ℕ) : Except InstallError (List ℕ × LogTable) :=
  if placement.mode = some .insertBefore then openGap db log rows placement s2 k
  else do
    let positions ← tailPositions rows placement k
    .ok (positions, db.items)

/-- The rows to create, each starting when the one before it has aired. -/
def newRows (ctx : InstallContext) (tracks : List Track) (logId : ℕ) :
    ℕ → ℚ → List (Candidate × ℕ × ℕ) → List LogItem
  | _, _, [] => []
  | index, start, (candidate, categoryId, position) :: rest =>
    let track := tracks.find? fun t => t.id = candidate.trackId
    { id := ctx.itemId index
      playlistLogId := logId
      position := position
      scheduledTime := start
      trackId := some candidate.trackId
      trackTitle := track.elim "" Track.title
      trackArtist := (track.bind Track.artistName).getD ""
      categoryId := some categoryId
      playbackClaimedAt := none
      playedAt := none
      origin := some .refillInstalled } ::
    newRows ctx tracks logId (index + 1) (start + candidate.effective) rest

def insertRows : List LogItem → LogTable → Except InstallError LogTable
  | [], table => .ok table
  | row :: rest, table => do
    let table ← table.insert row
    insertRows rest table

structure InstallResult where
  status : InstallStatus
  reasons : List String
  installKey : String
  installId : ℕ
  logId : ℕ
  placementMode : Option PlacementMode
  anchorLogItemId : Option ℕ
  installedLogItemIds : List ℕ
  trackIds : List ℕ
  netBeforeSeconds : Option ℚ
  residualBeyondBudgetSeconds : ℚ
  safetyBudgetSeconds : ℚ
  insertionLeadSeconds : ℚ
  deriving DecidableEq

/-- A column that must not be null. -/
def notNull {α : Type} (x : Option α) : Except InstallError α :=
  x.elim (.error .integrityError) .ok

/-- The reads under the locks, up to the first write: the log and its rows. -/
def commitChecks (ctx : InstallContext) (s2 : PlaybackWindowSnapshot) (proposal : RefillProposal)
    (planned : Planned) (key : String) (db : Database) :
    Except InstallError (PlaylistLog × List LogItem) := do
  acquire ctx.logLock
  match db.logs.find? fun log => some log.id = s2.activeLogId with
  | none => .error .doesNotExist
  | some log => do
    acquire ctx.policyLock
    require (installPermitted db.policy ctx.armed (causeTypes proposal.projection))
      .policyRefused "policy_changed_before_commit"
    require (!db.installs.rows.any fun row => row.installKey = key)
      .duplicate "install_key_exists"
    require (log.status = .approved ∧ some log.date = s2.activeLogDate ∧
      some log.hour = s2.activeLogHour) .stale "log_changed"
    let rows := db.items.ofLog log.id
    let visible := rows.filter fun row => !poisonGuarded s2.poisonSkip (some log.id) row.id
    require ((visible.map fun row => (row.id, some row.position, row.trackId, row.categoryId)) =
      s2.queue.map fun it => (it.logItemId, it.position, it.trackId, it.categoryId))
      .stale "rows_changed"
    let pending := (sliceFrom s2.queue s2.cursor).map ItemTiming.logItemId
    require (!visible.any fun row => row.id ∈ pending ∧ row.started) .stale "engine_advanced"
    let slots ← liftPy (ctx.windowSlots s2.capturedAt proposal.projection.boundaryInstant)
    checkItems ctx db slots proposal.music.length 0 (planned.items.zip planned.categories)
    let trackIds := planned.items.map Candidate.trackId
    let holidays := ctx.activeHolidaysAt s2.capturedAt
    require (!db.tracks.any fun t => t.id ∈ trackIds ∧ t.holidays.any (· ∈ holidays))
      .stale "track_holiday_changed"
    require (!db.requests.any fun request =>
      request.status ∈ activeStatuses ∧ request.trackId.any (· ∈ trackIds))
      .stale "track_requested"
    .ok (log, rows)

/-- The body of the transaction. -/
def commitBody (ctx : InstallContext) (s2 : PlaybackWindowSnapshot) (proposal : RefillProposal)
    (planned : Planned) (frame : FitFrame) (lead received : ℚ) (db : Database) :
    Except InstallError (InstallResult × Database) := do
  let placement := proposal.placement
  let causeIds := proposal.projection.qualifiedCauses.map QualifiedCause.causeId
  let key := installKeyFor ctx.sha256 s2.activeLogId causeIds
  let trackIds := planned.items.map Candidate.trackId
  let k := planned.items.length
  let (log, rows) ← commitChecks ctx s2 proposal planned key db
  let (positions, table) ← newPositions db log rows placement s2 k
  let first ← liftPy (planned.items.head?.elim (.error .indexError) .ok)
  let insertionLead ← liftPy (frame.insertionLead first)
  let created := newRows ctx db.tracks log.id 0 (s2.capturedAt + insertionLead)
    (planned.items.zip (planned.categories.zip positions))
  let table ← insertRows created table
  let window ← liftPy (frame.window.elim (.error .typeError) .ok)
  let total ← liftPy (frame.total planned.items)
  let mode ← notNull placement.mode
  let netBefore ← notNull proposal.projection.netShortageSeconds
  let ledger ← db.installs.insert
    { id := ctx.installId
      installKey := key
      playlistLogIdSnapshot := log.id
      logDate := log.date
      logHour := log.hour
      causeIds := causeIds
      placementMode := mode
      anchorLogItemId := placement.anchorLogItemId
      installedLogItemIds := created.map LogItem.id
      trackIds := trackIds
      netBeforeSeconds := netBefore
      residualAfterSeconds := roundMillis (window - total)
      safetyBudgetSeconds := frame.reserve k
      engineInstance := s2.engineInstance
      snapshotDigest := ctx.digest s2 }
  require (ctx.commitClock - received ≤ maxCommitAgeSeconds) .stale "snapshot_too_old_at_commit"
  .ok (
    { status := .installed
      reasons := ["committed"]
      installKey := key
      installId := ctx.installId
      logId := log.id
      placementMode := placement.mode
      anchorLogItemId := placement.anchorLogItemId
      installedLogItemIds := created.map LogItem.id
      trackIds := trackIds
      netBeforeSeconds := proposal.projection.netShortageSeconds
      residualBeyondBudgetSeconds := roundMillis (window - total)
      safetyBudgetSeconds := frame.reserve k
      insertionLeadSeconds := roundMillis lead },
    { db with items := table, installs := ledger })

/-- `transaction.atomic`: what the body wrote is kept only if it returns. -/
def atomic {α : Type} (body : Database → Except InstallError (α × Database)) (db : Database) :
    Except InstallError α × Database :=
  match body db with
  | .ok (a, db') => (.ok a, db')
  | .error e => (.error e, db)

/-- The `except` clauses around the transaction. -/
def asAbort : InstallError → InstallError
  | .integrityError => .abort .duplicate "integrity_conflict"
  | .operationalError code =>
    .abort .lockContended (if code = some "55P03" ∨ code = some "40P01"
      then "lock_timeout_or_deadlock" else "database_operational_error")
  | e => e

def commit (ctx : InstallContext) (s2 : PlaybackWindowSnapshot) (proposal : RefillProposal)
    (planned : Planned) (frame : FitFrame) (lead received : ℚ) (db : Database) :
    Except InstallError InstallResult × Database :=
  let (result, db) := atomic (commitBody ctx s2 proposal planned frame lead received) db
  (result.mapError asAbort, db)

/-! ## What a committed install did -/

theorem find_of_commitChecks
    {planned : Planned} {key : String}

    (h : commitChecks ctx s2 proposal planned key db = .ok (log, rows)) :
    s2.activeLogId = some log.id ∧ log.status = .approved ∧ rows = db.items.ofLog log.id := by
  obtain ⟨-, -, h⟩ := bind_eq_ok.mp h
  cases hfind : db.logs.find? fun log => some log.id = s2.activeLogId with
  | none => rw [hfind] at h; cases h
  | some found =>
    rw [hfind] at h
    obtain ⟨-, -, h⟩ := bind_eq_ok.mp h
    obtain ⟨-, -, h⟩ := bind_eq_ok.mp h
    obtain ⟨-, -, h⟩ := bind_eq_ok.mp h
    obtain ⟨_, hlog, h⟩ := bind_eq_ok.mp h
    obtain ⟨-, -, h⟩ := bind_eq_ok.mp h
    obtain ⟨-, -, h⟩ := bind_eq_ok.mp h
    obtain ⟨slots, -, h⟩ := bind_eq_ok.mp h
    obtain ⟨-, -, h⟩ := bind_eq_ok.mp h
    obtain ⟨-, -, h⟩ := bind_eq_ok.mp h
    obtain ⟨-, -, h⟩ := bind_eq_ok.mp h
    cases h
    have hid : some log.id = s2.activeLogId := by
      simpa using List.find?_some hfind
    have hstatus : log.status = .approved := by
      unfold require at hlog
      split_ifs at hlog with hcond
      exact (of_decide_eq_true hcond).1
    exact ⟨hid.symm, hstatus, rfl⟩

/-- Where the freed positions are, and what is known of the rows around them. -/
structure InsertionSite (placement : Placement) (rows before after : List LogItem)
    (start : ℕ) : Prop where
  rows_eq : rows = before ++ after
  anchored : placement.mode = some .insertBefore → ∃ anchor rest, after = anchor :: rest ∧
    placement.anchorLogItemId = some anchor.id ∧ start = anchor.position
  appended : placement.mode ≠ some .insertBefore → after = [] ∧ ∃ last,
    before.getLast? = some last ∧ placement.afterLogItemId = some last.id ∧
      start = last.position + 1

/-- The ordered rows before the site are below its first position, the others
are not. -/
theorem InsertionSite.split {before after : List LogItem}
    (h : InsertionSite placement rows before after start)
    (hrows : rows.Pairwise fun a b => a.position < b.position) :
    (∀ row ∈ before, row.position < start) ∧ ∀ row ∈ after, start ≤ row.position := by
  rw [h.rows_eq] at hrows
  obtain ⟨hbefore, hafter, hcross⟩ := List.pairwise_append.mp hrows
  by_cases hmode : placement.mode = some .insertBefore
  · obtain ⟨anchor, rest, rfl, -, rfl⟩ := h.anchored hmode
    refine ⟨fun row hrow => hcross row hrow anchor List.mem_cons_self, ?_⟩
    intro row hrow
    rcases List.mem_cons.mp hrow with rfl | hrow
    · exact le_refl _
    · exact le_of_lt ((List.pairwise_cons.mp hafter).1 row hrow)
  · obtain ⟨rfl, last, hlast, -, rfl⟩ := h.appended hmode
    refine ⟨fun row hrow => ?_, fun row hrow => nomatch hrow⟩
    obtain ⟨init, rfl⟩ := List.getLast?_eq_some_iff.mp hlast
    rcases List.mem_append.mp hrow with hrow | hrow
    · have := (List.pairwise_append.mp hbefore).2.2 row hrow last (List.mem_singleton_self _)
      omega
    · rw [List.mem_singleton.mp hrow]
      omega

/-- The two passes together make room for `k` rows. -/
theorem rows_of_twoPasses {lifted : LogTable}
    (hlift : table.updatePosition (fun row => row.playlistLogId = logId ∧ start ≤ row.position)
      shiftOffset = .ok lifted)
    (hsettle : lifted.updatePosition
      (fun row => row.playlistLogId = logId ∧ start + shiftOffset ≤ row.position)
      (-(shiftOffset - k)) = .ok table') :
    table'.rows = table.rows.map (LogTable.makeRoom logId start k) := by
  rw [LogTable.rows_of_updatePosition hsettle, LogTable.rows_of_updatePosition hlift,
    List.map_map]
  apply List.map_congr_left
  intro row _
  simp only [Function.comp_apply, decide_eq_true_eq, LogTable.makeRoom, LogTable.moved,
    shiftOffset]
  by_cases hroom : row.playlistLogId = logId ∧ start ≤ row.position
  · have hpos : ((row.position : ℤ) + 100000).toNat = row.position + 100000 := by omega
    have hback : ((row.position : ℤ) + k).toNat = row.position + k := by omega
    simp [hroom, hpos, hback]
  · have hlow : ¬ (row.playlistLogId = logId ∧ (start : ℤ) + 100000 ≤ row.position) :=
      fun h => hroom ⟨h.1, by omega⟩
    simp [hroom, hlow]

theorem openGap_spec

    (hmode : placement.mode = some .insertBefore)
    (h : openGap db log rows placement s2 k = .ok (positions, table)) :
    ∃ before after start, InsertionSite placement rows before after start ∧
      positions = (List.range k).map (start + ·) ∧
      table.rows = db.items.rows.map (LogTable.makeRoom log.id start k) := by
  unfold openGap at h
  cases hindex : placement.anchorLogItemId.bind
      fun anchor => rows.findIdx? fun row => row.id = anchor with
  | none => rw [hindex] at h; cases h
  | some index =>
    rw [hindex] at h
    obtain ⟨anchorId, hanchorId, hindex⟩ := Option.bind_eq_some_iff.mp hindex
    cases hblock : rows.drop index with
    | nil => simp only [hblock] at h; cases h
    | cons anchor rest =>
      simp only [hblock] at h
      obtain ⟨-, -, h⟩ := bind_eq_ok.mp h
      obtain ⟨-, -, h⟩ := bind_eq_ok.mp h
      obtain ⟨-, -, h⟩ := bind_eq_ok.mp h
      obtain ⟨lifted, hlift, h⟩ := bind_eq_ok.mp h
      obtain ⟨settled, hsettle, h⟩ := bind_eq_ok.mp h
      cases h
      have hid : anchor.id = anchorId := by
        obtain ⟨hlt, hid, -⟩ := List.findIdx?_eq_some_iff_getElem.mp hindex
        rw [List.drop_eq_getElem_cons hlt] at hblock
        cases hblock
        exact of_decide_eq_true hid
      refine ⟨rows.take index, anchor :: rest, anchor.position, ⟨?_, ?_, ?_⟩, rfl,
        rows_of_twoPasses hlift hsettle⟩
      · rw [← hblock, List.take_append_drop]
      · exact fun _ => ⟨anchor, rest, rfl, hid ▸ hanchorId, rfl⟩
      · exact fun hne => absurd hmode hne

theorem newPositions_spec

    (h : newPositions db log (db.items.ofLog log.id) placement s2 k = .ok (positions, table)) :
    ∃ before after start,
      InsertionSite placement (db.items.ofLog log.id) before after start ∧
      positions = (List.range k).map (start + ·) ∧
      table.rows = db.items.rows.map (LogTable.makeRoom log.id start k) := by
  unfold newPositions at h
  split_ifs at h with hmode
  · exact openGap_spec hmode h
  · obtain ⟨found, hfound, h⟩ := bind_eq_ok.mp h
    cases h
    unfold tailPositions at hfound
    cases hlast : (db.items.ofLog log.id).getLast? with
    | none => rw [hlast] at hfound; cases hfound
    | some last =>
      simp only [hlast] at hfound
      split_ifs at hfound with hafter
      cases hfound
      have hsite : InsertionSite placement (db.items.ofLog log.id) (db.items.ofLog log.id) []
          (last.position + 1) :=
        ⟨(List.append_nil _).symm, fun h => absurd h hmode,
          fun _ => ⟨rfl, last, hlast, hafter, rfl⟩⟩
      refine ⟨_, [], last.position + 1, hsite, rfl, ?_⟩
      refine ((List.map_congr_left fun row hrow => ?_).trans (List.map_id _)).symm
      refine if_neg fun hroom => ?_
      have := (hsite.split (db.items.ofLog_pairwise _)).1 row
        (LogTable.mem_ofLog.mpr ⟨hrow, hroom.1⟩)
      omega

theorem rows_of_insertRows {created : List LogItem}
    (h : insertRows created table = .ok table') : table'.rows = table.rows ++ created := by
  induction created generalizing table with
  | nil => cases h; exact (List.append_nil _).symm
  | cons row rest ih =>
    obtain ⟨mid, hmid, h⟩ := bind_eq_ok.mp h
    rw [ih h, LogTable.rows_of_insert hmid, List.append_assoc, List.singleton_append]

theorem newRows_position (ctx : InstallContext) (tracks : List Track) (logId index : ℕ)
    (start : ℚ) (plan : List (Candidate × ℕ × ℕ)) :
    (newRows ctx tracks logId index start plan).map LogItem.position =
      plan.map fun item => item.2.2 := by
  induction plan generalizing index start with
  | nil => rfl
  | cons item rest ih => rw [newRows, List.map_cons, ih, List.map_cons]

theorem newRows_trackId (ctx : InstallContext) (tracks : List Track) (logId index : ℕ)
    (start : ℚ) (plan : List (Candidate × ℕ × ℕ)) :
    (newRows ctx tracks logId index start plan).map LogItem.trackId =
      plan.map fun item => some item.1.trackId := by
  induction plan generalizing index start with
  | nil => rfl
  | cons item rest ih => rw [newRows, List.map_cons, ih, List.map_cons]

theorem newRows_playlistLogId {tracks : List Track} {index : ℕ}
    {start : ℚ} {plan : List (Candidate × ℕ × ℕ)} {row : LogItem}
    (h : row ∈ newRows ctx tracks logId index start plan) : row.playlistLogId = logId := by
  induction plan generalizing index start with
  | nil => cases h
  | cons item rest ih =>
    rcases List.mem_cons.mp h with rfl | h
    · rfl
    · exact ih h

/-- Zipping three lists of one length loses nothing. -/
theorem map_zip_zip {α β γ : Type*} {xs : List α} {ys : List β} {zs : List γ}
    (hy : ys.length = xs.length) (hz : zs.length = xs.length) :
    (xs.zip (ys.zip zs)).map (fun item => item.1) = xs ∧
      (xs.zip (ys.zip zs)).map (fun item => item.2.2) = zs := by
  have hlength : (ys.zip zs).length = xs.length := by
    rw [List.length_zip, hy, hz, min_self]
  have hthird : (ys.zip zs).map Prod.snd = zs := List.map_snd_zip (by omega)
  have hsecond : (xs.zip (ys.zip zs)).map Prod.snd = ys.zip zs := List.map_snd_zip (by omega)
  refine ⟨List.map_fst_zip (by omega), ?_⟩
  calc (xs.zip (ys.zip zs)).map (fun item => item.2.2)
      = ((xs.zip (ys.zip zs)).map Prod.snd).map Prod.snd := by rw [List.map_map]; rfl
    _ = zs := by rw [hsecond, hthird]

/-- The new rows take the plan's tracks in play order and the free positions
in increasing order. -/
theorem newRows_spec (ctx : InstallContext) (tracks : List Track) (logId : ℕ) (start : ℚ)
    (planned : Planned) (h : positions.length = planned.items.length) :
    let created := newRows ctx tracks logId 0 start
      (planned.items.zip (planned.categories.zip positions))
    created.map LogItem.position = positions ∧
      created.map LogItem.trackId = planned.items.map fun c => some c.trackId := by
  intro created
  obtain ⟨hfirst, hthird⟩ := map_zip_zip planned.sameLength h
  constructor
  · rw [newRows_position, hthird]
  · conv_rhs => rw [← hfirst, List.map_map]
    rw [newRows_trackId]
    rfl

/-- The ordered rows of the log around an install: the same rows before the
site, one new row for each planned item, and the closing block moved up. -/
structure Installed (placement : Placement) (planned : Planned)
    (rows rows' before created after : List LogItem) (start : ℕ) : Prop where
  site : InsertionSite placement rows before after start
  rows_eq : rows' = before ++
    (created ++ after.map fun row => row.atPosition (row.position + created.length))
  increasing : rows'.Pairwise fun a b => a.position < b.position
  consecutive : created.map LogItem.position = (List.range created.length).map (start + ·)
  playOrder : created.map LogItem.trackId = planned.items.map fun c => some c.trackId

theorem InstallLedger.rows_of_insert {ledger ledger' : InstallLedger} {row : HourRefillInstall}
    (h : ledger.insert row = .ok ledger') : ledger'.rows = ledger.rows ++ [row] := by
  unfold InstallLedger.insert at h
  split_ifs at h
  cases h
  rfl

theorem commitBody_spec
    {planned : Planned} {frame : FitFrame} {lead received : ℚ}
    {db' : Database} {result : InstallResult}
    (h : commitBody ctx s2 proposal planned frame lead received db = .ok (result, db')) :
    ∃ log before created after start, s2.activeLogId = some log ∧
      Installed proposal.placement planned (db.items.ofLog log) (db'.items.ofLog log)
        before created after start ∧
      (∀ other ≠ log, db'.items.ofLog other = db.items.ofLog other) ∧
      result.installedLogItemIds = created.map LogItem.id ∧
      ∃ entry, db'.installs.rows = db.installs.rows ++ [entry] ∧
        entry.installedLogItemIds = created.map LogItem.id := by
  obtain ⟨⟨log, rows⟩, hchecks, h⟩ := bind_eq_ok.mp h
  obtain ⟨hlog, -, rfl⟩ := find_of_commitChecks hchecks
  obtain ⟨⟨positions, room⟩, hpositions, h⟩ := bind_eq_ok.mp h
  obtain ⟨before, after, start, hsite, rfl, hroom⟩ := newPositions_spec hpositions
  obtain ⟨first, -, h⟩ := bind_eq_ok.mp h
  obtain ⟨insertionLead, -, h⟩ := bind_eq_ok.mp h
  obtain ⟨table, htable, h⟩ := bind_eq_ok.mp h
  obtain ⟨window, -, h⟩ := bind_eq_ok.mp h
  obtain ⟨total, -, h⟩ := bind_eq_ok.mp h
  obtain ⟨mode, -, h⟩ := bind_eq_ok.mp h
  obtain ⟨netBefore, -, h⟩ := bind_eq_ok.mp h
  obtain ⟨ledger, hledger, h⟩ := bind_eq_ok.mp h
  obtain ⟨-, -, h⟩ := bind_eq_ok.mp h
  cases h
  have hcount : ((List.range planned.items.length).map (start + ·)).length =
      planned.items.length := by simp
  obtain ⟨hpos, htrack⟩ := newRows_spec ctx db.tracks log.id (s2.capturedAt + insertionLead)
    planned hcount
  set created := newRows ctx db.tracks log.id 0 (s2.capturedAt + insertionLead)
    (planned.items.zip
      (planned.categories.zip ((List.range planned.items.length).map (start + ·))))
  have hlength : created.length = planned.items.length := by
    simpa using congrArg List.length htrack
  have hspliced : LogTable.SplicedAt db.items table log.id start created :=
    ⟨by rw [rows_of_insertRows htable, hroom, hlength],
      fun _ => newRows_playlistLogId, by rw [hpos, hlength]⟩
  obtain ⟨hbefore, hafter⟩ := hsite.split (db.items.ofLog_pairwise _)
  refine ⟨log.id, before, created, after, start, hlog,
    ⟨hsite, hspliced.ofLog_eq hsite.rows_eq hbefore hafter, table.ofLog_pairwise _,
      hspliced.positions, htrack⟩, fun _ => hspliced.ofLog_other, rfl, _,
    InstallLedger.rows_of_insert hledger, rfl⟩

/-- An install that aborts leaves the database as it was. One that commits
splices the planned rows, consecutive and in play order, directly before the
anchor or after the last row. -/
theorem commit_splices_or_leaves (ctx : InstallContext) (s2 : PlaybackWindowSnapshot)
    (proposal : RefillProposal) (planned : Planned) (frame : FitFrame) (lead received : ℚ)
    (db : Database) :
    (∀ error, (commit ctx s2 proposal planned frame lead received db).1 = .error error →
      (commit ctx s2 proposal planned frame lead received db).2 = db) ∧
    ∀ result, (commit ctx s2 proposal planned frame lead received db).1 = .ok result →
      ∃ log before created after start, s2.activeLogId = some log ∧
        Installed proposal.placement planned (db.items.ofLog log)
          ((commit ctx s2 proposal planned frame lead received db).2.items.ofLog log)
          before created after start ∧
        (∀ other ≠ log,
          (commit ctx s2 proposal planned frame lead received db).2.items.ofLog other =
            db.items.ofLog other) ∧
        result.installedLogItemIds = created.map LogItem.id ∧
        ∃ entry,
          (commit ctx s2 proposal planned frame lead received db).2.installs.rows =
            db.installs.rows ++ [entry] ∧
          entry.installedLogItemIds = created.map LogItem.id := by
  unfold commit atomic
  cases hbody : commitBody ctx s2 proposal planned frame lead received db with
  | error e => exact ⟨fun _ _ => rfl, fun _ h => nomatch h⟩
  | ok done =>
    obtain ⟨result, db'⟩ := done
    refine ⟨fun _ h => (nomatch h), fun result' h => ?_⟩
    cases h
    exact commitBody_spec hbody

def sampleItem (id : ℕ) : LogItem :=
  ⟨id, 1, id, 0, some id, "", "", none, none, none, some .generatedSchedule⟩

/-- Three rows of an approved hour; the first is hidden from the queue. -/
def sampleDatabase : Database where
  logs := [⟨1, 20000, 10, .approved⟩]
  items := ⟨[sampleItem 3, sampleItem 1, sampleItem 2], by decide, by decide⟩
  installs := ⟨[], List.nodup_nil⟩
  tracks := [⟨9, true, [], none, none, some 150, "a.flac", "A", some "b", some 4, [], "", []⟩]
  categories := [⟨4, some "music"⟩]
  requests := []
  policy := some ⟨true, false, false, true, false, false, false⟩

def sampleContext : InstallContext where
  armed := true
  logLock := none
  policyLock := none
  commitClock := 1
  itemId := (100 + ·)
  installId := 1
  sha256 := id
  digest := fun _ => ""
  windowSlots := fun _ _ => .ok []
  activeHolidaysAt := fun _ => []
  trackIdentityKeys := fun _ _ => ["b"]

def sampleProposal : RefillProposal where
  projection := ⟨some 600, some 600, some 200, [⟨7, .operatorEject⟩]⟩
  placement := samplePlacement
  music := [⟨9, 4⟩]
  psa := none
  chosen := [⟨9, 4, 0, 0, 150, 150, ["b"], "a.flac"⟩]
  chosen_length := rfl

def sampleFrame : FitFrame :=
  ⟨some 600, 361 / 4, ⟨2, 3, some 180, none, .queue⟩, some 12, 673 / 4, 1 / 4, 2, 5, 1⟩

def sampleCommit : Except InstallError InstallResult × Database :=
  commit sampleContext
    { sampleSnapshot with
      activeLogDate := some 20000, activeLogHour := some 10, poisonSkip := [(some 1, 1)] }
    sampleProposal sampleProposal.planned sampleFrame 30 0 sampleDatabase

theorem commit_splices_or_leaves_sample : ∃ result log before created after start,
    sampleCommit.1 = .ok result ∧
    Installed samplePlacement sampleProposal.planned (sampleDatabase.items.ofLog log)
      (sampleCommit.2.items.ofLog log) before created after start ∧
    result.installedLogItemIds = created.map LogItem.id := by
  have hok : sampleCommit.1.toBool = true := by decide +kernel
  cases hresult : sampleCommit.1 with
  | error e => rw [hresult] at hok; cases hok
  | ok result =>
    obtain ⟨log, before, created, after, start, -, hinstalled, -, hids, -⟩ :=
      (commit_splices_or_leaves _ _ _ _ _ _ _ _).2 result hresult
    exact ⟨result, log, before, created, after, start, rfl, hinstalled, hids⟩

end IsadoraAir.Refill
