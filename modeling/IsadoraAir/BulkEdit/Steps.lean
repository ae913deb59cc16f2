import IsadoraAir.BulkEdit.Requests
import IsadoraAir.Foundation.Crew

/-!
# Steps of bulk edits

What each action does to the Tracks, the sessions and the claim markers. The
transaction of one Track is one step: it holds the lock of the row.
-/

namespace IsadoraAir.BulkEdit

variable {ρ α : Type}

/-- A Track that an apply has written: its job, the rows before and after. -/
structure Edit (ρ : Type) where
  job : Job
  before : Db ρ
  after : Db ρ

/-- A write of a Track; `none` is that of another program. -/
structure Write (ρ : Type) where
  id : ℕ
  after : Option (Track ρ)
  edit : Option (Edit ρ)

/-- What the agents `α` share. The last six only tell what has happened. -/
structure Shared (ρ α : Type) where
  db : Db ρ
  clock : ℤ
  sessions : Dict String Pending
  /-- The rows of `django_session` that mark a nonce as claimed, with `expire_date`. -/
  markers : Dict String ℤ
  tokens : List Claims
  copies : List (String × Pending)
  records : Dict String Record
  spent : List String
  holding : α → Option String
  redeemed : List String
  prepared : List (Targets × Db ρ)
  log : List (Write ρ)

/-- What the outside decides about an action. -/
structure Decision where
  /-- `secrets.token_urlsafe(16)` -/
  nonce : String
  /-- A write guard refuses. -/
  guard : Option String
  /-- Something raises before the commit. -/
  fault : Option Problem
  commit : Commit

/-- How long a claim marker stays. -/
def markerLifetime : ℤ := tokenMaxAge + 300 * 1000000

def wholeSeconds (time : ℤ) : ℤ := time / 1000000 * 1000000

variable (cfg : Config)

def claimKey (nonce : String) : String :=
  "bulkedit:" ++ String.ofList ((cfg.nonceDigest nonce).toList.take 31)

def unexpired (markers : Dict String ℤ) (now : ℤ) : Dict String ℤ :=
  ⟨markers.items.filter fun item => now ≤ item.2,
    markers.nodup.sublist (List.filter_sublist.map _)⟩

/-! ## Sessions -/

/-- `PENDING_PREVIEWS` -/
def pendingPreviews : ℕ := 3

/-- Expired previews are dropped, then the oldest ones but for three. -/
def keepLatest (pending : Pending) : List String :=
  let order := pending.items.insertionSort fun x y => x.2.issued ≤ y.2.issued
  (order.drop (order.length - pendingPreviews)).map Prod.fst

def restrict (pending : Pending) (p : String × Record → Bool) : Pending :=
  ⟨pending.items.filter p, pending.nodup.sublist (List.filter_sublist.map _)⟩

def addPreview (pending : Pending) (now : ℤ) (nonce : String) (record : Record) : Pending :=
  let live := restrict pending fun item => now - item.2.issued ≤ tokenMaxAge
  let added := live.insert nonce record
  restrict added fun item => item.1 ∈ keepLatest added

/-- The session's row is written; a request may have loaded it. -/
def Shared.setSession (s : Shared ρ α) (session : String) (pending : Pending) : Shared ρ α :=
  { s with
    sessions := s.sessions.insert session pending
    copies := s.copies ++ [(session, pending)] }

def issue (s : Shared ρ α) (session nonce : String) (record : Record) :
    Option String × Shared ρ α :=
  match s.sessions.get? session with
  | none => (none, s)
  | some pending =>
    (some nonce,
      { s.setSession session (addPreview pending s.clock nonce record) with
        records := s.records.insert nonce record })

/-- The record can still be redeemed. -/
def isTimely (s : Shared ρ α) (record : Record) : Bool := s.clock - record.issued ≤ tokenMaxAge

def loadToken (s : Shared ρ α) (token : Token) : Except Unsigned Claims :=
  match s.tokens[token]? with
  | none => .error .bad
  | some claims => if tokenMaxAge < s.clock - claims.signedAt then .error .expired else .ok claims

def saveSession (s : Shared ρ α) (session : String) (copy : ℕ) : Shared ρ α :=
  match s.copies[copy]? with
  | some (owner, pending) =>
    if owner = session ∧ session ∈ s.sessions.keys then s.setSession session pending else s
  | none => s

def openSession (s : Shared ρ α) (session : String) : Shared ρ α :=
  if session ∈ s.sessions.keys then s else s.setSession session .empty

/-! ## The transaction of one Track -/

inductive Body (ρ : Type) where
  | raised (r : Raised)
  | ended (d : Disposition) (db : Db ρ)

/-- The plan of a Track, and the rows with its album. -/
def planned (job : Job) (db : Db ρ) (t : Track ρ) : Plan × Db ρ :=
  let album := albumRow job.changes job.targets db t
  (plan job.changes (preparedRows job.targets album.1) t, album.2)

/-- A guard is asked about columns only. -/
def guarded (p : Plan) (guard : Option String) : Option String :=
  if p.columns = [] then none else guard

/-- The Track is as it was previewed: its plan is written. -/
def writePlan (job : Job) (id : ℕ) (known : Dict ℕ String) (guard : Option String) (now : ℤ)
    (db : Db ρ) (t : Track ρ) : Body ρ × Dict ℕ String :=
  let p := planned job db t
  let fetched := fetch db.categories known (lookups job.changes p.1 t)
  if fetched.1 = false then (.raised (.failed .unexpected), fetched.2)
  else if p.1.isEmpty then (.ended .unchanged p.2, fetched.2)
  else
    match guarded p.1 guard with
    | some reason => (.raised (.writeRefused reason), fetched.2)
    | none =>
      (.ended (.updated (folderStays cfg job.changes fetched.2 t))
        { p.2 with tracks := p.2.tracks.insert id (p.1.write now t) }, fetched.2)

/-- The body of the transaction, under the lock of the row. -/
def editTrack (job : Job) (id : ℕ) (known : Dict ℕ String) (guard : Option String) (now : ℤ)
    (db : Db ρ) : Body ρ × Dict ℕ String :=
  match db.tracks.get? id, job.record.tracks.get? id with
  | none, _ => (.ended .missing db, known)
  | some _, none => (.ended .stale db, known)
  | some t, some (state, previewed) =>
    if editState cfg db t ≠ state then (.ended .stale db, known)
    else
      match previewed with
      | .refused reason => (.ended (.refused reason) db, known)
      | _ => writePlan cfg job id known guard now db t

/-- What has been committed for a Track. -/
def commitTrack (s : Shared ρ α) (job : Job) (id : ℕ) (db : Db ρ) : Disposition → Shared ρ α
  | .updated _ =>
    { s with
      db := db
      log := s.log ++ [⟨id, db.tracks.get? id, some ⟨job, s.db, db⟩⟩] }
  | _ => { s with db := db }

def endTrack (s : Shared ρ α) (job : Job) (id : ℕ) (d : Decision) :
    Body ρ → Result × Shared ρ α
  | .raised r => (.raised r, s)
  | .ended disposition db =>
    (.ended disposition d.commit,
      if d.commit = .refused then s else commitTrack s job id db disposition)

def edit (s : Shared ρ α) (job : Job) (id : ℕ) (known : Dict ℕ String) (d : Decision) :
    (Result × Dict ℕ String) × Shared ρ α :=
  let body := editTrack cfg job id known d.guard s.clock s.db
  match d.fault with
  | some problem => ((.raised (.failed problem), body.2), s)
  | none =>
    let ended := endTrack s job id d body.1
    ((ended.1, body.2), ended.2)

def setTrack (tracks : Dict ℕ (Track ρ)) (id : ℕ) : Option (Track ρ) → Dict ℕ (Track ρ)
  | some t => tracks.insert id t
  | none => tracks.erase id

def writeTrack (s : Shared ρ α) (id : ℕ) (track : Option (Track ρ)) : Shared ρ α :=
  { s with
    db := { s.db with tracks := setTrack s.db.tracks id track }
    log := s.log ++ [⟨id, track, none⟩] }

/-! ## Actions -/

variable [DecidableEq α]

/-- The nonce's record is taken out of the session and marked as claimed. -/
def claimed (s : Shared ρ α) (a : α) (session nonce : String) (pending : Pending)
    (record : Record) : Shared ρ α :=
  { s.setSession session (pending.erase nonce) with
    markers := (unexpired s.markers s.clock).insert (claimKey cfg nonce) (s.clock + markerLifetime)
    spent := if isTimely s record then s.spent ++ [nonce] else s.spent
    holding := Function.update s.holding a (if isTimely s record then some nonce else none) }

def claimNonce (s : Shared ρ α) (a : α) (session nonce : String) : ClaimResult × Shared ρ α :=
  match s.sessions.get? session with
  | none => (.sessionEnded, s)
  | some pending =>
    match pending.get? nonce with
    | none => (.unavailable, s)
    | some record =>
      if ((unexpired s.markers s.clock).get? (claimKey cfg nonce)).isSome then
        (.unavailable,
          { s.setSession session (pending.erase nonce) with markers := unexpired s.markers s.clock })
      else (.claimed record, claimed cfg s a session nonce pending record)

/-- The nonce has been redeemed, whatever comes of it. -/
def redeemNonce (s : Shared ρ α) (a : α) (nonce : String) : Shared ρ α :=
  { s with
    redeemed := s.redeemed ++ [nonce]
    holding := Function.update s.holding a none }

def prepare (s : Shared ρ α) (changes : Changes) (ids : List ℕ) : Option Problem →
    Option Targets × Shared ρ α
  | some _ => (none, s)
  | none =>
    let made := prepareTargets cfg changes ids s.db
    (some made.1, { s with db := made.2, prepared := s.prepared ++ [made] })

def exec (d : Decision) (a : α) : (x : Action ρ) → Shared ρ α → Option (x.Result × Shared ρ α)
  | .look, s => some (s.db, s)
  | .guard _ _, s => some (d.guard, s)
  | .now, s => some (s.clock, s)
  | .issue session record, s =>
    if d.nonce ∈ s.records.keys then none else some (issue s session d.nonce record)
  | .sign nonce user ids ops, s =>
    some (s.tokens.length,
      { s with tokens := s.tokens ++ [⟨nonce, user, ids, ops, wholeSeconds s.clock⟩] })
  | .loads token, s => some (loadToken s token, s)
  | .claim session nonce, s => some (claimNonce cfg s a session nonce)
  | .prepare nonce changes ids, s =>
    some (prepare cfg (redeemNonce s a nonce) changes ids d.fault)
  | .edit job id known, s => some (edit cfg s job id known d)
  | .writeTrack id track, s => some ((), writeTrack s id track)
  | .writeLookups artists albums genres categories, s =>
    some ((), { s with db := ⟨s.db.tracks, artists, albums, genres, categories⟩ })
  | .saveSession session copy, s => some ((), saveSession s session copy)
  | .openSession session, s => some ((), openSession s session)
  | .closeSession session, s => some ((), { s with sessions := s.sessions.erase session })
  | .clearSessions, s => some ((), { s with markers := unexpired s.markers s.clock })
  | .elapse microseconds, s => some ((), { s with clock := s.clock + microseconds })

/-- A worker may be gone at any moment; what it has done stays. -/
def crew : Crew (Action.Result (ρ := ρ)) (Shared ρ α) α Decision where
  exec := exec cfg
  abandon _ s := s

abbrev State (ρ α : Type) :=
  Crew.State (Action.Result (ρ := ρ)) (Shared ρ α) α (Call ρ) Refusal Answer

abbrev Event (ρ α : Type) := Crew.Event α Decision (Call ρ)

def step (e : Event ρ α) (s : State ρ α) : State ρ α := (crew cfg).step (program cfg) e s

/-- Nothing has been previewed yet. -/
def initial (db : Db ρ) (clock : ℤ) (markers : Dict String ℤ) : State ρ α :=
  Crew.idle ⟨db, clock, .empty, markers, [], [], .empty, [], fun _ => none, [], [], []⟩

end IsadoraAir.BulkEdit
