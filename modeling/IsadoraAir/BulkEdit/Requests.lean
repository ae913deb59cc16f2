import IsadoraAir.BulkEdit.Changes
import IsadoraAir.Foundation.Routine

/-!
# Preview and apply

The requests of `track_bulk_edit.py`. A preview records the edit state of every
selected Track in the operator's session; an apply claims that record and edits
each Track in a transaction of its own.
-/

namespace IsadoraAir.BulkEdit

/-- The selected Tracks, and the requested ones that do not exist. -/
structure Selection where
  ids : List ℕ
  missing : List ℕ
  nodup : (ids ++ missing).Nodup

/-- What the preview has decided for a Track. -/
inductive Previewed where
  | change
  | unchanged
  | refused (reason : String)
  deriving DecidableEq

/-- A pending preview. -/
structure Record where
  user : ℕ
  ids : String
  ops : String
  issued : ℤ
  tracks : Dict ℕ (String × Previewed)

/-- `SESSION_KEY`: the previews of a session, by their nonces. -/
abbrev Pending := Dict String Record

structure Claims where
  nonce : String
  user : ℕ
  ids : String
  ops : String
  /-- When it was signed, in whole seconds. -/
  signedAt : ℤ
  deriving DecidableEq

/-- The number of a signed token; no other token is valid. -/
abbrev Token := ℕ

inductive Unsigned where
  | expired
  | bad
  deriving DecidableEq

/-- `BulkEditError`, or any other exception that ends the request. -/
inductive Refusal where
  | sessionEnded
  | previewFirst
  | expired
  | invalidToken
  | foreign
  | alreadyApplied
  | selectionDiffers
  | changesDiffer
  | unexpected
  deriving DecidableEq

/-! ## One Track -/

/-- What an apply has redeemed and prepared. -/
structure Job where
  nonce : String
  record : Record
  ids : List ℕ
  changes : Changes
  targets : Targets

inductive Problem where
  /-- `ValidationError`, `DatabaseError` -/
  | notSaved
  | unexpected
  deriving DecidableEq

inductive Raised where
  | writeRefused (reason : String)
  | failed (problem : Problem)
  deriving DecidableEq

/-- What the body of the transaction has put into the report. -/
inductive Disposition where
  | missing
  | stale
  | refused (reason : String)
  | unchanged
  | updated (folderStays : Bool)
  deriving DecidableEq

/-- How a commit ends; the caller cannot tell the last two apart. -/
inductive Commit where
  | done
  | refused
  | lost
  deriving DecidableEq

inductive Result where
  | raised (r : Raised)
  | ended (d : Disposition) (commit : Commit)
  deriving DecidableEq

/-! ## The report -/

structure Report where
  updated : List ℕ
  unchanged : ℕ
  folderStays : ℕ
  refused : List (ℕ × String)
  stale : List ℕ
  failed : List (ℕ × Problem)
  missing : List ℕ

def Report.start (missing : List ℕ) : Report := ⟨[], 0, 0, [], [], [], missing⟩

def Report.fail (r : Report) (id : ℕ) (problem : Problem) : Report :=
  { r with failed := r.failed ++ [(id, problem)] }

/-- Inside the transaction, before its commit. -/
def Report.dispose (r : Report) (id : ℕ) : Disposition → Report
  | .missing => { r with missing := r.missing ++ [id] }
  | .stale => { r with stale := r.stale ++ [id] }
  | .refused reason => { r with refused := r.refused ++ [(id, reason)] }
  | .unchanged => { r with unchanged := r.unchanged + 1 }
  | .updated stays =>
    { r with
      updated := r.updated ++ [id]
      folderStays := r.folderStays + if stays then 1 else 0 }

/-- One round of the loop of `apply`. -/
def Report.note (r : Report) (id : ℕ) : Result → Report
  | .raised (.writeRefused reason) => { r with refused := r.refused ++ [(id, reason)] }
  | .raised (.failed problem) => r.fail id problem
  | .ended d .done => r.dispose id d
  | .ended d .refused | .ended d .lost => (r.dispose id d).fail id .notSaved

def Report.noteAll (r : Report) (results : List (ℕ × Result)) : Report :=
  results.foldl (fun r item => r.note item.1 item.2) r

/-- `sorted(set(missing))` -/
def Report.answer (r : Report) : Report :=
  { r with missing := r.missing.dedup.insertionSort (· ≤ ·) }

def report (missing : List ℕ) (results : List (ℕ × Result)) : Report :=
  ((Report.start missing).noteAll results).answer

/-! ## Actions -/

variable {ρ : Type}

inductive ClaimResult where
  | sessionEnded
  | unavailable
  | claimed (record : Record)

inductive Action (ρ : Type) where
  | look
  /-- `check_write_guards` -/
  | guard (id : ℕ) (plan : Plan)
  | now
  | issue (session : String) (record : Record)
  | sign (nonce : String) (user : ℕ) (ids ops : String)
  | loads (token : Token)
  | claim (session nonce : String)
  | prepare (nonce : String) (changes : Changes) (ids : List ℕ)
  /-- The transaction of one Track; the categories that are known already. -/
  | edit (job : Job) (id : ℕ) (known : Dict ℕ String)
  /-- Another program writes or deletes a Track, or the rows it refers to. -/
  | writeTrack (id : ℕ) (track : Option (Track ρ))
  | writeLookups (artists : List (ℕ × String)) (albums : List (ℕ × String × String))
    (genres categories : List (ℕ × String))
  /-- Another request of the session saves the copy that it has loaded. -/
  | saveSession (session : String) (copy : ℕ)
  | openSession (session : String)
  | closeSession (session : String)
  | clearSessions
  | elapse (microseconds : ℕ)

abbrev Action.Result : Action ρ → Type
  | .look => Db ρ
  | .guard _ _ => Option String
  | .now => ℤ
  | .issue _ _ => Option String
  | .sign _ _ _ _ => Token
  | .loads _ => Except Unsigned Claims
  | .claim _ _ => ClaimResult
  | .prepare _ _ _ => Option Targets
  | .edit _ _ _ => BulkEdit.Result × Dict ℕ String
  | .writeTrack _ _ | .writeLookups _ _ _ _ | .saveSession _ _ | .openSession _ | .closeSession _
  | .clearSessions | .elapse _ => Unit

abbrev Service (ρ : Type) := Routine (Action.Result (ρ := ρ)) Refusal

abbrev perform (a : Action ρ) : Service ρ a.Result := Routine.perform a

variable (cfg : Config)

/-! ## Preview -/

/-- The row with the memberships that were read before it. -/
def withMemberships (memberships : Db ρ) (id : ℕ) (row : Track ρ) : Track ρ :=
  { row with
    additional := ((memberships.tracks.get? id).map Track.additional).getD []
    holidays := ((memberships.tracks.get? id).map Track.holidays).getD [] }

def guardRefusal (id : ℕ) (p : Plan) : Service ρ (Option String) :=
  if p.columns = [] then pure none else perform (.guard id p)

/-- The entries of the record, one for each row. -/
def previewTracks (changes : Changes) (memberships rows found : Db ρ) :
    List ℕ → Dict ℕ String → Dict ℕ (String × Previewed) →
      Service ρ (Dict ℕ (String × Previewed))
  | [], _, entries => pure entries
  | id :: ids, known, entries =>
    match rows.tracks.get? id with
    | none => previewTracks changes memberships rows found ids known entries
    | some row => do
      let t := withMemberships memberships id row
      let state := editState cfg rows t
      let p := plan changes (foundRows cfg changes found ((rows.albumArtist t).getD "")) t
      let fetched := fetch found.categories known (lookups changes p t)
      if fetched.1 = false then .raise .unexpected
      else if p.isEmpty then
        previewTracks changes memberships rows found ids fetched.2
          (entries.insert id (state, .unchanged))
      else do
        let refusal ← guardRefusal id p
        let previewed : Previewed := refusal.elim .change .refused
        previewTracks changes memberships rows found ids fetched.2
          (entries.insert id (state, previewed))

def preview (session : String) (user : ℕ) (selection : Selection) (changes : Changes) :
    Service ρ Token := do
  let memberships ← perform .look
  let rows ← perform .look
  let found ← perform .look
  let tracks ← previewTracks cfg changes memberships rows found selection.ids .empty .empty
  let now ← perform .now
  let ids := cfg.idsDigest selection.ids
  let ops := cfg.opsDigest changes
  let nonce ← perform (.issue session ⟨user, ids, ops, now / 1000000 * 1000000, tracks⟩)
  match nonce with
  | none => .raise .sessionEnded
  | some nonce => perform (.sign nonce user ids ops)

/-! ## Apply -/

/-- `TOKEN_MAX_AGE_SECONDS` -/
def tokenMaxAge : ℤ := 15 * 60 * 1000000

def redeem (session : String) (user : ℕ) (token : Option Token) (selection : Selection)
    (changes : Changes) : Service ρ (String × Record) :=
  match token with
  | none => .raise .previewFirst
  | some token => do
    let loaded ← perform (.loads token)
    match loaded with
    | .error .expired => .raise .expired
    | .error .bad => .raise .invalidToken
    | .ok claims =>
      if claims.user ≠ user then .raise .foreign
      else do
        let claimed ← perform (.claim session claims.nonce)
        match claimed with
        | .sessionEnded => .raise .sessionEnded
        | .unavailable => .raise .alreadyApplied
        | .claimed record =>
          if record.user ≠ user then .raise .alreadyApplied
          else do
            let now ← perform .now
            if tokenMaxAge < now - record.issued then .raise .expired
            else if claims.ids ≠ cfg.idsDigest selection.ids ∨ record.ids ≠ claims.ids then
              .raise .selectionDiffers
            else if claims.ops ≠ cfg.opsDigest changes ∨ record.ops ≠ claims.ops then
              .raise .changesDiffer
            else pure (claims.nonce, record)

/-- The loop of `apply`. -/
def editAll (job : Job) : List ℕ → Dict ℕ String → Service ρ (List (ℕ × Result))
  | [], _ => pure []
  | id :: ids, known => do
    let edited ← perform (.edit job id known)
    let results ← editAll job ids edited.2
    pure ((id, edited.1) :: results)

def apply (session : String) (user : ℕ) (token : Option Token) (selection : Selection)
    (changes : Changes) : Service ρ Report := do
  let redeemed ← redeem cfg session user token selection changes
  let targets ← perform (.prepare redeemed.1 changes selection.ids)
  match targets with
  | none => .raise .unexpected
  | some targets => do
    let results ← editAll ⟨redeemed.1, redeemed.2, selection.ids, changes, targets⟩
      selection.ids .empty
    pure (report selection.missing results)

/-! ## Calls -/

inductive Call (ρ : Type) where
  | preview (session : String) (user : ℕ) (selection : Selection) (changes : Changes)
  | apply (session : String) (user : ℕ) (token : Option Token) (selection : Selection)
    (changes : Changes)
  | writeTrack (id : ℕ) (track : Option (Track ρ))
  | writeLookups (artists : List (ℕ × String)) (albums : List (ℕ × String × String))
    (genres categories : List (ℕ × String))
  | saveSession (session : String) (copy : ℕ)
  | openSession (session : String)
  | closeSession (session : String)
  | clearSessions
  | elapse (microseconds : ℕ)

inductive Answer where
  | token (token : Token)
  | applied (report : Report)
  | done

/-- A single step of another program. -/
def single (a : Action ρ) : Service ρ Answer := do
  let _ ← perform a
  pure .done

def program : Call ρ → Service ρ Answer
  | .preview session user selection changes => do
    let token ← preview cfg session user selection changes
    pure (.token token)
  | .apply session user token selection changes => do
    let report ← apply cfg session user token selection changes
    pure (.applied report)
  | .writeTrack id track => single (.writeTrack id track)
  | .writeLookups artists albums genres categories =>
    single (.writeLookups artists albums genres categories)
  | .saveSession session copy => single (.saveSession session copy)
  | .openSession session => single (.openSession session)
  | .closeSession session => single (.closeSession session)
  | .clearSessions => single .clearSessions
  | .elapse microseconds => single (.elapse microseconds)

end IsadoraAir.BulkEdit
