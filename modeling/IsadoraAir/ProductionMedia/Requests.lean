import IsadoraAir.ProductionMedia.Store
import IsadoraAir.Foundation.Routine

/-!
# Ingests, bindings, purges and sweeps

`production/services/intake.py`, `retention.py`, `reconcile.py`. Bytes become
permanent before their row exists, and are removed after their row is marked;
any action may raise.
-/

namespace IsadoraAir.ProductionMedia

/-- `IntakeError`, `MediaRejected` and the other exceptions that end a request. -/
inductive Refusal where
  | renditionAuthority
  | invalidDerivation
  | parentNotUsable
  | layoutInvalid
  | sourceReadFailed
  | invalidSource
  | tooLarge
  | empty
  | storageWriteFailed
  | rejected
  | storageCollision
  | promotionFailed
  | parentPurged
  | parentNotValid
  | unknownMedia
  | purged
  | notValidated
  | airingProhibited
  | airingNotProhibited
  | purgeRefused
  | invalidStorageKey
  | invalidGrace
  | database
  | os
  deriving DecidableEq

/-- What `source.read` does. -/
inductive Chunk where
  | data (bytes : Bytes)
  | failed
  | notBytes

/-- The arguments of `_ingest` that decide anything here. -/
structure Request where
  kind : Kind
  /-- `rendition_insert` is given. -/
  rendering : Bool
  derivedFrom : Option MediaId
  airingProhibited : Bool
  validate : Bool
  retainInvalid : Bool
  maxBytes : ℕ
  source : List Chunk

/-- What `validation._analyze_path` finds, and whether its duration fits the policy. -/
inductive Analysis where
  | valid (fits : Bool)
  | invalid
  | undetermined

inductive Linked where
  | done
  | exists
  | failed

inductive Unlinked where
  | done
  | missing
  | failed
  deriving DecidableEq

inductive Locked where
  | raised
  | found (row : Option Row)

/-- How a COMMIT ends; after the last two it raises. -/
inductive Commit where
  | done
  | refused
  | lost
  deriving DecidableEq

inductive Action where
  | look (id : MediaId)
  /-- Create a new staging file. -/
  | openPart
  /-- Append to the staging file that is open. -/
  | writeChunk (bytes : Bytes)
  /-- Make directories and synchronize, or another call that only can raise. -/
  | sync
  | analyze
  /-- `new_media_id` -/
  | newId
  /-- `os.link` of the staging file to the permanent name of the media. -/
  | link (part : Uuid) (id : MediaId)
  | unlinkPart (part : Uuid)
  | unlink (key : String)
  /-- `select_for_update` -/
  | lock (id : MediaId)
  | references (id : MediaId)
  | write (w : Write)
  | commit
  | rollback
  | beginSweep (grace : ℤ)
  | scan
  | stat (key : String)
  | states (keys : List String)
  | scanParts
  | statPart (part : Uuid)
  | elapse (microseconds : ℕ)

abbrev Action.Result : Action → Type
  | .look _ => Option Row
  | .openPart => Option Uuid
  | .writeChunk _ | .sync | .write _ => Bool
  | .analyze => Option Analysis
  | .newId => MediaId
  | .link _ _ => Linked
  | .unlinkPart _ | .unlink _ => Unlinked
  | .lock _ => Locked
  | .references _ => Option ℕ
  | .commit => Commit
  | .rollback | .elapse _ => Unit
  | .beginSweep _ => ℤ
  | .scan => List String
  | .stat _ => Option ℤ
  | .states _ => String → Option Retention
  | .scanParts => List Uuid
  | .statPart _ => Option ℤ

abbrev Service := Routine Action.Result Refusal

abbrev perform (a : Action) : Service a.Result := Routine.perform a

variable {β : Type}

/-! ## Intake -/

def isUsable (row : Row) : Bool := row.retention = .present ∧ row.validation = .valid

/-- `_check_request`; the look at the parent is advisory. -/
def checkRequest (r : Request) : Service Unit :=
  if decide (r.kind = .rendition) ≠ r.rendering then .raise .renditionAuthority
  else if r.kind.isDerived ≠ r.derivedFrom.isSome then .raise .invalidDerivation
  else
    match r.derivedFrom with
    | none => pure ()
    | some parent => do
      let row ← perform (.look parent)
      if row.any isUsable then pure () else .raise .parentNotUsable

def sync (refusal : Refusal) : Service Unit := do
  let succeeded ← perform .sync
  if succeeded then pure () else .raise refusal

/-- The loop of `_stream_to_part`; what has been written so far. -/
def stream (maxBytes : ℕ) : List Chunk → Bytes → Service Bytes
  | [], written => pure written
  | .failed :: _, _ => .raise .sourceReadFailed
  | .notBytes :: _, _ => .raise .invalidSource
  | .data bytes :: rest, written =>
    if bytes = [] then pure written
    else if maxBytes < (written ++ bytes).length then .raise .tooLarge
    else do
      let succeeded ← perform (.writeChunk bytes)
      if succeeded then stream maxBytes rest (written ++ bytes) else .raise .storageWriteFailed

/-- What has been written is final, and durable. -/
def fill (r : Request) : Service Bytes := do
  let written ← stream r.maxBytes r.source []
  if written = [] then .raise .empty
  else do
    sync .os
    pure written

def streamToPart (r : Request) (part : Uuid) : Service Bytes := do
  let filled ← (fill r).attempt
  match filled with
  | .ok written => pure written
  | .error e => do
    let _ ← perform (.unlinkPart part)
    .raise e

/-- The `validation_state` of the new row. -/
def analyze (r : Request) : Service Validation :=
  if r.validate then do
    let outcome ← perform .analyze
    match outcome with
    | none => .raise .os
    | some (.valid fits) => if fits then pure .valid else .raise .rejected
    | some .invalid => if r.retainInvalid then pure .invalid else .raise .rejected
    | some .undetermined => pure .unvalidated
  else pure .unvalidated

/-- The permanent entry is durable, then the staging entry is gone durably. -/
def settle (part : Uuid) : Service Unit := do
  sync .promotionFailed
  let removed ← perform (.unlinkPart part)
  if removed = .done then sync .promotionFailed else .raise .promotionFailed

/-- `_promote` -/
def promote (part : Uuid) (id : MediaId) : Service Unit := do
  sync .layoutInvalid
  let linked ← perform (.link part id)
  match linked with
  | .exists => .raise .storageCollision
  | .failed => .raise .promotionFailed
  | .done => do
    let settled ← (settle part).attempt
    match settled with
    | .ok () => pure ()
    | .error e => do
      let _ ← perform (.unlink (storageKeyFor id))
      .raise e

/-- Up to `promoted = destination`. -/
def promotion (r : Request) (part : Uuid) : Service (MediaId × Validation) := do
  let validation ← analyze r
  let id ← perform .newId
  promote part id
  pure (id, validation)

/-! ## Locks -/

/-- `transaction.atomic()`, with nothing around it. -/
def atomic (body : Service β) : Service β := do
  let result ← body.attempt
  match result with
  | .error e => do
    let _ ← perform .rollback
    .raise e
  | .ok b => do
    let committed ← perform .commit
    match committed with
    | .done => pure b
    | .refused | .lost => .raise .database

def save (w : Write) : Service Unit := do
  let succeeded ← perform (.write w)
  if succeeded then pure () else .raise .database

def lockRow (id : MediaId) : Service Row := do
  let locked ← perform (.lock id)
  match locked with
  | .raised => .raise .database
  | .found none => .raise .unknownMedia
  | .found (some row) => pure row

/-- `_lock` -/
def lockMedia (id : MediaId) (requireValid : Bool) : Service Row := do
  let row ← lockRow id
  if row.retention = .purged then .raise .purged
  else if requireValid && row.validation ≠ .valid then .raise .notValidated
  else pure row

def lockForBinding (id : MediaId) (requireValid : Bool) : Service Row := do
  let row ← lockMedia id requireValid
  if row.airingProhibited then .raise .airingProhibited else pure row

def lockForNoAirBinding (id : MediaId) (requireValid : Bool) : Service Row := do
  let row ← lockMedia id requireValid
  if row.airingProhibited then pure row else .raise .airingNotProhibited

def lockParentForDerivation (id : MediaId) (requireValid : Bool) : Service Row :=
  lockMedia id requireValid

/-! ## The row of an ingest -/

variable (sha256 : Bytes → String)

/-- The refusals of the parent, as intake reports them. -/
def Refusal.ofParent : Refusal → Refusal
  | .purged => .parentPurged
  | .notValidated => .parentNotValid
  | e => e

/-- Whether the new media is prohibited: as requested, or as its parent is. -/
def inheritProhibition (r : Request) : Service Bool :=
  match r.derivedFrom with
  | none => pure r.airingProhibited
  | some parent => do
    let locked ← (lockParentForDerivation parent true).attempt
    match locked with
    | .error e => .raise e.ofParent
    | .ok row => pure (r.airingProhibited || row.airingProhibited)

def newRow (r : Request) (id : MediaId) (validation : Validation) (written : Bytes)
    (prohibited : Bool) : Row where
  kind := r.kind
  storageKey := storageKeyFor id
  sha256 := sha256 written
  byteSize := written.length
  derivedFrom := r.derivedFrom
  airingProhibited := prohibited
  validation := validation
  retention := .present

def insertion (r : Request) (id : MediaId) (validation : Validation) (written : Bytes) :
    Service Unit := do
  let prohibited ← inheritProhibition r
  save (.insert id (newRow sha256 r id validation written prohibited))

/-- The insertion transaction, with the clean-up on any exception. -/
def finish (r : Request) (part : Uuid) (written : Bytes) (id : MediaId) (validation : Validation) :
    Service MediaId := do
  let inserted ← (atomic (insertion sha256 r id validation written)).attempt
  match inserted with
  | .ok () => pure id
  | .error e => do
    let _ ← perform (.unlinkPart part)
    let _ ← perform (.unlink (storageKeyFor id))
    .raise e

/-- `_ingest`, with its staging file. -/
def ingestPart (r : Request) (part : Uuid) : Service MediaId := do
  let written ← streamToPart r part
  let promoted ← (promotion r part).attempt
  match promoted with
  | .ok (id, validation) => finish sha256 r part written id validation
  | .error e => do
    let _ ← perform (.unlinkPart part)
    .raise e

def ingest (r : Request) : Service MediaId := do
  checkRequest r
  sync .layoutInvalid
  let part ← perform .openPart
  match part with
  | none => .raise .os
  | some part => ingestPart sha256 r part

/-! ## Bindings -/

/-- What a consumer does to its references in one transaction. -/
inductive Change where
  | bind (slot : ℕ) (media : MediaId) (airing requireValid : Bool)
  | unbind (slot : ℕ)

/-- The binding rule. -/
def lockFor (media : MediaId) (airing requireValid : Bool) : Service Row :=
  if airing then lockForBinding media requireValid else lockForNoAirBinding media requireValid

def change : Change → Service Unit
  | .bind slot media airing requireValid => do
    let _ ← lockFor media airing requireValid
    save (.bind slot ⟨media, airing⟩)
  | .unbind slot => save (.unbind slot)

def changeAll : List Change → Service Unit
  | [] => pure ()
  | c :: rest => do
    change c
    changeAll rest

def bind (changes : List Change) : Service Unit := atomic (changeAll changes)

/-! ## Purges and verdicts -/

/-- `_unlink_bytes` -/
def unlinkBytes (key : String) : Service Unit :=
  if isStorageKey key then do
    let _ ← perform (.unlink key)
    pure ()
  else .raise .invalidStorageKey

/-- The transaction of `purge_media`; its result is the key of the bytes to remove. -/
def markPurged (id : MediaId) : Service String := do
  let row ← lockRow id
  if row.retention = .purged then pure row.storageKey
  else do
    let count ← perform (.references id)
    match count with
    | none => .raise .database
    | some 0 => do
      save (.purge id)
      pure row.storageKey
    | some _ => .raise .purgeRefused

/-- `purge_media`; the bytes go after the commit. -/
def purge (id : MediaId) : Service Unit := do
  let key ← atomic (markPurged id)
  unlinkBytes key

/-- `validate_media` records its verdict. -/
def recordVerdict (id : MediaId) (verdict : Validation) : Service Unit := do
  let _ ← lockRow id
  save (.verdict id verdict)

def judge (id : MediaId) (verdict : Validation) : Service Unit := atomic (recordVerdict id verdict)

/-! ## Sweeps -/

/-- `MIN_GRACE` -/
def minGrace : ℤ := 3600 * 1000000

structure SweepReport where
  removed : List String
  keptYoung : ℕ
  unexpected : List String
  errors : List String

/-- A file of a listing, with the later of its mtime and ctime. -/
abbrev Listed := String × ℤ

def statAll : List String → Service (List Listed)
  | [] => pure []
  | key :: keys => do
    let touched ← perform (.stat key)
    match touched with
    | none => .raise .os
    | some touched => do
      let rest ← statAll keys
      pure ((key, touched) :: rest)

def SweepReport.note (report : SweepReport) (key : String) : Unlinked → SweepReport
  | .done => { report with removed := report.removed ++ [key] }
  | .missing => report
  | .failed => { report with errors := report.errors ++ [key] }

/-- `_remove_file` -/
def removeFile (apply : Bool) (key : String) (report : SweepReport) : Service SweepReport :=
  if apply then do
    let removed ← perform (.unlink key)
    pure (report.note key removed)
  else pure (report.note key .done)

def sweepFile (grace now : ℤ) (apply : Bool) (states : String → Option Retention) (file : Listed)
    (report : SweepReport) : Service SweepReport :=
  if states file.1 = some .present then pure report
  else if grace ≤ now - file.2 then removeFile apply file.1 report
  else pure { report with keptYoung := report.keptYoung + 1 }

def sweepFiles (grace now : ℤ) (apply : Bool) (states : String → Option Retention) :
    List Listed → SweepReport → Service SweepReport
  | [], report => pure report
  | file :: files, report => do
    let report ← sweepFile grace now apply states file report
    sweepFiles grace now apply states files report

def sweepBatches (grace now : ℤ) (apply : Bool) : List (List Listed) → SweepReport →
    Service SweepReport
  | [], report => pure report
  | batch :: batches, report => do
    let states ← perform (.states (batch.map Prod.fst))
    let report ← sweepFiles grace now apply states batch report
    sweepBatches grace now apply batches report

/-- `_BATCH` -/
def batchSize : ℕ := 500

/-- `sweep_orphan_media` -/
def sweepOrphanMedia (grace : ℤ) (apply : Bool) : Service SweepReport :=
  if grace < minGrace then .raise .invalidGrace
  else do
    let now ← perform (.beginSweep grace)
    let keys ← perform .scan
    let listed ← statAll keys
    let files := listed.filter fun file => isPlausible file.1
    let unexpected := keys.filter fun key => !isPlausible key
    sweepBatches grace now apply (files.toChunks batchSize) ⟨[], 0, unexpected, []⟩

def sweepParts (grace now : ℤ) (apply : Bool) : List Uuid → Service Unit
  | [] => pure ()
  | part :: parts => do
    let touched ← perform (.statPart part)
    match touched with
    | none => .raise .os
    | some touched => do
      sweepPart grace now apply part touched
      sweepParts grace now apply parts
where
  sweepPart (grace now : ℤ) (apply : Bool) (part : Uuid) (touched : ℤ) : Service Unit :=
    if grace ≤ now - touched ∧ apply then do
      let _ ← perform (.unlinkPart part)
      pure ()
    else pure ()

/-- `sweep_stale_parts` -/
def sweepStaleParts (grace : ℤ) (apply : Bool) : Service Unit :=
  if grace < minGrace then .raise .invalidGrace
  else do
    let now ← perform (.beginSweep grace)
    let parts ← perform .scanParts
    sweepParts grace now apply parts

/-! ## Calls -/

inductive Call where
  | ingest (r : Request)
  | bind (changes : List Change)
  | purge (id : MediaId)
  | judge (id : MediaId) (verdict : Validation)
  | sweepOrphanMedia (grace : ℤ) (apply : Bool)
  | sweepStaleParts (grace : ℤ) (apply : Bool)
  | elapse (microseconds : ℕ)

inductive Answer where
  | media (id : MediaId)
  | report (report : SweepReport)
  | done

def program : Call → Service Answer
  | .ingest r => do
    let id ← ingest sha256 r
    pure (.media id)
  | .bind changes => do
    bind changes
    pure .done
  | .purge id => do
    purge id
    pure .done
  | .judge id verdict => do
    judge id verdict
    pure .done
  | .sweepOrphanMedia grace apply => do
    let report ← sweepOrphanMedia grace apply
    pure (.report report)
  | .sweepStaleParts grace apply => do
    sweepStaleParts grace apply
    pure .done
  | .elapse microseconds => do
    perform (.elapse microseconds)
    pure .done

end IsadoraAir.ProductionMedia
