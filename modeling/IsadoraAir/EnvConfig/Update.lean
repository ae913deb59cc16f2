import IsadoraAir.EnvConfig.Rewriting
import IsadoraAir.Foundation.Checks
import Mathlib

/-!
# Updating the environment file

The locked read, check and rename that writes new values of managed settings,
and the pure rewriting of the database password line. Everything that may fail
outside the file itself is part of the surroundings of a call.
-/

namespace IsadoraAir.EnvConfig

open Text

/-- The keys of `MANAGED_SETTINGS`. -/
def managedSettings : List Text :=
  ["EMAIL_HOST", "EMAIL_PORT", "EMAIL_HOST_USER", "EMAIL_HOST_PASSWORD", "EMAIL_USE_TLS",
    "DEFAULT_FROM_EMAIL", "MUSICBRAINZ_CONTACT", "LIBRARY_ROOT", "WAVEFORMS_DIR",
    "WEATHER_DATA_DIR", "PRODUCTION_VALIDATION_MAX_ACTIVE", "PRODUCTION_VALIDATION_MAX_PENDING",
    "REPORTS_ROOT"].map codePoints

def databasePassword : Text := codePoints "DB_PASSWORD"

theorem plainKey_managedSettings : ∀ key ∈ managedSettings, PlainKey key := by decide +kernel

theorem plainKey_databasePassword : PlainKey databasePassword := by decide +kernel

/-! ## Files -/

/-- What stands at a path: nothing, a link (to nothing, or to something), a file, or another thing. -/
inductive Entry where
  | absent
  | dangling
  | link (mode : Nat)
  | file (data : ByteArray) (mode : Nat)
  | other (mode : Nat)
  deriving DecidableEq

/-- `path.exists()`, with the mode that `path.stat()` gives. -/
def Entry.stat? : Entry → Option Nat
  | .absent => none
  | .dangling => none
  | .link mode => some mode
  | .file _ mode => some mode
  | .other mode => some mode

structure FileSystem where
  env : Entry
  backup : Entry
  deriving DecidableEq

inductive Raised where
  | config (error : EnvConfigError)
  | unicodeDecode
  | unicodeEncode
  | interrupted
  | interruptedAfterRename
  deriving DecidableEq

/-- What may stop the atomic write: a failing call, or an interrupt before or after the rename. -/
inductive WriteFault where
  | osError (message : String)
  | interrupt
  | interruptAfterRename

inductive WriteError where
  | osError (message : String)
  | interrupted
  | interruptedAfterRename

/-- `_atomic_write_bytes(path, data, mode)`: the outcome and what then stands at the path. -/
def atomicWriteBytes (fault : Option WriteFault) (path : Entry) (data : ByteArray) (mode : Nat) :
    Except WriteError Unit × Entry :=
  match fault, path with
  | some (.osError message), _ => (.error (.osError message), path)
  | some .interrupt, _ => (.error .interrupted, path)
  | _, .other _ => (.error (.osError "Is a directory"), path)
  | some .interruptAfterRename, _ => (.error .interruptedAfterRename, .file data mode)
  | none, _ => (.ok (), .file data mode)

/-- All that a call depends on besides its values and the two files. -/
structure Surroundings where
  path : String
  /-- The message with which the validator of a key refuses a value. -/
  validate : Text → Text → Option String
  /-- The lock file cannot be opened, or its lock is held too long. -/
  lockFault : Option String
  /-- `database_rotation_is_pending(path)`, or `none` where it raises. -/
  rotationPending : Option Bool
  readFault : Option String
  backupFault : Option WriteFault
  writeFault : Option WriteFault

/-! ## Managed values -/

/-- What the checks and the read leave for the write. -/
structure Prepared where
  originalText : Text
  originalMode : Nat
  pairs : List ScannedLine
  changedKeys : List Text

/-- `raise error(found)` for the first thing a loop objects to. -/
def raiseFor {α ε : Type} (found : Option α) (error : α → ε) : Except ε Unit :=
  found.elim (.ok ()) fun a => .error (error a)

theorem raiseFor_eq_ok {α ε : Type} {found : Option α} {error : α → ε} {u : Unit} :
    raiseFor found error = .ok u ↔ found = none := by
  cases found <;> simp [raiseFor]

/-- The checks made before the lock is taken: each key, each value, each encoding. -/
def encodeValues (s : Surroundings) (values : Dict Text Text) :
    Except EnvConfigError (List (Text × Text)) := do
  raiseFor (values.keys.find? fun key => key ∉ managedSettings) .unregisteredKey
  raiseFor (values.items.findSome? fun item => (s.validate item.1 item.2).map (item.1, ·))
    fun found => .invalidValue found.1 found.2
  values.items.mapM fun item => do
    let encoded ← encodeEnvValue item.2
    return (item.1, encoded)

/-- The text and the mode of the file, read through universal newlines. -/
def readOriginal (s : Surroundings) (entry : Entry) : Except Raised (Text × Nat) :=
  match s.readFault, entry with
  | some message, _ => .error (.config (.envWrite ("could not read " ++ s.path ++ ": " ++ message)))
  | none, .absent => .ok ([], 0o600)
  | none, .dangling => .ok ([], 0o600)
  | none, .link _ =>
      .error (.config (.envWrite (s.path ++ " is a symlink; refusing to write through it for safety")))
  | none, .other _ => .error (.config (.envWrite (s.path ++ " exists but is not a regular file")))
  | none, .file data mode =>
      (decode data).elim (.error .unicodeDecode) fun text => .ok (translate text, mode)

/-- Everything before the files are touched. -/
def prepareUpdate (s : Surroundings) (fs : FileSystem) (values : Dict Text Text) :
    Except Raised Prepared := do
  let encoded ← (encodeValues s values).mapError .config
  raiseFor s.lockFault fun message => .config (.envWrite message)
  let pending ← orRaise s.rotationPending
    (.config (.envWrite "could not inspect the database credential recovery gate"))
  raiseIf (pending = true) (.config (.envWrite "database credential recovery is pending"))
  let original ← readOriginal s fs.env
  let pairs := parseLines original.1
  raiseFor (values.keys.find? fun key => 1 < (activeLineIndices pairs key).length)
    fun key => .config (.duplicateManagedKey key)
  let written := writeAssignments pairs encoded
  return ⟨original.1, original.2, written.1, written.2⟩

def raisedWriting (s : Surroundings) : WriteError → Raised
  | .osError message => .config (.envWrite ("failed to write " ++ s.path ++ ": " ++ message))
  | .interrupted => .interrupted
  | .interruptedAfterRename => .interruptedAfterRename

/-- The backup, made when there is a file to keep. -/
def writeBackup (s : Surroundings) (fs : FileSystem) (originalText : Text) :
    Except Raised Unit × FileSystem :=
  match fs.env.stat? with
  | none => (.ok (), fs)
  | some _ =>
      match encode originalText with
      | none => (.error .unicodeEncode, fs)
      | some data =>
          let (outcome, entry) := atomicWriteBytes s.backupFault fs.backup data
            (fs.backup.stat?.getD 0o600)
          -- an interrupt that follows the rename of the backup still precedes that of the file
          (outcome.mapError fun e => match e with
            | .interruptedAfterRename => .interrupted
            | e => raisedWriting s e, { fs with backup := entry })

/-- `update_managed_values(values)`: the changed keys or what it raises, and the files after it. -/
def updateManagedValues (s : Surroundings) (fs : FileSystem) (values : Dict Text Text) :
    Except Raised (List Text) × FileSystem :=
  match prepareUpdate s fs values with
  | .error e => (.error e, fs)
  | .ok prepared =>
      if prepared.changedKeys = [] then (.ok [], fs)
      else
        match writeBackup s fs prepared.originalText with
        | (.error e, fs) => (.error e, fs)
        | (.ok (), fs) =>
            match encode (renderLines prepared.pairs) with
            | none => (.error .unicodeEncode, fs)
            | some data =>
                match atomicWriteBytes s.writeFault fs.env data prepared.originalMode with
                | (.error e, entry) => (.error (raisedWriting s e), { fs with env := entry })
                | (.ok (), entry) => (.ok prepared.changedKeys, { fs with env := entry })

/-! ## The database password -/

/-- `rendered` with the final newline only if the original had one. -/
def keepFinalNewline (originalText rendered : Text) : Text :=
  if originalText ≠ [] ∧ originalText.getLast? ≠ some lf then rendered.dropLast else rendered

/-- `render_database_password_update(original, new_password)` -/
def renderDatabasePasswordUpdate (original : ByteArray) (newPassword : Text) :
    Except Raised ByteArray := do
  let originalText ← orRaise (decode original)
    (.config (.envWrite "the environment file is not strict UTF-8"))
  let encoded ← (encodeEnvValue newPassword).mapError .config
  let pairs := parseLines originalText
  match activeLineIndices pairs databasePassword with
  | [] => .error (.config (.envWrite "the environment file has no DB_PASSWORD assignment"))
  | _ :: _ :: _ => .error (.config (.duplicateManagedKey databasePassword))
  | [idx] =>
      let rendered := renderLines
        (pairs.set idx (assign databasePassword encoded, some databasePassword))
      orRaise (encode (keepFinalNewline originalText rendered)) .unicodeEncode

end IsadoraAir.EnvConfig
