import IsadoraAir.Foundation.Dict
import IsadoraAir.Foundation.Sessions
import IsadoraAir.Foundation.TextLines
import IsadoraAir.Foundation.Crew

/-!
# Profiles and their services

The tables of the schedule profiles, and the services that change them.
-/

/-!
## Schedule profiles

The profiles, the singleton that points at the active and the default one, and
the schedule blocks and playlist logs that refer to profiles. What a transaction
writes of them, and which rows and index entries it locks.
-/

namespace IsadoraAir.ScheduleProfiles

abbrev Uuid := String

structure Profile where
  uuid : Uuid
  name : Text
  description : Text
  sortOrder : ℤ
  isArchived : Bool
  deriving DecidableEq

/-- `ScheduleProfileState` -/
structure StateRow where
  activeProfile : ℕ
  defaultProfile : ℕ
  deriving DecidableEq

structure ScheduleBlock where
  profile : ℕ
  dayOfWeek : Option ℕ
  specificDate : Option ℤ
  startTime : ℕ
  endTime : ℕ
  rotation : Option ℕ
  playlist : Option ℕ
  deriving DecidableEq

/-- The tables; a playlist log is given by its schedule profile. -/
structure Database where
  profiles : Dict ℕ Profile
  state : Option StateRow
  blocks : List ScheduleBlock
  logs : List (Option ℕ)

/-- The columns that `edit_profile` saves. -/
structure Edit where
  name : Option Text
  description : Option Text
  sortOrder : Option ℤ
  deriving DecidableEq

def Edit.apply (e : Edit) (p : Profile) : Profile :=
  { p with
    name := e.name.getD p.name
    description := e.description.getD p.description
    sortOrder := e.sortOrder.getD p.sortOrder }

inductive Write where
  | createState (profile : ℕ)
  | insert (profile : ℕ) (row : Profile)
  | edit (profile : ℕ) (e : Edit)
  | setArchived (profile : ℕ) (value : Bool)
  | activate (profile : ℕ)
  | setDefault (profile : ℕ)
  | delete (profile : ℕ)
  | addBlocks (rows : List ScheduleBlock)
  | removeBlocks (rows : List ScheduleBlock)
  | addLogs (rows : List (Option ℕ))
  | removeLogs (rows : List (Option ℕ))

namespace Database

def update (db : Database) (profile : ℕ) (f : Profile → Profile) : Database :=
  match db.profiles.get? profile with
  | some p => { db with profiles := db.profiles.insert profile (f p) }
  | none => db

def apply (db : Database) : Write → Database
  | .createState profile => { db with state := some ⟨profile, profile⟩ }
  | .insert profile row => { db with profiles := db.profiles.insert profile row }
  | .edit profile e => db.update profile e.apply
  | .setArchived profile value => db.update profile fun p => { p with isArchived := value }
  | .activate profile =>
    { db with state := db.state.map fun row => { row with activeProfile := profile } }
  | .setDefault profile =>
    { db with state := db.state.map fun row => { row with defaultProfile := profile } }
  | .delete profile => { db with profiles := db.profiles.erase profile }
  | .addBlocks rows => { db with blocks := db.blocks ++ rows }
  | .removeBlocks rows => { db with blocks := db.blocks.filter (· ∉ rows) }
  | .addLogs rows => { db with logs := db.logs ++ rows }
  | .removeLogs rows => { db with logs := db.logs.filter (· ∉ rows) }

/-- Every foreign key has its row. -/
def Refers (db : Database) : Prop :=
  (∀ block ∈ db.blocks, block.profile ∈ db.profiles.keys) ∧
  (∀ log ∈ db.logs, ∀ profile ∈ log, profile ∈ db.profiles.keys) ∧
  ∀ row ∈ db.state, row.activeProfile ∈ db.profiles.keys ∧ row.defaultProfile ∈ db.profiles.keys

instance decidableRefers (db : Database) : Decidable db.Refers :=
  inferInstanceAs (Decidable (_ ∧ _ ∧ _))

/-- The profile has schedule blocks or playlist logs. -/
def IsUsed (db : Database) (profile : ℕ) : Prop :=
  (∃ block ∈ db.blocks, block.profile = profile) ∨ some profile ∈ db.logs

instance decidableIsUsed (db : Database) (profile : ℕ) : Decidable (db.IsUsed profile) :=
  inferInstanceAs (Decidable (_ ∨ _))

end Database

/-- The state row joined with its two profiles. -/
structure LockedState where
  row : StateRow
  activeProfile : Profile
  defaultProfile : Profile
  deriving DecidableEq

def Database.joined (db : Database) : Option LockedState := do
  let row ← db.state
  let activeProfile ← db.profiles.get? row.activeProfile
  let defaultProfile ← db.profiles.get? row.defaultProfile
  some ⟨row, activeProfile, defaultProfile⟩

/-- What can be locked: rows, and the entries of the unique indexes. -/
inductive Row where
  | state
  | profile (id : ℕ)
  | name (name : Text)
  | uuid (uuid : Uuid)
  deriving DecidableEq

/-- What a write changes. -/
def Write.rows : Write → List Row
  | .createState _ | .activate _ | .setDefault _ => [.state]
  | .insert profile row => [.profile profile, .name row.name, .uuid row.uuid]
  | .edit profile e => .profile profile :: e.name.toList.map .name
  | .setArchived profile _ | .delete profile => [.profile profile]
  | .addBlocks _ | .removeBlocks _ | .addLogs _ | .removeLogs _ => []

/-- The profiles that the written rows refer to. -/
def Write.references : Write → List ℕ
  | .createState profile | .activate profile | .setDefault profile => [profile]
  | .addBlocks rows => rows.map ScheduleBlock.profile
  | .addLogs rows => rows.filterMap id
  | _ => []

abbrev Shared (α : Type) := Sessions Database Write Row α

end IsadoraAir.ScheduleProfiles

/-!
## Profile lifecycle services

The services of `schedule_profiles.py` as routines of queries, locks and writes,
each query with what it returns. A request has read its profile before; of the
arguments, texts are `str(value or "")`, and numbers and UUIDs are parsed.
-/

namespace IsadoraAir.ScheduleProfiles

/-- What a refused request raises. -/
inductive Fault where
  | lifecycleError (message : String)
  | conflict (message : String) (blockers : List String)
  | staleActivation (message : String) (currentActiveUuid : Uuid)
  | stateError (message : String)
  | doesNotExist
  | integrityError
  | protectedError
  | dataError
  | valueError
  deriving DecidableEq

/-- The values of a new profile; its key and its UUID come with the row. -/
structure Values where
  name : Text
  description : Text
  sortOrder : ℤ

inductive Action where
  | readState
  | profileIds
  | lockState
  | lockProfile (profile : ℕ)
  | maxSortOrder
  /-- `.exclude(pk=own).filter(name=name).exists()` -/
  | isNameTaken (name : Text) (own : Option ℕ)
  | sourceRows (source : ℕ) (includeDateOverrides : Bool)
  | countBlocks (profile : ℕ)
  | countLogs (profile : ℕ)
  | insert (values : Values)
  | write (w : Write)
  | commit
  | rollback

abbrev Action.Result : Action → Type
  | .readState => Option StateRow
  | .profileIds => List ℕ
  | .lockState => Option LockedState
  | .lockProfile _ => Option Profile
  | .maxSortOrder => Option ℤ
  | .isNameTaken _ _ => Bool
  | .sourceRows _ _ => List ScheduleBlock
  | .countBlocks _ | .countLogs _ => ℕ
  | .insert _ => Except Fault (ℕ × Profile)
  | .write _ | .commit => Except Fault Unit
  | .rollback => Unit

abbrev Service := Routine Action.Result Fault

abbrev perform (a : Action) : Service a.Result := Routine.perform a

/-- `transaction.atomic` -/
def atomic {α : Type} (body : Service α) : Service α := do
  let result : Except Fault α ← body.attempt
  match result with
  | .ok a =>
    let committed ← perform .commit
    match committed with
    | .ok _ => pure a
    | .error e => .raise e
  | .error e =>
    let _ ← perform .rollback
    .raise e

def get {α : Type} : Option α → Service α
  | some a => pure a
  | none => .raise .doesNotExist

def orRaise {α : Type} : Except Fault α → Service α
  | .ok a => pure a
  | .error e => .raise e

def raiseIf (condition : Prop) [Decidable condition] (fault : Fault) : Service Unit :=
  if condition then .raise fault else pure ()

/-- `ScheduleProfileState.load` -/
def load : Service StateRow := do
  let state ← perform .readState
  match state with
  | some row => pure row
  | none =>
    let profileIds ← perform .profileIds
    match profileIds with
    | [profile] =>
      let created ← perform (.write (.createState profile))
      let _ ← orRaise created
      let row ← perform .readState
      get row
    | [] => .raise (.stateError ("ScheduleProfileState is missing and cannot be reconstructed " ++
        "safely: no schedule profile exists. Restore the singleton row (pk=1) with the " ++
        "intended active_profile and default_profile; nothing was changed."))
    | _ => .raise (.stateError ("ScheduleProfileState is missing and cannot be reconstructed " ++
        "safely: more than one schedule profile exists, so the active and default profiles " ++
        "are ambiguous. Restore the singleton row (pk=1) with the intended active_profile " ++
        "and default_profile; nothing was changed."))

def lockedState : Service LockedState := do
  let _ ← load
  let state ← perform .lockState
  get state

/-- `ScheduleProfile.objects.select_for_update().get` -/
def lockedProfile (profile : ℕ) : Service Profile := do
  let row ← perform (.lockProfile profile)
  get row

def nameMaxLength : ℕ := 100

def cleanName (name : Text) : Except Fault Text :=
  let value := name.strip
  if value = [] then .error (.lifecycleError "name is required")
  else if nameMaxLength < value.length then .error (.lifecycleError "name is too long")
  else .ok value

def nextSortOrder : Service ℤ := do
  let current ← perform .maxSortOrder
  pure (current.getD 0 + 10)

/-- What an `IntegrityError` is turned into. -/
def nameConflict {α : Type} (name : Text) (own : Option ℕ) (fault : Fault) : Service α :=
  if fault = .integrityError then do
    let taken ← perform (.isNameTaken name own)
    .raise (if taken then
      .lifecycleError "A schedule profile with that name already exists." else fault)
  else .raise fault

/-- What a request is answered. -/
inductive Answer where
  | profile (id : ℕ) (row : Profile)
  | state (row : StateRow) (changed : Bool)
  | changedProfile (id : ℕ) (row : Profile) (changed : Bool)
  | identity (uuid : Uuid) (name : Text)
  | done
  deriving DecidableEq

/-- A new profile with its rows, in a transaction of their own. -/
def inserted (name : Text) (body : Service (ℕ × Profile)) : Service Answer := do
  let result : Except Fault (ℕ × Profile) ← (atomic body).attempt
  match result with
  | .ok (id, row) => pure (.profile id row)
  | .error fault => nameConflict name none fault

def createSortOrder : Option ℤ → Service ℤ
  | none => nextSortOrder
  | some value => pure value

def createProfile (name description : Text) (sortOrder : Option ℤ) : Service Answer := do
  let name ← orRaise (cleanName name)
  let sortOrder ← createSortOrder sortOrder
  inserted name do
    let _ ← load
    let created ← perform (.insert ⟨name, description, sortOrder⟩)
    orRaise created

/-- The changes that a request asks for; a number may be malformed. -/
structure Changes where
  name : Option Text
  description : Option Text
  sortOrder : Option (Option ℤ)
  /-- The other keys, in the order of `sorted`. -/
  others : List String

/-- The fields that differ from the row. -/
def Edit.changed (e : Edit) (p : Profile) : Edit where
  name := e.name.filter (· ≠ p.name)
  description := e.description.filter (· ≠ p.description)
  sortOrder := e.sortOrder.filter (· ≠ p.sortOrder)

def sortOrderChange : Option (Option ℤ) → Except Fault (Option ℤ)
  | none => .ok none
  | some (some value) => .ok (some value)
  | some none => .error (.lifecycleError "sort_order must be an integer")

def nameChange : Option Text → Except Fault (Option Text)
  | none => .ok none
  | some name => (cleanName name).map some

def editProfile (profile : ℕ) (changes : Changes) : Service Answer :=
  atomic do
    let row ← lockedProfile profile
    raiseIf row.isArchived (.conflict
      "Archived profiles are read-only; restore this profile before editing it." [])
    raiseIf ("uuid" ∈ changes.others) (.lifecycleError "uuid is immutable")
    raiseIf (changes.others ≠ [])
      (.lifecycleError ("Unsupported fields: " ++ ", ".intercalate changes.others))
    let name ← orRaise (nameChange changes.name)
    let sortOrder ← orRaise (sortOrderChange changes.sortOrder)
    let e : Edit := Edit.changed ⟨name, changes.description, sortOrder⟩ row
    if e = ⟨none, none, none⟩ then pure (.profile profile row)
    else do
      let saved ← perform (.write (.edit profile e))
      match saved with
      | .ok _ => pure (.profile profile (e.apply row))
      | .error fault => nameConflict (e.apply row).name (some profile) fault

/-- The source's description is the one the request has read. -/
structure Source where
  profile : ℕ
  description : Text

def cloneBlock (clone : ℕ) (row : ScheduleBlock) : ScheduleBlock := { row with profile := clone }

def cloneSortOrder : Option (Option ℤ) → Service ℤ
  | none => nextSortOrder
  | some (some value) => pure value
  | some none => .raise .valueError

def cloneProfile (source : Source) (name : Text) (description : Option Text)
    (sortOrder : Option (Option ℤ)) (includeDateOverrides : Bool) : Service Answer := do
  let name ← orRaise (cleanName name)
  inserted name do
    let sortOrder ← cloneSortOrder sortOrder
    let created ← perform (.insert ⟨name, description.getD source.description, sortOrder⟩)
    let clone ← orRaise created
    let rows ← perform (.sourceRows source.profile includeDateOverrides)
    let copied ← perform (.write (.addBlocks (rows.map (cloneBlock clone.1))))
    let _ ← orRaise copied
    pure clone

inductive Expected where
  | missing
  | malformed
  | uuid (uuid : Uuid)
  deriving DecidableEq

def expectedUuid : Expected → Except Fault Uuid
  | .missing => .error (.lifecycleError "expected_active_profile_uuid is required")
  | .malformed => .error (.lifecycleError "expected_active_profile_uuid must be a valid UUID")
  | .uuid uuid => .ok uuid

/-- The write, if the row is to change, and the answer. -/
def saveIf (changes : Prop) [Decidable changes] (w : Write) (answer : Bool → Answer) :
    Service Answer :=
  if changes then do
    let saved ← perform (.write w)
    let _ ← orRaise saved
    pure (answer true)
  else pure (answer false)

def activateProfile (profile : ℕ) (expected : Expected) : Service Answer :=
  atomic do
    let expectedUuid ← orRaise (expectedUuid expected)
    let state ← lockedState
    let row ← lockedProfile profile
    raiseIf row.isArchived (.conflict "Archived profiles cannot be activated." [])
    raiseIf (state.activeProfile.uuid ≠ expectedUuid) (.staleActivation
      "The active profile changed after this page was loaded." state.activeProfile.uuid)
    saveIf (state.row.activeProfile ≠ profile) (.activate profile)
      (.state { state.row with activeProfile := profile })

def setDefaultProfile (profile : ℕ) : Service Answer :=
  atomic do
    let state ← lockedState
    let row ← lockedProfile profile
    raiseIf row.isArchived (.conflict "Archived profiles cannot be set as default." [])
    saveIf (state.row.defaultProfile ≠ profile) (.setDefault profile)
      (.state { state.row with defaultProfile := profile })

/-- Why the profile is in use. -/
def pointerBlockers (state : StateRow) (profile : ℕ) : List String :=
  (if state.activeProfile = profile then ["profile is active"] else []) ++
    if state.defaultProfile = profile then ["profile is default"] else []

def archiveProfile (profile : ℕ) : Service Answer :=
  atomic do
    let state ← lockedState
    let row ← lockedProfile profile
    let blockers := pointerBlockers state.row profile
    raiseIf (blockers ≠ []) (.conflict "This profile cannot be archived." blockers)
    saveIf (row.isArchived = false) (.setArchived profile true)
      (.changedProfile profile { row with isArchived := true })

def restoreProfile (profile : ℕ) : Service Answer :=
  atomic do
    let row ← lockedProfile profile
    saveIf (row.isArchived = true) (.setArchived profile false)
      (.changedProfile profile { row with isArchived := false })

def countBlockers (blockCount logCount : ℕ) : List String :=
  (if blockCount ≠ 0 then
    ["profile has " ++ toString blockCount ++ " schedule block(s)"] else []) ++
  if logCount ≠ 0 then
    ["profile is referenced by " ++ toString logCount ++ " playlist log(s)"] else []

def deleteProfile (profile : ℕ) : Service Answer :=
  atomic do
    let state ← lockedState
    let row ← lockedProfile profile
    let blockCount ← perform (.countBlocks profile)
    let logCount ← perform (.countLogs profile)
    let blockers := pointerBlockers state.row profile ++ countBlockers blockCount logCount
    raiseIf (blockers ≠ []) (.conflict "This profile cannot be deleted." blockers)
    let deleted ← perform (.write (.delete profile))
    let _ ← orRaise deleted
    pure (.identity row.uuid row.name)

/-- What the schedule editor and the log builder do to the rows that refer to profiles. -/
inductive RowChange where
  | addBlocks (rows : List ScheduleBlock)
  | removeBlocks (rows : List ScheduleBlock)
  | addLogs (rows : List (Option ℕ))
  | removeLogs (rows : List (Option ℕ))

def RowChange.write : RowChange → Write
  | .addBlocks rows => .addBlocks rows
  | .removeBlocks rows => .removeBlocks rows
  | .addLogs rows => .addLogs rows
  | .removeLogs rows => .removeLogs rows

def changeRows (change : RowChange) : Service Answer :=
  atomic do
    let saved ← perform (.write change.write)
    let _ ← orRaise saved
    pure .done

inductive Call where
  | create (name description : Text) (sortOrder : Option ℤ)
  | edit (profile : ℕ) (changes : Changes)
  | clone (source : Source) (name : Text) (description : Option Text)
      (sortOrder : Option (Option ℤ)) (includeDateOverrides : Bool)
  | activate (profile : ℕ) (expected : Expected)
  | setDefault (profile : ℕ)
  | archive (profile : ℕ)
  | restore (profile : ℕ)
  | delete (profile : ℕ)
  | changeRows (change : RowChange)

def program : Call → Service Answer
  | .create name description sortOrder => createProfile name description sortOrder
  | .edit profile changes => editProfile profile changes
  | .clone source name description sortOrder includeDateOverrides =>
    cloneProfile source name description sortOrder includeDateOverrides
  | .activate profile expected => activateProfile profile expected
  | .setDefault profile => setDefaultProfile profile
  | .archive profile => archiveProfile profile
  | .restore profile => restoreProfile profile
  | .delete profile => deleteProfile profile
  | .changeRows change => changeRows change

end IsadoraAir.ScheduleProfiles
