import IsadoraAir.DuplicateResolution.Station
import IsadoraAir.Foundation.Routine

/-!
# Preview and apply

The requests of `library_duplicate_resolution.py`. A preview writes nothing and
signs a token for each pair that can be applied; an apply request redeems one
token, spends its nonce and resolves the pair in one transaction.
-/

namespace IsadoraAir.DuplicateResolution

/-! ## Tokens -/

/-- What a token says of a deletion that was previewed. -/
structure DeleteEntry where
  finding : String
  keep : TrackId
  discard : TrackId
  fingerprints : Fingerprints
  suggestions : List ℤ
  voicetracks : ℕ
  deriving DecidableEq

inductive PlanEntry where
  | keepBoth (finding : String) (tracks : List TrackId)
  | delete (entry : DeleteEntry)
  deriving DecidableEq

structure Plan where
  user : ℕ
  scan : String
  nonce : String
  entry : PlanEntry
  /-- When it was signed, in whole seconds. -/
  signedAt : ℤ
  deriving DecidableEq

/-- The number of a signed token; no other token is valid. -/
abbrev Token := ℕ

inductive Unsigned where
  | expired
  | bad
  deriving DecidableEq

/-- `TOKEN_MAX_AGE_SECONDS` -/
def tokenMaxAge : ℤ := 10 * 60 * 1000000

/-- `MAX_SELECTIONS` -/
def maxSelections : ℕ := 25

/-- `ResolutionRefused` -/
inductive Refusal where
  | newerScan
  | scanIncomplete
  | noSelection
  | tooManySelections
  | badSelection
  | previewFirst
  | expired
  | invalidToken
  | foreign
  | badChoice
  | confirmFirst
  | alreadyUsed
  | busy
  deriving DecidableEq

/-! ## Selections -/

/-- A field is `none` where the request has nothing of its type. -/
structure RawSelection where
  findingId : Option String
  action : Option String
  keep : Option ℤ
  discard : Option ℤ

inductive Selection where
  | keepBoth (finding : String)
  | delete (finding : String) (keep discard : TrackId)
  deriving DecidableEq

def Selection.finding : Selection → String
  | .keepBoth finding => finding
  | .delete finding _ _ => finding

def parseSelection (raw : RawSelection) : Except Refusal Selection := do
  let finding ← orRaise raw.findingId .badSelection
  if raw.action = some "keep_both" then pure (.keepBoth finding)
  else
    raiseIf (raw.action ≠ some "delete") .badSelection
    let keep ← orRaise raw.keep .badSelection
    let discard ← orRaise raw.discard .badSelection
    pure (.delete finding keep discard)

def parseSelections (raw : Option (List RawSelection)) : Except Refusal (List Selection) := do
  let items := raw.getD []
  raiseIf (items = []) .noSelection
  raiseIf (maxSelections < items.length) .tooManySelections
  items.mapM parseSelection

inductive Key where
  | finding (id : String)
  | track (id : TrackId)
  deriving DecidableEq

def Selection.keys : Selection → List Key
  | .keepBoth finding => [.finding finding]
  | .delete finding keep discard => [.finding finding, .track keep, .track discard]

/-- The keys by the selection that names them first, and the conflicting selections. -/
abbrev Seen := Dict Key ℕ × List ℕ

def seeKey (index : ℕ) (seen : Seen) (key : Key) : Seen :=
  match seen.1.get? key with
  | some first => (seen.1, seen.2 ++ [index, first])
  | none => (seen.1.insert key index, seen.2)

def seeSelection (seen : Seen) (item : Selection × ℕ) : Seen :=
  item.1.keys.foldl (seeKey item.2) seen

/-- The selections that name a finding or a Track that another one names. -/
def conflicts (selections : List Selection) : List ℕ :=
  (selections.zipIdx.foldl seeSelection (.empty, [])).2

/-! ## The choice of the operator -/

/-- `none` is no object, and no list of category ids. -/
structure RawChoice where
  categories : Option (List ℤ)
  acknowledgeVoicetracks : Bool

structure Choice where
  categories : List ℤ
  acknowledgeVoicetracks : Bool
  deriving DecidableEq

def parseChoice (raw : Option RawChoice) : Except Refusal Choice := do
  let raw ← orRaise raw .badChoice
  let categories ← orRaise raw.categories .badChoice
  pure ⟨categories.dedup.insertionSort (· ≤ ·), raw.acknowledgeVoicetracks⟩

/-! ## The pair's transaction -/

/-- How an apply request ends for its pair. -/
inductive Outcome where
  | stale
  | refused
  | blocked (reasons : List Blocker)
  | stillReferenced (names : List String)
  | needsAcknowledgment (voicetracks : ℕ)
  | failed
  | deleted (added : List ℤ) (voicetracks : ℕ)
  | recorded
  | alreadyDecided (resolution : String)
  deriving DecidableEq

/-- One deletion that an apply request asks for. -/
structure Job where
  plan : Plan
  report : Report
  finding : Finding
  entry : DeleteEntry
  choice : Choice
  observed : Observed

/-- Everything is checked again under the locks of both rows. -/
def recheck (job : Job) (localHour : ℤ → ℤ × ℕ) (now : ℤ) (w : Station) :
    Except Outcome Inspection := do
  let inspection ← (inspect job.finding job.entry.keep job.entry.discard job.observed localHour
    now w).mapError fun _ => .stale
  raiseIf (inspection.fingerprints ≠ job.entry.fingerprints) .stale
  raiseIf (inspection.blockers ≠ []) (.blocked inspection.blockers)
  raiseIf (inspection.voicetracks ≠ job.entry.voicetracks) .stale
  raiseIf (inspection.voicetracks ≠ 0 ∧ job.choice.acknowledgeVoicetracks = false)
    (.needsAcknowledgment inspection.voicetracks)
  raiseIf (¬job.choice.categories ⊆ inspection.suggestions) .stale
  pure inspection

/-- `bulk_create(..., ignore_conflicts=True)` -/
def addCategories (w : Station) (track : TrackId) (categories : List ℤ) : Station :=
  let rows := categories.map fun category => (track, category)
  { w with additional := w.additional ++ rows.filter (· ∉ w.additional) }

/-- The row, with what goes with it; logs and play events keep their rows. -/
def deleteTrack (w : Station) (track : TrackId) : Station :=
  { w with
    tracks := w.tracks.erase track
    additional := w.additional.filter fun row => row.1 ≠ track
    voicetracks := w.voicetracks.filter (· ≠ track)
    logItems := w.logItems.map fun item => { item with track := item.track.filter (· ≠ track) }
    playEvents :=
      w.playEvents.map fun event => { event with track := event.track.filter (· ≠ track) }
    decisions := ⟨w.decisions.items.filter fun item => item.1.1 ≠ track ∧ item.1.2 ≠ track,
      w.decisions.nodup.sublist (List.filter_sublist.map _)⟩ }

/-- The categories and the deletion together. -/
def resolve (job : Job) (w : Station) : Station :=
  deleteTrack (addCategories w job.entry.keep job.choice.categories) job.entry.discard

/-- What `record_keep_both` finds and does. -/
def keepBoth (a b : TrackId) (w : Station) : Outcome × Station :=
  if w.tracks.get? a = none ∨ w.tracks.get? b = none then (.stale, w)
  else
    match w.decisions.get? (a, b) with
    | some resolution =>
      if resolution ≠ "unresolved" then (.alreadyDecided resolution, w)
      else (.recorded, { w with decisions := w.decisions.insert (a, b) "keep_both" })
    | none => (.recorded, { w with decisions := w.decisions.insert (a, b) "keep_both" })

/-! ## Actions -/

inductive ClaimResult where
  | claimed
  | alreadyUsed
  | busy
  deriving DecidableEq

inductive Action where
  | loadReport
  | protection
  | engine
  | now
  | look
  | sign (user : ℕ) (scan : String) (entry : PlanEntry)
  | loads (token : Token)
  | claim (nonce : String)
  /-- Expired claims are removed, if that is possible. -/
  | purge
  | pair (job : Job)
  | keepBoth (a b : TrackId)
  /-- What other programs do, a new report, the time that goes by. -/
  | edit (f : Station → Station)
  | publish (report : Report)
  | elapse (microseconds : ℕ)

abbrev Action.Result : Action → Type
  | .loadReport => Option Report
  | .protection => Protection
  | .engine => Except EngineProblem Engine
  | .now => ℤ
  | .look => Station
  | .sign _ _ _ => Token
  | .loads _ => Except Unsigned Plan
  | .claim _ => ClaimResult
  | .pair _ | .keepBoth _ _ => Outcome
  | .purge | .edit _ | .publish _ | .elapse _ => Unit

abbrev Service := Routine Action.Result Refusal

abbrev perform (a : Action) : Service a.Result := Routine.perform a

def check {α : Type} (x : Except Refusal α) : Service α :=
  match x with
  | .ok a => pure a
  | .error e => .raise e

/-- `_report` -/
def latestReport (scan : String) : Service Report := do
  let report ← perform .loadReport
  match report with
  | some report =>
    if report.scanId ≠ scan then .raise .newerScan
    else if report.status ≠ "complete" then .raise .scanIncomplete
    else pure report
  | none => .raise .newerScan

/-! ## Preview -/

inductive Item where
  | conflicting
  | noFinding
  | noPair
  | ineligible (why : Ineligible)
  | otherTracks
  | noTrack (role : Role)
  | blocked (reasons : List Blocker)
  | eligible (token : Token)
  | needsAcknowledgment (token : Token)
  deriving DecidableEq

/-- The rows, the categories, the two files and the rest, one after the other. -/
def observe (keep : TrackId) : Service Station := do
  let rows ← perform .look
  let categories ← perform .look
  let keptFile ← perform .look
  let discardedFile ← perform .look
  let rest ← perform .look
  let keptPath := (rows.tracks.get? keep).map Columns.filepath
  pure { rest with
    tracks := rows.tracks
    additional := categories.additional
    lstat := fun path =>
      if keptPath = some path then keptFile.lstat path else discardedFile.lstat path }

/-- The outside of the code: the station's time zone, and `hashlib.sha256(..).hexdigest()`. -/
structure Config where
  localHour : ℤ → ℤ × ℕ
  sha256 : String → String

variable (cfg : Config)

def previewDelete (user : ℕ) (report : Report) (f : Finding) (keep discard : TrackId)
    (observed : Observed) (now : ℤ) : Service Item :=
  match findingEligibility f with
  | .error why => pure (.ineligible why)
  | .ok _ =>
    if ¬(keep ∈ f.members ∧ discard ∈ f.members ∧ ∀ track ∈ f.members, track ∈ [keep, discard]) ∨
        keep = discard then
      pure .otherTracks
    else do
      let station ← observe keep
      match inspect f keep discard observed cfg.localHour now station with
      | .error role => pure (.noTrack role)
      | .ok inspection =>
        if inspection.blockers ≠ [] then pure (.blocked inspection.blockers)
        else do
          let token ← perform (.sign user report.scanId (.delete ⟨f.id, keep, discard,
            inspection.fingerprints, inspection.suggestions, inspection.voicetracks⟩))
          pure (if inspection.voicetracks = 0 then .eligible token else .needsAcknowledgment token)

def previewItem (user : ℕ) (report : Report) (observed : Observed) (now : ℤ)
    (selection : Selection) : Service Item :=
  match report.finding? selection.finding with
  | none => pure .noFinding
  | some f =>
    match selection with
    | .keepBoth id =>
      if f.members.length ≠ 2 then pure .noPair
      else do
        let token ← perform (.sign user report.scanId
          (.keepBoth id (f.members.insertionSort (· ≤ ·))))
        pure (.eligible token)
    | .delete _ keep discard => previewDelete cfg user report f keep discard observed now

/-- A selection by its index in the batch. -/
def previewSelection (user : ℕ) (report : Report) (observed : Observed) (now : ℤ)
    (conflicting : List ℕ) (selection : Selection) (index : ℕ) : Service Item :=
  if index ∈ conflicting then pure .conflicting
  else previewItem cfg user report observed now selection

def previewItems (user : ℕ) (report : Report) (observed : Observed) (now : ℤ)
    (conflicting : List ℕ) : List (Selection × ℕ) → Service (List Item)
  | [] => pure []
  | (selection, index) :: rest => do
    let item ← previewSelection cfg user report observed now conflicting selection index
    let items ← previewItems user report observed now conflicting rest
    pure (item :: items)

def preview (user : ℕ) (scan : String) (raw : Option (List RawSelection)) :
    Service (List Item) := do
  let report ← latestReport scan
  let selections ← check (parseSelections raw)
  let protection ← perform .protection
  let now ← perform .now
  let engine ← perform .engine
  previewItems cfg user report ⟨protection, engine⟩ now (conflicts selections) selections.zipIdx

/-! ## Apply -/

def redeem (token : Option Token) (user : ℕ) : Service Plan :=
  match token with
  | none => .raise .previewFirst
  | some token => do
    let plan ← perform (.loads token)
    match plan with
    | .error .expired => .raise .expired
    | .error .bad => .raise .invalidToken
    | .ok plan => if plan.user ≠ user then .raise .foreign else pure plan

/-- Spend a nonce; what has expired is removed afterwards. -/
def claim (nonce : String) : Service Unit := do
  let result ← perform (.claim nonce)
  match result with
  | .alreadyUsed => .raise .alreadyUsed
  | .busy => .raise .busy
  | .claimed => perform .purge

/-- The finding still offers this pair. -/
def offers (f : Finding) (entry : DeleteEntry) : Bool :=
  (findingEligibility f).toBool ∧ f.members.insertionSort (· ≤ ·) =
    [entry.keep, entry.discard].insertionSort (· ≤ ·)

def applyDelete (plan : Plan) (report : Report) (finding : Option Finding) (entry : DeleteEntry)
    (choice : Choice) (observed : Observed) : Service Outcome :=
  match finding with
  | none => pure .stale
  | some f =>
    if offers f entry = false then pure .stale
    else if ¬choice.categories ⊆ entry.suggestions then pure .refused
    else perform (.pair ⟨plan, report, f, entry, choice, observed⟩)

def applyKeepBoth (finding : Option Finding) (tracks : List TrackId) : Service Outcome :=
  match finding, tracks with
  | some f, [a, b] =>
    if f.members.insertionSort (· ≤ ·) ≠ [a, b] then pure .stale else perform (.keepBoth a b)
  | _, _ => pure .stale

def apply (token : Option Token) (rawChoice : Option RawChoice) (confirm : Bool) (user : ℕ) :
    Service Outcome := do
  let plan ← redeem token user
  let choice ← check (parseChoice rawChoice)
  match plan.entry with
  | .delete entry => do
    check (raiseIf (confirm = false) .confirmFirst)
    let report ← latestReport plan.scan
    claim plan.nonce
    let engine ← perform .engine
    let protection ← perform .protection
    applyDelete plan report (report.finding? entry.finding) entry choice ⟨protection, engine⟩
  | .keepBoth finding tracks => do
    let report ← latestReport plan.scan
    claim plan.nonce
    applyKeepBoth (report.finding? finding) tracks

inductive Call where
  | preview (user : ℕ) (scan : String) (raw : Option (List RawSelection))
  | apply (token : Option Token) (rawChoice : Option RawChoice) (confirm : Bool) (user : ℕ)
  | clearSessions
  | edit (f : Station → Station)
  | publish (report : Report)
  | elapse (microseconds : ℕ)

inductive Answer where
  | items (items : List Item)
  | outcome (outcome : Outcome)
  | done

def program : Call → Service Answer
  | .preview user scan raw => do
    let items ← preview cfg user scan raw
    pure (.items items)
  | .apply token rawChoice confirm user => do
    let outcome ← apply token rawChoice confirm user
    pure (.outcome outcome)
  | .clearSessions => do
    perform .purge
    pure .done
  | .edit f => do
    perform (.edit f)
    pure .done
  | .publish report => do
    perform (.publish report)
    pure .done
  | .elapse microseconds => do
    perform (.elapse microseconds)
    pure .done

end IsadoraAir.DuplicateResolution
