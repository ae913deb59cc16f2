import IsadoraAir.CueMarkers.Markers

/-!
# The two writers

An operator edit and a calculation, each as the locked section runs it: a row,
a request and what the clock and the guards say, to a result and a row.
-/

namespace IsadoraAir.CueMarkers

open PyValue (get dict? storableItems)

abbrev Items := List (String × PyValue)

/-! ## Entries -/

def sourceUnknown : PyValue := .text "unknown"

/-- `(entry or {})`, of which only a dictionary has methods. -/
def itemsOf (entry : Option PyValue) : Except Raised Items :=
  match entry with
  | some (.dict items) => .ok items
  | some value => if value.truthy = true then .error .attributeError else .ok []
  | none => .ok []

/-- `_resolved(entry)` -/
def resolved (items : Items) : Items :=
  items.filter fun item => item.1 ∉ ["review_reason", "audio_changed_at"]

def historyKeys : List String := ["approval_history", "previous_approval"]

/-- `_without_history(entry)` -/
def withoutHistory (items : Items) : Items := items.filter fun item => item.1 ∉ historyKeys

def revisionValue (audioRevision : Option String) : PyValue := audioRevision.elim .none .text

/-- `_approved_for(entry, audio_revision)` -/
def approvedFor (entry : Option PyValue) (audioRevision : Option String) : Bool :=
  match audioRevision, entry with
  | some revision, some (.dict items) =>
      (get items "protection").equal (.text "locked") &&
        (get items "audio_revision").equal (.text revision)
  | _, _ => false

/-- `_retired_approval(entry, value, now, reason, new_audio_revision)` -/
def retiredApproval (entry : Option PyValue) (value : Option Double) (now reason : String)
    (newAudioRevision : Option String) : Option Items :=
  match entry with
  | some (.dict items) =>
      if (get items "protection").equal (.text "locked") = true then
        some (["source", "set_at", "set_by", "approved_at", "approved_by", "audio_revision"].map
            (fun key => (key, get items key)) ++
          [("value", value.elim .none .number), ("retired_at", .text now),
            ("retired_reason", .text reason),
            ("retired_for_audio_revision", revisionValue newAudioRevision)])
      else none
  | _ => none

/-- `approval_history(entry)` -/
def approvalHistory : Option PyValue → Except Raised (List Items)
  | some (.dict items) => do
      let history ← match get items "approval_history" with
        | .list records => .ok (records.filterMap dict?)
        | .text _ => .ok []
        | .dict _ => .ok []
        | value => if value.truthy = true then .error .typeError else .ok []
      match get items "previous_approval" with
      | .dict previous =>
          if history.getLast?.any fun last => (PyValue.dict last).equal (.dict previous) then
            return history
          else return history ++ [previous]
      | _ => return history
  | _ => .ok []

/-- `_with_history(new_entry, previous_entry, retired)` -/
def withHistory (newEntry : Items) (previous : Option PyValue) (retired : Option Items) :
    Except Raised Items := do
  let entry := withoutHistory newEntry
  let history := (← approvalHistory previous) ++ retired.toList
  match history.getLast? with
  | some last =>
      return Dict.put "previous_approval" (.dict last)
        (Dict.put "approval_history" (.list (history.map .dict)) entry)
  | none => return entry

/-! ## Requests and results -/

structure User where
  pk : ℤ
  isAuthenticated : Bool
  deriving DecidableEq

/-- `_user_id(user)` -/
def userId : Option User → PyValue
  | some user => if user.isAuthenticated then .number (.finite user.pk) else .none
  | none => .none

/-- The clock, and whether another guard refuses the columns. -/
structure Moment where
  now : String
  writeRefused : Bool
  deriving DecidableEq

structure EditRequest where
  /-- The revision, if an integer and not a boolean was sent. -/
  expectedRevision : Option ℤ
  user : Option User
  values : Dict String Submitted
  approve : List String
  unlock : List String
  audioRevision : Option String
  confirmProtected : Option (List String)

structure CalculationRequest where
  values : Dict String Submitted
  /-- The integer that the basis equals, if any. -/
  basisRevision : Option ℤ
  source : String
  requestedBy : Option User
  override : List String
  overrideConfirmed : Bool
  mediaReplaced : Bool
  audioRevision : Option String
  /-- `None` stands for the duration of the track. -/
  duration : Submitted

inductive Refusal where
  | notMarkers (names : List String)
  | overlap (names : List String)
  | revisionRequired
  | notNumber (m : Marker)
  | trackNotFound
  | confirmationRequired (markers : List Marker)
  | problems (problems : List Problem)
  | writeRefused
  | invalidCalculation (names : List String) (source : String)
  | overrideUnconfirmed
  deriving DecidableEq

structure Result where
  ok : Bool := true
  revision : Option ℕ := none
  changed : List (Marker × Option Double × Submitted) := []
  approved : List Marker := []
  unlocked : List Marker := []
  preserved : List (Marker × Protection) := []
  superseded : List (Marker × Protection) := []
  review : List Marker := []
  overridden : List Marker := []
  skipped : List (Marker × String) := []
  confirmationRequired : List Marker := []
  conflict : Option (Option ℤ × ℕ) := none
  error : Option Refusal := none
  deriving DecidableEq

def Result.refused (error : Refusal) : Result := { ok := false, error := some error }

/-- What the loops of a call have gathered. -/
structure Draft where
  state : Dict String PyValue
  newValues : List (Marker × Submitted)
  result : Result

/-- The names that are markers, with what was submitted for each. -/
def namedMarkers (values : Dict String Submitted) : List (Marker × Submitted) :=
  values.items.filterMap fun item => (Marker.ofName? item.1).map (·, item.2)

def unknownNames (names : List String) : List String :=
  names.filter fun name => Marker.ofName? name = none

/-- `{name: new_values.get(name, row[name])}` -/
def finalValues (row : Row) (newValues : List (Marker × Submitted)) (m : Marker) : Submitted :=
  (Dict.find m newValues).getD (.ofColumn (row.value m))

/-! ## The write -/

/-- The row after the update, unless the database refuses it. -/
def write (row : Row) (newValues : List (Marker × Submitted)) (state : Dict String PyValue) :
    Except Raised Row :=
  let value (m : Marker) : Option Double := (finalValues row newValues m).number?
  if h : value .cueInSeconds ≠ none then
    if storableItems state.items = true then
      .ok { row with value := value, state := state, revision := row.revision + 1, cueIn_ne_none := h }
    else .error .databaseError
  else .error .databaseError

/-- `_commit(result, row, values, state)` -/
def commit (moment : Moment) (row : Row) (draft : Draft) : Except Raised (Result × Row) :=
  if draft.newValues = [] ∧ (PyValue.dict draft.state.items).equal (.dict row.state.items) = true then
    .ok ({ draft.result with revision := some row.revision }, row)
  else if moment.writeRefused = true then
    .ok ({ draft.result with
      ok := false, error := some .writeRefused, revision := some row.revision, changed := [] }, row)
  else do
    let after ← write row draft.newValues draft.state
    return ({ draft.result with revision := some after.revision }, after)

/-! ## Operator edits -/

/-- One turn of the loop over the submitted values. -/
def editValue (request : EditRequest) (moment : Moment) (row : Row) (draft : Draft)
    (item : Marker × Option Double) : Except Raised Draft := do
  let (m, value) := item
  let who := userId request.user
  let stored := draft.state.get? m.name
  let previous := stored.bind fun entry => entry.dict?.map PyValue.dict
  let entry ← withHistory
    [("protection", .text "locked"), ("source", .text "operator"), ("set_at", .text moment.now),
      ("set_by", who), ("approved_at", .text moment.now), ("approved_by", who),
      ("audio_revision", revisionValue request.audioRevision)]
    previous (retiredApproval previous (row.value m) moment.now "replaced_by_operator"
      request.audioRevision)
  let entry := match protectionOf m row, row.value m with
    | .legacy, some old => Dict.put "replaced_historical_value"
        (.dict [("value", .number old), ("replaced_at", .text moment.now)]) entry
    | _, _ => entry
  if sameColumn (row.value m) value = true then
    let items ← itemsOf stored
    if (PyValue.get items "protection").equal (.text "locked") = true then
      return { draft with result := { draft.result with
        skipped := draft.result.skipped ++ [(m, "unchanged and already locked")] } }
    let kept := if resolved items = [] then [("source", sourceUnknown)] else resolved items
    let approved := Dict.put "audio_revision" (revisionValue request.audioRevision)
      (Dict.put "approved_by" who (Dict.put "approved_at" (.text moment.now)
        (Dict.put "protection" (.text "locked") kept)))
    return { draft with
      state := draft.state.insert m.name (.dict approved)
      result := { draft.result with approved := draft.result.approved ++ [m] } }
  return { draft with
    newValues := draft.newValues ++ [(m, .ofColumn value)]
    state := draft.state.insert m.name (.dict entry)
    result := { draft.result with
      changed := draft.result.changed ++ [(m, row.value m, .ofColumn value)] } }

/-- `state.get(name) or {"source": SOURCE_UNKNOWN}` -/
def entryOrUnknown (entry : Option PyValue) : Except Raised Items := do
  let items ← itemsOf entry
  return if items = [] then [("source", sourceUnknown)] else items

/-- `audio_revision is None or previous.get("audio_revision") == audio_revision` -/
def sameRevision (request : EditRequest) (previous : Items) : Bool :=
  match request.audioRevision with
  | none => true
  | some revision => (PyValue.get previous "audio_revision").equal (.text revision)

/-- One turn of the loop over the markers to approve. -/
def approveMarker (request : EditRequest) (moment : Moment) (row : Row) (draft : Draft)
    (m : Marker) : Except Raised Draft := do
  if row.value m = none then
    return { draft with result := { draft.result with
      skipped := draft.result.skipped ++ [(m, "no value to approve")] } }
  let previous ← entryOrUnknown (draft.state.get? m.name)
  if (PyValue.get previous "protection").equal (.text "locked") = true ∧
      (PyValue.get previous "approved_by").equal .none = false ∧
      sameRevision request previous = true then
    return { draft with result := { draft.result with
      skipped := draft.result.skipped ++ [(m, "already approved and locked")] } }
  let entry ← withHistory
    (Dict.put "audio_revision" (revisionValue request.audioRevision)
      (Dict.put "approved_by" (userId request.user) (Dict.put "approved_at" (.text moment.now)
        (Dict.put "protection" (.text "locked") (resolved previous)))))
    (some (.dict previous))
    (retiredApproval (some (.dict previous)) (row.value m) moment.now "reapproved"
      request.audioRevision)
  return { draft with
    state := draft.state.insert m.name (.dict entry)
    result := { draft.result with approved := draft.result.approved ++ [m] } }

/-- One turn of the loop over the markers to unlock. -/
def unlockMarker (request : EditRequest) (moment : Moment) (row : Row) (draft : Draft)
    (m : Marker) : Except Raised Draft := do
  if row.value m = none then
    return { draft with result := { draft.result with
      skipped := draft.result.skipped ++ [(m, "no value to unlock")] } }
  let previous ← entryOrUnknown (draft.state.get? m.name)
  if (PyValue.get previous "protection").equal (.text "unlocked") = true then
    return { draft with result := { draft.result with
      skipped := draft.result.skipped ++ [(m, "already unlocked")] } }
  let entry ← withHistory
    (Dict.put "unlocked_by" (userId request.user) (Dict.put "unlocked_at" (.text moment.now)
      (Dict.put "protection" (.text "unlocked") (resolved previous))))
    (some (.dict previous))
    (retiredApproval (some (.dict previous)) (row.value m) moment.now "unlocked" none)
  return { draft with
    state := draft.state.insert m.name (.dict entry)
    result := { draft.result with unlocked := draft.result.unlocked ++ [m] } }

/-- The markers whose protected value an edit would replace without the operator's word. -/
def unconfirmed (request : EditRequest) (row : Row) (values : List (Marker × Option Double)) :
    List Marker :=
  match request.confirmProtected with
  | none => []
  | some confirmed => (values.filter fun item =>
      sameColumn (row.value item.1) item.2 = false ∧
        (protectionOf item.1 row).isProtected = true ∧ item.1.name ∉ confirmed).map Prod.fst

/-- The final check of both writers, and the write. -/
def finish (moment : Moment) (row : Row) (duration : Submitted) (draft : Draft)
    (invalid : Result → Result) : Except Raised (Result × Row) := do
  let problems ← validate (finalValues row draft.newValues) (draft.newValues.map Prod.fst) duration
  if problems ≠ [] then
    return ({ invalid draft.result with
      ok := false, error := some (.problems problems), revision := some row.revision }, row)
  commit moment row draft

/-- The locked section of `operator_edit`, with the coerced values. -/
def editLocked (request : EditRequest) (moment : Moment) (row : Row)
    (values : List (Marker × Option Double)) : Except Raised (Result × Row) := do
  if request.expectedRevision ≠ some (row.revision : ℤ) then
    return ({ ({} : Result) with
      ok := false, revision := some row.revision,
      conflict := some (request.expectedRevision, row.revision) }, row)
  if unconfirmed request row values ≠ [] then
    return ({ ({} : Result) with
      ok := false, revision := some row.revision,
      confirmationRequired := unconfirmed request row values,
      error := some (.confirmationRequired (unconfirmed request row values)) }, row)
  let draft ← values.foldlM (editValue request moment row) ⟨row.state, [], {}⟩
  let draft ← (request.approve.filterMap Marker.ofName?).foldlM (approveMarker request moment row) draft
  let draft ← (request.unlock.filterMap Marker.ofName?).foldlM (unlockMarker request moment row) draft
  finish moment row (.ofColumn row.durationSeconds) draft fun result =>
    { result with changed := [], approved := [], unlocked := [] }

/-- The values of a request as floats, or the refusal of the first that is not a number. -/
def coerceValues : List (Marker × Submitted) →
    Except Raised (Except Refusal (List (Marker × Option Double)))
  | [] => .ok (.ok [])
  | (m, submitted) :: rest =>
      match coerce m submitted with
      | .error (.valueError m) => .ok (.error (.notNumber m))
      | .error .overflowError => .error .overflowError
      | .ok value => (coerceValues rest).map fun coerced => coerced.map ((m, value) :: ·)

/-- `operator_edit`: the result, or what it raises, and the row after it. -/
def operatorEdit (request : EditRequest) (moment : Moment) (row : Option Row) :
    Except Raised (Result × Option Row) :=
  let names := request.values.keys
  let unknown := unknownNames (names ++ request.approve ++ request.unlock)
  let overlap := request.unlock.filter fun name => name ∈ names ∨ name ∈ request.approve
  if unknown ≠ [] then .ok (.refused (.notMarkers unknown), row)
  else if overlap ≠ [] then .ok (.refused (.overlap overlap), row)
  else if request.expectedRevision = none then .ok (.refused .revisionRequired, row)
  else do
    match ← coerceValues (namedMarkers request.values) with
    | .error refusal => return (.refused refusal, row)
    | .ok values =>
        match row with
        | none => return (.refused .trackNotFound, none)
        | some locked => do
            let (result, after) ← editLocked request moment locked values
            return (result, some after)

/-! ## Calculations -/

/-- `media_replaced and not _approved_for(previous, audio_revision)` -/
def replacing (request : CalculationRequest) (entry : Option PyValue) : Bool :=
  request.mediaReplaced && !approvedFor entry request.audioRevision

/-- The result once a marker is to be replaced: protection superseded or overridden. -/
def noteProtection (m : Marker) (protection : Protection) (replaces unchanged : Bool)
    (result : Result) : Result :=
  if replaces = true then
    if protection.isProtected = true ∧ unchanged = false then
      { result with superseded := result.superseded ++ [(m, protection)] }
    else result
  else if protection.isProtected = true then { result with overridden := result.overridden ++ [m] }
  else result

/-- The entry of a calculated marker. -/
def calculatedEntry (request : CalculationRequest) (moment : Moment) (row : Row) (m : Marker)
    (stored : Option PyValue) (replaces overrides unchanged : Bool) : Except Raised Items := do
  let previous := stored.bind fun entry => entry.dict?.map PyValue.dict
  let entry : Items :=
    [("protection", .text "unlocked"), ("source", .text request.source),
      ("set_at", .text moment.now), ("set_by", userId request.requestedBy),
      ("audio_revision", revisionValue request.audioRevision)]
  let entry ← if overrides = true then do
      let items := withoutHistory (← itemsOf stored)
      let replaced := if items = [] then [("source", sourceUnknown)] else items
      pure (Dict.put "overridden_from" (.dict replaced) entry)
    else pure entry
  let entry ← withHistory entry previous (retiredApproval previous (row.value m) moment.now
    (if replaces = true then "new_media" else "recalculated") request.audioRevision)
  if replaces = true ∧ protectionOf m row = .legacy ∧ unchanged = false then
    return Dict.put "replaced_historical_value"
      (.dict [("value", (row.value m).elim .none .number), ("replaced_at", .text moment.now)]) entry
  return entry

/-- One turn of the loop over the calculated values. -/
def applyValue (request : CalculationRequest) (moment : Moment) (row : Row) (draft : Draft)
    (item : Marker × Submitted) : Except Raised Draft :=
  let (m, value) := item
  let protection := protectionOf m row
  let stored := draft.state.get? m.name
  let replaces := replacing request (stored.bind fun entry => entry.dict?.map PyValue.dict)
  let overrides : Bool := m.name ∈ request.override
  if replaces = false ∧ protection.isProtected = true ∧ overrides = false then
    .ok { draft with result := { draft.result with
      preserved := draft.result.preserved ++ [(m, protection)] } }
  else do
    let unchanged ← same (row.value m) value
    let result := noteProtection m protection replaces unchanged draft.result
    if unchanged = true ∧ replaces = false ∧ overrides = false then
      return { draft with result := { result with skipped := result.skipped ++ [(m, "unchanged")] } }
    let entry ← calculatedEntry request moment row m stored replaces overrides unchanged
    let state := draft.state.insert m.name (.dict entry)
    if unchanged = true then return { draft with state := state, result := result }
    return ⟨state, draft.newValues ++ [(m, value)],
      { result with changed := result.changed ++ [(m, row.value m, value)] }⟩

/-- One turn of the loop over the markers that the new media does not supply. -/
def carryMarker (request : CalculationRequest) (moment : Moment) (row : Row) (draft : Draft)
    (m : Marker) : Except Raised Draft := do
  let previous := (draft.state.get? m.name).bind PyValue.dict?
  if m.name ∈ request.values.keys ∨ row.value m = none ∨
      approvedFor (previous.map .dict) request.audioRevision = true then
    return draft
  match protectionOf m row, previous with
  | .locked, some items => do
      let source := ((Dict.find "source" items).getD sourceUnknown)
      let entry ← withHistory
        [("protection", .text "review"), ("source", source), ("set_at", PyValue.get items "set_at"),
          ("set_by", PyValue.get items "set_by"),
          ("review_reason", .text "the audio was replaced after this marker was approved"),
          ("audio_changed_at", .text moment.now)]
        (some (.dict items)) (retiredApproval (some (.dict items)) (row.value m) moment.now
          "new_media" request.audioRevision)
      return { draft with
        state := draft.state.insert m.name (.dict entry)
        result := { draft.result with review := draft.result.review ++ [m] } }
  | _, _ =>
      return { draft with
        state := draft.state.insert m.name
          (.dict (Dict.put "audio_changed_at" (.text moment.now) (previous.getD []))) }

/-- `duration if duration is not None else row["duration_seconds"]` -/
def calculationDuration (request : CalculationRequest) (row : Row) : Submitted :=
  if request.duration = .none then .ofColumn row.durationSeconds else request.duration

/-- The locked section of `apply_calculation`. -/
def applyLocked (request : CalculationRequest) (moment : Moment) (row : Row) :
    Except Raised (Result × Row) := do
  if request.basisRevision ≠ some (row.revision : ℤ) then
    return ({ ({} : Result) with
      ok := false, revision := some row.revision,
      conflict := some (request.basisRevision, row.revision) }, row)
  let draft ← (namedMarkers request.values).foldlM (applyValue request moment row) ⟨row.state, [], {}⟩
  let draft ← if request.mediaReplaced = true then
      markers.foldlM (carryMarker request moment row) draft
    else pure draft
  finish moment row (calculationDuration request row) draft fun result =>
    { result with changed := [], superseded := [], overridden := [] }

/-- An override without an operator's request, its confirmation or a calculated value. -/
def overrideUnconfirmed (request : CalculationRequest) : Bool :=
  request.override ≠ [] && (request.requestedBy = none || !request.overrideConfirmed ||
    request.override.any fun name => name ∉ request.values.keys)

/-- `apply_calculation`: the result, or what it raises, and the row after it. -/
def applyCalculation (request : CalculationRequest) (moment : Moment) (row : Option Row) :
    Except Raised (Result × Option Row) :=
  let unknown := unknownNames request.values.keys
  if unknown ≠ [] ∨ request.source ∉ ["analysis", "generated", "unknown"] then
    .ok (.refused (.invalidCalculation unknown request.source), row)
  else if overrideUnconfirmed request = true then .ok (.refused .overrideUnconfirmed, row)
  else
    match row with
    | none => .ok (.refused .trackNotFound, none)
    | some locked => do
        let (result, after) ← applyLocked request moment locked
        return (result, some after)

end IsadoraAir.CueMarkers
