import IsadoraAir.Foundation.PyError
import IsadoraAir.Foundation.PyValue

/-!
# Cue markers

The eight markers of a track, what protects each of them, and the checks a
changed marker has to pass.
-/

namespace IsadoraAir.CueMarkers

inductive Marker where
  | cueInSeconds
  | cueOutSeconds
  | nextStartSeconds
  | introUntilSeconds
  | sweepStartSeconds
  | outroStartsSeconds
  | hookInSeconds
  | hookOutSeconds
  deriving DecidableEq

def Marker.name : Marker → String
  | .cueInSeconds => "cue_in_seconds"
  | .cueOutSeconds => "cue_out_seconds"
  | .nextStartSeconds => "next_start_seconds"
  | .introUntilSeconds => "intro_until_seconds"
  | .sweepStartSeconds => "sweep_start_seconds"
  | .outroStartsSeconds => "outro_starts_seconds"
  | .hookInSeconds => "hook_in_seconds"
  | .hookOutSeconds => "hook_out_seconds"

/-- `MARKERS` -/
def markers : List Marker :=
  [.cueInSeconds, .cueOutSeconds, .nextStartSeconds, .introUntilSeconds, .sweepStartSeconds,
    .outroStartsSeconds, .hookInSeconds, .hookOutSeconds]

theorem Marker.name_injective : Function.Injective Marker.name := by
  intro a b h
  cases a <;> cases b <;> first | rfl | exact absurd h (by decide)

/-- The marker a request names, if it is one. -/
def Marker.ofName? (name : String) : Option Marker := markers.find? fun m => m.name = name

theorem Marker.ofName?_eq_some {name : String} {m : Marker} :
    Marker.ofName? name = some m ↔ m.name = name := by
  constructor
  · intro h
    simpa using List.find?_some h
  · rintro rfl
    cases m <;> decide

/-- `ORDER`: earlier, later, and whether strictly. -/
def order : List (Marker × Marker × Bool) :=
  [(.cueInSeconds, .cueOutSeconds, false), (.cueInSeconds, .nextStartSeconds, false),
    (.nextStartSeconds, .cueOutSeconds, false), (.cueInSeconds, .introUntilSeconds, false),
    (.outroStartsSeconds, .cueOutSeconds, false), (.hookInSeconds, .hookOutSeconds, true)]

/-- `DURATION_TOLERANCE_SECONDS`, the double 0.05. -/
def durationTolerance : ℚ := 3602879701896397 / 2 ^ 56

/-- The absolute tolerance of `_same`, the double 1e-6. -/
def sameTolerance : ℚ := 4722366482869645 / 2 ^ 72

/-- What leaves a call through an exception. -/
inductive Raised where
  | overflowError
  | attributeError
  | typeError
  | databaseError
  deriving DecidableEq

/-- A value as a caller submits it. An integer is the double it becomes in the column, a string
comes with what `float` makes of it. -/
inductive Submitted where
  | none
  | bool (value : Bool)
  | number (value : Double)
  | tooLarge
  | text (value : String) (parsed : Option Double)
  | other
  deriving DecidableEq

def Submitted.ofColumn : Option Double → Submitted
  | Option.none => .none
  | some x => .number x

/-- `float(value)`, where `ValueError` and `TypeError` give no number. -/
def Submitted.float : Submitted → Except Raised (Option Double)
  | .none => .ok Option.none
  | .bool b => .ok (some (.finite (if b then 1 else 0)))
  | .number x => .ok (some x)
  | .tooLarge => .error .overflowError
  | .text _ parsed => .ok parsed
  | .other => .ok Option.none

/-- A track row, as the authority locks it. Cue In is a column that is never null; the state is
the dictionary that only this authority writes. -/
structure Row where
  value : Marker → Option Double
  state : Dict String PyValue
  revision : ℕ
  durationSeconds : Option Double
  waveformPath : String
  cueIn_ne_none : value .cueInSeconds ≠ none

/-- `_same(a, b)` for two column values. -/
def sameColumn : Option Double → Option Double → Bool
  | none, none => true
  | some a, some b => a.isClose sameTolerance b
  | _, _ => false

/-- `_same(a, b)` for a column value and a submitted one. -/
def same (a : Option Double) (b : Submitted) : Except Raised Bool :=
  match a, b with
  | none, .none => .ok true
  | none, _ => .ok false
  | some _, .none => .ok false
  | some _, .other => .ok false
  | some x, b => b.float.map fun number => number.elim false (x.isClose sameTolerance)

/-! ## Protection -/

inductive Protection where
  | locked
  | unlocked
  | review
  | legacy
  | unset
  deriving DecidableEq

/-- `PROTECTED` -/
def Protection.isProtected : Protection → Bool
  | .locked => true
  | .review => true
  | .legacy => true
  | .unlocked => false
  | .unset => false

def Protection.text : Protection → PyValue
  | .locked => .text "locked"
  | .unlocked => .text "unlocked"
  | .review => .text "review"
  | .legacy => .text "legacy"
  | .unset => .text "unset"

def neverAnalyzed (row : Row) : Bool := row.waveformPath = ""

/-- The protection an entry states, if it is one of the three that are stored. -/
def statedProtection (entry : Option PyValue) : Option Protection :=
  (entry.bind PyValue.dict?).bind fun items =>
    match PyValue.get items "protection" with
    | .text "locked" => some .locked
    | .text "unlocked" => some .unlocked
    | .text "review" => some .review
    | _ => none

/-- `protection_of(name, row)` -/
def protectionOf (m : Marker) (row : Row) : Protection :=
  match statedProtection (row.state.get? m.name) with
  | some protection => protection
  | none =>
      match row.value m with
      | none => .unset
      | some x =>
          if m = .cueInSeconds ∧ sameColumn (some x) (some .zero) = true ∧ neverAnalyzed row = true
          then .unset
          else .legacy

/-! ## Coercion and validation -/

inductive CoerceError where
  | valueError (m : Marker)
  | overflowError

/-- `coerce(name, value)` -/
def coerce (m : Marker) : Submitted → Except CoerceError (Option Double)
  | .none => .ok none
  | .text "" _ => .ok none
  | .bool _ => .error (.valueError m)
  | .number x => .ok (some x)
  | .tooLarge => .error .overflowError
  | .text _ (some x) => .ok (some x)
  | .text _ none => .error (.valueError m)
  | .other => .error (.valueError m)

/-- A problem with a changed marker, or with an ordered pair. -/
inductive Problem where
  | cueInEmpty
  | notFinite (m : Marker)
  | negative (m : Marker)
  | pastEnd (m : Marker) (value limit : ℚ)
  | outOfOrder (earlier later : Marker) (strict : Bool)
  deriving DecidableEq

/-- The duration when it is a finite positive number. -/
def limitOf : Submitted → Except Raised (Option ℚ)
  | .bool b => .ok (if b then some 1 else none)
  | .number (.finite q) => .ok (if 0 < q then some q else none)
  | .tooLarge => .error .overflowError
  | _ => .ok none

/-- The first loop of `validate`, for one marker. -/
def checkValue (limit : Option ℚ) (m : Marker) : Submitted → Except Raised (Option Problem)
  | .none => .ok (if m = .cueInSeconds then some .cueInEmpty else none)
  | .tooLarge => .error .overflowError
  | .number (.finite q) =>
      .ok (if q < 0 then some (.negative m)
        else limit.bind fun l =>
          if Double.round (l + durationTolerance) < q then some (.pastEnd m q l) else none)
  | _ => .ok (some (.notFinite m))

/-- A validated value as a number. -/
def Submitted.number? : Submitted → Option Double
  | .number x => some x
  | _ => Option.none

/-- The second loop of `validate`, for one pair. -/
def checkPair (final : Marker → Submitted) (changed : List Marker) :
    Marker × Marker × Bool → Option Problem
  | (earlier, later, strict) =>
      if earlier ∉ changed ∧ later ∉ changed then none
      else
        match (final earlier).number?, (final later).number? with
        | some a, some b =>
            if a.gt b = true ∨ (strict = true ∧ a.eq b = true) then
              some (.outOfOrder earlier later strict)
            else none
        | _, _ => none

/-- `validate(final, changed, duration)` -/
def validate (final : Marker → Submitted) (changed : List Marker) (duration : Submitted) :
    Except Raised (List Problem) := do
  let limit ← limitOf duration
  let problems ← changed.mapM fun m => checkValue limit m (final m)
  if problems.filterMap id ≠ [] then return problems.filterMap id
  return order.filterMap (checkPair final changed)

end IsadoraAir.CueMarkers
