import Mathlib.Data.Fintype.Option
import IsadoraAir.Foundation.Dict
import IsadoraAir.Foundation.TextLines

/-!
# Spoken items

The lifecycle, the columns of an item, and the plans that change them.
-/

/-!
## The lifecycle of a spoken item

`lifecycle.py`: the fixed table of transitions, shared by the transition service
and the write guard, with the columns that each transition may write.
-/

namespace IsadoraAir.Spoken

inductive ItemState where
  | draft
  | submitted
  | validated
  | processing
  | processed
  | awaitingReview
  | delivered
  | superseded
  | recalled
  | expired
  | invalid
  | failed
  | rejected
  deriving DecidableEq

namespace ItemState

instance fintype : Fintype ItemState where
  elems := ⟨[draft, submitted, validated, processing, processed, awaitingReview, delivered,
    superseded, recalled, expired, invalid, failed, rejected], by decide⟩
  complete s := by cases s <;> decide


/-- `TERMINAL_STATES` -/
def isTerminal : ItemState → Bool
  | recalled | expired | invalid | rejected => true
  | _ => false

def value : ItemState → String
  | draft => "draft"
  | submitted => "submitted"
  | validated => "validated"
  | processing => "processing"
  | processed => "processed"
  | awaitingReview => "awaiting_review"
  | delivered => "delivered"
  | superseded => "superseded"
  | recalled => "recalled"
  | expired => "expired"
  | invalid => "invalid"
  | failed => "failed"
  | rejected => "rejected"

end ItemState

/-- The protected columns of an item. -/
inductive Column where
  | contentType
  | origin
  | submittedBy
  | submittedByUsername
  | title
  | notes
  | submissionMedia
  | renditionMedia
  | state
  | stateChangedAt
  | submittedAt
  | validatedAt
  | processingStartedAt
  | processedAt
  | deliveredAt
  | terminalAt
  | expiresAt
  | failureCode
  | failureDetail
  | reviewedBy
  | reviewedByUsername
  | reviewedAt
  | reviewNote
  | recalledBy
  | recalledByUsername
  | recalledAt
  | recallReason
  | processingAttempts
  | leaseToken
  | leaseExpiresAt
  deriving DecidableEq

structure Rule where
  event : String
  c2 : Bool := false
  columns : List Column := []
  deriving DecidableEq

def always : List Column := [.state, .stateChangedAt]
def terminalColumns : List Column := [.terminalAt]
def leaseColumns : List Column := [.leaseToken, .leaseExpiresAt]
def failureColumns : List Column := [.failureCode, .failureDetail]
def recallColumns : List Column :=
  [.recalledBy, .recalledByUsername, .recalledAt, .recallReason]
def deliveryColumns : List Column := [.deliveredAt, .expiresAt]
def reviewColumns : List Column :=
  [.reviewedBy, .reviewedByUsername, .reviewedAt, .reviewNote]
def attemptColumns : List Column :=
  leaseColumns ++ failureColumns ++ [.processingAttempts, .processingStartedAt]

/-- What item creation may set. -/
def createColumns : List Column :=
  [.contentType, .origin, .submittedBy, .submittedByUsername, .title, .notes, .state,
    .stateChangedAt]

/-- `TRANSITIONS`; `none` is an item that does not exist yet. -/
def transitions : Option ItemState → ItemState → Option Rule
  | none, .draft => some { event := "created" }
  | some .draft, .submitted =>
    some { event := "submitted", columns := [.submissionMedia, .submittedAt] }
  | some .submitted, .validated => some { event := "validated", columns := [.validatedAt] }
  | some .submitted, .invalid => some { event := "invalid", columns := failureColumns }
  | some .validated, .processing =>
    some { event := "processing_started", columns := attemptColumns }
  | some .processing, .processing =>
    some { event := "processing_reclaimed", columns := attemptColumns }
  | some .processing, .processed =>
    some { event := "processed", columns := leaseColumns ++ [.renditionMedia, .processedAt] }
  | some .processing, .failed =>
    some { event := "failed", columns := leaseColumns ++ failureColumns }
  | some .failed, .validated => some { event := "retried", columns := failureColumns }
  | some .processed, .awaitingReview => some { event := "review_requested" }
  | some .awaitingReview, .rejected => some { event := "rejected", columns := reviewColumns }
  | some .draft, .recalled => some { event := "recalled", columns := recallColumns }
  | some .submitted, .recalled => some { event := "recalled", columns := recallColumns }
  | some .validated, .recalled => some { event := "recalled", columns := recallColumns }
  | some .processed, .recalled => some { event := "recalled", columns := recallColumns }
  | some .awaitingReview, .recalled => some { event := "recalled", columns := recallColumns }
  | some .failed, .recalled => some { event := "recalled", columns := recallColumns }
  | some .processed, .delivered =>
    some { event := "delivered", c2 := true, columns := deliveryColumns }
  | some .awaitingReview, .delivered =>
    some { event := "approved_delivered", c2 := true, columns := deliveryColumns ++ reviewColumns }
  | some .delivered, .superseded => some { event := "superseded", c2 := true }
  | some .superseded, .delivered => some { event := "repromoted", c2 := true }
  | some .delivered, .recalled =>
    some { event := "recalled", c2 := true, columns := recallColumns }
  | some .delivered, .expired => some { event := "expired", c2 := true }
  | some .superseded, .recalled =>
    some { event := "recalled", c2 := true, columns := recallColumns }
  | some .superseded, .expired => some { event := "expired", c2 := true }
  | _, _ => none

/-- `C2B_PERFORMABLE` -/
def c2bPerformable : List (ItemState × ItemState) :=
  [(.processed, .delivered), (.awaitingReview, .delivered), (.delivered, .superseded),
    (.delivered, .recalled), (.delivered, .expired), (.superseded, .recalled),
    (.superseded, .expired)]

/-- `writable_columns` -/
def Rule.writable (rule : Rule) (toState : ItemState) : List Column :=
  always ++ rule.columns ++ if toState.isTerminal then terminalColumns else []

variable {s t : ItemState} {o : Option ItemState} {rule : Rule}

/-- Nothing leads out of a terminal state. -/
theorem transitions_of_terminal : ∀ s t : ItemState, s.isTerminal → transitions (some s) t = none := by
  decide

/-- The states by which an attempt starts or ends. -/
def ItemState.isAttempt : ItemState → Bool
  | .processing | .processed | .failed => true
  | _ => false

/-- An attempt is followed by another one, or has one of two outcomes. -/
theorem isAttempt_of_processing : ∀ t : ItemState, (transitions (some .processing) t).isSome →
    t.isAttempt := by
  decide

theorem from_of_outcome : ∀ (o : Option ItemState) (t : ItemState), t = .processed ∨ t = .failed →
    (transitions o t).isSome → o = some .processing := by
  decide

/-- An item that may have a rendition. -/
def ItemState.isRendered : ItemState → Bool
  | .processed | .awaitingReview | .delivered | .superseded | .recalled | .expired | .rejected => true
  | _ => false

theorem isRendered_of_transitions : ∀ s t : ItemState, s.isRendered →
    (transitions (some s) t).isSome → t.isRendered := by
  decide

/-- The columns that an attempt is about. -/
def attemptOnly : List Column := leaseColumns ++ [.renditionMedia]

/-- They are written where an attempt starts or ends, and nowhere else. -/
theorem writable_of_other : ∀ (o : Option ItemState) (t : ItemState), t.isAttempt = false →
    ∀ rule ∈ transitions o t,
    ∀ column ∈ attemptOnly, column ∉ rule.writable t ∧ column ∉ createColumns := by
  decide

end IsadoraAir.Spoken

/-!
## Spoken items and the plans that change them

The rows of `SpokenItem` and `SpokenItemEvent`, the plan of a transition, and
what the write guard executes: one plan, its row and its event together. An
event's `detail`, and the items of an import, are left out.
-/

namespace IsadoraAir.Spoken

variable {row : Item} {values : List Change}

/-- A UUID by its integer. -/
abbrev Uuid := ℕ

abbrev ItemId := Uuid
abbrev TypeId := Uuid
abbrev MediaId := Uuid
abbrev Token := Uuid
abbrev UserId := ℕ

/-- In microseconds. -/
abbrev Time := ℕ

inductive Origin where
  | submitted
  | assigned
  | imported
  deriving DecidableEq

structure Item where
  contentType : TypeId
  origin : Origin
  submittedBy : Option UserId
  submittedByUsername : Text
  title : Text
  notes : Text
  submissionMedia : Option MediaId
  renditionMedia : Option MediaId
  state : ItemState
  stateChangedAt : Option Time
  submittedAt : Option Time
  validatedAt : Option Time
  processingStartedAt : Option Time
  processedAt : Option Time
  deliveredAt : Option Time
  terminalAt : Option Time
  expiresAt : Option Time
  failureCode : Text
  failureDetail : Text
  reviewedBy : Option UserId
  reviewedByUsername : Text
  reviewedAt : Option Time
  reviewNote : Text
  recalledBy : Option UserId
  recalledByUsername : Text
  recalledAt : Option Time
  recallReason : Text
  processingAttempts : ℕ
  leaseToken : Option Token
  leaseExpiresAt : Option Time
  deriving DecidableEq

/-- The model's defaults. -/
def Item.blank : Item where
  contentType := 0
  origin := .submitted
  submittedBy := none
  submittedByUsername := []
  title := []
  notes := []
  submissionMedia := none
  renditionMedia := none
  state := .draft
  stateChangedAt := none
  submittedAt := none
  validatedAt := none
  processingStartedAt := none
  processedAt := none
  deliveredAt := none
  terminalAt := none
  expiresAt := none
  failureCode := []
  failureDetail := []
  reviewedBy := none
  reviewedByUsername := []
  reviewedAt := none
  reviewNote := []
  recalledBy := none
  recalledByUsername := []
  recalledAt := none
  recallReason := []
  processingAttempts := 0
  leaseToken := none
  leaseExpiresAt := none

/-- A protected column with its new value. -/
inductive Change where
  | contentType (value : TypeId)
  | origin (value : Origin)
  | submittedBy (value : Option UserId)
  | submittedByUsername (value : Text)
  | title (value : Text)
  | notes (value : Text)
  | submissionMedia (value : Option MediaId)
  | renditionMedia (value : Option MediaId)
  | state (value : ItemState)
  | stateChangedAt (value : Time)
  | submittedAt (value : Time)
  | validatedAt (value : Time)
  | processingStartedAt (value : Time)
  | processedAt (value : Time)
  | deliveredAt (value : Time)
  | terminalAt (value : Time)
  | expiresAt (value : Option Time)
  | failureCode (value : Text)
  | failureDetail (value : Text)
  | reviewedBy (value : Option UserId)
  | reviewedByUsername (value : Text)
  | reviewedAt (value : Time)
  | reviewNote (value : Text)
  | recalledBy (value : Option UserId)
  | recalledByUsername (value : Text)
  | recalledAt (value : Time)
  | recallReason (value : Text)
  | processingAttempts (value : ℕ)
  | leaseToken (value : Option Token)
  | leaseExpiresAt (value : Option Time)
  deriving DecidableEq

def Change.column : Change → Column
  | .contentType _ => .contentType
  | .origin _ => .origin
  | .submittedBy _ => .submittedBy
  | .submittedByUsername _ => .submittedByUsername
  | .title _ => .title
  | .notes _ => .notes
  | .submissionMedia _ => .submissionMedia
  | .renditionMedia _ => .renditionMedia
  | .state _ => .state
  | .stateChangedAt _ => .stateChangedAt
  | .submittedAt _ => .submittedAt
  | .validatedAt _ => .validatedAt
  | .processingStartedAt _ => .processingStartedAt
  | .processedAt _ => .processedAt
  | .deliveredAt _ => .deliveredAt
  | .terminalAt _ => .terminalAt
  | .expiresAt _ => .expiresAt
  | .failureCode _ => .failureCode
  | .failureDetail _ => .failureDetail
  | .reviewedBy _ => .reviewedBy
  | .reviewedByUsername _ => .reviewedByUsername
  | .reviewedAt _ => .reviewedAt
  | .reviewNote _ => .reviewNote
  | .recalledBy _ => .recalledBy
  | .recalledByUsername _ => .recalledByUsername
  | .recalledAt _ => .recalledAt
  | .recallReason _ => .recallReason
  | .processingAttempts _ => .processingAttempts
  | .leaseToken _ => .leaseToken
  | .leaseExpiresAt _ => .leaseExpiresAt

namespace Item

def set (row : Item) : Change → Item
  | .contentType value => { row with contentType := value }
  | .origin value => { row with origin := value }
  | .submittedBy value => { row with submittedBy := value }
  | .submittedByUsername value => { row with submittedByUsername := value }
  | .title value => { row with title := value }
  | .notes value => { row with notes := value }
  | .submissionMedia value => { row with submissionMedia := value }
  | .renditionMedia value => { row with renditionMedia := value }
  | .state value => { row with state := value }
  | .stateChangedAt value => { row with stateChangedAt := some value }
  | .submittedAt value => { row with submittedAt := some value }
  | .validatedAt value => { row with validatedAt := some value }
  | .processingStartedAt value => { row with processingStartedAt := some value }
  | .processedAt value => { row with processedAt := some value }
  | .deliveredAt value => { row with deliveredAt := some value }
  | .terminalAt value => { row with terminalAt := some value }
  | .expiresAt value => { row with expiresAt := value }
  | .failureCode value => { row with failureCode := value }
  | .failureDetail value => { row with failureDetail := value }
  | .reviewedBy value => { row with reviewedBy := value }
  | .reviewedByUsername value => { row with reviewedByUsername := value }
  | .reviewedAt value => { row with reviewedAt := some value }
  | .reviewNote value => { row with reviewNote := value }
  | .recalledBy value => { row with recalledBy := value }
  | .recalledByUsername value => { row with recalledByUsername := value }
  | .recalledAt value => { row with recalledAt := some value }
  | .recallReason value => { row with recallReason := value }
  | .processingAttempts value => { row with processingAttempts := value }
  | .leaseToken value => { row with leaseToken := value }
  | .leaseExpiresAt value => { row with leaseExpiresAt := value }

def setAll (row : Item) (values : List Change) : Item := values.foldl set row

/-- The columns that an attempt is about are left alone. -/
theorem setAll_of_other (h : ∀ c ∈ values, c.column ∉ attemptOnly) :
    (row.setAll values).leaseToken = row.leaseToken ∧
      (row.setAll values).leaseExpiresAt = row.leaseExpiresAt ∧
      (row.setAll values).renditionMedia = row.renditionMedia := by
  induction values generalizing row with
  | nil => exact ⟨rfl, rfl, rfl⟩
  | cons c values ih =>
    obtain ⟨hc, hvalues⟩ := List.forall_mem_cons.mp h
    have hset : (row.set c).leaseToken = row.leaseToken ∧
        (row.set c).leaseExpiresAt = row.leaseExpiresAt ∧
        (row.set c).renditionMedia = row.renditionMedia := by
      cases c with
      | leaseToken value | leaseExpiresAt value | renditionMedia value =>
        simp [Change.column, attemptOnly, leaseColumns] at hc
      | _ => exact ⟨rfl, rfl, rfl⟩
    obtain ⟨htoken, hexpiry, hmedia⟩ := @ih (row.set c) hvalues
    exact ⟨htoken.trans hset.1, hexpiry.trans hset.2.1, hmedia.trans hset.2.2⟩

/-- Where the rendition of a changed row comes from. -/
theorem renditionMedia_of_setAll {media : MediaId}
    (h : (row.setAll values).renditionMedia = some media) :
    row.renditionMedia = some media ∨ Change.renditionMedia (some media) ∈ values := by
  induction values generalizing row with
  | nil => exact .inl h
  | cons c values ih =>
    rcases @ih (row.set c) h with hset | hmem
    · cases c with
      | renditionMedia value =>
        simp only [set] at hset
        subst hset
        exact .inr List.mem_cons_self
      | _ => exact .inl hset
    · exact .inr (List.mem_cons_of_mem _ hmem)

end Item

inductive ActorKind where
  | user
  | system
  | worker
  deriving DecidableEq

/-- `SpokenItemEvent` -/
structure ItemEvent where
  item : ItemId
  event : String
  fromState : Option ItemState
  toState : ItemState
  actorKind : ActorKind
  actor : Option UserId
  actorUsername : Text
  media : Option MediaId
  asset : Option Uuid
  edition : Option Uuid
  deriving DecidableEq

structure TransitionPlan where
  item : ItemId
  fromState : Option ItemState
  toState : ItemState
  values : List Change
  event : ItemEvent
  deriving DecidableEq

/-- The grants under which the guard executes a plan. -/
inductive Grant where
  | itemCreate
  | itemWrite
  | projectedItemWrite
  deriving DecidableEq

structure Write where
  grant : Grant
  plan : TransitionPlan
  deriving DecidableEq

structure Database where
  items : Dict ItemId Item
  events : List ItemEvent

namespace Database

/-- The row of the item after the write. -/
def after (db : Database) (w : Write) : Item :=
  ((db.items.get? w.plan.item).getD Item.blank).setAll w.plan.values

/-- The item's UPDATE or INSERT, and the INSERT of its event. -/
def apply (db : Database) (w : Write) : Database where
  items := db.items.insert w.plan.item (db.after w)
  events := db.events ++ [w.plan.event]

def eventsOf (db : Database) (item : ItemId) : List ItemEvent :=
  db.events.filter fun e => e.item = item

end Database

/-! ### The guard -/

def Change.state? : Change → Option ItemState
  | .state value => some value
  | _ => none

/-- `values.get("state")` -/
def TransitionPlan.plannedState (plan : TransitionPlan) : Option ItemState :=
  (plan.values.filterMap Change.state?).getLast?

/-- The columns and the kind of transition that a grant is for. -/
def Write.isGranted (w : Write) (rule : Rule) : Bool :=
  let columns := w.plan.values.map Change.column
  match w.grant with
  | .itemCreate =>
    w.plan.fromState = none && columns.all (· ∈ createColumns) &&
      (Change.origin .submitted ∈ w.plan.values || Change.origin .assigned ∈ w.plan.values)
  | .itemWrite =>
    w.plan.fromState ≠ none && !rule.c2 && columns.all (· ∈ rule.writable w.plan.toState)
  | .projectedItemWrite =>
    w.plan.fromState.any (fun state => (state, w.plan.toState) ∈ c2bPerformable) && rule.c2 &&
      columns.all (· ∈ rule.writable w.plan.toState)

/-- `_check_record`: the fixed table allows the write, and the event records it. -/
def Write.authorized (w : Write) : Bool :=
  match transitions w.plan.fromState w.plan.toState with
  | none => false
  | some rule =>
    w.plan.plannedState = some w.plan.toState && w.plan.event.item = w.plan.item &&
      w.plan.event.event = rule.event && w.plan.event.fromState = w.plan.fromState &&
      w.plan.event.toState = w.plan.toState && w.isGranted rule

theorem Item.state_setAll (row : Item) (values : List Change) :
    (row.setAll values).state = (values.filterMap Change.state?).getLast?.getD row.state := by
  induction values using List.reverseRecOn with
  | nil => rfl
  | append_singleton values c ih =>
    rw [Item.setAll, List.foldl_append, List.filterMap_append]
    change ((row.setAll values).set c).state = _
    cases c with
    | state value => simp [Item.set, Change.state?]
    | _ => simpa [Item.set, Change.state?] using ih

/-- The row is in the state that the write is authorized from. -/
def Database.expects (db : Database) (w : Write) : Bool :=
  (db.items.get? w.plan.item).map Item.state = w.plan.fromState

/-! ### Paths through the table -/

/-- One event of an item in the state `current`. -/
def ItemEvent.advance (current : Option ItemState) (e : ItemEvent) : Option (Option ItemState) :=
  if e.fromState = current ∧ (transitions current e.toState).map Rule.event = some e.event then
    some (some e.toState)
  else none

/-- Where the events lead from an item that does not exist yet. -/
def replay (events : List ItemEvent) : Option (Option ItemState) :=
  events.foldlM ItemEvent.advance none

theorem replay_snoc {events : List ItemEvent} {current : Option ItemState} {e : ItemEvent}
    {rule : Rule} (h : replay events = some current) (hfrom : e.fromState = current)
    (hrule : transitions current e.toState = some rule) (hevent : e.event = rule.event) :
    replay (events ++ [e]) = some (some e.toState) := by
  unfold replay at h ⊢
  rw [List.foldlM_append, h]
  simp [ItemEvent.advance, hfrom, hrule, hevent]

end IsadoraAir.Spoken
