import IsadoraAir.Foundation.Json
import IsadoraAir.Foundation.Transaction

/-!
# Rows and compositions

The rows of the active-message domain, and the composition of an airing.
-/

/-!
## The rows of the active-message domain

The policy, the messages, the executions and the event history. A row id is the
canonical text of its UUID; a time is a number of microseconds; a duration is a
number of microseconds too.
-/

namespace IsadoraAir.ActiveMessages

abbrev Uuid := String

abbrev Time := ℤ

inductive MessageKind where
  | urgent | publicAddress
  deriving DecidableEq

inductive MessageState where
  | prepared | active | cleared | expired
  deriving DecidableEq

inductive ExecutionReason where
  | scheduled | manual | reconcile
  deriving DecidableEq

inductive ExecutionState where
  | pendingRender | ready | accepted | claimed | started | completed | suppressed | failed
  | interrupted
  deriving DecidableEq

inductive ActorKind where
  | user | system | worker | engine
  deriving DecidableEq

def MessageKind.value : MessageKind → String
  | .urgent => "urgent"
  | .publicAddress => "public_address"

def MessageState.value : MessageState → String
  | .prepared => "prepared"
  | .active => "active"
  | .cleared => "cleared"
  | .expired => "expired"

def ExecutionReason.value : ExecutionReason → String
  | .scheduled => "scheduled"
  | .manual => "manual"
  | .reconcile => "reconcile"

def ExecutionState.value : ExecutionState → String
  | .pendingRender => "pending_render"
  | .ready => "ready"
  | .accepted => "accepted"
  | .claimed => "claimed"
  | .started => "started"
  | .completed => "completed"
  | .suppressed => "suppressed"
  | .failed => "failed"
  | .interrupted => "interrupted"

/-- `TERMINAL_MESSAGE_STATES` -/
def MessageState.isTerminal (s : MessageState) : Bool := s = .cleared ∨ s = .expired

/-- `UNFINISHED_EXECUTION_STATES` -/
def ExecutionState.isUnfinished (s : ExecutionState) : Bool :=
  s = .pendingRender ∨ s = .ready ∨ s = .accepted ∨ s = .claimed ∨ s = .started

/-- `PRESTART_DOMAIN_STATES` -/
def ExecutionState.isPrestart (s : ExecutionState) : Bool := s = .pendingRender ∨ s = .ready

structure User where
  pk : ℕ
  username : String
  deriving DecidableEq

structure Policy where
  generation : ℕ
  defaultReplayIntervalSeconds : ℕ
  stingerKey : String
  maxActiveMessages : ℕ
  maxMessageSeconds : ℕ
  maxAggregateSeconds : ℕ
  nativeAiringEnabled : Bool
  deriving DecidableEq

structure Message where
  id : Uuid
  kind : MessageKind
  contentType : ℕ
  state : MessageState
  title : String
  producer : ℕ
  producerKey : String
  producerUsername : String
  messageMedia : Option Uuid
  stateChangedAt : Time
  expiresAt : Option Time
  activationGeneration : Option ℕ
  activatedBy : Option ℕ
  activatedByUsername : String
  activatedAt : Option Time
  replayIntervalSeconds : Option ℕ
  nextDueAt : Option Time
  terminalAt : Option Time
  terminalBy : Option ℕ
  terminalByUsername : String
  terminalReason : String
  supersededBy : Option Uuid
  lastCompletedAt : Option Time := none
  deriving DecidableEq

/-- The pinned registration of a stinger. -/
structure Pin where
  key : String
  reference : Uuid
  media : Uuid
  sha256 : String
  deriving DecidableEq

structure Component where
  message : Uuid
  kind : MessageKind
  contentType : ℕ
  contentTypeKey : String
  media : Uuid
  sha256 : String
  producerKey : String
  producerUsername : String
  activatedAt : String
  durationSeconds : String
  deriving DecidableEq

/-- The frozen composition of one airing. -/
structure Snapshot where
  components : List Component
  stinger : Option Pin
  stingerSeconds : Option String
  accountedSeconds : String
  stingerUnavailable : Option String
  deriving DecidableEq

structure Execution where
  id : Uuid
  reason : ExecutionReason
  state : ExecutionState
  openSlot : Option ℕ
  policyGeneration : ℕ
  compositionDigest : String
  compositionSnapshot : Snapshot
  componentCount : ℕ
  mixMedia : Option Uuid
  requestedBy : Option ℕ
  requestedByUsername : String
  createdAt : Time
  dueAt : Time
  readyAt : Option Time
  terminalAt : Option Time
  failureCode : String
  failureDetail : String
  dispatchedAt : Option Time := none
  acceptedAt : Option Time := none
  claimedAt : Option Time := none
  startedAt : Option Time := none
  endedAt : Option Time := none
  attemptToken : Option Uuid := none
  attemptCount : ℕ := 0
  engineInstance : String := ""
  confirmedDuration : Option ℤ := none
  deriving DecidableEq

structure Event where
  message : Option Uuid
  execution : Option Uuid
  event : String
  fromState : String
  toState : String
  actorKind : ActorKind
  actor : Option ℕ
  actorUsername : String
  generation : ℕ
  requestToken : Option Uuid
  detail : Json

/-- The rows; events and executions in the order of their insertion. -/
structure Store where
  policy : Policy
  messages : List Message
  executions : List Execution
  events : List Event

/-- The classes of `ActiveMessageError` raised here, and the integrity error of a write whose row
has changed. -/
inductive ErrorClass where
  | notPermitted | invalidRequest | invalidTransition | mediaRefused | limitExceeded
  | compositionIneligible | compositionBlocked | nothingActive | executionBusy | revisionConflict
  | contentTypeRefused | mixRefused | evidenceRefused | nativeAiringUnavailable | integrity
  deriving DecidableEq

structure ServiceError where
  kind : ErrorClass
  code : String
  message : String
  deriving DecidableEq

abbrev Tx (α : Type) := Transaction Store ServiceError α

end IsadoraAir.ActiveMessages

/-!
## The composition of an airing

What an aggregate airing contains, frozen as a snapshot, and the digest of the
part of it that determines the audio.
-/

namespace IsadoraAir.ActiveMessages

inductive DeliveryMode where
  | regular | publicAddress | urgent | test
  deriving DecidableEq

/-- `content_type.delivery_mode` as a message kind; `ACTIVE_MESSAGE_MODES` are those that have
one. -/
def DeliveryMode.kind? : DeliveryMode → Option MessageKind
  | .urgent => some .urgent
  | .publicAddress => some .publicAddress
  | .regular => none
  | .test => none

def DeliveryMode.display : DeliveryMode → String
  | .regular => "Regular library content"
  | .publicAddress => "Public address"
  | .urgent => "Urgent"
  | .test => "Test / no air"

structure ContentType where
  pk : ℕ
  key : String
  deliveryMode : DeliveryMode
  enabled : Bool
  producerSelfPublish : Option Bool
  recallable : Option Bool
  replayIntervalSeconds : Option ℕ
  deriving DecidableEq

/-- How a caller names a content type. -/
inductive TypeRef where
  | pk (n : ℕ)
  | key (s : String)
  deriving DecidableEq

structure Media where
  pk : Uuid
  isBed : Bool
  owner : Option ℕ
  sha256 : String
  decodedDuration : Option ℤ
  recipeParamsDigest : String
  deriving DecidableEq

inductive Capability where
  | produce | control
  deriving DecidableEq

/-- Why `lock_for_binding` refuses. -/
inductive BindingRefusal where
  | purged | notValidated | airingProhibited | inconsistent
  deriving DecidableEq

/-- What one call finds outside the domain's own rows: the server's time, the accounts, the
content types, the media, the reference audio, and the library functions it uses. -/
structure World where
  now : Time
  createdAt : Time
  /-- `none` allows; otherwise the reason and the code of the refusal. -/
  authorize : User → Capability → Option (String × String)
  resolve : TypeRef → Option ContentType
  isAssigned : User → ℕ → Bool
  lockForBinding : Uuid → Except BindingRefusal Media
  media : Uuid → Media
  typeKey : ℕ → String
  resolveReference : String → Except String (Pin × Option ℤ)
  proves : Media → Snapshot → Bool
  sha256 : String → String
  isoformat : Time → String

/-! ### Canonical text -/

/-- A character of a JSON text that is not made ASCII. -/
def plainChar (c : Char) : String :=
  if 127 ≤ c.toNat then String.singleton c else Json.escapeChar c

def plainQuote (s : String) : String := "\"" ++ String.join (s.toList.map plainChar) ++ "\""

mutual

/-- `canonical_json` -/
def canonicalJson : Json → String
  | .null => "null"
  | .bool b => if b then "true" else "false"
  | .int n => toString n
  | .float _ text => text
  | .str s => plainQuote s
  | .list items => "[" ++ ",".intercalate (canonicalList items) ++ "]"
  | .obj items =>
    "\x7b" ++ ",".intercalate ((Json.sortItems (canonicalItems items)).map fun p =>
      plainQuote p.1 ++ ":" ++ p.2) ++ "\x7d"

def canonicalList : List Json → List String
  | [] => []
  | x :: xs => canonicalJson x :: canonicalList xs

def canonicalItems : List (String × Json) → List (String × String)
  | [] => []
  | (k, v) :: items => (k, canonicalJson v) :: canonicalItems items

end

/-- `str(Decimal)` with six places. -/
def decimalText (micros : ℤ) : String :=
  let digits := toString (micros.natAbs % 1000000)
  (if micros < 0 then "-" else "") ++ toString (micros.natAbs / 1000000) ++ "." ++
    "".pushn '0' (6 - digits.length) ++ digits

/-! ### Snapshots -/

namespace Composition

def snapshotLimitBytes : ℕ := 32 * 1024

def absoluteMaxActiveMessages : ℕ := 24

def kindOrder : MessageKind → ℕ
  | .urgent => 0
  | .publicAddress => 1

/-- `order_key(a) <= order_key(b)`; an active message has its `activated_at`. -/
def orderLe (a b : Message) : Bool :=
  kindOrder a.kind < kindOrder b.kind ∨ kindOrder a.kind = kindOrder b.kind ∧
    (a.activatedAt.getD 0 < b.activatedAt.getD 0 ∨
      a.activatedAt.getD 0 = b.activatedAt.getD 0 ∧ a.id ≤ b.id)

def ordered (messages : List Message) : List Message := messages.mergeSort orderLe

/-- `message.message_media`, which an active message has. -/
def mediaOf (w : World) (m : Message) : Media := w.media (m.messageMedia.getD "")

def hasUrgent (messages : List Message) : Bool := messages.any fun m => m.kind = .urgent

def accountedSeconds (w : World) (messages : List Message) (stingerSeconds : Option ℤ) : ℤ :=
  (messages.map fun m => (mediaOf w m).decodedDuration.getD 0).sum +
    if hasUrgent messages then stingerSeconds.getD 0 else 0

def component (w : World) (m : Message) : Component where
  message := m.id
  kind := m.kind
  contentType := m.contentType
  contentTypeKey := w.typeKey m.contentType
  media := (mediaOf w m).pk
  sha256 := (mediaOf w m).sha256
  producerKey := m.producerKey
  producerUsername := m.producerUsername
  activatedAt := w.isoformat (m.activatedAt.getD 0)
  durationSeconds := decimalText ((mediaOf w m).decodedDuration.getD 0)

def pinJson (p : Pin) : Json :=
  .obj [("key", .str p.key), ("reference", .str p.reference), ("media", .str p.media),
    ("sha256", .str p.sha256)]

def componentJson (c : Component) : Json :=
  .obj [("message", .str c.message), ("kind", .str c.kind.value), ("content_type", .int c.contentType),
    ("content_type_key", .str c.contentTypeKey), ("media", .str c.media), ("sha256", .str c.sha256),
    ("producer_key", .str c.producerKey), ("producer_username", .str c.producerUsername),
    ("activated_at", .str c.activatedAt), ("duration_seconds", .str c.durationSeconds)]

def snapshotJson (s : Snapshot) : Json :=
  .obj ([("v", .int 1), ("components", .list (s.components.map componentJson)),
    ("stinger", Json.optional pinJson s.stinger),
    ("stinger_seconds", Json.optional .str s.stingerSeconds),
    ("accounted_seconds", .str s.accountedSeconds)] ++
      s.stingerUnavailable.toList.map fun code => ("stinger_unavailable", .str code))

/-- What a composition error says: its code and its text. -/
structure CompositionError where
  code : String
  message : String

/-- The snapshot of the ordered components. -/
def snapshotOf (w : World) (components : List Message) (stingerPin : Option Pin)
    (stingerUnavailable : String) (stingerSeconds : Option ℤ) : Snapshot :=
  let urgent := hasUrgent components
  let seconds := if urgent ∧ stingerPin.isSome then stingerSeconds else none
  { components := components.map (component w)
    stinger := if urgent then stingerPin else none
    stingerSeconds := seconds.map decimalText
    accountedSeconds := decimalText (accountedSeconds w components seconds)
    stingerUnavailable :=
      if urgent ∧ stingerUnavailable ≠ "" then some stingerUnavailable else none }

def build (w : World) (messages : List Message) (stingerPin : Option Pin)
    (stingerUnavailable : String) (stingerSeconds : Option ℤ) : Except CompositionError Snapshot :=
  let components := ordered messages
  let snapshot := snapshotOf w components stingerPin stingerUnavailable stingerSeconds
  if components = [] then
    .error ⟨"nothing_active", "an aggregate needs at least one active message"⟩
  else if absoluteMaxActiveMessages < components.length then
    .error ⟨"too_many_components", "at most " ++ toString absoluteMaxActiveMessages ++
      " messages can ever be combined"⟩
  else if snapshotLimitBytes < (canonicalJson (snapshotJson snapshot)).utf8ByteSize then
    .error ⟨"snapshot_too_large", "the composition snapshot exceeds its bound"⟩
  else .ok snapshot

/-- The audio-determining part of a snapshot. -/
def identity (s : Snapshot) : Json :=
  .obj [("v", .int 1),
    ("components", .list (s.components.map fun c =>
      .obj [("message", .str c.message), ("kind", .str c.kind.value), ("media", .str c.media),
        ("sha256", .str c.sha256)])),
    ("stinger", Json.optional pinJson s.stinger)]

def digest (w : World) (s : Snapshot) : String := w.sha256 (canonicalJson (identity s))

def messageIds (s : Snapshot) : List Uuid := s.components.map Component.message

/-- The snapshot names exactly the messages it is built from. -/
theorem messageIds_build {w : World} {messages : List Message} {pin : Option Pin}
    {unavailable : String} {seconds : Option ℤ} {snapshot : Snapshot}
    (h : build w messages pin unavailable seconds = .ok snapshot) :
    (messageIds snapshot).Perm (messages.map Message.id) := by
  simp only [build] at h
  split_ifs at h
  cases h
  have hordered : (ordered messages).Perm messages := List.mergeSort_perm messages orderLe
  simpa [messageIds, snapshotOf, component, Function.comp_def] using hordered.map Message.id

end Composition

end IsadoraAir.ActiveMessages
