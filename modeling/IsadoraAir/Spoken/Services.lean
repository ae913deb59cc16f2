import IsadoraAir.Foundation.Crew
import IsadoraAir.ProductionMedia.Store
import IsadoraAir.Spoken.Items

/-!
# The transition service

`transitions.py` as routines of queries, locks and writes. What the tables of
other domains show is answered from outside: a content type, a media, the render
that a type expects now, who manages a type. So is whether an event's detail is
strict JSON within its bound.
-/

namespace IsadoraAir.Spoken

/-- What is raised, with the code and the message of a service error. -/
inductive Fault where
  | invalidTransition (code message : String)
  | notPermitted (code message : String)
  | evidenceRefused (code message : String)
  | projectionError (code message : String)
  /-- `InvalidTransition`: the service would write a column that the transition does not. -/
  | unwritable (columns : List Column)
  | projectionRequired (message : String)
  | invalidEventDetail
  | spokenIntegrity
  | integrityError
  | doesNotExist
  | valueError
  | keyError
  deriving DecidableEq

structure User where
  pk : Option UserId
  username : Text
  isAuthenticated : Bool
  isStaff : Bool
  isSuperuser : Bool
  deriving DecidableEq

inductive RecallPolicy where
  | ownerUntilDelivered
  | ownerAnytime
  | managersOnly
  deriving DecidableEq

inductive DeliveryMode where
  | currentEdition
  | accumulating
  | retainOnly
  | unknown (value : String)
  deriving DecidableEq

/-- The columns of `SpokenContentType` that an item's operations read. -/
structure ContentType where
  enabled : Bool
  deliveryMode : DeliveryMode
  recipeKey : Text
  maxBytes : Option ℕ
  requiresReview : Bool
  recallPolicy : RecallPolicy
  defaultLifetime : Option Time
  deriving DecidableEq

/-- The columns of `ProductionMedia` that an item's operations read. -/
structure Media where
  kind : ProductionMedia.Kind
  byteSize : ℕ
  derivedFrom : Option MediaId
  retention : ProductionMedia.Retention
  airingProhibited : Bool
  validation : ProductionMedia.Validation
  validationCode : Text
  hasDuration : Bool
  recipeKey : Text
  recipeVersion : ℤ
  recipeParamsDigest : Text
  toolchain : Text
  deriving DecidableEq

structure ExpectedRender where
  recipeKey : Text
  recipeVersion : ℤ
  digest : Text
  deriving DecidableEq

/-- `SpokenAsset`, `SpokenAssetEdition` -/
inductive AssetState where
  | pending
  | live
  | retiring
  | retired
  | detached
  deriving DecidableEq

structure Asset where
  id : Uuid
  state : AssetState
  generation : ℕ
  deriving DecidableEq

structure Edition where
  isPending : Bool
  generation : ℕ
  deriving DecidableEq

/-- What the promotion of an edition replaces: the active edition, and the item it is of. -/
structure Replaced where
  edition : Option Uuid
  item : Option ItemId
  deriving DecidableEq

structure Found where
  row : Item
  type : ContentType
  deriving DecidableEq

inductive Action where
  | uuid4
  | now
  /-- `SpokenItem.objects.filter(pk=item).values_list("content_type_id")` -/
  | typeOf (item : ItemId)
  | stateOf (item : ItemId)
  | readItem (item : ItemId)
  | lockType (type : TypeId)
  | isTypeEnabled (type : TypeId)
  | lockItem (item : ItemId)
  | readMedia (media : MediaId)
  | lockMedia (media : MediaId)
  /-- `policy_duration_code(media.decoded_duration_seconds, media_policy_for(type))` -/
  | durationCode (media : MediaId) (type : TypeId)
  /-- `render.expected`; `none` where it raises. -/
  | expected (type : TypeId)
  /-- `SpokenItem.objects.filter(rendition_media_id=media).exclude(pk=item).exists()` -/
  | isBoundElsewhere (media : MediaId) (item : ItemId)
  /-- `any(check(user, type) for check in _TYPE_RECALL_AUTHORITIES)` -/
  | managesType (user : UserId) (type : TypeId)
  | encodesDetail
  /-- `_category_code`: the code of its refusal. -/
  | categoryRefusal (type : TypeId)
  | projectingAsset (item : ItemId)
  | isDeliveryInProgress (asset : Uuid) (item : ItemId)
  | createEdition (asset : Uuid) (item : ItemId)
  | readAsset (asset : Uuid)
  | readEdition (asset edition : Uuid)
  | enterUnavailable (asset : Uuid)
  /-- Publish the file, write the Track, activate the edition. -/
  | activateEdition (asset edition : Uuid) (item : ItemId)
  | assetOf (item : ItemId)
  /-- The edition that is ended, if the item is what the asset shows. -/
  | endEdition (asset : Uuid) (item : ItemId)
  | write (w : Write)
  | commit
  | rollback

abbrev Action.Result : Action → Type
  | .uuid4 => Uuid
  | .now => Time
  | .typeOf _ => Option TypeId
  | .stateOf _ => Option ItemState
  | .readItem _ | .lockItem _ => Option Found
  | .lockType _ => Option ContentType
  | .isTypeEnabled _ | .isBoundElsewhere _ _ | .managesType _ _ | .encodesDetail => Bool
  | .readMedia _ | .lockMedia _ => Option Media
  | .durationCode _ _ => Option Text
  | .expected _ => Option ExpectedRender
  | .categoryRefusal _ => Option String
  | .projectingAsset _ => Asset
  | .isDeliveryInProgress _ _ => Bool
  | .createEdition _ _ => Uuid
  | .readAsset _ => Option Asset
  | .readEdition _ _ => Option Edition
  | .enterUnavailable _ => Unit
  | .activateEdition _ _ _ => Option Replaced
  | .assetOf _ => Option Asset
  | .endEdition _ _ => Option Uuid
  | .write _ => Except Fault Unit
  | .commit | .rollback => Unit

abbrev Service := Routine Action.Result Fault

abbrev perform (a : Action) : Service a.Result := Routine.perform a

/-- `transaction.atomic` -/
def atomic {α : Type} (body : Service α) : Service α := do
  let result : Except Fault α ← body.attempt
  match result with
  | .ok a =>
    let _ ← perform .commit
    pure a
  | .error e =>
    let _ ← perform .rollback
    .raise e

def get {α : Type} : Option α → Service α
  | some a => pure a
  | none => .raise .doesNotExist

def orRaise {α : Type} : Except Fault α → Service α
  | .ok a => pure a
  | .error e => .raise e

def raiseIf (condition : Prop) [Decidable condition] (fault : Fault) : Service Unit :=
  if condition then .raise fault else pure ()

/-! ## Actors -/

def isManager : Option User → Bool
  | some user => user.isAuthenticated && (user.isStaff || user.isSuperuser)
  | none => false

/-- `may_recall_as_manager` -/
def mayRecallAsManager (user : Option User) (row : Item) : Service Bool :=
  if isManager user then pure true
  else match user.bind User.pk with
    | none => pure false
    | some pk => perform (.managesType pk row.contentType)

/-- The actor's columns of an event. -/
structure Actor where
  pk : Option UserId
  username : Text
  deriving DecidableEq

/-- `_actor_columns` -/
def actorColumns (actor : Option User) (kind : ActorKind) : Except Fault Actor :=
  match actor.bind fun user => user.pk.map fun pk => (⟨some pk, user.username.take 150⟩ : Actor) with
  | some columns => .ok columns
  | none =>
    if kind = .user then
      .error (.notPermitted "not_permitted" "this transition needs an authenticated user")
    else .ok ⟨none, []⟩

def ownerOrManager (row : Item) (user : Option User) : Service Unit :=
  raiseIf (isManager user = false ∧
      (row.submittedBy = none ∨ row.submittedBy ≠ user.bind User.pk))
    (.notPermitted "not_permitted" "only the submitter or a manager may do this")

/-! ## The core -/

/-- The references that an event gives. -/
structure References where
  media : Option MediaId := none
  asset : Option Uuid := none
  edition : Option Uuid := none

/-- `_plan` -/
def plan (item : ItemId) (fromState : Option ItemState) (toState : ItemState) (rule : Rule)
    (values : List Change) (kind : ActorKind) (actor : Actor) (refs : References) :
    Service TransitionPlan := do
  let extra := (values.map Change.column).filter fun column => column ∉ rule.writable toState
  raiseIf (fromState ≠ none ∧ extra ≠ []) (.unwritable extra)
  let encodes ← perform .encodesDetail
  raiseIf (encodes = false) .invalidEventDetail
  pure ⟨item, fromState, toState, values, ⟨item, rule.event, fromState, toState, kind, actor.pk,
    actor.username, refs.media, refs.asset, refs.edition⟩⟩

/-- `_commit`: exactly the plan, under its grants. -/
def commitPlan (grant : Grant) (plan : TransitionPlan) : Service Unit := do
  let written ← perform (.write ⟨grant, plan⟩)
  orRaise written

/-- The columns of every transition. -/
def planned (changes : List Change) (toState : ItemState) (now : Time) : List Change :=
  changes ++ [.state toState, .stateChangedAt now] ++
    if toState.isTerminal then [.terminalAt now] else []

inductive MediaError where
  | airingProhibited
  | unusable
  deriving DecidableEq

/-- `retention.lock_for_binding`, up to its exceptions. -/
def lockForBinding (media : MediaId) (requireValid : Bool) : Service (Except MediaError Media) := do
  let found ← perform (.lockMedia media)
  match found with
  | none => pure (.error .unusable)
  | some row =>
    if row.retention ≠ .present ∨ (requireValid ∧ row.validation ≠ .valid) then
      pure (.error .unusable)
    else if row.airingProhibited then pure (.error .airingProhibited)
    else pure (.ok row)

/-- A media with its row. -/
structure Bound where
  media : MediaId
  row : Media

/-- The arguments of `_apply`. -/
structure Transition where
  actor : Option User := none
  actorKind : ActorKind := .user
  expectedFrom : Option (List ItemState) := none
  check : Found → Option User → Time → Service Unit := fun _ _ _ => pure ()
  changes : Item → Option MediaId → Time → List Change := fun _ _ _ => []
  media : Option MediaId := none
  requireValidMedia : Bool := true
  lockType : Bool := false
  verify : Found → Option Bound → Service Unit := fun _ _ => pure ()
  /-- `none` is `_NO_LEASE`. -/
  leaseToken : Option (Option Token) := none

/-- The type is locked before the item. -/
def lockTypeOf (item : ItemId) : Service ContentType := do
  let type ← perform (.typeOf item)
  let type ← get type
  let locked ← perform (.lockType type)
  get locked

/-- `_require_lease` -/
def requireLease (row : Item) (token : Option Token) (now : Time) : Except Fault Unit :=
  if row.leaseToken = none ∨ token = none ∨ row.leaseToken ≠ token then
    .error (.evidenceRefused "stale_lease" "the lease is stale or belongs to another worker")
  else if row.leaseExpiresAt.all (· ≤ now) then
    .error (.evidenceRefused "lease_expired" "the lease has expired")
  else .ok ()

/-- The rule of a transition that the table and the caller allow. -/
def permitted (state toState : ItemState) (expectedFrom : Option (List ItemState)) :
    Except Fault Rule :=
  match transitions (some state) toState with
  | none => .error (.invalidTransition "invalid_transition"
      (state.value ++ " -> " ++ toState.value ++ " is not a permitted transition"))
  | some rule =>
    if expectedFrom.any fun states => state ∉ states then
      .error (.invalidTransition "invalid_transition"
        (state.value ++ " -> " ++ toState.value ++ " is not a permitted transition"))
    else if rule.c2 then
      .error (.projectionRequired
        (state.value ++ " -> " ++ toState.value ++ " delivers to the library (Phase C2)"))
    else .ok rule

def bindMedia (media : Option MediaId) (requireValid : Bool) : Service (Option Bound) :=
  match media with
  | none => pure none
  | some media => do
    let bound ← lockForBinding media requireValid
    match bound with
    | .ok row => pure (some ⟨media, row⟩)
    | .error .airingProhibited => .raise (.evidenceRefused "airing_prohibited"
        "this media was made under TEST / NO AIR and can never air")
    | .error .unusable =>
      .raise (.evidenceRefused "media_unusable" "the media is missing, purged or not valid")

def requireLeaseOf (row : Item) (leaseToken : Option (Option Token)) (now : Time) :
    Except Fault Unit :=
  match leaseToken with
  | none => .ok ()
  | some token => requireLease row token now

/-- What `_apply` does with the row that it has locked. -/
def applyLocked (item : ItemId) (toState : ItemState) (t : Transition) (found : Found) :
    Service Item := do
  let rule ← orRaise (permitted found.row.state toState t.expectedFrom)
  let actor ← orRaise (actorColumns t.actor t.actorKind)
  let now ← perform .now
  orRaise (requireLeaseOf found.row t.leaseToken now)
  t.check found t.actor now
  let bound ← bindMedia t.media t.requireValidMedia
  t.verify found bound
  let media := bound.map Bound.media
  let plan ← plan item (some found.row.state) toState rule
    (planned (t.changes found.row media now) toState now) t.actorKind actor { media := media }
  commitPlan .itemWrite plan
  pure (found.row.setAll plan.values)

/-- `_apply` -/
def apply (item : ItemId) (toState : ItemState) (t : Transition) : Service Item :=
  atomic do
    if t.lockType then
      let _ ← lockTypeOf item
    let found ← perform (.lockItem item)
    let found ← get found
    applyLocked item toState t found

/-! ## Submission -/

def createItem (type : TypeId) (actor : Option User) (title notes : Text) (origin : Origin) :
    Service Item := do
  raiseIf (origin = .imported) (.notPermitted "not_permitted"
    "imported items are created by the import tooling (Phase F)")
  let columns ← orRaise (actorColumns actor .user)
  atomic do
    let locked ← perform (.lockType type)
    let locked ← get locked
    raiseIf (locked.enabled = false) (.notPermitted "type_disabled" "this content type is disabled")
    let now ← perform .now
    let item ← perform .uuid4
    let plan ← plan item none .draft { event := "created" }
      [.contentType type, .origin origin, .submittedBy columns.pk,
        .submittedByUsername columns.username, .title (title.take 200), .notes notes, .state .draft,
        .stateChangedAt now] .user columns {}
    commitPlan .itemCreate plan
    pure (Item.blank.setAll plan.values)

/-- `_SUBMITTABLE_KINDS` -/
def submittableKinds : List ProductionMedia.Kind := [.recording, .upload, .edit]

def checkSubmission (media : MediaId) (found : Found) (user : Option User) : Service Unit := do
  ownerOrManager found.row user
  let enabled ← perform (.isTypeEnabled found.row.contentType)
  raiseIf (enabled = false) (.notPermitted "type_disabled" "this content type is disabled")
  let candidate ← perform (.readMedia media)
  match candidate with
  | none => .raise (.evidenceRefused "media_kind" "a submission is a recording, upload or edit")
  | some candidate =>
    raiseIf (candidate.kind ∉ submittableKinds)
      (.evidenceRefused "media_kind" "a submission is a recording, upload or edit")
    raiseIf (found.type.maxBytes.any fun limit => limit < candidate.byteSize)
      (.evidenceRefused "too_large" "the media is larger than this type allows")

def submit (item : ItemId) (media : MediaId) (actor : Option User) : Service Item :=
  apply item .submitted
    { actor := actor
      check := fun found user _ => checkSubmission media found user
      changes := fun _ bound now => [.submissionMedia bound, .submittedAt now]
      media := some media
      requireValidMedia := false }

/-- What `record_validation` does with its verdict. -/
def recordVerdict (item : ItemId) (kind : ActorKind) (media : MediaId) :
    Option Text → Service Item
  | some code =>
    apply item .invalid
      { actorKind := kind
        expectedFrom := some [.submitted]
        changes := fun _ _ _ => [.failureCode (code.take 64), .failureDetail []] }
  | none =>
    apply item .validated
      { actorKind := kind
        expectedFrom := some [.submitted]
        changes := fun _ _ now => [.validatedAt now]
        media := some media }

def recordValidation (item : ItemId) (kind : ActorKind) : Service Item := do
  let found ← perform (.readItem item)
  let found ← get found
  match found.row.submissionMedia with
  | none => .raise (.evidenceRefused "no_media" "no submission media is bound")
  | some media => do
    let row ← perform (.readMedia media)
    let row ← get row
    raiseIf (row.validation = .unvalidated) (.evidenceRefused "not_validated_yet"
      "the submission media has not been validated yet")
    if row.validation = .invalid then
      recordVerdict item kind media (some
        (if row.validationCode = [] then codePoints "invalid_media" else row.validationCode))
    else do
      let code ← perform (.durationCode media found.row.contentType)
      recordVerdict item kind media code

/-! ## Processing -/

def leaseMinSeconds : ℤ := 30
def leaseMaxSeconds : ℤ := 3600

/-- `now + timedelta(seconds=int(lease_seconds))` -/
def leaseEnd (now : Time) (leaseSeconds : ℤ) : Time := now + leaseSeconds.toNat * 1000000

def checkReclaim (row : Item) (now : Time) : Service Unit :=
  raiseIf (row.state = .processing ∧ (row.leaseExpiresAt.all fun expiry => now < expiry))
    (.invalidTransition "lease_held" "the item is leased to another worker")

def attemptChanges (token : Token) (leaseSeconds : ℤ) (row : Item) (now : Time) : List Change :=
  [.leaseToken (some token), .leaseExpiresAt (some (leaseEnd now leaseSeconds)),
    .processingAttempts (min (row.processingAttempts + 1) 1000), .processingStartedAt now,
    .failureCode [], .failureDetail []]

def startProcessing (item : ItemId) (leaseSeconds : ℤ) (kind : ActorKind) :
    Service (Item × Token) := do
  raiseIf (¬(leaseMinSeconds ≤ leaseSeconds ∧ leaseSeconds ≤ leaseMaxSeconds)) .valueError
  let token ← perform .uuid4
  let row ← apply item .processing
    { actorKind := kind
      expectedFrom := some [.validated, .processing]
      check := fun found _ now => checkReclaim found.row now
      changes := fun row _ now => attemptChanges token leaseSeconds row now }
  pure (row, token)

/-- `render.RenderEvidence`; its identities, where they are UUIDs. -/
structure RenderEvidence where
  renditionId : Option MediaId
  sourceId : Option MediaId
  recipeKey : Text
  recipeVersion : ℤ
  provenanceDigest : Text
  deriving DecidableEq

/-- `_parse_evidence` -/
def parseEvidence : Option RenderEvidence → Except Fault (MediaId × RenderEvidence)
  | none => .error (.evidenceRefused "rendition_mismatch"
      "completion needs the render's RenderEvidence")
  | some evidence =>
    match evidence.renditionId with
    | none => .error (.evidenceRefused "rendition_mismatch" "the evidence names no rendition")
    | some rendition => .ok (rendition, evidence)

/-- `EXECUTOR_MARKER` -/
def executorMarker : Text := codePoints "executor isadoraair-render/1"

/-- `_verify_render` up to the last check. -/
def verifyProvenance (found : Found) (bound : Bound) (evidence : RenderEvidence) :
    Service Unit := do
  raiseIf (bound.row.kind ≠ .rendition ∨ found.row.submissionMedia = none ∨
      bound.row.derivedFrom ≠ found.row.submissionMedia ∨
      evidence.sourceId ≠ found.row.submissionMedia ∨ bound.row.recipeKey ≠ found.type.recipeKey)
    (.evidenceRefused "rendition_mismatch"
      "the rendition does not derive from this item's submission by its recipe")
  raiseIf ((bound.row.recipeKey, bound.row.recipeVersion, bound.row.recipeParamsDigest) ≠
      (evidence.recipeKey, evidence.recipeVersion, evidence.provenanceDigest))
    (.evidenceRefused "rendition_mismatch" "the render evidence disagrees with the stored rendition")
  raiseIf (¬executorMarker <:+ bound.row.toolchain)
    (.evidenceRefused "rendition_mismatch" "the rendition was not produced by the render executor")
  let expected ← perform (.expected found.row.contentType)
  match expected with
  | none => .raise (.evidenceRefused "render_outdated" ("the type's current recipe configuration " ++
      "cannot be rendered; retry after fixing it"))
  | some expected =>
    raiseIf ((bound.row.recipeVersion, bound.row.recipeParamsDigest) ≠
        (expected.recipeVersion, expected.digest))
      (.evidenceRefused "render_outdated" ("the rendition was made with another recipe version, " ++
        "other parameters or other reference audio than the type now specifies; render again"))

/-- `_verify_render` -/
def verifyRender (item : ItemId) (evidence : RenderEvidence) (found : Found) :
    Option Bound → Service Unit
  | none => .raise .keyError
  | some bound => do
    verifyProvenance found bound evidence
    let taken ← perform (.isBoundElsewhere bound.media item)
    raiseIf (taken = true) (.evidenceRefused "rendition_already_bound"
      "the rendition is already bound to another item")

def completionChanges (bound : Option MediaId) (now : Time) : List Change :=
  [.renditionMedia bound, .processedAt now, .leaseToken none, .leaseExpiresAt none]

def completeProcessing (item : ItemId) (leaseToken : Option Token)
    (evidence : Option RenderEvidence) (kind : ActorKind) : Service Item := do
  let (rendition, evidence) ← orRaise (parseEvidence evidence)
  apply item .processed
    { actorKind := kind
      expectedFrom := some [.processing]
      leaseToken := some leaseToken
      changes := fun _ bound now => completionChanges bound now
      media := some rendition
      lockType := true
      verify := fun found bound => verifyRender item evidence found bound }

def failureChanges (code detail : Text) : List Change :=
  [.failureCode (code.take 64), .failureDetail (detail.take 500), .leaseToken none,
    .leaseExpiresAt none]

def failProcessing (item : ItemId) (leaseToken : Option Token) (code detail : Text)
    (kind : ActorKind) : Service Item :=
  apply item .failed
    { actorKind := kind
      expectedFrom := some [.processing]
      leaseToken := some leaseToken
      changes := fun _ _ _ => failureChanges code detail }

def retry (item : ItemId) (actor : Option User) : Service Item :=
  apply item .validated
    { actor := actor
      expectedFrom := some [.failed]
      check := fun _ user _ => raiseIf (isManager user = false)
        (.notPermitted "not_permitted" "only a manager may retry a failed item")
      changes := fun _ _ _ => [.failureCode [], .failureDetail []] }

/-! ## Review and recall -/

def requestReview (item : ItemId) (kind : ActorKind) : Service Item :=
  apply item .awaitingReview
    { actorKind := kind
      expectedFrom := some [.processed]
      check := fun found _ _ => raiseIf (found.type.requiresReview = false)
        (.invalidTransition "review_not_required" "this type does not require review") }

def username (actor : Option User) : Text := (actor.map User.username).getD []

def reject (item : ItemId) (actor : Option User) (note : Text) : Service Item :=
  apply item .rejected
    { actor := actor
      expectedFrom := some [.awaitingReview]
      check := fun _ user _ => raiseIf (isManager user = false)
        (.notPermitted "not_permitted" "only a manager may review")
      changes := fun _ _ now => [.reviewedBy (actor.bind User.pk), .reviewedAt now,
        .reviewedByUsername ((username actor).take 150), .reviewNote (note.take 1000)] }

def requireExpectedState (row : Item) (expected : Option ItemState) : Service Unit :=
  match expected with
  | none => pure ()
  | some state => raiseIf (row.state ≠ state) (.invalidTransition "state_changed"
      ("the item is " ++ row.state.value ++ " now, not " ++ state.value))

def recallChanges (actor : Option User) (reason : Text) (now : Time) : List Change :=
  [.recalledBy (actor.bind User.pk), .recalledAt now,
    .recalledByUsername ((username actor).take 150), .recallReason (reason.take 500)]

def checkRecall (expected : Option ItemState) (found : Found) (user : Option User) :
    Service Unit := do
  requireExpectedState found.row expected
  let may ← mayRecallAsManager user found.row
  if may = true then pure ()
  else do
    raiseIf (found.type.recallPolicy = .managersOnly)
      (.notPermitted "not_permitted" "only managers may recall this type")
    ownerOrManager found.row user

/-- `recall`, where the item is not delivered. -/
def recallUndelivered (item : ItemId) (actor : Option User) (reason : Text)
    (expected : Option ItemState) : Service Item :=
  apply item .recalled
    { actor := actor
      check := fun found user _ => checkRecall expected found user
      changes := fun _ _ now => recallChanges actor reason now }

end IsadoraAir.Spoken
