import IsadoraAir.Spoken.Services

/-!
# The projection service

`delivery.py`, as far as it moves items: deliveries in three transactions, and
the two ways of leaving delivery. The assets and the editions are answered for
from outside; the advisory lock of a delivery only makes others wait longer, and
what follows a failed or a finished delivery moves no item.
-/

namespace IsadoraAir.Spoken

structure Witness where
  asset : Option Uuid := none
  edition : Option Uuid := none

/-- `_item_move` -/
def itemMove (item : ItemId) (row : Item) (toState : ItemState) (now : Time) (actor : Option User)
    (kind : ActorKind) (changes : List Change) (media : Option MediaId) (witness : Witness) :
    Service Item :=
  match transitions (some row.state) toState with
  | none => .raise .keyError
  | some rule => do
    let columns ← orRaise (actorColumns actor kind)
    let plan ← plan item (some row.state) toState rule (planned changes toState now) kind columns
      { media := media, asset := witness.asset, edition := witness.edition }
    commitPlan .projectedItemWrite plan
    pure (row.setAll plan.values)

def lockFound (item : ItemId) : Service Found := do
  let found ← perform (.lockItem item)
  get found

/-- `_lock_type`, then `_lock_item` -/
def lockBoth (item : ItemId) : Service (ContentType × Found) := do
  let type ← lockTypeOf item
  let found ← lockFound item
  pure (type, found)

/-- `_bind_rendition` -/
def bindRendition (found : Found) : Service MediaId :=
  match found.row.renditionMedia with
  | none => .raise (.projectionError "rendition_missing" "the item has no rendition")
  | some media => do
    let bound ← lockForBinding media true
    match bound with
    | .error .airingProhibited => .raise (.projectionError "airing_prohibited"
        "the rendition derives from TEST / NO AIR media and can never air")
    | .error .unusable => .raise (.projectionError "rendition_unusable"
        "the rendition is missing, purged or not valid")
    | .ok rendition =>
      raiseIf (rendition.kind ≠ .rendition ∨ rendition.derivedFrom ≠ found.row.submissionMedia ∨
          ¬executorMarker <:+ rendition.toolchain ∨ rendition.hasDuration = false)
        (.projectionError "rendition_mismatch" "the rendition is not this item's executor render")
      let expected ← perform (.expected found.row.contentType)
      match expected with
      | none => .raise (.projectionError "render_outdated"
          "the type's recipe configuration cannot be rendered now")
      | some expected =>
        raiseIf ((rendition.recipeKey, rendition.recipeVersion, rendition.recipeParamsDigest) ≠
            (expected.recipeKey, expected.recipeVersion, expected.digest))
          (.projectionError "render_outdated" ("the rendition is not what the type's current " ++
            "recipe and references produce"))
        pure media

/-- The arguments of a delivery. -/
structure Delivery where
  approve : Bool
  actor : Option User
  kind : ActorKind
  note : Text

/-- `_deliverable` -/
def deliverable (found : Found) (d : Delivery) : Service Unit :=
  if d.approve then do
    raiseIf (found.row.state ≠ .awaitingReview) (.invalidTransition "not_deliverable"
      (found.row.state.value ++ " items are not awaiting review"))
    let _ ← orRaise (actorColumns d.actor .user)
    raiseIf (isManager d.actor = false)
      (.notPermitted "not_permitted" "only a manager may approve")
  else do
    raiseIf (found.row.state ≠ .processed) (.invalidTransition "not_deliverable"
      (found.row.state.value ++ " items are not deliverable"))
    raiseIf (found.type.requiresReview = true) (.invalidTransition "review_required"
      "this type requires review before delivery")

/-- `_delivery_changes` -/
def deliveryChanges (type : ContentType) (now : Time) (d : Delivery) : List Change :=
  [.deliveredAt now, .expiresAt (type.defaultLifetime.map fun lifetime => now + lifetime)] ++
    if d.approve then
      [.reviewedBy (d.actor.bind User.pk), .reviewedByUsername ((username d.actor).take 150),
        .reviewedAt now, .reviewNote (d.note.take 1000)]
    else []

/-- `_category_code`, up to the code. -/
def requireCategory (type : TypeId) : Service Unit := do
  let refusal ← perform (.categoryRefusal type)
  match refusal with
  | some code => .raise (.projectionError code "the content type has no usable target category")
  | none => pure ()

/-- What the first transaction of a delivery leads to. -/
inductive Intent where
  | done (row : Item) (already : Bool)
  | planned (asset edition : Uuid) (fromState : ItemState) (rendition : MediaId)

/-- The item is delivered without a projection. -/
def retain (item : ItemId) (type : ContentType) (found : Found) (d : Delivery) :
    Service Intent := do
  let _ ← bindRendition found
  let now ← perform .now
  let row ← itemMove item found.row .delivered now d.actor d.kind (deliveryChanges type now d)
    found.row.renditionMedia {}
  pure (.done row false)

def intend (item : ItemId) (found : Found) : Service Intent := do
  requireCategory found.row.contentType
  let asset ← perform (.projectingAsset item)
  raiseIf (asset.state = .detached) (.projectionError "asset_detached"
    "the asset was detached by an operator; a manager must reattach it first")
  raiseIf (asset.state = .retiring) (.projectionError "projection_in_transition"
    "the projection has an unresolved unavailable barrier; reconcile it first")
  let rendition ← bindRendition found
  let _ ← perform .now
  let inProgress ← perform (.isDeliveryInProgress asset.id item)
  raiseIf (inProgress = true) (.projectionError "delivery_in_progress"
    "a delivery of this item is already in progress")
  let edition ← perform (.createEdition asset.id item)
  pure (.planned asset.id edition found.row.state rendition)

/-- TX-A: durable intent. -/
def intent (item : ItemId) (d : Delivery) : Service Intent :=
  atomic do
    let (type, found) ← lockBoth item
    if found.row.state = .delivered then pure (.done found.row true)
    else do
      deliverable found d
      match type.deliveryMode with
      | .unknown value => .raise (.projectionError "invalid_delivery_mode"
          ("unknown delivery mode '" ++ value ++ "'"))
      | .retainOnly => retain item type found d
      | .currentEdition | .accumulating => intend item found

/-- `_validate_promotion`, with the rows that the item's moves need. -/
def validatePromotion (item : ItemId) (asset edition : Uuid) (fromState : ItemState)
    (rendition : MediaId) (d : Delivery) (required : List AssetState) :
    Service (ContentType × Found) := do
  let (type, found) ← lockBoth item
  let row ← perform (.readAsset asset)
  let row ← get row
  let pending ← perform (.readEdition asset edition)
  raiseIf (found.row.state ≠ fromState ∨ found.row.renditionMedia ≠ some rendition)
    (.projectionError "stale_promotion" "the item changed during delivery")
  raiseIf (¬pending.any Edition.isPending)
    (.projectionError "stale_promotion" "the pending edition was aborted")
  raiseIf (row.state ∉ required) (.projectionError
    (if row.state = .detached ∨ row.state = .retired then "asset_detached" else "stale_promotion")
    "the asset is not in the state that the promotion needs")
  raiseIf (pending.any fun edition => edition.generation ≤ row.generation)
    (.projectionError "stale_promotion" "a newer edition was promoted first")
  deliverable found d
  let _ ← bindRendition found
  pure (type, found)

/-- TX-B: the barrier. -/
def enterUnavailable (item : ItemId) (asset edition : Uuid) (fromState : ItemState)
    (rendition : MediaId) (d : Delivery) : Service Unit :=
  atomic do
    let _ ← validatePromotion item asset edition fromState rendition d [.pending, .live]
    let _ ← perform .now
    perform (.enterUnavailable asset)

/-- The item of the edition that is replaced. -/
def supersede (item : ItemId) (asset : Uuid) (replaced : Replaced) (now : Time) : Service Unit :=
  match replaced.edition, replaced.item with
  | some edition, some previous =>
    if previous = item then pure ()
    else do
      let old ← lockFound previous
      if old.row.state = .delivered then
        let _ ← itemMove previous old.row .superseded now none .system [] none
          { asset := some asset, edition := some edition }
      else pure ()
  | _, _ => pure ()

/-- TX-C: `_promote` -/
def promote (item : ItemId) (asset edition : Uuid) (fromState : ItemState) (rendition : MediaId)
    (d : Delivery) : Service Item :=
  atomic do
    let (type, found) ← validatePromotion item asset edition fromState rendition d [.retiring]
    requireCategory found.row.contentType
    let now ← perform .now
    let replaced ← perform (.activateEdition asset edition item)
    match replaced with
    | none => .raise (.projectionError "projection_failed" "the edition could not be activated")
    | some replaced => do
      supersede item asset replaced now
      itemMove item found.row .delivered now d.actor d.kind (deliveryChanges type now d)
        (some rendition) { asset := some asset, edition := some edition }

/-- `_deliver` -/
def deliver (item : ItemId) (d : Delivery) : Service (Item × Bool) := do
  let planned ← intent item d
  match planned with
  | .done row already => pure (row, already)
  | .planned asset edition fromState rendition => do
    enterUnavailable item asset edition fromState rendition d
    let row ← promote item asset edition fromState rendition d
    pure (row, false)

def deliverItem (item : ItemId) (actor : Option User) (kind : ActorKind) : Service (Item × Bool) :=
  deliver item ⟨false, actor, kind, []⟩

def approveAndDeliver (item : ItemId) (actor : Option User) (note : Text) :
    Service (Item × Bool) :=
  deliver item ⟨true, actor, .user, note⟩

/-! ## Leaving delivery -/

inductive Ending where
  | recalled
  | expired
  deriving DecidableEq

def Ending.state : Ending → ItemState
  | .recalled => .recalled
  | .expired => .expired

/-- What is checked of the end, and what it writes. -/
def endChanges (ending : Ending) (type : ContentType) (found : Found) (actor : Option User)
    (reason : Text) (now : Time) : Service (List Change) :=
  match ending with
  | .recalled => do
    let _ ← orRaise (actorColumns actor .user)
    let may ← mayRecallAsManager actor found.row
    raiseIf (may = false ∧
        (type.recallPolicy ≠ .ownerAnytime ∨ found.row.submittedBy ≠ actor.bind User.pk))
      (.notPermitted "not_permitted" "only a manager may recall delivered content of this type")
    pure (recallChanges actor reason now)
  | .expired => do
    raiseIf (found.row.expiresAt.all fun expiry => now < expiry)
      (.invalidTransition "not_due" "the item has not expired")
    pure []

/-- `_end_locked` -/
def endLocked (item : ItemId) (ending : Ending) (actor : Option User) (kind : ActorKind)
    (reason : Text) (expected : Option ItemState) : Service Item :=
  atomic do
    let (type, found) ← lockBoth item
    requireExpectedState found.row expected
    raiseIf (found.row.state ≠ .delivered ∧ found.row.state ≠ .superseded)
      (.invalidTransition "not_delivered" (found.row.state.value ++ " items are not delivered"))
    let now ← perform .now
    let changes ← endChanges ending type found actor reason now
    let asset ← perform (.assetOf item)
    raiseIf (asset.any fun asset => asset.state = .retiring)
      (.projectionError "projection_in_transition"
        "the projection has an abandoned barrier; reconcile it first")
    match asset with
    | some asset => do
      if asset.state = .live ∧ found.row.state = .delivered then
        let edition ← perform (.endEdition asset.id item)
        itemMove item found.row ending.state now actor kind changes none ⟨some asset.id, edition⟩
      else itemMove item found.row ending.state now actor kind changes none ⟨some asset.id, none⟩
    | none => itemMove item found.row ending.state now actor kind changes none {}

def recallDelivered (item : ItemId) (actor : Option User) (reason : Text)
    (expected : Option ItemState) : Service Item :=
  endLocked item .recalled actor .user reason expected

def expireItem (item : ItemId) : Service Item := endLocked item .expired none .system [] none

/-- The unlocked read only routes. -/
def recallItem (item : ItemId) (actor : Option User) (reason : Text) (expected : Option ItemState) :
    Service Item := do
  let state ← perform (.stateOf item)
  if state = some .delivered ∨ state = some .superseded then
    recallDelivered item actor reason expected
  else recallUndelivered item actor reason expected

/-! ## Every operation -/

inductive Answer where
  | item (row : Item)
  | leased (row : Item) (token : Token)
  | delivered (row : Item) (already : Bool)
  | nothing
  deriving DecidableEq

/-- `advance_processed` -/
def advanceProcessed (item : ItemId) : Service Answer := do
  let found ← perform (.readItem item)
  let found ← get found
  if found.row.state ≠ .processed then pure .nothing
  else if found.type.requiresReview then do
    let _ ← requestReview item .system
    pure .nothing
  else do
    let (row, already) ← deliverItem item none .system
    pure (.delivered row already)

inductive Call where
  | createItem (type : TypeId) (actor : Option User) (title notes : Text) (origin : Origin)
  | submit (item : ItemId) (media : MediaId) (actor : Option User)
  | recordValidation (item : ItemId) (kind : ActorKind)
  | startProcessing (item : ItemId) (leaseSeconds : ℤ) (kind : ActorKind)
  | completeProcessing (item : ItemId) (leaseToken : Option Token)
      (evidence : Option RenderEvidence) (kind : ActorKind)
  | failProcessing (item : ItemId) (leaseToken : Option Token) (code detail : Text)
      (kind : ActorKind)
  | retry (item : ItemId) (actor : Option User)
  | requestReview (item : ItemId) (kind : ActorKind)
  | reject (item : ItemId) (actor : Option User) (note : Text)
  | recallItem (item : ItemId) (actor : Option User) (reason : Text) (expected : Option ItemState)
  | deliverItem (item : ItemId) (actor : Option User) (kind : ActorKind)
  | approveAndDeliver (item : ItemId) (actor : Option User) (note : Text)
  | advanceProcessed (item : ItemId)
  | recallDelivered (item : ItemId) (actor : Option User) (reason : Text)
      (expected : Option ItemState)
  | expireItem (item : ItemId)

def itemAnswer (m : Service Item) : Service Answer := do
  let row ← m
  pure (.item row)

def deliveryAnswer (m : Service (Item × Bool)) : Service Answer := do
  let (row, already) ← m
  pure (.delivered row already)

def program : Call → Service Answer
  | .createItem type actor title notes origin =>
    itemAnswer (createItem type actor title notes origin)
  | .submit item media actor => itemAnswer (submit item media actor)
  | .recordValidation item kind => itemAnswer (recordValidation item kind)
  | .startProcessing item leaseSeconds kind => do
    let (row, token) ← startProcessing item leaseSeconds kind
    pure (.leased row token)
  | .completeProcessing item leaseToken evidence kind =>
    itemAnswer (completeProcessing item leaseToken evidence kind)
  | .failProcessing item leaseToken code detail kind =>
    itemAnswer (failProcessing item leaseToken code detail kind)
  | .retry item actor => itemAnswer (retry item actor)
  | .requestReview item kind => itemAnswer (requestReview item kind)
  | .reject item actor note => itemAnswer (reject item actor note)
  | .recallItem item actor reason expected => itemAnswer (recallItem item actor reason expected)
  | .deliverItem item actor kind => deliveryAnswer (deliverItem item actor kind)
  | .approveAndDeliver item actor note => deliveryAnswer (approveAndDeliver item actor note)
  | .advanceProcessed item => advanceProcessed item
  | .recallDelivered item actor reason expected =>
    itemAnswer (recallDelivered item actor reason expected)
  | .expireItem item => itemAnswer (expireItem item)

end IsadoraAir.Spoken
