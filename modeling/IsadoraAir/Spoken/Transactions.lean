import IsadoraAir.Foundation.Sessions
import IsadoraAir.Foundation.Once
import IsadoraAir.Spoken.Delivery

/-!
# Transactions on spoken items

What each query answers from what is committed and the transaction's own writes,
and which rows it waits for. `uuid4` gives what nobody has drawn before, and the
clock of the server does not go back.
-/

namespace IsadoraAir.Spoken

variable {x : Action} {c : Choice}

/-- The rows that are locked. -/
inductive Row where
  | type (id : TypeId)
  | item (id : ItemId)
  | media (id : MediaId)
  deriving DecidableEq

structure Shared (α : Type) where
  sessions : Sessions Database Write Row α
  clock : Time
  drawn : List Uuid
  /-- What has been drawn in the transaction that is going on or about to begin. -/
  hand : α → Option Uuid

abbrev Shared.db {α : Type} (s : Shared α) : Database := s.sessions.db

/-- What is decided from outside about an action. -/
structure Choice where
  uuid : Uuid
  elapsed : ℕ
  type : Option ContentType
  contentType : ContentType
  media : Option Media
  flag : Bool
  durationCode : Option Text
  expected : Option ExpectedRender
  categoryRefusal : Option String
  projecting : Asset
  asset : Option Asset
  edition : Option Edition
  created : Uuid
  ended : Option Uuid
  replaced : Option Replaced
  witnessed : Bool

/-- Why the guard or the database refuses a write. -/
def Database.refuses (db : Database) (witnessed : Bool) (w : Write) : Option Fault :=
  if w.authorized = false then some .spokenIntegrity
  else if w.grant = .itemCreate ∧ (db.items.get? w.plan.item).isSome then some .integrityError
  else if w.grant = .projectedItemWrite ∧ witnessed = false then some .spokenIntegrity
  else if db.expects w = false then some .spokenIntegrity
  else none

def Database.isBoundElsewhere (db : Database) (media : MediaId) (item : ItemId) : Bool :=
  db.items.items.any fun entry => entry.2.renditionMedia = some media ∧ entry.1 ≠ item

variable {α : Type} [DecidableEq α] {s s' : Shared α} {r : x.Result} {a : α}

abbrev view (s : Shared α) (a : α) : Database := s.sessions.view Database.apply a

def lockRow (s : Shared α) (a : α) (row : Row) : Shared α :=
  { s with sessions := s.sessions.lock a fun r => r = row }

/-- A query that locks the row that it returns. -/
def selectForUpdate {β : Type} (s : Shared α) (a : α) (row : Row) (result : β) :
    Option (β × Shared α) :=
  if s.sessions.locks.available a row then some (result, lockRow s a row) else none

def writeRow (s : Shared α) (a : α) (witnessed : Bool) (w : Write) :
    Option (Except Fault Unit × Shared α) :=
  if s.sessions.locks.available a (.item w.plan.item) then
    match (view s a).refuses witnessed w with
    | some fault => some (.error fault, s)
    | none =>
      let locked := lockRow s a (.item w.plan.item)
      some (.ok (), { locked with sessions := locked.sessions.write a w })
  else none

def commitSession (s : Shared α) (a : α) : Shared α :=
  { s with
    sessions := s.sessions.commit Database.apply a
    hand := Function.update s.hand a none }

def rollbackSession (s : Shared α) (a : α) : Shared α :=
  { s with
    sessions := s.sessions.rollback a
    hand := Function.update s.hand a none }

def exec (c : Choice) (a : α) : (x : Action) → Shared α → Option (x.Result × Shared α)
  | .uuid4, s =>
    if c.uuid ∈ s.drawn then none
    else some (c.uuid, { s with
      drawn := s.drawn ++ [c.uuid]
      hand := Function.update s.hand a (some c.uuid) })
  | .now, s => some (s.clock + c.elapsed, { s with clock := s.clock + c.elapsed })
  | .typeOf item, s => some (((view s a).items.get? item).map Item.contentType, s)
  | .stateOf item, s => some (((view s a).items.get? item).map Item.state, s)
  | .readItem item, s =>
    some (((view s a).items.get? item).map fun row => ⟨row, c.contentType⟩, s)
  | .lockType type, s =>
    match c.type with
    | some row => selectForUpdate s a (.type type) (some row)
    | none => some (none, s)
  | .isTypeEnabled _, s => some (c.flag, s)
  | .lockItem item, s =>
    match (view s a).items.get? item with
    | some row => selectForUpdate s a (.item item) (some ⟨row, c.contentType⟩)
    | none => some (none, s)
  | .readMedia _, s => some (c.media, s)
  | .lockMedia media, s =>
    match c.media with
    | some row => selectForUpdate s a (.media media) (some row)
    | none => some (none, s)
  | .durationCode _ _, s => some (c.durationCode, s)
  | .expected _, s => some (c.expected, s)
  | .isBoundElsewhere media item, s => some ((view s a).isBoundElsewhere media item, s)
  | .managesType _ _, s => some (c.flag, s)
  | .encodesDetail, s => some (c.flag, s)
  | .categoryRefusal _, s => some (c.categoryRefusal, s)
  | .projectingAsset _, s => some (c.projecting, s)
  | .isDeliveryInProgress _ _, s => some (c.flag, s)
  | .createEdition _ _, s => some (c.created, s)
  | .readAsset _, s => some (c.asset, s)
  | .readEdition _ _, s => some (c.edition, s)
  | .enterUnavailable _, s => some ((), s)
  | .activateEdition _ _ _, s => some (c.replaced, s)
  | .assetOf _, s => some (c.asset, s)
  | .endEdition _ _, s => some (c.ended, s)
  | .write w, s => writeRow s a c.witnessed w
  | .commit, s => some ((), commitSession s a)
  | .rollback, s => some ((), rollbackSession s a)

/-- The connection of an abandoned request is rolled back. -/
def staff : Crew Action.Result (Shared α) α Choice where
  exec := exec
  abandon a s := rollbackSession s a

abbrev State (α : Type) := Crew.State Action.Result (Shared α) α Call Fault Answer

abbrev Event (α : Type) := Crew.Event α Choice Call

def step (e : Event α) (s : State α) : State α := staff.step program e s

def initialShared : Shared α := ⟨.initial ⟨.empty, []⟩, 0, [], fun _ => none⟩

/-- There are no items yet. -/
def initial : State α := Crew.idle initialShared

/-! ## What an action does -/

/-- Nothing is written or drawn, and no lock is given back. -/
structure Calm (a : α) (s s' : Shared α) : Prop where
  sessions : s'.sessions = s.sessions ∨ ∃ row, s.sessions.locks.available a row ∧
    s'.sessions = s.sessions.lock a fun r => r = row
  drawn : s'.drawn = s.drawn
  hand : s'.hand = s.hand

inductive Effect (a : α) (s : Shared α) : Action → Shared α → Prop
  | calm {x : Action} {s' : Shared α} (h : Calm a s s') : Effect a s x s'
  | draw (uuid : Uuid) (h : uuid ∉ s.drawn) : Effect a s .uuid4
    { s with drawn := s.drawn ++ [uuid], hand := Function.update s.hand a (some uuid) }
  | write (w : Write) (witnessed : Bool)
    (hrow : s.sessions.locks.available a (.item w.plan.item))
    (hrefuses : (view s a).refuses witnessed w = none) :
    Effect a s (.write w)
      { s with sessions := (lockRow s a (.item w.plan.item)).sessions.write a w }
  | commit : Effect a s .commit (commitSession s a)
  | rollback {x : Action} : Effect a s x (rollbackSession s a)

theorem Calm.refl (a : α) (s : Shared α) : Calm a s s := ⟨.inl rfl, rfl, rfl⟩

theorem selectForUpdate_calm {β : Type} {row : Row} {result r : β}
    (h : selectForUpdate s a row result = some (r, s')) :
    s.sessions.locks.available a row ∧ result = r ∧ s' = lockRow s a row ∧ Calm a s s' := by
  unfold selectForUpdate at h
  split_ifs at h with hrow
  cases h
  exact ⟨hrow, rfl, rfl, .inr ⟨row, hrow, rfl⟩, rfl, rfl⟩

theorem writeRow_eq_some {witnessed : Bool} {w : Write}
    {r : Except Fault Unit} (h : writeRow s a witnessed w = some (r, s')) :
    (r = .ok () ∧ s.sessions.locks.available a (.item w.plan.item) ∧
      (view s a).refuses witnessed w = none ∧
      s' = { s with sessions := (lockRow s a (.item w.plan.item)).sessions.write a w }) ∨
    (∃ fault, r = .error fault) ∧ s' = s := by
  unfold writeRow at h
  split_ifs at h with hrow
  split at h
  · next fault hrefuses =>
    cases h
    exact .inr ⟨⟨fault, rfl⟩, rfl⟩
  · next hrefuses =>
    cases h
    exact .inl ⟨rfl, hrow, hrefuses, rfl⟩

/-- The actions that are not calm. -/
def Action.isCalm : Action → Bool
  | .uuid4 | .write _ | .commit | .rollback => false
  | _ => true

theorem exec_calm (hx : x.isCalm) (h : exec c a x s = some (r, s')) : Calm a s s' := by
  cases x with
  | uuid4 | write w | commit | rollback => cases hx
  | lockType type =>
    simp only [exec] at h
    split at h
    · exact (selectForUpdate_calm h).2.2.2
    · cases h
      exact .refl a _
  | lockItem item =>
    simp only [exec] at h
    split at h
    · exact (selectForUpdate_calm h).2.2.2
    · cases h
      exact .refl a _
  | lockMedia media =>
    simp only [exec] at h
    split at h
    · exact (selectForUpdate_calm h).2.2.2
    · cases h
      exact .refl a _
  | now =>
    cases h
    exact ⟨.inl rfl, rfl, rfl⟩
  | _ =>
    cases h
    exact .refl a _

theorem exec_effect (h : exec c a x s = some (r, s')) : Effect a s x s' := by
  cases hx : x.isCalm with
  | true => exact .calm (exec_calm hx h)
  | false =>
    cases x with
    | uuid4 =>
      simp only [exec] at h
      split_ifs at h with hdrawn
      cases h
      exact .draw c.uuid hdrawn
    | write w =>
      rcases writeRow_eq_some h with ⟨-, hrow, hrefuses, rfl⟩ | ⟨-, rfl⟩
      · exact .write w c.witnessed hrow hrefuses
      · exact .calm (.refl a _)
    | commit =>
      cases h
      exact .commit
    | rollback =>
      cases h
      exact .rollback
    | _ => cases hx

end IsadoraAir.Spoken
