import IsadoraAir.Spoken.Safety

/-!
# Every operation is safe

Each operation, from a session with nothing written and nothing locked, keeps
the items sound and ends with nothing written and nothing locked.
-/

namespace IsadoraAir.Spoken

open Routine (Safe Setting Uses)

variable {requireValid : Bool} {found : Found}
  {item : ItemId} {toState : ItemState} {hand : Option Uuid} {t : Transition}

/-- A session with nothing written and nothing locked. -/
structure Resting {α : Type} (a : α) (s : Shared α) : Prop where
  invariant : Invariant s
  clean : s.sessions.Clean a

theorem Resting.idle {α : Type} {a : α} {s : Shared α} (h : Resting a s) : Idle a s :=
  ⟨h.invariant, h.clean.pending⟩

variable {α : Type} [DecidableEq α] {β : Type} {a : α} {s : Shared α} {call : Call}
  {Q : Except Fault β → Shared α → Prop} {P : Shared α → Prop}

/-! ## What is calm -/

theorem calmly_perform {x : Action} (hx : x.isCalm) : Calmly (perform x) := Uses.perform hx

theorem calmly_raiseIf (condition : Prop) [Decidable condition] (fault : Fault) :
    Calmly (raiseIf condition fault) := by
  unfold raiseIf
  split_ifs <;> trivial

theorem calmly_orRaise (result : Except Fault β) : Calmly (orRaise result) := by
  cases result <;> trivial

theorem calmly_get (result : Option β) : Calmly (get result) := by
  cases result <;> trivial

theorem calmly_mayRecallAsManager (user : Option User) (row : Item) :
    Calmly (mayRecallAsManager user row) := by
  unfold mayRecallAsManager
  split_ifs
  · trivial
  · split
    · trivial
    · exact calmly_perform rfl

theorem calmly_ownerOrManager (row : Item) (user : Option User) :
    Calmly (ownerOrManager row user) := calmly_raiseIf _ _

theorem calmly_lockTypeOf (item : ItemId) : Calmly (lockTypeOf item) :=
  Uses.bind (calmly_perform rfl) fun type => Uses.bind (calmly_get type) fun _ =>
    Uses.bind (calmly_perform rfl) fun locked => calmly_get locked

theorem calmly_checkSubmission (media : MediaId) (found : Found) (user : Option User) :
    Calmly (checkSubmission media found user) := by
  refine Uses.bind (calmly_ownerOrManager _ _) fun _ => Uses.bind (calmly_perform rfl) fun _ => ?_
  refine Uses.bind (calmly_raiseIf _ _) fun _ => Uses.bind (calmly_perform rfl) fun candidate => ?_
  cases candidate with
  | none => trivial
  | some candidate => exact Uses.bind (calmly_raiseIf _ _) fun _ => calmly_raiseIf _ _

theorem calmly_requireExpectedState (row : Item) (expected : Option ItemState) :
    Calmly (requireExpectedState row expected) := by
  cases expected with
  | none => trivial
  | some state => exact calmly_raiseIf _ _

theorem calmly_checkRecall (expected : Option ItemState) (found : Found) (user : Option User) :
    Calmly (checkRecall expected found user) := by
  refine Uses.bind (calmly_requireExpectedState _ _) fun _ => ?_
  refine Uses.bind (calmly_mayRecallAsManager _ _) fun may => ?_
  split_ifs
  · trivial
  · exact Uses.bind (calmly_raiseIf _ _) fun _ => calmly_ownerOrManager _ _

theorem calmly_verifyProvenance (found : Found) (bound : Bound) (evidence : RenderEvidence) :
    Calmly (verifyProvenance found bound evidence) := by
  refine Uses.bind (calmly_raiseIf _ _) fun _ => Uses.bind (calmly_raiseIf _ _) fun _ => ?_
  refine Uses.bind (calmly_raiseIf _ _) fun _ => Uses.bind (calmly_perform rfl) fun expected => ?_
  cases expected with
  | none => trivial
  | some expected => exact calmly_raiseIf _ _

theorem calmly_lockForBinding (media : MediaId) (requireValid : Bool) :
    Calmly (lockForBinding media requireValid) := by
  refine Uses.bind (calmly_perform rfl) fun found => ?_
  cases found with
  | none => trivial
  | some row =>
    dsimp only
    split_ifs <;> trivial

theorem calmly_bindRendition (found : Found) : Calmly (bindRendition found) := by
  unfold bindRendition
  split
  · trivial
  · refine Uses.bind (calmly_lockForBinding _ _) fun bound => ?_
    split
    · trivial
    · trivial
    · refine Uses.bind (calmly_raiseIf _ _) fun _ => Uses.bind (calmly_perform rfl) fun expected => ?_
      cases expected with
      | none => trivial
      | some expected => exact Uses.bind (calmly_raiseIf _ _) fun _ => trivial

theorem calmly_deliverable (found : Found) (d : Delivery) : Calmly (deliverable found d) := by
  unfold deliverable
  split_ifs
  · exact Uses.bind (calmly_raiseIf _ _) fun _ => Uses.bind (calmly_orRaise _) fun _ =>
      calmly_raiseIf _ _
  · exact Uses.bind (calmly_raiseIf _ _) fun _ => calmly_raiseIf _ _

theorem calmly_requireCategory (type : TypeId) : Calmly (requireCategory type) := by
  refine Uses.bind (calmly_perform rfl) fun refusal => ?_
  cases refusal <;> trivial

theorem calmly_lockFound (item : ItemId) : Calmly (lockFound item) :=
  Uses.bind (calmly_perform rfl) fun found => calmly_get found

theorem calmly_lockBoth (item : ItemId) : Calmly (lockBoth item) :=
  Uses.bind (calmly_lockTypeOf item) fun _ => Uses.bind (calmly_lockFound item) fun _ => trivial

theorem calmly_intend (item : ItemId) (found : Found) : Calmly (intend item found) := by
  refine Uses.bind (calmly_requireCategory _) fun _ => Uses.bind (calmly_perform rfl) fun _ => ?_
  refine Uses.bind (calmly_raiseIf _ _) fun _ => Uses.bind (calmly_raiseIf _ _) fun _ => ?_
  refine Uses.bind (calmly_bindRendition _) fun _ => Uses.bind (calmly_perform rfl) fun _ => ?_
  refine Uses.bind (calmly_perform rfl) fun _ => Uses.bind (calmly_raiseIf _ _) fun _ => ?_
  exact Uses.bind (calmly_perform rfl) fun _ => trivial

theorem calmly_validatePromotion (item : ItemId) (asset edition : Uuid) (fromState : ItemState)
    (rendition : MediaId) (d : Delivery) (required : List AssetState) :
    Calmly (validatePromotion item asset edition fromState rendition d required) := by
  refine Uses.bind (calmly_lockBoth _) fun _ => Uses.bind (calmly_perform rfl) fun row => ?_
  refine Uses.bind (calmly_get row) fun _ => Uses.bind (calmly_perform rfl) fun _ => ?_
  refine Uses.bind (calmly_raiseIf _ _) fun _ => Uses.bind (calmly_raiseIf _ _) fun _ => ?_
  refine Uses.bind (calmly_raiseIf _ _) fun _ => Uses.bind (calmly_raiseIf _ _) fun _ => ?_
  refine Uses.bind (calmly_deliverable _ _) fun _ => Uses.bind (calmly_bindRendition _) fun _ => ?_
  trivial

theorem calmly_endChanges (ending : Ending) (type : ContentType) (found : Found)
    (actor : Option User) (reason : Text) (now : Time) :
    Calmly (endChanges ending type found actor reason now) := by
  cases ending with
  | recalled =>
    refine Uses.bind (calmly_orRaise _) fun _ => ?_
    refine Uses.bind (calmly_mayRecallAsManager _ _) fun _ => ?_
    exact Uses.bind (calmly_raiseIf _ _) fun _ => trivial
  | expired => exact Uses.bind (calmly_raiseIf _ _) fun _ => trivial

/-! ## Planning and committing -/

/-- The plan that `plan` returns. -/
def planOf (item : ItemId) (fromState : Option ItemState) (toState : ItemState) (rule : Rule)
    (values : List Change) (kind : ActorKind) (actor : Actor) (refs : References) :
    TransitionPlan :=
  ⟨item, fromState, toState, values, ⟨item, rule.event, fromState, toState, kind, actor.pk,
    actor.username, refs.media, refs.asset, refs.edition⟩⟩

theorem plan_bind_safe {fromState : Option ItemState} {rule : Rule} {values : List Change}
    {kind : ActorKind} {actor : Actor} {refs : References} {f : TransitionPlan → Service β}
    (hs : P s) (hP : Lasting call a P) (hinv : ∀ s, P s → (service call a).invariant s)
    (hf : ∀ s, P s → (f (planOf item fromState toState rule values kind actor refs)).Safe
      (service call a) s Q)
    (herror : ∀ e s, P s → Q (.error e) s) :
    (plan item fromState toState rule values kind actor refs >>= f).Safe (service call a) s Q := by
  have hplan : (plan item fromState toState rule values kind actor refs).Safe (service call a) s
      fun r s' => P s' ∧ ∀ p, r = .ok p →
        p = planOf item fromState toState rule values kind actor refs := by
    refine raiseIf_safe (fun _ => ?_) ⟨hs, fun p hp => by cases hp⟩
    refine Safe.perform_bind hs hP.stable hinv ?_
    rintro s r s' hs ⟨choice, hexec⟩
    cases hexec
    refine raiseIf_safe (fun _ => ⟨hs, fun p hp => ?_⟩) ⟨hs, fun p hp => by cases hp⟩
    cases hp
    rfl
  refine hplan.bind (fun p s h => ?_) fun e s h => herror e s h.1
  rw [h.2 p rfl]
  exact hf s h.1

/-! ## `_apply` -/

/-- The transaction has locked the item and read its row. -/
structure Held (a : α) (item : ItemId) (row : Item) (hand : Option Uuid) (s : Shared α) :
    Prop where
  idle : Idle a s
  item : HoldsItem a item row s
  hand : s.hand a = hand

theorem lasting_held (call : Call) (a : α) (item : ItemId) (row : Item) (hand : Option Uuid) :
    Lasting call a (Held a item row hand) where
  stable s s' hs hothers := ⟨(lasting_idle call a).stable s s' hs.idle hothers,
    (lasting_holdsItem call a item row).stable s s' hs.item hothers,
    (lasting_hand call a hand).stable s s' hs.hand hothers⟩
  calm s s' h hs := ⟨(lasting_idle call a).calm s s' h hs.idle,
    (lasting_holdsItem call a item row).calm s s' h hs.item,
    (lasting_hand call a hand).calm s s' h hs.hand⟩

/-- The media that is bound is locked, too. -/
def HeldBound (a : α) (item : ItemId) (row : Item) (hand : Option Uuid) (bound : Option Bound)
    (s : Shared α) : Prop :=
  Held a item row hand s ∧ ∀ m ∈ bound.map Bound.media, Owns s a (.media m)

theorem lasting_heldBound (call : Call) (a : α) (item : ItemId) (row : Item) (hand : Option Uuid)
    (bound : Option Bound) : Lasting call a (HeldBound a item row hand bound) :=
  (lasting_held call a item row hand).and (lasting_ownsMedia call a _)

theorem lockForBinding_safe {media : MediaId}
    (hs : P s) (hP : Lasting call a P) (hinv : ∀ s, P s → (service call a).invariant s) :
    (lockForBinding media requireValid).Safe (service call a) s fun r s' =>
      P s' ∧ ∀ row, r = .ok (.ok row) → Owns s' a (.media media) := by
  refine Safe.perform_bind hs hP.stable hinv ?_
  rintro s r s' hs ⟨choice, hexec⟩
  change exec choice a (.lockMedia media) s = some (r, s') at hexec
  have hcalm := exec_calm rfl hexec
  simp only [exec] at hexec
  split at hexec
  · obtain ⟨-, rfl, rfl, -⟩ := selectForUpdate_calm hexec
    have howner : Owns (lockRow s a (.media media)) a (.media media) :=
      RowLocks.owner_lock_of_mem (decide_eq_true rfl)
    dsimp only
    split_ifs <;> exact ⟨hP.calm _ _ hcalm hs, fun _ _ => howner⟩
  · cases hexec
    exact ⟨hs, fun row hrow => by cases hrow⟩

theorem bindMedia_safe {media : Option MediaId}
    (hs : P s) (hP : Lasting call a P) (hinv : ∀ s, P s → (service call a).invariant s) :
    (bindMedia media requireValid).Safe (service call a) s fun r s' =>
      P s' ∧ ∀ bound, r = .ok bound → ∀ m ∈ bound.map Bound.media, Owns s' a (.media m) := by
  cases media with
  | none =>
    refine ⟨hs, fun bound hbound m hm => ?_⟩
    cases hbound
    cases hm
  | some media =>
    refine (lockForBinding_safe hs hP hinv).bind (fun bound s h => ?_) fun e s h =>
      ⟨h.1, fun _ he => by cases he⟩
    match bound with
    | .ok row =>
      refine ⟨h.1, fun bound hbound m hm => ?_⟩
      cases hbound
      cases hm
      exact h.2 row rfl
    | .error .airingProhibited => exact ⟨h.1, fun _ he => by cases he⟩
    | .error .unusable => exact ⟨h.1, fun _ he => by cases he⟩

/-- What the checks of a transition have to show. -/
structure Checked (call : Call) (a : α) (item : ItemId) (toState : ItemState) (t : Transition)
    (hand : Option Uuid) (found : Found) (C : Time → Prop) (V : Option Bound → Shared α → Prop) :
    Prop where
  check : ∀ now s, Held a item found.row hand s →
    (t.check found t.actor now).Safe (service call a) s fun r s' =>
      Held a item found.row hand s' ∧ (r = .ok () → C now)
  verify : ∀ bound s, HeldBound a item found.row hand bound s →
    (t.verify found bound).Safe (service call a) s fun r s' =>
      HeldBound a item found.row hand bound s' ∧ (r = .ok () → V bound s')
  lasting : ∀ bound, Lasting call a (V bound)
  licensed : ∀ now bound s, Held a item found.row hand s → V bound s → C now →
    requireLeaseOf found.row t.leaseToken now = .ok () →
    ∀ plan : TransitionPlan, plan.item = item → plan.toState = toState →
      plan.values = planned (t.changes found.row (bound.map Bound.media) now) toState now →
      Licensed (Owns s a) (s.hand a) call s.db plan

theorem Held.service {row : Item}
    (h : Held a item row hand s) (call : Call) : (service call a).invariant s :=
  h.idle.service call

theorem applyLocked_keeps {C : Time → Prop} {V : Option Bound → Shared α → Prop}
    (hs : Held a item found.row hand s) (h : Checked call a item toState t hand found C V) :
    Keeps call a (applyLocked item toState t found) s := by
  have hheld := lasting_held call a item found.row hand
  refine orRaise_safe (fun rule _ => orRaise_safe (fun actor _ => ?_) fun _ => hs.service call)
    fun _ => hs.service call
  refine (calmly_perform rfl).bind_safe hs hheld (fun s hs => hs.service call)
    (fun now s hs => ?_) fun _ s hs => hs.service call
  refine orRaise_safe (fun _ hlease => ?_) fun _ => hs.service call
  refine (h.check now s hs).bind (fun _ s hs => ?_) fun _ s hs => hs.1.service call
  have hchecked := hs.2 rfl
  refine (bindMedia_safe hs.1 hheld fun s hs => hs.service call).bind (fun bound s hs => ?_)
    fun _ s hs => hs.1.service call
  refine (h.verify bound s ⟨hs.1, hs.2 bound rfl⟩).bind (fun _ s hs => ?_)
    fun _ s hs => hs.1.1.service call
  have hlasting := hheld.and (h.lasting bound)
  refine plan_bind_safe ⟨hs.1.1, hs.2 rfl⟩ hlasting (fun s hs => hs.1.service call)
    (fun s hs => ?_) fun _ s hs => hs.1.service call
  refine (commitFirst_safe hs hlasting (fun s hs => hs.1.idle) fun s hs => ?_).bind
    (fun _ s hs => hs.1) fun _ s hs => hs.1
  exact h.licensed now bound s hs.1 hs.2 hchecked hlease _ rfl rfl rfl

/-- The service ends its session. -/
abbrev Completes (call : Call) (a : α) (m : Service β) (s : Shared α) : Prop :=
  m.Safe (service call a) s (Crew.Ends assertions a)

theorem stable_resting (call : Call) (a : α) : (service call a).Stable (Resting a) :=
  fun _ _ hs hothers => ⟨hothers.2.1, (spared_of_others hothers).sessions.clean hs.clean⟩

/-- The row that a lock returns. -/
theorem lockItem_safe {f : Option Found → Service β} (hs : Idle a s ∧ s.hand a = hand)
    (hsome : ∀ found s, Held a item found.row hand s → (f (some found)).Safe (service call a) s Q)
    (hnone : ∀ s, Idle a s → (f none).Safe (service call a) s Q) :
    (perform (.lockItem item) >>= f).Safe (service call a) s Q := by
  have hlasting := (lasting_idle call a).and (lasting_hand call a hand)
  refine Safe.perform_bind hs hlasting.stable (fun s hs => hs.1.service call) ?_
  rintro s r s' hs ⟨choice, hexec⟩
  change exec choice a (.lockItem item) s = some (r, s') at hexec
  have hcalm := exec_calm rfl hexec
  simp only [exec, hs.1.view] at hexec
  split at hexec
  · next row hrow =>
    obtain ⟨-, rfl, rfl, -⟩ := selectForUpdate_calm hexec
    have hafter := hlasting.calm _ _ hcalm hs
    exact hsome _ _ ⟨hafter.1, ⟨RowLocks.owner_lock_of_mem (decide_eq_true rfl), hrow⟩, hafter.2⟩
  · cases hexec
    exact hnone _ hs.1

theorem apply_completes (hand : Option Uuid) {C : Found → Time → Prop}
    {V : Found → Option Bound → Shared α → Prop} (hs : Idle a s ∧ s.hand a = hand)
    (h : ∀ found, Checked call a item toState t hand found (C found) (V found)) :
    Completes call a (apply item toState t) s := by
  refine atomic_ends ?_
  have hlasting := (lasting_idle call a).and (lasting_hand call a hand)
  have hlocked {s : Shared α} (hs : Idle a s ∧ s.hand a = hand) : Keeps call a
      (perform (.lockItem item) >>= fun found => get found >>= fun found =>
        applyLocked item toState t found) s :=
    lockItem_safe hs (fun found s hs => applyLocked_keeps hs (h found))
      fun s hs => hs.service call
  split_ifs
  · exact (calmly_lockTypeOf item).bind_safe hs hlasting (fun s hs => hs.1.service call)
      (fun _ s hs => hlocked hs) fun _ s hs => hs.1.service call
  · exact hlocked hs

/-- A transition that neither starts nor ends an attempt, with calm checks. -/
theorem checked_of_other (hto : toState.isAttempt = false)
    (hcheck : ∀ now, Calmly (t.check found t.actor now))
    (hverify : ∀ bound, t.verify found bound = pure ()) :
    Checked call a item toState t hand found (fun _ => True) (fun _ _ => True) where
  check now s hs := by
    refine Safe.mono ((hcheck now).safe hs (lasting_held call a item found.row hand)
      fun s hs => hs.service call) fun r s' hs' => ⟨hs', fun _ => trivial⟩
  verify bound s hs := by
    rw [hverify]
    exact ⟨hs, fun _ => trivial⟩
  lasting _ := lasting_true call a
  licensed now bound s _ _ _ _ plan _ hplan _ := .other (by rw [hplan]; exact hto)

theorem apply_other (hs : Idle a s)
    (hto : toState.isAttempt = false) (hcheck : ∀ found now, Calmly (t.check found t.actor now))
    (hverify : ∀ found bound, t.verify found bound = pure ()) :
    Completes call a (apply item toState t) s :=
  apply_completes _ ⟨hs, rfl⟩ fun found => checked_of_other hto (hcheck found) (hverify found)

end IsadoraAir.Spoken
