import IsadoraAir.Spoken.Operations

/-!
# Every program is safe

Attempts are started and ended under the lock of the item, and a rendition is
bound under its own lock; everything else writes no lease and no rendition.
-/

namespace IsadoraAir.Spoken

open Routine (Safe Setting Uses)

variable {kind : ActorKind} {row : Item} {item : ItemId} {toState : ItemState}
  {changes : List Change} {ws : List Write} {media : Option MediaId} {actor : Option User}
  {now : Time} {witness : Witness} {α : Type} {β γ : Type} {a : α} {s : Shared α}

theorem ends_of_resting (h : Resting a s) (r : Except Fault β) : Crew.Ends assertions a r s :=
  ⟨h.invariant, h.clean⟩

theorem resting_of_ends {r : Except Fault β} (h : Crew.Ends assertions a r s) : Resting a s :=
  ⟨h.1, h.2⟩

variable [DecidableEq α] {call : Call} {m : Service β} {f : β → Service γ}

/-- What follows a transaction that has ended. -/
theorem Completes.bind (hm : Completes call a m s)
    (hf : ∀ b s, Resting a s → Completes call a (f b) s) : Completes call a (m >>= f) s :=
  Safe.bind hm (fun b s h => hf b s (resting_of_ends h)) fun _ _ h => h

theorem Completes.map (hm : Completes call a m s) (f : β → γ) :
    Completes call a (m >>= fun b => pure (f b)) s :=
  hm.bind fun _ _ h => ends_of_resting h _

/-- A query outside of any transaction. -/
theorem read_completes {x : Action} {f : x.Result → Service β} (hs : Resting a s)
    (hread : ∀ c s r s', exec c a x s = some (r, s') → s' = s)
    (hf : ∀ r s, Resting a s → Completes call a (f r) s) :
    Completes call a (perform x >>= f) s := by
  refine Safe.perform_bind hs (stable_resting call a) (fun s hs => hs.idle.service call) ?_
  rintro s r s' hs ⟨choice, hexec⟩
  rw [hread choice s r s' hexec]
  exact hf r s hs

theorem get_completes {x : Option β} (hs : Resting a s)
    (hf : ∀ b, x = some b → Completes call a (f b) s) : Completes call a (get x >>= f) s := by
  cases x with
  | none => exact ends_of_resting hs _
  | some b => exact hf b rfl

theorem draw_invariant (hs : Invariant s) (a : α) {uuid : Uuid} (h : uuid ∉ s.drawn) :
    Invariant { s with
      drawn := s.drawn ++ [uuid]
      hand := Function.update s.hand a (some uuid) } where
  sound := hs.sound
  covered := hs.covered
  tokens := (Tokens.Step.draw (s := s.tokens) uuid h).exclusive hs.tokens

theorem uuid4_safe {f : Uuid → Service β} {Q : Except Fault β → Shared α → Prop}
    {P : Shared α → Prop} (hs : P s) (hstable : (service call a).Stable P)
    (hidle : ∀ s, P s → Idle a s)
    (hkeep : ∀ s s', P s → Invariant s' → s'.sessions = s.sessions → P s')
    (hf : ∀ uuid s, P s → s.hand a = some uuid → (f uuid).Safe (service call a) s Q) :
    (perform .uuid4 >>= f).Safe (service call a) s Q := by
  refine Safe.perform_bind hs hstable (fun s hs => (hidle s hs).service call) ?_
  rintro s r s' hs ⟨choice, hexec⟩
  change exec choice a .uuid4 s = some (r, s') at hexec
  simp only [exec] at hexec
  split_ifs at hexec with hdrawn
  cases hexec
  refine hf _ _ (hkeep s _ hs (draw_invariant (hidle s hs).invariant a hdrawn) rfl) ?_
  exact Function.update_self ..

/-! ## Submission and validation -/

theorem createItem_completes (hs : Resting a s) (type : TypeId) (actor : Option User)
    (title notes : Text) (origin : Origin) :
    Completes call a (createItem type actor title notes origin) s := by
  refine raiseIf_safe (fun _ => orRaise_safe (fun columns _ => ?_) fun _ => ends_of_resting hs _)
    (ends_of_resting hs _)
  refine atomic_ends ?_
  have hidle := lasting_idle call a
  have hinv (s : Shared α) (hs : Idle a s) := hs.service call
  refine (calmly_perform rfl).bind_safe hs.idle hidle hinv (fun locked s hs => ?_) fun _ => hinv
  refine (calmly_get locked).bind_safe hs hidle hinv (fun locked s hs => ?_) fun _ => hinv
  refine raiseIf_safe (fun _ => ?_) (hs.service call)
  refine (calmly_perform rfl).bind_safe hs hidle hinv (fun now s hs => ?_) fun _ => hinv
  refine uuid4_safe hs hidle.stable (fun _ hs => hs) (fun s s' hs hinvariant hsessions =>
    ⟨hinvariant, by rw [hsessions]; exact hs.pending⟩) fun item s hs _ => ?_
  refine plan_bind_safe hs hidle hinv (fun s hs => ?_) fun _ => hinv
  exact (commitFirst_safe hs hidle (fun s hs => hs) fun s hs => .other rfl).bind
    (fun _ s hs => hs.1) fun _ s hs => hs.1

theorem submit_completes (hs : Resting a s) (item : ItemId) (media : MediaId)
    (actor : Option User) : Completes call a (submit item media actor) s :=
  apply_other hs.idle rfl (fun _ _ => calmly_checkSubmission _ _ _) fun _ _ => rfl

theorem recordVerdict_completes (hs : Resting a s) (item : ItemId) (kind : ActorKind)
    (media : MediaId) (code : Option Text) :
    Completes call a (recordVerdict item kind media code) s := by
  cases code <;> exact apply_other hs.idle rfl (fun _ _ => trivial) fun _ _ => rfl

theorem recordValidation_completes (hs : Resting a s) (item : ItemId) (kind : ActorKind) :
    Completes call a (recordValidation item kind) s := by
  refine read_completes hs (fun _ _ _ _ h => by cases h; rfl) fun found s hs => ?_
  refine get_completes hs fun found _ => ?_
  split
  · exact ends_of_resting hs _
  · refine read_completes hs (fun _ _ _ _ h => by cases h; rfl) fun row s hs => ?_
    refine get_completes hs fun row _ => raiseIf_safe (fun _ => ?_) (ends_of_resting hs _)
    split
    · exact recordVerdict_completes hs ..
    · exact read_completes hs (fun _ _ _ _ h => by cases h; rfl) fun code s hs =>
        recordVerdict_completes hs ..

/-! ## Attempts -/

theorem startProcessing_completes (hs : Resting a s) (item : ItemId) (leaseSeconds : ℤ)
    (kind : ActorKind) :
    Completes (.startProcessing item leaseSeconds kind) a (startProcessing item leaseSeconds kind)
      s := by
  refine raiseIf_safe (fun _ => ?_) (ends_of_resting hs _)
  refine uuid4_safe hs (stable_resting _ a) (fun _ hs => hs.idle) (fun s s' hs hinvariant hsessions =>
    ⟨hinvariant, by rw [hsessions]; exact hs.clean⟩) fun token s hs hhand => ?_
  refine Completes.map (apply_completes (some token) (C := fun found now =>
      found.row.state = .processing →
        ∃ expiry, found.row.leaseExpiresAt = some expiry ∧ expiry ≤ now)
    (V := fun _ _ _ => True) ⟨hs.idle, hhand⟩ fun found => ?_) _
  refine ⟨fun now s hs => ?_, fun bound s hs => ⟨hs, fun _ => trivial⟩,
    fun _ => lasting_true _ a, ?_⟩
  · change (checkReclaim found.row now).Safe _ s _
    unfold checkReclaim raiseIf
    split_ifs with hheld
    · exact ⟨hs, fun h => by cases h⟩
    · refine ⟨hs, fun _ hprocessing => ?_⟩
      cases hexpiry : found.row.leaseExpiresAt with
      | none => exact absurd ⟨hprocessing, by rw [hexpiry]; rfl⟩ hheld
      | some expiry =>
        refine ⟨expiry, rfl, ?_⟩
        by_contra hlate
        refine hheld ⟨hprocessing, ?_⟩
        rw [hexpiry]
        simpa using hlate
  · intro now bound s hs _ hfree _ plan hitem hto hvalues
    subst hitem
    exact .starts hto hs.item.item rfl hs.hand hfree hvalues

theorem requireLease_eq_ok {token : Option Token}
    (h : requireLease row token now = .ok ()) : ∃ t, token = some t ∧ row.leaseToken = some t ∧
      ∃ expiry, row.leaseExpiresAt = some expiry ∧ now < expiry := by
  unfold requireLease at h
  split_ifs at h with hstale hexpired
  simp only [not_or, not_not] at hstale
  obtain ⟨t, ht⟩ := Option.ne_none_iff_exists'.mp hstale.2.1
  refine ⟨t, ht, hstale.2.2.trans ht, ?_⟩
  cases hexpiry : row.leaseExpiresAt with
  | none => simp [hexpiry] at hexpired
  | some expiry => exact ⟨expiry, rfl, by simpa [hexpiry] using hexpired⟩

theorem isBoundElsewhere_eq_false {db : Database} {media : MediaId}
    (h : db.isBoundElsewhere media item ≠ true) : ∀ i row, db.items.get? i = some row →
      row.renditionMedia = some media → i = item := by
  intro i row hrow hmedia
  by_contra hne
  refine h (List.any_eq_true.mpr ⟨(i, row), Dict.get?_eq_some_iff.mp hrow, ?_⟩)
  exact decide_eq_true ⟨hmedia, hne⟩

/-- Where the render is verified, no other item is bound to it. -/
theorem verifyRender_safe {evidence : RenderEvidence} {found : Found}
    {hand : Option Uuid} {bound : Option Bound} (hs : HeldBound a item found.row hand bound s) :
    (verifyRender item evidence found bound).Safe (service call a) s fun r s' =>
      HeldBound a item found.row hand bound s' ∧
        (r = .ok () → bound.isSome ∧ ∀ b ∈ bound, HoldsMedia a item b.media s') := by
  cases bound with
  | none => exact ⟨hs, fun h => by cases h⟩
  | some bound =>
    have hlasting := lasting_heldBound call a item found.row hand (some bound)
    have hinv (s : Shared α) (hs : HeldBound a item found.row hand (some bound) s) :=
      hs.1.service call
    refine (calmly_verifyProvenance _ _ _).bind_safe hs hlasting hinv (fun _ s hs => ?_)
      fun _ s hs => ⟨hs, fun h => by cases h⟩
    refine Safe.perform_bind hs hlasting.stable hinv ?_
    rintro s r s' hs ⟨choice, hexec⟩
    cases hexec
    unfold raiseIf
    split_ifs with htaken
    · exact ⟨hs, fun h => by cases h⟩
    · refine ⟨hs, fun _ => ⟨rfl, fun b hb => ?_⟩⟩
      cases hb
      rw [hs.1.idle.view] at htaken
      exact ⟨hs.2 _ rfl, isBoundElsewhere_eq_false htaken⟩

theorem lasting_unbound (call : Call) (a : α) (item : ItemId) (bound : Option Bound) :
    Lasting call a fun s => bound.isSome ∧ ∀ b ∈ bound, HoldsMedia a item b.media s where
  stable s s' h hothers := ⟨h.1, fun b hb =>
    (lasting_holdsMedia call a item b.media).stable s s' (h.2 b hb) hothers⟩
  calm s s' hcalm h := ⟨h.1, fun b hb =>
    (lasting_holdsMedia call a item b.media).calm s s' hcalm (h.2 b hb)⟩

theorem completeProcessing_completes (hs : Resting a s) (item : ItemId)
    (leaseToken : Option Token) (evidence : Option RenderEvidence) (kind : ActorKind) :
    Completes (.completeProcessing item leaseToken evidence kind) a
      (completeProcessing item leaseToken evidence kind) s := by
  refine orRaise_safe (fun parsed _ => ?_) fun _ => ends_of_resting hs _
  refine apply_completes (s.hand a) (C := fun _ _ => True)
    (V := fun _ bound s => bound.isSome ∧ ∀ b ∈ bound, HoldsMedia a item b.media s)
    ⟨hs.idle, rfl⟩ fun found => ?_
  refine ⟨fun now s hs => ⟨hs, fun _ => trivial⟩, fun bound s hs => verifyRender_safe hs,
    lasting_unbound _ a item, ?_⟩
  intro now bound s hs hbound _ hlease plan hitem hto hvalues
  subst hitem
  obtain ⟨b, rfl⟩ := Option.isSome_iff_exists.mp hbound.1
  obtain ⟨t, ht, hrow, hexpiry⟩ := requireLease_eq_ok hlease
  have hmedia := hbound.2 b rfl
  refine .completes hto hs.item.item ⟨⟨t, ?_, hrow⟩, hexpiry⟩ hvalues hmedia.owner hmedia.unbound
  rw [ht]
  rfl

theorem failProcessing_completes (hs : Resting a s) (item : ItemId) (leaseToken : Option Token)
    (code detail : Text) (kind : ActorKind) :
    Completes (.failProcessing item leaseToken code detail kind) a
      (failProcessing item leaseToken code detail kind) s := by
  refine apply_completes (s.hand a) (C := fun _ _ => True) (V := fun _ _ _ => True)
    ⟨hs.idle, rfl⟩ fun found => ?_
  refine ⟨fun now s hs => ⟨hs, fun _ => trivial⟩, fun bound s hs => ⟨hs, fun _ => trivial⟩,
    fun _ => lasting_true _ a, ?_⟩
  intro now bound s hs _ _ hlease plan hitem hto hvalues
  subst hitem
  obtain ⟨t, ht, hrow, hexpiry⟩ := requireLease_eq_ok hlease
  refine .fails hto hs.item.item ⟨⟨t, ?_, hrow⟩, hexpiry⟩ hvalues
  rw [ht]
  rfl

theorem retry_completes (hs : Resting a s) (item : ItemId) (actor : Option User) :
    Completes call a (retry item actor) s :=
  apply_other hs.idle rfl (fun _ _ => calmly_raiseIf _ _) fun _ _ => rfl

/-! ## Review and recall -/

theorem requestReview_completes (hs : Resting a s) (item : ItemId) (kind : ActorKind) :
    Completes call a (requestReview item kind) s :=
  apply_other hs.idle rfl (fun _ _ => calmly_raiseIf _ _) fun _ _ => rfl

theorem reject_completes (hs : Resting a s) (item : ItemId) (actor : Option User) (note : Text) :
    Completes call a (reject item actor note) s :=
  apply_other hs.idle rfl (fun _ _ => calmly_raiseIf _ _) fun _ _ => rfl

theorem recallUndelivered_completes (hs : Resting a s) (item : ItemId) (actor : Option User)
    (reason : Text) (expected : Option ItemState) :
    Completes call a (recallUndelivered item actor reason expected) s :=
  apply_other hs.idle rfl (fun _ _ => calmly_checkRecall _ _ _) fun _ _ => rfl

/-! ## Delivery -/

/-- What is written so far is of other items, and neither starts nor ends an attempt. -/
structure Aside (call : Call) (a : α) (item : ItemId) (ws : List Write) (s : Shared α) :
    Prop where
  working : Working call a ws s
  other : ∀ v ∈ ws, v.plan.item ≠ item ∧ v.plan.toState.isAttempt = false

theorem lasting_aside (call : Call) (a : α) (item : ItemId) (ws : List Write) :
    Lasting call a (Aside call a item ws) where
  stable s s' hs hothers := ⟨(lasting_working call a ws).stable s s' hs.working hothers, hs.other⟩
  calm s s' h hs := ⟨(lasting_working call a ws).calm s s' h hs.working, hs.other⟩

theorem Idle.aside (h : Idle a s) (call : Call) (item : ItemId) : Aside call a item [] s :=
  ⟨h.working call, fun v hv => by cases hv⟩

theorem itemMove_safe

    (hs : Aside call a item ws s)
    (hto : toState.isAttempt = false) :
    (itemMove item row toState now actor kind changes media witness).Safe (service call a) s
      fun r s' => (service call a).invariant s' ∧ ∀ row, r = .ok row →
        ∃ w : Write, w.plan.item = item ∧ w.plan.toState = toState ∧
          Working call a (ws ++ [w]) s' := by
  have hinv (s : Shared α) (hs : Aside call a item ws s) := hs.working.invariant
  unfold itemMove
  split
  · exact ⟨hinv s hs, fun row h => by cases h⟩
  · refine orRaise_safe (fun columns _ => ?_) fun _ => ⟨hinv s hs, fun row h => by cases h⟩
    refine plan_bind_safe hs (lasting_aside call a item ws) hinv (fun s hs => ?_)
      fun _ s hs => ⟨hinv s hs, fun row h => by cases h⟩
    refine (commitPlan_safe hs (lasting_aside call a item ws) (fun s hs => hs.working)
      (fun v hv => (hs.other v hv).1) (fun s hs => .other hto) (.inr fun v hv => ?_)).bind
      (fun _ s hs => ⟨hs.1, fun row _ => ⟨_, rfl, rfl, hs.2 rfl⟩⟩)
      fun _ s hs => ⟨hs.1, fun row h => by cases h⟩
    rcases List.mem_append.mp hv with hv | hv
    · exact (hs.other v hv).2
    · rw [List.mem_singleton.mp hv]
      exact hto

theorem itemMove_keeps

    (hs : Aside call a item ws s)
    (hto : toState.isAttempt = false) :
    Keeps call a (itemMove item row toState now actor kind changes media witness) s :=
  (itemMove_safe hs hto).mono fun _ _ h => h.1

theorem intent_completes (hs : Resting a s) (item : ItemId) (d : Delivery) :
    Completes call a (intent item d) s := by
  refine atomic_ends ?_
  have hidle := lasting_idle call a
  have hinv (s : Shared α) (hs : Idle a s) := hs.service call
  refine (calmly_lockBoth item).bind_safe hs.idle hidle hinv (fun locked s hs => ?_) fun _ => hinv
  obtain ⟨type, found⟩ := locked
  dsimp only
  split_ifs
  · exact hinv s hs
  · refine (calmly_deliverable found d).bind_safe hs hidle hinv (fun _ s hs => ?_) fun _ => hinv
    have hintend : Keeps call a (intend item found) s :=
      ((calmly_intend item found).safe hs hidle hinv).mono fun _ => hinv
    split
    · exact hinv s hs
    · refine (calmly_bindRendition found).bind_safe hs hidle hinv (fun _ s hs => ?_) fun _ => hinv
      refine (calmly_perform rfl).bind_safe hs hidle hinv (fun now s hs => ?_) fun _ => hinv
      exact (itemMove_keeps (hs.aside call item) rfl).bind (fun _ _ h => h) fun _ _ h => h
    · exact hintend
    · exact hintend

theorem enterUnavailable_completes (hs : Resting a s) (item : ItemId) (asset edition : Uuid)
    (fromState : ItemState) (rendition : MediaId) (d : Delivery) :
    Completes call a (enterUnavailable item asset edition fromState rendition d) s := by
  refine atomic_ends ?_
  have hcalm : Calmly (do
      let _ ← validatePromotion item asset edition fromState rendition d [.pending, .live]
      let _ ← perform .now
      perform (.enterUnavailable asset)) :=
    Uses.bind (calmly_validatePromotion ..) fun _ => Uses.bind (calmly_perform rfl) fun _ =>
      calmly_perform rfl
  exact (hcalm.safe hs.idle (lasting_idle call a) fun s hs => hs.service call).mono
    fun _ s hs => hs.service call

theorem supersede_safe {asset : Uuid} {replaced : Replaced} (hs : Idle a s) :
    (supersede item asset replaced now).Safe (service call a) s fun r s' =>
      (service call a).invariant s' ∧ (r = .ok () → ∃ ws, Aside call a item ws s') := by
  have hinv (s : Shared α) (hs : Idle a s) := hs.service call
  have hnothing {s : Shared α} (hs : Idle a s) : (service call a).invariant s ∧
      ((.ok () : Except Fault Unit) = .ok () → ∃ ws, Aside call a item ws s) :=
    ⟨hinv s hs, fun _ => ⟨[], hs.aside call item⟩⟩
  unfold supersede
  split
  · next edition previous hedition hprevious =>
    split_ifs with hsame
    · exact hnothing hs
    · refine (calmly_lockFound previous).bind_safe hs (lasting_idle call a) hinv
        (fun old s hs => ?_) fun _ s hs => ⟨hinv s hs, fun h => by cases h⟩
      split_ifs
      · refine (itemMove_safe (hs.aside call previous) rfl).bind (fun row s h => ?_)
          fun _ s h => ⟨h.1, fun h => by cases h⟩
        refine ⟨h.1, fun _ => ?_⟩
        obtain ⟨w, hitem, hto, hworking⟩ := h.2 row rfl
        refine ⟨[w], hworking, fun v hv => ?_⟩
        rw [List.mem_singleton.mp hv, hitem, hto]
        exact ⟨hsame, rfl⟩
      · exact hnothing hs
  · exact hnothing hs

theorem promote_completes (hs : Resting a s) (item : ItemId) (asset edition : Uuid)
    (fromState : ItemState) (rendition : MediaId) (d : Delivery) :
    Completes call a (promote item asset edition fromState rendition d) s := by
  refine atomic_ends ?_
  have hidle := lasting_idle call a
  have hinv (s : Shared α) (hs : Idle a s) := hs.service call
  refine (calmly_validatePromotion ..).bind_safe hs.idle hidle hinv (fun locked s hs => ?_)
    fun _ => hinv
  obtain ⟨type, found⟩ := locked
  refine (calmly_requireCategory _).bind_safe hs hidle hinv (fun _ s hs => ?_) fun _ => hinv
  refine (calmly_perform rfl).bind_safe hs hidle hinv (fun now s hs => ?_) fun _ => hinv
  refine (calmly_perform rfl).bind_safe hs hidle hinv (fun replaced s hs => ?_) fun _ => hinv
  cases replaced with
  | none => exact hinv s hs
  | some replaced =>
    refine (supersede_safe hs).bind (fun _ s h => ?_) fun _ s h => h.1
    obtain ⟨ws, haside⟩ := h.2 rfl
    exact itemMove_keeps haside rfl

theorem deliver_completes (hs : Resting a s) (item : ItemId) (d : Delivery) :
    Completes call a (deliver item d) s := by
  refine (intent_completes hs item d).bind fun planned s hs => ?_
  cases planned with
  | done row already => exact ends_of_resting hs _
  | planned asset edition fromState rendition =>
    refine (enterUnavailable_completes hs ..).bind fun _ s hs => ?_
    exact (promote_completes hs ..).map _

theorem endLocked_completes (hs : Resting a s) (item : ItemId) (ending : Ending)
    (actor : Option User) (kind : ActorKind) (reason : Text) (expected : Option ItemState) :
    Completes call a (endLocked item ending actor kind reason expected) s := by
  refine atomic_ends ?_
  have hidle := lasting_idle call a
  have hinv (s : Shared α) (hs : Idle a s) := hs.service call
  have hto : ending.state.isAttempt = false := by cases ending <;> rfl
  refine (calmly_lockBoth item).bind_safe hs.idle hidle hinv (fun locked s hs => ?_) fun _ => hinv
  obtain ⟨type, found⟩ := locked
  refine (calmly_requireExpectedState _ _).bind_safe hs hidle hinv (fun _ s hs => ?_) fun _ => hinv
  refine raiseIf_safe (fun _ => ?_) (hinv s hs)
  refine (calmly_perform rfl).bind_safe hs hidle hinv (fun now s hs => ?_) fun _ => hinv
  refine (calmly_endChanges ..).bind_safe hs hidle hinv (fun changes s hs => ?_) fun _ => hinv
  refine (calmly_perform rfl).bind_safe hs hidle hinv (fun asset s hs => ?_) fun _ => hinv
  refine raiseIf_safe (fun _ => ?_) (hinv s hs)
  cases asset with
  | none => exact itemMove_keeps (hs.aside call item) hto
  | some asset =>
    dsimp only
    split_ifs
    · refine (calmly_perform rfl).bind_safe hs hidle hinv (fun edition s hs => ?_) fun _ => hinv
      exact itemMove_keeps (hs.aside call item) hto
    · exact itemMove_keeps (hs.aside call item) hto

theorem recall_completes (hs : Resting a s) (item : ItemId) (actor : Option User) (reason : Text)
    (expected : Option ItemState) : Completes call a (recallItem item actor reason expected) s := by
  refine read_completes hs (fun _ _ _ _ h => by cases h; rfl) fun state s hs => ?_
  split_ifs
  · exact endLocked_completes hs ..
  · exact recallUndelivered_completes hs ..

theorem advanceProcessed_completes (hs : Resting a s) (item : ItemId) :
    Completes call a (advanceProcessed item) s := by
  refine read_completes hs (fun _ _ _ _ h => by cases h; rfl) fun found s hs => ?_
  refine get_completes hs fun found _ => ?_
  split_ifs
  · exact ends_of_resting hs _
  · exact (requestReview_completes hs item .system).map _
  · exact (deliver_completes hs item _).map _

theorem program_completes (hs : Resting a s) (call : Call) : Completes call a (program call) s := by
  cases call with
  | createItem type actor title notes origin => exact (createItem_completes hs ..).map _
  | submit item media actor => exact (submit_completes hs ..).map _
  | recordValidation item kind => exact (recordValidation_completes hs ..).map _
  | startProcessing item leaseSeconds kind => exact (startProcessing_completes hs ..).map _
  | completeProcessing item leaseToken evidence kind =>
    exact (completeProcessing_completes hs ..).map _
  | failProcessing item leaseToken code detail kind => exact (failProcessing_completes hs ..).map _
  | retry item actor => exact (retry_completes hs ..).map _
  | requestReview item kind => exact (requestReview_completes hs ..).map _
  | reject item actor note => exact (reject_completes hs ..).map _
  | recallItem item actor reason expected => exact (recall_completes hs ..).map _
  | deliverItem item actor kind => exact (deliver_completes hs ..).map _
  | approveAndDeliver item actor note => exact (deliver_completes hs ..).map _
  | advanceProcessed item => exact advanceProcessed_completes hs item
  | recallDelivered item actor reason expected => exact (endLocked_completes hs ..).map _
  | expireItem item => exact (endLocked_completes hs ..).map _

theorem lawful : (staff : Crew Action.Result (Shared α) α Choice).Lawful assertions program where
  abandon a s hs := ⟨rollback_invariant hs a, Sessions.rollback_clean s.sessions a⟩
  during := stable_invariant
  clean _ _ _ hs hothers := (spared_of_others hothers).sessions.clean hs
  start call _ _ hs hclean := program_completes ⟨hs, hclean⟩ call

end IsadoraAir.Spoken
