import IsadoraAir.Spoken.Transactions

/-!
# Soundness of the items

The table of the items is sound in every state. What a transaction has written
is accepted by the guard and licensed by what the transaction has checked; that
cannot change as long as it holds its locks.
-/

namespace IsadoraAir.Spoken

variable {row : Item} {media : MediaId} {now : Time}

structure Database.Sound (db : Database) : Prop where
  path : ∀ i, replay (db.eventsOf i) = some ((db.items.get? i).map Item.state)
  lease : ∀ i row, db.items.get? i = some row →
    (row.leaseToken.isSome ↔ row.state = .processing)
  rendition : ∀ i j row row' media, db.items.get? i = some row → db.items.get? j = some row' →
    row.renditionMedia = some media → row'.renditionMedia = some media → i = j
  rendered : ∀ i row, db.items.get? i = some row → row.renditionMedia.isSome → row.state.isRendered

theorem empty_sound : (⟨.empty, []⟩ : Database).Sound where
  path _ := rfl
  lease _ _ h := by cases h
  rendition _ _ _ _ _ h := by cases h
  rendered _ _ h := by cases h

/-! ## Locked rows -/

/-- What a write changes: the item, and the rendition that it binds. -/
def Write.Touches (w : Write) (row : Row) : Prop :=
  row = .item w.plan.item ∨
    ∃ media, row = .media media ∧ Change.renditionMedia (some media) ∈ w.plan.values

/-- The locked rows are the same in both. -/
structure Agree (owns : Row → Prop) (db db' : Database) : Prop where
  item : ∀ i, owns (.item i) → db'.items.get? i = db.items.get? i
  media : ∀ media, owns (.media media) → ∀ i row, db'.items.get? i = some row →
    row.renditionMedia = some media →
    ∃ row', db.items.get? i = some row' ∧ row'.renditionMedia = some media

theorem Agree.refl (owns : Row → Prop) (db : Database) : Agree owns db db :=
  ⟨fun _ _ => rfl, fun _ _ _ row h hmedia => ⟨row, h, hmedia⟩⟩

theorem Agree.trans {owns : Row → Prop} {db db' db'' : Database} (h : Agree owns db db')
    (h' : Agree owns db' db'') : Agree owns db db'' where
  item i ho := (h'.item i ho).trans (h.item i ho)
  media media ho i row hrow hmedia := by
    obtain ⟨row', hrow', hmedia'⟩ := h'.media media ho i row hrow hmedia
    exact h.media media ho i row' hrow' hmedia'

theorem get?_apply (db : Database) (w : Write) (i : ItemId) :
    (db.apply w).items.get? i =
      if i = w.plan.item then some (db.after w) else db.items.get? i :=
  Dict.get?_insert ..

theorem agree_apply {owns : Row → Prop} (db : Database) {w : Write}
    (h : ∀ row, w.Touches row → ¬owns row) : Agree owns db (db.apply w) := by
  constructor
  · intro i ho
    rw [get?_apply, if_neg]
    rintro rfl
    exact h _ (.inl rfl) ho
  · intro media ho i row hrow hmedia
    rw [get?_apply] at hrow
    split_ifs at hrow with hi
    · cases hrow
      rcases Item.renditionMedia_of_setAll hmedia with hbefore | hbound
      · subst hi
        cases hitem : db.items.get? w.plan.item with
        | none => simp [hitem, Item.blank] at hbefore
        | some row =>
          rw [hitem] at hbefore
          exact ⟨row, rfl, hbefore⟩
      · exact absurd ho (h _ (.inr ⟨media, rfl, hbound⟩))
    · exact ⟨row, hrow, hmedia⟩

theorem agree_foldl {owns : Row → Prop} {ws : List Write}
    (h : ∀ w ∈ ws, ∀ row, w.Touches row → ¬owns row) (db : Database) :
    Agree owns db (ws.foldl Database.apply db) := by
  induction ws generalizing db with
  | nil => exact .refl owns db
  | cons w ws ih =>
    obtain ⟨hw, hws⟩ := List.forall_mem_cons.mp h
    exact (agree_apply db hw).trans (ih hws (db.apply w))

/-! ## What a transaction may have written -/

/-- What the guard has found. -/
structure Accepted (db : Database) (w : Write) (rule : Rule) : Prop where
  permits : transitions w.plan.fromState w.plan.toState = some rule
  planned : w.plan.plannedState = some w.plan.toState
  item : w.plan.event.item = w.plan.item
  event : w.plan.event.event = rule.event
  fromState : w.plan.event.fromState = w.plan.fromState
  toState : w.plan.event.toState = w.plan.toState
  columns : ∀ c ∈ w.plan.values,
    c.column ∈ createColumns ∨ c.column ∈ rule.writable w.plan.toState
  state : (db.items.get? w.plan.item).map Item.state = w.plan.fromState

theorem accepted_of_refuses {db : Database} {witnessed : Bool} {w : Write}
    (h : db.refuses witnessed w = none) : ∃ rule, Accepted db w rule := by
  unfold Database.refuses at h
  split_ifs at h with hauthorized _ _ hexpects
  simp only [Bool.not_eq_false] at hauthorized hexpects
  unfold Write.authorized at hauthorized
  cases hrule : transitions w.plan.fromState w.plan.toState with
  | none => simp [hrule] at hauthorized
  | some rule =>
    simp only [hrule, Bool.and_eq_true, decide_eq_true_eq] at hauthorized
    obtain ⟨⟨⟨⟨⟨hplanned, hitem⟩, hevent⟩, hfrom⟩, hto⟩, hgrant⟩ := hauthorized
    refine ⟨rule, hrule, hplanned, hitem, hevent, hfrom, hto, fun c hc => ?_,
      of_decide_eq_true hexpects⟩
    have hcolumn : c.column ∈ w.plan.values.map Change.column := List.mem_map_of_mem hc
    unfold Write.isGranted at hgrant
    cases hkind : w.grant with
    | itemCreate =>
      simp only [hkind, Bool.and_eq_true, List.all_eq_true, decide_eq_true_eq] at hgrant
      exact .inl (hgrant.1.2 _ hcolumn)
    | itemWrite =>
      simp only [hkind, Bool.and_eq_true, List.all_eq_true, decide_eq_true_eq] at hgrant
      exact .inr (hgrant.2 _ hcolumn)
    | projectedItemWrite =>
      simp only [hkind, Bool.and_eq_true, List.all_eq_true, decide_eq_true_eq] at hgrant
      exact .inr (hgrant.2 _ hcolumn)

/-- The item and the lease by which a call asks for the outcome of an attempt. -/
def Call.concludes : Call → Option (ItemId × Token × ItemState)
  | .completeProcessing item (some token) _ _ => some (item, token, .processed)
  | .failProcessing item (some token) _ _ _ => some (item, token, .failed)
  | _ => none

/-- The lease is the one that the call presents, and it has not expired. -/
structure HoldsLease (call : Call) (item : ItemId) (row : Item) (toState : ItemState)
    (now : Time) : Prop where
  presents : ∃ token, call.concludes = some (item, token, toState) ∧ row.leaseToken = some token
  unexpired : ∃ expiry, row.leaseExpiresAt = some expiry ∧ now < expiry

/-- Why a plan may be written: who answers which call, with which token in hand. -/
inductive Licensed (owns : Row → Prop) (hand : Option Token) (call : Call) (db : Database)
    (plan : TransitionPlan) : Prop
  | starts {row : Item} {token : Token} {now : Time} {leaseSeconds : ℤ} {kind : ActorKind}
    (hto : plan.toState = .processing) (hrow : db.items.get? plan.item = some row)
    (hcall : call = .startProcessing plan.item leaseSeconds kind) (hhand : hand = some token)
    (hfree : row.state = .processing → ∃ expiry, row.leaseExpiresAt = some expiry ∧ expiry ≤ now)
    (hvalues : plan.values = planned (attemptChanges token leaseSeconds row now) .processing now)
  | completes {row : Item} {media : MediaId} {now : Time}
    (hto : plan.toState = .processed) (hrow : db.items.get? plan.item = some row)
    (hlease : HoldsLease call plan.item row .processed now)
    (hvalues : plan.values = planned (completionChanges (some media) now) .processed now)
    (hmedia : owns (.media media))
    (hunbound : ∀ i row', db.items.get? i = some row' → row'.renditionMedia = some media →
      i = plan.item)
  | fails {row : Item} {code detail : Text} {now : Time}
    (hto : plan.toState = .failed) (hrow : db.items.get? plan.item = some row)
    (hlease : HoldsLease call plan.item row .failed now)
    (hvalues : plan.values = planned (failureChanges code detail) .failed now)
  | other (hto : plan.toState.isAttempt = false)

structure Justified (owns : Row → Prop) (hand : Option Token) (call : Call) (db : Database)
    (ws : List Write) : Prop where
  owner : ∀ w ∈ ws, owns (.item w.plan.item)
  accepted : ∀ w ∈ ws, ∃ rule, Accepted db w rule
  licensed : ∀ w ∈ ws, Licensed owns hand call db w.plan
  distinct : (ws.map fun w => w.plan.item).Nodup
  alone : ∀ w ∈ ws, w.plan.toState.isAttempt → ws = [w]

theorem justified_nil (owns : Row → Prop) (hand : Option Token) (call : Call) (db : Database) :
    Justified owns hand call db [] :=
  ⟨by simp, by simp, by simp, by simp, by simp⟩

section

variable {owns owns' : Row → Prop} {hand : Option Token} {call : Call} {db db' : Database}
  {w : Write} {ws : List Write} {rule : Rule}

theorem Agree.accepted (h : Agree owns db db') (hi : owns (.item w.plan.item))
    (hw : Accepted db w rule) : Accepted db' w rule :=
  { hw with state := by rw [h.item _ hi]; exact hw.state }

theorem Agree.licensed (h : Agree owns db db') (howns : ∀ row, owns row → owns' row)
    (hi : owns (.item w.plan.item)) (hw : Licensed owns hand call db w.plan) :
    Licensed owns' hand call db' w.plan := by
  have hitem := h.item _ hi
  cases hw with
  | starts hto hrow hcall hhand hfree hvalues =>
    exact .starts hto (hitem.trans hrow) hcall hhand hfree hvalues
  | completes hto hrow hlease hvalues hmedia hunbound =>
    refine .completes hto (hitem.trans hrow) hlease hvalues (howns _ hmedia) fun i row' hi hbound => ?_
    obtain ⟨row, hrow, hmedia⟩ := h.media _ hmedia i row' hi hbound
    exact hunbound i row hrow hmedia
  | fails hto hrow hlease hvalues => exact .fails hto (hitem.trans hrow) hlease hvalues
  | other hto => exact .other hto

/-- What is justified stays so while the locked rows are the same. -/
theorem Agree.justified (h : Agree owns db db') (howns : ∀ row, owns row → owns' row)
    (hws : Justified owns hand call db ws) : Justified owns' hand call db' ws where
  owner w hw := howns _ (hws.owner w hw)
  accepted w hw := by
    obtain ⟨rule, haccepted⟩ := hws.accepted w hw
    exact ⟨rule, h.accepted (hws.owner w hw) haccepted⟩
  licensed w hw := h.licensed howns (hws.owner w hw) (hws.licensed w hw)
  distinct := hws.distinct
  alone := hws.alone

end

/-! ## A justified commit -/

section

variable {owns : Row → Prop} {hand : Option Token} {call : Call} {db : Database} {w : Write}
  {ws : List Write} {rule : Rule}

theorem Accepted.after_state (h : Accepted db w rule) : (db.after w).state = w.plan.toState := by
  have hplanned := h.planned
  unfold TransitionPlan.plannedState at hplanned
  rw [Database.after, Item.state_setAll, hplanned]
  rfl

/-- What becomes of one item: nothing, or one accepted and licensed write. -/
inductive Moves (owns : Row → Prop) (hand : Option Token) (call : Call) (db db' : Database)
    (ws : List Write) (i : ItemId) : Prop
  | same (hrow : db'.items.get? i = db.items.get? i) (hevents : db'.eventsOf i = db.eventsOf i)
  | moved {w : Write} {rule : Rule} (hw : w ∈ ws) (hi : w.plan.item = i)
    (haccepted : Accepted db w rule) (hlicensed : Licensed owns hand call db w.plan)
    (hrow : db'.items.get? i = some (db.after w))
    (hevents : db'.eventsOf i = db.eventsOf i ++ [w.plan.event])

theorem eventsOf_apply (db : Database) (w : Write) (i : ItemId) :
    (db.apply w).eventsOf i =
      db.eventsOf i ++ if w.plan.event.item = i then [w.plan.event] else [] := by
  simp only [Database.eventsOf, Database.apply, List.filter_append, List.filter_cons,
    List.filter_nil, decide_eq_true_eq]

variable (db) in
theorem foldl_of_ne (hevent : ∀ w ∈ ws, w.plan.event.item = w.plan.item) {i : ItemId}
    (hi : ∀ w ∈ ws, w.plan.item ≠ i) :
    (ws.foldl Database.apply db).items.get? i = db.items.get? i ∧
      (ws.foldl Database.apply db).eventsOf i = db.eventsOf i := by
  induction ws generalizing db with
  | nil => exact ⟨rfl, rfl⟩
  | cons w ws ih =>
    obtain ⟨hw, hws⟩ := List.forall_mem_cons.mp hi
    obtain ⟨hwevent, hwsevent⟩ := List.forall_mem_cons.mp hevent
    obtain ⟨hrow, hevents⟩ := ih (db.apply w) hwsevent hws
    refine ⟨hrow.trans ?_, hevents.trans ?_⟩
    · rw [get?_apply, if_neg fun h => hw h.symm]
    · rw [eventsOf_apply, hwevent, if_neg hw, List.append_nil]

variable (db) in
theorem foldl_of_mem (hevent : ∀ w ∈ ws, w.plan.event.item = w.plan.item)
    (hdistinct : (ws.map fun w => w.plan.item).Nodup) (hw : w ∈ ws) :
    (ws.foldl Database.apply db).items.get? w.plan.item = some (db.after w) ∧
      (ws.foldl Database.apply db).eventsOf w.plan.item =
        db.eventsOf w.plan.item ++ [w.plan.event] := by
  induction ws generalizing db with
  | nil => cases hw
  | cons v ws ih =>
    obtain ⟨hvevent, hwsevent⟩ := List.forall_mem_cons.mp hevent
    rw [List.map_cons, List.nodup_cons] at hdistinct
    rcases List.mem_cons.mp hw with rfl | hw
    · obtain ⟨hrow, hevents⟩ := foldl_of_ne (db.apply w) hwsevent
        fun v hv heq => hdistinct.1 (List.mem_map.mpr ⟨v, hv, heq⟩)
      refine ⟨hrow.trans ?_, hevents.trans ?_⟩
      · rw [get?_apply, if_pos rfl]
      · rw [eventsOf_apply, hvevent, if_pos rfl]
    · have hne : w.plan.item ≠ v.plan.item := fun heq =>
        hdistinct.1 (List.mem_map.mpr ⟨w, hw, heq⟩)
      obtain ⟨hrow, hevents⟩ := ih (db.apply v) hwsevent hdistinct.2 hw
      have hsame : (db.apply v).items.get? w.plan.item = db.items.get? w.plan.item := by
        rw [get?_apply, if_neg hne]
      refine ⟨hrow.trans ?_, hevents.trans ?_⟩
      · rw [Database.after, hsame, Database.after]
      · rw [eventsOf_apply, hvevent, if_neg hne.symm, List.append_nil]

theorem Justified.moves (h : Justified owns hand call db ws) (i : ItemId) :
    Moves owns hand call db (ws.foldl Database.apply db) ws i := by
  have hevent (w : Write) (hw : w ∈ ws) : w.plan.event.item = w.plan.item := by
    obtain ⟨rule, haccepted⟩ := h.accepted w hw
    exact haccepted.item
  by_cases hi : ∃ w ∈ ws, w.plan.item = i
  · obtain ⟨w, hw, rfl⟩ := hi
    obtain ⟨rule, haccepted⟩ := h.accepted w hw
    obtain ⟨hrow, hevents⟩ := foldl_of_mem db hevent h.distinct hw
    exact .moved hw rfl haccepted (h.licensed w hw) hrow hevents
  · obtain ⟨hrow, hevents⟩ := foldl_of_ne db hevent fun w hw heq => hi ⟨w, hw, heq⟩
    exact .same hrow hevents

/-! ## What a write leaves behind -/

theorem Accepted.other (h : Accepted db w rule) (hto : w.plan.toState.isAttempt = false) :
    (db.after w).leaseToken = ((db.items.get? w.plan.item).getD Item.blank).leaseToken ∧
      (db.after w).leaseExpiresAt = ((db.items.get? w.plan.item).getD Item.blank).leaseExpiresAt ∧
      (db.after w).renditionMedia =
        ((db.items.get? w.plan.item).getD Item.blank).renditionMedia := by
  refine Item.setAll_of_other fun c hc hattempt => ?_
  obtain ⟨hwritable, hcreate⟩ := writable_of_other _ _ hto rule h.permits _ hattempt
  exact (h.columns c hc).elim hcreate hwritable

theorem Accepted.from_state (h : Accepted db w rule)
    (hrow : db.items.get? w.plan.item = some row) : w.plan.fromState = some row.state := by
  have hstate := h.state
  rw [hrow] at hstate
  exact hstate.symm

theorem Accepted.permits_isSome (h : Accepted db w rule)
    (hrow : db.items.get? w.plan.item = some row) :
    (transitions (some row.state) w.plan.toState).isSome := by
  rw [← h.from_state hrow, h.permits]
  rfl

theorem after_starts {token : Token} {leaseSeconds : ℤ}
    (hrow : db.items.get? w.plan.item = some row)
    (hvalues : w.plan.values = planned (attemptChanges token leaseSeconds row now) .processing now) :
    (db.after w).leaseToken = some token ∧
      (db.after w).leaseExpiresAt = some (leaseEnd now leaseSeconds) ∧
      (db.after w).renditionMedia = row.renditionMedia ∧
      (db.after w).stateChangedAt = some now := by
  simp [Database.after, hrow, hvalues, planned, attemptChanges, Item.setAll, Item.set,
    ItemState.isTerminal]

theorem after_completes (hrow : db.items.get? w.plan.item = some row)
    (hvalues : w.plan.values = planned (completionChanges (some media) now) .processed now) :
    (db.after w).leaseToken = none ∧ (db.after w).renditionMedia = some media ∧
      (db.after w).stateChangedAt = some now := by
  simp [Database.after, hrow, hvalues, planned, completionChanges, Item.setAll, Item.set,
    ItemState.isTerminal]

theorem after_fails {code detail : Text} (hrow : db.items.get? w.plan.item = some row)
    (hvalues : w.plan.values = planned (failureChanges code detail) .failed now) :
    (db.after w).leaseToken = none ∧ (db.after w).renditionMedia = row.renditionMedia ∧
      (db.after w).stateChangedAt = some now := by
  simp [Database.after, hrow, hvalues, planned, failureChanges, Item.setAll, Item.set,
    ItemState.isTerminal]

/-- An item that goes elsewhere has no lease. -/
theorem Accepted.unleased (h : Accepted db w rule) (hdb : db.Sound)
    (hto : w.plan.toState.isAttempt = false) :
    ((db.items.get? w.plan.item).getD Item.blank).leaseToken = none := by
  cases hrow : db.items.get? w.plan.item with
  | none => rfl
  | some row =>
    rw [Option.getD_some, ← Option.not_isSome_iff_eq_none, hdb.lease _ row hrow]
    intro hprocessing
    have hpermits := h.permits_isSome hrow
    rw [hprocessing] at hpermits
    rw [isAttempt_of_processing _ hpermits] at hto
    cases hto

theorem after_lease (hdb : db.Sound) (h : Accepted db w rule)
    (hlicensed : Licensed owns hand call db w.plan) :
    (db.after w).leaseToken.isSome ↔ w.plan.toState = .processing := by
  cases hlicensed with
  | starts hto hrow hcall hhand hfree hvalues => simp [(after_starts hrow hvalues).1, hto]
  | completes hto hrow hlease hvalues hmedia hunbound =>
    simp [(after_completes hrow hvalues).1, hto]
  | fails hto hrow hlease hvalues => simp [(after_fails hrow hvalues).1, hto]
  | other hto =>
    rw [(h.other hto).1, h.unleased hdb hto]
    simp only [Option.isSome_none, Bool.false_eq_true, false_iff]
    intro hprocessing
    rw [hprocessing] at hto
    cases hto

/-- The rendition of the item before, or one that no other item is bound to. -/
theorem after_rendition (h : Accepted db w rule) (hlicensed : Licensed owns hand call db w.plan)
    (hmedia : (db.after w).renditionMedia = some media) :
    (∃ row, db.items.get? w.plan.item = some row ∧ row.renditionMedia = some media) ∨
      w.plan.toState = .processed ∧ ∀ i row, db.items.get? i = some row →
        row.renditionMedia = some media → i = w.plan.item := by
  cases hlicensed with
  | @starts row _ _ _ _ hto hrow hcall hhand hfree hvalues =>
    rw [(after_starts hrow hvalues).2.2.1] at hmedia
    exact .inl ⟨row, hrow, hmedia⟩
  | completes hto hrow hlease hvalues howns hunbound =>
    rw [(after_completes hrow hvalues).2.1] at hmedia
    cases hmedia
    exact .inr ⟨hto, hunbound⟩
  | @fails row _ _ _ hto hrow hlease hvalues =>
    rw [(after_fails hrow hvalues).2.1] at hmedia
    exact .inl ⟨row, hrow, hmedia⟩
  | other hto =>
    rw [(h.other hto).2.2] at hmedia
    cases hrow : db.items.get? w.plan.item with
    | none => simp [hrow, Item.blank] at hmedia
    | some row =>
      rw [hrow, Option.getD_some] at hmedia
      exact .inl ⟨row, rfl, hmedia⟩

/-- What binds a rendition holds its lock. -/
theorem owns_of_licensed (h : Accepted db w rule) (hlicensed : Licensed owns hand call db w.plan)
    (hmedia : Change.renditionMedia (some media) ∈ w.plan.values) :
    owns (.media media) := by
  cases hlicensed with
  | starts hto hrow hcall hhand hfree hvalues =>
    simp [hvalues, planned, attemptChanges, ItemState.isTerminal] at hmedia
  | completes hto hrow hlease hvalues howns hunbound =>
    simp only [hvalues, planned, completionChanges, ItemState.isTerminal] at hmedia
    simp at hmedia
    rw [hmedia]
    exact howns
  | fails hto hrow hlease hvalues =>
    simp [hvalues, planned, failureChanges, ItemState.isTerminal] at hmedia
  | other hto =>
    have hcolumn : Column.renditionMedia ∈ attemptOnly := by decide
    obtain ⟨hwritable, hcreate⟩ := writable_of_other _ _ hto rule h.permits _ hcolumn
    exact ((h.columns _ hmedia).elim hcreate hwritable).elim

/-- A rendition stays bound. -/
theorem after_bound (hdb : db.Sound) (h : Accepted db w rule)
    (hlicensed : Licensed owns hand call db w.plan) (hrow : db.items.get? w.plan.item = some row)
    (hmedia : row.renditionMedia = some media) : (db.after w).renditionMedia = some media := by
  cases hlicensed with
  | starts hto hrow' hcall hhand hfree hvalues =>
    rw [hrow] at hrow'
    cases hrow'
    exact (after_starts hrow hvalues).2.2.1.trans hmedia
  | completes hto hrow' hlease hvalues howns hunbound =>
    have hrendered := hdb.rendered _ row hrow (by simp [hmedia])
    have hprocessing := from_of_outcome _ _ (.inl hto) (h.permits_isSome hrow)
    rw [Option.some.inj hprocessing] at hrendered
    cases hrendered
  | fails hto hrow' hlease hvalues =>
    rw [hrow] at hrow'
    cases hrow'
    exact (after_fails hrow hvalues).2.1.trans hmedia
  | other hto =>
    rw [(h.other hto).2.2, hrow]
    exact hmedia

end

/-- A justified commit keeps the items sound. -/
theorem Justified.sound {owns : Row → Prop} {hand : Option Token} {call : Call} {db : Database}
    {ws : List Write} (h : Justified owns hand call db ws) (hdb : db.Sound) :
    (ws.foldl Database.apply db).Sound := by
  constructor
  · intro i
    cases h.moves i with
    | same hrow hevents =>
      rw [hevents, hrow]
      exact hdb.path i
    | @moved w rule hw hi haccepted hlicensed hrow hevents =>
      subst hi
      have hpath := hdb.path w.plan.item
      rw [haccepted.state] at hpath
      have hpermits := haccepted.permits
      rw [← haccepted.toState] at hpermits
      rw [hevents, hrow, Option.map_some, haccepted.after_state, ← haccepted.toState]
      exact replay_snoc hpath haccepted.fromState hpermits haccepted.event
  · intro i row hrow'
    cases h.moves i with
    | same hrow hevents =>
      rw [hrow] at hrow'
      exact hdb.lease i row hrow'
    | moved hw hi haccepted hlicensed hrow hevents =>
      rw [hrow] at hrow'
      cases hrow'
      rw [haccepted.after_state]
      exact after_lease hdb haccepted hlicensed
  · intro i j row row' media hrow hrow' hmedia hmedia'
    cases h.moves i with
    | same hsame hevents =>
      rw [hsame] at hrow
      cases h.moves j with
      | same hsame' hevents' =>
        rw [hsame'] at hrow'
        exact hdb.rendition i j row row' media hrow hrow' hmedia hmedia'
      | moved hw hj haccepted hlicensed hafter hevents' =>
        rw [hafter] at hrow'
        cases hrow'
        subst hj
        rcases after_rendition haccepted hlicensed hmedia' with ⟨old, hold, hbound⟩ | ⟨-, hunbound⟩
        · exact hdb.rendition i _ row old media hrow hold hmedia hbound
        · exact hunbound i row hrow hmedia
    | moved hw hi haccepted hlicensed hafter hevents =>
      rw [hafter] at hrow
      cases hrow
      subst hi
      have hbefore := after_rendition haccepted hlicensed hmedia
      cases h.moves j with
      | same hsame' hevents' =>
        rw [hsame'] at hrow'
        rcases hbefore with ⟨old, hold, hbound⟩ | ⟨-, hunbound⟩
        · exact hdb.rendition _ j old row' media hold hrow' hbound hmedia'
        · exact (hunbound j row' hrow' hmedia').symm
      | @moved v rule' hv hj haccepted' hlicensed' hafter' hevents' =>
        rw [hafter'] at hrow'
        cases hrow'
        subst hj
        rcases hbefore with ⟨old, hold, hbound⟩ | ⟨hto, hunbound⟩
        · rcases after_rendition haccepted' hlicensed' hmedia' with
            ⟨old', hold', hbound'⟩ | ⟨-, hunbound'⟩
          · exact hdb.rendition _ _ old old' media hold hold' hbound hbound'
          · exact hunbound' _ old hold hbound
        · rw [h.alone _ hw (by rw [hto]; rfl), List.mem_singleton] at hv
          rw [hv]
  · intro i row hrow' hmedia
    cases h.moves i with
    | same hsame hevents =>
      rw [hsame] at hrow'
      exact hdb.rendered i row hrow' hmedia
    | moved hw hi haccepted hlicensed hafter hevents =>
      rw [hafter] at hrow'
      cases hrow'
      rw [haccepted.after_state]
      obtain ⟨media, hmedia⟩ := Option.isSome_iff_exists.mp hmedia
      rcases after_rendition haccepted hlicensed hmedia with ⟨old, hold, hbound⟩ | ⟨hto, -⟩
      · refine isRendered_of_transitions _ _ ?_ (haccepted.permits_isSome hold)
        exact hdb.rendered _ old hold (by simp [hbound])
      · rw [hto]
        rfl

end IsadoraAir.Spoken
