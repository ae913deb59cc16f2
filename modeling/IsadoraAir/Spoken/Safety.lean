import IsadoraAir.Spoken.Soundness

/-!
# What the operations hold

The invariant of the shared state, what a transaction relies on between two of
its queries, and why the others leave it alone.
-/

namespace IsadoraAir.Spoken

open Routine (Safe Setting)

variable {row : Row} {α : Type}

def Owns (s : Shared α) (a : α) (row : Row) : Prop := s.sessions.locks.owner row = some a

def Database.leaseOf (db : Database) (item : ItemId) : Option Token :=
  (db.items.get? item).bind Item.leaseToken

/-- Tokens are drawn by a worker and put up as the lease of an item. -/
def Shared.tokens (s : Shared α) : Tokens Uuid α ItemId := ⟨s.drawn, s.hand, s.db.leaseOf⟩

structure Invariant (s : Shared α) : Prop where
  sound : s.db.Sound
  covered : ∀ a, ∀ w ∈ s.sessions.pending a, ∀ row, w.Touches row → Owns s a row
  tokens : s.tokens.Exclusive

theorem initial_invariant : Invariant (initialShared : Shared α) where
  sound := empty_sound
  covered _ _ hw := by cases hw
  tokens := Tokens.initial_exclusive

/-- The transaction has written nothing yet. -/
structure Idle (a : α) (s : Shared α) : Prop where
  invariant : Invariant s
  pending : s.sessions.pending a = []

structure HoldsItem (a : α) (item : ItemId) (row : Item) (s : Shared α) : Prop where
  owner : Owns s a (.item item)
  item : s.db.items.get? item = some row

theorem Idle.view {a : α} {s : Shared α} (h : Idle a s) : Spoken.view s a = s.db :=
  Sessions.view_of_clean h.pending

/-- No item but this one is bound to the media, and the lock keeps it so. -/
structure HoldsMedia (a : α) (item : ItemId) (media : MediaId) (s : Shared α) : Prop where
  owner : Owns s a (.media media)
  unbound : ∀ i row, s.db.items.get? i = some row → row.renditionMedia = some media → i = item

variable [DecidableEq α]

def assertions : Crew.Assertions (Shared α) α Call where
  invariant := Invariant
  during call a s := Justified (Owns s a) (s.hand a) call s.db (s.sessions.pending a)
  clean a s := s.sessions.Clean a

abbrev service (call : Call) (a : α) : Setting Action.Result (Shared α) :=
  staff.setting assertions call a

variable {a b : α} {s s' : Shared α} {x : Action} {call : Call}

theorem Idle.service (h : Idle a s) (call : Call) : (service call a).invariant s := by
  refine ⟨h.invariant, ?_⟩
  change Justified _ _ call _ (s.sessions.pending a)
  rw [h.pending]
  exact justified_nil ..

/-! ## What the others do -/

/-- What is the transaction's own is left alone. -/
structure Spared (a : α) (s s' : Shared α) : Prop where
  sessions : Sessions.Spared a s.sessions s'.sessions
  hand : s'.hand a = s.hand a

theorem Calm.owner (h : Calm b s s') (ho : Owns s a row) : Owns s' a row := by
  rcases h.sessions with hsame | ⟨r, hr, hlock⟩
  · unfold Owns
    rw [hsame]
    exact ho
  · unfold Owns
    rw [hlock]
    by_cases hab : a = b
    · subst hab
      exact RowLocks.owner_lock_of_owner ho
    · refine RowLocks.owner_lock_of_ne (fun r' hr' => ?_) hab ho
      rw [of_decide_eq_true hr']
      exact hr

theorem Calm.db (h : Calm b s s') : s'.db = s.db := by
  rcases h.sessions with hsame | ⟨r, -, hlock⟩
  · rw [Shared.db, hsame]
  · rw [Shared.db, hlock]
    rfl

theorem Calm.pending (h : Calm b s s') : s'.sessions.pending = s.sessions.pending := by
  rcases h.sessions with hsame | ⟨r, -, hlock⟩
  · rw [hsame]
  · rw [hlock]
    rfl

theorem lock_spared (hrow : s.sessions.locks.available b row) (hab : a ≠ b) :
    Sessions.Spared a s.sessions (s.sessions.lock b fun r => r = row) := by
  refine Sessions.lock_spared (fun r hr => ?_) hab
  rw [of_decide_eq_true hr]
  exact hrow

theorem Effect.spared (h : Effect b s x s') (hab : a ≠ b) : Spared a s s' := by
  cases h with
  | calm h =>
    refine ⟨?_, congrFun h.hand a⟩
    rcases h.sessions with hsame | ⟨row, hrow, hlock⟩
    · rw [hsame]
      exact .refl a _
    · rw [hlock]
      exact lock_spared hrow hab
  | draw uuid huuid => exact ⟨.refl a _, Function.update_of_ne hab ..⟩
  | write w witnessed hrow hrefuses =>
    exact ⟨(lock_spared hrow hab).trans (Sessions.write_spared w hab), rfl⟩
  | commit => exact ⟨Sessions.commit_spared Database.apply hab, Function.update_of_ne hab ..⟩
  | rollback => exact ⟨Sessions.rollback_spared hab, Function.update_of_ne hab ..⟩

/-- The others leave the rows alone that the transaction holds. -/
theorem Effect.agree (h : Effect b s x s') (hab : a ≠ b) (hs : Invariant s) :
    Agree (Owns s a) s.db s'.db := by
  cases h with
  | calm h =>
    rw [h.db]
    exact .refl _ _
  | commit =>
    refine agree_foldl (fun w hw row htouches ho => ?_) s.db
    have howner := hs.covered b w hw row htouches
    exact hab (Option.some.inj (ho.symm.trans howner))
  | _ => exact .refl _ _

theorem effect_of_others (h : staff.Others assertions a s s') : ∃ b x, a ≠ b ∧ Effect b s x s' := by
  obtain ⟨-, -, b, hb, rfl | ⟨choice, x, r, hexec⟩⟩ := h
  · exact ⟨b, .rollback, hb.symm, .rollback⟩
  · exact ⟨b, x, hb.symm, exec_effect hexec⟩

theorem agree_of_others (h : staff.Others assertions a s s') : Agree (Owns s a) s.db s'.db := by
  obtain ⟨b, x, hab, heffect⟩ := effect_of_others h
  exact heffect.agree hab h.1

theorem spared_of_others (h : staff.Others assertions a s s') : Spared a s s' := by
  obtain ⟨b, x, hab, heffect⟩ := effect_of_others h
  exact heffect.spared hab

theorem stable_invariant (call : Call) (a : α) :
    (service call a).Stable (service call a).invariant := by
  intro s s' hs hothers
  have hspared := spared_of_others hothers
  refine ⟨hothers.2.1, ?_⟩
  change Justified (Owns s' a) (s'.hand a) call s'.db (s'.sessions.pending a)
  rw [hspared.sessions.pending, hspared.hand]
  exact (agree_of_others hothers).justified (fun row ho => hspared.sessions.owner row ho) hs.2

/-! ## Assertions that calm actions leave alone, too -/

/-- The assertion outlasts what the others do, and the transaction's own calm actions. -/
structure Lasting (call : Call) (a : α) (P : Shared α → Prop) : Prop where
  stable : (service call a).Stable P
  calm : ∀ s s', Calm a s s' → P s → P s'

theorem Lasting.and {P Q : Shared α → Prop} (hP : Lasting call a P) (hQ : Lasting call a Q) :
    Lasting call a fun s => P s ∧ Q s :=
  ⟨hP.stable.and hQ.stable, fun s s' h hs => ⟨hP.calm s s' h hs.1, hQ.calm s s' h hs.2⟩⟩

theorem Calm.invariant (h : Calm a s s') (hs : Invariant s) : Invariant s' := by
  refine ⟨by rw [h.db]; exact hs.sound, fun b w hw row htouches => ?_, ?_⟩
  · rw [h.pending] at hw
    exact h.owner (hs.covered b w hw row htouches)
  · have htokens : s'.tokens = s.tokens := by
      rw [Shared.tokens, Shared.tokens, h.drawn, h.hand, h.db]
    rw [htokens]
    exact hs.tokens

theorem lasting_idle (call : Call) (a : α) : Lasting call a (Idle a) where
  stable _ _ hs hothers :=
    ⟨hothers.2.1, (spared_of_others hothers).sessions.pending.trans hs.pending⟩
  calm _ _ h hs := ⟨h.invariant hs.invariant, (congrFun h.pending a).trans hs.pending⟩

theorem lasting_holdsItem (call : Call) (a : α) (item : ItemId) (row : Item) :
    Lasting call a (HoldsItem a item row) where
  stable _ _ hs hothers := ⟨(spared_of_others hothers).sessions.owner _ hs.owner,
    ((agree_of_others hothers).item item hs.owner).trans hs.item⟩
  calm _ _ h hs := ⟨h.owner hs.owner, by rw [h.db]; exact hs.item⟩

theorem lasting_ownsMedia (call : Call) (a : α) (media : Option MediaId) :
    Lasting call a fun s => ∀ m ∈ media, Owns s a (.media m) where
  stable _ _ hs hothers m hm := (spared_of_others hothers).sessions.owner _ (hs m hm)
  calm _ _ h hs m hm := h.owner (hs m hm)

theorem lasting_holdsMedia (call : Call) (a : α) (item : ItemId) (media : MediaId) :
    Lasting call a (HoldsMedia a item media) where
  stable s s' hs hothers := by
    refine ⟨(spared_of_others hothers).sessions.owner _ hs.owner, fun i row hrow hmedia => ?_⟩
    obtain ⟨row', hrow', hmedia'⟩ := (agree_of_others hothers).media media hs.owner i row hrow hmedia
    exact hs.unbound i row' hrow' hmedia'
  calm s s' h hs := ⟨h.owner hs.owner, by rw [h.db]; exact hs.unbound⟩

theorem lasting_hand (call : Call) (a : α) (hand : Option Uuid) :
    Lasting call a fun s => s.hand a = hand where
  stable _ _ hs hothers := (spared_of_others hothers).hand.trans hs
  calm _ _ h hs := (congrFun h.hand a).trans hs

theorem lasting_true (call : Call) (a : α) : Lasting call a fun _ => True :=
  ⟨fun _ _ _ _ => trivial, fun _ _ _ _ => trivial⟩

end IsadoraAir.Spoken

/-!
## Safety of the operations

One rule for calm queries and one for the write of a plan, and with them the
safety of `_apply` and of each operation.
-/

namespace IsadoraAir.Spoken

open Routine (Safe Setting Uses)

variable {grant : Grant} {ws : List Write} {plan : TransitionPlan}
  {α : Type} [DecidableEq α] {β : Type} {a : α} {s : Shared α} {call : Call} {P : Shared α → Prop}

/-- The transaction has written these plans, and may. -/
structure Working (call : Call) (a : α) (ws : List Write) (s : Shared α) : Prop where
  invariant : (service call a).invariant s
  pending : s.sessions.pending a = ws

/-- The transaction writes only what is justified. -/
abbrev Keeps (call : Call) (a : α) (m : Service β) (s : Shared α) : Prop :=
  m.Safe (service call a) s fun _ => (service call a).invariant

/-- All that the routine does is calm. -/
abbrev Calmly (m : Service β) : Prop := m.Uses (Action.isCalm ·)

/-! ### Rules -/

theorem lasting_working (call : Call) (a : α) (ws : List Write) :
    Lasting call a (Working call a ws) where
  stable s s' hs hothers := ⟨stable_invariant call a s s' hs.invariant hothers,
    (spared_of_others hothers).sessions.pending.trans hs.pending⟩
  calm s s' h hs := by
    have hpending := (congrFun h.pending a).trans hs.pending
    refine ⟨⟨h.invariant hs.invariant.1, ?_⟩, hpending⟩
    have hjustified : Justified (Owns s a) (s.hand a) call s.db (s.sessions.pending a) :=
      hs.invariant.2
    change Justified (Owns s' a) (s'.hand a) call s'.db (s'.sessions.pending a)
    rw [hpending, ← hs.pending, congrFun h.hand a, h.db]
    exact (Agree.refl _ _).justified (fun row ho => h.owner ho) hjustified

theorem Idle.working (h : Idle a s) (call : Call) : Working call a [] s :=
  ⟨h.service call, h.pending⟩

theorem Working.idle (h : Working call a [] s) : Idle a s := ⟨h.invariant.1, h.pending⟩

theorem Calmly.safe {m : Service β} (hm : Calmly m) (hs : P s)
    (hP : Lasting call a P) (hinv : ∀ s, P s → (service call a).invariant s) :
    m.Safe (service call a) s fun _ => P := by
  refine Uses.safe hm hs hP.stable hinv ?_
  rintro x s r s' hx hs ⟨choice, hexec⟩
  exact hP.calm s s' (exec_calm hx hexec) hs

theorem Calmly.bind_safe {γ : Type} {m : Service β} {f : β → Service γ}
    {Q : Except Fault γ → Shared α → Prop} (hm : Calmly m) (hs : P s)
    (hP : Lasting call a P) (hinv : ∀ s, P s → (service call a).invariant s)
    (hf : ∀ b s, P s → (f b).Safe (service call a) s Q) (herror : ∀ e s, P s → Q (.error e) s) :
    (m >>= f).Safe (service call a) s Q :=
  (hm.safe hs hP hinv).bind hf herror

theorem orRaise_safe {γ : Type} {result : Except Fault β} {f : β → Service γ}
    {Q : Except Fault γ → Shared α → Prop} (hf : ∀ b, result = .ok b →
      (f b).Safe (service call a) s Q) (herror : ∀ e, Q (.error e) s) :
    (orRaise result >>= f).Safe (service call a) s Q := by
  cases result with
  | ok b => exact hf b rfl
  | error e => exact herror e

theorem raiseIf_safe {γ : Type} {condition : Prop} [Decidable condition] {fault : Fault}
    {f : Unit → Service γ} {Q : Except Fault γ → Shared α → Prop}
    (hf : ¬condition → (f ()).Safe (service call a) s Q) (herror : Q (.error fault) s) :
    (raiseIf condition fault >>= f).Safe (service call a) s Q := by
  unfold raiseIf
  split_ifs with h
  · exact herror
  · exact hf h

/-! ### The write of a plan -/

/-- A write that is licensed, and accepted with what has been written before it. -/
theorem Working.write (hs : Working call a ws s) {w : Write} {witnessed : Bool}
    (hrow : s.sessions.locks.available a (.item w.plan.item))
    (hrefuses : (view s a).refuses witnessed w = none) (hnew : ∀ v ∈ ws, v.plan.item ≠ w.plan.item)
    (hlicensed : Licensed (Owns s a) (s.hand a) call s.db w.plan)
    (halone : ws = [] ∨ (∀ v ∈ ws ++ [w], v.plan.toState.isAttempt = false)) :
    Working call a (ws ++ [w])
      { s with sessions := (lockRow s a (.item w.plan.item)).sessions.write a w } := by
  obtain ⟨hinvariant, hjustified⟩ := hs.invariant
  change Justified (Owns s a) (s.hand a) call s.db (s.sessions.pending a) at hjustified
  rw [hs.pending] at hjustified
  have hevent (v : Write) (hv : v ∈ ws) : v.plan.event.item = v.plan.item := by
    obtain ⟨rule, haccepted⟩ := hjustified.accepted v hv
    exact haccepted.item
  obtain ⟨rule, haccepted⟩ := accepted_of_refuses hrefuses
  have hstate : (view s a).items.get? w.plan.item = s.db.items.get? w.plan.item := by
    change ((s.sessions.pending a).foldl Database.apply s.db).items.get? _ = _
    rw [hs.pending]
    exact (foldl_of_ne _ hevent hnew).1
  replace haccepted : Accepted s.db w rule :=
    { haccepted with state := by rw [← hstate]; exact haccepted.state }
  have howner (row : Row) (ho : Owns s a row) :
      Owns (lockRow s a (.item w.plan.item)) a row := RowLocks.owner_lock_of_owner ho
  have hitem : Owns (lockRow s a (.item w.plan.item)) a (.item w.plan.item) :=
    RowLocks.owner_lock_of_mem (decide_eq_true rfl)
  have hpending : ((lockRow s a (.item w.plan.item)).sessions.write a w).pending a = ws ++ [w] := by
    rw [Sessions.write_pending_self]
    change s.sessions.pending a ++ [w] = _
    rw [hs.pending]
  refine ⟨⟨⟨hinvariant.sound, fun b v hv row htouches => ?_, hinvariant.tokens⟩, ?_⟩, hpending⟩
  · change v ∈ ((lockRow s a (.item w.plan.item)).sessions.write a w).pending b at hv
    by_cases hb : b = a
    · subst hb
      rw [hpending, List.mem_append, List.mem_singleton] at hv
      rcases hv with hv | rfl
      · refine howner row (hinvariant.covered b v ?_ row htouches)
        rw [hs.pending]
        exact hv
      · rcases htouches with rfl | ⟨media, rfl, hmedia⟩
        · exact hitem
        · exact howner _ (owns_of_licensed haccepted hlicensed hmedia)
    · rw [Sessions.write_pending_of_ne _ hb] at hv
      exact (lock_spared hrow hb).owner row (hinvariant.covered b v hv row htouches)
  · change Justified (Owns (lockRow s a _) a) (s.hand a) call s.db _
    rw [hpending]
    have hbefore := (Agree.refl _ s.db).justified howner hjustified
    refine ⟨fun v hv => ?_, fun v hv => ?_, fun v hv => ?_, ?_, fun v hv hattempt => ?_⟩
    · rcases List.mem_append.mp hv with hv | hv
      · exact hbefore.owner v hv
      · rw [List.mem_singleton.mp hv]
        exact hitem
    · rcases List.mem_append.mp hv with hv | hv
      · exact hbefore.accepted v hv
      · rw [List.mem_singleton.mp hv]
        exact ⟨rule, haccepted⟩
    · rcases List.mem_append.mp hv with hv | hv
      · exact hbefore.licensed v hv
      · rw [List.mem_singleton.mp hv]
        cases hlicensed with
        | starts hto hrow hcall hhand hfree hvalues =>
          exact .starts hto hrow hcall hhand hfree hvalues
        | completes hto hrow hlease hvalues hmedia hunbound =>
          exact .completes hto hrow hlease hvalues (howner _ hmedia) hunbound
        | fails hto hrow hlease hvalues => exact .fails hto hrow hlease hvalues
        | other hto => exact .other hto
    · rw [List.map_append, List.map_singleton, ← List.concat_eq_append]
      refine hbefore.distinct.concat fun hmem => ?_
      obtain ⟨v, hv, hsame⟩ := List.mem_map.mp hmem
      exact hnew v hv hsame
    · rcases halone with rfl | hother
      · rw [List.nil_append, List.mem_singleton] at hv
        rw [hv]
        rfl
      · rw [hother v hv] at hattempt
        cases hattempt

theorem commitPlan_safe (hs : P s) (hP : Lasting call a P)
    (hworking : ∀ s, P s → Working call a ws s) (hnew : ∀ v ∈ ws, v.plan.item ≠ plan.item)
    (hlicensed : ∀ s, P s → Licensed (Owns s a) (s.hand a) call s.db plan)
    (halone : ws = [] ∨ (∀ v ∈ ws ++ [⟨grant, plan⟩], v.plan.toState.isAttempt = false)) :
    (commitPlan grant plan).Safe (service call a) s fun r s' =>
      (service call a).invariant s' ∧ (r = .ok () → Working call a (ws ++ [⟨grant, plan⟩]) s') := by
  refine Safe.perform_bind hs hP.stable (fun s hs => (hworking s hs).invariant) ?_
  rintro s r s' hs ⟨choice, hexec⟩
  change writeRow s a choice.witnessed ⟨grant, plan⟩ = some (r, s') at hexec
  rcases writeRow_eq_some hexec with ⟨rfl, hrow, hrefuses, rfl⟩ | ⟨⟨fault, rfl⟩, rfl⟩
  · have hwritten := (hworking s hs).write hrow hrefuses hnew (hlicensed s hs) halone
    exact ⟨hwritten.invariant, fun _ => hwritten⟩
  · exact ⟨(hworking s' hs).invariant, fun h => by cases h⟩

/-- The first plan that a session commits. -/
theorem commitFirst_safe (hs : P s)
    (hP : Lasting call a P) (hidle : ∀ s, P s → Idle a s)
    (hlicensed : ∀ s, P s → Licensed (Owns s a) (s.hand a) call s.db plan) :
    (commitPlan grant plan).Safe (service call a) s fun r s' =>
      (service call a).invariant s' ∧ (r = .ok () → Working call a [⟨grant, plan⟩] s') :=
  commitPlan_safe hs hP (fun s hs => (hidle s hs).working call) (fun v hv => by cases hv)
    hlicensed (.inl rfl)

/-! ### Ending a transaction -/

theorem others_covered {s' : Shared α} (hs : Invariant s)
    (hspared : ∀ b, b ≠ a → Sessions.Spared b s.sessions s'.sessions)
    (hclean : s'.sessions.Clean a) : ∀ b, ∀ w ∈ s'.sessions.pending b, ∀ row,
      w.Touches row → Owns s' b row := by
  intro b w hw row htouches
  by_cases hb : b = a
  · subst hb
    rw [hclean.pending] at hw
    cases hw
  · rw [(hspared b hb).pending] at hw
    exact (hspared b hb).owner row (hs.covered b w hw row htouches)

theorem rollback_tokens (s : Shared α) (a : α) :
    Tokens.Step a s.tokens (rollbackSession s a).tokens :=
  .finish none s.db.leaseOf (fun k hk => by cases hk) fun k _ => .inl rfl

theorem rollback_invariant (hs : Invariant s) (a : α) : Invariant (rollbackSession s a) where
  sound := hs.sound
  covered := others_covered hs (fun _ hb => Sessions.rollback_spared hb)
    (Sessions.rollback_clean s.sessions a)
  tokens := (rollback_tokens s a).exclusive hs.tokens

/-- A commit puts up the token that the transaction has in hand, or none. -/
theorem commit_tokens (h : (service call a).invariant s) :
    Tokens.Step a s.tokens (commitSession s a).tokens := by
  obtain ⟨hinvariant, hjustified⟩ := h
  change Justified (Owns s a) (s.hand a) call s.db (s.sessions.pending a) at hjustified
  have hlease (i : ItemId) : (commitSession s a).db.leaseOf i =
      ((s.sessions.pending a).foldl Database.apply s.db).leaseOf i := rfl
  have hkept (i : ItemId) (hi : ∀ w ∈ s.sessions.pending a, w.plan.toState ≠ .processing ∨
      w.plan.item ≠ i) : (commitSession s a).db.leaseOf i = s.db.leaseOf i ∨
        (commitSession s a).db.leaseOf i = none := by
    rw [hlease]
    cases hjustified.moves i with
    | same hrow hevents =>
      rw [Database.leaseOf, hrow]
      exact .inl rfl
    | moved hw hitem haccepted hlicensed hrow hevents =>
      right
      rw [Database.leaseOf, hrow, Option.bind_some, ← Option.not_isSome_iff_eq_none,
        after_lease hinvariant.sound haccepted hlicensed]
      exact fun hto => (hi _ hw).elim (fun h => h hto) fun h => h hitem
  by_cases hstarts : ∃ w ∈ s.sessions.pending a, w.plan.toState = .processing
  · obtain ⟨w, hw, hto⟩ := hstarts
    have hsingle := hjustified.alone w hw (by rw [hto]; rfl)
    refine .finish (some w.plan.item) (commitSession s a).db.leaseOf (fun k hk => ?_) fun k hk => ?_
    · cases hk
      change (commitSession s a).db.leaseOf w.plan.item = s.hand a
      rw [hlease]
      cases hjustified.moves w.plan.item with
      | same hrow hevents =>
        obtain ⟨rule, haccepted⟩ := hjustified.accepted w hw
        have hmem := (foldl_of_mem s.db (fun v hv => by
          obtain ⟨rule, haccepted⟩ := hjustified.accepted v hv
          exact haccepted.item) hjustified.distinct hw).2
        rw [hevents] at hmem
        simp at hmem
      | @moved v rule hv hitem haccepted hlicensed hrow hevents =>
        rw [hsingle, List.mem_singleton] at hv
        subst hv
        rw [Database.leaseOf, hrow, Option.bind_some]
        cases hlicensed with
        | starts hto hrow' hcall hhand hfree hvalues =>
          rw [(after_starts hrow' hvalues).1, hhand]
        | completes hto' => rw [hto] at hto'; cases hto'
        | fails hto' => rw [hto] at hto'; cases hto'
        | other hto' => rw [hto] at hto'; cases hto'
    · refine hkept k fun v hv => .inr fun heq => ?_
      rw [hsingle, List.mem_singleton] at hv
      rw [hv] at heq
      exact hk (by rw [heq]; rfl)
  · refine .finish none (commitSession s a).db.leaseOf (fun k hk => by cases hk) fun k _ => ?_
    exact hkept k fun w hw => .inl fun hto => hstarts ⟨w, hw, hto⟩

theorem commit_invariant (h : (service call a).invariant s) : Invariant (commitSession s a) where
  sound := h.2.sound h.1.sound
  covered := others_covered h.1 (fun _ hb => Sessions.commit_spared Database.apply hb)
    (Sessions.commit_clean Database.apply s.sessions a)
  tokens := (commit_tokens h).exclusive h.1.tokens

theorem atomic_ends {body : Service β} (h : Keeps call a body s) :
    (atomic body).Safe (service call a) s (Crew.Ends assertions a) := by
  refine Safe.attempt_bind h fun r s hs => ?_
  cases r with
  | ok b =>
    refine Safe.perform_bind hs (stable_invariant call a) (fun s h => h) ?_
    rintro s r s' hs ⟨choice, hexec⟩
    cases hexec
    exact ⟨commit_invariant hs, Sessions.commit_clean Database.apply s.sessions a⟩
  | error fault =>
    refine Safe.perform_bind hs (stable_invariant call a) (fun s h => h) ?_
    rintro s r s' hs ⟨choice, hexec⟩
    cases hexec
    exact ⟨rollback_invariant hs.1 a, Sessions.rollback_clean s.sessions a⟩

end IsadoraAir.Spoken
