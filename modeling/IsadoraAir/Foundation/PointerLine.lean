import IsadoraAir.Foundation.Dict
import IsadoraAir.Foundation.PyError
import Mathlib.Data.List.Chain
import Mathlib.Data.List.Perm.Subperm

/-!
# Lines of predecessor pointers

Every item names at most one predecessor. The items form a line when they can
be listed so that each names the one before it and only the first names none.
Linking the items by their predecessors and walking from the first one finds
the line whenever there is one.
-/

namespace IsadoraAir.PointerLine

variable {α : Type} {κ : Type} (ident : α → κ) (prev : α → Option κ)
  {done rest xs : List α} {seen : List κ} {b current x : α}

/-- `b` directly follows `a`. -/
def Follows (a b : α) : Prop := prev b = some (ident a)

theorem exists_followed {a : α}
    (h : (a :: rest).IsChain (Follows ident prev)) (hb : b ∈ rest) :
    ∃ x ∈ a :: rest, Follows ident prev x b := by
  induction rest generalizing a with
  | nil => cases hb
  | cons c rest ih =>
    obtain ⟨hac, hrest⟩ := List.isChain_cons_cons.mp h
    rcases List.mem_cons.mp hb with rfl | hb
    · exact ⟨a, List.mem_cons_self, hac⟩
    · obtain ⟨x, hx, hxb⟩ := ih hrest hb
      exact ⟨x, List.mem_cons_of_mem _ hx, hxb⟩

/-- All items in one line. -/
structure IsLine (items line : List α) : Prop where
  perm : items.Perm line
  head : ∃ first rest, line = first :: rest ∧ prev first = none
  chain : line.IsChain (Follows ident prev)

namespace IsLine

variable {ident prev} {items line : List α}

theorem nodup (h : IsLine ident prev items line) (hids : (items.map ident).Nodup) :
    (line.map ident).Nodup :=
  (h.perm.map ident).nodup_iff.mp hids

theorem of_perm {items' : List α} (h : IsLine ident prev items line) (hperm : items'.Perm items) :
    IsLine ident prev items' line :=
  ⟨hperm.trans h.perm, h.head, h.chain⟩

/-- Every item but the first has its predecessor right before it. -/
theorem predecessor (h : IsLine ident prev items line) (hb : b ∈ line) :
    prev b = none ∨ ∃ before a after, line = before ++ a :: b :: after ∧ prev b = some (ident a) := by
  obtain ⟨before, after, rfl⟩ := List.append_of_mem hb
  rcases List.eq_nil_or_concat before with rfl | ⟨init, a, rfl⟩
  · obtain ⟨first, rest, heq, hfirst⟩ := h.head
    cases heq
    exact Or.inl hfirst
  · refine Or.inr ⟨init, a, after, by simp, ?_⟩
    have hchain := h.chain
    rw [List.concat_eq_append, List.append_assoc, List.singleton_append] at hchain
    have htail := (List.isChain_append.mp hchain).2.1
    exact (List.isChain_cons_cons.mp htail).1

/-- What names `a` as its predecessor stands right after `a`. -/
theorem follower (h : IsLine ident prev items line) (hids : (items.map ident).Nodup) {a : α}
    {before : List α} (hline : line = before ++ a :: rest) (hb : b ∈ line)
    (hab : Follows ident prev a b) : ∃ after, rest = b :: after := by
  have hnodup : line.Nodup := List.Nodup.of_map ident (h.nodup hids)
  have ha : a ∈ line := by simp [hline]
  rcases h.predecessor hb with hnone | ⟨before', a', after, hline', ha'⟩
  · rw [hab] at hnone
    cases hnone
  · have hid : ident a = ident a' := Option.some.inj (hab.symm.trans ha')
    have heq : a = a' :=
      List.inj_on_of_nodup_map (h.nodup hids) ha (by simp [hline']) hid
    subst heq
    rw [hline] at hnodup
    have hbefore : a ∉ before := fun hmem =>
      (List.nodup_append.mp hnodup).2.2 a hmem a List.mem_cons_self rfl
    have hrest : a ∉ rest := (List.nodup_cons.mp (List.nodup_append.mp hnodup).2.1).1
    obtain ⟨-, -, hrest'⟩ :=
      (List.append_cons_inj_of_notMem hbefore hrest).mp (hline.symm.trans hline')
    exact ⟨after, hrest'⟩

theorem map_iff {β : Type} {f : β → α} {xs ys : List β} (hperm : xs.Perm ys) :
    IsLine ident prev (xs.map f) (ys.map f) ↔
      IsLine (fun x => ident (f x)) (fun x => prev (f x)) xs ys := by
  constructor
  · intro h
    refine ⟨hperm, ?_, (List.isChain_map f).mp h.chain⟩
    obtain ⟨first, rest, heq, hfirst⟩ := h.head
    cases ys with
    | nil => cases heq
    | cons y ys => cases heq; exact ⟨y, ys, rfl, hfirst⟩
  · intro h
    obtain ⟨first, rest, rfl, hfirst⟩ := h.head
    exact ⟨hperm.map f, ⟨f first, rest.map f, rfl, hfirst⟩, (List.isChain_map f).mpr h.chain⟩

/-- Only the first item of a line has no predecessor. -/
theorem filter_head (h : IsLine ident prev items line) :
    ∃ first rest, line = first :: rest ∧ items.filter (fun x => prev x = none) = [first] := by
  obtain ⟨first, rest, rfl, hfirst⟩ := h.head
  have hrest : rest.filter (fun x => prev x = none) = [] := by
    refine List.filter_eq_nil_iff.mpr fun b hb => ?_
    obtain ⟨x, -, hx⟩ := exists_followed ident prev h.chain hb
    rw [Follows] at hx
    simp [hx]
  have hperm := h.perm.filter fun x => prev x = none
  rw [List.filter_cons_of_pos (by simp [hfirst]), hrest] at hperm
  exact ⟨first, rest, rfl, List.perm_singleton.mp hperm⟩

/-- Every named predecessor is one of the items, and no two items share one. -/
theorem linked (h : IsLine ident prev items line) (hids : (items.map ident).Nodup) :
    (∀ x ∈ items, ∀ p, prev x = some p → p ∈ items.map ident) ∧
      ∀ x ∈ items, ∀ y ∈ items, ∀ p, prev x = some p → prev y = some p → x = y := by
  refine ⟨fun x hx p hp => ?_, fun x hx y hy p hp hq => ?_⟩
  · rcases h.predecessor (h.perm.mem_iff.mp hx) with hnone | ⟨before, a, after, rfl, ha⟩
    · rw [hp] at hnone
      cases hnone
    · rw [hp] at ha
      rw [(h.perm.map ident).mem_iff, Option.some.inj ha]
      exact List.mem_map_of_mem (by simp)
  · rcases h.predecessor (h.perm.mem_iff.mp hx) with hnone | ⟨before, a, after, hline, ha⟩
    · rw [hp] at hnone
      cases hnone
    · have hya : Follows ident prev a y := by rw [Follows, hq, ← hp, ha]
      obtain ⟨after', hafter⟩ := h.follower hids hline (h.perm.mem_iff.mp hy) hya
      exact (List.cons.inj hafter).1

end IsLine

/-! ## Linking -/

inductive LinkFault (α : Type) where
  | missing (item : α)
  | fork (item other : α)

variable [DecidableEq κ]

/-- Enter every item under its predecessor; `ids` are the known identities. -/
def linkFrom (ids : List κ) : List α → Dict κ α → Except (LinkFault α) (Dict κ α)
  | [], successor => .ok successor
  | x :: xs, successor =>
    match prev x with
    | none => linkFrom ids xs successor
    | some p =>
      if p ∉ ids then .error (.missing x)
      else match successor.get? p with
        | some other => .error (.fork x other)
        | none => linkFrom ids xs (successor.insert p x)

def link (items : List α) : Except (LinkFault α) (Dict κ α) :=
  linkFrom prev (items.map ident) items .empty

/-- The entries are the items seen so far, under their predecessors. -/
structure Linked (done : List α) (successor : Dict κ α) : Prop where
  entry : ∀ p x, successor.get? p = some x ↔ x ∈ done ∧ prev x = some p

variable {prev}

theorem Linked.skip {successor : Dict κ α}
    (h : Linked prev done successor) (hx : prev x = none) :
    Linked prev (done ++ [x]) successor := by
  constructor
  intro p y
  rw [h.entry, List.mem_append, List.mem_singleton]
  constructor
  · exact fun hy => ⟨Or.inl hy.1, hy.2⟩
  · rintro ⟨hy | rfl, hp⟩
    · exact ⟨hy, hp⟩
    · rw [hx] at hp
      cases hp

theorem Linked.insert {successor : Dict κ α} {p : κ}
    (h : Linked prev done successor) (hx : prev x = some p) (hfree : successor.get? p = none) :
    Linked prev (done ++ [x]) (successor.insert p x) := by
  constructor
  intro q y
  rw [Dict.get?_insert, List.mem_append, List.mem_singleton]
  split_ifs with hq
  · subst hq
    constructor
    · rintro ⟨⟩
      exact ⟨Or.inr rfl, hx⟩
    · rintro ⟨hy | rfl, hp⟩
      · have := (h.entry q y).mpr ⟨hy, hp⟩
        rw [hfree] at this
        cases this
      · rfl
  · rw [h.entry]
    constructor
    · exact fun hy => ⟨Or.inl hy.1, hy.2⟩
    · rintro ⟨hy | rfl, hp⟩
      · exact ⟨hy, hp⟩
      · exact absurd (Option.some.inj (hp.symm.trans hx)) hq

theorem linked_of_linkFrom {ids : List κ} {successor result : Dict κ α}
    (h : linkFrom prev ids xs successor = .ok result) (hdone : Linked prev done successor) :
    Linked prev (done ++ xs) result := by
  induction xs generalizing done successor with
  | nil =>
    cases h
    simpa using hdone
  | cons x xs ih =>
    rw [List.append_cons]
    cases hx : prev x with
    | none =>
      simp only [linkFrom, hx] at h
      exact ih h (hdone.skip hx)
    | some p =>
      simp only [linkFrom, hx] at h
      split_ifs at h
      cases hp : successor.get? p with
      | some other => simp only [hp] at h; cases h
      | none =>
        simp only [hp] at h
        exact ih h (hdone.insert hx hp)

/-- Linking succeeds when every predecessor is known and named only once. -/
theorem linkFrom_ok {ids : List κ} {successor : Dict κ α}
    (hdone : Linked prev done successor)
    (hknown : ∀ x ∈ xs, ∀ p, prev x = some p → p ∈ ids)
    (honce : (done ++ xs).Pairwise fun x y => ∀ p, prev x = some p → prev y ≠ some p) :
    ∃ result, linkFrom prev ids xs successor = .ok result := by
  induction xs generalizing done successor with
  | nil => exact ⟨successor, rfl⟩
  | cons x xs ih =>
    have hrest := fun y hy => hknown y (List.mem_cons_of_mem _ hy)
    have honce' := honce
    rw [List.append_cons] at honce'
    cases hx : prev x with
    | none =>
      simp only [linkFrom, hx]
      exact ih (hdone.skip hx) hrest honce'
    | some p =>
      have hp : p ∈ ids := hknown x List.mem_cons_self p hx
      cases hfree : successor.get? p with
      | some other =>
        obtain ⟨hother, hprev⟩ := (hdone.entry p other).mp hfree
        exact absurd hx ((List.pairwise_append.mp honce).2.2 other hother x List.mem_cons_self p
          hprev)
      | none =>
        simp only [linkFrom, hx, hp, not_true_eq_false, if_false, hfree]
        exact ih (hdone.insert hx hfree) hrest honce'

theorem link_entry {items : List α} {successor : Dict κ α}
    (h : link ident prev items = .ok successor) (p : κ) (x : α) :
    successor.get? p = some x ↔ x ∈ items ∧ prev x = some p := by
  have hempty : Linked prev [] (Dict.empty : Dict κ α) := ⟨by simp⟩
  have hlinked := linked_of_linkFrom h hempty
  exact hlinked.entry p x

theorem link_of_isLine {items line : List α} (h : IsLine ident prev items line)
    (hids : (items.map ident).Nodup) : ∃ successor, link ident prev items = .ok successor := by
  obtain ⟨hknown, honce⟩ := h.linked hids
  have hempty : Linked prev [] (Dict.empty : Dict κ α) := ⟨by simp⟩
  refine linkFrom_ok hempty hknown ?_
  rw [List.nil_append]
  refine (List.Nodup.of_map ident hids).imp_of_mem ?_
  intro x y hx hy hne p hp hq
  exact hne (honce x hx y hy p hp hq)

/-! ## Walking -/

/-- One more identity seen leaves fewer items to meet. -/
theorem unseen_lt (hx : x ∈ xs) (hseen : ident x ∉ seen) :
    (xs.filter fun y => ident y ∉ ident x :: seen).length < (xs.filter fun y => ident y ∉ seen).length := by
  have hsub : xs.filter (fun y => ident y ∉ ident x :: seen) =
      (xs.filter fun y => ident y ∉ seen).filter fun y => ident y ≠ ident x := by
    rw [List.filter_filter]
    apply List.filter_congr
    intro y _
    simp [not_or]
  rw [hsub, List.length_filter_lt_length_iff_exists]
  exact ⟨x, List.mem_filter.mpr ⟨hx, by simpa using hseen⟩, by simp⟩

/-- Follow the successors from `current`; `seen` holds the identities met so
far. Meeting one of them again is reported with the item that closes a cycle. -/
def walk (successor : Dict κ α) (seen : List κ) (current : α) : Except α (List α) :=
  match _h : successor.get? (ident current) with
  | none => .ok []
  | some next =>
    if _hseen : ident next ∈ seen then .error next
    else do
      let rest ← walk successor (ident next :: seen) next
      .ok (next :: rest)
  termination_by (successor.values.filter fun x => ident x ∉ seen).length
  decreasing_by exact unseen_lt ident (Dict.mem_values_of_get? _h) _hseen

theorem walk_of_none {successor : Dict κ α}
    (h : successor.get? (ident current) = none) : walk ident successor seen current = .ok [] := by
  rw [walk]
  split
  · rfl
  · rename_i next hnext
    rw [h] at hnext
    cases hnext

theorem walk_of_some {successor : Dict κ α} {next : α}
    (h : successor.get? (ident current) = some next) :
    walk ident successor seen current =
      if ident next ∈ seen then .error next
      else (walk ident successor (ident next :: seen) next).map (next :: ·) := by
  rw [walk]
  split
  · rename_i hnone
    rw [h] at hnone
    cases hnone
  · rename_i next' hnext
    rw [h] at hnext
    cases hnext
    split_ifs
    · rfl
    · cases walk ident successor (ident next :: seen) next <;> rfl

variable {ident} {items line : List α} {successor : Dict κ α}

/-- What a finished walk has found: a chain of unseen items. -/
theorem walk_sound (hentry : ∀ p x, successor.get? p = some x ↔ x ∈ items ∧ prev x = some p)
   
    (h : walk ident successor seen current = .ok rest) :
    (current :: rest).IsChain (Follows ident prev) ∧ (rest.map ident).Nodup ∧
      ∀ x ∈ rest, x ∈ items ∧ ident x ∉ seen := by
  induction rest generalizing seen current with
  | nil => exact ⟨List.isChain_singleton _, List.nodup_nil, fun _ hx => nomatch hx⟩
  | cons y rest ih =>
    cases hnext : successor.get? (ident current) with
    | none => rw [walk_of_none ident hnext] at h; cases h
    | some next =>
      rw [walk_of_some ident hnext] at h
      split_ifs at h with hseen
      cases hwalk : walk ident successor (ident next :: seen) next with
      | error e => rw [hwalk] at h; cases h
      | ok found =>
        rw [hwalk] at h
        cases h
        obtain ⟨hchain, hnodup, hunseen⟩ := ih hwalk
        obtain ⟨hitems, hprev⟩ := (hentry _ _).mp hnext
        refine ⟨List.isChain_cons_cons.mpr ⟨hprev, hchain⟩, ?_, ?_⟩
        · refine List.nodup_cons.mpr ⟨fun hmem => ?_, hnodup⟩
          obtain ⟨x, hx, hid⟩ := List.mem_map.mp hmem
          exact (hunseen x hx).2 (hid ▸ List.mem_cons_self)
        · intro x hx
          rcases List.mem_cons.mp hx with rfl | hx
          · exact ⟨hitems, hseen⟩
          · exact ⟨(hunseen x hx).1, fun hmem => (hunseen x hx).2 (List.mem_cons_of_mem _ hmem)⟩

/-- On a line the walk finds everything after its starting point. -/
theorem walk_of_isLine (hline : IsLine ident prev items line) (hids : (items.map ident).Nodup)
    (hentry : ∀ p x, successor.get? p = some x ↔ x ∈ items ∧ prev x = some p)
    {before : List α} (hsplit : line = before ++ current :: rest)
    (hseen : ∀ k, k ∈ seen ↔ k ∈ (before ++ [current]).map ident) :
    walk ident successor seen current = .ok rest := by
  induction rest generalizing before current seen with
  | nil =>
    apply walk_of_none
    by_contra hne
    obtain ⟨next, hnext⟩ := Option.ne_none_iff_exists'.mp hne
    obtain ⟨hitems, hprev⟩ := (hentry _ _).mp hnext
    obtain ⟨after, hafter⟩ := hline.follower hids hsplit (hline.perm.mem_iff.mp hitems) hprev
    cases hafter
  | cons next rest ih =>
    have hchain := hline.chain
    rw [hsplit] at hchain
    have hprev : prev next = some (ident current) :=
      (List.isChain_cons_cons.mp (List.isChain_append.mp hchain).2.1).1
    have hmem : next ∈ line := by simp [hsplit]
    have hsplit' : line = (before ++ [current]) ++ next :: rest := by simp [hsplit]
    have hunseen : ident next ∉ seen := by
      have hnodup := hline.nodup hids
      rw [hsplit', List.map_append, List.nodup_append] at hnodup
      rw [hseen]
      exact fun hin => hnodup.2.2 _ hin _ (by simp) rfl
    have hnext := (hentry (ident current) next).mpr ⟨hline.perm.mem_iff.mpr hmem, hprev⟩
    rw [walk_of_some ident hnext, if_neg hunseen, ih hsplit']
    · rfl
    · intro k
      rw [List.mem_cons, hseen]
      simp only [List.map_append, List.mem_append, List.map_cons, List.map_nil,
        List.mem_singleton]
      exact or_comm

/-- A walk from the only head that meets every item has found the line. -/
theorem isLine_of_walk
    (hentry : ∀ p x, successor.get? p = some x ↔ x ∈ items ∧ prev x = some p)
    {first : α} (hfirst : first ∈ items) (hhead : prev first = none)
    (h : walk ident successor [ident first] first = .ok rest)
    (hlength : (first :: rest).length = items.length) : IsLine ident prev items (first :: rest) := by
  obtain ⟨hchain, hnodup, hunseen⟩ := walk_sound hentry h
  refine ⟨?_, ⟨first, rest, rfl, hhead⟩, hchain⟩
  have hall : ((first :: rest).map ident).Nodup := by
    refine List.nodup_cons.mpr ⟨fun hmem => ?_, hnodup⟩
    obtain ⟨x, hx, hid⟩ := List.mem_map.mp hmem
    exact (hunseen x hx).2 (by simp [hid])
  have hsubset : first :: rest ⊆ items := by
    intro x hx
    rcases List.mem_cons.mp hx with rfl | hx
    · exact hfirst
    · exact (hunseen x hx).1
  have hsubperm := List.subperm_of_subset (List.Nodup.of_map ident hall) hsubset
  exact (hsubperm.perm_of_length_le (le_of_eq hlength.symm)).symm

/-! ## Positions -/

theorem find?_zipIdx (xs : List α) (k : κ) :
    (xs.zipIdx.find? fun p => ident p.1 = k).map Prod.snd =
      xs.findIdx? fun x => ident x = k := by
  rw [List.findIdx?_eq_fst_find?_zipIdx]

/-- An identity is found before position `i` when an item up to there has it. -/
theorem findIdx?_lt_iff {k : κ} {i : ℕ} :
    (∃ j, (xs.findIdx? fun x => ident x = k) = some j ∧ j < i) ↔
      k ∈ (xs.take i).map ident := by
  constructor
  · rintro ⟨j, hj, hji⟩
    obtain ⟨hlt, hk, -⟩ := List.findIdx?_eq_some_iff_getElem.mp hj
    rw [← of_decide_eq_true hk]
    refine List.mem_map_of_mem (List.mem_take_iff_getElem.mpr ⟨j, ?_, rfl⟩)
    omega
  · intro hk
    obtain ⟨x, hx, hxk⟩ := List.mem_map.mp hk
    obtain ⟨n, hn, hget⟩ := List.mem_take_iff_getElem.mp hx
    cases hfind : xs.findIdx? fun x => ident x = k with
    | none =>
      have := List.findIdx?_eq_none_iff.mp hfind x (List.mem_of_mem_take hx)
      simp [hxk] at this
    | some j =>
      refine ⟨j, rfl, ?_⟩
      obtain ⟨hlt, -, hfirst⟩ := List.findIdx?_eq_some_iff_getElem.mp hfind
      by_contra hge
      have hnj : n < j := by omega
      have := hfirst n hnj
      simp [hget, hxk] at this

end IsadoraAir.PointerLine
