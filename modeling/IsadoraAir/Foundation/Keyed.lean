import Mathlib.Data.List.Perm.Subperm
import Mathlib.Data.List.Sort

/-!
# Lists by a key

Lists that are read through a key of their items: each key once, keys counted,
sorted by the key, and the first item of each key.
-/

/-!
## Lists without a repeated key

The rows of a table with a primary key, or the entries that a loop has read so
far: rows are added under a new key or changed in place, key by key.
-/

namespace IsadoraAir

/-- A list in which no key is repeated. -/
structure Distinct {β κ : Type} (key : β → κ) where
  items : List β
  distinct : (items.map key).Nodup

namespace Distinct

variable {β κ : Type} {key : β → κ}

def empty : Distinct key := ⟨[], .nil⟩

def keys (rows : Distinct key) : List κ := rows.items.map key

def add (rows : Distinct key) (item : β) (fresh : key item ∉ rows.keys) : Distinct key where
  items := rows.items ++ [item]
  distinct := by
    rw [List.map_append, List.map_singleton, ← List.concat_eq_append]
    exact rows.distinct.concat fresh

/-- A change of the rows that leaves their keys alone. -/
def map (rows : Distinct key) (f : β → β) (hf : ∀ x, key (f x) = key x) : Distinct key where
  items := rows.items.map f
  distinct := by
    have hkeys : (rows.items.map f).map key = rows.items.map key := by
      rw [List.map_map]
      exact List.map_congr_left fun x _ => hf x
    rw [hkeys]
    exact rows.distinct

@[ext] theorem ext {xs ys : Distinct key} (h : xs.items = ys.items) : xs = ys := by
  cases xs
  cases ys
  cases h
  rfl

@[simp] theorem items_empty : (empty : Distinct key).items = [] := rfl

@[simp] theorem items_add (rows : Distinct key) (item : β) (fresh : key item ∉ rows.keys) :
    (rows.add item fresh).items = rows.items ++ [item] := rfl

@[simp] theorem items_map (rows : Distinct key) (f : β → β) (hf : ∀ x, key (f x) = key x) :
    (rows.map f hf).items = rows.items.map f := rfl

theorem eq_of_key {rows : Distinct key} {x y : β} (hx : x ∈ rows.items) (hy : y ∈ rows.items)
    (h : key x = key y) : x = y :=
  List.inj_on_of_nodup_map rows.distinct hx hy h

end Distinct

end IsadoraAir

/-!
## Counting without multiplicity

`AtLeast n P` says that `n` different values satisfy `P`.
-/

namespace IsadoraAir

variable {α β : Type*} {n : ℤ} {P : α → Prop} {Q : β → Prop} {xs : List α}

def AtLeast (n : ℤ) (P : α → Prop) : Prop :=
  ∃ xs : List α, xs.Nodup ∧ n ≤ xs.length ∧ ∀ x ∈ xs, P x

namespace AtLeast

/-- A map that keeps values with the property apart carries the count along. -/
theorem map (f : α → β) (hinjective : ∀ x y, P x → P y → f x = f y → x = y)
    (hPQ : ∀ x, P x → Q (f x)) (h : AtLeast n P) : AtLeast n Q := by
  obtain ⟨xs, hnodup, hlength, hall⟩ := h
  refine ⟨xs.map f, ?_, ?_, ?_⟩
  · exact hnodup.map_on fun x hx y hy => hinjective x y (hall x hx) (hall y hy)
  · rwa [List.length_map]
  · intro y hy
    obtain ⟨x, hx, rfl⟩ := List.mem_map.mp hy
    exact hPQ x (hall x hx)

theorem mono {Q : α → Prop} (hPQ : ∀ x, P x → Q x) (h : AtLeast n P) : AtLeast n Q :=
  h.map id (fun _ _ _ _ => id) hPQ

/-- Where a list has every value with the property, the count is at most its length. -/
theorem le_length (hcover : ∀ x, P x → x ∈ xs) (h : AtLeast n P) : n ≤ xs.length := by
  obtain ⟨ys, hnodup, hlength, hall⟩ := h
  have hsub : ys ⊆ xs := fun y hy => hcover y (hall y hy)
  have hle := (hnodup.subperm hsub).length_le
  omega

/-- Different images come from different values. -/
theorem of_image {f : α → β} (h : AtLeast n fun y => ∃ x, f x = y ∧ P x) : AtLeast n P := by
  obtain ⟨ys, hnodup, hlength, hall⟩ := h
  choose g hg using hall
  refine ⟨ys.attach.map fun y => g y.1 y.2, ?_, ?_, ?_⟩
  · refine (List.nodup_attach.mpr hnodup).map fun y z hyz => Subtype.ext ?_
    rw [← (hg y.1 y.2).1, ← (hg z.1 z.2).1]
    exact congrArg f hyz
  · rwa [List.length_map, List.length_attach]
  · intro x hx
    obtain ⟨y, -, rfl⟩ := List.mem_map.mp hx
    exact (hg y.1 y.2).2

end AtLeast

theorem atLeast_iff_le_length (hnodup : xs.Nodup) (h : ∀ x, x ∈ xs ↔ P x) :
    AtLeast n P ↔ n ≤ xs.length := by
  constructor
  · exact AtLeast.le_length fun x => (h x).mpr
  · intro hlength
    exact ⟨xs, hnodup, hlength, fun x => (h x).mp⟩

/-- Values that a map keeps apart are as many as their images. -/
theorem atLeast_image_iff {f : α → β} (hf : (xs.map f).Nodup) :
    AtLeast n (fun y => ∃ x ∈ xs, f x = y ∧ P x) ↔ AtLeast n fun x => x ∈ xs ∧ P x := by
  constructor
  · intro h
    exact AtLeast.of_image (h.mono fun y ⟨x, hx, hy, hP⟩ => ⟨x, hy, hx, hP⟩)
  · refine AtLeast.map f ?_ ?_
    · intro x y hx hy
      exact List.inj_on_of_nodup_map hf hx.1 hy.1
    · intro x hx
      exact ⟨x, hx.1, rfl, hx.2⟩

end IsadoraAir

/-!
## Sorting by a key without ties

A list whose keys are pairwise distinct has one sorted arrangement, whatever
order it was stored in.
-/

namespace IsadoraAir

variable {α κ : Type*} [LinearOrder κ] (key : α → κ) {xs : List α}

def sortedBy (xs : List α) : List α :=
  xs.insertionSort fun a b => key a ≤ key b

theorem sortedBy_perm (xs : List α) : (sortedBy key xs).Perm xs := List.perm_insertionSort _ xs

@[simp] theorem mem_sortedBy {a : α} : a ∈ sortedBy key xs ↔ a ∈ xs :=
  (sortedBy_perm key xs).mem_iff

/-- Distinct keys come out strictly increasing. -/
theorem sortedBy_pairwise (h : xs.Pairwise fun a b => key a ≠ key b) :
    (sortedBy key xs).Pairwise fun a b => key a < key b := by
  have hle : (sortedBy key xs).Pairwise fun a b => key a ≤ key b :=
    List.pairwise_insertionSort _ xs
  have hne : (sortedBy key xs).Pairwise fun a b => key a ≠ key b :=
    h.perm (sortedBy_perm key xs).symm fun hab => hab.symm
  exact hle.imp₂ (fun _ _ hle hne => lt_of_le_of_ne hle hne) hne

/-- A strictly increasing arrangement of the same items is the sorted one. -/
theorem sortedBy_eq {ys : List α} (hperm : xs.Perm ys)
    (hys : ys.Pairwise fun a b => key a < key b) : sortedBy key xs = ys := by
  have hne : xs.Pairwise fun a b => key a ≠ key b :=
    (hys.imp fun h => ne_of_lt h).perm hperm.symm fun hab => hab.symm
  refine List.Perm.eq_of_pairwise ?_ (sortedBy_pairwise key hne) hys
    ((sortedBy_perm key xs).trans hperm)
  intro a b _ _ hab hba
  exact absurd (lt_trans hab hba) (lt_irrefl _)

/-- Unique and in sorted order: strictly increasing. -/
theorem pairwise_lt_iff {xs : List κ} :
    xs.Pairwise (· < ·) ↔ xs.Nodup ∧ xs = xs.insertionSort (· ≤ ·) := by
  constructor
  · intro h
    refine ⟨h.imp fun hab => ne_of_lt hab, ?_⟩
    exact (List.Pairwise.insertionSort_eq (h.imp fun hab => le_of_lt hab)).symm
  · rintro ⟨hnodup, hsorted⟩
    have hle : xs.Pairwise (· ≤ ·) := by
      rw [hsorted]
      exact List.pairwise_insertionSort _ xs
    exact hle.imp₂ (fun _ _ hle hne => lt_of_le_of_ne hle hne) hnodup

end IsadoraAir

/-!
## The first item of each key

A loop with a set of keys it has met keeps an item under a new key and passes
over the later ones. What is kept has distinct keys, and under each key it is
the item that came first.
-/

namespace IsadoraAir

variable {α κ : Type*} [DecidableEq κ] (key : α → κ) {xs : List α} {seen : List κ} {x : α}

def firstSeen : List κ → List α → List α
  | _, [] => []
  | seen, x :: xs =>
    if key x ∈ seen then firstSeen seen xs else x :: firstSeen (key x :: seen) xs

/-- What the loop passes over. -/
def seenBefore : List κ → List α → List α
  | _, [] => []
  | seen, x :: xs =>
    if key x ∈ seen then x :: seenBefore seen xs else seenBefore (key x :: seen) xs

variable {key} {ys zs : List α}

theorem firstSeen_append_perm (key : α → κ) (seen : List κ) (xs : List α) :
    (firstSeen key seen xs ++ seenBefore key seen xs).Perm xs := by
  induction xs generalizing seen with
  | nil => exact .nil
  | cons x xs ih =>
    simp only [firstSeen, seenBefore]
    split_ifs with h
    · exact List.perm_middle.trans ((ih seen).cons x)
    · exact (ih (key x :: seen)).cons x

theorem not_mem_of_mem_firstSeen (h : x ∈ firstSeen key seen xs) : key x ∉ seen := by
  induction xs generalizing seen with
  | nil => cases h
  | cons y xs ih =>
    simp only [firstSeen] at h
    split_ifs at h with hy
    · exact ih h
    · rcases List.mem_cons.mp h with rfl | h
      · exact hy
      · exact fun hx => ih h (List.mem_cons_of_mem _ hx)

theorem nodup_firstSeen (seen : List κ) (xs : List α) :
    ((firstSeen key seen xs).map key).Nodup := by
  induction xs generalizing seen with
  | nil => exact List.nodup_nil
  | cons x xs ih =>
    simp only [firstSeen]
    split_ifs with h
    · exact ih seen
    · rw [List.map_cons, List.nodup_cons]
      refine ⟨fun hmem => ?_, ih (key x :: seen)⟩
      obtain ⟨y, hy, hkey⟩ := List.mem_map.mp hmem
      exact not_mem_of_mem_firstSeen hy (hkey ▸ List.mem_cons_self)

theorem firstSeen_sublist (key : α → κ) (seen : List κ) (xs : List α) : (firstSeen key seen xs).Sublist xs := by
  induction xs generalizing seen with
  | nil => exact .slnil
  | cons x xs ih =>
    simp only [firstSeen]
    split_ifs with h
    · exact (ih seen).cons x
    · exact (ih (key x :: seen)).cons_cons x

/-- Distinct new keys are all kept. -/
theorem firstSeen_eq_self (hn : (xs.map key).Nodup)
    (hseen : ∀ x ∈ xs, key x ∉ seen) : firstSeen key seen xs = xs := by
  induction xs generalizing seen with
  | nil => rfl
  | cons x xs ih =>
    rw [List.map_cons, List.nodup_cons] at hn
    rw [firstSeen, if_neg (hseen x List.mem_cons_self), ih hn.2]
    intro y hy hmem
    rcases List.mem_cons.mp hmem with hkey | hmem
    · exact hn.1 (hkey ▸ List.mem_map_of_mem hy)
    · exact hseen y (List.mem_cons_of_mem x hy) hmem

/-- What is kept was met under its key for the first time. -/
theorem firstSeen_split (h : firstSeen key seen xs = ys ++ x :: zs) :
    ∃ before after, xs = before ++ x :: after ∧ key x ∉ seen ∧ key x ∉ before.map key ∧
      firstSeen key seen before = ys := by
  induction xs generalizing seen ys with
  | nil =>
    have hlen := congrArg List.length h
    simp [firstSeen] at hlen
  | cons y xs ih =>
    simp only [firstSeen] at h
    split_ifs at h with hy
    · obtain ⟨before, after, rfl, hseen, hbefore, hkept⟩ := ih h
      refine ⟨y :: before, after, rfl, hseen, ?_, ?_⟩
      · rw [List.map_cons, List.mem_cons]
        rintro (hx | hx)
        · exact hseen (hx ▸ hy)
        · exact hbefore hx
      · rw [firstSeen, if_pos hy, hkept]
    · cases ys with
      | nil =>
        cases h
        exact ⟨[], xs, rfl, hy, by simp, rfl⟩
      | cons z ys =>
        rw [List.cons_append, List.cons.injEq] at h
        obtain ⟨rfl, h⟩ := h
        obtain ⟨before, after, rfl, hseen, hbefore, hkept⟩ := ih h
        rw [List.mem_cons, not_or] at hseen
        refine ⟨y :: before, after, rfl, hseen.2, ?_, ?_⟩
        · rw [List.map_cons, List.mem_cons, not_or]
          exact ⟨hseen.1, hbefore⟩
        · rw [firstSeen, if_neg hy, hkept]

/-- An item under a new key is kept. -/
theorem mem_firstSeen {before after : List α} (hseen : key x ∉ seen)
    (hbefore : key x ∉ before.map key) : x ∈ firstSeen key seen (before ++ x :: after) := by
  induction before generalizing seen with
  | nil =>
    rw [List.nil_append, firstSeen, if_neg hseen]
    exact List.mem_cons_self
  | cons y before ih =>
    rw [List.map_cons, List.mem_cons, not_or] at hbefore
    simp only [List.cons_append, firstSeen]
    split_ifs with hy
    · exact ih hseen hbefore.2
    · refine List.mem_cons_of_mem _ (ih ?_ hbefore.2)
      rw [List.mem_cons, not_or]
      exact ⟨hbefore.1, hseen⟩

/-- Each key that occurs has a first item. -/
theorem exists_first (key : α → κ) (h : x ∈ xs) :
    ∃ before e after, xs = before ++ e :: after ∧ key e = key x ∧ key x ∉ before.map key := by
  induction xs with
  | nil => cases h
  | cons y xs ih =>
    by_cases hy : key y = key x
    · exact ⟨[], y, xs, rfl, hy, by simp⟩
    · rcases List.mem_cons.mp h with rfl | h
      · exact absurd rfl hy
      · obtain ⟨before, e, after, rfl, hkey, hbefore⟩ := ih h
        refine ⟨y :: before, e, after, rfl, hkey, ?_⟩
        rw [List.map_cons, List.mem_cons, not_or]
        exact ⟨fun hx => hy hx.symm, hbefore⟩

/-- No key is lost. -/
theorem mem_map_firstSeen {k : κ} :
    k ∈ (firstSeen key [] xs).map key ↔ k ∈ xs.map key := by
  constructor
  · intro h
    exact ((firstSeen_sublist key [] xs).map key).subset h
  · intro h
    obtain ⟨x, hx, rfl⟩ := List.mem_map.mp h
    obtain ⟨before, e, after, rfl, hkey, hbefore⟩ := exists_first key hx
    rw [← hkey] at hbefore ⊢
    exact List.mem_map_of_mem (mem_firstSeen List.not_mem_nil hbefore)

/-- What a filter keeps stood somewhere in the list. -/
theorem filter_split {p : α → Bool} (h : xs.filter p = ys ++ x :: zs) :
    ∃ before after, xs = before ++ x :: after ∧ p x = true ∧ before.filter p = ys := by
  obtain ⟨kept, rest, rfl, hys, hrest⟩ := List.filter_eq_append_iff.mp h
  obtain ⟨skipped, after, rfl, hskipped, hx, -⟩ := List.filter_eq_cons_iff.mp hrest
  refine ⟨kept ++ skipped, after, by simp, hx, ?_⟩
  rw [List.filter_append, hys, List.filter_eq_nil_iff.mpr hskipped, List.append_nil]

/-- Under a key that occurs exactly one item is kept. -/
theorem filter_eq_singleton (hn : (xs.map key).Nodup) (h : x ∈ xs) :
    xs.filter (fun y => key y = key x) = [x] := by
  induction xs with
  | nil => cases h
  | cons y xs ih =>
    rw [List.map_cons, List.nodup_cons] at hn
    rcases List.mem_cons.mp h with rfl | h
    · have hrest : xs.filter (fun y => key y = key x) = [] := by
        rw [List.filter_eq_nil_iff]
        intro z hz hkey
        exact hn.1 (of_decide_eq_true hkey ▸ List.mem_map_of_mem hz)
      simp [hrest]
    · have hy : key y ≠ key x := fun hkey => hn.1 (hkey ▸ List.mem_map_of_mem h)
      simp [hy, ih hn.2 h]

end IsadoraAir
