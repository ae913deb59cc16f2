import Mathlib.Data.List.Dedup

/-!
# Insertion-ordered dictionaries

A finite map kept as its list of items. Writing an existing key replaces the
value in place, writing a new key appends it, so iteration follows the order
of first insertion. The keys are duplicate-free by construction.
-/

namespace IsadoraAir

/-- A finite map together with the order in which its keys were inserted. -/
structure Dict (κ ν : Type*) where
  items : List (κ × ν)
  nodup : (items.map Prod.fst).Nodup

namespace Dict

variable {κ ν : Type*} {d : Dict κ ν}

def empty : Dict κ ν := ⟨[], List.nodup_nil⟩

def keys (d : Dict κ ν) : List κ := d.items.map Prod.fst

def values (d : Dict κ ν) : List ν := d.items.map Prod.snd

theorem nodup_keys (d : Dict κ ν) : d.keys.Nodup := d.nodup

@[simp] theorem keys_empty : (empty : Dict κ ν).keys = [] := rfl

@[ext] theorem ext {e : Dict κ ν} (h : d.items = e.items) : d = e := by
  cases d; cases e; cases h; rfl

instance [DecidableEq κ] [DecidableEq ν] : DecidableEq (Dict κ ν) := fun d e =>
  decidable_of_iff (d.items = e.items) ⟨ext, fun h => h ▸ rfl⟩

variable [DecidableEq κ] {xs : List (κ × ν)} {k : κ} {v : ν}

/-- First match in an item list; with duplicate-free keys it is the only one. -/
def find (k : κ) : List (κ × ν) → Option ν
  | [] => none
  | (k', v) :: rest => if k' = k then some v else find k rest

def get? (d : Dict κ ν) (k : κ) : Option ν := find k d.items

theorem find_eq_none_iff : find k xs = none ↔ k ∉ xs.map Prod.fst := by
  induction xs with
  | nil => simp [find]
  | cons x xs ih =>
    by_cases h : x.1 = k
    · simp [find, h]
    · simp only [find, if_neg h, ih, List.map_cons, List.mem_cons, not_or]
      exact ⟨fun hx => ⟨fun he => h he.symm, hx⟩, And.right⟩

theorem mem_of_find (h : find k xs = some v) : (k, v) ∈ xs := by
  induction xs with
  | nil => simp [find] at h
  | cons x xs ih =>
    obtain ⟨k', v'⟩ := x
    simp only [find] at h
    split_ifs at h with hk
    · cases h
      simp [hk]
    · exact List.mem_cons_of_mem _ (ih h)

theorem find_of_mem (hn : (xs.map Prod.fst).Nodup) (h : (k, v) ∈ xs) : find k xs = some v := by
  induction xs with
  | nil => cases h
  | cons x xs ih =>
    obtain ⟨hx, hn⟩ := List.nodup_cons.mp hn
    rcases List.mem_cons.mp h with rfl | h
    · simp [find]
    · have hne : x.1 ≠ k := by
        rintro rfl
        exact hx (List.mem_map.mpr ⟨_, h, rfl⟩)
      simp [find, hne, ih hn h]

theorem find_append (k : κ) (xs ys : List (κ × ν)) :
    find k (xs ++ ys) = (find k xs).or (find k ys) := by
  induction xs with
  | nil => rfl
  | cons x xs ih =>
    by_cases h : x.1 = k
    · simp [find, h]
    · simp [find, h, ih]

theorem find_map (k : κ) (f : κ → ν) (keys : List κ) :
    find k (keys.map fun key => (key, f key)) = if k ∈ keys then some (f k) else none := by
  induction keys with
  | nil => rfl
  | cons key keys ih =>
    by_cases h : key = k
    · subst h
      simp [find]
    · simp [find, h, ih, Ne.symm h]

theorem get?_eq_none_iff : d.get? k = none ↔ k ∉ d.keys := find_eq_none_iff

theorem get?_eq_some_iff : d.get? k = some v ↔ (k, v) ∈ d.items :=
  ⟨mem_of_find, find_of_mem d.nodup⟩

theorem mem_keys_of_get? (h : d.get? k = some v) : k ∈ d.keys :=
  List.mem_map.mpr ⟨_, get?_eq_some_iff.mp h, rfl⟩

theorem mem_values_of_get? (h : d.get? k = some v) : v ∈ d.values :=
  List.mem_map.mpr ⟨_, get?_eq_some_iff.mp h, rfl⟩

theorem exists_get?_of_mem_keys (h : k ∈ d.keys) :
    ∃ v, d.get? k = some v := by
  rw [← Option.ne_none_iff_exists']
  exact fun hn => get?_eq_none_iff.mp hn h

@[simp] theorem get?_empty (k : κ) : (empty : Dict κ ν).get? k = none := rfl

/-- Replace the value of a key in place, or append a new item. -/
def put (k : κ) (v : ν) : List (κ × ν) → List (κ × ν)
  | [] => [(k, v)]
  | (k', v') :: rest => if k' = k then (k, v) :: rest else (k', v') :: put k v rest

theorem map_fst_put (k : κ) (v : ν) (xs : List (κ × ν)) :
    (put k v xs).map Prod.fst =
      if k ∈ xs.map Prod.fst then xs.map Prod.fst else xs.map Prod.fst ++ [k] := by
  induction xs with
  | nil => simp [put]
  | cons x xs ih =>
    by_cases h : x.1 = k
    · simp [put, h]
    · have hk : k ≠ x.1 := fun he => h he.symm
      simp only [put, if_neg h, List.map_cons, ih, List.mem_cons, hk, false_or]
      split_ifs <;> rfl

theorem nodup_put (k : κ) (v : ν) (h : (xs.map Prod.fst).Nodup) :
    ((put k v xs).map Prod.fst).Nodup := by
  rw [map_fst_put]
  split_ifs with hk
  · exact h
  · exact h.append (List.nodup_singleton k) (by simpa using hk)

theorem find_put (k k' : κ) (v : ν) (xs : List (κ × ν)) :
    find k' (put k v xs) = if k' = k then some v else find k' xs := by
  induction xs with
  | nil => simp [put, find, eq_comm]
  | cons x xs ih =>
    obtain ⟨a, b⟩ := x
    by_cases ha : a = k
    · subst ha
      by_cases hk : k' = a <;> simp [put, find, hk, eq_comm]
    · by_cases hk : k' = k
      · subst hk
        simp [put, find, ha, ih]
      · simp only [put, if_neg ha, find, ih, if_neg hk]

/-- `d[k] = v`. -/
def insert (d : Dict κ ν) (k : κ) (v : ν) : Dict κ ν := ⟨put k v d.items, nodup_put k v d.nodup⟩

theorem get?_insert (d : Dict κ ν) (k k' : κ) (v : ν) :
    (d.insert k v).get? k' = if k' = k then some v else d.get? k' :=
  find_put k k' v d.items

@[simp] theorem get?_insert_self (d : Dict κ ν) (k : κ) (v : ν) :
    (d.insert k v).get? k = some v := by simp [get?_insert]

/-- `del d[k]`; removing an absent key changes nothing here. -/
def erase (d : Dict κ ν) (k : κ) : Dict κ ν :=
  ⟨d.items.filter (fun x => x.1 ≠ k), d.nodup.sublist (List.filter_sublist.map _)⟩

theorem get?_erase (d : Dict κ ν) (k k' : κ) :
    (d.erase k).get? k' = if k' = k then none else d.get? k' := by
  split_ifs with h
  · subst h
    rw [get?_eq_none_iff]
    simp [erase, keys]
  · apply Option.ext
    intro v
    simp [get?_eq_some_iff, erase, h]

/-- A dictionary filled from left to right, as a loop of `d[k] = v` does. -/
def ofList (xs : List (κ × ν)) : Dict κ ν := xs.foldl (fun d x => d.insert x.1 x.2) empty

end Dict
end IsadoraAir
