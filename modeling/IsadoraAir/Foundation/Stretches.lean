import Mathlib.Data.List.Basic
import Mathlib.Order.Nat

/-!
# Stretches of equal values

A list falls into maximal stretches of equal values, each with its first and last index. The
stretches tile the indices, and neighbours have different values.
-/

namespace IsadoraAir

/-- The indices from `start` to `stop`, where a list has the same value throughout. -/
structure Stretch (α : Type*) where
  start : ℕ
  stop : ℕ
  value : α
deriving DecidableEq, Repr

namespace Stretch

variable {α : Type*}

section Listing

variable [DecidableEq α]

/-- The stretches from `start` on, where `current` has been read up to the index `i`. -/
def listFrom (start i : ℕ) (current : α) : List α → List (Stretch α)
  | [] => [⟨start, i - 1, current⟩]
  | a :: rest =>
    if a ≠ current then ⟨start, i - 1, current⟩ :: listFrom i (i + 1) a rest
    else listFrom start (i + 1) current rest

def list : List α → List (Stretch α)
  | [] => []
  | a :: rest => listFrom 0 1 a rest

end Listing

/-- All values from `i` to `k` are `a`. -/
def Constant (xs : List α) (a : α) (i k : ℕ) : Prop := ∀ x, i ≤ x → x ≤ k → xs[x]? = some a

theorem Constant.snoc {xs : List α} {a : α} {i k : ℕ} (h : Constant xs a i k)
    (hnext : xs[k + 1]? = some a) : Constant xs a i (k + 1) := by
  intro x hi hx
  rcases Nat.lt_or_eq_of_le hx with hlt | rfl
  · exact h x hi (Nat.le_of_lt_succ hlt)
  · exact hnext

/-- A list of stretches that covers the indices of `xs` from `lo` on. -/
inductive Tiles (xs : List α) : ℕ → List (Stretch α) → Prop
  | nil : Tiles xs xs.length []
  | cons {r : Stretch α} {rest : List (Stretch α)} (hle : r.start ≤ r.stop)
      (hconstant : Constant xs r.value r.start r.stop) (hnext : ∀ x ∈ rest.head?, x.value ≠ r.value)
      (hrest : Tiles xs (r.stop + 1) rest) : Tiles xs r.start (r :: rest)

section Tiling

variable {xs : List α} {lo : ℕ} {r : Stretch α} {rest : List (Stretch α)}

theorem Tiles.start (h : Tiles xs lo (r :: rest)) : r.start = lo := by
  cases h
  rfl

theorem Tiles.le (h : Tiles xs lo (r :: rest)) : r.start ≤ r.stop := by
  cases h
  assumption

theorem Tiles.constant (h : Tiles xs lo (r :: rest)) : Constant xs r.value r.start r.stop := by
  cases h
  assumption

theorem Tiles.tail (h : Tiles xs lo (r :: rest)) : Tiles xs (r.stop + 1) rest := by
  cases h
  assumption

theorem Tiles.next_ne {s : Stretch α} (h : Tiles xs lo (r :: s :: rest)) : s.value ≠ r.value := by
  cases h with
  | cons _ _ hnext => exact hnext s rfl

theorem Tiles.stop_lt (h : Tiles xs lo (r :: rest)) : r.stop < xs.length :=
  (List.getElem?_eq_some_iff.mp (h.constant r.stop h.le le_rfl)).1

/-- The value of the first stretch is the one it starts with. -/
theorem head_listFrom [DecidableEq α] (start i : ℕ) (current : α) (ys : List α) :
    ∃ stop rest, listFrom start i current ys = ⟨start, stop, current⟩ :: rest := by
  induction ys generalizing i with
  | nil => exact ⟨_, _, rfl⟩
  | cons a ys ih =>
    unfold listFrom
    split_ifs
    · exact ⟨_, _, rfl⟩
    · exact ih (i + 1)

theorem tiles_listFrom [DecidableEq α] {start i : ℕ} {current : α} {ys : List α} (hle : start ≤ i)
    (hconstant : Constant xs current start i) (hdrop : xs.drop (i + 1) = ys) :
    Tiles xs start (listFrom start (i + 1) current ys) := by
  induction ys generalizing start i current with
  | nil =>
    have hlt : i < xs.length := (List.getElem?_eq_some_iff.mp (hconstant i hle le_rfl)).1
    have hlength : xs.length = i + 1 := by
      have := List.drop_eq_nil_iff.mp hdrop
      omega
    exact .cons (r := ⟨start, i, current⟩) hle hconstant (by simp) (hlength ▸ Tiles.nil)
  | cons a ys ih =>
    have hget : xs[i + 1]? = some a := by
      rw [← List.head?_drop, hdrop, List.head?_cons]
    have hdrop' : xs.drop (i + 1 + 1) = ys := by
      rw [← List.drop_drop, hdrop, List.drop_one, List.tail_cons]
    unfold listFrom
    split_ifs with hne
    · have hsingle : Constant xs a (i + 1) (i + 1) := fun x hx hx' =>
        (le_antisymm hx' hx) ▸ hget
      refine .cons (r := ⟨start, i, current⟩) hle hconstant ?_ (ih le_rfl hsingle hdrop')
      obtain ⟨stop, rest, heq⟩ := head_listFrom (i + 1) (i + 1 + 1) a ys
      rw [heq]
      simpa using hne
    · obtain rfl := not_not.mp hne
      exact ih (Nat.le_succ_of_le hle) (hconstant.snoc hget) hdrop'

theorem tiles_list [DecidableEq α] (xs : List α) : Tiles xs 0 (list xs) := by
  cases xs with
  | nil => exact .nil
  | cons a rest =>
    refine tiles_listFrom le_rfl (fun x _ hx => ?_) rfl
    obtain rfl := Nat.le_zero.mp hx
    rfl

end Tiling

end Stretch

end IsadoraAir
