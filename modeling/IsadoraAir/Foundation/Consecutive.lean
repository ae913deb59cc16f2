import IsadoraAir.Foundation.RunLength
import Mathlib.Algebra.Order.BigOperators.Group.List

/-!
# Consecutive items

Values of the items of a list that depend on what stands next to them or before
them: a cue of the successor, the end of the predecessor, a running number.
-/

/-!
## Values of consecutive items

Each item of a sequence is given a value that depends on the item and on a
cue of its successor; the last item looks at a cue that lies beyond the end.
Concatenation only changes the cue seen at the seam.
-/

namespace IsadoraAir

variable {α β γ : Type*} (f : α → Option β → γ) (cue : α → β)

/-- The cue seen from just before `xs`: that of its first item, else `tail`. -/
def firstCue : List α → Option β → Option β
  | [], tail => tail
  | x :: _, _ => some (cue x)

/-- The value of every item of a sequence followed by the cue `tail`. -/
def adjacent : List α → Option β → List γ
  | [], _ => []
  | x :: xs, tail => f x (firstCue cue xs tail) :: adjacent xs tail

@[simp] theorem firstCue_nil (tail : Option β) : firstCue cue [] tail = tail := rfl

@[simp] theorem firstCue_cons (x : α) (xs : List α) (tail : Option β) :
    firstCue cue (x :: xs) tail = some (cue x) := rfl

@[simp] theorem adjacent_nil (tail : Option β) : adjacent f cue [] tail = [] := rfl

theorem firstCue_append (xs ys : List α) (tail : Option β) :
    firstCue cue (xs ++ ys) tail = firstCue cue xs (firstCue cue ys tail) := by
  cases xs <;> rfl

theorem adjacent_append (xs ys : List α) (tail : Option β) :
    adjacent f cue (xs ++ ys) tail =
      adjacent f cue xs (firstCue cue ys tail) ++ adjacent f cue ys tail := by
  induction xs with
  | nil => rfl
  | cons x xs ih => simp only [List.cons_append, adjacent, ih, firstCue_append]

/-- The sum over a sequence with a last item, seen from the seam before it. -/
theorem sum_adjacent_concat [AddMonoid γ] (init : List α) (last : α) (tail : Option β) :
    (adjacent f cue (init ++ [last]) tail).sum =
      (adjacent f cue init (some (cue last))).sum + f last tail := by
  simp [adjacent_append, adjacent]

theorem sum_adjacent_append [AddMonoid γ] (xs ys : List α) (tail : Option β) :
    (adjacent f cue (xs ++ ys) tail).sum =
      (adjacent f cue xs (firstCue cue ys tail)).sum + (adjacent f cue ys tail).sum := by
  rw [adjacent_append, List.sum_append]

theorem adjacent_map {δ : Type*} (g : δ → α) (xs : List δ) (tail : Option β) :
    adjacent f cue (xs.map g) tail = adjacent (fun x => f (g x)) (fun x => cue (g x)) xs tail := by
  induction xs with
  | nil => rfl
  | cons x xs ih =>
    have hcue : firstCue cue (xs.map g) tail = firstCue (fun x => cue (g x)) xs tail := by
      cases xs <;> rfl
    simp only [List.map_cons, adjacent, ih, hcue]

end IsadoraAir

/-!
## Intervals laid end to end

A span from `a` to `b` is a list of entries with a start and a stop, each
starting where the one before it stops.
-/

namespace IsadoraAir

variable {α β : Type*} [LinearOrder α] {start stop : β → α} {a b t : α} {x : β} {xs : List β}

inductive Span (start stop : β → α) : α → List β → α → Prop where
  | nil (a : α) : Span start stop a [] a
  | cons {a b : α} {x : β} {xs : List β} (starts : start x = a) (positive : a < stop x)
      (rest : Span start stop (stop x) xs b) : Span start stop a (x :: xs) b

namespace Span

theorem le_start (h : Span start stop a xs b) (hx : x ∈ xs) : a ≤ start x := by
  induction h with
  | nil => cases hx
  | cons hstarts hpositive _ ih =>
    rcases List.mem_cons.mp hx with rfl | hx
    · exact hstarts.ge
    · exact hpositive.le.trans (ih hx)

/-- The entries are apart and in order. -/
theorem ordered (h : Span start stop a xs b) : xs.Pairwise fun x y => stop x ≤ start y := by
  induction h with
  | nil => exact .nil
  | cons _ _ hrest ih => exact .cons (fun y hy => hrest.le_start hy) ih

/-- What lies between the ends lies in an entry. -/
theorem covers (h : Span start stop a xs b) (hat : a ≤ t) (htb : t < b) :
    ∃ x ∈ xs, start x ≤ t ∧ t < stop x := by
  induction h with
  | nil => exact absurd htb hat.not_gt
  | @cons a b x xs hstarts _ _ ih =>
    rcases lt_or_ge t (stop x) with hlt | hge
    · exact ⟨x, List.mem_cons_self, hstarts.trans_le hat, hlt⟩
    · obtain ⟨y, hy, hty⟩ := ih hge htb
      exact ⟨y, List.mem_cons_of_mem x hy, hty⟩

/-- Before the end, the entry that an instant lies in is the last one that has started. -/
theorem find?_eq_lastAt (h : Span start stop a xs b) (htb : t < b) :
    xs.find? (fun x => start x ≤ t ∧ t < stop x) = RunLength.lastAt start xs t := by
  induction h with
  | nil => rfl
  | @cons a b x xs hstarts hpositive hrest ih =>
    rw [List.find?_cons, RunLength.lastAt_cons, ih htb]
    rcases lt_or_ge t (stop x) with hlt | hge
    · have hnone : RunLength.lastAt start xs t = none :=
        (RunLength.lastAt_eq_none_iff start).mpr fun y hy => hlt.trans_le (hrest.le_start hy)
      by_cases hstarted : start x ≤ t <;> simp [hstarted, hlt, hnone]
    · have hstarted : start x ≤ t := hstarts.trans_le (hpositive.le.trans hge)
      obtain ⟨y, hy, hyt, -⟩ := hrest.covers hge htb
      cases hlast : RunLength.lastAt start xs t with
      | none => exact absurd hyt ((RunLength.lastAt_eq_none_iff start).mp hlast y hy).not_ge
      | some z => simp [hstarted, hge.not_gt]

end Span

end IsadoraAir

/-!
## Lists that are numbered and stamped as they grow

Every entry is stamped with its index and the running total of the weights before
it. Appending keeps the stamps; a stamp that grows with the total grows along the
list.
-/

namespace IsadoraAir.RunningTotal

variable {β M : Type} [AddCommMonoid M] (weight : β → M) (stamp : ℕ → M → β → Prop)

/-- The entries are stamped from index `i` and running total `acc` on. -/
def Posted : ℕ → M → List β → Prop
  | _, _, [] => True
  | i, acc, x :: rest => stamp i acc x ∧ Posted (i + 1) (acc + weight x) rest

def total (entries : List β) : M := (entries.map weight).sum

@[simp] theorem total_nil : total weight ([] : List β) = 0 := rfl

@[simp] theorem total_cons (x : β) (rest : List β) :
    total weight (x :: rest) = weight x + total weight rest := rfl

@[simp] theorem total_append (xs ys : List β) :
    total weight (xs ++ ys) = total weight xs + total weight ys := by
  simp [total]

variable {weight stamp} {i : ℕ} {acc : M} {entries : List β}

theorem posted_append {ys : List β} :
    Posted weight stamp i acc (entries ++ ys) ↔ Posted weight stamp i acc entries ∧
      Posted weight stamp (i + entries.length) (acc + total weight entries) ys := by
  induction entries generalizing i acc with
  | nil => simp [Posted]
  | cons x rest ih =>
    simp only [List.cons_append, Posted, ih, List.length_cons, total_cons, and_assoc, add_assoc,
      Nat.add_comm 1]

/-- A new entry is stamped with the length and the total of what is there. -/
theorem Posted.concat {x : β} (h : Posted weight stamp i acc entries)
    (hx : stamp (i + entries.length) (acc + total weight entries) x) :
    Posted weight stamp i acc (entries ++ [x]) :=
  posted_append.mpr ⟨h, hx, trivial⟩

theorem Posted.getElem (h : Posted weight stamp i acc entries) (k : ℕ)
    (hk : k < entries.length) :
    stamp (i + k) (acc + total weight (entries.take k)) entries[k] := by
  have hsplit := List.take_append_drop k entries
  rw [← hsplit, posted_append, List.drop_eq_getElem_cons hk, List.length_take,
    Nat.min_eq_left hk.le] at h
  exact h.2.1

theorem total_take_add_le [Preorder M] [CanonicallyOrderedAdd M] {k : ℕ} (hk : k < entries.length) :
    total weight (entries.take k) + weight entries[k] ≤ total weight entries := by
  calc total weight (entries.take k) + weight entries[k]
      = total weight (entries.take (k + 1)) := by
        rw [List.take_succ_eq_append_getElem hk, total_append, total_cons, total_nil, add_zero]
    _ ≤ total weight (entries.take (k + 1)) + total weight (entries.drop (k + 1)) :=
        le_self_add
    _ = total weight entries := by rw [← total_append, List.take_append_drop]

section Monotone

variable [PartialOrder M] [IsOrderedAddMonoid M] {κ : Type} [Preorder κ] {key : β → κ} {f : M → κ}

theorem Posted.le_key (hkey : ∀ i acc x, stamp i acc x → key x = f acc) (hf : Monotone f)
    (hweight : ∀ x, 0 ≤ weight x) (h : Posted weight stamp i acc entries) :
    ∀ x ∈ entries, f acc ≤ key x := by
  induction entries generalizing i acc with
  | nil => exact fun x hx => nomatch hx
  | cons y rest ih =>
    intro x hx
    rcases List.mem_cons.mp hx with rfl | hx
    · exact (hkey _ _ _ h.1).ge
    · exact (hf (le_add_of_nonneg_right (hweight y))).trans (ih h.2 x hx)

/-- A stamp that grows with the total grows along the list. -/
theorem Posted.pairwise (hkey : ∀ i acc x, stamp i acc x → key x = f acc) (hf : Monotone f)
    (hweight : ∀ x, 0 ≤ weight x) (h : Posted weight stamp i acc entries) :
    entries.Pairwise fun x y => key x ≤ key y := by
  induction entries generalizing i acc with
  | nil => exact .nil
  | cons x rest ih =>
    refine .cons ?_ (ih h.2)
    intro y hy
    have hle : f acc ≤ f (acc + weight x) := hf (le_add_of_nonneg_right (hweight x))
    exact (hkey _ _ _ h.1).le.trans (hle.trans (h.2.le_key hkey hf hweight y hy))

end Monotone

end IsadoraAir.RunningTotal
