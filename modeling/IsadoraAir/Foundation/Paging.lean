import IsadoraAir.Foundation.Dict
import Mathlib.Order.Lattice

/-!
# Scans in pages, and lists under keys

A scan that asks for a page of rows at a time, each beyond the key of the last row it saw, sees a
sorted table exactly once. A dictionary of lists that items are pushed to holds under each key the
items of that key, in the order they came in.
-/

namespace IsadoraAir

/-! ## Pages -/

section Paging

variable {α κ σ ε : Type} [LinearOrder κ] {key : α → κ} {rows : List α} {last : Option κ} {row : α}
  {size : ℕ}

/-- The rows beyond a key. -/
def beyond (key : α → κ) (rows : List α) : Option κ → List α
  | none => rows
  | some last => rows.filter fun row => last < key row

/-- Beyond a row that lies beyond a key. -/
theorem beyond_row (h : row ∈ beyond key rows last) :
    beyond key rows (some (key row)) =
      (beyond key rows last).filter fun other => key row < key other := by
  cases last with
  | none => rfl
  | some last =>
    simp only [beyond, List.mem_filter, decide_eq_true_eq] at h ⊢
    rw [List.filter_filter]
    refine List.filter_congr fun other _ => ?_
    have htrans : key row < key other → last < key other := lt_trans h.2
    simpa using htrans

theorem beyond_length_lt (h : row ∈ beyond key rows last) :
    (beyond key rows (some (key row))).length < (beyond key rows last).length := by
  rw [beyond_row h]
  exact List.length_filter_lt_length_iff_exists.mpr ⟨row, h, by simp⟩

/-- A page is processed row by row; one that is not full is the last. -/
def paged (size : ℕ) (key : α → κ) (rows : List α) (step : σ → α → Except ε σ) (last : Option κ)
    (s : σ) : Except ε σ := do
  let page := (beyond key rows last).take size
  let s ← page.foldlM step s
  if page.length < size then return s
  else match _hlast : page.getLast? with
    | none => return s
    | some row => paged size key rows step (some (key row)) s
  termination_by (beyond key rows last).length
  decreasing_by
    exact beyond_length_lt (List.mem_of_mem_take (List.mem_of_getLast? _hlast))

/-- Beyond the last row of a page is what the page leaves. -/
theorem beyond_page (hsorted : rows.Pairwise fun a b => key a < key b)
    (h : ((beyond key rows last).take size).getLast? = some row) :
    beyond key rows (some (key row)) = (beyond key rows last).drop size := by
  have hpairs : (beyond key rows last).Pairwise fun a b => key a < key b := by
    cases last with
    | none => exact hsorted
    | some last => exact hsorted.filter _
  rw [beyond_row (List.mem_of_mem_take (List.mem_of_getLast? h))]
  generalize beyond key rows last = remaining at h hpairs ⊢
  obtain ⟨page, hpage⟩ := List.getLast?_eq_some_iff.mp h
  have hsplit : remaining = page ++ (row :: remaining.drop size) := by
    calc remaining = remaining.take size ++ remaining.drop size :=
          (List.take_append_drop size remaining).symm
      _ = page ++ (row :: remaining.drop size) := by rw [hpage]; simp
  generalize remaining.drop size = rest at hsplit ⊢
  subst hsplit
  obtain ⟨-, htail, hbefore⟩ := List.pairwise_append.mp hpairs
  have hpageNone : page.filter (fun other => key row < key other) = [] := by
    refine List.filter_eq_nil_iff.mpr fun other hother => ?_
    simpa using le_of_lt (hbefore other hother row (by simp))
  have hrest : rest.filter (fun other => key row < key other) = rest := by
    refine List.filter_eq_self.mpr fun other hother => ?_
    simpa using List.rel_of_pairwise_cons htail hother
  rw [List.filter_append, hpageNone, List.filter_cons, if_neg (by simp), hrest, List.nil_append]

theorem paged_eq_foldlM (hsize : 0 < size) (hsorted : rows.Pairwise fun a b => key a < key b)
    {step : σ → α → Except ε σ} (last : Option κ) (s : σ) :
    paged size key rows step last s = (beyond key rows last).foldlM step s := by
  induction hlength : (beyond key rows last).length using Nat.strongRecOn
    generalizing last s with
  | _ n ih =>
    subst hlength
    conv_rhs => rw [← List.take_append_drop size (beyond key rows last), List.foldlM_append]
    unfold paged
    refine bind_congr fun s' => ?_
    split
    · next hshort =>
      have hnone : (beyond key rows last).drop size = [] := by
        rw [List.length_take] at hshort
        exact List.drop_eq_nil_iff.mpr (by omega)
      rw [hnone]
      rfl
    · next hfull =>
      split
      · next hlast =>
        rw [List.getLast?_eq_none_iff.mp hlast] at hfull
        exact absurd hsize hfull
      · next row hlast =>
        have hmem := List.mem_of_mem_take (List.mem_of_getLast? hlast)
        rw [ih _ (beyond_length_lt hmem) _ _ rfl, beyond_page hsorted hlast]

end Paging

/-! ## Lists under keys -/

namespace Dict

variable {κ ν : Type} [DecidableEq κ] {d : Dict κ (List ν)} {k : κ} {v : ν}

/-- The list under a key, empty for a key that is not there. -/
def under (d : Dict κ (List ν)) (k : κ) : List ν := (d.get? k).getD []

/-- `d.setdefault(k, []).append(v)` -/
def push (d : Dict κ (List ν)) (k : κ) (v : ν) : Dict κ (List ν) := d.insert k (d.under k ++ [v])

theorem under_push (d : Dict κ (List ν)) (k k' : κ) (v : ν) :
    (d.push k v).under k' = if k' = k then d.under k' ++ [v] else d.under k' := by
  unfold push under
  rw [get?_insert]
  by_cases h : k' = k
  · subst h
    simp
  · simp [h]

theorem get?_eq_under (h : d.get? k ≠ none) :
    d.get? k = some (d.under k) := by
  obtain ⟨items, hitems⟩ := Option.ne_none_iff_exists'.mp h
  rw [under, hitems]
  rfl

/-- No key is lost. -/
theorem get?_push_ne_none {k' : κ} (h : d.get? k' ≠ none) :
    (d.push k v).get? k' ≠ none := by
  unfold push
  rw [get?_insert]
  split
  · exact Option.some_ne_none _
  · exact h

theorem get?_pushes_ne_none {ks : List κ}
    (h : d.get? k ≠ none) : (ks.foldl (fun d k => d.push k v) d).get? k ≠ none := by
  induction ks generalizing d with
  | nil => exact h
  | cons k' ks ih => exact ih (get?_push_ne_none h)

/-- One item pushed under each key of a list. -/
theorem under_pushes (d : Dict κ (List ν)) (ks : List κ) (k : κ) (v : ν) :
    (ks.foldl (fun d k => d.push k v) d).under k = d.under k ++ List.replicate (ks.count k) v := by
  induction ks generalizing d with
  | nil => simp
  | cons k' ks ih =>
    rw [List.foldl_cons, ih, under_push]
    by_cases h : k = k'
    · subst h
      rw [if_pos rfl, List.count_cons_self, List.append_assoc, List.singleton_append,
        ← List.replicate_succ]
    · rw [if_neg h, List.count_cons_of_ne (Ne.symm h)]

end Dict

end IsadoraAir
