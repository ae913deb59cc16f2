import Mathlib.Data.List.Chain
import Mathlib.Data.List.Sort

/-!
# Run-length compression of a step function

A function of time that changes only at listed breakpoints is determined by
the breakpoints at which its key really changes. `compress` keeps exactly
those; `lastAt` reads the function back from them.
-/

namespace IsadoraAir.RunLength

section Compress

variable {τ β κ : Type*} [DecidableEq κ]

/-- The breakpoints at which the key differs from the running value `prev`. -/
def compress (key : β → κ) (f : τ → Option β) : Option β → List τ → List (τ × β)
  | _, [] => []
  | prev, t :: ts =>
    match f t with
    | none => compress key f prev ts
    | some b =>
      if prev.map key = some (key b) then compress key f prev ts
      else (t, b) :: compress key f (some b) ts

variable (key : β → κ) (f : τ → Option β)

theorem compress_starts_sublist (prev : Option β) (ts : List τ) :
    ((compress key f prev ts).map Prod.fst).Sublist ts := by
  induction ts generalizing prev with
  | nil => simp [compress]
  | cons t ts ih =>
    unfold compress
    split
    · exact (ih prev).cons _
    · split_ifs
      · exact (ih prev).cons _
      · exact (ih _).cons_cons _

theorem mem_compress {prev : Option β} {ts : List τ} {t : τ} {b : β}
    (h : (t, b) ∈ compress key f prev ts) : t ∈ ts ∧ f t = some b := by
  induction ts generalizing prev with
  | nil => simp [compress] at h
  | cons u us ih =>
    unfold compress at h
    split at h
    · exact ⟨List.mem_cons_of_mem _ (ih h).1, (ih h).2⟩
    · rename_i c hc
      split_ifs at h
      · exact ⟨List.mem_cons_of_mem _ (ih h).1, (ih h).2⟩
      · rcases List.mem_cons.mp h with he | h
        · cases he
          exact ⟨List.mem_cons_self, hc⟩
        · exact ⟨List.mem_cons_of_mem _ (ih h).1, (ih h).2⟩

/-- No kept item repeats the key of the one before it. -/
theorem compress_isChain (prev : Option β) (ts : List τ) :
    (compress key f prev ts).IsChain (fun x y => key x.2 ≠ key y.2) ∧
      ∀ x ∈ (compress key f prev ts).head?, prev.map key ≠ some (key x.2) := by
  induction ts generalizing prev with
  | nil => simp [compress]
  | cons t ts ih =>
    unfold compress
    split
    · exact ih prev
    · split_ifs with h
      · exact ih prev
      · rename_i b _
        obtain ⟨hc, hd⟩ := ih (some b)
        refine ⟨List.isChain_cons.mpr ⟨fun y hy => ?_, hc⟩, ?_⟩
        · simpa using hd y hy
        · rintro x hx
          cases hx
          exact h

end Compress

section LastAt

variable {τ σ : Type*} [LinearOrder τ]

/-- The last listed item whose start is at or before `m`. -/
def lastAt (start : σ → τ) (xs : List σ) (m : τ) : Option σ :=
  (xs.filter (fun x => start x ≤ m)).getLast?

variable (start : σ → τ) {xs : List σ} {x : σ}

@[simp] theorem lastAt_nil (m : τ) : lastAt start [] m = none := rfl

theorem lastAt_cons (x : σ) (xs : List σ) (m : τ) :
    lastAt start (x :: xs) m =
      if start x ≤ m then some ((lastAt start xs m).getD x) else lastAt start xs m := by
  unfold lastAt
  split_ifs with h <;> simp [h, List.getLast?_cons]

theorem mem_of_lastAt {m : τ} (h : lastAt start xs m = some x) :
    x ∈ xs ∧ start x ≤ m := by
  have := List.mem_filter.mp (List.mem_of_getLast? h)
  exact ⟨this.1, by simpa using this.2⟩

theorem lastAt_eq_none_iff {m : τ} :
    lastAt start xs m = none ↔ ∀ x ∈ xs, m < start x := by
  simp [lastAt]

theorem lastAt_map {ρ : Type*} (g : ρ → σ) (xs : List ρ) (m : τ) :
    lastAt start (xs.map g) m = (lastAt (fun x => start (g x)) xs m).map g := by
  simp [lastAt, List.filter_map, Function.comp_def]

/-- With increasing starts the last item starting by `m` has the greatest start. -/
theorem lastAt_le (hs : xs.Pairwise (fun x y => start x < start y)) {m : τ}
    {y : σ} (h : lastAt start xs m = some x) (hy : y ∈ xs) (hm : start y ≤ m) :
    start y ≤ start x := by
  induction xs with
  | nil => cases hy
  | cons z zs ih =>
    obtain ⟨hz, hzs⟩ := List.pairwise_cons.mp hs
    rw [lastAt_cons] at h
    split_ifs at h with hzm
    · cases hl : lastAt start zs m with
      | none =>
        rw [hl, Option.getD_none, Option.some.injEq] at h
        subst h
        rcases List.mem_cons.mp hy with rfl | hy
        · exact le_rfl
        · exact absurd hm (not_le.mpr ((lastAt_eq_none_iff start).mp hl y hy))
      | some w =>
        rw [hl, Option.getD_some, Option.some.injEq] at h
        subst h
        rcases List.mem_cons.mp hy with rfl | hy
        · exact (hz _ (mem_of_lastAt start hl).1).le
        · exact ih hzs hl hy
    · rcases List.mem_cons.mp hy with rfl | hy
      · exact absurd hm hzm
      · exact ih hzs h hy

end LastAt

variable {τ β κ : Type*} [LinearOrder τ] [DecidableEq κ] (key : β → κ) (f : τ → Option β)

/-- Reading the kept items back gives the function at the last breakpoint. -/
theorem compress_lastAt (hkey : ∀ t u a b, f t = some a → f u = some b → key a = key b → a = b)
    {ts : List τ} (hs : ts.Pairwise (· < ·)) (hsome : ∀ t ∈ ts, (f t).isSome)
    (prev : Option β) (hprev : prev = none ∨ ∃ u, f u = prev) (m : τ) :
    (((lastAt Prod.fst (compress key f prev ts) m).map Prod.snd).or prev) =
      (lastAt id ts m).elim prev f := by
  induction ts generalizing prev with
  | nil => simp [compress]
  | cons t ts ih =>
    obtain ⟨ht, hts⟩ := List.pairwise_cons.mp hs
    obtain ⟨b, hb⟩ := Option.isSome_iff_exists.mp (hsome t List.mem_cons_self)
    have hsome' : ∀ u ∈ ts, (f u).isSome := fun u hu => hsome u (List.mem_cons_of_mem _ hu)
    have ihb := ih hts hsome' (some b) (Or.inr ⟨t, hb⟩)
    by_cases hm : t ≤ m
    · -- the breakpoint is passed, so from here on the running value is `f t`
      have hgoal : (lastAt id (t :: ts) m).elim prev f = (lastAt id ts m).elim (some b) f := by
        rw [lastAt_cons, if_pos (by simpa using hm)]
        cases lastAt id ts m <;> simp [hb]
      rw [hgoal, ← ihb]
      simp only [compress, hb]
      split_ifs with hk
      · have hpb : prev = some b := by
          rcases hprev with rfl | ⟨u, hu⟩
          · simp at hk
          · cases hp : prev with
            | none => simp [hp] at hk
            | some a =>
              rw [hp, Option.map_some, Option.some.injEq] at hk
              rw [hkey u t a b (hu.trans hp) hb hk]
        rw [hpb]
      · rw [lastAt_cons, if_pos hm]
        cases lastAt Prod.fst (compress key f (some b) ts) m <;> simp
    · -- every kept start is at or after `t`, beyond `m`
      have hnone : lastAt Prod.fst (compress key f prev (t :: ts)) m = none := by
        rw [lastAt_eq_none_iff]
        intro x hx
        have hmem := (mem_compress key f (t := x.1) (b := x.2) hx).1
        rcases List.mem_cons.mp hmem with he | hmem
        · rw [he]; exact not_le.mp hm
        · exact (not_le.mp hm).trans (ht _ hmem)
      have hnone' : lastAt id (t :: ts) m = none := by
        rw [lastAt_eq_none_iff]
        intro u hu
        rcases List.mem_cons.mp hu with rfl | hu
        · exact not_le.mp hm
        · exact (not_le.mp hm).trans (ht _ hu)
      rw [hnone, hnone']
      simp

end IsadoraAir.RunLength
