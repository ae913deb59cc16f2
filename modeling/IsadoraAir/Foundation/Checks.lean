import IsadoraAir.Foundation.Keyed
import IsadoraAir.Foundation.PyError

/-!
# Sequences of checks

A validator refuses its input at the first check that fails. What it accepts is
read off as the conjunction of its checks, what it raises as the first failing
one. A loop that gathers the items it has read is treated in the same way.
-/

namespace IsadoraAir

variable {ε : Type*} {α β : Type}
  {x : Except ε α} {f : α → Except ε β} {P : ε → Prop} {xs : List α} {ys : List β}

/-- `if condition: raise error`, with the evidence that it did not. -/
def refuse (condition : Prop) [Decidable condition] (error : ε) : Except ε (PLift ¬condition) :=
  if h : condition then .error error else .ok ⟨h⟩

section Inversion

variable {condition : Prop} [Decidable condition] {error e : ε} {b : β}

theorem refuse_bind_eq_ok {f : PLift ¬condition → Except ε β} :
    (refuse condition error >>= f) = .ok b ↔ ∃ h : ¬condition, f ⟨h⟩ = .ok b := by
  by_cases h : condition
  · rw [refuse, dif_pos h]
    exact ⟨nofun, fun hf => absurd h hf.1⟩
  · rw [refuse, dif_neg h]
    exact ⟨fun hf => ⟨h, hf⟩, fun hf => hf.2⟩

theorem raiseIf_bind_eq_ok {f : Unit → Except ε β} :
    (raiseIf condition error >>= f) = .ok b ↔ ¬condition ∧ f () = .ok b := by
  by_cases h : condition <;> simp [raiseIf, h, bind, Except.bind]

theorem orRaise_bind_eq_ok {value : Option α} :
    (orRaise value error >>= f) = .ok b ↔ ∃ a, value = some a ∧ f a = .ok b := by
  cases value <;> simp [orRaise, bind, Except.bind]

/-- A check, and what follows it. -/
theorem unit_bind_eq_ok {x : Except ε Unit} {f : Unit → Except ε β} :
    (x >>= f) = .ok b ↔ x = .ok () ∧ f () = .ok b := by
  cases x <;> simp [bind, Except.bind]

/-- The success of the first part, by what is known of it. -/
theorem bind_eq_ok_of {p : α → Prop}
    (h : ∀ a, x = .ok a ↔ p a) : (x >>= f) = .ok b ↔ ∃ a, p a ∧ f a = .ok b := by
  simp only [bind_eq_ok, h]

theorem bind_eq_error :
    (x >>= f) = .error e ↔ x = .error e ∨ ∃ a, x = .ok a ∧ f a = .error e := by
  cases x <;> simp [bind, Except.bind]

theorem refuse_eq_error : refuse condition error = .error e ↔ condition ∧ error = e := by
  by_cases h : condition
  · rw [refuse, dif_pos h, Except.error.injEq, and_iff_right h]
  · rw [refuse, dif_neg h]
    exact ⟨nofun, fun he => absurd he.1 h⟩

theorem refuse_eq_ok {u : PLift ¬condition} : refuse condition error = .ok u ↔ ¬condition := by
  by_cases h : condition
  · rw [refuse, dif_pos h]
    exact ⟨nofun, fun hu => absurd h hu⟩
  · rw [refuse, dif_neg h]
    exact ⟨fun _ => h, fun _ => rfl⟩

theorem raiseIf_eq_error : raiseIf condition error = .error e ↔ condition ∧ error = e := by
  by_cases h : condition <;> simp [raiseIf, h]

theorem orRaise_eq_error {value : Option α} :
    orRaise value error = .error e ↔ value = none ∧ error = e := by
  cases value <;> simp [orRaise]

end Inversion

theorem Raises.refuse {condition : Prop} [Decidable condition] {error : ε}
    (h : P error) : Raises P (refuse condition error) := by
  intro e he
  obtain ⟨-, rfl⟩ := refuse_eq_error.mp he
  exact h

theorem Raises.ok (a : α) : Raises P (.ok a : Except ε α) := by
  intro e he
  cases he

/-- An error that the first part does not raise comes from what follows it. -/
theorem Raises.passes {e : ε} (hx : Raises P x) (he : ¬P e) (h : (x >>= f) = .error e) :
    ∃ a, x = .ok a ∧ f a = .error e := by
  rcases bind_eq_error.mp h with hfirst | hrest
  · exact absurd (hx e hfirst) he
  · exact hrest

theorem Raises.bind_of_ok (hx : Raises P x)
    (hf : ∀ a, x = .ok a → Raises P (f a)) : Raises P (x >>= f) := by
  intro e he
  rcases bind_eq_error.mp he with hfirst | ⟨a, ha, hrest⟩
  · exact hx e hfirst
  · exact hf a ha e hrest

theorem Raises.mono {Q : ε → Prop} (h : ∀ e, P e → Q e) (hx : Raises P x) :
    Raises Q x := fun e he => h e (hx e he)

theorem mapM_eq_ok {R : α → β → Prop} (h : ∀ a b, f a = .ok b ↔ R a b)
    : xs.mapM f = .ok ys ↔ List.Forall₂ R xs ys := by
  induction xs generalizing ys with
  | nil => simp [pure, Except.pure, eq_comm]
  | cons x xs ih =>
    simp only [List.mapM_cons, bind_eq_ok, h, ih, pure, Except.pure, Except.ok.injEq]
    constructor
    · rintro ⟨y, hy, ys, hys, rfl⟩
      exact .cons hy hys
    · intro hcons
      obtain ⟨y, ys, hy, hys, rfl⟩ := List.forall₂_cons_left_iff.mp hcons
      exact ⟨y, hy, ys, hys, rfl⟩

/-- What was read comes from one of the things that were there to be read. -/
theorem exists_of_forall₂ {R : α → β → Prop}
    (h : List.Forall₂ R xs ys) {y : β} (hy : y ∈ ys) : ∃ x ∈ xs, R x y := by
  induction h with
  | nil => cases hy
  | cons hxy _ ih =>
    rcases List.mem_cons.mp hy with rfl | hy
    · exact ⟨_, by simp, hxy⟩
    · obtain ⟨x, hx, hR⟩ := ih hy
      exact ⟨x, by simp [hx], hR⟩

theorem Raises.mapM (h : ∀ a, Raises P (f a)) (xs : List α) :
    Raises P (xs.mapM f) := by
  induction xs with
  | nil => exact .ok _
  | cons x xs ih =>
    rw [List.mapM_cons]
    exact (h x).bind fun _ => ih.bind fun _ => .ok _

theorem Raises.foldlM {f : β → α → Except ε β} (h : ∀ b a, Raises P (f b a))
    (xs : List α) (b : β) : Raises P (xs.foldlM f b) := by
  induction xs generalizing b with
  | nil => exact .ok _
  | cons x xs ih =>
    rw [List.foldlM_cons]
    exact (h b x).bind fun b' => ih b'

/-! ## Loops that gather what they read -/

namespace Distinct

variable {κ : Type} {key : β → κ}

/-- `for raw in raws: items.append(read(items, raw))` -/
def collect (read : (seen : Distinct key) → α → Except ε {item : β // key item ∉ seen.keys})
    (seen : Distinct key) : List α → Except ε (Distinct key)
  | [] => .ok seen
  | raw :: raws => do
      let item ← read seen raw
      collect read (seen.add item.val item.property) raws

variable {read : (seen : Distinct key) → α → Except ε {item : β // key item ∉ seen.keys}}
  {seen out : Distinct key} {raws : List α}

/-- The loop stops with an error exactly when an item does, all before it having been read. -/
theorem collect_eq_error {e : ε} :
    collect read seen raws = .error e ↔
      ∃ before raw after gathered, raws = before ++ raw :: after ∧
        collect read seen before = .ok gathered ∧ read gathered raw = .error e := by
  induction raws generalizing seen with
  | nil => simp [collect]
  | cons raw raws ih =>
    simp only [collect, bind_eq_error, ih]
    constructor
    · rintro (h | ⟨item, hitem, before, raw', after, gathered, rfl, hbefore, hraw⟩)
      · exact ⟨[], raw, raws, seen, rfl, rfl, h⟩
      · refine ⟨raw :: before, raw', after, gathered, rfl, ?_, hraw⟩
        simp only [collect, bind_eq_ok]
        exact ⟨item, hitem, hbefore⟩
    · rintro ⟨before, raw', after, gathered, hraws, hbefore, hraw⟩
      cases before with
      | nil =>
        obtain ⟨rfl, rfl⟩ := List.cons.inj hraws
        cases hbefore
        exact .inl hraw
      | cons first before =>
        obtain ⟨rfl, rfl⟩ := List.cons.inj hraws
        obtain ⟨item, hitem, hrest⟩ := bind_eq_ok.mp hbefore
        exact .inr ⟨item, hitem, before, raw', after, gathered, rfl, hrest, hraw⟩

theorem collect_raises (h : ∀ seen raw, Raises P (read seen raw)) :
    Raises P (collect read seen raws) := by
  intro e he
  obtain ⟨_, raw, _, gathered, _, _, hraw⟩ := collect_eq_error.mp he
  exact h gathered raw e hraw

variable {R : α → β → Prop}

/-- The loop succeeds exactly on the lists that are related to the added items one by one. -/
theorem collect_eq_ok (hread : ∀ seen raw item, read seen raw = .ok item ↔ R raw item.val) :
    collect read seen raws = .ok out ↔
      ∃ added, out.items = seen.items ++ added ∧ List.Forall₂ R raws added := by
  induction raws generalizing seen with
  | nil =>
    simp only [collect, Except.ok.injEq, List.forall₂_nil_left_iff]
    constructor
    · rintro rfl
      exact ⟨[], by simp, rfl⟩
    · rintro ⟨added, hout, rfl⟩
      ext1
      simpa using hout.symm
  | cons raw raws ih =>
    simp only [collect, bind_eq_ok, hread, ih, items_add]
    constructor
    · rintro ⟨item, hitem, added, hout, hadded⟩
      exact ⟨item.val :: added, by simp [hout], .cons hitem hadded⟩
    · rintro ⟨added, hout, hadded⟩
      obtain ⟨item, rest, hitem, hrest, rfl⟩ := List.forall₂_cons_left_iff.mp hadded
      have hfresh : key item ∉ seen.keys := by
        have hnodup := out.distinct
        rw [hout, List.map_append, List.map_cons] at hnodup
        intro hmem
        exact (List.nodup_append.mp hnodup).2.2 _ hmem _ List.mem_cons_self rfl
      exact ⟨⟨item, hfresh⟩, hitem, rest, by simp [hout], hrest⟩

theorem collect_empty_eq_ok (hread : ∀ seen raw item, read seen raw = .ok item ↔ R raw item.val) :
    collect read empty raws = .ok out ↔ List.Forall₂ R raws out.items := by
  simp [collect_eq_ok hread]

end Distinct

end IsadoraAir
