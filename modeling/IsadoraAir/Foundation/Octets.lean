import Mathlib.Data.Nat.Bitwise
import Mathlib.Algebra.Field.ZMod
import Mathlib.Algebra.Polynomial.FieldDivision
import Mathlib.Data.Nat.Size

/-!
# Octets

Fields of bits within a number, and codes for octets that may not stand as they
are.
-/

/-!
## Bit fields

A number as fields of bits next to each other, written with shifts and masks,
and a field read back.
-/

namespace IsadoraAir

/-- The `width` bits of `n` from `offset` on. -/
def bitField (n offset width : ℕ) : ℕ := n / 2 ^ offset % 2 ^ width

/-- A field is independent of what stands above it and below it. -/
theorem bitField_eq {n offset width : ℕ} (field below : ℕ)
    (hn : n % 2 ^ (offset + width) = field * 2 ^ offset + below) (hbelow : below < 2 ^ offset) :
    bitField n offset width = field := by
  rw [bitField, ← Nat.mod_mul_right_div_self, ← Nat.pow_add, hn, Nat.add_comm,
    Nat.add_mul_div_right _ _ (Nat.two_pow_pos offset), Nat.div_eq_of_lt hbelow, Nat.zero_add]

/-- Writing a field above bits that do not reach it. -/
theorem or_shiftLeft {high low : ℕ} (width : ℕ) (h : low < 2 ^ width) :
    (high <<< width) ||| low = high * 2 ^ width + low := by
  rw [← Nat.shiftLeft_add_eq_or_of_lt h, Nat.shiftLeft_eq]

end IsadoraAir

/-!
## Escape codes

Some symbols are sent as a pair that begins with a mark. The mark is one of
them, so that a mark on the line always opens a pair and the other escaped
symbols never occur on it.
-/

namespace IsadoraAir

structure EscapeCode (α : Type*) where
  mark : α
  escape : α → Option α
  unescape : α → Option α
  mark_escaped : escape mark ≠ none
  unescape_escape : ∀ {x c}, escape x = some c → unescape c = some x
  escape_plain : ∀ {x c}, escape x = some c → escape c = none

namespace EscapeCode

variable {α : Type*} (code : EscapeCode α)

def stuff : List α → List α
  | [] => []
  | x :: xs => (code.escape x).elim [x] (fun c => [code.mark, c]) ++ stuff xs

/-- A mark at the very end or before a symbol that is no code fails. -/
def unstuff [DecidableEq α] : List α → Option (List α)
  | [] => some []
  | [x] => if x = code.mark then none else some [x]
  | x :: y :: rest =>
    if x = code.mark then (code.unescape y).bind fun b => (unstuff rest).map (b :: ·)
    else (unstuff (y :: rest)).map (x :: ·)

@[simp] theorem stuff_nil : code.stuff [] = [] := rfl

theorem stuff_cons_of_none {x : α} (h : code.escape x = none) (xs : List α) :
    code.stuff (x :: xs) = x :: code.stuff xs := by
  simp [stuff, h]

theorem stuff_cons_of_some {x c : α} (h : code.escape x = some c) (xs : List α) :
    code.stuff (x :: xs) = code.mark :: c :: code.stuff xs := by
  simp [stuff, h]

/-- What is on the line is the mark or a symbol that needs no escape. -/
theorem mem_stuff {xs : List α} {b : α} (h : b ∈ code.stuff xs) :
    b = code.mark ∨ code.escape b = none := by
  induction xs with
  | nil => cases h
  | cons x xs ih =>
    cases hx : code.escape x with
    | none =>
      rw [stuff_cons_of_none code hx] at h
      rcases List.mem_cons.mp h with rfl | h
      · exact Or.inr hx
      · exact ih h
    | some c =>
      rw [stuff_cons_of_some code hx] at h
      rcases List.mem_cons.mp h with rfl | h
      · exact Or.inl rfl
      · rcases List.mem_cons.mp h with rfl | h
        · exact Or.inr (code.escape_plain hx)
        · exact ih h

variable [DecidableEq α]

theorem unstuff_cons_of_ne {x : α} (h : x ≠ code.mark) (xs : List α) :
    code.unstuff (x :: xs) = (code.unstuff xs).map (x :: ·) := by
  cases xs with
  | nil => simp [unstuff, h]
  | cons y rest => simp [unstuff, h]

theorem unstuff_mark_cons (y : α) (rest : List α) :
    code.unstuff (code.mark :: y :: rest) =
      (code.unescape y).bind fun b => (code.unstuff rest).map (b :: ·) := by
  simp [unstuff]

theorem unstuff_stuff (xs : List α) : code.unstuff (code.stuff xs) = some xs := by
  induction xs with
  | nil => rfl
  | cons x xs ih =>
    cases hx : code.escape x with
    | none =>
      have hne : x ≠ code.mark := fun h => code.mark_escaped (h ▸ hx)
      rw [stuff_cons_of_none code hx, unstuff_cons_of_ne code hne, ih, Option.map_some]
    | some c =>
      rw [stuff_cons_of_some code hx, unstuff_mark_cons, code.unescape_escape hx, ih]
      rfl

end EscapeCode

end IsadoraAir

/-!
# Binary polynomials and cyclic codes

The bits of a natural number are the coefficients of a polynomial over the field of two elements:
exclusive or is its addition, a shift its multiplication by a power of `X`. A generator with a
constant term divides no polynomial whose coefficients lie within its degree of each other, so the
remainder shows every single burst of errors that is no longer.
-/

namespace IsadoraAir

open Polynomial

/-! ## Bursts -/

section Burst

variable {F : Type*} [Field F]

theorem isCoprime_X_pow {g : F[X]} (h : g.coeff 0 ≠ 0) (k : ℕ) : IsCoprime g (X ^ k) := by
  have hirreducible : Irreducible (X : F[X]) := irreducible_X
  have hnot : ¬(X : F[X]) ∣ g := fun hdvd => h (X_dvd_iff.mp hdvd)
  exact IsCoprime.pow_right (hirreducible.coprime_iff_not_dvd.mpr hnot).symm

/-- The coefficients that are not zero lie within `width` positions. -/
def IsBurst (width : ℕ) (p : F[X]) : Prop :=
  p ≠ 0 ∧ ∃ start, ∀ i, p.coeff i ≠ 0 → start ≤ i ∧ i < start + width

theorem IsBurst.not_dvd {g p : F[X]} (hconstant : g.coeff 0 ≠ 0) (h : IsBurst g.natDegree p) :
    ¬g ∣ p := by
  obtain ⟨hne, start, hwindow⟩ := h
  have hlow : X ^ start ∣ p := by
    refine X_pow_dvd_iff.mpr fun i hi => ?_
    by_contra hcoeff
    have hstart := (hwindow i hcoeff).1
    omega
  obtain ⟨b, rfl⟩ := hlow
  have hb : b ≠ 0 := right_ne_zero_of_mul hne
  have hshort : b.degree < g.natDegree := by
    refine (degree_lt_iff_coeff_zero b _).mpr fun i hi => ?_
    by_contra hcoeff
    have hend := (hwindow (start + i) (by rwa [add_comm, coeff_X_pow_mul])).2
    omega
  intro hdvd
  have hdvd' : g ∣ b := (isCoprime_X_pow hconstant start).dvd_of_dvd_mul_left hdvd
  have hle := natDegree_le_of_dvd hdvd' hb
  have hlt := (natDegree_lt_iff_degree_lt hb).mpr hshort
  omega

end Burst

/-! ## Numbers as polynomials -/

/-- The bits of a number as coefficients. -/
noncomputable def binaryPoly (n : ℕ) : (ZMod 2)[X] :=
  ∑ i ∈ Finset.range n.size, if n.testBit i then X ^ i else 0

@[simp] theorem coeff_binaryPoly (n i : ℕ) :
    (binaryPoly n).coeff i = if n.testBit i then 1 else 0 := by
  have hterm : ∀ j, ((if n.testBit j then X ^ j else 0 : (ZMod 2)[X])).coeff i =
      if i = j then (if n.testBit i then 1 else 0) else 0 := by
    intro j
    by_cases hij : i = j
    · subst hij
      cases n.testBit i <;> simp
    · cases n.testBit j <;> simp [coeff_X_pow, hij]
  rw [binaryPoly, finsetSum_coeff, Finset.sum_congr rfl fun j _ => hterm j, Finset.sum_ite_eq]
  split
  · rfl
  · next hout =>
    have hzero : n.testBit i = false := by
      refine Nat.testBit_lt_two_pow (Nat.size_le.mp ?_)
      simpa using hout
    simp [hzero]

theorem binaryPoly_xor (a b : ℕ) : binaryPoly (a ^^^ b) = binaryPoly a + binaryPoly b := by
  ext i
  rw [coeff_add, coeff_binaryPoly, coeff_binaryPoly, coeff_binaryPoly, Nat.testBit_xor]
  cases a.testBit i <;> cases b.testBit i <;> decide

theorem binaryPoly_shiftLeft (n k : ℕ) : binaryPoly (n <<< k) = X ^ k * binaryPoly n := by
  ext i
  rw [coeff_X_pow_mul', coeff_binaryPoly, Nat.testBit_shiftLeft]
  by_cases hi : k ≤ i <;> simp [hi]

theorem degree_binaryPoly_lt {n k : ℕ} (h : n < 2 ^ k) : (binaryPoly n).degree < k := by
  refine (degree_lt_iff_coeff_zero _ _).mpr fun i hi => ?_
  have hlt : n < 2 ^ i := h.trans_le (Nat.pow_le_pow_right (by decide) hi)
  simp [Nat.testBit_lt_two_pow hlt]

end IsadoraAir
