import IsadoraAir.Rbds.Uecp
import Mathlib.RingTheory.AdjoinRoot

/-!
# The checksum as a polynomial remainder

The register is the remainder of the message, behind the bits it starts with, by
`X ^ 16 + X ^ 12 + X ^ 5 + 1`. So errors add to it whatever the message is, and a single burst of
them is always seen.
-/

namespace IsadoraAir.Rbds

open Polynomial

variable {data error : List Byte} {crc : ℕ}

/-! ## Bits of a message -/

/-- The bit at a position, each byte from its most significant bit on. -/
def bitAt (data : List Byte) (position : ℕ) : Bool :=
  (data[position / 8]?).any fun byte => byte.toNat.testBit (7 - position % 8)

@[simp] theorem bitAt_nil (position : ℕ) : bitAt [] position = false := rfl

theorem bitAt_cons_head {byte : Byte} {rest : List Byte} {position : ℕ} (h : position < 8) :
    bitAt (byte :: rest) position = byte.toNat.testBit (7 - position) := by
  rw [bitAt, Nat.div_eq_of_lt h, Nat.mod_eq_of_lt h]
  rfl

theorem bitAt_cons_tail (byte : Byte) (rest : List Byte) (position : ℕ) :
    bitAt (byte :: rest) (position + 8) = bitAt rest position := by
  rw [bitAt, Nat.add_div_right _ (by decide), Nat.add_mod_right]
  rfl

theorem bitAt_of_length_le {position : ℕ} (h : 8 * data.length ≤ position) :
    bitAt data position = false := by
  have hnone : data[position / 8]? = none := List.getElem?_eq_none (by omega)
  rw [bitAt, hnone]
  rfl

/-- The message with the bits of `error` flipped. -/
def corrupted (data error : List Byte) : List Byte := List.zipWith (· ^^^ ·) data error

/-- Some bit is set, and all that are lie within 16 consecutive positions. -/
def IsErrorBurst (error : List Byte) : Prop :=
  (∃ position, bitAt error position = true) ∧
    ∃ start, ∀ position, bitAt error position = true → start ≤ position ∧ position < start + 16

/-- The bits of the message as coefficients, the last one that of `X ^ 0`. -/
noncomputable def messagePoly : List Byte → (ZMod 2)[X]
  | [] => 0
  | byte :: rest => X ^ (8 * rest.length) * binaryPoly byte.toNat + messagePoly rest

theorem messagePoly_corrupted (h : error.length = data.length) :
    messagePoly (corrupted data error) = messagePoly data + messagePoly error := by
  induction data generalizing error with
  | nil =>
    cases error with
    | nil => simp [corrupted, messagePoly]
    | cons => cases h
  | cons byte data ih =>
    cases error with
    | nil => cases h
    | cons flips error =>
      have hlength : error.length = data.length := Nat.succ.inj h
      have hshort : (corrupted data error).length = data.length := by
        simp [corrupted, hlength]
      show X ^ (8 * (corrupted data error).length) * binaryPoly (byte ^^^ flips).toNat +
        messagePoly (corrupted data error) = _
      rw [ih hlength, hshort, UInt8.toNat_xor, binaryPoly_xor]
      simp only [messagePoly, hlength]
      ring

theorem coeff_messagePoly (data : List Byte) (i : ℕ) :
    (messagePoly data).coeff i =
      if i < 8 * data.length ∧ bitAt data (8 * data.length - 1 - i) = true then 1 else 0 := by
  induction data with
  | nil => simp [messagePoly]
  | cons byte rest ih =>
    rw [messagePoly, coeff_add, coeff_X_pow_mul', ih, coeff_binaryPoly, List.length_cons]
    rcases Nat.lt_or_ge i (8 * rest.length) with hrest | hrest
    · have hposition : 8 * (rest.length + 1) - 1 - i = (8 * rest.length - 1 - i) + 8 := by omega
      have hlt : i < 8 * (rest.length + 1) := by omega
      rw [if_neg (by omega), zero_add, hposition, bitAt_cons_tail]
      simp only [hrest, hlt, true_and]
    · have htail : ¬(i < 8 * rest.length ∧ bitAt rest (8 * rest.length - 1 - i) = true) :=
        fun h => absurd h.1 (not_lt.mpr hrest)
      rw [if_pos hrest, if_neg htail, add_zero]
      rcases Nat.lt_or_ge i (8 * (rest.length + 1)) with hhead | hhead
      · rw [bitAt_cons_head (by omega)]
        have hbit : 7 - (8 * (rest.length + 1) - 1 - i) = i - 8 * rest.length := by omega
        rw [hbit]
        simp only [hhead, true_and]
      · have hzero : byte.toNat.testBit (i - 8 * rest.length) = false := by
          refine Nat.testBit_lt_two_pow (byte.toNat_lt.trans_le ?_)
          exact Nat.pow_le_pow_right (by decide) (by omega)
        rw [hzero, if_neg (by simp), if_neg (fun h => by omega)]

/-- A burst of errors is one of coefficients. -/
theorem IsErrorBurst.isBurst (h : IsErrorBurst error) : IsBurst 16 (messagePoly error) := by
  obtain ⟨⟨position, hset⟩, start, hwindow⟩ := h
  constructor
  · intro hzero
    have hlt : position < 8 * error.length := by
      by_contra hout
      rw [bitAt_of_length_le (not_lt.mp hout)] at hset
      cases hset
    have hcoeff := coeff_messagePoly error (8 * error.length - 1 - position)
    have hback : 8 * error.length - 1 - (8 * error.length - 1 - position) = position := by omega
    rw [hzero, hback, hset, if_pos ⟨by omega, rfl⟩] at hcoeff
    simp at hcoeff
  · refine ⟨8 * error.length - (start + 16), fun i hcoeff => ?_⟩
    rw [coeff_messagePoly] at hcoeff
    have hbit : i < 8 * error.length ∧ bitAt error (8 * error.length - 1 - i) = true := by
      by_contra hnot
      exact hcoeff (if_neg hnot)
    have hposition := hwindow _ hbit.2
    omega

/-! ## The register -/

noncomputable def generator : (ZMod 2)[X] := X ^ 16 + X ^ 12 + X ^ 5 + 1

theorem generator_eq : generator = binaryPoly 0x11021 := by
  have hbits : 0x11021 = (1 <<< 16) ^^^ (1 <<< 12) ^^^ (1 <<< 5) ^^^ 1 := by decide
  have hone : binaryPoly 1 = 1 := by
    ext i
    rw [coeff_binaryPoly, coeff_one]
    cases i <;> simp [Nat.testBit_succ]
  rw [hbits, binaryPoly_xor, binaryPoly_xor, binaryPoly_xor, binaryPoly_shiftLeft,
    binaryPoly_shiftLeft, binaryPoly_shiftLeft, hone, mul_one, mul_one, mul_one]
  rfl

theorem natDegree_generator : generator.natDegree = 16 := by
  rw [generator_eq]
  refine natDegree_eq_of_le_of_coeff_ne_zero ?_ ?_
  · have hlt : (binaryPoly 0x11021).degree < (17 : ℕ) := degree_binaryPoly_lt (by decide)
    exact natDegree_le_of_degree_le (Order.le_of_lt_succ hlt)
  · rw [coeff_binaryPoly]
    decide

theorem generator_monic : generator.Monic := by
  rw [Monic, leadingCoeff, natDegree_generator, generator_eq, coeff_binaryPoly]
  rfl

theorem coeff_zero_generator : generator.coeff 0 = 1 := by
  rw [generator_eq, coeff_binaryPoly]
  rfl

/-- Where the top bit leaves the register, the generator is subtracted. -/
theorem crcShift_eq (h : crc < 2 ^ 16) :
    crcShift crc = if crc.testBit 15 then (crc <<< 1) ^^^ 0x11021 else crc <<< 1 := by
  have htop : crc &&& 0x8000 ≠ 0 ↔ crc.testBit 15 = true := by
    have hand := Nat.and_two_pow crc 15
    rw [show (2 : ℕ) ^ 15 = 0x8000 by rfl] at hand
    rw [hand]
    cases crc.testBit 15 <;> simp
  have hmask : (0xFFFF : ℕ) = 2 ^ 16 - 1 := rfl
  unfold crcShift
  by_cases hbit : crc.testBit 15 = true
  · rw [if_pos (htop.mpr hbit), if_pos hbit, hmask]
    refine Nat.eq_of_testBit_eq fun i => ?_
    rw [Nat.testBit_and, Nat.testBit_xor, Nat.testBit_xor, Nat.testBit_two_pow_sub_one,
      Nat.testBit_shiftLeft]
    rcases Nat.lt_trichotomy i 16 with hi | rfl | hi
    · have hsame : Nat.testBit 0x1021 i = Nat.testBit 0x11021 i := by
        interval_cases i <;> rfl
      simp [hi, hsame]
    · simp [hbit]
      decide
    · have hhigh : crc.testBit (i - 1) = false :=
        Nat.testBit_lt_two_pow (h.trans_le (Nat.pow_le_pow_right (by decide) (by omega)))
      have hgenerator : Nat.testBit 0x11021 i = false :=
        Nat.testBit_lt_two_pow ((by decide : 0x11021 < 2 ^ 17).trans_le
          (Nat.pow_le_pow_right (by decide) (by omega)))
      simp [hhigh, hgenerator, Nat.not_lt.mpr hi.le]
  · rw [if_neg (htop.not.mpr hbit), if_neg hbit, hmask, Nat.and_two_pow_sub_one_eq_mod]
    refine Nat.mod_eq_of_lt ?_
    have hlow : crc < 2 ^ 15 := by
      refine Nat.lt_pow_two_of_testBit crc fun i hi => ?_
      rcases Nat.lt_or_ge i 16 with hlt | hge
      · have heq : i = 15 := by omega
        subst heq
        simpa using hbit
      · exact Nat.testBit_lt_two_pow (h.trans_le (Nat.pow_le_pow_right (by decide) hge))
    rw [Nat.shiftLeft_eq]
    omega

/-- Polynomials up to multiples of the generator. -/
noncomputable def residue : (ZMod 2)[X] →+* AdjoinRoot generator := AdjoinRoot.mk generator

theorem residue_generator : residue generator = 0 := AdjoinRoot.mk_self

theorem residue_crcShift (h : crc < 2 ^ 16) :
    residue (binaryPoly (crcShift crc)) = residue X * residue (binaryPoly crc) := by
  have hshift : residue (binaryPoly (crc <<< 1)) = residue X * residue (binaryPoly crc) := by
    rw [binaryPoly_shiftLeft, pow_one, map_mul]
  rw [crcShift_eq h]
  split
  · rw [binaryPoly_xor, ← generator_eq, map_add, residue_generator, add_zero, hshift]
  · exact hshift

theorem residue_crcShifts (h : crc < 2 ^ 16) (n : ℕ) :
    crcShift^[n] crc < 2 ^ 16 ∧
      residue (binaryPoly (crcShift^[n] crc)) = residue X ^ n * residue (binaryPoly crc) := by
  induction n with
  | zero => exact ⟨h, by simp⟩
  | succ n ih =>
    rw [Function.iterate_succ_apply']
    refine ⟨crcShift_lt _, ?_⟩
    rw [residue_crcShift ih.1, ih.2, pow_succ', mul_assoc]

theorem residue_crcByte (h : crc < 2 ^ 16) (byte : Byte) :
    residue (binaryPoly (crcByte crc byte)) = residue X ^ 8 * residue (binaryPoly crc) +
      residue X ^ 16 * residue (binaryPoly byte.toNat) := by
  have hbyte : byte.toNat <<< 8 < 2 ^ 16 := by
    rw [Nat.shiftLeft_eq]
    have hlt := byte.toNat_lt
    omega
  rw [crcByte, (residue_crcShifts (Nat.xor_lt_two_pow h hbyte) 8).2, binaryPoly_xor,
    binaryPoly_shiftLeft, map_add, map_mul, map_pow]
  ring

/-- The register after a message, from whatever it starts with. -/
theorem residue_foldl (h : crc < 2 ^ 16) (data : List Byte) :
    residue (binaryPoly (data.foldl crcByte crc)) =
      residue (X ^ 16 * messagePoly data + X ^ (8 * data.length) * binaryPoly crc) := by
  induction data generalizing crc with
  | nil => simp [messagePoly]
  | cons byte rest ih =>
    rw [List.foldl_cons, ih (crcByte_lt crc byte), map_add, map_mul, map_mul, residue_crcByte h,
      messagePoly, List.length_cons]
    simp only [map_add, map_mul, map_pow]
    ring

theorem degree_crcRegister_lt (data : List Byte) :
    (binaryPoly (crcRegister data)).degree < generator.degree := by
  rw [degree_eq_natDegree generator_monic.ne_zero, natDegree_generator]
  exact degree_binaryPoly_lt (crcRegister_lt data)

/-- The register is the remainder of the message behind sixteen ones. -/
theorem crcRegister_remainder (data : List Byte) : binaryPoly (crcRegister data) =
    (X ^ 16 * messagePoly data + X ^ (8 * data.length) * binaryPoly 0xFFFF) %ₘ generator := by
  have hstart : 0xFFFF < 2 ^ 16 := by decide
  have hresidue := residue_foldl hstart data
  have hdvd := AdjoinRoot.mk_eq_mk.mp hresidue
  have hself := (modByMonic_eq_self_iff generator_monic).mpr (degree_crcRegister_lt data)
  have hzero := (modByMonic_eq_zero_iff_dvd generator_monic).mpr hdvd
  rw [sub_modByMonic] at hzero
  exact hself.symm.trans (sub_eq_zero.mp hzero)

/-- Errors are added to the register whatever the message is. -/
theorem crcRegister_corrupted (h : error.length = data.length) :
    binaryPoly (crcRegister (corrupted data error)) =
      binaryPoly (crcRegister data) + (X ^ 16 * messagePoly error) %ₘ generator := by
  have hlength : (corrupted data error).length = data.length := by simp [corrupted, h]
  rw [crcRegister_remainder, crcRegister_remainder, messagePoly_corrupted h, hlength,
    ← add_modByMonic, mul_add, add_right_comm]

theorem crcRegister_burst (h : error.length = data.length)
    (hburst : IsErrorBurst error) : crcRegister (corrupted data error) ≠ crcRegister data := by
  intro hsame
  have hadded := crcRegister_corrupted h
  rw [hsame, left_eq_add, modByMonic_eq_zero_iff_dvd generator_monic] at hadded
  have hconstant : generator.coeff 0 ≠ 0 := by
    rw [coeff_zero_generator]
    exact one_ne_zero
  have hdvd := (isCoprime_X_pow hconstant 16).dvd_of_dvd_mul_left hadded
  have hmessage := hburst.isBurst
  rw [← natDegree_generator] at hmessage
  exact hmessage.not_dvd hconstant hdvd

/-- Two registers have the same checksum only if they are the same. -/
theorem crcCcitt_injective {data' : List Byte} (h : crcCcitt data = crcCcitt data') :
    crcRegister data = crcRegister data' := by
  have hlt : ∀ data, crcRegister data ^^^ 0xFFFF < 65536 := fun data =>
    Nat.xor_lt_two_pow (n := 16) (crcRegister_lt data) (by decide)
  rw [crcCcitt, crcCcitt, packH, packH, if_pos (hlt data), if_pos (hlt data')] at h
  simp only [Except.ok.injEq, List.cons.injEq, and_true] at h
  have hhigh := congrArg UInt8.toNat h.1
  have hlow := congrArg UInt8.toNat h.2
  simp only [UInt8.toNat_ofNat'] at hhigh hlow
  have hxor : crcRegister data ^^^ 0xFFFF = crcRegister data' ^^^ 0xFFFF := by
    have hdata := hlt data
    have hdata' := hlt data'
    omega
  exact Nat.xor_left_inj.mp hxor

/-- The checksum is the complement of a polynomial remainder by a generator of degree 16 with a
constant term, linear in the errors, and shows every burst within 16 bits. -/
theorem crcCcitt_detects :
    (∀ data, ∃ remainder, crcCcitt data = packH (remainder ^^^ 0xFFFF) ∧
      binaryPoly remainder =
        (X ^ 16 * messagePoly data + X ^ (8 * data.length) * binaryPoly 0xFFFF) %ₘ generator) ∧
    generator.Monic ∧ generator.natDegree = 16 ∧ generator.coeff 0 = 1 ∧
    ∀ data error : List Byte, error.length = data.length →
      binaryPoly (crcRegister (corrupted data error)) =
        binaryPoly (crcRegister data) + (X ^ 16 * messagePoly error) %ₘ generator ∧
      (IsErrorBurst error → crcCcitt (corrupted data error) ≠ crcCcitt data) := by
  refine ⟨fun data => ⟨crcRegister data, rfl, crcRegister_remainder data⟩, generator_monic,
    natDegree_generator, coeff_zero_generator, fun data error h => ⟨crcRegister_corrupted h, ?_⟩⟩
  exact fun hburst hsame => crcRegister_burst h hburst (crcCcitt_injective hsame)

/-- The last bit of the first byte and the first of the second. -/
theorem crcCcitt_detects_two_bits :
    crcCcitt (corrupted [0x31, 0x32, 0x33] [0x01, 0x80, 0x00]) ≠ crcCcitt [0x31, 0x32, 0x33] := by
  refine (crcCcitt_detects.2.2.2.2 [0x31, 0x32, 0x33] [0x01, 0x80, 0x00] rfl).2 ?_
  refine ⟨⟨7, by decide⟩, 0, ?_⟩
  intro position hset
  have hlt : position < 24 := by
    by_contra hout
    rw [bitAt_of_length_le (not_lt.mp hout)] at hset
    cases hset
  revert hset
  interval_cases position <;> decide

example : crcCcitt [0x31, 0x32, 0x33, 0x34, 0x35, 0x36, 0x37, 0x38, 0x39] = .ok [0xD6, 0x4E] := by
  decide +kernel

end IsadoraAir.Rbds
