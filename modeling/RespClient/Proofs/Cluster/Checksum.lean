import Mathlib
import RespClient.Cluster.Slot

namespace RespClient.Cluster

open Polynomial

/-- The polynomial over GF(2) whose coefficients are the bits of `v`, the lowest bit first. -/
noncomputable def bitsPoly {w : Nat} (v : BitVec w) : (ZMod 2)[X] :=
  ∑ i ∈ Finset.range w, if v.getLsbD i then X ^ i else 0

/-- The polynomial of a message, the highest bit of its first byte in front. -/
noncomputable def messagePoly (bs : Bytes) : (ZMod 2)[X] :=
  bs.foldl (fun p b => p * X ^ 8 + bitsPoly b.toBitVec) 0

/-- The polynomial the check divides by. -/
noncomputable def generator : (ZMod 2)[X] := X ^ 16 + X ^ 12 + X ^ 5 + 1

section Bits

variable {w : Nat}

theorem coeff_bitsPoly (v : BitVec w) (i : Nat) :
    (bitsPoly v).coeff i = if v.getLsbD i then 1 else 0 := by
  have hterm : ∀ j, (if v.getLsbD j then X ^ j else 0 : (ZMod 2)[X]).coeff i =
      if j = i then (if v.getLsbD i then 1 else 0) else 0 := by
    intro j
    by_cases hj : j = i
    · subst hj; cases v.getLsbD j <;> simp
    · cases v.getLsbD j <;> simp [coeff_X_pow, hj, Ne.symm hj]
  simp only [bitsPoly, finsetSum_coeff, hterm, Finset.sum_ite_eq', Finset.mem_range]
  by_cases hi : i < w
  · simp [hi]
  · simp [hi, BitVec.getLsbD_of_ge v i (by omega)]

theorem bitsPoly_injective : Function.Injective (bitsPoly : BitVec w → (ZMod 2)[X]) := by
  intro a b h
  apply BitVec.eq_of_getLsbD_eq
  intro i _
  have hi := congrArg (Polynomial.coeff · i) h
  simp only [coeff_bitsPoly] at hi
  cases ha : a.getLsbD i <;> cases hb : b.getLsbD i <;> simp_all

theorem bitsPoly_xor (a b : BitVec w) : bitsPoly (a ^^^ b) = bitsPoly a + bitsPoly b := by
  ext i
  simp only [coeff_add, coeff_bitsPoly, BitVec.getLsbD_xor]
  cases a.getLsbD i <;> cases b.getLsbD i <;> decide

theorem degree_bitsPoly_lt (v : BitVec w) : (bitsPoly v).degree < w := by
  rw [degree_lt_iff_coeff_zero]
  intro i hi
  simp [coeff_bitsPoly, BitVec.getLsbD_of_ge v i hi]

/-- Times a power of x: a shift, and above it what the shift pushes out at the top. -/
theorem bitsPoly_mul_X_pow (v : BitVec w) (n : Nat) (hn : n ≤ w) :
    bitsPoly v * X ^ n = bitsPoly (v <<< n) + bitsPoly (v >>> (w - n)) * X ^ w := by
  ext i
  rw [coeff_add, coeff_mul_X_pow', coeff_mul_X_pow', coeff_bitsPoly, coeff_bitsPoly,
    coeff_bitsPoly, BitVec.getLsbD_shiftLeft, BitVec.getLsbD_ushiftRight]
  by_cases hi : i < w
  · by_cases hl : n ≤ i
    · simp [hi, hl, Nat.not_lt.mpr hl, Nat.not_le.mpr hi]
    · simp [hl, Nat.lt_of_not_le hl, Nat.not_le.mpr hi]
  · have hat : w - n + (i - w) = i - n := by omega
    simp [hi, hat, Nat.le_of_not_lt hi, hn.trans (Nat.le_of_not_lt hi)]

theorem bitsPoly_setWidth (v : BitVec w) {w' : Nat} (h : w ≤ w') :
    bitsPoly (v.setWidth w') = bitsPoly v := by
  ext i
  rw [coeff_bitsPoly, coeff_bitsPoly, BitVec.getLsbD_setWidth]
  by_cases hi : i < w'
  · simp [hi]
  · simp [hi, BitVec.getLsbD_of_ge v i (by omega)]

@[simp] theorem bitsPoly_zero : bitsPoly 0#w = 0 := by
  ext i
  simp [coeff_bitsPoly]

@[simp] theorem bitsPoly_one : bitsPoly 1#(w + 1) = 1 := by
  ext i
  cases i <;> simp [coeff_bitsPoly, coeff_one]

end Bits

section Residues

variable {w : Nat}

/-- Polynomials modulo the generator. -/
abbrev Residue : Type := AdjoinRoot generator

/-- The class of x. -/
noncomputable def Residue.x : Residue := AdjoinRoot.mk generator X

/-- The class of the polynomial of a word or byte. -/
noncomputable def residue (v : BitVec w) : Residue := AdjoinRoot.mk generator (bitsPoly v)

theorem degree_generator : generator.degree = 16 := by
  unfold generator
  compute_degree!

theorem monic_generator : generator.Monic := by
  unfold generator
  monicity!

theorem residue_zero : residue 0#w = 0 := by
  rw [residue, bitsPoly_zero, map_zero]

theorem residue_xor (a b : BitVec w) : residue (a ^^^ b) = residue a + residue b := by
  rw [residue, bitsPoly_xor, map_add]
  rfl

theorem residue_setWidth (v : BitVec w) {w' : Nat} (h : w ≤ w') :
    residue (v.setWidth w') = residue v := by
  rw [residue, bitsPoly_setWidth v h]
  rfl

theorem residue_mul_x_pow (v : BitVec w) (n : Nat) (hn : n ≤ w) :
    residue v * Residue.x ^ n = residue (v <<< n) + residue (v >>> (w - n)) * Residue.x ^ w := by
  have h := congrArg (AdjoinRoot.mk generator) (bitsPoly_mul_X_pow v n hn)
  simpa only [map_mul, map_add, map_pow, residue, Residue.x] using h

/-- A word has a lower degree than the generator, so its class determines it. -/
theorem residue_injective : Function.Injective (residue : BitVec 16 → Residue) := by
  intro a b h
  apply bitsPoly_injective
  by_contra hne
  have hlt : (bitsPoly a - bitsPoly b).degree < generator.degree := by
    rw [degree_generator]
    exact (degree_sub_le _ _).trans_lt (max_lt (degree_bitsPoly_lt _) (degree_bitsPoly_lt _))
  exact monic_generator.not_dvd_of_degree_lt (sub_ne_zero.mpr hne) hlt (AdjoinRoot.mk_eq_mk.mp h)

/-- What the bitwise check subtracts is the generator without its leading term. -/
theorem residue_subtrahend : residue (0x1021 : UInt16).toBitVec = Residue.x ^ 16 := by
  have hlow : bitsPoly (0x1021 : UInt16).toBitVec = X ^ 12 + X ^ 5 + 1 := by
    simp only [bitsPoly, Finset.sum_range_succ, Finset.range_zero, Finset.sum_empty]
    simp
    ring
  have htwo : (2 : (ZMod 2)[X]) = 0 := by
    rw [← C_ofNat, show (OfNat.ofNat 2 : ZMod 2) = 0 by decide, C_0]
  rw [residue, hlow, Residue.x, ← map_pow, AdjoinRoot.mk_eq_mk]
  refine ⟨1, ?_⟩
  rw [generator]
  linear_combination (-X ^ 16) * htwo

end Residues

section Steps

/-- The bit a step shifts out is the one the mask reads. -/
theorem shiftRight_fifteen (c : UInt16) : c >>> 15 = if c &&& 0x8000 = 0 then 0 else 1 := by
  have hshift : (c >>> 15).toNat = c.toNat / 2 ^ 15 := by
    rw [UInt16.toNat_shiftRight, Nat.shiftRight_eq_div_pow]
    rfl
  have hmask : (c &&& 0x8000).toNat = (c.toNat.testBit 15).toNat * 2 ^ 15 := by
    rw [UInt16.toNat_and]
    exact Nat.and_two_pow _ 15
  have hlt : c.toNat < 2 ^ 16 := c.toNat_lt
  rw [Nat.testBit_eq_decide_div_mod_eq] at hmask
  by_cases hbit : c.toNat / 2 ^ 15 % 2 = 1
  · rw [decide_eq_true hbit] at hmask
    have hc : c &&& 0x8000 ≠ 0 := by
      intro h
      rw [h] at hmask
      exact absurd hmask (by decide)
    rw [if_neg hc, ← UInt16.toNat_inj, hshift, UInt16.toNat_one]
    omega
  · rw [decide_eq_false hbit] at hmask
    have hc : c &&& 0x8000 = 0 := by
      rw [← UInt16.toNat_inj, hmask]
      rfl
    rw [if_pos hc, ← UInt16.toNat_inj, hshift, UInt16.toNat_zero]
    omega

/-- One bit of the bitwise check multiplies by x. -/
theorem residue_crcBit (c : UInt16) :
    residue (crcBit c).toBitVec = residue c.toBitVec * Residue.x := by
  have hmul : residue c.toBitVec * Residue.x =
      residue (c <<< 1).toBitVec + residue (c >>> 15).toBitVec * Residue.x ^ 16 := by
    rw [← pow_one Residue.x, residue_mul_x_pow c.toBitVec 1 (by decide), pow_one]
    rfl
  rw [hmul, shiftRight_fifteen, crcBit]
  by_cases hc : c &&& 0x8000 = 0
  · rw [if_pos hc, if_pos hc, UInt16.toBitVec_zero, residue_zero, zero_mul, add_zero]
  · have hone : residue 1#16 = 1 := by
      rw [residue, bitsPoly_one, map_one]
    rw [if_neg hc, if_neg hc, UInt16.toBitVec_xor, residue_xor, residue_subtrahend,
      UInt16.toBitVec_one, hone, one_mul]

theorem residue_repeat_crcBit (n : Nat) (c : UInt16) :
    residue (Nat.repeat crcBit n c).toBitVec = residue c.toBitVec * Residue.x ^ n := by
  induction n with
  | zero => simp [Nat.repeat]
  | succ n ih => rw [Nat.repeat, residue_crcBit, ih, pow_succ, mul_assoc]

/-- A byte of the bitwise check: the byte joins at the top, and all moves up by eight places. -/
theorem residue_crcByteBits (c : UInt16) (b : UInt8) : residue (crcByteBits c b).toBitVec =
    residue c.toBitVec * Residue.x ^ 8 + residue b.toBitVec * Residue.x ^ 16 := by
  have hbyte : residue (b.toUInt16 <<< 8).toBitVec = residue b.toBitVec * Residue.x ^ 8 := by
    have hwide : residue b.toUInt16.toBitVec = residue b.toBitVec :=
      residue_setWidth b.toBitVec (by decide)
    have hhigh : b.toUInt16 >>> 8 = 0 := by
      have hlt : b.toNat < 2 ^ 8 := b.toNat_lt
      rw [← UInt16.toNat_inj, UInt16.toNat_shiftRight, UInt8.toNat_toUInt16,
        Nat.shiftRight_eq_div_pow]
      exact Nat.div_eq_of_lt hlt
    have hmul : residue b.toUInt16.toBitVec * Residue.x ^ 8 =
        residue (b.toUInt16 <<< 8).toBitVec + residue (b.toUInt16 >>> 8).toBitVec * Residue.x ^ 16 :=
      residue_mul_x_pow b.toUInt16.toBitVec 8 (by decide)
    rw [← hwide, hmul, hhigh, UInt16.toBitVec_zero, residue_zero, zero_mul, add_zero]
  rw [crcByteBits, residue_repeat_crcBit, UInt16.toBitVec_xor, residue_xor, hbyte]
  ring

/-- Each entry of the table is the bitwise check of its own index. -/
theorem crcTable_entry (b : UInt8) : crcTable.getD b.toNat 0 = crcByteBits 0 b := by
  have hentry : ∀ i : Fin 256, crcTable.getD i 0 = crcByteBits 0 (UInt8.ofNat i) := by
    decide +kernel
  have hb := hentry ⟨b.toNat, b.toNat_lt⟩
  rwa [UInt8.ofNat_toNat] at hb

/-- A byte by the table comes to what it comes to bit by bit. -/
theorem residue_crcByte (c : UInt16) (b : UInt8) : residue (crcByte c b).toBitVec =
    residue c.toBitVec * Residue.x ^ 8 + residue b.toBitVec * Residue.x ^ 16 := by
  obtain ⟨high, hhigh⟩ : ∃ high : UInt8, high.toUInt16 = c >>> 8 := by
    refine ⟨(c >>> 8).toUInt8, ?_⟩
    have hlt : c.toNat < 2 ^ 16 := c.toNat_lt
    rw [← UInt16.toNat_inj, UInt8.toNat_toUInt16, UInt16.toNat_toUInt8, UInt16.toNat_shiftRight,
      Nat.shiftRight_eq_div_pow]
    exact Nat.mod_eq_of_lt (by simp; omega)
  have hindex : ((c >>> 8) ^^^ b.toUInt16).toNat = (high ^^^ b).toNat := by
    rw [← hhigh, UInt16.toNat_xor, UInt8.toNat_toUInt16, UInt8.toNat_toUInt16, UInt8.toNat_xor]
  have hmul : residue c.toBitVec * Residue.x ^ 8 =
      residue (c <<< 8).toBitVec + residue high.toBitVec * Residue.x ^ 16 := by
    have h : residue c.toBitVec * Residue.x ^ 8 =
        residue (c <<< 8).toBitVec + residue (c >>> 8).toBitVec * Residue.x ^ 16 :=
      residue_mul_x_pow c.toBitVec 8 (by decide)
    rwa [← hhigh, UInt8.toBitVec_toUInt16, residue_setWidth high.toBitVec (by decide)] at h
  rw [crcByte, hindex, crcTable_entry, UInt16.toBitVec_xor, residue_xor, residue_crcByteBits,
    UInt16.toBitVec_zero, residue_zero, UInt8.toBitVec_xor, residue_xor, hmul]
  ring

theorem crcByte_eq_bits : crcByte = crcByteBits := by
  funext c b
  apply UInt16.toBitVec_inj.mp
  apply residue_injective
  rw [residue_crcByte, residue_crcByteBits]

end Steps

section Messages

theorem messagePoly_concat (bs : Bytes) (b : UInt8) :
    messagePoly (bs ++ [b]) = messagePoly bs * X ^ 8 + bitsPoly b.toBitVec := by
  rw [messagePoly, List.foldl_append]
  rfl

/-- A message takes the check from `c` to `c` with its zeros behind it, plus the message with a word
of zeros behind it. -/
theorem residue_foldl_crcByte (c : UInt16) (bs : Bytes) :
    residue (bs.foldl crcByte c).toBitVec =
      AdjoinRoot.mk generator (bitsPoly c.toBitVec * X ^ (8 * bs.length) + messagePoly bs * X ^ 16) := by
  induction bs using List.reverseRecOn with
  | nil => simp [messagePoly, residue]
  | append_singleton bs b ih =>
    have hlast : (bs ++ [b]).foldl crcByte c = crcByte (bs.foldl crcByte c) b := by
      rw [List.foldl_append]
      rfl
    rw [hlast, residue_crcByte, ih, messagePoly_concat, List.length_append, List.length_singleton]
    simp only [map_add, map_mul, map_pow, Residue.x, residue]
    ring

/-- A word in the class of a polynomial is the remainder of that polynomial. -/
theorem bitsPoly_eq_modByMonic {c : UInt16} {p : (ZMod 2)[X]}
    (h : residue c.toBitVec = AdjoinRoot.mk generator p) : bitsPoly c.toBitVec = p %ₘ generator := by
  have hself : bitsPoly c.toBitVec %ₘ generator = bitsPoly c.toBitVec := by
    rw [modByMonic_eq_self_iff monic_generator, degree_generator]
    exact degree_bitsPoly_lt _
  rw [← hself]
  exact modByMonic_eq_of_dvd_sub monic_generator (AdjoinRoot.mk_eq_mk.mp h)

/-- The check read from the table is the bitwise one, which is the remainder of the message with a word
of zeros behind it. It goes on from where a first part has left it, and nothing else of that part
counts. -/
theorem crc16_exact (bs more : Bytes) :
    crc16 bs = crcBits bs ∧
    bitsPoly (crc16 bs).toBitVec = (messagePoly bs * X ^ 16) %ₘ generator ∧
    crc16 (bs ++ more) = more.foldl crcByte (crc16 bs) ∧
    bitsPoly (crc16 (bs ++ more)).toBitVec =
      (bitsPoly (crc16 bs).toBitVec * X ^ (8 * more.length) + messagePoly more * X ^ 16) %ₘ
        generator := by
  have hmore : crc16 (bs ++ more) = more.foldl crcByte (crc16 bs) := List.foldl_append
  refine ⟨?_, ?_, hmore, ?_⟩
  · rw [crc16, crcBits, crcByte_eq_bits]
  · apply bitsPoly_eq_modByMonic
    rw [crc16, residue_foldl_crcByte, UInt16.toBitVec_zero, bitsPoly_zero, zero_mul, zero_add]
  · rw [hmore]
    exact bitsPoly_eq_modByMonic (residue_foldl_crcByte _ _)

/-- The check value of the published description. -/
example : crcBits "123456789".toUTF8.toList = 0x31c3 := by decide +kernel

end Messages

end RespClient.Cluster
