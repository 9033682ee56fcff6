import Mathlib.Algebra.Order.Ring.Nat
import Mathlib.Tactic.Ring
import RespClient.Settings

namespace RespClient.Backoff

theorem factor_toNat (n : UInt32) : (factor n).toNat = min (2 ^ n.toNat) (2 ^ 64 - 1) := by
  unfold factor
  split
  next h =>
    have hn : n.toNat < 64 := h
    have hp : 2 ^ n.toNat ≤ 2 ^ 63 := Nat.pow_le_pow_right (by decide) (by omega)
    have : (1 <<< n.toUInt64 : UInt64).toNat = 2 ^ n.toNat := by
      rw [UInt64.toNat_shiftLeft, UInt32.toNat_toUInt64, Nat.mod_eq_of_lt hn, Nat.shiftLeft_eq]
      simp only [UInt64.toNat_one, one_mul]
      exact Nat.mod_eq_of_lt (by omega)
    rw [this]
    omega
  next h =>
    have hn : 64 ≤ n.toNat := Nat.le_of_not_lt h
    have hp : 2 ^ 64 ≤ 2 ^ n.toNat := Nat.pow_le_pow_right (by decide) hn
    change 2 ^ 64 - 1 = _
    omega

theorem saturatingMul_toNat (a b : UInt64) :
    (saturatingMul a b).toNat = min (a.toNat * b.toNat) (2 ^ 64 - 1) := by
  unfold saturatingMul
  split
  next h =>
    rw [UInt64.toNat_mul, Nat.mod_eq_of_lt (by omega)]
    omega
  next h =>
    change 2 ^ 64 - 1 = _
    omega

/-- The base doubles with each attempt up to the maximum. -/
theorem delay_toNat (b : Backoff) (n : UInt32) :
    (b.delay n).toNat = min (b.baseMs.toNat * 2 ^ n.toNat) b.maxMs.toNat := by
  have hmax : b.maxMs.toNat ≤ 2 ^ 64 - 1 := Nat.le_pred_of_lt b.maxMs.toNat_lt
  -- The product of the saturated words is cut off above the maximum only.
  have hd : min (saturatingMul b.baseMs (factor n)).toNat b.maxMs.toNat =
      min (b.baseMs.toNat * 2 ^ n.toNat) b.maxMs.toNat := by
    rw [saturatingMul_toNat, factor_toNat]
    rcases Nat.eq_zero_or_pos b.baseMs.toNat with h0 | h0
    · simp [h0]
    · rcases Nat.le_total (2 ^ n.toNat) (2 ^ 64 - 1) with hn | hn
      · rw [Nat.min_eq_left hn]
        omega
      · rw [Nat.min_eq_right hn]
        have h1 : 2 ^ 64 - 1 ≤ b.baseMs.toNat * (2 ^ 64 - 1) := Nat.le_mul_of_pos_left _ h0
        have h2 : 2 ^ n.toNat ≤ b.baseMs.toNat * 2 ^ n.toNat := Nat.le_mul_of_pos_left _ h0
        omega
  rw [← hd]
  unfold delay
  simp only
  split
  next h => exact (Nat.min_eq_left h).symm
  next h => exact (Nat.min_eq_right (Nat.le_of_not_le h)).symm

theorem delay_mono (b : Backoff) {m n : UInt32} (h : m ≤ n) : b.delay m ≤ b.delay n := by
  have hpow : 2 ^ m.toNat ≤ 2 ^ n.toNat :=
    Nat.pow_le_pow_right (by decide) (UInt32.le_iff_toNat_le.mp h)
  have hproduct : b.baseMs.toNat * 2 ^ m.toNat ≤ b.baseMs.toNat * 2 ^ n.toNat :=
    Nat.mul_le_mul_left _ hpow
  rw [UInt64.le_iff_toNat_le, delay_toNat, delay_toNat]
  omega

theorem delay_le_max (b : Backoff) (n : UInt32) : b.delay n ≤ b.maxMs := by
  rw [UInt64.le_iff_toNat_le, delay_toNat]
  exact Nat.min_le_right _ _

theorem delay_eq_zero {b : Backoff} (h : b.baseMs = 0) (n : UInt32) : b.delay n = 0 := by
  rw [← UInt64.toNat_inj, delay_toNat, h]
  simp

/-- A delay is the base times the power of two, or the maximum if that is less, without bounds on the
numbers in between: a power or a product that has no room in a word is replaced by the largest word, and
never by a remainder. Delays do not shrink from one attempt to a later one, and a base of zero stays
zero. -/
theorem delay_exact (b : Backoff) :
    (∀ n, (b.delay n).toNat = min (b.baseMs.toNat * 2 ^ n.toNat) b.maxMs.toNat) ∧
    (∀ n, (factor n).toNat = min (2 ^ n.toNat) (2 ^ 64 - 1)) ∧
    (∀ n, (saturatingMul b.baseMs (factor n)).toNat =
      min (b.baseMs.toNat * (factor n).toNat) (2 ^ 64 - 1)) ∧
    (∀ m n, m ≤ n → b.delay m ≤ b.delay n) ∧
    (∀ n, b.delay n ≤ b.maxMs) ∧
    (b.baseMs = 0 → ∀ n, b.delay n = 0) := by
  refine ⟨b.delay_toNat, factor_toNat, ?_, ?_, b.delay_le_max, delay_eq_zero⟩
  · intro n
    exact saturatingMul_toNat b.baseMs (factor n)
  · intro m n h
    exact b.delay_mono h

/-- At attempt 63 the power is the last one with room in a word, and three times it has none. -/
theorem delay_exact_last :
    let b : Backoff := ⟨3, 0xFFFFFFFFFFFFFFFF⟩
    (b.delay 62).toNat = 3 * 2 ^ 62 ∧ (b.delay 63).toNat = 2 ^ 64 - 1 ∧ b.delay 63 ≤ b.delay 64 ∧
      Backoff.delay ⟨0, 5⟩ 64 = 0 := by
  intro b
  obtain ⟨exact, -, -, mono, -, -⟩ := delay_exact b
  obtain ⟨-, -, -, -, -, zero⟩ := delay_exact ⟨0, 5⟩
  refine ⟨?_, ?_, mono 63 64 (by decide), zero rfl 64⟩
  · rw [exact]
    decide
  · rw [exact]
    decide

end RespClient.Backoff
