import Mathlib.Data.Int.Log
import TradingAgent.Lib.HalfEven

/-!
# Rounding to significant digits

A decimal context of precision `p` rounds every result to `p` significant digits, ties to even
(`roundDigits`). A value that has at most `p` significant digits is not changed (`roundDigits_eq_self`).
-/

/-- The value is an integer of at most `p` digits times a power of ten. -/
def FitsDigits (p : ℕ) (x : ℚ) : Prop := ∃ n e : ℤ, |n| < 10 ^ p ∧ x = n * (10 : ℚ) ^ e

/-- The exponent of the last of the `p` digits that are kept. -/
def digitExponent (p : ℕ) (x : ℚ) : ℤ := Int.log 10 |x| + 1 - p

/-- Round to `p` significant digits, ties to even. -/
def roundDigits (p : ℕ) (x : ℚ) : ℚ :=
  halfEven (x / (10 : ℚ) ^ digitExponent p x) * (10 : ℚ) ^ digitExponent p x

@[simp] theorem roundDigits_zero (p : ℕ) : roundDigits p 0 = 0 := by
  simp [roundDigits]

variable {p : ℕ}

theorem FitsDigits.neg {x : ℚ} (h : FitsDigits p x) : FitsDigits p (-x) := by
  obtain ⟨n, e, hn, rfl⟩ := h
  exact ⟨-n, e, by rwa [abs_neg], by push_cast; ring⟩

theorem digitExponent_le {n e : ℤ} (hn : |n| < 10 ^ p) (h0 : n ≠ 0) : digitExponent p (n * (10 : ℚ) ^ e) ≤ e := by
  have h10 : (0 : ℚ) < (10 : ℚ) ^ e := zpow_pos (by norm_num) e
  have habs : |(n : ℚ) * (10 : ℚ) ^ e| = |(n : ℚ)| * (10 : ℚ) ^ e := by
    rw [abs_mul, abs_of_pos h10]
  have hpos : 0 < |(n : ℚ) * (10 : ℚ) ^ e| := by
    rw [habs]
    have : (n : ℚ) ≠ 0 := by exact_mod_cast h0
    positivity
  have hlt : |(n : ℚ) * (10 : ℚ) ^ e| < ((10 : ℕ) : ℚ) ^ ((p : ℤ) + e) := by
    rw [habs, zpow_add₀ (by norm_num), zpow_natCast]
    apply mul_lt_mul_of_pos_right _ h10
    exact_mod_cast hn
  have hlog : Int.log 10 |(n : ℚ) * (10 : ℚ) ^ e| < (p : ℤ) + e :=
    (Int.lt_zpow_iff_log_lt (by norm_num) hpos).1 hlt
  unfold digitExponent
  omega

theorem roundDigits_eq_self {x : ℚ} (h : FitsDigits p x) : roundDigits p x = x := by
  obtain ⟨n, e, hn, rfl⟩ := h
  by_cases h0 : n = 0
  · simp [h0]
  have hle := digitExponent_le (e := e) hn h0
  obtain ⟨k, hk⟩ := Int.le.dest hle
  have h10 : (10 : ℚ) ≠ 0 := by norm_num
  have hint : (n : ℚ) * (10 : ℚ) ^ e / (10 : ℚ) ^ digitExponent p (n * (10 : ℚ) ^ e) = ((n * 10 ^ k : ℤ) : ℚ) := by
    rw [div_eq_iff (zpow_ne_zero _ h10)]
    push_cast
    rw [mul_assoc, ← zpow_natCast, ← zpow_add₀ h10]
    congr 2
    omega
  unfold roundDigits
  rw [hint, halfEven_intCast, ← hint]
  exact div_mul_cancel₀ _ (zpow_ne_zero _ h10)
