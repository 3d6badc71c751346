import TradingAgent.Lib.Limits
import TradingAgent.Domain.Primitives
import Mathlib.Algebra.Order.Field.Basic
import Mathlib.Data.Nat.Digits.Lemmas

/-!
# Digits that Python converts

`int` and `str` refuse to convert an integer of more than so many digits. A `Decimal` is taken in its canonical
spelling, so that its coefficient is the value over the least power of ten that makes it whole.
-/

namespace TradingAgent

open Outcome

/-- The most digits that Python converts between an integer and its text, unless told otherwise. -/
def intMaxStrDigits : ℕ := 4300

/-- `sys.int_info.str_digits_check_threshold` -/
def strDigitsCheckThreshold : ℕ := 640

/-- What `sys.set_int_max_str_digits` has set: `0` lifts the limit, and one below the threshold is refused. -/
class DigitLimit where
  digits : ℕ
  valid : digits = 0 ∨ strDigitsCheckThreshold ≤ digits

namespace DigitLimit

/-- No limit; in force wherever none is named. -/
instance (priority := low) lifted : DigitLimit := ⟨0, .inl rfl⟩

abbrev standard : DigitLimit := ⟨intMaxStrDigits, .inr (by decide)⟩

/-- Integers of so many digits are converted. -/
def Covers (limit : DigitLimit) (count : ℕ) : Prop := limit.digits = 0 ∨ count ≤ limit.digits

instance : Limit DigitLimit where
  Covers := Covers
  lifted := lifted
  covers_zero _ := .inr (Nat.zero_le _)
  covers_lifted _ := .inl rfl
  covers_max l m n := by
    unfold Covers
    rw [max_le_iff]
    tauto

end DigitLimit

/-! ## Integers -/

/-- `str` writes the integer; no limit is spelled 0. -/
def Converts [limit : DigitLimit] (n : ℤ) : Prop := limit.digits = 0 ∨ n.natAbs < 10 ^ limit.digits

instance [limit : DigitLimit] (n : ℤ) : Decidable (Converts n) := inferInstanceAs (Decidable (_ ∨ _))

/-- The error of `str` on a longer integer. -/
def digitsExceeded [limit : DigitLimit] : Failure :=
  .valueError ("Exceeds the limit (" ++ toString limit.digits ++ " digits) for integer string conversion; " ++
    "use sys.set_int_max_str_digits() to increase the limit")

/-- The error of `int` on a longer text. -/
def digitsUnread [limit : DigitLimit] (n : ℤ) : Failure :=
  .valueError ("Exceeds the limit (" ++ toString limit.digits ++ " digits) for integer string conversion: value has " ++
    toString (toString n.natAbs).length ++ " digits; use sys.set_int_max_str_digits() to increase the limit")

theorem converts_lifted (n : ℤ) : @Converts .lifted n := .inl rfl

theorem converts_iff_covers (limit : DigitLimit) (n : ℤ) :
    @Converts limit n ↔ limit.Covers (Nat.digits 10 n.natAbs).length := by
  unfold Converts DigitLimit.Covers
  rw [Nat.digits_length_le_iff (by decide)]

theorem metered_converts (n : ℤ) (e : DigitLimit → Failure) :
    Metered fun limit : DigitLimit => require (Converts n) (e limit) :=
  ⟨fun _ _ => ⟨_, takes_require.congr fun limit => converts_iff_covers limit n⟩,
    fun _ _ _ => require_of _ (converts_lifted n)⟩

variable [limit : DigitLimit]

theorem Converts.of_le {m n : ℤ} (h : Converts n) (hle : m.natAbs ≤ n.natAbs) : Converts m :=
  h.imp id hle.trans_lt

theorem converts_of_lt {n : ℤ} (h : n.natAbs < 10 ^ strDigitsCheckThreshold) : Converts n :=
  limit.valid.imp id fun hle => h.trans_le (Nat.pow_le_pow_right (by decide) hle)

/-! ## Amounts -/

/-- The value over the least power of ten that makes it whole. -/
def exactCoefficient (value : ℚ) : ℤ :=
  let twos := stripFactor 2 value.den value.den
  let fives := stripFactor 5 twos.1 twos.1
  let scale := max twos.2 fives.2
  value.num * 2 ^ (scale - twos.2) * 5 ^ (scale - fives.2)

/-- The digits of the amount are converted. -/
def Written (value : ℚ) : Prop := Converts (exactCoefficient value)

instance (value : ℚ) : Decidable (Written value) := inferInstanceAs (Decidable (Converts _))

omit limit in
theorem exactCoefficient_spec (d : Decimal) :
    ∃ k, (d : ℚ) = exactCoefficient d / 10 ^ k ∧ ∀ j, AtScale j d → k ≤ j := by
  have h := exactDecimal?_coe d
  unfold exactDecimal? at h
  simp only at h
  split_ifs at h
  exact ⟨_, (congrArg Subtype.val (Option.some.inj h)).symm, fun _ hj => scale_le_of_atScale hj⟩

omit limit in
/-- No integer over a power of ten that makes up the amount is smaller than its coefficient. -/
theorem natAbs_exactCoefficient_le {d : Decimal} {n : ℤ} {j : ℕ} (h : (d : ℚ) = n / 10 ^ j) :
    (exactCoefficient d).natAbs ≤ n.natAbs := by
  obtain ⟨k, heq, hleast⟩ := exactCoefficient_spec d
  obtain ⟨i, rfl⟩ := Nat.exists_eq_add_of_le (hleast j (atScale_iff.2 ⟨n, h⟩))
  have hn : (n : ℚ) = (exactCoefficient d * 10 ^ i : ℤ) := by
    have hsame := heq.symm.trans h
    rw [div_eq_div_iff (by positivity) (by positivity), pow_add] at hsame
    push_cast
    have hk : (10 : ℚ) ^ k ≠ 0 := by positivity
    refine mul_right_cancel₀ hk ?_
    rw [← hsame]
    ring
  rw [Int.cast_inj.1 hn, Int.natAbs_mul]
  exact Nat.le_mul_of_pos_right _ (by positivity)

/-- The amount is written if some integer over a power of ten that makes it up can be. -/
theorem written_iff {d : Decimal} : Written d ↔ ∃ (n : ℤ) (k : ℕ), (d : ℚ) = n / 10 ^ k ∧ Converts n := by
  constructor
  · intro h
    obtain ⟨k, heq, -⟩ := exactCoefficient_spec d
    exact ⟨_, k, heq, h⟩
  · rintro ⟨n, k, heq, hn⟩
    exact hn.of_le (natAbs_exactCoefficient_le heq)

@[simp] theorem written_zero : Written ((0 : Decimal) : ℚ) :=
  written_iff.2 ⟨0, 0, by simp, converts_of_lt (by positivity)⟩

theorem Written.neg {d : Decimal} (h : Written d) : Written ((-d : Decimal) : ℚ) := by
  obtain ⟨n, k, heq, hn⟩ := written_iff.1 h
  exact written_iff.2 ⟨-n, k, by push_cast; rw [heq]; ring, hn.of_le (Int.natAbs_neg n).le⟩

theorem written_of_scaled {d : Decimal} {p : ℕ} (hp : AtScale p d)
    (h : |(d : ℚ)| * 10 ^ p < 10 ^ strDigitsCheckThreshold) : Written d := by
  obtain ⟨n, heq⟩ := atScale_iff.1 hp
  refine written_iff.2 ⟨n, p, heq, converts_of_lt ?_⟩
  rw [heq, abs_div, abs_of_pos (by positivity : (0 : ℚ) < 10 ^ p), div_mul_cancel₀ _ (by positivity), ← Int.cast_abs,
    ← Nat.cast_natAbs] at h
  exact_mod_cast h

end TradingAgent
