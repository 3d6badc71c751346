import TradingAgent.Domain.CanonicalDecimal
import TradingAgent.Domain.DigitLimits
import TradingAgent.Lib.HalfEven

/-! Decimals as digits: grids, scaled integers and the fractions of a decimal are exact. -/

namespace TradingAgent.CanonicalDecimal

open DigitText Outcome

section Digits

variable {c r k : ℕ}

/-- The digits of `as_tuple`: without leading zeros, and one zero for zero. -/
def DecimalTuple.digits (d : DecimalTuple) : List ℕ :=
  if d.coefficient = 0 then [0] else (Nat.digits 10 d.coefficient).reverse

/-- The coefficient that the loops over the digits compute. -/
def coefficientOf (digits : List ℕ) : ℕ := digits.foldl (fun coefficient digit => coefficient * 10 + digit) 0

theorem coefficientOf_reverse (digits : List ℕ) : coefficientOf digits.reverse = Nat.ofDigits 10 digits := by
  induction digits with
  | nil => rfl
  | cons digit digits ih =>
    rw [List.reverse_cons, coefficientOf, List.foldl_append, ← coefficientOf, ih, Nat.ofDigits_cons]
    simp [mul_comm, add_comm]

theorem coefficientOf_append_zeros (digits : List ℕ) :
    coefficientOf (digits ++ List.replicate k 0) = coefficientOf digits * 10 ^ k := by
  induction k with
  | zero => simp
  | succ k ih =>
    rw [List.replicate_succ', ← List.append_assoc, coefficientOf, List.foldl_append, ← coefficientOf, ih, pow_succ]
    simp [mul_assoc]

theorem length_digits (m : ℕ) (h : 10 ^ k * m ≠ 0) :
    (Nat.digits 10 (10 ^ k * m)).length = k + (Nat.digits 10 m).length := by
  rw [Nat.digits_base_pow_mul (by decide) (Nat.pos_of_ne_zero (right_ne_zero_of_mul h)), List.length_append,
    List.length_replicate]

theorem removed_digits_iff (hc : c ≠ 0) : (r ≤ (Nat.digits 10 c).length ∧
      ∀ digit ∈ (Nat.digits 10 c).reverse.drop ((Nat.digits 10 c).length - r), digit = 0) ↔ 10 ^ r ∣ c := by
  constructor
  · rintro ⟨hle, hzero⟩
    rw [Nat.dvd_iff_mod_eq_zero, Nat.self_mod_pow_eq_ofDigits_take _ _ (by decide)]
    rw [List.drop_reverse, Nat.sub_sub_self hle] at hzero
    rw [List.eq_replicate_of_mem fun digit h => hzero digit (List.mem_reverse.2 h), Nat.ofDigits_replicate_zero]
  · rintro ⟨m, rfl⟩
    have hle := (Nat.le_add_right r _).trans_eq (length_digits m hc).symm
    refine ⟨hle, fun digit h => ?_⟩
    rw [List.drop_reverse, Nat.sub_sub_self hle, List.mem_reverse,
      Nat.digits_base_pow_mul (by decide) (Nat.pos_of_ne_zero (right_ne_zero_of_mul hc)),
      List.take_left' List.length_replicate] at h
    exact List.eq_of_mem_replicate h

theorem coefficientOf_take (hc : 10 ^ r * c ≠ 0) :
    (Nat.digits 10 (10 ^ r * c)).reverse.take ((Nat.digits 10 (10 ^ r * c)).length - r) =
      (Nat.digits 10 c).reverse := by
  have hle := (Nat.le_add_right r _).trans_eq (length_digits c hc).symm
  rw [List.take_reverse, Nat.sub_sub_self hle,
    Nat.digits_base_pow_mul (by decide) (Nat.pos_of_ne_zero (right_ne_zero_of_mul hc)),
    List.drop_left' List.length_replicate]

end Digits

/-- The digits that `decimal_to_scaled_integer` keeps. -/
def retainedDigits (digits : List ℕ) (scaleDelta : ℤ) : Except String (List ℕ) := do
  if 0 ≤ scaleDelta then
    require (digits.length + scaleDelta ≤ maxQuantityCoefficientDigits)
      "scaled integer exceeds maximum supported magnitude"
    return digits
  let removed := (-scaleDelta).toNat
  require (removed ≤ digits.length ∧ ∀ digit ∈ digits.drop (digits.length - removed), digit = 0)
    "value cannot be represented exactly at precision"
  let retained := digits.take (digits.length - removed)
  require (retained.length ≤ maxQuantityCoefficientDigits) "scaled integer exceeds maximum supported magnitude"
  return retained

def decimalToScaledInteger (value : DecimalTuple) (precision : ℕ) : Except String ℤ := do
  require (precision ≤ maxFinancialPrecision) "precision must be an integer from 0 through 18"
  if value.coefficient = 0 then return 0
  let scaleDelta := value.exponent + precision
  let retained ← retainedDigits value.digits scaleDelta
  let scaled := coefficientOf retained * 10 ^ scaleDelta.toNat
  return if value.negative then -scaled else scaled

/-- The loop over the digits from the last one back to the second. -/
def trailingZeroCount (digits : List ℕ) : ℕ := ((digits.drop 1).reverse.takeWhile (· = 0)).length

def normalizeQuantity (value : DecimalTuple) (precision : ℕ) : Except String DecimalTuple := do
  require (precision ≤ maxFinancialPrecision) "precision must be an integer from 0 through 18"
  let targetExponent : ℤ := -precision
  if value.coefficient = 0 then return ⟨false, 0, targetExponent⟩
  let trailing := trailingZeroCount value.digits
  let digits := value.digits.take (value.digits.length - trailing)
  let exponent := value.exponent + trailing
  require (max 0 (-exponent) ≤ precision) "value has more fractional digits than precision"
  require (digits.length + (exponent - targetExponent) ≤ maxQuantityCoefficientDigits)
    "value exceeds maximum quantity magnitude"
  let canonicalDigits := digits ++ List.replicate (exponent - targetExponent).toNat 0
  return ⟨value.negative, coefficientOf canonicalDigits, targetExponent⟩

def isExactDecimalMultiple (value increment : DecimalTuple) : Except String Bool := do
  require (0 < increment.value) "increment must be positive"
  if value.coefficient = 0 then return true
  let exponentDelta := value.exponent - increment.exponent
  if exponentDelta < 0 then
    if value.coefficient % increment.coefficient ≠ 0 then return false
    let required := (-exponentDelta).toNat
    return (stripFactor 10 required (value.coefficient / increment.coefficient)).2 = required
  let denominator := increment.coefficient / Nat.gcd value.coefficient increment.coefficient
  let twos := stripFactor 2 exponentDelta.toNat denominator
  return (stripFactor 5 exponentDelta.toNat twos.1).1 = 1

variable {d : DecimalTuple} {p m : ℕ} {n : ℤ}

/-- The magnitude makes an integer of at most 128 digits at the precision. -/
def Scales (d : DecimalTuple) (p m : ℕ) : Prop :=
  d.magnitude * 10 ^ p = m ∧ m < 10 ^ maxQuantityCoefficientDigits

def signed (negative : Bool) (m : ℕ) : ℤ := if negative then -m else m

/-- The value makes the integer `n` at the precision, which has at most 128 digits. -/
def ScaledTo (x : ℚ) (p : ℕ) (n : ℤ) : Prop := x * 10 ^ p = n ∧ n.natAbs < 10 ^ maxQuantityCoefficientDigits

theorem value_eq_signed (d : DecimalTuple) (h : d.magnitude * 10 ^ p = m) : d.value * 10 ^ p = signed d.negative m := by
  unfold DecimalTuple.value signed
  split_ifs <;> push_cast <;> linarith

theorem magnitude_nonneg (d : DecimalTuple) : 0 ≤ d.magnitude :=
  mul_nonneg (Nat.cast_nonneg _) (zpow_nonneg (by norm_num) _)

theorem abs_value (d : DecimalTuple) : |d.value| = d.magnitude := by
  unfold DecimalTuple.value
  split_ifs
  · rw [abs_neg, abs_of_nonneg (magnitude_nonneg d)]
  · exact abs_of_nonneg (magnitude_nonneg d)

theorem scaledTo_iff : ScaledTo d.value p n ↔ ∃ m, Scales d p m ∧ n = signed d.negative m := by
  constructor
  · rintro ⟨heq, hlt⟩
    have habs : d.magnitude * 10 ^ p = n.natAbs := by
      rw [Nat.cast_natAbs, Int.cast_abs, ← heq, abs_mul, abs_value, abs_of_pos (by positivity : (0 : ℚ) < 10 ^ p)]
    exact ⟨n.natAbs, ⟨habs, hlt⟩, Int.cast_injective (heq.symm.trans (value_eq_signed d habs))⟩
  · rintro ⟨m, ⟨heq, hlt⟩, rfl⟩
    refine ⟨value_eq_signed d heq, ?_⟩
    unfold signed
    split_ifs <;> omega

theorem scales_of_nonneg {k : ℕ} (h : d.exponent + p = k) :
    Scales d p m ↔ m = d.coefficient * 10 ^ k ∧ m < 10 ^ maxQuantityCoefficientDigits := by
  have hpow : d.magnitude * 10 ^ p = (d.coefficient * 10 ^ k : ℕ) := by
    rw [DecimalTuple.magnitude, mul_assoc, ← zpow_natCast, ← zpow_add₀ (by norm_num), h, zpow_natCast]
    push_cast
    rfl
  rw [Scales, hpow, Nat.cast_inj, eq_comm]

theorem scales_of_neg {r : ℕ} (h : d.exponent + p = -r) :
    Scales d p m ↔ d.coefficient = 10 ^ r * m ∧ m < 10 ^ maxQuantityCoefficientDigits := by
  have hpow : d.magnitude * 10 ^ p = d.coefficient / 10 ^ r := by
    rw [DecimalTuple.magnitude, mul_assoc, ← zpow_natCast, ← zpow_add₀ (by norm_num), h, zpow_neg, zpow_natCast,
      div_eq_mul_inv]
  rw [Scales, hpow, div_eq_iff (by positivity), mul_comm (m : ℚ)]
  exact and_congr_left' (by exact_mod_cast Iff.rfl)

theorem digits_of_ne_zero (hc : d.coefficient ≠ 0) : d.digits = (Nat.digits 10 d.coefficient).reverse := if_neg hc

theorem length_le_iff (c : ℕ) {k : ℕ} : (Nat.digits 10 c).length ≤ k ↔ c < 10 ^ k :=
  Nat.digits_length_le_iff (by decide) c

theorem retainedDigits_ok_iff (hc : d.coefficient ≠ 0) :
    (∃ digits, retainedDigits d.digits (d.exponent + p) = .ok digits ∧
      coefficientOf digits * 10 ^ (d.exponent + p).toNat = m) ↔ Scales d p m := by
  rw [digits_of_ne_zero hc]
  rcases le_or_gt 0 (d.exponent + p) with hge | hlt
  · obtain ⟨k, hk⟩ := Int.eq_ofNat_of_zero_le hge
    have hlength : (Nat.digits 10 d.coefficient).length + k ≤ maxQuantityCoefficientDigits ↔
        10 ^ k * d.coefficient < 10 ^ maxQuantityCoefficientDigits := by
      rw [← length_le_iff, length_digits _ (by positivity), add_comm]
    rw [scales_of_nonneg hk, hk, Int.toNat_natCast, mul_comm d.coefficient]
    simp only [retainedDigits, Int.natCast_nonneg, if_true, bind_ok_iff, require_ok_iff, List.length_reverse,
      pure_eq_ok, Except.ok.injEq]
    norm_cast
    rw [hlength]
    constructor
    · rintro ⟨_, ⟨_, hlt, rfl⟩, rfl⟩
      rw [coefficientOf_reverse, Nat.ofDigits_digits, mul_comm]
      exact ⟨rfl, hlt⟩
    · rintro ⟨rfl, hlt⟩
      refine ⟨_, ⟨(), hlt, rfl⟩, ?_⟩
      rw [coefficientOf_reverse, Nat.ofDigits_digits, mul_comm]
  · obtain ⟨r, hr⟩ := Int.eq_ofNat_of_zero_le (neg_nonneg.2 hlt.le)
    have hzero : (d.exponent + p).toNat = 0 := Int.toNat_of_nonpos hlt.le
    rw [scales_of_neg (neg_eq_iff_eq_neg.1 hr), hzero, pow_zero]
    simp only [retainedDigits, if_neg (not_le.2 hlt), hr, Int.toNat_natCast, bind_ok_iff, require_ok_iff,
      List.length_reverse, removed_digits_iff hc, pure_eq_ok, Except.ok.injEq, mul_one]
    constructor
    · rintro ⟨_, ⟨_, ⟨c, hdvd⟩, _, hlength, rfl⟩, rfl⟩
      rw [hdvd] at hc hlength ⊢
      rw [coefficientOf_take hc] at hlength ⊢
      rw [List.length_reverse, length_le_iff] at hlength
      rw [coefficientOf_reverse, Nat.ofDigits_digits]
      exact ⟨rfl, hlength⟩
    · rintro ⟨hdvd, hlt⟩
      rw [hdvd] at hc ⊢
      rw [coefficientOf_take hc]
      refine ⟨_, ⟨(), Dvd.intro _ rfl, (), ?_, rfl⟩, ?_⟩
      · rwa [List.length_reverse, length_le_iff]
      · rw [coefficientOf_reverse, Nat.ofDigits_digits]

theorem scaledTo_zero (h : d.coefficient = 0) : ScaledTo d.value p n ↔ n = 0 := by
  have hvalue : d.value = 0 := by simp [DecimalTuple.value, DecimalTuple.magnitude, h]
  rw [ScaledTo, hvalue, zero_mul]
  constructor
  · rintro ⟨heq, -⟩
    exact_mod_cast heq.symm
  · rintro rfl
    exact ⟨by norm_num, by positivity⟩

theorem decimalToScaledInteger_ok_iff :
    decimalToScaledInteger d p = .ok n ↔ p ≤ maxFinancialPrecision ∧ ScaledTo d.value p n := by
  unfold decimalToScaledInteger
  by_cases hc : d.coefficient = 0
  · simp only [bind_ok_iff, require_ok_iff, if_pos hc, pure_eq_ok, Except.ok.injEq, scaledTo_zero hc, exists_const]
    exact and_congr_right' eq_comm
  · simp only [bind_ok_iff, require_ok_iff, if_neg hc, pure_eq_ok, Except.ok.injEq, scaledTo_iff,
      ← retainedDigits_ok_iff hc, exists_const]
    refine and_congr_right' ⟨?_, ?_⟩
    · rintro ⟨digits, hdigits, rfl⟩
      exact ⟨_, ⟨digits, hdigits, rfl⟩, by unfold signed; push_cast; rfl⟩
    · rintro ⟨_, ⟨digits, hdigits, rfl⟩, rfl⟩
      exact ⟨digits, hdigits, by unfold signed; push_cast; rfl⟩

/-! ## Normalisation -/

theorem takeWhile_zero (init : List ℕ) {last : ℕ} (h : last ≠ 0) : ∃ head rest, head ≠ 0 ∧
    init ++ [last] = List.replicate (init.takeWhile (· = 0)).length 0 ++ head :: rest := by
  induction init with
  | nil => exact ⟨last, [], h, rfl⟩
  | cons digit init ih =>
    obtain ⟨head, rest, hne, heq⟩ := ih
    by_cases hdigit : digit = 0
    · refine ⟨head, rest, hne, ?_⟩
      rw [List.takeWhile_cons_of_pos (by simp [hdigit]), List.length_cons, List.replicate_succ, List.cons_append, heq,
        hdigit]
      rfl
    · exact ⟨digit, init ++ [last], hdigit, by rw [List.takeWhile_cons_of_neg (by simp [hdigit])]; rfl⟩

theorem trailingZeroCount_spec {c : ℕ} (hc : c ≠ 0) :
    ∃ rest, c = 10 ^ trailingZeroCount (Nat.digits 10 c).reverse * rest ∧ ¬ 10 ∣ rest := by
  have hne : Nat.digits 10 c ≠ [] := Nat.digits_ne_nil_iff_ne_zero.2 hc
  have hcount : trailingZeroCount (Nat.digits 10 c).reverse =
      ((Nat.digits 10 c).dropLast.takeWhile (· = 0)).length := by
    rw [trailingZeroCount, List.drop_reverse, List.reverse_reverse, List.dropLast_eq_take]
  obtain ⟨head, rest, hhead, heq⟩ := takeWhile_zero (Nat.digits 10 c).dropLast (Nat.getLast_digit_ne_zero 10 hc)
  rw [List.dropLast_append_getLast hne, ← hcount] at heq
  have hlt : head < 10 := Nat.digits_lt_base (by decide) (m := c) (by rw [heq]; simp)
  refine ⟨Nat.ofDigits 10 (head :: rest), ?_, ?_⟩
  · conv_lhs => rw [← Nat.ofDigits_digits 10 c, heq, Nat.ofDigits_append, Nat.ofDigits_replicate_zero, zero_add,
      List.length_replicate]
  · rw [Nat.ofDigits_cons]
    omega

/-- The checks of the normalisation, on the digits without the trailing zeros. -/
theorem scales_stripped {zeros rest : ℕ} (hc : d.coefficient ≠ 0) (heq : d.coefficient = 10 ^ zeros * rest)
    (hrest : ¬ 10 ∣ rest) : Scales d p m ↔ max 0 (-(d.exponent + zeros)) ≤ p ∧
      (Nat.digits 10 rest).length + (d.exponent + zeros - -p) ≤ maxQuantityCoefficientDigits ∧
      rest * 10 ^ (d.exponent + zeros - -p).toNat = m := by
  have hne : rest ≠ 0 := right_ne_zero_of_mul (heq ▸ hc)
  have hsame : d.magnitude = DecimalTuple.magnitude ⟨d.negative, rest, d.exponent + zeros⟩ := by
    simp only [DecimalTuple.magnitude, heq]
    rw [zpow_add₀ (by norm_num), zpow_natCast]
    push_cast
    ring
  have hscales : Scales d p m ↔ Scales ⟨d.negative, rest, d.exponent + zeros⟩ p m := by rw [Scales, hsame, Scales]
  rw [hscales, sub_neg_eq_add]
  rcases le_or_gt 0 (d.exponent + zeros + p) with hge | hlt
  · obtain ⟨k, hk⟩ := Int.eq_ofNat_of_zero_le hge
    have hlength : (Nat.digits 10 rest).length + k ≤ maxQuantityCoefficientDigits ↔
        rest * 10 ^ k < 10 ^ maxQuantityCoefficientDigits := by
      rw [mul_comm, ← length_le_iff, length_digits _ (by positivity), add_comm]
    rw [scales_of_nonneg hk, hk, Int.toNat_natCast, and_iff_right (show max 0 (-(d.exponent + zeros)) ≤ (p : ℤ) by omega)]
    norm_cast
    rw [hlength]
    constructor
    · rintro ⟨rfl, hlt⟩
      exact ⟨hlt, rfl⟩
    · rintro ⟨hlt, rfl⟩
      exact ⟨rfl, hlt⟩
  · -- a digit after the precision is not zero
    obtain ⟨r, hr⟩ := Int.eq_succ_of_zero_lt (neg_pos.2 hlt)
    rw [scales_of_neg (r := r + 1) (by push_cast; omega)]
    constructor
    · rintro ⟨hlow, -⟩
      exact absurd (Dvd.intro (10 ^ r * m) (by rw [show rest = 10 ^ (r + 1) * m from hlow]; ring)) hrest
    · rintro ⟨hle, -⟩
      omega

theorem tuple_signed (negative : Bool) (h : m ≠ 0) (e : ℤ) :
    (⟨signed negative m < 0, (signed negative m).natAbs, e⟩ : DecimalTuple) = ⟨negative, m, e⟩ := by
  unfold signed
  cases negative <;> simp [Nat.pos_of_ne_zero h]

theorem normalizeQuantity_ok_iff {e : DecimalTuple} : normalizeQuantity d p = .ok e ↔
    p ≤ maxFinancialPrecision ∧ ∃ n, ScaledTo d.value p n ∧ e = ⟨n < 0, n.natAbs, -p⟩ := by
  unfold normalizeQuantity
  by_cases hc : d.coefficient = 0
  · simp only [bind_ok_iff, require_ok_iff, if_pos hc, pure_eq_ok, Except.ok.injEq, scaledTo_zero hc, exists_const]
    refine and_congr_right' ⟨fun h => ⟨0, rfl, h.symm⟩, ?_⟩
    rintro ⟨_, rfl, rfl⟩
    rfl
  · obtain ⟨rest, heq, hrest⟩ := trailingZeroCount_spec hc
    have hkept := coefficientOf_take (heq ▸ hc)
    rw [← heq] at hkept
    simp only [bind_ok_iff, require_ok_iff, if_neg hc, pure_eq_ok, Except.ok.injEq, digits_of_ne_zero hc,
      List.length_reverse, exists_const, hkept, scaledTo_iff, coefficientOf_append_zeros, coefficientOf_reverse,
      Nat.ofDigits_digits]
    refine and_congr_right' ?_
    have hne (k : ℕ) : rest * 10 ^ k ≠ 0 := mul_ne_zero (right_ne_zero_of_mul (heq ▸ hc)) (by positivity)
    constructor
    · rintro ⟨hscale, hlength, rfl⟩
      have hscales := (scales_stripped hc heq hrest).2 ⟨hscale, hlength, rfl⟩
      exact ⟨_, ⟨_, hscales, rfl⟩, (tuple_signed _ (hne _) _).symm⟩
    · rintro ⟨_, ⟨m, hscales, rfl⟩, rfl⟩
      obtain ⟨hscale, hlength, rfl⟩ := (scales_stripped hc heq hrest).1 hscales
      exact ⟨hscale, hlength, (tuple_signed _ (hne _) _).symm⟩

/-! ## Multiples of a grid -/

theorem stripFactor_snd_eq_iff {factor n k : ℕ} (hf : 0 < factor) (hn : n ≠ 0) :
    (stripFactor factor k n).2 = k ↔ factor ^ k ∣ n := by
  constructor
  · intro h
    conv_rhs => rw [stripFactor_eq factor k n, h]
    exact Dvd.intro _ rfl
  · intro h
    induction k generalizing n with
    | zero => rfl
    | succ k ih =>
      obtain ⟨m, rfl⟩ := h
      rw [pow_succ', mul_assoc] at hn ⊢
      rw [stripFactor, if_pos (Nat.mul_mod_right _ _), Nat.mul_div_cancel_left _ hf]
      exact congrArg (· + 1) (ih (right_ne_zero_of_mul hn) (Dvd.intro _ rfl))

/-- At most `k` prime factors are taken out, as many as the power has. -/
theorem dvd_pow_mul_iff {q n k m : ℕ} (hq : q.Prime) (hn : n ≠ 0) : n ∣ q ^ k * m ↔ (stripFactor q k n).1 ∣ m := by
  induction k generalizing n with
  | zero => simp [stripFactor]
  | succ k ih =>
    unfold stripFactor
    split_ifs with h
    · obtain ⟨n, rfl⟩ := Nat.dvd_of_mod_eq_zero h
      rw [pow_succ', mul_assoc, Nat.mul_dvd_mul_iff_left hq.pos, Nat.mul_div_cancel_left _ hq.pos]
      exact ih (right_ne_zero_of_mul hn)
    · have hcoprime : Nat.Coprime n (q ^ (k + 1)) :=
        ((Nat.Prime.coprime_iff_not_dvd hq).2 fun hdvd => h (Nat.mod_eq_zero_of_dvd hdvd)).symm.pow_right _
      exact hcoprime.dvd_mul_left

theorem grid_dvd_iff {c i j : ℕ} (hc : c ≠ 0) (hi : 0 < i) :
    (stripFactor 5 j (stripFactor 2 j (i / Nat.gcd c i)).1).1 = 1 ↔ i ∣ c * 10 ^ j := by
  obtain ⟨g, c', i', hg, hcoprime, rfl, rfl⟩ := Nat.exists_coprime' (Nat.gcd_pos_of_pos_right c hi)
  have hi' : i' ≠ 0 := left_ne_zero_of_mul hi.ne'
  have hstripped : (stripFactor 2 j i').1 ≠ 0 := right_ne_zero_of_mul (stripFactor_eq 2 j i' ▸ hi')
  rw [Nat.gcd_mul_right, hcoprime, one_mul, Nat.mul_div_cancel _ hg, ← Nat.dvd_one,
    ← dvd_pow_mul_iff Nat.prime_five hstripped, ← dvd_pow_mul_iff Nat.prime_two hi', mul_one, ← mul_pow,
    mul_right_comm, Nat.mul_dvd_mul_iff_right hg]
  exact hcoprime.symm.dvd_mul_left.symm

variable {increment : DecimalTuple}

theorem multiple_iff (h : 0 < increment.value) :
    (∃ k : ℤ, d.value = k * increment.value) ↔ ∃ k : ℕ, d.magnitude = k * increment.magnitude := by
  have hincrement : increment.value = increment.magnitude := (abs_of_pos h).symm.trans (abs_value increment)
  constructor
  · rintro ⟨k, hk⟩
    refine ⟨k.natAbs, ?_⟩
    rw [← abs_value d, ← abs_value increment, hk, abs_mul, Nat.cast_natAbs, Int.cast_abs]
  · rintro ⟨k, hk⟩
    refine ⟨signed d.negative k, ?_⟩
    rw [hincrement]
    unfold DecimalTuple.value signed
    split_ifs <;> push_cast <;> rw [hk]
    ring

theorem coefficient_pos (h : 0 < increment.value) : 0 < increment.coefficient := by
  refine Nat.pos_of_ne_zero fun hzero => h.ne' ?_
  simp [DecimalTuple.value, DecimalTuple.magnitude, hzero]

/-- The ratio of the magnitudes, by the difference of the exponents. -/
theorem magnitude_eq_mul_iff {k : ℕ} : d.magnitude = k * increment.magnitude ↔
    (d.coefficient : ℚ) * 10 ^ (d.exponent - increment.exponent) = k * increment.coefficient := by
  have hpow : (10 : ℚ) ^ increment.exponent ≠ 0 := zpow_ne_zero _ (by norm_num)
  have hsplit : (10 : ℚ) ^ d.exponent = 10 ^ (d.exponent - increment.exponent) * 10 ^ increment.exponent := by
    rw [← zpow_add₀ (by norm_num), sub_add_cancel]
  rw [DecimalTuple.magnitude, DecimalTuple.magnitude, hsplit, ← mul_assoc, ← mul_assoc, mul_left_inj' hpow]

theorem isExactDecimalMultiple_ok (h : 0 < increment.value) : ∃ b, isExactDecimalMultiple d increment = .ok b ∧
    (b = true ↔ ∃ k : ℤ, d.value = k * increment.value) := by
  have hi := coefficient_pos h
  rw [multiple_iff h]
  simp only [magnitude_eq_mul_iff]
  unfold isExactDecimalMultiple
  simp only [require, if_pos h, ok_bind]
  by_cases hc : d.coefficient = 0
  · exact ⟨true, if_pos hc, fun _ => ⟨0, by simp [hc]⟩, fun _ => rfl⟩
  simp only [if_neg hc]
  rcases lt_or_ge (d.exponent - increment.exponent) 0 with hlt | hge
  · obtain ⟨r, hr⟩ := Int.eq_ofNat_of_zero_le (neg_nonneg.2 hlt.le)
    have hiff (k : ℕ) : (d.coefficient : ℚ) * 10 ^ (d.exponent - increment.exponent) = k * increment.coefficient ↔
        d.coefficient = increment.coefficient * (10 ^ r * k) := by
      rw [neg_eq_iff_eq_neg.1 hr, zpow_neg, zpow_natCast, ← div_eq_mul_inv, div_eq_iff (by positivity)]
      rw [show (k : ℚ) * increment.coefficient * 10 ^ r = (increment.coefficient * (10 ^ r * k) : ℕ) by push_cast; ring,
        Nat.cast_inj]
    simp only [if_pos hlt, hr, Int.toNat_natCast, hiff]
    by_cases hdvd : increment.coefficient ∣ d.coefficient
    · obtain ⟨q, hq⟩ := hdvd
      rw [if_neg (by rw [hq, Nat.mul_mod_right]; exact fun hne => hne rfl)]
      refine ⟨_, rfl, ?_⟩
      rw [decide_eq_true_iff, hq, Nat.mul_div_cancel_left _ hi,
        stripFactor_snd_eq_iff (by decide) (right_ne_zero_of_mul (hq ▸ hc))]
      simp only [Nat.mul_right_inj hi.ne', Dvd.dvd]
    · rw [if_pos fun hmod => hdvd (Nat.dvd_of_mod_eq_zero hmod)]
      refine ⟨false, rfl, fun hfalse => absurd hfalse (by decide), ?_⟩
      rintro ⟨k, hk⟩
      exact absurd (hk ▸ Dvd.intro _ rfl) hdvd
  · obtain ⟨j, hj⟩ := Int.eq_ofNat_of_zero_le hge
    have hiff (k : ℕ) : (d.coefficient : ℚ) * 10 ^ (d.exponent - increment.exponent) = k * increment.coefficient ↔
        d.coefficient * 10 ^ j = increment.coefficient * k := by
      rw [hj, zpow_natCast, mul_comm (k : ℚ)]
      exact_mod_cast Iff.rfl
    simp only [if_neg (not_lt.2 hge), hiff]
    simp only [hj, Int.toNat_natCast]
    refine ⟨_, rfl, ?_⟩
    rw [decide_eq_true_iff]
    exact grid_dvd_iff hc hi

theorem value_ofInt (n : ℤ) (k : ℕ) : DecimalTuple.value ⟨n < 0, n.natAbs, -k⟩ = n / 10 ^ k := by
  have hsigned : signed (decide (n < 0)) n.natAbs = n := by
    unfold signed
    split_ifs with h <;> simp only [decide_eq_true_eq] at h <;> omega
  have hmagnitude : DecimalTuple.magnitude ⟨n < 0, n.natAbs, -k⟩ * 10 ^ k = n.natAbs := by
    rw [DecimalTuple.magnitude, zpow_neg, zpow_natCast, inv_mul_cancel_right₀ (by positivity)]
  rw [eq_div_iff (by positivity), value_eq_signed _ hmagnitude, hsigned]

theorem exists_scaledTo_iff {x : ℚ} :
    (∃ n, ScaledTo x p n) ↔ AtScale p x ∧ |x| * 10 ^ p < 10 ^ maxQuantityCoefficientDigits := by
  have hp : (0 : ℚ) < 10 ^ p := by positivity
  have habs (n : ℤ) : |(n : ℚ)| < 10 ^ maxQuantityCoefficientDigits ↔ n.natAbs < 10 ^ maxQuantityCoefficientDigits := by
    rw [← Int.cast_abs, ← Nat.cast_natAbs]
    exact_mod_cast Iff.rfl
  have hscaled (n : ℤ) (h : x * 10 ^ p = n) : |x| * 10 ^ p = |(n : ℚ)| := by rw [← h, abs_mul, abs_of_pos hp]
  rw [atScale_iff]
  constructor
  · rintro ⟨n, heq, hlt⟩
    exact ⟨⟨n, (eq_div_iff hp.ne').2 heq⟩, by rwa [hscaled n heq, habs]⟩
  · rintro ⟨⟨n, hn⟩, hlt⟩
    have heq := (eq_div_iff hp.ne').1 hn
    exact ⟨n, heq, by rwa [hscaled n heq, habs] at hlt⟩

theorem grid_and_scale_checks_exact (d increment : DecimalTuple) (p : ℕ) :
    (0 < increment.value → ∃ b, isExactDecimalMultiple d increment = .ok b ∧
      (b = true ↔ ∃ k : ℤ, d.value = k * increment.value)) ∧
    (p ≤ 18 → ∀ n : ℤ, decimalToScaledInteger d p = .ok n ↔ d.value * 10 ^ p = n ∧ n.natAbs < 10 ^ 128) ∧
    (∀ e, normalizeQuantity d p = .ok e → e.value = d.value ∧
      ∀ d' e', normalizeQuantity d' p = .ok e' → d'.value = d.value → e' = e) ∧
    (p ≤ 18 → ((∃ e, normalizeQuantity d p = .ok e) ↔ AtScale p d.value ∧ |d.value| * 10 ^ p < 10 ^ 128)) := by
  refine ⟨isExactDecimalMultiple_ok, fun hp n => decimalToScaledInteger_ok_iff.trans (and_iff_right hp),
    fun e he => ?_, fun hp => ?_⟩
  · obtain ⟨-, n, hn, rfl⟩ := normalizeQuantity_ok_iff.1 he
    refine ⟨(value_ofInt n p).trans ((eq_div_iff (by positivity)).2 hn.1).symm, fun d' e' he' hvalue => ?_⟩
    obtain ⟨-, n', hn', rfl⟩ := normalizeQuantity_ok_iff.1 he'
    rw [Int.cast_injective (hn'.1.symm.trans ((congrArg (· * 10 ^ p) hvalue).trans hn.1))]
  · rw [← show maxQuantityCoefficientDigits = 128 from rfl, ← exists_scaledTo_iff]
    simp only [normalizeQuantity_ok_iff, and_iff_right (show p ≤ maxFinancialPrecision from hp)]
    rw [exists_comm]
    simp only [exists_and_left, exists_eq, and_true]

/-! ## Fractions and decimals -/

/-- `_decimal`; the digits are taken from the text of the integer. -/
def decimal (value : ℚ) (field : String) : Except String DecimalTuple := do
  let twos := stripFactor 2 value.den value.den
  let fives := stripFactor 5 twos.1 twos.1
  require (fives.1 = 1) (field ++ " cannot be represented exactly as a Decimal")
  let scale := max twos.2 fives.2
  let numerator := value.num * 2 ^ (scale - twos.2) * 5 ^ (scale - fives.2)
  require (numerator.natAbs < 10 ^ intMaxStrDigits) "Exceeds the limit (4300 digits) for integer string conversion"
  return ⟨numerator < 0, numerator.natAbs, -scale⟩

def roundedDecimal (value : ℚ) (precision : ℕ) (field : String) : Except String DecimalTuple :=
  let scale : ℚ := 10 ^ precision
  let scaled := value * scale
  let quotient := halfEvenMagnitude scaled.num.natAbs scaled.den
  decimal ((if scaled < 0 then -1 else 1) * quotient / scale) field

/-- `_fraction` of the risk projections. -/
def projectedFraction (value : DecimalTuple) : ℚ :=
  let coefficient : ℤ := if value.negative then -value.coefficient else value.coefficient
  match value.exponent with
  | .ofNat e => coefficient * 10 ^ e
  | .negSucc k => coefficient / 10 ^ (k + 1)

/-- `_fraction` of the portfolio reducer, which joins the digits to a text first. -/
def fraction (value : DecimalTuple) : Except String ℚ := do
  require (value.coefficient < 10 ^ intMaxStrDigits)
    "Exceeds the limit (4300 digits) for integer string conversion"
  return projectedFraction value

theorem projectedFraction_eq (d : DecimalTuple) : projectedFraction d = d.value := by
  obtain ⟨negative, coefficient, exponent⟩ := d
  cases exponent <;> cases negative <;>
    simp [projectedFraction, DecimalTuple.value, DecimalTuple.magnitude, zpow_negSucc, div_eq_mul_inv]

/-- The integer over the least power of ten that make up the value. -/
structure Least (value : ℚ) (n : ℤ) (k : ℕ) : Prop where
  eq : value = n / 10 ^ k
  least : ∀ j, AtScale j value → k ≤ j

theorem decimal_of_finite {value : ℚ} (h : Finite10 value) : ∃ n k, Least value n k ∧ ∀ field,
    decimal value field = if n.natAbs < 10 ^ intMaxStrDigits then .ok ⟨n < 0, n.natAbs, -k⟩
      else .error "Exceeds the limit (4300 digits) for integer string conversion" := by
  have hone := (stripFactor_finite value).2 h
  set twos := stripFactor 2 value.den value.den with htwos
  set fives := stripFactor 5 twos.1 twos.1 with hfives
  have hexact : exactDecimal? value = some (.scaled (value.num * 2 ^ (max twos.2 fives.2 - twos.2) *
      5 ^ (max twos.2 fives.2 - fives.2)) (max twos.2 fives.2)) := by
    rw [exactDecimal?]
    simp only [← htwos, ← hfives, if_pos hone]
  refine ⟨_, _, ⟨(exactDecimal?_eq_some hexact).symm, fun j hj => scale_le_of_atScale hj⟩, fun field => ?_⟩
  unfold decimal
  simp only [← htwos, ← hfives, require, if_pos hone, ok_bind]
  split_ifs <;> rfl

/-- An integer of at most 4300 digits over a power of ten. -/
def Writable (value : ℚ) : Prop := ∃ (n : ℤ) (k : ℕ), n.natAbs < 10 ^ intMaxStrDigits ∧ value = n / 10 ^ k

theorem Least.natAbs_lt_iff {value : ℚ} {n : ℤ} {k : ℕ} (h : Least value n k) :
    n.natAbs < 10 ^ intMaxStrDigits ↔ Writable value := by
  refine ⟨fun hlt => ⟨n, k, hlt, h.eq⟩, ?_⟩
  rintro ⟨m, j, hlt, heq⟩
  obtain ⟨i, rfl⟩ := Nat.exists_eq_add_of_le (h.least j (atScale_iff.2 ⟨m, heq⟩))
  have hm : (m : ℚ) = (n * 10 ^ i : ℤ) := by
    have hsame := h.eq.symm.trans heq
    rw [div_eq_div_iff (by positivity) (by positivity), pow_add] at hsame
    push_cast
    have hk : (10 : ℚ) ^ k ≠ 0 := by positivity
    refine mul_right_cancel₀ hk ?_
    rw [← hsame]
    ring
  rw [Int.cast_inj.1 hm, Int.natAbs_mul] at hlt
  exact lt_of_le_of_lt (Nat.le_mul_of_pos_right _ (by positivity)) hlt

theorem decimal_ok {value : ℚ} {field : String} {d : DecimalTuple} (h : decimal value field = .ok d) :
    Finite10 value ∧ ∃ n k, Least value n k ∧ n.natAbs < 10 ^ intMaxStrDigits ∧ d = ⟨n < 0, n.natAbs, -k⟩ := by
  have hfinite : Finite10 value := by
    refine (stripFactor_finite value).1 ?_
    simp only [decimal, bind_ok_iff, require_ok_iff] at h
    exact h.choose_spec.1
  obtain ⟨n, k, hleast, hdecimal⟩ := decimal_of_finite hfinite
  rw [hdecimal] at h
  split_ifs at h with hlt
  exact ⟨hfinite, n, k, hleast, hlt, (Except.ok.inj h).symm⟩

theorem value_of_decimal {value : ℚ} {field : String} {d : DecimalTuple} (h : decimal value field = .ok d) :
    d.value = value := by
  obtain ⟨-, n, k, hleast, -, rfl⟩ := decimal_ok h
  exact (value_ofInt n k).trans hleast.eq.symm

/-- What is written can be read again. -/
theorem fraction_of_decimal {value : ℚ} {field : String} {d : DecimalTuple} (h : decimal value field = .ok d) :
    fraction d = .ok value := by
  have hvalue := value_of_decimal h
  obtain ⟨-, n, k, -, hlt, rfl⟩ := decimal_ok h
  rw [fraction, require, if_pos hlt, projectedFraction_eq, hvalue]
  rfl

theorem exists_decimal_iff {value : ℚ} {field : String} :
    (∃ d, decimal value field = .ok d) ↔ Finite10 value ∧ Writable value := by
  constructor
  · rintro ⟨d, h⟩
    obtain ⟨hfinite, n, k, hleast, hlt, -⟩ := decimal_ok h
    exact ⟨hfinite, hleast.natAbs_lt_iff.1 hlt⟩
  · rintro ⟨hfinite, hwritable⟩
    obtain ⟨n, k, hleast, hdecimal⟩ := decimal_of_finite hfinite
    exact ⟨_, (hdecimal field).trans (if_pos (hleast.natAbs_lt_iff.2 hwritable))⟩

/-- The multiple of `10⁻ᵖ` nearest to the value; between two it is the even one. -/
structure IsRounding (p : ℕ) (value r : ℚ) : Prop where
  nearest : ∃ n : ℤ, r = n / 10 ^ p ∧ ∀ m : ℤ, |r - value| ≤ |m / 10 ^ p - value| ∧
    (m ≠ n → |r - value| = |m / 10 ^ p - value| → Even n)
  close : |r - value| ≤ 1 / 10 ^ p / 2

def rounding (p : ℕ) (value : ℚ) : ℚ := halfEven (value * 10 ^ p) / 10 ^ p

theorem isRounding (p : ℕ) (value : ℚ) : IsRounding p value (rounding p value) := by
  obtain ⟨hclose, htie⟩ := isHalfEven_halfEven (value * 10 ^ p)
  have hp : (0 : ℚ) < 10 ^ p := by positivity
  have hdist (m : ℤ) : |(m : ℚ) / 10 ^ p - value| = |value * 10 ^ p - m| / 10 ^ p := by
    rw [← abs_of_pos hp, ← abs_div, abs_of_pos hp, abs_sub_comm]
    congr 1
    field_simp
  set n := halfEven (value * 10 ^ p) with hn
  refine ⟨⟨n, rfl, fun m => ?_⟩, ?_⟩
  · rw [rounding, ← hn, hdist, hdist]
    have hgap : m ≠ n → (1 : ℚ) ≤ |value * 10 ^ p - m| + |value * 10 ^ p - n| := by
      intro hne
      have hone : (1 : ℚ) ≤ |(n : ℚ) - m| := by exact_mod_cast Int.one_le_abs (sub_ne_zero.2 hne.symm)
      calc (1 : ℚ) ≤ |(value * 10 ^ p - m) - (value * 10 ^ p - n)| := by rwa [sub_sub_sub_cancel_left]
        _ ≤ |value * 10 ^ p - m| + |value * 10 ^ p - n| := abs_sub _ _
    refine ⟨(div_le_div_iff_of_pos_right hp).2 ?_, fun hne hsame => htie ?_⟩
    · by_cases hne : m = n
      · rw [hne]
      · linarith [hgap hne]
    · rw [div_left_inj' hp.ne'] at hsame
      linarith [hgap hne]
  · rw [rounding, hdist, div_right_comm, div_le_div_iff_of_pos_right hp]
    exact hclose

theorem roundedDecimal_eq (value : ℚ) (p : ℕ) (field : String) :
    roundedDecimal value p field = decimal (rounding p value) field := by
  rw [roundedDecimal, rounding, halfEven_eq_sign_mul]

theorem atScale_rounding (p : ℕ) (value : ℚ) : AtScale p (rounding p value) := atScale_iff.2 ⟨_, rfl⟩

theorem rounding_neg (p : ℕ) (value : ℚ) : rounding p (-value) = -rounding p value := by
  rw [rounding, neg_mul, halfEven_neg, rounding, Int.cast_neg, neg_div]

theorem rounding_mono (p : ℕ) {v w : ℚ} (h : v ≤ w) : rounding p v ≤ rounding p w := by
  have hp : (0 : ℚ) < 10 ^ p := by positivity
  refine (div_le_div_iff_of_pos_right hp).2 (Int.cast_le.2 (halfEven_mono ?_))
  exact mul_le_mul_of_nonneg_right h hp.le

/-- Where the digits can be written, the rounding and the conversions are exact. -/
theorem rounding_and_conversion_exact (v w : ℚ) (p : ℕ) (field : String) :
    ((∃ d, roundedDecimal v p field = .ok d) ↔ Writable (rounding p v)) ∧
    (∀ d, roundedDecimal v p field = .ok d → -(p : ℤ) ≤ d.exponent ∧ IsRounding p v d.value ∧
      (∀ e, roundedDecimal (-v) p field = .ok e → e.value = -d.value) ∧
      (v ≤ w → ∀ e, roundedDecimal w p field = .ok e → d.value ≤ e.value)) ∧
    ((∃ d, decimal v field = .ok d) ↔ Finite10 v ∧ Writable v) ∧
    ∀ d, decimal v field = .ok d → d.value = v ∧ fraction d = .ok v ∧ projectedFraction d = v := by
  simp only [roundedDecimal_eq]
  refine ⟨exists_decimal_iff.trans (and_iff_right (finite10_of_atScale (atScale_rounding p v))), fun d h => ?_,
    exists_decimal_iff, fun d h => ?_⟩
  · rw [value_of_decimal h]
    refine ⟨?_, isRounding p v, fun e he => ?_, fun hle e he => ?_⟩
    · obtain ⟨-, n, k, hleast, -, rfl⟩ := decimal_ok h
      exact neg_le_neg (Int.ofNat_le.2 (hleast.least p (atScale_rounding p v)))
    · rw [value_of_decimal he, rounding_neg]
    · rw [value_of_decimal he]
      exact rounding_mono p hle
  · exact ⟨value_of_decimal h, fraction_of_decimal h, (projectedFraction_eq d).trans (value_of_decimal h)⟩

theorem long_numerator_raises : ¬ ∀ (v : ℚ) (p : ℕ) (field : String), ∃ d, roundedDecimal v p field = .ok d := by
  intro h
  have hrounding : rounding 0 (10 ^ intMaxStrDigits) = 10 ^ intMaxStrDigits := by
    have hcast : ((10 : ℚ) ^ intMaxStrDigits) * 10 ^ 0 = ((10 ^ intMaxStrDigits : ℤ) : ℚ) := by push_cast; ring
    rw [rounding, hcast, halfEven_intCast]
    push_cast
    ring
  obtain ⟨d, hd⟩ := h (10 ^ intMaxStrDigits) 0 ""
  rw [roundedDecimal_eq, hrounding] at hd
  obtain ⟨-, n, k, hlt, heq⟩ := exists_decimal_iff.1 ⟨d, hd⟩
  rw [eq_div_iff (by positivity), ← pow_add] at heq
  have hn : n = 10 ^ (intMaxStrDigits + k) := by exact_mod_cast heq.symm
  rw [hn, Int.natAbs_pow] at hlt
  exact absurd hlt (not_lt.2 (Nat.pow_le_pow_right (by decide) (Nat.le_add_right _ _)))

end TradingAgent.CanonicalDecimal
