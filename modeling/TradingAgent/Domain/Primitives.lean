import Mathlib.Algebra.Ring.Subring.Basic
import Mathlib.Data.Nat.Prime.Basic
import Mathlib.Data.Prod.Lex
import Mathlib.Data.String.Basic
import Mathlib.Tactic.FieldSimp
import Mathlib.Tactic.Ring
import Mathlib.Tactic.Linarith
import TradingAgent.Lib.Outcome

/-!
# Monetary primitives

A finite `Decimal` is modelled by its value, as the source compares and computes it: the decimals are the rationals
with a power of ten as denominator (`decimalRing`). `Money`, `Price`, `Quantity` and `OrderQuantity` carry the checks
of their constructors as fields.
-/

namespace TradingAgent

/-- Identifiers, by the integer value of the 128 bits; `UUID.bytes` orders them as integers. -/
abbrev Uuid := ℕ

def uuidDigit (n : ℕ) : Char := "0123456789abcdef".toList.getD n '0'

/-- `str(uuid)` -/
def uuidText (id : Uuid) : String :=
  let digits := (List.range 32).map fun i => uuidDigit (id / 16 ^ (31 - i) % 16)
  let part (start count : ℕ) := String.ofList ((digits.drop start).take count)
  part 0 8 ++ "-" ++ part 8 4 ++ "-" ++ part 12 4 ++ "-" ++ part 16 4 ++ "-" ++ part 20 12

/-- A UTC `datetime`, in microseconds. -/
abbrev DateTime := ℤ

/-- A `timedelta`, in microseconds. -/
abbrev TimeDelta := ℤ

def TimeDelta.seconds (n : ℤ) : TimeDelta := n * 1000000

def TimeDelta.minutes (n : ℤ) : TimeDelta := TimeDelta.seconds (n * 60)

inductive Failure
  | valueError (message : String)
  | portfolioReplayError (message : String)
  | assertionError
  | attributeError
  deriving DecidableEq

/-- The rationals a finite `Decimal` can hold. -/
def decimalRing : Subring ℚ where
  carrier := {q | ∃ (n : ℤ) (k : ℕ), q = n / 10 ^ k}
  mul_mem' := by
    rintro _ _ ⟨n, k, rfl⟩ ⟨m, l, rfl⟩
    exact ⟨n * m, k + l, by push_cast; rw [pow_add]; field_simp⟩
  one_mem' := ⟨1, 0, by norm_num⟩
  add_mem' := by
    rintro _ _ ⟨n, k, rfl⟩ ⟨m, l, rfl⟩
    exact ⟨n * 10 ^ l + m * 10 ^ k, k + l, by push_cast; rw [pow_add]; field_simp⟩
  zero_mem' := ⟨0, 0, by norm_num⟩
  neg_mem' := by
    rintro _ ⟨n, k, rfl⟩
    exact ⟨-n, k, by push_cast; ring⟩

/-- A finite `Decimal`, by value. -/
abbrev Decimal : Type := decimalRing

-- One path to each operation, whatever a module imports.
instance : Zero Decimal := inferInstance
instance : One Decimal := inferInstance
instance : Add Decimal := inferInstance
instance : Neg Decimal := inferInstance
instance : Sub Decimal := inferInstance
instance : Mul Decimal := inferInstance
instance : AddCommMonoid Decimal := inferInstance
instance : Max Decimal := inferInstance

/-- The decimal `n · 10⁻ᵏ`. -/
def Decimal.scaled (n : ℤ) (k : ℕ) : Decimal := ⟨n / 10 ^ k, n, k, rfl⟩

/-- The value has at most `p` fractional digits. -/
def AtScale (p : ℕ) (q : ℚ) : Prop := (q * 10 ^ p).den = 1

instance (p : ℕ) (q : ℚ) : Decidable (AtScale p q) := inferInstanceAs (Decidable (_ = _))

variable {p : ℕ} {q : ℚ}

theorem atScale_iff : AtScale p q ↔ ∃ n : ℤ, q = n / 10 ^ p := by
  have h10 : (10 : ℚ) ^ p ≠ 0 := by positivity
  unfold AtScale
  constructor
  · intro h
    exact ⟨(q * 10 ^ p).num, by rw [Rat.coe_int_num_of_den_eq_one h]; field_simp⟩
  · rintro ⟨n, rfl⟩
    rw [div_mul_cancel₀ _ h10]
    exact Rat.den_intCast n

@[simp] theorem atScale_zero (p : ℕ) : AtScale p 0 := atScale_iff.2 ⟨0, by simp⟩

theorem AtScale.add {r : ℚ} (hq : AtScale p q) (hr : AtScale p r) : AtScale p (q + r) := by
  obtain ⟨n, rfl⟩ := atScale_iff.1 hq
  obtain ⟨m, rfl⟩ := atScale_iff.1 hr
  exact atScale_iff.2 ⟨n + m, by push_cast; ring⟩

theorem AtScale.neg (hq : AtScale p q) : AtScale p (-q) := by
  obtain ⟨n, rfl⟩ := atScale_iff.1 hq
  exact atScale_iff.2 ⟨-n, by push_cast; ring⟩

theorem AtScale.sub {r : ℚ} (hq : AtScale p q) (hr : AtScale p r) : AtScale p (q - r) := by
  rw [sub_eq_add_neg]
  exact hq.add hr.neg

/-- Divide by `factor` as long as possible; returns what is left and the number of divisions. -/
def stripFactor (factor : ℕ) : ℕ → ℕ → ℕ × ℕ
  | 0, n => (n, 0)
  | fuel + 1, n =>
    if n % factor = 0 then
      let rest := stripFactor factor fuel (n / factor)
      (rest.1, rest.2 + 1)
    else (n, 0)

theorem stripFactor_eq (factor fuel n : ℕ) :
    n = factor ^ (stripFactor factor fuel n).2 * (stripFactor factor fuel n).1 := by
  induction fuel generalizing n with
  | zero => simp [stripFactor]
  | succ fuel ih =>
    unfold stripFactor
    split_ifs with h
    · have hn : n = factor * (n / factor) := (Nat.mul_div_cancel' (Nat.dvd_of_mod_eq_zero h)).symm
      simp only
      conv_lhs => rw [hn, ih (n / factor)]
      ring
    · simp

theorem stripFactor_not_dvd {factor fuel n : ℕ} (hf : 1 < factor) (hn : 0 < n) (hle : n ≤ fuel) :
    ¬ factor ∣ (stripFactor factor fuel n).1 := by
  induction fuel generalizing n with
  | zero => omega
  | succ fuel ih =>
    unfold stripFactor
    split_ifs with h
    · have hd : factor ∣ n := Nat.dvd_of_mod_eq_zero h
      exact ih (Nat.div_pos (Nat.le_of_dvd hn hd) (by omega))
        (Nat.le_of_lt_succ (lt_of_lt_of_le (Nat.div_lt_self hn hf) hle))
    · exact fun hd => h (Nat.mod_eq_zero_of_dvd hd)

/-- Only two and five divide the denominator. -/
def Finite10 (value : ℚ) : Prop := ∀ q : ℕ, q.Prime → q ∣ value.den → q = 2 ∨ q = 5

theorem stripFactor_finite (value : ℚ) :
    (stripFactor 5 (stripFactor 2 value.den value.den).1 (stripFactor 2 value.den value.den).1).1 = 1 ↔
      Finite10 value := by
  set twos := stripFactor 2 value.den value.den with htwos
  set fives := stripFactor 5 twos.1 twos.1 with hfives
  have heq2 : value.den = 2 ^ twos.2 * twos.1 := stripFactor_eq 2 value.den value.den
  have heq5 : twos.1 = 5 ^ fives.2 * fives.1 := stripFactor_eq 5 twos.1 twos.1
  constructor
  · intro hone q hq hdvd
    rw [heq2, heq5, hone, mul_one] at hdvd
    rcases (Nat.Prime.dvd_mul hq).1 hdvd with h | h
    · exact .inl ((Nat.prime_dvd_prime_iff_eq hq Nat.prime_two).1 (hq.dvd_of_dvd_pow h))
    · exact .inr ((Nat.prime_dvd_prime_iff_eq hq Nat.prime_five).1 (hq.dvd_of_dvd_pow h))
  · intro hfinite
    have hpos : 0 < twos.1 := Nat.pos_of_ne_zero fun h => value.den_nz (by rw [heq2, h, mul_zero])
    by_contra hone
    obtain ⟨q, hq, hdvd⟩ := Nat.exists_prime_and_dvd hone
    have hdvd2 : q ∣ twos.1 := heq5 ▸ hdvd.mul_left _
    rcases hfinite q hq (heq2 ▸ hdvd2.mul_left _) with rfl | rfl
    · exact stripFactor_not_dvd (by norm_num) value.den_pos le_rfl hdvd2
    · exact stripFactor_not_dvd (by norm_num) hpos le_rfl hdvd

theorem atScale_den (value : ℚ) {j : ℕ} (h : AtScale j value) : value.den ∣ 10 ^ j := by
  obtain ⟨n, rfl⟩ := atScale_iff.1 h
  have hdvd : ((Rat.divInt n (10 ^ j)).den : ℤ) ∣ 10 ^ j := Rat.den_dvd n (10 ^ j)
  rw [Rat.divInt_eq_div, Int.cast_pow, Int.cast_ofNat] at hdvd
  exact_mod_cast hdvd

theorem scale_le_of_atScale {value : ℚ} {p : ℕ} (h : AtScale p value) : max (stripFactor 2 value.den value.den).2
      (stripFactor 5 (stripFactor 2 value.den value.den).1 (stripFactor 2 value.den value.den).1).2 ≤ p := by
  have hdvd := atScale_den value h
  have hfactor (factor other : ℕ) (hf : 1 < factor) (hcop : Nat.Coprime factor other) (hten : factor * other = 10)
      {k : ℕ} (hk : factor ^ k ∣ 10 ^ p) : k ≤ p := by
    rw [← hten, mul_pow] at hk
    exact (Nat.pow_dvd_pow_iff_le_right hf).1 ((hcop.pow k p).dvd_of_dvd_mul_right hk)
  set twos := stripFactor 2 value.den value.den with htwos
  have heq2 : value.den = 2 ^ twos.2 * twos.1 := stripFactor_eq 2 _ _
  have heq5 := stripFactor_eq 5 twos.1 twos.1
  apply max_le
  · exact hfactor 2 5 (by decide) (by decide) rfl ((Dvd.intro _ heq2.symm).trans hdvd)
  · refine hfactor 5 2 (by decide) (by decide) rfl (Dvd.dvd.trans ?_ hdvd)
    exact ((Dvd.intro _ heq5.symm).mul_left _).trans (dvd_of_eq heq2.symm)

theorem finite10_of_atScale {value : ℚ} {j : ℕ} (h : AtScale j value) : Finite10 value := by
  intro q hq hdvd
  have hten : q ∣ 2 * 5 := hq.dvd_of_dvd_pow (hdvd.trans (atScale_den value h))
  rcases (Nat.Prime.dvd_mul hq).1 hten with h | h
  · exact .inl ((Nat.prime_dvd_prime_iff_eq hq Nat.prime_two).1 h)
  · exact .inr ((Nat.prime_dvd_prime_iff_eq hq Nat.prime_five).1 h)

/-- The decimal equal to a fraction, if there is one: the denominator may only have the prime factors
two and five. -/
def exactDecimal? (value : ℚ) : Option Decimal :=
  let twos := stripFactor 2 value.den value.den
  let fives := stripFactor 5 twos.1 twos.1
  if fives.1 = 1 then
    let scale := max twos.2 fives.2
    some (.scaled (value.num * 2 ^ (scale - twos.2) * 5 ^ (scale - fives.2)) scale)
  else none

theorem exactDecimal?_eq_some {value : ℚ} {d : Decimal} (h : exactDecimal? value = some d) : (d : ℚ) = value := by
  unfold exactDecimal? at h
  simp only at h
  split_ifs at h with hone
  obtain rfl := Option.some.inj h
  set twos := stripFactor 2 value.den value.den with htwos
  set fives := stripFactor 5 twos.1 twos.1 with hfives
  have hden : value.den = 2 ^ twos.2 * 5 ^ fives.2 := by
    conv_lhs => rw [stripFactor_eq 2 value.den value.den, ← htwos, stripFactor_eq 5 twos.1 twos.1, ← hfives, hone]
    ring
  have h2 : (2 : ℚ) ^ (max twos.2 fives.2) = 2 ^ (max twos.2 fives.2 - twos.2) * 2 ^ twos.2 := by
    rw [← pow_add, Nat.sub_add_cancel (le_max_left _ _)]
  have h5 : (5 : ℚ) ^ (max twos.2 fives.2) = 5 ^ (max twos.2 fives.2 - fives.2) * 5 ^ fives.2 := by
    rw [← pow_add, Nat.sub_add_cancel (le_max_right _ _)]
  have h10 : (10 : ℚ) ^ (max twos.2 fives.2) = (2 ^ (max twos.2 fives.2 - twos.2) * 2 ^ twos.2) *
        (5 ^ (max twos.2 fives.2 - fives.2) * 5 ^ fives.2) := by
    rw [← h2, ← h5, ← mul_pow]
    norm_num
  change ((value.num * 2 ^ (max twos.2 fives.2 - twos.2) *
    5 ^ (max twos.2 fives.2 - fives.2) : ℤ) : ℚ) / 10 ^ (max twos.2 fives.2) = value
  conv_rhs => rw [← Rat.num_div_den value, hden]
  push_cast
  rw [h10]
  field_simp

theorem exactDecimal?_coe (d : Decimal) : exactDecimal? d = some d := by
  obtain ⟨q, n, k, hq⟩ := d
  have hone := (stripFactor_finite q).2 (finite10_of_atScale (atScale_iff.2 ⟨n, hq⟩))
  rw [exactDecimal?]
  simp only [if_pos hone]
  refine congrArg some (Subtype.ext (exactDecimal?_eq_some ?_))
  rw [exactDecimal?]
  simp only [if_pos hone]

/-- The currencies of the default registry; only registered identities are accepted anywhere. -/
inductive Currency
  | USD
  | USDT
  | BTC
  | ETH
  deriving DecidableEq

namespace Currency

def code : Currency → String
  | USD => "USD"
  | USDT => "USDT"
  | BTC => "BTC"
  | ETH => "ETH"

def precision : Currency → ℕ
  | USD => 2
  | USDT => 6
  | BTC => 8
  | ETH => 18

theorem code_injective : Function.Injective code := by
  intro a b h
  cases a <;> cases b <;> first | rfl | exact absurd h (by decide)

end Currency

def maxFinancialPrecision : ℕ := 18

def maxQuantityCoefficientDigits : ℕ := 128

/-- An amount at the precision of its currency. -/
@[ext] structure Money where
  amount : Decimal
  currency : Currency
  exact : AtScale currency.precision amount
  deriving DecidableEq

@[ext] structure Price where
  amount : Decimal
  currency : Currency
  pos : 0 < amount
  deriving DecidableEq

/-- The checks of `decimal_to_scaled_integer`: the value is exact at the precision and its scaled
integer has at most 128 digits. -/
def ScaledFits (value : Decimal) (precision : ℕ) : Prop :=
  AtScale precision value ∧ |(value : ℚ)| * 10 ^ precision < 10 ^ maxQuantityCoefficientDigits

instance (value : Decimal) (precision : ℕ) : Decidable (ScaledFits value precision) :=
  inferInstanceAs (Decidable (_ ∧ _))

/-- The checks of `_normalize_quantity`: the precision is admitted and the value fits it. -/
def QuantityFits (value : Decimal) (precision : ℕ) : Prop :=
  precision ≤ maxFinancialPrecision ∧ ScaledFits value precision

instance (value : Decimal) (precision : ℕ) : Decidable (QuantityFits value precision) :=
  inferInstanceAs (Decidable (_ ∧ _))

@[ext] structure Quantity where
  value : Decimal
  precision : ℕ
  fits : QuantityFits value precision
  deriving DecidableEq

@[ext] structure OrderQuantity where
  value : Decimal
  precision : ℕ
  fits : QuantityFits value precision
  nonneg : 0 ≤ value
  deriving DecidableEq

@[ext] structure CurrencyConversion where
  source : Money
  targetCurrency : Currency
  rate : Decimal
  target : Money
  rate_pos : 0 < rate
  crossCurrency : source.currency ≠ targetCurrency
  target_currency : target.currency = targetCurrency
  target_amount : target.amount = source.amount * rate
  deriving DecidableEq

def Money.ofDecimal? (amount : Decimal) (currency : Currency) : Option Money :=
  if h : AtScale currency.precision amount then some ⟨amount, currency, h⟩ else none

def Price.ofDecimal? (amount : Decimal) (currency : Currency) : Option Price :=
  if h : 0 < amount then some ⟨amount, currency, h⟩ else none

def Quantity.ofDecimal? (value : Decimal) (precision : ℕ) : Option Quantity :=
  if h : QuantityFits value precision then some ⟨value, precision, h⟩ else none

def Money.zero (currency : Currency) : Money := ⟨0, currency, by simp⟩

/-- The total of the amounts in one currency. -/
def Money.totalIn (currency : Currency) (ms : List Money) : Decimal :=
  ((ms.filter fun m => m.currency = currency).map Money.amount).sum

@[simp] theorem Money.totalIn_nil (currency : Currency) : Money.totalIn currency [] = 0 := rfl

theorem Money.totalIn_cons (currency : Currency) (m : Money) (ms : List Money) : Money.totalIn currency (m :: ms) =
      (if m.currency = currency then m.amount else 0) + Money.totalIn currency ms := by
  by_cases h : m.currency = currency <;> simp [Money.totalIn, h]

theorem Money.totalIn_append (currency : Currency) (ms ns : List Money) :
    Money.totalIn currency (ms ++ ns) = Money.totalIn currency ms + Money.totalIn currency ns := by
  simp [Money.totalIn]

/-! ## Instants -/

/-- A `datetime` can hold the instant. -/
def Representable (t : ℤ) : Prop := -62135596800000000 ≤ t ∧ t < 253402300800000000

instance (t : DateTime) : Decidable (Representable t) := inferInstanceAs (Decidable (_ ∧ _))

theorem representable_zero : Representable 0 := by decide

/-- A UTC `datetime`, by its microseconds since 1970. -/
abbrev Instant : Type := {t : ℤ // Representable t}

instance (t u : Instant) : Decidable (t ≤ u) := Int.decLe t u

instance (t u : Instant) : Decidable (t < u) := Int.decLt t u

namespace Instant

def second : ℤ := 1000000

/-- `datetime + timedelta`, which raises where the result is out of range. -/
def add? (t : Instant) (delta : ℤ) : Option Instant :=
  if h : Representable (t + delta) then some ⟨t + delta, h⟩ else none

theorem add?_eq_some_iff {t u : Instant} {delta : ℤ} : t.add? delta = some u ↔ (u : ℤ) = t + delta := by
  unfold add?
  constructor
  · intro h
    split_ifs at h with hrange
    rw [← Option.some.inj h]
  · intro h
    have hrange : Representable (t + delta) := by
      rw [← h]
      exact u.2
    rw [dif_pos hrange]
    exact congrArg some (Subtype.ext h.symm)

end Instant

end TradingAgent
