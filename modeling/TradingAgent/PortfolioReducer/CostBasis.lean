import TradingAgent.PortfolioReducer.Accounting

/-! The effect of a fill on a position, rounding included. -/

namespace TradingAgent.PortfolioReducer

open Outcome AverageCost

/-! ## Without a limit on digits -/

@[simp] theorem fractions_eq (values : List Decimal) : fractions values = .ok () :=
  forM_ok_iff.2 fun _ _ => require_of _ (converts_lifted _)

@[simp] theorem decimal_coe (d : Decimal) (field : String) : decimal d field = .ok d := by
  have h : Written (d : ℚ) := converts_lifted _
  unfold decimal
  simp only [exactDecimal?_coe, require_of _ h, ok_bind]

@[simp] theorem sum_eq (values : List Decimal) (field : String) : sum values field = .ok values.sum := by
  unfold sum
  rw [fractions_eq, ok_bind, ← AddSubmonoidClass.coe_list_sum, decimal_coe]

@[simp] theorem product_eq (values : List Decimal) (field : String) : product values field = .ok values.prod := by
  unfold product
  rw [fractions_eq, ok_bind, ← SubmonoidClass.coe_list_prod, decimal_coe]

/-! ## Rounding -/

def rounded (precision : ℕ) (value : ℚ) : Decimal :=
  .scaled (halfEven (value * 10 ^ precision)) precision

theorem rounded_atScale (precision : ℕ) (value : ℚ) : AtScale precision (rounded precision value) :=
  atScale_iff.2 ⟨_, rfl⟩

@[simp] theorem rounded_zero (precision : ℕ) : rounded precision 0 = 0 := by
  apply Subtype.ext
  simp [rounded, Decimal.scaled]

@[simp] theorem roundedDecimal_eq (value : ℚ) (precision : ℕ) (field : String) :
    roundedDecimal value precision field = .ok (rounded precision value) := by
  unfold roundedDecimal
  simp only
  rw [← halfEven_eq_sign_mul]
  exact decimal_coe (rounded precision value) field

variable {amount : Decimal} {currency : Currency}

theorem money_of (field : String)
    (h : AtScale currency.precision amount) : money amount currency field = .ok ⟨amount, currency, h⟩ := by
  unfold money Money.ofDecimal?
  rw [dif_pos h]

theorem money_ok_iff {field : String} {m : Money} :
    money amount currency field = .ok m ↔ m.amount = amount ∧ m.currency = currency := by
  constructor
  · intro h
    unfold money Money.ofDecimal? at h
    split_ifs at h with hs
    obtain rfl := Except.ok.inj h
    exact ⟨rfl, rfl⟩
  · rintro ⟨rfl, rfl⟩
    exact money_of field m.exact

variable {precision : ℕ}

theorem quantity_of (h : QuantityFits amount precision) : quantity amount precision = .ok ⟨amount, precision, h⟩ := by
  unfold quantity Quantity.ofDecimal?
  rw [dif_pos h]

theorem quantity_ok_iff {q : Quantity} :
    quantity amount precision = .ok q ↔ q.value = amount ∧ q.precision = precision := by
  constructor
  · intro h
    unfold quantity Quantity.ofDecimal? at h
    split_ifs at h with hs
    obtain rfl := Except.ok.inj h
    exact ⟨rfl, rfl⟩
  · rintro ⟨rfl, rfl⟩
    exact quantity_of q.fits

@[simp] theorem money_zero (currency : Currency) (field : String) :
    money 0 currency field = .ok (Money.zero currency) :=
  money_of field (by simp)

theorem money_amount_atScale (m : Money) (h : m.currency = currency) :
    AtScale currency.precision m.amount := h ▸ m.exact

def trade (fill : FillEvent) : Trade ℚ :=
  ⟨signedFill fill, fill.lastFillPrice.amount, fill.instrumentDefinition.multiplier⟩

theorem signedFill_ne_zero (fill : FillEvent) : ((signedFill fill : Decimal) : ℚ) ≠ 0 := by
  have h : (0 : ℚ) < fill.quantity.value := fill.valid.quantity_pos
  unfold signedFill
  cases fill.side with
  | buy => exact h.ne'
  | sell => simpa using h.ne'

theorem advancedCostBasis_eq (account : Account ℚ) (fill : FillEvent) :
    advancedCostBasis account.quantity account.basis fill =
      ((account.book (trade fill)).quantity, (account.book (trade fill)).basis) := by
  have hs : (trade fill).signed ≠ 0 := signedFill_ne_zero fill
  unfold advancedCostBasis
  simp only
  change (if account.quantity + (trade fill).signed = 0 then _ else _) = _
  split_ifs with hres hnew hinc
  · rw [account.book_basis_of_residual_zero (trade fill) hres]
    rfl
  · rw [account.book_basis_of_new_lot (trade fill) hnew]
    rfl
  · rw [account.book_basis_of_increase (trade fill) hinc]
    rfl
  · push Not at hnew
    have hopp : account.quantity * (trade fill).signed < 0 :=
      lt_of_le_of_ne (not_lt.1 hinc) (mul_ne_zero hnew.1 hs)
    rw [account.book_basis_of_reduce (trade fill) hopp hnew.2]
    rfl

theorem realizedForFill_eq (account : Account ℚ) (fill : FillEvent) :
    realizedForFill fill account.quantity account.basis = account.profit (trade fill) := by
  unfold realizedForFill
  simp only
  change (if account.quantity > 0 ∧ (trade fill).signed < 0 then _ else _) = _
  split_ifs with hlong hshort
  · rw [account.profit_of_opposite _ (mul_neg_of_pos_of_neg hlong.1 hlong.2), if_pos hlong.1]
    rfl
  · rw [account.profit_of_opposite _ (mul_neg_of_neg_of_pos hshort.1 hshort.2),
      if_neg hshort.1.not_gt]
    rfl
  · refine (account.profit_of_not_opposite _ fun h => ?_).symm
    rcases mul_neg_iff.1 h with h | h
    · exact hlong h
    · exact hshort h

theorem accountEffect_eq (account : Account ℚ) (effect : PortfolioExecutionEffect)
    (h : (effect.quantityBefore.value : ℚ) = account.quantity) :
    accountEffect account effect = .ok (account.book (trade effect.fill)) := by
  unfold accountEffect
  rw [fractions_eq, ok_bind, require_of _ h, advancedCostBasis_eq, realizedForFill_eq]
  rfl

end TradingAgent.PortfolioReducer
