import TradingAgent.PortfolioReducer.CostBasis
import TradingAgent.PortfolioReducer.Reducer

/-! Digests, identities and the effects of fills in a lineage. -/

namespace TradingAgent.PortfolioReducer

open Outcome AverageCost

theorem requireDigest_eq (event : PortfolioEvent) : requireDigest event = .ok () :=
  forM_ok_iff.2 fun _ _ => require_of _ (converts_lifted _)

@[ext] structure LotBase where
  quantity : Decimal
  average : Option Price
  flat_iff : quantity = 0 ↔ average = none

namespace LotBase

def flat : LotBase := ⟨0, none, by simp⟩

def account (base : LotBase) (fills : List FillEvent) : Account ℚ :=
  (Account.opened (base.quantity : ℚ) (base.average.elim 0 fun p => p.amount)).bookAll (fills.map trade)

theorem account_concat (base : LotBase) (fills : List FillEvent) (fill : FillEvent) :
    base.account (fills ++ [fill]) = (base.account fills).book (trade fill) := by
  simp [account]

theorem account_nil (base : LotBase) :
    base.account [] = ⟨base.quantity, openingBasis base.quantity base.average, 0⟩ := by
  cases h : base.average with
  | none => simp [account, Account.opened, openingBasis, h]
  | some price => simp [account, Account.opened, openingBasis, h]

@[simp] theorem account_nil_quantity (base : LotBase) : (base.account []).quantity = base.quantity := rfl

@[simp] theorem account_nil_realized (base : LotBase) : (base.account []).realized = 0 := rfl

theorem account_flat (fills : List FillEvent) : flat.account fills = Account.flat.bookAll (fills.map trade) := by
  simp [account, flat, Account.opened, Account.flat]

end LotBase

def roundedAverage (settlement : Currency) (account : Account ℚ) : Option Price :=
  if account.quantity = 0 then none
  else Price.ofDecimal? (rounded settlement.precision account.average) settlement

def AverageFits (settlement : Currency) (account : Account ℚ) : Prop :=
  account.quantity ≠ 0 → 0 < rounded settlement.precision account.average

variable {settlement : Currency}

theorem roundedAverage_eq_none_iff {account : Account ℚ} (h : AverageFits settlement account) :
    roundedAverage settlement account = none ↔ account.quantity = 0 := by
  unfold roundedAverage
  split_ifs with hq
  · simp [hq]
  · simp [Price.ofDecimal?, h hq, hq]

theorem roundedAverage_eq_some {account : Account ℚ} {p : Price} (h : roundedAverage settlement account = some p) :
    p.amount = rounded settlement.precision account.average ∧ p.currency = settlement := by
  unfold roundedAverage Price.ofDecimal? at h
  split_ifs at h with hq hp
  obtain rfl := Option.some.inj h
  exact ⟨rfl, rfl⟩

def LotBase.averageAfter (base : LotBase) (fills : List FillEvent) : Option Price :=
  match fills.getLast? with
  | none => base.average
  | some fill => roundedAverage fill.instrumentDefinition.settlementCurrency (base.account fills)

@[simp] theorem LotBase.averageAfter_nil (base : LotBase) : base.averageAfter [] = base.average := rfl

@[simp] theorem LotBase.averageAfter_concat (base : LotBase) (fills : List FillEvent)
    (fill : FillEvent) : base.averageAfter (fills ++ [fill]) =
      roundedAverage fill.instrumentDefinition.settlementCurrency (base.account (fills ++ [fill])) := by
  simp [averageAfter]

def settlementFee (fill : FillEvent) : Decimal :=
  if fill.commission.currency = fill.instrumentDefinition.settlementCurrency then fill.commission.amount
  else 0

def roundedRealized (settlement : Currency) (account : Account ℚ) : Decimal :=
  rounded settlement.precision account.realized

def nonzero (m : Money) : List Money := if m.amount ≠ 0 then [m] else []

/-- `e` is the exact effect of its fill after the fills `prior` on `base`. -/
structure EffectOf (base : LotBase) (prior : List FillEvent) (e : PortfolioExecutionEffect) : Prop where
  quantityBefore : (e.quantityBefore.value : ℚ) = (base.account prior).quantity
  averageBefore : e.averageBefore = base.averageAfter prior
  averageBefore_isSome : e.quantityBefore.value = 0 ∨ e.averageBefore.isSome = true
  averageBefore_currency : ∀ average ∈ e.averageBefore,
    average.currency = e.fill.instrumentDefinition.settlementCurrency
  quantityDelta : e.quantityDelta.value = signedFill e.fill
  quantityDelta_precision : e.quantityDelta.precision = e.fill.quantity.precision
  averageAfter : e.averageAfter = base.averageAfter (prior ++ [e.fill])
  averageFits : AverageFits e.fill.instrumentDefinition.settlementCurrency
    (base.account (prior ++ [e.fill]))
  residualFits : QuantityFits (e.quantityBefore.value + signedFill e.fill) e.fill.quantity.precision
  realized : e.realizedPnlDelta.amount =
    roundedRealized e.fill.instrumentDefinition.settlementCurrency (base.account (prior ++ [e.fill])) -
      roundedRealized e.fill.instrumentDefinition.settlementCurrency (base.account prior)
  cash : PortfolioReducer.cashDeltas e.fill = .ok e.cashDeltas
  balanceRealized : e.balanceRealizedPnlDeltas = nonzero e.realizedPnlDelta
  balanceFees : e.balanceFeeDeltas = nonzero e.fill.commission
  fees : e.feesDelta.amount = settlementFee e.fill

/-- Every effect of the list is the exact effect of its fill after the ones before it. -/
def Chain (base : LotBase) (effects : List PortfolioExecutionEffect) : Prop :=
  ∀ pre e post, effects = pre ++ e :: post → EffectOf base (pre.map fun e => e.fill) e

def fills (effects : List PortfolioExecutionEffect) : List FillEvent := effects.map fun e => e.fill

@[simp] theorem fills_nil : fills [] = [] := rfl

@[simp] theorem fills_append (es fs : List PortfolioExecutionEffect) : fills (es ++ fs) = fills es ++ fills fs := by
  simp [fills]

@[simp] theorem fills_singleton (e : PortfolioExecutionEffect) : fills [e] = [e.fill] := rfl

theorem chain_nil (base : LotBase) : Chain base [] := by
  intro pre e post h
  simp at h

variable {base : LotBase} {es : List PortfolioExecutionEffect}

theorem Chain.left {fs : List PortfolioExecutionEffect} (h : Chain base (es ++ fs)) : Chain base es := by
  rintro pre e post rfl
  exact h pre e (post ++ fs) (by simp)

variable {e : PortfolioExecutionEffect}

theorem Chain.last (h : Chain base (es ++ [e])) : EffectOf base (fills es) e :=
  h es e [] rfl

theorem Chain.concat (h : Chain base es) (he : EffectOf base (fills es) e) : Chain base (es ++ [e]) := by
  intro pre e' post heq
  rcases List.eq_nil_or_concat post with rfl | ⟨post', last, rfl⟩
  · obtain ⟨rfl, hl⟩ := List.append_inj' heq rfl
    obtain rfl := (List.cons.inj hl).1
    exact he
  · rw [List.concat_eq_append, ← List.cons_append, ← List.append_assoc] at heq
    obtain ⟨rfl, -⟩ := List.append_inj' heq rfl
    exact h pre e' post' rfl

variable {effects : List PortfolioExecutionEffect}

theorem foldlM_accountEffect (h : Chain base effects) :
    effects.foldlM accountEffect (base.account []) = .ok (base.account (fills effects)) := by
  induction effects using List.reverseRecOn with
  | nil => rfl
  | append_singleton es e ih =>
    rw [List.foldlM_append, ih h.left]
    have he := accountEffect_eq (base.account (fills es)) e h.last.quantityBefore
    rw [fills_append, fills_singleton, base.account_concat]
    simp only [ok_bind, List.foldlM_cons, List.foldlM_nil, he, pure_eq_ok]

theorem Chain.head (h : Chain base (e :: es)) :
    e.quantityBefore.value = base.quantity ∧ e.averageBefore = base.average := by
  have he : EffectOf base [] e := h [] e es rfl
  exact ⟨Subtype.ext he.quantityBefore, he.averageBefore⟩

theorem LotBase.average_isSome (base : LotBase) : base.quantity = 0 ∨ base.average.isSome = true := by
  by_cases h : base.quantity = 0
  · exact .inl h
  · right
    rw [Option.isSome_iff_ne_none]
    exact fun hn => h (base.flat_iff.2 hn)

variable {current : Decimal} {average : Option Price}

theorem Chain.lineageStart_eq (h : Chain base effects)
    (hcurrent : (current : ℚ) = (base.account (fills effects)).quantity)
    (haverage : effects = [] → average = base.average) :
    lineageStart effects current average = (base.quantity, base.average) := by
  cases effects with
  | nil => exact Prod.ext (Subtype.ext hcurrent) (haverage rfl)
  | cons first rest => exact Prod.ext h.head.1 h.head.2

theorem accountingBefore_of_chain {base : LotBase} {effects : List PortfolioExecutionEffect}
    {key : PositionKey} {current : Decimal} {average : Option Price} (h : Chain base (lineage effects key))
    (hcurrent : (current : ℚ) = (base.account (fills (lineage effects key))).quantity)
    (haverage : lineage effects key = [] → average = base.average) :
    accountingBefore effects key current average = .ok ((base.account (fills (lineage effects key))).basis,
        (base.account (fills (lineage effects key))).realized) := by
  unfold accountingBefore
  simp only [h.lineageStart_eq hcurrent haverage, fractions_eq, ok_bind]
  rw [require_of _ base.average_isSome, ← base.account_nil, foldlM_accountEffect h]
  simp only [ok_bind]
  rw [require_of _ hcurrent.symm]
  rfl

theorem costBasisBefore_of_chain {key : PositionKey} (h : Chain base (lineage effects key))
    (hcurrent : (current : ℚ) = (base.account (fills (lineage effects key))).quantity)
    (haverage : lineage effects key = [] → average = base.average) :
    costBasisBefore effects key current average = .ok (base.account (fills (lineage effects key))).basis := by
  unfold costBasisBefore
  rw [accountingBefore_of_chain h hcurrent haverage]
  rfl

/-- What `_fill_accounting` returns for a fill on an account. -/
def bookedFill (account : Account ℚ) (current : Decimal) (fill : FillEvent) : FillAccounting where
  signedFill := signedFill fill
  residual := current + signedFill fill
  nextAverage := roundedAverage fill.instrumentDefinition.settlementCurrency
    (account.book (trade fill))
  realized := account.profit (trade fill)
  feeDelta := settlementFee fill
  basisAfter := (account.book (trade fill)).basis

theorem weightedAverage_ok_iff {account : Account ℚ} {r : Option Price} :
    weightedAverage settlement account.quantity account.basis = .ok r ↔
      AverageFits settlement account ∧ r = roundedAverage settlement account := by
  unfold weightedAverage AverageFits roundedAverage
  split_ifs with hq
  · simp [hq, eq_comm]
  · simp only [roundedDecimal_eq, ok_bind, price, Price.ofDecimal?, Account.average]
    by_cases hp : 0 < rounded settlement.precision (account.basis / |account.quantity|)
    · simp [hq, hp, eq_comm]
    · simp [hq, hp]

theorem fillAccounting_ok_iff {account : Account ℚ} {fill : FillEvent}
    {r : FillAccounting} (h : (current : ℚ) = account.quantity) :
    fillAccounting fill current average account.basis = .ok r ↔ (current = 0 ∨ average.isSome = true) ∧
      AverageFits fill.instrumentDefinition.settlementCurrency (account.book (trade fill)) ∧
      r = bookedFill account current fill := by
  have hres : (current : ℚ) + signedFill fill = (account.book (trade fill)).quantity := by
    rw [h]
    rfl
  have hadv : (advancedCostBasis current account.basis fill).2 = (account.book (trade fill)).basis := by
    rw [h, advancedCostBasis_eq]
  have hreal : realizedForFill fill current account.basis = account.profit (trade fill) := by
    rw [h, realizedForFill_eq]
  unfold fillAccounting
  simp only [sum_eq, fractions_eq, ok_bind, bind_ok_iff, require_ok_iff, exists_const, hres, hadv, hreal,
    weightedAverage_ok_iff, List.sum_cons, List.sum_nil, add_zero]
  constructor
  · rintro ⟨haverage, next, ⟨hfits, rfl⟩, hr⟩
    exact ⟨haverage, hfits, (Except.ok.inj hr).symm⟩
  · rintro ⟨haverage, hfits, rfl⟩
    exact ⟨haverage, _, ⟨hfits, rfl⟩, rfl⟩

@[simp] theorem realizedDelta_eq (settlement : Currency) (before realized : ℚ) :
    realizedDelta settlement before realized =
      .ok (rounded settlement.precision (before + realized) - rounded settlement.precision before) := by
  unfold realizedDelta
  simp [sub_eq_add_neg]

theorem nonzeroDelta_of {amount : Decimal} {currency : Currency} (field : String) (m : Money)
    (ha : m.amount = amount) (hc : m.currency = currency) : nonzeroDelta amount currency field = .ok (nonzero m) := by
  subst ha hc
  unfold nonzeroDelta nonzero
  split_ifs
  · rw [money_of field m.exact]
    rfl
  · rfl

theorem cashDeltas_ok (fill : FillEvent) : ∃ deltas, cashDeltas fill = .ok deltas := by
  unfold cashDeltas
  simp only [roundedDecimal_eq, fractions_eq, ok_bind]
  generalize List.filter _ _ = entries
  induction entries with
  | nil => exact ⟨[], rfl⟩
  | cons e entries ih =>
    obtain ⟨deltas, h⟩ := ih
    refine ⟨⟨rounded e.1.precision e.2, e.1, rounded_atScale _ _⟩ :: deltas, ?_⟩
    rw [List.mapM_cons, h, money_of "cash delta" (rounded_atScale _ _)]
    rfl

end TradingAgent.PortfolioReducer
