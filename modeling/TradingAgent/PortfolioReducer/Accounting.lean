import TradingAgent.Lib.HalfEven
import TradingAgent.Lib.AverageCost
import TradingAgent.Domain.DigitLimits
import TradingAgent.PortfolioReducer.Models

/-!
# Exact accounting of one fill

The arithmetic of the reducer: exact decimals, half-even rounding at currency precision, and the
average-cost accounting of a fill against the retained effects of its position. A `Decimal` becomes a
fraction by `int` and a fraction a `Decimal` by `str`, so that both fail beyond the limit on digits.
-/

namespace TradingAgent.PortfolioReducer

open Outcome AverageCost

/-- `_fraction` of each amount, for its errors: `int` reads the digits of the coefficient. -/
def fractions [DigitLimit] (values : List Decimal) : Except Failure Unit :=
  values.forM fun value => require (Written value) (digitsUnread (exactCoefficient value))

def decimal [DigitLimit] (value : ℚ) (field : String) : Except Failure Decimal :=
  match exactDecimal? value with
  | some d => do
    require (Written value) digitsExceeded
    .ok d
  | none => .error (.portfolioReplayError (field ++ " cannot be represented exactly as a Decimal"))

def roundedDecimal [DigitLimit] (value : ℚ) (precision : ℕ) (field : String) : Except Failure Decimal :=
  let scale : ℚ := 10 ^ precision
  let scaled := value * scale
  let quotient := halfEvenMagnitude scaled.num.natAbs scaled.den
  decimal ((if scaled < 0 then -1 else 1) * quotient / scale) field

def sum [DigitLimit] (values : List Decimal) (field : String) : Except Failure Decimal := do
  fractions values
  decimal (values.map fun v : Decimal => (v : ℚ)).sum field

def product [DigitLimit] (values : List Decimal) (field : String) : Except Failure Decimal := do
  fractions values
  decimal (values.map fun v : Decimal => (v : ℚ)).prod field

def money (amount : Decimal) (currency : Currency) (field : String) : Except Failure Money :=
  match Money.ofDecimal? amount currency with
  | some m => .ok m
  | none => .error (.portfolioReplayError (field ++ " is not exact at currency precision"))

def quantity (amount : Decimal) (precision : ℕ) : Except Failure Quantity :=
  match Quantity.ofDecimal? amount precision with
  | some q => .ok q
  | none => .error (.portfolioReplayError "position quantity is not exact")

def price (amount : Decimal) (currency : Currency) : Except Failure Price :=
  match Price.ofDecimal? amount currency with
  | some p => .ok p
  | none => .error (.valueError "price amount must be positive")

def signedFill (fill : FillEvent) : Decimal :=
  match fill.side with
  | .buy => fill.quantity.value
  | .sell => -fill.quantity.value

def tradeDelta (fill : FillEvent) : ℚ :=
  let gross : ℚ := fill.quantity.value * fill.lastFillPrice.amount * fill.instrumentDefinition.multiplier
  match fill.side with
  | .buy => -gross
  | .sell => gross

def cashByCurrency (fill : FillEvent) : Dict Currency ℚ :=
  let byCurrency : Dict Currency ℚ :=
    [(fill.instrumentDefinition.settlementCurrency, tradeDelta fill)]
  byCurrency.set fill.commission.currency
    ((byCurrency.get? fill.commission.currency).getD 0 - fill.commission.amount)

/-- The amounts of a fill whose product is its value. -/
def tradeAmounts (fill : FillEvent) : List Decimal :=
  [fill.quantity.value, fill.lastFillPrice.amount, fill.instrumentDefinition.multiplier]

def cashDeltas [DigitLimit] (fill : FillEvent) : Except Failure (List Money) := do
  fractions (tradeAmounts fill ++ [fill.commission.amount])
  ((sortBy (fun e => e.1.code) (cashByCurrency fill)).filter fun e => e.2 ≠ 0).mapM fun e => do
    money (← roundedDecimal e.2 e.1.precision "cash delta") e.1 "cash delta"

def advancedCostBasis (current basis : ℚ) (fill : FillEvent) : ℚ × ℚ :=
  let signed : ℚ := signedFill fill
  let residual := current + signed
  let fillBasis := |signed| * fill.lastFillPrice.amount
  if residual = 0 then (residual, 0)
  else if current = 0 ∨ current * residual < 0 then
    (residual, |residual| * fill.lastFillPrice.amount)
  else if current * signed > 0 then (residual, basis + fillBasis)
  else (residual, basis * |residual| / |current|)

def realizedForFill (fill : FillEvent) (current basisBefore : ℚ) : ℚ :=
  let signed : ℚ := signedFill fill
  let closed := min |current| |signed|
  let multiplier : ℚ := fill.instrumentDefinition.multiplier
  let price : ℚ := fill.lastFillPrice.amount
  if current > 0 ∧ signed < 0 then (price - basisBefore / |current|) * closed * multiplier
  else if current < 0 ∧ signed > 0 then (basisBefore / |current| - price) * closed * multiplier
  else 0

def lineage (activeEffects : List PortfolioExecutionEffect) (positionKey : PositionKey) :
    List PortfolioExecutionEffect :=
  sortBy (fun e => e.logicalSequence) (activeEffects.filter fun e => e.positionKey = positionKey)

/-- One round of the loop of `_accounting_before`: quantity, basis and realized profit so far. -/
def accountEffect [DigitLimit] (account : Account ℚ) (effect : PortfolioExecutionEffect) :
    Except Failure (Account ℚ) := do
  fractions (effect.quantityBefore.value :: tradeAmounts effect.fill)
  require ((effect.quantityBefore.value : ℚ) = account.quantity)
    (.portfolioReplayError "active execution quantity lineage is inconsistent")
  let realized := account.realized + realizedForFill effect.fill account.quantity account.basis
  let advanced := advancedCostBasis account.quantity account.basis effect.fill
  .ok ⟨advanced.1, advanced.2, realized⟩

def lineageStart (effects : List PortfolioExecutionEffect) (current : Decimal)
    (averageBefore : Option Price) : Decimal × Option Price :=
  match effects with
  | first :: _ => (first.quantityBefore.value, first.averageBefore)
  | [] => (current, averageBefore)

def openingBasis (quantity : Decimal) (average : Option Price) : ℚ :=
  match average with
  | some price => |(quantity : ℚ)| * price.amount
  | none => 0

/-- `_accounting_before`: the cost basis of the open lot and the realized profit. -/
def accountingBefore [DigitLimit] (activeEffects : List PortfolioExecutionEffect) (positionKey : PositionKey)
    (current : Decimal) (averageBefore : Option Price) : Except Failure (ℚ × ℚ) := do
  let effects := lineage activeEffects positionKey
  let start := lineageStart effects current averageBefore
  fractions (current :: start.1 :: (start.2.map fun average => average.amount).toList)
  require (start.1 = 0 ∨ start.2.isSome = true)
    (.portfolioReplayError "non-zero position requires an average entry price")
  let account ← effects.foldlM accountEffect ⟨start.1, openingBasis start.1 start.2, 0⟩
  require (account.quantity = current)
    (.portfolioReplayError "active execution cost basis does not match position")
  .ok (account.basis, account.realized)

def costBasisBefore [DigitLimit] (activeEffects : List PortfolioExecutionEffect) (positionKey : PositionKey)
    (current : Decimal) (averageBefore : Option Price) : Except Failure ℚ := do
  let accounting ← accountingBefore activeEffects positionKey current averageBefore
  .ok accounting.1

structure FillAccounting where
  (signedFill residual : Decimal)
  nextAverage : Option Price
  realized : ℚ
  feeDelta : Decimal
  basisAfter : ℚ

def weightedAverage [DigitLimit] (settlement : Currency) (residual basisAfter : ℚ) : Except Failure (Option Price) :=
  if residual = 0 then .ok none
  else do
    let amount ← roundedDecimal (basisAfter / |residual|) settlement.precision "weighted average"
    let average ← price amount settlement
    .ok (some average)

def fillAccounting [DigitLimit] (fill : FillEvent) (current : Decimal) (averageBefore : Option Price)
    (basisBefore : ℚ) : Except Failure FillAccounting := do
  let settlement := fill.instrumentDefinition.settlementCurrency
  let signed := signedFill fill
  let residual ← sum [current, signed] "position quantity"
  fractions (tradeAmounts fill)
  let residualFraction : ℚ := current + signed
  require (current = 0 ∨ averageBefore.isSome = true)
    (.portfolioReplayError "non-zero position requires an average entry price")
  let realized := realizedForFill fill current basisBefore
  let basisAfter := (advancedCostBasis current basisBefore fill).2
  let nextAverage ← weightedAverage settlement residualFraction basisAfter
  let feeDelta := if fill.commission.currency = settlement then fill.commission.amount else 0
  .ok ⟨signed, residual, nextAverage, realized, feeDelta, basisAfter⟩

def realizedDelta [DigitLimit] (settlement : Currency) (realizedBefore realized : ℚ) : Except Failure Decimal := do
  let after ← roundedDecimal (realizedBefore + realized) settlement.precision "realized PnL"
  let before ← roundedDecimal realizedBefore settlement.precision "realized PnL"
  sum [after, -before] "realized PnL delta"

def markAndUnrealized [DigitLimit] (position : PortfolioPositionState) (quantity : Quantity)
    (averageEntryPrice : Option Price) (costBasis : ℚ) (retainedMark : Option PositionMark) :
    Except Failure (Option PositionMark × Money) := do
  let settlement := position.settlementCurrency
  if quantity.value = 0 then
    let zero ← money 0 settlement "flat position unrealized PnL"
    return (none, zero)
  match retainedMark.or position.mark with
  | none =>
    let zero ← money 0 settlement "unmarked position unrealized PnL"
    return (none, zero)
  | some mark =>
    match averageEntryPrice, position.instrumentDefinition with
    | some _, some definition =>
      fractions [mark.price.amount, quantity.value, definition.multiplier]
      let exact : ℚ := (mark.price.amount - costBasis / |(quantity.value : ℚ)|) *
        quantity.value * definition.multiplier
      let amount ← roundedDecimal exact settlement.precision "unrealized PnL"
      let unrealized ← money amount settlement "unrealized PnL"
      return (some mark, unrealized)
    | _, _ =>
      throw (.portfolioReplayError "marked position requires cost basis and instrument definition")

end TradingAgent.PortfolioReducer
