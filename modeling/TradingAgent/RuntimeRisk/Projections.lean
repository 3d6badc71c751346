import TradingAgent.Domain.DigitLimits
import TradingAgent.Domain.RuntimeRisk

/-!
# Exact projections of one order

Conservative pricing and the portfolio after the order, computed with exact fractions. A fraction is turned into a
`Decimal` through the text of its coefficient, which the interpreter refuses to write from 4300 digits on.
-/

namespace TradingAgent.RuntimeRisk

open Outcome

/-- The exceptions of projection and evaluation; a `ProjectionError` is a `ValueError` of its own class. -/
inductive EvaluationFailure
  | projectionError (message : String)
  | valueError (message : String)
  deriving DecidableEq

/-! ## Exact arithmetic -/

/-- The coefficient can be written by `str`. -/
def DigitsFit (value : ℚ) : Prop := |exactCoefficient value| < 10 ^ intMaxStrDigits

instance (value : ℚ) : Decidable (DigitsFit value) := inferInstanceAs (Decidable (_ < _))

/-- The error of `str` on a longer integer. -/
def digitsExceeded : EvaluationFailure :=
  .valueError ("Exceeds the limit (4300 digits) for integer string conversion; " ++
    "use sys.set_int_max_str_digits() to increase the limit")

def decimalOf (value : ℚ) (field : String) : Except EvaluationFailure Decimal :=
  match exactDecimal? value with
  | none => .error (.projectionError (field ++ " cannot be represented exactly as a Decimal"))
  | some d => if DigitsFit value then .ok d else .error digitsExceeded

def sumOf (values : List Decimal) (field : String) : Except EvaluationFailure Decimal :=
  decimalOf (values.map fun d : Decimal => (d : ℚ)).sum field

def productOf (values : List Decimal) (field : String) : Except EvaluationFailure Decimal :=
  decimalOf (values.map fun d : Decimal => (d : ℚ)).prod field

def moneyOf (amount : Decimal) (currency : Currency) (field : String) : Except EvaluationFailure Money :=
  match Money.ofDecimal? amount currency with
  | some money => .ok money
  | none => .error (.projectionError (field ++ " is not exact at reporting currency precision"))

def quantityOf (amount : Decimal) (precision : ℕ) : Except EvaluationFailure Quantity :=
  match Quantity.ofDecimal? amount precision with
  | some quantity => .ok quantity
  | none => .error (.projectionError "projected position quantity is not exact")

/-! ## Lookups and prices -/

def oneByKey {α κ : Type} [DecidableEq κ] (values : List α) (key : κ) (keyOf : α → κ) (field : String) :
    Except EvaluationFailure α :=
  match onlyOne (values.filter fun value => keyOf value = key) with
  | some value => .ok value
  | none => .error (.projectionError ("exactly one " ++ field ++ " is required"))

/-- `max(candidates, key=amount)`: the first of the greatest prices. -/
def greatestPrice (first : Price) (rest : List Price) : Price :=
  rest.foldl (fun best price => if best.amount < price.amount then price else best) first

def priceCandidates (intent : OrderIntent) (market : RuntimeRiskMarketSnapshot) : Price × List Price :=
  (if intent.side = .buy then market.ask else market.bid,
    intent.limitPrice.toList ++ intent.triggerPrice.toList)

def riskPrice (intent : OrderIntent) (market : RuntimeRiskMarketSnapshot) (spec : RuntimeInstrumentRiskSpec) :
    Except EvaluationFailure Price := do
  let candidates := priceCandidates intent market
  require (∀ price ∈ candidates.1 :: candidates.2, price.currency = spec.settlementCurrency)
    (.projectionError "order and market prices must use settlement currency")
  return greatestPrice candidates.1 candidates.2

def projectionRate (source target : Currency) (observation : RuntimeRiskObservation)
    (policy : RuntimeRiskPolicy) (decidedAt : DateTime) : Except EvaluationFailure Decimal := do
  if source = target then return 1
  let conversion ← rescue (oneByKey observation.conversionRates (source.code, target.code)
      (fun item => (item.sourceCurrency.code, item.targetCurrency.code)) "conversion rate")
    (.projectionError "exact source/target conversion rate is required")
  require (conversion.sourceCurrency = source ∧ conversion.targetCurrency = target)
    (.projectionError "exact source/target conversion rate is required")
  require (conversion.observedAt ≤ decidedAt ∧
      decidedAt - conversion.observedAt ≤ TimeDelta.seconds policy.marketDataMaxAgeSeconds)
    (.projectionError "conversion rate is stale")
  return conversion.rate

def reportingNotional (quantity : Decimal) (price : Price) (rate : Decimal) (field : String) :
    Except EvaluationFailure Decimal :=
  productOf [quantity, price.amount, rate] field

/-! ## Partitions of the current exposure -/

abbrev Partition (α : Type) := Dict String (α × α)

/-- `amounts.get(key, (0, 0))` -/
def Partition.amounts {α : Type} [Zero α] (partition : Partition α) (key : String) : α × α :=
  (partition.get? key).getD (0, 0)

@[ext] structure Partitions (α : Type) where
  instruments : Partition α
  strategies : Partition α
  venues : Partition α

def addPartitionContribution (partition : Partition Decimal) (key : String) (signedNotional : Decimal)
    (field : String) : Except EvaluationFailure (Partition Decimal) := do
  let gross ← sumOf [(partition.amounts key).1, |signedNotional|] (field ++ " gross")
  let net ← sumOf [(partition.amounts key).2, signedNotional] (field ++ " net")
  return partition.set key (gross, net)

/-- One round of `_position_contributions`. -/
def addPosition (observation : RuntimeRiskObservation) (policy : RuntimeRiskPolicy) (decidedAt : DateTime)
    (partitions : Partitions Decimal) (position : AccountPositionSnapshot) :
    Except EvaluationFailure (Partitions Decimal) := do
  if position.quantity.value = 0 then return partitions
  match position.mark with
  | none => throw (.projectionError "non-zero position requires a marked contribution")
  | some mark =>
    let rate ← projectionRate position.settlementCurrency observation.portfolio.reportingCurrency
      observation policy decidedAt
    let signed ← reportingNotional position.quantity.value mark.price rate
      "current marked position notional"
    let instruments ← addPartitionContribution partitions.instruments position.instrument.canonical signed
      "instrument exposure"
    let strategies ← addPartitionContribution partitions.strategies position.strategyId signed
      "strategy exposure"
    let venues ← addPartitionContribution partitions.venues position.instrument.venue signed
      "venue exposure"
    return ⟨instruments, strategies, venues⟩

def positionContributions (observation : RuntimeRiskObservation) (policy : RuntimeRiskPolicy)
    (decidedAt : DateTime) : Except EvaluationFailure (Partitions Decimal) :=
  observation.portfolio.positions.foldlM (addPosition observation policy decidedAt) ⟨[], [], []⟩

def assertExposure (actual : ExposureSnapshot) (expected : Decimal × Decimal) (reporting : Currency)
    (field : String) : Except EvaluationFailure Unit := do
  require (actual.currency = reporting)
    (.projectionError (field ++ " partition currency is inconsistent"))
  require (actual.gross.amount = expected.1 ∧ actual.net.amount = expected.2)
    (.projectionError (field ++ " partition is inconsistent"))

def instrumentExposuresOf (portfolio : AccountPortfolioSnapshot) : Dict String ExposureSnapshot :=
  Dict.ofList (portfolio.instrumentExposures.map fun item => (item.instrument.canonical, item.exposure))

def strategyExposuresOf (portfolio : AccountPortfolioSnapshot) : Dict String ExposureSnapshot :=
  Dict.ofList (portfolio.strategyExposures.map fun item => (item.strategyId, item.exposure))

def venueExposuresOf (portfolio : AccountPortfolioSnapshot) : Dict String ExposureSnapshot :=
  Dict.ofList (portfolio.venueExposures.map fun item => (item.venueId, item.exposure))

/-- One round of the loop over the collections in `_verify_partitions`. -/
def verifyCollection (portfolio : AccountPortfolioSnapshot) (actual : Dict String ExposureSnapshot)
    (expected : Partition Decimal) (field : String) : Except EvaluationFailure Unit := do
  require (∀ key ∈ expected.keys, key ∈ actual.keys)
    (.projectionError (field ++ " partition is missing for non-zero position"))
  actual.forM fun entry =>
    assertExposure entry.2 (expected.amounts entry.1) portfolio.reportingCurrency field
  let pending ← sumOf (actual.values.map fun value => value.pending.amount) (field ++ " pending exposure")
  require (pending = portfolio.totalExposure.pending.amount)
    (.projectionError (field ++ " pending partitions are inconsistent with total pending"))

def verifyPartitions (observation : RuntimeRiskObservation) (partitions : Partitions Decimal) :
    Except EvaluationFailure Unit := do
  let portfolio := observation.portfolio
  let totalGross ← sumOf (partitions.instruments.values.map Prod.fst) "recomputed total gross"
  let totalNet ← sumOf (partitions.instruments.values.map Prod.snd) "recomputed total net"
  assertExposure portfolio.totalExposure (totalGross, totalNet) portfolio.reportingCurrency "total exposure"
  verifyCollection portfolio (instrumentExposuresOf portfolio) partitions.instruments "instrument"
  verifyCollection portfolio (strategyExposuresOf portfolio) partitions.strategies "strategy"
  verifyCollection portfolio (venueExposuresOf portfolio) partitions.venues "venue"

/-! ## Projection -/

def matchingPositions (intent : OrderIntent) (observation : RuntimeRiskObservation) :
    List AccountPositionSnapshot :=
  observation.portfolio.positions.filter fun position =>
    position.strategyId = intent.strategyId ∧ position.instrument.canonical = intent.instrument.canonical

def matchingPosition (intent : OrderIntent) (observation : RuntimeRiskObservation)
    (spec : RuntimeInstrumentRiskSpec) : Except EvaluationFailure (Option AccountPositionSnapshot) :=
  match matchingPositions intent observation with
  | [] => .ok none
  | [position] => do
    require (position.instrument = intent.instrument)
      (.projectionError "position instrument does not exactly match order instrument")
    require (position.settlementCurrency = spec.settlementCurrency)
      (.projectionError "position currency does not match instrument settlement currency")
    return some position
  | _ => .error (.projectionError "matching position key is not unique")

def replaceGross (currentGross currentNotional projectedNotional : Decimal) (field : String) :
    Except EvaluationFailure Decimal :=
  sumOf [currentGross, -|currentNotional|, |projectedNotional|] field

@[ext] structure OrderAuthority where
  spec : RuntimeInstrumentRiskSpec
  market : RuntimeRiskMarketSnapshot
  balance : AccountBalanceSnapshot
  rate : Decimal
  price : Price

/-- The checks and lookups at the start of `project_runtime_order`. -/
def orderAuthority (intent : OrderIntent) (observation : RuntimeRiskObservation) (policy : RuntimeRiskPolicy)
    (decidedAt : DateTime) : Except EvaluationFailure OrderAuthority := do
  let portfolio := observation.portfolio
  let reporting := portfolio.reportingCurrency
  require (intent.accountId = policy.accountId ∧ policy.accountId = portfolio.accountId)
    (.projectionError "order, policy, and portfolio accounts must match")
  require (∀ value ∈ policy.moneys, value.currency = reporting)
    (.projectionError "policy currency must match portfolio reporting currency")
  let spec ← oneByKey observation.instrumentSpecs intent.instrument.canonical
    (fun item => item.instrument.canonical) "instrument risk spec"
  let market ← oneByKey observation.marketSnapshots intent.instrument.canonical
    (fun item => item.instrument.canonical) "market snapshot"
  require (spec.instrument = intent.instrument ∧ market.instrument = intent.instrument)
    (.projectionError "instrument authority does not exactly match order instrument")
  require (spec.venueId = intent.instrument.venue)
    (.projectionError "instrument venue authority does not match order venue")
  let venue ← oneByKey observation.venueHealth spec.venueId (fun item => item.venueId)
    "venue health record"
  require (venue.venueId = spec.venueId)
    (.projectionError "venue authority does not exactly match order venue")
  require (∀ price ∈ [market.bid, market.ask, market.last], price.currency = spec.settlementCurrency)
    (.projectionError "market currency does not match instrument settlement currency")
  let balance ← oneByKey portfolio.balances reporting.code (fun item => item.currency.code)
    "reporting balance"
  require (balance.currency = reporting) (.projectionError "reporting balance currency is inconsistent")
  let rate ← projectionRate spec.settlementCurrency reporting observation policy decidedAt
  let price ← riskPrice intent market spec
  return ⟨spec, market, balance, rate, price⟩

def signedOrderQuantity (intent : OrderIntent) : Decimal :=
  if intent.side = .buy then intent.quantity.value else -intent.quantity.value

def currentNotional (current : Option AccountPositionSnapshot) (rate : Decimal) :
    Except EvaluationFailure Decimal :=
  match current with
  | none => .ok 0
  | some position =>
    if position.quantity.value = 0 then .ok 0
    else match position.mark with
      | none => .error (.projectionError "non-zero matching position requires a mark")
      | some mark => reportingNotional position.quantity.value mark.price rate
          "matching current position notional"

@[ext] structure ProjectedAmounts where
  pending : Decimal
  gross : Decimal
  net : Decimal
  strategyGross : Decimal
  venueGross : Decimal
  instrumentGross : Decimal
  marginUsed : Decimal
  availableFunds : Decimal

/-- The sums of `project_runtime_order` once both notionals of the position are known. -/
def projectAmounts (intent : OrderIntent) (portfolio : AccountPortfolioSnapshot) (authority : OrderAuthority)
    (partitions : Partitions Decimal) (orderNotional current projected : Decimal) :
    Except EvaluationFailure ProjectedAmounts := do
  let pending ← sumOf [portfolio.totalExposure.pending.amount, orderNotional] "projected pending exposure"
  let gross ← replaceGross portfolio.totalExposure.gross.amount current projected "projected gross exposure"
  let net ← sumOf [portfolio.totalExposure.net.amount, -current, projected] "projected net exposure"
  let strategyGross ← replaceGross (partitions.strategies.amounts intent.strategyId).1 current projected
    "projected strategy gross exposure"
  let venueGross ← replaceGross (partitions.venues.amounts authority.spec.venueId).1 current projected
    "projected venue gross exposure"
  let instrumentGross ← replaceGross (partitions.instruments.amounts intent.instrument.canonical).1 current
    projected "projected instrument gross exposure"
  let riskIncrease ← sumOf [|projected|, -|current|] "risk-increasing notional"
  let marginIncrease ← productOf [if riskIncrease < 0 then 0 else riskIncrease,
    authority.spec.initialMarginRate] "margin increase"
  let marginUsed ← sumOf [authority.balance.marginUsed.amount, marginIncrease] "projected margin used"
  let availableFunds ← sumOf [authority.balance.cash.amount, -authority.balance.lockedFunds.amount,
    -marginUsed] "projected available funds"
  return ⟨pending, gross, net, strategyGross, venueGross, instrumentGross, marginUsed, availableFunds⟩

def projectionOf (reporting : Currency) (price : Price) (quantity : Quantity) (orderNotional : Decimal)
    (amounts : ProjectedAmounts) : Except EvaluationFailure RuntimeRiskProjection := do
  let notional ← moneyOf orderNotional reporting "order notional"
  let pending ← moneyOf amounts.pending reporting "projected pending exposure"
  let gross ← moneyOf amounts.gross reporting "projected gross exposure"
  let net ← moneyOf amounts.net reporting "projected net exposure"
  let strategyGross ← moneyOf amounts.strategyGross reporting "projected strategy gross exposure"
  let venueGross ← moneyOf amounts.venueGross reporting "projected venue gross exposure"
  let instrumentGross ← moneyOf amounts.instrumentGross reporting "projected instrument gross exposure"
  let marginUsed ← moneyOf amounts.marginUsed reporting "projected margin used"
  let availableFunds ← moneyOf amounts.availableFunds reporting "projected available funds"
  return ⟨price, notional, quantity, pending, gross, net, strategyGross, venueGross, instrumentGross,
    marginUsed, availableFunds⟩

def projectRuntimeOrder (intent : OrderIntent) (observation : RuntimeRiskObservation)
    (policy : RuntimeRiskPolicy) (decidedAt : DateTime) : Except EvaluationFailure RuntimeRiskProjection := do
  let authority ← orderAuthority intent observation policy decidedAt
  let notional ← reportingNotional intent.quantity.value authority.price authority.rate "order notional"
  let partitions ← positionContributions observation policy decidedAt
  verifyPartitions observation partitions
  let position ← matchingPosition intent observation authority.spec
  let currentQuantity := (position.map fun p => p.quantity.value).getD 0
  let projectedAmount ← sumOf [currentQuantity, signedOrderQuantity intent] "projected position quantity"
  let quantity ← quantityOf projectedAmount
    (max intent.quantity.precision ((position.map fun p => p.quantity.precision).getD 0))
  let current ← currentNotional position authority.rate
  let projected ← reportingNotional projectedAmount authority.price authority.rate
    "projected position notional"
  let amounts ← projectAmounts intent observation.portfolio authority partitions |notional| current projected
  projectionOf observation.portfolio.reportingCurrency authority.price quantity |notional| amounts

end TradingAgent.RuntimeRisk
