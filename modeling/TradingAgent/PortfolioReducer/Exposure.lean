import TradingAgent.PortfolioReducer.Reducer

/-! Exposures and the account snapshot of a portfolio (`portfolio_reducer/exposure.py`). -/

namespace TradingAgent.PortfolioReducer

open Outcome

def exposure (grossAmount netAmount : Decimal) (currency : Currency) :
    Except Failure ExposureSnapshot := do
  let gross ← money grossAmount currency "exposure gross"
  let net ← money netAmount currency "exposure net"
  let pending ← money 0 currency "exposure pending"
  ExposureSnapshot.of { currency := currency, gross := gross, net := net, pending := pending }

def valuationRate (state : PortfolioReplayState) (source target : Currency) (observedAt : DateTime) :
    Except Failure Decimal :=
  if source = target then .ok 1
  else
    let missing := Failure.portfolioReplayError
      ("explicit valuation rate is required for " ++ source.code ++ "/" ++ target.code)
    match state.valuationRates.find? fun r => r.sourceCurrency = source ∧ r.targetCurrency = target with
    | none => .error missing
    | some rate => if observedAt < rate.quotedAt then .error missing else .ok rate.rate

def observedFields (position : PortfolioPositionState) : AccountPositionFields where
  accountId := position.accountId
  strategyId := position.strategyId
  instrument := position.instrument
  settlementCurrency := position.settlementCurrency
  quantity := position.quantity
  mark := position.mark
  averageEntryPrice := position.averageEntryPrice
  realizedPnl := position.realizedPnl
  unrealizedPnl := position.unrealizedPnl
  fees := position.fees
  funding := position.funding
  observedAt := position.observedAt
  schemaVersion := position.schemaVersion

/-- `AccountPositionSnapshot(...)` of a position state. -/
def observedPosition (position : PortfolioPositionState) : Except Failure AccountPositionSnapshot :=
  AccountPositionSnapshot.of (observedFields position)

abbrev Amounts (κ : Type) := Dict κ (Decimal × Decimal)

def addAmounts [DigitLimit] {κ : Type} [DecidableEq κ] (amounts : Amounts κ) (key : κ) (notional signed : Decimal)
    (field : String) : Except Failure (Amounts κ) := do
  let current := (amounts.get? key).getD (0, 0)
  let gross ← sum [current.1, notional] (field ++ " gross")
  let net ← sum [current.2, signed] (field ++ " net")
  .ok (amounts.set key (gross, net))

/-- The accumulators of the loop of `derive_account_snapshot`. -/
structure ExposureAmounts where
  positions : List AccountPositionSnapshot
  instruments : Amounts InstrumentId
  (strategies venues : Amounts String)

def markedExposure [DigitLimit] (state : PortfolioReplayState) (position : PortfolioPositionState)
    (observedAt : DateTime) : Except Failure Decimal :=
  match position.mark with
  | none => .error (.portfolioReplayError "non-zero position requires a mark for exposure derivation")
  | some mark => do
    let rate ← valuationRate state position.settlementCurrency state.snapshot.reportingCurrency observedAt
    match position.instrumentDefinition with
    | none => throw .attributeError
    | some definition =>
      product [|position.quantity.value|, mark.price.amount, definition.multiplier, rate]
        "marked exposure"

/-- One round of the loop of `derive_account_snapshot`. -/
def exposePosition [DigitLimit] (state : PortfolioReplayState) (observedAt : DateTime) (acc : ExposureAmounts)
    (position : PortfolioPositionState) : Except Failure ExposureAmounts := do
  let observed ← observedPosition position
  let positions := acc.positions ++ [observed]
  if position.quantity.value = 0 then
    return { acc with positions := positions }
  let notional ← markedExposure state position observedAt
  let signed := if position.quantity.value > 0 then notional else -notional
  let instruments ← addAmounts acc.instruments position.instrument notional signed "instrument exposure"
  let strategies ← addAmounts acc.strategies position.strategyId notional signed "strategy exposure"
  let venues ← addAmounts acc.venues position.instrument.venue notional signed "venue exposure"
  return ⟨positions, instruments, strategies, venues⟩

def partitionExposures {κ ω : Type} [LinearOrder ω] (order : κ → ω) (amounts : Amounts κ)
    (currency : Currency) : Except Failure (List (κ × ExposureSnapshot)) :=
  (sortBy (fun e => order e.1) amounts).mapM fun e => do
    let exposed ← exposure e.2.1 e.2.2 currency
    .ok (e.1, exposed)

/-- `derive_account_snapshot` -/
def deriveAccountSnapshot [DigitLimit] (codec : Codec) (state : PortfolioReplayState) (observedAt : DateTime) :
    Except Failure AccountPortfolioSnapshot := do
  require (state.snapshot.observedAt ≤ observedAt)
    (.portfolioReplayError "snapshot observation time cannot predate reducer state")
  let reporting := state.snapshot.reportingCurrency
  let amounts ← state.snapshot.positions.foldlM (exposePosition state observedAt) ⟨[], [], [], []⟩
  let totalGross ← sum (amounts.instruments.values.map Prod.fst) "total exposure gross"
  let totalNet ← sum (amounts.instruments.values.map Prod.snd) "total exposure net"
  let total ← exposure totalGross totalNet reporting
  let instruments ← partitionExposures InstrumentId.canonical amounts.instruments reporting
  let strategies ← partitionExposures id amounts.strategies reporting
  let venues ← partitionExposures id amounts.venues reporting
  AccountPortfolioSnapshot.of
    { snapshotId := codec.uuid5 (codec.stateJson state observedAt)
      accountId := state.snapshot.accountId
      reportingCurrency := reporting
      balances := state.snapshot.balances
      positions := sortBy (fun p => positionKey p.strategyId p.instrument.canonical) amounts.positions
      totalExposure := total
      instrumentExposures := instruments.map fun e => ⟨e.1, e.2⟩
      strategyExposures := strategies.map fun e => ⟨e.1, e.2⟩
      venueExposures := venues.map fun e => ⟨e.1, e.2⟩
      observedAt := observedAt
      schemaVersion := "portfolio-snapshot-v1" }

end TradingAgent.PortfolioReducer
