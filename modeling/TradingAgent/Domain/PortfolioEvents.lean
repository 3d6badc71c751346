import TradingAgent.Domain.Portfolio

/-! The events that change a portfolio. -/

namespace TradingAgent

@[ext] structure PortfolioLedgerEntry where
  accountId : String
  effectiveAt : DateTime
  schemaVersion : String
  deriving DecidableEq

@[ext] structure PortfolioOpeningEntry extends PortfolioLedgerEntry where
  reportingCurrency : Currency
  balances : List AccountBalanceSnapshot
  sourceId : String
  sourceRevision : String
  ordered : (balances.map fun b => b.currency.code).Pairwise (· < ·)
  balanceAccount : ∀ b ∈ balances, b.accountId = accountId
  balanceTime : ∀ b ∈ balances, b.observedAt ≤ effectiveAt
  deriving DecidableEq

@[ext] structure PortfolioAccountObservationEntry extends PortfolioLedgerEntry where
  currency : Currency
  cashBalance : Money
  fees : Money
  realizedPnl : Money
  unrealizedPnl : Money
  oneCurrency : ∀ m ∈ [cashBalance, fees, realizedPnl, unrealizedPnl], m.currency = currency
  deriving DecidableEq

@[ext] structure PortfolioFillEntry extends PortfolioLedgerEntry where
  strategyId : String
  fill : FillEvent
  deriving DecidableEq

@[ext] structure PortfolioMarkEntry extends PortfolioLedgerEntry where
  instrument : InstrumentId
  mark : PositionMark
  markedAt : DateTime
  matchingTime : markedAt = mark.markedAt
  deriving DecidableEq

@[ext] structure PortfolioFundingEntry extends PortfolioLedgerEntry where
  fundingId : Uuid
  strategyId : Option String
  instrument : Option InstrumentId
  amount : Money
  provenanceId : String
  completeKey : strategyId = none ↔ instrument = none
  deriving DecidableEq

@[ext] structure PortfolioConversionEntry extends PortfolioLedgerEntry where
  conversion : CurrencyConversion
  provenanceId : String
  deriving DecidableEq

@[ext] structure PortfolioValuationRateEntry extends PortfolioLedgerEntry where
  sourceCurrency : Currency
  targetCurrency : Currency
  rate : Decimal
  quotedAt : DateTime
  provenanceId : String
  rate_pos : 0 < rate
  crossCurrency : sourceCurrency ≠ targetCurrency

instance : DecidableEq PortfolioValuationRateEntry := fun _ _ => decidable_of_iff' _ PortfolioValuationRateEntry.ext_iff

@[ext] structure PortfolioReconciliationEntry extends PortfolioLedgerEntry where
  reconciliationId : Uuid
  source : ReconciliationSource
  sourceRevision : String
  snapshot : AccountPortfolioSnapshot
  matchingAccount : snapshot.accountId = accountId
  snapshotTime : snapshot.observedAt ≤ effectiveAt
  deriving DecidableEq

inductive PortfolioPayload
  | opening (entry : PortfolioOpeningEntry)
  | accountObservation (entry : PortfolioAccountObservationEntry)
  | fill (entry : PortfolioFillEntry)
  | mark (entry : PortfolioMarkEntry)
  | funding (entry : PortfolioFundingEntry)
  | conversion (entry : PortfolioConversionEntry)
  | valuationRate (entry : PortfolioValuationRateEntry)
  | reconciliation (entry : PortfolioReconciliationEntry)
  deriving DecidableEq

namespace PortfolioPayload

def common : PortfolioPayload → PortfolioLedgerEntry
  | opening e => e.toPortfolioLedgerEntry
  | accountObservation e => e.toPortfolioLedgerEntry
  | fill e => e.toPortfolioLedgerEntry
  | mark e => e.toPortfolioLedgerEntry
  | funding e => e.toPortfolioLedgerEntry
  | conversion e => e.toPortfolioLedgerEntry
  | valuationRate e => e.toPortfolioLedgerEntry
  | reconciliation e => e.toPortfolioLedgerEntry

def accountId (p : PortfolioPayload) : String := p.common.accountId

def eventType : PortfolioPayload → String
  | opening _ => "PortfolioOpeningEntry"
  | accountObservation _ => "PortfolioAccountObservationEntry"
  | fill _ => "PortfolioFillEntry"
  | mark _ => "PortfolioMarkEntry"
  | funding _ => "PortfolioFundingEntry"
  | conversion _ => "PortfolioConversionEntry"
  | valuationRate _ => "PortfolioValuationRateEntry"
  | reconciliation _ => "PortfolioReconciliationEntry"

/-- `type(payload) is PortfolioOpeningEntry` -/
def isOpening : PortfolioPayload → Bool
  | opening _ => true
  | _ => false

/-- `type(payload) is PortfolioReconciliationEntry` -/
def isReconciliation : PortfolioPayload → Bool
  | reconciliation _ => true
  | _ => false

end PortfolioPayload

end TradingAgent
