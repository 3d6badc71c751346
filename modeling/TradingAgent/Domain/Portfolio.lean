import TradingAgent.Domain.Orders
import TradingAgent.Lib.Dict

/-! Account balances, positions and exposures of a portfolio snapshot (`domain/portfolio.py`). -/

namespace TradingAgent

open Outcome

@[ext] structure AccountBalanceFields where
  accountId : String
  currency : Currency
  cash : Money
  lockedFunds : Money
  marginUsed : Money
  realizedPnl : Money
  unrealizedPnl : Money
  fees : Money
  funding : Money
  observedAt : DateTime
  schemaVersion : String
  deriving DecidableEq

def AccountBalanceFields.validate (b : AccountBalanceFields) : Except Failure Unit := do
  require (∀ m ∈ [b.cash, b.lockedFunds, b.marginUsed, b.realizedPnl, b.unrealizedPnl, b.fees,
    b.funding], m.currency = b.currency)
    (.valueError "money currency must match snapshot currency")
  require (0 ≤ b.lockedFunds.amount) (.valueError "locked_funds must not be negative")
  require (0 ≤ b.marginUsed.amount) (.valueError "margin_used must not be negative")

@[ext] structure AccountBalanceSnapshot extends AccountBalanceFields where
  valid : toAccountBalanceFields.validate = .ok ()
  deriving DecidableEq

def AccountBalanceSnapshot.of (b : AccountBalanceFields) : Except Failure AccountBalanceSnapshot :=
  validated b.validate fun h => ⟨b, h⟩

theorem AccountBalanceSnapshot.of_ok_iff {b : AccountBalanceFields} {r : AccountBalanceSnapshot} :
    AccountBalanceSnapshot.of b = .ok r ↔ r.toAccountBalanceFields = b := by
  unfold AccountBalanceSnapshot.of
  rw [validated_ok_iff]
  constructor
  · rintro ⟨h, rfl⟩
    rfl
  · rintro rfl
    exact ⟨r.valid, rfl⟩

@[ext] structure PositionMark where
  price : Price
  markedAt : DateTime
  provenanceId : String
  deriving DecidableEq

@[ext] structure AccountPositionFields where
  accountId : String
  strategyId : String
  instrument : InstrumentId
  settlementCurrency : Currency
  quantity : Quantity
  mark : Option PositionMark
  averageEntryPrice : Option Price
  realizedPnl : Money
  unrealizedPnl : Money
  fees : Money
  funding : Money
  observedAt : DateTime
  schemaVersion : String
  deriving DecidableEq

def AccountPositionFields.validate (p : AccountPositionFields) : Except Failure Unit := do
  require (∀ m ∈ [p.realizedPnl, p.unrealizedPnl, p.fees, p.funding],
    m.currency = p.settlementCurrency) (.valueError "money currency must match settlement currency")
  match p.mark with
  | some mark =>
    require (mark.price.currency = p.settlementCurrency)
      (.valueError "mark currency must match settlement currency")
    require (mark.markedAt ≤ p.observedAt) (.valueError "mark timestamp must not be after observation")
  | none =>
    require (p.quantity.value = 0) (.valueError "non-zero position requires a mark")
  if p.quantity.value ≠ 0 then
    match p.averageEntryPrice with
    | none => throw (.valueError "non-zero position requires an average entry price")
    | some average =>
      require (average.currency = p.settlementCurrency)
        (.valueError "average entry price currency must match settlement currency")
  else
    require (p.mark = none ∧ p.averageEntryPrice = none)
      (.valueError "zero position must not retain a mark or average entry price")

@[ext] structure AccountPositionSnapshot extends AccountPositionFields where
  valid : toAccountPositionFields.validate = .ok ()
  deriving DecidableEq

def AccountPositionSnapshot.of (p : AccountPositionFields) : Except Failure AccountPositionSnapshot :=
  validated p.validate fun h => ⟨p, h⟩

theorem AccountPositionSnapshot.of_ok_iff {p : AccountPositionFields} {r : AccountPositionSnapshot} :
    AccountPositionSnapshot.of p = .ok r ↔ r.toAccountPositionFields = p := by
  unfold AccountPositionSnapshot.of
  rw [validated_ok_iff]
  constructor
  · rintro ⟨h, rfl⟩
    rfl
  · rintro rfl
    exact ⟨r.valid, rfl⟩

/-- The key under which positions are kept: strategy and canonical instrument, in this order. -/
abbrev PositionKey := String ×ₗ String

/-- `(strategy_id, instrument.canonical)` -/
def positionKey (strategyId canonical : String) : PositionKey := toLex (strategyId, canonical)

@[ext] structure ExposureFields where
  currency : Currency
  gross : Money
  net : Money
  pending : Money
  deriving DecidableEq

/-- `ExposureSnapshot._valid_exposure` -/
def ExposureFields.validate (e : ExposureFields) : Except Failure Unit := do
  require (∀ m ∈ [e.gross, e.net, e.pending], m.currency = e.currency)
    (.valueError "exposure money currency must match exposure currency")
  require (0 ≤ e.gross.amount ∧ 0 ≤ e.pending.amount)
    (.valueError "gross and pending exposure must be non-negative")
  require (|e.net.amount| ≤ e.gross.amount)
    (.valueError "gross exposure must cover absolute net exposure")

@[ext] structure ExposureSnapshot extends ExposureFields where
  valid : toExposureFields.validate = .ok ()
  deriving DecidableEq

def ExposureSnapshot.of (e : ExposureFields) : Except Failure ExposureSnapshot :=
  validated e.validate fun h => ⟨e, h⟩

theorem ExposureSnapshot.of_ok_iff {e : ExposureFields} {r : ExposureSnapshot} :
    ExposureSnapshot.of e = .ok r ↔ r.toExposureFields = e := by
  unfold ExposureSnapshot.of
  rw [validated_ok_iff]
  constructor
  · rintro ⟨h, rfl⟩
    rfl
  · rintro rfl
    exact ⟨r.valid, rfl⟩

@[ext] structure InstrumentExposureSnapshot where
  instrument : InstrumentId
  exposure : ExposureSnapshot
  deriving DecidableEq

@[ext] structure StrategyExposureSnapshot where
  strategyId : String
  exposure : ExposureSnapshot
  deriving DecidableEq

@[ext] structure VenueExposureSnapshot where
  venueId : String
  exposure : ExposureSnapshot
  deriving DecidableEq

@[ext] structure AccountPortfolioFields where
  snapshotId : Uuid
  accountId : String
  reportingCurrency : Currency
  balances : List AccountBalanceSnapshot
  positions : List AccountPositionSnapshot
  totalExposure : ExposureSnapshot
  instrumentExposures : List InstrumentExposureSnapshot
  strategyExposures : List StrategyExposureSnapshot
  venueExposures : List VenueExposureSnapshot
  observedAt : DateTime
  schemaVersion : String
  deriving DecidableEq

def requireOrdered {κ : Type} [LinearOrder κ] (keys : List κ) (duplicate unordered : String) :
    Except Failure Unit := do
  require keys.Nodup (.valueError duplicate)
  require (keys.Pairwise (· ≤ ·)) (.valueError unordered)

/-- `AccountPortfolioSnapshot._valid_snapshot` -/
def AccountPortfolioFields.validate (p : AccountPortfolioFields) : Except Failure Unit := do
  requireOrdered (p.balances.map fun b => b.currency.code)
    "duplicate balance currency" "balances must be ordered by currency"
  requireOrdered (p.positions.map fun q => positionKey q.strategyId q.instrument.canonical)
    "duplicate position key" "positions must be ordered by strategy and instrument"
  requireOrdered (p.instrumentExposures.map fun e => e.instrument.canonical)
    "duplicate instrument exposure key" "instrument_exposures must be ordered by instrument"
  requireOrdered (p.strategyExposures.map fun e => e.strategyId)
    "duplicate strategy exposure key" "strategy_exposures must be ordered by strategy"
  requireOrdered (p.venueExposures.map fun e => e.venueId)
    "duplicate venue exposure key" "venue_exposures must be ordered by venue"
  require (∀ b ∈ p.balances, b.accountId = p.accountId)
    (.valueError "balance account must match portfolio account")
  require (∀ q ∈ p.positions, q.accountId = p.accountId)
    (.valueError "position account must match portfolio account")
  require (∀ b ∈ p.balances, b.observedAt ≤ p.observedAt)
    (.valueError "balance timestamp must not be after portfolio observation")
  require (∀ q ∈ p.positions, q.observedAt ≤ p.observedAt)
    (.valueError "position timestamp must not be after portfolio observation")
  require (p.totalExposure.currency = p.reportingCurrency)
    (.valueError "total exposure currency must match reporting currency")
  require (∀ e ∈ p.instrumentExposures, e.exposure.currency = p.reportingCurrency)
    (.valueError "instrument exposure currency must match reporting currency")
  require (∀ e ∈ p.strategyExposures, e.exposure.currency = p.reportingCurrency)
    (.valueError "strategy exposure currency must match reporting currency")
  require (∀ e ∈ p.venueExposures, e.exposure.currency = p.reportingCurrency)
    (.valueError "venue exposure currency must match reporting currency")

@[ext] structure AccountPortfolioSnapshot extends AccountPortfolioFields where
  valid : toAccountPortfolioFields.validate = .ok ()
  deriving DecidableEq

def AccountPortfolioSnapshot.of (p : AccountPortfolioFields) : Except Failure AccountPortfolioSnapshot :=
  validated p.validate fun h => ⟨p, h⟩

theorem AccountPortfolioSnapshot.of_ok_iff {p : AccountPortfolioFields} {r : AccountPortfolioSnapshot} :
    AccountPortfolioSnapshot.of p = .ok r ↔ r.toAccountPortfolioFields = p := by
  unfold AccountPortfolioSnapshot.of
  rw [validated_ok_iff]
  constructor
  · rintro ⟨h, rfl⟩
    rfl
  · rintro rfl
    exact ⟨r.valid, rfl⟩

end TradingAgent
