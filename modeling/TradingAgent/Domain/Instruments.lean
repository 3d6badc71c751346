import TradingAgent.Domain.Primitives

/-!
# Instruments

Canonical instrument identities and definitions. The definition carries the checks of its constructor
as the field `valid`; grid checks are stated on values (`IsMultipleOf`).
-/

namespace TradingAgent

inductive ProductType
  | cryptoSpot
  | equity
  deriving DecidableEq

def ProductType.value : ProductType → String
  | .cryptoSpot => "crypto_spot"
  | .equity => "equity"

inductive AssetClass
  | crypto
  | equity
  deriving DecidableEq

def ProductType.assetClass : ProductType → AssetClass
  | .cryptoSpot => .crypto
  | .equity => .equity

/-- A character of `[A-Z0-9]`. -/
def isUpperAlphanumeric (c : Char) : Bool := c.isUpper || c.isDigit

/-- The pattern `^[A-Z0-9][A-Z0-9._-]*$` with at most 32 characters. -/
def isCanonicalComponent (s : String) : Bool :=
  match s.toList with
  | [] => false
  | c :: rest => isUpperAlphanumeric c && rest.length < 32 &&
      rest.all fun c => isUpperAlphanumeric c || c = '.' || c = '_' || c = '-'

@[ext] structure InstrumentId where
  symbol : String
  productType : ProductType
  venue : String
  symbol_canonical : isCanonicalComponent symbol = true
  venue_canonical : isCanonicalComponent venue = true
  deriving DecidableEq

def InstrumentId.canonical (i : InstrumentId) : String :=
  i.productType.value ++ ":" ++ i.venue ++ ":" ++ i.symbol

@[ext] structure InstrumentProvenance where
  sourceId : String
  sourceRevision : String
  observedAt : DateTime
  deriving DecidableEq

@[ext] structure MarginRequirements where
  initialMarginRate : Decimal
  maintenanceMarginRate : Decimal
  deriving DecidableEq

def IsMultipleOf (value increment : ℚ) : Prop := (value / increment).den = 1

instance (value increment : ℚ) : Decidable (IsMultipleOf value increment) :=
  inferInstanceAs (Decidable (_ = _))

@[ext] structure InstrumentCatalog where
  instrumentId : InstrumentId
  rawSymbol : String
  assetClass : AssetClass
  baseCurrency : Option Currency
  quoteCurrency : Currency
  settlementCurrency : Currency
  tickSize : Price
  sizeIncrement : OrderQuantity
  minimumQuantity : OrderQuantity
  maximumQuantity : OrderQuantity
  minimumNotional : Money
  maximumNotional : Money
  multiplier : Decimal
  margin : Option MarginRequirements
  sessionCalendar : String
  provenance : InstrumentProvenance
  deriving DecidableEq

/-- The checks of `InstrumentDefinition.__post_init__` on amounts, currencies and grids. -/
structure InstrumentCatalog.Valid (c : InstrumentCatalog) : Prop where
  assetClass : c.assetClass = c.instrumentId.productType.assetClass
  settlement : c.settlementCurrency = c.quoteCurrency
  base : match c.instrumentId.productType with
    | .cryptoSpot => c.baseCurrency.isSome = true ∧ c.baseCurrency ≠ some c.quoteCurrency
    | .equity => c.baseCurrency = none
  tickCurrency : c.tickSize.currency = c.quoteCurrency
  tick_fits : ∃ p ≤ maxFinancialPrecision, ScaledFits c.tickSize.amount p
  quantities_pos : 0 < c.sizeIncrement.value ∧ 0 < c.minimumQuantity.value ∧ 0 < c.maximumQuantity.value
  precisions : c.minimumQuantity.precision = c.sizeIncrement.precision ∧
    c.maximumQuantity.precision = c.sizeIncrement.precision
  quantity_grid : IsMultipleOf c.minimumQuantity.value c.sizeIncrement.value ∧
    IsMultipleOf c.maximumQuantity.value c.sizeIncrement.value
  quantity_bounds : c.minimumQuantity.value ≤ c.maximumQuantity.value
  multiplier_pos : 0 < c.multiplier
  multiplier_fits : ScaledFits c.multiplier maxFinancialPrecision
  notionalCurrency : c.minimumNotional.currency = c.quoteCurrency ∧
    c.maximumNotional.currency = c.quoteCurrency
  notional_pos : 0 < c.minimumNotional.amount
  notional_bounds : c.minimumNotional.amount ≤ c.maximumNotional.amount
  notional_grid :
    IsMultipleOf c.minimumNotional.amount (c.tickSize.amount * c.sizeIncrement.value * c.multiplier) ∧
    IsMultipleOf c.maximumNotional.amount (c.tickSize.amount * c.sizeIncrement.value * c.multiplier)

@[ext] structure InstrumentDefinition extends InstrumentCatalog where
  valid : toInstrumentCatalog.Valid
  deriving DecidableEq

end TradingAgent
