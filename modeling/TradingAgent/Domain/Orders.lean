import TradingAgent.Domain.Instruments

/-! Orders, fill reports and the checks between them (`domain/orders.py`). -/

namespace TradingAgent

inductive OrderSide
  | buy
  | sell
  deriving DecidableEq

inductive OrderType
  | market
  | limit
  | stopMarket
  | stopLimit
  | marketIfTouched
  | limitIfTouched
  | trailingStop
  deriving DecidableEq

inductive TimeInForce
  | gtc
  | ioc
  | fok
  | day
  | gtd
  deriving DecidableEq

/-- `_LIMIT_PRICE_TYPES` -/
def OrderType.IsLimit (t : OrderType) : Prop := t ∈ [OrderType.limit, .stopLimit, .limitIfTouched]

/-- `_TRIGGER_PRICE_TYPES` -/
def OrderType.IsTrigger (t : OrderType) : Prop :=
  t ∈ [OrderType.stopMarket, .stopLimit, .marketIfTouched, .limitIfTouched]

def TimeInForce.AdmitsPostOnly (t : TimeInForce) : Prop := t ∈ [TimeInForce.gtc, .day, .gtd]

@[ext] structure OrderInstruction where
  intentId : Uuid
  riskDecisionId : Uuid
  clientOrderId : String
  venueOrderId : Option String
  strategyId : String
  traderId : String
  accountId : String
  executionClientId : String
  orderListId : Option String
  instrument : InstrumentId
  side : OrderSide
  orderType : OrderType
  timeInForce : TimeInForce
  quantity : OrderQuantity
  limitPrice : Option Price
  triggerPrice : Option Price
  trailingOffset : Option Price
  gtdExpiry : Option DateTime
  postOnly : Bool
  reduceOnly : Bool
  requestedAt : DateTime
  schemaVersion : String
  deriving DecidableEq

/-- The checks of `OrderIntent._positive_quantity` and `OrderIntent._validate_instruction`. -/
structure OrderInstruction.Valid (o : OrderInstruction) : Prop where
  quantity_pos : 0 < o.quantity.value
  limitPrice : o.orderType.IsLimit ↔ o.limitPrice.isSome = true
  triggerPrice : o.orderType.IsTrigger ↔ o.triggerPrice.isSome = true
  trailingOffset : o.orderType = .trailingStop ↔ o.trailingOffset.isSome = true
  gtdExpiry : o.timeInForce = .gtd ↔ o.gtdExpiry.isSome = true
  expiry_after : ∀ expiry, o.gtdExpiry = some expiry → o.requestedAt < expiry
  postOnly : o.postOnly = true → o.orderType.IsLimit ∧ o.timeInForce.AdmitsPostOnly

@[ext] structure OrderIntent extends OrderInstruction where
  valid : toOrderInstruction.Valid
  deriving DecidableEq

inductive LiquiditySide
  | maker
  | taker
  deriving DecidableEq

inductive ReconciliationSource
  | venue
  | dropCopy
  | clearing
  deriving DecidableEq

inductive FillReportStatus
  | partiallyFilled
  | filled
  | duplicate
  | correction
  | bust
  deriving DecidableEq

/-- A report that is a trade of its own. -/
def FillReportStatus.IsNormal (s : FillReportStatus) : Prop := s = .partiallyFilled ∨ s = .filled

instance (s : FillReportStatus) : Decidable s.IsNormal := inferInstanceAs (Decidable (_ ∨ _))

@[ext] structure FillReport where
  executionId : Uuid
  orderId : Uuid
  reportSequence : ℕ
  venueTradeId : String
  instrumentDefinition : InstrumentDefinition
  side : OrderSide
  liquiditySide : LiquiditySide
  status : FillReportStatus
  quantity : OrderQuantity
  cumulativeFillQuantity : OrderQuantity
  leavesQuantity : OrderQuantity
  orderQuantity : OrderQuantity
  lastFillPrice : Price
  averageFillPrice : Price
  commission : Money
  reconciliationSource : ReconciliationSource
  duplicateOfExecutionId : Option Uuid
  correctionOfExecutionId : Option Uuid
  bustOfExecutionId : Option Uuid
  filledAt : DateTime
  deriving DecidableEq

def InstrumentDefinition.OnGrid (d : InstrumentDefinition) (q : OrderQuantity) : Prop :=
  q.precision = d.sizeIncrement.precision ∧ IsMultipleOf q.value d.sizeIncrement.value

instance (d : InstrumentDefinition) (q : OrderQuantity) : Decidable (d.OnGrid q) :=
  inferInstanceAs (Decidable (_ ∧ _))

def InstrumentDefinition.AdmitsPrice (d : InstrumentDefinition) (p : Price) : Prop :=
  p.currency = d.quoteCurrency ∧ IsMultipleOf p.amount d.tickSize.amount ∧
    ∃ n ≤ maxFinancialPrecision, AtScale n d.tickSize.amount ∧ ScaledFits p.amount n

instance (d : InstrumentDefinition) (p : Price) : Decidable (d.AdmitsPrice p) :=
  inferInstanceAs (Decidable (_ ∧ _))

def FillReport.ReferencesMatch (r : FillReport) : Prop :=
  match r.status with
  | .partiallyFilled | .filled =>
    r.duplicateOfExecutionId = none ∧ r.correctionOfExecutionId = none ∧ r.bustOfExecutionId = none
  | .duplicate => r.duplicateOfExecutionId.isSome = true ∧ r.correctionOfExecutionId = none ∧
      r.bustOfExecutionId = none
  | .correction => r.duplicateOfExecutionId = none ∧ r.correctionOfExecutionId.isSome = true ∧
      r.bustOfExecutionId = none
  | .bust => r.duplicateOfExecutionId = none ∧ r.correctionOfExecutionId = none ∧
      r.bustOfExecutionId.isSome = true

/-- The checks of `FillEvent._validate_execution_report`. -/
structure FillReport.Valid (r : FillReport) : Prop where
  reportSequence_pos : 0 < r.reportSequence
  grid : r.instrumentDefinition.OnGrid r.quantity ∧
    r.instrumentDefinition.OnGrid r.cumulativeFillQuantity ∧
    r.instrumentDefinition.OnGrid r.leavesQuantity ∧ r.instrumentDefinition.OnGrid r.orderQuantity
  quantity_pos : 0 < r.quantity.value
  cumulative_pos : 0 < r.cumulativeFillQuantity.value
  order_pos : 0 < r.orderQuantity.value
  order_bounds : r.instrumentDefinition.minimumQuantity.value ≤ r.orderQuantity.value ∧
    r.orderQuantity.value ≤ r.instrumentDefinition.maximumQuantity.value
  cumulative_ge : r.quantity.value ≤ r.cumulativeFillQuantity.value
  order_eq : r.cumulativeFillQuantity.value + r.leavesQuantity.value = r.orderQuantity.value
  filled : r.status = .filled → r.leavesQuantity.value = 0
  prices : r.instrumentDefinition.AdmitsPrice r.lastFillPrice ∧
    r.instrumentDefinition.AdmitsPrice r.averageFillPrice
  commission_nonneg : 0 ≤ r.commission.amount
  references : r.ReferencesMatch
  noSelfReference : r.duplicateOfExecutionId ≠ some r.executionId ∧
    r.correctionOfExecutionId ≠ some r.executionId ∧ r.bustOfExecutionId ≠ some r.executionId

@[ext] structure FillEvent extends FillReport where
  valid : toFillReport.Valid
  deriving DecidableEq

end TradingAgent
