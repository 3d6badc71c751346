import TradingAgent.Domain.Portfolio

/-!
# Runtime risk contracts

Policies, observations and decisions of deterministic runtime order risk. The checks of each model's
`model_post_init` are fields of its structure. A schema version that admits one literal only is left out.
-/

namespace TradingAgent

inductive RiskOutcome
  | approved
  | modified
  | rejected
  deriving DecidableEq

@[ext] structure RiskDecision where
  decisionId : Uuid
  /-- Identity of the approved target. -/
  approvedTarget : Option Uuid
  outcome : RiskOutcome
  decidedAt : DateTime
  /-- Canonical text of the original target, the reasons, the risk state and the versions. -/
  otherFields : String
  target_of_outcome : approvedTarget = none ↔ outcome = .rejected
  deriving DecidableEq

abbrev Sha256 := String

inductive RuntimeRiskOutcome
  | approved
  | rejected
  deriving DecidableEq

inductive RuntimeVenueHealth
  | healthy
  | degraded
  | unknown
  deriving DecidableEq

inductive RuntimeRiskReasonCode
  | policyRiskNotApproved
  | engineNotReady
  | instrumentUnknown
  | marketDataStale
  | valuationAuthorityMissing
  | portfolioStateInvalid
  | pricePrecisionInvalid
  | quantityPrecisionInvalid
  | quantityOutOfBounds
  | orderNotionalLimit
  | balanceMarginLimit
  | pendingExposureLimit
  | grossExposureLimit
  | netExposureLimit
  | strategyExposureLimit
  | venueExposureLimit
  | dailyLossLimit
  | drawdownLimit
  | reduceOnlyViolation
  | commandRateLimit
  | venueUnhealthy
  | duplicateCommand
  | withinLimits
  deriving DecidableEq

def RuntimeRiskReasonCode.order (r : RuntimeRiskReasonCode) : ℕ := r.ctorIdx

@[ext] structure RuntimeInstrumentRiskSpec where
  instrument : InstrumentId
  venueId : String
  settlementCurrency : Currency
  priceIncrement : Price
  quantityIncrement : OrderQuantity
  minQuantity : OrderQuantity
  maxQuantity : OrderQuantity
  minOrderNotional : Money
  maxOrderNotional : Money
  initialMarginRate : Decimal
  incrementCurrency : priceIncrement.currency = settlementCurrency
  quantities_pos : 0 < quantityIncrement.value ∧ 0 < minQuantity.value ∧ 0 < maxQuantity.value
  precisions : minQuantity.precision = quantityIncrement.precision ∧
    maxQuantity.precision = quantityIncrement.precision
  quantity_bounds : minQuantity.value ≤ maxQuantity.value
  notionalCurrency : minOrderNotional.currency = maxOrderNotional.currency
  notional_pos : 0 < minOrderNotional.amount ∧ 0 < maxOrderNotional.amount
  notional_bounds : minOrderNotional.amount ≤ maxOrderNotional.amount
  marginRate : 0 ≤ initialMarginRate ∧ initialMarginRate ≤ 1
  deriving DecidableEq

@[ext] structure RuntimeRiskMarketSnapshot where
  instrument : InstrumentId
  bid : Price
  ask : Price
  last : Price
  observedAt : DateTime
  provenanceId : String
  oneCurrency : bid.currency = ask.currency ∧ bid.currency = last.currency
  spread : bid.amount ≤ ask.amount
  deriving DecidableEq

@[ext] structure RuntimeRiskConversionRate where
  sourceCurrency : Currency
  targetCurrency : Currency
  rate : Decimal
  observedAt : DateTime
  provenanceId : String
  crossCurrency : sourceCurrency ≠ targetCurrency
  rate_pos : 0 < rate

instance : DecidableEq RuntimeRiskConversionRate := fun _ _ => decidable_of_iff' _ RuntimeRiskConversionRate.ext_iff

@[ext] structure RuntimeVenueHealthRecord where
  venueId : String
  health : RuntimeVenueHealth
  observedAt : DateTime
  deriving DecidableEq

@[ext] structure PriorRuntimeCommandIdentity where
  intentId : Uuid
  clientOrderId : String
  deriving DecidableEq

def maxRuntimeRiskDurationSeconds : ℤ := 86399999999999

/-- A duration in seconds a policy may name. -/
def IsRuntimeRiskDuration (seconds : ℤ) : Prop := 0 < seconds ∧ seconds ≤ maxRuntimeRiskDurationSeconds

@[ext] structure RuntimeRiskLimits where
  policyId : Uuid
  policyVersion : String
  accountId : String
  marketDataMaxAgeSeconds : ℤ
  portfolioMaxAgeSeconds : ℤ
  maxPendingExposure : Money
  maxGrossExposure : Money
  maxAbsNetExposure : Money
  maxStrategyExposure : Money
  maxVenueExposure : Money
  minAvailableFunds : Money
  maxDailyLoss : Money
  maxDrawdown : Money
  commandWindowSeconds : ℤ
  maxCommandsPerWindow : ℤ
  deriving DecidableEq

/-- `_POLICY_MONEY_FIELDS` -/
def RuntimeRiskLimits.moneys (p : RuntimeRiskLimits) : List Money :=
  [p.maxPendingExposure, p.maxGrossExposure, p.maxAbsNetExposure, p.maxStrategyExposure,
    p.maxVenueExposure, p.minAvailableFunds, p.maxDailyLoss, p.maxDrawdown]

@[ext] structure RuntimeRiskPolicy extends RuntimeRiskLimits where
  durations : IsRuntimeRiskDuration marketDataMaxAgeSeconds ∧
    IsRuntimeRiskDuration portfolioMaxAgeSeconds ∧ IsRuntimeRiskDuration commandWindowSeconds
  maxCommands_nonneg : 0 ≤ maxCommandsPerWindow
  oneCurrency : ∀ m ∈ toRuntimeRiskLimits.moneys, m.currency = maxPendingExposure.currency
  moneys_nonneg : ∀ m ∈ toRuntimeRiskLimits.moneys, 0 ≤ m.amount
  deriving DecidableEq

@[ext] structure RuntimeRiskObservationFields where
  observationId : Uuid
  stateVersion : ℤ
  portfolio : AccountPortfolioSnapshot
  instrumentSpecs : List RuntimeInstrumentRiskSpec
  marketSnapshots : List RuntimeRiskMarketSnapshot
  conversionRates : List RuntimeRiskConversionRate
  venueHealth : List RuntimeVenueHealthRecord
  engineReady : Bool
  dailyPnl : Money
  currentEquity : Money
  peakEquity : Money
  commandWindowStartedAt : DateTime
  commandsInWindow : ℤ
  priorCommands : List PriorRuntimeCommandIdentity
  observedAt : DateTime
  deriving DecidableEq

structure RuntimeRiskObservationFields.Valid (o : RuntimeRiskObservationFields) : Prop where
  window : o.commandWindowStartedAt ≤ o.observedAt
  stateVersion_nonneg : 0 ≤ o.stateVersion
  commands_nonneg : 0 ≤ o.commandsInWindow
  reporting : ∀ m ∈ [o.dailyPnl, o.currentEquity, o.peakEquity],
    m.currency = o.portfolio.reportingCurrency
  notionals : ∀ s ∈ o.instrumentSpecs, s.minOrderNotional.currency = o.portfolio.reportingCurrency ∧
    s.maxOrderNotional.currency = o.portfolio.reportingCurrency
  equity_nonneg : 0 ≤ o.currentEquity.amount ∧ 0 ≤ o.peakEquity.amount
  portfolioTime : o.portfolio.observedAt ≤ o.observedAt
  marketTime : ∀ m ∈ o.marketSnapshots, m.observedAt ≤ o.observedAt
  conversionTime : ∀ c ∈ o.conversionRates, c.observedAt ≤ o.observedAt
  venueTime : ∀ v ∈ o.venueHealth, v.observedAt ≤ o.observedAt
  intents_nodup : (o.priorCommands.map PriorRuntimeCommandIdentity.intentId).Nodup
  clientOrders_nodup : (o.priorCommands.map PriorRuntimeCommandIdentity.clientOrderId).Nodup
  specs_ordered : (o.instrumentSpecs.map fun s => toLex (s.instrument.canonical, s.venueId)).Pairwise
    (· < ·)
  markets_ordered : (o.marketSnapshots.map fun m => m.instrument.canonical).Pairwise (· < ·)
  rates_ordered : (o.conversionRates.map fun c =>
    toLex (c.sourceCurrency.code, c.targetCurrency.code)).Pairwise (· < ·)
  venues_ordered : (o.venueHealth.map RuntimeVenueHealthRecord.venueId).Pairwise (· < ·)
  commands_ordered : (o.priorCommands.map fun c => toLex (c.intentId, c.clientOrderId)).Pairwise (· < ·)

@[ext] structure RuntimeRiskObservation extends RuntimeRiskObservationFields where
  valid : toRuntimeRiskObservationFields.Valid
  deriving DecidableEq

@[ext] structure RuntimeRiskProjection where
  riskPrice : Price
  orderNotional : Money
  projectedPositionQuantity : Quantity
  projectedPending : Money
  projectedGross : Money
  projectedNet : Money
  projectedStrategyGross : Money
  projectedVenueGross : Money
  projectedInstrumentGross : Money
  projectedMarginUsed : Money
  projectedAvailableFunds : Money
  deriving DecidableEq

@[ext] structure RuntimeRiskProjectionFields where
  riskPrice : Option Price
  orderNotional : Option Money
  projectedPositionQuantity : Option Quantity
  projectedPending : Option Money
  projectedGross : Option Money
  projectedNet : Option Money
  projectedStrategyGross : Option Money
  projectedVenueGross : Option Money
  projectedInstrumentGross : Option Money
  projectedMarginUsed : Option Money
  projectedAvailableFunds : Option Money
  deriving DecidableEq

/-- `projection_values.get(name)` for each projection field. -/
def RuntimeRiskProjectionFields.ofProjection (projection : Option RuntimeRiskProjection) :
    RuntimeRiskProjectionFields where
  riskPrice := projection.map RuntimeRiskProjection.riskPrice
  orderNotional := projection.map RuntimeRiskProjection.orderNotional
  projectedPositionQuantity := projection.map RuntimeRiskProjection.projectedPositionQuantity
  projectedPending := projection.map RuntimeRiskProjection.projectedPending
  projectedGross := projection.map RuntimeRiskProjection.projectedGross
  projectedNet := projection.map RuntimeRiskProjection.projectedNet
  projectedStrategyGross := projection.map RuntimeRiskProjection.projectedStrategyGross
  projectedVenueGross := projection.map RuntimeRiskProjection.projectedVenueGross
  projectedInstrumentGross := projection.map RuntimeRiskProjection.projectedInstrumentGross
  projectedMarginUsed := projection.map RuntimeRiskProjection.projectedMarginUsed
  projectedAvailableFunds := projection.map RuntimeRiskProjection.projectedAvailableFunds

def RuntimeRiskProjectionFields.Complete (p : RuntimeRiskProjectionFields) : Prop :=
  p.riskPrice ≠ none ∧ p.orderNotional ≠ none ∧ p.projectedPositionQuantity ≠ none ∧
    p.projectedPending ≠ none ∧ p.projectedGross ≠ none ∧ p.projectedNet ≠ none ∧
    p.projectedStrategyGross ≠ none ∧ p.projectedVenueGross ≠ none ∧
    p.projectedInstrumentGross ≠ none ∧ p.projectedMarginUsed ≠ none ∧
    p.projectedAvailableFunds ≠ none

instance (p : RuntimeRiskProjectionFields) : Decidable p.Complete :=
  inferInstanceAs (Decidable (_ ∧ _))

@[ext] structure RuntimeOrderRiskFields where
  decisionId : Uuid
  intentId : Uuid
  riskDecisionId : Uuid
  intentDigest : Sha256
  policyRiskDecisionDigest : Sha256
  portfolioSnapshotId : Uuid
  portfolioDigest : Sha256
  observationId : Uuid
  observationVersion : ℤ
  observationDigest : Sha256
  policyId : Uuid
  policyVersion : String
  policyDigest : Sha256
  projection : RuntimeRiskProjectionFields
  outcome : RuntimeRiskOutcome
  reasonCodes : List RuntimeRiskReasonCode
  decidedAt : DateTime
  deriving DecidableEq

/-- The checks of `RuntimeOrderRiskDecision.model_post_init`. -/
def RuntimeOrderRiskFields.Valid (d : RuntimeOrderRiskFields) : Prop :=
  0 ≤ d.observationVersion ∧ d.reasonCodes ≠ [] ∧
    (d.reasonCodes.map RuntimeRiskReasonCode.order).Pairwise (· < ·) ∧
    match d.outcome with
    | .approved => d.reasonCodes = [.withinLimits] ∧ d.projection.Complete
    | .rejected => .withinLimits ∉ d.reasonCodes

instance (d : RuntimeOrderRiskFields) : Decidable d.Valid :=
  haveI : Decidable (match d.outcome with
      | .approved => d.reasonCodes = [.withinLimits] ∧ d.projection.Complete
      | .rejected => .withinLimits ∉ d.reasonCodes) :=
    match d.outcome with
    | .approved => inferInstanceAs (Decidable (_ ∧ _))
    | .rejected => inferInstanceAs (Decidable (¬ _))
  inferInstanceAs (Decidable (_ ∧ _))

@[ext] structure RuntimeOrderRiskDecision extends RuntimeOrderRiskFields where
  valid : toRuntimeOrderRiskFields.Valid
  deriving DecidableEq

@[ext] structure DurableOrderApprovalRef where
  decisionOutcome : RuntimeRiskOutcome
  eventId : Uuid
  streamId : Uuid
  sequence : ℤ
  eventDigest : Sha256
  decisionId : Uuid
  decisionDigest : Sha256
  intentId : Uuid
  intentDigest : Sha256
  riskDecisionId : Uuid
  policyRiskDecisionDigest : Sha256
  portfolioSnapshotId : Uuid
  portfolioDigest : Sha256
  observationId : Uuid
  observationVersion : ℤ
  observationDigest : Sha256
  policyId : Uuid
  policyVersion : String
  policyDigest : Sha256
  outcome_approved : decisionOutcome = .approved
  sequence_nonneg : 0 ≤ sequence
  version_nonneg : 0 ≤ observationVersion
  deriving DecidableEq

end TradingAgent
