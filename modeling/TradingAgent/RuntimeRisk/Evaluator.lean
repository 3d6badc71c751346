import TradingAgent.Domain.RuntimeHalt
import TradingAgent.RuntimeRisk.Projections

/-!
# Evaluation of one order

The fixed-order evaluation of runtime order-risk policy. The conditions of the source are decidable
propositions, the 22 checks a list of reasons with the verdict of each.
-/

namespace TradingAgent.RuntimeRisk

open Outcome

/-! ## Canonical identity -/

inductive CanonicalModel
  | intent (model : OrderIntent)
  | policyDecision (model : RiskDecision)
  | observation (model : RuntimeRiskObservation)
  | policy (model : RuntimeRiskPolicy)
  | portfolio (model : AccountPortfolioSnapshot)
  | decision (model : RuntimeOrderRiskDecision)
  | approval (model : DurableOrderApprovalRef)
  | safety (model : GlobalSafetyObservation)
  | authorization (model : GlobalHaltRecoveryAuthorization)
  deriving DecidableEq

/-- The integers of a model that its type does not bound. -/
def CanonicalModel.integers : CanonicalModel → List ℤ
  | .observation model => [model.stateVersion, model.commandsInWindow]
  | .policy model => [model.maxCommandsPerWindow]
  | .decision model => [model.observationVersion]
  | .approval model => [model.sequence, model.observationVersion]
  | .authorization model => [model.haltedGeneration]
  | .intent _ | .policyDecision _ | .portfolio _ | .safety _ => []

/-- `json.dumps` can write the integers: `str` raises on longer ones. -/
def CanonicalModel.Written (model : CanonicalModel) : Prop := ∀ n ∈ model.integers, |n| < 10 ^ intMaxStrDigits

-- irreducible, so that the elaborator does not compute the bound
@[irreducible] instance (model : CanonicalModel) : Decidable model.Written := inferInstanceAs (Decidable (∀ _ ∈ _, _))

/-- Every validated contract whose integers can be written has a canonical text. -/
structure ModelCodec where
  sha256 : String → Sha256
  /-- `canonical_model_json` -/
  canonicalModelJson : CanonicalModel → String
  /-- The text of `global_safety_binding_digest`: kill switch state and source fingerprint. -/
  safetyBindingJson : CanonicalKillSwitchState → Sha256 → String

def canonicalModelDigest (codec : ModelCodec) (model : CanonicalModel) : Sha256 :=
  codec.sha256 (codec.canonicalModelJson model)

/-- `_validated_digest`: the error of `canonical_model_digest` under the name of the input. -/
def validatedDigest (codec : ModelCodec) (model : CanonicalModel) (field : String) :
    Except EvaluationFailure Sha256 := do
  require model.Written (.valueError (field ++ " cannot be canonically represented"))
  return canonicalModelDigest codec model

def globalSafetyBindingDigest (codec : ModelCodec) (safety : GlobalSafetyObservation) : Sha256 :=
  codec.sha256 (codec.safetyBindingJson safety.killSwitchState safety.sourceFingerprint)

/-! ## Authorities -/

def AgeIsValid (observedAt decidedAt : DateTime) (seconds : ℤ) : Prop :=
  observedAt ≤ decidedAt ∧ decidedAt - observedAt ≤ TimeDelta.seconds seconds

instance (observedAt decidedAt : DateTime) (seconds : ℤ) :
    Decidable (AgeIsValid observedAt decidedAt seconds) := inferInstanceAs (Decidable (_ ∧ _))

def instrumentAuthority (intent : OrderIntent) (observation : RuntimeRiskObservation) :
    Option RuntimeInstrumentRiskSpec :=
  (onlyOne (observation.instrumentSpecs.filter fun item =>
    item.instrument.canonical = intent.instrument.canonical)).filter fun spec =>
      spec.instrument = intent.instrument ∧ spec.venueId = intent.instrument.venue

def marketAuthority (intent : OrderIntent) (spec : Option RuntimeInstrumentRiskSpec)
    (observation : RuntimeRiskObservation) : Option RuntimeRiskMarketSnapshot :=
  spec.bind fun spec =>
    (onlyOne (observation.marketSnapshots.filter fun item =>
      item.instrument.canonical = intent.instrument.canonical)).filter fun market =>
        market.instrument = intent.instrument ∧
          ∀ price ∈ [market.bid, market.ask, market.last], price.currency = spec.settlementCurrency

def conversionRate (source : Currency) (observation : RuntimeRiskObservation) (policy : RuntimeRiskPolicy)
    (decidedAt : DateTime) : Option Decimal :=
  let reporting := observation.portfolio.reportingCurrency
  if source = reporting then some 1
  else ((onlyOne (observation.conversionRates.filter fun item =>
      item.sourceCurrency = source ∧ item.targetCurrency = reporting)).filter fun conversion =>
        AgeIsValid conversion.observedAt decidedAt policy.marketDataMaxAgeSeconds ∧
          conversion.observedAt ≤ observation.observedAt).map RuntimeRiskConversionRate.rate

def openPositions (portfolio : AccountPortfolioSnapshot) : List AccountPositionSnapshot :=
  portfolio.positions.filter fun position => position.quantity.value ≠ 0

def ValuationAuthorityValid (spec : Option RuntimeInstrumentRiskSpec) (observation : RuntimeRiskObservation)
    (policy : RuntimeRiskPolicy) (decidedAt : DateTime) : Prop :=
  ∃ spec' ∈ spec, (∀ money ∈ policy.moneys, money.currency = observation.portfolio.reportingCurrency) ∧
      ∀ currency ∈ spec'.settlementCurrency ::
          (openPositions observation.portfolio).map fun p => p.settlementCurrency,
        (conversionRate currency observation policy decidedAt).isSome = true

instance (spec : Option RuntimeInstrumentRiskSpec) (observation : RuntimeRiskObservation)
    (policy : RuntimeRiskPolicy) (decidedAt : DateTime) :
    Decidable (ValuationAuthorityValid spec observation policy decidedAt) :=
  inferInstanceAs (Decidable (∃ _ ∈ spec, _))

/-! ## Portfolio -/

/-- One entry of a mapping of `_position_amounts` with a signed notional added. -/
def addAmount (partition : Partition ℚ) (key : String) (signed : ℚ) : Partition ℚ :=
  partition.set key ((partition.amounts key).1 + |signed|, (partition.amounts key).2 + signed)

/-- One round of `_position_amounts`. -/
def addPositionAmounts (observation : RuntimeRiskObservation) (policy : RuntimeRiskPolicy)
    (decidedAt : DateTime) (partitions : Partitions ℚ) (position : AccountPositionSnapshot) :
    Option (Partitions ℚ) := do
  if position.quantity.value = 0 then return partitions
  let mark ← position.mark
  let rate ← conversionRate position.settlementCurrency observation policy decidedAt
  let signed : ℚ := position.quantity.value * mark.price.amount * rate
  return {
    instruments := addAmount partitions.instruments position.instrument.canonical signed
    strategies := addAmount partitions.strategies position.strategyId signed
    venues := addAmount partitions.venues position.instrument.venue signed }

def positionAmounts (observation : RuntimeRiskObservation) (policy : RuntimeRiskPolicy)
    (decidedAt : DateTime) : Option (Partitions ℚ) :=
  observation.portfolio.positions.foldlM (addPositionAmounts observation policy decidedAt) ⟨[], [], []⟩

/-- One round of the loop over the collections in `_partitions_are_consistent`. -/
def CollectionIsConsistent (portfolio : AccountPortfolioSnapshot) (actual : Dict String ExposureSnapshot)
    (expected : Partition ℚ) : Prop :=
  (∀ key ∈ expected.keys, key ∈ actual.keys) ∧
    (∀ entry ∈ actual, entry.2.currency = portfolio.reportingCurrency ∧
      (entry.2.gross.amount : ℚ) = (expected.amounts entry.1).1 ∧
      (entry.2.net.amount : ℚ) = (expected.amounts entry.1).2) ∧
    (actual.values.map fun value => (value.pending.amount : ℚ)).sum =
      portfolio.totalExposure.pending.amount

instance (portfolio : AccountPortfolioSnapshot) (actual : Dict String ExposureSnapshot)
    (expected : Partition ℚ) : Decidable (CollectionIsConsistent portfolio actual expected) :=
  inferInstanceAs (Decidable (_ ∧ _))

def ExposuresAgree (portfolio : AccountPortfolioSnapshot) (amounts : Partitions ℚ) : Prop :=
  (portfolio.totalExposure.gross.amount : ℚ) = (amounts.instruments.values.map Prod.fst).sum ∧
    (portfolio.totalExposure.net.amount : ℚ) = (amounts.instruments.values.map Prod.snd).sum ∧
    CollectionIsConsistent portfolio (instrumentExposuresOf portfolio) amounts.instruments ∧
    CollectionIsConsistent portfolio (strategyExposuresOf portfolio) amounts.strategies ∧
    CollectionIsConsistent portfolio (venueExposuresOf portfolio) amounts.venues

instance (portfolio : AccountPortfolioSnapshot) (amounts : Partitions ℚ) :
    Decidable (ExposuresAgree portfolio amounts) := inferInstanceAs (Decidable (_ ∧ _))

/-- The stated exposures are the sums over the open positions. -/
def PartitionsAreConsistent (observation : RuntimeRiskObservation) (policy : RuntimeRiskPolicy)
    (decidedAt : DateTime) : Prop :=
  ∃ amounts ∈ positionAmounts observation policy decidedAt,
    observation.portfolio.totalExposure.currency = observation.portfolio.reportingCurrency ∧
      observation.portfolio.observedAt ≤ observation.observedAt ∧
      ExposuresAgree observation.portfolio amounts

instance (observation : RuntimeRiskObservation) (policy : RuntimeRiskPolicy) (decidedAt : DateTime) :
    Decidable (PartitionsAreConsistent observation policy decidedAt) :=
  inferInstanceAs (Decidable (∃ _ ∈ positionAmounts observation policy decidedAt, _))

def portfolioTimes (portfolio : AccountPortfolioSnapshot) : List DateTime :=
  portfolio.observedAt :: (portfolio.balances.map fun b => b.observedAt) ++
    (portfolio.positions.map fun p => p.observedAt) ++
    portfolio.positions.filterMap fun p => p.mark.map PositionMark.markedAt

def MatchingIsExact (intent : OrderIntent) (spec : RuntimeInstrumentRiskSpec)
    (observation : RuntimeRiskObservation) : Prop :=
  (matchingPositions intent observation).length ≤ 1 ∧
    ∀ position ∈ (matchingPositions intent observation).head?,
      position.instrument = intent.instrument ∧ position.settlementCurrency = spec.settlementCurrency

instance (intent : OrderIntent) (spec : RuntimeInstrumentRiskSpec) (observation : RuntimeRiskObservation) :
    Decidable (MatchingIsExact intent spec observation) := inferInstanceAs (Decidable (_ ∧ _))

def PortfolioAuthorityValid (intent : OrderIntent) (spec : Option RuntimeInstrumentRiskSpec)
    (observation : RuntimeRiskObservation) (policy : RuntimeRiskPolicy) (decidedAt : DateTime)
    (valuationValid : Prop) : Prop :=
  ((intent.accountId = policy.accountId ∧ policy.accountId = observation.portfolio.accountId) ∧
      valuationValid) ∧
    (∀ value ∈ portfolioTimes observation.portfolio,
      AgeIsValid value decidedAt policy.portfolioMaxAgeSeconds) ∧
    (∀ spec' ∈ spec, MatchingIsExact intent spec' observation) ∧
    PartitionsAreConsistent observation policy decidedAt

instance (intent : OrderIntent) (spec : Option RuntimeInstrumentRiskSpec)
    (observation : RuntimeRiskObservation) (policy : RuntimeRiskPolicy) (decidedAt : DateTime)
    (valuationValid : Prop) [Decidable valuationValid] :
    Decidable (PortfolioAuthorityValid intent spec observation policy decidedAt valuationValid) :=
  inferInstanceAs (Decidable (_ ∧ _))

/-! ## Venue and order conditions -/

def VenueIsHealthy (intent : OrderIntent) (spec : Option RuntimeInstrumentRiskSpec)
    (observation : RuntimeRiskObservation) (policy : RuntimeRiskPolicy) (decidedAt : DateTime) : Prop :=
  ∃ record ∈ onlyOne (observation.venueHealth.filter fun item =>
      item.venueId = spec.elim intent.instrument.venue RuntimeInstrumentRiskSpec.venueId),
    record.observedAt ≤ observation.observedAt ∧
      AgeIsValid record.observedAt decidedAt policy.marketDataMaxAgeSeconds ∧ record.health = .healthy

instance (intent : OrderIntent) (spec : Option RuntimeInstrumentRiskSpec)
    (observation : RuntimeRiskObservation) (policy : RuntimeRiskPolicy) (decidedAt : DateTime) :
    Decidable (VenueIsHealthy intent spec observation policy decidedAt) :=
  inferInstanceAs (Decidable (∃ _ ∈ onlyOne _, _))

def Reduces (current projected : Decimal) : Prop :=
  (0 < current ∧ 0 ≤ projected ∧ projected < current) ∨
    (current < 0 ∧ current < projected ∧ projected ≤ 0)

instance (current projected : Decimal) : Decidable (Reduces current projected) :=
  inferInstanceAs (Decidable (_ ∨ _))

def ReduceOnlyIsValid (intent : OrderIntent) (observation : RuntimeRiskObservation)
    (portfolioValid : Prop) : Prop :=
  intent.reduceOnly = true → portfolioValid → ∃ position ∈ onlyOne (matchingPositions intent observation),
      Reduces position.quantity.value (position.quantity.value + signedOrderQuantity intent)

instance (intent : OrderIntent) (observation : RuntimeRiskObservation) (portfolioValid : Prop)
    [Decidable portfolioValid] : Decidable (ReduceOnlyIsValid intent observation portfolioValid) :=
  inferInstanceAs (Decidable (_ → _ → ∃ _ ∈ onlyOne _, _))

def PolicyApproved (intent : OrderIntent) (policyDecision : RiskDecision) : Prop :=
  intent.riskDecisionId = policyDecision.decisionId ∧
    (policyDecision.outcome = .approved ∨ policyDecision.outcome = .modified) ∧
    policyDecision.approvedTarget ≠ none

instance (intent : OrderIntent) (policyDecision : RiskDecision) :
    Decidable (PolicyApproved intent policyDecision) := inferInstanceAs (Decidable (_ ∧ _))

def orderPrices (intent : OrderIntent) : List Price :=
  intent.limitPrice.toList ++ intent.triggerPrice.toList ++ intent.trailingOffset.toList

def PricePrecisionValid (intent : OrderIntent) (spec : RuntimeInstrumentRiskSpec) : Prop :=
  ∀ price ∈ orderPrices intent, price.currency = spec.settlementCurrency ∧
    IsMultipleOf price.amount spec.priceIncrement.amount

instance (intent : OrderIntent) (spec : RuntimeInstrumentRiskSpec) :
    Decidable (PricePrecisionValid intent spec) := inferInstanceAs (Decidable (∀ _ ∈ _, _))

def QuantityPrecisionValid (intent : OrderIntent) (spec : RuntimeInstrumentRiskSpec) : Prop :=
  IsMultipleOf intent.quantity.value spec.quantityIncrement.value

instance (intent : OrderIntent) (spec : RuntimeInstrumentRiskSpec) :
    Decidable (QuantityPrecisionValid intent spec) := inferInstanceAs (Decidable (IsMultipleOf _ _))

def QuantityBoundsValid (intent : OrderIntent) (spec : RuntimeInstrumentRiskSpec) : Prop :=
  spec.minQuantity.value ≤ intent.quantity.value ∧ intent.quantity.value ≤ spec.maxQuantity.value

instance (intent : OrderIntent) (spec : RuntimeInstrumentRiskSpec) :
    Decidable (QuantityBoundsValid intent spec) := inferInstanceAs (Decidable (_ ∧ _))

def NotionalBoundsValid (spec : RuntimeInstrumentRiskSpec) (reporting : Currency)
    (projection : RuntimeRiskProjection) : Prop :=
  spec.minOrderNotional.currency = reporting ∧ spec.maxOrderNotional.currency = reporting ∧
    projection.orderNotional.currency = reporting ∧
    spec.minOrderNotional.amount ≤ projection.orderNotional.amount ∧
    projection.orderNotional.amount ≤ spec.maxOrderNotional.amount

instance (spec : RuntimeInstrumentRiskSpec) (reporting : Currency) (projection : RuntimeRiskProjection) :
    Decidable (NotionalBoundsValid spec reporting projection) := inferInstanceAs (Decidable (_ ∧ _))

def FundsRemain (reporting : Currency) (policy : RuntimeRiskPolicy) (projection : RuntimeRiskProjection) :
    Prop :=
  projection.projectedAvailableFunds.currency = reporting ∧
    policy.minAvailableFunds.amount ≤ projection.projectedAvailableFunds.amount

instance (reporting : Currency) (policy : RuntimeRiskPolicy) (projection : RuntimeRiskProjection) :
    Decidable (FundsRemain reporting policy projection) := inferInstanceAs (Decidable (_ ∧ _))

def DailyLossValid (observation : RuntimeRiskObservation) (policy : RuntimeRiskPolicy) : Prop :=
  -policy.maxDailyLoss.amount ≤ observation.dailyPnl.amount

instance (observation : RuntimeRiskObservation) (policy : RuntimeRiskPolicy) :
    Decidable (DailyLossValid observation policy) := inferInstanceAs (Decidable (_ ≤ _))

def DrawdownValid (observation : RuntimeRiskObservation) (policy : RuntimeRiskPolicy) : Prop :=
  max (observation.peakEquity.amount - observation.currentEquity.amount) 0 ≤ policy.maxDrawdown.amount

instance (observation : RuntimeRiskObservation) (policy : RuntimeRiskPolicy) :
    Decidable (DrawdownValid observation policy) := inferInstanceAs (Decidable (_ ≤ _))

def CommandRateValid (observation : RuntimeRiskObservation) (policy : RuntimeRiskPolicy)
    (decidedAt : DateTime) : Prop :=
  (∀ containedAt ∈ [observation.observedAt, decidedAt],
    AgeIsValid observation.commandWindowStartedAt containedAt policy.commandWindowSeconds) ∧
    observation.commandsInWindow + 1 ≤ policy.maxCommandsPerWindow

instance (observation : RuntimeRiskObservation) (policy : RuntimeRiskPolicy) (decidedAt : DateTime) :
    Decidable (CommandRateValid observation policy decidedAt) := inferInstanceAs (Decidable (_ ∧ _))

def Duplicate (intent : OrderIntent) (observation : RuntimeRiskObservation) : Prop :=
  ∃ prior ∈ observation.priorCommands,
    prior.intentId = intent.intentId ∨ prior.clientOrderId = intent.clientOrderId

instance (intent : OrderIntent) (observation : RuntimeRiskObservation) :
    Decidable (Duplicate intent observation) := inferInstanceAs (Decidable (∃ _ ∈ _, _))

/-! ## Evaluation -/

variable (intent : OrderIntent) (policyDecision : RiskDecision) (observation : RuntimeRiskObservation)
  (policy : RuntimeRiskPolicy) (decidedAt : DateTime)

def specOf : Option RuntimeInstrumentRiskSpec := instrumentAuthority intent observation

def marketOf : Option RuntimeRiskMarketSnapshot := marketAuthority intent (specOf intent observation) observation

def MarketFresh : Prop :=
  ∃ market ∈ marketOf intent observation,
    AgeIsValid market.observedAt decidedAt policy.marketDataMaxAgeSeconds ∧
      market.observedAt ≤ observation.observedAt

instance : Decidable (MarketFresh intent observation policy decidedAt) :=
  inferInstanceAs (Decidable (∃ _ ∈ marketOf intent observation, _))

def ValuationValid : Prop := ValuationAuthorityValid (specOf intent observation) observation policy decidedAt

instance : Decidable (ValuationValid intent observation policy decidedAt) :=
  inferInstanceAs (Decidable (ValuationAuthorityValid _ _ _ _))

def PortfolioValid : Prop :=
  PortfolioAuthorityValid intent (specOf intent observation) observation policy decidedAt
    (ValuationValid intent observation policy decidedAt)

instance : Decidable (PortfolioValid intent observation policy decidedAt) :=
  inferInstanceAs (Decidable (PortfolioAuthorityValid _ _ _ _ _ _))

def BalanceValid : Prop :=
  (observation.portfolio.balances.filter fun balance =>
    balance.currency = observation.portfolio.reportingCurrency).length = 1

instance : Decidable (BalanceValid observation) := inferInstanceAs (Decidable (_ = _))

/-- Everything valid that the projection reads. -/
def ProjectionAttempted : Prop :=
  (∃ spec ∈ specOf intent observation,
      (observation.venueHealth.filter fun item => item.venueId = spec.venueId) ≠ []) ∧
    (marketOf intent observation).isSome = true ∧ ValuationValid intent observation policy decidedAt ∧
    PortfolioValid intent observation policy decidedAt ∧ BalanceValid observation

instance : Decidable (ProjectionAttempted intent observation policy decidedAt) :=
  inferInstanceAs (Decidable ((∃ _ ∈ specOf intent observation, _) ∧ _))

/-- `projection` and `projection_failed`; any error but a `ProjectionError` is raised. -/
def attemptProjection : Except EvaluationFailure (Option RuntimeRiskProjection × Bool) :=
  if ProjectionAttempted intent observation policy decidedAt then
    match projectRuntimeOrder intent observation policy decidedAt with
    | .ok projection => .ok (some projection, false)
    | .error (.projectionError _) => .ok (none, true)
    | .error e => .error e
  else .ok (none, false)

/-- `checks`: each reason with whether its check failed. -/
def riskChecks (projection : Option RuntimeRiskProjection) (projectionFailed : Bool) :
    List (RuntimeRiskReasonCode × Bool) :=
  let spec := specOf intent observation
  let reporting := observation.portfolio.reportingCurrency
  [(.policyRiskNotApproved, ¬ PolicyApproved intent policyDecision),
    (.engineNotReady, ¬ observation.engineReady),
    (.instrumentUnknown, spec = none),
    (.marketDataStale, spec ≠ none ∧ ¬ MarketFresh intent observation policy decidedAt),
    (.valuationAuthorityMissing, spec ≠ none ∧
      (¬ ValuationValid intent observation policy decidedAt ∨ projectionFailed = true)),
    (.portfolioStateInvalid, spec ≠ none ∧ ValuationValid intent observation policy decidedAt ∧
      ¬ PortfolioValid intent observation policy decidedAt),
    (.pricePrecisionInvalid, ∃ s ∈ spec, ¬ PricePrecisionValid intent s),
    (.quantityPrecisionInvalid, ∃ s ∈ spec, ¬ QuantityPrecisionValid intent s),
    (.quantityOutOfBounds, ∃ s ∈ spec, ¬ QuantityBoundsValid intent s),
    (.orderNotionalLimit, ∃ p ∈ projection, ∃ s ∈ spec, ¬ NotionalBoundsValid s reporting p),
    (.balanceMarginLimit, ¬ BalanceValid observation ∨
      ∃ p ∈ projection, ¬ FundsRemain reporting policy p),
    (.pendingExposureLimit, ∃ p ∈ projection,
      policy.maxPendingExposure.amount < p.projectedPending.amount),
    (.grossExposureLimit, ∃ p ∈ projection, policy.maxGrossExposure.amount < p.projectedGross.amount),
    (.netExposureLimit, ∃ p ∈ projection, policy.maxAbsNetExposure.amount < |p.projectedNet.amount|),
    (.strategyExposureLimit, ∃ p ∈ projection,
      policy.maxStrategyExposure.amount < p.projectedStrategyGross.amount),
    (.venueExposureLimit, ∃ p ∈ projection,
      policy.maxVenueExposure.amount < p.projectedVenueGross.amount),
    (.dailyLossLimit, ¬ DailyLossValid observation policy),
    (.drawdownLimit, ¬ DrawdownValid observation policy),
    (.reduceOnlyViolation, ¬ ReduceOnlyIsValid intent observation
      (PortfolioValid intent observation policy decidedAt)),
    (.commandRateLimit, ¬ CommandRateValid observation policy decidedAt),
    (.venueUnhealthy, ¬ VenueIsHealthy intent spec observation policy decidedAt),
    (.duplicateCommand, Duplicate intent observation)]

/-- `reasons`: the reasons of the checks that failed. -/
def reasonsOf (checks : List (RuntimeRiskReasonCode × Bool)) : List RuntimeRiskReasonCode :=
  (checks.filter Prod.snd).map Prod.fst

variable (codec : ModelCodec) (decisionId : Uuid)

def decisionFields (projection : Option RuntimeRiskProjection) (reasons : List RuntimeRiskReasonCode) :
    RuntimeOrderRiskFields where
  decisionId := decisionId
  intentId := intent.intentId
  riskDecisionId := intent.riskDecisionId
  intentDigest := canonicalModelDigest codec (.intent intent)
  policyRiskDecisionDigest := canonicalModelDigest codec (.policyDecision policyDecision)
  portfolioSnapshotId := observation.portfolio.snapshotId
  portfolioDigest := canonicalModelDigest codec (.portfolio observation.portfolio)
  observationId := observation.observationId
  observationVersion := observation.stateVersion
  observationDigest := canonicalModelDigest codec (.observation observation)
  policyId := policy.policyId
  policyVersion := policy.policyVersion
  policyDigest := canonicalModelDigest codec (.policy policy)
  projection := .ofProjection projection
  outcome := if reasons = [] then .approved else .rejected
  reasonCodes := if reasons = [] then [.withinLimits] else reasons
  decidedAt := decidedAt

/-- The constructor of a decision runs `model_post_init`. -/
def RuntimeOrderRiskDecision.of (fields : RuntimeOrderRiskFields) :
    Except EvaluationFailure RuntimeOrderRiskDecision :=
  if h : fields.Valid then .ok ⟨fields, h⟩
  else .error (.valueError "runtime order risk decision is invalid")

/-- The digests that the evaluation takes of its inputs before anything else. -/
def validatedDigests : Except EvaluationFailure Unit := do
  let _ ← validatedDigest codec (.intent intent) "intent"
  let _ ← validatedDigest codec (.policyDecision policyDecision) "policy_decision"
  let _ ← validatedDigest codec (.observation observation) "observation"
  let _ ← validatedDigest codec (.policy policy) "policy"
  let _ ← validatedDigest codec (.portfolio observation.portfolio) "portfolio"

def evaluateRuntimeOrderRisk : Except EvaluationFailure RuntimeOrderRiskDecision := do
  validatedDigests intent policyDecision observation policy codec
  require ((policyDecision.decidedAt ≤ intent.requestedAt ∧ intent.requestedAt ≤ decidedAt) ∧
      observation.observedAt ≤ decidedAt)
    (.valueError "runtime-risk inputs are not in valid UTC time order")
  let (projection, projectionFailed) ← attemptProjection intent observation policy decidedAt
  let reasons := reasonsOf
    (riskChecks intent policyDecision observation policy decidedAt projection projectionFailed)
  RuntimeOrderRiskDecision.of
    (decisionFields intent policyDecision observation policy decidedAt codec decisionId projection reasons)

end TradingAgent.RuntimeRisk
