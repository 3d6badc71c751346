import TradingAgent.PortfolioReducer.Accounting
import TradingAgent.EventLedger.Models

/-!
# Portfolio reduction

Side-effect-free reduction of an opening entry and the entries that follow it. The canonical JSON
encoding and SHA-256 are the parameter `Codec`; everything else is computed as the source does.
-/

namespace TradingAgent.PortfolioReducer

open Outcome

structure Codec extends EventLedger.LedgerCodec where
  payloadJson : PortfolioPayload → String
  stateJson : PortfolioReplayState → DateTime → String
  /-- `uuid5(NAMESPACE_URL, ·)` -/
  uuid5 : String → Uuid

variable (codec : Codec)

def eventDigest (event : PortfolioEvent) : String := codec.sha256 (codec.eventJson event.toLedger)

/-- The integers of an event that their types do not bound. -/
def eventIntegers (event : PortfolioEvent) : List ℤ :=
  match event.payload with
  | .fill entry => [event.sequence, entry.fill.reportSequence]
  | _ => [event.sequence]

/-- `_event_digest`, for its error: `json.dumps` writes the integers by `str`. -/
def requireDigest [DigitLimit] (event : PortfolioEvent) : Except Failure Unit :=
  (eventIntegers event).forM fun n =>
    require (Converts n) (.portfolioReplayError "event cannot be canonically represented")

def payloadDigest (payload : PortfolioPayload) : String := codec.sha256 (codec.payloadJson payload)

/-! ## Identities -/

def identityRecord (event : PortfolioEvent) (identityId : Uuid) : PortfolioBusinessIdentity where
  identityId := identityId
  payloadDigest := payloadDigest codec event.payload
  eventId := event.eventId
  eventDigest := eventDigest codec event
  streamId := event.streamId
  sequence := event.sequence

def businessIdentity : PortfolioPayload → Option Uuid
  | .fill entry => some entry.fill.executionId
  | .funding entry => some entry.fundingId
  | .reconciliation entry => some entry.reconciliationId
  | _ => none

def updatedIdentityTuple (identities : List PortfolioBusinessIdentity)
    (record : PortfolioBusinessIdentity) (label : String) :
    Except Failure (List PortfolioBusinessIdentity) :=
  match lookupBy PortfolioBusinessIdentity.identityId identities record.identityId with
  | some existing =>
    if existing.payloadDigest = record.payloadDigest then
      .error (.portfolioReplayError ("duplicate " ++ label ++ " identity"))
    else .error (.portfolioReplayError ("conflicting " ++ label ++ " identity"))
  | none => .ok (sortBy PortfolioBusinessIdentity.identityId (identities ++ [record]))

structure IdentityIndexes where
  (execution funding reconciliation : List PortfolioBusinessIdentity)

def businessIdentities (state : PortfolioReplayState) (event : PortfolioEvent) :
    Except Failure IdentityIndexes :=
  match event.payload with
  | .fill entry => do
    let execution ← updatedIdentityTuple state.executionIdentities
      (identityRecord codec event entry.fill.executionId) "execution"
    .ok ⟨execution, state.fundingIdentities, state.reconciliationIdentities⟩
  | .funding entry => do
    let funding ← updatedIdentityTuple state.fundingIdentities
      (identityRecord codec event entry.fundingId) "funding"
    .ok ⟨state.executionIdentities, funding, state.reconciliationIdentities⟩
  | .reconciliation entry => do
    let reconciliation ← updatedIdentityTuple state.reconciliationIdentities
      (identityRecord codec event entry.reconciliationId) "reconciliation"
    .ok ⟨state.executionIdentities, state.fundingIdentities, reconciliation⟩
  | _ => .ok ⟨state.executionIdentities, state.fundingIdentities, state.reconciliationIdentities⟩

/-! ## States -/

def appliedEvent (event : PortfolioEvent) : PortfolioAppliedEvent where
  eventId := event.eventId
  digest := eventDigest codec event
  streamId := event.streamId
  sequence := event.sequence
  eventType := event.payload.eventType
  businessIdentityId := businessIdentity event.payload

/-- `_sorted_applied` after recording one more event. -/
def sortedApplied (applied : List PortfolioAppliedEvent) (item : PortfolioAppliedEvent) :
    List PortfolioAppliedEvent :=
  Dict.valuesBy id ((Dict.byKey PortfolioAppliedEvent.eventId applied).set item.eventId item)

def advancedCursor (cursor : List PortfolioStreamCursor) (streamId : Uuid) (sequence : ℕ) :
    List PortfolioStreamCursor :=
  Dict.valuesBy id ((Dict.byKey PortfolioStreamCursor.streamId cursor).set streamId ⟨streamId, sequence⟩)

/-- What an event may change besides the bookkeeping; `none` keeps the old value. -/
structure StateUpdate where
  snapshot : Option PortfolioWorkingSnapshot := none
  valuationRates : Option (List PortfolioValuationRateState) := none
  activeEffects : Option (List PortfolioExecutionEffect) := none
  reconciliation : Option PortfolioReconciliationEntry := none

def nextState (state : PortfolioReplayState) (event : PortfolioEvent) (update : StateUpdate) :
    Except Failure PortfolioReplayState := do
  let identities ← businessIdentities codec state event
  PortfolioReplayState.of
    { snapshot := update.snapshot.getD state.snapshot
      cursor := advancedCursor state.cursor event.streamId event.sequence
      appliedEvents := sortedApplied state.appliedEvents (appliedEvent codec event)
      valuationRates := update.valuationRates.getD state.valuationRates
      activeEffects := update.activeEffects.getD state.activeEffects
      executionIdentities := identities.execution
      fundingIdentities := identities.funding
      reconciliationIdentities := identities.reconciliation
      reconciliation := update.reconciliation.or state.reconciliation }

def openingState [DigitLimit] (event : PortfolioEvent) : Except Failure PortfolioReplayState :=
  match event.payload with
  | .opening payload => do
    let snapshot ← PortfolioWorkingSnapshot.of
      { accountId := payload.accountId
        reportingCurrency := payload.reportingCurrency
        balances := payload.balances
        positions := []
        observedAt := payload.effectiveAt
        schemaVersion := "portfolio-working-v1" }
    requireDigest event
    PortfolioReplayState.of
      { snapshot := snapshot
        cursor := [⟨event.streamId, event.sequence⟩]
        appliedEvents := [appliedEvent codec event]
        valuationRates := []
        activeEffects := []
        executionIdentities := []
        fundingIdentities := []
        reconciliationIdentities := []
        reconciliation := none }
  | _ => .error (.portfolioReplayError "first portfolio event must be an opening entry")

/-! ## Positions and balances -/

def findPosition (positions : List PortfolioPositionState) (key : PositionKey) :
    Option PortfolioPositionState :=
  lookupBy PortfolioPositionState.key positions key

def entryKey (entry : PortfolioFillEntry) : PositionKey :=
  positionKey entry.strategyId entry.fill.instrumentDefinition.instrumentId.canonical

def newPosition (entry : PortfolioFillEntry) (fill : FillEvent) :
    Except Failure PortfolioPositionState := do
  let currency := fill.instrumentDefinition.settlementCurrency
  let zero ← quantity 0 fill.quantity.precision
  let realizedPnl ← money 0 currency "initial realized PnL"
  let unrealizedPnl ← money 0 currency "initial unrealized PnL"
  let fees ← money 0 currency "initial fees"
  let funding ← money 0 currency "initial funding"
  PortfolioPositionState.of
    { accountId := entry.accountId
      strategyId := entry.strategyId
      instrument := fill.instrumentDefinition.instrumentId
      instrumentDefinition := some fill.instrumentDefinition
      settlementCurrency := currency
      quantity := zero
      mark := none
      averageEntryPrice := none
      realizedPnl := realizedPnl
      unrealizedPnl := unrealizedPnl
      fees := fees
      funding := funding
      observedAt := entry.effectiveAt
      schemaVersion := "portfolio-working-v1" }

def positionFor (state : PortfolioReplayState) (entry : PortfolioFillEntry) :
    Except Failure PortfolioPositionState :=
  match findPosition state.snapshot.positions (entryKey entry) with
  | some position => .ok position
  | none => newPosition entry entry.fill

inductive BalanceColumn
  | cash
  | realizedPnl
  | fees
  | unrealizedPnl
  deriving DecidableEq

abbrev BalanceDelta := BalanceColumn → Decimal

def balanceAmount (balance : AccountBalanceSnapshot) : BalanceColumn → Decimal
  | .cash => balance.cash.amount
  | .realizedPnl => balance.realizedPnl.amount
  | .fees => balance.fees.amount
  | .unrealizedPnl => balance.unrealizedPnl.amount

def addDelta [DigitLimit] (column : BalanceColumn) (field : String) (deltas : Dict Currency BalanceDelta)
    (delta : Money) : Except Failure (Dict Currency BalanceDelta) := do
  let current := (deltas.get? delta.currency).getD fun _ => 0
  let amount ← sum [current column, delta.amount] field
  .ok (deltas.set delta.currency (Function.update current column amount))

def deltaBalance [DigitLimit] (balance : AccountBalanceSnapshot) (delta : BalanceDelta) (observedAt : DateTime) :
    Except Failure AccountBalanceSnapshot := do
  let currency := balance.currency
  let cash ← money (← sum [balance.cash.amount, delta .cash] "cash") currency "cash"
  let realizedPnl ← money
    (← sum [balance.realizedPnl.amount, delta .realizedPnl] "balance realized PnL") currency
    "balance realized PnL"
  let unrealizedPnl ← money
    (← sum [balance.unrealizedPnl.amount, delta .unrealizedPnl] "balance unrealized PnL") currency
    "balance unrealized PnL"
  let fees ← money (← sum [balance.fees.amount, delta .fees] "balance fees") currency "balance fees"
  AccountBalanceSnapshot.of
    { accountId := balance.accountId
      currency := currency
      cash := cash
      lockedFunds := balance.lockedFunds
      marginUsed := balance.marginUsed
      realizedPnl := realizedPnl
      unrealizedPnl := unrealizedPnl
      fees := fees
      funding := balance.funding
      observedAt := observedAt
      schemaVersion := balance.schemaVersion }

def balancesByCurrency (balances : List AccountBalanceSnapshot) : Dict Currency AccountBalanceSnapshot :=
  Dict.byKey (fun b => b.currency) balances

/-- One round of the second loop of `_apply_balances`. -/
def applyDelta [DigitLimit] (observedAt : DateTime) (byCurrency : Dict Currency AccountBalanceSnapshot)
    (delta : Currency × BalanceDelta) : Except Failure (Dict Currency AccountBalanceSnapshot) :=
  match byCurrency.get? delta.1 with
  | none => .error (.portfolioReplayError ("missing balance for currency " ++ delta.1.code))
  | some balance => do
    let updated ← rescue (deltaBalance balance delta.2 observedAt)
      (.portfolioReplayError "cash balance cannot be reconstructed")
    .ok (byCurrency.set delta.1 updated)

/-- The four delta lists of `_apply_balances`, by column. -/
structure BalanceDeltas where
  (cash realizedPnl fees unrealizedPnl : List Money)

def applyBalances [DigitLimit] (balances : List AccountBalanceSnapshot) (deltas : BalanceDeltas)
    (observedAt : DateTime) : Except Failure (List AccountBalanceSnapshot) := do
  let byDelta ← deltas.cash.foldlM (addDelta .cash "cash delta") []
  let byDelta ← deltas.realizedPnl.foldlM (addDelta .realizedPnl "balance realized PnL delta") byDelta
  let byDelta ← deltas.fees.foldlM (addDelta .fees "balance fee delta") byDelta
  let byDelta ← deltas.unrealizedPnl.foldlM
    (addDelta .unrealizedPnl "balance unrealized PnL delta") byDelta
  let byCurrency ← byDelta.foldlM (applyDelta observedAt) (balancesByCurrency balances)
  .ok (Dict.valuesBy Currency.code byCurrency)

def replacePosition (positions : List PortfolioPositionState) (replacement : PortfolioPositionState) :
    List PortfolioPositionState :=
  replaceBy PortfolioPositionState.key positions replacement

def nonzeroDelta (amount : Decimal) (currency : Currency) (field : String) :
    Except Failure (List Money) :=
  if amount ≠ 0 then do
    let delta ← money amount currency field
    .ok [delta]
  else .ok []

/-! ## Fills -/

def fillEffect [DigitLimit] (state : PortfolioReplayState) (entry : PortfolioFillEntry)
    (sourceEvent : PortfolioEvent) (logicalSequence : ℕ) (retainedMark : Option PositionMark) :
    Except Failure (PortfolioExecutionEffect × PortfolioPositionState) := do
  let fill := entry.fill
  let definition := fill.instrumentDefinition
  let position ← positionFor state entry
  require (position.instrumentDefinition = none ∨ position.instrumentDefinition = some definition)
    (.portfolioReplayError "fill instrument definition conflicts with active position")
  let key := positionKey entry.strategyId position.instrument.canonical
  let settlement := position.settlementCurrency
  let before ← accountingBefore state.activeEffects key position.quantity.value position.averageEntryPrice
  let accounting ← fillAccounting fill position.quantity.value position.averageEntryPrice before.1
  let realized ← realizedDelta definition.settlementCurrency before.2 accounting.realized
  let nextQuantity ← quantity accounting.residual fill.quantity.precision
  let marked ← markAndUnrealized position nextQuantity accounting.nextAverage accounting.basisAfter
    retainedMark
  let nextRealized ← money (← sum [position.realizedPnl.amount, realized] "realized PnL") settlement
    "realized PnL"
  let nextFees ← money (← sum [position.fees.amount, accounting.feeDelta] "position fees") settlement
    "position fees"
  let nextPosition ← PortfolioPositionState.of
    { accountId := position.accountId
      strategyId := position.strategyId
      instrument := position.instrument
      instrumentDefinition := some definition
      settlementCurrency := settlement
      quantity := nextQuantity
      mark := marked.1
      averageEntryPrice := accounting.nextAverage
      realizedPnl := nextRealized
      unrealizedPnl := marked.2
      fees := nextFees
      funding := position.funding
      observedAt := entry.effectiveAt
      schemaVersion := position.schemaVersion }
  let cash ← cashDeltas fill
  let balanceRealized ← nonzeroDelta realized settlement "balance realized PnL"
  let quantityDelta ← quantity accounting.signedFill fill.quantity.precision
  let realizedPnlDelta ← money realized settlement "realized PnL"
  let feesDelta ← money accounting.feeDelta settlement "position fees"
  let effect ← PortfolioExecutionEffect.of
    { executionId := fill.executionId
      accountId := entry.accountId
      strategyId := entry.strategyId
      fill := fill
      entry := entry
      sourceEvent := sourceEvent
      logicalSequence := logicalSequence
      cashDeltas := cash
      balanceRealizedPnlDeltas := balanceRealized
      balanceFeeDeltas := if fill.commission.amount ≠ 0 then [fill.commission] else []
      positionKey := key
      quantityBefore := position.quantity
      quantityDelta := quantityDelta
      realizedPnlDelta := realizedPnlDelta
      feesDelta := feesDelta
      averageBefore := position.averageEntryPrice
      averageAfter := accounting.nextAverage }
  .ok (effect, nextPosition)

/-- What `validate_execution_effect` recomputes from the source fill. -/
def effectMatches [DigitLimit] (effect : PortfolioExecutionEffect) (prior : List PortfolioExecutionEffect) :
    Except Failure Bool := do
  let fill := effect.fill
  let settlement := fill.instrumentDefinition.settlementCurrency
  let before ← accountingBefore prior effect.positionKey effect.quantityBefore.value effect.averageBefore
  let accounting ← fillAccounting fill effect.quantityBefore.value effect.averageBefore before.1
  let realized ← realizedDelta settlement before.2 accounting.realized
  let expectedRealized ← nonzeroDelta realized settlement "balance realized PnL"
  let quantityDelta ← quantity accounting.signedFill fill.quantity.precision
  let cash ← cashDeltas fill
  let realizedPnlDelta ← money realized settlement "realized PnL"
  let feesDelta ← money accounting.feeDelta settlement "position fees"
  .ok (effect.positionKey =
      positionKey effect.strategyId fill.instrumentDefinition.instrumentId.canonical ∧
    effect.quantityDelta = quantityDelta ∧ effect.cashDeltas = cash ∧
    effect.balanceRealizedPnlDeltas = expectedRealized ∧
    effect.balanceFeeDeltas = (if fill.commission.amount ≠ 0 then [fill.commission] else []) ∧
    effect.realizedPnlDelta = realizedPnlDelta ∧ effect.feesDelta = feesDelta ∧
    effect.averageAfter = accounting.nextAverage)

def validateExecutionEffect [DigitLimit] (effect : PortfolioExecutionEffect)
    (priorEffects : List PortfolioExecutionEffect) : Except Failure Unit := do
  require (effect.fill.status.IsNormal ∨ effect.fill.status = .correction)
    (.portfolioReplayError "snapshot effect source is not an active execution")
  let expected ← effectMatches effect priorEffects
  require (expected = true)
    (.portfolioReplayError "snapshot execution effect does not match source fill economics")

def withEffect [DigitLimit] (state : PortfolioReplayState) (effect : PortfolioExecutionEffect)
    (nextPosition : PortfolioPositionState) (observedAt : Option DateTime) :
    Except Failure PortfolioReplayState := do
  let appliedAt := observedAt.getD effect.entry.effectiveAt
  let appliedPosition ← PortfolioPositionState.of
    { nextPosition.toPortfolioPositionFields with observedAt := appliedAt }
  let previousPosition ← positionFor state effect.entry
  let unrealizedDelta ← sum [appliedPosition.unrealizedPnl.amount, -previousPosition.unrealizedPnl.amount]
    "balance unrealized PnL delta"
  let unrealized ← nonzeroDelta unrealizedDelta appliedPosition.settlementCurrency
    "balance unrealized PnL delta"
  let balances ← applyBalances state.snapshot.balances
    ⟨effect.cashDeltas, effect.balanceRealizedPnlDeltas, effect.balanceFeeDeltas, unrealized⟩ appliedAt
  let snapshot ← PortfolioWorkingSnapshot.of
    { state.snapshot.toPortfolioWorkingFields with
      balances := balances
      positions := replacePosition state.snapshot.positions appliedPosition
      observedAt := appliedAt }
  PortfolioReplayState.of
    { state.toPortfolioReplayFields with
      snapshot := snapshot
      activeEffects := sortBy (fun e => e.executionId) (state.activeEffects ++ [effect]) }

def bookFill [DigitLimit] (state : PortfolioReplayState) (entry : PortfolioFillEntry) (sourceEvent : PortfolioEvent)
    (logicalSequence : ℕ) (retainedMark : Option PositionMark) (observedAt : Option DateTime) :
    Except Failure PortfolioReplayState := do
  let filled ← fillEffect state entry sourceEvent logicalSequence retainedMark
  withEffect state filled.1 filled.2 observedAt

def applyNormal [DigitLimit] (state : PortfolioReplayState) (event : PortfolioEvent) (entry : PortfolioFillEntry) :
    Except Failure PortfolioReplayState := do
  let booked ← bookFill state entry event event.sequence none none
  nextState codec booked event {}

/-- The fills move the same amounts. -/
def SameEconomics (left right : FillEvent) : Prop :=
  left.instrumentDefinition = right.instrumentDefinition ∧ left.side = right.side ∧
    left.quantity = right.quantity ∧ left.lastFillPrice = right.lastFillPrice ∧
    left.averageFillPrice = right.averageFillPrice ∧ left.commission = right.commission

instance (left right : FillEvent) : Decidable (SameEconomics left right) :=
  inferInstanceAs (Decidable (_ ∧ _))

/-! ## Busts and corrections -/

def reversedDeltas (deltas : List Money) (field : String) : Except Failure (List Money) :=
  deltas.mapM fun delta => money (-delta.amount) delta.currency field

def withoutExecution (effects : List PortfolioExecutionEffect) (executionId : Uuid) :
    List PortfolioExecutionEffect :=
  effects.filter fun item => item.executionId ≠ executionId

def reversedPosition [DigitLimit] (state : PortfolioReplayState) (effect : PortfolioExecutionEffect)
    (position : PortfolioPositionState) (observedAt : DateTime) :
    Except Failure PortfolioPositionState := do
  let nextQuantity ← sum [position.quantity.value, -effect.quantityDelta.value]
    "reversed position quantity"
  let nextQuantityValue ← quantity nextQuantity position.quantity.precision
  let nextBasis ← costBasisBefore (withoutExecution state.activeEffects effect.executionId)
    effect.positionKey nextQuantity effect.averageBefore
  let marked ← markAndUnrealized position nextQuantityValue effect.averageBefore nextBasis none
  let realizedPnl ← money
    (← sum [position.realizedPnl.amount, -effect.realizedPnlDelta.amount] "reversed realized PnL")
    position.settlementCurrency "reversed realized PnL"
  let fees ← money (← sum [position.fees.amount, -effect.feesDelta.amount] "reversed fees")
    position.settlementCurrency "reversed fees"
  PortfolioPositionState.of
    { position.toPortfolioPositionFields with
      quantity := nextQuantityValue
      mark := marked.1
      averageEntryPrice := effect.averageBefore
      realizedPnl := realizedPnl
      unrealizedPnl := marked.2
      fees := fees
      observedAt := observedAt }

def reverseEffect [DigitLimit] (state : PortfolioReplayState) (effect : PortfolioExecutionEffect)
    (observedAt : DateTime) : Except Failure PortfolioWorkingSnapshot :=
  match findPosition state.snapshot.positions (entryKey effect.entry) with
  | none => .error (.portfolioReplayError "active normal execution has no position to reverse")
  | some position => do
    let nextPosition ← reversedPosition state effect position observedAt
    let reverseCash ← reversedDeltas effect.cashDeltas "reversed cash"
    let reverseRealizedPnl ← reversedDeltas effect.balanceRealizedPnlDeltas
      "reversed balance realized PnL"
    let reverseFees ← reversedDeltas effect.balanceFeeDeltas "reversed balance fees"
    let unrealizedDelta ← sum [nextPosition.unrealizedPnl.amount, -position.unrealizedPnl.amount]
      "reversed balance unrealized PnL"
    let unrealized ← nonzeroDelta unrealizedDelta position.settlementCurrency
      "reversed balance unrealized PnL"
    let balances ← applyBalances state.snapshot.balances
      ⟨reverseCash, reverseRealizedPnl, reverseFees, unrealized⟩ observedAt
    PortfolioWorkingSnapshot.of
      { state.snapshot.toPortfolioWorkingFields with
        balances := balances
        positions := replacePosition state.snapshot.positions nextPosition
        observedAt := observedAt }

def removeEffect [DigitLimit] (state : PortfolioReplayState) (effect : PortfolioExecutionEffect)
    (observedAt : DateTime) : Except Failure PortfolioReplayState := do
  let snapshot ← reverseEffect state effect observedAt
  PortfolioReplayState.of
    { state.toPortfolioReplayFields with
      snapshot := snapshot
      activeEffects := withoutExecution state.activeEffects effect.executionId }

def affectedDefinitions (effect : PortfolioExecutionEffect) (entry : PortfolioFillEntry) :
    Dict PositionKey InstrumentDefinition :=
  let removed : Dict PositionKey InstrumentDefinition :=
    [(effect.positionKey, effect.fill.instrumentDefinition)]
  if entry.fill.status = .correction then removed.set (entryKey entry) entry.fill.instrumentDefinition
  else removed

def retainedMark (state : PortfolioReplayState) (affected : Dict PositionKey InstrumentDefinition)
    (key : PositionKey) : Option PositionMark :=
  match affected.get? key, findPosition state.snapshot.positions key with
  | some expected, some position =>
    if position.instrument = expected.instrumentId ∧
        position.settlementCurrency = expected.settlementCurrency then
      position.mark.filter fun mark => mark.price.currency = position.settlementCurrency
    else none
  | _, _ => none

/-- The effects of the touched positions that come after `effect`. -/
def laterEffects (state : PortfolioReplayState) (affected : Dict PositionKey InstrumentDefinition)
    (effect : PortfolioExecutionEffect) : List PortfolioExecutionEffect :=
  sortBy (fun e => e.logicalSequence) (state.activeEffects.filter fun item =>
    item.positionKey ∈ affected.keys ∧ effect.logicalSequence < item.logicalSequence)

def rebaseLaterEffects [DigitLimit] (state : PortfolioReplayState) (effect : PortfolioExecutionEffect)
    (event : PortfolioEvent) (entry : PortfolioFillEntry) : Except Failure PortfolioReplayState := do
  let affected := affectedDefinitions effect entry
  let later := laterEffects state affected effect
  -- the removals run from the last effect back to the replaced one
  let removals := sortBy (fun e => OrderDual.toDual e.logicalSequence) (effect :: later)
  let rebased ← removals.foldlM (fun rebased item => removeEffect rebased item entry.effectiveAt) state
  let rebased ←
    if entry.fill.status = .correction then
      bookFill rebased entry event effect.logicalSequence
        (retainedMark state affected (entryKey entry)) none
    else .ok rebased
  later.foldlM (fun rebased item =>
    bookFill rebased item.entry item.sourceEvent item.logicalSequence
      (retainedMark state affected item.positionKey) (some entry.effectiveAt)) rebased

def findEffect (effects : List PortfolioExecutionEffect) (reference : Uuid) :
    Option PortfolioExecutionEffect :=
  lookupBy (fun item => item.executionId) effects reference

def consumeEffect [DigitLimit] (state : PortfolioReplayState) (event : PortfolioEvent) (entry : PortfolioFillEntry)
    (reference : Uuid) : Except Failure PortfolioReplayState :=
  match findEffect state.activeEffects reference with
  | none => .error (.portfolioReplayError "reference must name an active normal execution")
  | some effect => do
    require (effect.accountId = entry.accountId ∧ effect.strategyId = entry.strategyId)
      (.portfolioReplayError
        "reference must name an active normal execution in the same account and strategy")
    let rebased ← rebaseLaterEffects state effect event entry
    nextState codec rebased event {}

/-! ## Marks, funding, conversions, rates and reconciliations -/

def updatedBalance [DigitLimit] (balance : AccountBalanceSnapshot) (cashDelta fundingDelta : Decimal)
    (observedAt : DateTime) : Except Failure AccountBalanceSnapshot := do
  let cash ← money (← sum [balance.cash.amount, cashDelta] "cash") balance.currency "cash"
  let funding ← money (← sum [balance.funding.amount, fundingDelta] "funding") balance.currency "funding"
  AccountBalanceSnapshot.of
    { balance.toAccountBalanceFields with cash := cash, funding := funding, observedAt := observedAt }

/-- One round of the loop of `_apply_mark`. -/
def markPosition [DigitLimit] (state : PortfolioReplayState) (entry : PortfolioMarkEntry)
    (acc : List PortfolioPositionState × Dict Currency Decimal) (position : PortfolioPositionState) :
    Except Failure (List PortfolioPositionState × Dict Currency Decimal) := do
  if position.instrument ≠ entry.instrument ∨ position.quantity.value = 0 then
    return (acc.1 ++ [position], acc.2)
  require (entry.mark.price.currency = position.settlementCurrency)
    (.portfolioReplayError "mark currency must match position settlement currency")
  require (position.averageEntryPrice.isSome = true) .assertionError
  require (position.instrumentDefinition.isSome = true) .assertionError
  let basis ← costBasisBefore state.activeEffects position.key position.quantity.value
    position.averageEntryPrice
  let marked ← markAndUnrealized position position.quantity position.averageEntryPrice basis
    (some entry.mark)
  let unrealizedDelta ← sum [marked.2.amount, -position.unrealizedPnl.amount]
    "balance unrealized PnL delta"
  let total ← sum [(acc.2.get? position.settlementCurrency).getD 0, unrealizedDelta]
    "balance unrealized PnL delta"
  let next ← PortfolioPositionState.of
    { position.toPortfolioPositionFields with
      mark := some entry.mark
      unrealizedPnl := marked.2
      observedAt := entry.effectiveAt }
  return (acc.1 ++ [next], acc.2.set position.settlementCurrency total)

def applyMark [DigitLimit] (state : PortfolioReplayState) (event : PortfolioEvent) (entry : PortfolioMarkEntry) :
    Except Failure PortfolioReplayState := do
  require (entry.markedAt ≤ entry.effectiveAt)
    (.portfolioReplayError "mark time must not be after event effective time")
  require (∀ p ∈ state.snapshot.positions, p.instrument = entry.instrument → p.quantity.value ≠ 0 →
    ∀ mark ∈ p.mark, mark.markedAt ≤ entry.markedAt)
    (.portfolioReplayError "mark time is older than retained mark")
  let marked ← state.snapshot.positions.foldlM (markPosition state entry) ([], [])
  let deltas ← ((sortBy (fun e => e.1.code) marked.2).filter fun e => e.2 ≠ 0).mapM fun e =>
    money e.2 e.1 "balance unrealized PnL delta"
  let balances ← applyBalances state.snapshot.balances ⟨[], [], [], deltas⟩ entry.effectiveAt
  let snapshot ← PortfolioWorkingSnapshot.of
    { state.snapshot.toPortfolioWorkingFields with
      balances := balances
      positions := marked.1
      observedAt := entry.effectiveAt }
  nextState codec state event { snapshot := some snapshot }

def fundedPosition [DigitLimit] (position : PortfolioPositionState) (entry : PortfolioFundingEntry) :
    Except Failure PortfolioPositionState := do
  require (entry.amount.currency = position.settlementCurrency)
    (.portfolioReplayError "funding currency must match position settlement currency")
  let funding ← money (← sum [position.funding.amount, entry.amount.amount] "position funding")
    position.settlementCurrency "position funding"
  PortfolioPositionState.of
    { position.toPortfolioPositionFields with funding := funding, observedAt := entry.effectiveAt }

def fundedPositions [DigitLimit] (state : PortfolioReplayState) (entry : PortfolioFundingEntry) :
    Except Failure (List PortfolioPositionState) :=
  match entry.strategyId, entry.instrument with
  | none, _ => .ok state.snapshot.positions
  | some _, none => .error .assertionError
  | some strategyId, some instrument =>
    match findPosition state.snapshot.positions (positionKey strategyId instrument.canonical) with
    | none => .error (.portfolioReplayError "funding position key does not name an existing position")
    | some position => do
      let replacement ← fundedPosition position entry
      .ok (replacePosition state.snapshot.positions replacement)

def applyFunding [DigitLimit] (state : PortfolioReplayState) (event : PortfolioEvent)
    (entry : PortfolioFundingEntry) : Except Failure PortfolioReplayState :=
  let byCurrency := balancesByCurrency state.snapshot.balances
  match byCurrency.get? entry.amount.currency with
  | none => .error (.portfolioReplayError
      ("missing balance for funding currency " ++ entry.amount.currency.code))
  | some balance => do
    let positions ← fundedPositions state entry
    let updated ← updatedBalance balance entry.amount.amount entry.amount.amount entry.effectiveAt
    let snapshot ← PortfolioWorkingSnapshot.of
      { state.snapshot.toPortfolioWorkingFields with
        balances := Dict.valuesBy Currency.code (byCurrency.set entry.amount.currency updated)
        positions := positions
        observedAt := entry.effectiveAt }
    nextState codec state event { snapshot := some snapshot }

def applyConversion [DigitLimit] (state : PortfolioReplayState) (event : PortfolioEvent)
    (entry : PortfolioConversionEntry) : Except Failure PortfolioReplayState := do
  let conversion := entry.conversion
  require (0 < conversion.source.amount)
    (.portfolioReplayError "conversion source amount must be positive")
  let byCurrency := balancesByCurrency state.snapshot.balances
  match byCurrency.get? conversion.source.currency, byCurrency.get? conversion.target.currency with
  | some source, some target => do
    require (conversion.source.amount ≤ source.cash.amount)
      (.portfolioReplayError "insufficient source cash for conversion")
    let debited ← updatedBalance source (-conversion.source.amount) 0 entry.effectiveAt
    let credited ← updatedBalance target conversion.target.amount 0 entry.effectiveAt
    let updated := (byCurrency.set source.currency debited).set target.currency credited
    let snapshot ← PortfolioWorkingSnapshot.of
      { state.snapshot.toPortfolioWorkingFields with
        balances := Dict.valuesBy Currency.code updated
        observedAt := entry.effectiveAt }
    nextState codec state event { snapshot := some snapshot }
  | _, _ => throw (.portfolioReplayError "conversion requires balances for both currencies")

def applyValuationRate (state : PortfolioReplayState) (event : PortfolioEvent)
    (entry : PortfolioValuationRateEntry) : Except Failure PortfolioReplayState :=
  let key := (entry.sourceCurrency, entry.targetCurrency)
  let rates : Dict (Currency × Currency) PortfolioValuationRateState :=
    Dict.byKey (fun r => (r.sourceCurrency, r.targetCurrency)) state.valuationRates
  let quoted : PortfolioValuationRateState :=
    ⟨entry.sourceCurrency, entry.targetCurrency, entry.rate, entry.quotedAt, entry.provenanceId⟩
  let updated := match rates.get? key with
    | none => rates.set key quoted
    | some existing => if existing.quotedAt < entry.quotedAt then rates.set key quoted else rates
  nextState codec state event
    { valuationRates := some (Dict.valuesBy (fun k => rateKey k.1 k.2) updated) }

def reconciledPosition (definitions : Dict PositionKey (Option InstrumentDefinition))
    (position : AccountPositionSnapshot) : Except Failure PortfolioPositionState := do
  let definition :=
    (definitions.get? (positionKey position.strategyId position.instrument.canonical)).join
  require (definition.isSome = true ∨ position.quantity.value = 0)
    (.portfolioReplayError "reconciliation position has no retained instrument definition")
  PortfolioPositionState.of
    { accountId := position.accountId
      strategyId := position.strategyId
      instrument := position.instrument
      instrumentDefinition := definition
      settlementCurrency := position.settlementCurrency
      quantity := position.quantity
      mark := position.mark
      averageEntryPrice := position.averageEntryPrice
      realizedPnl := position.realizedPnl
      unrealizedPnl := position.unrealizedPnl
      fees := position.fees
      funding := position.funding
      observedAt := position.observedAt
      schemaVersion := position.schemaVersion }

def applyReconciliation (state : PortfolioReplayState) (event : PortfolioEvent)
    (entry : PortfolioReconciliationEntry) : Except Failure PortfolioReplayState := do
  let definitions : Dict PositionKey (Option InstrumentDefinition) :=
    Dict.ofList (state.snapshot.positions.map fun p => (p.key, p.instrumentDefinition))
  let positions ← entry.snapshot.positions.mapM (reconciledPosition definitions)
  let snapshot ← PortfolioWorkingSnapshot.of
    { accountId := entry.snapshot.accountId
      reportingCurrency := entry.snapshot.reportingCurrency
      balances := entry.snapshot.balances
      positions := positions
      observedAt := entry.snapshot.observedAt
      schemaVersion := "portfolio-working-v1" }
  nextState codec state event
    { snapshot := some snapshot, activeEffects := some [], reconciliation := some entry }

/-- The account observation branch of `apply_portfolio_event`. -/
def applyAccountObservation (state : PortfolioReplayState) (event : PortfolioEvent)
    (entry : PortfolioAccountObservationEntry) : Except Failure PortfolioReplayState := do
  let mismatch := Failure.portfolioReplayError
    "account observation does not match reduced portfolio state"
  match lookupBy (fun b => b.currency) state.snapshot.balances entry.currency with
  | none => throw mismatch
  | some balance => do
    require (balance.cash = entry.cashBalance ∧ balance.fees = entry.fees ∧
      balance.realizedPnl = entry.realizedPnl ∧ balance.unrealizedPnl = entry.unrealizedPnl) mismatch
    require (state.snapshot.observedAt ≤ entry.effectiveAt)
      (.portfolioReplayError "account observation time cannot regress")
    let snapshot ← PortfolioWorkingSnapshot.of
      { state.snapshot.toPortfolioWorkingFields with observedAt := entry.effectiveAt }
    nextState codec state event { snapshot := some snapshot }

/-- The fill branch of `apply_portfolio_event`. -/
def applyFill [DigitLimit] (state : PortfolioReplayState) (event : PortfolioEvent) (entry : PortfolioFillEntry) :
    Except Failure PortfolioReplayState :=
  match entry.fill.status with
  | .partiallyFilled | .filled => do
    require (entry.fill.executionId ∉ state.activeExecutionIds)
      (.portfolioReplayError "normal execution is already active")
    applyNormal codec state event entry
  | .duplicate => do
    let unknown := Failure.portfolioReplayError "duplicate must reference an active normal execution"
    match entry.fill.duplicateOfExecutionId.bind (findEffect state.activeEffects) with
    | none => throw unknown
    | some effect => do
      require (effect.accountId = entry.accountId ∧ effect.strategyId = entry.strategyId) unknown
      require (SameEconomics effect.fill entry.fill)
        (.portfolioReplayError "duplicate economics do not match referenced execution")
      nextState codec state event {}
  | .correction =>
    match entry.fill.correctionOfExecutionId with
    | none => .error .assertionError
    | some reference => consumeEffect codec state event entry reference
  | .bust =>
    match entry.fill.bustOfExecutionId with
    | none => .error .assertionError
    | some reference => consumeEffect codec state event entry reference

/-- The branches of `apply_portfolio_event` on the payload. -/
def applyPayload [DigitLimit] (state : PortfolioReplayState) (event : PortfolioEvent) :
    Except Failure PortfolioReplayState :=
  match event.payload with
  | .opening _ => .error (.portfolioReplayError "portfolio opening may only appear once")
  | .mark entry => applyMark codec state event entry
  | .funding entry => applyFunding codec state event entry
  | .conversion entry => applyConversion codec state event entry
  | .valuationRate entry => applyValuationRate codec state event entry
  | .reconciliation entry => applyReconciliation codec state event entry
  | .accountObservation entry => applyAccountObservation codec state event entry
  | .fill entry => applyFill codec state event entry

def appliedDigest (applied : List PortfolioAppliedEvent) (eventId : Uuid) : Option String :=
  (Dict.ofList (applied.map fun item => (item.eventId, item.digest))).get? eventId

def applyPortfolioEvent [DigitLimit] (state : PortfolioReplayState) (event : PortfolioEvent) :
    Except Failure PortfolioReplayState := do
  requireDigest event
  match appliedDigest state.appliedEvents event.eventId with
  | some previous =>
    if previous = eventDigest codec event then .ok state
    else .error (.portfolioReplayError "conflicting event identity")
  | none => do
    require (event.streamId ∈ state.cursor.map PortfolioStreamCursor.streamId)
      (.portfolioReplayError "event stream does not match portfolio state")
    require (event.payload.isOpening = false)
      (.portfolioReplayError "portfolio opening may only appear once")
    require (event.payload.accountId = state.snapshot.accountId)
      (.portfolioReplayError "portfolio event account does not match state account")
    let _ ← businessIdentities codec state event
    applyPayload codec state event

/-- `reduce_portfolio_events` -/
def reducePortfolioEvents [DigitLimit] (events : List PortfolioEvent) : Except Failure PortfolioReplayState :=
  match events with
  | [] => .error (.portfolioReplayError "portfolio event history requires an opening entry")
  | first :: rest => do
    let state ← openingState codec first
    rest.foldlM (applyPortfolioEvent codec) state

end TradingAgent.PortfolioReducer
