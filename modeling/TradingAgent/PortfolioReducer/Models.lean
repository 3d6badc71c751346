import TradingAgent.Domain.Events

/-! The replay state of a portfolio with the checks of its constructors. -/

namespace TradingAgent

open Outcome

@[ext] structure PortfolioStreamCursor where
  streamId : Uuid
  sequence : ℕ
  deriving DecidableEq

@[ext] structure PortfolioAppliedEvent where
  eventId : Uuid
  digest : String
  streamId : Uuid
  sequence : ℕ
  eventType : String
  businessIdentityId : Option Uuid

/-- Hash-bound source metadata for one durable payload business identity. -/
@[ext] structure PortfolioBusinessIdentity where
  identityId : Uuid
  payloadDigest : String
  eventId : Uuid
  eventDigest : String
  streamId : Uuid
  sequence : ℕ
  deriving DecidableEq

@[ext] structure PortfolioValuationRateState where
  sourceCurrency : Currency
  targetCurrency : Currency
  rate : Decimal
  quotedAt : DateTime
  provenanceId : String

/-- `keys == tuple(sorted(set(keys)))` -/
def requireSorted {κ : Type} [LinearOrder κ] (keys : List κ) (message : String) : Except Failure Unit :=
  require (keys.Pairwise (· < ·)) (.valueError message)

@[ext] structure PortfolioPositionFields where
  accountId : String
  strategyId : String
  instrument : InstrumentId
  instrumentDefinition : Option InstrumentDefinition
  settlementCurrency : Currency
  quantity : Quantity
  mark : Option PositionMark
  averageEntryPrice : Option Price
  realizedPnl : Money
  unrealizedPnl : Money
  fees : Money
  funding : Money
  observedAt : DateTime
  schemaVersion : String

/-- The check on the definition a position may retain. -/
def PortfolioPositionFields.validateDefinition (p : PortfolioPositionFields) : Except Failure Unit :=
  match p.instrumentDefinition with
  | none => .ok ()
  | some d => do
    require (d.instrumentId = p.instrument)
      (.valueError "instrument definition must match position instrument")
    require (d.settlementCurrency = p.settlementCurrency)
      (.valueError "instrument definition settlement currency must match position")

def PortfolioPositionFields.validateOpen (p : PortfolioPositionFields) : Except Failure Unit :=
  if p.quantity.value = 0 then do
    require (p.averageEntryPrice = none ∧ p.mark = none)
      (.valueError "zero position must not retain an average entry price or mark")
    require (p.unrealizedPnl.amount = 0) (.valueError "zero position must not retain unrealized PnL")
  else do
    require (p.instrumentDefinition.isSome = true)
      (.valueError "non-zero position requires an instrument definition")
    match p.averageEntryPrice with
    | none => throw (.valueError "non-zero position requires an average entry price")
    | some average =>
      require (average.currency = p.settlementCurrency)
        (.valueError "average entry price currency must match settlement currency")

/-- `PortfolioPositionState._valid_state` -/
def PortfolioPositionFields.validate (p : PortfolioPositionFields) : Except Failure Unit := do
  p.validateDefinition
  require (∀ m ∈ [p.realizedPnl, p.unrealizedPnl, p.fees, p.funding],
    m.currency = p.settlementCurrency) (.valueError "position money must match settlement currency")
  p.validateOpen

structure PortfolioPositionFields.Valid (p : PortfolioPositionFields) : Prop where
  definition : ∀ d ∈ p.instrumentDefinition,
    d.instrumentId = p.instrument ∧ d.settlementCurrency = p.settlementCurrency
  realizedPnl : p.realizedPnl.currency = p.settlementCurrency
  unrealizedPnl : p.unrealizedPnl.currency = p.settlementCurrency
  fees : p.fees.currency = p.settlementCurrency
  funding : p.funding.currency = p.settlementCurrency
  flat : p.quantity.value = 0 → p.averageEntryPrice = none ∧ p.mark = none ∧ p.unrealizedPnl.amount = 0
  nonflat : p.quantity.value ≠ 0 → p.instrumentDefinition.isSome = true ∧
    ∃ average, p.averageEntryPrice = some average ∧ average.currency = p.settlementCurrency

theorem PortfolioPositionFields.validateDefinition_ok_iff (p : PortfolioPositionFields) :
    p.validateDefinition = .ok () ↔ ∀ d ∈ p.instrumentDefinition,
      d.instrumentId = p.instrument ∧ d.settlementCurrency = p.settlementCurrency := by
  unfold validateDefinition
  cases p.instrumentDefinition with
  | none => simp
  | some d => simp [bind_ok_iff]

theorem PortfolioPositionFields.validateOpen_ok_iff (p : PortfolioPositionFields) : p.validateOpen = .ok () ↔
      (p.quantity.value = 0 → p.averageEntryPrice = none ∧ p.mark = none ∧ p.unrealizedPnl.amount = 0) ∧
      (p.quantity.value ≠ 0 → p.instrumentDefinition.isSome = true ∧
        ∃ average, p.averageEntryPrice = some average ∧ average.currency = p.settlementCurrency) := by
  unfold validateOpen
  by_cases hq : p.quantity.value = 0
  · simp [hq, bind_ok_iff, and_assoc]
  · cases p.averageEntryPrice with
    | none => simp [hq, bind_ok_iff]
    | some average => simp [hq, bind_ok_iff]

theorem PortfolioPositionFields.validate_ok_iff (p : PortfolioPositionFields) : p.validate = .ok () ↔ p.Valid := by
  unfold validate
  simp only [bind_ok_iff, exists_const, require_ok_iff, List.forall_mem_cons, List.not_mem_nil,
    false_implies, implies_true, and_true]
  constructor
  · rintro ⟨_, hd, ⟨h1, h2, h3, h4⟩, ho⟩
    obtain ⟨h5, h6⟩ := (p.validateOpen_ok_iff).1 ho
    exact ⟨(p.validateDefinition_ok_iff).1 hd, h1, h2, h3, h4, h5, h6⟩
  · intro h
    exact ⟨(), (p.validateDefinition_ok_iff).2 h.definition, ⟨h.realizedPnl, h.unrealizedPnl, h.fees, h.funding⟩,
      (p.validateOpen_ok_iff).2 ⟨h.flat, h.nonflat⟩⟩

/-- Accounting position state; unlike an observed snapshot it may be unmarked. -/
@[ext] structure PortfolioPositionState extends PortfolioPositionFields where
  valid : toPortfolioPositionFields.validate = .ok ()

namespace PortfolioPositionState

def key (p : PortfolioPositionState) : PositionKey := positionKey p.strategyId p.instrument.canonical

def of (p : PortfolioPositionFields) : Except Failure PortfolioPositionState :=
  validated p.validate fun h => ⟨p, h⟩

theorem facts (p : PortfolioPositionState) : p.toPortfolioPositionFields.Valid :=
  (PortfolioPositionFields.validate_ok_iff _).1 p.valid

theorem of_valid {p : PortfolioPositionFields} (h : p.Valid) : ∃ r, of p = .ok r :=
  ⟨_, validated_of _ ((PortfolioPositionFields.validate_ok_iff _).2 h)⟩

theorem of_ok_iff {p : PortfolioPositionFields} {r : PortfolioPositionState} :
    of p = .ok r ↔ r.toPortfolioPositionFields = p := by
  unfold of
  rw [validated_ok_iff]
  constructor
  · rintro ⟨h, rfl⟩
    rfl
  · rintro rfl
    exact ⟨r.valid, rfl⟩

end PortfolioPositionState

@[ext] structure PortfolioWorkingFields where
  accountId : String
  reportingCurrency : Currency
  balances : List AccountBalanceSnapshot
  positions : List PortfolioPositionState
  observedAt : DateTime
  schemaVersion : String

/-- `PortfolioWorkingSnapshot._ordered_state` -/
def PortfolioWorkingFields.validate (w : PortfolioWorkingFields) : Except Failure Unit := do
  requireSorted (w.balances.map fun b => b.currency.code) "balances must be sorted and unique"
  require (∀ b ∈ w.balances, b.accountId = w.accountId)
    (.valueError "balance account must match portfolio account")
  requireSorted (w.positions.map PortfolioPositionState.key) "positions must be sorted and unique"
  require (∀ p ∈ w.positions, p.accountId = w.accountId)
    (.valueError "position account must match portfolio account")

structure PortfolioWorkingFields.Valid (w : PortfolioWorkingFields) : Prop where
  balances : (w.balances.map fun b => b.currency.code).Pairwise (· < ·)
  balanceAccount : ∀ b ∈ w.balances, b.accountId = w.accountId
  positions : (w.positions.map PortfolioPositionState.key).Pairwise (· < ·)
  positionAccount : ∀ p ∈ w.positions, p.accountId = w.accountId

theorem PortfolioWorkingFields.validate_ok_iff (w : PortfolioWorkingFields) : w.validate = .ok () ↔ w.Valid := by
  unfold validate requireSorted
  simp only [bind_ok_iff, exists_const, require_ok_iff]
  constructor
  · rintro ⟨h1, h2, h3, h4⟩
    exact ⟨h1, h2, h3, h4⟩
  · intro h
    exact ⟨h.balances, h.balanceAccount, h.positions, h.positionAccount⟩

variable {w : PortfolioWorkingFields}

theorem PortfolioWorkingFields.Valid.nodup_currencies (h : w.Valid) : (w.balances.map (·.currency)).Nodup := by
  have hn : (w.balances.map (·.currency.code)).Nodup := h.balances.imp ne_of_lt
  have he : (w.balances.map (·.currency.code)) =
      (w.balances.map (·.currency)).map Currency.code := by simp
  rw [he] at hn
  exact List.Nodup.of_map _ hn

theorem PortfolioWorkingFields.Valid.nodup_keys (h : w.Valid) : (w.positions.map PortfolioPositionState.key).Nodup :=
  h.positions.imp ne_of_lt

@[ext] structure PortfolioWorkingSnapshot extends PortfolioWorkingFields where
  valid : toPortfolioWorkingFields.validate = .ok ()

namespace PortfolioWorkingSnapshot

def of (w : PortfolioWorkingFields) : Except Failure PortfolioWorkingSnapshot :=
  validated w.validate fun h => ⟨w, h⟩

theorem facts (w : PortfolioWorkingSnapshot) : w.toPortfolioWorkingFields.Valid :=
  (PortfolioWorkingFields.validate_ok_iff _).1 w.valid

theorem of_valid {w : PortfolioWorkingFields} (h : w.Valid) : ∃ r, of w = .ok r :=
  ⟨_, validated_of _ ((PortfolioWorkingFields.validate_ok_iff _).2 h)⟩

theorem of_ok_iff {r : PortfolioWorkingSnapshot} : of w = .ok r ↔ r.toPortfolioWorkingFields = w := by
  unfold of
  rw [validated_ok_iff]
  constructor
  · rintro ⟨h, rfl⟩
    rfl
  · rintro rfl
    exact ⟨r.valid, rfl⟩

end PortfolioWorkingSnapshot

@[ext] structure PortfolioExecutionFields where
  executionId : Uuid
  accountId : String
  strategyId : String
  fill : FillEvent
  entry : PortfolioFillEntry
  sourceEvent : PortfolioEvent
  logicalSequence : ℕ
  cashDeltas : List Money
  balanceRealizedPnlDeltas : List Money
  balanceFeeDeltas : List Money
  positionKey : PositionKey
  quantityBefore : Quantity
  quantityDelta : Quantity
  realizedPnlDelta : Money
  feesDelta : Money
  averageBefore : Option Price
  averageAfter : Option Price

def validateDeltas (name : String) (deltas : List Money) : Except Failure Unit :=
  requireSorted (deltas.map fun m => m.currency.code) (name ++ " must be sorted and unique")

def PortfolioExecutionFields.validate (e : PortfolioExecutionFields) : Except Failure Unit := do
  require (e.executionId = e.fill.executionId) (.valueError "effect execution ID must match fill")
  require (e.entry.fill = e.fill) (.valueError "effect entry must match fill")
  require (e.sourceEvent.payload = .fill e.entry)
    (.valueError "effect source event must contain its entry")
  require (e.entry.accountId = e.accountId ∧ e.entry.strategyId = e.strategyId)
    (.valueError "effect entry scope must match")
  require (e.strategyId = (ofLex e.positionKey).1)
    (.valueError "effect position key strategy does not match")
  validateDeltas "cash deltas" e.cashDeltas
  validateDeltas "balance realized PnL deltas" e.balanceRealizedPnlDeltas
  validateDeltas "balance fee deltas" e.balanceFeeDeltas
  require (e.realizedPnlDelta.currency = e.fill.instrumentDefinition.settlementCurrency ∧
    e.feesDelta.currency = e.fill.instrumentDefinition.settlementCurrency)
    (.valueError "position deltas must use settlement currency")

structure PortfolioExecutionFields.Valid (e : PortfolioExecutionFields) : Prop where
  executionId : e.executionId = e.fill.executionId
  entryFill : e.entry.fill = e.fill
  sourceEvent : e.sourceEvent.payload = .fill e.entry
  accountId : e.entry.accountId = e.accountId
  strategyId : e.entry.strategyId = e.strategyId
  keyStrategy : e.strategyId = (ofLex e.positionKey).1
  cashDeltas : (e.cashDeltas.map fun m => m.currency.code).Pairwise (· < ·)
  balanceRealizedPnlDeltas : (e.balanceRealizedPnlDeltas.map fun m => m.currency.code).Pairwise (· < ·)
  balanceFeeDeltas : (e.balanceFeeDeltas.map fun m => m.currency.code).Pairwise (· < ·)
  realizedPnlDelta : e.realizedPnlDelta.currency = e.fill.instrumentDefinition.settlementCurrency
  feesDelta : e.feesDelta.currency = e.fill.instrumentDefinition.settlementCurrency

theorem PortfolioExecutionFields.validate_ok_iff (e : PortfolioExecutionFields) : e.validate = .ok () ↔ e.Valid := by
  unfold validate validateDeltas requireSorted
  simp only [bind_ok_iff, exists_const, require_ok_iff]
  constructor
  · rintro ⟨h1, h2, h3, ⟨h4, h5⟩, h6, h7, h8, h9, h10, h11⟩
    exact ⟨h1, h2, h3, h4, h5, h6, h7, h8, h9, h10, h11⟩
  · intro h
    exact ⟨h.executionId, h.entryFill, h.sourceEvent, ⟨h.accountId, h.strategyId⟩, h.keyStrategy,
      h.cashDeltas, h.balanceRealizedPnlDeltas, h.balanceFeeDeltas, h.realizedPnlDelta, h.feesDelta⟩

/-- Exact normal-execution deltas retained for one correction or bust. -/
@[ext] structure PortfolioExecutionEffect extends PortfolioExecutionFields where
  valid : toPortfolioExecutionFields.validate = .ok ()

namespace PortfolioExecutionEffect

def of (e : PortfolioExecutionFields) : Except Failure PortfolioExecutionEffect :=
  validated e.validate fun h => ⟨e, h⟩

theorem facts (e : PortfolioExecutionEffect) : e.toPortfolioExecutionFields.Valid :=
  (PortfolioExecutionFields.validate_ok_iff _).1 e.valid

theorem of_valid {e : PortfolioExecutionFields} (h : e.Valid) : ∃ r, of e = .ok r :=
  ⟨_, validated_of _ ((PortfolioExecutionFields.validate_ok_iff _).2 h)⟩

theorem of_ok_iff {e : PortfolioExecutionFields} {r : PortfolioExecutionEffect} :
    of e = .ok r ↔ r.toPortfolioExecutionFields = e := by
  unfold of
  rw [validated_ok_iff]
  constructor
  · rintro ⟨h, rfl⟩
    rfl
  · rintro rfl
    exact ⟨r.valid, rfl⟩

end PortfolioExecutionEffect

@[ext] structure PortfolioReplayFields where
  snapshot : PortfolioWorkingSnapshot
  cursor : List PortfolioStreamCursor
  appliedEvents : List PortfolioAppliedEvent
  valuationRates : List PortfolioValuationRateState
  activeEffects : List PortfolioExecutionEffect
  executionIdentities : List PortfolioBusinessIdentity
  fundingIdentities : List PortfolioBusinessIdentity
  reconciliationIdentities : List PortfolioBusinessIdentity
  reconciliation : Option PortfolioReconciliationEntry

def rateKey (source target : Currency) : String ×ₗ String := toLex (source.code, target.code)

/-- `PortfolioReplayState._ordered_state` -/
def PortfolioReplayFields.validate (s : PortfolioReplayFields) : Except Failure Unit := do
  requireSorted (s.cursor.map PortfolioStreamCursor.streamId) "cursor must be sorted and unique"
  requireSorted (s.appliedEvents.map PortfolioAppliedEvent.eventId)
    "applied events must be sorted and unique"
  requireSorted (s.valuationRates.map fun r => rateKey r.sourceCurrency r.targetCurrency)
    "valuation rates must be sorted and unique"
  requireSorted (s.activeEffects.map fun e => e.executionId) "active effects must be sorted and unique"
  requireSorted (s.executionIdentities.map PortfolioBusinessIdentity.identityId)
    "execution identities must be sorted and unique"
  requireSorted (s.fundingIdentities.map PortfolioBusinessIdentity.identityId)
    "funding identities must be sorted and unique"
  requireSorted (s.reconciliationIdentities.map PortfolioBusinessIdentity.identityId)
    "reconciliation identities must be sorted and unique"

structure PortfolioReplayFields.Valid (s : PortfolioReplayFields) : Prop where
  cursor : (s.cursor.map PortfolioStreamCursor.streamId).Pairwise (· < ·)
  appliedEvents : (s.appliedEvents.map PortfolioAppliedEvent.eventId).Pairwise (· < ·)
  valuationRates :
    (s.valuationRates.map fun r => rateKey r.sourceCurrency r.targetCurrency).Pairwise (· < ·)
  activeEffects : (s.activeEffects.map fun e => e.executionId).Pairwise (· < ·)
  executionIdentities : (s.executionIdentities.map PortfolioBusinessIdentity.identityId).Pairwise (· < ·)
  fundingIdentities : (s.fundingIdentities.map PortfolioBusinessIdentity.identityId).Pairwise (· < ·)
  reconciliationIdentities :
    (s.reconciliationIdentities.map PortfolioBusinessIdentity.identityId).Pairwise (· < ·)

theorem PortfolioReplayFields.validate_ok_iff (s : PortfolioReplayFields) : s.validate = .ok () ↔ s.Valid := by
  unfold validate requireSorted
  simp only [bind_ok_iff, exists_const, require_ok_iff]
  constructor
  · rintro ⟨h1, h2, h3, h4, h5, h6, h7⟩
    exact ⟨h1, h2, h3, h4, h5, h6, h7⟩
  · intro h
    exact ⟨h.cursor, h.appliedEvents, h.valuationRates, h.activeEffects, h.executionIdentities,
      h.fundingIdentities, h.reconciliationIdentities⟩

variable {s : PortfolioReplayFields}

theorem PortfolioReplayFields.Valid.nodup_executionIds (h : s.Valid) : (s.activeEffects.map (·.executionId)).Nodup :=
  h.activeEffects.imp ne_of_lt

/-- A valid replay state. -/
@[ext] structure PortfolioReplayState extends PortfolioReplayFields where
  valid : toPortfolioReplayFields.validate = .ok ()

namespace PortfolioReplayState

def of (s : PortfolioReplayFields) : Except Failure PortfolioReplayState :=
  validated s.validate fun h => ⟨s, h⟩

theorem facts (s : PortfolioReplayState) : s.toPortfolioReplayFields.Valid :=
  (PortfolioReplayFields.validate_ok_iff _).1 s.valid

theorem of_valid {s : PortfolioReplayFields} (h : s.Valid) : ∃ r, of s = .ok r :=
  ⟨_, validated_of _ ((PortfolioReplayFields.validate_ok_iff _).2 h)⟩

theorem of_ok_iff {r : PortfolioReplayState} : of s = .ok r ↔ r.toPortfolioReplayFields = s := by
  unfold of
  rw [validated_ok_iff]
  constructor
  · rintro ⟨h, rfl⟩
    rfl
  · rintro rfl
    exact ⟨r.valid, rfl⟩

def activeExecutionIds (s : PortfolioReplayState) : List Uuid := s.activeEffects.map fun e => e.executionId

end PortfolioReplayState

end TradingAgent
