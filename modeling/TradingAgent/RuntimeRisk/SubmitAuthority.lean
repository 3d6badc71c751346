import TradingAgent.RuntimeRisk.Approval
import TradingAgent.RuntimeRisk.Halt

/-!
# Submit permits

A permit is prepared under one halt generation and consumed once within five seconds. A consumption that
conflicts with other permits of the same generation is tried once more against the new head.
-/

namespace TradingAgent.RuntimeRisk

open Outcome Interaction EventLedger

/-- `_PREPARATION_FAILURE` -/
def preparationMessage : String := "submit permit preparation failed"

/-- `_CONSUMPTION_FAILURE` -/
def consumptionMessage : String := "submit permit consumption failed"

def preparationFailure : AuthorityFailure := .preparationError preparationMessage []

def consumptionFailure : AuthorityFailure := .consumptionError consumptionMessage []

structure PrepareRequest where
  haltStreamId : Uuid
  approvalReference : DurableOrderApprovalRef
  intent : OrderIntent
  policyDecision : RiskDecision
  approvalObservation : RuntimeRiskObservation
  approvalPolicy : RuntimeRiskPolicy
  currentObservation : RuntimeRiskObservation
  currentPolicy : RuntimeRiskPolicy
  currentSafety : GlobalSafetyObservation
  safetyVerifier : GlobalSafetyAuthorityVerifier
  (permitId eventId : Uuid)
  preparedAt : DateTime

/-- The arguments of a consumption. -/
structure ConsumeRequest where
  permit : PreparedSubmitPermit
  intent : OrderIntent
  policyDecision : RiskDecision
  currentObservation : RuntimeRiskObservation
  currentPolicy : RuntimeRiskPolicy
  currentSafety : GlobalSafetyObservation
  safetyVerifier : GlobalSafetyAuthorityVerifier
  consumedEventId : Uuid
  consumedAt : DateTime

variable (codec : AuthorityCodec)

/-- `_require_fresh_admissibility`; the error carries the reasons of the new decision. -/
def requireFreshAdmissibility (failure : List RuntimeRiskReasonCode → AuthorityFailure) (operationId : Uuid)
    (intent : OrderIntent) (policyDecision : RiskDecision) (observation : RuntimeRiskObservation)
    (policy : RuntimeRiskPolicy) (operationAt : DateTime) : Except AuthorityFailure Unit :=
  match evaluateRuntimeOrderRisk intent policyDecision observation policy operationAt codec.models
      operationId with
  | .error _ => .error (failure [])
  | .ok fresh =>
    require (fresh.outcome = .approved ∧ fresh.reasonCodes = [.withinLimits]) (failure fresh.reasonCodes)

def canonicalPreparedEvent (event : LedgerEvent) :
    Except AuthorityFailure (LedgerEvent × String × SubmitPermitPrepared) := do
  let (canonical, text) ← canonicalEnvelope codec event
  match canonical.payload with
  | .prepared payload =>
    require (canonical.streamId = payload.haltStreamId ∧
        ValidCommonEvent canonical preparedEventSchema payload.preparedAt payload.permitId
          payload.approvalEventId payload.permitId payload.expiresAt)
      (.valueError "prepared event authority bindings are invalid")
    return (canonical, text, payload)
  | _ => throw (.valueError "prepared event payload has the wrong concrete type")

def canonicalConsumedEvent (event : LedgerEvent) :
    Except AuthorityFailure (LedgerEvent × String × SubmitPermitConsumed) := do
  let (canonical, text) ← canonicalEnvelope codec event
  match canonical.payload with
  | .consumed payload =>
    require (canonical.streamId = payload.haltStreamId ∧
        ValidCommonEvent canonical consumedEventSchema payload.consumedAt payload.permitId
          payload.permitId payload.permitId (payload.consumedAt + eventLifetime))
      (.valueError "consumed event authority bindings are invalid")
    return (canonical, text, payload)
  | _ => throw (.valueError "consumed event payload has the wrong concrete type")

def requireExactCurrentBindings (request : PrepareRequest) (decision : RuntimeOrderRiskDecision) :
    Except AuthorityFailure Unit :=
  let digest := canonicalModelDigest codec.models
  let current := request.currentObservation
  require (digest (.observation request.approvalObservation) = decision.observationDigest ∧
      digest (.policy request.approvalPolicy) = decision.policyDigest ∧
      digest (.observation current) = digest (.observation request.approvalObservation) ∧
      digest (.policy request.currentPolicy) = digest (.policy request.approvalPolicy) ∧
      digest (.portfolio current.portfolio) = decision.portfolioDigest ∧
      current.observationId = decision.observationId ∧
      current.stateVersion = decision.observationVersion ∧
      current.portfolio.snapshotId = decision.portfolioSnapshotId ∧
      request.currentPolicy.policyId = decision.policyId ∧
      request.currentPolicy.policyVersion = decision.policyVersion)
    preparationFailure

def requireActiveExactAuthority (request : PrepareRequest) (state : Option GlobalHaltState) :
    Except AuthorityFailure Unit := do
  require (∃ active ∈ state, active.status = .active ∧ active.transitionedAt ≤ request.preparedAt ∧
      request.currentObservation.observedAt ≤ request.preparedAt ∧
      request.currentSafety.observedAt < request.preparedAt)
    preparationFailure
  let reasons ← rescue (evaluateGlobalBreaker request.currentObservation request.currentPolicy
    request.currentSafety) preparationFailure
  require (reasons = []) preparationFailure

def newPermit (request : PrepareRequest) (decision : RuntimeOrderRiskDecision) (state : GlobalHaltState) :
    SubmitPermitPrepared :=
  let digest := canonicalModelDigest codec.models
  { permitId := request.permitId
    approvalEventId := request.approvalReference.eventId
    approvalReferenceDigest := digest (.approval request.approvalReference)
    intentDigest := decision.intentDigest
    policyRiskDecisionDigest := decision.policyRiskDecisionDigest
    runtimeRiskDecisionDigest := digest (.decision decision)
    runtimePolicyDigest := digest (.policy request.currentPolicy)
    runtimeObservationDigest := digest (.observation request.currentObservation)
    portfolioDigest := digest (.portfolio request.currentObservation.portfolio)
    safetyBindingDigest := globalSafetyBindingDigest codec.models request.currentSafety
    haltStreamId := state.streamId
    haltGeneration := state.generation
    haltTransitionEventId := state.transitionEventId
    haltTransitionDigest := state.transitionDigest
    preparedAt := request.preparedAt
    expiresAt := request.preparedAt + permitLifetime
    generation_pos := state.valid.1
    lifetime := add_sub_cancel_left request.preparedAt permitLifetime }

def preparedPayload (request : PrepareRequest) (decision : RuntimeOrderRiskDecision)
    (haltState : Option GlobalHaltState) : Except AuthorityFailure SubmitPermitPrepared :=
  match haltState with
  | none => .error preparationFailure
  | some state => do
    let decisionAge := request.preparedAt - decision.decidedAt
    require (0 ≤ decisionAge ∧ decisionAge < eventLifetime) preparationFailure
    return newPermit codec request decision state

theorem expiresAt_eq (payload : SubmitPermitPrepared) : payload.expiresAt = payload.preparedAt + permitLifetime :=
  Int.sub_eq_iff_eq_add'.1 payload.lifetime

theorem preparedAt_lt_expiresAt (payload : SubmitPermitPrepared) : payload.preparedAt < payload.expiresAt := by
  rw [expiresAt_eq]
  exact Int.lt_add_of_pos_right _ (by decide)

/-- `_prepared_event`, at the sequence after `head`. -/
def preparedEvent (payload : SubmitPermitPrepared) (head : ℕ) (eventId : Uuid) : LedgerEvent :=
  authorityEvent eventId preparedEventSchema payload.haltStreamId (head + 1) payload.preparedAt
    payload.expiresAt payload.permitId payload.approvalEventId payload.permitId (.prepared payload)
    (Nat.succ_pos head) (preparedAt_lt_expiresAt payload)

def preparedOutbox (event : LedgerEvent) (payload : SubmitPermitPrepared) :
    Except AuthorityFailure OutboxIntent :=
  outboxOf codec event "runtime-risk.submit-permits-prepared" "permit_id" payload.permitId

def GlobalHaltReplay.references (replay : GlobalHaltReplay) (permitId : Uuid) : List PreparedSubmitPermit :=
  replay.prepared.values.filter fun reference => reference.permitId = permitId

def exactExistingPrepared (replay : GlobalHaltReplay) (payload : SubmitPermitPrepared) (eventId : Uuid) :
    Except AuthorityFailure (Option PreparedSubmitPermit) := do
  require (payload.permitId ∉ replay.consumedPermitIds ∧ payload.permitId ∉ replay.retiredPermitIds)
    preparationFailure
  match replay.references payload.permitId with
  | [] => return none
  | [existing] =>
    require (existing.preparedEventId = eventId ∧ existing.toSubmitPermitPrepared = payload)
      preparationFailure
    return some existing
  | _ => throw preparationFailure

/-- What `prepare_submit_permit` does with the replayed stream: return the permit or append it. -/
def planPreparation (request : PrepareRequest) (decision : RuntimeOrderRiskDecision)
    (replay : GlobalHaltReplay) :
    Except AuthorityFailure (PreparedSubmitPermit ⊕ LedgerEvent × OutboxIntent) := do
  requireActiveExactAuthority request replay.state
  requireFreshAdmissibility codec (.preparationError preparationMessage) request.permitId request.intent
    request.policyDecision request.currentObservation request.currentPolicy request.preparedAt
  let payload ← preparedPayload codec request decision replay.state
  match ← exactExistingPrepared replay payload request.eventId with
  | some existing => return .inl existing
  | none =>
    require (∀ headAt ∈ replay.headAuthorityAt, headAt ≤ request.preparedAt) preparationFailure
    let event := preparedEvent payload replay.headSequence request.eventId
    let outbox ← rescue (preparedOutbox codec event payload) preparationFailure
    return .inr (event, outbox)

/-- The reference to a prepared permit, as `_prepared_reference` builds it. -/
def preparedReference (payload : SubmitPermitPrepared) (eventId : Uuid) (text : String) :
    PreparedSubmitPermit :=
  { payload with preparedEventId := eventId, preparedEventDigest := digestOf codec text }

/-- `_append_and_read_back` of a preparation. -/
def appendPrepared (event : LedgerEvent) (outbox : OutboxIntent) : AuthorityM PreparedSubmitPermit := do
  appendEvent event outbox preparationFailure
  let events ← loadLedger preparationFailure
  step (rescue (do
    let stored ← onlyMatch events event.eventId
    let (expected, expectedText, _) ← canonicalPreparedEvent codec event
    let (loaded, actualText, payload) ← canonicalPreparedEvent codec stored
    requireReadBack codec (expected, expectedText) (loaded, actualText)
    return preparedReference codec payload loaded.eventId actualText) preparationFailure)

def prepareSubmitPermit (request : PrepareRequest) : AuthorityM PreparedSubmitPermit := do
  let safety ← step (rescue (verifyGlobalSafetyObservation request.safetyVerifier request.currentSafety)
    preparationFailure)
  let decision ← ExceptT.adapt (fun | .durableApprovalError _ => preparationFailure | e => e)
    (verifyDurableOrderApproval codec request.approvalReference request.intent request.policyDecision
      request.approvalObservation request.approvalPolicy)
  step (requireExactCurrentBindings codec request decision)
  let events ← loadLedger preparationFailure
  let replay ← step (rescue (replayGlobalHaltAuthority codec events request.haltStreamId)
    preparationFailure)
  match ← step (planPreparation codec { request with currentSafety := safety } decision replay) with
  | .inl existing => return existing
  | .inr (event, outbox) => appendPrepared codec event outbox

def requireExactPreparedAuthority (events : List LedgerEvent) (replay : GlobalHaltReplay)
    (permit : PreparedSubmitPermit) : Except AuthorityFailure Unit := do
  require (permit.permitId ∉ replay.consumedPermitIds) consumptionFailure
  require (replay.references permit.permitId = [permit]) consumptionFailure
  rescue (do
    let stored ← onlyMatch events permit.preparedEventId
    let (loaded, text, payload) ← canonicalPreparedEvent codec stored
    require (loaded.streamId = permit.haltStreamId ∧ digestOf codec text = permit.preparedEventDigest ∧
      permit.toSubmitPermitPrepared = payload)
      (.valueError "prepared event does not match its reference")) consumptionFailure

/-- The bindings that `_require_current_consumption_authority` checks before the breaker. -/
def ConsumptionBindings (request : ConsumeRequest) (replay : GlobalHaltReplay) : Prop :=
  let permit := request.permit
  let digest := canonicalModelDigest codec.models
  (digest (.intent request.intent) = permit.intentDigest ∧
      digest (.policyDecision request.policyDecision) = permit.policyRiskDecisionDigest) ∧
    (permit.preparedAt ≤ request.consumedAt ∧ request.consumedAt ≤ permit.expiresAt) ∧
    (permit.preparedAt ≤ request.currentSafety.observedAt ∧
      request.currentSafety.observedAt ≤ request.consumedAt) ∧
    (∀ headAt ∈ replay.headAuthorityAt, headAt ≤ request.consumedAt) ∧
    (∃ state ∈ replay.state, state.status = .active ∧ state.streamId = permit.haltStreamId ∧
      state.generation = permit.haltGeneration ∧
      state.transitionEventId = permit.haltTransitionEventId ∧
      state.transitionDigest = permit.haltTransitionDigest) ∧
    digest (.policy request.currentPolicy) = permit.runtimePolicyDigest ∧
    digest (.observation request.currentObservation) = permit.runtimeObservationDigest ∧
    digest (.portfolio request.currentObservation.portfolio) = permit.portfolioDigest ∧
    globalSafetyBindingDigest codec.models request.currentSafety = permit.safetyBindingDigest

instance (request : ConsumeRequest) (replay : GlobalHaltReplay) :
    Decidable (ConsumptionBindings codec request replay) :=
  inferInstanceAs (Decidable (_ ∧ _))

def requireCurrentConsumptionAuthority (request : ConsumeRequest) (replay : GlobalHaltReplay) :
    Except AuthorityFailure Unit := do
  require (ConsumptionBindings codec request replay) consumptionFailure
  let reasons ← rescue (evaluateGlobalBreaker request.currentObservation request.currentPolicy
    request.currentSafety) consumptionFailure
  require (reasons = []) consumptionFailure
  requireFreshAdmissibility codec (.consumptionError consumptionMessage) request.permit.permitId
    request.intent request.policyDecision request.currentObservation request.currentPolicy
    request.consumedAt

def consumedPayload (permit : PreparedSubmitPermit) (consumedAt : DateTime) : SubmitPermitConsumed where
  permitId := permit.permitId
  preparedEventDigest := permit.preparedEventDigest
  haltStreamId := permit.haltStreamId
  haltGeneration := permit.haltGeneration
  haltTransitionDigest := permit.haltTransitionDigest
  consumedAt := consumedAt
  generation_pos := permit.generation_pos

/-- `_consumed_event`, at the sequence after `head`. -/
def consumedEvent (payload : SubmitPermitConsumed) (head : ℕ) (eventId : Uuid) : LedgerEvent :=
  authorityEvent eventId consumedEventSchema payload.haltStreamId (head + 1) payload.consumedAt
    (payload.consumedAt + eventLifetime) payload.permitId payload.permitId payload.permitId
    (.consumed payload) (Nat.succ_pos head) (lt_add_eventLifetime _)

def consumedOutbox (event : LedgerEvent) (payload : SubmitPermitConsumed) :
    Except AuthorityFailure OutboxIntent :=
  outboxOf codec event "runtime-risk.submit-permits-consumed" "permit_id" payload.permitId

/-- The authority of a consumed permit, as `_consumed_reference` builds it. -/
def consumedReference (payload : SubmitPermitConsumed) (eventId : Uuid) (text : String) :
    ConsumedSubmitAuthority :=
  { payload with consumedEventId := eventId, consumedEventDigest := digestOf codec text }

/-- The read-back of `_append_consumption_against`. -/
def readBackConsumption (event : LedgerEvent) (payload : SubmitPermitConsumed) (events : List LedgerEvent) :
    Except AuthorityFailure ConsumedSubmitAuthority := do
  let stored ← onlyMatch events event.eventId
  let (expected, expectedText, _) ← canonicalConsumedEvent codec event
  let (loaded, actualText, loadedPayload) ← canonicalConsumedEvent codec stored
  requireReadBack codec (expected, expectedText) (loaded, actualText)
  let readBack ← replayGlobalHaltAuthority codec events payload.haltStreamId
  require (payload.permitId ∈ readBack.consumedPermitIds ∧ readBack.references payload.permitId = [])
    (.valueError "consumed event was not durably replayed")
  return consumedReference codec loadedPayload loaded.eventId actualText

/-- `_append_consumption_against`; only a new insertion counts. -/
def appendConsumptionAgainst (replay : GlobalHaltReplay) (payload : SubmitPermitConsumed)
    (consumedEventId : Uuid) : AuthorityM ConsumedSubmitAuthority := do
  let event := consumedEvent payload replay.headSequence consumedEventId
  let outbox ← step (rescue (consumedOutbox codec event payload) consumptionFailure)
  match ← ExceptT.lift (Prog.request (R := RepositoryReply) (.append event outbox)) with
  | .error e => step (.error (if IsConflict e then .conflict e else consumptionFailure))
  | .ok outcome =>
    step (require (outcome.eventId = event.eventId ∧ outcome.inserted = true) consumptionFailure)
    let events ← loadLedger consumptionFailure
    step (rescue (readBackConsumption codec event payload events) consumptionFailure)

def eventTextById (events : List LedgerEvent) : Except AuthorityFailure (Dict Uuid String) :=
  events.foldlM (fun result supplied => do
    let (canonical, text) ← canonicalEnvelope codec supplied
    require (canonical.eventId ∉ result.keys) (.valueError "event identity is duplicated")
    return result.set canonical.eventId text) []

def permitIdOf : LedgerPayload → Option Uuid
  | .prepared payload => some payload.permitId
  | .consumed payload => some payload.permitId
  | _ => none

/-- The body of `_only_unrelated_permit_events_advanced`. -/
def unrelatedPermitEvents (beforeEvents : List LedgerEvent) (before : GlobalHaltReplay)
    (afterEvents : List LedgerEvent) (after : GlobalHaltReplay) (permit : PreparedSubmitPermit) :
    Except AuthorityFailure Bool := do
  if before.state ≠ after.state ∨ after.headSequence ≤ before.headSequence then return false
  let beforeById ← eventTextById codec beforeEvents
  let afterById ← eventTextById codec afterEvents
  if ∃ entry ∈ beforeById, afterById.get? entry.1 ≠ some entry.2 then return false
  let addedIds := afterById.keys.filter fun id => id ∉ beforeById.keys
  let canonical ← afterEvents.mapM (canonicalEnvelope codec)
  let suffix := (canonical.map Prod.fst).filter fun event =>
    event.streamId = permit.haltStreamId ∧ before.headSequence < event.sequence
  let suffixIds := suffix.map fun event => event.eventId
  return decide (suffix ≠ [] ∧ (addedIds ⊆ suffixIds ∧ suffixIds ⊆ addedIds) ∧
    suffix.map (fun event => event.sequence) =
      List.range' (before.headSequence + 1) (after.headSequence - before.headSequence) ∧
    (∀ event ∈ suffix, ∃ id ∈ permitIdOf event.payload, id ≠ permit.permitId) ∧
    after.references permit.permitId = [permit])

def onlyUnrelatedPermitEventsAdvanced (beforeEvents : List LedgerEvent) (before : GlobalHaltReplay)
    (afterEvents : List LedgerEvent) (after : GlobalHaltReplay) (permit : PreparedSubmitPermit) : Bool :=
  match unrelatedPermitEvents codec beforeEvents before afterEvents after permit with
  | .ok unrelated => unrelated
  | .error _ => false

def loadConsumptionHistory (streamId : Uuid) : AuthorityM (List LedgerEvent × GlobalHaltReplay) := do
  let events ← loadLedger consumptionFailure
  let replay ← step (rescue (replayGlobalHaltAuthority codec events streamId) consumptionFailure)
  return (events, replay)

/-- The second attempt of `consume_submit_permit`, after a conflict. -/
def retryConsumption (request : ConsumeRequest) (events : List LedgerEvent) (replay : GlobalHaltReplay) :
    AuthorityM ConsumedSubmitAuthority := do
  let permit := request.permit
  let (refreshedEvents, refreshed) ← loadConsumptionHistory codec permit.haltStreamId
  step (require (permit.permitId ∉ refreshed.consumedPermitIds ∧
      onlyUnrelatedPermitEventsAdvanced codec events replay refreshedEvents refreshed permit = true)
    (.consumptionError "submit permit authority changed" []))
  step (requireCurrentConsumptionAuthority codec request refreshed)
  ExceptT.adapt (fun | .conflict _ => consumptionFailure | e => e)
    (appendConsumptionAgainst codec refreshed (consumedPayload permit request.consumedAt)
      request.consumedEventId)

def consumeSubmitPermit (request : ConsumeRequest) : AuthorityM ConsumedSubmitAuthority := do
  let permit := request.permit
  let safety ← step (rescue (verifyGlobalSafetyObservation request.safetyVerifier request.currentSafety)
    consumptionFailure)
  let request := { request with currentSafety := safety }
  let (events, replay) ← loadConsumptionHistory codec permit.haltStreamId
  step (requireExactPreparedAuthority codec events replay permit)
  step (requireCurrentConsumptionAuthority codec request replay)
  match ← ExceptT.lift (appendConsumptionAgainst codec replay
      (consumedPayload permit request.consumedAt) request.consumedEventId).run with
  | .ok authority => return authority
  | .error (.conflict _) => retryConsumption codec request events replay
  | .error e => throw e

end TradingAgent.RuntimeRisk
