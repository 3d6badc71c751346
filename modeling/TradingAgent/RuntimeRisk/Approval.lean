import TradingAgent.RuntimeRisk.Authority

/-! Recording a decision and verifying a durable approval. -/

namespace TradingAgent.RuntimeRisk

open Outcome Interaction EventLedger

def decisionRecordingFailure : AuthorityFailure :=
  .durableApprovalError "durable runtime-risk decision recording failed"

def verificationFailure : AuthorityFailure :=
  .durableApprovalError "durable runtime-risk approval verification failed"

def DecisionBindings (event : LedgerEvent) (payload : RuntimeOrderRiskDecision) : Prop :=
  event.schemaVersion = "runtime-order-risk-event-v1" ∧ event.source = eventSource ∧
    event.correlationId = payload.intentId ∧ event.causationId = payload.riskDecisionId ∧
    event.observedAt = payload.decidedAt ∧ event.ingestedAt = payload.decidedAt ∧
    event.producedAt = payload.decidedAt ∧ event.effectiveAt = payload.decidedAt ∧
    event.expiresAt - payload.decidedAt = eventLifetime

instance (event : LedgerEvent) (payload : RuntimeOrderRiskDecision) :
    Decidable (DecisionBindings event payload) :=
  inferInstanceAs (Decidable (_ ∧ _))

/-- `type(payload) is RuntimeOrderRiskDecision` -/
def decisionOf (event : LedgerEvent) : Except AuthorityFailure RuntimeOrderRiskDecision :=
  match event.payload with
  | .decision payload => .ok payload
  | _ => .error (.valueError "event payload has the wrong concrete type")

variable (codec : AuthorityCodec)

def canonicalRuntimeEvent (event : LedgerEvent) : Except AuthorityFailure (LedgerEvent × String) := do
  let (canonical, text) ← canonicalEnvelope codec event
  let payload ← decisionOf canonical
  require (DecisionBindings canonical payload) (.valueError "event authority bindings are invalid")
  return (canonical, text)

def canonicalOutbox (event : LedgerEvent) : Except AuthorityFailure OutboxIntent := do
  let payload ← decisionOf event
  outboxOf codec event "runtime-risk.decisions" "decision_id" payload.decisionId

def loadOneEvent (eventId : Uuid) (failure : AuthorityFailure) : AuthorityM LedgerEvent := do
  let events ← loadLedger failure
  step (rescue (onlyMatch events eventId) failure)

def approvalReference (event : LedgerEvent) (text : String) (decision : RuntimeOrderRiskDecision) :
    DurableOrderApprovalRef where
  decisionOutcome := .approved
  eventId := event.eventId
  streamId := event.streamId
  sequence := event.sequence
  eventDigest := digestOf codec text
  decisionId := decision.decisionId
  decisionDigest := canonicalModelDigest codec.models (.decision decision)
  intentId := decision.intentId
  intentDigest := decision.intentDigest
  riskDecisionId := decision.riskDecisionId
  policyRiskDecisionDigest := decision.policyRiskDecisionDigest
  portfolioSnapshotId := decision.portfolioSnapshotId
  portfolioDigest := decision.portfolioDigest
  observationId := decision.observationId
  observationVersion := decision.observationVersion
  observationDigest := decision.observationDigest
  policyId := decision.policyId
  policyVersion := decision.policyVersion
  policyDigest := decision.policyDigest
  outcome_approved := rfl
  sequence_nonneg := Int.natCast_nonneg _
  version_nonneg := decision.valid.1

def recordRuntimeRiskDecision (event : LedgerEvent) : AuthorityM (Option DurableOrderApprovalRef) := do
  let expected ← step (rescue (canonicalRuntimeEvent codec event) decisionRecordingFailure)
  let outbox ← step (canonicalOutbox codec expected.1)
  appendEvent expected.1 outbox decisionRecordingFailure
  let loaded ← loadOneEvent expected.1.eventId decisionRecordingFailure
  let actual ← step (rescue (canonicalRuntimeEvent codec loaded) decisionRecordingFailure)
  step (rescue (requireReadBack codec expected actual) decisionRecordingFailure)
  let decision ← step (decisionOf actual.1)
  match decision.outcome with
  | .rejected => return none
  | .approved => return some (approvalReference codec actual.1 actual.2 decision)

/-- `verify_durable_order_approval` after the event was loaded. -/
def verifyLoadedApproval (reference : DurableOrderApprovalRef) (intent : OrderIntent)
    (policyDecision : RiskDecision) (observation : RuntimeRiskObservation) (policy : RuntimeRiskPolicy)
    (loaded : LedgerEvent) : Except AuthorityFailure RuntimeOrderRiskDecision := do
  let (event, text) ← rescue (canonicalRuntimeEvent codec loaded) verificationFailure
  let decision ← rescue (decisionOf event) verificationFailure
  require (decision.outcome = .approved) verificationFailure
  match evaluateRuntimeOrderRisk intent policyDecision observation policy decision.decidedAt codec.models
      decision.decisionId with
  | .error _ => throw verificationFailure
  | .ok expected =>
    require (expected.outcome = .approved ∧ codec.models.canonicalModelJson (.decision expected) =
          codec.models.canonicalModelJson (.decision decision) ∧
        canonicalModelDigest codec.models (.intent intent) = decision.intentDigest ∧
        canonicalModelDigest codec.models (.policyDecision policyDecision) =
          decision.policyRiskDecisionDigest ∧
        canonicalModelDigest codec.models (.portfolio observation.portfolio) = decision.portfolioDigest ∧
        canonicalModelDigest codec.models (.observation observation) = decision.observationDigest ∧
        canonicalModelDigest codec.models (.policy policy) = decision.policyDigest ∧
        -- `_reference_matches`, field by field
        reference = approvalReference codec event text decision)
      verificationFailure
    return expected

def verifyDurableOrderApproval (reference : DurableOrderApprovalRef) (intent : OrderIntent)
    (policyDecision : RiskDecision) (observation : RuntimeRiskObservation) (policy : RuntimeRiskPolicy) :
    AuthorityM RuntimeOrderRiskDecision := do
  let loaded ← loadOneEvent reference.eventId verificationFailure
  step (verifyLoadedApproval codec reference intent policyDecision observation policy loaded)

end TradingAgent.RuntimeRisk
