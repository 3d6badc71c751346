import TradingAgent.Domain.PortfolioEvents
import TradingAgent.Domain.RuntimeHalt

/-! Events of the ledger with their payloads (`domain/events.py`). -/

namespace TradingAgent

@[ext] structure EventHeader where
  eventId : Uuid
  schemaVersion : String
  source : String
  streamId : Uuid
  sequence : ℕ
  observedAt : DateTime
  ingestedAt : DateTime
  producedAt : DateTime
  effectiveAt : DateTime
  expiresAt : DateTime
  correlationId : Uuid
  causationId : Uuid
  traceId : Uuid
  deriving DecidableEq

/-- `EventEnvelope._valid_timeline` and the bound on `sequence`. -/
def EventHeader.Valid (h : EventHeader) : Prop :=
  0 < h.sequence ∧ h.observedAt ≤ h.ingestedAt ∧ h.ingestedAt ≤ h.producedAt ∧ h.effectiveAt < h.expiresAt

@[ext] structure EventEnvelope (P : Type) extends EventHeader where
  payload : P
  valid : toEventHeader.Valid
  deriving DecidableEq

def EventEnvelope.withPayload {P Q : Type} (e : EventEnvelope P) (q : Q) : EventEnvelope Q :=
  { e with payload := q }

variable {P Q : Type}

/-- `EventEnvelope` with a payload that the portfolio reads. -/
abbrev PortfolioEvent := EventEnvelope PortfolioPayload

inductive UnreadPayload
  | alphaRegistryTransitionRecordedV1
  | signalProposal
  | targetPortfolio
  | riskDecision
  | orderIntent
  | orderEvent
  | sandboxRecoveryCheckpointRecorded
  deriving DecidableEq

def UnreadPayload.eventType : UnreadPayload → String
  | alphaRegistryTransitionRecordedV1 => "AlphaRegistryTransitionRecordedV1"
  | signalProposal => "SignalProposal"
  | targetPortfolio => "TargetPortfolio"
  | riskDecision => "RiskDecision"
  | orderIntent => "OrderIntent"
  | orderEvent => "OrderEvent"
  | sandboxRecoveryCheckpointRecorded => "SandboxRecoveryCheckpointRecorded"

inductive LedgerPayload
  | portfolio (payload : PortfolioPayload)
  | fill (payload : FillEvent)
  | decision (payload : RuntimeOrderRiskDecision)
  | transition (payload : GlobalHaltTransition)
  | prepared (payload : SubmitPermitPrepared)
  | consumed (payload : SubmitPermitConsumed)
  | unread (kind : UnreadPayload) (content : String)
  deriving DecidableEq

def LedgerPayload.eventType : LedgerPayload → String
  | portfolio payload => payload.eventType
  | fill _ => "FillEvent"
  | decision _ => "RuntimeOrderRiskDecision"
  | transition _ => "GlobalHaltTransition"
  | prepared _ => "SubmitPermitPrepared"
  | consumed _ => "SubmitPermitConsumed"
  | unread kind _ => kind.eventType

abbrev LedgerEvent := EventEnvelope LedgerPayload

def PortfolioEvent.toLedger (e : PortfolioEvent) : LedgerEvent := e.withPayload (.portfolio e.payload)

end TradingAgent
