import TradingAgent.Domain.OrderLifecycle
import TradingAgent.RuntimeRisk.SubmitAuthority

/-!
# Contracts of the execution sandbox

Scripted scenarios, the snapshot of a client and its requests. A report is an event envelope around an observation; its
canonical text is that of the ledger event with the same payload.
-/

namespace TradingAgent.ExecutionSandbox

open Outcome EventLedger RuntimeRisk

structure SandboxCodec extends AuthorityCodec where
  /-- `_event_fingerprint` -/
  fingerprint : OrderEventMaterial → Sha256
  orderEventJson : OrderEvent → String
  parseOrderEvent : String → Option OrderEvent

inductive SandboxFailure
  /-- `SandboxExecutionError` -/
  | executionError (message : String)
  /-- `SandboxLostResponse`: the command was applied. -/
  | lostResponse (message : String)
  /-- `SandboxReconciliationError` -/
  | reconciliationError (message : String)
  /-- The error of a model's validator. -/
  | validationError (message : String)
  /-- An error of the authority that the client does not translate. -/
  | authority (cause : AuthorityFailure)
  deriving DecidableEq

inductive ReportPayload
  | order (payload : OrderEvent)
  | fill (payload : FillEvent)
  deriving DecidableEq

def ReportPayload.orderId : ReportPayload → Uuid
  | order payload => payload.orderId
  | fill payload => payload.orderId

def ReportPayload.order? : ReportPayload → Option OrderEvent
  | order payload => some payload
  | fill _ => none

def ReportPayload.fill? : ReportPayload → Option FillEvent
  | order _ => none
  | fill payload => some payload

abbrev ReportEvent := EventEnvelope ReportPayload

variable (codec : SandboxCodec)

def ReportPayload.toLedger : ReportPayload → LedgerPayload
  | order payload => .unread .orderEvent (codec.orderEventJson payload)
  | fill payload => .fill payload

def ReportPayload.ofLedger : LedgerPayload → Option ReportPayload
  | .unread .orderEvent content => (codec.parseOrderEvent content).map .order
  | .fill payload => some (.fill payload)
  | _ => none

def toLedger (event : ReportEvent) : LedgerEvent := event.withPayload (event.payload.toLedger codec)

def serializeReport (event : ReportEvent) : Option String :=
  serializeEvent codec.ledger.toLedgerCodec (toLedger codec event)

def deserializeReport (text : String) : Option ReportEvent :=
  ((deserializeEvent codec.ledger.toLedgerCodec text).bind fun event =>
    (ReportPayload.ofLedger codec event.payload).map event.withPayload).filter fun event =>
      serializeReport codec event = some text

structure SandboxCodec.RoundTrips (codec : SandboxCodec) : Prop where
  ledger : codec.ledger.RoundTrips
  orderEvent : ∀ (event : ReportEvent) (payload : OrderEvent), (serializeReport codec event).isSome →
    event.payload = .order payload → codec.parseOrderEvent (codec.orderEventJson payload) = some payload

inductive SandboxCommandKind
  | submit
  | modify
  | cancel
  | disconnect
  | reconnect
  deriving DecidableEq

inductive SandboxResponseDisposition
  | acknowledged
  | lostResponse

inductive ReportSource
  | original (event : ReportEvent)
  | duplicateOf (reportId : Uuid)

@[ext] structure SandboxReportPlan where
  reportId : Uuid
  deliverAt : DateTime
  source : ReportSource

@[ext] structure SandboxCommandPlan where
  commandId : Uuid
  kind : SandboxCommandKind
  responseDisposition : SandboxResponseDisposition
  orderId : Uuid
  reportIds : List Uuid

def SandboxCommandKind.IsConnection (kind : SandboxCommandKind) : Prop := kind = .disconnect ∨ kind = .reconnect

instance (kind : SandboxCommandKind) : Decidable kind.IsConnection := inferInstanceAs (Decidable (_ ∨ _))

/-- `SandboxCommandPlan._unique_report_ids` -/
def SandboxCommandPlan.validate (plan : SandboxCommandPlan) : Except SandboxFailure Unit := do
  require plan.reportIds.Nodup (.validationError "command report_ids must occur exactly once")
  require (plan.kind.IsConnection → plan.reportIds = [])
    (.validationError "connection command report_ids must be empty")
  require (¬ plan.kind.IsConnection → plan.reportIds ≠ [])
    (.validationError "lifecycle command report_ids must not be empty")

/-- `SandboxReportPlan._canonical_original_or_duplicate`: an original event has a canonical text. -/
def SandboxReportPlan.validate (plan : SandboxReportPlan) : Except SandboxFailure Unit :=
  match plan.source with
  | .original event => require ((serializeReport codec event).isSome = true)
      (.validationError "event is not a canonical execution report envelope")
  | .duplicateOf _ => .ok ()

structure ScenarioReports where
  originals : Dict Uuid ReportEvent
  orderIds : Dict Uuid Uuid

def scenarioReport (seen : ScenarioReports) (plan : SandboxReportPlan) :
    Except SandboxFailure ScenarioReports := do
  require (plan.reportId ∉ seen.orderIds.keys) (.validationError "duplicate report_id")
  match plan.source with
  | .original event =>
    return ⟨seen.originals.set plan.reportId event, seen.orderIds.set plan.reportId event.payload.orderId⟩
  | .duplicateOf reportId =>
    match seen.originals.get? reportId with
    | none => throw (.validationError "duplicate report must reference one prior original report")
    | some event => return ⟨seen.originals, seen.orderIds.set plan.reportId event.payload.orderId⟩

def assignReport (orderIds : Dict Uuid Uuid) (plan : SandboxCommandPlan) (assigned : List Uuid)
    (reportId : Uuid) : Except SandboxFailure (List Uuid) := do
  require (reportId ∈ orderIds.keys) (.validationError "command report_id does not exist")
  require (reportId ∉ assigned) (.validationError "command report_id must occur exactly once")
  require (orderIds.get? reportId = some plan.orderId)
    (.validationError "report order_id must match command order_id")
  return assigned ++ [reportId]

def validateCrossReferences (commandPlans : List SandboxCommandPlan) (reportPlans : List SandboxReportPlan) :
    Except SandboxFailure Unit := do
  commandPlans.forM SandboxCommandPlan.validate
  reportPlans.forM (SandboxReportPlan.validate codec)
  require (commandPlans.map fun plan => plan.commandId).Nodup (.validationError "duplicate command_id")
  let reports ← reportPlans.foldlM scenarioReport ⟨[], []⟩
  let assigned ← commandPlans.foldlM (fun assigned plan =>
    plan.reportIds.foldlM (assignReport reports.orderIds plan) assigned) []
  require (∀ reportId ∈ reports.orderIds.keys, reportId ∈ assigned)
    (.validationError "each report_id must occur exactly once in command plans")

/-- A closed script of commands and deliveries. -/
structure SandboxScenario where
  commandPlans : List SandboxCommandPlan
  reportPlans : List SandboxReportPlan
  valid : validateCrossReferences codec commandPlans reportPlans = .ok ()

inductive SandboxConnectionState
  | connected
  | disconnected
  deriving DecidableEq

@[ext] structure OrderSnapshotFields where
  orderId : Uuid
  clientOrderId : String
  orderIntent : OrderIntent
  venueState : OrderState
  observedState : OrderState

/-- `SandboxOrderSnapshot._canonical_order_state` -/
def OrderSnapshotFields.validate (order : OrderSnapshotFields) : Except SandboxFailure Unit := do
  require (order.orderId = order.orderIntent.intentId)
    (.validationError "order_id must match order_intent.intent_id")
  require (order.clientOrderId = order.orderIntent.clientOrderId)
    (.validationError "client_order_id must match order_intent")
  require (order.orderId = order.venueState.orderId ∧ order.orderId = order.observedState.orderId)
    (.validationError "order state order_id must match snapshot order_id")

@[ext] structure SandboxOrderSnapshot extends OrderSnapshotFields where
  valid : toOrderSnapshotFields.validate = .ok ()

def OrderSnapshotFields.build (order : OrderSnapshotFields) : Except SandboxFailure SandboxOrderSnapshot :=
  validated order.validate fun h => ⟨order, h⟩

@[ext] structure SandboxKnownReport where
  reportId : Uuid
  event : ReportEvent
  deriving DecidableEq

@[ext] structure SnapshotFields where
  connectionState : SandboxConnectionState
  currentTime : DateTime
  orders : List SandboxOrderSnapshot
  knownReports : List SandboxKnownReport
  queuedReports : List SandboxReportPlan

/-- `SandboxSnapshot._canonical_snapshot_values` -/
def SnapshotFields.validate (snapshot : SnapshotFields) : Except SandboxFailure Unit := do
  let orderIds : List Uuid := snapshot.orders.map fun order => order.orderId
  let knownReportIds : List Uuid := snapshot.knownReports.map fun report => report.reportId
  let reportIds : List Uuid := snapshot.queuedReports.map fun plan => plan.reportId
  require orderIds.Nodup (.validationError "orders contain duplicate order_id")
  require (snapshot.orders.map fun order => order.clientOrderId).Nodup
    (.validationError "orders contain duplicate client_order_id")
  require knownReportIds.Nodup (.validationError "known_reports contain duplicate report_id")
  require reportIds.Nodup (.validationError "queued_reports contain duplicate report_id")
  require (∀ reportId ∈ reportIds, reportId ∈ knownReportIds)
    (.validationError "queued report_id must occur exactly once in known_reports")
  require (∀ report ∈ snapshot.knownReports, report.event.payload.orderId ∈ orderIds)
    (.validationError "known report order_id must be present in snapshot orders")

/-- What a client shows of itself. -/
@[ext] structure SandboxSnapshot extends SnapshotFields where
  valid : toSnapshotFields.validate = .ok ()

/-- `SandboxSnapshot(...)` -/
def SnapshotFields.build (snapshot : SnapshotFields) : Except SandboxFailure SandboxSnapshot :=
  validated snapshot.validate fun h => ⟨snapshot, h⟩

/-- The arguments of `submit`. -/
structure SandboxSubmitRequest where
  (commandId orderId : Uuid)
  orderIntent : OrderIntent
  permit : PreparedSubmitPermit
  policyDecision : RiskDecision
  currentObservation : RuntimeRiskObservation
  currentPolicy : RuntimeRiskPolicy
  currentSafety : GlobalSafetyObservation
  consumedEventId : Uuid
  submittedAt : DateTime
  valid : orderId = orderIntent.intentId

structure SandboxModifyRequest where
  (commandId orderId : Uuid)
  replacementOrderIntent : OrderIntent
  requestedAt : DateTime

structure SandboxCancelRequest where
  (commandId orderId : Uuid)
  requestedAt : DateTime

@[ext] structure SandboxCommandResult where
  commandId : Uuid
  response : SandboxResponseDisposition
  consumedAuthority : Option ConsumedSubmitAuthority

end TradingAgent.ExecutionSandbox
