import TradingAgent.ExecutionSandbox.Client

/-! The reconciliation of a client with its evidence (`execution_sandbox/reconciliation.py`). -/

namespace TradingAgent.ExecutionSandbox

open Outcome EventLedger

inductive SandboxReconciliationStatus
  | reconciled
  | deliveryPending
  | mismatch
  deriving DecidableEq

inductive SandboxReconciliationReason
  | unknownOrderReport
  | observedOrderReplayFailed
  | observedStateMismatch
  | pendingOrderReplayFailed
  | venueStateMismatch
  | fillEvidenceMismatch
  | unexpectedObservedReport
  deriving DecidableEq

def SandboxReconciliationReason.order (r : SandboxReconciliationReason) : ℕ := r.ctorIdx

def reconciliationReasons : List SandboxReconciliationReason :=
  [.unknownOrderReport, .observedOrderReplayFailed, .observedStateMismatch, .pendingOrderReplayFailed,
    .venueStateMismatch, .fillEvidenceMismatch, .unexpectedObservedReport]

def orderedReasons (reasons : List SandboxReconciliationReason) : List SandboxReconciliationReason :=
  reconciliationReasons.filter fun reason => reason ∈ reasons

/-- `_canonical_reason_codes` -/
def validateReasonCodes (fieldName : String) (values : List SandboxReconciliationReason) :
    Except SandboxFailure Unit := do
  require values.Nodup (.validationError (fieldName ++ " must not contain duplicate reason codes"))
  require (values.Pairwise fun a b => a.order ≤ b.order)
    (.validationError (fieldName ++ " must follow enum order"))

variable (codec : SandboxCodec)

def observedText (texts : Dict Uuid String) (report : ReportEvent) : Except SandboxFailure (Dict Uuid String) :=
  match serializeReport codec report with
  | none => .error (.validationError "observed_reports must be canonical execution envelopes")
  | some text => do
    require (∀ previous ∈ texts.get? report.eventId, previous = text)
      (.validationError "conflicting observed event")
    return texts.set report.eventId text

structure SandboxReconciliationRequest where
  snapshot : SandboxSnapshot
  observedReports : List ReportEvent
  valid : (observedReports.foldlM (observedText codec) []).isOk = true

@[ext] structure OrderReconciliationFields where
  orderId : Uuid
  observedState : OrderState
  expectedVenueState : OrderState
  observedReportIds : List Uuid
  pendingReportIds : List Uuid
  reasonCodes : List SandboxReconciliationReason

/-- `SandboxOrderReconciliation._canonical_values` -/
def OrderReconciliationFields.validate (order : OrderReconciliationFields) : Except SandboxFailure Unit := do
  require (order.observedState.orderId = order.orderId ∧ order.expectedVenueState.orderId = order.orderId)
    (.validationError "order states must match reconciliation order_id")
  require order.observedReportIds.Nodup (.validationError "observed_report_ids must occur exactly once")
  require order.pendingReportIds.Nodup (.validationError "pending_report_ids must occur exactly once")
  require (∀ reportId ∈ order.observedReportIds, reportId ∉ order.pendingReportIds)
    (.validationError "report ids cannot be both observed and pending")
  validateReasonCodes "reason_codes" order.reasonCodes

@[ext] structure SandboxOrderReconciliation extends OrderReconciliationFields where
  valid : toOrderReconciliationFields.validate = .ok ()

def OrderReconciliationFields.build (order : OrderReconciliationFields) :
    Except SandboxFailure SandboxOrderReconciliation :=
  validated order.validate fun h => ⟨order, h⟩

@[ext] structure ReconciliationFields where
  status : SandboxReconciliationStatus
  snapshotTime : DateTime
  orders : List SandboxOrderReconciliation
  pendingReportIds : List Uuid
  unattributedEventIds : List Uuid
  unattributedReasonCodes : List SandboxReconciliationReason

def statusOf (hasFindings : Bool) (pendingReportIds : List Uuid) : SandboxReconciliationStatus :=
  if hasFindings then .mismatch else if pendingReportIds = [] then .reconciled else .deliveryPending

/-- The checks of `SandboxReconciliationResult._canonical_values`. -/
def ReconciliationFields.validate (result : ReconciliationFields) : Except SandboxFailure Unit := do
  require (result.orders.map fun order => order.orderId).Nodup
    (.validationError "orders must contain unique order_id values")
  require result.pendingReportIds.Nodup (.validationError "pending_report_ids must occur exactly once")
  require result.unattributedEventIds.Nodup (.validationError "unattributed_event_ids must occur exactly once")
  require (result.unattributedEventIds.Pairwise (· ≤ ·))
    (.validationError "unattributed_event_ids must be UUID ordered")
  validateReasonCodes "unattributed_reason_codes" result.unattributedReasonCodes
  require (result.status = statusOf (decide (∃ order ∈ result.orders, order.reasonCodes ≠ []) ||
      decide (result.unattributedEventIds ≠ []) || decide (result.unattributedReasonCodes ≠ []))
      result.pendingReportIds)
    (.validationError "status does not match reconciliation findings and pending content")

/-- The outcome of a comparison, with its orders sorted; it grants no execution authority. -/
@[ext] structure SandboxReconciliationResult extends ReconciliationFields where
  valid : toReconciliationFields.validate = .ok ()
  sorted : orders.Pairwise fun a b => a.orderId ≤ b.orderId

/-- `SandboxReconciliationResult(...)`, which sorts the orders. -/
def ReconciliationFields.build (result : ReconciliationFields) :
    Except SandboxFailure SandboxReconciliationResult :=
  let sorted := { result with orders := sortBy (fun order => order.orderId) result.orders }
  validated sorted.validate fun h => ⟨sorted, h, sortBy_pairwise_le _ _⟩

/-- `_known_reports` -/
def SandboxSnapshot.known (snapshot : SandboxSnapshot) : Dict Uuid ReportEvent :=
  Dict.ofList (snapshot.knownReports.map fun report => (report.reportId, report.event))

def SandboxSnapshot.queuedPair (snapshot : SandboxSnapshot) (plan : SandboxReportPlan) :
    Except SandboxFailure (SandboxReportPlan × ReportEvent) :=
  match snapshot.known.get? plan.reportId with
  | some event => .ok (plan, event)
  | none => .error (.reconciliationError "queued report is absent from known inventory")

/-- `_queued_reports`, in the order of delivery. -/
def SandboxSnapshot.queued (snapshot : SandboxSnapshot) :
    Except SandboxFailure (List (SandboxReportPlan × ReportEvent)) := do
  let pairs ← snapshot.queuedReports.mapM snapshot.queuedPair
  return (sortBy (fun item => toLex (item.1.1.deliverAt, item.2)) pairs.zipIdx).map fun item => item.1

/-- One round of the loop of `_known_event_bytes`. -/
def knownEventText (texts : Dict Uuid (Option String)) (report : SandboxKnownReport) :
    Except SandboxFailure (Dict Uuid (Option String)) := do
  let text := serializeReport codec report.event
  require (∀ previous ∈ texts.get? report.event.eventId, previous = text)
    (.reconciliationError "conflicting known event")
  return texts.set report.event.eventId text

/-- `_known_event_bytes` -/
def SandboxSnapshot.knownEventTexts (snapshot : SandboxSnapshot) :
    Except SandboxFailure (Dict Uuid (Option String)) :=
  snapshot.knownReports.foldlM (knownEventText codec) []

def SandboxSnapshot.deliveredReports (snapshot : SandboxSnapshot) : List SandboxKnownReport :=
  snapshot.knownReports.filter fun report =>
    report.reportId ∉ snapshot.queuedReports.map fun plan => plan.reportId

/-- `_delivered_event_bytes` -/
def SandboxSnapshot.deliveredEventTexts (snapshot : SandboxSnapshot) :
    Except SandboxFailure (Dict Uuid (Option String)) := do
  let known ← snapshot.knownEventTexts codec
  let deliveredIds := snapshot.deliveredReports.map fun report => report.event.eventId
  return known.filter fun entry => entry.1 ∈ deliveredIds

/-- One round of the loop of `_observed_by_event_id`. -/
def observeEvent (observed : Dict Uuid ReportEvent) (report : ReportEvent) :
    Except SandboxFailure (Dict Uuid ReportEvent) := do
  require (∀ prior ∈ observed.get? report.eventId, serializeReport codec prior = serializeReport codec report)
    (.reconciliationError "conflicting observed event")
  return observed.set report.eventId report

def observedByEventId (reports : List ReportEvent) : Except SandboxFailure (Dict Uuid ReportEvent) :=
  reports.foldlM (observeEvent codec) []

def replayUntilFailure : OrderState → List OrderEvent → OrderState × Bool
  | state, [] => (state, false)
  | state, event :: rest =>
    match reduceOrder codec.fingerprint state event with
    | .ok next => replayUntilFailure next rest
    | .error _ => (state, true)

def replayOrderEvents (orderId : Uuid) (events : List OrderEvent) :
    OrderState × List SandboxReconciliationReason :=
  let (state, failed) := replayUntilFailure codec (.initial orderId)
    (sortBy (fun event : OrderEvent => event.sequence) events)
  (state, if failed then [.observedOrderReplayFailed] else [])

def FillObserved (observed : Dict Uuid ReportEvent) (expected : ReportEvent) : Prop :=
  ∃ actual ∈ observed.get? expected.eventId,
    (∃ fill ∈ actual.payload.fill?, ∃ delivered ∈ expected.payload.fill?,
      fill.executionId = delivered.executionId ∧ fill.reportSequence = delivered.reportSequence ∧
        fill.orderId = delivered.orderId) ∧
    serializeReport codec actual = serializeReport codec expected

instance (observed : Dict Uuid ReportEvent) (expected : ReportEvent) :
    Decidable (FillObserved codec observed expected) :=
  inferInstanceAs (Decidable (∃ _ ∈ _, _))

/-- The orders of the fills that `_validate_fill_evidence` finds wrong: observed but not delivered, or
delivered and not observed as they were. -/
def mismatchedFills (snapshot : SandboxSnapshot) (observed : Dict Uuid ReportEvent) : List Uuid :=
  let deliveredFills := (snapshot.deliveredReports.map fun report => report.event).filter fun event =>
    event.payload.fill?.isSome
  let deliveredTexts := deliveredFills.map fun event => (event.eventId, serializeReport codec event)
  let unexpected := observed.values.filter fun actual =>
    actual.payload.fill?.isSome ∧ (actual.eventId, serializeReport codec actual) ∉ deliveredTexts
  let missing := deliveredFills.filter fun expected => ¬ FillObserved codec observed expected
  (unexpected ++ missing).map fun event => event.payload.orderId

/-- `_validate_fill_evidence`, as it is looked up by order. -/
def fillReasons (snapshot : SandboxSnapshot) (observed : Dict Uuid ReportEvent) (orderId : Uuid) :
    List SandboxReconciliationReason :=
  if orderId ∈ mismatchedFills codec snapshot observed then [.fillEvidenceMismatch] else []

structure Attribution where
  unattributedEventIds : List Uuid
  unattributedReasons : List SandboxReconciliationReason
  orderEvidence : Dict Uuid (List SandboxReconciliationReason)
  usable : Dict Uuid ReportEvent

def attributeReport (orderIds : List Uuid) (deliveredTexts : Dict Uuid (Option String))
    (fills : Uuid → List SandboxReconciliationReason) (acc : Attribution) (item : Uuid × ReportEvent) :
    Attribution :=
  let orderId := item.2.payload.orderId
  if orderId ∉ orderIds then
    { acc with
      unattributedEventIds := acc.unattributedEventIds ++ [item.1]
      unattributedReasons := acc.unattributedReasons ++ [.unknownOrderReport] ++ fills orderId }
  else if item.1 ∉ deliveredTexts.keys then
    { acc with
      unattributedEventIds := acc.unattributedEventIds ++ [item.1]
      unattributedReasons := acc.unattributedReasons ++ [.unexpectedObservedReport] }
  else if item.2.payload.order?.isSome ∧ deliveredTexts.get? item.1 ≠ some (serializeReport codec item.2) then
    { acc with
      orderEvidence := acc.orderEvidence.set orderId
        ((acc.orderEvidence.get? orderId).getD [] ++ [.unexpectedObservedReport]) }
  else { acc with usable := acc.usable.set item.1 item.2 }

def orderFindings (snapshot : SandboxSnapshot) (queued : List (SandboxReportPlan × ReportEvent))
    (fills : Uuid → List SandboxReconciliationReason) (attribution : Attribution) (order : SandboxOrderSnapshot) :
    OrderReconciliationFields :=
  let orderObserved := (attribution.usable.values.filterMap fun event => event.payload.order?).filter
    fun event => event.orderId = order.orderId
  let observed := replayOrderEvents codec order.orderId orderObserved
  let pendingEvents := (queued.filterMap fun item => item.2.payload.order?).filter
    fun event => event.orderId = order.orderId
  let expected := replayUntilFailure codec observed.1 pendingEvents
  let reasons := observed.2 ++ (attribution.orderEvidence.get? order.orderId).getD [] ++
    fills order.orderId ++
    (if observed.2 = [] ∧ observed.1 ≠ order.observedState then
      [SandboxReconciliationReason.observedStateMismatch] else []) ++
    (if expected.2 then [.pendingOrderReplayFailed]
      else if expected.1 ≠ order.venueState then [.venueStateMismatch] else [])
  let queuedIds := queued.map fun item => item.1.reportId
  { orderId := order.orderId
    observedState := observed.1
    expectedVenueState := expected.1
    observedReportIds := (snapshot.known.filter fun entry => entry.1 ∉ queuedIds ∧
      entry.2.payload.orderId = order.orderId ∧ entry.2.eventId ∈ attribution.usable.keys).map Prod.fst
    pendingReportIds := (queued.filter fun item => item.2.payload.orderId = order.orderId).map
      fun item => item.1.reportId
    reasonCodes := orderedReasons reasons }

/-- `reconcile_execution_state` -/
def reconcileExecutionState (request : SandboxReconciliationRequest codec) :
    Except SandboxFailure SandboxReconciliationResult := do
  let snapshot := request.snapshot
  let queued ← snapshot.queued
  let deliveredTexts ← snapshot.deliveredEventTexts codec
  let observed ← observedByEventId codec request.observedReports
  let orderIds := snapshot.orders.map fun order => order.orderId
  let fills := fillReasons codec snapshot observed
  let attribution := (sortBy (fun item => item.1) observed).foldl (attributeReport codec orderIds deliveredTexts fills)
    ⟨[], [], [], []⟩
  let orders ← snapshot.orders.mapM fun order =>
    (orderFindings codec snapshot queued fills attribution order).build
  let pendingReportIds := queued.map fun item => item.1.reportId
  let hasFindings := decide (∃ order ∈ orders, order.reasonCodes ≠ []) ||
    decide (attribution.unattributedEventIds ≠ [])
  ReconciliationFields.build
    { status := statusOf hasFindings pendingReportIds
      snapshotTime := snapshot.currentTime
      orders := orders
      pendingReportIds := pendingReportIds
      unattributedEventIds := attribution.unattributedEventIds
      unattributedReasonCodes := orderedReasons attribution.unattributedReasons }

end TradingAgent.ExecutionSandbox
