import TradingAgent.ExecutionSandbox.Models

/-!
# The execution sandbox client

Commands act on the venue at once and queue the reports of their script; draining delivers the due reports and moves
the observed states. A call that raises may still have changed the state.
-/

namespace TradingAgent.ExecutionSandbox

open Outcome Interaction EventLedger RuntimeRisk

@[ext] structure QueuedReport where
  plan : SandboxReportPlan
  canonicalEvent : String
  insertionOrdinal : ℕ

@[ext] structure RetainedReport where
  reportId : Uuid
  canonicalEvent : String

/-- The state of a `SandboxExecutionClient`. -/
@[ext] structure SandboxClient where
  snapshot : SandboxSnapshot
  queuedReports : List QueuedReport
  retainedReports : List RetainedReport
  executedCommandIds : List Uuid

def SandboxClient.initial (initialTime : DateTime) : SandboxClient :=
  ⟨⟨⟨.connected, initialTime, [], [], []⟩, rfl⟩, [], [], []⟩

/-- `SandboxExecutionError` -/
abbrev raised (message : String) : SandboxFailure := .executionError message

variable (codec : SandboxCodec)

/-- `_canonical_envelope` -/
def readReport (canonicalEvent : String) : Except SandboxFailure ReportEvent :=
  match deserializeReport codec canonicalEvent with
  | some event => .ok event
  | none => .error (raised "invalid queued report")

def reduce (state : OrderState) (event : OrderEvent) : Except SandboxFailure OrderState :=
  (reduceOrder codec.fingerprint state event).mapError fun _ => raised "invalid order lifecycle transition"

def QueuedReport.position (item : QueuedReport) : DateTime ×ₗ ℕ := toLex (item.plan.deliverAt, item.insertionOrdinal)

def nextOrdinal (queue : List QueuedReport) : ℕ := (queue.map fun item => item.insertionOrdinal + 1).foldl max 0

/-! ## Replacing the state -/

/-- The arguments of `_replace_state`. -/
structure StateChange where
  connectionState : Option SandboxConnectionState := none
  currentTime : Option DateTime := none
  orders : Option (List SandboxOrderSnapshot) := none
  queued : Option (List QueuedReport) := none
  retained : Option (List RetainedReport) := none
  executed : Option (List Uuid) := none

def RetainedReport.known (item : RetainedReport) : Except SandboxFailure SandboxKnownReport := do
  return ⟨item.reportId, ← readReport codec item.canonicalEvent⟩

def SandboxClient.replaceState (client : SandboxClient) (change : StateChange) :
    Except SandboxFailure SandboxClient := do
  let queue := change.queued.getD client.queuedReports
  let retained := change.retained.getD client.retainedReports
  let knownReports ← retained.mapM (RetainedReport.known codec)
  let snapshot ← SnapshotFields.build
    { connectionState := change.connectionState.getD client.snapshot.connectionState
      currentTime := change.currentTime.getD client.snapshot.currentTime
      orders := change.orders.getD client.snapshot.orders
      knownReports := knownReports
      queuedReports := queue.map fun item => item.plan }
  return ⟨snapshot, queue, retained, change.executed.getD client.executedCommandIds⟩

/-! ## Checks of commands -/

def SandboxClient.requireConnected (client : SandboxClient) : Except SandboxFailure Unit :=
  require (client.snapshot.connectionState = .connected) (raised "sandbox is disconnected")

def SandboxClient.requireCommandTime (client : SandboxClient) (commandTime : DateTime) :
    Except SandboxFailure Unit :=
  require (client.snapshot.currentTime ≤ commandTime) (raised "command time cannot precede logical clock")

def orderFrom (orders : List SandboxOrderSnapshot) (orderId : Uuid) : Except SandboxFailure SandboxOrderSnapshot :=
  match lookupBy (fun order : SandboxOrderSnapshot => order.orderId) orders orderId with
  | some order => .ok order
  | none => .error (raised "order_id is unknown")

def requireNonterminal (order : SandboxOrderSnapshot) : Except SandboxFailure Unit :=
  require (¬ order.venueState.status.IsTerminal) (raised "order is terminal")

def replaceOrderIn (orders : List SandboxOrderSnapshot) (replacement : SandboxOrderSnapshot) :
    List SandboxOrderSnapshot :=
  orders.map fun order => if order.orderId = replacement.orderId then replacement else order

def SandboxClient.requireConnectedAndUnusedClientOrderId (client : SandboxClient) (clientOrderId : String)
    (orderId : Uuid) : Except SandboxFailure Unit := do
  client.requireConnected
  require (∀ order ∈ client.snapshot.orders, order.orderId ≠ orderId) (raised "order_id already exists")
  require (∀ order ∈ client.snapshot.orders, order.clientOrderId ≠ clientOrderId)
    (raised "client_order_id already exists")

variable {codec} (scenario : SandboxScenario codec)

/-- `_require_plan`; connection commands give no order. -/
def SandboxClient.requirePlan (client : SandboxClient) (commandId : Uuid) (kind : SandboxCommandKind)
    (orderId : Option Uuid) : Except SandboxFailure SandboxCommandPlan :=
  match lookupBy (fun plan : SandboxCommandPlan => plan.commandId) scenario.commandPlans commandId with
  | none => .error (raised "command is not permitted by scenario")
  | some plan => do
    require (plan.kind = kind) (raised "command is not permitted by scenario")
    require (∀ id ∈ orderId, plan.orderId = id) (raised "command order_id does not match scenario")
    require (plan.commandId ∉ client.executedCommandIds) (raised "command has already executed")
    return plan

def reportPlanFor (reportId : Uuid) : Except SandboxFailure SandboxReportPlan :=
  match lookupBy (fun plan : SandboxReportPlan => plan.reportId) scenario.reportPlans reportId with
  | some plan => .ok plan
  | none => .error (raised "scenario report is unavailable")

/-! ## Planned reports -/

def plannedText (codec : SandboxCodec) (retained : List RetainedReport) (report : SandboxReportPlan) :
    Except SandboxFailure String :=
  match report.source with
  | .original event =>
    match serializeReport codec event with
    | some text => .ok text
    | none => .error (raised "invalid scenario report")
  | .duplicateOf reportId =>
    match lookupBy (fun item : RetainedReport => item.reportId) retained reportId with
    | some item => .ok item.canonicalEvent
    | none => .error (raised "duplicate report original is unavailable")

/-- One round of the loop of `_planned_reports`. -/
def plannedReport (orderId : Uuid) (acc : List (SandboxReportPlan × String) × List RetainedReport)
    (reportId : Uuid) : Except SandboxFailure (List (SandboxReportPlan × String) × List RetainedReport) := do
  let report ← reportPlanFor scenario reportId
  let canonicalEvent ← plannedText codec acc.2 report
  let event ← readReport codec canonicalEvent
  require (event.payload.orderId = orderId) (raised "report order_id is unknown")
  return (acc.1 ++ [(report, canonicalEvent)], acc.2 ++ [⟨report.reportId, canonicalEvent⟩])

def SandboxClient.plannedReports (client : SandboxClient) (plan : SandboxCommandPlan) (orderId : Uuid) :
    Except SandboxFailure (List (SandboxReportPlan × String) × List RetainedReport) :=
  plan.reportIds.foldlM (plannedReport scenario orderId) ([], client.retainedReports)

/-! ## The report inventory of the scenario -/

structure CanonicalInventory where
  (byReportId byEventId : Dict Uuid String)

/-- One round of the first loop of `_validate_scenario_report_inventory`. -/
def inventoryReport (codec : SandboxCodec) (inventory : CanonicalInventory) (report : SandboxReportPlan) :
    Except SandboxFailure CanonicalInventory :=
  match report.source with
  | .original original =>
    match serializeReport codec original with
    | none => .error (raised "invalid scenario report")
    | some canonicalEvent => do
      let event ← readReport codec canonicalEvent
      match inventory.byEventId.get? event.eventId with
      | some previous =>
        require (previous = canonicalEvent) (raised "scenario original event_id conflict")
        throw (raised "scenario original event_id must use a duplicate report plan")
      | none =>
        return ⟨inventory.byReportId.set report.reportId canonicalEvent,
          inventory.byEventId.set event.eventId canonicalEvent⟩
  | .duplicateOf reportId =>
    match inventory.byReportId.get? reportId with
    | none => .error (raised "duplicate report original is unavailable")
    | some original => .ok { inventory with byReportId := inventory.byReportId.set report.reportId original }

def entryOf {ν : Type} (entries : Dict Uuid ν) (reportId : Uuid) : Except SandboxFailure ν :=
  match entries.get? reportId with
  | some v => .ok v
  | none => .error (.validationError "missing key")

/-- `_scaled_quantity`: the exact integer of a quantity at its precision. -/
def scaledQuantity (quantity : OrderQuantity) : ℚ := quantity.value * 10 ^ quantity.precision

structure FillProgress where
  (seenEventIds executionIds : List Uuid)
  priorByOrder : Dict Uuid FillEvent

def requireProgression (report : FillEvent) : Option FillEvent → Except SandboxFailure Unit
  | none => require (scaledQuantity report.cumulativeFillQuantity = scaledQuantity report.quantity)
      (raised "fill report initial cumulative progression is invalid")
  | some prior => do
    require (prior.reportSequence < report.reportSequence)
      (raised "fill report_sequence is not strictly increasing")
    require (scaledQuantity prior.cumulativeFillQuantity < scaledQuantity report.cumulativeFillQuantity)
      (raised "fill report cumulative progression is not increasing")
    require (scaledQuantity report.cumulativeFillQuantity =
        scaledQuantity prior.cumulativeFillQuantity + scaledQuantity report.quantity)
      (raised "fill report cumulative progression is invalid")
    require (report.orderQuantity = prior.orderQuantity)
      (raised "fill report order quantity changed across progression")

def fillProgress (codec : SandboxCodec) (progress : FillProgress) (canonicalEvent : String) :
    Except SandboxFailure FillProgress := do
  let event ← readReport codec canonicalEvent
  if event.eventId ∈ progress.seenEventIds then return progress
  let seen := progress.seenEventIds ++ [event.eventId]
  match event.payload with
  | .order _ => return { progress with seenEventIds := seen }
  | .fill report =>
    require report.status.IsNormal (raised "fill report status is outside 06A")
    require (report.executionId ∉ progress.executionIds) (raised "fill report execution_id is repeated")
    requireProgression report (progress.priorByOrder.get? report.orderId)
    return ⟨seen, progress.executionIds ++ [report.executionId],
      progress.priorByOrder.set report.orderId report⟩

def validateScenarioReportInventory : Except SandboxFailure Unit := do
  let inventory ← scenario.reportPlans.foldlM (inventoryReport codec) ⟨[], []⟩
  let insertionOrdinals : Dict Uuid ℕ :=
    Dict.ofList (scenario.commandPlans.flatMap fun command => command.reportIds).zipIdx
  let scheduled ← scenario.reportPlans.mapM fun report => do
    return (report.deliverAt, ← entryOf insertionOrdinals report.reportId,
      ← entryOf inventory.byReportId report.reportId)
  let texts := (sortBy (fun item => toLex (item.1, item.2.1)) scheduled).map fun item => item.2.2
  let _ ← texts.foldlM (fillProgress codec) ⟨[], [], []⟩

/-! ## The order of delivery -/

/-- One round of `_validate_observed_delivery_order`. -/
def observeDelivery (codec : SandboxCodec) (states : Dict Uuid OrderState) (item : QueuedReport) :
    Except SandboxFailure (Dict Uuid OrderState) := do
  let event ← readReport codec item.canonicalEvent
  match event.payload with
  | .fill _ => return states
  | .order payload =>
    match states.get? payload.orderId with
    | none => throw (raised "observed delivery order references unknown order")
    | some state =>
      let next ← rescue (reduce codec state payload) (raised "invalid observed delivery order")
      return states.set payload.orderId next

def enqueued (queue : List QueuedReport) (reports : List (SandboxReportPlan × String)) : List QueuedReport :=
  reports.zipIdx.map fun item => ⟨item.1.1, item.1.2, nextOrdinal queue + item.2⟩

def SandboxClient.validateObservedDeliveryOrder (codec : SandboxCodec) (client : SandboxClient)
    (reports : List (SandboxReportPlan × String)) (newOrderId : Option Uuid) : Except SandboxFailure Unit := do
  let states : Dict Uuid OrderState :=
    Dict.ofList (client.snapshot.orders.map fun order => (order.orderId, order.observedState))
  let states := match newOrderId with
    | some orderId => states.set orderId (.initial orderId)
    | none => states
  let candidates := client.queuedReports ++ enqueued client.queuedReports reports
  let _ ← (sortBy QueuedReport.position candidates).foldlM (observeDelivery codec) states

def SandboxClient.validateAllPlannedReportsBeforeEffect (client : SandboxClient) (plan : SandboxCommandPlan)
    (orderId : Uuid) : Except SandboxFailure Unit := do
  validateScenarioReportInventory scenario
  let (reports, _) ← client.plannedReports scenario plan orderId
  let _ ← reports.foldlM (fun state report => do
    match (← readReport codec report.2).payload with
    | .order payload => reduce codec state payload
    | .fill _ => return state) (OrderState.initial orderId)
  client.validateObservedDeliveryOrder codec reports (some orderId)

def SandboxClient.validatePlannedDeliveryBeforeEffect (client : SandboxClient) (plan : SandboxCommandPlan)
    (orderId : Uuid) : Except SandboxFailure Unit := do
  validateScenarioReportInventory scenario
  let (reports, _) ← client.plannedReports scenario plan orderId
  client.validateObservedDeliveryOrder codec reports none

/-! ## The venue -/

/-- The variables of the loop of `_apply_venue_reports_and_enqueue`. -/
structure VenueProgress where
  nextOrder : SandboxOrderSnapshot
  queued : List QueuedReport
  ordinal : ℕ
  replacementReady : Bool

def applyVenueObservation (codec : SandboxCodec) (replacement : Option OrderIntent) (order : SandboxOrderSnapshot)
    (replacementReady : Bool) (payload : OrderEvent) : Except SandboxFailure (SandboxOrderSnapshot × Bool) := do
  let venueState ← reduce codec order.venueState payload
  let next ← { order.toOrderSnapshotFields with venueState := venueState }.build
  match replacement with
  | none => return (next, replacementReady)
  | some intent =>
    if venueState.status = .pendingUpdate then return (next, true)
    else if replacementReady ∧ payload.targetStatus = .accepted ∧ venueState.status = .accepted then
      return (← { next.toOrderSnapshotFields with orderIntent := intent }.build, false)
    else return (next, replacementReady)

def applyVenueReport (codec : SandboxCodec) (replacement : Option OrderIntent) (progress : VenueProgress)
    (report : SandboxReportPlan × String) : Except SandboxFailure VenueProgress := do
  let event ← readReport codec report.2
  let (nextOrder, ready) ← match event.payload with
    | .order payload =>
      applyVenueObservation codec replacement progress.nextOrder progress.replacementReady payload
    | .fill _ => pure (progress.nextOrder, progress.replacementReady)
  return ⟨nextOrder, progress.queued ++ [⟨report.1, report.2, progress.ordinal⟩], progress.ordinal + 1, ready⟩

def SandboxClient.applyVenueReportsAndEnqueue (client : SandboxClient) (plan : SandboxCommandPlan)
    (order : SandboxOrderSnapshot) (replacement : Option OrderIntent) :
    Except SandboxFailure (SandboxOrderSnapshot × List QueuedReport × List RetainedReport) := do
  let (reports, retained) ← client.plannedReports scenario plan order.orderId
  let progress ← reports.foldlM (applyVenueReport codec replacement)
    ⟨order, client.queuedReports, nextOrdinal client.queuedReports, false⟩
  return (progress.nextOrder, progress.queued, retained)

/-! ## Calls -/

inductive SandboxCall
  | submit (request : SandboxSubmitRequest) (verifier : GlobalSafetyAuthorityVerifier)
  | modify (request : SandboxModifyRequest)
  | cancel (request : SandboxCancelRequest)
  | disconnect (commandId : Uuid) (time : DateTime)
  | reconnect (commandId : Uuid) (time : DateTime)
  | advanceTime (target : DateTime)
  | drainReports

inductive SandboxReply
  | result (result : SandboxCommandResult)
  | snapshot (snapshot : SandboxSnapshot)
  | delivered (events : List ReportEvent)

abbrev Outcomes := Except SandboxFailure SandboxReply × SandboxClient

/-- `_result_or_lost` and the end of `submit`. -/
def respond (plan : SandboxCommandPlan) (lost : String) (authority : Option ConsumedSubmitAuthority) :
    Except SandboxFailure SandboxReply :=
  match plan.responseDisposition with
  | .lostResponse => .error (.lostResponse lost)
  | .acknowledged => .ok (.result ⟨plan.commandId, plan.responseDisposition, authority⟩)

def settle (client : SandboxClient) (x : Except SandboxFailure (SandboxCommandPlan × SandboxClient)) : Outcomes :=
  match x with
  | .error e => (.error e, client)
  | .ok (plan, next) => (respond plan "scripted sandbox response was lost" none, next)

def SandboxClient.modify (client : SandboxClient) (request : SandboxModifyRequest) :
    Except SandboxFailure (SandboxCommandPlan × SandboxClient) := do
  client.requireConnected
  client.requireCommandTime request.requestedAt
  let existing ← orderFrom client.snapshot.orders request.orderId
  requireNonterminal existing
  require (request.replacementOrderIntent.intentId = request.orderId)
    (raised "replacement order identity is invalid")
  require (request.replacementOrderIntent.clientOrderId = existing.clientOrderId)
    (raised "replacement client order identity is invalid")
  let plan ← client.requirePlan scenario request.commandId .modify (some request.orderId)
  client.validatePlannedDeliveryBeforeEffect scenario plan request.orderId
  let (nextOrder, nextQueue, retained) ← client.applyVenueReportsAndEnqueue scenario plan existing
    (some request.replacementOrderIntent)
  let next ← client.replaceState codec
    { currentTime := some request.requestedAt
      orders := some (replaceOrderIn client.snapshot.orders nextOrder)
      queued := some nextQueue
      retained := some retained
      executed := some (client.executedCommandIds ++ [plan.commandId]) }
  return (plan, next)

def SandboxClient.cancel (client : SandboxClient) (request : SandboxCancelRequest) :
    Except SandboxFailure (SandboxCommandPlan × SandboxClient) := do
  client.requireConnected
  client.requireCommandTime request.requestedAt
  let existing ← orderFrom client.snapshot.orders request.orderId
  requireNonterminal existing
  let plan ← client.requirePlan scenario request.commandId .cancel (some request.orderId)
  client.validatePlannedDeliveryBeforeEffect scenario plan request.orderId
  let (nextOrder, nextQueue, retained) ← client.applyVenueReportsAndEnqueue scenario plan existing none
  let next ← client.replaceState codec
    { currentTime := some request.requestedAt
      orders := some (replaceOrderIn client.snapshot.orders nextOrder)
      queued := some nextQueue
      retained := some retained
      executed := some (client.executedCommandIds ++ [plan.commandId]) }
  return (plan, next)

/-- `_connection_transition`, until the response. -/
def SandboxClient.connectionTransition (client : SandboxClient) (commandId : Uuid) (time : DateTime)
    (kind : SandboxCommandKind) (wanted next : SandboxConnectionState) :
    Except SandboxFailure (SandboxCommandPlan × SandboxClient) := do
  client.requireCommandTime time
  require (client.snapshot.connectionState = wanted) (raised "invalid sandbox connection transition")
  let plan ← client.requirePlan scenario commandId kind none
  let client ← client.replaceState codec
    { connectionState := some next
      currentTime := some time
      executed := some (client.executedCommandIds ++ [plan.commandId]) }
  return (plan, client)

def SandboxClient.advanceTime (codec : SandboxCodec) (client : SandboxClient) (target : DateTime) :
    Outcomes :=
  let advanced := do
    require (client.snapshot.currentTime ≤ target) (raised "clock cannot move backwards")
    client.replaceState codec { currentTime := some target }
  match advanced with
  | .error e => (.error e, client)
  | .ok next => (.ok (.snapshot next.snapshot), next)

/-! ## Submitting -/

/-- The checks of `submit` before the permit is consumed. -/
def SandboxClient.submitChecks (client : SandboxClient) (request : SandboxSubmitRequest) :
    Except SandboxFailure SandboxCommandPlan := do
  require (canonicalModelDigest codec.models (.intent request.orderIntent) = request.permit.intentDigest)
    (raised "submit order intent does not match permit")
  let plan ← client.requirePlan scenario request.commandId .submit (some request.orderId)
  client.requireConnectedAndUnusedClientOrderId request.orderIntent.clientOrderId request.orderId
  client.requireCommandTime request.submittedAt
  client.validateAllPlannedReportsBeforeEffect scenario plan request.orderId
  return plan

def SandboxSubmitRequest.consumption (request : SandboxSubmitRequest) (verifier : GlobalSafetyAuthorityVerifier) :
    ConsumeRequest where
  permit := request.permit
  intent := request.orderIntent
  policyDecision := request.policyDecision
  currentObservation := request.currentObservation
  currentPolicy := request.currentPolicy
  currentSafety := request.currentSafety
  safetyVerifier := verifier
  consumedEventId := request.consumedEventId
  consumedAt := request.submittedAt

/-- How `submit` raises an error of the consumption. -/
def consumptionRaised : AuthorityFailure → SandboxFailure
  | .consumptionError _ _ => raised "submit authority consumption failed"
  | cause => .authority cause

/-- What `submit` does with the state after the permit is consumed. -/
def SandboxClient.bookOrder (client : SandboxClient) (request : SandboxSubmitRequest) (plan : SandboxCommandPlan) :
    Except SandboxFailure SandboxClient := do
  let initialOrder ← OrderSnapshotFields.build
    { orderId := request.orderId
      clientOrderId := request.orderIntent.clientOrderId
      orderIntent := request.orderIntent
      venueState := .initial request.orderId
      observedState := .initial request.orderId }
  let (nextOrder, nextQueue, retained) ← client.applyVenueReportsAndEnqueue scenario plan initialOrder none
  client.replaceState codec
    { currentTime := some request.submittedAt
      orders := some (client.snapshot.orders ++ [nextOrder])
      queued := some nextQueue
      retained := some retained
      executed := some (client.executedCommandIds ++ [plan.commandId]) }

/-- `SandboxExecutionClient.submit` -/
def SandboxClient.submit (client : SandboxClient) (request : SandboxSubmitRequest)
    (verifier : GlobalSafetyAuthorityVerifier) : Prog RepositoryReply Outcomes :=
  match client.submitChecks scenario request with
  | .error e => .ret (.error e, client)
  | .ok plan => (consumeSubmitPermit codec.toAuthorityCodec (request.consumption verifier)).run >>= fun
    | .error cause => .ret (.error (consumptionRaised cause), client)
    | .ok authority =>
      match client.bookOrder scenario request plan with
      | .error e => .ret (.error e, client)
      | .ok next => .ret (respond plan "sandbox response was intentionally lost" (some authority), next)

/-! ## Draining -/

abbrev DeliveryM := ExceptT SandboxFailure (Prog RepositoryReply)

def pass {α : Type} (x : Except SandboxFailure α) : DeliveryM α := ExceptT.mk (.ret x)

def appendAndReadBack (codec : SandboxCodec) (event : ReportEvent) : DeliveryM Unit := do
  match serializeReport codec event with
  | none => pass (.error (raised "ledger delivery failed"))
  | some canonicalEvent =>
    let outbox : OutboxIntent := ⟨event.eventId, "execution-sandbox.report", canonicalEvent⟩
    pass (require (outbox.Valid codec.ledger) (raised "ledger delivery failed"))
    match ← ExceptT.lift (Prog.request (R := RepositoryReply) (.append (toLedger codec event) outbox)) with
    | .error _ => pass (.error (raised "ledger delivery failed"))
    | .ok outcome =>
      pass (require (outcome.eventId = event.eventId) (raised "ledger append outcome is invalid"))
      match ← ExceptT.lift (Prog.request (R := RepositoryReply) .loadEvents) with
      | .error _ => pass (.error (raised "ledger delivery failed"))
      | .ok events =>
        pass (require (∃ stored ∈ onlyOne (events.filter fun candidate : LedgerEvent => candidate.eventId = event.eventId),
            serializeEvent codec.ledger.toLedgerCodec stored = some canonicalEvent)
          (raised "ledger read-back is not exact"))

def observeReport (codec : SandboxCodec) (orders : List SandboxOrderSnapshot) (order : SandboxOrderSnapshot)
    (event : ReportEvent) : Except SandboxFailure (List SandboxOrderSnapshot) :=
  match event.payload with
  | .fill _ => .ok orders
  | .order payload => do
    let observedState ← reduce codec order.observedState payload
    let next ← { order.toOrderSnapshotFields with observedState := observedState }.build
    return replaceOrderIn orders next

/-- One round of the loop of `drain_reports`. -/
def deliverReport (codec : SandboxCodec) (acc : List SandboxOrderSnapshot × List ReportEvent)
    (item : QueuedReport) : DeliveryM (List SandboxOrderSnapshot × List ReportEvent) := do
  let event ← pass (readReport codec item.canonicalEvent)
  let order ← pass (orderFrom acc.1 event.payload.orderId)
  appendAndReadBack codec event
  let orders ← pass (observeReport codec acc.1 order event)
  return (orders, acc.2 ++ [event])

/-- The reports that a drain delivers. -/
def SandboxClient.due (client : SandboxClient) : List QueuedReport :=
  sortBy QueuedReport.position
    (client.queuedReports.filter fun item => item.plan.deliverAt ≤ client.snapshot.currentTime)

/-- What `drain_reports` does with the state after the deliveries. -/
def SandboxClient.drained (codec : SandboxCodec) (client : SandboxClient) (orders : List SandboxOrderSnapshot) :
    Except SandboxFailure SandboxClient :=
  let ordinals := client.due.map fun item => item.insertionOrdinal
  client.replaceState codec
    { orders := some orders
      queued := some (client.queuedReports.filter fun item => item.insertionOrdinal ∉ ordinals) }

/-- `SandboxExecutionClient.drain_reports` -/
def SandboxClient.drainReports (codec : SandboxCodec) (client : SandboxClient) : Prog RepositoryReply Outcomes :=
  match client.requireConnected with
  | .error e => .ret (.error e, client)
  | .ok () =>
    if client.due = [] then .ret (.ok (.delivered []), client)
    else (client.due.foldlM (deliverReport codec) (client.snapshot.orders, [])).run >>= fun
      | .error e => .ret (.error e, client)
      | .ok (orders, delivered) =>
        match client.drained codec orders with
        | .error e => .ret (.error e, client)
        | .ok next => .ret (.ok (.delivered delivered), next)

def SandboxClient.call (client : SandboxClient) : SandboxCall → Prog RepositoryReply Outcomes
  | .submit request verifier => client.submit scenario request verifier
  | .modify request => .ret (settle client (client.modify scenario request))
  | .cancel request => .ret (settle client (client.cancel scenario request))
  | .disconnect commandId time => .ret (settle client
      (client.connectionTransition scenario commandId time .disconnect .connected .disconnected))
  | .reconnect commandId time => .ret (settle client
      (client.connectionTransition scenario commandId time .reconnect .disconnected .connected))
  | .advanceTime target => .ret (client.advanceTime codec target)
  | .drainReports => client.drainReports codec

end TradingAgent.ExecutionSandbox
