import TradingAgent.EventLedger.Models

/-!
# Replay of immutable events

Deliveries are deduplicated, the distinct events are put in canonical order and admitted stream by stream, and a state
is assembled from those admitted.
-/

namespace TradingAgent.EventLedger

open Outcome

/-- What `validate_fill_report_batch` can object to. -/
inductive FillReportFailure
  | duplicateExecution (executionId : Uuid)
  | duplicateReportSequence (orderId : Uuid) (reportSequence : ℕ)

/-- The identities seen by `validate_fill_report_batch`. -/
structure ReportIndex where
  canonicalReports : List FillEvent
  executionIds : List Uuid
  sequencesByOrder : Dict Uuid (List ℕ)

/-- One round of the loop of `validate_fill_report_batch`. -/
def indexReport (index : ReportIndex) (report : FillEvent) : Except FillReportFailure ReportIndex := do
  require (report.executionId ∉ index.executionIds) (.duplicateExecution report.executionId)
  let orderSequences := (index.sequencesByOrder.get? report.orderId).getD []
  require (report.reportSequence ∉ orderSequences)
    (.duplicateReportSequence report.orderId report.reportSequence)
  .ok { canonicalReports := index.canonicalReports ++ [report]
        executionIds := index.executionIds ++ [report.executionId]
        sequencesByOrder :=
          index.sequencesByOrder.set report.orderId (orderSequences ++ [report.reportSequence]) }

def validateFillReportBatch (reports : List FillEvent) : Except FillReportFailure (List FillEvent) := do
  let index ← reports.foldlM indexReport ⟨[], [], []⟩
  .ok (sortBy (fun r => toLex (r.orderId, toLex (r.reportSequence, r.executionId)))
    index.canonicalReports)

/-- One round of the loop of `validate_execution_report_events`. -/
def collectReport (acc : List FillEvent × List Uuid) (event : LedgerEvent) : List FillEvent × List Uuid :=
  match event.payload with
  | .fill report =>
    if event.eventId ∈ acc.2 then acc else (acc.1 ++ [report], acc.2 ++ [event.eventId])
  | _ => acc

def validateExecutionReportEvents (events : List LedgerEvent) :
    Except FillReportFailure (List LedgerEvent) := do
  let _ ← validateFillReportBatch (events.foldl collectReport ([], [])).1
  .ok events

structure ReplayCodec extends LedgerCodec where
  /-- `canonical_state_json` -/
  stateJson : AggregateReplayState → ReplayStatus → List ReplayIssue → String

variable (codec : ReplayCodec)

/-- The values of `EVENT_TYPE_BY_PAYLOAD`. -/
def registeredEventTypes : List String :=
  ["AlphaRegistryTransitionRecordedV1", "SignalProposal", "TargetPortfolio", "RiskDecision",
    "OrderIntent", "OrderEvent", "FillEvent", "PortfolioOpeningEntry",
    "PortfolioAccountObservationEntry", "PortfolioFillEntry", "PortfolioMarkEntry",
    "PortfolioFundingEntry", "PortfolioConversionEntry", "PortfolioValuationRateEntry",
    "PortfolioReconciliationEntry", "RuntimeOrderRiskDecision", "GlobalHaltTransition",
    "SubmitPermitPrepared", "SubmitPermitConsumed", "SandboxRecoveryCheckpointRecorded"]

def eventOrder (r : StoredEvent) : Uuid ×ₗ ℕ ×ₗ Uuid := toLex (r.streamId, toLex (r.sequence, r.eventId))

def issueOrder (i : ReplayIssue) : Uuid ×ₗ ℕ ×ₗ Uuid := toLex (i.streamId, toLex (i.sequence, i.eventId))

def ReplayIssue.Consistent (i : ReplayIssue) : Prop :=
  match i.code with
  | .sequenceGap => i.expectedSequence < i.sequence
  | .sequenceRegression => i.sequence < i.expectedSequence

instance (i : ReplayIssue) : Decidable i.Consistent :=
  match h : i.code with
  | .sequenceGap => decidable_of_iff (i.expectedSequence < i.sequence) (by
      simp [ReplayIssue.Consistent, h])
  | .sequenceRegression => decidable_of_iff (i.sequence < i.expectedSequence) (by
      simp [ReplayIssue.Consistent, h])

def validateSnapshotStructure (snapshot : SnapshotRecord) : Except LedgerFailure Unit := do
  let state := snapshot.state
  let appliedIds := state.appliedEvents.map AppliedEvent.eventId
  require (state.eventCount = state.appliedEvents.length)
    (.replayError "snapshot event_count does not match applied events")
  require appliedIds.Nodup (.replayError "snapshot has duplicate applied event ids")
  require (appliedIds.Pairwise (· ≤ ·))
    (.replayError "snapshot applied events are not canonically ordered")
  require ((state.typeCounts.map EventTypeCount.count).sum = state.eventCount)
    (.replayError "snapshot type counts do not match event_count")
  require (state.typeCounts.map EventTypeCount.eventType).Nodup
    (.replayError "snapshot has duplicate event type counts")
  require ((state.typeCounts.map EventTypeCount.eventType).Pairwise (· ≤ ·))
    (.replayError "snapshot type counts are not canonically ordered")
  require (∀ t ∈ state.typeCounts, t.eventType ∈ registeredEventTypes)
    (.replayError "snapshot has an unregistered event type count")
  require ((state.streams.map StreamProjection.eventCount).sum = state.eventCount)
    (.replayError "snapshot stream counts do not match event_count")
  require (state.streams.map StreamProjection.streamId).Nodup
    (.replayError "snapshot has duplicate stream projections")
  require ((state.streams.map StreamProjection.streamId).Pairwise (· ≤ ·))
    (.replayError "snapshot stream projections are not canonically ordered")
  require (∀ p ∈ state.streams, 0 < p.eventCount ∧ p.lastSequence = p.eventCount ∧ p.lastDigest ≠ none)
    (.replayError "snapshot stream projection is structurally inconsistent")
  require (snapshot.issues.map ReplayIssue.eventId).Nodup
    (.replayError "snapshot has duplicate replay issues")
  require (∀ i ∈ snapshot.issues, i.eventId ∉ appliedIds)
    (.replayError "snapshot issue is also marked applied")
  require ((snapshot.issues.map issueOrder).Pairwise (· ≤ ·))
    (.replayError "snapshot issues are not canonically ordered")
  require (∀ i ∈ snapshot.issues, i.Consistent)
    (.replayError "snapshot replay issue is structurally inconsistent")
  require (snapshot.status = .degraded ↔ snapshot.issues ≠ [])
    (.replayError "snapshot status does not match replay issues")

def validateSnapshot (snapshot : SnapshotRecord) : Except LedgerFailure SnapshotRecord := do
  require (snapshot.state.Fits ∧ ∀ i ∈ snapshot.issues, i.Fits) (.replayError "invalid snapshot")
  validateSnapshotStructure snapshot
  let expectedJson := codec.stateJson snapshot.state snapshot.status snapshot.issues
  require (snapshot.canonicalStateJson = expectedJson ∧
      snapshot.stateHash = eventDigest codec.toLedgerCodec expectedJson)
    (.replayError "snapshot state hash does not match canonical state")
  .ok snapshot

/-- `snapshot_from_result` -/
def snapshotFromResult (result : ReplayResult) : Except LedgerFailure SnapshotRecord := do
  require (result.state.Fits ∧ ∀ i ∈ result.issues, i.Fits) (.replayError "invalid replay result")
  validateSnapshot codec result

inductive ReducerPolicy
  | default
  | degraded

structure InitialMaps where
  expected : Dict Uuid ℕ
  typeCounts : Dict String ℕ
  applied : Dict Uuid Sha256
  startingCount : ℕ
  unresolved : Dict Uuid ReplayIssue

/-- `_initial_maps`, and the issues of the snapshot by event. -/
def initialMaps : Option SnapshotRecord → InitialMaps
  | none => ⟨[], [], [], 0, []⟩
  | some initial =>
    { expected := Dict.ofList (initial.state.streams.map fun p => (p.streamId, p.lastSequence + 1))
      typeCounts := Dict.ofList (initial.state.typeCounts.map fun t => (t.eventType, t.count))
      applied := Dict.ofList (initial.state.appliedEvents.map fun a => (a.eventId, a.digest))
      startingCount := initial.state.eventCount
      unresolved := Dict.byKey ReplayIssue.eventId initial.issues }

structure Deliveries where
  seenIncoming : Dict Uuid Sha256
  unique : List StoredEvent

def collectRecord (maps : InitialMaps) (acc : Deliveries) (record : StoredEvent) :
    Except LedgerFailure Deliveries :=
  match maps.applied.get? record.eventId with
  | some previousDigest =>
    if previousDigest ≠ record.digest then .error (.conflictingContent record.eventId) else .ok acc
  | none => do
    match maps.unresolved.get? record.eventId with
    | some previousIssue =>
      require (previousIssue.digest = record.digest) (.conflictingRetry record.eventId)
    | none => .ok ()
    match acc.seenIncoming.get? record.eventId with
    | some previousDigest =>
      if previousDigest ≠ record.digest then .error (.conflictingContent record.eventId) else .ok acc
    | none =>
      .ok ⟨acc.seenIncoming.set record.eventId record.digest, acc.unique ++ [record]⟩

structure Admission where
  expected : Dict Uuid ℕ
  unresolved : Dict Uuid ReplayIssue
  valid : List StoredEvent

def sequenceIssue (wanted : ℕ) (record : StoredEvent) : ReplayIssue where
  code := if wanted < record.sequence then .sequenceGap else .sequenceRegression
  streamId := record.streamId
  eventId := record.eventId
  sequence := record.sequence
  expectedSequence := wanted
  digest := record.digest

def admitRecord (policy : ReducerPolicy) (acc : Admission) (record : StoredEvent) :
    Except LedgerFailure Admission :=
  let wanted := (acc.expected.get? record.streamId).getD 1
  if record.sequence ≠ wanted then
    let issue := sequenceIssue wanted record
    match policy with
    | .default => .error (.sequenceError issue.code record.streamId wanted record.sequence)
    | .degraded => .ok { acc with unresolved := acc.unresolved.set record.eventId issue }
  else
    .ok { expected := acc.expected.set record.streamId (wanted + 1)
          unresolved := acc.unresolved.erase record.eventId
          valid := acc.valid ++ [record] }

def streamEvents (valid : List StoredEvent) : Dict Uuid (List StoredEvent) :=
  valid.foldl (fun d r => d.set r.streamId ((d.get? r.streamId).getD [] ++ [r])) []

def countTypes (counts : Dict String ℕ) (valid : List StoredEvent) : Dict String ℕ :=
  valid.foldl (fun d r => d.set r.eventType ((d.get? r.eventType).getD 0 + 1)) counts

def applyDigests (applied : Dict Uuid Sha256) (valid : List StoredEvent) : Dict Uuid Sha256 :=
  valid.foldl (fun d r => d.set r.eventId r.digest) applied

def projectStream (previousStreams : List StreamProjection) (events : Dict Uuid (List StoredEvent))
    (streamId : Uuid) : StreamProjection :=
  let records := (events.get? streamId).getD []
  let previous := lookupBy StreamProjection.streamId previousStreams streamId
  let count := (previous.elim 0 StreamProjection.eventCount) + records.length
  match records.getLast?, previous with
  | some last, _ => ⟨streamId, count, last.sequence, some last.digest⟩
  | none, some previous => ⟨streamId, count, previous.lastSequence, previous.lastDigest⟩
  | none, none => ⟨streamId, count, 0, none⟩

def assembleState (initial : Option SnapshotRecord) (maps : InitialMaps) (expected : Dict Uuid ℕ)
    (valid : List StoredEvent) : AggregateReplayState where
  eventCount := maps.startingCount + valid.length
  typeCounts := (sortBy Prod.fst (countTypes maps.typeCounts valid)).map fun e => ⟨e.1, e.2⟩
  streams := (sortBy id expected.keys).map
    (projectStream (initial.elim [] fun s => s.state.streams) (streamEvents valid))
  appliedEvents := (sortBy Prod.fst (applyDigests maps.applied valid)).map fun e => ⟨e.1, e.2⟩

def assembleResult (state : AggregateReplayState) (unresolved : Dict Uuid ReplayIssue) : ReplayResult :=
  let issues := sortBy issueOrder unresolved.values
  let status := if issues = [] then .complete else .degraded
  let json := codec.stateJson state status issues
  ⟨status, state, issues, json, eventDigest codec.toLedgerCodec json⟩

/-- `reduce_events` from where its inputs are checked. -/
def reduceBatch (policy : ReducerPolicy) (initial : Option SnapshotRecord) (events : List LedgerEvent) :
    Except LedgerFailure ReplayResult := do
  let incoming ← events.mapM (StoredEvent.fromEnvelope codec.toLedgerCodec)
  let maps := initialMaps initial
  let deliveries ← incoming.foldlM (collectRecord maps) ⟨[], []⟩
  let canonical := sortBy eventOrder deliveries.unique
  let admission ← canonical.foldlM (admitRecord policy) ⟨maps.expected, maps.unresolved, []⟩
  let state := assembleState initial maps admission.expected admission.valid
  let result := assembleResult codec state admission.unresolved
  -- The models of the issues, the projections and the state bound their integers.
  require (result.state.Fits ∧ ∀ i ∈ result.issues, i.Fits) .validationError
  .ok result

/-- `reduce_events` -/
def reduceEvents (policy : ReducerPolicy) (initial : Option SnapshotRecord) (events : List LedgerEvent) :
    Except LedgerFailure ReplayResult := do
  let initial ← match initial with
    | none => .ok none
    | some snapshot => (validateSnapshot codec snapshot).map some
  match validateExecutionReportEvents events with
  | .error _ => throw (.replayError "invalid execution report batch")
  | .ok _ => .ok ()
  reduceBatch codec policy initial events

def replay (policy : ReducerPolicy) (snapshot : Option SnapshotRecord) (events : List LedgerEvent) :
    Except LedgerFailure ReplayResult := do
  let snapshot ← match snapshot with
    | none => .ok none
    | some snapshot => (validateSnapshot codec snapshot).map some
  reduceEvents codec policy snapshot events

end TradingAgent.EventLedger
