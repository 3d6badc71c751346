import TradingAgent.EventLedger.Reducer
import TradingAgent.Lib.Bytes

/-!
# The in-memory event ledger

The repository boundary with all its state. An operation that changes the ledger is an `EStateM` action, so a change
made before an exception would stay.
-/

namespace TradingAgent.EventLedger

open Outcome

structure RepositoryCodec extends ReplayCodec where
  sha256Bytes : List UInt8 → Sha256
  /-- The text is canonical JSON without fractional numbers, duplicate keys or unstorable strings. -/
  canonicalPayload : String → Bool

@[ext] structure InMemoryEventLedger where
  events : Dict Uuid StoredEvent
  appendIdempotency : Dict Uuid Sha256
  outbox : Dict Uuid OutboxIntent
  publications : List Uuid
  inbox : List (String × Uuid)
  snapshots : Dict Sha256 SnapshotRecord

def InMemoryEventLedger.empty : InMemoryEventLedger := ⟨[], [], [], [], [], []⟩

abbrev LedgerM := EStateM LedgerFailure InMemoryEventLedger

variable (codec : RepositoryCodec)

/-- The checks of the fields of `OutboxIntent`. -/
def OutboxIntent.Valid (intent : OutboxIntent) : Prop :=
  (1 ≤ intent.topic.length ∧ intent.topic.length ≤ 256) ∧
    (2 ≤ intent.payloadJson.length ∧ intent.payloadJson.length ≤ 65536) ∧
    codec.canonicalPayload intent.payloadJson = true

instance (intent : OutboxIntent) : Decidable (intent.Valid codec) := inferInstanceAs (Decidable (_ ∧ _))

/-- The parts of `_append_request_digest`. -/
def appendRequestParts (record : StoredEvent) (outbox : OutboxIntent) : List (List UInt8) :=
  [toBytesBig 16 record.eventId, toBytesBig 16 record.streamId, utf8 (toString record.sequence),
    utf8 record.eventType, utf8 record.canonicalJson, utf8 outbox.topic, utf8 outbox.payloadJson]

/-- What `_append_request_digest` hashes. A part's length is below `2⁶⁴`; no text in memory is longer. -/
def appendRequestBytes (record : StoredEvent) (outbox : OutboxIntent) : List UInt8 :=
  lengthPrefixed 8 (appendRequestParts record outbox)

def appendRequestDigest (record : StoredEvent) (outbox : OutboxIntent) : Sha256 :=
  codec.sha256Bytes (appendRequestBytes record outbox)

def validateDeliveryOrder (record : StoredEvent) : LedgerM Unit := do
  let ledger ← get
  let sequences := (ledger.events.values.filter fun stored => stored.streamId = record.streamId).map
    StoredEvent.sequence
  let expected := sequences.foldl max 0 + 1
  if record.sequence ≠ expected then
    throw (.deliveryOrder record.streamId expected record.sequence)

def append (event : LedgerEvent) (outbox : OutboxIntent) : LedgerM AppendOutcome := do
  let record ← ofExcept (StoredEvent.fromEnvelope codec.toLedgerCodec event)
  if ¬ outbox.Valid codec then throw (.eventConflict "invalid outbox intent")
  if outbox.eventId ≠ record.eventId then
    throw (.eventConflict "outbox intent must reference the appended event")
  let requestDigest := appendRequestDigest codec record outbox
  let ledger ← get
  match ledger.appendIdempotency.get? record.eventId with
  | some priorDigest =>
    if priorDigest = requestDigest then return ⟨record.eventId, false⟩
    throw (.eventConflictAbout "conflicting content for event_id" record.eventId)
  | none =>
    if record.eventId ∈ ledger.events.keys then
      throw (.eventConflictAbout "conflicting content for event_id" record.eventId)
    validateDeliveryOrder record
    modify fun ledger => { ledger with events := ledger.events.set record.eventId record }
    modify fun ledger =>
      { ledger with appendIdempotency := ledger.appendIdempotency.set record.eventId requestDigest }
    modify fun ledger => { ledger with outbox := ledger.outbox.set record.eventId outbox }
    return ⟨record.eventId, true⟩

/-- `deserialize_event`, raising when the text cannot be read. -/
def readEvent (record : StoredEvent) : Except LedgerFailure LedgerEvent :=
  match deserializeEvent codec.toLedgerCodec record.canonicalJson with
  | some event => .ok event
  | none => .error (.replayError "event JSON is not canonical")

/-- All stored events, read back and in replay order. -/
def loadEvents (ledger : InMemoryEventLedger) : Except LedgerFailure (List LedgerEvent) :=
  (sortBy eventOrder ledger.events.values).mapM (readEvent codec)

def loadStreamEvents (ledger : InMemoryEventLedger) (streamId : Uuid) :
    Except LedgerFailure (List LedgerEvent) :=
  (sortBy (fun r => toLex (r.sequence, r.eventId))
    (ledger.events.values.filter fun r => r.streamId = streamId)).mapM (readEvent codec)

def loadOutbox (ledger : InMemoryEventLedger) : List OutboxIntent := Dict.valuesBy id ledger.outbox

def acknowledgeOutbox (eventId : Uuid) : LedgerM Bool := do
  let ledger ← get
  if eventId ∈ ledger.publications then return false
  if eventId ∉ ledger.outbox.keys then
    throw (.eventConflictAbout "has no pending outbox work" eventId)
  modify fun ledger => { ledger with publications := ledger.publications ++ [eventId] }
  modify fun ledger => { ledger with outbox := ledger.outbox.erase eventId }
  return true

def ConsumerValid (consumer : String) : Prop := consumer ≠ "" ∧ consumer.length ≤ 256

instance (consumer : String) : Decidable (ConsumerValid consumer) := inferInstanceAs (Decidable (_ ∧ _))

def claimInbox (consumer : String) (eventId : Uuid) : LedgerM Bool := do
  if ¬ ConsumerValid consumer then throw (.replayError "consumer must be bounded non-empty text")
  let ledger ← get
  if eventId ∉ ledger.events.keys then
    throw (.eventConflictAbout "does not exist in the ledger" eventId)
  if (consumer, eventId) ∈ ledger.inbox then return false
  modify fun ledger => { ledger with inbox := ledger.inbox ++ [(consumer, eventId)] }
  return true

def saveSnapshot (snapshot : SnapshotRecord) : LedgerM Unit := do
  match validateSnapshot codec.toReplayCodec snapshot with
  | .error _ => throw (.eventConflict "invalid snapshot")
  | .ok snapshot =>
    let ledger ← get
    match ledger.snapshots.get? snapshot.stateHash with
    | some prior =>
      if prior.canonicalStateJson = snapshot.canonicalStateJson then return
      throw (.eventConflict ("conflicting content for snapshot hash " ++ snapshot.stateHash))
    | none =>
      modify fun ledger =>
        { ledger with snapshots := ledger.snapshots.set snapshot.stateHash snapshot }

def IsSha256Text (text : String) : Prop :=
  text.length = 64 ∧ ∀ c ∈ text.toList, c ∈ "0123456789abcdef".toList

instance (text : String) : Decidable (IsSha256Text text) := inferInstanceAs (Decidable (_ ∧ _))

def loadSnapshot (ledger : InMemoryEventLedger) (stateHash : String) :
    Except LedgerFailure (Option SnapshotRecord) := do
  require (IsSha256Text stateHash)
    (.replayError "snapshot state_hash must be a lowercase sha256 hex digest")
  match ledger.snapshots.get? stateHash with
  | some snapshot => (validateSnapshot codec.toReplayCodec snapshot).map some
  | none => .ok none

/-- A call of a repository. -/
inductive LedgerCall
  | append (event : LedgerEvent) (outbox : OutboxIntent)
  | loadEvents
  | loadStreamEvents (streamId : Uuid)
  | loadOutbox
  | acknowledgeOutbox (eventId : Uuid)
  | claimInbox (consumer : String) (eventId : Uuid)
  | saveSnapshot (snapshot : SnapshotRecord)
  | loadSnapshot (stateHash : String)

inductive LedgerReply
  | appended (outcome : AppendOutcome)
  | loaded (events : List LedgerEvent)
  | pending (intents : List OutboxIntent)
  | acknowledged (moved : Bool)
  | claimed (first : Bool)
  | saved
  | snapshot (record : Option SnapshotRecord)

def perform : LedgerCall → LedgerM LedgerReply
  | .append event outbox => .appended <$> append codec event outbox
  | .loadEvents => do .loaded <$> ofExcept (loadEvents codec (← get))
  | .loadStreamEvents streamId => do .loaded <$> ofExcept (loadStreamEvents codec (← get) streamId)
  | .loadOutbox => do return .pending (loadOutbox (← get))
  | .acknowledgeOutbox eventId => .acknowledged <$> acknowledgeOutbox eventId
  | .claimInbox consumer eventId => .claimed <$> claimInbox consumer eventId
  | .saveSnapshot snapshot => do
    saveSnapshot codec snapshot
    return .saved
  | .loadSnapshot stateHash => do .snapshot <$> ofExcept (loadSnapshot codec (← get) stateHash)

abbrev LedgerEntry := LedgerCall × Except LedgerFailure LedgerReply

def performNext (run : InMemoryEventLedger × List LedgerEntry) (call : LedgerCall) :
    InMemoryEventLedger × List LedgerEntry :=
  match (perform codec call).run run.1 with
  | .ok reply ledger => (ledger, run.2 ++ [(call, .ok reply)])
  | .error e ledger => (ledger, run.2 ++ [(call, .error e)])

/-- The ledger and its history after the calls. -/
def runCalls (calls : List LedgerCall) : InMemoryEventLedger × List LedgerEntry :=
  calls.foldl (performNext codec) (.empty, [])

end TradingAgent.EventLedger
