import TradingAgent.Domain.Events

/-!
# Types of the append-only event ledger

Stored events, replay states and outbox intents. Schema and reducer versions admit one literal only and
are left out; the integer bounds of PostgreSQL are the predicate `FitsBigint`.
-/

namespace TradingAgent.EventLedger

/-- Canonical JSON and SHA-256 of the ledger. -/
structure LedgerCodec where
  sha256 : String → Sha256
  eventJson : LedgerEvent → String
  /-- Every string of the document can be stored by PostgreSQL. -/
  storable : LedgerEvent → Bool
  parse : String → Option LedgerEvent

variable (codec : LedgerCodec)

def eventDigest (canonicalJson : String) : Sha256 := codec.sha256 canonicalJson

def serializeEvent (event : LedgerEvent) : Option String :=
  if codec.storable event then some (codec.eventJson event) else none

def deserializeEvent (canonicalJson : String) : Option LedgerEvent :=
  (codec.parse canonicalJson).filter fun event => serializeEvent codec event = some canonicalJson

def LedgerCodec.RoundTrips : Prop :=
  ∀ event, codec.storable event = true → codec.parse (codec.eventJson event) = some event

variable {codec} {event : LedgerEvent} {text : String}

theorem serializeEvent_eq_some :
    serializeEvent codec event = some text ↔ codec.storable event = true ∧ codec.eventJson event = text := by
  unfold serializeEvent
  split_ifs with h <;> simp [h]

theorem deserializeEvent_eq_some : deserializeEvent codec text = some event ↔
      codec.parse text = some event ∧ serializeEvent codec event = some text := by
  unfold deserializeEvent
  rw [Option.filter_eq_some_iff]
  simp

theorem deserializeEvent_of_serialize (hround : codec.RoundTrips)
    (h : serializeEvent codec event = some text) : deserializeEvent codec text = some event := by
  obtain ⟨hstorable, htext⟩ := serializeEvent_eq_some.1 h
  refine deserializeEvent_eq_some.2 ⟨?_, h⟩
  rw [← htext]
  exact hround event hstorable

def postgresBigintMax : ℕ := 9223372036854775807

/-- The bound of `LedgerPositiveInt` and `LedgerNonNegativeInt`. -/
def FitsBigint (n : ℕ) : Prop := n ≤ postgresBigintMax

instance (n : ℕ) : Decidable (FitsBigint n) := inferInstanceAs (Decidable (_ ≤ _))

inductive ReplayIssueCode
  | sequenceGap
  | sequenceRegression
  deriving DecidableEq

/-- The errors of the ledger. All but `validationError` are `ReplayError`s. -/
inductive LedgerFailure
  /-- `ReplayError` with its text. -/
  | replayError (message : String)
  /-- `ConflictingEventError`: conflicting content for an event id. -/
  | conflictingContent (eventId : Uuid)
  /-- `ConflictingEventError`: conflicting retry for a skipped event id. -/
  | conflictingRetry (eventId : Uuid)
  /-- `SequenceError`: a stream of a replay expected another sequence. -/
  | sequenceError (code : ReplayIssueCode) (streamId : Uuid) (expected got : ℕ)
  /-- `SequenceError`: a stream of the store expected another sequence. -/
  | deliveryOrder (streamId : Uuid) (expected got : ℕ)
  /-- `EventConflictError` with its text. -/
  | eventConflict (message : String)
  /-- `EventConflictError` with its text and the event id in it. -/
  | eventConflictAbout (message : String) (eventId : Uuid)
  /-- A bounded field of a ledger model does not admit its value. -/
  | validationError
  deriving DecidableEq

/-- The error is an instance of `ReplayError`. -/
def LedgerFailure.IsReplayError (e : LedgerFailure) : Prop := e ≠ .validationError

@[ext] structure StoredEvent where
  eventId : Uuid
  streamId : Uuid
  sequence : ℕ
  eventType : String
  canonicalJson : String
  digest : Sha256

def StoredEvent.fromEnvelope (codec : LedgerCodec) (event : LedgerEvent) :
    Except LedgerFailure StoredEvent :=
  match serializeEvent codec event with
  | none => .error (.replayError "value cannot be represented by canonical PostgreSQL jsonb")
  | some canonicalJson =>
    if FitsBigint event.sequence then
      .ok { eventId := event.eventId
            streamId := event.streamId
            sequence := event.sequence
            eventType := event.payload.eventType
            canonicalJson := canonicalJson
            digest := eventDigest codec canonicalJson }
    else .error .validationError

inductive ReplayStatus
  | complete
  | degraded
  deriving DecidableEq

@[ext] structure ReplayIssue where
  code : ReplayIssueCode
  streamId : Uuid
  eventId : Uuid
  sequence : ℕ
  expectedSequence : ℕ
  digest : Sha256
  deriving DecidableEq

@[ext] structure AppliedEvent where
  eventId : Uuid
  digest : Sha256
  deriving DecidableEq

@[ext] structure EventTypeCount where
  eventType : String
  count : ℕ
  deriving DecidableEq

/-- The state of one stream. -/
@[ext] structure StreamProjection where
  streamId : Uuid
  eventCount : ℕ
  lastSequence : ℕ
  lastDigest : Option Sha256
  deriving DecidableEq

@[ext] structure AggregateReplayState where
  eventCount : ℕ
  typeCounts : List EventTypeCount
  streams : List StreamProjection
  appliedEvents : List AppliedEvent
  deriving DecidableEq

/-- The outcome of a replay. -/
@[ext] structure ReplayResult where
  status : ReplayStatus
  state : AggregateReplayState
  issues : List ReplayIssue
  canonicalStateJson : String
  stateHash : Sha256
  deriving DecidableEq

abbrev SnapshotRecord := ReplayResult

def ReplayIssue.Fits (i : ReplayIssue) : Prop :=
  (0 < i.sequence ∧ FitsBigint i.sequence) ∧ 0 < i.expectedSequence ∧ FitsBigint i.expectedSequence

instance (i : ReplayIssue) : Decidable i.Fits := inferInstanceAs (Decidable (_ ∧ _))

def AggregateReplayState.Fits (s : AggregateReplayState) : Prop :=
  FitsBigint s.eventCount ∧ (∀ t ∈ s.typeCounts, FitsBigint t.count) ∧
    ∀ p ∈ s.streams, FitsBigint p.eventCount ∧ FitsBigint p.lastSequence

instance (s : AggregateReplayState) : Decidable s.Fits := inferInstanceAs (Decidable (_ ∧ _))

@[ext] structure OutboxIntent where
  eventId : Uuid
  topic : String
  payloadJson : String
  deriving DecidableEq

@[ext] structure AppendOutcome where
  eventId : Uuid
  inserted : Bool

end TradingAgent.EventLedger
