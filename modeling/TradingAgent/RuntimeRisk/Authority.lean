import TradingAgent.EventLedger.Repository
import TradingAgent.Lib.Interaction
import TradingAgent.RuntimeRisk.Evaluator

/-!
# Operations on the shared ledger

The durable operations read, validate and append in separate requests to one repository. They are
programs over these requests, so another process may act between any two of them.
-/

namespace TradingAgent.RuntimeRisk

open Outcome Interaction EventLedger

/-- The texts of events and of models. -/
structure AuthorityCodec where
  ledger : RepositoryCodec
  models : ModelCodec

inductive AuthorityFailure
  /-- `ValueError` or another error that the operations translate. -/
  | valueError (message : String)
  | durableApprovalError (message : String)
  | globalHaltAuthorityError (message : String)
  /-- `GlobalHaltRecoveryError`, a `GlobalHaltAuthorityError`. -/
  | globalHaltRecoveryError (message : String)
  | preparationError (message : String) (reasonCodes : List RuntimeRiskReasonCode)
  | consumptionError (message : String) (reasonCodes : List RuntimeRiskReasonCode)
  /-- `EventConflictError` or `SequenceError` of an append. -/
  | conflict (cause : LedgerFailure)
  deriving DecidableEq

/-- The error is an `EventConflictError` or a `SequenceError`. -/
def IsConflict : LedgerFailure → Prop
  | .eventConflict _ | .eventConflictAbout _ _ | .sequenceError .. | .deliveryOrder .. => True
  | _ => False

instance : DecidablePred IsConflict
  | .eventConflict _ | .eventConflictAbout _ _ | .sequenceError .. | .deliveryOrder .. => isTrue trivial
  | .replayError _ | .conflictingContent _ | .conflictingRetry _ | .validationError => isFalse id

inductive RepositoryRequest
  | append (event : LedgerEvent) (outbox : OutboxIntent)
  | loadEvents

abbrev RepositoryReply : RepositoryRequest → Type
  | .append _ _ => Except LedgerFailure AppendOutcome
  | .loadEvents => Except LedgerFailure (List LedgerEvent)

abbrev AuthorityM := ExceptT AuthorityFailure (Prog RepositoryReply)

def step {α : Type} (x : Except AuthorityFailure α) : AuthorityM α := ExceptT.mk (.ret x)

/-- `repository.load_events`; any error becomes `failure`. -/
def loadLedger (failure : AuthorityFailure) : AuthorityM (List LedgerEvent) := do
  match ← ExceptT.lift (Prog.request (R := RepositoryReply) .loadEvents) with
  | .ok events => step (.ok events)
  | .error _ => step (.error failure)

/-- `repository.append`; any error becomes `failure`, and the receipt must be for the event. -/
def appendEvent (event : LedgerEvent) (outbox : OutboxIntent) (failure : AuthorityFailure) :
    AuthorityM Unit := do
  match ← ExceptT.lift (Prog.request (R := RepositoryReply) (.append event outbox)) with
  | .ok outcome => step (require (outcome.eventId = event.eventId) failure)
  | .error _ => step (.error failure)

variable (codec : AuthorityCodec)

def canonicalEnvelope (event : LedgerEvent) : Except AuthorityFailure (LedgerEvent × String) :=
  match serializeEvent codec.ledger.toLedgerCodec event with
  | none => .error (.valueError "value cannot be represented by canonical PostgreSQL jsonb")
  | some text =>
    match deserializeEvent codec.ledger.toLedgerCodec text with
    | none => .error (.valueError "event JSON is not canonical")
    | some canonical => .ok (canonical, text)

abbrev digestOf (text : String) : Sha256 := eventDigest codec.ledger.toLedgerCodec text

def onlyMatch (events : List LedgerEvent) (eventId : Uuid) : Except AuthorityFailure LedgerEvent :=
  match onlyOne (events.filter fun event => event.eventId = eventId) with
  | some event => .ok event
  | none => .error (.valueError "ledger must contain exactly one matching event")

def requireReadBack (expected actual : LedgerEvent × String) : Except AuthorityFailure Unit :=
  require (actual.2 = expected.2 ∧ digestOf codec actual.2 = digestOf codec expected.2 ∧
    actual.1 = expected.1) (.valueError "event read-back is not byte-identical")

def outboxOf (event : LedgerEvent) (topic field : String) (id : Uuid) :
    Except AuthorityFailure OutboxIntent := do
  let outbox : OutboxIntent :=
    ⟨event.eventId, topic, "\x7b\"" ++ field ++ "\":\"" ++ uuidText id ++ "\"\x7d"⟩
  require (outbox.Valid codec.ledger) (.valueError "invalid outbox intent")
  return outbox

def eventSource : String := "runtime-risk"

def eventLifetime : TimeDelta := TimeDelta.minutes 5

def authorityEvent (eventId : Uuid) (schemaVersion : String) (streamId : Uuid) (sequence : ℕ)
    (authorityAt expiresAt : DateTime) (correlationId causationId traceId : Uuid) (payload : LedgerPayload)
    (hsequence : 0 < sequence) (hexpires : authorityAt < expiresAt) : LedgerEvent where
  eventId := eventId
  schemaVersion := schemaVersion
  source := eventSource
  streamId := streamId
  sequence := sequence
  observedAt := authorityAt
  ingestedAt := authorityAt
  producedAt := authorityAt
  effectiveAt := authorityAt
  expiresAt := expiresAt
  correlationId := correlationId
  causationId := causationId
  traceId := traceId
  payload := payload
  valid := ⟨hsequence, le_refl _, le_refl _, hexpires⟩

theorem lt_add_eventLifetime (authorityAt : DateTime) : authorityAt < authorityAt + eventLifetime :=
  Int.lt_add_of_pos_right authorityAt (by decide)

end TradingAgent.RuntimeRisk
