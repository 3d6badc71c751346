import TradingAgent.JobWorker.Safety
import TradingAgent.Lib.Calls
import TradingAgent.Nautilus.PaperRestore

/-!
# The controller's paper session

`NautilusPaperSession` (`paper_runtime/nautilus_session.py`) as a program: it keeps a journal, its state and its
checkpoints, and asks a world it does not know. The validation of a finished run, the ledger and the parity check are
one request.
-/

namespace TradingAgent.Nautilus

open Outcome Interaction Interaction.Stateful JobWorker

def failureText : Failure → String
  | .valueError message => message
  | .portfolioReplayError message => message
  | .assertionError => ""
  | .attributeError => ""

/-- An exception in a session: `NautilusSessionRejected`, or another one. -/
inductive SessionError
  | rejected (message : String)
  | raised (message : String)

variable (P : PaperProtocol)

/-- The frame of a checkpoint: the checkpoint, the identity it claims and the SHA-256 of its canonical JSON. -/
structure CheckpointFrame where
  checkpoint : PaperSessionCheckpoint P
  (checkpointSha256 rawSha256 : Sha256Hex)

inductive ResponsePayload
  | unreadable
  | ack (raw : Received (PaperCommandAcknowledgement P))
  | event (raw : Except Failure (PaperEventFrame P))
  | checkpoint (raw : Except Failure (CheckpointFrame P))
  | other

variable {P} in
def ResponsePayload.IsEvent : ResponsePayload P → Prop
  | .event _ => True
  | _ => False

instance (payload : ResponsePayload P) : Decidable payload.IsEvent := by
  cases payload <;> unfold ResponsePayload.IsEvent <;> infer_instance

/-- What a recorder is told beside the command and the checkpoint. -/
structure RecoveryProvenance where
  engineVersion : String
  closureDigest : Sha256Hex
  sourceCommit : SourceCommit
  configDigest : Sha256Hex
  deriving DecidableEq

inductive SessionRequest
  /-- `safety_preflight()` and `clock()` -/
  | preflight
  | begin (raw : ReceivedCommand P) (expectedCheckpointSha256 : Sha256Hex) (provenance : RecoveryProvenance)
  | exchange (raw : ReceivedCommand P)
  | record (raw : ReceivedCommand P) (record : NautilusCheckpointRecord P) (provenance : RecoveryProvenance)
  | closeInput
  | abort
  /-- `validate_p1_result`, `ingest`, `load_projection` and `verify_p1_portfolio_parity` -/
  | durable (record : NautilusCheckpointRecord P)

def SessionAnswer : SessionRequest P → Type
  | .preflight => Except String (SafetyEvidence × DateTime)
  | .begin _ _ _ => Except String Unit
  | .exchange _ => Except String (List (ResponsePayload P))
  | .record _ _ _ => Except String Unit
  | .closeInput => Except String ℤ
  | .abort => Except String Unit
  | .durable _ => Except String DurableReceipts

/-- The authority a session is built with: its request, its child, and whether there is a recorder. -/
structure SessionAuthority where
  (engineRunId causationId : Uuid)
  sourceCommit : SourceCommit
  (configDigest catalogSha256 dataSha256 closureDigest processAuthoritySha256 : Sha256Hex)
  (runtimeFamily engineVersion : String)
  engineUpstreamCommit : SourceCommit
  recorder : Bool

inductive SessionState
  | paper (state : PaperSessionState)
  | exitOnly
  deriving DecidableEq

/-- `{"FAILED", "STOPPED", "RECONCILIATION_REQUIRED"}` -/
def SessionState.Terminal : SessionState → Prop
  | paper state => state.Terminal
  | exitOnly => False

instance (state : SessionState) : Decidable state.Terminal := by
  cases state <;> unfold SessionState.Terminal <;> infer_instance

structure NautilusPaperSession where
  journal : PaperSessionJournal
  checkpoints : NautilusCheckpointStore P
  events : List P1Event := []
  state : SessionState := .paper .created
  childEngaged : Bool := false
  exitOnly : Bool := false

structure NautilusSessionResult where
  state : SessionState
  checkpoint : NautilusCheckpointRecord P
  receipts : Option DurableReceipts := none

abbrev SessionM (α : Type) := Stateful (SessionAnswer P) (NautilusPaperSession P) SessionError α

namespace NautilusPaperSession

variable {P}

def create (authority : SessionAuthority) (checkpoints : NautilusCheckpointStore P) : NautilusPaperSession P where
  journal := { sessionId := authority.engineRunId, ownerId := authority.causationId }
  checkpoints := checkpoints

def askChecked {α : Type} (request : SessionRequest P) (h : SessionAnswer P request = Except String α := by rfl) :
    SessionM P α := do
  let answer ← ask request
  check ((cast h answer).mapError .raised)

def journalCall {α : Type}
    (call : PaperSessionJournal → PaperSessionJournal.Attempt (α × PaperSessionJournal)) : SessionM P α := do
  let session ← read
  match call session.journal with
  | .ok (a, journal) => do
    update fun session => { session with journal := journal }
    pure a
  | .error (e, journal) => do
    update fun session => { session with journal := journal }
    throw (.raised (failureText e))

def storeCall (call : NautilusCheckpointStore P →
    Except Failure (NautilusCheckpointRecord P × NautilusCheckpointStore P)) :
    SessionM P (NautilusCheckpointRecord P) := do
  let session ← read
  let (record, checkpoints) ← check ((call session.checkpoints).mapError fun e => .raised (failureText e))
  update fun session => { session with checkpoints := checkpoints }
  pure record

def demand (p : Prop) [Decidable p] (message : String) : SessionM P Unit := check (require p (.raised message))

def withState (session : NautilusPaperSession P) (state : SessionState) : NautilusPaperSession P :=
  { session with state := state }

def rejectedState (reconcile : Bool) : SessionState :=
  .paper (if reconcile then .reconciliationRequired else .failed)

def reject {α : Type} (message : String) (reconcile : Bool) : SessionM P α := do
  let session ← read
  if session.childEngaged = true ∧ session.state ≠ .paper .stopped ∧
      session.state ≠ .paper .reconciliationRequired then do
    -- a failing abort is ignored
    let _ ← ask .abort
    update fun session => session.withState (rejectedState reconcile)
    throw (.rejected message)
  else do
    update fun session => session.withState (rejectedState reconcile)
    throw (.rejected message)

variable (authority : SessionAuthority) (checkpointSha256 : PaperSessionCheckpoint P → Sha256Hex)

def provenance : RecoveryProvenance where
  engineVersion := authority.engineVersion
  closureDigest := authority.closureDigest
  sourceCommit := authority.sourceCommit
  configDigest := authority.configDigest

/-- `_current_checkpoint`; an expected identity that is not a digest is `none`. -/
def currentCheckpoint (expected : Option Sha256Hex) : SessionM P (Option (NautilusCheckpointRecord P)) := do
  let session ← read
  let current := session.checkpoints.load authority.engineRunId
  if expected = some (session.checkpoints.observed authority.engineRunId) then pure current
  else reject "paper checkpoint authority changed" current.isSome

def preflight : SessionM P Unit := do
  let (evidence, now) ← askChecked (α := SafetyEvidence × DateTime) .preflight
  let _ ← check ((validateCurrentSafetyEvidence evidence now).mapError fun e => .raised e.message)
  pure ()

/-- `_record_recovery(raw, None, expected)` -/
def recordIntent (raw : ReceivedCommand P) (expected : Sha256Hex) : SessionM P Unit :=
  if authority.recorder then askChecked (.begin raw expected (provenance authority)) else pure ()

def recordStep (raw : ReceivedCommand P) (record : NautilusCheckpointRecord P) : SessionM P Unit :=
  if authority.recorder then askChecked (.record raw record (provenance authority)) else pure ()

/-- `_validate_event_prefix_authority` -/
def EventPrefixMatches (events : List P1Event) : Prop :=
  ∃ start ∈ events.head?.bind P1Event.runStarted?,
    start.closureDigest = authority.closureDigest ∧ p1RuntimeFamily = authority.runtimeFamily ∧
      p1EngineVersion = authority.engineVersion ∧ start.upstreamCommit = authority.engineUpstreamCommit ∧
      start.configDigest = authority.configDigest ∧ start.catalogDigest = authority.catalogSha256 ∧
      start.dataDigest = authority.dataSha256

instance (events : List P1Event) : Decidable (EventPrefixMatches authority events) :=
  inferInstanceAs (Decidable (∃ _ ∈ _, _))

def recordEvents : List (ResponsePayload P) → SessionM P Unit
  | [] => pure ()
  | .event raw :: rest => do
    let frame ← journalCall fun journal => journal.recordEvent raw
    update fun session => { session with events := session.events ++ [frame.event] }
    recordEvents rest
  | _ :: _ => throw (.raised "paper child response ordering is invalid")

/-- The checks of `_response` on the checkpoint of the child, and the checkpoint itself. -/
def acceptCheckpoint (command : PaperCommandFrame P) (final : CheckpointFrame P) :
    SessionM P (PaperSessionCheckpoint P) := do
  let checkpoint := final.checkpoint
  demand (final.checkpointSha256 = final.rawSha256 ∧ checkpoint.closureDigest = authority.closureDigest ∧
      checkpoint.childIdentity = authority.processAuthoritySha256 ∧
      checkpoint.sessionId = authority.engineRunId ∧ checkpoint.ownerId = authority.causationId ∧
      checkpoint.lastRequestId = command.requestId)
    "paper child closure or checkpoint does not match"
  let session ← read
  match session.journal.checkpoint P
      { semanticStateHash := checkpoint.semanticStateHash
        childIdentity := checkpoint.childIdentity
        closureDigest := checkpoint.closureDigest
        portfolioStateHash := checkpoint.portfolioStateHash } with
  | none => throw (.raised "")
  | some (expected, journal) => do
    update fun session => { session with journal := journal }
    demand (checkpoint = expected) "paper child closure or checkpoint does not match"
    pure checkpoint

def response (payloads : List (ResponsePayload P)) (command : PaperCommandFrame P) (prior : Sha256Hex) :
    SessionM P (NautilusCheckpointRecord P) := do
  demand (2 ≤ payloads.length) "paper child response is incomplete"
  match payloads, payloads.getLast? with
  | .ack acknowledgement :: rest, some (.checkpoint final) => do
    demand (∀ payload ∈ rest.dropLast, payload.IsEvent) "paper child response ordering is invalid"
    let _ ← journalCall fun journal => journal.recordAck acknowledgement
    recordEvents rest.dropLast
    let final ← check (final.mapError fun e => .raised (failureText e))
    let checkpoint ← acceptCheckpoint authority command final
    let session ← read
    demand (EventPrefixMatches authority session.events) "paper event closure authority does not match"
    storeCall fun store => store.advance checkpointSha256 checkpoint prior
  | _, _ => throw (.raised "paper child response ordering is invalid")

def durableResult (record : NautilusCheckpointRecord P) :
    SessionM P (NautilusCheckpointRecord P × DurableReceipts) := do
  let receipts ← askChecked (α := DurableReceipts) (.durable record)
  let bound ← storeCall fun store => store.bindDurableResult record.checkpointSha256 receipts
  pure (bound, receipts)

/-- The preflight of `execute`: a failure of it engages the exit-only mode, or rejects. -/
def guardedPreflight (current : Option (NautilusCheckpointRecord P)) (commandType : PaperCommandName) :
    SessionM P Unit :=
  handle preflight fun _ =>
    if current.isSome ∧ commandType = .submitTargetPortfolio then do
      update fun session => { session with exitOnly := true, state := .exitOnly }
      throw (.rejected "paper safety engagement requires exit-only stop")
    else reject "paper safety evidence is not current" current.isSome

/-- The admission of a command: everything that `execute` does before the journal sees it. -/
def admission (command : PaperCommandFrame P) (expected : Option Sha256Hex) :
    SessionM P (Option (NautilusCheckpointRecord P)) := do
  let commandType := command.command.commandType
  let current ← currentCheckpoint authority expected
  let session ← read
  if session.exitOnly = true ∧ commandType ≠ .stopPaperEngine then
    throw (.rejected "paper session is exit-only after safety engagement")
  else do
    if commandType = .startPaperEngine ∨ commandType = .submitTargetPortfolio then
      guardedPreflight current commandType
    else pure ()
    if (current = none) ≠ (commandType = .startPaperEngine) then
      reject "paper start authority is invalid" current.isSome
    else pure current

def exchangeCommand (raw : ReceivedCommand P) (command : PaperCommandFrame P) (expected : Sha256Hex) :
    SessionM P (NautilusCheckpointRecord P) := do
  let _ ← journalCall fun journal => journal.acceptCommand raw
  update fun session => { session with childEngaged := true }
  recordIntent authority raw expected
  let payloads ← askChecked (α := List (ResponsePayload P)) (.exchange raw)
  let record ← response authority checkpointSha256 payloads command expected
  update fun session => session.withState (.paper record.checkpoint.state)
  pure record

/-- What `execute` does with the answer of the child. -/
def settle (raw : ReceivedCommand P) (command : PaperCommandFrame P) (record : NautilusCheckpointRecord P) :
    SessionM P (NautilusSessionResult P) := do
  if command.command.commandType ≠ .stopPaperEngine then do
    recordStep authority raw record
    pure { state := .paper record.checkpoint.state, checkpoint := record }
  else do
    let code ← askChecked (α := ℤ) .closeInput
    demand (code = 0) "paper child did not stop cleanly"
    update fun session => { session with childEngaged := false }
    journalCall fun journal => journal.endOfInput P
    let (bound, receipts) ← durableResult record
    recordStep authority raw bound
    update fun session => session.withState (.paper .stopped)
    pure { state := .paper .stopped, checkpoint := bound, receipts := some receipts }

def execute (raw : ReceivedCommand P) (expected : Option Sha256Hex) : SessionM P (NautilusSessionResult P) := do
  let session ← read
  if session.state.Terminal then throw (.rejected "paper session is terminal")
  else
    match raw.frame with
    | .error _ => reject "paper command is invalid" (decide (session.state ≠ .paper .created))
    | .ok command =>
      handle (do
          let _ ← admission authority command expected
          let record ← exchangeCommand authority checkpointSha256 raw command (expected.getD zeroDigest)
          settle authority raw command record)
        fun e =>
          match e with
          | .rejected message => throw (.rejected message)
          | .raised message =>
            reject ((if "closure".toList <:+: message.toList then "closure" else "paper session") ++
              " authority is inconsistent") true

end NautilusPaperSession

end TradingAgent.Nautilus
