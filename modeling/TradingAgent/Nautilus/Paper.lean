import TradingAgent.Nautilus.StateMachine
import TradingAgent.Lib.Digits

/-!
# The paper session journal

`PaperSessionJournal` (`nautilus_runtime_contracts/paper.py`) and the exit-only rule for events of a stop command
(`paper_causality.py`). An operation returns the journal it leaves behind also when it raises. Frames arrive as bytes;
what parsing makes of them is given.
-/

namespace TradingAgent.Nautilus

open Outcome

def contextPrecision : ℕ := 28

/-- `sum(items, Decimal(0))` in the default context. -/
def decimalSum (items : List ℚ) : ℚ := items.foldl (fun total item => roundDigits contextPrecision (total + item)) 0

def signedQuantity (fill : Fill) : ℚ :=
  match fill.side with
  | .buy => fill.quantity
  | .sell => roundDigits contextPrecision (-fill.quantity)

section StopEventAllowed

variable (events : List P1Event)

def exitTargets : List Identifier :=
  events.filterMap fun event =>
    match event.body with
    | .targetAccepted target => if target.targetWeight = 0 then some target.targetId else none
    | _ => none

def exitOrders : Dict Identifier ℚ :=
  Dict.ofList (events.filterMap fun event =>
    match event.body with
    | .orderSubmitted order =>
      if order.targetId ∈ exitTargets events ∧ order.side = .sell then
        some (order.clientOrderId, (order.quantity : ℚ))
      else none
    | _ => none)

def openQuantity : ℚ := decimalSum ((events.filterMap P1Event.fill?).map signedQuantity)

def exitFills (orderId : Identifier) : ℚ :=
  decimalSum (((events.filterMap P1Event.fill?).filter fun fill => fill.clientOrderId = orderId).map
    fun fill => (fill.quantity : ℚ))

def reserved : ℚ :=
  decimalSum ((exitOrders events).map fun order =>
    roundDigits contextPrecision (order.2 - exitFills events order.1))

def StopEventAllowed (event : P1Event) : Prop :=
  match event.body with
  | .targetAccepted target => target.targetWeight = 0
  | .targetQuantityPlanned plan => plan.targetId ∈ exitTargets events
  | .orderSubmitted order =>
    order.targetId ∈ exitTargets events ∧ order.side = .sell ∧
      roundDigits contextPrecision (reserved events + order.quantity) ≤ openQuantity events
  | .fill fill =>
    ∃ quantity ∈ (exitOrders events).get? fill.clientOrderId, fill.side = .sell ∧
      fill.quantity ≤ openQuantity events ∧
        roundDigits contextPrecision (exitFills events fill.clientOrderId + fill.quantity) ≤ quantity
  | .positionObserved position => openQuantity events = position.quantity ∧ position.quantity = 0
  | .accountObserved _ => ∃ position ∈ events.getLast?.bind P1Event.positionObserved?, position.quantity = 0
  | .runCompleted _ =>
    openQuantity events = 0 ∧ (events.getLast?.bind P1Event.accountObserved?).isSome
  | .runStarted _ => False

instance (event : P1Event) : Decidable (StopEventAllowed events event) := by
  unfold StopEventAllowed
  cases event.body <;> infer_instance

end StopEventAllowed

inductive PaperSessionState
  | created
  | starting
  | running
  | stopping
  | stopped
  | failed
  | reconciliationRequired
  deriving DecidableEq

namespace PaperSessionState

def text : PaperSessionState → String
  | created => "CREATED"
  | starting => "STARTING"
  | running => "RUNNING"
  | stopping => "STOPPING"
  | stopped => "STOPPED"
  | failed => "FAILED"
  | reconciliationRequired => "RECONCILIATION_REQUIRED"

/-- `_TERMINAL_STATES` -/
def Terminal (state : PaperSessionState) : Prop :=
  state ∈ [stopped, failed, reconciliationRequired]

instance (state : PaperSessionState) : Decidable state.Terminal := inferInstanceAs (Decidable (_ ∈ _))

def transitions : PaperSessionState → List PaperSessionState
  | created => [failed, reconciliationRequired, starting]
  | starting => [failed, reconciliationRequired, running, stopping]
  | running => [failed, reconciliationRequired, stopping]
  | stopping => [failed, reconciliationRequired, stopped]
  | _ => []

end PaperSessionState

inductive PaperCommandName
  | startPaperEngine
  | submitTargetPortfolio
  | stopPaperEngine
  | inspectEngineRun
  | requestExecutionReconciliation
  deriving DecidableEq

/-- `PaperCommand`. The artifacts and the portfolio only enter the digest, by their canonical text. -/
inductive PaperCommand
  | startPaperEngine (artifacts : String)
  | submitTargetPortfolio (targetPortfolio : String)
  | stopPaperEngine (targetEngineRunId : Uuid)
  | inspectEngineRun (targetEngineRunId : Uuid)
  | requestExecutionReconciliation
  deriving DecidableEq

def PaperCommand.commandType : PaperCommand → PaperCommandName
  | startPaperEngine _ => .startPaperEngine
  | submitTargetPortfolio _ => .submitTargetPortfolio
  | stopPaperEngine _ => .stopPaperEngine
  | inspectEngineRun _ => .inspectEngineRun
  | requestExecutionReconciliation => .requestExecutionReconciliation

structure PaperProtocol where
  codec : EngineCodec
  /-- `payload_digest(command)` -/
  commandDigest : PaperCommand → Sha256Hex
  /-- `uuid5(session_id, "nautilus-paper-session-v2:command:…")` -/
  requestId : Uuid → ℕ → Uuid

variable (P : PaperProtocol)

def paperRequestId (sessionId : Uuid) (commandSequence : ℕ) : Except Failure Uuid := do
  require (0 < commandSequence) (.valueError "paper request identity inputs are invalid")
  .ok (P.requestId sessionId commandSequence)

@[ext] structure PaperCommandFrame where
  (sessionId ownerId requestId : Uuid)
  commandSequence : ℕ
  commandDigest : Sha256Hex
  command : PaperCommand
  positive : 0 < commandSequence
  request_matches : requestId = P.requestId sessionId commandSequence
  digest_matches : P.commandDigest command = commandDigest

instance : DecidableEq (PaperCommandFrame P) := fun _ _ => decidable_of_iff' _ PaperCommandFrame.ext_iff

structure PaperEventFrame where
  (sessionId ownerId requestId : Uuid)
  eventSequence : ℕ
  eventDigest : Sha256Hex
  event : P1Event
  sequence_matches : event.sequence = eventSequence
  digest_matches : TradingAgent.Nautilus.eventDigest P.codec event = eventDigest

@[ext] structure PaperCommandAcknowledgement where
  (sessionId ownerId requestId : Uuid)
  commandSequence : ℕ
  commandDigest : Sha256Hex
  state : PaperSessionState
  accepted : Bool
  reasonCode : String
  positive : 0 < commandSequence
  request_matches : requestId = P.requestId sessionId commandSequence
  coherent_verdict : accepted = decide (reasonCode = "ACCEPTED")

instance : DecidableEq (PaperCommandAcknowledgement P) := fun _ _ => decidable_of_iff' _ PaperCommandAcknowledgement.ext_iff

/-- The bytes of a frame: their SHA-256 and what parsing makes of them. -/
structure Received (Frame : Type) where
  sha256 : Sha256Hex
  frame : Except Failure Frame

/-- The bytes of a command frame; before parsing, `accept_command` reads the request id of the canonical JSON
object. -/
structure ReceivedCommand extends Received (PaperCommandFrame P) where
  requestId : Except Failure (Option Uuid)
  requestId_of_frame : ∀ f, frame = .ok f → requestId = .ok (some f.requestId)

structure AcceptedCommand where
  frameSha256 : Sha256Hex
  sequence : ℕ
  digest : Sha256Hex
  commandType : PaperCommandName
  expectedAckState : PaperSessionState

def zeroDigest : Sha256Hex :=
  ⟨"0000000000000000000000000000000000000000000000000000000000000000", by decide +kernel⟩

/-- The state of a session's journal. -/
@[ext] structure PaperSessionJournal where
  sessionId : Uuid
  ownerId : Uuid
  state : PaperSessionState := .created
  lastAcceptedCommand : ℕ := 0
  lastCommandDigest : Sha256Hex := zeroDigest
  lastEmittedEvent : ℕ := 0
  lastEventDigest : Sha256Hex := zeroDigest
  lastAcknowledgedCommand : ℕ := 0
  lastAcknowledgementSha256 : Sha256Hex := zeroDigest
  semanticStateHash : Sha256Hex := zeroDigest
  requests : Dict Uuid AcceptedCommand := []
  events : List P1Event := []

namespace PaperSessionJournal

abbrev Attempt := Except (Failure × PaperSessionJournal)

def Attempt.journal {α : Type} : Attempt (α × PaperSessionJournal) → PaperSessionJournal
  | .ok (_, j) => j
  | .error (_, j) => j

def withState (j : PaperSessionJournal) (state : PaperSessionState) : PaperSessionJournal :=
  { j with state := state }

def Identity (j : PaperSessionJournal) (sessionId ownerId : Uuid) : Prop :=
  sessionId = j.sessionId ∧ ownerId = j.ownerId

instance (j : PaperSessionJournal) (sessionId ownerId : Uuid) : Decidable (j.Identity sessionId ownerId) :=
  inferInstanceAs (Decidable (_ ∧ _))

def validateCommandState (j : PaperSessionJournal) (command : PaperCommand) :
    Except Failure PaperSessionState :=
  match command with
  | .startPaperEngine _ => do
    require (j.state = .created) (.valueError ("StartPaperEngine not accepted in " ++ j.state.text))
    .ok .starting
  | .submitTargetPortfolio _ => do
    require (j.state = .running) (.valueError ("SubmitTargetPortfolio not accepted in " ++ j.state.text))
    .ok j.state
  | .stopPaperEngine target => do
    require (target = j.sessionId) (.valueError "paper command target does not match session")
    require (j.state = .running) (.valueError ("StopPaperEngine not accepted in " ++ j.state.text))
    .ok .stopping
  | .inspectEngineRun target => do
    require (target = j.sessionId) (.valueError "paper command target does not match session")
    .ok j.state
  | .requestExecutionReconciliation => .ok j.state

def expectedAckState (commandType : PaperCommandName) (state : PaperSessionState) : PaperSessionState :=
  if commandType = .startPaperEngine then .running else state

/-- The check of `accept_command` that the request is new. -/
def checkNewRequest (j : PaperSessionJournal) (requestId : Option Uuid) (sha256 : Sha256Hex) :
    Except Failure Unit :=
  match requestId.bind j.requests.get? with
  | some known =>
    if known.frameSha256 ≠ sha256 then .error (.valueError "paper request replay used changed bytes")
    else .error (.valueError "duplicate request")
  | none => .ok ()

def recordCommand (j : PaperSessionJournal) (sha256 : Sha256Hex) (frame : PaperCommandFrame P)
    (state : PaperSessionState) : PaperSessionJournal :=
  { j with
    state := state
    requests := j.requests.set frame.requestId
      { frameSha256 := sha256
        sequence := frame.commandSequence
        digest := frame.commandDigest
        commandType := frame.command.commandType
        expectedAckState := expectedAckState frame.command.commandType state }
    lastAcceptedCommand := frame.commandSequence
    lastCommandDigest := frame.commandDigest }

variable {P}

def acceptCommand (j : PaperSessionJournal) (raw : ReceivedCommand P) :
    Attempt (PaperCommandFrame P × PaperSessionJournal) := do
  let requestId ← raw.requestId.mapError (·, j)
  (j.checkNewRequest requestId raw.sha256).mapError (·, j)
  let frame ← raw.frame.mapError (·, j)
  require (j.Identity frame.sessionId frame.ownerId)
    (.valueError "paper session identity or owner does not match", j)
  require (¬ j.state.Terminal) (.valueError "paper command rejected in terminal session state", j)
  require (j.lastAcknowledgedCommand = j.lastAcceptedCommand)
    (.valueError "previous paper command is not acknowledged", j)
  require (frame.commandSequence = j.lastAcceptedCommand + 1)
    (.valueError "paper command sequence gap", j.withState .reconciliationRequired)
  let state ← (j.validateCommandState frame.command).mapError (·, j)
  .ok (frame, j.recordCommand P raw.sha256 frame state)

/-- The kinds of events that a command other than `StopPaperEngine` may cause. -/
def CausedBy (commandType : PaperCommandName) (event : P1Event) : Prop :=
  match event.body with
  | .runStarted _ => commandType = .startPaperEngine
  | .runCompleted _ => False
  | _ => commandType = .submitTargetPortfolio

instance (commandType : PaperCommandName) (event : P1Event) : Decidable (CausedBy commandType event) := by
  unfold CausedBy
  cases event.body <;> infer_instance

/-- `allowed` of `record_event` -/
def EventAllowed (j : PaperSessionJournal) (commandType : PaperCommandName) (event : P1Event) : Prop :=
  if commandType = .stopPaperEngine then StopEventAllowed j.events event else CausedBy commandType event

instance (j : PaperSessionJournal) (commandType : PaperCommandName) (event : P1Event) :
    Decidable (j.EventAllowed commandType event) := by
  unfold EventAllowed
  infer_instance

/-- The event sequence that `record_event` expects. -/
def expectedEvent (j : PaperSessionJournal) : ℕ := if j.lastEmittedEvent = 0 then 2 else j.lastEmittedEvent + 1

def appendEvent (j : PaperSessionJournal) (frame : PaperEventFrame P) : PaperSessionJournal :=
  { j with
    lastEmittedEvent := frame.eventSequence
    lastEventDigest := frame.eventDigest
    events := j.events ++ [frame.event] }

def recordEvent (j : PaperSessionJournal) (raw : Except Failure (PaperEventFrame P)) :
    Attempt (PaperEventFrame P × PaperSessionJournal) := do
  let frame ← raw.mapError (·, j)
  require (j.Identity frame.sessionId frame.ownerId)
    (.valueError "paper session identity or owner does not match", j)
  require (j.state ≠ .created) (.valueError "paper event requires a started session", j)
  require (¬ j.state.Terminal) (.valueError "paper event rejected in terminal session state", j)
  match j.requests.get? frame.requestId with
  | none => .error (.valueError "paper event causal request was not accepted", j)
  | some request => do
    require (frame.eventSequence = j.expectedEvent)
      (.valueError "paper event sequence gap", j.withState .reconciliationRequired)
    require (j.lastEmittedEvent = 0 → frame.event.runStarted?.isSome)
      (.valueError "paper event stream must begin with P1 RunStarted", j.withState .reconciliationRequired)
    require (j.lastEmittedEvent ≠ 0 → ¬ frame.event.runStarted?.isSome)
      (.valueError "paper event stream contains duplicate RunStarted", j.withState .reconciliationRequired)
    require (j.EventAllowed request.commandType frame.event)
      (.valueError "paper command/event causality is invalid", j.withState .reconciliationRequired)
    .ok (frame, j.appendEvent frame)

/-- `transition`: the state after it. -/
def transition (j : PaperSessionJournal) (state : PaperSessionState) : Except Failure PaperSessionState := do
  require (state ∈ j.state.transitions)
    (.valueError ("invalid paper session transition: " ++ j.state.text ++ "->" ++ state.text))
  .ok state

def acknowledgedState (j : PaperSessionJournal) (command : AcceptedCommand)
    (acknowledgement : PaperCommandAcknowledgement P) : Except Failure PaperSessionState :=
  if acknowledgement.accepted then do
    require (acknowledgement.state = command.expectedAckState)
      (.valueError "paper acknowledgement state is invalid for command")
    if acknowledgement.state = j.state then .ok j.state else j.transition acknowledgement.state
  else do
    require (acknowledgement.state = .failed ∨ acknowledgement.state = .reconciliationRequired)
      (.valueError "rejected paper acknowledgement state is invalid")
    j.transition acknowledgement.state

def recordAck (j : PaperSessionJournal) (raw : Received (PaperCommandAcknowledgement P)) :
    Attempt (PaperCommandAcknowledgement P × PaperSessionJournal) := do
  let acknowledgement ← raw.frame.mapError (·, j)
  require (j.Identity acknowledgement.sessionId acknowledgement.ownerId)
    (.valueError "paper session identity or owner does not match", j)
  match j.requests.get? acknowledgement.requestId with
  | none => .error (.valueError "paper acknowledgement does not match an accepted command", j)
  | some command => do
    require (command.sequence = acknowledgement.commandSequence ∧
        command.digest = acknowledgement.commandDigest)
      (.valueError "paper acknowledgement does not match an accepted command", j)
    require (j.lastAcknowledgedCommand < acknowledgement.commandSequence)
      (.valueError "duplicate paper acknowledgement", j)
    require (acknowledgement.commandSequence = j.lastAcknowledgedCommand + 1)
      (.valueError "paper acknowledgement sequence gap", j.withState .reconciliationRequired)
    let state ← (j.acknowledgedState command acknowledgement).mapError (·, j)
    .ok (acknowledgement,
      { j with
        state := state
        lastAcknowledgedCommand := acknowledgement.commandSequence
        lastAcknowledgementSha256 := raw.sha256 })

variable (P)

def StopAcknowledged (j : PaperSessionJournal) (lastRequestId : Uuid) : Prop :=
  j.state = .stopping ∧
    (j.requests.get? lastRequestId).map AcceptedCommand.commandType = some .stopPaperEngine ∧
    j.lastAcknowledgedCommand = j.lastAcceptedCommand

instance (j : PaperSessionJournal) (lastRequestId : Uuid) : Decidable (j.StopAcknowledged lastRequestId) :=
  inferInstanceAs (Decidable (_ ∧ _ ∧ _))

def endOfInput (j : PaperSessionJournal) : Attempt (Unit × PaperSessionJournal) := do
  let lastRequestId ← (paperRequestId P j.sessionId j.lastAcceptedCommand).mapError (·, j)
  require (j.StopAcknowledged lastRequestId)
    (.valueError "paper EOF requires an acknowledged stop command",
      if j.state.Terminal then j else j.withState .reconciliationRequired)
  let _ ← (validateEventStream P.codec j.events).mapError fun _ =>
    (.valueError "paper EOF requires a complete P1 event stream", j.withState .reconciliationRequired)
  .ok ((), j.withState .stopped)

end PaperSessionJournal

end TradingAgent.Nautilus
