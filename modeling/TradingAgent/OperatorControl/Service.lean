import TradingAgent.OperatorControl.Journal

/-!
# The operator control service

`services/operator_control/service.py`: a command is journaled as an intent, changes a source file, is journaled as
applied and is answered by a receipt; a later call with its key goes on where the last one stopped.
-/

namespace TradingAgent.OperatorControl

open Outcome Transaction Transaction.Tx
open SecurityMaster (Sha256Text)

inductive Recheck
  | entry
  | intent
  | replay
  | mutation
  | applied
  | receipt

/-- A call of `execute`, with its readings of the clock and the answers of what it calls. -/
structure ExecuteCall where
  actor : OperatorActor
  request : SubmitOperatorCommand
  /-- `authority_recheck()` -/
  authority : Recheck → Except Raised Unit
  (acceptedAt decidedAt appliedAt completedAt : Instant)
  /-- `safety_provider()`, for the decision. -/
  safety : Except Raised OperatorSafetyEvidence
  /-- `safety_provider()`, before the change. -/
  fresh : Except Raised OperatorSafetyEvidence

variable (sha256 : ByteArray → Sha256Text)

def ExecuteCall.key (call : ExecuteCall) : Sha256Text := idempotencyKeySha256 sha256 call.request.idempotencyKey

def safetyFor (call : ExecuteCall) : Except Raised (Option OperatorSafetyEvidence) :=
  match call.request.command with
  | .clearKillSwitch => call.safety.map some
  | _ => .ok none

/-- `decide_operator_command` for a call. -/
def decideCall (call : ExecuteCall) (actor : OperatorActor) (current : OperatorSourceState) (acceptedAt : Instant)
    (safety : Option OperatorSafetyEvidence) : Except Raised OperatorMutationPlan :=
  (decideOperatorCommand sha256 actor call.request current acceptedAt safety).mapError Raised.rejected

def journalDesiredState : OperatorCommand → JournalDesiredState
  | .setRequestedMode _ => .paper
  | .activateKillSwitch _ => .killSwitchActive
  | .clearKillSwitch => .killSwitchInactive

def blankDigest : Sha256Text := ⟨String.ofList (List.replicate 64 '0'), by decide⟩

def makeIntent (call : ExecuteCall) (plan : OperatorMutationPlan) : CommandIntent :=
  let base : CommandIntent := {
    commandId := call.request.commandId
    idempotencyKeySha256 := call.key sha256
    correlationId := call.request.correlationId
    requestSha256 := plan.requestSha256
    actor := call.actor
    commandType := call.request.command.commandType
    desiredState := journalDesiredState call.request.command
    priorStateSha256 := plan.priorStateSha256
    expectedStateSha256 := plan.expectedStateSha256
    safetyEvidenceSha256 := plan.safetyEvidenceSha256
    reasonSha256 := plan.reasonSha256
    acceptedAt := call.acceptedAt
    desiredFileSha256 := plan.desiredFileSha256
    intentSha256 := blankDigest }
  { base with intentSha256 := journalSha256 sha256 intentKind.codec base intentKind.digestField }

def makeApplied (call : ExecuteCall) (intent : CommandIntent) (resulting : Sha256Text) (kind : ApplicationKind)
    (tombstone : Option Sha256Text) : Except Raised CommandApplied := do
  require ((intent.acceptedAt : ℤ) ≤ call.appliedAt) (.rejected ⟨"OPERATOR_CLOCK_INVALID", 503⟩)
  let base : CommandApplied := {
    intentSha256 := intent.intentSha256
    appliedAt := call.appliedAt
    applicationKind := kind
    resultingStateSha256 := resulting
    tombstoneSha256 := tombstone
    appliedSha256 := blankDigest }
  .ok { base with appliedSha256 := journalSha256 sha256 appliedKind.codec base appliedKind.digestField }

def outcomeCode (intent : CommandIntent) (applied : CommandApplied) : OutcomeCode :=
  if applied.applicationKind = .noChange then
    if intent.desiredState = .paper then .modeAlreadyPaper else .killSwitchAlreadyActive
  else
    match intent.desiredState with
    | .paper => .modeSetPaper
    | .killSwitchActive => .killSwitchActivated
    | .killSwitchInactive => .killSwitchCleared

def makeReceipt (call : ExecuteCall) (intent : CommandIntent) (applied : CommandApplied) : CommandReceipt :=
  let base : CommandReceipt := {
    commandId := intent.commandId
    idempotencyKeySha256 := intent.idempotencyKeySha256
    correlationId := intent.correlationId
    requestSha256 := intent.requestSha256
    actor := intent.actor
    commandType := intent.commandType
    desiredState := intent.desiredState
    priorStateSha256 := intent.priorStateSha256
    expectedStateSha256 := intent.expectedStateSha256
    safetyEvidenceSha256 := intent.safetyEvidenceSha256
    reasonSha256 := intent.reasonSha256
    acceptedAt := intent.acceptedAt
    appliedAt := applied.appliedAt
    completedAt := call.completedAt
    outcome := outcomeOf applied.applicationKind
    outcomeCode := outcomeCode intent applied
    resultingStateSha256 := applied.resultingStateSha256
    intentSha256 := intent.intentSha256
    appliedSha256 := applied.appliedSha256
    receiptSha256 := blankDigest }
  { base with receiptSha256 := journalSha256 sha256 receiptKind.codec base receiptKind.digestField }

/-- `_receipt` -/
def finish (call : ExecuteCall) (key : Sha256Text) (intent : CommandIntent) (applied : CommandApplied)
    (deduplicated : Bool) : Action CommandExecutionResult := do
  check ((applied.appliedAt : ℤ) ≤ call.completedAt) (.rejected ⟨"OPERATOR_CLOCK_INVALID", 503⟩)
  lift (call.authority .receipt)
  createReceipt sha256 (makeReceipt sha256 call intent applied)
  let final ← readRoot fun root => load sha256 root key
  match final.receipt with
  | none => raise (.recovery "COMMAND_OUTCOME_UNKNOWN")
  | some receipt => pure ⟨receipt, deduplicated⟩

/-- The intent has the digests of the plan. -/
def SamePlan (intent : CommandIntent) (plan : OperatorMutationPlan) : Prop :=
  plan.requestSha256 = intent.requestSha256 ∧ plan.priorStateSha256 = intent.priorStateSha256 ∧
    plan.expectedStateSha256 = intent.expectedStateSha256 ∧ plan.safetyEvidenceSha256 = intent.safetyEvidenceSha256 ∧
    plan.reasonSha256 = intent.reasonSha256 ∧ plan.desiredFileSha256 = intent.desiredFileSha256

instance (intent : CommandIntent) (plan : OperatorMutationPlan) : Decidable (SamePlan intent plan) :=
  inferInstanceAs (Decidable (_ ∧ _ ∧ _ ∧ _ ∧ _ ∧ _))

def requireSamePlan (intent : CommandIntent) (plan : OperatorMutationPlan) : Except Raised Unit :=
  require (SamePlan intent plan) (.recovery "COMMAND_OUTCOME_UNKNOWN")

/-- The second look of `_apply` at the safety evidence that an intent names. -/
def recheckSafety (call : ExecuteCall) (intent : CommandIntent) (current : OperatorSourceState) : Except Raised Unit :=
  match intent.safetyEvidenceSha256 with
  | none => .ok ()
  | some digest => do
    let fresh ← call.fresh
    require (fresh.evidenceSha256 = digest) (.rejected ⟨"SAFETY_EVIDENCE_CHANGED", 409⟩)
    let plan ← decideCall sha256 call intent.actor current call.decidedAt (some fresh)
    requireSamePlan intent plan

/-- The change that a plan asks for: the resulting state, the kind of application and the tombstone. -/
def mutate (intent : CommandIntent) (plan : OperatorMutationPlan) (current : OperatorSourceState) :
    Action (OperatorSourceState × ApplicationKind × Option Sha256Text) :=
  match plan.operation with
  | .noChange => pure (current, .noChange, none)
  | .writeMode => do
    let resulting ← applyMode sha256 intent
    pure (resulting, .modeReplaced, none)
  | .writeKillSwitch =>
    match plan.desiredKillSwitchBytes with
    | none => raise (.recovery "COMMAND_OUTCOME_UNKNOWN")
    | some raw => do
      let resulting ← activateKillSwitch sha256 intent raw
      pure (resulting, .killSwitchCreated, none)
  | .clearKillSwitch => do
    let (resulting, tombstone) ← clearKillSwitch sha256 intent
    pure (resulting, .killSwitchClearedToTombstone, some tombstone)

def apply (call : ExecuteCall) (key : Sha256Text) (intent : CommandIntent) (plan : OperatorMutationPlan)
    (deduplicated : Bool) : Action CommandExecutionResult := do
  let current ← readRoot fun root => .ok (readState sha256 root)
  lift (recheckSafety sha256 call intent current)
  check (current.stateSha256 = intent.priorStateSha256) (.recovery "COMMAND_OUTCOME_UNKNOWN")
  lift (call.authority .mutation)
  let (resulting, kind, tombstone) ← mutate sha256 intent plan current
  let applied ← lift (makeApplied sha256 call intent resulting.stateSha256 kind tombstone)
  lift (call.authority .applied)
  createApplied sha256 key applied
  finish sha256 call key intent applied deduplicated

/-- `_resume` of an intent that is not known to be applied. -/
def resumePending (call : ExecuteCall) (key : Sha256Text) (intent : CommandIntent) : Action CommandExecutionResult := do
  let current ← readRoot fun root => .ok (readState sha256 root)
  let tombstone ← readRoot fun root => tombstoneSha256 sha256 root key
  match ← lift (classifyRecovery intent current tombstone) with
  | .recovered kind => do
    let buried := if kind = .recoveredKillSwitchClear then tombstone else none
    let applied ← lift (makeApplied sha256 call intent current.stateSha256 kind buried)
    lift (call.authority .applied)
    createApplied sha256 key applied
    finish sha256 call key intent applied true
  | .retry => do
    let safety ← lift (safetyFor call)
    let plan ← lift (decideCall sha256 call intent.actor current intent.acceptedAt safety)
    lift (requireSamePlan intent plan)
    apply sha256 call key intent plan true

def resume (call : ExecuteCall) (key : Sha256Text) (intent : CommandIntent) (snapshot : JournalSnapshot) :
    Action CommandExecutionResult :=
  match snapshot.receipt, snapshot.applied with
  | some receipt, _ => do
    lift (call.authority .replay)
    pure ⟨receipt, true⟩
  | none, some applied => finish sha256 call key intent applied true
  | none, none => resumePending sha256 call key intent

def start (call : ExecuteCall) (key : Sha256Text) : Action CommandExecutionResult := do
  let current ← readRoot fun root => .ok (readState sha256 root)
  let safety ← lift (safetyFor call)
  let plan ← lift (decideCall sha256 call call.actor current call.acceptedAt safety)
  let intent := makeIntent sha256 call plan
  lift (call.authority .intent)
  createIntent sha256 intent
  apply sha256 call key intent plan false

/-- The part of `execute` under the lock of the journal. -/
def executeLocked (call : ExecuteCall) : Action CommandExecutionResult := do
  let key := call.key sha256
  let snapshot ← readRoot fun root => load sha256 root key
  match snapshot.intent with
  | some intent => do
    check (intent.requestSha256 = requestSha256 sha256 call.actor call.request)
      (.rejected ⟨"IDEMPOTENCY_CONFLICT", 409⟩)
    resume sha256 call key intent snapshot
  | none => start sha256 call key

def lockError : Raised → Raised
  | .filesystem _ => .journal "command journal lock is unsafe"
  | raised => raised

def execute (call : ExecuteCall) : Action CommandExecutionResult := do
  lift (call.authority .entry)
  (executeLocked sha256 call).mapError lockError

/-- Execute calls one after the other, each to its end or to a crash after some of its writes. -/
def run (w : World) (calls : List (ExecuteCall × Option ℕ)) : World :=
  calls.foldl (fun w c => (execute sha256 c.1).left w c.2) w

end TradingAgent.OperatorControl
