import TradingAgent.Lib.Transactions
import TradingAgent.OperatorControl.Policy

/-!
# The state store

`services/operator_control/state_store.py` on the primitives of `protected_fs.py`: the two source files, the tombstones
and what a recovery reads from them. A world also remembers the operations on its files.
-/

namespace TradingAgent.OperatorControl

open Outcome Transaction Transaction.Tx
open SafetySources (SourceFile parseMode parseKillSwitch parseSentinel)
open SecurityMaster (Sha256Text)

inductive Raised
  | rejected (rejection : OperatorCommandRejected)
  | recovery (code : String)
  | journal (message : String)
  | filesystem (message : String)
  | other

/-- The files under the data root. -/
structure DataRoot where
  (mode killSwitch : SourceFile)
  tombstones : Sha256Text → Option ByteArray
  (intents applied receipts : Sha256Text → Option String)

/-- `_digest(desired)` of the mode that is written. -/
def paperBytes : ByteArray := "paper\n".toUTF8

/-- An atomic change of a file. -/
inductive FileOperation
  | createIntent (text : String)
  | createApplied (text : String)
  | createReceipt (text : String)
  | setMode
  | createKillSwitch (raw : ByteArray)
  | buryKillSwitch (raw : ByteArray)

def FileOperation.apply (key : Sha256Text) (root : DataRoot) : FileOperation → DataRoot
  | .createIntent text => { root with intents := Function.update root.intents key (some text) }
  | .createApplied text => { root with applied := Function.update root.applied key (some text) }
  | .createReceipt text => { root with receipts := Function.update root.receipts key (some text) }
  | .setMode => { root with mode := .regular paperBytes }
  | .createKillSwitch raw => { root with killSwitch := .regular raw }
  | .buryKillSwitch raw =>
    { root with killSwitch := .absent, tombstones := Function.update root.tombstones key (some raw) }

/-- An operation with the files before it. -/
structure LogEntry where
  key : Sha256Text
  operation : FileOperation
  before : DataRoot

structure World where
  root : DataRoot
  log : List LogEntry

abbrev Action (α : Type) : Type := Tx World Raised α

def readRoot {α : Type} (f : DataRoot → Except Raised α) : Action α := read fun w => f w.root

def World.operated (w : World) (key : Sha256Text) (operation : FileOperation) : World where
  root := operation.apply key w.root
  log := w.log ++ [⟨key, operation, w.root⟩]

def operate (key : Sha256Text) (operation : FileOperation) : Action Unit := write fun w => w.operated key operation

def maxModeBytes : ℕ := 128

def maxKillSwitchBytes : ℕ := 1024

/-- `read_private_file` with `missing_ok` -/
def readPrivateFile (maxBytes : ℕ) : SourceFile → Except Raised (Option ByteArray)
  | .absent => .ok none
  | .irregular => .error (.filesystem "protected file metadata is unsafe")
  | .regular raw =>
    if maxBytes < raw.size then .error (.filesystem "protected file metadata is unsafe") else .ok (some raw)

variable (sha256 : ByteArray → Sha256Text)

/-- The payload of `read_state`; a file that cannot be read is `UNKNOWN`. -/
def sourcePayload (root : DataRoot) : SourcePayload :=
  let mode : JobWorker.SafetyMode × Option Sha256Text := match readPrivateFile maxModeBytes root.mode with
    | .error _ => (.unknown, none)
    | .ok raw => (parseMode raw, raw.map sha256)
  let kill : (CanonicalKillSwitchState × Option Instant × Option String) × Option Sha256Text :=
    match readPrivateFile maxKillSwitchBytes root.killSwitch with
    | .error _ => ((.unknown, none, none), none)
    | .ok raw => (parseKillSwitch raw, raw.map sha256)
  { requestedMode := mode.1
    killSwitchState := kill.1.1
    killSwitchActivatedAt := kill.1.2.1
    killSwitchReason := kill.1.2.2
    modeFileSha256 := mode.2
    killSwitchFileSha256 := kill.2 }

def readState (root : DataRoot) : OperatorSourceState :=
  { sourcePayload sha256 root with stateSha256 := sourceStateSha256 sha256 (sourcePayload sha256 root) }

/-- The checks of `replace_private_file`. -/
def checkTarget (maxBytes : ℕ) (file : SourceFile) (value : ByteArray) (expected : Option Sha256Text) :
    Except Raised Unit := do
  require (value.size ≤ maxBytes) (.filesystem "protected file exceeds size bound")
  let existing ← readPrivateFile maxBytes file
  match expected with
  | none => require (existing = none) (.filesystem "protected target unexpectedly exists")
  | some digest => require (existing.map sha256 = some digest) (.filesystem "protected target digest changed")

def applyMode (intent : CommandIntent) : Action OperatorSourceState := do
  let current ← readRoot fun root => .ok (readState sha256 root)
  check (intent.commandType = .setRequestedMode ∧ intent.desiredState = .paper ∧
      intent.desiredFileSha256 = some (sha256 paperBytes) ∧ current.stateSha256 = intent.priorStateSha256)
    (.filesystem "mode intent does not bind the current state")
  readRoot fun root => checkTarget sha256 maxModeBytes root.mode paperBytes current.modeFileSha256
  operate intent.idempotencyKeySha256 .setMode
  readRoot fun root => .ok (readState sha256 root)

/-- What `activate_kill_switch` checks of the bytes it is to write. -/
def BindsSentinel (intent : CommandIntent) (raw : ByteArray) : Prop :=
  ∃ activatedAt reason, parseSentinel raw = some (activatedAt, reason) ∧ activatedAt = intent.acceptedAt ∧
    intent.reasonSha256 = some (reasonSha256 sha256 reason)

instance (intent : CommandIntent) (raw : ByteArray) : Decidable (BindsSentinel sha256 intent raw) :=
  match h : parseSentinel raw with
  | none => .isFalse fun ⟨_, _, hparse, _⟩ => nomatch h.symm.trans hparse
  | some (activatedAt, reason) =>
    decidable_of_iff (activatedAt = intent.acceptedAt ∧ intent.reasonSha256 = some (reasonSha256 sha256 reason))
      ⟨fun hbinds => ⟨activatedAt, reason, h, hbinds⟩, fun ⟨_, _, hparse, hbinds⟩ => by
        rw [h] at hparse
        cases hparse
        exact hbinds⟩

def activateKillSwitch (intent : CommandIntent) (desiredBytes : ByteArray) : Action OperatorSourceState := do
  let current ← readRoot fun root => .ok (readState sha256 root)
  check (intent.commandType = .setKillSwitch ∧ intent.desiredState = .killSwitchActive ∧
      BindsSentinel sha256 intent desiredBytes ∧ intent.desiredFileSha256 = some (sha256 desiredBytes) ∧
      current.stateSha256 = intent.priorStateSha256 ∧ current.killSwitchState = .inactive)
    (.filesystem "activation intent does not bind exact bytes")
  readRoot fun root => checkTarget sha256 maxKillSwitchBytes root.killSwitch desiredBytes none
  operate intent.idempotencyKeySha256 (.createKillSwitch desiredBytes)
  readRoot fun root => .ok (readState sha256 root)

/-- The checks of `rename_private_file_noreplace`: the bytes that are to be renamed. -/
def checkRename (root : DataRoot) (key : Sha256Text) (expected : Sha256Text) : Except Raised ByteArray := do
  match ← readPrivateFile maxKillSwitchBytes root.killSwitch with
  | none => .error (.filesystem "protected file is missing")
  | some source => do
    require (sha256 source = expected) (.filesystem "protected source digest changed")
    require (root.tombstones key = none) (.filesystem "protected destination already exists")
    .ok source

/-- `clear_kill_switch`: the state and the digest of the tombstone. -/
def clearKillSwitch (intent : CommandIntent) : Action (OperatorSourceState × Sha256Text) := do
  let current ← readRoot fun root => .ok (readState sha256 root)
  let unbound : Raised := .filesystem "clear intent does not bind the active state"
  match current.killSwitchFileSha256 with
  | none => raise unbound
  | some digest => do
    check (intent.commandType = .setKillSwitch ∧ intent.desiredState = .killSwitchInactive ∧
      current.stateSha256 = intent.priorStateSha256 ∧ current.killSwitchState = .active ∧
      intent.desiredFileSha256 = some digest) unbound
    let raw ← readRoot fun root => checkRename sha256 root intent.idempotencyKeySha256 digest
    operate intent.idempotencyKeySha256 (.buryKillSwitch raw)
    let state ← readRoot fun root => .ok (readState sha256 root)
    pure (state, sha256 raw)

def tombstoneSha256 (root : DataRoot) (key : Sha256Text) : Except Raised (Option Sha256Text) := do
  let raw ← readPrivateFile maxKillSwitchBytes (match root.tombstones key with
    | none => .absent
    | some raw => .regular raw)
  .ok (raw.map sha256)

inductive RecoveryDisposition
  | retry
  | recovered (kind : ApplicationKind)

def classifyRecovery (intent : CommandIntent) (current : OperatorSourceState) (tombstone : Option Sha256Text) :
    Except Raised RecoveryDisposition :=
  if intent.desiredState = .killSwitchInactive then
    if tombstone ≠ none then
      if tombstone = intent.desiredFileSha256 ∧ current.killSwitchState = .inactive then
        .ok (.recovered .recoveredKillSwitchClear)
      else .error (.recovery "COMMAND_OUTCOME_UNKNOWN")
    else if current.stateSha256 = intent.priorStateSha256 then .ok .retry
    else .error (.recovery "COMMAND_OUTCOME_UNKNOWN")
  else if tombstone ≠ none then .error (.recovery "COMMAND_OUTCOME_UNKNOWN")
  else if current.stateSha256 = intent.priorStateSha256 then .ok .retry
  else if intent.desiredState = .paper ∧ current.modeFileSha256 = intent.desiredFileSha256 then
    .ok (.recovered .recoveredModeReplacement)
  else if intent.desiredState = .killSwitchActive ∧ current.killSwitchFileSha256 = intent.desiredFileSha256 then
    .ok (.recovered .recoveredKillSwitchCreate)
  else .error (.recovery "COMMAND_OUTCOME_UNKNOWN")

end TradingAgent.OperatorControl
