import TradingAgent.OperatorControl.StateStore

/-!
# The command journal

`services/operator_control/journal.py`: records that are created once and read back with all their relations.
-/

namespace TradingAgent.OperatorControl

open Outcome Transaction Transaction.Tx
open SecurityMaster (Sha256Text)

def maxJournalBytes : ℕ := 65536

structure JournalSnapshot where
  intent : Option CommandIntent
  applied : Option CommandApplied
  receipt : Option CommandReceipt

structure RecordKind (α : Type) where
  codec : Codec α
  digestField : String
  digest : α → Sha256Text

def intentKind : RecordKind CommandIntent := ⟨Documents.intent, "intent_sha256", CommandIntent.intentSha256⟩

def appliedKind : RecordKind CommandApplied := ⟨Documents.applied, "applied_sha256", CommandApplied.appliedSha256⟩

def receiptKind : RecordKind CommandReceipt := ⟨Documents.receipt, "receipt_sha256", CommandReceipt.receiptSha256⟩

def RecordKind.text {α : Type} (kind : RecordKind α) (model : α) : String := kind.codec.text model ++ "\n"

variable (sha256 : ByteArray → Sha256Text)

def DigestValid {α : Type} (kind : RecordKind α) (model : α) : Prop :=
  kind.digest model = journalSha256 sha256 kind.codec model kind.digestField

instance {α : Type} (kind : RecordKind α) (model : α) : Decidable (DigestValid sha256 kind model) :=
  inferInstanceAs (Decidable (_ = _))

/-- `_parse`, of a file of the accepted size. -/
def parseRecord {α : Type} (kind : RecordKind α) (raw : String) : Except Raised α := do
  let unsafe' : Raised := .journal "command journal record is unsafe"
  require (raw.utf8ByteSize ≤ maxJournalBytes) unsafe'
  require (raw.toList.getLast? = some '\n' ∧ raw.toList.count '\n' = 1) unsafe'
  match kind.codec.parse (String.ofList raw.toList.dropLast) with
  | none => .error unsafe'
  | some model => do
    require (DigestValid sha256 kind model) unsafe'
    require (kind.text model = raw) unsafe'
    .ok model

def loadRecord {α : Type} (kind : RecordKind α) (record : Option String) : Except Raised (Option α) :=
  match record with
  | none => .ok none
  | some raw => (parseRecord sha256 kind raw).map some

/-- What `_validate_intent` leaves of an intent. -/
def IntentValid (intent : CommandIntent) : Prop :=
  (intent.commandType = .setRequestedMode ∧ intent.desiredState = .paper ∧ intent.reasonSha256 = none ∧
      intent.safetyEvidenceSha256 = none ∨
    intent.commandType = .setKillSwitch ∧ intent.desiredState = .killSwitchActive ∧ intent.reasonSha256 ≠ none ∧
      intent.safetyEvidenceSha256 = none ∨
    intent.commandType = .setKillSwitch ∧ intent.desiredState = .killSwitchInactive ∧ intent.reasonSha256 = none ∧
      intent.safetyEvidenceSha256 ≠ none ∧ intent.expectedStateSha256 ≠ none) ∧
  intent.desiredFileSha256 ≠ none

instance (intent : CommandIntent) : Decidable (IntentValid intent) := inferInstanceAs (Decidable (_ ∧ _))

def validateIntent (intent : CommandIntent) : Except Raised Unit :=
  require (IntentValid intent) (.journal "command journal intent is unsafe")

def allowedKinds : JournalDesiredState → List ApplicationKind
  | .paper => [.noChange, .modeReplaced, .recoveredModeReplacement]
  | .killSwitchActive => [.noChange, .killSwitchCreated, .recoveredKillSwitchCreate]
  | .killSwitchInactive => [.killSwitchClearedToTombstone, .recoveredKillSwitchClear]

/-- `application_kind.startswith("RECOVERED_")` -/
def ApplicationKind.recovered : ApplicationKind → Bool
  | .recoveredModeReplacement | .recoveredKillSwitchCreate | .recoveredKillSwitchClear => true
  | _ => false

def outcomeOf (kind : ApplicationKind) : ReceiptOutcome :=
  if kind = .noChange then .noChange else if kind.recovered then .recoveredApplied else .applied

def expectedCode (intent : CommandIntent) (kind : ApplicationKind) : Option OutcomeCode :=
  if kind = .noChange then
    match intent.desiredState with
    | .paper => some .modeAlreadyPaper
    | .killSwitchActive => some .killSwitchAlreadyActive
    | .killSwitchInactive => none
  else
    match intent.desiredState with
    | .paper => some .modeSetPaper
    | .killSwitchActive => some .killSwitchActivated
    | .killSwitchInactive => some .killSwitchCleared

def AppliedFits (intent : CommandIntent) (applied : CommandApplied) : Prop :=
  applied.applicationKind ∈ allowedKinds intent.desiredState ∧
    (applied.tombstoneSha256 ≠ none ↔ intent.desiredState = .killSwitchInactive)

instance (intent : CommandIntent) (applied : CommandApplied) : Decidable (AppliedFits intent applied) :=
  inferInstanceAs (Decidable (_ ∧ _))

def ReceiptMirrors (intent : CommandIntent) (applied : CommandApplied) (receipt : CommandReceipt) : Prop :=
  receipt.commandId = intent.commandId ∧ receipt.idempotencyKeySha256 = intent.idempotencyKeySha256 ∧
    receipt.correlationId = intent.correlationId ∧ receipt.requestSha256 = intent.requestSha256 ∧
    receipt.actor = intent.actor ∧ receipt.commandType = intent.commandType ∧
    receipt.desiredState = intent.desiredState ∧ receipt.priorStateSha256 = intent.priorStateSha256 ∧
    receipt.expectedStateSha256 = intent.expectedStateSha256 ∧
    receipt.safetyEvidenceSha256 = intent.safetyEvidenceSha256 ∧ receipt.reasonSha256 = intent.reasonSha256 ∧
    receipt.acceptedAt = intent.acceptedAt ∧ receipt.intentSha256 = intent.intentSha256 ∧
    receipt.appliedSha256 = applied.appliedSha256 ∧ receipt.resultingStateSha256 = applied.resultingStateSha256 ∧
    receipt.appliedAt = applied.appliedAt ∧ (receipt.acceptedAt : ℤ) ≤ receipt.appliedAt ∧
    (receipt.appliedAt : ℤ) ≤ receipt.completedAt

instance (intent : CommandIntent) (applied : CommandApplied) (receipt : CommandReceipt) :
    Decidable (ReceiptMirrors intent applied receipt) :=
  inferInstanceAs (Decidable (_ ∧ _ ∧ _ ∧ _ ∧ _ ∧ _ ∧ _ ∧ _ ∧ _ ∧ _ ∧ _ ∧ _ ∧ _ ∧ _ ∧ _ ∧ _ ∧ _ ∧ _))

def validateRelations (snapshot : JournalSnapshot) : Except Raised Unit := do
  match snapshot.intent with
  | none => do
    require (snapshot.applied = none) (.journal "command journal is relationally unsafe")
    require (snapshot.receipt = none) (.journal "command journal is relationally unsafe")
  | some intent => do
    validateIntent intent
    match snapshot.applied with
    | none => require (snapshot.receipt = none) (.journal "command journal is relationally unsafe")
    | some applied => do
      require (applied.intentSha256 = intent.intentSha256) (.journal "command journal is relationally unsafe")
      require (AppliedFits intent applied) (.journal "command journal application is unsafe")
      match snapshot.receipt with
      | none => .ok ()
      | some receipt => do
        require (ReceiptMirrors intent applied receipt) (.journal "command journal is relationally unsafe")
        require (receipt.outcome = outcomeOf applied.applicationKind) (.journal "command journal outcome is unsafe")
        require (expectedCode intent applied.applicationKind = some receipt.outcomeCode)
          (.journal "command journal outcome code is unsafe")

def PathSafe (key : Sha256Text) (snapshot : JournalSnapshot) : Prop :=
  (∀ intent ∈ snapshot.intent, intent.idempotencyKeySha256 = key) ∧
    ∀ receipt ∈ snapshot.receipt, receipt.idempotencyKeySha256 = key

instance (key : Sha256Text) (snapshot : JournalSnapshot) : Decidable (PathSafe key snapshot) :=
  inferInstanceAs (Decidable (_ ∧ _))

def load (root : DataRoot) (key : Sha256Text) : Except Raised JournalSnapshot := do
  let intent ← loadRecord sha256 intentKind (root.intents key)
  let applied ← loadRecord sha256 appliedKind (root.applied key)
  let receipt ← loadRecord sha256 receiptKind (root.receipts key)
  let snapshot : JournalSnapshot := ⟨intent, applied, receipt⟩
  require (PathSafe key snapshot) (.journal "command journal record path is unsafe")
  validateRelations snapshot
  .ok snapshot

/-- The checks of `_create` and of `create_private_file`. -/
def checkCreate {α : Type} (kind : RecordKind α) (model : α) (existing : Option String) : Except Raised Unit := do
  require ((kind.text model).utf8ByteSize ≤ maxJournalBytes) (.journal "protected file exceeds size bound")
  require (existing = none) (.journal "protected file already exists")

def createIntent (intent : CommandIntent) : Action Unit := do
  check (DigestValid sha256 intentKind intent) (.journal "command journal digest is unsafe")
  lift (validateIntent intent)
  readRoot fun root => checkCreate intentKind intent (root.intents intent.idempotencyKeySha256)
  operate intent.idempotencyKeySha256 (.createIntent (intentKind.text intent))

def createApplied (key : Sha256Text) (applied : CommandApplied) : Action Unit := do
  check (DigestValid sha256 appliedKind applied) (.journal "command journal digest is unsafe")
  readRoot fun root => checkCreate appliedKind applied (root.applied key)
  operate key (.createApplied (appliedKind.text applied))

def createReceipt (receipt : CommandReceipt) : Action Unit := do
  check (DigestValid sha256 receiptKind receipt) (.journal "command journal digest is unsafe")
  readRoot fun root => checkCreate receiptKind receipt (root.receipts receipt.idempotencyKeySha256)
  operate receipt.idempotencyKeySha256 (.createReceipt (receiptKind.text receipt))

end TradingAgent.OperatorControl
