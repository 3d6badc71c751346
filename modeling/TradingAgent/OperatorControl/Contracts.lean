import TradingAgent.SafetySources.Readers
import TradingAgent.SecurityMaster.Documents

/-!
# Contracts of operator commands

The models of `packages/operator_control/contracts.py`, the canonical JSON of those that are hashed or stored, and the
digests of `hashing.py`. SHA-256 is a parameter.
-/

namespace TradingAgent.OperatorControl

open JobWorker (SafetyMode)
open JobPlane (isHexChar isIdentity isSha256 formatted)
open Json (PrintableText)
open SecurityMaster (Sha256Text printable_of_isHexChar printable_of_formatted printable_of_isAlphanum printable_or)

/-! ## Scalars -/

/-- `^cmd_[0-9a-f]{32}$` -/
def isCommandId (text : String) : Bool :=
  decide (text.toList.take 4 = "cmd_".toList ∧ text.length = 36) && (text.toList.drop 4).all isHexChar

abbrev CommandId : Type := {s : String // isCommandId s = true}

/-- `ProducerIdentity` -/
abbrev Identity : Type := {s : String // isIdentity s = true}

variable {s : String}

theorem printable_of_isCommandId (h : isCommandId s = true) : PrintableText s ∧ s.length ≤ 36 := by
  simp only [isCommandId, Bool.and_eq_true, decide_eq_true_eq, List.all_eq_true] at h
  refine ⟨fun c hc => ?_, h.1.2.le⟩
  rw [← List.take_append_drop 4 s.toList, List.mem_append, h.1.1] at hc
  rcases hc with hc | hc
  · have hstart : ("cmd_".toList.all fun c => 32 ≤ c.toNat ∧ c.toNat ≤ 126) = true := by decide
    exact of_decide_eq_true (List.all_eq_true.1 hstart c hc)
  · exact printable_of_isHexChar (h.2 c hc)

theorem printable_of_isIdentity (h : isIdentity s = true) : PrintableText s ∧ s.length ≤ 128 := by
  refine printable_of_formatted printable_of_isAlphanum (fun {c} hc => ?_) h
  simp only [JobPlane.isNameChar] at hc
  exact printable_or (printable_or (printable_or (printable_or printable_of_isAlphanum (by decide)) (by decide))
    (by decide)) (by decide) hc

inductive InterfaceKind
  | web
  | cli
  deriving DecidableEq

inductive RequestedMode
  | paper
  | dryrun
  | live
  deriving DecidableEq

inductive JournalDesiredState
  | paper
  | killSwitchActive
  | killSwitchInactive
  deriving DecidableEq

inductive CommandType
  | setRequestedMode
  | setKillSwitch
  deriving DecidableEq

inductive ApplicationKind
  | noChange
  | modeReplaced
  | killSwitchCreated
  | killSwitchClearedToTombstone
  | recoveredModeReplacement
  | recoveredKillSwitchCreate
  | recoveredKillSwitchClear
  deriving DecidableEq

inductive ReceiptOutcome
  | applied
  | noChange
  | recoveredApplied
  deriving DecidableEq

inductive OutcomeCode
  | modeAlreadyPaper
  | modeSetPaper
  | killSwitchAlreadyActive
  | killSwitchActivated
  | killSwitchCleared
  deriving DecidableEq

def InterfaceKind.value : InterfaceKind → String
  | .web => "WEB"
  | .cli => "CLI"

def RequestedMode.value : RequestedMode → String
  | .paper => "PAPER"
  | .dryrun => "DRYRUN"
  | .live => "LIVE"

def JournalDesiredState.value : JournalDesiredState → String
  | .paper => "PAPER"
  | .killSwitchActive => "KILL_SWITCH_ACTIVE"
  | .killSwitchInactive => "KILL_SWITCH_INACTIVE"

def CommandType.value : CommandType → String
  | .setRequestedMode => "SET_REQUESTED_MODE"
  | .setKillSwitch => "SET_KILL_SWITCH"

def ApplicationKind.value : ApplicationKind → String
  | .noChange => "NO_CHANGE"
  | .modeReplaced => "MODE_REPLACED"
  | .killSwitchCreated => "KILL_SWITCH_CREATED"
  | .killSwitchClearedToTombstone => "KILL_SWITCH_CLEARED_TO_TOMBSTONE"
  | .recoveredModeReplacement => "RECOVERED_MODE_REPLACEMENT"
  | .recoveredKillSwitchCreate => "RECOVERED_KILL_SWITCH_CREATE"
  | .recoveredKillSwitchClear => "RECOVERED_KILL_SWITCH_CLEAR"

def ReceiptOutcome.value : ReceiptOutcome → String
  | .applied => "APPLIED"
  | .noChange => "NO_CHANGE"
  | .recoveredApplied => "RECOVERED_APPLIED"

def OutcomeCode.value : OutcomeCode → String
  | .modeAlreadyPaper => "MODE_ALREADY_PAPER"
  | .modeSetPaper => "MODE_SET_PAPER"
  | .killSwitchAlreadyActive => "KILL_SWITCH_ALREADY_ACTIVE"
  | .killSwitchActivated => "KILL_SWITCH_ACTIVATED"
  | .killSwitchCleared => "KILL_SWITCH_CLEARED"

/-- The value of a `SourceMode`. -/
def modeValue : SafetyMode → String
  | .paper => "PAPER"
  | .dryrun => "DRYRUN"
  | .live => "LIVE"
  | .unknown => "UNKNOWN"

/-- The value of a `KillSwitchSourceState`. -/
def killSwitchValue : CanonicalKillSwitchState → String
  | .active => "ACTIVE"
  | .inactive => "INACTIVE"
  | .unknown => "UNKNOWN"

/-! ## Commands -/

def maxKillSwitchReasonBytes : ℕ := 994

/-- What `SetKillSwitchV1._validate_reason` leaves of a reason. -/
def ReasonAdmitted (reason : String) : Prop :=
  PyText.strip reason.toList = reason.toList ∧ 1 ≤ reason.length ∧ reason.length ≤ 256 ∧
    reason.utf8ByteSize ≤ maxKillSwitchReasonBytes ∧ '\n' ∉ reason.toList ∧ '\r' ∉ reason.toList

instance (reason : String) : Decidable (ReasonAdmitted reason) := inferInstanceAs (Decidable (_ ∧ _ ∧ _ ∧ _ ∧ _ ∧ _))

abbrev Reason : Type := {reason : String // ReasonAdmitted reason}

structure OperatorActor where
  principalId : Identity
  interface : InterfaceKind
  deriving DecidableEq

/-- `OperatorCommand`: `SetRequestedModeV1`, or `SetKillSwitchV1`, which has a reason exactly when it activates. -/
inductive OperatorCommand
  | setRequestedMode (desiredMode : RequestedMode)
  | activateKillSwitch (reason : Reason)
  | clearKillSwitch

structure SubmitOperatorCommand where
  commandId : CommandId
  (idempotencyKey correlationId : Identity)
  expectedStateSha256 : Option Sha256Text
  command : OperatorCommand

def OperatorCommand.commandType : OperatorCommand → CommandType
  | .setRequestedMode _ => .setRequestedMode
  | _ => .setKillSwitch

/-! ## States and evidence -/

/-- What `read_state` hashes. -/
structure SourcePayload where
  requestedMode : SafetyMode
  killSwitchState : CanonicalKillSwitchState
  killSwitchActivatedAt : Option Instant
  killSwitchReason : Option String
  (modeFileSha256 killSwitchFileSha256 : Option Sha256Text)
  deriving DecidableEq

structure OperatorSourceState extends SourcePayload where
  stateSha256 : Sha256Text

/-- `OperatorSafetyEvidenceV1`. Nothing reads the source fingerprint. -/
structure OperatorSafetyEvidence where
  (requestedMode effectiveMode : SafetyMode)
  (liveExecutionEnabled liveTradingApproved : Option Bool)
  killSwitchState : CanonicalKillSwitchState
  observedAt : Instant
  evidenceSha256 : Sha256Text

/-! ## Journal records -/

structure CommandIntent where
  commandId : CommandId
  idempotencyKeySha256 : Sha256Text
  correlationId : Identity
  requestSha256 : Sha256Text
  actor : OperatorActor
  commandType : CommandType
  desiredState : JournalDesiredState
  priorStateSha256 : Sha256Text
  (expectedStateSha256 safetyEvidenceSha256 reasonSha256 : Option Sha256Text)
  acceptedAt : Instant
  desiredFileSha256 : Option Sha256Text
  intentSha256 : Sha256Text

structure CommandApplied where
  intentSha256 : Sha256Text
  appliedAt : Instant
  applicationKind : ApplicationKind
  resultingStateSha256 : Sha256Text
  tombstoneSha256 : Option Sha256Text
  appliedSha256 : Sha256Text

structure CommandReceipt where
  commandId : CommandId
  idempotencyKeySha256 : Sha256Text
  correlationId : Identity
  requestSha256 : Sha256Text
  actor : OperatorActor
  commandType : CommandType
  desiredState : JournalDesiredState
  priorStateSha256 : Sha256Text
  (expectedStateSha256 safetyEvidenceSha256 reasonSha256 : Option Sha256Text)
  (acceptedAt appliedAt completedAt : Instant)
  outcome : ReceiptOutcome
  outcomeCode : OutcomeCode
  (resultingStateSha256 intentSha256 appliedSha256 receiptSha256 : Sha256Text)

structure CommandExecutionResult where
  receipt : CommandReceipt
  deduplicated : Bool

/-! ## Canonical JSON -/

namespace Documents

open SecurityMaster.Documents (sha256 instant)

def identity : Codec Identity := Codec.matching _ 128 fun _ => printable_of_isIdentity

def commandId : Codec CommandId := Codec.matching _ 36 fun _ => printable_of_isCommandId

/-- `Sha256Hex | None` -/
def optionalSha256 : Codec (Option Sha256Text) := sha256.nullable fun _ => Json.noConfusion

def interface : Codec InterfaceKind :=
  Codec.enum [.web, .cli] InterfaceKind.value 3 (by intro a; cases a <;> decide) (by decide) (by decide)

def commandType : Codec CommandType :=
  Codec.enum [.setRequestedMode, .setKillSwitch] CommandType.value 18 (by intro a; cases a <;> decide) (by decide)
    (by decide)

def desiredState : Codec JournalDesiredState :=
  Codec.enum [.paper, .killSwitchActive, .killSwitchInactive] JournalDesiredState.value 20
    (by intro a; cases a <;> decide) (by decide) (by decide)

def applicationKind : Codec ApplicationKind :=
  Codec.enum [.noChange, .modeReplaced, .killSwitchCreated, .killSwitchClearedToTombstone, .recoveredModeReplacement,
    .recoveredKillSwitchCreate, .recoveredKillSwitchClear] ApplicationKind.value 32
    (by intro a; cases a <;> decide) (by decide) (by decide)

def outcome : Codec ReceiptOutcome :=
  Codec.enum [.applied, .noChange, .recoveredApplied] ReceiptOutcome.value 17 (by intro a; cases a <;> decide)
    (by decide) (by decide)

def outcomeCode : Codec OutcomeCode :=
  Codec.enum [.modeAlreadyPaper, .modeSetPaper, .killSwitchAlreadyActive, .killSwitchActivated, .killSwitchCleared]
    OutcomeCode.value 26 (by intro a; cases a <;> decide) (by decide) (by decide)

theorem printable_schema_version : Json.PrintableText "schema_version" := by decide

def actorFields : Fields (InterfaceKind × Identity × Unit × Unit) :=
  .cons "interface" (by decide) interface <|
  .cons "principal_id" (by decide) identity <|
  .cons "schema_version" printable_schema_version (Codec.literal "operator-actor-v1" (by decide)) .nil

def actor : Codec OperatorActor :=
  (actorFields.object (by decide)).refine (fun (i, p, (), ()) => some ⟨p, i⟩)
    (fun a => (a.interface, a.principalId, (), ())) (fun _ => rfl) (by rintro _ _ ⟨⟩; rfl)

def intentFields : Fields (Instant × OperatorActor × CommandId × CommandType × Identity × Option Sha256Text ×
    JournalDesiredState × Option Sha256Text × Sha256Text × Sha256Text × Sha256Text × Option Sha256Text × Sha256Text ×
    Option Sha256Text × Unit × Unit) :=
  .cons "accepted_at" (by decide) instant <|
  .cons "actor" (by decide) actor <|
  .cons "command_id" (by decide) commandId <|
  .cons "command_type" (by decide) commandType <|
  .cons "correlation_id" (by decide) identity <|
  .cons "desired_file_sha256" (by decide) optionalSha256 <|
  .cons "desired_state" (by decide) desiredState <|
  .cons "expected_state_sha256" (by decide) optionalSha256 <|
  .cons "idempotency_key_sha256" (by decide) sha256 <|
  .cons "intent_sha256" (by decide) sha256 <|
  .cons "prior_state_sha256" (by decide) sha256 <|
  .cons "reason_sha256" (by decide) optionalSha256 <|
  .cons "request_sha256" (by decide) sha256 <|
  .cons "safety_evidence_sha256" (by decide) optionalSha256 <|
  .cons "schema_version" printable_schema_version (Codec.literal "operator-command-intent-v1" (by decide)) .nil

def intent : Codec CommandIntent :=
  (intentFields.object (by decide)).refine
    (fun (at', a, c, t, r, f, d, e, k, i, p, n, q, s, (), ()) => some ⟨c, k, r, q, a, t, d, p, e, s, n, at', f, i⟩)
    (fun i => (i.acceptedAt, i.actor, i.commandId, i.commandType, i.correlationId, i.desiredFileSha256, i.desiredState,
      i.expectedStateSha256, i.idempotencyKeySha256, i.intentSha256, i.priorStateSha256, i.reasonSha256,
      i.requestSha256, i.safetyEvidenceSha256, (), ())) (fun _ => rfl) (by rintro _ _ ⟨⟩; rfl)

def appliedFields : Fields (ApplicationKind × Instant × Sha256Text × Sha256Text × Sha256Text × Unit ×
    Option Sha256Text × Unit) :=
  .cons "application_kind" (by decide) applicationKind <|
  .cons "applied_at" (by decide) instant <|
  .cons "applied_sha256" (by decide) sha256 <|
  .cons "intent_sha256" (by decide) sha256 <|
  .cons "resulting_state_sha256" (by decide) sha256 <|
  .cons "schema_version" printable_schema_version (Codec.literal "operator-command-applied-v1" (by decide)) <|
  .cons "tombstone_sha256" (by decide) optionalSha256 .nil

def applied : Codec CommandApplied :=
  (appliedFields.object (by decide)).refine (fun (k, t, a, i, r, (), s, ()) => some ⟨i, t, k, r, s, a⟩)
    (fun a => (a.applicationKind, a.appliedAt, a.appliedSha256, a.intentSha256, a.resultingStateSha256, (),
      a.tombstoneSha256, ())) (fun _ => rfl) (by rintro _ _ ⟨⟩; rfl)

def receiptFields : Fields (Instant × OperatorActor × Instant × Sha256Text × CommandId × CommandType × Instant ×
    Identity × JournalDesiredState × Option Sha256Text × Sha256Text × Sha256Text × ReceiptOutcome × OutcomeCode ×
    Sha256Text × Option Sha256Text × Sha256Text × Sha256Text × Sha256Text × Option Sha256Text × Unit × Unit) :=
  .cons "accepted_at" (by decide) instant <|
  .cons "actor" (by decide) actor <|
  .cons "applied_at" (by decide) instant <|
  .cons "applied_sha256" (by decide) sha256 <|
  .cons "command_id" (by decide) commandId <|
  .cons "command_type" (by decide) commandType <|
  .cons "completed_at" (by decide) instant <|
  .cons "correlation_id" (by decide) identity <|
  .cons "desired_state" (by decide) desiredState <|
  .cons "expected_state_sha256" (by decide) optionalSha256 <|
  .cons "idempotency_key_sha256" (by decide) sha256 <|
  .cons "intent_sha256" (by decide) sha256 <|
  .cons "outcome" (by decide) outcome <|
  .cons "outcome_code" (by decide) outcomeCode <|
  .cons "prior_state_sha256" (by decide) sha256 <|
  .cons "reason_sha256" (by decide) optionalSha256 <|
  .cons "receipt_sha256" (by decide) sha256 <|
  .cons "request_sha256" (by decide) sha256 <|
  .cons "resulting_state_sha256" (by decide) sha256 <|
  .cons "safety_evidence_sha256" (by decide) optionalSha256 <|
  .cons "schema_version" printable_schema_version (Codec.literal "operator-command-receipt-v1" (by decide)) .nil

def receipt : Codec CommandReceipt :=
  (receiptFields.object (by decide)).refine
    (fun (at', a, pt, p, c, t, ct, r, d, e, k, i, o, oc, ps, n, rs, q, res, s, (), ()) =>
      some ⟨c, k, r, q, a, t, d, ps, e, s, n, at', pt, ct, o, oc, res, i, p, rs⟩)
    (fun r => (r.acceptedAt, r.actor, r.appliedAt, r.appliedSha256, r.commandId, r.commandType, r.completedAt,
      r.correlationId, r.desiredState, r.expectedStateSha256, r.idempotencyKeySha256, r.intentSha256, r.outcome,
      r.outcomeCode, r.priorStateSha256, r.reasonSha256, r.receiptSha256, r.requestSha256, r.resultingStateSha256,
      r.safetyEvidenceSha256, (), ())) (fun _ => rfl) (by rintro _ _ ⟨⟩; rfl)

end Documents

/-! ## Digests -/

variable (sha256 : ByteArray → Sha256Text)

/-- `_digest` of `hashing.py` -/
def digestJson (value : Json) : Sha256Text := sha256 (String.ofList (Json.dumps value)).toUTF8

def optionalString : Option String → Json
  | none => .null
  | some s => .str s

def OperatorCommand.toJson : OperatorCommand → Json
  | .setRequestedMode desired =>
    .obj [("command_type", .str "SET_REQUESTED_MODE"), ("desired_mode", .str desired.value)]
  | .activateKillSwitch reason =>
    .obj [("command_type", .str "SET_KILL_SWITCH"), ("desired_state", .str "ACTIVE"), ("reason", .str reason)]
  | .clearKillSwitch =>
    .obj [("command_type", .str "SET_KILL_SWITCH"), ("desired_state", .str "INACTIVE"), ("reason", .null)]

def requestSha256 (actor : OperatorActor) (request : SubmitOperatorCommand) : Sha256Text :=
  digestJson sha256 <| .obj [("actor", Documents.actor.encode actor), ("command", request.command.toJson),
    ("expected_state_sha256", optionalString (request.expectedStateSha256.map Subtype.val))]

def sourceStateSha256 (payload : SourcePayload) : Sha256Text :=
  digestJson sha256 <| .obj [
    ("kill_switch_activated_at", optionalString (payload.killSwitchActivatedAt.map Nautilus.instantText)),
    ("kill_switch_file_sha256", optionalString (payload.killSwitchFileSha256.map Subtype.val)),
    ("kill_switch_reason", optionalString payload.killSwitchReason),
    ("kill_switch_state", .str (killSwitchValue payload.killSwitchState)),
    ("mode_file_sha256", optionalString (payload.modeFileSha256.map Subtype.val)),
    ("requested_mode", .str (modeValue payload.requestedMode)),
    ("schema_version", .str "operator-source-state-v1")]

def journalSha256 {α : Type} (codec : Codec α) (model : α) (digestField : String) : Sha256Text :=
  digestJson sha256 ((codec.encode model).without digestField)

def idempotencyKeySha256 (key : Identity) : Sha256Text := sha256 key.1.toUTF8

def reasonSha256 (reason : String) : Sha256Text := sha256 (String.ofList (PyText.strip reason.toList)).toUTF8

end TradingAgent.OperatorControl
