import TradingAgent.OperatorControl.Contracts

/-!
# Policy of operator commands

`packages/operator_control/policy.py`: which command is authorized in which source state, and what it is to change.
Clocks are in UTC.
-/

namespace TradingAgent.OperatorControl

open Outcome
open JobWorker (SafetyMode)
open SecurityMaster (Sha256Text)

structure OperatorCommandRejected where
  code : String
  httpStatus : ℕ

/-- The change of a plan. -/
inductive Operation
  | noChange
  | writeMode
  | writeKillSwitch
  | clearKillSwitch

structure OperatorMutationPlan where
  requestSha256 : Sha256Text
  operation : Operation
  outcomeCode : OutcomeCode
  priorStateSha256 : Sha256Text
  (expectedStateSha256 safetyEvidenceSha256 reasonSha256 : Option Sha256Text)
  (desiredModeBytes desiredKillSwitchBytes : Option ByteArray)
  desiredFileSha256 : Option Sha256Text

def safetyEvidenceMaxAge : ℤ := 6 * Instant.second

def sentinelBytes (timestamp reason : String) : ByteArray := (timestamp ++ ": " ++ reason ++ "\n").toUTF8

variable (sha256 : ByteArray → Sha256Text)

def makePlan (actor : OperatorActor) (request : SubmitOperatorCommand) (current : OperatorSourceState)
    (operation : Operation) (outcomeCode : OutcomeCode) (safety : Option OperatorSafetyEvidence)
    (reasonDigest : Option Sha256Text) (modeBytes killBytes : Option ByteArray) (desiredDigest : Option Sha256Text) :
    OperatorMutationPlan where
  requestSha256 := requestSha256 sha256 actor request
  operation := operation
  outcomeCode := outcomeCode
  priorStateSha256 := current.stateSha256
  expectedStateSha256 := request.expectedStateSha256
  safetyEvidenceSha256 := safety.map OperatorSafetyEvidence.evidenceSha256
  reasonSha256 := reasonDigest
  desiredModeBytes := modeBytes
  desiredKillSwitchBytes := killBytes
  desiredFileSha256 := desiredDigest.orElse fun _ => (modeBytes.orElse fun _ => killBytes).map sha256

def checkExpected (request : SubmitOperatorCommand) (current : OperatorSourceState) :
    Except OperatorCommandRejected Unit :=
  require (request.expectedStateSha256 = none ∨ request.expectedStateSha256 = some current.stateSha256)
    ⟨"EXPECTED_STATE_CONFLICT", 409⟩

def decideMode (actor : OperatorActor) (request : SubmitOperatorCommand) (current : OperatorSourceState)
    (desiredMode : RequestedMode) : Except OperatorCommandRejected OperatorMutationPlan := do
  require (actor.interface = .cli) ⟨"CAPABILITY_FORBIDDEN", 403⟩
  require (desiredMode ≠ .dryrun) ⟨"PAPER_ONLY_RELEASE", 403⟩
  require (desiredMode ≠ .live) ⟨"LIVE_EXECUTION_DISABLED", 403⟩
  checkExpected request current
  if current.requestedMode = .paper then
    require (current.modeFileSha256 ≠ none) ⟨"SOURCE_STATE_UNKNOWN", 503⟩
    .ok (makePlan sha256 actor request current .noChange .modeAlreadyPaper none none none none current.modeFileSha256)
  else .ok (makePlan sha256 actor request current .writeMode .modeSetPaper none none (some "paper\n".toUTF8) none none)

/-- The activation branch of `_decide_kill_switch`. -/
def decideActivation (actor : OperatorActor) (request : SubmitOperatorCommand) (current : OperatorSourceState)
    (acceptedAt : Instant) (reason : Reason) : Except OperatorCommandRejected OperatorMutationPlan := do
  checkExpected request current
  require (current.killSwitchState ≠ .unknown) ⟨"SOURCE_STATE_UNKNOWN", 503⟩
  if current.killSwitchState = .active then
    require (current.killSwitchFileSha256 ≠ none) ⟨"SOURCE_STATE_UNKNOWN", 503⟩
    .ok (makePlan sha256 actor request current .noChange .killSwitchAlreadyActive none none none none
      current.killSwitchFileSha256)
  else
    .ok (makePlan sha256 actor request current .writeKillSwitch .killSwitchActivated none
      (some (reasonSha256 sha256 reason)) none (some (sentinelBytes (Nautilus.instantText acceptedAt) reason)) none)

def ClearsSafely (safety : OperatorSafetyEvidence) (acceptedAt : Instant) : Prop :=
  0 ≤ (acceptedAt : ℤ) - safety.observedAt ∧ (acceptedAt : ℤ) - safety.observedAt < safetyEvidenceMaxAge ∧
    safety.requestedMode = .paper ∧ safety.effectiveMode = .paper ∧ safety.liveExecutionEnabled = some false ∧
    safety.liveTradingApproved = some false ∧ safety.killSwitchState = .active

instance (safety : OperatorSafetyEvidence) (acceptedAt : Instant) : Decidable (ClearsSafely safety acceptedAt) :=
  inferInstanceAs (Decidable (_ ∧ _ ∧ _ ∧ _ ∧ _ ∧ _ ∧ _))

/-- The other branch of `_decide_kill_switch`. -/
def decideClearing (actor : OperatorActor) (request : SubmitOperatorCommand) (current : OperatorSourceState)
    (acceptedAt : Instant) (safety : Option OperatorSafetyEvidence) :
    Except OperatorCommandRejected OperatorMutationPlan := do
  require (actor.interface = .cli) ⟨"CAPABILITY_FORBIDDEN", 403⟩
  require (request.expectedStateSha256 ≠ none) ⟨"EXPECTED_STATE_REQUIRED", 409⟩
  checkExpected request current
  require (current.killSwitchState ≠ .unknown) ⟨"SOURCE_STATE_UNKNOWN", 503⟩
  require (current.killSwitchState = .active) ⟨"KILL_SWITCH_NOT_ACTIVE", 409⟩
  require (current.killSwitchFileSha256 ≠ none) ⟨"SOURCE_STATE_UNKNOWN", 503⟩
  match safety with
  | none => .error ⟨"SAFETY_EVIDENCE_REQUIRED", 503⟩
  | some safety =>
    require (ClearsSafely safety acceptedAt) ⟨"KILL_SWITCH_CLEAR_UNSAFE", 409⟩
    .ok (makePlan sha256 actor request current .clearKillSwitch .killSwitchCleared (some safety) none none none
      current.killSwitchFileSha256)

def decideOperatorCommand (actor : OperatorActor) (request : SubmitOperatorCommand) (current : OperatorSourceState)
    (acceptedAt : Instant) (safety : Option OperatorSafetyEvidence) :
    Except OperatorCommandRejected OperatorMutationPlan :=
  match request.command with
  | .setRequestedMode desiredMode => decideMode sha256 actor request current desiredMode
  | .activateKillSwitch reason => decideActivation sha256 actor request current acceptedAt reason
  | .clearKillSwitch => decideClearing sha256 actor request current acceptedAt safety

variable {sha256} {actor : OperatorActor} {request : SubmitOperatorCommand} {current : OperatorSourceState}
  {acceptedAt : Instant} {safety : Option OperatorSafetyEvidence} {plan : OperatorMutationPlan}

theorem checkExpected_ok_iff {u : Unit} : checkExpected request current = .ok u ↔
    request.expectedStateSha256 = none ∨ request.expectedStateSha256 = some current.stateSha256 := require_ok_iff

theorem decideMode_ok {desiredMode : RequestedMode} (h : decideMode sha256 actor request current desiredMode = .ok plan) :
    actor.interface = .cli ∧ desiredMode = .paper ∧
      (current.requestedMode = .paper ∧ (∃ digest, current.modeFileSha256 = some digest) ∧
          plan = makePlan sha256 actor request current .noChange .modeAlreadyPaper none none none none
            current.modeFileSha256 ∨
        current.requestedMode ≠ .paper ∧
          plan = makePlan sha256 actor request current .writeMode .modeSetPaper none none (some "paper\n".toUTF8) none
            none) := by
  unfold decideMode at h
  simp only [bind_ok_iff, require_ok_iff, exists_const] at h
  obtain ⟨hcli, hdryrun, hlive, u, -, h⟩ := h
  have hdesired : desiredMode = .paper := by
    cases desiredMode with
    | paper => rfl
    | dryrun => exact absurd rfl hdryrun
    | live => exact absurd rfl hlive
  refine ⟨hcli, hdesired, ?_⟩
  split_ifs at h with hpaper
  · simp only [bind_ok_iff, require_ok_iff, exists_const, Except.ok.injEq] at h
    exact .inl ⟨hpaper, Option.ne_none_iff_exists'.1 h.1, h.2.symm⟩
  · exact .inr ⟨hpaper, (Except.ok.inj h).symm⟩

theorem decideActivation_ok {reason : Reason}
    (h : decideActivation sha256 actor request current acceptedAt reason = .ok plan) :
    current.killSwitchState = .active ∧ (∃ digest, current.killSwitchFileSha256 = some digest) ∧
        plan = makePlan sha256 actor request current .noChange .killSwitchAlreadyActive none none none none
          current.killSwitchFileSha256 ∨ current.killSwitchState = .inactive ∧
        plan = makePlan sha256 actor request current .writeKillSwitch .killSwitchActivated none
          (some (reasonSha256 sha256 reason)) none
          (some (sentinelBytes (Nautilus.instantText acceptedAt) reason)) none := by
  unfold decideActivation at h
  simp only [bind_ok_iff, require_ok_iff, exists_const] at h
  obtain ⟨u, -, hknown, h⟩ := h
  split_ifs at h with hactive
  · simp only [bind_ok_iff, require_ok_iff, exists_const, Except.ok.injEq] at h
    exact .inl ⟨hactive, Option.ne_none_iff_exists'.1 h.1, h.2.symm⟩
  · refine .inr ⟨?_, (Except.ok.inj h).symm⟩
    cases hstate : current.killSwitchState with
    | active => exact absurd hstate hactive
    | inactive => rfl
    | unknown => exact absurd hstate hknown

/-- A clearing needs an actor of the command line, the digest of the present state, and safe evidence. -/
theorem decideClearing_ok (h : decideClearing sha256 actor request current acceptedAt safety = .ok plan) :
    actor.interface = .cli ∧ request.expectedStateSha256 = some current.stateSha256 ∧
      current.killSwitchState = .active ∧ (∃ digest, current.killSwitchFileSha256 = some digest) ∧
      ∃ evidence, safety = some evidence ∧ ClearsSafely evidence acceptedAt ∧
        plan = makePlan sha256 actor request current .clearKillSwitch .killSwitchCleared (some evidence) none none none
          current.killSwitchFileSha256 := by
  unfold decideClearing at h
  simp only [bind_ok_iff, require_ok_iff, exists_const, checkExpected_ok_iff] at h
  obtain ⟨hcli, hrequired, hexpected, -, hactive, hdigest, h⟩ := h
  cases safety with
  | none => cases h
  | some evidence =>
    simp only [bind_ok_iff, require_ok_iff, exists_const, Except.ok.injEq] at h
    exact ⟨hcli, hexpected.resolve_left hrequired, hactive, Option.ne_none_iff_exists'.1 hdigest, evidence, rfl, h.1,
      h.2.symm⟩

end TradingAgent.OperatorControl
