import TradingAgent.Domain.RuntimeRisk

/-!
# Global halt and submit authority

The states, transitions and permits of the global halt stream. The checks of each model's
`model_post_init` are decidable, and the models carry them as the field `valid`.
-/

namespace TradingAgent

inductive GlobalHaltStatus
  | active
  | halted
  deriving DecidableEq

inductive GlobalHaltReasonCode
  | safetyAuthorityUnknown
  | killSwitchActive
  | dailyLossLimit
  | drawdownLimit
  | recoveryAuthorized
  | initializedSafe
  deriving DecidableEq

def GlobalHaltReasonCode.order (r : GlobalHaltReasonCode) : ℕ := r.ctorIdx

def breakerReasons : List GlobalHaltReasonCode :=
  [.safetyAuthorityUnknown, .killSwitchActive, .dailyLossLimit, .drawdownLimit]

inductive CanonicalKillSwitchState
  | active
  | inactive
  | unknown
  deriving DecidableEq

def CanonicalReasons (reasons : List GlobalHaltReasonCode) : Prop :=
  reasons ≠ [] ∧ (reasons.map GlobalHaltReasonCode.order).Pairwise (· < ·)

instance (reasons : List GlobalHaltReasonCode) : Decidable (CanonicalReasons reasons) :=
  inferInstanceAs (Decidable (_ ∧ _))

def HaltStatusReasons (status : GlobalHaltStatus) (reasons : List GlobalHaltReasonCode)
    (initialization : Bool) (recoveryAuthorizationDigest : Option Sha256)
    (requireRecoveryAuthorization : Bool) : Prop :=
  CanonicalReasons reasons ∧
    if status = .halted then
      (∀ r ∈ reasons, r ∈ breakerReasons) ∧ recoveryAuthorizationDigest = none
    else if initialization then
      reasons = [.initializedSafe] ∧ recoveryAuthorizationDigest = none
    else
      reasons = [.recoveryAuthorized] ∧
        (requireRecoveryAuthorization = true → recoveryAuthorizationDigest ≠ none)

instance (status : GlobalHaltStatus) (reasons : List GlobalHaltReasonCode) (initialization : Bool)
    (digest : Option Sha256) (required : Bool) :
    Decidable (HaltStatusReasons status reasons initialization digest required) :=
  inferInstanceAs (Decidable (_ ∧ ite _ _ (ite _ _ _)))

@[ext] structure GlobalSafetyObservation where
  sourceFingerprint : Sha256
  killSwitchState : CanonicalKillSwitchState
  observedAt : DateTime
  deriving DecidableEq

@[ext] structure GlobalHaltRecoveryAuthorization where
  authorizationId : Uuid
  authorizationDigest : Sha256
  haltedGeneration : ℕ
  haltedTransitionDigest : Sha256
  runtimePolicyDigest : Sha256
  runtimeObservationDigest : Sha256
  portfolioDigest : Sha256
  safetyBindingDigest : Sha256
  issuedAt : DateTime
  expiresAt : DateTime
  operatorAuthorityDigest : Sha256
  generation_pos : 0 < haltedGeneration
  lifetime : issuedAt < expiresAt
  deriving DecidableEq

@[ext] structure GlobalHaltStateFields where
  streamId : Uuid
  generation : ℕ
  status : GlobalHaltStatus
  transitionEventId : Uuid
  transitionDigest : Sha256
  priorTransitionEventId : Option Uuid
  priorTransitionDigest : Option Sha256
  runtimePolicyDigest : Sha256
  runtimeObservationDigest : Sha256
  portfolioDigest : Sha256
  safetyObservationDigest : Sha256
  reasonCodes : List GlobalHaltReasonCode
  transitionedAt : DateTime
  deriving DecidableEq

def GlobalHaltStateFields.Valid (s : GlobalHaltStateFields) : Prop :=
  0 < s.generation ∧
    (if s.generation = 1 then s.priorTransitionEventId = none ∧ s.priorTransitionDigest = none
      else s.priorTransitionEventId ≠ none ∧ s.priorTransitionDigest ≠ none) ∧
    HaltStatusReasons s.status s.reasonCodes (s.generation = 1) none false

instance (s : GlobalHaltStateFields) : Decidable s.Valid := inferInstanceAs (Decidable (_ ∧ _ ∧ _))

@[ext] structure GlobalHaltState extends GlobalHaltStateFields where
  valid : toGlobalHaltStateFields.Valid
  deriving DecidableEq

@[ext] structure GlobalHaltTransitionFields where
  transitionId : Uuid
  priorGeneration : ℕ
  priorTransitionDigest : Option Sha256
  nextGeneration : ℕ
  nextStatus : GlobalHaltStatus
  reasonCodes : List GlobalHaltReasonCode
  runtimePolicyDigest : Sha256
  runtimeObservationDigest : Sha256
  portfolioDigest : Sha256
  safetyObservationDigest : Sha256
  recoveryAuthorizationDigest : Option Sha256
  decidedAt : DateTime
  deriving DecidableEq

def GlobalHaltTransitionFields.Valid (t : GlobalHaltTransitionFields) : Prop :=
  0 < t.nextGeneration ∧
    (if t.nextGeneration = 1 then t.priorGeneration = 0 ∧ t.priorTransitionDigest = none
      else 0 < t.priorGeneration ∧ t.priorTransitionDigest ≠ none ∧
        t.nextGeneration = t.priorGeneration + 1) ∧
    HaltStatusReasons t.nextStatus t.reasonCodes (t.nextGeneration = 1) t.recoveryAuthorizationDigest true

instance (t : GlobalHaltTransitionFields) : Decidable t.Valid :=
  inferInstanceAs (Decidable (_ ∧ _ ∧ _))

@[ext] structure GlobalHaltTransition extends GlobalHaltTransitionFields where
  valid : toGlobalHaltTransitionFields.Valid
  deriving DecidableEq

def permitLifetime : TimeDelta := TimeDelta.seconds 5

@[ext] structure SubmitPermitPrepared where
  permitId : Uuid
  approvalEventId : Uuid
  approvalReferenceDigest : Sha256
  intentDigest : Sha256
  policyRiskDecisionDigest : Sha256
  runtimeRiskDecisionDigest : Sha256
  runtimePolicyDigest : Sha256
  runtimeObservationDigest : Sha256
  portfolioDigest : Sha256
  safetyBindingDigest : Sha256
  haltStreamId : Uuid
  haltGeneration : ℕ
  haltTransitionEventId : Uuid
  haltTransitionDigest : Sha256
  preparedAt : DateTime
  expiresAt : DateTime
  generation_pos : 0 < haltGeneration
  lifetime : expiresAt - preparedAt = permitLifetime
  deriving DecidableEq

@[ext] structure PreparedSubmitPermit extends SubmitPermitPrepared where
  preparedEventId : Uuid
  preparedEventDigest : Sha256
  deriving DecidableEq

@[ext] structure SubmitPermitConsumed where
  permitId : Uuid
  preparedEventDigest : Sha256
  haltStreamId : Uuid
  haltGeneration : ℕ
  haltTransitionDigest : Sha256
  consumedAt : DateTime
  generation_pos : 0 < haltGeneration
  deriving DecidableEq

@[ext] structure ConsumedSubmitAuthority extends SubmitPermitConsumed where
  consumedEventId : Uuid
  consumedEventDigest : Sha256
  deriving DecidableEq

end TradingAgent
