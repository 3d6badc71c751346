import TradingAgent.RuntimeRisk.Authority

/-!
# The global halt

The breaker, the replay of one authority stream, and the two operations that append transitions. What an
operation does between its reads and its append is a pure function of the loaded events.
-/

namespace TradingAgent.RuntimeRisk

open Outcome Interaction EventLedger

def authorityFailure : AuthorityFailure := .globalHaltAuthorityError "global halt authority is invalid"

def transitionRecordingFailure : AuthorityFailure :=
  .globalHaltAuthorityError "global halt transition recording failed"

def recoveryFailure : AuthorityFailure := .globalHaltRecoveryError "global halt recovery failed"

/-! ## The breaker -/

/-- An injected reader of safety custody; `none` when it raises. -/
abbrev GlobalSafetyAuthorityVerifier := GlobalSafetyObservation → Option GlobalSafetyObservation

def verifyGlobalSafetyObservation (verifier : GlobalSafetyAuthorityVerifier)
    (observation : GlobalSafetyObservation) : Except AuthorityFailure GlobalSafetyObservation :=
  match verifier observation with
  | some verified =>
    if verified = observation then .ok verified
    else .error (.globalHaltAuthorityError "global halt safety authority is invalid")
  | none => .error (.globalHaltAuthorityError "global halt safety authority is invalid")

def evaluateGlobalBreaker (observation : RuntimeRiskObservation) (policy : RuntimeRiskPolicy)
    (safety : GlobalSafetyObservation) : Except AuthorityFailure (List GlobalHaltReasonCode) := do
  let reporting := observation.portfolio.reportingCurrency
  require (∀ money ∈ [observation.dailyPnl, observation.currentEquity, observation.peakEquity,
      policy.maxDailyLoss, policy.maxDrawdown], money.currency = reporting)
    (.globalHaltAuthorityError "global halt accounting authority is invalid")
  let drawdown := max (observation.peakEquity.amount - observation.currentEquity.amount) 0
  let checks : List (GlobalHaltReasonCode × Bool) :=
    [(.safetyAuthorityUnknown, safety.killSwitchState = .unknown),
      (.killSwitchActive, safety.killSwitchState = .active),
      (.dailyLossLimit, observation.dailyPnl.amount < -policy.maxDailyLoss.amount),
      (.drawdownLimit, policy.maxDrawdown.amount < drawdown)]
  return (checks.filter Prod.snd).map Prod.fst

/-! ## Replay -/

def ValidCommonEvent (event : LedgerEvent) (schemaVersion : String) (authorityAt : DateTime)
    (correlationId causationId traceId : Uuid) (expiresAt : DateTime) : Prop :=
  event.schemaVersion = schemaVersion ∧ event.source = eventSource ∧ event.observedAt = authorityAt ∧
    event.ingestedAt = authorityAt ∧ event.producedAt = authorityAt ∧ event.effectiveAt = authorityAt ∧
    event.expiresAt = expiresAt ∧ event.correlationId = correlationId ∧ event.causationId = causationId ∧
    event.traceId = traceId

instance (event : LedgerEvent) (schemaVersion : String) (authorityAt : DateTime)
    (correlationId causationId traceId : Uuid) (expiresAt : DateTime) :
    Decidable (ValidCommonEvent event schemaVersion authorityAt correlationId causationId traceId expiresAt) :=
  inferInstanceAs (Decidable (_ ∧ _))

def transitionEventSchema : String := "global-halt-transition-event-v1"

def preparedEventSchema : String := "submit-permit-prepared-event-v1"

def consumedEventSchema : String := "submit-permit-consumed-event-v1"

def requireEventBindings (event : LedgerEvent) : Except AuthorityFailure Unit :=
  let invalid := AuthorityFailure.valueError "global halt event authority bindings are invalid"
  match event.payload with
  | .transition payload =>
    require (ValidCommonEvent event transitionEventSchema payload.decidedAt payload.transitionId
      payload.transitionId payload.transitionId (payload.decidedAt + eventLifetime)) invalid
  | .prepared payload =>
    require (ValidCommonEvent event preparedEventSchema payload.preparedAt payload.permitId
      payload.approvalEventId payload.permitId payload.expiresAt) invalid
  | .consumed payload =>
    require (ValidCommonEvent event consumedEventSchema payload.consumedAt payload.permitId
      payload.permitId payload.permitId (payload.consumedAt + eventLifetime)) invalid
  | _ => .error (.valueError "foreign payload in global halt authority stream")

def authorityTime : LedgerPayload → Option DateTime
  | .transition payload => some payload.decidedAt
  | .prepared payload => some payload.preparedAt
  | .consumed payload => some payload.consumedAt
  | _ => none

def TransitionFollows (payload : GlobalHaltTransition) : Option GlobalHaltState → Prop
  | none => payload.priorGeneration = 0 ∧ payload.priorTransitionDigest = none
  | some prior =>
    payload.priorGeneration = prior.generation ∧
      payload.priorTransitionDigest = some prior.transitionDigest ∧
      payload.nextGeneration = prior.generation + 1 ∧ prior.transitionedAt ≤ payload.decidedAt ∧
      (prior.status = .active → payload.nextStatus = .halted) ∧
      (prior.status = .halted → payload.nextStatus = .active)

instance (payload : GlobalHaltTransition) (prior : Option GlobalHaltState) :
    Decidable (TransitionFollows payload prior) :=
  match prior with
  | none => inferInstanceAs (Decidable (_ ∧ _))
  | some _ => inferInstanceAs (Decidable (_ ∧ _))

def stateFields (streamId eventId : Uuid) (digest : Sha256) (payload : GlobalHaltTransition)
    (prior : Option GlobalHaltState) : GlobalHaltStateFields where
  streamId := streamId
  generation := payload.nextGeneration
  status := payload.nextStatus
  transitionEventId := eventId
  transitionDigest := digest
  priorTransitionEventId := prior.map fun state => state.transitionEventId
  priorTransitionDigest := prior.map fun state => state.transitionDigest
  runtimePolicyDigest := payload.runtimePolicyDigest
  runtimeObservationDigest := payload.runtimeObservationDigest
  portfolioDigest := payload.portfolioDigest
  safetyObservationDigest := payload.safetyObservationDigest
  reasonCodes := payload.reasonCodes
  transitionedAt := payload.decidedAt

def stateFromTransition (streamId eventId : Uuid) (digest : Sha256) (payload : GlobalHaltTransition)
    (prior : Option GlobalHaltState) : Except AuthorityFailure GlobalHaltState := do
  require (TransitionFollows payload prior) (.valueError "global halt transition is impossible")
  if h : (stateFields streamId eventId digest payload prior).Valid then return ⟨_, h⟩
  else throw (.valueError "global halt state is invalid")

/-- `GlobalHaltReplay`; the loop of the replay keeps `prepared` by permit. -/
structure GlobalHaltReplay where
  state : Option GlobalHaltState
  prepared : Dict Uuid PreparedSubmitPermit
  (consumedPermitIds retiredPermitIds : List Uuid)
  eventDigests : Dict Uuid Sha256
  headSequence : ℕ
  headEventId : Option Uuid
  headEventDigest : Option Sha256
  headAuthorityAt : Option DateTime

def GlobalHaltReplay.empty : GlobalHaltReplay := ⟨none, [], [], [], [], 0, none, none, none⟩

def PreparedFollows (streamId : Uuid) (payload : SubmitPermitPrepared) (replay : GlobalHaltReplay) : Prop :=
  (∃ state ∈ replay.state, state.status = .active ∧ payload.haltStreamId = streamId ∧
    payload.haltGeneration = state.generation ∧
    payload.haltTransitionEventId = state.transitionEventId ∧
    payload.haltTransitionDigest = state.transitionDigest ∧
    state.transitionedAt ≤ payload.preparedAt) ∧
    payload.permitId ∉ replay.prepared.keys ∧ payload.permitId ∉ replay.consumedPermitIds ∧
    payload.permitId ∉ replay.retiredPermitIds

instance (streamId : Uuid) (payload : SubmitPermitPrepared) (replay : GlobalHaltReplay) :
    Decidable (PreparedFollows streamId payload replay) :=
  inferInstanceAs (Decidable (_ ∧ _))

def ConsumedFollows (payload : SubmitPermitConsumed) (replay : GlobalHaltReplay) : Prop :=
  ∃ authority ∈ replay.prepared.get? payload.permitId, ∃ state ∈ replay.state, state.status = .active ∧
    payload.preparedEventDigest = authority.preparedEventDigest ∧
    payload.haltStreamId = authority.haltStreamId ∧ payload.haltGeneration = authority.haltGeneration ∧
    payload.haltTransitionDigest = authority.haltTransitionDigest ∧
    state.streamId = authority.haltStreamId ∧ state.generation = authority.haltGeneration ∧
    state.transitionEventId = authority.haltTransitionEventId ∧
    state.transitionDigest = authority.haltTransitionDigest ∧
    state.transitionedAt ≤ payload.consumedAt ∧ authority.preparedAt ≤ payload.consumedAt ∧
    payload.consumedAt ≤ authority.expiresAt

instance (payload : SubmitPermitConsumed) (replay : GlobalHaltReplay) :
    Decidable (ConsumedFollows payload replay) :=
  inferInstanceAs (Decidable (∃ _ ∈ _, _))

def replayPayload (streamId eventId : Uuid) (digest : Sha256) (replay : GlobalHaltReplay) :
    LedgerPayload → Except AuthorityFailure GlobalHaltReplay
  | .transition payload => do
    let state ← stateFromTransition streamId eventId digest payload replay.state
    -- a later transition retires the permits of the generation it ends
    if replay.state.isSome then
      return { replay with
        state := some state
        prepared := []
        retiredPermitIds := replay.retiredPermitIds ++ replay.prepared.keys }
    else return { replay with state := some state }
  | .prepared payload => do
    require (PreparedFollows streamId payload replay)
      (.valueError "prepared permit contradicts halt authority")
    return { replay with
      prepared := replay.prepared.set payload.permitId
        { payload with preparedEventId := eventId, preparedEventDigest := digest } }
  | .consumed payload => do
    require (ConsumedFollows payload replay) (.valueError "consumed permit contradicts halt authority")
    return { replay with
      prepared := replay.prepared.erase payload.permitId
      consumedPermitIds := replay.consumedPermitIds ++ [payload.permitId] }
  | _ => .error (.valueError "foreign payload in global halt authority stream")

def GlobalHaltReplay.advance (replay : GlobalHaltReplay) (event : LedgerEvent) (digest : Sha256) :
    GlobalHaltReplay :=
  { replay with
    eventDigests := replay.eventDigests.set event.eventId digest
    headSequence := replay.headSequence + 1
    headEventId := some event.eventId
    headEventDigest := some digest
    headAuthorityAt := authorityTime event.payload }

variable (codec : AuthorityCodec)

/-- One round of the loop of `replay_global_halt_authority`. -/
def replayEvent (streamId : Uuid) (replay : GlobalHaltReplay) (item : LedgerEvent × String) :
    Except AuthorityFailure GlobalHaltReplay := do
  let (event, text) := item
  require (event.sequence = replay.headSequence + 1)
    (.valueError "global halt authority sequence is not contiguous")
  let digest := digestOf codec text
  require (event.eventId ∉ replay.eventDigests.keys)
    (.valueError "global halt authority event_id is not unique")
  requireEventBindings event
  require (∀ headAt ∈ replay.headAuthorityAt, ∀ authorityAt ∈ authorityTime event.payload,
      headAt ≤ authorityAt) (.valueError "global halt authority time is not nondecreasing")
  let replay ← replayPayload streamId event.eventId digest replay event.payload
  return replay.advance event digest

def replayGlobalHaltAuthority (events : List LedgerEvent) (streamId : Uuid) :
    Except AuthorityFailure GlobalHaltReplay :=
  rescue (do
    let canonical ← events.mapM (canonicalEnvelope codec)
    let selected := canonical.filter fun item => item.1.streamId = streamId
    selected.foldlM (replayEvent codec streamId) .empty) authorityFailure

/-! ## Transitions -/

structure TransitionRequest where
  streamId : Uuid
  observation : RuntimeRiskObservation
  policy : RuntimeRiskPolicy
  safety : GlobalSafetyObservation
  safetyVerifier : GlobalSafetyAuthorityVerifier
  (transitionId eventId : Uuid)
  decidedAt : DateTime

/-- The fields of `_new_transition_payload`. -/
def newTransitionFields (replayed : GlobalHaltReplay) (request : TransitionRequest) (status : GlobalHaltStatus)
    (reasons : List GlobalHaltReasonCode) (recoveryAuthorizationDigest : Option Sha256) :
    GlobalHaltTransitionFields where
  transitionId := request.transitionId
  priorGeneration := (replayed.state.map fun state => state.generation).getD 0
  priorTransitionDigest := replayed.state.map fun state => state.transitionDigest
  nextGeneration := (replayed.state.map fun state => state.generation + 1).getD 1
  nextStatus := status
  reasonCodes := reasons
  runtimePolicyDigest := canonicalModelDigest codec.models (.policy request.policy)
  runtimeObservationDigest := canonicalModelDigest codec.models (.observation request.observation)
  portfolioDigest := canonicalModelDigest codec.models (.portfolio request.observation.portfolio)
  safetyObservationDigest := canonicalModelDigest codec.models (.safety request.safety)
  recoveryAuthorizationDigest := recoveryAuthorizationDigest
  decidedAt := request.decidedAt

def newTransitionPayload (replayed : GlobalHaltReplay) (request : TransitionRequest) (status : GlobalHaltStatus)
    (reasons : List GlobalHaltReasonCode) (recoveryAuthorizationDigest : Option Sha256) :
    Except AuthorityFailure GlobalHaltTransition :=
  if h : (newTransitionFields codec replayed request status reasons recoveryAuthorizationDigest).Valid then
    .ok ⟨_, h⟩
  else .error (.valueError "global halt transition is invalid")

/-- `_transition_event`, at the sequence after `head`. -/
def transitionEvent (streamId : Uuid) (head : ℕ) (eventId : Uuid) (payload : GlobalHaltTransition) :
    LedgerEvent :=
  authorityEvent eventId transitionEventSchema streamId (head + 1) payload.decidedAt
    (payload.decidedAt + eventLifetime) payload.transitionId payload.transitionId payload.transitionId
    (.transition payload) (Nat.succ_pos head) (lt_add_eventLifetime _)

def transitionOutbox (event : LedgerEvent) (payload : GlobalHaltTransition) :
    Except AuthorityFailure OutboxIntent :=
  outboxOf codec event "runtime-risk.global-halt-transitions" "transition_id" payload.transitionId

def newTransition (replayed : GlobalHaltReplay) (request : TransitionRequest) (status : GlobalHaltStatus)
    (reasons : List GlobalHaltReasonCode) (recoveryAuthorizationDigest : Option Sha256) :
    Except AuthorityFailure (LedgerEvent × OutboxIntent) := do
  let payload ← newTransitionPayload codec replayed request status reasons recoveryAuthorizationDigest
  let event := transitionEvent request.streamId replayed.headSequence request.eventId payload
  let outbox ← transitionOutbox codec event payload
  return (event, outbox)

/-- `_append_and_read_back` of the halt operations. -/
def appendTransition (event : LedgerEvent) (outbox : OutboxIntent) (failure : AuthorityFailure) :
    AuthorityM (List LedgerEvent) := do
  appendEvent event outbox failure
  let loaded ← loadLedger failure
  step (rescue (do
    let actual ← onlyMatch loaded event.eventId
    let text ← match serializeEvent codec.ledger.toLedgerCodec event with
      | some text => Except.ok text
      | none => .error (.valueError "value cannot be represented by canonical PostgreSQL jsonb")
    requireReadBack codec (event, text) (← canonicalEnvelope codec actual)) failure)
  return loaded

def GlobalAuthorityIsCurrent (request : TransitionRequest) : Prop :=
  let portfolio := request.observation.portfolio
  ∀ timestamp ∈ [request.observation.observedAt, portfolio.observedAt] ++
      (portfolio.balances.map fun balance => balance.observedAt) ++
      (portfolio.positions.map fun position => position.observedAt) ++
      (portfolio.positions.filterMap fun position => position.mark.map fun mark => mark.markedAt) ++
      [request.safety.observedAt],
    timestamp ≤ request.decidedAt ∧
      request.decidedAt - timestamp ≤ TimeDelta.seconds request.policy.portfolioMaxAgeSeconds

instance (request : TransitionRequest) : Decidable (GlobalAuthorityIsCurrent request) :=
  inferInstanceAs (Decidable (∀ _ ∈ _, _))

/-! ## Observing -/

/-- What `record_global_halt_observation` does with the replayed stream: keep the state or append. -/
def planObservation (request : TransitionRequest) (replayed : GlobalHaltReplay) :
    Except AuthorityFailure (GlobalHaltState ⊕ LedgerEvent × OutboxIntent) := do
  let reasons ← evaluateGlobalBreaker request.observation request.policy request.safety
  require (reasons ≠ [] ∨ GlobalAuthorityIsCurrent request) authorityFailure
  let rotate (status : GlobalHaltStatus) (reasons : List GlobalHaltReasonCode) := do
    require (∀ headAt ∈ replayed.headAuthorityAt, headAt ≤ request.decidedAt) authorityFailure
    let appended ← rescue (newTransition codec replayed request status reasons none)
      transitionRecordingFailure
    return .inr appended
  match replayed.state with
  | some state =>
    if state.status = .halted ∨ reasons = [] then return .inl state
    else rotate .halted reasons
  | none => if reasons ≠ [] then rotate .halted reasons else rotate .active [.initializedSafe]

def recordGlobalHaltObservation (request : TransitionRequest) : AuthorityM GlobalHaltState := do
  let safety ← step (rescue (verifyGlobalSafetyObservation request.safetyVerifier request.safety)
    authorityFailure)
  let events ← loadLedger transitionRecordingFailure
  let replayed ← step (replayGlobalHaltAuthority codec events request.streamId)
  match ← step (planObservation codec { request with safety := safety } replayed) with
  | .inl state => return state
  | .inr (event, outbox) =>
    let loaded ← appendTransition codec event outbox transitionRecordingFailure
    let replayed ← step (replayGlobalHaltAuthority codec loaded request.streamId)
    match replayed.state with
    | some state => return state
    | none => throw transitionRecordingFailure

/-! ## Recovering -/

/-- An injected verifier of recovery authorizations; `none` when it raises. -/
abbrev GlobalHaltRecoveryAuthorityVerifier :=
  GlobalHaltRecoveryAuthorization → GlobalHaltState → RuntimeRiskObservation → RuntimeRiskPolicy →
    GlobalSafetyObservation → DateTime → Option GlobalHaltRecoveryAuthorization

/-- The arguments of `recover_global_halt`. -/
structure RecoveryRequest extends TransitionRequest where
  authorization : GlobalHaltRecoveryAuthorization
  verifier : GlobalHaltRecoveryAuthorityVerifier

/-- The bindings of `_recovery_bindings_match` before the breaker. -/
def RecoveryBindings (request : RecoveryRequest) (state : GlobalHaltState) : Prop :=
  let authorization := request.authorization
  authorization.haltedGeneration = state.generation ∧
    authorization.haltedTransitionDigest = state.transitionDigest ∧
    authorization.runtimePolicyDigest = canonicalModelDigest codec.models (.policy request.policy) ∧
    authorization.runtimeObservationDigest =
      canonicalModelDigest codec.models (.observation request.observation) ∧
    authorization.portfolioDigest =
      canonicalModelDigest codec.models (.portfolio request.observation.portfolio) ∧
    authorization.safetyBindingDigest = globalSafetyBindingDigest codec.models request.safety ∧
    (state.transitionedAt ≤ request.observation.observedAt ∧
      request.observation.observedAt ≤ authorization.issuedAt ∧
      authorization.issuedAt ≤ request.safety.observedAt ∧
      request.safety.observedAt ≤ request.decidedAt) ∧
    (authorization.issuedAt ≤ request.decidedAt ∧ request.decidedAt < authorization.expiresAt) ∧
    GlobalAuthorityIsCurrent request.toTransitionRequest

instance (request : RecoveryRequest) (state : GlobalHaltState) :
    Decidable (RecoveryBindings codec request state) :=
  inferInstanceAs (Decidable (_ ∧ _))

/-- `_recovery_bindings_match`: the breaker is evaluated even when a binding differs. -/
def recoveryBindingsMatch (request : RecoveryRequest) (state : GlobalHaltState) :
    Except AuthorityFailure Bool := do
  let reasons ← evaluateGlobalBreaker request.observation request.policy request.safety
  return decide (RecoveryBindings codec request state ∧ reasons = [])

def verifyRecoveryAuthorization (request : RecoveryRequest) (state : GlobalHaltState) :
    Except AuthorityFailure Bool :=
  match request.verifier request.authorization state request.observation request.policy request.safety
      request.decidedAt with
  | none => .error recoveryFailure
  | some verified =>
    if codec.models.canonicalModelJson (.authorization verified) =
        codec.models.canonicalModelJson (.authorization request.authorization) then
      recoveryBindingsMatch codec request state
    else .ok false

def recoveryPayload (request : RecoveryRequest) (replayed : GlobalHaltReplay) :
    Except AuthorityFailure GlobalHaltTransition :=
  newTransitionPayload codec replayed request.toTransitionRequest .active [.recoveryAuthorized]
    (some request.authorization.authorizationDigest)

def alreadyDurableRecovery (events : List LedgerEvent) (replayed : GlobalHaltReplay)
    (request : RecoveryRequest) : Except AuthorityFailure (Option GlobalHaltState) := do
  match replayed.state with
  | none => return none
  | some current =>
    if current.status ≠ .active ∨ current.transitionEventId ≠ request.eventId then return none
    let canonical ← events.mapM (canonicalEnvelope codec)
    let selected := canonical.filter fun item => item.1.streamId = request.streamId
    match (selected.filter fun item => item.1.eventId = request.eventId).getLast? with
    | none => return none
    | some (found, foundText) =>
      let .transition _ := found.payload | return none
      let earlier := (selected.map Prod.fst).filter fun event => event.sequence < found.sequence
      let priorReplay ← replayGlobalHaltAuthority codec earlier request.streamId
      match priorReplay.state with
      | none => return none
      | some prior =>
        if prior.status ≠ .halted then return none
        if !(← verifyRecoveryAuthorization codec request prior) then return none
        let payload ← recoveryPayload codec request priorReplay
        let expected := transitionEvent request.streamId (found.sequence - 1) request.eventId payload
        match serializeEvent codec.ledger.toLedgerCodec expected with
        | none => throw (.valueError "value cannot be represented by canonical PostgreSQL jsonb")
        | some text => if text = foundText then return some current else return none

/-- The errors that a handler of canonicalization errors translates. -/
def translate (failure : AuthorityFailure) : AuthorityFailure → AuthorityFailure
  | .valueError _ => failure
  | e => e

/-- What `recover_global_halt` does with the loaded events and the replayed stream. -/
def planRecovery (request : RecoveryRequest) (events : List LedgerEvent) (replayed : GlobalHaltReplay) :
    Except AuthorityFailure (GlobalHaltState ⊕ LedgerEvent × OutboxIntent) :=
  match replayed.state with
  | none => .error recoveryFailure
  | some state =>
    match state.status with
    | .active => do
      match ← (alreadyDurableRecovery codec events replayed request).mapError (translate recoveryFailure) with
      | some durable => return .inl durable
      | none => throw recoveryFailure
    | .halted => do
      let verified ← verifyRecoveryAuthorization codec request state
      require (verified = true) recoveryFailure
      require (∀ headAt ∈ replayed.headAuthorityAt, headAt ≤ request.decidedAt) recoveryFailure
      let appended ← rescue (newTransition codec replayed request.toTransitionRequest .active
        [.recoveryAuthorized] (some request.authorization.authorizationDigest)) recoveryFailure
      return .inr appended

/-- `recover_global_halt` from the events that it has loaded. -/
def recoverFrom (request : RecoveryRequest) (events : List LedgerEvent) : AuthorityM GlobalHaltState := do
  let replayed ← step (rescue (replayGlobalHaltAuthority codec events request.streamId) recoveryFailure)
  match ← step (planRecovery codec request events replayed) with
  | .inl state => return state
  | .inr (event, outbox) =>
    let loaded ← appendTransition codec event outbox recoveryFailure
    let replayed ← step (rescue (replayGlobalHaltAuthority codec loaded request.streamId) recoveryFailure)
    match replayed.state with
    | some state => return state
    | none => throw recoveryFailure

def recoverGlobalHalt (request : RecoveryRequest) : AuthorityM GlobalHaltState := do
  let safety ← step (rescue (verifyGlobalSafetyObservation request.safetyVerifier request.safety)
    recoveryFailure)
  let events ← loadLedger recoveryFailure
  recoverFrom codec { request with safety := safety } events

end TradingAgent.RuntimeRisk
