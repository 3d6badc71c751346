import TradingAgent.RuntimeRisk.HaltReplay

/-! Writers append only events that the replay takes. -/

namespace TradingAgent.RuntimeRisk

open Outcome EventLedger

variable {codec : AuthorityCodec} {s : Uuid} {r : GlobalHaltReplay} {events : List LedgerEvent}
  {event : LedgerEvent} {outbox : OutboxIntent} {state : GlobalHaltState}

theorem Describes.transitionedAt_le (h : Describes codec s events r)
    (hstate : r.state = some state) : ∃ headAt ∈ r.headAuthorityAt, state.transitionedAt ≤ headAt := by
  obtain ⟨e, t, prior, hlast, hfields⟩ := h.current.state state hstate
  have hmem : t.decidedAt ∈ authorityTimes events := by
    obtain ⟨x, hx, hof⟩ := List.mem_filterMap.1 (List.mem_of_getLast? hlast)
    obtain ⟨rfl, hpayload⟩ := transitionOf_eq_some.1 hof
    exact List.mem_filterMap.2 ⟨_, hx, by rw [hpayload]; rfl⟩
  have hne : authorityTimes events ≠ [] := List.ne_nil_of_mem hmem
  refine ⟨(authorityTimes events).getLast hne, ?_, ?_⟩
  · rw [h.head.time]
    exact List.getLast?_eq_some_getLast hne
  · have htime : state.transitionedAt = t.decidedAt := by rw [hfields]; rfl
    rw [htime]
    exact (List.isChain_iff_pairwise.1 h.head.nondecreasing).rel_getLast hmem

theorem Describes.streamId (h : Describes codec s events r) (hstate : r.state = some state) : state.streamId = s := by
  obtain ⟨e, t, prior, -, hfields⟩ := h.current.state state hstate
  rw [hfields]
  rfl

theorem Describes.transitionEventId_mem (h : Describes codec s (ofStream s events) r)
    (hstate : r.state = some state) : state.transitionEventId ∈ events.map (·.eventId) := by
  obtain ⟨e, t, prior, hlast, hfields⟩ := h.current.state state hstate
  obtain ⟨x, hx, hof⟩ := List.mem_filterMap.1 (List.mem_of_getLast? hlast)
  obtain ⟨rfl, -⟩ := transitionOf_eq_some.1 hof
  refine List.mem_map.2 ⟨e, (List.mem_filter.1 hx).1, ?_⟩
  rw [hfields]
  rfl

theorem Describes.keyed (h : Describes codec s events r) {entry : Uuid × PreparedSubmitPermit}
    (hentry : entry ∈ r.prepared) : entry.2.permitId = entry.1 := by
  obtain ⟨_, _, _, _, -, -, -, rfl, -⟩ := h.current.prepared entry hentry
  rfl

variable {permit : PreparedSubmitPermit} {permitId : Uuid}

theorem mem_references :
    permit ∈ r.references permitId ↔ (∃ k, (k, permit) ∈ r.prepared) ∧ permit.permitId = permitId := by
  unfold GlobalHaltReplay.references Dict.values
  rw [List.mem_filter, List.mem_map]
  simp

theorem Describes.get?_of_references (h : Describes codec s events r)
    (hpermit : r.references permit.permitId = [permit]) : r.prepared.get? permit.permitId = some permit := by
  have hmem : permit ∈ r.references permit.permitId := by
    rw [hpermit]
    exact List.mem_singleton_self _
  obtain ⟨⟨k, hk⟩, -⟩ := mem_references.1 hmem
  have hkey : permit.permitId = k := h.keyed hk
  rw [← hkey] at hk
  exact (Dict.get?_eq_some_iff h.permits.keys).2 hk

theorem Describes.notMem_keys (h : Describes codec s events r)
    (hnone : r.references permitId = []) : permitId ∉ r.prepared.keys := by
  intro hmem
  obtain ⟨⟨k, permit⟩, hentry, rfl⟩ := List.mem_map.1 hmem
  have hreference : permit ∈ r.references k := mem_references.2 ⟨⟨k, hentry⟩, h.keyed hentry⟩
  rw [hnone] at hreference
  cases hreference

variable {request : TransitionRequest} {status : GlobalHaltStatus} {reasons : List GlobalHaltReasonCode}
    {digest : Option Sha256}

theorem newTransition_ok (h : newTransition codec r request status reasons digest = .ok (event, outbox)) :
    ∃ payload : GlobalHaltTransition,
      payload.toGlobalHaltTransitionFields = newTransitionFields codec r request status reasons digest ∧
        event = transitionEvent request.streamId r.headSequence request.eventId payload := by
  unfold newTransition at h
  obtain ⟨payload, hpayload, h⟩ := bind_ok_iff.1 h
  obtain ⟨o, -, h⟩ := bind_ok_iff.1 h
  have hpair := Except.ok.inj h
  refine ⟨payload, ?_, (congrArg Prod.fst hpair).symm⟩
  unfold newTransitionPayload at hpayload
  split_ifs at hpayload
  rw [← Except.ok.inj hpayload]

theorem haltStatusReasons_forget {initialization : Bool}
    (h : HaltStatusReasons status reasons initialization digest true) :
    HaltStatusReasons status reasons initialization none false := by
  obtain ⟨hcanonical, h⟩ := h
  refine ⟨hcanonical, ?_⟩
  split_ifs at h ⊢ with hhalted hinit
  · exact ⟨h.1, rfl⟩
  · exact ⟨h.1, rfl⟩
  · exact ⟨h.1, fun habsurd => (nomatch habsurd)⟩

variable {payload : GlobalHaltTransition}

variable (hfields : payload.toGlobalHaltTransitionFields = newTransitionFields codec r request status reasons digest)
include hfields

theorem newTransition_follows (hstatus : ∀ state ∈ r.state, state.status ≠ status)
    (htime : ∀ state ∈ r.state, state.transitionedAt ≤ request.decidedAt) : TransitionFollows payload r.state := by
  cases hstate : r.state with
  | none =>
    unfold TransitionFollows
    rw [hfields]
    unfold newTransitionFields
    rw [hstate]
    exact ⟨rfl, rfl⟩
  | some prior =>
    have hne := hstatus prior hstate
    unfold TransitionFollows
    rw [hfields]
    unfold newTransitionFields
    rw [hstate]
    refine ⟨rfl, rfl, rfl, htime prior hstate, fun hactive => ?_, fun hhalted => ?_⟩
    · cases status with
      | active => exact absurd hactive hne
      | halted => rfl
    · cases status with
      | active => rfl
      | halted => exact absurd hhalted hne

theorem stateFields_valid (eventId : Uuid) (eventDigest : Sha256) :
    (stateFields s eventId eventDigest payload r.state).Valid := by
  obtain ⟨hpos, -, hreasons⟩ := payload.valid
  refine ⟨hpos, ?_, haltStatusReasons_forget hreasons⟩
  have hgeneration : payload.nextGeneration = (r.state.map fun state => state.generation + 1).getD 1 := by
    rw [hfields]
    rfl
  cases hstate : r.state with
  | none =>
    rw [hstate] at hgeneration
    have hone : (stateFields s eventId eventDigest payload none).generation = 1 := hgeneration
    rw [if_pos hone]
    exact ⟨rfl, rfl⟩
  | some prior =>
    rw [hstate] at hgeneration
    have hgeneration : payload.nextGeneration = prior.generation + 1 := hgeneration
    have hprior := prior.valid.1
    have hne : (stateFields s eventId eventDigest payload (some prior)).generation ≠ 1 := by
      show payload.nextGeneration ≠ 1
      omega
    rw [if_neg hne]
    exact ⟨Option.some_ne_none _, Option.some_ne_none _⟩

omit hfields

theorem Describes.admits (h : Describes codec s events r) (hsequence : event.sequence = r.headSequence + 1)
    (hfresh : event.eventId ∉ events.map (·.eventId))
    (hbindings : requireEventBindings event = .ok ()) {authorityAt : DateTime}
    (hat : authorityTime event.payload = some authorityAt)
    (htime : ∀ headAt ∈ r.headAuthorityAt, headAt ≤ authorityAt) : Admits r event := by
  refine ⟨hsequence, h.head.eventIds ▸ hfresh, hbindings, fun headAt hhead at' hat' => ?_⟩
  obtain rfl := Option.some.inj (hat.symm.trans hat')
  exact htime headAt hhead

theorem transition_continues (h : Describes codec s events r)
    (hplan : newTransition codec r request status reasons digest = .ok (event, outbox))
    (hstatus : ∀ state ∈ r.state, state.status ≠ status)
    (htime : ∀ headAt ∈ r.headAuthorityAt, headAt ≤ request.decidedAt)
    (hfresh : event.eventId ∉ events.map (·.eventId)) : ∃ next, replayStep codec s r event = .ok next := by
  obtain ⟨payload, hfields, rfl⟩ := newTransition_ok hplan
  have hdecided : payload.decidedAt = request.decidedAt := by
    rw [hfields]
    rfl
  refine ⟨_, replayStep_ok_iff.2 ⟨h.admits rfl hfresh ?_ rfl (hdecided ▸ htime), _,
    .transition payload ⟨_, stateFields_valid hfields _ _⟩ rfl
      (newTransition_follows hfields hstatus fun state hstate => ?_) rfl, rfl⟩⟩
  · exact require_of _ ⟨rfl, rfl, rfl, rfl, rfl, rfl, rfl, rfl, rfl, rfl⟩
  obtain ⟨headAt, hhead, hle⟩ := h.transitionedAt_le hstate
  exact hle.trans (htime headAt hhead)

theorem planObservation_inr (h : planObservation codec request r = .ok (.inr (event, outbox))) :
    ∃ status reasons, newTransition codec r request status reasons none = .ok (event, outbox) ∧
      (∀ state ∈ r.state, state.status = .active ∧ status = .halted) ∧
      ∀ headAt ∈ r.headAuthorityAt, headAt ≤ request.decidedAt := by
  unfold planObservation at h
  obtain ⟨reasons, -, h⟩ := bind_ok_iff.1 h
  obtain ⟨-, -, h⟩ := bind_ok_iff.1 h
  -- every branch that appends goes through the same last steps
  have hrotate : ∀ {status : GlobalHaltStatus} {reasons : List GlobalHaltReasonCode}, (do
        require (∀ headAt ∈ r.headAuthorityAt, headAt ≤ request.decidedAt) authorityFailure
        let appended ← rescue (newTransition codec r request status reasons none)
          transitionRecordingFailure
        return (Sum.inr appended : GlobalHaltState ⊕ LedgerEvent × OutboxIntent)) =
        Except.ok (.inr (event, outbox)) →
      newTransition codec r request status reasons none = .ok (event, outbox) ∧
        ∀ headAt ∈ r.headAuthorityAt, headAt ≤ request.decidedAt := by
    intro status reasons h
    obtain ⟨_, htime, h⟩ := bind_ok_iff.1 h
    obtain ⟨appended, happended, h⟩ := bind_ok_iff.1 h
    obtain rfl := Sum.inr.inj (Except.ok.inj h)
    exact ⟨rescue_ok_iff.1 happended, require_ok_iff.1 htime⟩
  cases hstate : r.state with
  | none =>
    simp only [hstate] at h
    split_ifs at h with hreasons
    · obtain ⟨hnew, htime⟩ := hrotate h
      exact ⟨_, _, hnew, by simp, htime⟩
    · obtain ⟨hnew, htime⟩ := hrotate h
      exact ⟨_, _, hnew, by simp, htime⟩
  | some state =>
    simp only [hstate] at h
    split_ifs at h with hkept
    · cases h
    · obtain ⟨hnew, htime⟩ := hrotate h
      refine ⟨_, _, hnew, fun state' hstate' => ?_, htime⟩
      obtain rfl := Option.some.inj hstate'
      cases hstatus : state.status with
      | active => exact ⟨rfl, rfl⟩
      | halted => exact absurd (.inl hstatus) hkept

variable {request : RecoveryRequest}

theorem verifyRecoveryAuthorization_true (h : verifyRecoveryAuthorization codec request state = .ok true) :
    RecoveryBindings codec request state ∧
      evaluateGlobalBreaker request.observation request.policy request.safety = .ok [] := by
  unfold verifyRecoveryAuthorization at h
  split at h
  · cases h
  · split_ifs at h
    · obtain ⟨reasons, hreasons, h⟩ := bind_ok_iff.1 h
      obtain ⟨hbindings, rfl⟩ := of_decide_eq_true (Except.ok.inj h)
      exact ⟨hbindings, hreasons⟩
    · cases h

variable {loaded : List LedgerEvent}

theorem planRecovery_inr (h : planRecovery codec request loaded r = .ok (.inr (event, outbox))) :
    ∃ state, r.state = some state ∧ state.status = .halted ∧
      verifyRecoveryAuthorization codec request state = .ok true ∧
      newTransition codec r request.toTransitionRequest .active [.recoveryAuthorized]
        (some request.authorization.authorizationDigest) = .ok (event, outbox) ∧
      ∀ headAt ∈ r.headAuthorityAt, headAt ≤ request.decidedAt := by
  unfold planRecovery at h
  cases hstate : r.state with
  | none =>
    rw [hstate] at h
    cases h
  | some state =>
    simp only [hstate] at h
    cases hstatus : state.status with
    | active =>
      rw [hstatus] at h
      obtain ⟨durable, -, h⟩ := bind_ok_iff.1 h
      cases durable <;> cases h
    | halted =>
      rw [hstatus] at h
      obtain ⟨verified, hverified, h⟩ := bind_ok_iff.1 h
      obtain ⟨_, htrue, h⟩ := bind_ok_iff.1 h
      obtain ⟨_, htime, h⟩ := bind_ok_iff.1 h
      obtain ⟨appended, happended, h⟩ := bind_ok_iff.1 h
      obtain rfl := Sum.inr.inj (Except.ok.inj h)
      rw [require_ok_iff.1 htrue] at hverified
      exact ⟨state, rfl, hstatus, hverified, rescue_ok_iff.1 happended, require_ok_iff.1 htime⟩

theorem alreadyDurableRecovery_some (h : alreadyDurableRecovery codec loaded r request = .ok (some state)) :
    r.state = some state ∧ state.transitionEventId = request.eventId := by
  unfold alreadyDurableRecovery at h
  cases hstate : r.state with
  | none =>
    rw [hstate] at h
    cases h
  | some current =>
    simp only [hstate] at h
    split_ifs at h with hother
    · cases h
    · have hid : current.transitionEventId = request.eventId := by
        by_contra hne
        exact hother (.inr hne)
      obtain ⟨canonical, -, h⟩ := bind_ok_iff.1 h
      split at h
      · cases h
      · split at h
        · obtain ⟨priorReplay, -, h⟩ := bind_ok_iff.1 h
          split at h
          · cases h
          · split_ifs at h
            · cases h
            · obtain ⟨verified, -, h⟩ := bind_ok_iff.1 h
              split_ifs at h
              · cases h
              · obtain ⟨payload, -, h⟩ := bind_ok_iff.1 h
                split at h
                · cases h
                · split_ifs at h
                  · obtain rfl := Option.some.inj (Except.ok.inj h)
                    exact ⟨rfl, hid⟩
                  · cases h
        · cases h

theorem planRecovery_inl (h : planRecovery codec request loaded r = .ok (.inl state)) :
    r.state = some state ∧ state.transitionEventId = request.eventId := by
  unfold planRecovery at h
  cases hstate : r.state with
  | none =>
    rw [hstate] at h
    cases h
  | some current =>
    simp only [hstate] at h
    cases hstatus : current.status with
    | halted =>
      rw [hstatus] at h
      obtain ⟨_, -, h⟩ := bind_ok_iff.1 h
      obtain ⟨_, -, h⟩ := bind_ok_iff.1 h
      obtain ⟨_, -, h⟩ := bind_ok_iff.1 h
      obtain ⟨_, -, h⟩ := bind_ok_iff.1 h
      cases h
    | active =>
      rw [hstatus] at h
      obtain ⟨durable, hdurable, h⟩ := bind_ok_iff.1 h
      cases durable with
      | none => cases h
      | some durable =>
        obtain rfl := Sum.inl.inj (Except.ok.inj h)
        obtain ⟨hsame, hid⟩ := alreadyDurableRecovery_some (mapError_ok_iff.1 hdurable)
        exact ⟨hstate.symm.trans hsame, hid⟩

structure Prepares (codec : AuthorityCodec) (request : PrepareRequest) (decision : RuntimeOrderRiskDecision)
    (r : GlobalHaltReplay) (state : GlobalHaltState) (event : LedgerEvent) : Prop where
  current : r.state = some state
  active : state.status = .active
  since : state.transitionedAt ≤ request.preparedAt
  fresh : requireFreshAdmissibility codec (.preparationError preparationMessage) request.permitId
    request.intent request.policyDecision request.currentObservation request.currentPolicy
    request.preparedAt = .ok ()
  age : 0 ≤ request.preparedAt - decision.decidedAt ∧ request.preparedAt - decision.decidedAt < eventLifetime
  unused : request.permitId ∉ r.consumedPermitIds ∧ request.permitId ∉ r.retiredPermitIds
  unprepared : r.references request.permitId = []
  time : ∀ headAt ∈ r.headAuthorityAt, headAt ≤ request.preparedAt
  appended : event = preparedEvent (newPermit codec request decision state) r.headSequence request.eventId

theorem exactExistingPrepared_none {payload : SubmitPermitPrepared} {eventId : Uuid}
    (h : exactExistingPrepared r payload eventId = .ok none) :
    (payload.permitId ∉ r.consumedPermitIds ∧ payload.permitId ∉ r.retiredPermitIds) ∧
      r.references payload.permitId = [] := by
  unfold exactExistingPrepared at h
  obtain ⟨_, hunused, h⟩ := bind_ok_iff.1 h
  refine ⟨require_ok_iff.1 hunused, ?_⟩
  split at h
  · assumption
  · obtain ⟨_, -, h⟩ := bind_ok_iff.1 h
    cases h
  · cases h

variable {decision : RuntimeOrderRiskDecision}

theorem planPreparation_inr {request : PrepareRequest}
    (h : planPreparation codec request decision r = .ok (.inr (event, outbox))) :
    ∃ state, Prepares codec request decision r state event := by
  unfold planPreparation at h
  obtain ⟨_, hactive, h⟩ := bind_ok_iff.1 h
  obtain ⟨_, hfresh, h⟩ := bind_ok_iff.1 h
  obtain ⟨payload, hpayload, h⟩ := bind_ok_iff.1 h
  obtain ⟨existing, hexisting, h⟩ := bind_ok_iff.1 h
  unfold requireActiveExactAuthority at hactive
  obtain ⟨_, hactive, -⟩ := bind_ok_iff.1 hactive
  obtain ⟨state, hstate, hstatus, hsince, -⟩ := require_ok_iff.1 hactive
  rw [Option.mem_def] at hstate
  rw [hstate] at hpayload
  obtain ⟨_, hage, hpayload⟩ := bind_ok_iff.1 hpayload
  obtain rfl := Except.ok.inj hpayload
  cases existing with
  | some existing => cases h
  | none =>
    obtain ⟨_, htime, h⟩ := bind_ok_iff.1 h
    obtain ⟨o, -, h⟩ := bind_ok_iff.1 h
    obtain ⟨hunused, hunprepared⟩ := exactExistingPrepared_none hexisting
    have hevent := congrArg Prod.fst (Sum.inr.inj (Except.ok.inj h))
    exact ⟨state, hstate, hstatus, hsince, hfresh, require_ok_iff.1 hage, hunused, hunprepared,
      require_ok_iff.1 htime, hevent.symm⟩

theorem preparation_continues (h : Describes codec s events r) {request : PrepareRequest}
    (hplan : Prepares codec request decision r state event) (hfresh : event.eventId ∉ events.map (·.eventId)) :
    ∃ next, replayStep codec s r event = .ok next := by
  obtain ⟨hstate, hactive, hsince, -, -, hunused, hunprepared, htime, rfl⟩ := hplan
  have hstream := h.streamId hstate
  refine ⟨_, replayStep_ok_iff.2 ⟨h.admits rfl hfresh ?_ rfl htime, _, .prepared (newPermit codec request decision state) rfl
    ⟨⟨state, hstate, hactive, hstream, rfl, rfl, rfl, hsince⟩, h.notMem_keys hunprepared, hunused⟩, rfl⟩⟩
  exact require_of _ ⟨rfl, rfl, rfl, rfl, rfl, rfl, rfl, rfl, rfl, rfl⟩

theorem consumption_continues (h : Describes codec s events r) {request : ConsumeRequest}
    (hpermit : r.references request.permit.permitId = [request.permit])
    (hbindings : ConsumptionBindings codec request r) (hfresh : request.consumedEventId ∉ events.map (·.eventId)) :
    ∃ next, replayStep codec s r (consumedEvent (consumedPayload request.permit request.consumedAt)
      r.headSequence request.consumedEventId) = .ok next := by
  obtain ⟨-, hwindow, -, htime, ⟨state, hstate, hactive, hstream, hgeneration, hid, hdigest⟩, -⟩ := hbindings
  obtain ⟨headAt, hhead, hle⟩ := h.transitionedAt_le hstate
  have hget := h.get?_of_references hpermit
  refine ⟨_, replayStep_ok_iff.2 ⟨h.admits rfl hfresh ?_ rfl htime, _,
    .consumed (consumedPayload request.permit request.consumedAt) rfl ⟨request.permit, hget, state, hstate,
      hactive, rfl, rfl, rfl, rfl, hstream, hgeneration, hid, hdigest, hle.trans (htime headAt hhead), hwindow⟩,
    rfl⟩⟩
  exact require_of _ ⟨rfl, rfl, rfl, rfl, rfl, rfl, rfl, rfl, rfl, rfl⟩

end TradingAgent.RuntimeRisk
