import TradingAgent.RuntimeRisk.HaltSafety

/-! Every consumption is backed by an approval that was evaluated. -/

namespace TradingAgent.RuntimeRisk

open Outcome Interaction EventLedger

/-! ## Evaluations -/

section

variable {codec : ModelCodec} {decisionId : Uuid} {intent : OrderIntent} {policyDecision : RiskDecision}
  {observation : RuntimeRiskObservation} {policy : RuntimeRiskPolicy} {decidedAt : DateTime}
  {decision : RuntimeOrderRiskDecision}

/-- The evaluation approves the order within the limits, whatever identity its decision has. -/
def ApprovesAt (codec : ModelCodec) (intent : OrderIntent) (policyDecision : RiskDecision)
    (observation : RuntimeRiskObservation) (policy : RuntimeRiskPolicy) (decidedAt : DateTime) : Prop :=
  ∀ decisionId, ∃ decision,
    evaluateRuntimeOrderRisk intent policyDecision observation policy decidedAt codec decisionId = .ok decision ∧
      decision.outcome = .approved ∧ decision.reasonCodes = [.withinLimits]

theorem decision_of_ok {fields : RuntimeOrderRiskFields} (h : RuntimeOrderRiskDecision.of fields = .ok decision) :
    decision.toRuntimeOrderRiskFields = fields := by
  unfold RuntimeOrderRiskDecision.of at h
  split_ifs at h
  rw [← Except.ok.inj h]

variable (h : evaluateRuntimeOrderRisk intent policyDecision observation policy decidedAt codec decisionId = .ok decision)
include h

theorem evaluateRuntimeOrderRisk_ok :
    ∃ projection reasons, decision.toRuntimeOrderRiskFields = decisionFields intent policyDecision observation
        policy decidedAt codec decisionId projection reasons ∧
      ∀ id, evaluateRuntimeOrderRisk intent policyDecision observation policy decidedAt codec id =
        RuntimeOrderRiskDecision.of (decisionFields intent policyDecision observation policy decidedAt codec id
          projection reasons) := by
  unfold evaluateRuntimeOrderRisk at h
  obtain ⟨_, hdigests, h⟩ := bind_ok_iff.1 h
  obtain ⟨_, htime, h⟩ := bind_ok_iff.1 h
  obtain ⟨⟨projection, failed⟩, hattempt, h⟩ := bind_ok_iff.1 h
  refine ⟨projection, reasonsOf (riskChecks intent policyDecision observation policy decidedAt projection
    failed), ?_, fun id => ?_⟩
  · exact decision_of_ok h
  · unfold evaluateRuntimeOrderRisk
    rw [hdigests, ok_bind, htime, ok_bind, hattempt, ok_bind]

theorem approvesAt_of (houtcome : decision.outcome = .approved) :
    ApprovesAt codec intent policyDecision observation policy decidedAt := by
  intro id
  obtain ⟨projection, reasons, hfields, hall⟩ := evaluateRuntimeOrderRisk_ok h
  -- the checks of a decision do not look at its identity
  have hvalid : (decisionFields intent policyDecision observation policy decidedAt codec id projection
      reasons).Valid := by
    have hdecision := decision.valid
    rw [hfields] at hdecision
    exact hdecision
  rw [hfields] at houtcome
  refine ⟨⟨_, hvalid⟩, (hall id).trans (dif_pos hvalid), houtcome, ?_⟩
  have hreasons := hvalid.2.2.2
  have houtcome' : (decisionFields intent policyDecision observation policy decidedAt codec id projection
      reasons).outcome = .approved := houtcome
  simp only [houtcome'] at hreasons
  exact hreasons.1

omit h

theorem approvesAt_of_fresh {codec : AuthorityCodec} {failure : List RuntimeRiskReasonCode → AuthorityFailure}
    (h : requireFreshAdmissibility codec failure decisionId intent policyDecision observation policy decidedAt =
      .ok ()) : ApprovesAt codec.models intent policyDecision observation policy decidedAt := by
  unfold requireFreshAdmissibility at h
  split at h
  · cases h
  · rename_i fresh hfresh
    exact approvesAt_of hfresh (require_ok_iff.1 h).1

end

/-! ## Verified approvals -/

section

variable {codec : AuthorityCodec} {reference : DurableOrderApprovalRef} {intent : OrderIntent}
  {policyDecision : RiskDecision} {observation : RuntimeRiskObservation} {policy : RuntimeRiskPolicy}
  {approval : LedgerEvent} {verified : RuntimeOrderRiskDecision}

structure Binds (codec : AuthorityCodec) (intent : OrderIntent) (policyDecision : RiskDecision)
    (observation : RuntimeRiskObservation) (policy : RuntimeRiskPolicy) (decision : RuntimeOrderRiskDecision) :
    Prop where
  approved : decision.outcome = .approved
  toIntent : decision.intentDigest = canonicalModelDigest codec.models (.intent intent)
  toPolicyDecision : decision.policyRiskDecisionDigest =
    canonicalModelDigest codec.models (.policyDecision policyDecision)
  toPolicy : decision.policyDigest = canonicalModelDigest codec.models (.policy policy)
  toObservation : decision.observationDigest = canonicalModelDigest codec.models (.observation observation)
  toPortfolio : decision.portfolioDigest =
    canonicalModelDigest codec.models (.portfolio observation.portfolio)

theorem verifyLoadedApproval_ok (hround : codec.ledger.RoundTrips)
    (h : verifyLoadedApproval codec reference intent policyDecision observation policy approval = .ok verified) :
    ∃ decision, approval.payload = .decision decision ∧ Binds codec intent policyDecision observation policy decision ∧
      Binds codec intent policyDecision observation policy verified ∧ verified.decidedAt = decision.decidedAt ∧
      ApprovesAt codec.models intent policyDecision observation policy decision.decidedAt := by
  unfold verifyLoadedApproval at h
  obtain ⟨canonical, hcanonical, h⟩ := bind_ok_iff.1 h
  obtain ⟨rfl, decision, hdecision, -⟩ := canonicalRuntimeEvent_ok hround (rescue_ok_iff.1 hcanonical)
  obtain ⟨payload, hpayload, h⟩ := bind_ok_iff.1 h
  have hsame : payload = decision := by
    have hpayload := rescue_ok_iff.1 hpayload
    unfold decisionOf at hpayload
    rw [hdecision] at hpayload
    exact (Except.ok.inj hpayload).symm
  subst hsame
  obtain ⟨_, houtcome, h⟩ := bind_ok_iff.1 h
  split at h
  · cases h
  · rename_i expected hexpected
    obtain ⟨_, hbound, h⟩ := bind_ok_iff.1 h
    obtain rfl := Except.ok.inj h
    obtain ⟨happroved, -, hintent, hpolicyDecision, hportfolio, hobservation, hpolicy, -⟩ :=
      require_ok_iff.1 hbound
    obtain ⟨projection, reasons, hfields, -⟩ := evaluateRuntimeOrderRisk_ok hexpected
    refine ⟨payload, hdecision, ⟨require_ok_iff.1 houtcome, hintent.symm, hpolicyDecision.symm, hpolicy.symm,
      hobservation.symm, hportfolio.symm⟩, ⟨happroved, ?_, ?_, ?_, ?_, ?_⟩, ?_, approvesAt_of hexpected happroved⟩
    all_goals rw [hfields]; rfl

end

/-! ## The approval of a consumption -/

def AuthorityCall.models : AuthorityCall → List CanonicalModel
  | .prepare request =>
    [.intent request.intent, .policyDecision request.policyDecision,
      .observation request.approvalObservation, .policy request.approvalPolicy,
      .observation request.currentObservation, .policy request.currentPolicy,
      .portfolio request.currentObservation.portfolio]
  | .consume request =>
    [.intent request.intent, .policyDecision request.policyDecision,
      .observation request.currentObservation, .policy request.currentPolicy,
      .portfolio request.currentObservation.portfolio]
  | _ => []

/-- No two contracts of the calls have the same digest. -/
def DigestsInjective (codec : AuthorityCodec) (calls : List AuthorityCall) : Prop :=
  ∀ m ∈ calls.flatMap AuthorityCall.models, ∀ m' ∈ calls.flatMap AuthorityCall.models,
    canonicalModelDigest codec.models m = canonicalModelDigest codec.models m' → m = m'

instance (codec : AuthorityCodec) (calls : List AuthorityCall) : Decidable (DigestsInjective codec calls) :=
  inferInstanceAs (Decidable (∀ _ ∈ _, ∀ _ ∈ _, _ → _))

/-- The event is an approval of the order that is consumed, made less than five minutes before the permit
was prepared. -/
def ApprovalFor (codec : AuthorityCodec) (request : ConsumeRequest) (event : LedgerEvent) : Prop :=
  ∃ decision, event.payload = .decision decision ∧
    Binds codec request.intent request.policyDecision request.currentObservation request.currentPolicy
      decision ∧
    0 ≤ request.permit.preparedAt - decision.decidedAt ∧
    request.permit.preparedAt - decision.decidedAt < TimeDelta.minutes 5

/-- The decision approves at its own time, at preparation and at consumption. -/
def ApprovedThroughout (codec : AuthorityCodec) (request : ConsumeRequest) (event : LedgerEvent) : Prop :=
  ∃ decision, event.payload = .decision decision ∧
    ∀ t ∈ [decision.decidedAt, request.permit.preparedAt, request.consumedAt],
      ApprovesAt codec.models request.intent request.policyDecision request.currentObservation
        request.currentPolicy t

section Backing

variable {codec : AuthorityCodec} {calls : List AuthorityCall} {store : AuthorityStore} {n : ℕ}
  {request : ConsumeRequest}

theorem exists_insertion {log : List Insertion} {event : LedgerEvent} (h : event ∈ eventsOf log) :
    ∃ before i after, log = before ++ i :: after ∧ i.event = event := by
  obtain ⟨i, hi, rfl⟩ := List.mem_map.1 h
  obtain ⟨before, after, hlog⟩ := List.append_of_mem hi
  exact ⟨before, i, after, hlog, rfl⟩

theorem Holds.preparation (h : Holds codec calls store) {event : LedgerEvent}
    (hevent : event ∈ eventsOf store.log) {payload : SubmitPermitPrepared}
    (hpayload : event.payload = .prepared payload) :
    ∃ prepare r approval decision state, .prepare prepare ∈ calls ∧ approval ∈ eventsOf store.log ∧
      approval.eventId = prepare.approvalReference.eventId ∧
      verifyLoadedApproval codec prepare.approvalReference prepare.intent prepare.policyDecision
        prepare.approvalObservation prepare.approvalPolicy approval = .ok decision ∧
      requireExactCurrentBindings codec prepare decision = .ok () ∧
      Prepares codec prepare decision r state event ∧ payload = newPermit codec prepare decision state := by
  obtain ⟨before, i, after, hlog, rfl⟩ := exists_insertion hevent
  obtain ⟨call, hcall, hproduces⟩ := h.produced before i after hlog
  generalize hi : i.event = event at hproduces hpayload
  cases hproduces with
  | decision hother _ => rw [hpayload] at hother; cases hother
  | observation _ hplan =>
    obtain ⟨_, _, hnew, -⟩ := planObservation_inr hplan
    obtain ⟨t, -, rfl⟩ := newTransition_ok hnew
    cases hpayload
  | recovery _ _ hplan =>
    obtain ⟨_, -, -, -, hnew, -⟩ := planRecovery_inr hplan
    obtain ⟨t, -, rfl⟩ := newTransition_ok hnew
    cases hpayload
  | @preparation prepare r approval _ decision state hstored hid hverified hbindings _ hplan =>
    refine ⟨prepare, r, approval, decision, state, List.mem_of_getElem? hcall, ?_, hid, hverified, hbindings, hplan, ?_⟩
    · rw [hlog, eventsOf_append]
      exact List.mem_append_left _ hstored
    · rw [hplan.appended] at hpayload
      exact (LedgerPayload.prepared.inj hpayload).symm
  | consumption _ _ _ => cases hpayload

theorem run_consumption (hround : codec.ledger.RoundTrips) {schedule : List ℕ}
    {authority : ConsumedSubmitAuthority} (hcall : calls[n]? = some (.consume request))
    (hresult : resultOf (runAuthority codec calls schedule) n = some (.ok (.consumed authority))) :
    ∃ before r, before <+: (runAuthority codec calls schedule).store.log ∧
      streamReplay codec request.permit.haltStreamId (ofStream request.permit.haltStreamId (eventsOf before)) = .ok r ∧
      r.references request.permit.permitId = [request.permit] ∧
      requireCurrentConsumptionAuthority codec request r = .ok () := by
  obtain ⟨h, hreturned⟩ := run_holds hround calls schedule
  obtain ⟨t, ht, i, hi, rfl, hpayload, -⟩ := hreturned n _ hresult
  obtain ⟨before, after, hlog⟩ := List.append_of_mem (ht.mem hi)
  obtain ⟨call, hcall', hproduces⟩ := h.produced before i after hlog
  obtain rfl := Option.some.inj (hcall.symm.trans hcall')
  generalize i.event = event at hproduces
  cases hproduces with
  | @consumption _ r hreplay hpermit hcurrent =>
    exact ⟨before, r, ⟨i :: after, hlog.symm⟩, hreplay, hpermit, hcurrent⟩

theorem DigestsInjective.eq (h : DigestsInjective codec calls) {call call' : AuthorityCall} {m m' : CanonicalModel}
    (hcall : call ∈ calls) (hm : m ∈ call.models) (hcall' : call' ∈ calls) (hm' : m' ∈ call'.models)
    (hdigest : canonicalModelDigest codec.models m = canonicalModelDigest codec.models m') : m = m' :=
  h m (List.mem_flatMap.2 ⟨call, hcall, hm⟩) m' (List.mem_flatMap.2 ⟨call', hcall', hm'⟩) hdigest

theorem consumed_permit_prepared (hround : codec.ledger.RoundTrips) (h : Holds codec calls store)
    (hdigests : DigestsInjective codec calls) (hcall : .consume request ∈ calls) {before : List Insertion}
    (hbefore : before <+: store.log) {r : GlobalHaltReplay} (hreplay : streamReplay codec request.permit.haltStreamId
      (ofStream request.permit.haltStreamId (eventsOf before)) = .ok r)
    (hpermit : r.references request.permit.permitId = [request.permit])
    (hbindings : ConsumptionBindings codec request r) :
    ∃ prepare r' approval decision state event, approval ∈ eventsOf store.log ∧
      approval.eventId = request.permit.approvalEventId ∧
      verifyLoadedApproval codec prepare.approvalReference request.intent request.policyDecision
        request.currentObservation request.currentPolicy approval = .ok decision ∧
      Prepares codec prepare decision r' state event ∧
      request.permit.toSubmitPermitPrepared = newPermit codec prepare decision state ∧
      prepare.intent = request.intent ∧ prepare.policyDecision = request.policyDecision ∧
      prepare.currentObservation = request.currentObservation ∧ prepare.currentPolicy = request.currentPolicy := by
  have hdescribes := describes_of_streamReplay hreplay
  obtain ⟨earlier, event, payload, later, hevents, hprepared, -, hentry, -⟩ :=
    hdescribes.current.prepared _ (Dict.mem_of_get?_eq_some (hdescribes.get?_of_references hpermit))
  have hreference : request.permit = referenceTo codec event payload := (Prod.mk.inj hentry).2
  have hstream : event ∈ ofStream request.permit.haltStreamId (eventsOf before) := by
    rw [hevents]
    exact List.mem_append_right _ List.mem_cons_self
  have hmem : event ∈ eventsOf store.log := mem_eventsOf_of_le hbefore (mem_ofStream.1 hstream).1
  obtain ⟨prepare, r', approval, decision, state, hprepare, hstored, hid, hverified, hcurrent, hplan, hnew⟩ :=
    h.preparation hmem hprepared
  have hpayload : request.permit.toSubmitPermitPrepared = newPermit codec prepare decision state := by
    rw [hreference, ← hnew]
    rfl
  -- the digests of the permit are those of the contracts of both calls
  obtain ⟨-, -, -, hbound, -⟩ := verifyLoadedApproval_ok hround hverified
  obtain ⟨⟨hintent, hpolicyDecision⟩, -, -, -, -, hpolicy, hobservation, -⟩ := hbindings
  unfold requireExactCurrentBindings at hcurrent
  obtain ⟨-, -, hsameObservation, hsamePolicy, -⟩ := require_ok_iff.1 hcurrent
  rw [hpayload] at hintent hpolicyDecision hpolicy hobservation
  have hintentEq := CanonicalModel.intent.inj (hdigests.eq hcall (by simp [AuthorityCall.models]) hprepare
    (by simp [AuthorityCall.models]) (hintent.trans hbound.toIntent))
  have hpolicyDecisionEq := CanonicalModel.policyDecision.inj (hdigests.eq hcall (by simp [AuthorityCall.models])
    hprepare (by simp [AuthorityCall.models]) (hpolicyDecision.trans hbound.toPolicyDecision))
  have hobservationEq := CanonicalModel.observation.inj (hdigests.eq hcall (by simp [AuthorityCall.models]) hprepare
    (by simp [AuthorityCall.models]) hobservation)
  have hpolicyEq := CanonicalModel.policy.inj (hdigests.eq hcall (by simp [AuthorityCall.models]) hprepare
    (by simp [AuthorityCall.models]) hpolicy)
  have happrovalObservation := CanonicalModel.observation.inj (hdigests.eq hprepare
    (by simp [AuthorityCall.models]) hprepare (by simp [AuthorityCall.models]) hsameObservation)
  have happrovalPolicy := CanonicalModel.policy.inj (hdigests.eq hprepare (by simp [AuthorityCall.models]) hprepare
    (by simp [AuthorityCall.models]) hsamePolicy)
  refine ⟨prepare, r', approval, decision, state, event, hstored, ?_, ?_, hplan, hpayload, hintentEq.symm,
    hpolicyDecisionEq.symm, hobservationEq.symm, hpolicyEq.symm⟩
  · rw [hpayload, hid]
    rfl
  · rw [hintentEq, hpolicyDecisionEq, hobservationEq, hpolicyEq, happrovalObservation, happrovalPolicy]
    exact hverified

/-- Exactly one stored event has the identity that the permit names, and it approves the contracts of the
consumption. -/
theorem consumption_backed_by_approval (codec : AuthorityCodec) (hround : codec.ledger.RoundTrips)
    (calls : List AuthorityCall) (hdigests : DigestsInjective codec calls) (schedule : List ℕ) (n : ℕ)
    (request : ConsumeRequest) (authority : ConsumedSubmitAuthority)
    (hcall : calls[n]? = some (.consume request))
    (hresult : resultOf (runAuthority codec calls schedule) n = some (.ok (.consumed authority))) :
    ∃ events, loadEvents codec.ledger (runAuthority codec calls schedule).store.ledger = .ok events ∧
      ∃ approval, (approval ∈ events ∧ approval.eventId = request.permit.approvalEventId) ∧
        (∀ event ∈ events, event.eventId = request.permit.approvalEventId → event = approval) ∧
        ApprovalFor codec request approval ∧ ApprovedThroughout codec request approval := by
  have h := (run_holds hround calls schedule).1
  obtain ⟨before, r, hbefore, hreplay, hpermit, hcurrent⟩ := run_consumption hround hcall hresult
  unfold requireCurrentConsumptionAuthority at hcurrent
  obtain ⟨_, hbindings, hcurrent⟩ := bind_ok_iff.1 hcurrent
  obtain ⟨reasons, -, hcurrent⟩ := bind_ok_iff.1 hcurrent
  obtain ⟨_, -, hfresh⟩ := bind_ok_iff.1 hcurrent
  obtain ⟨prepare, r', approval, decision, state, event, hstored, hid, hverified, hplan, hpayload, hintent,
    hpolicyDecision, hobservation, hpolicy⟩ := consumed_permit_prepared hround h hdigests
      (List.mem_of_getElem? hcall) hbefore hreplay hpermit (require_ok_iff.1 hbindings)
  obtain ⟨recorded, hrecorded, hbinds, -, hdecided, happroves⟩ := verifyLoadedApproval_ok hround hverified
  have hpreparedAt : request.permit.preparedAt = prepare.preparedAt := by
    rw [hpayload]
    rfl
  have hage := hplan.age
  rw [hdecided, ← hpreparedAt] at hage
  have hfreshPrepared := approvesAt_of_fresh hplan.fresh
  rw [hintent, hpolicyDecision, hobservation, hpolicy, ← hpreparedAt] at hfreshPrepared
  refine ⟨_, h.load hround, approval, ⟨mem_loadedEvents.2 hstored, hid⟩, fun other hother hsame => ?_,
    ⟨recorded, hrecorded, hbinds, hage⟩, recorded, hrecorded, fun t ht => ?_⟩
  · exact List.inj_on_of_nodup_map h.recorded.distinct (mem_loadedEvents.1 hother) hstored
      (hsame.trans hid.symm)
  · simp only [List.mem_cons, List.not_mem_nil, or_false] at ht
    rcases ht with rfl | rfl | rfl
    · exact happroves
    · exact hfreshPrepared
    · exact approvesAt_of_fresh hfresh

end Backing

/-! ## One order, two approvals -/

def sampleAuthority (request : ConsumeRequest) (head : ℕ) : ConsumedSubmitAuthority :=
  consumedReference (sampleAuthorityCodec []) (consumedPayload request.permit request.consumedAt)
    request.consumedEventId ((sampleAuthorityCodec []).ledger.eventJson (sampleConsumedEvent request head))

theorem sample_consumption_backed : ∃ events, loadEvents (sampleAuthorityCodec sampleRunEvents).ledger
        (runAuthority (sampleAuthorityCodec sampleRunEvents) sampleCalls sampleSchedule).store.ledger =
          .ok events ∧
      ∃ approval, (approval ∈ events ∧ approval.eventId = 21) ∧
        (∀ event ∈ events, event.eventId = 21 → event = approval) ∧
        ApprovalFor (sampleAuthorityCodec sampleRunEvents) (sampleConsume (samplePrepare 21 7 13 0) 1 15)
          approval ∧
        ApprovedThroughout (sampleAuthorityCodec sampleRunEvents)
          (sampleConsume (samplePrepare 21 7 13 0) 1 15) approval :=
  consumption_backed_by_approval _ sampleRun_roundTrips sampleCalls (by decide +kernel) sampleSchedule 3 _
    (sampleAuthority (sampleConsume (samplePrepare 21 7 13 0) 1 15) 2) rfl (by decide +kernel)

def repeatedApprovalCalls : List AuthorityCall :=
  [.recordDecision (sampleDecisionEvent 21 0), .recordDecision (sampleDecisionEvent 22 1),
    .observe (sampleTransitionRequest .inactive 11 0), .prepare (samplePrepare 21 7 13 0),
    .consume (sampleConsume (samplePrepare 21 7 13 0) 1 15)]

def repeatedApprovalEvents : List LedgerEvent :=
  [sampleDecisionEvent 21 0, sampleDecisionEvent 22 1, sampleInitialEvent,
    samplePreparedEvent (samplePrepare 21 7 13 0) 1,
    sampleConsumedEvent (sampleConsume (samplePrepare 21 7 13 0) 1 15) 2]

def repeatedApprovalSchedule : List ℕ := [0, 0, 1, 1, 2, 2, 2, 3, 3, 3, 3, 4, 4, 4]

theorem sampleDecision_approves (eventId : Uuid) (head : ℕ) :
    ApprovalFor (sampleAuthorityCodec repeatedApprovalEvents) (sampleConsume (samplePrepare 21 7 13 0) 1 15)
      (sampleDecisionEvent eventId head) :=
  ⟨sampleDecision, rfl, ⟨by decide +kernel, by decide +kernel, by decide +kernel, by decide +kernel,
    by decide +kernel, by decide +kernel⟩, by decide +kernel, by decide +kernel⟩

/-- One decision recorded under two identities: two stored events approve the consumed order. -/
theorem two_events_approve_one_order : ¬ ∀ (codec : AuthorityCodec) (calls : List AuthorityCall)
    (schedule : List ℕ) (n : ℕ) (request : ConsumeRequest) (authority : ConsumedSubmitAuthority),
    codec.ledger.RoundTrips → DigestsInjective codec calls → calls[n]? = some (.consume request) →
      resultOf (runAuthority codec calls schedule) n = some (.ok (.consumed authority)) →
      ∃ events, loadEvents codec.ledger (runAuthority codec calls schedule).store.ledger = .ok events ∧
        ∃! approval, approval ∈ events ∧ ApprovalFor codec request approval := by
  intro h
  have hround : (sampleAuthorityCodec repeatedApprovalEvents).ledger.RoundTrips :=
    sampleAuthorityCodec_roundTrips (by decide +kernel)
  obtain ⟨events, hload, approval, -, hunique⟩ := h (sampleAuthorityCodec repeatedApprovalEvents)
    repeatedApprovalCalls repeatedApprovalSchedule 4 (sampleConsume (samplePrepare 21 7 13 0) 1 15)
    (sampleAuthority (sampleConsume (samplePrepare 21 7 13 0) 1 15) 2) hround (by decide +kernel) rfl
    (by decide +kernel)
  rw [(run_holds hround _ _).1.load hround] at hload
  have hevents : ∀ event ∈ repeatedApprovalEvents, event ∈ events := by
    have hlog : eventsOf (runAuthority (sampleAuthorityCodec repeatedApprovalEvents) repeatedApprovalCalls
        repeatedApprovalSchedule).store.log = repeatedApprovalEvents := by
      decide +kernel
    intro event hevent
    rw [← Except.ok.inj hload, mem_loadedEvents, hlog]
    exact hevent
  have hfirst := hunique _ ⟨hevents (sampleDecisionEvent 21 0) (by simp [repeatedApprovalEvents]),
    sampleDecision_approves 21 0⟩
  have hsecond := hunique _ ⟨hevents (sampleDecisionEvent 22 1) (by simp [repeatedApprovalEvents]),
    sampleDecision_approves 22 1⟩
  have hids : (sampleDecisionEvent 21 0).eventId = (sampleDecisionEvent 22 1).eventId := by
    rw [hfirst, hsecond]
  exact absurd hids (by decide)

/-! ## One approval, two permits -/

/-- The event consumes the prepared permit. -/
def Consumes (stream : List LedgerEvent) (event prepared : LedgerEvent) (permit : SubmitPermitPrepared) :
    Prop :=
  (event ∈ stream ∧ prepared ∈ stream) ∧ prepared.payload = .prepared permit ∧
    ∃ payload, event.payload = .consumed payload ∧ payload.permitId = permit.permitId

/-- Consumptions and permits are matched. -/
structure SpentOneToOne (stream : List LedgerEvent) : Prop where
  spends : ∀ event ∈ stream, ∀ payload, event.payload = .consumed payload →
    ∃! prepared, ∃ permit, Consumes stream event prepared permit
  once : ∀ event event' prepared permit, Consumes stream event prepared permit →
    Consumes stream event' prepared permit → event = event'

section OneToOne

variable {codec : AuthorityCodec} {calls : List AuthorityCall} {store : AuthorityStore} {s : Uuid}

theorem Holds.prepared_nodup (h : Holds codec calls store) (s : Uuid) :
    ((ofStream s (eventsOf store.log)).filterMap preparedId).Nodup := by
  obtain ⟨history, decisions, r, hsplit, hreplay, hdecisions⟩ := h.split s (List.append_nil _).symm
  have hnil : decisions.filterMap preparedId = [] := by
    refine List.filterMap_eq_nil_iff.2 fun e he => ?_
    obtain ⟨⟨payload, hpayload⟩, -⟩ := hdecisions e he
    unfold preparedId
    rw [hpayload]
  rw [hsplit, List.filterMap_append, hnil, List.append_nil]
  exact (describes_of_streamReplay hreplay).permits.distinct

variable {event : LedgerEvent}

theorem preparedId_of {payload : SubmitPermitPrepared}
    (h : event.payload = .prepared payload) : preparedId event = some payload.permitId := by
  unfold preparedId
  rw [h]

theorem consumedId_of {payload : SubmitPermitConsumed}
    (h : event.payload = .consumed payload) : consumedId event = some payload.permitId := by
  unfold consumedId
  rw [h]

theorem Holds.spentOneToOne (h : Holds codec calls store) (s : Uuid) :
    SpentOneToOne (ofStream s (eventsOf store.log)) := by
  obtain ⟨history, decisions, r, hsplit, hreplay, hdecisions⟩ := h.split s (List.append_nil _).symm
  have hsafe := haltStreamSafe_of_split hreplay fun e he => (hdecisions e he).1
  rw [← hsplit] at hsafe
  refine ⟨fun event hevent payload hpayload => ?_, fun event event' prepared permit hspent hspent' => ?_⟩
  · obtain ⟨before, after, hstream⟩ := List.append_of_mem hevent
    obtain ⟨earlier, prepared, permit, later, -, -, hbefore, hprepared, hpermit, -⟩ :=
      hsafe.consumed before event after payload hstream hpayload
    have hmem : prepared ∈ ofStream s (eventsOf store.log) := by
      rw [hstream, hbefore]
      simp
    refine ⟨prepared, ⟨permit, ⟨hevent, hmem⟩, hprepared, payload, hpayload, hpermit⟩, ?_⟩
    rintro other ⟨permit', ⟨-, hother⟩, hother', payload', hpayload', hpermit'⟩
    rw [hpayload] at hpayload'
    cases hpayload'
    refine eq_of_nodup_filterMap (h.prepared_nodup s) hother hmem (preparedId_of hother') ?_
    rw [preparedId_of hprepared, ← hpermit, hpermit']
  · obtain ⟨⟨hevent, -⟩, -, payload, hpayload, hpermit⟩ := hspent
    obtain ⟨⟨hevent', -⟩, -, payload', hpayload', hpermit'⟩ := hspent'
    refine eq_of_nodup_filterMap (h.consumed_nodup s) hevent hevent' (consumedId_of hpayload) ?_
    rw [consumedId_of hpayload', hpermit', hpermit]

/-- No two consumptions of a stream spend the same prepared permit. -/
theorem consumptions_spend_their_own_permit (codec : AuthorityCodec) (hround : codec.ledger.RoundTrips)
    (calls : List AuthorityCall) (schedule : List ℕ) :
    ∃ events, loadEvents codec.ledger (runAuthority codec calls schedule).store.ledger = .ok events ∧
      ∀ s, SpentOneToOne (ofStream s events) := by
  have h := (run_holds hround calls schedule).1
  refine ⟨_, h.load hround, fun s => ?_⟩
  rw [h.recorded.ofStream_loadedEvents]
  exact h.spentOneToOne s

end OneToOne

theorem sample_consumption_spends_its_permit :
    ∃ events, loadEvents (sampleAuthorityCodec sampleRunEvents).ledger
        (runAuthority (sampleAuthorityCodec sampleRunEvents) sampleCalls sampleSchedule).store.ledger =
          .ok events ∧
      ∀ s, SpentOneToOne (ofStream s events) :=
  consumptions_spend_their_own_permit _ sampleRun_roundTrips _ _

def doubleSubmitCalls : List AuthorityCall :=
  [.recordDecision (sampleDecisionEvent 21 0), .observe (sampleTransitionRequest .inactive 11 0),
    .prepare (samplePrepare 21 7 13 0), .prepare (samplePrepare 21 8 14 0),
    .consume (sampleConsume (samplePrepare 21 7 13 0) 1 15),
    .consume (sampleConsume (samplePrepare 21 8 14 0) 2 16)]

def doubleSubmitEvents : List LedgerEvent :=
  [sampleDecisionEvent 21 0, sampleInitialEvent, samplePreparedEvent (samplePrepare 21 7 13 0) 1,
    samplePreparedEvent (samplePrepare 21 8 14 0) 2,
    sampleConsumedEvent (sampleConsume (samplePrepare 21 7 13 0) 1 15) 3,
    sampleConsumedEvent (sampleConsume (samplePrepare 21 8 14 0) 2 16) 4]

def doubleSubmitSchedule : List ℕ := [0, 0, 1, 1, 1, 2, 2, 2, 2, 3, 3, 3, 3, 4, 4, 4, 5, 5, 5]

/-- Two permits prepared from one approval are both consumed. -/
theorem one_approval_consumed_twice : ¬ ∀ (codec : AuthorityCodec) (calls : List AuthorityCall)
    (schedule : List ℕ), codec.ledger.RoundTrips →
      ∃ events, loadEvents codec.ledger (runAuthority codec calls schedule).store.ledger = .ok events ∧
        ∀ s event event' prepared prepared' permit permit',
          Consumes (ofStream s events) event prepared permit →
          Consumes (ofStream s events) event' prepared' permit' →
          permit.approvalEventId = permit'.approvalEventId → event = event' := by
  intro h
  have hround : (sampleAuthorityCodec doubleSubmitEvents).ledger.RoundTrips :=
    sampleAuthorityCodec_roundTrips (by decide +kernel)
  obtain ⟨events, hload, hunique⟩ := h (sampleAuthorityCodec doubleSubmitEvents) doubleSubmitCalls
    doubleSubmitSchedule hround
  have hrecorded := (run_holds hround doubleSubmitCalls doubleSubmitSchedule).1
  rw [hrecorded.load hround] at hload
  have hstream : ofStream 1 events = doubleSubmitEvents.drop 1 := by
    have hlog : eventsOf (runAuthority (sampleAuthorityCodec doubleSubmitEvents) doubleSubmitCalls
        doubleSubmitSchedule).store.log = doubleSubmitEvents := by
      decide +kernel
    rw [← Except.ok.inj hload, hrecorded.recorded.ofStream_loadedEvents, hlog]
    decide +kernel
  have hsame := hunique 1 (sampleConsumedEvent (sampleConsume (samplePrepare 21 7 13 0) 1 15) 3)
    (sampleConsumedEvent (sampleConsume (samplePrepare 21 8 14 0) 2 16) 4)
    (samplePreparedEvent (samplePrepare 21 7 13 0) 1) (samplePreparedEvent (samplePrepare 21 8 14 0) 2)
    (newPermit (sampleAuthorityCodec []) (samplePrepare 21 7 13 0) sampleDecision sampleState)
    (newPermit (sampleAuthorityCodec []) (samplePrepare 21 8 14 0) sampleDecision sampleState)
    ⟨by rw [hstream]; simp [doubleSubmitEvents], rfl, _, rfl, rfl⟩
    ⟨by rw [hstream]; simp [doubleSubmitEvents], rfl, _, rfl, rfl⟩ rfl
  have hids := congrArg (fun event : LedgerEvent => event.eventId) hsame
  exact absurd hids (by decide)

end TradingAgent.RuntimeRisk
