import TradingAgent.RuntimeRisk.AuthorityStore
import TradingAgent.RuntimeRisk.HaltWriters
import TradingAgent.RuntimeRisk.Totality

/-! Runs of the authority's operations on one repository. -/

namespace TradingAgent.RuntimeRisk

open Outcome Interaction EventLedger

/-- An operation of the authority. -/
inductive AuthorityCall
  | recordDecision (event : LedgerEvent)
  | observe (request : TransitionRequest)
  | recover (request : RecoveryRequest)
  | prepare (request : PrepareRequest)
  | consume (request : ConsumeRequest)

inductive AuthorityResult
  | recorded (reference : Option DurableOrderApprovalRef)
  | state (state : GlobalHaltState)
  | prepared (permit : PreparedSubmitPermit)
  | consumed (authority : ConsumedSubmitAuthority)
  deriving DecidableEq

variable (codec : AuthorityCodec)

def AuthorityCall.program : AuthorityCall → AuthorityM AuthorityResult
  | .recordDecision event => do return .recorded (← recordRuntimeRiskDecision codec event)
  | .observe request => do return .state (← recordGlobalHaltObservation codec request)
  | .recover request => do return .state (← recoverGlobalHalt codec request)
  | .prepare request => do return .prepared (← prepareSubmitPermit codec request)
  | .consume request => do return .consumed (← consumeSubmitPermit codec request)

/-- The pool of processes after a schedule, one process for each call. -/
def runAuthority (calls : List AuthorityCall) (schedule : List ℕ) :
    Pool AuthorityStore RepositoryReply (Except AuthorityFailure AuthorityResult) :=
  Pool.run (serve codec) ⟨.empty, calls.map fun call => (call.program codec).run⟩ schedule

/-- What process `n` has returned or raised, when it has ended. -/
def resultOf {α : Type} (pool : Pool AuthorityStore RepositoryReply α) (n : ℕ) : Option α :=
  match pool.procs[n]? with
  | some (.ret a) => some a
  | _ => none

/-! ## What an insertion shows -/

inductive Produces (events : List LedgerEvent) : AuthorityCall → LedgerEvent → Prop
  | decision {event : LedgerEvent} {payload : RuntimeOrderRiskDecision}
      (hpayload : event.payload = .decision payload) (hbindings : DecisionBindings event payload) :
      Produces events (.recordDecision event) event
  | observation {request : TransitionRequest} {r : GlobalHaltReplay} {event : LedgerEvent}
      {outbox : OutboxIntent}
      (hreplay : streamReplay codec request.streamId (ofStream request.streamId events) = .ok r)
      (hplan : planObservation codec request r = .ok (.inr (event, outbox))) :
      Produces events (.observe request) event
  | recovery {request : RecoveryRequest} {r : GlobalHaltReplay} {loaded : List LedgerEvent}
      {event : LedgerEvent} {outbox : OutboxIntent}
      (hsafety : verifyGlobalSafetyObservation request.safetyVerifier request.safety = .ok request.safety)
      (hreplay : streamReplay codec request.streamId (ofStream request.streamId events) = .ok r)
      (hplan : planRecovery codec request loaded r = .ok (.inr (event, outbox))) :
      Produces events (.recover request) event
  | preparation {request : PrepareRequest} {r : GlobalHaltReplay} {approval event : LedgerEvent}
      {decision : RuntimeOrderRiskDecision} {state : GlobalHaltState}
      (hstored : approval ∈ events) (hid : approval.eventId = request.approvalReference.eventId)
      (hverified : verifyLoadedApproval codec request.approvalReference request.intent
        request.policyDecision request.approvalObservation request.approvalPolicy approval = .ok decision)
      (hbindings : requireExactCurrentBindings codec request decision = .ok ())
      (hreplay : streamReplay codec request.haltStreamId (ofStream request.haltStreamId events) = .ok r)
      (hplan : Prepares codec request decision r state event) : Produces events (.prepare request) event
  | consumption {request : ConsumeRequest} {r : GlobalHaltReplay}
      (hreplay : streamReplay codec request.permit.haltStreamId
        (ofStream request.permit.haltStreamId events) = .ok r)
      (hpermit : r.references request.permit.permitId = [request.permit])
      (hcurrent : requireCurrentConsumptionAuthority codec request r = .ok ()) :
      Produces events (.consume request)
        (consumedEvent (consumedPayload request.permit request.consumedAt) r.headSequence
          request.consumedEventId)

structure Holds (calls : List AuthorityCall) (store : AuthorityStore) : Prop where
  recorded : Recorded codec store
  produced : ∀ before i after, store.log = before ++ i :: after →
    ∃ call, calls[i.process]? = some call ∧ Produces codec (eventsOf before) call i.event

def authorityDiscipline (calls : List AuthorityCall) : Discipline AuthorityStore where
  Inv := Holds codec calls
  le s t := s.log <+: t.log
  refl := log_prefix_rfl
  trans := @log_prefix_trans

theorem holds_empty (calls : List AuthorityCall) : Holds codec calls .empty := by
  refine ⟨recorded_empty, fun before i after h => ?_⟩
  cases before <;> cases h

variable {codec} {calls : List AuthorityCall} {n : ℕ} {s t : AuthorityStore}

theorem Holds.insert (h : Holds codec calls s) {ledger : InMemoryEventLedger} {i : Insertion}
    (hrecorded : Recorded codec ⟨ledger, s.log ++ [i]⟩)
    (hproduces : ∃ call, calls[i.process]? = some call ∧ Produces codec (eventsOf s.log) call i.event) :
    Holds codec calls ⟨ledger, s.log ++ [i]⟩ := by
  refine ⟨hrecorded, fun before j after hlog => ?_⟩
  rcases List.eq_nil_or_concat after with rfl | ⟨after, last, rfl⟩
  · obtain ⟨hbefore, hj⟩ := List.append_inj' hlog rfl
    obtain rfl := (List.singleton_inj.1 hj)
    rw [← hbefore]
    exact hproduces
  · have hshift : s.log ++ [i] = (before ++ j :: after) ++ [last] := by
      rw [show (⟨ledger, s.log ++ [i]⟩ : AuthorityStore).log = s.log ++ [i] from rfl] at hlog
      rw [hlog]
      simp
    exact h.produced before j after (List.append_inj' hshift rfl).1

variable {log later : List Insertion}

theorem ofStream_mono (h : log <+: later) (streamId : Uuid) :
    ofStream streamId (eventsOf log) <+: ofStream streamId (eventsOf later) :=
  (h.map _).filter _

variable {streamId : Uuid}

theorem ofStream_stable (h : log <+: later)
    (hlength : (ofStream streamId (eventsOf log)).length = (ofStream streamId (eventsOf later)).length) :
    ofStream streamId (eventsOf log) = ofStream streamId (eventsOf later) :=
  (ofStream_mono h streamId).eq_of_length hlength

variable {r : GlobalHaltReplay} {events : List LedgerEvent}

theorem streamReplay_length (h : streamReplay codec streamId events = .ok r) : r.headSequence = events.length :=
  (describes_of_streamReplay h).head.sequence

theorem streamReplay_transfer (h : log <+: later)
    (hreplay : streamReplay codec streamId (ofStream streamId (eventsOf log)) = .ok r)
    (hnext : r.headSequence + 1 = (ofStream streamId (eventsOf later)).length + 1) :
    streamReplay codec streamId (ofStream streamId (eventsOf later)) = .ok r := by
  have hlength := streamReplay_length hreplay
  rw [← ofStream_stable h (by omega)]
  exact hreplay

/-! ## Rules for the requests -/

/-- A program of process `n` that keeps the invariant. -/
abbrev Sound {α : Type} (codec : AuthorityCodec) (calls : List AuthorityCall) (n : ℕ)
    (Post : α → AuthorityStore → Prop) (x : AuthorityM α) (s : AuthorityStore) : Prop :=
  Ensures (serve codec) (authorityDiscipline codec calls) n Post x s

theorem sound_step {α : Type} (x : Except AuthorityFailure α) : Sound codec calls n (fun a _ => x = .ok a) (step x) s :=
  ensures_ret fun _ h => h

theorem keeps_load (hround : codec.ledger.RoundTrips) : Keeps (serve codec) (authorityDiscipline codec calls) n
      (fun r t => r = .ok (loadedEvents codec t.log)) (Prog.request (R := RepositoryReply) .loadEvents) s := by
  intro t _ hinv
  rw [serve_load hround hinv.recorded]
  exact ⟨List.prefix_rfl, hinv, rfl⟩

variable {event : LedgerEvent} {outbox : OutboxIntent}

/-- At its sequence the event is what the call of the process plans. -/
def Planned (codec : AuthorityCodec) (calls : List AuthorityCall) (n : ℕ) (event : LedgerEvent)
    (s : AuthorityStore) : Prop :=
  ∀ t, s.log <+: t.log → Holds codec calls t →
    event.sequence = (ofStream event.streamId (eventsOf t.log)).length + 1 →
      ∃ call, calls[n]? = some call ∧ Produces codec (eventsOf t.log) call event

theorem keeps_append (hproduces : Planned codec calls n event s) :
    Keeps (serve codec) (authorityDiscipline codec calls) n
      (fun r t => ∀ outcome, r = .ok outcome → outcome.inserted = true → ⟨n, event, outbox⟩ ∈ t.log)
      (Prog.request (R := RepositoryReply) (.append event outbox)) s := by
  intro t hle hinv
  have hserved : AppendServed codec n event outbox t _ := serve_append hinv.recorded
  generalize serve codec n (.append event outbox) t = answer at hserved
  cases hserved with
  | refused e => exact ⟨List.prefix_rfl, hinv, fun outcome h => (nomatch h)⟩
  | repeated =>
    refine ⟨List.prefix_rfl, hinv, fun outcome h hinserted => ?_⟩
    obtain rfl := Except.ok.inj h
    cases hinserted
  | inserted ledger _ hnext hrecorded =>
    refine ⟨List.prefix_append _ _, hinv.insert hrecorded (hproduces t hle hinv hnext), fun _ _ _ => ?_⟩
    exact List.mem_append_right _ (List.mem_singleton_self _)

theorem sound_loadLedger (hround : codec.ledger.RoundTrips) (hinv : Holds codec calls s) (failure : AuthorityFailure) :
    Sound codec calls n (fun events t => events = loadedEvents codec t.log) (loadLedger failure) s := by
  refine Ensures.bind hinv (ensures_lift (keeps_load hround)) fun r t _ _ hr => ?_
  subst hr
  exact ensures_ret fun events hevents => (Except.ok.inj hevents).symm

theorem sound_appendEvent (failure : AuthorityFailure) (hinv : Holds codec calls s)
    (hproduces : Planned codec calls n event s) :
    Sound codec calls n (fun _ _ => True) (appendEvent event outbox failure) s := by
  refine Ensures.bind hinv (ensures_lift (keeps_append hproduces)) fun r t _ _ _ => ?_
  cases r with
  | error e => exact ensures_ret fun _ _ => trivial
  | ok outcome => exact ensures_ret fun _ _ => trivial

/-! ## The operations -/

variable {canonical : LedgerEvent × String}

theorem canonicalEnvelope_eq (hround : codec.ledger.RoundTrips) (h : canonicalEnvelope codec event = .ok canonical) :
    canonical = (event, codec.ledger.eventJson event) ∧ codec.ledger.storable event = true := by
  unfold canonicalEnvelope at h
  split at h
  · cases h
  · rename_i text htext
    have hstorable := (serializeEvent_eq_some.1 htext).1
    have hof := canonicalEnvelope_of hround hstorable
    unfold canonicalEnvelope at hof
    simp only [htext] at hof
    rw [hof] at h
    exact ⟨(Except.ok.inj h).symm, hstorable⟩

theorem canonicalRuntimeEvent_ok (hround : codec.ledger.RoundTrips)
    (h : canonicalRuntimeEvent codec event = .ok canonical) : canonical = (event, codec.ledger.eventJson event) ∧
      ∃ payload, event.payload = .decision payload ∧ DecisionBindings event payload := by
  unfold canonicalRuntimeEvent at h
  obtain ⟨envelope, henvelope, h⟩ := bind_ok_iff.1 h
  obtain ⟨rfl, -⟩ := canonicalEnvelope_eq hround henvelope
  obtain ⟨payload, hpayload, h⟩ := bind_ok_iff.1 h
  obtain ⟨_, hbindings, h⟩ := bind_ok_iff.1 h
  refine ⟨(Except.ok.inj h).symm, payload, ?_, require_ok_iff.1 hbindings⟩
  unfold decisionOf at hpayload
  split at hpayload
  · rename_i decision hdecision
    rw [← Except.ok.inj hpayload]
    exact hdecision
  · cases hpayload

theorem onlyMatch_ok {eventId : Uuid}
    (h : onlyMatch events eventId = .ok event) : event ∈ events ∧ event.eventId = eventId := by
  unfold onlyMatch at h
  split at h
  · rename_i found hfound
    obtain rfl := Except.ok.inj h
    have hmem : found ∈ events.filter fun event => event.eventId = eventId := by
      rw [onlyOne_eq_some_iff.1 hfound]
      exact List.mem_singleton_self _
    exact ⟨(List.mem_filter.1 hmem).1, of_decide_eq_true (List.mem_filter.1 hmem).2⟩
  · cases h

theorem sound_loadOneEvent (hround : codec.ledger.RoundTrips) (hinv : Holds codec calls s) (eventId : Uuid)
    (failure : AuthorityFailure) : Sound codec calls n (fun event t => event ∈ eventsOf t.log ∧ event.eventId = eventId)
      (loadOneEvent eventId failure) s := by
  unfold loadOneEvent
  refine Ensures.bind hinv (sound_loadLedger hround hinv _) fun events t _ _ hevents => ?_
  subst hevents
  refine ensures_ret fun event hevent => ?_
  obtain ⟨hmem, hid⟩ := onlyMatch_ok (rescue_ok_iff.1 hevent)
  exact ⟨mem_loadedEvents.1 hmem, hid⟩

theorem sound_recordDecision (hround : codec.ledger.RoundTrips)
    (hinv : Holds codec calls s) (hcall : calls[n]? = some (.recordDecision event)) :
    Sound codec calls n (fun _ _ => True) (recordRuntimeRiskDecision codec event) s := by
  unfold recordRuntimeRiskDecision
  refine Ensures.bind hinv (sound_step _) fun expected t _ hinv hexpected => ?_
  obtain ⟨rfl, payload, hpayload, hbindings⟩ := canonicalRuntimeEvent_ok hround (rescue_ok_iff.1 hexpected)
  refine Ensures.bind hinv (sound_step _) fun outbox t _ hinv _ => ?_
  refine Ensures.bind hinv (sound_appendEvent _ hinv fun u _ _ _ => ⟨_, hcall, .decision hpayload hbindings⟩)
    fun _ t _ hinv _ => ?_
  refine Ensures.bind hinv (sound_loadOneEvent hround hinv _ _) fun loaded t _ hinv _ => ?_
  refine Ensures.bind hinv (sound_step _) fun actual t _ hinv _ => ?_
  refine Ensures.bind hinv (sound_step _) fun _ t _ hinv _ => ?_
  refine Ensures.bind hinv (sound_step _) fun decision t _ hinv _ => ?_
  cases decision.outcome with
  | rejected => exact ensures_pure trivial
  | approved => exact ensures_pure trivial

theorem verifyGlobalSafetyObservation_eq {verifier : GlobalSafetyAuthorityVerifier}
    {observation verified : GlobalSafetyObservation}
    (h : verifyGlobalSafetyObservation verifier observation = .ok verified) : verified = observation := by
  unfold verifyGlobalSafetyObservation at h
  split at h
  · split_ifs at h with hsame
    rw [← Except.ok.inj h]
    exact hsame
  · cases h

def LoadedWith (codec : AuthorityCodec) (eventId : Uuid) (events : List LedgerEvent) (store : AuthorityStore) :
    Prop :=
  ∃ earlier : AuthorityStore, earlier.log <+: store.log ∧ Recorded codec earlier ∧
    events = loadedEvents codec earlier.log ∧ eventId ∈ (eventsOf earlier.log).map fun e => e.eventId

theorem sound_appendTransition (hround : codec.ledger.RoundTrips)
    (failure : AuthorityFailure) (hinv : Holds codec calls s) (hproduces : Planned codec calls n event s) :
    Sound codec calls n (LoadedWith codec event.eventId) (appendTransition codec event outbox failure) s := by
  unfold appendTransition
  refine Ensures.bind hinv (sound_appendEvent _ hinv hproduces) fun _ t _ hinv _ => ?_
  refine Ensures.bind hinv (sound_loadLedger hround hinv _) fun loaded u _ hloaded hevents => ?_
  subst hevents
  refine Ensures.bind hloaded (sound_step _) fun _ t hle _ hread => ?_
  obtain ⟨stored, hstored, -⟩ := bind_ok_iff.1 (rescue_ok_iff.1 hread)
  obtain ⟨hmem, hid⟩ := onlyMatch_ok hstored
  exact ensures_pure ⟨u, hle, hloaded.recorded, rfl, List.mem_map.2 ⟨stored, mem_loadedEvents.1 hmem, hid⟩⟩

variable {request : TransitionRequest} {status : GlobalHaltStatus} {reasons : List GlobalHaltReasonCode}
    {digest : Option Sha256}

variable (h : newTransition codec r request status reasons digest = .ok (event, outbox))
include h

theorem newTransition_position : event.streamId = request.streamId ∧ event.sequence = r.headSequence + 1 := by
  obtain ⟨payload, -, rfl⟩ := newTransition_ok h
  exact ⟨rfl, rfl⟩

theorem newTransition_eventId : event.eventId = request.eventId := by
  obtain ⟨payload, -, rfl⟩ := newTransition_ok h
  rfl

omit h

variable (hround : codec.ledger.RoundTrips)
include hround

theorem sound_observe (hinv : Holds codec calls s) (hcall : calls[n]? = some (.observe request)) :
    Sound codec calls n (fun _ _ => True) (recordGlobalHaltObservation codec request) s := by
  unfold recordGlobalHaltObservation
  refine Ensures.bind hinv (sound_step _) fun safety t _ hinv hsafety => ?_
  obtain rfl := verifyGlobalSafetyObservation_eq (rescue_ok_iff.1 hsafety)
  refine Ensures.bind hinv (sound_loadLedger hround hinv _) fun events loaded _ hloaded hevents => ?_
  subst hevents
  refine Ensures.bind hloaded (sound_step _) fun r t hle hinv hreplay => ?_
  refine Ensures.bind hinv (sound_step _) fun plan t hle' hinv hplan => ?_
  cases plan with
  | inl state => exact ensures_pure trivial
  | inr appended =>
    obtain ⟨event, outbox⟩ := appended
    have hproduces : Planned codec calls n event t := by
      intro u hu _ hnext
      obtain ⟨status, reasons, hnew, -⟩ := planObservation_inr hplan
      obtain ⟨hstream, hsequence⟩ := newTransition_position hnew
      rw [hstream, hsequence] at hnext
      exact ⟨_, hcall, .observation (streamReplay_transfer (hle.trans (hle'.trans hu))
        ((hloaded.recorded.replay_ok_iff hround).1 hreplay) hnext) hplan⟩
    refine Ensures.bind hinv (sound_appendTransition hround _ hinv hproduces) fun loaded t _ hinv _ => ?_
    refine Ensures.bind hinv (sound_step _) fun replayed t _ hinv _ => ?_
    cases replayed.state with
    | none => exact ensures_ret fun _ h => (nomatch h)
    | some state => exact ensures_pure trivial

def Recovered (codec : AuthorityCodec) (request : RecoveryRequest) (state : GlobalHaltState)
    (store : AuthorityStore) : Prop :=
  ∃ log, log <+: store.log ∧
    (∃ r, streamReplay codec request.streamId (ofStream request.streamId (eventsOf log)) = .ok r ∧
      r.state = some state) ∧
    request.eventId ∈ (eventsOf log).map fun e => e.eventId

theorem sound_recover {request : RecoveryRequest} (hinv : Holds codec calls s)
    (hcall : calls[n]? = some (.recover request)) :
    Sound codec calls n (Recovered codec request) (recoverGlobalHalt codec request) s := by
  unfold recoverGlobalHalt
  refine Ensures.bind hinv (sound_step _) fun safety t _ hinv hsafety => ?_
  have hverified := rescue_ok_iff.1 hsafety
  obtain rfl := verifyGlobalSafetyObservation_eq hverified
  refine Ensures.bind hinv (sound_loadLedger hround hinv _) fun events loaded _ hloaded hevents => ?_
  subst hevents
  refine Ensures.bind hloaded (sound_step _) fun r t hle hinv hreplay => ?_
  have hstream := (hloaded.recorded.replay_ok_iff hround).1 (rescue_ok_iff.1 hreplay)
  refine Ensures.bind hinv (sound_step _) fun plan t hle' hinv hplan => ?_
  cases plan with
  | inl state =>
    obtain ⟨hstate, hid⟩ := planRecovery_inl hplan
    refine ensures_pure ⟨loaded.log, hle.trans hle', ⟨r, hstream, hstate⟩, ?_⟩
    rw [← hid]
    exact (describes_of_streamReplay hstream).transitionEventId_mem hstate
  | inr appended =>
    obtain ⟨event, outbox⟩ := appended
    obtain ⟨_, -, -, -, hnew, -⟩ := planRecovery_inr hplan
    have hproduces : Planned codec calls n event t := by
      intro u hu _ hnext
      obtain ⟨hstreamId, hsequence⟩ := newTransition_position hnew
      rw [hstreamId, hsequence] at hnext
      exact ⟨_, hcall, .recovery hverified (streamReplay_transfer (hle.trans (hle'.trans hu)) hstream hnext) hplan⟩
    refine Ensures.bind hinv (sound_appendTransition hround _ hinv hproduces) fun events t _ hinv hread => ?_
    obtain ⟨earlier, hearlier, hrecorded, rfl, hid⟩ := hread
    refine Ensures.bind hinv (sound_step _) fun replayed t hle _ hreplayed => ?_
    have hreplayed := (hrecorded.replay_ok_iff hround).1 (rescue_ok_iff.1 hreplayed)
    cases hstate : replayed.state with
    | none => exact ensures_ret fun _ h => (nomatch h)
    | some state =>
      refine ensures_pure ⟨earlier.log, hearlier.trans hle, ⟨replayed, hreplayed, hstate⟩, ?_⟩
      rw [← newTransition_eventId hnew]
      exact hid

theorem sound_appendPrepared (hinv : Holds codec calls s) (hproduces : Planned codec calls n event s) :
    Sound codec calls n (fun _ _ => True) (appendPrepared codec event outbox) s := by
  unfold appendPrepared
  refine Ensures.bind hinv (sound_appendEvent _ hinv hproduces) fun _ t _ hinv _ => ?_
  refine Ensures.bind hinv (sound_loadLedger hround hinv _) fun loaded t _ hinv _ => ?_
  exact ensures_ret fun _ _ => trivial

theorem sound_verifyApproval (hinv : Holds codec calls s) (reference : DurableOrderApprovalRef)
    (intent : OrderIntent) (policyDecision : RiskDecision) (observation : RuntimeRiskObservation)
    (policy : RuntimeRiskPolicy) : Sound codec calls n
      (fun decision t => ∃ approval ∈ eventsOf t.log, approval.eventId = reference.eventId ∧
        verifyLoadedApproval codec reference intent policyDecision observation policy approval = .ok decision)
      (verifyDurableOrderApproval codec reference intent policyDecision observation policy) s := by
  unfold verifyDurableOrderApproval
  refine Ensures.bind hinv (sound_loadOneEvent hround hinv _ _) fun approval t _ _ happroval => ?_
  exact ensures_ret fun decision hdecision => ⟨approval, happroval.1, happroval.2, hdecision⟩

omit hround

theorem mem_eventsOf_of_le (h : log <+: later) (hmem : event ∈ eventsOf log) : event ∈ eventsOf later :=
  (h.map Insertion.event).mem hmem

include hround

theorem sound_prepare {request : PrepareRequest} (hinv : Holds codec calls s)
    (hcall : calls[n]? = some (.prepare request)) :
    Sound codec calls n (fun _ _ => True) (prepareSubmitPermit codec request) s := by
  unfold prepareSubmitPermit
  refine Ensures.bind hinv (sound_step _) fun safety t _ hinv hsafety => ?_
  obtain rfl := verifyGlobalSafetyObservation_eq (rescue_ok_iff.1 hsafety)
  refine Ensures.bind hinv (Ensures.adapt _ (sound_verifyApproval hround hinv _ _ _ _ _))
    fun decision verified _ hinv hdecision => ?_
  obtain ⟨approval, happroval, hid, hverified⟩ := hdecision
  refine Ensures.bind hinv (sound_step _) fun _ t hbound hinv hbindings => ?_
  refine Ensures.bind hinv (sound_loadLedger hround hinv _) fun events loaded hload hloaded hevents => ?_
  subst hevents
  refine Ensures.bind hloaded (sound_step _) fun r t hle hinv hreplay => ?_
  refine Ensures.bind hinv (sound_step _) fun plan t hle' hinv hplan => ?_
  cases plan with
  | inl existing => exact ensures_pure trivial
  | inr appended =>
    obtain ⟨event, outbox⟩ := appended
    refine sound_appendPrepared hround hinv fun u hu _ hnext => ?_
    obtain ⟨state, hprepares⟩ := planPreparation_inr hplan
    have hloadedReplay := (hloaded.recorded.replay_ok_iff hround).1 (rescue_ok_iff.1 hreplay)
    have hlater : loaded.log <+: u.log := hle.trans (hle'.trans hu)
    have hstream : event.streamId = request.haltStreamId := by
      rw [hprepares.appended]
      exact (describes_of_streamReplay hloadedReplay).streamId hprepares.current
    have hsequence : event.sequence = r.headSequence + 1 := by
      rw [hprepares.appended]
      rfl
    rw [hstream, hsequence] at hnext
    exact ⟨_, hcall, .preparation (mem_eventsOf_of_le (hbound.trans (hload.trans hlater)) happroval) hid
      hverified hbindings (streamReplay_transfer hlater hloadedReplay hnext) hprepares⟩

/-! ## Consumption -/

def Spent (n : ℕ) (authority : ConsumedSubmitAuthority) (store : AuthorityStore) : Prop :=
  ∃ i ∈ store.log, i.process = n ∧ i.event.payload = .consumed authority.toSubmitPermitConsumed ∧
    i.event.eventId = authority.consumedEventId

variable {payload : SubmitPermitConsumed}

theorem canonicalConsumedEvent_ok {canonical : LedgerEvent} {text : String}
    (h : canonicalConsumedEvent codec event = .ok (canonical, text, payload)) :
    canonical = event ∧ event.payload = .consumed payload := by
  unfold canonicalConsumedEvent at h
  obtain ⟨envelope, henvelope, h⟩ := bind_ok_iff.1 h
  obtain ⟨rfl, -⟩ := canonicalEnvelope_eq hround henvelope
  simp only at h
  split at h
  · rename_i found hfound
    obtain ⟨_, -, h⟩ := bind_ok_iff.1 h
    cases h
    exact ⟨rfl, hfound⟩
  · cases h

theorem readBackConsumption_ok {authority : ConsumedSubmitAuthority}
    (h : readBackConsumption codec event payload events = .ok authority) :
    event.payload = .consumed authority.toSubmitPermitConsumed ∧ event.eventId = authority.consumedEventId := by
  unfold readBackConsumption at h
  obtain ⟨stored, -, h⟩ := bind_ok_iff.1 h
  obtain ⟨⟨expected, expectedText, expectedPayload⟩, hexpected, h⟩ := bind_ok_iff.1 h
  obtain ⟨⟨loaded, actualText, loadedPayload⟩, hloaded, h⟩ := bind_ok_iff.1 h
  obtain ⟨_, hsame, h⟩ := bind_ok_iff.1 h
  obtain ⟨readBack, -, h⟩ := bind_ok_iff.1 h
  obtain ⟨_, -, h⟩ := bind_ok_iff.1 h
  obtain rfl := Except.ok.inj h
  obtain ⟨hevent, -⟩ := canonicalConsumedEvent_ok hround hexpected
  obtain ⟨hstored, hpayload⟩ := canonicalConsumedEvent_ok hround hloaded
  have heq : loaded = expected := (require_ok_iff.1 hsame).2.2
  rw [← hevent, ← heq]
  rw [← hstored] at hpayload
  exact ⟨hpayload, rfl⟩

theorem sound_appendConsumption {request : ConsumeRequest} (hinv : Holds codec calls s)
    (hcall : calls[n]? = some (.consume request)) {loaded : AuthorityStore} (hle : loaded.log <+: s.log)
    (hreplay : streamReplay codec request.permit.haltStreamId
      (ofStream request.permit.haltStreamId (eventsOf loaded.log)) = .ok r)
    (hpermit : r.references request.permit.permitId = [request.permit])
    (hcurrent : requireCurrentConsumptionAuthority codec request r = .ok ()) :
    Sound codec calls n (Spent n) (appendConsumptionAgainst codec r
      (consumedPayload request.permit request.consumedAt) request.consumedEventId) s := by
  unfold appendConsumptionAgainst
  refine Ensures.bind hinv (sound_step _) fun outbox t hle' hinv _ => ?_
  refine Ensures.bind hinv (ensures_lift (keeps_append fun u hu _ hnext => ?_)) fun answer t _ hinv hanswer => ?_
  · exact ⟨_, hcall, .consumption (streamReplay_transfer (hle.trans (hle'.trans hu)) hreplay hnext) hpermit
      hcurrent⟩
  · cases answer with
    | error e => exact ensures_ret fun _ h => (nomatch h)
    | ok outcome =>
      refine Ensures.bind hinv (sound_step _) fun _ u hu hinv hinserted => ?_
      have hmem := hanswer outcome rfl (require_ok_iff.1 hinserted).2
      refine Ensures.bind hinv (sound_loadLedger hround hinv _) fun events v hv hinv _ => ?_
      refine ensures_ret fun authority hauthority => ?_
      obtain ⟨hpayload, hid⟩ := readBackConsumption_ok hround (rescue_ok_iff.1 hauthority)
      exact ⟨_, (hu.trans hv).mem hmem, rfl, hpayload, hid⟩

omit hround

theorem references_of_unrelated {beforeEvents afterEvents : List LedgerEvent}
    {before after : GlobalHaltReplay} {permit : PreparedSubmitPermit}
    (h : onlyUnrelatedPermitEventsAdvanced codec beforeEvents before afterEvents after permit = true) :
    after.references permit.permitId = [permit] := by
  unfold onlyUnrelatedPermitEventsAdvanced at h
  split at h
  · rename_i unrelated hunrelated
    subst h
    unfold unrelatedPermitEvents at hunrelated
    split_ifs at hunrelated
    · cases hunrelated
    · simp only [bind_ok_iff] at hunrelated
      obtain ⟨beforeById, -, afterById, -, hunrelated⟩ := hunrelated
      split_ifs at hunrelated
      · cases hunrelated
      · obtain ⟨canonical, -, hunrelated⟩ := bind_ok_iff.1 hunrelated
        exact (of_decide_eq_true (Except.ok.inj hunrelated)).2.2.2.2
  · cases h

include hround

theorem sound_consumptionHistory (hinv : Holds codec calls s) (streamId : Uuid) : Sound codec calls n
      (fun history t => streamReplay codec streamId (ofStream streamId (eventsOf t.log)) = .ok history.2)
      (loadConsumptionHistory codec streamId) s := by
  unfold loadConsumptionHistory
  refine Ensures.bind hinv (sound_loadLedger hround hinv _) fun events t _ hinv hevents => ?_
  subst hevents
  refine Ensures.bind hinv (ensures_ret fun r hr => ?_) fun r t _ _ hr => ensures_pure hr
  exact (hinv.recorded.replay_ok_iff hround).1 (rescue_ok_iff.1 hr)

theorem sound_consume {request : ConsumeRequest} (hinv : Holds codec calls s)
    (hcall : calls[n]? = some (.consume request)) :
    Sound codec calls n (Spent n) (consumeSubmitPermit codec request) s := by
  unfold consumeSubmitPermit
  refine Ensures.bind hinv (sound_step _) fun safety t _ hinv hsafety => ?_
  obtain rfl := verifyGlobalSafetyObservation_eq (rescue_ok_iff.1 hsafety)
  refine Ensures.bind hinv (sound_consumptionHistory hround hinv _) fun history loaded _ hinv hreplay => ?_
  obtain ⟨events, r⟩ := history
  refine Ensures.bind hinv (sound_step _) fun _ t hle hinv hexact => ?_
  refine Ensures.bind hinv (sound_step _) fun _ t hle' hinv hcurrent => ?_
  have hpermit : r.references request.permit.permitId = [request.permit] := by
    unfold requireExactPreparedAuthority at hexact
    obtain ⟨_, -, hexact⟩ := bind_ok_iff.1 hexact
    obtain ⟨_, hpermit, -⟩ := bind_ok_iff.1 hexact
    exact require_ok_iff.1 hpermit
  refine Ensures.bind hinv (Ensures.attempt (sound_appendConsumption hround hinv hcall (hle.trans hle')
    hreplay hpermit hcurrent)) fun answer t _ hinv hanswer => ?_
  cases answer with
  | ok authority => exact ensures_pure (hanswer authority rfl)
  | error e =>
    cases e with
    | conflict cause =>
      unfold retryConsumption
      refine Ensures.bind hinv (sound_consumptionHistory hround hinv _)
        fun history loaded _ hinv hrefreshed => ?_
      obtain ⟨refreshedEvents, refreshed⟩ := history
      refine Ensures.bind hinv (sound_step _) fun _ t hle hinv hunrelated => ?_
      refine Ensures.bind hinv (sound_step _) fun _ t hle' hinv hcurrent => ?_
      exact Ensures.adapt _ (sound_appendConsumption hround hinv hcall (hle.trans hle') hrefreshed
        (references_of_unrelated (require_ok_iff.1 hunrelated).2) hcurrent)
    | valueError | durableApprovalError | globalHaltAuthorityError | globalHaltRecoveryError
    | preparationError | consumptionError => exact ensures_ret fun _ h => (nomatch h)

/-! ## Whole runs -/

def ResultHolds (n : ℕ) : Except AuthorityFailure AuthorityResult → AuthorityStore → Prop
  | .ok (.consumed authority), store => Spent n authority store
  | _, _ => True

theorem sound_program (hinv : Holds codec calls s) {call : AuthorityCall} (hcall : calls[n]? = some call) :
    Keeps (serve codec) (authorityDiscipline codec calls) n (ResultHolds n) (call.program codec).run s := by
  have hmono : Sound codec calls n (fun result t => ResultHolds n (.ok result) t) (call.program codec) s := by
    cases call with
    | recordDecision event =>
      exact Ensures.bind hinv (sound_recordDecision hround hinv hcall) fun _ _ _ _ _ => ensures_pure trivial
    | observe request =>
      exact Ensures.bind hinv (sound_observe hround hinv hcall) fun _ _ _ _ _ => ensures_pure trivial
    | recover request =>
      exact Ensures.bind hinv (sound_recover hround hinv hcall) fun _ _ _ _ _ => ensures_pure trivial
    | prepare request =>
      exact Ensures.bind hinv (sound_prepare hround hinv hcall) fun _ _ _ _ _ => ensures_pure trivial
    | consume request =>
      exact Ensures.bind hinv (sound_consume hround hinv hcall) fun _ _ _ _ h => ensures_pure h
  refine Keeps.mono hmono fun r t hr => ?_
  cases r with
  | error e => trivial
  | ok result => exact hr result rfl

theorem run_holds (calls : List AuthorityCall) (schedule : List ℕ) :
    Holds codec calls (runAuthority codec calls schedule).store ∧
      ∀ n result, resultOf (runAuthority codec calls schedule) n = some result →
        ∃ t : AuthorityStore, t.log <+: (runAuthority codec calls schedule).store.log ∧ ResultHolds n result t := by
  have hprocs : ∀ n p, (calls.map fun call => (call.program codec).run)[n]? = some p →
      Keeps (serve codec) (authorityDiscipline codec calls) n (ResultHolds n) p .empty := by
    intro n p hp
    rw [List.getElem?_map] at hp
    obtain ⟨call, hcall, rfl⟩ := Option.map_eq_some_iff.1 hp
    exact sound_program hround (holds_empty codec calls) hcall
  obtain ⟨-, hinv, hkeeps⟩ := Pool.run_keeps (holds_empty codec calls) hprocs schedule
  refine ⟨hinv, fun n result hresult => ?_⟩
  unfold resultOf at hresult
  split at hresult
  · rename_i a hproc
    obtain rfl := Option.some.inj hresult
    exact hkeeps n _ hproc
  · cases hresult

omit hround

/-! ## A sample run -/

def sampleAuthorityCodec (events : List LedgerEvent) : AuthorityCodec where
  ledger := { sampleRepositoryCodec events with canonicalPayload := fun _ => true }
  models := sampleModelCodec

theorem sampleAuthorityCodec_roundTrips (h : ∀ event ∈ events, (sampleAuthorityCodec events).ledger.parse
      ((sampleAuthorityCodec events).ledger.eventJson event) = some event) :
    (sampleAuthorityCodec events).ledger.RoundTrips :=
  fun event hevent => h event (of_decide_eq_true hevent)

abbrev sampleOrder : OrderIntent := sampleIntent (powerPrice 1)

def sampleDecision : RuntimeOrderRiskDecision :=
  (evaluateRuntimeOrderRisk sampleOrder samplePolicyDecision sampleObservation samplePolicy 0 sampleModelCodec
    7).toOption.get (by decide +kernel)

def sampleDecisionEvent (eventId : Uuid) (head : ℕ) : LedgerEvent :=
  authorityEvent eventId "runtime-order-risk-event-v1" 2 (head + 1) sampleDecision.decidedAt
    (sampleDecision.decidedAt + eventLifetime) sampleDecision.intentId sampleDecision.riskDecisionId 0
    (.decision sampleDecision) (Nat.succ_pos head) (lt_add_eventLifetime _)

def sampleSafety (state : CanonicalKillSwitchState) (observedAt : DateTime) : GlobalSafetyObservation :=
  ⟨"custody", state, observedAt⟩

def sampleTransitionRequest (state : CanonicalKillSwitchState) (eventId : Uuid) (decidedAt : DateTime) :
    TransitionRequest :=
  ⟨1, sampleObservation, samplePolicy, sampleSafety state decidedAt, some, eventId, eventId, decidedAt⟩

def sampleInitialization : GlobalHaltTransition :=
  ⟨newTransitionFields (sampleAuthorityCodec []) .empty (sampleTransitionRequest .inactive 11 0) .active
    [.initializedSafe] none, by decide +kernel⟩

def sampleInitialEvent : LedgerEvent := transitionEvent 1 0 11 sampleInitialization

def sampleState : GlobalHaltState :=
  ⟨stateFields 1 11 (digestFor (sampleAuthorityCodec []) sampleInitialEvent) sampleInitialization none,
    by decide +kernel⟩

def samplePrepare (approvalId permitId eventId : Uuid) (head : ℕ) : PrepareRequest where
  haltStreamId := 1
  approvalReference := approvalReference (sampleAuthorityCodec []) (sampleDecisionEvent approvalId head)
    ((sampleAuthorityCodec []).ledger.eventJson (sampleDecisionEvent approvalId head)) sampleDecision
  intent := sampleOrder
  policyDecision := samplePolicyDecision
  approvalObservation := sampleObservation
  approvalPolicy := samplePolicy
  currentObservation := sampleObservation
  currentPolicy := samplePolicy
  currentSafety := sampleSafety .inactive 1
  safetyVerifier := some
  permitId := permitId
  eventId := eventId
  preparedAt := 2

def samplePreparedEvent (request : PrepareRequest) (head : ℕ) : LedgerEvent :=
  preparedEvent (newPermit (sampleAuthorityCodec []) request sampleDecision sampleState) head request.eventId

def sampleConsume (request : PrepareRequest) (head : ℕ) (eventId : Uuid) : ConsumeRequest where
  permit := referenceTo (sampleAuthorityCodec []) (samplePreparedEvent request head)
    (newPermit (sampleAuthorityCodec []) request sampleDecision sampleState)
  intent := sampleOrder
  policyDecision := samplePolicyDecision
  currentObservation := sampleObservation
  currentPolicy := samplePolicy
  currentSafety := sampleSafety .inactive 3
  safetyVerifier := some
  consumedEventId := eventId
  consumedAt := 4

def sampleConsumedEvent (request : ConsumeRequest) (head : ℕ) : LedgerEvent :=
  consumedEvent (consumedPayload request.permit request.consumedAt) head request.consumedEventId

def sampleCalls : List AuthorityCall :=
  [.recordDecision (sampleDecisionEvent 21 0), .observe (sampleTransitionRequest .inactive 11 0),
    .prepare (samplePrepare 21 7 13 0), .consume (sampleConsume (samplePrepare 21 7 13 0) 1 15)]

def sampleRunEvents : List LedgerEvent :=
  [sampleDecisionEvent 21 0, sampleInitialEvent, samplePreparedEvent (samplePrepare 21 7 13 0) 1,
    sampleConsumedEvent (sampleConsume (samplePrepare 21 7 13 0) 1 15) 2]

def sampleSchedule : List ℕ := [0, 0, 1, 1, 1, 2, 2, 2, 2, 3, 3, 3]

theorem sampleRun_roundTrips : (sampleAuthorityCodec sampleRunEvents).ledger.RoundTrips :=
  sampleAuthorityCodec_roundTrips (by decide +kernel)

theorem sampleRun_events :
    eventsOf (runAuthority (sampleAuthorityCodec sampleRunEvents) sampleCalls sampleSchedule).store.log =
      sampleRunEvents := by
  decide +kernel

end TradingAgent.RuntimeRisk
