import TradingAgent.RuntimeRisk.HaltSafety

/-! Recoveries of a halted authority and their retries. -/

namespace TradingAgent.RuntimeRisk

open Outcome Interaction EventLedger

variable {codec : AuthorityCodec} {calls : List AuthorityCall} {store : AuthorityStore} {s : Uuid}
  {events : List LedgerEvent} {event : LedgerEvent} {r : GlobalHaltReplay}

/-! ## Who reactivates -/

/-- The transition was made by a recovery whose authorization names the halt before it. -/
structure RecoveredBy (codec : AuthorityCodec) (earlier : List LedgerEvent) (event : LedgerEvent)
    (t : GlobalHaltTransition) (request : RecoveryRequest) : Prop where
  stream : event.streamId = request.streamId
  identity : event.eventId = request.eventId
  decided : t.decidedAt = request.decidedAt
  recorded : t.recoveryAuthorizationDigest = some request.authorization.authorizationDigest
  halted : ∃ halt p, (transitions (ofStream event.streamId earlier)).getLast? = some (halt, p) ∧
    p.nextStatus = .halted ∧ request.authorization.haltedGeneration = p.nextGeneration ∧
    request.authorization.haltedTransitionDigest = digestFor codec halt ∧
    t.nextGeneration = p.nextGeneration + 1 ∧ t.priorTransitionDigest = some (digestFor codec halt)
  current : GlobalAuthorityIsCurrent request.toTransitionRequest
  breaker : evaluateGlobalBreaker request.observation request.policy request.safety = .ok []

variable {request : RecoveryRequest} {loaded : List LedgerEvent} {outbox : OutboxIntent}

theorem recoveredBy_of_plan (hreplay : streamReplay codec request.streamId (ofStream request.streamId events) = .ok r)
    (hplan : planRecovery codec request loaded r = .ok (.inr (event, outbox))) :
    ∃ t, event.payload = .transition t ∧ t.nextStatus = .active ∧ RecoveredBy codec events event t request := by
  obtain ⟨state, hstate, hhalted, hverified, hnew, -⟩ := planRecovery_inr hplan
  obtain ⟨⟨hgeneration, hdigest, -, -, -, -, -, -, hcurrent⟩, hbreaker⟩ :=
    verifyRecoveryAuthorization_true hverified
  obtain ⟨t, hfields, rfl⟩ := newTransition_ok hnew
  obtain ⟨halt, p, prior, hlast, hprior⟩ := (describes_of_streamReplay hreplay).current.state state hstate
  have hnext : t.nextGeneration = state.generation + 1 := by
    rw [hfields]
    show (r.state.map fun state => state.generation + 1).getD 1 = _
    rw [hstate]
    rfl
  have hpriorDigest : t.priorTransitionDigest = some state.transitionDigest := by
    rw [hfields]
    show (r.state.map (·.transitionDigest)) = _
    rw [hstate]
    rfl
  rw [hprior] at hhalted hgeneration hdigest hnext hpriorDigest
  have hactive : t.nextStatus = .active := by
    rw [hfields]
    rfl
  have hdecided : t.decidedAt = request.decidedAt := by
    rw [hfields]
    rfl
  have hrecorded : t.recoveryAuthorizationDigest = some request.authorization.authorizationDigest := by
    rw [hfields]
    rfl
  exact ⟨t, rfl, hactive, rfl, rfl, hdecided, hrecorded,
    ⟨halt, p, hlast, hhalted, hgeneration, hdigest, hnext, hpriorDigest⟩, hcurrent, hbreaker⟩

variable {t : GlobalHaltTransition}

theorem Produces.recoveredBy {call : AuthorityCall} (h : Produces codec events call event)
    (hpayload : event.payload = .transition t) (hactive : t.nextStatus = .active) (hlater : t.nextGeneration ≠ 1) :
    ∃ request, call = .recover request ∧ RecoveredBy codec events event t request := by
  cases h with
  | decision hother _ =>
    rw [hpayload] at hother
    cases hother
  | @observation request r _ _ _ hplan =>
    -- an observation makes only the first generation active
    exfalso
    obtain ⟨status, reasons, hnew, hstatus, -⟩ := planObservation_inr hplan
    obtain ⟨t', hfields, rfl⟩ := newTransition_ok hnew
    obtain rfl := LedgerPayload.transition.inj hpayload
    cases hstate : r.state with
    | none =>
      apply hlater
      rw [hfields]
      show (r.state.map fun state => state.generation + 1).getD 1 = 1
      rw [hstate]
      rfl
    | some state =>
      obtain ⟨-, rfl⟩ := hstatus state hstate
      rw [hfields] at hactive
      cases hactive
  | @recovery request r _ _ _ _ hreplay hplan =>
    obtain ⟨t', hpayload', -, hrecovered⟩ := recoveredBy_of_plan hreplay hplan
    rw [hpayload] at hpayload'
    obtain rfl := LedgerPayload.transition.inj hpayload'
    exact ⟨request, rfl, hrecovered⟩
  | preparation _ _ _ _ _ hplan =>
    rw [hplan.appended] at hpayload
    cases hpayload
  | consumption _ _ _ => cases hpayload

variable {i : Insertion} {before after : List Insertion}

theorem Holds.recovery_planned (h : Holds codec calls store) (hlog : store.log = before ++ i :: after)
    (hcall : calls[i.process]? = some (.recover request)) :
    ∃ r loaded outbox, verifyGlobalSafetyObservation request.safetyVerifier request.safety = .ok request.safety ∧
        streamReplay codec request.streamId (ofStream request.streamId (eventsOf before)) = .ok r ∧
        planRecovery codec request loaded r = .ok (.inr (i.event, outbox)) := by
  obtain ⟨call, hsame, hproduces⟩ := h.produced before i after hlog
  obtain rfl := Option.some.inj (hcall.symm.trans hsame)
  generalize i.event = event at hproduces ⊢
  cases hproduces with
  | recovery hsafety hreplay hplan => exact ⟨_, _, _, hsafety, hreplay, hplan⟩

theorem Holds.recovery (h : Holds codec calls store) {before after : List Insertion} {i : Insertion}
    (hlog : store.log = before ++ i :: after) {request : RecoveryRequest}
    (hcall : calls[i.process]? = some (.recover request)) :
    ∃ t, i.event.payload = .transition t ∧ t.nextStatus = .active ∧
      RecoveredBy codec (eventsOf before) i.event t request := by
  obtain ⟨r, loaded, outbox, -, hreplay, hplan⟩ := h.recovery_planned hlog hcall
  exact recoveredBy_of_plan hreplay hplan

/-! ## Authorizations are used once -/

/-- Stored events with one digest have one text. -/
def CollisionFree (codec : AuthorityCodec) (events : List LedgerEvent) : Prop :=
  ∀ e ∈ events, ∀ e' ∈ events, digestFor codec e = digestFor codec e' →
    codec.ledger.eventJson e = codec.ledger.eventJson e'

theorem Lineage.generations (h : Lineage codec events) :
    ((transitions events).map (·.2.nextGeneration)).Pairwise (· < ·) := by
  refine List.isChain_iff_pairwise.1 ?_
  rw [List.isChain_map]
  refine h.chain.imp fun prior next hnext => ?_
  rw [hnext.1]
  exact Nat.lt_succ_self _

theorem Holds.lineage (h : Holds codec calls store) (s : Uuid) : Lineage codec (ofStream s (eventsOf store.log)) := by
  obtain ⟨history, decisions, r, hsplit, hreplay, hdecisions⟩ := h.split s (List.append_nil _).symm
  rw [hsplit]
  exact (haltStreamSafe_of_split hreplay fun e he => (hdecisions e he).1).lineage

variable {j : Insertion}

theorem Holds.eq_of_eventId (h : Holds codec calls store) (hi : i ∈ store.log)
    (hj : j ∈ store.log) (hid : i.event.eventId = j.event.eventId) : i = j := by
  have hdistinct := h.recorded.distinct
  unfold eventsOf at hdistinct
  rw [List.map_map] at hdistinct
  exact List.inj_on_of_nodup_map hdistinct hi hj hid

variable {log : List Insertion}

theorem mem_eventsOf (h : i ∈ log) : i.event ∈ eventsOf log :=
  List.mem_map.2 ⟨i, h, rfl⟩

variable (h : Holds codec calls store)
include h

theorem Holds.eq_of_generation (hi : i ∈ store.log) (hj : j ∈ store.log) {u : GlobalHaltTransition}
    (ht : i.event.payload = .transition t) (hu : j.event.payload = .transition u)
    (hstream : i.event.streamId = j.event.streamId) (hgeneration : t.nextGeneration = u.nextGeneration) : i = j := by
  have hmem : ∀ k ∈ store.log, ∀ v, k.event.payload = .transition v → k.event.streamId = j.event.streamId →
      (k.event, v) ∈ transitions (ofStream j.event.streamId (eventsOf store.log)) := by
    intro k hk v hv hsame
    exact List.mem_filterMap.2 ⟨k.event, mem_ofStream.2 ⟨mem_eventsOf hk, hsame⟩, transitionOf_eq_some.2 ⟨rfl, hv⟩⟩
  have hdistinct := (h.lineage j.event.streamId).generations.imp fun hlt => Nat.ne_of_lt hlt
  have hsame := List.inj_on_of_nodup_map hdistinct (hmem i hi t ht hstream) (hmem j hj u hu rfl) hgeneration
  exact h.eq_of_eventId hi hj (congrArg (fun x : LedgerEvent × GlobalHaltTransition => x.1.eventId) hsame)

variable {request' : RecoveryRequest}

theorem Holds.authorization_once (hi : i ∈ store.log) (hj : j ∈ store.log)
    (hcall : calls[i.process]? = some (.recover request)) (hcall' : calls[j.process]? = some (.recover request'))
    (hsame : request.authorization = request'.authorization)
    (hstream : i.event.streamId = j.event.streamId) : i = j := by
  obtain ⟨before, after, hlog⟩ := List.append_of_mem hi
  obtain ⟨before', after', hlog'⟩ := List.append_of_mem hj
  obtain ⟨t, ht, -, hrecovered⟩ := h.recovery hlog hcall
  obtain ⟨u, hu, -, hrecovered'⟩ := h.recovery hlog' hcall'
  obtain ⟨_, p, -, -, hgeneration, -, hnext, -⟩ := hrecovered.halted
  obtain ⟨_, q, -, -, hgeneration', -, hnext', -⟩ := hrecovered'.halted
  refine h.eq_of_generation hi hj ht hu hstream ?_
  rw [hnext, hnext', ← hgeneration, ← hgeneration', hsame]

theorem Holds.halt_stored (hi : i ∈ store.log) (hcall : calls[i.process]? = some (.recover request)) :
    ∃ halt ∈ eventsOf store.log, halt.streamId = i.event.streamId ∧
      request.authorization.haltedTransitionDigest = digestFor codec halt := by
  obtain ⟨before, after, hlog⟩ := List.append_of_mem hi
  obtain ⟨t, -, -, hrecovered⟩ := h.recovery hlog hcall
  obtain ⟨halt, p, hlast, -, -, hdigest, -, -⟩ := hrecovered.halted
  obtain ⟨x, hx, hof⟩ := List.mem_filterMap.1 (List.mem_of_getLast? hlast)
  obtain ⟨rfl, -⟩ := transitionOf_eq_some.1 hof
  obtain ⟨hstored, hstream⟩ := mem_ofStream.1 hx
  refine ⟨halt, ?_, hstream, hdigest⟩
  rw [hlog, eventsOf_append]
  exact List.mem_append_left _ hstored

theorem Holds.eq_of_digest (hround : codec.ledger.RoundTrips)
    (hfree : CollisionFree codec (eventsOf store.log)) {e e' : LedgerEvent} (he : e ∈ eventsOf store.log)
    (he' : e' ∈ eventsOf store.log) (hdigest : digestFor codec e = digestFor codec e') : e = e' := by
  have hparse := hround e (h.recorded.storable he)
  rw [hfree e he e' he' hdigest, hround e' (h.recorded.storable he')] at hparse
  exact (Option.some.inj hparse).symm

theorem Holds.authorization_once_anywhere (hround : codec.ledger.RoundTrips)
    (hfree : CollisionFree codec (eventsOf store.log)) (hi : i ∈ store.log) (hj : j ∈ store.log)
    (hcall : calls[i.process]? = some (.recover request)) (hcall' : calls[j.process]? = some (.recover request'))
    (hsame : request.authorization = request'.authorization) : i = j := by
  obtain ⟨halt, hstored, hstream, hdigest⟩ := h.halt_stored hi hcall
  obtain ⟨halt', hstored', hstream', hdigest'⟩ := h.halt_stored hj hcall'
  have hhalt : halt = halt' := by
    refine h.eq_of_digest hround hfree hstored hstored' ?_
    rw [← hdigest, ← hdigest', hsame]
  refine h.authorization_once hi hj hcall hcall' hsame ?_
  rw [← hstream, ← hstream', hhalt]

omit h

/-! ## Retries -/

variable {later : List LedgerEvent} {r' : GlobalHaltReplay}

theorem streamReplay_state
    (h : streamReplay codec s (events ++ later) = .ok r') (hr : streamReplay codec s events = .ok r)
    (hlater : transitions later = []) : r'.state = r.state := by
  induction later using List.reverseRecOn generalizing r' with
  | nil =>
    rw [List.append_nil, hr] at h
    rw [← Except.ok.inj h]
  | append_singleton later event ih =>
    rw [transitions_append, List.append_eq_nil_iff] at hlater
    rw [← List.append_assoc] at h
    obtain ⟨before, hbefore, hstep⟩ := streamReplay_concat.1 h
    obtain ⟨-, next, hnext, rfl⟩ := replayStep_ok_iff.1 hstep
    rw [← ih hbefore hlater.1]
    cases hnext with
    | transition payload _ hpayload =>
      rw [transitions_singleton_of hpayload] at hlater
      cases hlater.2
    | prepared => rfl
    | consumed => rfl

variable {past : List LedgerEvent}

theorem filter_eventId (h : ((past ++ event :: later).map (·.eventId)).Nodup) :
    (past ++ event :: later).filter (fun e => e.eventId = event.eventId) = [event] := by
  rw [List.map_append, List.map_cons, List.nodup_append, List.nodup_cons] at h
  obtain ⟨-, ⟨hlater, -⟩, hpast⟩ := h
  rw [List.filter_append, List.filter_cons, if_pos (decide_eq_true rfl), List.filter_eq_nil_iff.2,
    List.filter_eq_nil_iff.2]
  · rfl
  · intro e he
    rw [decide_eq_true_iff]
    exact fun heq => hlater (List.mem_map.2 ⟨e, he, heq⟩)
  · intro e he
    rw [decide_eq_true_iff]
    exact hpast _ (List.mem_map.2 ⟨e, he, rfl⟩) _ List.mem_cons_self

theorem filter_sequence_lt (h : ((past ++ event :: later).map (·.sequence)).Pairwise (· < ·)) :
    (past ++ event :: later).filter (fun e => e.sequence < event.sequence) = past := by
  rw [List.map_append, List.map_cons, List.pairwise_append, List.pairwise_cons] at h
  obtain ⟨-, ⟨hlater, -⟩, hpast⟩ := h
  rw [List.filter_append, List.filter_cons, if_neg (by simp), List.filter_eq_self.2,
    List.filter_eq_nil_iff.2, List.append_nil]
  · intro e he
    rw [decide_eq_true_iff]
    exact (hlater _ (List.mem_map.2 ⟨e, he, rfl⟩)).not_gt
  · intro e he
    exact decide_eq_true (hpast _ (List.mem_map.2 ⟨e, he, rfl⟩) _ List.mem_cons_self)

variable {current : GlobalHaltState}

theorem alreadyDurableRecovery_of (hround : codec.ledger.RoundTrips)
    (hstorable : ∀ e ∈ loaded, codec.ledger.storable e = true)
    (hstream : ofStream request.streamId loaded = past ++ event :: later)
    (hids : ((past ++ event :: later).map (·.eventId)).Nodup)
    (hsequences : ((past ++ event :: later).map (·.sequence)).Pairwise (· < ·))
    (hreplay : streamReplay codec request.streamId past = .ok r) {prior : GlobalHaltState}
    (hprior : r.state = some prior) (hhalted : prior.status = .halted)
    (hverified : verifyRecoveryAuthorization codec request prior = .ok true)
    (hpayload : recoveryPayload codec request r = .ok t)
    (hevent : event = transitionEvent request.streamId r.headSequence request.eventId t)
    (hcurrent : r'.state = some current)
    (hactive : current.status = .active) (hid : current.transitionEventId = request.eventId) :
    alreadyDurableRecovery codec loaded r' request = .ok (some current) := by
  have hmem : ∀ e ∈ past ++ event :: later, e ∈ loaded ∧ e.streamId = request.streamId := by
    rw [← hstream]
    exact fun e he => mem_ofStream.1 he
  have hpast : replayGlobalHaltAuthority codec past request.streamId = .ok r := by
    rw [replayGlobalHaltAuthority_ok_iff hround fun e he => hstorable e (hmem e (List.mem_append_left _ he)).1,
      ofStream_eq_self fun e he => (hmem e (List.mem_append_left _ he)).2]
    exact hreplay
  have htext : serializeEvent codec.ledger.toLedgerCodec event = some (codec.ledger.eventJson event) :=
    serializeEvent_eq_some.2 ⟨hstorable event (hmem event (by simp)).1, rfl⟩
  have hselected : (loaded.map fun e => (e, codec.ledger.eventJson e)).filter
      (fun item => item.1.streamId = request.streamId) =
        (past ++ event :: later).map fun e => (e, codec.ledger.eventJson e) := by
    rw [List.filter_map, ← hstream]
    rfl
  have hmatch : ((past ++ event :: later).map fun e => (e, codec.ledger.eventJson e)).filter
      (fun item => item.1.eventId = request.eventId) = [(event, codec.ledger.eventJson event)] := by
    rw [List.filter_map]
    show ((past ++ event :: later).filter fun e => e.eventId = request.eventId).map _ = _
    have hsame : request.eventId = event.eventId := by
      rw [hevent]
      rfl
    rw [hsame, filter_eventId hids]
    rfl
  have hfirst : ((past ++ event :: later).map fun e => (e, codec.ledger.eventJson e)).map Prod.fst =
      past ++ event :: later := by
    rw [List.map_map]
    exact List.map_id _
  have hkind : event.payload = .transition t := by
    rw [hevent]
    rfl
  have hsequence : event.sequence - 1 = r.headSequence := by
    rw [hevent]
    rfl
  have hexpected : transitionEvent request.streamId (event.sequence - 1) request.eventId t = event := by
    rw [hsequence]
    exact hevent.symm
  have hkeep : ¬ (current.status ≠ .active ∨ current.transitionEventId ≠ request.eventId) := by
    rintro (h | h)
    · exact h hactive
    · exact h hid
  unfold alreadyDurableRecovery
  simp only [hcurrent, if_neg hkeep, mapM_canonicalEnvelope hround hstorable, ok_bind, hselected, hmatch,
    List.getLast?_singleton, hkind, hfirst,
    filter_sequence_lt hsequences, hpast, hprior]
  rw [if_neg (not_not.2 hhalted), hverified, ok_bind, if_neg (by simp), hpayload, ok_bind, hexpected]
  simp only [htext, if_pos]
  rfl

theorem planRecovery_stale (hcurrent : r.state = some current) (hid : current.transitionEventId ≠ request.eventId)
    (hgeneration : request.authorization.haltedGeneration ≠ current.generation)
    (hbreaker : evaluateGlobalBreaker request.observation request.policy request.safety = .ok []) :
    planRecovery codec request loaded r = .error recoveryFailure := by
  unfold planRecovery
  simp only [hcurrent]
  cases hstatus : current.status with
  | active =>
    have hnone : alreadyDurableRecovery codec loaded r request = .ok none := by
      unfold alreadyDurableRecovery
      simp only [hcurrent, if_pos (Or.inr hid : current.status ≠ .active ∨ _)]
      rfl
    simp only [hnone]
    rfl
  | halted =>
    have hbindings : recoveryBindingsMatch codec request current = .ok false := by
      unfold recoveryBindingsMatch
      rw [hbreaker, ok_bind, decide_eq_false fun h => hgeneration h.1.1]
      rfl
    have hverified : verifyRecoveryAuthorization codec request current = .error recoveryFailure ∨
        verifyRecoveryAuthorization codec request current = .ok false := by
      unfold verifyRecoveryAuthorization
      split
      · exact .inl rfl
      · split_ifs
        · exact .inr hbindings
        · exact .inr rfl
    simp only
    rcases hverified with h | h
    · rw [h]
      rfl
    · rw [h]
      rfl

theorem recoverGlobalHalt_eq
    (hsafety : verifyGlobalSafetyObservation request.safetyVerifier request.safety = .ok request.safety) :
    recoverGlobalHalt codec request = loadLedger recoveryFailure >>= recoverFrom codec request := by
  unfold recoverGlobalHalt
  rw [hsafety]
  rfl

variable {α β : Type}

theorem step_ok_bind (a : α) (f : α → AuthorityM β) : (step (.ok a) >>= f) = f a := rfl

theorem step_error_bind (e : AuthorityFailure) (f : α → AuthorityM β) : (step (.error e) >>= f) = step (.error e) := rfl

variable {result : Except AuthorityFailure GlobalHaltState}

theorem recoverFrom_of_plan (hreplay : replayGlobalHaltAuthority codec loaded request.streamId = .ok r)
    (hplan : planRecovery codec request loaded r = result.map Sum.inl) :
    recoverFrom codec request loaded = step result := by
  have hrescue : rescue (replayGlobalHaltAuthority codec loaded request.streamId) recoveryFailure = .ok r :=
    rescue_ok_iff.2 hreplay
  unfold recoverFrom
  rw [hrescue, step_ok_bind, hplan]
  cases result with
  | error e => exact step_error_bind e _
  | ok state => exact step_ok_bind _ _

theorem recover_step {pool : Pool AuthorityStore RepositoryReply (Except AuthorityFailure AuthorityResult)} {m : ℕ}
    (hproc : pool.procs[m]? = some ((AuthorityCall.recover request).program codec).run)
    (hsafety : verifyGlobalSafetyObservation request.safetyVerifier request.safety = .ok request.safety)
    (hserve : serve codec m .loadEvents pool.store = (.ok loaded, pool.store))
    (hreplay : replayGlobalHaltAuthority codec loaded request.streamId = .ok r)
    (hplan : planRecovery codec request loaded r = result.map Sum.inl) :
    (Pool.step (serve codec) pool m).store = pool.store ∧
      resultOf (Pool.step (serve codec) pool m) m = some (result.map AuthorityResult.state) := by
  have hprogram : ((AuthorityCall.recover request).program codec).run =
      ((loadLedger recoveryFailure >>= recoverFrom codec request) >>= fun state =>
        pure (AuthorityResult.state state)).run := by
    rw [← recoverGlobalHalt_eq hsafety]
    rfl
  have hcall : ∃ next, ((AuthorityCall.recover request).program codec).run = .call .loadEvents next ∧
      next (.ok loaded) = .ret (result.map AuthorityResult.state) := by
    rw [hprogram]
    refine ⟨_, rfl, ?_⟩
    show (recoverFrom codec request loaded >>= fun state => pure (AuthorityResult.state state)).run = _
    rw [recoverFrom_of_plan hreplay hplan]
    cases result <;> rfl
  obtain ⟨next, hrun, hnext⟩ := hcall
  rw [hrun] at hproc
  have hlt : m < pool.procs.length := (List.getElem?_eq_some_iff.1 hproc).1
  have hstep : Pool.step (serve codec) pool m =
      ⟨pool.store, pool.procs.set m (.ret (result.map AuthorityResult.state))⟩ := by
    unfold Pool.step
    simp only [hproc, hserve, hnext]
  rw [hstep]
  refine ⟨rfl, ?_⟩
  unfold resultOf
  rw [List.getElem?_set_self hlt]

/-! ## Retries in a run -/

theorem ofStream_append (s : Uuid) (events later : List LedgerEvent) :
    ofStream s (events ++ later) = ofStream s events ++ ofStream s later :=
  List.filter_append ..

theorem ofStream_around {before after : List Insertion} {i : Insertion} (h : i.event.streamId = s) :
    ofStream s (eventsOf (before ++ i :: after)) =
      ofStream s (eventsOf before) ++ i.event :: ofStream s (eventsOf after) := by
  have hone : ofStream s [i.event] = [i.event] := ofStream_eq_self fun e he => by
    rw [List.mem_singleton.1 he]
    exact h
  have hevents : eventsOf (before ++ i :: after) = eventsOf before ++ ([i.event] ++ eventsOf after) :=
    eventsOf_append before (i :: after)
  rw [hevents, ofStream_append, ofStream_append, hone]
  rfl

theorem newTransitionPayload_of {request : TransitionRequest} {status : GlobalHaltStatus}
    {reasons : List GlobalHaltReasonCode} {digest : Option Sha256} {payload : GlobalHaltTransition}
    (hfields : payload.toGlobalHaltTransitionFields = newTransitionFields codec r request status reasons digest) :
    newTransitionPayload codec r request status reasons digest = .ok payload := by
  unfold newTransitionPayload
  cases payload
  simp only at hfields
  subst hfields
  rw [dif_pos]

theorem recovered_state (hplan : planRecovery codec request loaded r = .ok (.inr (event, outbox)))
    (hr' : streamReplay codec s (events ++ [event]) = .ok r') :
    ∃ state, r'.state = some state ∧ state.status = .active ∧ state.transitionEventId = request.eventId := by
  obtain ⟨_, -, -, -, hnew, -⟩ := planRecovery_inr hplan
  obtain ⟨t, hfields, rfl⟩ := newTransition_ok hnew
  obtain ⟨before, hbefore, hstep⟩ := streamReplay_concat.1 hr'
  obtain ⟨-, next, hnext, rfl⟩ := replayStep_ok_iff.1 hstep
  cases hnext with
  | transition payload state hpayload _ hstate =>
    obtain rfl := LedgerPayload.transition.inj hpayload
    refine ⟨state, rfl, ?_, ?_⟩
    · rw [hstate]
      show t.nextStatus = _
      rw [hfields]
      rfl
    · rw [hstate]
      rfl
  | prepared payload hpayload => cases hpayload
  | consumed payload hpayload => cases hpayload

theorem later_transition (h : Describes codec s (past ++ event :: later) r)
    (hids : ((past ++ event :: later).map (·.eventId)).Nodup) (hlater : transitions later ≠ [])
    {halt : LedgerEvent × GlobalHaltTransition} (hhalt : halt ∈ transitions past) :
    ∃ current, r.state = some current ∧ current.transitionEventId ≠ event.eventId ∧
      halt.2.nextGeneration ≠ current.generation := by
  have hsplit : transitions (past ++ event :: later) =
      (transitions past ++ transitions [event]) ++ transitions later := by
    rw [← transitions_append, ← transitions_append, List.append_assoc, List.singleton_append]
  cases hstate : r.state with
  | none =>
    have hnil := h.current.initial hstate
    rw [hsplit, List.append_eq_nil_iff] at hnil
    exact absurd hnil.2 hlater
  | some current =>
    obtain ⟨e, t, prior, hlast, hfields⟩ := h.current.state current hstate
    rw [hsplit, List.getLast?_append_of_ne_nil _ hlater] at hlast
    have hmem := List.mem_of_getLast? hlast
    refine ⟨current, rfl, ?_, ?_⟩
    · obtain ⟨x, hx, hof⟩ := List.mem_filterMap.1 hmem
      obtain ⟨rfl, -⟩ := transitionOf_eq_some.1 hof
      rw [hfields]
      rw [List.map_append, List.map_cons, List.nodup_append, List.nodup_cons] at hids
      intro hsame
      exact hids.2.1.1 (List.mem_map.2 ⟨e, hx, hsame⟩)
    · rw [hfields]
      have hgenerations := h.lineage.generations
      rw [List.pairwise_map, hsplit, List.append_assoc, List.pairwise_append] at hgenerations
      exact (hgenerations.2.2 halt hhalt (e, t) (List.mem_append_right _ hmem)).ne

theorem Holds.retry_plan (h : Holds codec calls store) (hround : codec.ledger.RoundTrips)
    (hlog : store.log = before ++ i :: after)
    (hcall : calls[i.process]? = some (.recover request))
    (hcalls : ∀ event, .recordDecision event ∈ calls → event.streamId ≠ request.streamId) :
    verifyGlobalSafetyObservation request.safetyVerifier request.safety = .ok request.safety ∧
      ∃ r, replayGlobalHaltAuthority codec (loadedEvents codec store.log) request.streamId = .ok r ∧
        ∃ r' state, streamReplay codec request.streamId
            (ofStream request.streamId (eventsOf before) ++ [i.event]) = .ok r' ∧ r'.state = some state ∧
          planRecovery codec request (loadedEvents codec store.log) r =
            if transitions (ofStream request.streamId (eventsOf after)) = [] then .ok (.inl state)
            else .error recoveryFailure := by
  obtain ⟨r, loaded, outbox, hsafety, hreplay, hplan⟩ := h.recovery_planned hlog hcall
  obtain ⟨prior, hprior, hhalted, hverified, hnew, -⟩ := planRecovery_inr hplan
  obtain ⟨t, hfields, hevent⟩ := newTransition_ok hnew
  obtain ⟨whole, hwhole⟩ := h.replayable hround hcalls
  have hstorable : ∀ e ∈ loadedEvents codec store.log, codec.ledger.storable e = true :=
    fun e he => h.recorded.storable (mem_loadedEvents.1 he)
  have hstreamId : i.event.streamId = request.streamId := by
    rw [hevent]
    rfl
  -- the stream is what came before, the transition of the recovery, and what came later
  have hstream := @ofStream_around _ before after i hstreamId
  rw [← hlog] at hstream
  have hids : ((ofStream request.streamId (eventsOf store.log)).map (·.eventId)).Nodup :=
    h.recorded.distinct.sublist (List.filter_sublist.map _)
  have hsequences : ((ofStream request.streamId (eventsOf store.log)).map (·.sequence)).Pairwise
      (· < ·) := by
    rw [h.recorded.sequences]
    exact List.pairwise_lt_range' 1
  have hreplayed := (h.recorded.replay_ok_iff hround).1 hwhole
  have hloaded := h.recorded.ofStream_loadedEvents request.streamId
  rw [hstream] at hids hsequences hreplayed hloaded
  have happended : streamReplay codec request.streamId
      ((ofStream request.streamId (eventsOf before) ++ [i.event]) ++
        ofStream request.streamId (eventsOf after)) = .ok whole := by
    rw [List.append_assoc]
    exact hreplayed
  obtain ⟨r', hr'⟩ := streamReplay_initial happended
  obtain ⟨state, hstate, hactive, hid⟩ := recovered_state hplan hr'
  refine ⟨hsafety, whole, hwhole, r', state, hr', hstate, ?_⟩
  split_ifs with hlater
  · have hcurrent : whole.state = some state := (streamReplay_state happended hr' hlater).trans hstate
    have hdurable := alreadyDurableRecovery_of hround hstorable hloaded hids hsequences hreplay hprior hhalted
      hverified (newTransitionPayload_of hfields) hevent hcurrent hactive hid
    unfold planRecovery
    simp only [hcurrent, hactive, hdurable]
    rfl
  · obtain ⟨⟨hgeneration, -⟩, hbreaker⟩ := verifyRecoveryAuthorization_true hverified
    obtain ⟨halt, p, before', hlast, hfields'⟩ :=
      (describes_of_streamReplay hreplay).current.state prior hprior
    obtain ⟨current, hcurrent, hother, hnext⟩ := later_transition (describes_of_streamReplay hreplayed) hids
      hlater (List.mem_of_getLast? hlast)
    have heventId : i.event.eventId = request.eventId := by
      rw [hevent]
      rfl
    rw [heventId] at hother
    refine planRecovery_stale hcurrent hother ?_ hbreaker
    rw [hgeneration, hfields']
    exact hnext

theorem run_recovered (hround : codec.ledger.RoundTrips) (calls : List AuthorityCall) (schedule : List ℕ) {n : ℕ}
    (hcall : calls[n]? = some (.recover request)) {result : AuthorityResult}
    (hresult : resultOf (runAuthority codec calls schedule) n = some (.ok result)) :
    ∃ state t, result = .state state ∧ t.log <+: (runAuthority codec calls schedule).store.log ∧
      Recovered codec request state t := by
  have hprocs : ∀ n p, (calls.map fun call => (call.program codec).run)[n]? = some p →
      Keeps (serve codec) (authorityDiscipline codec calls) n
        (fun result t => ∀ request, calls[n]? = some (.recover request) → ∀ a, result = .ok a →
          ∃ state, a = .state state ∧ Recovered codec request state t) p .empty := by
    intro n p hp
    rw [List.getElem?_map] at hp
    obtain ⟨call, hcall, rfl⟩ := Option.map_eq_some_iff.1 hp
    cases call with
    | recover request =>
      have hsound : Sound codec calls n
          (fun result t => ∃ state, result = .state state ∧ Recovered codec request state t)
          ((AuthorityCall.recover request).program codec) .empty :=
        Ensures.bind (holds_empty codec calls) (sound_recover hround (holds_empty codec calls) hcall)
          fun state t _ _ h => ensures_pure ⟨state, rfl, h⟩
      refine Keeps.mono hsound fun result t h request' hcall' a ha => ?_
      obtain rfl := AuthorityCall.recover.inj (Option.some.inj (hcall.symm.trans hcall'))
      exact h a ha
    | recordDecision | observe | prepare | consume =>
      refine Keeps.mono (sound_program hround (holds_empty codec calls) hcall) fun result t _ request' h => ?_
      rw [hcall] at h
      cases h
  obtain ⟨-, -, hkeeps⟩ := Pool.run_keeps (holds_empty codec calls) hprocs schedule
  unfold resultOf at hresult
  split at hresult
  · rename_i a hproc
    obtain rfl := Option.some.inj hresult
    obtain ⟨t, ht, hreturned⟩ := hkeeps n _ hproc
    obtain ⟨state, rfl, hrecovered⟩ := hreturned request hcall result rfl
    exact ⟨state, t, rfl, ht, hrecovered⟩
  · cases hresult

theorem Holds.past_insertion (h : Holds codec calls store)
    (hlog : store.log = before ++ i :: after) (hearly : log <+: store.log)
    (hid : i.event.eventId ∈ (eventsOf log).map (·.eventId)) : ∃ rest, log = before ++ i :: rest ∧ rest <+: after := by
  obtain ⟨e, he, hsame⟩ := List.mem_map.1 hid
  obtain ⟨k, hk, rfl⟩ := List.mem_map.1 he
  have hi : i ∈ store.log := by
    rw [hlog]
    exact List.mem_append_right _ List.mem_cons_self
  obtain rfl := h.eq_of_eventId (hearly.mem hk) hi hsame
  obtain ⟨tail, htail⟩ := hearly
  rw [hlog, List.append_eq_append_iff] at htail
  rcases htail with ⟨xs, hbefore, -⟩ | ⟨xs, hxs, hcons⟩
  · -- the insertion would come before itself
    exfalso
    refine h.fresh hlog (List.mem_map.2 ⟨k.event, mem_eventsOf ?_, rfl⟩)
    rw [hbefore]
    exact List.mem_append_left _ hk
  · cases xs with
    | nil =>
      exfalso
      refine h.fresh hlog (List.mem_map.2 ⟨k.event, mem_eventsOf ?_, rfl⟩)
      rw [List.append_nil] at hxs
      rw [← hxs]
      exact hk
    | cons x rest =>
      obtain ⟨rfl, hafter⟩ := List.cons.inj hcons
      exact ⟨rest, hxs, tail, hafter.symm⟩

/-- No authorization made two insertions. -/
structure AuthorizationsUsedOnce (codec : AuthorityCodec) (calls : List AuthorityCall) (log : List Insertion) :
    Prop where
  onStream : ∀ i ∈ log, ∀ j ∈ log, ∀ request request',
    calls[i.process]? = some (.recover request) → calls[j.process]? = some (.recover request') →
    request.authorization = request'.authorization → i.event.streamId = j.event.streamId → i = j
  anywhere : CollisionFree codec (eventsOf log) → ∀ i ∈ log, ∀ j ∈ log, ∀ request request',
    calls[i.process]? = some (.recover request) → calls[j.process]? = some (.recover request') →
    request.authorization = request'.authorization → i = j

/-- The answer to a retry: the state of the recovery as long as no other transition followed it, and a refusal
afterwards. -/
def RetryAnswered (codec : AuthorityCodec) (request : RecoveryRequest) (before : List Insertion)
    (i : Insertion) (after : List Insertion) (original retried : Option (Except AuthorityFailure AuthorityResult)) :
    Prop :=
  if transitions (ofStream request.streamId (eventsOf after)) = [] then
    ∃ r state, streamReplay codec request.streamId
        (ofStream request.streamId (eventsOf before) ++ [i.event]) = .ok r ∧ r.state = some state ∧
      retried = some (.ok (.state state)) ∧ ∀ result, original = some (.ok result) → result = .state state
  else retried = some (.error recoveryFailure)

/-- A recovery authorization reactivates once, and a retry of its recovery appends nothing. -/
theorem recovery_reactivates_once (codec : AuthorityCodec) (hround : codec.ledger.RoundTrips)
    (calls : List AuthorityCall) (schedule : List ℕ) :
    (∀ before i after t, (runAuthority codec calls schedule).store.log = before ++ i :: after →
      i.event.payload = .transition t → t.nextStatus = .active → t.nextGeneration ≠ 1 →
      ∃ request, calls[i.process]? = some (.recover request) ∧
        RecoveredBy codec (eventsOf before) i.event t request) ∧
    AuthorizationsUsedOnce codec calls (runAuthority codec calls schedule).store.log ∧
    ∀ before i after m request, (runAuthority codec calls schedule).store.log = before ++ i :: after →
      calls[i.process]? = some (.recover request) → calls[m]? = some (.recover request) → m ∉ schedule →
      (∀ event, .recordDecision event ∈ calls → event.streamId ≠ request.streamId) →
      (runAuthority codec calls (schedule ++ [m])).store = (runAuthority codec calls schedule).store ∧
        RetryAnswered codec request before i after (resultOf (runAuthority codec calls schedule) i.process)
          (resultOf (runAuthority codec calls (schedule ++ [m])) m) := by
  have h := (run_holds hround calls schedule).1
  refine ⟨fun before i after t hlog hpayload hactive hlater => ?_, ⟨?_, ?_⟩, ?_⟩
  · obtain ⟨call, hcall, hproduces⟩ := h.produced before i after hlog
    obtain ⟨request, rfl, hrecovered⟩ := hproduces.recoveredBy hpayload hactive hlater
    exact ⟨request, hcall, hrecovered⟩
  · intro i hi j hj request request' hcall hcall' hsame hstream
    exact h.authorization_once hi hj hcall hcall' hsame hstream
  · intro hfree i hi j hj request request' hcall hcall' hsame
    exact h.authorization_once_anywhere hround hfree hi hj hcall hcall' hsame
  · intro before i after m request hlog hcall hretry hnew hcalls
    obtain ⟨hsafety, r, hreplay, r', state, hr', hstate, hplan⟩ := h.retry_plan hround hlog hcall hcalls
    have hproc : (runAuthority codec calls schedule).procs[m]? =
        some ((AuthorityCall.recover request).program codec).run := by
      unfold runAuthority
      rw [Pool.run_procs_of_notMem (serve codec) hnew, List.getElem?_map, hretry]
      rfl
    have hserve := serve_load (n := m) hround h.recorded
    have hrun : runAuthority codec calls (schedule ++ [m]) =
        Pool.step (serve codec) (runAuthority codec calls schedule) m := Pool.run_concat ..
    rw [hrun]
    unfold RetryAnswered
    split_ifs at hplan ⊢ with hlast
    · have hsettled : planRecovery codec request _ r = (Except.ok state).map Sum.inl := hplan
      obtain ⟨hstore, hanswer⟩ := recover_step hproc hsafety hserve hreplay hsettled
      refine ⟨hstore, r', state, hr', hstate, hanswer, fun result hresult => ?_⟩
      obtain ⟨returned, t, rfl, ht, log, hle, ⟨q, hq, hreturned⟩, hid⟩ :=
        run_recovered hround calls schedule hcall hresult
      have hevent : i.event.eventId = request.eventId := by
        obtain ⟨_, -, -, hrecovered⟩ := h.recovery hlog hcall
        exact hrecovered.identity
      have hstreamId : i.event.streamId = request.streamId := by
        obtain ⟨_, -, -, hrecovered⟩ := h.recovery hlog hcall
        exact hrecovered.stream
      rw [← hevent] at hid
      obtain ⟨rest, rfl, hrest⟩ := h.past_insertion hlog (hle.trans ht) hid
      have hnone : transitions (ofStream request.streamId (eventsOf rest)) = [] := by
        have hearly := (ofStream_mono hrest request.streamId).filterMap transitionOf
        unfold transitions at hlast ⊢
        rw [hlast] at hearly
        exact List.prefix_nil.1 hearly
      rw [ofStream_around hstreamId, ← List.singleton_append, ← List.append_assoc] at hq
      have hsame := streamReplay_state hq hr' hnone
      rw [hreturned, hstate] at hsame
      rw [Option.some.inj hsame]
    · have hrefused : planRecovery codec request _ r = (Except.error recoveryFailure).map Sum.inl := hplan
      exact recover_step hproc hsafety hserve hreplay hrefused

/-! ## A sample recovery -/

def sampleHalting : GlobalHaltTransition :=
  ⟨newTransitionFields (sampleAuthorityCodec []) { GlobalHaltReplay.empty with state := some sampleState }
    (sampleTransitionRequest .active 12 0) .halted [.killSwitchActive] none, by decide +kernel⟩

def sampleHaltEvent : LedgerEvent := transitionEvent 1 1 12 sampleHalting

def sampleHaltedState : GlobalHaltState :=
  ⟨stateFields 1 12 (digestFor (sampleAuthorityCodec []) sampleHaltEvent) sampleHalting (some sampleState),
    by decide +kernel⟩

def sampleAuthorization : GlobalHaltRecoveryAuthorization where
  authorizationId := 41
  authorizationDigest := "authorization.41"
  haltedGeneration := 2
  haltedTransitionDigest := digestFor (sampleAuthorityCodec []) sampleHaltEvent
  runtimePolicyDigest := canonicalModelDigest sampleModelCodec (.policy samplePolicy)
  runtimeObservationDigest := canonicalModelDigest sampleModelCodec (.observation sampleObservation)
  portfolioDigest := canonicalModelDigest sampleModelCodec (.portfolio samplePortfolio)
  safetyBindingDigest := globalSafetyBindingDigest sampleModelCodec (sampleSafety .inactive 0)
  issuedAt := 0
  expiresAt := 1
  operatorAuthorityDigest := "operator"
  generation_pos := by decide
  lifetime := by decide

def sampleRecovery : RecoveryRequest :=
  { sampleTransitionRequest .inactive 17 0 with
    authorization := sampleAuthorization
    verifier := fun authorization _ _ _ _ _ => some authorization }

def sampleReactivation : GlobalHaltTransition :=
  ⟨newTransitionFields (sampleAuthorityCodec []) { GlobalHaltReplay.empty with state := some sampleHaltedState }
    sampleRecovery.toTransitionRequest .active [.recoveryAuthorized] (some "authorization.41"),
    by decide +kernel⟩

def sampleRecoveryEvent : LedgerEvent := transitionEvent 1 2 17 sampleReactivation

def sampleRecoveredState : GlobalHaltState :=
  ⟨stateFields 1 17 (digestFor (sampleAuthorityCodec []) sampleRecoveryEvent) sampleReactivation
    (some sampleHaltedState), by decide +kernel⟩

def sampleSecondHalting : GlobalHaltTransition :=
  ⟨newTransitionFields (sampleAuthorityCodec [])
    { GlobalHaltReplay.empty with state := some sampleRecoveredState } (sampleTransitionRequest .active 18 0)
    .halted [.killSwitchActive] none, by decide +kernel⟩

def recoveryRunEvents : List LedgerEvent :=
  [sampleInitialEvent, sampleHaltEvent, sampleRecoveryEvent, transitionEvent 1 3 18 sampleSecondHalting]

def recoveryCalls : List AuthorityCall :=
  [.observe (sampleTransitionRequest .inactive 11 0), .observe (sampleTransitionRequest .active 12 0),
    .recover sampleRecovery, .recover sampleRecovery, .observe (sampleTransitionRequest .active 18 0)]

theorem recoveryCalls_decisions (event : LedgerEvent) (h : .recordDecision event ∈ recoveryCalls) :
    event.streamId ≠ sampleRecovery.streamId := by
  simp [recoveryCalls] at h

theorem recoveryRun_roundTrips : (sampleAuthorityCodec recoveryRunEvents).ledger.RoundTrips :=
  sampleAuthorityCodec_roundTrips (by decide +kernel)

theorem sample_recovery_retried :
    ∃ before i after, (runAuthority (sampleAuthorityCodec recoveryRunEvents) recoveryCalls
        [0, 0, 0, 1, 1, 1, 2, 2, 2]).store.log = before ++ i :: after ∧ i.process = 2 ∧
      (runAuthority (sampleAuthorityCodec recoveryRunEvents) recoveryCalls
          ([0, 0, 0, 1, 1, 1, 2, 2, 2] ++ [3])).store =
        (runAuthority (sampleAuthorityCodec recoveryRunEvents) recoveryCalls
          [0, 0, 0, 1, 1, 1, 2, 2, 2]).store ∧
      RetryAnswered (sampleAuthorityCodec recoveryRunEvents) sampleRecovery before i after
        (resultOf (runAuthority (sampleAuthorityCodec recoveryRunEvents) recoveryCalls
          [0, 0, 0, 1, 1, 1, 2, 2, 2]) i.process)
        (resultOf (runAuthority (sampleAuthorityCodec recoveryRunEvents) recoveryCalls
          ([0, 0, 0, 1, 1, 1, 2, 2, 2] ++ [3])) 3) := by
  have hprocesses : (runAuthority (sampleAuthorityCodec recoveryRunEvents) recoveryCalls
      [0, 0, 0, 1, 1, 1, 2, 2, 2]).store.log.map Insertion.process = [0, 1, 2] := by
    decide +kernel
  have hmem : 2 ∈ (runAuthority (sampleAuthorityCodec recoveryRunEvents) recoveryCalls
      [0, 0, 0, 1, 1, 1, 2, 2, 2]).store.log.map Insertion.process := by
    rw [hprocesses]
    decide
  obtain ⟨i, hi, hprocess⟩ := List.mem_map.1 hmem
  obtain ⟨before, after, hlog⟩ := List.append_of_mem hi
  have hretry := (recovery_reactivates_once _ recoveryRun_roundTrips recoveryCalls
    [0, 0, 0, 1, 1, 1, 2, 2, 2]).2.2 before i after 3 sampleRecovery hlog (by rw [hprocess]; rfl) rfl
    (by decide) recoveryCalls_decisions
  exact ⟨before, i, after, hlog, hprocess, hretry⟩

theorem retry_refused_after_halt : ¬ ∀ (codec : AuthorityCodec) (calls : List AuthorityCall) (schedule : List ℕ)
    (i : Insertion) (m : ℕ) (request : RecoveryRequest), codec.ledger.RoundTrips →
      i ∈ (runAuthority codec calls schedule).store.log → calls[i.process]? = some (.recover request) →
      calls[m]? = some (.recover request) → m ∉ schedule →
      (∀ event, .recordDecision event ∈ calls → event.streamId ≠ request.streamId) →
      ∃ state, resultOf (runAuthority codec calls (schedule ++ [m])) m = some (.ok (.state state)) := by
  intro h
  have hprocesses : (runAuthority (sampleAuthorityCodec recoveryRunEvents) recoveryCalls
      [0, 0, 0, 1, 1, 1, 2, 2, 2, 4, 4, 4]).store.log.map Insertion.process = [0, 1, 2, 4] := by
    decide +kernel
  have hmem : 2 ∈ (runAuthority (sampleAuthorityCodec recoveryRunEvents) recoveryCalls
      [0, 0, 0, 1, 1, 1, 2, 2, 2, 4, 4, 4]).store.log.map Insertion.process := by
    rw [hprocesses]
    decide
  obtain ⟨i, hi, hprocess⟩ := List.mem_map.1 hmem
  obtain ⟨state, hstate⟩ := h _ recoveryCalls _ i 3 sampleRecovery recoveryRun_roundTrips hi
    (by rw [hprocess]; rfl) rfl (by decide) recoveryCalls_decisions
  have hrefused : resultOf (runAuthority (sampleAuthorityCodec recoveryRunEvents) recoveryCalls
      ([0, 0, 0, 1, 1, 1, 2, 2, 2, 4, 4, 4] ++ [3])) 3 = some (.error recoveryFailure) := by
    decide +kernel
  rw [hstate] at hrefused
  cases hrefused

end TradingAgent.RuntimeRisk
