import TradingAgent.RuntimeRisk.AuthorityRuns

/-! Halt streams never wedge, and no order is submitted while halted. -/

namespace TradingAgent.RuntimeRisk

open Outcome Interaction EventLedger

variable {codec : AuthorityCodec} {calls : List AuthorityCall} {store : AuthorityStore} {s : Uuid}
  {events : List LedgerEvent} {event : LedgerEvent} {r : GlobalHaltReplay}

/-! ## Streams of a run -/

theorem mem_ofStream : event ∈ ofStream s events ↔ event ∈ events ∧ event.streamId = s := by
  unfold ofStream
  rw [List.mem_filter, decide_eq_true_iff]

theorem ofStream_concat_of (h : event.streamId = s) :
    ofStream s (events ++ [event]) = ofStream s events ++ [event] := by
  unfold ofStream
  rw [List.filter_append, List.filter_singleton, decide_eq_true h]
  rfl

theorem ofStream_concat_of_ne (h : event.streamId ≠ s) : ofStream s (events ++ [event]) = ofStream s events := by
  unfold ofStream
  rw [List.filter_append, List.filter_singleton, decide_eq_false h]
  exact List.append_nil _

theorem fresh_ofStream (h : event.eventId ∉ events.map (·.eventId)) :
    event.eventId ∉ (ofStream s events).map (·.eventId) := fun hmem => by
  obtain ⟨e, he, hid⟩ := List.mem_map.1 hmem
  exact h (List.mem_map.2 ⟨e, (mem_ofStream.1 he).1, hid⟩)

variable {call : AuthorityCall}

theorem Produces.continues (h : Produces codec events call event) (hfresh : event.eventId ∉ events.map (·.eventId)) :
    (∃ payload, event.payload = .decision payload ∧ call = .recordDecision event) ∨
      ∃ next, streamReplay codec event.streamId (ofStream event.streamId events ++ [event]) = .ok next := by
  cases h with
  | decision hpayload hbindings => exact .inl ⟨_, hpayload, rfl⟩
  | @observation request r _ _ hreplay hplan =>
    refine .inr ?_
    obtain ⟨status, reasons, hnew, hstatus, htime⟩ := planObservation_inr hplan
    obtain ⟨next, hnext⟩ := transition_continues (describes_of_streamReplay hreplay) hnew
      (fun state hstate => by
        obtain ⟨hactive, rfl⟩ := hstatus state hstate
        rw [hactive]
        decide) htime (fresh_ofStream hfresh)
    rw [(newTransition_position hnew).1]
    exact ⟨next, streamReplay_concat.2 ⟨r, hreplay, hnext⟩⟩
  | @recovery request r _ _ _ _ hreplay hplan =>
    refine .inr ?_
    obtain ⟨state, hstate, hhalted, -, hnew, htime⟩ := planRecovery_inr hplan
    obtain ⟨next, hnext⟩ := transition_continues (describes_of_streamReplay hreplay) hnew
      (fun state' hstate' => by
        obtain rfl := Option.some.inj (hstate.symm.trans hstate')
        rw [hhalted]
        decide) htime (fresh_ofStream hfresh)
    rw [(newTransition_position hnew).1]
    exact ⟨next, streamReplay_concat.2 ⟨r, hreplay, hnext⟩⟩
  | @preparation request r _ _ _ state _ _ _ _ hreplay hplan =>
    refine .inr ?_
    have hdescribes := describes_of_streamReplay hreplay
    obtain ⟨next, hnext⟩ := preparation_continues hdescribes hplan (fresh_ofStream hfresh)
    have hstream : event.streamId = request.haltStreamId := by
      rw [hplan.appended]
      exact hdescribes.streamId hplan.current
    rw [hstream]
    exact ⟨next, streamReplay_concat.2 ⟨r, hreplay, hnext⟩⟩
  | @consumption request r hreplay hpermit hcurrent =>
    refine .inr ?_
    unfold requireCurrentConsumptionAuthority at hcurrent
    obtain ⟨_, hbindings, -⟩ := bind_ok_iff.1 hcurrent
    obtain ⟨next, hnext⟩ := consumption_continues (describes_of_streamReplay hreplay) hpermit
      (require_ok_iff.1 hbindings) (fresh_ofStream hfresh)
    exact ⟨next, streamReplay_concat.2 ⟨r, hreplay, hnext⟩⟩

variable {before after : List Insertion} {i : Insertion}

variable (h : Holds codec calls store)
include h

theorem Holds.fresh (hlog : store.log = before ++ i :: after) :
    i.event.eventId ∉ (eventsOf before).map (·.eventId) := by
  have hdistinct := h.recorded.distinct
  rw [hlog, eventsOf_append, List.map_append] at hdistinct
  intro hmem
  exact (List.nodup_append.1 hdistinct).2.2 _ hmem _ List.mem_cons_self rfl

theorem Holds.split (s : Uuid) (hlog : store.log = before ++ after) :
    ∃ history decisions r, ofStream s (eventsOf before) = history ++ decisions ∧ streamReplay codec s history = .ok r ∧
      ∀ e ∈ decisions, (∃ payload, e.payload = .decision payload) ∧ .recordDecision e ∈ calls ∧ e.streamId = s := by
  induction before using List.reverseRecOn generalizing after with
  | nil => exact ⟨[], [], .empty, rfl, rfl, fun _ he => (nomatch he)⟩
  | append_singleton before i ih =>
    rw [List.append_assoc, List.singleton_append] at hlog
    have hevents : eventsOf (before ++ [i]) = eventsOf before ++ [i.event] := eventsOf_append before [i]
    obtain ⟨history, decisions, r, hsplit, hreplay, hdecisions⟩ := ih hlog
    rw [hevents]
    by_cases hstream : i.event.streamId = s
    · obtain ⟨call, hcall, hproduces⟩ := h.produced before i after hlog
      rw [ofStream_concat_of hstream]
      rcases hproduces.continues (h.fresh hlog) with ⟨payload, hpayload, rfl⟩ | ⟨next, hnext⟩
      · refine ⟨history, decisions ++ [i.event], r, by rw [hsplit, List.append_assoc], hreplay, ?_⟩
        intro e he
        rcases List.mem_append.1 he with he | he
        · exact hdecisions e he
        · obtain rfl := List.mem_singleton.1 he
          exact ⟨⟨payload, hpayload⟩, List.mem_of_getElem? hcall, hstream⟩
      · rw [hstream] at hnext
        exact ⟨ofStream s (eventsOf before) ++ [i.event], [], next, (List.append_nil _).symm, hnext,
          fun _ he => (nomatch he)⟩
    · rw [ofStream_concat_of_ne hstream]
      exact ⟨history, decisions, r, hsplit, hreplay, hdecisions⟩

/-! ## No wedge -/

theorem Holds.replayable (hround : codec.ledger.RoundTrips) {s : Uuid}
    (hcalls : ∀ event, .recordDecision event ∈ calls → event.streamId ≠ s) :
    ∃ r, replayGlobalHaltAuthority codec (loadedEvents codec store.log) s = .ok r := by
  obtain ⟨history, decisions, r, hsplit, hreplay, hdecisions⟩ := h.split s (List.append_nil _).symm
  have hnil : decisions = [] := List.eq_nil_iff_forall_not_mem.2 fun e he =>
    hcalls e (hdecisions e he).2.1 (hdecisions e he).2.2
  rw [hnil, List.append_nil] at hsplit
  refine ⟨r, (h.recorded.replay_ok_iff hround).2 ?_⟩
  rw [hsplit]
  exact hreplay

theorem Holds.load (hround : codec.ledger.RoundTrips) :
    loadEvents codec.ledger store.ledger = .ok (loadedEvents codec store.log) :=
  congrArg Prod.fst (serve_load (n := 0) hround h.recorded)

omit h

/-- Every event that the operations append, in any interleaving, passes every check of a later replay. -/
theorem halt_stream_never_wedges (codec : AuthorityCodec) (hround : codec.ledger.RoundTrips)
    (calls : List AuthorityCall) (schedule : List ℕ) (s : Uuid)
    (hcalls : ∀ event, .recordDecision event ∈ calls → event.streamId ≠ s) :
    ∃ events r, loadEvents codec.ledger (runAuthority codec calls schedule).store.ledger = .ok events ∧
      replayGlobalHaltAuthority codec events s = .ok r := by
  have h := (run_holds hround calls schedule).1
  obtain ⟨r, hr⟩ := h.replayable hround hcalls
  exact ⟨_, r, h.load hround, hr⟩

theorem sample_stream_never_wedges : (∀ event, .recordDecision event ∈ sampleCalls → event.streamId ≠ 1) ∧
      ∃ events r, loadEvents (sampleAuthorityCodec sampleRunEvents).ledger
          (runAuthority (sampleAuthorityCodec sampleRunEvents) sampleCalls sampleSchedule).store.ledger =
            .ok events ∧
        replayGlobalHaltAuthority (sampleAuthorityCodec sampleRunEvents) events 1 = .ok r := by
  have hcalls : ∀ event, .recordDecision event ∈ sampleCalls → event.streamId ≠ 1 := by
    intro event hevent
    have heq : event = sampleDecisionEvent 21 0 := by simpa [sampleCalls] using hevent
    rw [heq]
    decide
  exact ⟨hcalls, halt_stream_never_wedges _ sampleRun_roundTrips _ _ _ hcalls⟩

/-! ## No order while halted -/

/-- The permit was prepared under the latest transition, which is active and still the latest, at most
five seconds before. -/
def ConsumedUnder (codec : AuthorityCodec) (before : List LedgerEvent) (payload : SubmitPermitConsumed) : Prop :=
  ∃ earlier prepared permit later transition t,
    before = earlier ++ prepared :: later ∧ prepared.payload = .prepared permit ∧
      payload.permitId = permit.permitId ∧ payload.preparedEventDigest = digestFor codec prepared ∧
      ((transitions before).getLast? = some (transition, t) ∧ t.nextStatus = .active) ∧
      transitions later = [] ∧
      (permit.haltTransitionEventId = transition.eventId ∧
        permit.haltTransitionDigest = digestFor codec transition ∧
        permit.haltGeneration = t.nextGeneration) ∧
      permit.preparedAt ≤ payload.consumedAt ∧ payload.consumedAt ≤ permit.preparedAt + TimeDelta.seconds 5

/-- Consumptions are legal, and lineage and times are in order. -/
structure HaltStreamSafe (codec : AuthorityCodec) (stream : List LedgerEvent) : Prop where
  consumed : ∀ before event after payload, stream = before ++ event :: after →
    event.payload = .consumed payload → ConsumedUnder codec before payload
  lineage : Lineage codec stream
  times : (authorityTimes stream).Pairwise (· ≤ ·)

theorem streamReplay_initial {later : List LedgerEvent} (h : streamReplay codec s (events ++ later) = .ok r) :
    ∃ r, streamReplay codec s events = .ok r := by
  unfold streamReplay at h
  rw [List.foldlM_append] at h
  obtain ⟨r', hr', -⟩ := bind_ok_iff.1 h
  exact ⟨r', hr'⟩

theorem streamReplay_at {before after : List LedgerEvent}
    (h : streamReplay codec s (before ++ event :: after) = .ok r) :
    ∃ r next, streamReplay codec s before = .ok r ∧ Admits r event ∧ Advances codec s r event next := by
  rw [← List.singleton_append, ← List.append_assoc] at h
  obtain ⟨r', hr'⟩ := streamReplay_initial h
  obtain ⟨r, hr, hstep⟩ := streamReplay_concat.1 hr'
  obtain ⟨hadmits, next, hnext, -⟩ := replayStep_ok_iff.1 hstep
  exact ⟨r, next, hr, hadmits, hnext⟩

theorem Describes.prepared_under (h : Describes codec s events r) {permit : PreparedSubmitPermit}
    {permitId : Uuid} (hpermit : r.prepared.get? permitId = some permit) {state : GlobalHaltState}
    (hstate : r.state = some state) : ∃ earlier prepared payload later transition t prior,
      events = earlier ++ prepared :: later ∧ prepared.payload = .prepared payload ∧
        permit = referenceTo codec prepared payload ∧ permitId = payload.permitId ∧
        transitions later = [] ∧ (transitions events).getLast? = some (transition, t) ∧
        state.toGlobalHaltStateFields = stateFields s transition.eventId (digestFor codec transition) t prior ∧
        payload.haltGeneration = state.generation ∧ payload.haltTransitionEventId = state.transitionEventId ∧
        payload.haltTransitionDigest = state.transitionDigest := by
  obtain ⟨earlier, prepared, payload, later, hevents, hprepared, hlater, hentry, -, current, hcurrent,
    hgeneration, hid, hdigest⟩ := h.current.prepared _ (Dict.mem_of_get?_eq_some hpermit)
  obtain ⟨transition, t, prior, hlast, hfields⟩ := h.current.state state hstate
  obtain rfl := Option.some.inj (hstate.symm.trans hcurrent)
  obtain ⟨hkey, hreference⟩ := Prod.mk.inj hentry
  exact ⟨earlier, prepared, payload, later, transition, t, prior, hevents, hprepared, hreference, hkey,
    hlater, hlast, hfields, hgeneration, hid, hdigest⟩

variable {payload : SubmitPermitConsumed}

theorem consumedUnder_of_advances (h : Describes codec s events r)
    (hfollows : ConsumedFollows payload r) : ConsumedUnder codec events payload := by
  obtain ⟨authority, hauthority, state, hstate, hactive, hdigest, -, -, -, -, -, -, -, -, hafter, hexpires⟩ :=
    hfollows
  obtain ⟨earlier, prepared, permit, later, transition, t, prior, hevents, hprepared, rfl, hkey, hlater,
    hlast, hfields, hgeneration, hid, htransition⟩ := h.prepared_under hauthority hstate
  rw [hfields] at hgeneration hid htransition hactive
  refine ⟨earlier, prepared, permit, later, transition, t, hevents, hprepared, hkey, hdigest,
    ⟨hlast, hactive⟩, hlater, ⟨hid, htransition, hgeneration⟩, hafter, ?_⟩
  exact hexpires.trans (le_of_eq (expiresAt_eq permit))

variable {history decisions : List LedgerEvent}

theorem prefix_of_decisions {before after : List LedgerEvent}
    (hdecisions : ∀ e ∈ decisions, ∃ payload, e.payload = .decision payload)
    (hstream : history ++ decisions = before ++ event :: after)
    (hevent : ∀ payload, event.payload ≠ .decision payload) : ∃ rest, history = before ++ event :: rest := by
  rcases List.append_eq_append_iff.1 hstream with ⟨xs, hbefore, hxs⟩ | ⟨xs, hhistory, hxs⟩
  · -- the event would be one of the decisions
    exfalso
    have hmem : event ∈ decisions := by
      rw [hxs]
      exact List.mem_append_right _ List.mem_cons_self
    obtain ⟨payload, hpayload⟩ := hdecisions event hmem
    exact hevent payload hpayload
  · cases xs with
    | nil =>
      exfalso
      rw [List.nil_append] at hxs
      obtain ⟨payload, hpayload⟩ := hdecisions event (by rw [← hxs]; exact List.mem_cons_self)
      exact hevent payload hpayload
    | cons x rest =>
      obtain ⟨rfl, -⟩ := List.cons.inj hxs
      exact ⟨rest, hhistory⟩

theorem haltStreamSafe_of_split (hreplay : streamReplay codec s history = .ok r)
    (hdecisions : ∀ e ∈ decisions, ∃ payload, e.payload = .decision payload) :
    HaltStreamSafe codec (history ++ decisions) := by
  have hdescribes := describes_of_streamReplay hreplay
  have htransitions : transitions (history ++ decisions) = transitions history := by
    rw [transitions_append]
    have hnil : transitions decisions = [] := by
      refine List.filterMap_eq_nil_iff.2 fun e he => ?_
      obtain ⟨payload, hpayload⟩ := hdecisions e he
      unfold transitionOf
      rw [hpayload]
    rw [hnil, List.append_nil]
  have htimes : authorityTimes (history ++ decisions) = authorityTimes history := by
    unfold authorityTimes
    rw [List.filterMap_append]
    have hnil : (decisions.filterMap fun e => authorityTime e.payload) = [] := by
      refine List.filterMap_eq_nil_iff.2 fun e he => ?_
      obtain ⟨payload, hpayload⟩ := hdecisions e he
      rw [hpayload]
      rfl
    rw [hnil, List.append_nil]
  refine ⟨fun before event after payload hstream hpayload => ?_, ⟨?_, ?_⟩, ?_⟩
  · have hother : ∀ d, event.payload ≠ .decision d := by
      rw [hpayload]
      exact fun _ h => (nomatch h)
    obtain ⟨rest, rfl⟩ := prefix_of_decisions hdecisions hstream hother
    obtain ⟨r', next, hbefore, -, hnext⟩ := streamReplay_at hreplay
    cases hnext with
    | transition _ _ hother => rw [hpayload] at hother; cases hother
    | prepared _ hother => rw [hpayload] at hother; cases hother
    | consumed _ hsame hfollows =>
      rw [hpayload] at hsame
      cases hsame
      exact consumedUnder_of_advances (describes_of_streamReplay hbefore) hfollows
  · rw [htransitions]
    exact hdescribes.lineage.first
  · rw [htransitions]
    exact hdescribes.lineage.chain
  · rw [htimes]
    exact List.isChain_iff_pairwise.1 hdescribes.head.nondecreasing

/-- In every run, each consumption follows the preparation of its permit under the latest transition, which is
active. -/
theorem no_order_while_halted (codec : AuthorityCodec) (hround : codec.ledger.RoundTrips)
    (calls : List AuthorityCall) (schedule : List ℕ) :
    ∃ events, loadEvents codec.ledger (runAuthority codec calls schedule).store.ledger = .ok events ∧
      ∀ s, HaltStreamSafe codec (ofStream s events) := by
  have h := (run_holds hround calls schedule).1
  refine ⟨_, h.load hround, fun s => ?_⟩
  obtain ⟨history, decisions, r, hsplit, hreplay, hdecisions⟩ := h.split s (List.append_nil _).symm
  rw [h.recorded.ofStream_loadedEvents, hsplit]
  exact haltStreamSafe_of_split hreplay fun e he => (hdecisions e he).1

theorem sample_consumption_is_safe :
    sampleConsumedEvent (sampleConsume (samplePrepare 21 7 13 0) 1 15) 2 ∈
        eventsOf (runAuthority (sampleAuthorityCodec sampleRunEvents) sampleCalls sampleSchedule).store.log ∧
      ∃ events, loadEvents (sampleAuthorityCodec sampleRunEvents).ledger
          (runAuthority (sampleAuthorityCodec sampleRunEvents) sampleCalls sampleSchedule).store.ledger =
            .ok events ∧
        ∀ s, HaltStreamSafe (sampleAuthorityCodec sampleRunEvents) (ofStream s events) := by
  refine ⟨?_, no_order_while_halted _ sampleRun_roundTrips _ _⟩
  rw [sampleRun_events]
  simp [sampleRunEvents]

/-! ## Permits are spent once -/

/-- Every preparation of the stream takes a permit that no replay before it knows. -/
def PreparedFresh (codec : AuthorityCodec) (s : Uuid) (stream : List LedgerEvent) : Prop :=
  ∀ before event after payload, stream = before ++ event :: after → event.payload = .prepared payload →
    ∃ r, replayGlobalHaltAuthority codec before s = .ok r ∧ payload.permitId ∉ r.prepared.keys ∧
      payload.permitId ∉ r.consumedPermitIds ∧ payload.permitId ∉ r.retiredPermitIds

theorem Describes.consumed_nodup (h : Describes codec s events r) : (events.filterMap consumedId).Nodup := by
  rw [← h.permits.consumed]
  have hnodup := (h.permits.known.nodup_iff).2 h.permits.distinct
  exact (List.nodup_append.1 (List.nodup_append.1 hnodup).1).2.1

theorem Holds.consumed_nodup (h : Holds codec calls store) (s : Uuid) :
    ((ofStream s (eventsOf store.log)).filterMap consumedId).Nodup := by
  obtain ⟨history, decisions, r, hsplit, hreplay, hdecisions⟩ := h.split s (List.append_nil _).symm
  have hnil : decisions.filterMap consumedId = [] := by
    refine List.filterMap_eq_nil_iff.2 fun e he => ?_
    obtain ⟨⟨payload, hpayload⟩, -⟩ := hdecisions e he
    unfold consumedId
    rw [hpayload]
  rw [hsplit, List.filterMap_append, hnil, List.append_nil]
  exact (describes_of_streamReplay hreplay).consumed_nodup

theorem ofStream_eq_self (h : ∀ e ∈ events, e.streamId = s) : ofStream s events = events :=
  List.filter_eq_self.2 fun e he => decide_eq_true (h e he)

theorem Holds.preparedFresh (h : Holds codec calls store) (hround : codec.ledger.RoundTrips) (s : Uuid) :
    PreparedFresh codec s (ofStream s (eventsOf store.log)) := by
  intro before event after payload hstream hpayload
  obtain ⟨history, decisions, r, hsplit, hreplay, hdecisions⟩ := h.split s (List.append_nil _).symm
  have hother : ∀ d, event.payload ≠ .decision d := by
    rw [hpayload]
    exact fun _ h => (nomatch h)
  obtain ⟨rest, rfl⟩ := prefix_of_decisions (fun e he => (hdecisions e he).1) (hsplit.symm.trans hstream) hother
  obtain ⟨r', next, hbefore, -, hnext⟩ := streamReplay_at hreplay
  have hmem : ∀ e ∈ before, e ∈ ofStream s (eventsOf store.log) := by
    rw [hstream]
    exact fun e he => List.mem_append_left _ he
  have hstorable : ∀ e ∈ before, codec.ledger.storable e = true := fun e he =>
    h.recorded.storable (mem_ofStream.1 (hmem e he)).1
  refine ⟨r', ?_, ?_⟩
  · rw [replayGlobalHaltAuthority_ok_iff hround hstorable,
      ofStream_eq_self fun e he => (mem_ofStream.1 (hmem e he)).2]
    exact hbefore
  · cases hnext with
    | transition _ _ hsame => rw [hpayload] at hsame; cases hsame
    | consumed _ hsame => rw [hpayload] at hsame; cases hsame
    | prepared _ hsame hfollows =>
      rw [hpayload] at hsame
      cases hsame
      exact hfollows.2

theorem Produces.consumed_stream (h : Produces codec events call event) (hpayload : event.payload = .consumed payload) :
    event.streamId = payload.haltStreamId := by
  cases h with
  | decision hother _ => rw [hpayload] at hother; cases hother
  | observation _ hplan =>
    obtain ⟨_, _, hnew, -⟩ := planObservation_inr hplan
    obtain ⟨t, -, rfl⟩ := newTransition_ok hnew
    cases hpayload
  | recovery _ _ hplan =>
    obtain ⟨_, -, -, -, hnew, -⟩ := planRecovery_inr hplan
    obtain ⟨t, -, rfl⟩ := newTransition_ok hnew
    cases hpayload
  | preparation _ _ _ _ _ hplan =>
    rw [hplan.appended] at hpayload
    cases hpayload
  | consumption _ _ _ =>
    cases hpayload
    rfl

theorem Holds.consumed_unique (h : Holds codec calls store) {j : Insertion} (hi : i ∈ store.log)
    (hj : j ∈ store.log) {p q : SubmitPermitConsumed} (hp : i.event.payload = .consumed p)
    (hq : j.event.payload = .consumed q) (hpermit : p.permitId = q.permitId)
    (hstream : p.haltStreamId = q.haltStreamId) : i = j := by
  have hon : ∀ k ∈ store.log, ∀ c : SubmitPermitConsumed, k.event.payload = .consumed c →
      k.event.streamId = c.haltStreamId := by
    intro k hk c hc
    obtain ⟨before, after, hlog⟩ := List.append_of_mem hk
    obtain ⟨call, -, hproduces⟩ := h.produced before k after hlog
    exact hproduces.consumed_stream hc
  have hnodup : (store.log.filterMap fun k =>
      if k.event.streamId = p.haltStreamId then consumedId k.event else none).Nodup := by
    have hconsumed := h.consumed_nodup p.haltStreamId
    unfold ofStream eventsOf at hconsumed
    rw [List.filterMap_filter, List.filterMap_map] at hconsumed
    simpa only [Function.comp_def, decide_eq_true_iff] using hconsumed
  refine eq_of_nodup_filterMap hnodup hi hj (k := p.permitId) ?_ ?_
  · rw [if_pos (hon i hi p hp)]
    unfold consumedId
    rw [hp]
  · rw [if_pos ((hon j hj q hq).trans hstream.symm), hpermit]
    unfold consumedId
    rw [hq]

/-- At most one call returns an authority for a permit, and a permit consumed or retired is never prepared again. -/
theorem permit_spent_once (codec : AuthorityCodec) (hround : codec.ledger.RoundTrips)
    (calls : List AuthorityCall) (schedule : List ℕ) :
    (∀ n n' authority authority',
      resultOf (runAuthority codec calls schedule) n = some (.ok (.consumed authority)) →
      resultOf (runAuthority codec calls schedule) n' = some (.ok (.consumed authority')) →
      authority.permitId = authority'.permitId → authority.haltStreamId = authority'.haltStreamId → n = n') ∧
    ∃ events, loadEvents codec.ledger (runAuthority codec calls schedule).store.ledger = .ok events ∧
      ∀ s, ((ofStream s events).filterMap consumedId).Nodup ∧ PreparedFresh codec s (ofStream s events) := by
  obtain ⟨h, hreturned⟩ := run_holds hround calls schedule
  refine ⟨fun n n' authority authority' hn hn' hpermit hstream => ?_, _, h.load hround, fun s => ?_⟩
  · obtain ⟨t, ht, i, hi, rfl, hp, -⟩ := hreturned n _ hn
    obtain ⟨u, hu, j, hj, rfl, hq, -⟩ := hreturned n' _ hn'
    rw [h.consumed_unique (ht.mem hi) (hu.mem hj) hp hq hpermit hstream]
  · rw [h.recorded.ofStream_loadedEvents]
    exact ⟨h.consumed_nodup s, h.preparedFresh hround s⟩

theorem sample_permit_spent_once :
    ((resultOf (runAuthority (sampleAuthorityCodec sampleRunEvents) sampleCalls sampleSchedule) 3).any fun
          | .ok (.consumed authority) => decide (authority.permitId = 7)
          | _ => false) = true ∧
      ∃ events, loadEvents (sampleAuthorityCodec sampleRunEvents).ledger
          (runAuthority (sampleAuthorityCodec sampleRunEvents) sampleCalls sampleSchedule).store.ledger =
            .ok events ∧
        ∀ s, ((ofStream s events).filterMap consumedId).Nodup ∧
          PreparedFresh (sampleAuthorityCodec sampleRunEvents) s (ofStream s events) :=
  ⟨by decide +kernel, (permit_spent_once _ sampleRun_roundTrips _ _).2⟩

/-- A transition request for a second halt stream. -/
def otherStreamRequest : TransitionRequest := { sampleTransitionRequest .inactive 12 0 with streamId := 3 }

def otherStreamTransition : GlobalHaltTransition :=
  ⟨newTransitionFields (sampleAuthorityCodec []) .empty otherStreamRequest .active [.initializedSafe] none,
    by decide +kernel⟩

def otherStreamState : GlobalHaltState :=
  ⟨stateFields 3 12 (digestFor (sampleAuthorityCodec []) (transitionEvent 3 0 12 otherStreamTransition))
    otherStreamTransition none, by decide +kernel⟩

def otherStreamPrepare : PrepareRequest := { samplePrepare 21 7 14 0 with haltStreamId := 3 }

def otherStreamPermit : SubmitPermitPrepared :=
  newPermit (sampleAuthorityCodec []) otherStreamPrepare sampleDecision otherStreamState

def otherStreamConsume : ConsumeRequest :=
  { sampleConsume otherStreamPrepare 1 16 with
    permit := referenceTo (sampleAuthorityCodec []) (preparedEvent otherStreamPermit 1 14) otherStreamPermit }

def twoStreamCalls : List AuthorityCall :=
  [.recordDecision (sampleDecisionEvent 21 0), .observe (sampleTransitionRequest .inactive 11 0),
    .observe otherStreamRequest, .prepare (samplePrepare 21 7 13 0), .prepare otherStreamPrepare,
    .consume (sampleConsume (samplePrepare 21 7 13 0) 1 15), .consume otherStreamConsume]

def twoStreamEvents : List LedgerEvent :=
  [sampleDecisionEvent 21 0, sampleInitialEvent, transitionEvent 3 0 12 otherStreamTransition,
    samplePreparedEvent (samplePrepare 21 7 13 0) 1, preparedEvent otherStreamPermit 1 14,
    sampleConsumedEvent (sampleConsume (samplePrepare 21 7 13 0) 1 15) 2, sampleConsumedEvent otherStreamConsume 2]

def twoStreamSchedule : List ℕ := [0, 0, 1, 1, 1, 2, 2, 2, 3, 3, 3, 3, 4, 4, 4, 4, 5, 5, 5, 6, 6, 6]

def consumesPermit (permitId : Uuid) : Except AuthorityFailure AuthorityResult → Bool
  | .ok (.consumed authority) => authority.permitId = permitId
  | _ => false

theorem consumed_of_any {result : Option (Except AuthorityFailure AuthorityResult)} {permitId : Uuid}
    (h : result.any (consumesPermit permitId) = true) :
    ∃ authority, result = some (.ok (.consumed authority)) ∧ authority.permitId = permitId := by
  obtain ⟨outcome, rfl, houtcome⟩ := (Option.any_eq_true _ _).1 h
  unfold consumesPermit at houtcome
  split at houtcome
  · exact ⟨_, rfl, of_decide_eq_true houtcome⟩
  · cases houtcome

/-- A permit of one id is prepared and consumed on each of two halt streams. -/
theorem permit_consumed_on_two_streams : ¬ ∀ (codec : AuthorityCodec) (calls : List AuthorityCall)
    (schedule : List ℕ), codec.ledger.RoundTrips → ∀ n n' authority authority',
      resultOf (runAuthority codec calls schedule) n = some (.ok (.consumed authority)) →
      resultOf (runAuthority codec calls schedule) n' = some (.ok (.consumed authority')) →
      authority.permitId = authority'.permitId → n = n' := by
  intro h
  have hround : (sampleAuthorityCodec twoStreamEvents).ledger.RoundTrips :=
    sampleAuthorityCodec_roundTrips (by decide +kernel)
  have hconsumed (n : ℕ) (hn : n = 5 ∨ n = 6) : (resultOf (runAuthority (sampleAuthorityCodec twoStreamEvents)
      twoStreamCalls twoStreamSchedule) n).any (consumesPermit 7) = true := by
    rcases hn with rfl | rfl <;> decide +kernel
  obtain ⟨authority, hfirst, hpermit⟩ := consumed_of_any (hconsumed 5 (.inl rfl))
  obtain ⟨authority', hsecond, hpermit'⟩ := consumed_of_any (hconsumed 6 (.inr rfl))
  have hsame := h _ twoStreamCalls twoStreamSchedule hround 5 6 authority authority' hfirst hsecond
    (hpermit.trans hpermit'.symm)
  omega

end TradingAgent.RuntimeRisk
