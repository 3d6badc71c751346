import TradingAgent.RuntimeRisk.SubmitAuthority

/-! What the replay of a halt stream says of its events. -/

namespace TradingAgent.RuntimeRisk

open Outcome EventLedger

variable (codec : AuthorityCodec)

def digestFor (event : LedgerEvent) : Sha256 := digestOf codec (codec.ledger.eventJson event)

def replayStep (streamId : Uuid) (replay : GlobalHaltReplay) (event : LedgerEvent) :
    Except AuthorityFailure GlobalHaltReplay :=
  replayEvent codec streamId replay (event, codec.ledger.eventJson event)

def streamReplay (streamId : Uuid) (events : List LedgerEvent) : Except AuthorityFailure GlobalHaltReplay :=
  events.foldlM (replayStep codec streamId) .empty

def ofStream (streamId : Uuid) (events : List LedgerEvent) : List LedgerEvent :=
  events.filter fun event => event.streamId = streamId

variable {codec} {s : Uuid} {r r' : GlobalHaltReplay} {event : LedgerEvent} {events : List LedgerEvent}

theorem streamReplay_concat : streamReplay codec s (events ++ [event]) = .ok r' ↔
      ∃ r, streamReplay codec s events = .ok r ∧ replayStep codec s r event = .ok r' := by
  unfold streamReplay
  rw [foldlM_concat, bind_ok_iff]

variable (hround : codec.ledger.RoundTrips)
include hround

theorem canonicalEnvelope_of (h : codec.ledger.storable event = true) :
    canonicalEnvelope codec event = .ok (event, codec.ledger.eventJson event) := by
  have htext := serializeEvent_eq_some.2 ⟨h, rfl⟩
  unfold canonicalEnvelope
  rw [htext]
  simp only
  rw [deserializeEvent_of_serialize hround htext]

variable (h : ∀ event ∈ events, codec.ledger.storable event = true)
include h

theorem mapM_canonicalEnvelope : events.mapM (canonicalEnvelope codec) =
      .ok (events.map fun event => (event, codec.ledger.eventJson event)) := by
  rw [mapM_ok_iff, List.forall₂_map_right_iff]
  exact List.forall₂_same.2 fun event hevent => canonicalEnvelope_of hround (h event hevent)

theorem replayGlobalHaltAuthority_eq : replayGlobalHaltAuthority codec events s =
      rescue (streamReplay codec s (ofStream s events)) authorityFailure := by
  unfold replayGlobalHaltAuthority
  rw [mapM_canonicalEnvelope hround h, ok_bind, List.filter_map, List.foldlM_map]
  rfl

theorem replayGlobalHaltAuthority_ok_iff :
    replayGlobalHaltAuthority codec events s = .ok r ↔ streamReplay codec s (ofStream s events) = .ok r := by
  rw [replayGlobalHaltAuthority_eq hround h, rescue_ok_iff]

omit h

omit hround

/-! ## One round -/

/-- The replay takes the event next. -/
structure Admits (r : GlobalHaltReplay) (event : LedgerEvent) : Prop where
  sequence : event.sequence = r.headSequence + 1
  fresh : event.eventId ∉ r.eventDigests.keys
  bindings : requireEventBindings event = .ok ()
  time : ∀ headAt ∈ r.headAuthorityAt, ∀ authorityAt ∈ authorityTime event.payload, headAt ≤ authorityAt

def GlobalHaltReplay.rotate (r : GlobalHaltReplay) (state : GlobalHaltState) : GlobalHaltReplay :=
  { r with
    state := some state
    prepared := if r.state.isSome then [] else r.prepared
    retiredPermitIds := if r.state.isSome then r.retiredPermitIds ++ r.prepared.keys
      else r.retiredPermitIds }

def GlobalHaltReplay.prepare (r : GlobalHaltReplay) (permit : PreparedSubmitPermit) : GlobalHaltReplay :=
  { r with prepared := r.prepared.set permit.permitId permit }

def GlobalHaltReplay.consume (r : GlobalHaltReplay) (permitId : Uuid) : GlobalHaltReplay :=
  { r with
    prepared := r.prepared.erase permitId
    consumedPermitIds := r.consumedPermitIds ++ [permitId] }

def referenceTo (codec : AuthorityCodec) (event : LedgerEvent) (payload : SubmitPermitPrepared) :
    PreparedSubmitPermit :=
  { payload with preparedEventId := event.eventId, preparedEventDigest := digestFor codec event }

inductive Advances (codec : AuthorityCodec) (s : Uuid) (r : GlobalHaltReplay) (event : LedgerEvent) :
    GlobalHaltReplay → Prop
  | transition (payload : GlobalHaltTransition) (state : GlobalHaltState)
      (hpayload : event.payload = .transition payload) (hfollows : TransitionFollows payload r.state)
      (hstate : state.toGlobalHaltStateFields =
        stateFields s event.eventId (digestFor codec event) payload r.state) :
      Advances codec s r event (r.rotate state)
  | prepared (payload : SubmitPermitPrepared) (hpayload : event.payload = .prepared payload)
      (hfollows : PreparedFollows s payload r) :
      Advances codec s r event (r.prepare (referenceTo codec event payload))
  | consumed (payload : SubmitPermitConsumed) (hpayload : event.payload = .consumed payload)
      (hfollows : ConsumedFollows payload r) : Advances codec s r event (r.consume payload.permitId)

variable {payload : GlobalHaltTransition} {eventId : Uuid} {digest : Sha256}

theorem stateFromTransition_ok_iff {prior : Option GlobalHaltState} {state : GlobalHaltState} :
    stateFromTransition s eventId digest payload prior = .ok state ↔ TransitionFollows payload prior ∧
        state.toGlobalHaltStateFields = stateFields s eventId digest payload prior := by
  unfold stateFromTransition
  rw [bind_ok_iff]
  simp only [require_ok_iff, exists_const]
  refine and_congr_right fun _ => ?_
  split_ifs with h
  · rw [pure_eq_ok, Except.ok.injEq]
    constructor
    · rintro rfl
      rfl
    · intro hstate
      cases state
      subst hstate
      rfl
  · refine iff_of_false (by simp) fun hstate => h ?_
    rw [← hstate]
    exact state.valid

theorem replayPayload_transition : replayPayload s eventId digest r (.transition payload) =
      (stateFromTransition s eventId digest payload r.state >>= fun state => .ok (r.rotate state)) := by
  refine congrArg (stateFromTransition s eventId digest payload r.state >>= ·) (funext fun state => ?_)
  unfold GlobalHaltReplay.rotate
  split_ifs <;> rfl

theorem replayPayload_ok_iff : replayPayload s event.eventId (digestFor codec event) r event.payload = .ok r' ↔
      Advances codec s r event r' := by
  constructor
  · intro h
    cases hpayload : event.payload with
    | transition payload =>
      rw [hpayload, replayPayload_transition] at h
      obtain ⟨state, hstate, h⟩ := bind_ok_iff.1 h
      obtain ⟨hfollows, hfields⟩ := stateFromTransition_ok_iff.1 hstate
      rw [← Except.ok.inj h]
      exact .transition payload state hpayload hfollows hfields
    | prepared payload =>
      rw [hpayload] at h
      obtain ⟨_, hfollows, h⟩ := bind_ok_iff.1 h
      rw [← Except.ok.inj h]
      exact .prepared payload hpayload (require_ok_iff.1 hfollows)
    | consumed payload =>
      rw [hpayload] at h
      obtain ⟨_, hfollows, h⟩ := bind_ok_iff.1 h
      rw [← Except.ok.inj h]
      exact .consumed payload hpayload (require_ok_iff.1 hfollows)
    | portfolio | fill | decision | unread =>
      rw [hpayload] at h
      cases h
  · rintro (⟨payload, state, hpayload, hfollows, hstate⟩ | ⟨payload, hpayload, hfollows⟩ |
      ⟨payload, hpayload, hfollows⟩)
    · rw [hpayload, replayPayload_transition]
      exact bind_ok_iff.2 ⟨state, stateFromTransition_ok_iff.2 ⟨hfollows, hstate⟩, rfl⟩
    · rw [hpayload]
      exact bind_ok_iff.2 ⟨(), require_of _ hfollows, rfl⟩
    · rw [hpayload]
      exact bind_ok_iff.2 ⟨(), require_of _ hfollows, rfl⟩

theorem replayStep_ok_iff : replayStep codec s r event = .ok r' ↔
      Admits r event ∧ ∃ next, Advances codec s r event next ∧ r' = next.advance event (digestFor codec event) := by
  unfold replayStep replayEvent
  simp only [bind_ok_iff, require_ok_iff, exists_const, pure_eq_ok, Except.ok.injEq]
  constructor
  · rintro ⟨hsequence, hfresh, ⟨⟩, hbindings, htime, next, hnext, rfl⟩
    exact ⟨⟨hsequence, hfresh, hbindings, htime⟩, next, replayPayload_ok_iff.1 hnext, rfl⟩
  · rintro ⟨h, next, hnext, rfl⟩
    exact ⟨h.sequence, h.fresh, (), h.bindings, h.time, next, replayPayload_ok_iff.2 hnext, rfl⟩

/-! ## The head -/

def authorityTimes (events : List LedgerEvent) : List DateTime :=
  events.filterMap fun event => authorityTime event.payload

/-- The head of a replay is the last event, and time does not decrease on the way to it. -/
structure HeadOf (events : List LedgerEvent) (r : GlobalHaltReplay) : Prop where
  sequence : r.headSequence = events.length
  eventIds : r.eventDigests.keys = events.map fun event => event.eventId
  time : r.headAuthorityAt = (authorityTimes events).getLast?
  nondecreasing : (authorityTimes events).IsChain (· ≤ ·)

theorem Advances.frame (h : Advances codec s r event r') :
    r'.headSequence = r.headSequence ∧ r'.eventDigests = r.eventDigests := by
  cases h <;> exact ⟨rfl, rfl⟩

theorem Advances.time (h : Advances codec s r event r') : ∃ t, authorityTime event.payload = some t := by
  cases h with
  | transition payload _ hpayload => exact ⟨_, by rw [hpayload]; rfl⟩
  | prepared payload hpayload => exact ⟨_, by rw [hpayload]; rfl⟩
  | consumed payload hpayload => exact ⟨_, by rw [hpayload]; rfl⟩

theorem authorityTimes_concat {t : DateTime} (h : authorityTime event.payload = some t) :
    authorityTimes (events ++ [event]) = authorityTimes events ++ [t] := by
  simp [authorityTimes, h]

theorem headOf_empty : HeadOf [] .empty := ⟨rfl, rfl, rfl, .nil⟩

theorem HeadOf.step (h : HeadOf events r) (hadmits : Admits r event) (hnext : Advances codec s r event r') :
    HeadOf (events ++ [event]) (r'.advance event (digestFor codec event)) := by
  obtain ⟨hsequence, hdigests⟩ := hnext.frame
  obtain ⟨t, ht⟩ := hnext.time
  refine ⟨?_, ?_, ?_, ?_⟩
  · show r'.headSequence + 1 = _
    rw [hsequence, h.sequence, List.length_append, List.length_singleton]
  · show (r'.eventDigests.set event.eventId _).keys = _
    rw [hdigests, Dict.keys_set_of_notMem _ _ _ hadmits.fresh, h.eventIds, List.map_append]
    rfl
  · show authorityTime event.payload = _
    rw [authorityTimes_concat ht, List.getLast?_concat, ht]
  · rw [authorityTimes_concat ht]
    refine List.isChain_append.2 ⟨h.nondecreasing, .singleton t, fun headAt hhead t' ht' => ?_⟩
    obtain rfl := Option.some.inj ht'
    rw [← h.time] at hhead
    exact hadmits.time headAt hhead t (by rw [ht]; rfl)

/-! ## The current generation -/

def transitionOf (event : LedgerEvent) : Option (LedgerEvent × GlobalHaltTransition) :=
  match event.payload with
  | .transition payload => some (event, payload)
  | _ => none

theorem transitionOf_eq_some {event e : LedgerEvent} :
    transitionOf event = some (e, payload) ↔ e = event ∧ event.payload = .transition payload := by
  unfold transitionOf
  split
  · rename_i found hfound
    rw [hfound]
    simp [eq_comm]
  · rename_i hother
    exact iff_of_false (fun h => nomatch h) fun h => hother _ h.2

def transitions (events : List LedgerEvent) : List (LedgerEvent × GlobalHaltTransition) :=
  events.filterMap transitionOf

theorem transitions_append (events later : List LedgerEvent) :
    transitions (events ++ later) = transitions events ++ transitions later :=
  List.filterMap_append

theorem transitions_singleton_of
    (h : event.payload = .transition payload) : transitions [event] = [(event, payload)] := by
  have hof : transitionOf event = some (event, payload) := by
    unfold transitionOf
    rw [h]
  unfold transitions
  rw [List.filterMap_cons_some hof]
  rfl

theorem transitions_singleton_eq_nil (h : ∀ payload, event.payload ≠ .transition payload) :
    transitions [event] = [] := by
  have hof : transitionOf event = none := by
    unfold transitionOf
    split
    · exact absurd ‹_› (h _)
    · rfl
  unfold transitions
  rw [List.filterMap_cons_none hof]
  rfl

/-- The permit was prepared by an event under the given state, and no transition came after it. -/
def PreparedUnder (codec : AuthorityCodec) (s : Uuid) (events : List LedgerEvent)
    (state : Option GlobalHaltState) (entry : Uuid × PreparedSubmitPermit) : Prop :=
  ∃ earlier event payload later, events = earlier ++ event :: later ∧
    event.payload = .prepared payload ∧ transitions later = [] ∧
    entry = (payload.permitId, referenceTo codec event payload) ∧ payload.haltStreamId = s ∧
    ∃ current ∈ state, payload.haltGeneration = current.generation ∧
      payload.haltTransitionEventId = current.transitionEventId ∧
      payload.haltTransitionDigest = current.transitionDigest

/-- The state of a replay is that of the last transition, and its permits were prepared under it. -/
structure CurrentOf (codec : AuthorityCodec) (s : Uuid) (events : List LedgerEvent) (r : GlobalHaltReplay) :
    Prop where
  initial : r.state = none → transitions events = []
  state : ∀ state, r.state = some state → ∃ event payload prior,
    (transitions events).getLast? = some (event, payload) ∧
      state.toGlobalHaltStateFields = stateFields s event.eventId (digestFor codec event) payload prior
  prepared : ∀ entry ∈ r.prepared, PreparedUnder codec s events r.state entry

theorem PreparedUnder.concat {state : Option GlobalHaltState} {entry : Uuid × PreparedSubmitPermit}
    (h : PreparedUnder codec s events state entry) (hevent : ∀ payload, event.payload ≠ .transition payload) :
    PreparedUnder codec s (events ++ [event]) state entry := by
  obtain ⟨earlier, e, payload, later, rfl, hpayload, hlater, hentry, hstream, hstate⟩ := h
  refine ⟨earlier, e, payload, later ++ [event], by simp, hpayload, ?_, hentry, hstream, hstate⟩
  rw [transitions_append, hlater, transitions_singleton_eq_nil hevent]
  rfl

theorem currentOf_empty : CurrentOf codec s [] .empty :=
  ⟨fun _ => rfl, fun _ h => (nomatch h), fun _ h => (nomatch h)⟩

theorem CurrentOf.keep (h : CurrentOf codec s events r) (hstate : r'.state = r.state)
    (hevent : ∀ payload, event.payload ≠ .transition payload)
    (hprepared : ∀ entry ∈ r'.prepared, PreparedUnder codec s (events ++ [event]) r.state entry) :
    CurrentOf codec s (events ++ [event]) r' := by
  have htransitions : transitions (events ++ [event]) = transitions events := by
    rw [transitions_append, transitions_singleton_eq_nil hevent, List.append_nil]
  refine ⟨fun hnone => ?_, fun state hsome => ?_, fun entry hentry => ?_⟩
  · rw [htransitions]
    exact h.initial (hstate ▸ hnone)
  · rw [htransitions]
    exact h.state state (hstate ▸ hsome)
  · rw [hstate]
    exact hprepared entry hentry

theorem CurrentOf.step (h : CurrentOf codec s events r) (hnext : Advances codec s r event r') :
    CurrentOf codec s (events ++ [event]) r' := by
  cases hnext with
  | transition payload state hpayload hfollows hstate =>
    have htransitions : transitions (events ++ [event]) = transitions events ++ [(event, payload)] := by
      rw [transitions_append, transitions_singleton_of hpayload]
    refine ⟨fun hnone => (nomatch hnone), fun current hcurrent => ?_, fun entry hentry => ?_⟩
    · obtain rfl := Option.some.inj hcurrent
      exact ⟨event, payload, r.state, by rw [htransitions, List.getLast?_concat], hstate⟩
    · -- without a prior state there are no permits either
      exfalso
      change entry ∈ (if r.state.isSome then [] else r.prepared) at hentry
      split_ifs at hentry with hsome
      · cases hentry
      · obtain ⟨_, _, _, _, -, -, -, -, -, current, hcurrent, -⟩ := h.prepared entry hentry
        rw [Option.mem_def] at hcurrent
        rw [hcurrent] at hsome
        exact hsome rfl
  | prepared payload hpayload hfollows =>
    have hother : ∀ t, event.payload ≠ .transition t := by
      intro t ht
      rw [hpayload] at ht
      cases ht
    refine h.keep rfl hother fun entry hentry => ?_
    rcases Dict.mem_set hentry with rfl | hentry
    · obtain ⟨⟨current, hcurrent, -, hstream, hgeneration, hid, hdigest, -⟩, -⟩ := hfollows
      exact ⟨events, event, payload, [], rfl, hpayload, rfl, rfl, hstream, current, hcurrent, hgeneration, hid, hdigest⟩
    · exact (h.prepared entry hentry).concat hother
  | consumed payload hpayload hfollows =>
    have hother : ∀ t, event.payload ≠ .transition t := by
      intro t ht
      rw [hpayload] at ht
      cases ht
    refine h.keep rfl hother fun entry hentry => ?_
    exact (h.prepared entry (List.mem_of_mem_filter hentry)).concat hother

/-! ## Lineage -/

/-- A transition follows another: the next generation, the other status, the digest of its predecessor. -/
def Succeeds (codec : AuthorityCodec) (prior next : LedgerEvent × GlobalHaltTransition) : Prop :=
  next.2.nextGeneration = prior.2.nextGeneration + 1 ∧ next.2.nextStatus ≠ prior.2.nextStatus ∧
    next.2.priorTransitionDigest = some (digestFor codec prior.1)

structure Lineage (codec : AuthorityCodec) (events : List LedgerEvent) : Prop where
  first : ∀ first ∈ (transitions events).head?, first.2.nextGeneration = 1
  chain : (transitions events).IsChain (Succeeds codec)

theorem lineage_empty : Lineage codec [] := ⟨fun _ h => (nomatch h), .nil⟩

theorem Lineage.keep (h : Lineage codec events) (hevent : ∀ payload, event.payload ≠ .transition payload) :
    Lineage codec (events ++ [event]) := by
  have htransitions : transitions (events ++ [event]) = transitions events := by
    rw [transitions_append, transitions_singleton_eq_nil hevent, List.append_nil]
  refine ⟨?_, ?_⟩
  · rw [htransitions]
    exact h.first
  · rw [htransitions]
    exact h.chain

theorem nextGeneration_eq_one (h : payload.priorGeneration = 0) : payload.nextGeneration = 1 := by
  obtain ⟨-, hlineage, -⟩ := payload.valid
  split_ifs at hlineage with hone
  · exact hone
  · exact absurd hlineage.1 (by omega)

theorem nextStatus_ne {prior : GlobalHaltState}
    (h : TransitionFollows payload (some prior)) : payload.nextStatus ≠ prior.status := by
  obtain ⟨-, -, -, -, hactive, hhalted⟩ := h
  cases hstatus : prior.status with
  | active =>
    rw [hactive hstatus]
    decide
  | halted =>
    rw [hhalted hstatus]
    decide

theorem Lineage.step (h : Lineage codec events) (hcurrent : CurrentOf codec s events r)
    (hnext : Advances codec s r event r') : Lineage codec (events ++ [event]) := by
  cases hnext with
  | transition payload state hpayload hfollows _ =>
    cases hprior : r.state with
    | none =>
      rw [hprior] at hfollows
      have hnil : transitions (events ++ [event]) = [(event, payload)] := by
        rw [transitions_append, hcurrent.initial hprior, transitions_singleton_of hpayload]
        rfl
      refine ⟨fun first hfirst => ?_, ?_⟩
      · rw [hnil] at hfirst
        obtain rfl := Option.some.inj hfirst
        exact nextGeneration_eq_one hfollows.1
      · rw [hnil]
        exact .singleton _
    | some prior =>
      rw [hprior] at hfollows
      obtain ⟨e, t, before, hlast, hfields⟩ := hcurrent.state prior hprior
      have htransitions : transitions (events ++ [event]) = transitions events ++ [(event, payload)] := by
        rw [transitions_append, transitions_singleton_of hpayload]
      refine ⟨fun first hfirst => h.first first ?_, ?_⟩
      · have hne : transitions events ≠ [] := by
          rintro hnil
          rw [hnil] at hlast
          cases hlast
        rwa [htransitions, List.head?_append_of_ne_nil _ hne] at hfirst
      · rw [htransitions]
        refine List.isChain_append.2 ⟨h.chain, .singleton _, fun last hmem next hnext => ?_⟩
        rw [hlast] at hmem
        obtain rfl := Option.some.inj hmem
        obtain rfl := Option.some.inj hnext
        have hstatus := nextStatus_ne hfollows
        obtain ⟨-, hdigest, hgeneration, -⟩ := hfollows
        rw [hfields] at hdigest hgeneration hstatus
        exact ⟨hgeneration, hstatus, hdigest⟩
  | prepared payload hpayload _ | consumed payload hpayload _ =>
    refine h.keep fun t ht => ?_
    rw [hpayload] at ht
    cases ht

/-! ## Permits -/

def preparedId (event : LedgerEvent) : Option Uuid :=
  match event.payload with
  | .prepared payload => some payload.permitId
  | _ => none

def consumedId (event : LedgerEvent) : Option Uuid :=
  match event.payload with
  | .consumed payload => some payload.permitId
  | _ => none

/-- Every permit of a stream was prepared once and is prepared, consumed or retired. -/
structure PermitsOf (events : List LedgerEvent) (r : GlobalHaltReplay) : Prop where
  keys : r.prepared.keys.Nodup
  consumed : r.consumedPermitIds = events.filterMap consumedId
  known : (r.retiredPermitIds ++ r.consumedPermitIds ++ r.prepared.keys).Perm (events.filterMap preparedId)
  distinct : (events.filterMap preparedId).Nodup

theorem permitsOf_empty : PermitsOf [] .empty := ⟨.nil, rfl, .nil, .nil⟩

theorem PermitsOf.step (h : PermitsOf events r) (hnext : Advances codec s r event r') :
    PermitsOf (events ++ [event]) r' := by
  cases hnext with
  | transition payload state hpayload _ _ =>
    have hprepared : preparedId event = none := by
      unfold preparedId
      rw [hpayload]
    have hconsumed : consumedId event = none := by
      unfold consumedId
      rw [hpayload]
    have hknown : ((r.rotate state).retiredPermitIds ++ (r.rotate state).consumedPermitIds ++
        (r.rotate state).prepared.keys).Perm
        (r.retiredPermitIds ++ r.consumedPermitIds ++ r.prepared.keys) := by
      unfold GlobalHaltReplay.rotate
      split_ifs
      · simp only [Dict.keys_nil, List.append_nil, List.append_assoc]
        exact List.Perm.append_left _ List.perm_append_comm
      · exact .refl _
    refine ⟨?_, ?_, ?_, ?_⟩
    · show (Dict.keys (if r.state.isSome then [] else r.prepared)).Nodup
      split_ifs
      · exact .nil
      · exact h.keys
    · rw [filterMap_concat, hconsumed, Option.toList_none, List.append_nil]
      exact h.consumed
    · rw [filterMap_concat, hprepared, Option.toList_none, List.append_nil]
      exact hknown.trans h.known
    · rw [filterMap_concat, hprepared, Option.toList_none, List.append_nil]
      exact h.distinct
  | prepared payload hpayload hfollows =>
    obtain ⟨-, hkeys, hconsumedIds, hretired⟩ := hfollows
    have hprepared : preparedId event = some payload.permitId := by
      unfold preparedId
      rw [hpayload]
    have hconsumed : consumedId event = none := by
      unfold consumedId
      rw [hpayload]
    have hids : (r.prepared.set payload.permitId (referenceTo codec event payload)).keys =
        r.prepared.keys ++ [payload.permitId] := Dict.keys_set_of_notMem _ _ _ hkeys
    have hfresh : payload.permitId ∉ events.filterMap preparedId := by
      rw [← h.known.mem_iff, List.mem_append, List.mem_append]
      tauto
    refine ⟨Dict.nodup_keys_set _ _ _ h.keys, ?_, ?_, ?_⟩
    · rw [filterMap_concat, hconsumed, Option.toList_none, List.append_nil]
      exact h.consumed
    · rw [filterMap_concat, hprepared, Option.toList_some]
      show (r.retiredPermitIds ++ r.consumedPermitIds ++ (r.prepared.set payload.permitId _).keys).Perm _
      rw [hids, ← List.append_assoc]
      exact h.known.append_right _
    · rw [filterMap_concat, hprepared, Option.toList_some]
      exact List.nodup_append.2 ⟨h.distinct, List.nodup_singleton _, fun a ha b hb => by
        rw [List.mem_singleton.1 hb]
        rintro rfl
        exact hfresh ha⟩
  | consumed payload hpayload hfollows =>
    obtain ⟨authority, hauthority, -⟩ := hfollows
    have hprepared : preparedId event = none := by
      unfold preparedId
      rw [hpayload]
    have hconsumed : consumedId event = some payload.permitId := by
      unfold consumedId
      rw [hpayload]
    have hkey : payload.permitId ∈ r.prepared.keys := by
      rw [Dict.mem_keys_iff, Option.mem_def.1 hauthority]
      rfl
    refine ⟨Dict.nodup_keys_erase h.keys _, ?_, ?_, ?_⟩
    · rw [filterMap_concat, hconsumed, Option.toList_some]
      show r.consumedPermitIds ++ [payload.permitId] = _
      rw [h.consumed]
    · rw [filterMap_concat, hprepared, Option.toList_none, List.append_nil]
      refine .trans ?_ h.known
      show (r.retiredPermitIds ++ (r.consumedPermitIds ++ [payload.permitId]) ++
        (r.prepared.erase payload.permitId).keys).Perm _
      rw [← List.append_assoc, List.append_assoc _ [payload.permitId]]
      exact List.Perm.append_left _ (Dict.perm_keys_erase h.keys hkey)
    · rw [filterMap_concat, hprepared, Option.toList_none, List.append_nil]
      exact h.distinct

/-! ## Whole streams -/

structure Describes (codec : AuthorityCodec) (s : Uuid) (events : List LedgerEvent) (r : GlobalHaltReplay) :
    Prop where
  head : HeadOf events r
  current : CurrentOf codec s events r
  lineage : Lineage codec events
  permits : PermitsOf events r

theorem describes_of_streamReplay (h : streamReplay codec s events = .ok r) : Describes codec s events r := by
  induction events using List.reverseRecOn generalizing r with
  | nil =>
    obtain rfl := Except.ok.inj h
    exact ⟨headOf_empty, currentOf_empty, lineage_empty, permitsOf_empty⟩
  | append_singleton events event ih =>
    obtain ⟨before, hbefore, hstep⟩ := streamReplay_concat.1 h
    obtain ⟨hadmits, next, hnext, rfl⟩ := replayStep_ok_iff.1 hstep
    have hdescribes := ih hbefore
    have hcurrent := hdescribes.current.step hnext
    have hpermits := hdescribes.permits.step hnext
    exact ⟨hdescribes.head.step hadmits hnext, ⟨hcurrent.initial, hcurrent.state, hcurrent.prepared⟩,
      hdescribes.lineage.step hdescribes.current hnext,
      ⟨hpermits.keys, hpermits.consumed, hpermits.known, hpermits.distinct⟩⟩

end TradingAgent.RuntimeRisk
