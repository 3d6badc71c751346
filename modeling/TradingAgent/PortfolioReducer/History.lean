import TradingAgent.PortfolioReducer.Run
import TradingAgent.PortfolioReducer.Replay

/-! Every event acts once. -/

namespace TradingAgent.PortfolioReducer

open Outcome

/-- One stream of one account, with distinct identities and contiguous sequences. -/
structure History (codec : ReplayCodec) (accountId : String) (streamId : Uuid)
    (events : List PortfolioEvent) : Prop where
  storable : ∀ e ∈ events, codec.storable e.toLedger = true
  ids : (events.map fun e => e.eventId).Nodup
  sequences : events.map (fun e => e.sequence) = List.range' 1 events.length
  stream : ∀ e ∈ events, e.streamId = streamId
  account : ∀ e ∈ events, e.payload.accountId = accountId

section History

variable {codec : ReplayCodec} {accountId : String} {streamId : Uuid} {event : PortfolioEvent}

theorem serializedDigest_ok_iff {digest : String} : serializedDigest codec event = .ok digest ↔
      codec.storable event.toLedger = true ∧ digest = eventDigest codec.toCodec event := by
  unfold serializedDigest EventLedger.serializeEvent eventDigest
  by_cases h : codec.storable event.toLedger = true
  · simp [h, eq_comm]
  · simp [h]

variable {seen seen' : Dict Uuid String × ℕ}

theorem checkHistoryEvent_ok_iff : checkHistoryEvent codec accountId streamId seen event = .ok seen' ↔
      codec.storable event.toLedger = true ∧ seen.1.get? event.eventId = none ∧
      event.streamId = streamId ∧ event.sequence = seen.2 ∧ event.payload.accountId = accountId ∧
      (seen.2 > 1 → event.payload.isOpening = false) ∧
      seen' = (seen.1.set event.eventId (eventDigest codec.toCodec event), seen.2 + 1) := by
  unfold checkHistoryEvent
  rw [bind_ok_iff]
  simp only [serializedDigest_ok_iff]
  constructor
  · rintro ⟨digest, ⟨hstorable, rfl⟩, h⟩
    cases hget : seen.1.get? event.eventId with
    | some previous =>
      simp only [hget] at h
      split_ifs at h
    | none =>
      simp only [hget, bind_ok_iff, require_ok_iff, exists_const, Except.ok.injEq] at h
      obtain ⟨h1, h2, h3, h4, rfl⟩ := h
      exact ⟨hstorable, rfl, h1, h2, h3, h4, rfl⟩
  · rintro ⟨hstorable, hget, h1, h2, h3, h4, rfl⟩
    refine ⟨_, ⟨hstorable, rfl⟩, ?_⟩
    simp only [hget, bind_ok_iff, require_ok_iff, exists_const, and_true]
    exact ⟨h1, h2, h3, h4⟩

variable {events : List PortfolioEvent}

theorem foldlM_checkHistoryEvent (h : events.foldlM (checkHistoryEvent codec accountId streamId) seen = .ok seen') :
    (∀ e ∈ events, codec.storable e.toLedger = true ∧ e.streamId = streamId ∧
      e.payload.accountId = accountId ∧ e.eventId ∉ seen.1.keys) ∧ (events.map (·.eventId)).Nodup ∧
    events.map (·.sequence) = List.range' seen.2 events.length := by
  induction events generalizing seen with
  | nil => simp
  | cons event events ih =>
    rw [List.foldlM_cons, bind_ok_iff] at h
    obtain ⟨mid, hmid, h⟩ := h
    obtain ⟨hstorable, hget, hstream, hseq, haccount, -, rfl⟩ := checkHistoryEvent_ok_iff.1 hmid
    obtain ⟨hall, hnodup, hseqs⟩ := ih h
    have hkeys : ∀ e ∈ events, e.eventId ≠ event.eventId ∧ e.eventId ∉ seen.1.keys := by
      intro e he
      have := (hall e he).2.2.2
      rw [Dict.mem_keys_set] at this
      exact not_or.1 this
    refine ⟨fun e he => ?_, ?_, ?_⟩
    · rcases List.mem_cons.1 he with rfl | he
      · exact ⟨hstorable, hstream, haccount, (Dict.get?_eq_none_iff _ _).1 hget⟩
      · obtain ⟨h1, h2, h3, -⟩ := hall e he
        exact ⟨h1, h2, h3, (hkeys e he).2⟩
    · rw [List.map_cons, List.nodup_cons]
      refine ⟨fun hm => ?_, hnodup⟩
      obtain ⟨e, he, hid⟩ := List.mem_map.1 hm
      exact (hkeys e he).1 hid
    · rw [List.map_cons, List.length_cons, List.range'_succ, hseqs, hseq]

theorem validateFullHistory_spec (h : validateFullHistory codec events = .ok ()) :
    ∃ first rest, events = first :: rest ∧ first.payload.isOpening = true ∧
      History codec first.payload.accountId first.streamId events := by
  unfold validateFullHistory at h
  cases events with
  | nil => cases h
  | cons first rest =>
    simp only [bind_ok_iff, require_ok_iff, exists_const] at h
    obtain ⟨hopening, seen, hloop, -⟩ := h
    obtain ⟨hall, hnodup, hseqs⟩ := foldlM_checkHistoryEvent hloop
    exact ⟨first, rest, rfl, hopening, fun e he => (hall e he).1, hnodup, hseqs,
      fun e he => (hall e he).2.1, fun e he => (hall e he).2.2.1⟩

theorem History.increasing (h : History codec accountId streamId events) : Increasing events := by
  unfold Increasing
  rw [h.sequences]
  exact List.pairwise_lt_range'

theorem delivered_of_nodup (h : (events.map (·.eventId)).Nodup) : delivered events = events := by
  induction events using List.reverseRecOn with
  | nil => rfl
  | append_singleton events e ih =>
    rw [List.map_append, List.nodup_append] at h
    rw [delivered_concat, ih h.1, if_neg]
    intro hm
    exact h.2.2 _ hm _ (by simp) rfl

end History

def executionIdentity : PortfolioPayload → Option Uuid
  | .fill entry => some entry.fill.executionId
  | _ => none

def fundingIdentity : PortfolioPayload → Option Uuid
  | .funding entry => some entry.fundingId
  | _ => none

def reconciliationIdentity : PortfolioPayload → Option Uuid
  | .reconciliation entry => some entry.reconciliationId
  | _ => none

def identitiesOf (codec : Codec) (identity : PortfolioPayload → Option Uuid)
    (events : List PortfolioEvent) : List PortfolioBusinessIdentity :=
  events.filterMap fun e => (identity e.payload).map (identityRecord codec e)

/-- The state keeps what the events of the history bind. -/
structure Booked (codec : Codec) (done : List PortfolioEvent) (s : PortfolioReplayState) : Prop where
  cursor : ∃ first last, done.head? = some first ∧ done.getLast? = some last ∧
    s.cursor = [⟨first.streamId, last.sequence⟩]
  execution : s.executionIdentities.Perm (identitiesOf codec executionIdentity done)
  funding : s.fundingIdentities.Perm (identitiesOf codec fundingIdentity done)
  reconciliation : s.reconciliationIdentities.Perm (identitiesOf codec reconciliationIdentity done)
  retained : s.reconciliation = (done.filterMap fun e => reconciliationOf e.payload).getLast?
  account : ∀ e ∈ done, e.payload.accountId = s.snapshot.accountId

section Booked

variable {codec : Codec}

theorem updatedIdentityTuple_ok_iff {identities identities' : List PortfolioBusinessIdentity}
    {record : PortfolioBusinessIdentity} {label : String} :
    updatedIdentityTuple identities record label = .ok identities' ↔
      record.identityId ∉ identities.map PortfolioBusinessIdentity.identityId ∧
      identities' = sortBy PortfolioBusinessIdentity.identityId (identities ++ [record]) := by
  unfold updatedIdentityTuple
  cases hl : lookupBy PortfolioBusinessIdentity.identityId identities record.identityId with
  | some existing =>
    obtain ⟨hm, hid⟩ := lookupBy_some hl
    dsimp only
    constructor
    · intro h
      split_ifs at h
    · rintro ⟨hn, -⟩
      exact absurd (hid ▸ List.mem_map_of_mem hm) hn
  | none =>
    have hn : record.identityId ∉ identities.map PortfolioBusinessIdentity.identityId := by
      intro hm
      obtain ⟨x, hx, hid⟩ := List.mem_map.1 hm
      exact lookupBy_eq_none_iff.1 hl x hx hid
    simp only [Except.ok.injEq, hn, not_false_eq_true, true_and, eq_comm]

theorem identitiesOf_concat (identity : PortfolioPayload → Option Uuid) (done : List PortfolioEvent)
    (event : PortfolioEvent) : identitiesOf codec identity (done ++ [event]) = identitiesOf codec identity done ++
        ((identity event.payload).map (identityRecord codec event)).toList :=
  filterMap_concat _ _ _

variable {s : PortfolioReplayState}

theorem Books.identities_perm {event : PortfolioEvent} {entry : Option PortfolioReconciliationEntry}
    {s' : PortfolioReplayState} {ids : IdentityIndexes} (h : Books codec event entry s s' ids)
    {done : List PortfolioEvent} (hs : Booked codec done s) :
    s'.executionIdentities.Perm (identitiesOf codec executionIdentity (done ++ [event])) ∧
      s'.fundingIdentities.Perm (identitiesOf codec fundingIdentity (done ++ [event])) ∧
      s'.reconciliationIdentities.Perm (identitiesOf codec reconciliationIdentity (done ++ [event])) := by
  have hids := h.identities
  rw [h.executionIdentities, h.fundingIdentities, h.reconciliationIdentities]
  simp only [identitiesOf_concat]
  unfold businessIdentities at hids
  cases hp : event.payload with
  | fill entry =>
    simp only [hp, bind_ok_iff, updatedIdentityTuple_ok_iff, Except.ok.injEq] at hids
    obtain ⟨_, ⟨-, rfl⟩, rfl⟩ := hids
    simpa [executionIdentity, fundingIdentity, reconciliationIdentity] using
      ⟨(sortBy_perm _ _).trans (hs.execution.append_right _), hs.funding, hs.reconciliation⟩
  | funding entry =>
    simp only [hp, bind_ok_iff, updatedIdentityTuple_ok_iff, Except.ok.injEq] at hids
    obtain ⟨_, ⟨-, rfl⟩, rfl⟩ := hids
    simpa [executionIdentity, fundingIdentity, reconciliationIdentity] using
      ⟨hs.execution, (sortBy_perm _ _).trans (hs.funding.append_right _), hs.reconciliation⟩
  | reconciliation entry =>
    simp only [hp, bind_ok_iff, updatedIdentityTuple_ok_iff, Except.ok.injEq] at hids
    obtain ⟨_, ⟨-, rfl⟩, rfl⟩ := hids
    simpa [executionIdentity, fundingIdentity, reconciliationIdentity] using
      ⟨hs.execution, hs.funding, (sortBy_perm _ _).trans (hs.reconciliation.append_right _)⟩
  | _ =>
    simp only [hp, Except.ok.injEq] at hids
    subst hids
    simpa [executionIdentity, fundingIdentity, reconciliationIdentity] using
      ⟨hs.execution, hs.funding, hs.reconciliation⟩

theorem advancedCursor_singleton (streamId : Uuid) (m n : ℕ) :
    advancedCursor [⟨streamId, m⟩] streamId n = [⟨streamId, n⟩] := by
  simp [advancedCursor, Dict.byKey, Dict.ofList, Dict.set, Dict.valuesBy, sortBy]

theorem reduce_booked {events : List PortfolioEvent}
    (h : reducePortfolioEvents codec events = .ok s) : Booked codec (delivered events) s := by
  refine delivered_induction (P := fun done s => Booked codec done s) ?_ ?_ h
  · intro first entry s hs
    refine ⟨⟨first, first, rfl, rfl, hs.cursor⟩, ?_, ?_, ?_, ?_, ?_⟩
    · simp [identitiesOf, hs.executionIdentities, executionIdentity, hs.payload]
    · simp [identitiesOf, hs.fundingIdentities, fundingIdentity, hs.payload]
    · simp [identitiesOf, hs.reconciliationIdentities, reconciliationIdentity, hs.payload]
    · simp [hs.reconciliation, hs.payload, reconciliationOf]
    · intro e he
      rw [List.mem_singleton.1 he, hs.accountId, hs.payload]
      rfl
  · intro done event s s' ih hfresh
    obtain ⟨ids, hbooks⟩ := hfresh.step.books
    obtain ⟨hexecution, hfunding, hreconciliation⟩ := hbooks.identities_perm ih
    obtain ⟨first, last, hfirst, hlast, hcursor⟩ := ih.cursor
    refine ⟨⟨first, event, ?_, by simp, ?_⟩, hexecution, hfunding, hreconciliation, ?_, ?_⟩
    · rw [List.head?_append, hfirst]
      rfl
    · have hstream := hfresh.stream
      rw [hcursor, List.map_singleton, List.mem_singleton] at hstream
      rw [hbooks.cursor, hcursor, hstream]
      exact advancedCursor_singleton _ _ _
    · rw [hbooks.reconciliation, ih.retained, List.filterMap_append]
      cases hr : reconciliationOf event.payload with
      | none => simp [hr]
      | some entry => simp [hr]
    · intro e he
      rw [hbooks.accountId]
      rcases List.mem_append.1 he with he | he
      · exact ih.account e he
      · rw [List.mem_singleton.1 he]
        exact hfresh.account

end Booked

variable {codec : Codec} {events : List PortfolioEvent} {s : PortfolioReplayState}

theorem reduce_known (h : reducePortfolioEvents codec events = .ok s) :
    ∀ e ∈ events, appliedDigest s.appliedEvents e.eventId = some (eventDigest codec e) := by
  refine reduce_induction (P := fun events s =>
    ∀ e ∈ events, appliedDigest s.appliedEvents e.eventId = some (eventDigest codec e)) ?_ ?_ h
  · intro first s hs e he
    obtain ⟨entry, hopen⟩ := openingState_spec hs
    obtain rfl := List.mem_singleton.1 he
    exact appliedDigest_of_mem (a := appliedEvent codec e) (by rw [hopen.appliedEvents]; simp)
  · intro events s event s' hreduce ih hstep e he
    rcases applyPortfolioEvent_cases hstep with ⟨hknown, rfl⟩ | hfresh
    · rcases List.mem_append.1 he with he | he
      · exact ih e he
      · rw [List.mem_singleton.1 he]
        exact hknown
    · obtain ⟨ids, hbooks⟩ := hfresh.step.books
      have hperm := sortedApplied_perm (a := appliedEvent codec event)
        ((appliedDigest_eq_none_iff _ _).1 hfresh.fresh)
      rw [← hbooks.appliedEvents] at hperm
      rcases List.mem_append.1 he with he | he
      · have hold := ih e he
        rw [appliedDigest_eq, Option.map_eq_some_iff] at hold
        obtain ⟨item, hitem, hdigest⟩ := hold
        obtain ⟨hmem, hid⟩ := lookupBy_some hitem
        rw [← hid, ← hdigest]
        exact appliedDigest_of_mem (hperm.mem_iff.2 (List.mem_append_left _ hmem))
      · obtain rfl := List.mem_singleton.1 he
        exact appliedDigest_of_mem (a := appliedEvent codec e) (hperm.mem_iff.2 (by simp))

variable {event : PortfolioEvent}

theorem applyPortfolioEvent_known {previous : String}
    (h : appliedDigest s.appliedEvents event.eventId = some previous) : applyPortfolioEvent codec s event =
      if previous = eventDigest codec event then .ok s
      else .error (.portfolioReplayError "conflicting event identity") := by
  unfold applyPortfolioEvent
  rw [requireDigest_eq, ok_bind, h]

def actingIdentities : List (PortfolioPayload → Option Uuid) :=
  [executionIdentity, fundingIdentity, reconciliationIdentity]

theorem businessIdentities_booked {done : List PortfolioEvent} (hs : Booked codec done s)
    {identity : PortfolioPayload → Option Uuid} (hidentity : identity ∈ actingIdentities) {e : PortfolioEvent}
    (he : e ∈ done) {id : Uuid} (hid : identity e.payload = some id) (hevent : identity event.payload = some id)
    (ids : IdentityIndexes) : businessIdentities codec s event ≠ .ok ids := by
  have hrecord : identityRecord codec e id ∈ identitiesOf codec identity done :=
    List.mem_filterMap.2 ⟨e, he, by rw [hid]; rfl⟩
  intro h
  unfold businessIdentities at h
  simp only [actingIdentities, List.mem_cons, List.not_mem_nil, or_false] at hidentity
  rcases hidentity with rfl | rfl | rfl
  all_goals
    cases hp : event.payload <;> rw [hp] at hevent <;> try cases hevent
    simp only [hp, bind_ok_iff, updatedIdentityTuple_ok_iff] at h
    obtain ⟨_, ⟨hnew, -⟩, -⟩ := h
    refine hnew (List.mem_map.2 ⟨identityRecord codec e _, ?_, rfl⟩)
  · exact hs.execution.mem_iff.2 hrecord
  · exact hs.funding.mem_iff.2 hrecord
  · exact hs.reconciliation.mem_iff.2 hrecord

/-- Every event and every business identity of a history acts at most once. -/
theorem events_act_once (h : reducePortfolioEvents codec events = .ok s) :
    (∀ e ∈ events, applyPortfolioEvent codec s e = .ok s) ∧
    (∀ event, ∀ e ∈ events, e.eventId = event.eventId → e ≠ event →
      (eventDigest codec e = eventDigest codec event → e = event) →
        ∃ error, applyPortfolioEvent codec s event = .error error) ∧
    ∀ event : PortfolioEvent, (∀ e ∈ events, e.eventId ≠ event.eventId) → ∀ identity ∈ actingIdentities,
      ∀ e ∈ delivered events, ∀ id, identity e.payload = some id → identity event.payload = some id →
        ∃ error, applyPortfolioEvent codec s event = .error error := by
  refine ⟨fun e he => ?_, fun event e he hid hne hdigest => ?_, fun event hfresh identity hidentity e he id hid
    hevent => ?_⟩
  · rw [applyPortfolioEvent_known (reduce_known h e he), if_pos rfl]
  · rw [applyPortfolioEvent_known (hid ▸ reduce_known h e he), if_neg fun heq => hne (hdigest heq)]
    exact ⟨_, rfl⟩
  · cases happly : applyPortfolioEvent codec s event with
    | error e => exact ⟨e, rfl⟩
    | ok s' =>
      unfold applyPortfolioEvent at happly
      rw [requireDigest_eq, ok_bind] at happly
      cases hd : appliedDigest s.appliedEvents event.eventId with
      | some previous =>
        have hmem : event.eventId ∈ events.map fun e => e.eventId := by
          rw [← mem_delivered_ids, ← mem_appliedIds h]
          by_contra hn
          rw [(appliedDigest_eq_none_iff _ _).2 hn] at hd
          cases hd
        obtain ⟨e, he, heq⟩ := List.mem_map.1 hmem
        exact absurd heq (hfresh e he)
      | none =>
        simp only [hd, bind_ok_iff, require_ok_iff, exists_const] at happly
        obtain ⟨-, -, -, ids, hids, -⟩ := happly
        exact absurd hids (businessIdentities_booked (reduce_booked h) hidentity he hid hevent ids)

theorem sample_events_act_once : ∃ s,
    applyPortfolioEvent (sampleCodec sampleHistory) s (sampleEvent 2 sampleMark) = .ok s ∧
      ∃ error, applyPortfolioEvent (sampleCodec sampleHistory) s (sampleEvent 3 (sampleFill (sampleBuy 11))) =
        .error error := by
  obtain ⟨s, hs⟩ := sampleHistory_reduces
  refine ⟨s, (events_act_once hs).1 _ (by simp [sampleHistory, sampleTail]), ?_⟩
  refine (events_act_once hs).2.2 _ ?_ executionIdentity (by simp [actingIdentities])
    (sampleEvent 1 (sampleFill (sampleBuy 11))) ?_ 11 rfl rfl
  · simp [sampleHistory, sampleTail, sampleEvent]
  · rw [delivered_of_nodup (by decide)]
    simp [sampleHistory, sampleTail]

end TradingAgent.PortfolioReducer
