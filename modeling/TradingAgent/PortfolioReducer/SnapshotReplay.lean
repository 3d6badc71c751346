import TradingAgent.PortfolioReducer.SnapshotValidity

/-! A replay from a snapshot equals the replay of the whole history. -/

namespace TradingAgent.PortfolioReducer

open Outcome

variable {codec : ReplayCodec}

/-! ## Loops that run side by side -/

theorem mapError_ok_iff {α : Type} {f : Failure → Failure} {x : Except Failure α} {a : α} :
    Except.mapError f x = .ok a ↔ x = .ok a := by
  cases x <;> simp [Except.mapError]

variable {s s' : PortfolioReplayState} {events : List PortfolioEvent} {hash : String}

theorem foldlM_replayEvent {hash' : String} : events.foldlM (replayEvent codec) (s, hash) = .ok (s', hash') ↔
      events.foldlM (applyPortfolioEvent codec.toCodec) s = .ok s' ∧
      events.foldlM (extendHistoryHash codec) hash = .ok hash' := by
  induction events generalizing s hash with
  | nil => simp
  | cons event events ih =>
    simp only [List.foldlM_cons, bind_ok_iff]
    constructor
    · rintro ⟨⟨t, h⟩, hstep, hrest⟩
      unfold replayEvent at hstep
      simp only [bind_ok_iff, Except.ok.injEq, Prod.mk.injEq] at hstep
      obtain ⟨_, ht, _, hh, rfl, rfl⟩ := hstep
      obtain ⟨h1, h2⟩ := ih.1 hrest
      exact ⟨⟨_, ht, h1⟩, _, hh, h2⟩
    · rintro ⟨⟨t, ht, h1⟩, h, hh, h2⟩
      refine ⟨(t, h), ?_, ih.2 ⟨h1, h2⟩⟩
      unfold replayEvent
      simp only [ht, hh, ok_bind]

/-! ## Validation of a tail -/

variable {cursor : PortfolioStreamCursor} {seen seen' : Dict Uuid String × ℕ}

theorem checkTailEvent_ok_iff {event : PortfolioEvent} : checkTailEvent codec s cursor seen event = .ok seen' ↔
      codec.storable event.toLedger = true ∧ appliedDigest s.appliedEvents event.eventId = none ∧
      event.streamId = cursor.streamId ∧ cursor.sequence < event.sequence ∧
      seen.1.get? event.eventId = none ∧ event.sequence = seen.2 ∧
      event.payload.accountId = s.snapshot.accountId ∧ event.payload.isOpening = false ∧
      seen' = (seen.1.set event.eventId (eventDigest codec.toCodec event), seen.2 + 1) := by
  unfold checkTailEvent
  rw [bind_ok_iff]
  simp only [serializedDigest_ok_iff, bind_ok_iff, require_ok_iff, exists_const]
  constructor
  · rintro ⟨digest, ⟨hstorable, rfl⟩, -, hstream, hnewer, hknown, h⟩
    cases hget : seen.1.get? event.eventId with
    | some previous =>
      simp only [hget] at h
      split_ifs at h
    | none =>
      simp only [hget, bind_ok_iff, require_ok_iff, exists_const, Except.ok.injEq] at h
      obtain ⟨h1, h2, h3, rfl⟩ := h
      exact ⟨hstorable, hknown, hstream, hnewer, rfl, h1, h2, h3, rfl⟩
  · rintro ⟨hstorable, hknown, hstream, hnewer, hget, h1, h2, h3, rfl⟩
    refine ⟨_, ⟨hstorable, rfl⟩, .inl hknown, hstream, hnewer, hknown, ?_⟩
    simp only [hget, bind_ok_iff, require_ok_iff, exists_const, and_true]
    exact ⟨h1, h2, h3⟩

variable {streamId : Uuid} {accountId : String}

theorem foldlM_checkHistoryEvent_seen
    (h : events.foldlM (checkHistoryEvent codec accountId streamId) seen = .ok seen') :
    seen'.2 = seen.2 + events.length ∧ ∀ id, id ∈ seen'.1.keys ↔ id ∈ seen.1.keys ∨ id ∈ events.map (·.eventId) := by
  induction events generalizing seen with
  | nil =>
    obtain rfl := Except.ok.inj h
    simp
  | cons event events ih =>
    rw [List.foldlM_cons, bind_ok_iff] at h
    obtain ⟨mid, hmid, h⟩ := h
    obtain ⟨-, -, -, -, -, -, rfl⟩ := checkHistoryEvent_ok_iff.1 hmid
    obtain ⟨hnext, hkeys⟩ := ih h
    refine ⟨by rw [hnext, List.length_cons]; omega, fun id => ?_⟩
    rw [hkeys, Dict.mem_keys_set, List.map_cons, List.mem_cons]
    tauto

theorem tail_ok_iff_history_ok {s : PortfolioReplayState} {cursor : PortfolioStreamCursor}
    {events : List PortfolioEvent} {seenTail seenFull : Dict Uuid String} {n : ℕ}
    (hn : cursor.sequence < n) (hone : 1 < n)
    (hseen : ∀ id, id ∈ seenFull.keys ↔ id ∈ seenTail.keys ∨ appliedDigest s.appliedEvents id ≠ none) :
    (∃ r, events.foldlM (checkTailEvent codec s cursor) (seenTail, n) = .ok r) ↔
      ∃ r, events.foldlM (checkHistoryEvent codec s.snapshot.accountId cursor.streamId) (seenFull, n) = .ok r := by
  induction events generalizing seenTail seenFull n with
  | nil => simp
  | cons event events ih =>
    have hnone : seenFull.get? event.eventId = none ↔
        seenTail.get? event.eventId = none ∧ appliedDigest s.appliedEvents event.eventId = none := by
      rw [Dict.get?_eq_none_iff, Dict.get?_eq_none_iff, hseen, not_or, not_not]
    have hrest := @ih (seenTail.set event.eventId (eventDigest codec.toCodec event))
      (seenFull.set event.eventId (eventDigest codec.toCodec event)) (n + 1) (by omega) (by omega)
      fun id => by
        rw [Dict.mem_keys_set, Dict.mem_keys_set, hseen]
        tauto
    simp only [List.foldlM_cons, bind_ok_iff, checkTailEvent_ok_iff, checkHistoryEvent_ok_iff]
    constructor
    · rintro ⟨r, mid, ⟨h1, h2, h3, -, h5, h6, h7, h8, rfl⟩, hr⟩
      obtain ⟨r', hr'⟩ := hrest.1 ⟨r, hr⟩
      exact ⟨r', _, ⟨h1, hnone.2 ⟨h5, h2⟩, h3, h6, h7, fun _ => h8, rfl⟩, hr'⟩
    · rintro ⟨r, mid, ⟨h1, h2, h3, h4, h5, h6, rfl⟩, hr⟩
      obtain ⟨r', hr'⟩ := hrest.2 ⟨r, hr⟩
      exact ⟨r', _, ⟨h1, (hnone.1 h2).2, h3, by rw [h4]; exact hn, (hnone.1 h2).1, h4, h5, h6 hone, rfl⟩,
        hr'⟩

/-! ## The order of a batch -/

variable {batch : List PortfolioEvent}

theorem canonicalEvents_ok_iff {events : List LedgerEvent} : canonicalEvents codec events = .ok batch ↔
      events.mapM (canonicalEvent codec) = .ok batch ∧ batch.Pairwise fun e e' => eventOrder e ≤ eventOrder e' := by
  unfold canonicalEvents
  simp only [bind_ok_iff, require_ok_iff, exists_const, Except.ok.injEq]
  constructor
  · rintro ⟨_, hmap, hsorted, rfl⟩
    refine ⟨hmap, ?_⟩
    rw [hsorted]
    exact sortBy_pairwise_le _ _
  · rintro ⟨hmap, hsorted⟩
    exact ⟨batch, hmap, (sortBy_eq_self hsorted).symm, rfl⟩

theorem mapM_append_ok_iff {xs ys : List LedgerEvent} : (xs ++ ys).mapM (canonicalEvent codec) = .ok batch ↔
      ∃ left, xs.mapM (canonicalEvent codec) = .ok left ∧
        ∃ right, ys.mapM (canonicalEvent codec) = .ok right ∧ left ++ right = batch := by
  rw [List.mapM_append]
  simp only [bind_ok_iff, pure_eq_ok, Except.ok.injEq]

theorem eventOrder_le {e e' : PortfolioEvent} (hstream : e.streamId = e'.streamId)
    (hsequence : e.sequence < e'.sequence) : eventOrder e ≤ eventOrder e' := by
  unfold eventOrder
  rw [Prod.Lex.toLex_le_toLex]
  right
  refine ⟨hstream, ?_⟩
  rw [Prod.Lex.toLex_le_toLex]
  exact .inl hsequence

variable {tail : List PortfolioEvent}

theorem pairwise_eventOrder_append (h : History codec accountId streamId (events ++ tail))
    (hevents : events.Pairwise fun e e' => eventOrder e ≤ eventOrder e')
    (htail : tail.Pairwise fun e e' => eventOrder e ≤ eventOrder e') :
    (events ++ tail).Pairwise fun e e' => eventOrder e ≤ eventOrder e' := by
  refine List.pairwise_append.2 ⟨hevents, htail, fun e he e' he' => ?_⟩
  refine eventOrder_le ?_ ((List.pairwise_append.1 (List.pairwise_map.1 h.increasing)).2.2 e he e' he')
  rw [h.stream e (List.mem_append_left _ he), h.stream e' (List.mem_append_right _ he')]

/-! ## Validation of a history with a tail -/

theorem validateTail_ok_iff {snapshot : PortfolioSnapshotRecord} (hvalid : validateFullHistory codec events = .ok ())
    (h : Reduced codec streamId events snapshot.state) :
    validateTail codec tail snapshot = .ok () ↔ validateFullHistory codec (events ++ tail) = .ok () := by
  cases events with
  | nil => cases hvalid
  | cons first rest =>
    have hstream := h.history.stream first List.mem_cons_self
    have haccount := h.history.account first List.mem_cons_self
    unfold validateFullHistory at hvalid
    simp only [bind_ok_iff, require_ok_iff, exists_const] at hvalid
    obtain ⟨hopening, seen, hseen, -⟩ := hvalid
    obtain ⟨hnext, hkeys⟩ := foldlM_checkHistoryEvent_seen hseen
    have hiff := @tail_ok_iff_history_ok codec snapshot.state ⟨streamId, (first :: rest).length⟩ tail []
      seen.1 ((first :: rest).length + 1) (Nat.lt_succ_self _)
      (Nat.succ_lt_succ (by simp)) fun id => by
        rw [hkeys, Ne, appliedDigest_eq_none_iff, not_not, (h.applied.map _).mem_iff]
        simp [Dict.keys, appliedEvent]
    unfold validateTail
    rw [List.cons_append]
    unfold validateFullHistory
    rw [h.cursor]
    simp only [bind_ok_iff, require_ok_iff, exists_const, ← List.cons_append, List.foldlM_append,
      hopening, true_and, and_true]
    rw [hiff, hstream, haccount]
    rw [haccount, hstream] at hseen
    constructor
    · rintro ⟨r, hr⟩
      refine ⟨r, seen, hseen, ?_⟩
      rw [← hr]
      congr 1
      exact Prod.ext rfl (by rw [hnext]; omega)
    · rintro ⟨r, seen', hseen', hr⟩
      rw [hseen] at hseen'
      obtain rfl := Except.ok.inj hseen'
      refine ⟨r, ?_⟩
      rw [← hr]
      congr 1
      exact Prod.ext rfl (by rw [hnext]; omega)

/-! ## Records of a result -/

theorem validatedState_ok (h : validatedState codec s = .ok s') : s' = s := by
  unfold validatedState at h
  split at h
  · simp only [bind_ok_iff, Except.ok.injEq] at h
    obtain ⟨-, -, -, -, -, -, -, -, -, -, -, -, -, -, -, -, -, -, -, -, -, -, rfl⟩ := h
    rfl
  · cases h

theorem deriveAccountSnapshot_accountId {codec : Codec} {observedAt : DateTime} {snapshot : AccountPortfolioSnapshot}
    (h : deriveAccountSnapshot codec s observedAt = .ok snapshot) : snapshot.accountId = s.snapshot.accountId := by
  unfold deriveAccountSnapshot at h
  simp only [bind_ok_iff, AccountPortfolioSnapshot.of_ok_iff] at h
  obtain ⟨_, -, _, -, _, -, _, -, _, -, _, -, _, -, _, -, hfields⟩ := h
  rw [hfields]

variable {r : PortfolioReplayResult}

theorem result_spec (h : result codec s hash = .ok r) : r.state = s ∧ r.cursor = s.cursor ∧ r.prefixHistoryHash = hash ∧
      validateDocument codec r = .ok r := by
  unfold result at h
  simp only [bind_ok_iff, Except.ok.injEq] at h
  obtain ⟨s', hvalid, snapshot, hsnapshot, json, hjson, rfl⟩ := h
  obtain rfl := validatedState_ok hvalid
  refine ⟨rfl, rfl, rfl, ?_⟩
  unfold validateDocument
  simp only [bind_ok_iff, require_ok_iff, rescue_ok_iff, exists_const, and_self, true_and]
  exact ⟨_, hvalid, rfl, deriveAccountSnapshot_accountId hsnapshot, _, hsnapshot, _, hjson, ⟨rfl, rfl⟩, rfl, trivial⟩

theorem snapshotFromPortfolioResult_of_valid
    (h : validateDocument codec r = .ok r) : snapshotFromPortfolioResult codec r = .ok r := by
  unfold snapshotFromPortfolioResult
  rw [h, ok_bind, h]

theorem snapshotAuthorityFromResult_of_valid (h : validateDocument codec r = .ok r) (hcursor : r.cursor = [cursor]) :
    ∃ authority, snapshotAuthorityFromResult codec r = .ok authority ∧
      authority.prefixHistoryHash = r.prefixHistoryHash ∧ validateAuthority authority r = .ok authority := by
  refine ⟨⟨r.schemaVersion, r.reducerVersion, r.state.snapshot.accountId, cursor.streamId,
    cursor.sequence, r.stateHash, r.prefixHistoryHash⟩, ?_, rfl, ?_⟩
  · unfold snapshotAuthorityFromResult
    rw [h, ok_bind, hcursor]
  · simp [validateAuthority, hcursor, require]

/-! ## Replay -/

theorem replayFull_ok_iff {events : List LedgerEvent} :
    replayFull codec events = .ok r ↔ ∃ batch, canonicalEvents codec events = .ok batch ∧
      validateFullHistory codec batch = .ok () ∧
      ∃ hash, batch.foldlM (extendHistoryHash codec) (codec.sha256 "") = .ok hash ∧
      ∃ s, reducePortfolioEvents codec.toCodec batch = .ok s ∧ result codec s hash = .ok r := by
  unfold replayFull
  simp only [bind_ok_iff, mapError_ok_iff]
  constructor
  · rintro ⟨batch, hbatch, ⟨⟩, hvalid, hash, hhash, s, hs, hr⟩
    exact ⟨batch, hbatch, hvalid, hash, hhash, s, hs, hr⟩
  · rintro ⟨batch, hbatch, hvalid, hash, hhash, s, hs, hr⟩
    exact ⟨batch, hbatch, (), hvalid, hash, hhash, s, hs, hr⟩

theorem replayTail_ok_iff {events : List LedgerEvent} {snapshot : PortfolioReplayResult}
    {authority : PortfolioSnapshotAuthority} (hauthority : validateAuthority authority snapshot = .ok authority)
    (hsnapshot : validateDocument codec snapshot = .ok snapshot) : replayTail codec events snapshot authority = .ok r ↔
      ∃ batch, canonicalEvents codec events = .ok batch ∧ validateTail codec batch snapshot = .ok () ∧
      ∃ hash, batch.foldlM (extendHistoryHash codec) authority.prefixHistoryHash = .ok hash ∧
      ∃ s, batch.foldlM (applyPortfolioEvent codec.toCodec) snapshot.state = .ok s ∧ result codec s hash = .ok r := by
  unfold replayTail
  simp only [hauthority, hsnapshot, ok_bind, bind_ok_iff, mapError_ok_iff]
  constructor
  · rintro ⟨batch, hbatch, ⟨⟩, hvalid, ⟨s, hash⟩, hloop, hr⟩
    obtain ⟨hs, hhash⟩ := foldlM_replayEvent.1 hloop
    exact ⟨batch, hbatch, hvalid, hash, hhash, s, hs, hr⟩
  · rintro ⟨batch, hbatch, hvalid, hash, hhash, s, hs, hr⟩
    exact ⟨batch, hbatch, (), hvalid, (s, hash), foldlM_replayEvent.2 ⟨hs, hhash⟩, hr⟩

/-- Replaying a tail from the snapshot of an accepted prefix accepts what the full replay accepts and
returns the same result. -/
theorem snapshot_replay_eq_full_replay (codec : ReplayCodec) {events : List LedgerEvent}
    {r : PortfolioReplayResult} (h : replayPortfolio codec events none none = .ok r) :
    ∃ snapshot authority, snapshotFromPortfolioResult codec r = .ok snapshot ∧
      snapshotAuthorityFromResult codec r = .ok authority ∧
      ∀ tail r', replayPortfolio codec tail (some snapshot) (some authority) = .ok r' ↔
        replayPortfolio codec (events ++ tail) none none = .ok r' := by
  obtain ⟨batch, hbatch, hvalid, hash, hhash, s, hs, hr⟩ := replayFull_ok_iff.1 h
  obtain ⟨hmap, hsorted⟩ := canonicalEvents_ok_iff.1 hbatch
  obtain ⟨streamId, hreduced⟩ := reduced_of_history hvalid hs
  obtain ⟨hstate, hcursor, hearly, hdocument⟩ := result_spec hr
  obtain ⟨authority, hauthority, hauthorityHash, hauthorized⟩ :=
    snapshotAuthorityFromResult_of_valid hdocument (hcursor.trans hreduced.cursor)
  refine ⟨r, authority, snapshotFromPortfolioResult_of_valid hdocument, hauthority, fun tail r' => ?_⟩
  have hne : batch ≠ [] := by
    rintro rfl
    cases hvalid
  have hvalidTail : ∀ rest, validateTail codec rest r = .ok () ↔
      validateFullHistory codec (batch ++ rest) = .ok () := fun rest =>
    validateTail_ok_iff hvalid (hstate ▸ hreduced)
  change replayTail codec tail r authority = .ok r' ↔ replayFull codec (events ++ tail) = .ok r'
  rw [replayTail_ok_iff hauthorized hdocument, replayFull_ok_iff]
  constructor
  · rintro ⟨rest, hrest, hrestValid, hash', hhash', s', hs', hr'⟩
    obtain ⟨hrestMap, hrestSorted⟩ := canonicalEvents_ok_iff.1 hrest
    rw [hvalidTail] at hrestValid
    obtain ⟨first, -, -, -, hhistory⟩ := validateFullHistory_spec hrestValid
    refine ⟨batch ++ rest, canonicalEvents_ok_iff.2 ⟨?_, ?_⟩, hrestValid, hash', ?_, s', ?_, hr'⟩
    · exact mapM_append_ok_iff.2 ⟨batch, hmap, rest, hrestMap, rfl⟩
    · exact pairwise_eventOrder_append hhistory hsorted hrestSorted
    · rw [List.foldlM_append, hhash, ok_bind, ← hearly, ← hauthorityHash]
      exact hhash'
    · rw [reduce_append hne, hs, ok_bind, ← hstate]
      exact hs'
  · rintro ⟨whole, hwhole, hwholeValid, hash', hhash', s', hs', hr'⟩
    obtain ⟨hwholeMap, hwholeSorted⟩ := canonicalEvents_ok_iff.1 hwhole
    obtain ⟨left, hleft, rest, hrestMap, rfl⟩ := mapM_append_ok_iff.1 hwholeMap
    obtain rfl : batch = left := Except.ok.inj (hmap.symm.trans hleft)
    refine ⟨rest, canonicalEvents_ok_iff.2 ⟨hrestMap, (List.pairwise_append.1 hwholeSorted).2.1⟩,
      (hvalidTail rest).2 hwholeValid, hash', ?_, s', ?_, hr'⟩
    · rw [List.foldlM_append, hhash, ok_bind] at hhash'
      rw [hauthorityHash, hearly]
      exact hhash'
    · rw [reduce_append hne, hs, ok_bind] at hs'
      rw [hstate]
      exact hs'

theorem sample_tail_replays : ∃ r snapshot authority r', replayPortfolio (sampleReplayCodec sampleHistory)
      ((sampleHistory.take 1).map PortfolioEvent.toLedger) none none = .ok r ∧
    snapshotFromPortfolioResult (sampleReplayCodec sampleHistory) r = .ok snapshot ∧
    snapshotAuthorityFromResult (sampleReplayCodec sampleHistory) r = .ok authority ∧
    replayPortfolio (sampleReplayCodec sampleHistory) (sampleTail.map PortfolioEvent.toLedger)
      (some snapshot) (some authority) = .ok r' := by
  have hopening : (replayPortfolio (sampleReplayCodec sampleHistory)
      ((sampleHistory.take 1).map PortfolioEvent.toLedger) none none).isOk = true := by
    decide +kernel
  have hwhole : (replayPortfolio (sampleReplayCodec sampleHistory)
      ((sampleHistory.take 1).map PortfolioEvent.toLedger ++ sampleTail.map PortfolioEvent.toLedger)
      none none).isOk = true := by
    decide +kernel
  obtain ⟨r, hr⟩ := isOk_iff.1 hopening
  obtain ⟨r', hr'⟩ := isOk_iff.1 hwhole
  obtain ⟨snapshot, authority, hsnapshot, hauthority, hiff⟩ := snapshot_replay_eq_full_replay _ hr
  exact ⟨r, snapshot, authority, r', hr, hsnapshot, hauthority, (hiff _ _).2 hr'⟩

end TradingAgent.PortfolioReducer
