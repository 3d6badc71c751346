import TradingAgent.EventLedger.Admission

/-! Every result of a replay is a snapshot from which another replay can resume. -/

namespace TradingAgent.EventLedger

open Outcome

/-! ## The equations of a snapshot -/

/-- The checks of `_validate_snapshot_structure`. -/
structure Structured (s : SnapshotRecord) : Prop where
  eventCount : s.state.eventCount = s.state.appliedEvents.length
  appliedNodup : (s.state.appliedEvents.map AppliedEvent.eventId).Nodup
  appliedSorted : (s.state.appliedEvents.map AppliedEvent.eventId).Pairwise (· ≤ ·)
  typeSum : (s.state.typeCounts.map EventTypeCount.count).sum = s.state.eventCount
  typeNodup : (s.state.typeCounts.map EventTypeCount.eventType).Nodup
  typeSorted : (s.state.typeCounts.map EventTypeCount.eventType).Pairwise (· ≤ ·)
  typeRegistered : ∀ t ∈ s.state.typeCounts, t.eventType ∈ registeredEventTypes
  streamSum : (s.state.streams.map StreamProjection.eventCount).sum = s.state.eventCount
  streamNodup : (s.state.streams.map StreamProjection.streamId).Nodup
  streamSorted : (s.state.streams.map StreamProjection.streamId).Pairwise (· ≤ ·)
  streamHeads : ∀ p ∈ s.state.streams,
    0 < p.eventCount ∧ p.lastSequence = p.eventCount ∧ p.lastDigest ≠ none
  issueNodup : (s.issues.map ReplayIssue.eventId).Nodup
  issueSkipped : ∀ i ∈ s.issues, i.eventId ∉ s.state.appliedEvents.map AppliedEvent.eventId
  issueSorted : (s.issues.map issueOrder).Pairwise (· ≤ ·)
  issueConsistent : ∀ i ∈ s.issues, i.Consistent
  status : s.status = .degraded ↔ s.issues ≠ []

variable {s : SnapshotRecord}

theorem validateSnapshotStructure_ok_iff : validateSnapshotStructure s = .ok () ↔ Structured s := by
  unfold validateSnapshotStructure
  simp only [bind_ok_iff, require_ok_iff, exists_const]
  constructor
  · rintro ⟨h₁, h₂, h₃, h₄, h₅, h₆, h₇, h₈, h₉, h₁₀, h₁₁, h₁₂, h₁₃, h₁₄, h₁₅, h₁₆⟩
    exact ⟨h₁, h₂, h₃, h₄, h₅, h₆, h₇, h₈, h₉, h₁₀, h₁₁, h₁₂, h₁₃, h₁₄, h₁₅, h₁₆⟩
  · rintro ⟨h₁, h₂, h₃, h₄, h₅, h₆, h₇, h₈, h₉, h₁₀, h₁₁, h₁₂, h₁₃, h₁₄, h₁₅, h₁₆⟩
    exact ⟨h₁, h₂, h₃, h₄, h₅, h₆, h₇, h₈, h₉, h₁₀, h₁₁, h₁₂, h₁₃, h₁₄, h₁₅, h₁₆⟩

structure Course.Sound (c : Course) : Prop where
  tidy : c.books.Tidy
  eventCount : c.books.eventCount = c.books.applied.length
  typeSum : c.books.typeCounts.values.sum = c.books.eventCount
  typeRegistered : ∀ t ∈ c.books.typeCounts.keys, t ∈ registeredEventTypes
  streamSum : (c.books.heads.values.map StreamProjection.eventCount).sum = c.books.eventCount
  streamHeads : ∀ p ∈ c.books.heads.values,
    0 < p.eventCount ∧ p.lastSequence = p.eventCount ∧ p.lastDigest ≠ none
  issueNodup : c.issues.keys.Nodup
  issueKeyed : c.issues.Keyed ReplayIssue.eventId
  issueSkipped : ∀ i ∈ c.issues.keys, i ∉ c.books.applied.keys
  issueConsistent : ∀ i ∈ c.issues.values, i.Consistent

namespace Course

variable {c : Course}

/-! ## One event -/

theorem Sound.wanted (h : c.Sound) (s : Uuid) : c.books.wanted s = c.books.countOf s + 1 := by
  unfold Books.wanted Books.countOf
  cases hp : c.books.heads.get? s with
  | none => rfl
  | some p =>
    have hmem : p ∈ c.books.heads.values := List.mem_map_of_mem (Dict.mem_of_get?_eq_some hp)
    show p.lastSequence + 1 = p.eventCount + 1
    rw [(h.streamHeads p hmem).2.1]

variable {r : StoredEvent}

theorem sequenceIssue_consistent {wanted : ℕ} (h : r.sequence ≠ wanted) : (sequenceIssue wanted r).Consistent := by
  unfold ReplayIssue.Consistent sequenceIssue
  by_cases hlt : wanted < r.sequence
  · simp [hlt]
  · simp only [hlt, if_false]
    omega

theorem Sound.push (h : c.Sound) (hseq : r.sequence = c.books.wanted r.streamId)
    (hfresh : r.eventId ∉ c.books.applied.keys) (htype : r.eventType ∈ registeredEventTypes) :
    (⟨c.books.push r, c.issues.erase r.eventId⟩ : Course).Sound := by
  refine ⟨h.tidy.push r, ?_, ?_, fun t ht => ?_, ?_, fun p hp => ?_, Dict.nodup_keys_erase h.issueNodup _,
    h.issueKeyed.erase _, fun i hi hmem => ?_, fun i hi => ?_⟩
  · show c.books.eventCount + 1 = (c.books.applied.set r.eventId r.digest).length
    rw [Dict.length_set, if_neg hfresh, h.eventCount]
  · have hsum := Dict.sum_values_set c.books.typeCounts r.eventType
      ((c.books.typeCounts.get? r.eventType).getD 0 + 1) id
    rw [List.map_id, List.map_id, h.typeSum] at hsum
    show (c.books.typeCounts.set _ _).values.sum = c.books.eventCount + 1
    cases hget : c.books.typeCounts.get? r.eventType with
    | none =>
      rw [hget] at hsum
      simpa using hsum
    | some n =>
      rw [hget] at hsum
      simp only [Option.elim_some, Option.getD_some, id] at hsum ⊢
      omega
  · rcases (Dict.mem_keys_set _ _ _ _).1 ht with rfl | ht
    · exact htype
    · exact h.typeRegistered t ht
  · have hsum := Dict.sum_values_set c.books.heads r.streamId
      ⟨r.streamId, c.books.countOf r.streamId + 1, r.sequence, some r.digest⟩ StreamProjection.eventCount
    rw [h.streamSum] at hsum
    have hcount : (c.books.heads.get? r.streamId).elim 0 StreamProjection.eventCount = c.books.countOf r.streamId := rfl
    rw [hcount] at hsum
    show ((c.books.heads.set _ _).values.map _).sum = c.books.eventCount + 1
    simp only at hsum
    omega
  · rcases Dict.mem_values_set hp with rfl | hp
    · refine ⟨Nat.succ_pos _, ?_, by simp⟩
      show r.sequence = c.books.countOf r.streamId + 1
      rw [hseq, h.wanted]
    · exact h.streamHeads p hp
  · rw [Dict.keys_erase, List.mem_filter] at hi
    rcases (Dict.mem_keys_set _ _ _ _).1 hmem with rfl | hmem
    · simp at hi
    · exact h.issueSkipped i hi.1 hmem
  · obtain ⟨e, he, rfl⟩ := List.mem_map.1 hi
    exact h.issueConsistent _ (List.mem_map_of_mem (List.mem_filter.1 he).1)

theorem Sound.offer (h : c.Sound) (hfresh : r.eventId ∉ c.books.applied.keys)
    (htype : r.eventType ∈ registeredEventTypes) : (c.offer r).Sound := by
  unfold Course.offer
  split_ifs with hseq
  · exact h.push hseq hfresh htype
  · refine ⟨h.tidy, h.eventCount, h.typeSum, h.typeRegistered, h.streamSum, h.streamHeads,
      Dict.nodup_keys_set _ _ _ h.issueNodup, h.issueKeyed.set rfl, fun i hi => ?_, fun i hi => ?_⟩
    · rcases (Dict.mem_keys_set _ _ _ _).1 hi with rfl | hi
      · exact hfresh
      · exact h.issueSkipped i hi
    · rcases Dict.mem_values_set hi with rfl | hi
      · exact sequenceIssue_consistent hseq
      · exact h.issueConsistent i hi

/-! ## A run of events -/

/-- The records are new to the course. -/
structure Fresh (c : Course) (records : List StoredEvent) : Prop where
  nodup : (records.map StoredEvent.eventId).Nodup
  notApplied : ∀ r ∈ records, r.eventId ∉ c.books.applied.keys
  registered : ∀ r ∈ records, r.eventType ∈ registeredEventTypes

theorem Fresh.tail {r : StoredEvent} {rs : List StoredEvent} (h : c.Fresh (r :: rs)) : (c.offer r).Fresh rs := by
  have hnodup := h.nodup
  rw [List.map_cons, List.nodup_cons] at hnodup
  refine ⟨hnodup.2, fun x hx hmem => ?_, fun x hx => h.registered x (List.mem_cons_of_mem _ hx)⟩
  have hne : x.eventId ≠ r.eventId := fun heq => hnodup.1 (heq ▸ List.mem_map_of_mem hx)
  refine h.notApplied x (List.mem_cons_of_mem _ hx) ?_
  unfold Course.offer at hmem
  split_ifs at hmem with hseq
  · exact ((Dict.mem_keys_set _ _ _ _).1 hmem).resolve_left hne
  · exact hmem

theorem Sound.offerAll (h : c.Sound) {records : List StoredEvent} (hfresh : c.Fresh records) :
    (c.offerAll records).Sound := by
  induction records generalizing c with
  | nil => exact h
  | cons r rs ih =>
    exact ih (h.offer (hfresh.notApplied r List.mem_cons_self) (hfresh.registered r List.mem_cons_self))
      hfresh.tail

theorem mem_issues_offerAll {records : List StoredEvent} {i : Uuid} (h : i ∉ records.map StoredEvent.eventId) :
    i ∈ (c.offerAll records).issues.keys ↔ i ∈ c.issues.keys := by
  induction records generalizing c with
  | nil => rfl
  | cons r rs ih =>
    rw [List.map_cons, List.mem_cons, not_or] at h
    refine (ih h.2).trans ?_
    unfold Course.offer
    split_ifs
    · simp [Dict.keys_erase, h.1]
    · simp [Dict.mem_keys_set, h.1]

theorem inOrder_iff_settled {records : List StoredEvent} (h : (records.map StoredEvent.eventId).Nodup) :
    c.InOrder records ↔ ∀ r ∈ records, r.eventId ∉ (c.offerAll records).issues.keys := by
  induction records generalizing c with
  | nil => simp [InOrder]
  | cons r rs ih =>
    rw [List.map_cons, List.nodup_cons] at h
    rw [List.forall_mem_cons]
    show r.sequence = _ ∧ (c.offer r).InOrder rs ↔ _ ∉ ((c.offer r).offerAll rs).issues.keys ∧ _
    rw [ih h.2, mem_issues_offerAll h.1]
    refine and_congr_left fun _ => ?_
    unfold Course.offer
    split_ifs with hseq <;> simp [hseq, Dict.keys_erase, Dict.mem_keys_set]

/-! ## From a snapshot and to a result -/

theorem sound_opening_none : (opening none).Sound := by
  refine ⟨Books.tidy_opening none, rfl, rfl, ?_, rfl, ?_, List.nodup_nil, ?_, ?_, ?_⟩ <;> intro x hx <;>
    exact absurd hx List.not_mem_nil

theorem sound_opening (h : Structured s) : (opening (some s)).Sound := by
  have htypes : (opening (some s)).books.typeCounts = s.state.typeCounts.map fun t => (t.eventType, t.count) :=
    Dict.ofList_of_nodup (by simpa [Dict.keys, Function.comp_def] using h.typeNodup)
  have happlied : (opening (some s)).books.applied = s.state.appliedEvents.map fun a => (a.eventId, a.digest) :=
    Dict.ofList_of_nodup (by simpa [Dict.keys, Function.comp_def] using h.appliedNodup)
  have hheads : (opening (some s)).books.heads = s.state.streams.map fun p => (p.streamId, p) :=
    Dict.byKey_of_nodup h.streamNodup
  have hissues : (opening (some s)).issues = s.issues.map fun i => (i.eventId, i) :=
    Dict.byKey_of_nodup h.issueNodup
  refine ⟨Books.tidy_opening _, ?_, ?_, fun t ht => ?_, ?_, fun p hp => ?_, Dict.nodup_keys_byKey _ _,
    Dict.keyed_byKey _ _, fun i hi hmem => ?_, fun i hi => ?_⟩
  · rw [happlied, List.length_map]
    exact h.eventCount
  · rw [htypes, Dict.values, List.map_map]
    exact h.typeSum
  · rw [htypes, Dict.keys, List.map_map] at ht
    obtain ⟨t', ht', rfl⟩ := List.mem_map.1 ht
    exact h.typeRegistered t' ht'
  · rw [hheads, Dict.values, List.map_map, List.map_map]
    exact h.streamSum
  · rw [hheads, Dict.values, List.map_map] at hp
    obtain ⟨p', hp', rfl⟩ := List.mem_map.1 hp
    exact h.streamHeads p' hp'
  · rw [hissues, Dict.keys, List.map_map] at hi
    rw [happlied, Dict.keys, List.map_map] at hmem
    obtain ⟨i', hi', rfl⟩ := List.mem_map.1 hi
    exact h.issueSkipped i' hi' hmem
  · rw [hissues, Dict.values, List.map_map] at hi
    obtain ⟨i', hi', rfl⟩ := List.mem_map.1 hi
    exact h.issueConsistent i' hi'

theorem Sound.structured (h : c.Sound) (codec : ReplayCodec) : Structured (c.result codec) := by
  have happlied : (c.result codec).state.appliedEvents.map AppliedEvent.eventId =
      (sortBy Prod.fst c.books.applied).map Prod.fst := by
    show ((sortBy Prod.fst c.books.applied).map _).map _ = _
    rw [List.map_map]
    rfl
  have htypes : (c.result codec).state.typeCounts.map EventTypeCount.eventType =
      (sortBy Prod.fst c.books.typeCounts).map Prod.fst := by
    show ((sortBy Prod.fst c.books.typeCounts).map _).map _ = _
    rw [List.map_map]
    rfl
  have hstreams := sortBy_perm StreamProjection.streamId c.books.heads.values
  have hissues := sortBy_perm issueOrder c.issues.values
  have happliedLt := Dict.sorted_keys h.tidy.applied
  have htypesLt := Dict.sorted_keys h.tidy.typeCounts
  have hstreamsLt : ((c.result codec).state.streams.map StreamProjection.streamId).Pairwise (· < ·) :=
    List.pairwise_map.2 (sortBy_pairwise_lt StreamProjection.streamId _ h.tidy.nodup_heads)
  refine ⟨?_, ?_, ?_, ?_, ?_, ?_, fun t ht => ?_, ?_, ?_, ?_, fun p hp => ?_, ?_, fun i hi => ?_, ?_,
    fun i hi => ?_, ?_⟩
  · show c.books.eventCount = ((sortBy Prod.fst c.books.applied).map _).length
    rw [List.length_map, (sortBy_perm _ _).length_eq, h.eventCount]
  · rw [happlied]
    exact happliedLt.imp ne_of_lt
  · rw [happlied]
    exact happliedLt.imp le_of_lt
  · show (((sortBy Prod.fst c.books.typeCounts).map _).map _).sum = c.books.eventCount
    rw [List.map_map, ((sortBy_perm _ _).map _).sum_eq]
    exact h.typeSum
  · rw [htypes]
    exact htypesLt.imp ne_of_lt
  · rw [htypes]
    exact htypesLt.imp le_of_lt
  · obtain ⟨e, he, rfl⟩ := List.mem_map.1 ht
    exact h.typeRegistered e.1 (List.mem_map_of_mem ((mem_sortBy _ _ e).1 he))
  · exact ((hstreams.map _).sum_eq).trans h.streamSum
  · exact hstreamsLt.imp ne_of_lt
  · exact hstreamsLt.imp le_of_lt
  · exact h.streamHeads p ((mem_sortBy _ _ p).1 hp)
  · refine ((hissues.map _).nodup_iff).2 ?_
    rw [Dict.map_values_of_keyed h.issueKeyed]
    exact h.issueNodup
  · rw [happlied, List.mem_map]
    rintro ⟨e, he, hid⟩
    have hkey : i.eventId ∈ c.issues.keys := by
      rw [← Dict.map_values_of_keyed h.issueKeyed]
      exact List.mem_map_of_mem ((mem_sortBy _ _ i).1 hi)
    exact h.issueSkipped _ hkey (hid ▸ List.mem_map_of_mem ((mem_sortBy _ _ e).1 he))
  · exact List.pairwise_map.2 (sortBy_pairwise_le issueOrder _)
  · exact h.issueConsistent i ((mem_sortBy _ _ i).1 hi)
  · show (if sortBy issueOrder c.issues.values = [] then ReplayStatus.complete else .degraded) = _ ↔
      sortBy issueOrder c.issues.values ≠ []
    split_ifs with hnil <;> simp [hnil]

end Course

/-! ## Whole replays -/

theorem eventType_registered (payload : LedgerPayload) : payload.eventType ∈ registeredEventTypes := by
  cases payload with
  | portfolio p =>
    cases p <;> simp [LedgerPayload.eventType, PortfolioPayload.eventType, registeredEventTypes]
  | unread kind content =>
    cases kind <;> simp [LedgerPayload.eventType, UnreadPayload.eventType, registeredEventTypes]
  | _ => simp [LedgerPayload.eventType, registeredEventTypes]

section Replays

variable {codec : ReplayCodec} {policy : ReducerPolicy} {initial : Option SnapshotRecord}
  {events : List LedgerEvent}

theorem ValidInitial.sound (h : ValidInitial codec initial) : (Course.opening initial).Sound := by
  cases initial with
  | none => exact Course.sound_opening_none
  | some s =>
    exact Course.sound_opening (validateSnapshotStructure_ok_iff.1 (validateSnapshot_ok_iff.1 (h s rfl)).1.2.1)

theorem mem_canonicalRecords {r : StoredEvent} (h : r ∈ canonicalRecords codec initial events) :
    (∃ e ∈ events, recordOf codec.toLedgerCodec e = r) ∧ (initialMaps initial).applied.get? r.eventId = none := by
  unfold canonicalRecords collected at h
  rw [mem_sortBy] at h
  obtain ⟨hmem, hnone⟩ := mem_freshRecords.1 ((firstsBy_sublist _).subset h)
  exact ⟨List.mem_map.1 hmem, hnone⟩

theorem nodup_canonicalRecords (codec : ReplayCodec) (initial : Option SnapshotRecord) (events : List LedgerEvent) :
    ((canonicalRecords codec initial events).map StoredEvent.eventId).Nodup :=
  (((sortBy_perm eventOrder _).map _).nodup_iff).2 (nodup_firstsBy _)

theorem fresh_canonicalRecords (codec : ReplayCodec) (initial : Option SnapshotRecord) (events : List LedgerEvent) :
    (Course.opening initial).Fresh (canonicalRecords codec initial events) := by
  refine ⟨nodup_canonicalRecords codec initial events, fun r hr => ?_, fun r hr => ?_⟩
  · exact (Dict.get?_eq_none_iff _ _).1 (mem_canonicalRecords hr).2
  · obtain ⟨⟨e, -, rfl⟩, -⟩ := mem_canonicalRecords hr
    exact eventType_registered e.payload

theorem courseOf_sound (h : ValidInitial codec initial) (events : List LedgerEvent) :
    (courseOf codec initial events).Sound :=
  h.sound.offerAll (fresh_canonicalRecords codec initial events)

variable {r : ReplayResult}

theorem snapshotFromResult_ok_iff {s : ReplayResult} : snapshotFromResult codec r = .ok s ↔
    (r.Fits ∧ Structured r ∧ r.canonicalStateJson = codec.stateJson r.state r.status r.issues ∧
      r.stateHash = eventDigest codec.toLedgerCodec (codec.stateJson r.state r.status r.issues)) ∧ r = s := by
  unfold snapshotFromResult
  simp only [bind_ok_iff, require_ok_iff, exists_const, validateSnapshot_ok_iff, validateSnapshotStructure_ok_iff]
  constructor
  · rintro ⟨-, hvalid, heq⟩
    exact ⟨hvalid, heq⟩
  · rintro ⟨hvalid, heq⟩
    exact ⟨hvalid.1, hvalid, heq⟩

variable (h : reduceEvents codec policy initial events = .ok r)
include h

theorem snapshot_of_result : snapshotFromResult codec r = .ok r := by
  obtain ⟨hvalid, hreplay, rfl⟩ := reduceEvents_ok_iff.1 h
  exact snapshotFromResult_ok_iff.2
    ⟨⟨hreplay.fits, (courseOf_sound hvalid events).structured codec, rfl, rfl⟩, rfl⟩

theorem ValidInitial.of_result : ValidInitial codec (some r) := by
  rintro snapshot heq
  obtain rfl := Option.some.inj heq
  have hr := snapshot_of_result h
  unfold snapshotFromResult at hr
  rw [bind_ok_iff] at hr
  obtain ⟨_, -, hv⟩ := hr
  exact hv

omit h

variable (codec) in
/-- What a chain of replays, each from the snapshot of the one before, can start its next replay from. -/
inductive Resumable : Option SnapshotRecord → Prop
  | start {initial : Option SnapshotRecord} (h : ValidInitial codec initial) : Resumable initial
  | resume {policy : ReducerPolicy} {initial : Option SnapshotRecord} {events : List LedgerEvent}
      {r s : ReplayResult} (h : Resumable initial)
      (hr : reduceEvents codec policy initial events = .ok r) (hs : snapshotFromResult codec r = .ok s) :
      Resumable (some s)

/-- Along every chain of replays, each result is accepted as a snapshot and satisfies its equations. -/
theorem every_result_resumes (h : Resumable codec initial) {r : ReplayResult}
    (hr : reduceEvents codec policy initial events = .ok r) :
    snapshotFromResult codec r = .ok r ∧ Resumable codec (some r) ∧
      r.state.eventCount = r.state.appliedEvents.length ∧
      (r.state.typeCounts.map EventTypeCount.count).sum = r.state.eventCount ∧
      (r.state.streams.map StreamProjection.eventCount).sum = r.state.eventCount ∧
      (∀ p ∈ r.state.streams, p.lastSequence = p.eventCount ∧ 0 < p.eventCount ∧ p.lastDigest ≠ none) ∧
      (∀ i ∈ r.issues, i.eventId ∉ r.state.appliedEvents.map AppliedEvent.eventId) ∧
      (r.status = .degraded ↔ r.issues ≠ []) := by
  have hs := snapshot_of_result hr
  obtain ⟨⟨-, hstructured, -⟩, -⟩ := snapshotFromResult_ok_iff.1 hs
  exact ⟨hs, h.resume hr hs, hstructured.eventCount, hstructured.typeSum, hstructured.streamSum,
    fun p hp => ⟨(hstructured.streamHeads p hp).2.1, (hstructured.streamHeads p hp).1,
      (hstructured.streamHeads p hp).2.2⟩, hstructured.issueSkipped, hstructured.status⟩

/-! ## The two policies -/

theorem ValidInitial.inOrder_iff (h : ValidInitial codec initial) :
    (Course.opening initial).InOrder (canonicalRecords codec initial events) ↔
      ∀ e ∈ events, ∀ i ∈ ((courseOf codec initial events).result codec).issues, i.eventId ≠ e.eventId := by
  have hissues (e : LedgerEvent) : (∀ i ∈ ((courseOf codec initial events).result codec).issues,
      i.eventId ≠ e.eventId) ↔ e.eventId ∉ (courseOf codec initial events).issues.keys := by
    rw [← Dict.map_values_of_keyed (courseOf_sound h events).issueKeyed]
    simp [Course.result, assembleResult, mem_sortBy]
  simp only [hissues]
  rw [Course.inOrder_iff_settled (nodup_canonicalRecords codec initial events)]
  constructor
  · intro hsettled e he hissue
    by_cases hfresh : e.eventId ∈ (canonicalRecords codec initial events).map StoredEvent.eventId
    · obtain ⟨r, hr, hid⟩ := List.mem_map.1 hfresh
      exact hsettled r hr (hid ▸ hissue)
    -- What is not offered was applied before, and is no issue of the snapshot.
    · refine h.sound.issueSkipped _ ((Course.mem_issues_offerAll hfresh).1 hissue) ?_
      by_contra happlied
      refine hfresh (((sortBy_perm eventOrder _).map _).mem_iff.2 ((mem_keys_firstsBy _).2 ?_))
      exact List.mem_map_of_mem (mem_freshRecords.2 ⟨List.mem_map_of_mem he, (Dict.get?_eq_none_iff _ _).2 happlied⟩)
  · intro hsettled r hr
    obtain ⟨⟨e, he, rfl⟩, -⟩ := mem_canonicalRecords hr
    exact hsettled e he

/-- The default policy gives a result exactly when the degraded policy gives it and leaves no event of the batch as
an issue. -/
theorem default_replay_iff_degraded : replay codec .default initial events = .ok r ↔
    replay codec .degraded initial events = .ok r ∧ ∀ e ∈ events, ∀ i ∈ r.issues, i.eventId ≠ e.eventId := by
  rw [replay_ok_iff, replay_ok_iff]
  constructor
  · rintro ⟨hv, h, rfl⟩
    exact ⟨⟨hv, { h with inOrder := fun hp => by cases hp }, rfl⟩, hv.inOrder_iff.1 (h.inOrder rfl)⟩
  · rintro ⟨⟨hv, h, rfl⟩, hsettled⟩
    exact ⟨hv, { h with inOrder := fun _ => hv.inOrder_iff.2 hsettled }, rfl⟩

end Replays

/-! ## A stream with a gap -/

/-- An event of a sample stream, at the place after `sequence`. -/
def sampleLedgerEvent (eventId streamId sequence : ℕ) (payload : LedgerPayload) : LedgerEvent where
  eventId := eventId
  schemaVersion := "v1"
  source := "venue"
  streamId := streamId
  sequence := sequence + 1
  observedAt := 0
  ingestedAt := 0
  producedAt := 0
  effectiveAt := 0
  expiresAt := 1
  correlationId := 1
  causationId := 1
  traceId := 1
  payload := payload
  valid := ⟨Nat.succ_pos _, le_rfl, le_rfl, zero_lt_one⟩

/-- A codec whose texts name the identity, the place and the type of an event. -/
def sampleLedgerCodec (events : List LedgerEvent) : ReplayCodec where
  sha256 text := text
  eventJson e := ".".intercalate
    [toString e.eventId, toString e.streamId, toString e.sequence, e.payload.eventType]
  storable _ := true
  parse text := events.find? fun e => ".".intercalate
    [toString e.eventId, toString e.streamId, toString e.sequence, e.payload.eventType] = text
  stateJson state _ issues := toString state.eventCount ++ "/" ++ toString issues.length

def sampleGap : List LedgerEvent :=
  [sampleLedgerEvent 1 7 0 (.unread .orderEvent "placed"),
    sampleLedgerEvent 3 7 2 (.unread .orderEvent "filled")]

def sampleLate : LedgerEvent := sampleLedgerEvent 2 7 1 (.unread .orderEvent "working")

theorem sampleGap_resumes : ∃ r r', reduceEvents (sampleLedgerCodec []) .degraded none sampleGap = .ok r ∧
      reduceEvents (sampleLedgerCodec []) .degraded (some r) (sampleLate :: sampleGap) = .ok r' ∧
      r.status = .degraded ∧ r'.status = .complete ∧
      snapshotFromResult (sampleLedgerCodec []) r' = .ok r' := by
  have hchain : ((do
      let r ← reduceEvents (sampleLedgerCodec []) .degraded none sampleGap
      let r' ← reduceEvents (sampleLedgerCodec []) .degraded (some r) (sampleLate :: sampleGap)
      .ok (r, r') : Except LedgerFailure (ReplayResult × ReplayResult)).toOption.any fun p =>
        decide (p.1.status = .degraded ∧ p.2.status = .complete)) = true := by
    decide +kernel
  obtain ⟨⟨r, r'⟩, hok, hstatus⟩ := exists_ok_of_any hchain
  simp only [bind_ok_iff, Except.ok.injEq, Prod.mk.injEq] at hok
  obtain ⟨_, hr, _, hr', rfl, rfl⟩ := hok
  have hfirst := every_result_resumes (.start fun s hs => by cases hs) hr
  exact ⟨_, _, hr, hr', hstatus.1, hstatus.2, (every_result_resumes hfirst.2.1 hr').1⟩

end TradingAgent.EventLedger
