import Mathlib.Algebra.Order.BigOperators.Group.List
import TradingAgent.EventLedger.Snapshots
import TradingAgent.PortfolioReducer.Run

/-! The outcome of a batch does not depend on the order and number of deliveries. -/

namespace TradingAgent.EventLedger

open Outcome

variable {codec : ReplayCodec} {policy : ReducerPolicy} {initial : Option SnapshotRecord}
  {events events' : List LedgerEvent}

/-! ## Identities -/

theorem Coherent.keyDecides (hfree : CollisionFree codec.toLedgerCodec events) {maps : InitialMaps}
    (h : Coherent maps (recordsOf codec events)) : KeyDecides idOf events := by
  intro e he e' he' hid
  have hmem : recordOf codec.toLedgerCodec e ∈ recordsOf codec events := List.mem_map_of_mem he
  have hmem' : recordOf codec.toLedgerCodec e' ∈ recordsOf codec events := List.mem_map_of_mem he'
  refine hfree e he e' he' ?_
  cases hget : maps.applied.get? e.eventId with
  | some d =>
    have hd : d = (recordOf codec.toLedgerCodec e).digest := h.applied _ hmem d hget
    have hget' : maps.applied.get? e'.eventId = some d := by
      rw [← hget]
      exact congrArg maps.applied.get? hid.symm
    have hd' : d = (recordOf codec.toLedgerCodec e').digest := h.applied _ hmem' d hget'
    rw [← hd, ← hd']
  | none => exact h.repeated _ hmem _ hmem' hget hid

theorem keyDecides_records (h : KeyDecides idOf events) (codec : ReplayCodec) :
    KeyDecides recordId (recordsOf codec events) := by
  intro r hr r' hr' hid
  obtain ⟨e, he, rfl⟩ := List.mem_map.1 hr
  obtain ⟨e', he', rfl⟩ := List.mem_map.1 hr'
  rw [h e he e' he' hid]

theorem replayable_iff (hfree : CollisionFree codec.toLedgerCodec events) :
    Replayable codec policy initial events ↔ ReportsDistinct events ∧ (∀ e ∈ events, Storable codec.toLedgerCodec e) ∧
      Coherent (initialMaps initial) (recordsOf codec events) ∧
      (policy = .default → (Course.opening initial).InOrder (canonicalRecords codec initial events)) ∧
      ((courseOf codec initial events).result codec).Fits := by
  constructor
  · rintro ⟨hreports, hstorable, hcoherent, horder, hfits⟩
    exact ⟨(validateExecutionReportEvents_ok_iff (hcoherent.keyDecides hfree)).1 hreports, hstorable,
      hcoherent, horder, hfits⟩
  · rintro ⟨hreports, hstorable, hcoherent, horder, hfits⟩
    exact ⟨(validateExecutionReportEvents_ok_iff (hcoherent.keyDecides hfree)).2 hreports, hstorable,
      hcoherent, horder, hfits⟩

theorem canonicalRecords_congr (h : KeyDecides idOf events)
    (hfresh : ∀ r, r ∈ freshRecords (initialMaps initial) (recordsOf codec events) ↔
      r ∈ freshRecords (initialMaps initial) (recordsOf codec events')) :
    canonicalRecords codec initial events = canonicalRecords codec initial events' := by
  unfold canonicalRecords collected
  refine sortBy_congr_perm (firstsBy_perm ?_ hfresh) ?_
  · exact (keyDecides_records h codec).subset fun r hr => (mem_freshRecords.1 hr).1
  · refine List.Nodup.of_map (fun k : Uuid ×ₗ ℕ ×ₗ Uuid => (ofLex (ofLex k).2).2) ?_
    rw [List.map_map]
    exact nodup_firstsBy _

/-! ## Redelivery -/

variable (codec initial) in
/-- The snapshot has the event as applied. -/
def AppliedIn (e : LedgerEvent) : Prop :=
  ∃ snapshot, initial = some snapshot ∧ ∃ record, StoredEvent.fromEnvelope codec.toLedgerCodec e = .ok record ∧
    ⟨record.eventId, record.digest⟩ ∈ snapshot.state.appliedEvents

variable {e : LedgerEvent}

theorem AppliedIn.get? (hv : ValidInitial codec initial) (h : AppliedIn codec initial e) :
    Storable codec.toLedgerCodec e ∧ (initialMaps initial).applied.get? e.eventId =
      some (recordOf codec.toLedgerCodec e).digest := by
  obtain ⟨snapshot, rfl, record, hrecord, hmem⟩ := h
  obtain ⟨hstorable, rfl⟩ := fromEnvelope_ok_iff.1 hrecord
  have hstructured := validateSnapshotStructure_ok_iff.1 (validateSnapshot_ok_iff.1 (hv snapshot rfl)).1.2.1
  have hnodup : Dict.keys (snapshot.state.appliedEvents.map fun a => (a.eventId, a.digest)) |>.Nodup := by
    simpa [Dict.keys, Function.comp_def] using hstructured.appliedNodup
  refine ⟨hstorable, ?_⟩
  show (Dict.ofList _).get? e.eventId = _
  rw [Dict.ofList_of_nodup hnodup, Dict.get?_eq_some_iff hnodup]
  exact List.mem_map_of_mem (f := fun a : AppliedEvent => (a.eventId, a.digest)) hmem

variable (codec initial events events') in
/-- The same events again, in any order, with repetitions and with applied events whose reports do not clash
with the batch. -/
structure Redelivery : Prop where
  kept : ∀ e ∈ events, e ∈ events'
  known : ∀ e ∈ events', e ∈ events ∨ AppliedIn codec initial e
  reports : ∀ e ∈ events', e ∉ events → ∀ e' ∈ events', e'.eventId ≠ e.eventId → ∀ r r',
    reportOf e = some r → reportOf e' = some r' → Distinguished r r'

variable (h : Redelivery codec initial events events')
include h

theorem Redelivery.reportsDistinct : ReportsDistinct events' ↔ ReportsDistinct events := by
  refine ⟨fun hd => hd.subset h.kept, fun hd e he e' he' hne r r' hr hr' => ?_⟩
  by_cases hmem : e ∈ events
  · by_cases hmem' : e' ∈ events
    · exact hd e hmem e' hmem' hne r r' hr hr'
    · exact (h.reports e' he' hmem' e he hne r' r hr' hr).symm
  · exact h.reports e he hmem e' he' hne.symm r r' hr hr'

variable (hv : ValidInitial codec initial)
include hv

theorem Redelivery.storable :
    (∀ e ∈ events', Storable codec.toLedgerCodec e) ↔ ∀ e ∈ events, Storable codec.toLedgerCodec e := by
  refine ⟨fun hs e he => hs e (h.kept e he), fun hs e he => ?_⟩
  rcases h.known e he with hmem | happlied
  · exact hs e hmem
  · exact (happlied.get? hv).1

theorem Redelivery.coherent : Coherent (initialMaps initial) (recordsOf codec events') ↔
      Coherent (initialMaps initial) (recordsOf codec events) := by
  have hsub : ∀ r ∈ recordsOf codec events, r ∈ recordsOf codec events' := by
    intro r hr
    obtain ⟨e, he, rfl⟩ := List.mem_map.1 hr
    exact List.mem_map_of_mem (h.kept e he)
  -- A delivery that was not applied is one of the batch.
  have hold : ∀ r ∈ recordsOf codec events', r ∈ recordsOf codec events ∨
      (initialMaps initial).applied.get? r.eventId = some r.digest := by
    intro r hr
    obtain ⟨e, he, rfl⟩ := List.mem_map.1 hr
    exact (h.known e he).imp (fun hmem => List.mem_map_of_mem hmem) fun happlied => (happlied.get? hv).2
  have hnew : ∀ r ∈ recordsOf codec events', (initialMaps initial).applied.get? r.eventId = none →
      r ∈ recordsOf codec events := by
    intro r hr hnone
    refine (hold r hr).resolve_right fun hsome => ?_
    rw [hnone] at hsome
    cases hsome
  refine ⟨fun hc => hc.subset hsub, fun hc => ⟨fun r hr d hd => ?_, fun r hr hnone => ?_,
    fun r hr r' hr' hnone hid => ?_⟩⟩
  · rcases hold r hr with hmem | hsome
    · exact hc.applied r hmem d hd
    · rw [hd] at hsome
      exact Option.some.inj hsome
  · exact hc.skipped r (hnew r hr hnone) hnone
  · exact hc.repeated r (hnew r hr hnone) r' (hnew r' hr' (hid ▸ hnone)) hnone hid

theorem Redelivery.canonicalRecords (hkeys : KeyDecides idOf events) :
    canonicalRecords codec initial events' = canonicalRecords codec initial events := by
  refine (canonicalRecords_congr hkeys fun r => ?_).symm
  rw [mem_freshRecords, mem_freshRecords]
  refine and_congr_left fun hnone => ⟨fun hr => ?_, fun hr => ?_⟩
  · obtain ⟨e, he, rfl⟩ := List.mem_map.1 hr
    exact List.mem_map_of_mem (h.kept e he)
  · obtain ⟨e, he, rfl⟩ := List.mem_map.1 hr
    refine (h.known e he).elim (fun hmem => List.mem_map_of_mem hmem) fun happlied => ?_
    have hsome := (happlied.get? hv).2.symm.trans hnone
    cases hsome

theorem Redelivery.reduceEvents_ok_iff (hfree : CollisionFree codec.toLedgerCodec events') {r : ReplayResult} :
    reduceEvents codec policy initial events' = .ok r ↔ reduceEvents codec policy initial events = .ok r := by
  have hfree₀ := hfree.subset h.kept
  rw [EventLedger.reduceEvents_ok_iff, EventLedger.reduceEvents_ok_iff, replayable_iff hfree,
    replayable_iff hfree₀, h.reportsDistinct, h.storable hv, h.coherent hv]
  refine and_congr_right fun _ => ?_
  by_cases hcoherent : Coherent (initialMaps initial) (recordsOf codec events)
  · have hcanonical := h.canonicalRecords hv (hcoherent.keyDecides hfree₀)
    have hcourse : courseOf codec initial events' = courseOf codec initial events := by
      unfold courseOf
      rw [hcanonical]
    rw [hcanonical, hcourse]
  · simp [hcoherent]

omit hv

omit h

/-! ## Bounds -/

/-- Sequences and counts stay within `bigint`. -/
def Room (initial : Option SnapshotRecord) (events : List LedgerEvent) : Prop :=
  (∀ e ∈ events, FitsBigint e.sequence) ∧
    (initialMaps initial).startingCount + events.length < postgresBigintMax

theorem Course.offerAll_eventCount_le (c : Course) (records : List StoredEvent) :
    (c.offerAll records).books.eventCount ≤ c.books.eventCount + records.length := by
  induction records generalizing c with
  | nil => exact le_rfl
  | cons r rs ih =>
    have hstep : (c.offer r).books.eventCount ≤ c.books.eventCount + 1 := by
      unfold Course.offer
      split_ifs
      · exact le_rfl
      · exact Nat.le_succ _
    refine (ih (c.offer r)).trans ?_
    rw [List.length_cons]
    omega

theorem length_canonicalRecords_le (codec : ReplayCodec) (initial : Option SnapshotRecord)
    (events : List LedgerEvent) : (canonicalRecords codec initial events).length ≤ events.length := by
  unfold canonicalRecords collected
  rw [(sortBy_perm eventOrder _).length_eq]
  refine (firstsBy_sublist _).length_le.trans ((List.length_filter_le _ _).trans ?_)
  unfold recordsOf
  rw [List.length_map]

variable {c : Course}

theorem Course.Sound.countOf_le (h : c.Sound) (s : Uuid) : c.books.countOf s ≤ c.books.eventCount := by
  unfold Books.countOf
  cases hp : c.books.heads.get? s with
  | none => exact Nat.zero_le _
  | some p =>
    rw [← h.streamSum]
    exact List.le_sum_of_mem (List.mem_map_of_mem (List.mem_map_of_mem (Dict.mem_of_get?_eq_some hp)))

theorem Course.issues_fit (h : c.Sound) {records : List StoredEvent} (hfresh : c.Fresh records)
    (hroom : c.books.eventCount + records.length < postgresBigintMax)
    (hseq : ∀ r ∈ records, 0 < r.sequence ∧ FitsBigint r.sequence) (hissues : ∀ i ∈ c.issues.values, i.Fits) :
    ∀ i ∈ (c.offerAll records).issues.values, i.Fits := by
  induction records generalizing c with
  | nil => exact hissues
  | cons r rs ih =>
    rw [List.length_cons] at hroom
    have hcount := offerAll_eventCount_le c [r]
    refine ih (h.offer (hfresh.notApplied r List.mem_cons_self) (hfresh.registered r List.mem_cons_self))
      hfresh.tail (by
        have : (c.offer r).books.eventCount ≤ c.books.eventCount + 1 := hcount
        omega) (fun r' hr' => hseq r' (List.mem_cons_of_mem _ hr')) ?_
    intro i hi
    unfold Course.offer at hi
    split_ifs at hi with hwanted
    · obtain ⟨e, he, rfl⟩ := List.mem_map.1 hi
      exact hissues _ (List.mem_map_of_mem (List.mem_filter.1 he).1)
    · rcases Dict.mem_values_set hi with rfl | hi
      · have hle := h.countOf_le r.streamId
        refine ⟨hseq r List.mem_cons_self, ?_⟩
        show 0 < c.books.wanted r.streamId ∧ c.books.wanted r.streamId ≤ postgresBigintMax
        rw [h.wanted]
        omega
      · exact hissues i hi

theorem Course.Sound.result_fits (h : c.Sound) (codec : ReplayCodec)
    (hcount : FitsBigint c.books.eventCount) (hissues : ∀ i ∈ c.issues.values, i.Fits) : (c.result codec).Fits := by
  have hstructured := h.structured codec
  refine ⟨⟨hcount, fun t ht => ?_, fun p hp => ?_⟩, fun i hi => hissues i ((mem_sortBy _ _ i).1 hi)⟩
  · have hle := List.le_sum_of_mem (List.mem_map_of_mem (f := EventTypeCount.count) ht)
    rw [hstructured.typeSum] at hle
    exact hle.trans hcount
  · have hle := List.le_sum_of_mem (List.mem_map_of_mem (f := StreamProjection.eventCount) hp)
    rw [hstructured.streamSum] at hle
    refine ⟨hle.trans hcount, ?_⟩
    rw [(hstructured.streamHeads p hp).2.1]
    exact hle.trans hcount

theorem fits_of_room (hv : ValidInitial codec initial) (hroom : Room initial events) :
    ((courseOf codec initial events).result codec).Fits := by
  have hlength := length_canonicalRecords_le codec initial events
  have hopening : (Course.opening initial).books.eventCount = (initialMaps initial).startingCount := rfl
  have hlt := hroom.2
  refine (courseOf_sound hv events).result_fits codec ?_ fun i hi => ?_
  · have hle := (Course.opening initial).offerAll_eventCount_le (canonicalRecords codec initial events)
    show (courseOf codec initial events).books.eventCount ≤ _
    unfold courseOf
    omega
  · refine Course.issues_fit hv.sound (fresh_canonicalRecords codec initial events) (by omega)
      (fun r hr => ?_) (fun i hi => ?_) i hi
    · obtain ⟨⟨e, he, rfl⟩, -⟩ := mem_canonicalRecords hr
      exact ⟨e.valid.1, hroom.1 e he⟩
    · cases initial with
      | none => exact absurd hi List.not_mem_nil
      | some snapshot =>
        obtain ⟨⟨-, hfits⟩, hstructure, -⟩ := (validateSnapshot_ok_iff.1 (hv snapshot rfl)).1
        have hnodup := (validateSnapshotStructure_ok_iff.1 hstructure).issueNodup
        have hopening : (Course.opening (some snapshot)).issues =
            snapshot.issues.map fun i => (i.eventId, i) := Dict.byKey_of_nodup hnodup
        rw [hopening, Dict.values, List.map_map] at hi
        obtain ⟨i', hi', rfl⟩ := List.mem_map.1 hi
        exact hfits i' hi'

/-! ## Errors -/

/-- The computation raises `ReplayError`s only. -/
abbrev ReplayErrorsOnly {α : Type} (x : Except LedgerFailure α) : Prop :=
  Avoids (fun e => e = .validationError) x

theorem replayErrorsOnly_error {α : Type} {e : LedgerFailure} (h : e ≠ .validationError) :
    ReplayErrorsOnly (.error e : Except LedgerFailure α) := avoids_error h

theorem replayErrorsOnly_require {p : Prop} [Decidable p] {e : LedgerFailure} (h : e ≠ .validationError) :
    ReplayErrorsOnly (require p e) := avoids_require h

theorem validateSnapshot_errors (s : SnapshotRecord) : ReplayErrorsOnly (validateSnapshot codec s) := by
  unfold validateSnapshot
  refine (replayErrorsOnly_require (by simp)).bind fun _ _ => Avoids.bind ?_ fun _ _ =>
    (replayErrorsOnly_require (by simp)).bind fun _ _ => avoids_ok _
  unfold validateSnapshotStructure
  iterate 15 refine (replayErrorsOnly_require (by simp)).bind fun _ _ => ?_
  exact replayErrorsOnly_require (by simp)

theorem fromEnvelope_errors (h : FitsBigint e.sequence) :
    ReplayErrorsOnly (StoredEvent.fromEnvelope codec.toLedgerCodec e) := by
  unfold StoredEvent.fromEnvelope
  cases serializeEvent codec.toLedgerCodec e with
  | none => exact replayErrorsOnly_error nofun
  | some text =>
    simp only [h, if_true]
    exact avoids_ok _

theorem collectRecord_errors (maps : InitialMaps) (acc : Deliveries) (r : StoredEvent) :
    ReplayErrorsOnly (collectRecord maps acc r) := by
  have hknown : ∀ known, ReplayErrorsOnly
      (if known ≠ r.digest then .error (LedgerFailure.conflictingContent r.eventId) else .ok acc) := by
    intro known
    split_ifs
    · exact replayErrorsOnly_error nofun
    · exact avoids_ok _
  unfold collectRecord
  cases maps.applied.get? r.eventId with
  | some d => exact hknown d
  | none =>
    cases acc.seenIncoming.get? r.eventId with
    | some d =>
      cases maps.unresolved.get? r.eventId with
      | some issue => exact (replayErrorsOnly_require (by simp)).bind fun _ _ => hknown d
      | none => exact hknown d
    | none =>
      cases maps.unresolved.get? r.eventId with
      | some issue => exact (replayErrorsOnly_require (by simp)).bind fun _ _ => avoids_ok _
      | none => exact avoids_ok _

theorem admitRecord_errors (acc : Admission) (r : StoredEvent) : ReplayErrorsOnly (admitRecord policy acc r) := by
  unfold admitRecord
  simp only
  split_ifs
  · cases policy with
    | default => exact replayErrorsOnly_error nofun
    | degraded => exact avoids_ok _
  · exact avoids_ok _

theorem reduceEvents_errors (hroom : Room initial events) :
    ReplayErrorsOnly (reduceEvents codec policy initial events) := by
  by_cases hv : ValidInitial codec initial
  · rw [reduceEvents_of_valid hv]
    cases validateExecutionReportEvents events with
    | error e => exact replayErrorsOnly_error nofun
    | ok batch =>
      unfold reduceBatch
      refine Avoids.bind (avoids_mapM fun e he => fromEnvelope_errors (hroom.1 e he)) fun incoming hincoming =>
        Avoids.bind (avoids_foldlM fun r _ acc => collectRecord_errors _ acc r) fun deliveries hdeliveries =>
        Avoids.bind (avoids_foldlM fun r _ acc => admitRecord_errors acc r) fun admission hadmission => ?_
      -- The bounds hold, so the last check cannot fail.
      obtain ⟨-, rfl⟩ := mapM_fromEnvelope_ok_iff.1 hincoming
      obtain ⟨-, rfl⟩ := collect_ok_iff.1 hdeliveries
      have htracks := ((Tracks.opening initial hv.streamsDistinct).loop hadmission).1
      have hfits := fits_of_room hv hroom
      have hstate := assembleState_eq hv.streamsDistinct htracks.nodup _ htracks.keys
      refine Avoids.bind (avoids_of_ok ⟨(), require_of _ ?_⟩) fun _ _ => avoids_ok _
      rw [hstate, ← htracks.books, ← htracks.issues]
      exact hfits
  · cases initial with
    | none => exact absurd (fun s hs => by cases hs) hv
    | some snapshot =>
      unfold reduceEvents
      cases hs : validateSnapshot codec snapshot with
      | error e =>
        simp only [hs]
        exact avoids_error (validateSnapshot_errors snapshot e hs)
      | ok snapshot' =>
        refine absurd (fun s heq => ?_) hv
        obtain rfl := Option.some.inj heq
        obtain rfl := (validateSnapshot_ok_iff.1 hs).2
        exact hs

/-! ## Order independence -/

theorem redelivery_of_perm {inserted : List LedgerEvent} (hperm : (events ++ inserted).Perm events')
    (hknown : ∀ e ∈ inserted, e ∈ events ∨ AppliedIn codec initial e)
    (hreports : ∀ e ∈ inserted, e ∉ events → ∀ e' ∈ events', e'.eventId ≠ e.eventId → ∀ r r',
      reportOf e = some r → reportOf e' = some r' → Distinguished r r') : Redelivery codec initial events events' := by
  have hmem : ∀ e, e ∈ events' ↔ e ∈ events ∨ e ∈ inserted := fun e => by
    rw [← hperm.mem_iff, List.mem_append]
  refine ⟨fun e he => (hmem e).2 (.inl he), fun e he => ?_, fun e he hnot => ?_⟩
  · exact ((hmem e).1 he).elim .inl (hknown e)
  · exact hreports e (((hmem e).1 he).resolve_left hnot) hnot

/-- Another order, repetitions and applied events change no result; with room for the counts the failures are
`ReplayError`s. -/
theorem replay_order_independent (hv : ValidInitial codec initial) {inserted : List LedgerEvent}
    (hperm : (events ++ inserted).Perm events')
    (hknown : ∀ e ∈ inserted, e ∈ events ∨ AppliedIn codec initial e)
    (hreports : ∀ e ∈ inserted, e ∉ events → ∀ e' ∈ events', e'.eventId ≠ e.eventId → ∀ r r',
      reportOf e = some r → reportOf e' = some r' → Distinguished r r')
    (hfree : CollisionFree codec.toLedgerCodec events') :
    ((∃ r, reduceEvents codec policy initial events = .ok r ∧
        reduceEvents codec policy initial events' = .ok r) ∨
      ∃ e e', reduceEvents codec policy initial events = .error e ∧
        reduceEvents codec policy initial events' = .error e' ∧
        (Room initial events' → e.IsReplayError ∧ e'.IsReplayError)) := by
  have h := redelivery_of_perm hperm hknown hreports
  have hiff := fun r => @Redelivery.reduceEvents_ok_iff _ policy _ _ _ h hv hfree r
  cases hr : reduceEvents codec policy initial events with
  | ok r => exact .inl ⟨r, rfl, (hiff r).2 hr⟩
  | error e =>
    cases hr' : reduceEvents codec policy initial events' with
    | ok r =>
      rw [(hiff r).1 hr'] at hr
      cases hr
    | error e' =>
      refine .inr ⟨e, e', rfl, rfl, fun hroom => ⟨?_, reduceEvents_errors hroom e' hr'⟩⟩
      refine reduceEvents_errors ⟨fun x hx => hroom.1 x (h.kept x hx), ?_⟩ e hr
      have hlength := hperm.length_eq
      rw [List.length_append] at hlength
      have hlt := hroom.2
      omega

theorem sampleGap_redelivered : ∃ s r,
    reduceEvents (sampleLedgerCodec []) .degraded none sampleGap = .ok s ∧
      reduceEvents (sampleLedgerCodec []) .degraded (some s) (sampleGap.drop 1 ++ [sampleLate]) = .ok r ∧
      reduceEvents (sampleLedgerCodec []) .degraded (some s)
        (sampleLate :: sampleGap ++ [sampleLate]) = .ok r := by
  have hfirst : ((reduceEvents (sampleLedgerCodec []) .degraded none sampleGap).toOption.any fun s =>
      decide (⟨1, ((recordOf (sampleLedgerCodec []).toLedgerCodec
        (sampleLedgerEvent 1 7 0 (.unread .orderEvent "placed"))).digest)⟩ ∈ s.state.appliedEvents ∧
      (reduceEvents (sampleLedgerCodec []) .degraded (some s) (sampleGap.drop 1 ++ [sampleLate])).isOk =
        true)) = true := by
    decide +kernel
  obtain ⟨s, hs, happlied, hok⟩ := exists_ok_of_any hfirst
  obtain ⟨r, hr⟩ := isOk_iff.1 hok
  have h := @replay_order_independent (sampleLedgerCodec []) .degraded _ (sampleGap.drop 1 ++ [sampleLate])
    (sampleLate :: sampleGap ++ [sampleLate]) (.of_result hs)
    [sampleLate, sampleLedgerEvent 1 7 0 (.unread .orderEvent "placed")] (by decide +kernel)
    (by
      intro e he
      rcases List.mem_pair.1 he with rfl | rfl
      · exact .inl (by decide +kernel)
      · exact .inr ⟨s, rfl, _, fromEnvelope_ok_iff.2 ⟨by decide +kernel, rfl⟩, happlied⟩)
    (by
      intro e he _ e' _ _ x x' hx
      rcases List.mem_pair.1 he with rfl | rfl <;> cases hx)
    (by
      unfold CollisionFree
      decide +kernel)
  rcases h with ⟨r', hr₁, hr₂⟩ | ⟨e, e', he, -⟩
  · exact ⟨s, r', hs, hr₁, hr₂⟩
  · rw [hr] at he
    cases he

def sampleFillEvent (eventId streamId : ℕ) (executionId : Uuid) : LedgerEvent :=
  sampleLedgerEvent eventId streamId 0 (.fill (PortfolioReducer.sampleBuy executionId))

/-- A sequence beyond `bigint` raises no `ReplayError`, and a batch is refused with an applied report that it
repeats. -/
theorem order_changes_the_outcome : (¬ ((∃ r, reduceEvents (sampleLedgerCodec []) .default none
          [sampleLedgerEvent 1 7 postgresBigintMax (.unread .orderEvent "placed")] = .ok r) ∨
        ∃ e, reduceEvents (sampleLedgerCodec []) .default none
          [sampleLedgerEvent 1 7 postgresBigintMax (.unread .orderEvent "placed")] = .error e ∧
            e.IsReplayError)) ∧
      ∃ s, reduceEvents (sampleLedgerCodec []) .default none [sampleFillEvent 1 7 11] = .ok s ∧
        AppliedIn (sampleLedgerCodec []) (some s) (sampleFillEvent 1 7 11) ∧
        (∃ r, reduceEvents (sampleLedgerCodec []) .default (some s) [sampleFillEvent 2 8 11] = .ok r) ∧
        ¬ ∃ r, reduceEvents (sampleLedgerCodec []) .default (some s)
          [sampleFillEvent 2 8 11, sampleFillEvent 1 7 11] = .ok r := by
  constructor
  · have herror : reduceEvents (sampleLedgerCodec []) .default none
        [sampleLedgerEvent 1 7 postgresBigintMax (.unread .orderEvent "placed")] =
        .error .validationError := by
      rfl
    rw [herror]
    rintro (⟨r, hr⟩ | ⟨e, he, hreplay⟩)
    · cases hr
    · exact hreplay (Except.error.inj he).symm
  · have hfirst : ((reduceEvents (sampleLedgerCodec []) .default none [sampleFillEvent 1 7 11]).toOption.any
        fun s => decide (⟨1, ((recordOf (sampleLedgerCodec []).toLedgerCodec
          (sampleFillEvent 1 7 11)).digest)⟩ ∈ s.state.appliedEvents ∧
        (reduceEvents (sampleLedgerCodec []) .default (some s) [sampleFillEvent 2 8 11]).isOk = true ∧
        (reduceEvents (sampleLedgerCodec []) .default (some s)
          [sampleFillEvent 2 8 11, sampleFillEvent 1 7 11]).isOk = false)) = true := by
      decide +kernel
    obtain ⟨s, hs, happlied, hok, hfail⟩ := exists_ok_of_any hfirst
    refine ⟨s, hs, ⟨s, rfl, _, fromEnvelope_ok_iff.2 ⟨by decide +kernel, rfl⟩, happlied⟩,
      isOk_iff.1 hok, fun h => ?_⟩
    rw [isOk_iff.2 h] at hfail
    cases hfail

end TradingAgent.EventLedger
