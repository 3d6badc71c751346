import TradingAgent.EventLedger.Reducer
import TradingAgent.Lib.Distinct

/-! Records of a batch and the collection of its deliveries. -/

namespace TradingAgent.EventLedger

open Outcome

def reportOf (event : LedgerEvent) : Option FillEvent :=
  match event.payload with
  | .fill report => some report
  | _ => none

def reportEvents (events : List LedgerEvent) : List LedgerEvent :=
  events.filter fun e => (reportOf e).isSome

theorem mem_reportEvents {events : List LedgerEvent} {e : LedgerEvent} :
    e ∈ reportEvents events ↔ e ∈ events ∧ ∃ r, reportOf e = some r := by
  unfold reportEvents
  rw [List.mem_filter, Option.isSome_iff_exists]

/-- The reports share no identity. -/
def Distinguished (r r' : FillEvent) : Prop :=
  r.executionId ≠ r'.executionId ∧ ¬ (r.orderId = r'.orderId ∧ r.reportSequence = r'.reportSequence)

theorem Distinguished.symm {r r' : FillEvent} (h : Distinguished r r') : Distinguished r' r :=
  ⟨h.1.symm, fun hr => h.2 ⟨hr.1.symm, hr.2.symm⟩⟩

/-- No two reports of the events share an identity. -/
def ReportsDistinct (events : List LedgerEvent) : Prop :=
  ∀ e ∈ events, ∀ e' ∈ events, e.eventId ≠ e'.eventId → ∀ r r', reportOf e = some r →
    reportOf e' = some r' → Distinguished r r'

variable {events' : List LedgerEvent}

theorem ReportsDistinct.subset {events : List LedgerEvent} (h : ReportsDistinct events')
    (hsub : ∀ e ∈ events, e ∈ events') : ReportsDistinct events :=
  fun e he e' he' => h e (hsub e he) e' (hsub e' he')

abbrev idOf (e : LedgerEvent) : Uuid := e.eventId

theorem collectReports_eq (events : List LedgerEvent) : events.foldl collectReport ([], []) =
      ((firstsBy idOf (reportEvents events)).filterMap reportOf, (firstsBy idOf (reportEvents events)).map idOf) := by
  induction events using List.reverseRecOn with
  | nil => rfl
  | append_singleton events e ih =>
    rw [List.foldl_append, List.foldl_cons, List.foldl_nil, ih]
    unfold collectReport reportEvents
    rw [List.filter_append]
    cases hp : e.payload with
    | fill report =>
      have hr : reportOf e = some report := by
        unfold reportOf
        rw [hp]
      rw [List.filter_cons_of_pos (by simp [hr]), List.filter_nil, firstsBy_concat]
      simp only [mem_keys_firstsBy]
      split_ifs with h
      · rfl
      · rw [List.filterMap_append, List.map_append]
        simp [hr]
    | _ =>
      have hr : reportOf e = none := by
        unfold reportOf
        rw [hp]
      rw [List.filter_cons_of_neg (by simp [hr]), List.filter_nil, List.append_nil]

structure Indexes (reports : List FillEvent) (index : ReportIndex) : Prop where
  canonicalReports : index.canonicalReports = reports
  executionIds : index.executionIds = reports.map fun r => r.executionId
  sequences : ∀ o, (index.sequencesByOrder.get? o).getD [] =
    (reports.filter fun r => r.orderId = o).map fun r => r.reportSequence

variable {reports : List FillEvent} {index : ReportIndex}

theorem indexReport_ok_iff (h : Indexes reports index)
    (report : FillEvent) : (∃ index', indexReport index report = .ok index') ↔
      ∀ r ∈ reports, Distinguished r report := by
  unfold indexReport
  simp only [bind_ok_iff, require_ok_iff, exists_const, Except.ok.injEq, exists_and_left, exists_eq',
    and_true, h.executionIds, h.sequences, List.mem_map, List.mem_filter, decide_eq_true_eq, not_exists,
    not_and]
  constructor
  · rintro ⟨hid, hseq⟩ r hr
    exact ⟨hid r hr, fun ⟨ho, hs⟩ => hseq r ⟨hr, ho⟩ hs⟩
  · intro hall
    exact ⟨fun r hr => (hall r hr).1, fun r hr hs => (hall r hr.1).2 ⟨hr.2, hs⟩⟩

theorem Indexes.step {index' : ReportIndex} {report : FillEvent}
    (h : Indexes reports index) (hok : indexReport index report = .ok index') :
    Indexes (reports ++ [report]) index' := by
  unfold indexReport at hok
  simp only [bind_ok_iff, require_ok_iff, exists_const, Except.ok.injEq] at hok
  obtain ⟨-, -, rfl⟩ := hok
  refine ⟨by rw [h.canonicalReports], by rw [h.executionIds, List.map_append]; rfl, fun o => ?_⟩
  rw [Dict.get?_set, List.filter_append, List.map_append]
  split_ifs with ho
  · rw [List.filter_cons_of_pos (by simpa using ho), ho, Option.getD_some, h.sequences]
    rfl
  · rw [List.filter_cons_of_neg (by simpa using ho), h.sequences]
    simp

theorem Indexes.of_loop (h : reports.foldlM indexReport ⟨[], [], []⟩ = .ok index) : Indexes reports index := by
  induction reports using List.reverseRecOn generalizing index with
  | nil =>
    obtain rfl := Except.ok.inj h
    exact ⟨rfl, rfl, fun o => by simp⟩
  | append_singleton reports report ih =>
    simp only [List.foldlM_append, List.foldlM_cons, List.foldlM_nil, bind_ok_iff, pure_eq_ok, Except.ok.injEq] at h
    obtain ⟨before, hbefore, _, hstep, rfl⟩ := h
    exact (ih hbefore).step hstep

theorem validateFillReportBatch_ok_iff (reports : List FillEvent) :
    (∃ sorted, validateFillReportBatch reports = .ok sorted) ↔ reports.Pairwise Distinguished := by
  have hloop : (∃ index, reports.foldlM indexReport ⟨[], [], []⟩ = .ok index) ↔ reports.Pairwise Distinguished := by
    induction reports using List.reverseRecOn with
    | nil => exact iff_of_true ⟨_, rfl⟩ .nil
    | append_singleton reports report ih =>
      rw [List.pairwise_append, ← ih]
      simp only [List.foldlM_append, List.foldlM_cons, List.foldlM_nil, bind_ok_iff, pure_eq_ok, Except.ok.injEq]
      constructor
      · rintro ⟨_, before, hbefore, index', hstep, -⟩
        refine ⟨⟨before, hbefore⟩, List.pairwise_singleton _ _, fun r hr r' hr' => ?_⟩
        obtain rfl := List.mem_singleton.1 hr'
        exact (indexReport_ok_iff (.of_loop hbefore) r').1 ⟨index', hstep⟩ r hr
      · rintro ⟨⟨before, hbefore⟩, -, hall⟩
        obtain ⟨index', hstep⟩ := (indexReport_ok_iff (.of_loop hbefore) report).2 fun r hr =>
          hall r hr report (List.mem_singleton_self _)
        exact ⟨_, before, hbefore, index', hstep, rfl⟩
  rw [← hloop]
  unfold validateFillReportBatch
  constructor
  · rintro ⟨sorted, h⟩
    rw [bind_ok_iff] at h
    obtain ⟨index, hindex, -⟩ := h
    exact ⟨index, hindex⟩
  · rintro ⟨index, hindex⟩
    rw [hindex]
    exact ⟨_, rfl⟩

theorem validateExecutionReportEvents_ok_iff {events : List LedgerEvent} (h : KeyDecides idOf events) :
    (∃ batch, validateExecutionReportEvents events = .ok batch) ↔ ReportsDistinct events := by
  have hsub : ∀ e ∈ reportEvents events, e ∈ events := fun e he => (mem_reportEvents.1 he).1
  have hdecides : KeyDecides idOf (reportEvents events) := h.subset hsub
  have hpairwise : ((firstsBy idOf (reportEvents events)).filterMap reportOf).Pairwise Distinguished ↔
      ReportsDistinct events := by
    rw [List.pairwise_filterMap]
    constructor
    · intro hp e he e' he' hne r r' hr hr'
      have hm := (mem_firstsBy hdecides e).2 (mem_reportEvents.2 ⟨he, r, hr⟩)
      have hm' := (mem_firstsBy hdecides e').2 (mem_reportEvents.2 ⟨he', r', hr'⟩)
      have hsymm : Std.Symm fun a b : LedgerEvent =>
          ∀ r, reportOf a = some r → ∀ r', reportOf b = some r' → Distinguished r r' :=
        ⟨fun a b hab r hr r' hr' => (hab r' hr' r hr).symm⟩
      exact hp.forall hm hm' (fun heq => hne (congrArg idOf heq)) r hr r' hr'
    · intro hall
      have hn : (firstsBy idOf (reportEvents events)).Pairwise fun a b => idOf a ≠ idOf b :=
        List.pairwise_map.1 (nodup_firstsBy _)
      refine hn.imp_of_mem fun {a b} ha hb hne r hr r' hr' => ?_
      exact hall a (hsub a ((firstsBy_sublist _).subset ha)) b (hsub b ((firstsBy_sublist _).subset hb))
        hne r r' hr hr'
  rw [← hpairwise, ← validateFillReportBatch_ok_iff]
  unfold validateExecutionReportEvents
  rw [collectReports_eq]
  constructor
  · rintro ⟨batch, hbatch⟩
    rw [bind_ok_iff] at hbatch
    obtain ⟨sorted, hsorted, -⟩ := hbatch
    exact ⟨sorted, hsorted⟩
  · rintro ⟨sorted, hsorted⟩
    rw [hsorted]
    exact ⟨_, rfl⟩

def recordOf (codec : LedgerCodec) (event : LedgerEvent) : StoredEvent where
  eventId := event.eventId
  streamId := event.streamId
  sequence := event.sequence
  eventType := event.payload.eventType
  canonicalJson := codec.eventJson event
  digest := eventDigest codec (codec.eventJson event)

def Storable (codec : LedgerCodec) (event : LedgerEvent) : Prop :=
  codec.storable event = true ∧ FitsBigint event.sequence

instance (codec : LedgerCodec) (event : LedgerEvent) : Decidable (Storable codec event) :=
  inferInstanceAs (Decidable (_ ∧ _))

section

variable {codec : LedgerCodec} {events : List LedgerEvent}

theorem fromEnvelope_ok_iff {event : LedgerEvent} {record : StoredEvent} :
    StoredEvent.fromEnvelope codec event = .ok record ↔ Storable codec event ∧ recordOf codec event = record := by
  unfold StoredEvent.fromEnvelope serializeEvent Storable
  by_cases hstorable : codec.storable event = true
  · by_cases hfits : FitsBigint event.sequence
    · simp only [hstorable, hfits, if_true, Except.ok.injEq, true_and]
      rfl
    · simp [hstorable, hfits]
  · simp [hstorable]

theorem mapM_fromEnvelope_ok_iff {incoming : List StoredEvent} :
    events.mapM (StoredEvent.fromEnvelope codec) = .ok incoming ↔
      (∀ e ∈ events, Storable codec e) ∧ events.map (recordOf codec) = incoming := by
  rw [mapM_ok_iff]
  simp only [fromEnvelope_ok_iff]
  constructor
  · intro h
    induction h with
    | nil => exact ⟨by simp, rfl⟩
    | cons hhead _ ih =>
      refine ⟨?_, by rw [List.map_cons, hhead.2, ih.2]⟩
      rintro e (_ | ⟨_, he⟩)
      · exact hhead.1
      · exact ih.1 e he
  · rintro ⟨hall, rfl⟩
    induction events with
    | nil => exact .nil
    | cons e events ih =>
      refine .cons ⟨hall e List.mem_cons_self, rfl⟩ (ih fun e' he' => ?_)
      exact hall e' (List.mem_cons_of_mem _ he')

/-- No two events of the batch share a digest: SHA-256 and the canonical texts tell them apart. -/
def CollisionFree (codec : LedgerCodec) (events : List LedgerEvent) : Prop :=
  ∀ e ∈ events, ∀ e' ∈ events, (recordOf codec e).digest = (recordOf codec e').digest → e = e'

theorem CollisionFree.subset (h : CollisionFree codec events')
    (hsub : ∀ e ∈ events, e ∈ events') : CollisionFree codec events :=
  fun e he e' he' => h e (hsub e he) e' (hsub e' he')

end

abbrev recordId (r : StoredEvent) : Uuid := r.eventId

structure Coherent (maps : InitialMaps) (records : List StoredEvent) : Prop where
  applied : ∀ r ∈ records, ∀ d, maps.applied.get? r.eventId = some d → d = r.digest
  skipped : ∀ r ∈ records, maps.applied.get? r.eventId = none →
    ∀ i, maps.unresolved.get? r.eventId = some i → i.digest = r.digest
  repeated : ∀ r ∈ records, ∀ r' ∈ records, maps.applied.get? r.eventId = none →
    r.eventId = r'.eventId → r.digest = r'.digest

theorem Coherent.subset {maps : InitialMaps} {records records' : List StoredEvent}
    (h : Coherent maps records') (hsub : ∀ r ∈ records, r ∈ records') : Coherent maps records :=
  ⟨fun r hr => h.applied r (hsub r hr), fun r hr => h.skipped r (hsub r hr),
    fun r hr r' hr' => h.repeated r (hsub r hr) r' (hsub r' hr')⟩

def freshRecords (maps : InitialMaps) (records : List StoredEvent) : List StoredEvent :=
  records.filter fun r => (maps.applied.get? r.eventId).isNone

theorem mem_freshRecords {maps : InitialMaps} {records : List StoredEvent} {r : StoredEvent} :
    r ∈ freshRecords maps records ↔ r ∈ records ∧ maps.applied.get? r.eventId = none := by
  simp [freshRecords]

def collected (maps : InitialMaps) (records : List StoredEvent) : Deliveries :=
  ⟨(firstsBy recordId (freshRecords maps records)).map fun r => (r.eventId, r.digest),
    firstsBy recordId (freshRecords maps records)⟩

variable {maps : InitialMaps} {records : List StoredEvent}

theorem seen_keys_nodup (maps : InitialMaps) (records : List StoredEvent) :
    (collected maps records).seenIncoming.keys.Nodup := by
  unfold collected Dict.keys
  rw [List.map_map]
  exact nodup_firstsBy _

variable {record : StoredEvent}

variable (h : Coherent maps records) (hnone : maps.applied.get? record.eventId = none)
include h hnone

theorem seen_eq_some {d : Sha256} : (collected maps records).seenIncoming.get? record.eventId = some d ↔
      ∃ r ∈ records, r.eventId = record.eventId ∧ r.digest = d := by
  rw [Dict.get?_eq_some_iff (seen_keys_nodup maps records)]
  unfold collected
  rw [List.mem_map]
  constructor
  · rintro ⟨r, hr, heq⟩
    obtain ⟨hid, hd⟩ := Prod.mk.inj heq
    exact ⟨r, (mem_freshRecords.1 ((firstsBy_sublist _).subset hr)).1, hid, hd⟩
  · rintro ⟨r, hr, hid, rfl⟩
    have hfresh : r ∈ freshRecords maps records := mem_freshRecords.2 ⟨hr, by rwa [hid]⟩
    obtain ⟨r', hr', hid'⟩ := List.mem_map.1
      ((@mem_keys_firstsBy _ _ recordId _ _ r.eventId).2 (List.mem_map_of_mem hfresh))
    obtain ⟨hmem', hnone'⟩ := mem_freshRecords.1 ((firstsBy_sublist _).subset hr')
    refine ⟨r', hr', ?_⟩
    rw [h.repeated r' hmem' r hr hnone' hid', show r'.eventId = r.eventId from hid', hid]

theorem seen_eq_none : (collected maps records).seenIncoming.get? record.eventId = none ↔
      ∀ r ∈ records, r.eventId ≠ record.eventId := by
  constructor
  · intro hseen r hr hid
    rw [(seen_eq_some h hnone).2 ⟨r, hr, hid, rfl⟩] at hseen
    cases hseen
  · intro hall
    cases hseen : (collected maps records).seenIncoming.get? record.eventId with
    | none => rfl
    | some d =>
      obtain ⟨r, hr, hid, -⟩ := (seen_eq_some h hnone).1 hseen
      exact absurd hid (hall r hr)

omit h hnone

/-- The record has the digest under which its event is known. -/
def Agrees (maps : InitialMaps) (records : List StoredEvent) (record : StoredEvent) : Prop :=
  (∀ d, maps.applied.get? record.eventId = some d → d = record.digest) ∧
    (maps.applied.get? record.eventId = none →
      (∀ i, maps.unresolved.get? record.eventId = some i → i.digest = record.digest) ∧
        ∀ r ∈ records, r.eventId = record.eventId → r.digest = record.digest)

theorem coherent_concat_iff (record : StoredEvent) :
    Coherent maps (records ++ [record]) ↔ Coherent maps records ∧ Agrees maps records record := by
  constructor
  · intro h
    have hself : record ∈ records ++ [record] := by simp
    refine ⟨h.subset fun r hr => List.mem_append_left _ hr, h.applied record hself, fun hnone =>
      ⟨h.skipped record hself hnone, fun r hr hid => ?_⟩⟩
    exact (h.repeated record hself r (List.mem_append_left _ hr) hnone hid.symm).symm
  · rintro ⟨h, happlied, hrest⟩
    refine ⟨fun r hr => ?_, fun r hr hnone => ?_, fun r hr r' hr' hnone hid => ?_⟩
    · rcases List.mem_append.1 hr with hr | hr
      · exact h.applied r hr
      · rw [List.mem_singleton.1 hr]
        exact happlied
    · rcases List.mem_append.1 hr with hr | hr
      · exact h.skipped r hr hnone
      · rw [List.mem_singleton.1 hr] at hnone ⊢
        exact (hrest hnone).1
    · rcases List.mem_append.1 hr with hr | hr <;> rcases List.mem_append.1 hr' with hr' | hr'
      · exact h.repeated r hr r' hr' hnone hid
      · rw [List.mem_singleton.1 hr'] at hid ⊢
        exact (hrest (hid ▸ hnone)).2 r hr hid
      · rw [List.mem_singleton.1 hr] at hid hnone ⊢
        exact ((hrest hnone).2 r' hr' hid.symm).symm
      · rw [List.mem_singleton.1 hr, List.mem_singleton.1 hr']

theorem collectFresh_ok_iff (h : Coherent maps records) {record : StoredEvent}
    (happlied : maps.applied.get? record.eventId = none) {acc : Deliveries} :
    (match (collected maps records).seenIncoming.get? record.eventId with
      | some previousDigest =>
        if previousDigest ≠ record.digest then .error (LedgerFailure.conflictingContent record.eventId)
        else .ok (collected maps records)
      | none =>
        .ok ⟨(collected maps records).seenIncoming.set record.eventId record.digest,
          (collected maps records).unique ++ [record]⟩ : Except LedgerFailure Deliveries) = .ok acc ↔
      (∀ r ∈ records, r.eventId = record.eventId → r.digest = record.digest) ∧
        collected maps (records ++ [record]) = acc := by
  have hfresh : freshRecords maps (records ++ [record]) = freshRecords maps records ++ [record] := by
    unfold freshRecords
    rw [List.filter_append, List.filter_cons_of_pos (by simp [happlied]), List.filter_nil]
  have hkeys : record.eventId ∈ (freshRecords maps records).map recordId ↔
      ∃ r ∈ records, r.eventId = record.eventId := by
    rw [List.mem_map]
    constructor
    · rintro ⟨r, hr, hid⟩
      exact ⟨r, (mem_freshRecords.1 hr).1, hid⟩
    · rintro ⟨r, hr, hid⟩
      exact ⟨r, mem_freshRecords.2 ⟨hr, by rwa [hid]⟩, hid⟩
  cases hseen : (collected maps records).seenIncoming.get? record.eventId with
  | some previous =>
    obtain ⟨r, hr, hid, hd⟩ := (seen_eq_some h happlied).1 hseen
    have hcollected : collected maps (records ++ [record]) = collected maps records := by
      unfold collected
      rw [hfresh, firstsBy_concat, if_pos (hkeys.2 ⟨r, hr, hid⟩)]
    have hagree : (∀ r ∈ records, r.eventId = record.eventId → r.digest = record.digest) ↔
        previous = record.digest := by
      constructor
      · intro hall
        rw [← hd, hall r hr hid]
      · intro hp r' hr' hid'
        rw [← hp, ← hd]
        exact h.repeated r' hr' r hr (by rwa [hid']) (hid'.trans hid.symm)
    rw [hcollected, hagree]
    by_cases hp : previous = record.digest <;> simp [hp]
  | none =>
    have hnew := (seen_eq_none h happlied).1 hseen
    have hcollected : collected maps (records ++ [record]) =
        ⟨(collected maps records).seenIncoming.set record.eventId record.digest,
          (collected maps records).unique ++ [record]⟩ := by
      have hset := Dict.set_of_notMem (collected maps records).seenIncoming record.eventId
        record.digest ((Dict.get?_eq_none_iff _ _).1 hseen)
      rw [hset]
      unfold collected
      rw [hfresh, firstsBy_concat, if_neg fun hm => ?_, List.map_append]
      · rfl
      · obtain ⟨r, hr, hid⟩ := hkeys.1 hm
        exact hnew r hr hid
    rw [hcollected, Except.ok.injEq]
    exact ⟨fun hacc => ⟨fun r hr hid => absurd hid (hnew r hr), hacc⟩, (·.2)⟩

variable {acc : Deliveries}

theorem collectRecord_ok_iff (h : Coherent maps records) (record : StoredEvent) :
    collectRecord maps (collected maps records) record = .ok acc ↔
      Agrees maps records record ∧ collected maps (records ++ [record]) = acc := by
  unfold collectRecord Agrees
  cases happlied : maps.applied.get? record.eventId with
  | some previous =>
    have hcollected : collected maps (records ++ [record]) = collected maps records := by
      unfold collected freshRecords
      rw [List.filter_append, List.filter_cons_of_neg (by simp [happlied]), List.filter_nil,
        List.append_nil]
    rw [hcollected]
    by_cases hd : previous = record.digest <;> simp [hd]
  | none =>
    have hrest := @collectFresh_ok_iff _ _ h _ happlied acc
    cases hskipped : maps.unresolved.get? record.eventId with
    | none =>
      refine Iff.trans hrest ?_
      simp
    | some issue =>
      simp only [bind_ok_iff, require_ok_iff, exists_const]
      refine (and_congr_right fun _ => hrest).trans ?_
      simp [and_assoc]

theorem collect_ok_iff : records.foldlM (collectRecord maps) ⟨[], []⟩ = .ok acc ↔
      Coherent maps records ∧ collected maps records = acc := by
  induction records using List.reverseRecOn generalizing acc with
  | nil =>
    have hempty : Coherent maps [] := ⟨by simp, by simp, by simp⟩
    rw [List.foldlM_nil, pure_eq_ok, Except.ok.injEq]
    exact ⟨fun h => ⟨hempty, h⟩, (·.2)⟩
  | append_singleton records record ih =>
    simp only [List.foldlM_append, List.foldlM_cons, List.foldlM_nil, bind_ok_iff, pure_eq_ok,
      Except.ok.injEq, ih, coherent_concat_iff]
    constructor
    · rintro ⟨_, ⟨h, rfl⟩, acc', hstep, rfl⟩
      obtain ⟨hagree, heq⟩ := (collectRecord_ok_iff h record).1 hstep
      exact ⟨⟨h, hagree⟩, heq⟩
    · rintro ⟨⟨h, hagree⟩, heq⟩
      exact ⟨_, ⟨h, rfl⟩, acc, (collectRecord_ok_iff h record).2 ⟨hagree, heq⟩, rfl⟩

end TradingAgent.EventLedger
