import TradingAgent.ExecutionSandbox.ClientRuns
import TradingAgent.ExecutionSandbox.Reconciliation
import TradingAgent.Lib.Collect

/-! What the reconciliation concludes from each kind of evidence. -/

namespace TradingAgent.ExecutionSandbox

open Outcome EventLedger RuntimeRisk

variable {codec : SandboxCodec} {scenario : SandboxScenario codec} {client : SandboxClient}

/-! ## Replays -/

theorem replayUntilFailure_of_ok {state next : OrderState} {events : List OrderEvent}
    (h : events.foldlM (reduceOrder codec.fingerprint) state = .ok next) :
    replayUntilFailure codec state events = (next, false) := by
  induction events generalizing state with
  | nil =>
    obtain rfl := Except.ok.inj h
    rfl
  | cons event events ih =>
    rw [List.foldlM_cons, bind_ok_iff] at h
    obtain ⟨between, hevent, h⟩ := h
    unfold replayUntilFailure
    rw [hevent]
    exact ih h

theorem replayUntilFailure_ok {state : OrderState} {events : List OrderEvent}
    (h : (replayUntilFailure codec state events).2 = false) :
    events.foldlM (reduceOrder codec.fingerprint) state = .ok (replayUntilFailure codec state events).1 := by
  induction events generalizing state with
  | nil => rfl
  | cons event events ih =>
    rw [List.foldlM_cons]
    unfold replayUntilFailure at h ⊢
    cases hevent : reduceOrder codec.fingerprint state event with
    | error e =>
      rw [hevent] at h
      cases h
    | ok next =>
      rw [hevent] at h
      exact ih h

theorem replayUntilFailure_orderId (state : OrderState) (events : List OrderEvent) :
    (replayUntilFailure codec state events).1.orderId = state.orderId := by
  induction events generalizing state with
  | nil => rfl
  | cons event events ih =>
    unfold replayUntilFailure
    cases hevent : reduceOrder codec.fingerprint state event with
    | error e => rfl
    | ok next => exact (ih next).trans (reduceOrder_ok hevent).2.1

/-! ## The queue of the snapshot -/

theorem SandboxSnapshot.known_eq (snapshot : SandboxSnapshot) :
    snapshot.known = snapshot.knownReports.map fun report => (report.reportId, report.event) := by
  refine Dict.ofList_of_nodup ?_
  unfold Dict.keys
  rw [List.map_map]
  exact snapshot.checked.knownIds

variable {report : SandboxKnownReport} {snapshot : SandboxSnapshot}

theorem SandboxSnapshot.known_get?
    (h : report ∈ snapshot.knownReports) : snapshot.known.get? report.reportId = some report.event := by
  refine (Dict.get?_eq_some_iff (Dict.nodup_keys_ofList _)).2 ?_
  rw [show Dict.ofList _ = snapshot.known from rfl, snapshot.known_eq]
  exact List.mem_map.2 ⟨report, h, rfl⟩

structure ReadQueue (codec : SandboxCodec) (client : SandboxClient) (items : List (QueuedReport × ReportEvent)) :
    Prop where
  queue : items.map Prod.fst = sortBy QueuedReport.position client.queuedReports
  read : ∀ item ∈ items, deserializeReport codec item.1.canonicalEvent = some item.2

theorem Consistent.read_queued (h : Consistent scenario client) {item : QueuedReport}
    (hitem : item ∈ client.queuedReports) : ∃ event, deserializeReport codec item.canonicalEvent = some event ∧
      client.snapshot.known.get? item.plan.reportId = some event := by
  obtain ⟨report, hreport, hid, hread⟩ := exists_known h.known (h.retained item hitem)
  refine ⟨report.event, hread, ?_⟩
  rw [show item.plan.reportId = report.reportId from hid.symm]
  exact SandboxSnapshot.known_get? hreport

theorem Consistent.queued (h : Consistent scenario client) : ∃ items, ReadQueue codec client items ∧
    client.snapshot.queued = .ok (items.map fun item => (item.1.plan, item.2)) := by
  obtain ⟨items, hitems, hread⟩ := exists_partners fun item hitem => h.read_queued hitem
  have hpairs : client.snapshot.queuedReports.mapM client.snapshot.queuedPair =
      .ok (items.map fun item => (item.1.plan, item.2)) := by
    rw [h.plans, ← hitems, List.map_map, mapM_ok_iff, List.forall₂_map_left_iff, List.forall₂_map_right_iff]
    refine List.forall₂_same.2 fun item hitem => ?_
    unfold SandboxSnapshot.queuedPair
    dsimp only [Function.comp]
    rw [(hread item hitem).2]
  refine ⟨sortBy (·.1.position) items, ⟨?_, fun item hitem => ?_⟩, ?_⟩
  · rw [← hitems, sortBy_map]
  · exact (hread item ((mem_sortBy _ _ _).1 hitem)).1
  · have hranks : items.Pairwise fun a b => a.1.insertionOrdinal < b.1.insertionOrdinal := by
      have hordinals := h.ordinals
      rw [← hitems] at hordinals
      exact (List.pairwise_map (R := fun a b : QueuedReport => a.insertionOrdinal < b.insertionOrdinal)).1 hordinals
    unfold SandboxSnapshot.queued
    rw [hpairs, ok_bind, List.zipIdx_map, sortBy_map, List.map_map, pure_eq_ok]
    refine congrArg Except.ok ?_
    have hsorted := congrArg (List.map fun item : QueuedReport × ReportEvent => (item.1.plan, item.2))
      (sortBy_zipIdx (fun item : QueuedReport × ReportEvent => item.1.plan.deliverAt) hranks)
    rw [List.map_map] at hsorted
    exact hsorted

namespace ReadQueue

variable {items : List (QueuedReport × ReportEvent)}

variable (h : ReadQueue codec client items)
include h

theorem orderEvents (orderId : Uuid) :
    ((items.map fun item => (item.1.plan, item.2)).filterMap (·.2.payload.order?)).filter
      (fun event => event.orderId = orderId) = eventsFor codec orderId client.pendingTexts := by
  unfold SandboxClient.pendingTexts eventsFor
  rw [← h.queue, List.map_map, List.filterMap_map, List.filterMap_map, List.filter_filterMap]
  refine List.filterMap_congr fun item hitem => ?_
  exact (orderEventOf_of_read (h.read item hitem) orderId).symm

theorem reportIds : (items.map (·.1.plan.reportId)) =
      (sortBy QueuedReport.position client.queuedReports).map (·.plan.reportId) := by
  rw [← h.queue, List.map_map]
  rfl

theorem reportIds_nodup (hclient : Consistent scenario client) : (items.map (·.1.plan.reportId)).Nodup := by
  rw [h.reportIds]
  exact ((sortBy_perm _ _).map _).nodup_iff.2 hclient.queued_nodup

end ReadQueue

/-! ## Events of the inventory -/

def originalEvents (plans : List SandboxReportPlan) : List ReportEvent :=
  plans.filterMap fun plan => match plan.source with
    | .original event => some event
    | .duplicateOf _ => none

variable {plans : List SandboxReportPlan}

theorem mem_originalEvents {event : ReportEvent} :
    event ∈ originalEvents plans ↔ ∃ plan ∈ plans, plan.source = .original event := by
  unfold originalEvents
  rw [List.mem_filterMap]
  refine exists_congr fun plan => and_congr_right fun _ => ?_
  cases plan.source <;> simp

theorem inventory_events (hround : codec.RoundTrips) {inventory : CanonicalInventory}
    (h : plans.foldlM (inventoryReport codec) ⟨[], []⟩ = .ok inventory) :
    ((originalEvents plans).map (·.eventId)).Nodup ∧
      ∀ event ∈ originalEvents plans, event.eventId ∈ inventory.byEventId.keys := by
  induction plans using List.reverseRecOn generalizing inventory with
  | nil => exact ⟨.nil, by simp [originalEvents]⟩
  | append_singleton plans plan ih =>
    rw [foldlM_concat, bind_ok_iff] at h
    obtain ⟨before, hbefore, h⟩ := h
    obtain ⟨hnodup, hkeys⟩ := ih hbefore
    have happend : originalEvents (plans ++ [plan]) = originalEvents plans ++ originalEvents [plan] :=
      List.filterMap_append
    rw [happend]
    unfold inventoryReport at h
    split at h
    · rename_i original hsource
      have hplan : originalEvents [plan] = [original] := by
        unfold originalEvents
        rw [List.filterMap_cons_some (by rw [hsource]), List.filterMap_nil]
      split at h
      · cases h
      · rename_i text htext
        simp only [bind_ok_iff, readReport_ok_iff] at h
        obtain ⟨event, hread, h⟩ := h
        obtain rfl := Option.some.inj (hread.symm.trans (deserializeReport_of_serialize hround htext))
        split at h
        · simp only [bind_ok_iff, throw_eq_error, reduceCtorEq, and_false, exists_false] at h
        · rename_i hnew
          obtain rfl := Except.ok.inj h
          rw [Dict.get?_eq_none_iff] at hnew
          rw [hplan]
          refine ⟨?_, fun other hother => ?_⟩
          · rw [List.map_append, List.map_singleton]
            refine List.nodup_append.2 ⟨hnodup, List.nodup_singleton _, fun a ha b hb => ?_⟩
            obtain ⟨other, hother, rfl⟩ := List.mem_map.1 ha
            rw [List.mem_singleton.1 hb]
            exact fun heq => hnew (heq ▸ hkeys other hother)
          · rw [Dict.mem_keys_set]
            rcases List.mem_append.1 hother with hother | hother
            · exact .inr (hkeys other hother)
            · exact .inl (by rw [List.mem_singleton.1 hother])
    · rename_i reportId hsource
      have hplan : originalEvents [plan] = [] := by
        unfold originalEvents
        rw [List.filterMap_cons_none (by rw [hsource]), List.filterMap_nil]
      rw [hplan, List.append_nil]
      split at h
      · cases h
      · obtain rfl := Except.ok.inj h
        exact ⟨hnodup, hkeys⟩

theorem Consistent.known_original (h : Consistent scenario client) (hround : codec.RoundTrips)
    (hreport : report ∈ client.snapshot.knownReports) : report.event ∈ originalEvents scenario.reportPlans := by
  obtain ⟨item, hitem, hknown⟩ := exists_mem_left (mapM_ok_iff.1 h.known) hreport
  obtain ⟨plan, hplan, event, hsource, htext⟩ := h.scripted item hitem
  obtain heq := Option.some.inj ((known_ok_iff.1 hknown).2.symm.trans (deserializeReport_of_serialize hround htext))
  exact mem_originalEvents.2 ⟨plan, hplan, by rw [heq]; exact hsource⟩

theorem Consistent.known_functional (h : Consistent scenario client) (hround : codec.RoundTrips)
    {a b : SandboxKnownReport} (ha : a ∈ client.snapshot.knownReports) (hb : b ∈ client.snapshot.knownReports)
    (hid : a.event.eventId = b.event.eventId) : a.event = b.event := by
  have hretained : client.retainedReports ≠ [] := by
    obtain ⟨item, hitem, -⟩ := exists_mem_left (mapM_ok_iff.1 h.known) ha
    exact List.ne_nil_of_mem hitem
  have hinventory := h.inventory hretained
  unfold validateScenarioReportInventory at hinventory
  simp only [bind_ok_iff] at hinventory
  obtain ⟨inventory, hfold, -⟩ := hinventory
  exact List.inj_on_of_nodup_map (inventory_events hround hfold).1 (h.known_original hround ha)
    (h.known_original hround hb) hid

theorem Consistent.known_text (h : Consistent scenario client)
    (hreport : report ∈ client.snapshot.knownReports) : ∃ text, serializeReport codec report.event = some text := by
  obtain ⟨item, -, hknown⟩ := exists_mem_left (mapM_ok_iff.1 h.known) hreport
  exact ⟨_, deserializeReport_serialize (known_ok_iff.1 hknown).2⟩

/-! ## Texts and observed events -/

theorem knownEventText_collects : Dict.Collects (knownEventText codec) (·.event.eventId)
    (fun report => serializeReport codec report.event) (fun _ => True)
    (fun text report => text = serializeReport codec report.event) := by
  intro texts report texts'
  unfold knownEventText
  simp only [bind_ok_iff, require_ok_iff, exists_const, pure_eq_ok, Except.ok.injEq, true_and]
  exact and_congr_right fun _ => eq_comm

theorem observedText_collects : Dict.Collects (observedText codec) (·.eventId)
    (fun report => (serializeReport codec report).getD "") (fun report => (serializeReport codec report).isSome)
    (fun text report => text = (serializeReport codec report).getD "") := by
  intro texts report texts'
  unfold observedText
  dsimp only
  cases serializeReport codec report with
  | none => simp
  | some text =>
    simp only [bind_ok_iff, require_ok_iff, exists_const, pure_eq_ok, Except.ok.injEq, Option.isSome_some,
      Option.getD_some, true_and]
    exact and_congr_right fun _ => eq_comm

theorem observeEvent_collects : Dict.Collects (observeEvent codec) (·.eventId) id
    (fun _ => True) (fun prior report => serializeReport codec prior = serializeReport codec report) := by
  intro observed report observed'
  unfold observeEvent
  simp only [bind_ok_iff, require_ok_iff, exists_const, pure_eq_ok, Except.ok.injEq, true_and]
  exact and_congr_right fun _ => eq_comm

theorem Consistent.deliveredEventTexts (h : Consistent scenario client) (hround : codec.RoundTrips) :
    ∃ texts, client.snapshot.deliveredEventTexts codec = .ok texts ∧
      ∀ eventId text, texts.get? eventId = some text ↔ ∃ report ∈ client.snapshot.deliveredReports,
        report.event.eventId = eventId ∧ serializeReport codec report.event = text := by
  obtain ⟨known, hknown, hfrom⟩ := Dict.foldlM_collects (@knownEventText_collects codec)
    client.snapshot.knownReports (fun _ _ => trivial) fun a ha b hb hid => by
      rw [h.known_functional hround ha hb hid]
  refine ⟨_, by unfold SandboxSnapshot.deliveredEventTexts SandboxSnapshot.knownEventTexts; rw [hknown]; rfl, ?_⟩
  intro eventId text
  have hnodup : Dict.keys (known.filter fun entry => entry.1 ∈
      client.snapshot.deliveredReports.map (·.event.eventId)) |>.Nodup :=
    (List.filter_sublist.map Prod.fst).nodup hfrom.nodup
  rw [Dict.get?_eq_some_iff hnodup, List.mem_filter, decide_eq_true_eq, List.mem_map,
    ← Dict.get?_eq_some_iff hfrom.nodup]
  constructor
  · rintro ⟨htext, report, hreport, hid⟩
    refine ⟨report, hreport, hid, ?_⟩
    have hget := Dict.get?_of_foldlM knownEventText_collects hknown (List.mem_filter.1 hreport).1
    rw [hid] at hget
    exact Option.some.inj (hget.symm.trans htext)
  · rintro ⟨report, hreport, rfl, rfl⟩
    exact ⟨Dict.get?_of_foldlM knownEventText_collects hknown (List.mem_filter.1 hreport).1, report, hreport, rfl⟩

theorem SandboxReconciliationRequest.functional (request : SandboxReconciliationRequest codec)
    (hround : codec.RoundTrips) {a b : ReportEvent} (ha : a ∈ request.observedReports)
    (hb : b ∈ request.observedReports) (hid : a.eventId = b.eventId) : a = b := by
  obtain ⟨texts, htexts⟩ := isOk_iff.1 request.valid
  have hadmits := Dict.admits_of_foldlM observedText_collects htexts
  obtain ⟨text, htext⟩ := Option.isSome_iff_exists.1 (hadmits a ha)
  obtain ⟨text', htext'⟩ := Option.isSome_iff_exists.1 (hadmits b hb)
  have hget := Dict.get?_of_foldlM observedText_collects htexts ha
  have hget' := Dict.get?_of_foldlM observedText_collects htexts hb
  rw [hid, hget'] at hget
  simp only [htext, htext', Option.getD_some, Option.some.injEq] at hget
  rw [hget] at htext'
  exact serializeReport_inj hround htext htext'

theorem SandboxReconciliationRequest.observed (request : SandboxReconciliationRequest codec)
    (hround : codec.RoundTrips) : ∃ observed, observedByEventId codec request.observedReports = .ok observed ∧
      observed.keys.Nodup ∧ ∀ eventId event, observed.get? eventId = some event ↔
        event ∈ request.observedReports ∧ event.eventId = eventId := by
  obtain ⟨observed, hobserved, hfrom⟩ := Dict.foldlM_collects (@observeEvent_collects codec)
    request.observedReports (fun _ _ => trivial) fun a ha b hb hid => by
      rw [id, request.functional hround ha hb hid]
  refine ⟨observed, hobserved, hfrom.nodup, fun eventId event => ⟨fun hget => ?_, ?_⟩⟩
  · obtain ⟨report, hreport, hid, rfl⟩ := hfrom.entries eventId event hget
    exact ⟨hreport, hid⟩
  · rintro ⟨hmem, rfl⟩
    have hkey := (hfrom.keys event.eventId).2 (List.mem_map.2 ⟨event, hmem, rfl⟩)
    obtain ⟨other, hother⟩ := Option.isSome_iff_exists.1 ((Dict.mem_keys_iff _ _).1 hkey)
    obtain ⟨report, hreport, hid, rfl⟩ := hfrom.entries _ _ hother
    rw [hother, id, request.functional hround hreport hmem hid]

/-! ## Attribution -/

def Unattributed (orderIds : List Uuid) (texts : Dict Uuid (Option String)) (item : Uuid × ReportEvent) : Prop :=
  item.2.payload.orderId ∉ orderIds ∨ item.1 ∉ texts.keys

def Altered (codec : SandboxCodec) (texts : Dict Uuid (Option String)) (item : Uuid × ReportEvent) : Prop :=
  item.2.payload.order?.isSome ∧ texts.get? item.1 ≠ some (serializeReport codec item.2)

instance (orderIds : List Uuid) (texts : Dict Uuid (Option String)) (item : Uuid × ReportEvent) :
    Decidable (Unattributed orderIds texts item) := inferInstanceAs (Decidable (_ ∨ _))

instance (texts : Dict Uuid (Option String)) (item : Uuid × ReportEvent) :
    Decidable (Altered codec texts item) := inferInstanceAs (Decidable (_ ∧ _))

structure Attributed (codec : SandboxCodec) (orderIds : List Uuid) (texts : Dict Uuid (Option String))
    (items : List (Uuid × ReportEvent)) (acc : Attribution) : Prop where
  eventIds : acc.unattributedEventIds = (items.filter fun item => Unattributed orderIds texts item).map Prod.fst
  reasons : acc.unattributedReasons = [] ↔ acc.unattributedEventIds = []
  evidence : ∀ orderId, (acc.orderEvidence.get? orderId).getD [] = [] ↔
    ∀ item ∈ items, ¬ Unattributed orderIds texts item → Altered codec texts item → item.2.payload.orderId ≠ orderId
  usable : acc.usable = items.filter fun item => ¬ Unattributed orderIds texts item ∧ ¬ Altered codec texts item

variable {orderIds : List Uuid} {texts : Dict Uuid (Option String)} {fills : Uuid → List SandboxReconciliationReason}

theorem attributed_nil : Attributed codec orderIds texts [] ⟨[], [], [], []⟩ :=
  ⟨rfl, by simp, by simp, rfl⟩

theorem attributeReport_unattributed {acc : Attribution} {item : Uuid × ReportEvent}
    (h : Unattributed orderIds texts item) : ∃ reason reasons, attributeReport codec orderIds texts fills acc item =
      { acc with
        unattributedEventIds := acc.unattributedEventIds ++ [item.1]
        unattributedReasons := acc.unattributedReasons ++ reason :: reasons } := by
  unfold attributeReport
  by_cases horder : item.2.payload.orderId ∉ orderIds
  · rw [if_pos horder]
    exact ⟨.unknownOrderReport, fills item.2.payload.orderId, by simp⟩
  · rw [if_neg horder, if_pos (h.resolve_left horder)]
    exact ⟨.unexpectedObservedReport, [], rfl⟩

variable {acc : Attribution} {item : Uuid × ReportEvent}

theorem attributeReport_altered (h : ¬ Unattributed orderIds texts item) (haltered : Altered codec texts item) :
    attributeReport codec orderIds texts fills acc item =
      { acc with
        orderEvidence := acc.orderEvidence.set item.2.payload.orderId
          ((acc.orderEvidence.get? item.2.payload.orderId).getD [] ++ [.unexpectedObservedReport]) } := by
  obtain ⟨horder, htext⟩ := not_or.1 h
  unfold attributeReport
  rw [if_neg horder, if_neg htext]
  exact if_pos haltered

theorem attributeReport_usable (h : ¬ Unattributed orderIds texts item) (haltered : ¬ Altered codec texts item) :
    attributeReport codec orderIds texts fills acc item = { acc with usable := acc.usable.set item.1 item.2 } := by
  obtain ⟨horder, htext⟩ := not_or.1 h
  unfold attributeReport
  rw [if_neg horder, if_neg htext]
  exact if_neg haltered

theorem Attributed.concat {items : List (Uuid × ReportEvent)}
    (h : Attributed codec orderIds texts items acc) (hnew : item.1 ∉ items.map Prod.fst) :
    Attributed codec orderIds texts (items ++ [item]) (attributeReport codec orderIds texts fills acc item) := by
  have hall : ∀ p : Uuid × ReportEvent → Prop, (∀ other ∈ items ++ [item], p other) ↔
      (∀ other ∈ items, p other) ∧ p item := by
    intro p
    simp [or_imp, forall_and]
  by_cases hunattributed : Unattributed orderIds texts item
  · obtain ⟨reason, reasons, heq⟩ := @attributeReport_unattributed codec _ _ fills acc _ hunattributed
    rw [heq]
    refine ⟨?_, ?_, fun orderId => ?_, ?_⟩
    · rw [List.filter_append, List.map_append, h.eventIds, List.filter_cons_of_pos (by simpa using hunattributed)]
      rfl
    · simp
    · rw [hall, h.evidence orderId]
      exact (and_iff_left fun hnot => absurd hunattributed hnot).symm
    · rw [List.filter_append, h.usable, List.filter_cons_of_neg (by simp [hunattributed]), List.filter_nil,
        List.append_nil]
  · have hids : (items ++ [item]).filter (fun item => Unattributed orderIds texts item) =
        items.filter fun item => Unattributed orderIds texts item := by
      rw [List.filter_append, List.filter_cons_of_neg (by simpa using hunattributed), List.filter_nil,
        List.append_nil]
    by_cases haltered : Altered codec texts item
    · rw [attributeReport_altered hunattributed haltered]
      refine ⟨?_, h.reasons, fun orderId => ?_, ?_⟩
      · rw [hids]
        exact h.eventIds
      · rw [hall, Dict.get?_set, ← h.evidence orderId]
        by_cases hid : item.2.payload.orderId = orderId
        · rw [if_pos hid]
          simp [hunattributed, haltered, hid]
        · rw [if_neg hid]
          exact (and_iff_left fun _ _ => hid).symm
      · rw [List.filter_append, List.filter_cons_of_neg (by simp [haltered]), List.filter_nil, List.append_nil]
        exact h.usable
    · rw [attributeReport_usable hunattributed haltered]
      refine ⟨?_, h.reasons, fun orderId => ?_, ?_⟩
      · rw [hids]
        exact h.eventIds
      · rw [hall, h.evidence orderId]
        exact (and_iff_left fun _ hnot => absurd hnot haltered).symm
      · have hfresh : item.1 ∉ acc.usable.keys := by
          rw [h.usable]
          exact fun hmem => hnew ((List.filter_sublist.map Prod.fst).subset hmem)
        rw [List.filter_append, List.filter_cons_of_pos (by simp [hunattributed, haltered]), List.filter_nil,
          Dict.set_of_notMem _ _ _ hfresh, h.usable]

theorem attributed (items : List (Uuid × ReportEvent)) (h : (items.map Prod.fst).Nodup) :
    Attributed codec orderIds texts items
      (items.foldl (attributeReport codec orderIds texts fills) ⟨[], [], [], []⟩) := by
  induction items using List.reverseRecOn with
  | nil => exact attributed_nil
  | append_singleton items item ih =>
    rw [List.map_append, List.nodup_append] at h
    rw [List.foldl_append]
    refine (ih h.1).concat fun hmem => ?_
    exact h.2.2 _ hmem _ (List.mem_singleton_self _) rfl

/-! ## Findings of an order -/

theorem orderedReasons_eq_nil {reasons : List SandboxReconciliationReason} :
    orderedReasons reasons = [] ↔ reasons = [] := by
  unfold orderedReasons
  rw [List.filter_eq_nil_iff]
  constructor
  · intro h
    refine List.eq_nil_iff_forall_not_mem.2 fun reason hreason => ?_
    exact h reason (by cases reason <;> decide) (decide_eq_true hreason)
  · rintro rfl
    simp

theorem validateReasonCodes_ordered (fieldName : String) (reasons : List SandboxReconciliationReason) :
    validateReasonCodes fieldName (orderedReasons reasons) = .ok () := by
  have hnodup : reconciliationReasons.Nodup := by decide
  have hsorted : reconciliationReasons.Pairwise fun a b => a.order ≤ b.order := by decide
  unfold validateReasonCodes
  simp only [bind_ok_iff, require_ok_iff, exists_const]
  exact ⟨hnodup.filter _, hsorted.filter _⟩

theorem replayOrderEvents_orderId (orderId : Uuid) (events : List OrderEvent) :
    (replayOrderEvents codec orderId events).1.orderId = orderId :=
  replayUntilFailure_orderId _ _

theorem orderFindings_build {queued : List (SandboxReportPlan × ReportEvent)}
    (hqueued : (queued.map (·.1.reportId)).Nodup) (attribution : Attribution)
    (order : SandboxOrderSnapshot) : ∃ result : SandboxOrderReconciliation,
      (orderFindings codec snapshot queued fills attribution order).build = .ok result ∧
        result.toOrderReconciliationFields = orderFindings codec snapshot queued fills attribution order := by
  have hvalid : (orderFindings codec snapshot queued fills attribution order).validate = .ok () := by
    have hknown : snapshot.known.keys.Nodup := Dict.nodup_keys_ofList _
    unfold OrderReconciliationFields.validate orderFindings
    simp only [bind_ok_iff, require_ok_iff, exists_const]
    refine ⟨⟨replayOrderEvents_orderId _ _, ?_⟩, ?_, ?_, ?_, validateReasonCodes_ordered _ _⟩
    · exact (replayUntilFailure_orderId _ _).trans (replayOrderEvents_orderId _ _)
    · exact (List.filter_sublist.map _).nodup hknown
    · exact (List.filter_sublist.map _).nodup hqueued
    · rintro reportId hobserved hpending
      obtain ⟨entry, hentry, rfl⟩ := List.mem_map.1 hobserved
      refine (of_decide_eq_true (List.mem_filter.1 hentry).2).1 ?_
      exact (List.filter_sublist.map _).subset hpending
  exact ⟨⟨_, hvalid⟩, validated_of _ hvalid, rfl⟩

/-- An order without a finding: nothing of it was altered, its fills agree and both replays lead to its states. -/
theorem orderFindings_reasonCodes {snapshot : SandboxSnapshot} {queued : List (SandboxReportPlan × ReportEvent)}
    {attribution : Attribution} {order : SandboxOrderSnapshot} {events pending : List OrderEvent}
    (hevents : (attribution.usable.values.filterMap (·.payload.order?)).filter
      (fun event => event.orderId = order.orderId) = events) (hpending : (queued.filterMap (·.2.payload.order?)).filter
      (fun event => event.orderId = order.orderId) = pending) :
    (orderFindings codec snapshot queued fills attribution order).reasonCodes = [] ↔
      (attribution.orderEvidence.get? order.orderId).getD [] = [] ∧ fills order.orderId = [] ∧
        (sortBy (fun event : OrderEvent => event.sequence) events).foldlM (reduceOrder codec.fingerprint)
          (.initial order.orderId) = .ok order.observedState ∧
        pending.foldlM (reduceOrder codec.fingerprint) order.observedState = .ok order.venueState := by
  unfold orderFindings
  dsimp only
  rw [orderedReasons_eq_nil, hevents, hpending]
  simp only [List.append_eq_nil_iff]
  unfold replayOrderEvents
  generalize hreplay : replayUntilFailure codec (.initial order.orderId)
    (sortBy (fun event : OrderEvent => event.sequence) events) = replay
  obtain ⟨state, failed⟩ := replay
  constructor
  · rintro ⟨⟨⟨⟨hfailed, hevidence⟩, hfills⟩, hobserved⟩, hvenue⟩
    dsimp only at hfailed hobserved hvenue
    have hok : failed = false := by simpa using hfailed
    subst hok
    have hstate : state = order.observedState := by simpa using hobserved
    have hfirst := @replayUntilFailure_ok codec _ _ (congrArg Prod.snd hreplay)
    rw [hreplay] at hfirst
    subst hstate
    refine ⟨hevidence, hfills, hfirst, ?_⟩
    split_ifs at hvenue with hfailed' hsame
    have hsecond := replayUntilFailure_ok (by simpa using hfailed')
    rw [show (replayUntilFailure codec order.observedState pending).1 = order.venueState from not_not.1 hsame]
      at hsecond
    exact hsecond
  · rintro ⟨hevidence, hfills, hfirst, hsecond⟩
    obtain ⟨rfl, rfl⟩ := Prod.mk.inj (hreplay.symm.trans (replayUntilFailure_of_ok hfirst))
    rw [replayUntilFailure_of_ok hsecond]
    simp [hevidence, hfills]

end TradingAgent.ExecutionSandbox
