import TradingAgent.ExecutionSandbox.Evidence

/-! The reconciliation of a client finds nothing when its evidence is complete. -/

namespace TradingAgent.ExecutionSandbox

open Outcome EventLedger RuntimeRisk

variable {codec : SandboxCodec} {scenario : SandboxScenario codec} {client : SandboxClient}

/-- The observed reports are delivered, and another one carries the observation of each one that is missing. -/
def Accounted (snapshot : SandboxSnapshot) (observed : List ReportEvent) : Prop :=
  (∀ event ∈ observed, ∃ report ∈ snapshot.deliveredReports, report.event = event) ∧
    ∀ report ∈ snapshot.deliveredReports, report.event ∈ observed ∨
      ∃ payload, report.event.payload = .order payload ∧ ∃ event ∈ observed, event.payload = .order payload

def FillsAgree (snapshot : SandboxSnapshot) (observed : List ReportEvent) (orderId : Uuid) : Prop :=
  (∀ event ∈ observed, event.payload.orderId = orderId → event.payload.fill?.isSome →
      ∃ report ∈ snapshot.deliveredReports, report.event = event) ∧
    ∀ report ∈ snapshot.deliveredReports, report.event.payload.orderId = orderId →
      report.event.payload.fill?.isSome → report.event ∈ observed

structure Comparison (codec : SandboxCodec) (client : SandboxClient) (reports : List ReportEvent) where
  items : List (QueuedReport × ReportEvent)
  queue : ReadQueue codec client items
  texts : Dict Uuid (Option String)
  delivered : ∀ eventId text, texts.get? eventId = some text ↔ ∃ report ∈ client.snapshot.deliveredReports,
    report.event.eventId = eventId ∧ serializeReport codec report.event = text
  observed : Dict Uuid ReportEvent
  distinct : observed.keys.Nodup
  mem_observed : ∀ eventId event, observed.get? eventId = some event ↔ event ∈ reports ∧ event.eventId = eventId

namespace Comparison

variable {reports : List ReportEvent} (c : Comparison codec client reports)

def queued : List (SandboxReportPlan × ReportEvent) := c.items.map fun item => (item.1.plan, item.2)

def sorted : List (Uuid × ReportEvent) := sortBy (fun item => item.1) c.observed

def fills (c : Comparison codec client reports) : Uuid → List SandboxReconciliationReason :=
  fillReasons codec client.snapshot c.observed

/-- What the loop over the observed reports collects. -/
def attribution : Attribution :=
  c.sorted.foldl (attributeReport codec (client.snapshot.orders.map fun order => order.orderId) c.texts c.fills)
    ⟨[], [], [], []⟩

def findings (order : SandboxOrderSnapshot) : OrderReconciliationFields :=
  orderFindings codec client.snapshot c.queued c.fills c.attribution order

def HasFindings : Prop :=
  (∃ order ∈ client.snapshot.orders, (c.findings order).reasonCodes ≠ []) ∨ c.attribution.unattributedEventIds ≠ []

end Comparison

namespace Comparison

variable {reports : List ReportEvent} (c : Comparison codec client reports)

theorem mem_sorted {item : Uuid × ReportEvent} : item ∈ c.sorted ↔ item.2 ∈ reports ∧ item.2.eventId = item.1 := by
  unfold sorted
  rw [mem_sortBy, ← c.mem_observed, Dict.get?_eq_some_iff c.distinct]

theorem sorted_nodup : (c.sorted.map Prod.fst).Nodup :=
  ((sortBy_perm _ _).map _).nodup_iff.2 c.distinct

theorem attributed : Attributed codec (client.snapshot.orders.map (·.orderId)) c.texts c.sorted c.attribution :=
  ExecutionSandbox.attributed _ c.sorted_nodup

theorem queuedIds : (c.queued.map (·.1.reportId)) = c.items.map (·.1.plan.reportId) := by
  unfold queued
  rw [List.map_map]
  rfl

theorem unattributedEventIds : c.attribution.unattributedEventIds.Nodup ∧
    c.attribution.unattributedEventIds.Pairwise (· ≤ ·) := by
  rw [c.attributed.eventIds]
  have hsorted : (c.sorted.map Prod.fst).Pairwise (· ≤ ·) := List.pairwise_map.2 (sortBy_pairwise_le _ _)
  exact ⟨(List.filter_sublist.map _).nodup c.sorted_nodup, hsorted.sublist (List.filter_sublist.map _)⟩

end Comparison

theorem reconcileExecutionState_ok (h : Consistent scenario client) (hround : codec.RoundTrips)
    {request : SandboxReconciliationRequest codec} (hsnapshot : request.snapshot = client.snapshot) :
    ∃ (c : Comparison codec client request.observedReports) (result : SandboxReconciliationResult),
      reconcileExecutionState codec request = .ok result ∧
        (result.orders.map (·.toOrderReconciliationFields)) =
          sortBy (·.orderId) (client.snapshot.orders.map c.findings) ∧
        result.snapshotTime = client.snapshot.currentTime ∧
        result.pendingReportIds = (c.items.map (·.1.plan.reportId)) ∧
        (c.HasFindings → result.status = .mismatch) ∧
        (¬ c.HasFindings → result.status =
          if client.queuedReports = [] then .reconciled else .deliveryPending) := by
  obtain ⟨items, hitems, hqueued⟩ := h.queued
  obtain ⟨texts, htexts, hdelivered⟩ := h.deliveredEventTexts hround
  obtain ⟨observed, hobserved, hdistinct, hmem⟩ := request.observed hround
  let c : Comparison codec client request.observedReports :=
    ⟨items, hitems, texts, hdelivered, observed, hdistinct, hmem⟩
  have hids : (c.queued.map (·.1.reportId)).Nodup := by
    rw [c.queuedIds]
    exact hitems.reportIds_nodup h
  have hbuilt : ∃ orders : List SandboxOrderReconciliation,
      client.snapshot.orders.mapM (fun order => (c.findings order).build) = .ok orders ∧
        (orders.map (·.toOrderReconciliationFields)) = client.snapshot.orders.map c.findings :=
    mapM_ok_of fun order _ => orderFindings_build hids c.attribution order
  obtain ⟨orders, hresults, hfields⟩ := hbuilt
  have hfound : (∃ order ∈ orders, order.reasonCodes ≠ []) ↔
      ∃ order ∈ client.snapshot.orders, (c.findings order).reasonCodes ≠ [] := by
    have hmap := congrArg (fun found => ∃ f ∈ found, f.reasonCodes ≠ []) hfields
    simpa using hmap
  have hpending : (c.queued.map (·.1.reportId)) = [] ↔ client.queuedReports = [] := by
    rw [c.queuedIds, List.map_eq_nil_iff, ← List.map_eq_nil_iff, hitems.queue]
    exact ⟨fun hnil => (hnil ▸ (sortBy_perm _ _).symm).eq_nil, fun hnil => by rw [hnil]; rfl⟩
  let fields : ReconciliationFields :=
    { status := statusOf (decide (∃ order ∈ orders, order.reasonCodes ≠ []) ||
        decide (c.attribution.unattributedEventIds ≠ [])) (c.queued.map (·.1.reportId))
      snapshotTime := client.snapshot.currentTime
      orders := sortBy (·.orderId) orders
      pendingReportIds := c.queued.map (·.1.reportId)
      unattributedEventIds := c.attribution.unattributedEventIds
      unattributedReasonCodes := orderedReasons c.attribution.unattributedReasons }
  have hvalid : fields.validate = .ok () := by
    unfold ReconciliationFields.validate
    simp only [bind_ok_iff, require_ok_iff, exists_const]
    refine ⟨?_, hids, c.unattributedEventIds.1, c.unattributedEventIds.2, (), validateReasonCodes_ordered _ _, ?_⟩
    · have hsnapshotIds := congrArg (List.map fun order : OrderReconciliationFields => order.orderId) hfields
      rw [List.map_map, List.map_map] at hsnapshotIds
      refine ((sortBy_perm _ orders).map _).nodup_iff.2 ?_
      rw [show (orders.map (·.orderId)) = client.snapshot.orders.map fun order => order.orderId from
        hsnapshotIds]
      exact client.snapshot.checked.orderIds
    · have hreasons : orderedReasons c.attribution.unattributedReasons = [] ↔
          c.attribution.unattributedEventIds = [] := orderedReasons_eq_nil.trans c.attributed.reasons
      refine congrArg (statusOf · _) ?_
      rw [Bool.eq_iff_iff]
      simp [fields, hreasons]
  refine ⟨c, ⟨fields, hvalid, sortBy_pairwise_le _ _⟩, ?_, ?_, rfl, c.queuedIds, fun hfindings => ?_,
    fun hfindings => ?_⟩
  · unfold reconcileExecutionState
    rw [hsnapshot]
    dsimp only
    rw [hqueued, ok_bind, htexts, ok_bind, hobserved, ok_bind]
    show (client.snapshot.orders.mapM (fun order => (c.findings order).build) >>= _) = _
    rw [hresults, ok_bind]
    exact validated_of _ hvalid
  · exact (sortBy_map _ _).symm.trans (congrArg _ hfields)
  · refine if_pos ?_
    rw [Bool.or_eq_true, decide_eq_true_eq, decide_eq_true_eq, hfound]
    exact hfindings
  · refine (if_neg ?_).trans ?_
    · rw [Bool.or_eq_true, decide_eq_true_eq, decide_eq_true_eq, hfound]
      exact hfindings
    · exact if_congr hpending rfl rfl

variable {orderId : Uuid} {payload : OrderEvent}

theorem Consistent.mem_delivered (h : Consistent scenario client) :
    payload ∈ eventsFor codec orderId client.deliveredTexts ↔
      ∃ report ∈ client.snapshot.deliveredReports, report.event.payload = .order payload ∧
        payload.orderId = orderId := by
  have hqueued : (client.snapshot.queuedReports.map (·.reportId)) =
      client.queuedReports.map (·.plan.reportId) := by
    rw [h.plans, List.map_map]
    rfl
  rw [mem_eventsFor]
  unfold SandboxClient.deliveredTexts SandboxSnapshot.deliveredReports
  rw [hqueued]
  constructor
  · rintro ⟨text, htext, hevent⟩
    obtain ⟨item, hitem, rfl⟩ := List.mem_map.1 htext
    obtain ⟨hretained, hleft⟩ := List.mem_filter.1 hitem
    obtain ⟨report, hreport, hid, hread⟩ := exists_known h.known hretained
    obtain ⟨⟨event, hread', hpayload⟩, horder⟩ := orderEventOf_eq_some.1 hevent
    obtain rfl := Option.some.inj (hread.symm.trans hread')
    exact ⟨report, List.mem_filter.2 ⟨hreport, by rw [hid]; exact hleft⟩, hpayload, horder⟩
  · rintro ⟨report, hreport, hpayload, horder⟩
    obtain ⟨hknown, hleft⟩ := List.mem_filter.1 hreport
    obtain ⟨item, hitem, hread⟩ := exists_mem_left (mapM_ok_iff.1 h.known) hknown
    obtain ⟨hid, hread⟩ := known_ok_iff.1 hread
    refine ⟨item.canonicalEvent, List.mem_map.2 ⟨item, List.mem_filter.2 ⟨hitem, ?_⟩, rfl⟩, ?_⟩
    · rw [← hid]
      exact hleft
    · exact orderEventOf_eq_some.2 ⟨⟨report.event, hread, hpayload⟩, horder⟩

theorem foldlM_reduceOrder_subset {fingerprint : OrderEventMaterial → Sha256} {events : List OrderEvent}
    {state next : OrderState} (h : events.foldlM (reduceOrder fingerprint) state = .ok next) {event : OrderEvent}
    (hevent : event ∈ next.appliedEvents) : event ∈ state.appliedEvents ∨ event ∈ events := by
  induction events generalizing state with
  | nil =>
    obtain rfl := Except.ok.inj h
    exact .inl hevent
  | cons first events ih =>
    rw [List.foldlM_cons, bind_ok_iff] at h
    obtain ⟨between, hfirst, h⟩ := h
    rcases ih h with hbetween | hrest
    · obtain ⟨-, -, ⟨-, -, -, -, rfl⟩ | ⟨-, happlied⟩⟩ := reduceOrder_ok hfirst
      · exact .inl hbetween
      · rw [happlied, List.mem_append, List.mem_singleton] at hbetween
        rcases hbetween with hbefore | rfl
        · exact .inl hbefore
        · exact .inr List.mem_cons_self
    · exact .inr (List.mem_cons_of_mem _ hrest)

namespace Comparison

variable {reports : List ReportEvent} (c : Comparison codec client reports)

theorem mem_texts {eventId : Uuid} : eventId ∈ c.texts.keys ↔
    ∃ report ∈ client.snapshot.deliveredReports, report.event.eventId = eventId := by
  rw [Dict.mem_keys_iff, Option.isSome_iff_exists]
  constructor
  · rintro ⟨text, htext⟩
    obtain ⟨report, hreport, hid, -⟩ := (c.delivered _ _).1 htext
    exact ⟨report, hreport, hid⟩
  · rintro ⟨report, hreport, hid⟩
    exact ⟨_, (c.delivered _ _).2 ⟨report, hreport, hid, rfl⟩⟩

variable {report : SandboxKnownReport}

theorem exists_order (h : report ∈ client.snapshot.deliveredReports) :
    ∃ order ∈ client.snapshot.orders, order.orderId = report.event.payload.orderId :=
  List.mem_map.1 (client.snapshot.checked.knownOrders report (List.mem_filter.1 h).1)

variable {event : ReportEvent}

theorem eq_of_text (h : Consistent scenario client) (hround : codec.RoundTrips)
    (hreport : report ∈ client.snapshot.deliveredReports)
    (htext : serializeReport codec report.event = serializeReport codec event) : report.event = event := by
  obtain ⟨text, hknown⟩ := h.known_text (List.mem_filter.1 hreport).1
  exact serializeReport_inj hround hknown (htext.symm.trans hknown)

theorem mem_values : event ∈ c.observed.values ↔ event ∈ reports := by
  constructor
  · intro hmem
    obtain ⟨entry, hentry, rfl⟩ := List.mem_map.1 hmem
    exact ((c.mem_observed _ _).1 ((Dict.get?_eq_some_iff c.distinct).2 hentry)).1
  · intro hmem
    exact List.mem_map.2 ⟨_, Dict.mem_of_get?_eq_some ((c.mem_observed _ _).2 ⟨hmem, rfl⟩), rfl⟩

theorem fillObserved_iff (h : Consistent scenario client) (hround : codec.RoundTrips)
    (hreport : report ∈ client.snapshot.deliveredReports) (hfill : report.event.payload.fill?.isSome) :
    FillObserved codec c.observed report.event ↔ report.event ∈ reports := by
  constructor
  · rintro ⟨actual, hactual, -, htext⟩
    rw [eq_of_text h hround hreport htext.symm]
    exact ((c.mem_observed _ _).1 hactual).1
  · intro hmem
    obtain ⟨fill, hfill⟩ := Option.isSome_iff_exists.1 hfill
    exact ⟨report.event, (c.mem_observed _ _).2 ⟨hmem, rfl⟩, ⟨fill, hfill, fill, hfill, rfl, rfl, rfl⟩, rfl⟩

theorem fills_eq_nil (h : Consistent scenario client) (hround : codec.RoundTrips) (orderId : Uuid) :
    c.fills orderId = [] ↔ FillsAgree client.snapshot reports orderId := by
  have hnil : c.fills orderId = [] ↔ orderId ∉ mismatchedFills codec client.snapshot c.observed := by
    unfold fills fillReasons
    split_ifs <;> simp_all
  rw [hnil]
  unfold mismatchedFills
  simp only [List.map_append, List.mem_append, List.mem_map, not_or, not_exists, not_and, List.mem_filter,
    decide_eq_true_eq, c.mem_values]
  refine and_congr (forall_congr' fun event => ?_) ?_
  · constructor
    · intro hexpected hmem hid hfill
      by_contra hnone
      refine hexpected ⟨hmem, hfill, fun other hother heq => hnone ?_⟩ hid
      obtain ⟨⟨report, hreport, rfl⟩, -⟩ := hother
      exact ⟨report, hreport, eq_of_text h hround hreport (Prod.mk.inj heq).2⟩
    · rintro hagree ⟨hmem, hfill, hnone⟩ hid
      obtain ⟨report, hreport, rfl⟩ := hagree hmem hid hfill
      exact hnone report.event ⟨⟨report, hreport, rfl⟩, hfill⟩ rfl
  · constructor
    · intro hmissing report hreport hid hfill
      by_contra hnone
      refine hmissing report.event ⟨⟨⟨report, hreport, rfl⟩, hfill⟩, ?_⟩ hid
      rw [c.fillObserved_iff h hround hreport hfill]
      exact hnone
    · rintro hagree event ⟨⟨⟨report, hreport, rfl⟩, hfill⟩, hnone⟩ hid
      rw [c.fillObserved_iff h hround hreport hfill] at hnone
      exact hnone (hagree report hreport hid hfill)

end Comparison

namespace Comparison

variable {reports : List ReportEvent} (c : Comparison codec client reports)

def orderEvents (orderId : Uuid) : List OrderEvent :=
  (c.attribution.usable.values.filterMap fun event => event.payload.order?).filter
    fun event => event.orderId = orderId

theorem unattributed_iff {event : ReportEvent} :
    Unattributed (client.snapshot.orders.map (·.orderId)) c.texts (event.eventId, event) ↔
      (∀ order ∈ client.snapshot.orders, order.orderId ≠ event.payload.orderId) ∨
        ∀ report ∈ client.snapshot.deliveredReports, report.event.eventId ≠ event.eventId := by
  unfold Unattributed
  rw [c.mem_texts]
  simp

theorem mem_orderEvents :
    payload ∈ c.orderEvents orderId ↔ ∃ event ∈ reports, event.payload = .order payload ∧ payload.orderId = orderId ∧
      ¬ Unattributed (client.snapshot.orders.map (·.orderId)) c.texts (event.eventId, event) ∧
      ¬ Altered codec c.texts (event.eventId, event) := by
  have hpayload : ∀ event : ReportEvent, event.payload.order? = some payload ↔ event.payload = .order payload := by
    intro event
    unfold ReportPayload.order?
    cases event.payload <;> simp
  unfold orderEvents Dict.values
  rw [c.attributed.usable, List.mem_filter, List.mem_filterMap, decide_eq_true_eq]
  constructor
  · rintro ⟨⟨event, hevent, horder⟩, hid⟩
    obtain ⟨item, hitem, rfl⟩ := List.mem_map.1 hevent
    obtain ⟨hmem, hkind⟩ := List.mem_filter.1 hitem
    obtain ⟨hreport, hkey⟩ := c.mem_sorted.1 hmem
    refine ⟨item.2, hreport, (hpayload _).1 horder, hid, ?_⟩
    rw [hkey]
    exact of_decide_eq_true hkind
  · rintro ⟨event, hevent, horder, hid, hkind⟩
    refine ⟨⟨event, List.mem_map.2 ⟨(event.eventId, event), List.mem_filter.2 ⟨?_, decide_eq_true hkind⟩, rfl⟩,
      (hpayload _).2 horder⟩, hid⟩
    exact c.mem_sorted.2 ⟨hevent, rfl⟩

theorem findings_eq_nil (h : Consistent scenario client) (hround : codec.RoundTrips) {order : SandboxOrderSnapshot}
    (horder : order ∈ client.snapshot.orders) : (c.findings order).reasonCodes = [] ↔
      (∀ event ∈ reports, event.payload.orderId = order.orderId →
        ¬ Unattributed (client.snapshot.orders.map (·.orderId)) c.texts (event.eventId, event) →
          ¬ Altered codec c.texts (event.eventId, event)) ∧ FillsAgree client.snapshot reports order.orderId ∧
        (sortBy (fun event : OrderEvent => event.sequence) (c.orderEvents order.orderId)).foldlM
          (reduceOrder codec.fingerprint) (.initial order.orderId) = .ok order.observedState := by
  have hspec := @orderFindings_reasonCodes codec c.fills client.snapshot c.queued c.attribution order _ _ rfl
    (c.queue.orderEvents order.orderId)
  have hevidence : (c.attribution.orderEvidence.get? order.orderId).getD [] = [] ↔
      ∀ event ∈ reports, event.payload.orderId = order.orderId →
        ¬ Unattributed (client.snapshot.orders.map (·.orderId)) c.texts (event.eventId, event) →
          ¬ Altered codec c.texts (event.eventId, event) := by
    rw [c.attributed.evidence]
    constructor
    · intro hnone event hevent hid hattributed haltered
      exact hnone (event.eventId, event) (c.mem_sorted.2 ⟨hevent, rfl⟩) hattributed haltered hid
    · intro hnone item hitem hattributed haltered hid
      obtain ⟨hevent, hkey⟩ := c.mem_sorted.1 hitem
      have hitem : item = (item.2.eventId, item.2) := by rw [hkey]
      rw [hitem] at hattributed haltered
      exact hnone item.2 hevent hid hattributed haltered
  refine hspec.trans ?_
  rw [hevidence, c.fills_eq_nil h hround]
  exact and_congr_right fun _ => and_congr_right fun _ => and_iff_left (h.tracks order horder).venue

end Comparison

namespace Comparison

variable {reports : List ReportEvent} (c : Comparison codec client reports) {event : ReportEvent}

theorem delivered_of_noFindings (h : Consistent scenario client) (hround : codec.RoundTrips)
    (hno : ¬ c.HasFindings) (hevent : event ∈ reports) :
    ∃ report ∈ client.snapshot.deliveredReports, report.event = event := by
  obtain ⟨horders, hids⟩ := not_or.1 hno
  rw [not_not, c.attributed.eventIds, List.map_eq_nil_iff, List.filter_eq_nil_iff] at hids
  have hattributed : ¬ Unattributed (client.snapshot.orders.map (·.orderId)) c.texts
      (event.eventId, event) := by
    simpa using hids (event.eventId, event) (c.mem_sorted.2 ⟨hevent, rfl⟩)
  obtain ⟨horder, -⟩ := not_or.1 hattributed
  obtain ⟨order, horder, hid⟩ := List.mem_map.1 (not_not.1 horder)
  have hnone : (c.findings order).reasonCodes = [] := by
    by_contra hsome
    exact horders ⟨order, horder, hsome⟩
  obtain ⟨hunaltered, hfills, -⟩ := (c.findings_eq_nil h hround horder).1 hnone
  cases hfill : event.payload.fill? with
  | some fill => exact hfills.1 event hevent hid.symm (by rw [hfill]; rfl)
  | none =>
    have hobservation : event.payload.order?.isSome := by
      cases hpayload : event.payload with
      | order payload => rfl
      | fill payload =>
        rw [hpayload] at hfill
        cases hfill
    have htext : c.texts.get? event.eventId = some (serializeReport codec event) := by
      by_contra hother
      exact hunaltered event hevent hid.symm hattributed ⟨hobservation, hother⟩
    obtain ⟨report, hreport, -, htext⟩ := (c.delivered _ _).1 htext
    exact ⟨report, hreport, eq_of_text h hround hreport htext⟩

theorem accounted_of_noFindings (h : Consistent scenario client) (hround : codec.RoundTrips)
    (hno : ¬ c.HasFindings) : Accounted client.snapshot reports := by
  refine ⟨fun event hevent => c.delivered_of_noFindings h hround hno hevent, fun report hreport => ?_⟩
  obtain ⟨order, horder, hid⟩ := exists_order hreport
  have hnone : (c.findings order).reasonCodes = [] := by
    by_contra hsome
    exact hno (.inl ⟨order, horder, hsome⟩)
  obtain ⟨-, hfills, hreplay⟩ := (c.findings_eq_nil h hround horder).1 hnone
  cases hpayload : report.event.payload with
  | fill payload =>
    refine .inl (hfills.2 report hreport hid.symm ?_)
    rw [hpayload]
    rfl
  | order payload =>
    rw [hpayload] at hid
    have happlied : payload ∈ order.observedState.appliedEvents :=
      ((h.tracks order horder).observed payload).2 (h.mem_delivered.2 ⟨report, hreport, hpayload, hid.symm⟩)
    rcases foldlM_reduceOrder_subset hreplay happlied with hinitial | hmem
    · cases hinitial
    · obtain ⟨event, hevent, hsame, -⟩ := c.mem_orderEvents.1 ((mem_sortBy _ _ _).1 hmem)
      exact .inr ⟨payload, rfl, event, hevent, hsame⟩

theorem usable_of_delivered (hevent : ∃ report ∈ client.snapshot.deliveredReports, report.event = event) :
    ¬ Unattributed (client.snapshot.orders.map (·.orderId)) c.texts (event.eventId, event) ∧
      ¬ Altered codec c.texts (event.eventId, event) := by
  obtain ⟨report, hreport, rfl⟩ := hevent
  refine ⟨?_, fun haltered => haltered.2 ((c.delivered _ _).2 ⟨report, hreport, rfl, rfl⟩)⟩
  rw [c.unattributed_iff, not_or]
  constructor
  · intro hnone
    obtain ⟨order, horder, hid⟩ := exists_order hreport
    exact hnone order horder hid
  · intro hnone
    exact hnone report hreport rfl

variable (haccounted : Accounted client.snapshot reports) (h : Consistent scenario client)
include haccounted h

theorem mem_orderEvents_of_accounted :
    payload ∈ c.orderEvents orderId ↔ payload ∈ eventsFor codec orderId client.deliveredTexts := by
  rw [c.mem_orderEvents, h.mem_delivered]
  constructor
  · rintro ⟨event, hevent, hpayload, hid, -⟩
    obtain ⟨report, hreport, rfl⟩ := haccounted.1 event hevent
    exact ⟨report, hreport, hpayload, hid⟩
  · rintro ⟨report, hreport, hpayload, hid⟩
    rcases haccounted.2 report hreport with hmem | ⟨payload', hpayload', event, hevent, hsame⟩
    · exact ⟨report.event, hmem, hpayload, hid, c.usable_of_delivered ⟨report, hreport, rfl⟩⟩
    · obtain rfl := ReportPayload.order.inj (hpayload.symm.trans hpayload')
      exact ⟨event, hevent, hsame, hid, c.usable_of_delivered (haccounted.1 event hevent)⟩

theorem replay_of_accounted {order : SandboxOrderSnapshot} (horder : order ∈ client.snapshot.orders) :
    (sortBy (fun event : OrderEvent => event.sequence) (c.orderEvents order.orderId)).foldlM
      (reduceOrder codec.fingerprint) (.initial order.orderId) = .ok order.observedState := by
  rw [← order.stateIds.2]
  refine foldlM_reduceOrder_history (sortBy_pairwise_le _ _) fun payload => ?_
  rw [mem_sortBy, order.stateIds.2, c.mem_orderEvents_of_accounted haccounted h]
  exact ((h.tracks order horder).observed payload).symm

theorem noFindings_of_accounted (hround : codec.RoundTrips) : ¬ c.HasFindings := by
  rintro (⟨order, horder, hsome⟩ | hids)
  · refine hsome ((c.findings_eq_nil h hround horder).2 ⟨?_, ⟨?_, ?_⟩, c.replay_of_accounted haccounted h horder⟩)
    · exact fun event hevent _ _ => (c.usable_of_delivered (haccounted.1 event hevent)).2
    · exact fun event hevent _ _ => haccounted.1 event hevent
    · intro report hreport _ hfill
      rcases haccounted.2 report hreport with hmem | ⟨payload, hpayload, -⟩
      · exact hmem
      · rw [hpayload] at hfill
        cases hfill
  · refine hids ?_
    rw [c.attributed.eventIds, List.map_eq_nil_iff, List.filter_eq_nil_iff]
    intro item hitem
    obtain ⟨hevent, hkey⟩ := c.mem_sorted.1 hitem
    have hitem : item = (item.2.eventId, item.2) := by rw [hkey]
    rw [hitem, decide_eq_true_eq]
    exact (c.usable_of_delivered (haccounted.1 item.2 hevent)).1

omit haccounted h

theorem hasFindings_iff (h : Consistent scenario client) (hround : codec.RoundTrips) :
    c.HasFindings ↔ ¬ Accounted client.snapshot reports := by
  constructor
  · exact fun hfindings haccounted => c.noFindings_of_accounted haccounted h hround hfindings
  · intro hnot
    by_contra hno
    exact hnot (c.accounted_of_noFindings h hround hno)

end Comparison

theorem Consistent.reconcile (h : Consistent scenario client) (hround : codec.RoundTrips)
    {request : SandboxReconciliationRequest codec} (hsnapshot : request.snapshot = client.snapshot) :
    ∃ result, reconcileExecutionState codec request = .ok result ∧
      (¬ Accounted client.snapshot request.observedReports → result.status = .mismatch) ∧
      (Accounted client.snapshot request.observedReports → result.status =
        if client.queuedReports = [] then .reconciled else .deliveryPending) := by
  obtain ⟨c, result, hresult, -, -, -, hmismatch, hagrees⟩ := reconcileExecutionState_ok h hround hsnapshot
  rw [c.hasFindings_iff h hround] at hmismatch hagrees
  exact ⟨result, hresult, hmismatch, fun haccounted => hagrees (not_not.2 haccounted)⟩

end TradingAgent.ExecutionSandbox
