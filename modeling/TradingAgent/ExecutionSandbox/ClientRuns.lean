import TradingAgent.ExecutionSandbox.ClientSteps
import TradingAgent.RuntimeRisk.AuthorityStore

/-! Reachable states of a client and their invariant. -/

namespace TradingAgent.ExecutionSandbox

open Outcome Interaction EventLedger RuntimeRisk

variable {codec : SandboxCodec}

def SandboxClient.pendingTexts (client : SandboxClient) : List String :=
  (sortBy QueuedReport.position client.queuedReports).map fun item => item.canonicalEvent

def SandboxClient.deliveredTexts (client : SandboxClient) : List String :=
  (client.retainedReports.filter fun item =>
    item.reportId ∉ client.queuedReports.map fun queued => queued.plan.reportId).map fun item => item.canonicalEvent

structure Tracks (codec : SandboxCodec) (client : SandboxClient) (order : SandboxOrderSnapshot) : Prop where
  venue : (eventsFor codec order.orderId client.pendingTexts).foldlM (reduceOrder codec.fingerprint)
    order.observedState = .ok order.venueState
  observed : ∀ event, event ∈ order.observedState.appliedEvents ↔
    event ∈ eventsFor codec order.orderId client.deliveredTexts

def SandboxScenario.reportIdsOf (scenario : SandboxScenario codec) (commandId : Uuid) : List Uuid :=
  ((lookupBy (fun plan : SandboxCommandPlan => plan.commandId) scenario.commandPlans commandId).map
    fun plan => plan.reportIds).getD []

/-- The queued text is the text of the plan's own event or of the report that the plan repeats. -/
def SourceKept (codec : SandboxCodec) (retained : List RetainedReport) (item : QueuedReport) : Prop :=
  match item.plan.source with
  | .original event => serializeReport codec event = some item.canonicalEvent
  | .duplicateOf reportId => reportId ≠ item.plan.reportId ∧ ⟨reportId, item.canonicalEvent⟩ ∈ retained

/-- What holds of the state in every run. -/
structure Consistent (scenario : SandboxScenario codec) (client : SandboxClient) : Prop where
  known : client.retainedReports.mapM (RetainedReport.known codec) = .ok client.snapshot.knownReports
  plans : client.snapshot.queuedReports = client.queuedReports.map fun item => item.plan
  retained : ∀ item ∈ client.queuedReports, ⟨item.plan.reportId, item.canonicalEvent⟩ ∈ client.retainedReports
  ordinals : client.queuedReports.Pairwise fun a b => a.insertionOrdinal < b.insertionOrdinal
  scripted : ∀ item ∈ client.retainedReports, Scripted scenario item.canonicalEvent
  inventory : client.retainedReports ≠ [] → validateScenarioReportInventory scenario = .ok ()
  sources : ∀ item ∈ client.queuedReports, SourceKept codec client.retainedReports item
  commands : client.executedCommandIds.Nodup ∧ client.retainedReports.map (fun item => item.reportId) =
    client.executedCommandIds.flatMap scenario.reportIdsOf
  tracks : ∀ order ∈ client.snapshot.orders, Tracks codec client order

/-! ## The queue -/

variable {queue : List QueuedReport} {item : QueuedReport}

theorem lt_nextOrdinal (h : item ∈ queue) : item.insertionOrdinal < nextOrdinal queue := by
  have hmax : ∀ (ordinals : List ℕ) (m : ℕ), m ≤ ordinals.foldl max m ∧ ∀ n ∈ ordinals, n ≤ ordinals.foldl max m := by
    intro ordinals
    induction ordinals with
    | nil => simp
    | cons n ordinals ih =>
      intro m
      obtain ⟨hbase, hrest⟩ := ih (max m n)
      refine ⟨(le_max_left m n).trans hbase, fun k hk => ?_⟩
      rcases List.mem_cons.1 hk with rfl | hk
      · exact (le_max_right m k).trans hbase
      · exact hrest k hk
  exact (hmax _ 0).2 _ (List.mem_map.2 ⟨item, h, rfl⟩)

theorem mem_enqueued {reports : List (SandboxReportPlan × String)}
    (h : item ∈ enqueued queue reports) : (item.plan, item.canonicalEvent) ∈ reports ∧
      nextOrdinal queue ≤ item.insertionOrdinal := by
  obtain ⟨⟨report, i⟩, hreport, rfl⟩ := List.mem_map.1 h
  exact ⟨(List.mem_zipIdx' hreport).2 ▸ List.getElem_mem _, Nat.le_add_right _ _⟩

theorem enqueued_reports (queue : List QueuedReport) (reports : List (SandboxReportPlan × String)) :
    (enqueued queue reports).map (fun item => (item.plan, item.canonicalEvent)) = reports := by
  unfold enqueued
  rw [List.map_map]
  exact List.zipIdx_map_fst 0 reports

theorem enqueued_ordinals (h : queue.Pairwise fun a b => a.insertionOrdinal < b.insertionOrdinal)
    (reports : List (SandboxReportPlan × String)) :
    (queue ++ enqueued queue reports).Pairwise fun a b => a.insertionOrdinal < b.insertionOrdinal := by
  refine List.pairwise_append.2 ⟨h, ?_, fun a ha b hb => (lt_nextOrdinal ha).trans_le (mem_enqueued hb).2⟩
  unfold enqueued
  rw [List.pairwise_map]
  have hindices : (reports.zipIdx.map Prod.snd).Pairwise (· < ·) := by
    rw [List.zipIdx_map_snd]
    exact List.pairwise_lt_range' 1
  exact (List.pairwise_map.1 hindices).imp fun hlt => Nat.add_lt_add_left hlt _

theorem positions_nodup (h : queue.Pairwise fun a b => a.insertionOrdinal < b.insertionOrdinal) :
    (queue.map QueuedReport.position).Nodup := by
  refine List.Nodup.of_map (fun k : DateTime ×ₗ ℕ => (ofLex k).2) ?_
  rw [List.map_map]
  exact (List.pairwise_map.2 h).imp ne_of_lt

variable {orderId : Uuid}

theorem eventsFor_pending_append {new : List QueuedReport}
    (h : (queue ++ new).Pairwise fun a b => a.insertionOrdinal < b.insertionOrdinal)
    (hnew : ∀ item ∈ new, orderEventOf codec orderId item.canonicalEvent = none) :
    eventsFor codec orderId ((sortBy QueuedReport.position (queue ++ new)).map (·.canonicalEvent)) =
      eventsFor codec orderId ((sortBy QueuedReport.position queue).map (·.canonicalEvent)) := by
  have hselect : ∀ items : List QueuedReport,
      eventsFor codec orderId (items.map (·.canonicalEvent)) =
        (items.filter fun item => (orderEventOf codec orderId item.canonicalEvent).isSome).filterMap
          fun item => orderEventOf codec orderId item.canonicalEvent := by
    intro items
    unfold eventsFor
    rw [List.filterMap_map, List.filterMap_filter]
    refine List.filterMap_congr fun item _ => ?_
    show orderEventOf codec orderId item.canonicalEvent = _
    cases orderEventOf codec orderId item.canonicalEvent <;> rfl
  have hnone : (new.filter fun item => (orderEventOf codec orderId item.canonicalEvent).isSome) = [] :=
    List.filter_eq_nil_iff.2 fun item hitem => by simp [hnew item hitem]
  rw [hselect, hselect, sortBy_filter (positions_nodup h), List.filter_append, hnone, List.append_nil,
    ← sortBy_filter (positions_nodup (List.pairwise_append.1 h).1)]

variable {event : OrderEvent}

theorem mem_eventsFor_items {items : List QueuedReport} :
    event ∈ eventsFor codec orderId ((sortBy QueuedReport.position items).map (·.canonicalEvent)) ↔
      event ∈ eventsFor codec orderId (items.map (·.canonicalEvent)) := by
  simp [mem_eventsFor]

/-! ## Events of the script -/

/-- The script reports the order event. -/
def SandboxScenario.Observes (scenario : SandboxScenario codec) (event : OrderEvent) : Prop :=
  ∃ plan ∈ scenario.reportPlans, ∃ report, plan.source = .original report ∧ report.payload = .order event

variable {scenario : SandboxScenario codec} {client next : SandboxClient} {text : String}

theorem Scripted.observes (hround : codec.RoundTrips) (h : Scripted scenario text)
    (hevent : orderEventOf codec orderId text = some event) : scenario.Observes event := by
  obtain ⟨plan, hplan, report, hsource, hserialized⟩ := h
  obtain ⟨⟨read, hread, hpayload⟩, -⟩ := orderEventOf_eq_some.1 hevent
  obtain rfl := Option.some.inj (hread.symm.trans (deserializeReport_of_serialize hround hserialized))
  exact ⟨plan, hplan, read, hsource, hpayload⟩

theorem Consistent.observes_delivered (h : Consistent scenario client) (hround : codec.RoundTrips)
    (hevent : event ∈ eventsFor codec orderId client.deliveredTexts) : scenario.Observes event := by
  obtain ⟨text, htext, hevent⟩ := mem_eventsFor.1 hevent
  obtain ⟨item, hitem, rfl⟩ := List.mem_map.1 htext
  exact (h.scripted item (List.mem_filter.1 hitem).1).observes hround hevent

theorem Consistent.observes_pending (h : Consistent scenario client) (hround : codec.RoundTrips)
    (hevent : event ∈ eventsFor codec orderId client.pendingTexts) : scenario.Observes event := by
  obtain ⟨text, htext, hevent⟩ := mem_eventsFor.1 hevent
  obtain ⟨item, hitem, rfl⟩ := List.mem_map.1 htext
  exact (h.scripted _ (h.retained item ((mem_sortBy _ _ _).1 hitem))).observes hround hevent

variable {retained : List RetainedReport} {known : List SandboxKnownReport}

theorem exists_known
    (h : retained.mapM (RetainedReport.known codec) = .ok known) {item : RetainedReport} (hitem : item ∈ retained) :
    ∃ report ∈ known, report.reportId = item.reportId ∧
      deserializeReport codec item.canonicalEvent = some report.event := by
  obtain ⟨report, hreport, hknown⟩ := exists_mem_right (mapM_ok_iff.1 h) hitem
  exact ⟨report, hreport, known_ok_iff.1 hknown⟩

theorem known_ids (h : retained.mapM (RetainedReport.known codec) = .ok known) :
    known.map (·.reportId) = retained.map (·.reportId) := by
  have hall := mapM_ok_iff.1 h
  clear h
  induction hall with
  | nil => rfl
  | cons hitem _ ih => rw [List.map_cons, List.map_cons, ih, (known_ok_iff.1 hitem).1]

theorem Consistent.retained_nodup (h : Consistent scenario client) :
    (client.retainedReports.map (·.reportId)).Nodup := by
  rw [← known_ids h.known]
  exact client.snapshot.checked.knownIds

theorem Consistent.queued_nodup (h : Consistent scenario client) :
    (client.queuedReports.map (·.plan.reportId)).Nodup := by
  have hids := client.snapshot.checked.queuedIds
  rw [h.plans, List.map_map] at hids
  exact hids

theorem consistent_initial (time : DateTime) : Consistent scenario (.initial time) where
  known := rfl
  plans := rfl
  retained := by simp [SandboxClient.initial]
  ordinals := .nil
  scripted := by simp [SandboxClient.initial]
  inventory := by simp [SandboxClient.initial]
  sources := by simp [SandboxClient.initial]
  commands := ⟨.nil, rfl⟩
  tracks := by simp [SandboxClient.initial]

/-! ## Commands that schedule reports -/

inductive ActsOn (client next : SandboxClient) (order nextOrder : SandboxOrderSnapshot) : Option Uuid → Prop
  | existing (hmem : order ∈ client.snapshot.orders)
      (horders : next.snapshot.orders = replaceOrderIn client.snapshot.orders nextOrder) :
      ActsOn client next order nextOrder none
  | new (hobserved : order.observedState = .initial order.orderId)
      (hvenue : order.venueState = .initial order.orderId)
      (hnew : ∀ other ∈ client.snapshot.orders, other.orderId ≠ order.orderId)
      (horders : next.snapshot.orders = client.snapshot.orders ++ [nextOrder]) :
      ActsOn client next order nextOrder (some order.orderId)

structure Schedules (scenario : SandboxScenario codec) (client next : SandboxClient) (plan : SandboxCommandPlan)
    (order nextOrder : SandboxOrderSnapshot) (reports : List (SandboxReportPlan × String)) : Prop where
  acts : ∃ newOrderId, ActsOn client next order nextOrder newOrderId ∧
    client.validateObservedDeliveryOrder codec reports newOrderId = .ok ()
  planned : client.plannedReports scenario plan order.orderId = .ok (reports, next.retainedReports)
  moved : VenueMoved codec (reports.map Prod.snd) order nextOrder
  queue : next.queuedReports = client.queuedReports ++ enqueued client.queuedReports reports
  inventory : validateScenarioReportInventory scenario = .ok ()
  command : lookupBy (fun plan : SandboxCommandPlan => plan.commandId) scenario.commandPlans plan.commandId =
    some plan ∧ plan.commandId ∉ client.executedCommandIds
  executed : next.executedCommandIds = client.executedCommandIds ++ [plan.commandId]
  known : next.retainedReports.mapM (RetainedReport.known codec) = .ok next.snapshot.knownReports
  plans : next.snapshot.queuedReports = next.queuedReports.map fun item => item.plan

variable {plan : SandboxCommandPlan} {order nextOrder : SandboxOrderSnapshot}
  {reports : List (SandboxReportPlan × String)}

section

variable (h : Schedules scenario client next plan order nextOrder reports)
include h

theorem Schedules.retainedReports :
    next.retainedReports = client.retainedReports ++ reports.map retainedOf := (plannedReports_ok h.planned).2

theorem Schedules.retained_nodup : (next.retainedReports.map (·.reportId)).Nodup := by
  rw [← known_ids h.known]
  exact next.snapshot.checked.knownIds

theorem Schedules.queuedIds : (next.queuedReports.map (·.plan.reportId)) =
      (client.queuedReports.map (·.plan.reportId)) ++ reports.map (·.1.reportId) := by
  have hnew := congrArg (List.map fun report : SandboxReportPlan × String => report.1.reportId)
    (enqueued_reports client.queuedReports reports)
  rw [List.map_map] at hnew
  rw [h.queue, List.map_append, ← hnew]
  rfl

theorem Schedules.deliveredTexts : next.deliveredTexts = client.deliveredTexts := by
  have hids := h.retained_nodup
  rw [h.retainedReports, List.map_append, List.nodup_append] at hids
  unfold SandboxClient.deliveredTexts
  rw [h.queuedIds, h.retainedReports, List.filter_append]
  have hnew : (reports.map retainedOf).filter (fun item => item.reportId ∉
      (client.queuedReports.map (·.plan.reportId)) ++
        reports.map (·.1.reportId)) = [] := by
    refine List.filter_eq_nil_iff.2 fun item hitem => ?_
    obtain ⟨report, hreport, rfl⟩ := List.mem_map.1 hitem
    simp only [List.mem_append, decide_eq_true_eq, not_not]
    exact .inr (List.mem_map.2 ⟨report, hreport, rfl⟩)
  rw [hnew, List.append_nil]
  refine congrArg _ (List.filter_congr fun item hitem => decide_eq_decide.2 ?_)
  rw [List.mem_append, not_or]
  refine and_iff_left fun hmem => ?_
  obtain ⟨report, hreport, hid⟩ := List.mem_map.1 hmem
  exact hids.2.2 _ (List.mem_map_of_mem hitem) _ (List.mem_map_of_mem (List.mem_map_of_mem hreport)) hid.symm

theorem Schedules.reportTexts : event ∈ eventsFor codec orderId next.pendingTexts ↔
      event ∈ eventsFor codec orderId client.pendingTexts ++ eventsFor codec orderId (reports.map Prod.snd) := by
  have hnew : (enqueued client.queuedReports reports).map (·.canonicalEvent) =
      reports.map Prod.snd := by
    have hreports := congrArg (List.map Prod.snd) (enqueued_reports client.queuedReports reports)
    rw [List.map_map] at hreports
    exact hreports
  unfold SandboxClient.pendingTexts
  rw [mem_eventsFor_items, h.queue, List.map_append, hnew, eventsFor_append, List.mem_append, List.mem_append,
    mem_eventsFor_items]

theorem Schedules.tracks_before (hclient : Consistent scenario client) : Tracks codec client order ∧
      ∃ newOrderId, deliveryStart client newOrderId order.orderId = some order.observedState ∧
        client.validateObservedDeliveryOrder codec reports newOrderId = .ok () := by
  obtain ⟨newOrderId, hacts, hdelivery⟩ := h.acts
  cases hacts with
  | existing hmem horders =>
    refine ⟨hclient.tracks order hmem, none, ?_, hdelivery⟩
    unfold deliveryStart
    rw [if_neg (by simp), (lookupBy_eq_some_iff client.snapshot.checked.orderIds).2 ⟨hmem, rfl⟩]
    rfl
  | new hobserved hvenue hnew horders =>
    -- no report of a new order can be known
    have hnone : ∀ item ∈ client.retainedReports, orderEventOf codec order.orderId item.canonicalEvent = none := by
      intro item hitem
      refine Option.eq_none_iff_forall_ne_some.2 fun payload hpayload => ?_
      obtain ⟨⟨event, hread, hevent⟩, horder⟩ := orderEventOf_eq_some.1 hpayload
      obtain ⟨known, hmem, -, hread'⟩ := exists_known hclient.known hitem
      obtain rfl := Option.some.inj (hread.symm.trans hread')
      obtain ⟨other, hother, hid⟩ := List.mem_map.1 (client.snapshot.checked.knownOrders known hmem)
      rw [hevent] at hid
      exact hnew other hother (hid.trans horder)
    have hpending : eventsFor codec order.orderId client.pendingTexts = [] := by
      refine List.filterMap_eq_nil_iff.2 fun text htext => ?_
      obtain ⟨item, hitem, rfl⟩ := List.mem_map.1 htext
      exact hnone _ (hclient.retained item ((mem_sortBy _ _ _).1 hitem))
    have hdelivered : eventsFor codec order.orderId client.deliveredTexts = [] := by
      refine List.filterMap_eq_nil_iff.2 fun text htext => ?_
      obtain ⟨item, hitem, rfl⟩ := List.mem_map.1 htext
      exact hnone item (List.mem_filter.1 hitem).1
    refine ⟨⟨?_, ?_⟩, some order.orderId, ?_, hdelivery⟩
    · rw [hpending, hobserved, hvenue]
      rfl
    · rw [hdelivered, hobserved]
      exact fun event => Iff.rfl
    · unfold deliveryStart
      rw [if_pos rfl, hobserved]

theorem Schedules.tracks_order (hround : codec.RoundTrips) (hdistinct : Distinguishes codec.fingerprint scenario.Observes)
    (hclient : Consistent scenario client) : Tracks codec next nextOrder := by
  obtain ⟨hbefore, newOrderId, hstart, hdelivery⟩ := h.tracks_before hclient
  obtain ⟨reached, hreached⟩ := validateObservedDeliveryOrder_ok hdelivery hstart
  -- in the order of the script the same observations lead to the state of the venue
  have hscript : (eventsFor codec order.orderId client.pendingTexts ++
      eventsFor codec order.orderId (reports.map Prod.snd)).foldlM (reduceOrder codec.fingerprint)
        order.observedState = .ok nextOrder.venueState := by
    rw [List.foldlM_append, hbefore.venue, ok_bind]
    exact h.moved.venueState
  have hadmitted : ∀ event ∈ order.observedState.appliedEvents, scenario.Observes event := fun event hevent =>
    hclient.observes_delivered hround ((hbefore.observed event).1 hevent)
  have hevents : ∀ event ∈ eventsFor codec order.orderId client.pendingTexts ++
      eventsFor codec order.orderId (reports.map Prod.snd), scenario.Observes event := by
    intro event hevent
    rcases List.mem_append.1 hevent with hpending | hnew
    · exact hclient.observes_pending hround hpending
    · obtain ⟨text, htext, hevent⟩ := mem_eventsFor.1 hnew
      obtain ⟨report, hreport, rfl⟩ := List.mem_map.1 htext
      exact ((plannedReports_ok h.planned).1.scripted hclient.scripted (retainedOf report)
        (List.mem_append_right _ (List.mem_map_of_mem hreport))).observes hround hevent
  rw [← h.queue] at hreached
  obtain rfl : nextOrder.venueState = reached :=
    foldlM_reduceOrder_eq hdistinct hadmitted hevents (fun event => h.reportTexts.symm) hscript hreached
  refine ⟨?_, ?_⟩
  · rw [h.moved.orderId, h.moved.observedState]
    exact hreached
  · rw [h.moved.orderId, h.moved.observedState, h.deliveredTexts]
    exact hbefore.observed

theorem Schedules.tracks_other (hclient : Consistent scenario client) {other : SandboxOrderSnapshot}
    (hother : other ∈ client.snapshot.orders) (hid : other.orderId ≠ order.orderId) : Tracks codec next other := by
  have hbefore := hclient.tracks other hother
  refine ⟨?_, ?_⟩
  · have hnone : ∀ item ∈ enqueued client.queuedReports reports,
        orderEventOf codec other.orderId item.canonicalEvent = none := by
      intro item hitem
      obtain ⟨event, hread, horder⟩ := (plannedReports_ok h.planned).1.orders _ (mem_enqueued hitem).1
      refine Option.eq_none_iff_forall_ne_some.2 fun payload hpayload => ?_
      obtain ⟨⟨event', hread', hevent⟩, horder'⟩ := orderEventOf_eq_some.1 hpayload
      obtain rfl := Option.some.inj (hread.symm.trans hread')
      rw [hevent] at horder
      exact hid (horder'.symm.trans horder)
    unfold SandboxClient.pendingTexts
    rw [h.queue, eventsFor_pending_append (enqueued_ordinals hclient.ordinals reports) hnone]
    exact hbefore.venue
  · rw [h.deliveredTexts]
    exact hbefore.observed

theorem Schedules.sources (hclient : Consistent scenario client) :
    ∀ item ∈ next.queuedReports, SourceKept codec next.retainedReports item := by
  intro item hitem
  rw [h.queue] at hitem
  rcases List.mem_append.1 hitem with hold | hnew
  · have hkept := hclient.sources item hold
    unfold SourceKept at hkept ⊢
    split at hkept
    · exact hkept
    · rw [h.retainedReports]
      exact ⟨hkept.1, List.mem_append_left _ hkept.2⟩
  · obtain ⟨before, after, hsplit⟩ := List.append_of_mem (mem_enqueued hnew).1
    obtain ⟨-, htext⟩ := (plannedReports_ok h.planned).1.texts before _ after hsplit
    unfold plannedText at htext
    unfold SourceKept
    split at htext
    · rename_i event hsource
      rw [show item.plan.source = .original event from hsource]
      split at htext
      · rename_i text hserialized
        rw [show item.canonicalEvent = text from (Except.ok.inj htext).symm]
        exact hserialized
      · cases htext
    · rename_i reportId hsource
      rw [show item.plan.source = .duplicateOf reportId from hsource]
      split at htext
      · rename_i original hfind
        obtain ⟨hmem, rfl⟩ := lookupBy_some hfind
        have hids := h.retained_nodup
        rw [h.retainedReports, hsplit, List.map_append (f := retainedOf), ← List.append_assoc, List.map_append,
          List.nodup_append] at hids
        refine ⟨fun heq => ?_, ?_⟩
        · exact hids.2.2 _ (List.mem_map_of_mem hmem) _ List.mem_cons_self heq
        · rw [h.retainedReports, hsplit, List.map_append, ← List.append_assoc,
            show item.canonicalEvent = original.canonicalEvent from (Except.ok.inj htext).symm]
          exact List.mem_append_left _ hmem
      · cases htext

theorem Schedules.consistent (hround : codec.RoundTrips)
    (hdistinct : Distinguishes codec.fingerprint scenario.Observes) (hclient : Consistent scenario client) :
    Consistent scenario next where
  known := h.known
  plans := h.plans
  retained := by
    intro item hitem
    rw [h.queue] at hitem
    rw [h.retainedReports]
    rcases List.mem_append.1 hitem with hold | hnew
    · exact List.mem_append_left _ (hclient.retained item hold)
    · exact List.mem_append_right _ (List.mem_map.2 ⟨_, (mem_enqueued hnew).1, rfl⟩)
  ordinals := by
    rw [h.queue]
    exact enqueued_ordinals hclient.ordinals reports
  scripted := by
    rw [h.retainedReports]
    exact (plannedReports_ok h.planned).1.scripted hclient.scripted
  inventory := fun _ => h.inventory
  sources := h.sources hclient
  commands := by
    rw [h.executed, h.retainedReports]
    refine ⟨List.nodup_append.2 ⟨hclient.commands.1, List.nodup_singleton _, ?_⟩, ?_⟩
    · intro id hid id' hid'
      rw [List.mem_singleton.1 hid']
      rintro rfl
      exact h.command.2 hid
    · rw [List.map_append, hclient.commands.2, List.flatMap_append, List.flatMap_singleton, List.map_map]
      refine congrArg _ ?_
      unfold SandboxScenario.reportIdsOf
      rw [h.command.1]
      exact (plannedReports_ok h.planned).1.ids
  tracks := by
    intro other hother
    obtain ⟨newOrderId, hacts, -⟩ := h.acts
    cases hacts with
    | existing hmem horders =>
      rw [horders] at hother
      obtain ⟨before, hbefore, rfl⟩ := List.mem_map.1 hother
      split_ifs with hid
      · exact h.tracks_order hround hdistinct hclient
      · exact h.tracks_other hclient hbefore (by rwa [h.moved.orderId] at hid)
    | new hobserved hvenue hnew horders =>
      rw [horders] at hother
      rcases List.mem_append.1 hother with hold | hlast
      · exact h.tracks_other hclient hold (hnew other hold)
      · rw [List.mem_singleton.1 hlast]
        exact h.tracks_order hround hdistinct hclient

end

/-! ## Drains -/

structure Drains (codec : SandboxCodec) (client next : SandboxClient) : Prop where
  orders : List.Forall₂ (Observed codec (client.due.map fun item => item.canonicalEvent)) client.snapshot.orders
    next.snapshot.orders
  queue : next.queuedReports = client.queuedReports.filter fun item =>
    item.insertionOrdinal ∉ client.due.map fun due => due.insertionOrdinal
  retained : next.retainedReports = client.retainedReports
  executed : next.executedCommandIds = client.executedCommandIds
  known : next.retainedReports.mapM (RetainedReport.known codec) = .ok next.snapshot.knownReports
  plans : next.snapshot.queuedReports = next.queuedReports.map fun item => item.plan
  time : next.snapshot.currentTime = client.snapshot.currentTime

theorem mem_due : item ∈ client.due ↔
    item ∈ client.queuedReports ∧ item.plan.deliverAt ≤ client.snapshot.currentTime := by
  unfold SandboxClient.due
  rw [mem_sortBy, List.mem_filter, decide_eq_true_eq]

theorem Consistent.rest (hclient : Consistent scenario client) :
    (client.queuedReports.filter fun item => item.insertionOrdinal ∉ client.due.map (·.insertionOrdinal)) =
      client.queuedReports.filter fun item => !decide (item.plan.deliverAt ≤ client.snapshot.currentTime) := by
  refine List.filter_congr fun item hitem => ?_
  rw [← decide_not, decide_eq_decide, not_iff_not, List.mem_map]
  constructor
  · rintro ⟨due, hdue, hordinal⟩
    have hordinals : (client.queuedReports.map (·.insertionOrdinal)).Nodup :=
      (List.pairwise_map.2 hclient.ordinals).imp ne_of_lt
    obtain rfl := List.inj_on_of_nodup_map hordinals (mem_due.1 hdue).1 hitem hordinal
    exact (mem_due.1 hdue).2
  · intro hle
    exact ⟨item, mem_due.2 ⟨hitem, hle⟩, rfl⟩

theorem Consistent.delivered (hclient : Consistent scenario client)
    (hretained : next.retainedReports = client.retainedReports)
    (hqueue : next.queuedReports = client.queuedReports.filter fun item =>
      item.insertionOrdinal ∉ client.due.map (·.insertionOrdinal)) :
    next.deliveredTexts.Perm (client.deliveredTexts ++ client.due.map (·.canonicalEvent)) := by
  have hids := hclient.queued_nodup
  have hdue : (client.due.map (·.plan.reportId)).Nodup :=
    (((sortBy_perm _ _).map _).nodup_iff).2 ((List.filter_sublist.map _).nodup hids)
  unfold SandboxClient.deliveredTexts
  rw [hretained, hqueue, hclient.rest]
  have hsplit : (client.retainedReports.filter fun item => item.reportId ∉ (client.queuedReports.filter fun item =>
        !decide (item.plan.deliverAt ≤ client.snapshot.currentTime)).map (·.plan.reportId)).Perm
      ((client.retainedReports.filter fun item => item.reportId ∉ client.queuedReports.map fun queued =>
        queued.plan.reportId) ++ client.due.map fun item => ⟨item.plan.reportId, item.canonicalEvent⟩) := by
    have hitems : client.retainedReports.Nodup := .of_map _ hclient.retained_nodup
    refine (List.perm_ext_iff_of_nodup (hitems.filter _) (List.nodup_append.2 ⟨hitems.filter _,
      .of_map (fun item : RetainedReport => item.reportId) (by rwa [List.map_map]), ?_⟩)).2 fun item => ?_
    · rintro a ha b hb rfl
      obtain ⟨queued, hqueued, rfl⟩ := List.mem_map.1 hb
      exact of_decide_eq_true (List.mem_filter.1 ha).2 (List.mem_map_of_mem (mem_due.1 hqueued).1)
    · simp only [List.mem_append, List.mem_filter, List.mem_map, decide_eq_true_eq, Bool.not_eq_true',
        decide_eq_false_iff_not]
      constructor
      · rintro ⟨hitem, hgone⟩
        refine or_iff_not_imp_left.2 fun hstill => ?_
        obtain ⟨queued, hqueued, hid⟩ := not_not.1 fun hnot => hstill ⟨hitem, hnot⟩
        have hnow : queued.plan.deliverAt ≤ client.snapshot.currentTime := by
          by_contra hlate
          exact hgone ⟨queued, ⟨hqueued, hlate⟩, hid⟩
        exact ⟨queued, mem_due.2 ⟨hqueued, hnow⟩,
          List.inj_on_of_nodup_map hclient.retained_nodup (hclient.retained queued hqueued) hitem hid⟩
      · rintro (⟨hitem, hgone⟩ | ⟨queued, hqueued, rfl⟩)
        · refine ⟨hitem, ?_⟩
          rintro ⟨other, ⟨hother, -⟩, hid⟩
          exact hgone ⟨other, hother, hid⟩
        · obtain ⟨hmem, hnow⟩ := mem_due.1 hqueued
          refine ⟨hclient.retained queued hmem, ?_⟩
          rintro ⟨other, ⟨hother, hlate⟩, hid⟩
          exact hlate (List.inj_on_of_nodup_map hids hother hmem hid ▸ hnow)
  simpa [List.map_map, Function.comp_def] using hsplit.map (·.canonicalEvent)

variable (h : Drains codec client next)
include h

theorem Drains.rest (hclient : Consistent scenario client) : next.queuedReports = client.queuedReports.filter fun item =>
    !decide (item.plan.deliverAt ≤ client.snapshot.currentTime) := h.queue.trans hclient.rest

theorem Drains.pendingTexts (hclient : Consistent scenario client) :
    client.pendingTexts = (client.due.map (·.canonicalEvent)) ++ next.pendingTexts := by
  unfold SandboxClient.pendingTexts
  rw [h.rest hclient, ← List.map_append]
  refine congrArg _ (sortBy_split (positions_nodup hclient.ordinals) _ fun a _ ha b _ hb => ?_)
  rw [decide_eq_true_eq] at ha
  rw [decide_eq_false_iff_not, not_le] at hb
  exact Prod.Lex.toLex_lt_toLex.2 (.inl (ha.trans_lt hb))

theorem Drains.mem_deliveredTexts (hclient : Consistent scenario client) : text ∈ next.deliveredTexts ↔
    text ∈ client.deliveredTexts ∨ text ∈ client.due.map (·.canonicalEvent) :=
  (hclient.delivered h.retained h.queue).mem_iff.trans List.mem_append

theorem Drains.consistent (hround : codec.RoundTrips)
    (hdistinct : Distinguishes codec.fingerprint scenario.Observes) (hclient : Consistent scenario client) :
    Consistent scenario next where
  known := h.known
  plans := h.plans
  retained := by
    rw [h.queue, h.retained]
    exact fun item hitem => hclient.retained item (List.mem_filter.1 hitem).1
  ordinals := by
    rw [h.queue]
    exact hclient.ordinals.filter _
  scripted := by
    rw [h.retained]
    exact hclient.scripted
  inventory := by
    rw [h.retained]
    exact hclient.inventory
  sources := by
    rw [h.queue, h.retained]
    exact fun item hitem => hclient.sources item (List.mem_filter.1 hitem).1
  commands := by
    rw [h.executed, h.retained]
    exact hclient.commands
  tracks := by
    intro after hafter
    obtain ⟨order, horder, hobserved⟩ := exists_mem_left h.orders hafter
    have hbefore := hclient.tracks order horder
    refine ⟨?_, fun event => ?_⟩
    · have hvenue := hbefore.venue
      rw [h.pendingTexts hclient, eventsFor_append, List.foldlM_append, hobserved.observedState, ok_bind] at hvenue
      rw [hobserved.orderId, hobserved.venueState]
      exact hvenue
    · have hadmitted : ∀ event ∈ order.observedState.appliedEvents, scenario.Observes event := fun event hevent =>
        hclient.observes_delivered hround ((hbefore.observed event).1 hevent)
      have hdue : ∀ event ∈ eventsFor codec order.orderId (client.due.map (·.canonicalEvent)),
          scenario.Observes event := by
        intro event hevent
        have hpending : event ∈ eventsFor codec order.orderId client.pendingTexts := by
          rw [h.pendingTexts hclient, eventsFor_append]
          exact List.mem_append_left _ hevent
        exact hclient.observes_pending hround hpending
      rw [(reduceOrder_journals hdistinct).mem_foldlM hadmitted hdue hobserved.observedState, hbefore.observed,
        hobserved.orderId, mem_eventsFor, mem_eventsFor, mem_eventsFor]
      simp only [h.mem_deliveredTexts hclient, or_and_right, exists_or]

omit h

/-! ## Steps -/

inductive ClientStep (scenario : SandboxScenario codec) (client : SandboxClient) : SandboxClient → Prop
  | refused : ClientStep scenario client client
  | schedules {next : SandboxClient} {plan : SandboxCommandPlan} {order nextOrder : SandboxOrderSnapshot}
      {reports : List (SandboxReportPlan × String)}
      (h : Schedules scenario client next plan order nextOrder reports)
      (htime : client.snapshot.currentTime ≤ next.snapshot.currentTime) : ClientStep scenario client next
  | drains {next : SandboxClient} (h : Drains codec client next) : ClientStep scenario client next
  | transition {next : SandboxClient} {plan : SandboxCommandPlan}
      (hcommand : lookupBy (fun plan : SandboxCommandPlan => plan.commandId) scenario.commandPlans
        plan.commandId = some plan ∧ plan.commandId ∉ client.executedCommandIds ∧ plan.kind.IsConnection)
      (hexecuted : next.executedCommandIds = client.executedCommandIds ++ [plan.commandId])
      (hsame : next.queuedReports = client.queuedReports ∧ next.retainedReports = client.retainedReports ∧
        next.snapshot.orders = client.snapshot.orders)
      (hknown : next.retainedReports.mapM (RetainedReport.known codec) = .ok next.snapshot.knownReports)
      (hplans : next.snapshot.queuedReports = next.queuedReports.map fun item => item.plan)
      (htime : client.snapshot.currentTime ≤ next.snapshot.currentTime) : ClientStep scenario client next
  | advances {next : SandboxClient} (hexecuted : next.executedCommandIds = client.executedCommandIds)
      (hsame : next.queuedReports = client.queuedReports ∧ next.retainedReports = client.retainedReports ∧
        next.snapshot.orders = client.snapshot.orders)
      (hknown : next.retainedReports.mapM (RetainedReport.known codec) = .ok next.snapshot.knownReports)
      (hplans : next.snapshot.queuedReports = next.queuedReports.map fun item => item.plan)
      (htime : client.snapshot.currentTime ≤ next.snapshot.currentTime) : ClientStep scenario client next

/-- A step that delivers nothing. -/
def Acts (scenario : SandboxScenario codec) (client next : SandboxClient) : Prop :=
  ClientStep scenario client next ∧ client.queuedReports <+: next.queuedReports

theorem Acts.refused : Acts scenario client client := ⟨.refused, List.prefix_rfl⟩

theorem Acts.of_queue (h : ClientStep scenario client next) (hqueue : next.queuedReports = client.queuedReports) :
    Acts scenario client next := ⟨h, by rw [hqueue]⟩

theorem Schedules.acted (h : Schedules scenario client next plan order nextOrder reports)
    (htime : client.snapshot.currentTime ≤ next.snapshot.currentTime) : Acts scenario client next :=
  ⟨.schedules h htime, by rw [h.queue]; exact List.prefix_append ..⟩

/-- What a call gives its caller. -/
def reportsOf : Except SandboxFailure SandboxReply → List ReportEvent
  | .ok (.delivered events) => events
  | _ => []

theorem reportsOf_respond (plan : SandboxCommandPlan) (lost : String) (authority : Option ConsumedSubmitAuthority) :
    reportsOf (respond plan lost authority) = [] := by
  unfold respond
  split <;> rfl

variable {commandId : Uuid} {kind : SandboxCommandKind}

theorem requirePlan_ok {orderId : Option Uuid} (h : client.requirePlan scenario commandId kind orderId = .ok plan) :
    lookupBy (fun plan : SandboxCommandPlan => plan.commandId) scenario.commandPlans commandId = some plan ∧
      plan.commandId = commandId ∧ plan.kind = kind ∧ (∀ id ∈ orderId, plan.orderId = id) ∧
      commandId ∉ client.executedCommandIds := by
  unfold SandboxClient.requirePlan at h
  split at h
  · cases h
  · rename_i found hfound
    simp only [bind_ok_iff, require_ok_iff, exists_const, pure_eq_ok, Except.ok.injEq] at h
    obtain ⟨hkind, horder, hnew, rfl⟩ := h
    obtain ⟨-, hid⟩ := lookupBy_some hfound
    rw [hid] at hnew
    exact ⟨hfound, hid, hkind, horder, hnew⟩

variable {u : Unit}

theorem validatePlannedDelivery_ok (h : client.validatePlannedDeliveryBeforeEffect scenario plan orderId = .ok u) :
    validateScenarioReportInventory scenario = .ok () ∧ ∃ reports retained,
      client.plannedReports scenario plan orderId = .ok (reports, retained) ∧
        client.validateObservedDeliveryOrder codec reports none = .ok () := by
  unfold SandboxClient.validatePlannedDeliveryBeforeEffect at h
  simp only [bind_ok_iff] at h
  obtain ⟨_, hinventory, ⟨reports, retained⟩, hplanned, hdelivery⟩ := h
  exact ⟨hinventory, reports, retained, hplanned, hdelivery⟩

structure SubmitChecked (scenario : SandboxScenario codec) (client : SandboxClient) (request : SandboxSubmitRequest)
    (plan : SandboxCommandPlan) (reports : List (SandboxReportPlan × String)) (retained : List RetainedReport) :
    Prop where
  intent : canonicalModelDigest codec.models (.intent request.orderIntent) = request.permit.intentDigest
  command : lookupBy (fun plan : SandboxCommandPlan => plan.commandId) scenario.commandPlans request.commandId =
    some plan ∧ plan.commandId = request.commandId ∧ request.commandId ∉ client.executedCommandIds
  newOrder : ∀ order ∈ client.snapshot.orders, order.orderId ≠ request.orderId
  newClientOrder : ∀ order ∈ client.snapshot.orders, order.clientOrderId ≠ request.orderIntent.clientOrderId
  time : client.snapshot.currentTime ≤ request.submittedAt
  inventory : validateScenarioReportInventory scenario = .ok ()
  planned : client.plannedReports scenario plan request.orderId = .ok (reports, retained)
  venue : ∃ state, reports.foldlM (fun state report => do
    match (← readReport codec report.2).payload with
    | .order payload => reduce codec state payload
    | .fill _ => return state) (OrderState.initial request.orderId) = .ok state
  delivery : client.validateObservedDeliveryOrder codec reports (some request.orderId) = .ok ()

variable {request : SandboxSubmitRequest}

theorem submitChecks_ok (h : client.submitChecks scenario request = .ok plan) :
    ∃ reports retained, SubmitChecked scenario client request plan reports retained := by
  unfold SandboxClient.submitChecks SandboxClient.requireConnectedAndUnusedClientOrderId
    SandboxClient.requireConnected SandboxClient.requireCommandTime
    SandboxClient.validateAllPlannedReportsBeforeEffect at h
  simp only [bind_ok_iff, require_ok_iff, exists_const, pure_eq_ok, Except.ok.injEq] at h
  obtain ⟨hintent, found, hplan, ⟨_, hnew, hnewClient⟩, htime, _, ⟨_, hinventory, ⟨reports, retained⟩, hplanned,
    state, hstate, hdelivery⟩, rfl⟩ := h
  obtain ⟨hfound, hid, -, -, hexecuted⟩ := requirePlan_ok hplan
  exact ⟨reports, retained, hintent, ⟨hfound, hid, hexecuted⟩, hnew, hnewClient, htime, hinventory, hplanned,
    ⟨state, hstate⟩, hdelivery⟩

theorem bookOrder_ok (hchecked : SubmitChecked scenario client request plan reports retained)
    (h : client.bookOrder scenario request plan = .ok next) :
    ∃ order nextOrder, Schedules scenario client next plan order nextOrder reports ∧
      order.orderId = request.orderId ∧ order.clientOrderId = request.orderIntent.clientOrderId ∧
      next.snapshot.orders = client.snapshot.orders ++ [nextOrder] ∧
      next.snapshot.currentTime = request.submittedAt := by
  unfold SandboxClient.bookOrder at h
  simp only [bind_ok_iff] at h
  obtain ⟨order, horder, ⟨nextOrder, queue, retained'⟩, happlied, hnext⟩ := h
  have hfields := build_ok horder
  have hid : order.orderId = request.orderId := by rw [hfields]
  obtain ⟨reports', hplanned, hmoved, hqueue⟩ := applyVenueReportsAndEnqueue_ok happlied
  have hsame := hplanned.symm.trans ((congrArg _ hid).trans hchecked.planned)
  obtain ⟨rfl, rfl⟩ := Prod.mk.inj (Except.ok.inj hsame)
  obtain ⟨hqueued, hretained, hexecuted, hknown, hplans, -, htime, horders⟩ := replaceState_ok hnext
  refine ⟨order, nextOrder, ⟨⟨some order.orderId, .new ?_ ?_ ?_ horders, ?_⟩, ?_, hmoved, ?_, hchecked.inventory,
    ?_, hexecuted, hknown, hplans⟩, hid, by rw [hfields], horders, htime⟩
  · rw [hfields]
  · rw [hfields]
  · rw [hid]
    exact hchecked.newOrder
  · rw [hid]
    exact hchecked.delivery
  · rw [hretained]
    exact hplanned
  · rw [hqueued]
    exact hqueue
  · rw [hchecked.command.2.1]
    exact ⟨hchecked.command.1, hchecked.command.2.2⟩

variable {time : DateTime}

theorem schedules_existing {replacement : Option OrderIntent} (htime : client.snapshot.currentTime ≤ time)
    (horder : orderFrom client.snapshot.orders orderId = .ok order)
    (hplan : client.requirePlan scenario commandId kind (some orderId) = .ok plan)
    (hdelivery : client.validatePlannedDeliveryBeforeEffect scenario plan orderId = .ok u)
    (happlied : client.applyVenueReportsAndEnqueue scenario plan order replacement = .ok (nextOrder, queue, retained))
    (hnext : client.replaceState codec
      { currentTime := some time
        orders := some (replaceOrderIn client.snapshot.orders nextOrder)
        queued := some queue
        retained := some retained
        executed := some (client.executedCommandIds ++ [plan.commandId]) } = .ok next) :
    Acts scenario client next := by
  obtain ⟨hmem, rfl⟩ := orderFrom_ok horder
  obtain ⟨hfound, rfl, -, -, hnew⟩ := requirePlan_ok hplan
  obtain ⟨hinventory, reports, retained', hplanned, hobserved⟩ := validatePlannedDelivery_ok hdelivery
  obtain ⟨reports', hplanned', hmoved, hqueue⟩ := applyVenueReportsAndEnqueue_ok happlied
  obtain ⟨rfl, rfl⟩ := Prod.mk.inj (Except.ok.inj (hplanned.symm.trans hplanned'))
  obtain ⟨hqueued, hretained, hexecuted, hknown, hplans, -, hcurrent, horders⟩ := replaceState_ok hnext
  refine Schedules.acted
    ⟨⟨none, .existing hmem horders, hobserved⟩, ?_, hmoved, ?_, hinventory, ⟨hfound, hnew⟩, hexecuted, hknown,
      hplans⟩ ?_
  · rw [hretained]
    exact hplanned'
  · rw [hqueued]
    exact hqueue
  · rw [hcurrent]
    exact htime

theorem modify_step {request : SandboxModifyRequest} (h : client.modify scenario request = .ok (plan, next)) :
    Acts scenario client next := by
  unfold SandboxClient.modify SandboxClient.requireConnected SandboxClient.requireCommandTime
    requireNonterminal at h
  simp only [bind_ok_iff, require_ok_iff, exists_const, pure_eq_ok, Except.ok.injEq, Prod.mk.injEq] at h
  obtain ⟨-, htime, order, horder, -, -, -, plan', hplan, _, hdelivery, ⟨nextOrder, queue, retained⟩, happlied,
    next', hnext, rfl, rfl⟩ := h
  exact schedules_existing htime horder hplan hdelivery happlied hnext

theorem cancel_step {request : SandboxCancelRequest} (h : client.cancel scenario request = .ok (plan, next)) :
    Acts scenario client next := by
  unfold SandboxClient.cancel SandboxClient.requireConnected SandboxClient.requireCommandTime
    requireNonterminal at h
  simp only [bind_ok_iff, require_ok_iff, exists_const, pure_eq_ok, Except.ok.injEq, Prod.mk.injEq] at h
  obtain ⟨-, htime, order, horder, -, plan', hplan, _, hdelivery, ⟨nextOrder, queue, retained⟩, happlied,
    next', hnext, rfl, rfl⟩ := h
  exact schedules_existing htime horder hplan hdelivery happlied hnext

theorem connectionTransition_step {wanted state : SandboxConnectionState} (hkind : kind.IsConnection)
    (h : client.connectionTransition scenario commandId time kind wanted state = .ok (plan, next)) :
    Acts scenario client next := by
  unfold SandboxClient.connectionTransition SandboxClient.requireCommandTime at h
  simp only [bind_ok_iff, require_ok_iff, exists_const, pure_eq_ok, Except.ok.injEq, Prod.mk.injEq] at h
  obtain ⟨htime, -, plan', hplan, next', hnext, rfl, rfl⟩ := h
  obtain ⟨hfound, rfl, rfl, -, hnew⟩ := requirePlan_ok hplan
  obtain ⟨hqueued, hretained, hexecuted, hknown, hplans, -, hcurrent, horders⟩ := replaceState_ok hnext
  refine .of_queue (.transition ⟨hfound, hnew, hkind⟩ hexecuted ⟨hqueued, hretained, horders⟩ hknown hplans ?_) hqueued
  rw [hcurrent]
  exact htime

variable {outcome : Except SandboxFailure SandboxReply}

theorem settle_step {x : Except SandboxFailure (SandboxCommandPlan × SandboxClient)}
    (hstep : ∀ plan next, x = .ok (plan, next) → Acts scenario client next)
    (h : settle client x = (outcome, next)) : Acts scenario client next ∧ reportsOf outcome = [] := by
  unfold settle at h
  split at h
  · obtain ⟨rfl, rfl⟩ := Prod.mk.inj h
    exact ⟨.refused, rfl⟩
  · obtain ⟨rfl, rfl⟩ := Prod.mk.inj h
    exact ⟨hstep _ _ rfl, reportsOf_respond ..⟩

theorem submit_step {verifier : GlobalSafetyAuthorityVerifier}
    (h : (client.submit scenario request verifier).Returns (outcome, next)) :
    Acts scenario client next ∧ reportsOf outcome = [] := by
  unfold SandboxClient.submit at h
  split at h
  · obtain ⟨rfl, rfl⟩ := Prod.mk.inj (returns_ret_iff.1 h)
    exact ⟨.refused, rfl⟩
  · rename_i plan hplan
    obtain ⟨consumed, -, h⟩ := returns_bind h
    split at h
    · obtain ⟨rfl, rfl⟩ := Prod.mk.inj (returns_ret_iff.1 h)
      exact ⟨.refused, rfl⟩
    · split at h
      · obtain ⟨rfl, rfl⟩ := Prod.mk.inj (returns_ret_iff.1 h)
        exact ⟨.refused, rfl⟩
      · rename_i booked hbooked
        obtain ⟨rfl, rfl⟩ := Prod.mk.inj (returns_ret_iff.1 h)
        obtain ⟨reports, retained, hchecked⟩ := submitChecks_ok hplan
        obtain ⟨order, nextOrder, hschedules, -, -, -, htime⟩ := bookOrder_ok hchecked hbooked
        refine ⟨hschedules.acted ?_, reportsOf_respond ..⟩
        rw [htime]
        exact hchecked.time

theorem drainReports_step
    (h : (client.drainReports codec).Returns (outcome, next)) : ClientStep scenario client next := by
  unfold SandboxClient.drainReports at h
  split at h
  · obtain ⟨-, rfl⟩ := Prod.mk.inj (returns_ret_iff.1 h)
    exact .refused
  · split_ifs at h
    · obtain ⟨-, rfl⟩ := Prod.mk.inj (returns_ret_iff.1 h)
      exact .refused
    · obtain ⟨delivered, hdelivered, h⟩ := returns_bind h
      split at h
      · obtain ⟨-, rfl⟩ := Prod.mk.inj (returns_ret_iff.1 h)
        exact .refused
      · rename_i orders events
        split at h
        · obtain ⟨-, rfl⟩ := Prod.mk.inj (returns_ret_iff.1 h)
          exact .refused
        · rename_i drained hdrained
          obtain ⟨-, rfl⟩ := Prod.mk.inj (returns_ret_iff.1 h)
          obtain ⟨hqueued, hretained, hexecuted, hknown, hplans, -, htime, horders⟩ := replaceState_ok hdrained
          refine .drains ⟨?_, hqueued, hretained, hexecuted, hknown, hplans, htime⟩
          rw [horders]
          exact deliverReports_ok client.snapshot.checked.orderIds hdelivered

/-- A call other than a drain delivers nothing. -/
theorem call_acts {call : SandboxCall} (hcall : call ≠ .drainReports)
    (h : (client.call scenario call).Returns (outcome, next)) : Acts scenario client next ∧ reportsOf outcome = [] := by
  cases call with
  | drainReports => exact absurd rfl hcall
  | submit request verifier => exact submit_step h
  | modify request => exact settle_step (fun _ _ => modify_step) (returns_ret_iff.1 h)
  | cancel request => exact settle_step (fun _ _ => cancel_step) (returns_ret_iff.1 h)
  | disconnect commandId time =>
    exact settle_step (fun _ _ => connectionTransition_step (.inl rfl)) (returns_ret_iff.1 h)
  | reconnect commandId time =>
    exact settle_step (fun _ _ => connectionTransition_step (.inr rfl)) (returns_ret_iff.1 h)
  | advanceTime target =>
    have h := returns_ret_iff.1 h
    unfold SandboxClient.advanceTime at h
    dsimp only at h
    split at h
    · obtain ⟨rfl, rfl⟩ := Prod.mk.inj h
      exact ⟨.refused, rfl⟩
    · rename_i advanced hadvanced
      obtain ⟨rfl, rfl⟩ := Prod.mk.inj h
      simp only [bind_ok_iff, require_ok_iff, exists_const] at hadvanced
      obtain ⟨hle, hadvanced⟩ := hadvanced
      obtain ⟨hqueued, hretained, hexecuted, hknown, hplans, -, htime, horders⟩ := replaceState_ok hadvanced
      refine ⟨.of_queue (.advances hexecuted ⟨hqueued, hretained, horders⟩ hknown hplans ?_) hqueued, rfl⟩
      rw [htime]
      exact hle

theorem call_step {call : SandboxCall}
    (h : (client.call scenario call).Returns (outcome, next)) : ClientStep scenario client next := by
  by_cases hcall : call = .drainReports
  · subst hcall
    exact drainReports_step h
  · exact (call_acts hcall h).1.1

theorem Consistent.transfer (h : Consistent scenario client) {ids : List Uuid}
    (hsame : next.queuedReports = client.queuedReports ∧ next.retainedReports = client.retainedReports ∧
      next.snapshot.orders = client.snapshot.orders)
    (hknown : next.retainedReports.mapM (RetainedReport.known codec) = .ok next.snapshot.knownReports)
    (hplans : next.snapshot.queuedReports = next.queuedReports.map (·.plan))
    (hexecuted : next.executedCommandIds = client.executedCommandIds ++ ids)
    (hids : ids.Nodup ∧ (∀ id ∈ ids, id ∉ client.executedCommandIds) ∧ ids.flatMap scenario.reportIdsOf = []) :
    Consistent scenario next := by
  obtain ⟨hqueue, hretained, horders⟩ := hsame
  have htexts : next.pendingTexts = client.pendingTexts ∧ next.deliveredTexts = client.deliveredTexts := by
    unfold SandboxClient.pendingTexts SandboxClient.deliveredTexts
    rw [hqueue, hretained]
    exact ⟨rfl, rfl⟩
  refine ⟨hknown, hplans, ?_, ?_, ?_, ?_, ?_, ⟨?_, ?_⟩, fun order horder => ?_⟩
  · rw [hqueue, hretained]
    exact h.retained
  · rw [hqueue]
    exact h.ordinals
  · rw [hretained]
    exact h.scripted
  · rw [hretained]
    exact h.inventory
  · rw [hqueue, hretained]
    exact h.sources
  · rw [hexecuted]
    refine List.nodup_append.2 ⟨h.commands.1, hids.1, fun a ha b hb => ?_⟩
    rintro rfl
    exact hids.2.1 a hb ha
  · rw [hexecuted, hretained, h.commands.2, List.flatMap_append, hids.2.2, List.append_nil]
  · rw [horders] at horder
    have hbefore := h.tracks order horder
    exact ⟨by rw [htexts.1]; exact hbefore.venue, by rw [htexts.2]; exact hbefore.observed⟩

theorem reportIdsOf_connection
    (hfound : lookupBy (fun plan : SandboxCommandPlan => plan.commandId) scenario.commandPlans plan.commandId =
      some plan) (hkind : plan.kind.IsConnection) : scenario.reportIdsOf plan.commandId = [] := by
  have hvalid := scenario.valid
  unfold validateCrossReferences at hvalid
  simp only [bind_ok_iff] at hvalid
  obtain ⟨_, hcommands, -⟩ := hvalid
  have hplan := forM_ok_iff.1 hcommands plan (lookupBy_some hfound).1
  unfold SandboxCommandPlan.validate at hplan
  simp only [bind_ok_iff, require_ok_iff, exists_const] at hplan
  unfold SandboxScenario.reportIdsOf
  rw [hfound]
  exact hplan.2.1 hkind

theorem ClientStep.consistent (h : ClientStep scenario client next) (hround : codec.RoundTrips)
    (hdistinct : Distinguishes codec.fingerprint scenario.Observes) (hclient : Consistent scenario client) :
    Consistent scenario next := by
  cases h with
  | refused => exact hclient
  | schedules h => exact h.consistent hround hdistinct hclient
  | drains h => exact h.consistent hround hdistinct hclient
  | transition hcommand hexecuted hsame hknown hplans =>
    refine hclient.transfer hsame hknown hplans hexecuted ⟨List.nodup_singleton _, ?_, ?_⟩
    · simpa using hcommand.2.1
    · rw [List.flatMap_singleton, reportIdsOf_connection hcommand.1 hcommand.2.2]
  | advances hexecuted hsame hknown hplans =>
    exact hclient.transfer hsame hknown hplans (hexecuted.trans (List.append_nil _).symm) (by simp)

/-! ## Reachable states -/

/-- Other processes only add to the ledger. -/
def ledgerDiscipline (codec : AuthorityCodec) : Discipline AuthorityStore where
  Inv := Recorded codec
  le s t := s.log <+: t.log
  refl := log_prefix_rfl
  trans := @log_prefix_trans

/-- The states of a client and its ledger: any calls, whether they return or raise, with any additions of
others to the ledger before, between and within them. -/
inductive Reachable (scenario : SandboxScenario codec) : SandboxClient → AuthorityStore → Prop
  | start (initialTime : DateTime) {store : AuthorityStore} (hstore : Recorded codec.toAuthorityCodec store) :
      Reachable scenario (.initial initialTime) store
  | others {client : SandboxClient} {store store' : AuthorityStore} (h : Reachable scenario client store)
      (hle : store.log <+: store'.log) (hstore : Recorded codec.toAuthorityCodec store') :
      Reachable scenario client store'
  | call {client next : SandboxClient} {store store' : AuthorityStore}
      {outcome : Except SandboxFailure SandboxReply} {n : ℕ} (h : Reachable scenario client store)
      (call : SandboxCall) (hrun : (client.call scenario call).RunsTo (serve codec.toAuthorityCodec)
        (ledgerDiscipline codec.toAuthorityCodec) n store (outcome, next) store') :
      Reachable scenario next store'

theorem serve_recorded {codec : AuthorityCodec} {n : ℕ} (request : RepositoryRequest) (store : AuthorityStore)
    (h : (ledgerDiscipline codec).Inv store) : (ledgerDiscipline codec).Inv (serve codec n request store).2 := by
  cases request with
  | append event outbox =>
    have hserved := @serve_append codec store n event outbox h
    generalize serve codec n (.append event outbox) store = served at hserved
    cases hserved with
    | refused => exact h
    | repeated => exact h
    | inserted _ _ _ hrecorded => exact hrecorded
  | loadEvents => exact h

variable {store : AuthorityStore}

theorem Reachable.recorded (h : Reachable scenario client store) : Recorded codec.toAuthorityCodec store := by
  induction h with
  | start _ hstore => exact hstore
  | others _ _ hstore => exact hstore
  | call _ _ hrun ih => exact hrun.inv serve_recorded ih

theorem Reachable.consistent (h : Reachable scenario client store)
    (hround : codec.RoundTrips) (hdistinct : Distinguishes codec.fingerprint scenario.Observes) :
    Consistent scenario client := by
  induction h with
  | start initialTime => exact consistent_initial initialTime
  | others _ _ _ ih => exact ih
  | call _ call hrun ih => exact (call_step hrun.returns).consistent hround hdistinct ih

end TradingAgent.ExecutionSandbox
