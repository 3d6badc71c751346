import TradingAgent.ExecutionSandbox.Client
import TradingAgent.Lib.Pairs
import TradingAgent.Lib.Runs

/-! One call of a client, part by part. -/

namespace TradingAgent.ExecutionSandbox

open Outcome Interaction EventLedger RuntimeRisk

variable {codec : SandboxCodec}

/-! ## Texts of reports -/

variable {text : String} {event : ReportEvent}

theorem deserializeReport_serialize
    (h : deserializeReport codec text = some event) : serializeReport codec event = some text := by
  unfold deserializeReport at h
  exact of_decide_eq_true (Option.filter_eq_some_iff.1 h).2

theorem deserializeReport_of_serialize (hround : codec.RoundTrips)
    (h : serializeReport codec event = some text) : deserializeReport codec text = some event := by
  unfold deserializeReport
  refine Option.filter_eq_some_iff.2 ⟨?_, decide_eq_true h⟩
  rw [deserializeEvent_of_serialize hround.ledger h, Option.bind_some, Option.map_eq_some_iff]
  have hpayload := hround.orderEvent event
  rw [h] at hpayload
  obtain ⟨header, payload, valid⟩ := event
  cases payload with
  | order payload =>
    exact ⟨.order payload, congrArg (Option.map ReportPayload.order) (hpayload payload rfl rfl), rfl⟩
  | fill payload => exact ⟨.fill payload, rfl, rfl⟩

theorem serializeReport_inj (hround : codec.RoundTrips) {e e' : ReportEvent}
    (h : serializeReport codec e = some text) (h' : serializeReport codec e' = some text) : e = e' :=
  Option.some.inj ((deserializeReport_of_serialize hround h).symm.trans (deserializeReport_of_serialize hround h'))

@[simp] theorem readReport_ok_iff : readReport codec text = .ok event ↔ deserializeReport codec text = some event := by
  unfold readReport
  split <;> simp_all

variable {state : OrderState}

@[simp] theorem reduce_ok_iff {next : OrderState} {event : OrderEvent} :
    reduce codec state event = .ok next ↔ reduceOrder codec.fingerprint state event = .ok next :=
  mapError_ok_iff

def orderEventOf (codec : SandboxCodec) (orderId : Uuid) (text : String) : Option OrderEvent :=
  ((deserializeReport codec text).bind fun event => event.payload.order?).filter fun event =>
    event.orderId = orderId

def eventsFor (codec : SandboxCodec) (orderId : Uuid) (texts : List String) : List OrderEvent :=
  texts.filterMap (orderEventOf codec orderId)

theorem eventsFor_append (orderId : Uuid) (texts texts' : List String) :
    eventsFor codec orderId (texts ++ texts') = eventsFor codec orderId texts ++ eventsFor codec orderId texts' :=
  List.filterMap_append

variable {orderId : Uuid} {payload : OrderEvent}

theorem orderEventOf_eq_some : orderEventOf codec orderId text = some payload ↔
      (∃ event, deserializeReport codec text = some event ∧ event.payload = .order payload) ∧
        payload.orderId = orderId := by
  unfold orderEventOf
  rw [Option.filter_eq_some_iff, Option.bind_eq_some_iff, decide_eq_true_eq]
  refine and_congr_left' (exists_congr fun event => and_congr_right' ?_)
  unfold ReportPayload.order?
  cases event.payload <;> simp

theorem orderEventOf_of_read (h : deserializeReport codec text = some event)
    (orderId : Uuid) : orderEventOf codec orderId text =
      event.payload.order?.filter fun payload => payload.orderId = orderId := by
  unfold orderEventOf
  rw [h, Option.bind_some]

variable {texts : List String}

theorem mem_eventsFor :
    payload ∈ eventsFor codec orderId texts ↔ ∃ text ∈ texts, orderEventOf codec orderId text = some payload :=
  List.mem_filterMap

/-! ## Snapshots -/

variable {order : SandboxOrderSnapshot}

theorem build_ok {fields : OrderSnapshotFields} (h : fields.build = .ok order) :
    order.toOrderSnapshotFields = fields := by
  obtain ⟨hvalid, rfl⟩ := validated_ok_iff.1 h
  rfl

theorem SandboxOrderSnapshot.stateIds (order : SandboxOrderSnapshot) :
    order.venueState.orderId = order.orderId ∧ order.observedState.orderId = order.orderId := by
  have h := order.valid
  unfold OrderSnapshotFields.validate at h
  simp only [bind_ok_iff, require_ok_iff, exists_const] at h
  exact ⟨h.2.2.1.symm, h.2.2.2.symm⟩

structure SnapshotChecked (snapshot : SnapshotFields) : Prop where
  orderIds : (snapshot.orders.map fun order => order.orderId).Nodup
  clientOrderIds : (snapshot.orders.map fun order => order.clientOrderId).Nodup
  knownIds : (snapshot.knownReports.map fun report => report.reportId).Nodup
  queuedIds : (snapshot.queuedReports.map fun plan => plan.reportId).Nodup
  queuedKnown : ∀ reportId ∈ snapshot.queuedReports.map (fun plan => plan.reportId),
    reportId ∈ snapshot.knownReports.map fun report => report.reportId
  knownOrders : ∀ report ∈ snapshot.knownReports,
    report.event.payload.orderId ∈ snapshot.orders.map fun order => order.orderId

variable {u : Unit}

theorem SnapshotFields.validate_ok_iff {snapshot : SnapshotFields} :
    snapshot.validate = .ok u ↔ SnapshotChecked snapshot := by
  unfold SnapshotFields.validate
  simp only [bind_ok_iff, require_ok_iff, exists_const]
  constructor
  · rintro ⟨h1, h2, h3, h4, h5, h6⟩
    exact ⟨h1, h2, h3, h4, h5, h6⟩
  · intro h
    exact ⟨h.orderIds, h.clientOrderIds, h.knownIds, h.queuedIds, h.queuedKnown, h.knownOrders⟩

theorem SandboxSnapshot.checked (snapshot : SandboxSnapshot) : SnapshotChecked snapshot.toSnapshotFields :=
  SnapshotFields.validate_ok_iff.1 snapshot.valid

variable {client : SandboxClient}

theorem replaceState_ok {next : SandboxClient} {change : StateChange}
    (h : client.replaceState codec change = .ok next) : next.queuedReports = change.queued.getD client.queuedReports ∧
      next.retainedReports = change.retained.getD client.retainedReports ∧
      next.executedCommandIds = change.executed.getD client.executedCommandIds ∧
      next.retainedReports.mapM (RetainedReport.known codec) = .ok next.snapshot.knownReports ∧
      next.snapshot.queuedReports = next.queuedReports.map (·.plan) ∧
      next.snapshot.connectionState = change.connectionState.getD client.snapshot.connectionState ∧
      next.snapshot.currentTime = change.currentTime.getD client.snapshot.currentTime ∧
      next.snapshot.orders = change.orders.getD client.snapshot.orders := by
  unfold SandboxClient.replaceState at h
  simp only [bind_ok_iff, pure_eq_ok, Except.ok.injEq] at h
  obtain ⟨known, hknown, snapshot, hsnapshot, rfl⟩ := h
  obtain ⟨hvalid, rfl⟩ := validated_ok_iff.1 hsnapshot
  exact ⟨rfl, rfl, rfl, hknown, rfl, rfl, rfl, rfl⟩

theorem replaceState_of {client : SandboxClient} {change : StateChange} {known : List SandboxKnownReport}
    (hknown : (change.retained.getD client.retainedReports).mapM (RetainedReport.known codec) = .ok known)
    (hchecked : SnapshotChecked
      { connectionState := change.connectionState.getD client.snapshot.connectionState
        currentTime := change.currentTime.getD client.snapshot.currentTime
        orders := change.orders.getD client.snapshot.orders
        knownReports := known
        queuedReports := (change.queued.getD client.queuedReports).map fun item => item.plan }) :
    ∃ next, client.replaceState codec change = .ok next := by
  unfold SandboxClient.replaceState SnapshotFields.build
  simp only [hknown, ok_bind]
  rw [validated_of _ (SnapshotFields.validate_ok_iff.2 hchecked)]
  exact ⟨_, rfl⟩

theorem known_ok_iff {item : RetainedReport} {known : SandboxKnownReport} : item.known codec = .ok known ↔
      known.reportId = item.reportId ∧ deserializeReport codec item.canonicalEvent = some known.event := by
  unfold RetainedReport.known
  simp only [bind_ok_iff, readReport_ok_iff, pure_eq_ok, Except.ok.injEq]
  constructor
  · rintro ⟨event, hread, rfl⟩
    exact ⟨rfl, hread⟩
  · rintro ⟨hid, hread⟩
    exact ⟨known.event, hread, by rw [← hid]⟩

/-! ## Planned reports -/

def retainedOf (report : SandboxReportPlan × String) : RetainedReport := ⟨report.1.reportId, report.2⟩

def Scripted (scenario : SandboxScenario codec) (text : String) : Prop :=
  ∃ plan ∈ scenario.reportPlans, ∃ event, plan.source = .original event ∧ serializeReport codec event = some text

variable {scenario : SandboxScenario codec}

/-- What `plannedReports` says about the reports of a command. -/
structure Planned (scenario : SandboxScenario codec) (retained : List RetainedReport) (orderId : Uuid)
    (ids : List Uuid) (reports : List (SandboxReportPlan × String)) : Prop where
  ids : reports.map (fun report => report.1.reportId) = ids
  texts : ∀ before report after, reports = before ++ report :: after → report.1 ∈ scenario.reportPlans ∧
    plannedText codec (retained ++ before.map retainedOf) report.1 = .ok report.2
  orders : ∀ report ∈ reports, ∃ event, deserializeReport codec report.2 = some event ∧
    event.payload.orderId = orderId

theorem reportPlanFor_ok {reportId : Uuid} {plan : SandboxReportPlan}
    (h : reportPlanFor scenario reportId = .ok plan) : plan ∈ scenario.reportPlans ∧ plan.reportId = reportId := by
  unfold reportPlanFor at h
  split at h
  · rename_i plan' hfind
    obtain rfl := Except.ok.inj h
    exact lookupBy_some hfind
  · cases h

variable {reports : List (SandboxReportPlan × String)} {retained : List RetainedReport} {plan : SandboxCommandPlan}

theorem plannedReports_ok (h : client.plannedReports scenario plan orderId = .ok (reports, retained)) :
    Planned scenario client.retainedReports orderId plan.reportIds reports ∧
      retained = client.retainedReports ++ reports.map retainedOf := by
  unfold SandboxClient.plannedReports at h
  generalize plan.reportIds = ids at h
  induction ids using List.reverseRecOn generalizing reports retained with
  | nil =>
    obtain ⟨rfl, rfl⟩ := Prod.mk.inj (Except.ok.inj h)
    exact ⟨⟨rfl, by simp, by simp⟩, by simp⟩
  | append_singleton ids id ih =>
    rw [foldlM_concat, bind_ok_iff] at h
    obtain ⟨⟨done, soFar⟩, hdone, h⟩ := h
    obtain ⟨hplanned, rfl⟩ := ih hdone
    unfold plannedReport at h
    simp only [bind_ok_iff, readReport_ok_iff, require_ok_iff, exists_const, pure_eq_ok, Except.ok.injEq,
      Prod.mk.injEq] at h
    obtain ⟨report, hreport, text, htext, event, hread, horder, rfl, rfl⟩ := h
    obtain ⟨hmem, rfl⟩ := reportPlanFor_ok hreport
    refine ⟨⟨by simp [hplanned.ids], fun before report' after hsplit => ?_, ?_⟩, by simp [retainedOf]⟩
    · rcases List.eq_nil_or_concat after with rfl | ⟨after, last, rfl⟩
      · obtain ⟨rfl, hlast⟩ := List.append_inj' hsplit rfl
        obtain rfl := List.singleton_inj.1 hlast
        exact ⟨hmem, htext⟩
      · have hshift : done ++ [(report, text)] = (before ++ report' :: after) ++ [last] := by
          rw [hsplit]
          simp
        exact hplanned.texts before report' after (List.append_inj' hshift rfl).1
    · intro report' hreport'
      rcases List.mem_append.1 hreport' with hold | hnew
      · exact hplanned.orders report' hold
      · obtain rfl := List.mem_singleton.1 hnew
        exact ⟨event, hread, horder⟩

theorem Planned.scripted {ids : List Uuid} (h : Planned scenario retained orderId ids reports)
    (hretained : ∀ item ∈ retained, Scripted scenario item.canonicalEvent) :
    ∀ item ∈ retained ++ reports.map retainedOf, Scripted scenario item.canonicalEvent := by
  have htexts := h.texts
  clear h
  induction reports using List.reverseRecOn with
  | nil => simpa using hretained
  | append_singleton reports report ih =>
    have hsoFar := ih fun before report' after hsplit =>
      htexts before report' (after ++ [report]) (by rw [hsplit]; simp)
    obtain ⟨hplan, htext⟩ := htexts reports report [] rfl
    intro item hitem
    rw [List.map_append, ← List.append_assoc, List.mem_append] at hitem
    rcases hitem with hold | hnew
    · exact hsoFar item hold
    · obtain rfl := List.mem_singleton.1 hnew
      unfold plannedText at htext
      split at htext
      · rename_i event hsource
        split at htext
        · rename_i text hserialized
          obtain rfl := Except.ok.inj htext
          exact ⟨report.1, hplan, event, hsource, hserialized⟩
        · cases htext
      · split at htext
        · rename_i original hfind
          obtain heq := Except.ok.inj htext
          have horiginal := hsoFar original (lookupBy_some hfind).1
          rw [heq] at horiginal
          exact horiginal
        · cases htext

/-! ## The order of delivery -/

variable {states states' : Dict Uuid OrderState}

theorem observeDelivery_ok {item : QueuedReport} (h : observeDelivery codec states item = .ok states')
    (hstate : states.get? orderId = some state) :
    ∃ next, (eventsFor codec orderId [item.canonicalEvent]).foldlM (reduceOrder codec.fingerprint) state =
      .ok next ∧ states'.get? orderId = some next := by
  unfold observeDelivery at h
  simp only [bind_ok_iff, readReport_ok_iff] at h
  obtain ⟨event, hread, h⟩ := h
  have hevent := orderEventOf_of_read hread orderId
  unfold eventsFor
  split at h
  · rename_i payload hpayload
    obtain rfl := Except.ok.inj h
    rw [hpayload] at hevent
    rw [List.filterMap_cons_none (hevent.trans rfl)]
    exact ⟨state, rfl, hstate⟩
  · rename_i payload hpayload
    rw [hpayload] at hevent
    split at h
    · cases h
    · rename_i prior hprior
      simp only [bind_ok_iff, rescue_ok_iff, reduce_ok_iff, pure_eq_ok, Except.ok.injEq] at h
      obtain ⟨next, hnext, rfl⟩ := h
      by_cases horder : payload.orderId = orderId
      · subst horder
        obtain rfl := Option.some.inj (hprior.symm.trans hstate)
        refine ⟨next, ?_, Dict.get?_set_self ..⟩
        rw [List.filterMap_cons_some (hevent.trans (Option.filter_some_pos (decide_eq_true rfl)))]
        simp [hnext]
      · rw [Dict.get?_set_of_ne _ _ horder,
          List.filterMap_cons_none (hevent.trans (Option.filter_some_neg (by simpa using horder)))]
        exact ⟨state, rfl, hstate⟩

variable {items : List QueuedReport}

theorem observeDeliveries_ok (h : items.foldlM (observeDelivery codec) states = .ok states')
    (hstate : states.get? orderId = some state) :
    ∃ next, (eventsFor codec orderId (items.map (·.canonicalEvent))).foldlM
      (reduceOrder codec.fingerprint) state = .ok next := by
  induction items generalizing states state with
  | nil => exact ⟨state, rfl⟩
  | cons item items ih =>
    rw [List.foldlM_cons, bind_ok_iff] at h
    obtain ⟨between, hitem, h⟩ := h
    obtain ⟨next, hnext, hbetween⟩ := observeDelivery_ok hitem hstate
    obtain ⟨final, hfinal⟩ := ih h hbetween
    refine ⟨final, ?_⟩
    rw [List.map_cons, ← List.singleton_append, eventsFor_append, List.foldlM_append, hnext, ok_bind]
    exact hfinal

def deliveryStart (client : SandboxClient) (newOrderId : Option Uuid) (orderId : Uuid) : Option OrderState :=
  if newOrderId = some orderId then some (.initial orderId)
  else (lookupBy (fun order : SandboxOrderSnapshot => order.orderId) client.snapshot.orders orderId).map
    fun order => order.observedState

theorem validateObservedDeliveryOrder_ok {newOrderId : Option Uuid}
    (h : client.validateObservedDeliveryOrder codec reports newOrderId = .ok u)
    (hstate : deliveryStart client newOrderId orderId = some state) :
    ∃ next, (eventsFor codec orderId ((sortBy QueuedReport.position
      (client.queuedReports ++ enqueued client.queuedReports reports)).map (·.canonicalEvent))).foldlM
        (reduceOrder codec.fingerprint) state = .ok next := by
  have hids : (client.snapshot.orders.map (·.orderId)).Nodup := client.snapshot.checked.orderIds
  have hbase : (Dict.ofList (client.snapshot.orders.map fun order => (order.orderId, order.observedState))).get?
      orderId = (lookupBy (fun order : SandboxOrderSnapshot => order.orderId) client.snapshot.orders orderId).map
        (·.observedState) := by
    rw [Dict.ofList_of_nodup (by simpa [Dict.keys, Function.comp_def] using hids)]
    clear h hstate hids
    induction client.snapshot.orders with
    | nil => rfl
    | cons order orders ih =>
      rw [List.map_cons, Dict.get?_cons]
      unfold lookupBy at ih ⊢
      by_cases horder : order.orderId = orderId
      · rw [if_pos horder, List.find?_cons_of_pos (by simpa using horder)]
        rfl
      · rw [if_neg horder, List.find?_cons_of_neg (by simpa using horder)]
        exact ih
  unfold SandboxClient.validateObservedDeliveryOrder at h
  simp only [bind_ok_iff] at h
  obtain ⟨states, hstates, -⟩ := h
  refine observeDeliveries_ok hstates ?_
  unfold deliveryStart at hstate
  cases newOrderId with
  | none =>
    rw [if_neg (by simp)] at hstate
    exact hbase.trans hstate
  | some newOrderId =>
    dsimp only
    rw [Dict.get?_set]
    by_cases hnew : newOrderId = orderId
    · subst hnew
      rw [if_pos rfl] at hstate ⊢
      exact hstate
    · rw [if_neg (by simpa using hnew)] at hstate
      rw [if_neg (by simpa [eq_comm] using hnew)]
      exact hbase.trans hstate

/-! ## The venue -/

structure VenueMoved (codec : SandboxCodec) (texts : List String) (order next : SandboxOrderSnapshot) : Prop where
  orderId : next.orderId = order.orderId
  clientOrderId : next.clientOrderId = order.clientOrderId
  observedState : next.observedState = order.observedState
  venueState : (eventsFor codec order.orderId texts).foldlM (reduceOrder codec.fingerprint) order.venueState =
    .ok next.venueState

theorem VenueMoved.refl (order : SandboxOrderSnapshot) : VenueMoved codec [] order order := ⟨rfl, rfl, rfl, rfl⟩

variable {next between : SandboxOrderSnapshot} {texts' : List String}

theorem VenueMoved.trans (h : VenueMoved codec texts order between) (h' : VenueMoved codec texts' between next) :
    VenueMoved codec (texts ++ texts') order next := by
  refine ⟨h'.orderId.trans h.orderId, h'.clientOrderId.trans h.clientOrderId,
    h'.observedState.trans h.observedState, ?_⟩
  rw [eventsFor_append, List.foldlM_append, h.venueState, ok_bind, ← h.orderId]
  exact h'.venueState

variable {replacement : Option OrderIntent}

theorem applyVenueObservation_ok {ready ready' : Bool}
    (h : applyVenueObservation codec replacement order ready payload = .ok (next, ready')) :
    next.orderId = order.orderId ∧ next.clientOrderId = order.clientOrderId ∧ next.observedState = order.observedState ∧
      reduceOrder codec.fingerprint order.venueState payload = .ok next.venueState := by
  unfold applyVenueObservation at h
  simp only [bind_ok_iff, reduce_ok_iff] at h
  obtain ⟨venueState, hreduce, moved, hmoved, h⟩ := h
  have hfields := build_ok hmoved
  have hmovedOk : moved.orderId = order.orderId ∧ moved.clientOrderId = order.clientOrderId ∧
      moved.observedState = order.observedState ∧
      reduceOrder codec.fingerprint order.venueState payload = .ok moved.venueState := by
    rw [hfields]
    exact ⟨rfl, rfl, rfl, hreduce⟩
  split at h
  · obtain ⟨rfl, -⟩ := Prod.mk.inj (Except.ok.inj h)
    exact hmovedOk
  · split_ifs at h
    · obtain ⟨rfl, -⟩ := Prod.mk.inj (Except.ok.inj h)
      exact hmovedOk
    · simp only [bind_ok_iff, pure_eq_ok, Except.ok.injEq, Prod.mk.injEq] at h
      obtain ⟨replaced, hreplaced, rfl, -⟩ := h
      rw [build_ok hreplaced]
      exact hmovedOk
    · obtain ⟨rfl, -⟩ := Prod.mk.inj (Except.ok.inj h)
      exact hmovedOk

variable {progress : VenueProgress}

theorem applyVenueReport_ok {next : VenueProgress}
    {report : SandboxReportPlan × String} (h : applyVenueReport codec replacement progress report = .ok next) :
    VenueMoved codec [report.2] progress.nextOrder next.nextOrder ∧
      next.queued = progress.queued ++ [⟨report.1, report.2, progress.ordinal⟩] ∧
      next.ordinal = progress.ordinal + 1 := by
  unfold applyVenueReport at h
  rw [bind_ok_iff] at h
  obtain ⟨event, hread, h⟩ := h
  rw [readReport_ok_iff] at hread
  have hevent := orderEventOf_of_read hread progress.nextOrder.orderId
  split at h
  · rename_i payload hpayload
    rw [bind_ok_iff] at h
    obtain ⟨⟨moved, ready⟩, hmoved, h⟩ := h
    obtain rfl := Except.ok.inj h
    obtain ⟨hid, hclient, hobserved, hvenue⟩ := applyVenueObservation_ok hmoved
    have horder : payload.orderId = progress.nextOrder.orderId :=
      (reduceOrder_ok hvenue).1.trans progress.nextOrder.stateIds.1
    rw [hpayload] at hevent
    refine ⟨⟨hid, hclient, hobserved, ?_⟩, rfl, rfl⟩
    unfold eventsFor
    rw [List.filterMap_cons_some (hevent.trans (Option.filter_some_pos (decide_eq_true horder)))]
    simp [hvenue]
  · rename_i payload hpayload
    obtain rfl := Except.ok.inj h
    rw [hpayload] at hevent
    refine ⟨⟨rfl, rfl, rfl, ?_⟩, rfl, rfl⟩
    unfold eventsFor
    rw [List.filterMap_cons_none (hevent.trans rfl)]
    rfl

theorem applyVenueReports_ok {next : VenueProgress}
    (h : reports.foldlM (applyVenueReport codec replacement) progress = .ok next) :
    VenueMoved codec (reports.map Prod.snd) progress.nextOrder next.nextOrder ∧ next.queued = progress.queued ++
        reports.zipIdx.map (fun item => ⟨item.1.1, item.1.2, progress.ordinal + item.2⟩) ∧
      next.ordinal = progress.ordinal + reports.length := by
  induction reports using List.reverseRecOn generalizing next with
  | nil =>
    obtain rfl := Except.ok.inj h
    exact ⟨.refl _, by simp, rfl⟩
  | append_singleton reports report ih =>
    rw [foldlM_concat, bind_ok_iff] at h
    obtain ⟨between, hbetween, h⟩ := h
    obtain ⟨hmoved, hqueued, hordinal⟩ := ih hbetween
    obtain ⟨hmoved', hqueued', hordinal'⟩ := applyVenueReport_ok h
    refine ⟨?_, ?_, ?_⟩
    · rw [List.map_append]
      exact hmoved.trans hmoved'
    · rw [hqueued', hqueued, hordinal, List.zipIdx_append, List.map_append, List.append_assoc]
      simp
    · rw [hordinal', hordinal, List.length_append]
      rfl

theorem applyVenueReportsAndEnqueue_ok {queued : List QueuedReport}
    (h : client.applyVenueReportsAndEnqueue scenario plan order replacement = .ok (next, queued, retained)) :
    ∃ reports, client.plannedReports scenario plan order.orderId = .ok (reports, retained) ∧
      VenueMoved codec (reports.map Prod.snd) order next ∧
      queued = client.queuedReports ++ enqueued client.queuedReports reports := by
  unfold SandboxClient.applyVenueReportsAndEnqueue at h
  simp only [bind_ok_iff, pure_eq_ok, Except.ok.injEq, Prod.mk.injEq] at h
  obtain ⟨⟨reports, retained⟩, hplanned, progress, hprogress, rfl, rfl, rfl⟩ := h
  obtain ⟨hmoved, hqueued, -⟩ := applyVenueReports_ok hprogress
  exact ⟨reports, hplanned, hmoved, hqueued⟩

theorem applyVenueReports_of {reports : List (SandboxReportPlan × String)} {progress : VenueProgress}
    {state : OrderState} (h : reports.foldlM (fun state report => do
      match (← readReport codec report.2).payload with
      | .order payload => reduce codec state payload
      | .fill _ => return state) progress.nextOrder.venueState = .ok state) :
    ∃ next, reports.foldlM (applyVenueReport codec none) progress = .ok next := by
  induction reports generalizing progress with
  | nil => exact ⟨progress, rfl⟩
  | cons report reports ih =>
    rw [List.foldlM_cons, bind_ok_iff] at h
    obtain ⟨between, hbetween, h⟩ := h
    simp only [bind_ok_iff, readReport_ok_iff] at hbetween
    obtain ⟨event, hread, hbetween⟩ := hbetween
    have hround : ∃ moved, applyVenueReport codec none progress report = .ok moved ∧
        moved.nextOrder.venueState = between := by
      unfold applyVenueReport
      rw [readReport_ok_iff.2 hread, ok_bind]
      split at hbetween
      · rename_i payload hpayload
        rw [reduce_ok_iff] at hbetween
        have hstate : between.orderId = progress.nextOrder.orderId :=
          (reduceOrder_ok hbetween).2.1.trans progress.nextOrder.stateIds.1
        have hvalid : { progress.nextOrder.toOrderSnapshotFields with venueState := between }.validate = .ok () := by
          have hbefore := progress.nextOrder.valid
          unfold OrderSnapshotFields.validate at hbefore ⊢
          simp only [bind_ok_iff, require_ok_iff, exists_const] at hbefore ⊢
          exact ⟨hbefore.1, hbefore.2.1, hstate.symm, hbefore.2.2.2⟩
        unfold applyVenueObservation OrderSnapshotFields.build
        simp only [hpayload, reduce_ok_iff.2 hbetween, ok_bind]
        rw [validated_of _ hvalid]
        exact ⟨_, rfl, rfl⟩
      · rename_i payload hpayload
        obtain rfl := Except.ok.inj hbetween
        simp only [hpayload]
        exact ⟨_, rfl, rfl⟩
    obtain ⟨moved, hmoved, rfl⟩ := hround
    rw [List.foldlM_cons, hmoved, ok_bind]
    exact ih h

/-! ## Draining -/

theorem returns_pass_iff {α : Type} {x : Except SandboxFailure α} {a : α} :
    (pass x).run.Returns (.ok a) ↔ x = .ok a := returns_ret_iff

structure Observed (codec : SandboxCodec) (texts : List String) (order next : SandboxOrderSnapshot) : Prop where
  orderId : next.orderId = order.orderId
  clientOrderId : next.clientOrderId = order.clientOrderId
  venueState : next.venueState = order.venueState
  observedState : (eventsFor codec order.orderId texts).foldlM (reduceOrder codec.fingerprint)
    order.observedState = .ok next.observedState

theorem Observed.refl (order : SandboxOrderSnapshot) : Observed codec [] order order := ⟨rfl, rfl, rfl, rfl⟩

theorem Observed.trans (h : Observed codec texts order between) (h' : Observed codec texts' between next) :
    Observed codec (texts ++ texts') order next := by
  refine ⟨h'.orderId.trans h.orderId, h'.clientOrderId.trans h.clientOrderId, h'.venueState.trans h.venueState, ?_⟩
  rw [eventsFor_append, List.foldlM_append, h.observedState, ok_bind, ← h.orderId]
  exact h'.observedState

variable {orders : List SandboxOrderSnapshot}

theorem orderFrom_ok (h : orderFrom orders orderId = .ok order) : order ∈ orders ∧ order.orderId = orderId := by
  unfold orderFrom at h
  split at h
  · rename_i order' hfind
    obtain rfl := Except.ok.inj h
    exact lookupBy_some hfind
  · cases h

variable {orders' : List SandboxOrderSnapshot}

theorem observeReport_ok (hids : (orders.map (·.orderId)).Nodup)
    (hread : deserializeReport codec text = some event) (horder : orderFrom orders event.payload.orderId = .ok order)
    (h : observeReport codec orders order event = .ok orders') :
    List.Forall₂ (Observed codec [text]) orders orders' := by
  obtain ⟨hmem, hid⟩ := orderFrom_ok horder
  have hevent := orderEventOf_of_read hread
  unfold observeReport at h
  split at h
  · rename_i payload hpayload
    obtain rfl := Except.ok.inj h
    refine List.forall₂_same.2 fun other _ => ⟨rfl, rfl, rfl, ?_⟩
    unfold eventsFor
    rw [List.filterMap_cons_none ((hevent _).trans (by rw [hpayload]; rfl))]
    rfl
  · rename_i payload hpayload
    rw [hpayload] at hid
    simp only [bind_ok_iff, reduce_ok_iff, pure_eq_ok, Except.ok.injEq] at h
    obtain ⟨observedState, hreduce, next, hnext, rfl⟩ := h
    have hfields := build_ok hnext
    have hnextId : next.orderId = order.orderId := by
      rw [hfields]
    unfold replaceOrderIn
    rw [List.forall₂_map_right_iff]
    refine List.forall₂_same.2 fun other hother => ?_
    have hother' := hevent other.orderId
    rw [hpayload] at hother'
    by_cases hsame : other.orderId = next.orderId
    · obtain rfl : other = order := List.inj_on_of_nodup_map hids hother hmem (hsame.trans hnextId)
      rw [if_pos hsame]
      refine ⟨hnextId, by rw [hfields], by rw [hfields], ?_⟩
      unfold eventsFor
      rw [List.filterMap_cons_some (hother'.trans (Option.filter_some_pos (decide_eq_true hid.symm))), hfields]
      simp [hreduce]
    · have hforeign : payload.orderId ≠ other.orderId := by
        intro heq
        rw [hnextId, hid] at hsame
        exact hsame heq.symm
      rw [if_neg hsame]
      refine ⟨rfl, rfl, rfl, ?_⟩
      unfold eventsFor
      rw [List.filterMap_cons_none (hother'.trans (Option.filter_some_neg (by simpa using hforeign)))]
      rfl

theorem orderIds_of_forall₂ (h : List.Forall₂ (Observed codec texts) orders orders') :
    (orders'.map (·.orderId)) = orders.map (·.orderId) :=
  map_eq_of_forall₂ (fun _ _ hobserved => hobserved.orderId) h

theorem deliverReports_ok {delivered delivered' : List ReportEvent} (hids : (orders.map (·.orderId)).Nodup)
    (h : (items.foldlM (deliverReport codec) (orders, delivered)).run.Returns (.ok (orders', delivered'))) :
    List.Forall₂ (Observed codec (items.map (·.canonicalEvent))) orders orders' := by
  induction items generalizing orders delivered with
  | nil =>
    obtain ⟨rfl, -⟩ := Prod.mk.inj (Except.ok.inj (returns_ret_iff.1 h))
    exact List.forall₂_same.2 fun order _ => .refl order
  | cons item items ih =>
    rw [List.foldlM_cons] at h
    obtain ⟨⟨between, soFar⟩, hitem, h⟩ := returns_bind_ok h
    unfold deliverReport at hitem
    obtain ⟨event, hread, hitem⟩ := returns_bind_ok hitem
    obtain ⟨order, horder, hitem⟩ := returns_bind_ok hitem
    obtain ⟨-, -, hitem⟩ := returns_bind_ok hitem
    obtain ⟨observed, hobserved, hitem⟩ := returns_bind_ok hitem
    rw [returns_pass_iff, readReport_ok_iff] at hread
    rw [returns_pass_iff] at horder hobserved
    obtain ⟨rfl, -⟩ := Prod.mk.inj (Except.ok.inj (returns_ret_iff.1 hitem))
    have hfirst := observeReport_ok hids hread horder hobserved
    have hrest := ih (by rw [orderIds_of_forall₂ hfirst]; exact hids) h
    rw [List.map_cons, ← List.singleton_append]
    exact forall₂_trans hfirst hrest fun _ _ _ => Observed.trans

end TradingAgent.ExecutionSandbox
