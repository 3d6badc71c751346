import TradingAgent.ExecutionSandbox.Verdicts

/-! Reports are delivered once, also when a drain fails and is repeated. -/

namespace TradingAgent.ExecutionSandbox

open Outcome Interaction EventLedger RuntimeRisk

/-- How a ledger may answer: as it should, or with an error; an append that fails may have stored its event. -/
inductive LedgerAnswers (codec : AuthorityCodec) (n : ℕ) (store : AuthorityStore) :
    (request : RepositoryRequest) → RepositoryReply request × AuthorityStore → Prop
  | served (request : RepositoryRequest) : LedgerAnswers codec n store request (serve codec n request store)
  | notAppended (event : LedgerEvent) (outbox : OutboxIntent) (e : LedgerFailure) :
      LedgerAnswers codec n store (.append event outbox) (.error e, store)
  | notReported (event : LedgerEvent) (outbox : OutboxIntent) (e : LedgerFailure) :
      LedgerAnswers codec n store (.append event outbox) (.error e, (serve codec n (.append event outbox) store).2)
  | notLoaded (e : LedgerFailure) : LedgerAnswers codec n store .loadEvents (.error e, store)

/-- A ledger that may fail at any request, by whatever its own state says. -/
structure FailingLedger (codec : AuthorityCodec) (σ : Type) where
  server : Server σ RepositoryReply
  view : σ → AuthorityStore
  answers : ∀ n request s,
    LedgerAnswers codec n (view s) request ((server n request s).1, view (server n request s).2)

def FailingLedger.discipline {codec : AuthorityCodec} {σ : Type} (ledger : FailingLedger codec σ) : Discipline σ where
  Inv s := Recorded codec (ledger.view s)
  le s t := (ledger.view s).log <+: (ledger.view t).log
  refl _ := List.prefix_rfl
  trans := List.IsPrefix.trans

section Ledger

variable {codec : AuthorityCodec} {σ : Type} {ledger : FailingLedger codec σ} {n : ℕ} {s : σ}

theorem log_serve {request : RepositoryRequest} {store : AuthorityStore} (h : Recorded codec store) :
    store.log <+: (serve codec n request store).2.log := by
  cases request with
  | loadEvents => exact List.prefix_rfl
  | append event outbox =>
    have hserved := @serve_append codec store n event outbox h
    generalize serve codec n (.append event outbox) store = served at hserved
    cases hserved with
    | refused => exact List.prefix_rfl
    | repeated => exact List.prefix_rfl
    | inserted => exact List.prefix_append _ _

theorem FailingLedger.keeps (request : RepositoryRequest) (h : ledger.discipline.Inv s) :
    ledger.discipline.le s (ledger.server n request s).2 ∧ ledger.discipline.Inv (ledger.server n request s).2 := by
  have hanswers := ledger.answers n request s
  show _ <+: (ledger.view (ledger.server n request s).2).log ∧ Recorded codec (ledger.view (ledger.server n request s).2)
  generalize ledger.view (ledger.server n request s).2 = store at hanswers ⊢
  generalize (ledger.server n request s).1 = reply at hanswers
  generalize hanswer : (reply, store) = answer at hanswers
  cases hanswers with
  | served =>
    have hstore : store = (serve codec n request (ledger.view s)).2 := congrArg Prod.snd hanswer
    rw [hstore]
    exact ⟨log_serve h, serve_recorded request _ h⟩
  | notAppended event outbox e =>
    rw [(Prod.mk.inj hanswer).2]
    exact ⟨List.prefix_rfl, h⟩
  | notReported event outbox e =>
    rw [(Prod.mk.inj hanswer).2]
    exact ⟨log_serve h, serve_recorded (.append event outbox) _ h⟩
  | notLoaded e =>
    rw [(Prod.mk.inj hanswer).2]
    exact ⟨List.prefix_rfl, h⟩

theorem FailingLedger.loaded (hround : codec.ledger.RoundTrips) (h : ledger.discipline.Inv s) {events : List LedgerEvent}
    (hload : (ledger.server n .loadEvents s).1 = .ok events) :
    events = loadedEvents codec (ledger.view (ledger.server n .loadEvents s).2).log := by
  have hanswers := ledger.answers n .loadEvents s
  rw [hload] at hanswers
  generalize ledger.view (ledger.server n .loadEvents s).2 = store at hanswers ⊢
  generalize hanswer : ((.ok events : Except LedgerFailure (List LedgerEvent)), store) = answer at hanswers
  cases hanswers with
  | served =>
    rw [serve_load hround h] at hanswer
    obtain ⟨hevents, rfl⟩ := Prod.mk.inj hanswer
    exact Except.ok.inj hevents
  | notLoaded e => cases (Prod.mk.inj hanswer).1

end Ledger

variable {codec : SandboxCodec} {orders orders' : List SandboxOrderSnapshot} {items : List QueuedReport}
  {delivered delivered' : List ReportEvent}

/-- A round of the loop of `drain_reports` without the ledger. -/
def observeDue (codec : SandboxCodec) (orders : List SandboxOrderSnapshot) (item : QueuedReport) :
    Except SandboxFailure (List SandboxOrderSnapshot) := do
  let event ← readReport codec item.canonicalEvent
  let order ← orderFrom orders event.payload.orderId
  observeReport codec orders order event

theorem deliverReport_returns {item : QueuedReport}
    (h : (deliverReport codec (orders, delivered) item).run.Returns (.ok (orders', delivered'))) :
    observeDue codec orders item = .ok orders' ∧
      ∃ event, readReport codec item.canonicalEvent = .ok event ∧ delivered' = delivered ++ [event] := by
  unfold deliverReport at h
  obtain ⟨event, hread, h⟩ := returns_bind_ok h
  obtain ⟨order, horder, h⟩ := returns_bind_ok h
  obtain ⟨-, -, h⟩ := returns_bind_ok h
  obtain ⟨observed, hobserved, h⟩ := returns_bind_ok h
  rw [returns_pass_iff] at hread horder hobserved
  obtain ⟨rfl, rfl⟩ := Prod.mk.inj (Except.ok.inj (returns_ret_iff.1 h))
  refine ⟨?_, event, hread, rfl⟩
  unfold observeDue
  rw [hread, ok_bind, horder, ok_bind]
  exact hobserved

theorem deliverReports_returns
    (h : (items.foldlM (deliverReport codec) (orders, delivered)).run.Returns (.ok (orders', delivered'))) :
    items.foldlM (observeDue codec) orders = .ok orders' ∧
      ∃ events, items.mapM (fun item => readReport codec item.canonicalEvent) = .ok events ∧
        delivered' = delivered ++ events := by
  induction items generalizing orders delivered with
  | nil =>
    obtain ⟨rfl, rfl⟩ := Prod.mk.inj (Except.ok.inj (returns_ret_iff.1 h))
    exact ⟨rfl, [], rfl, (List.append_nil _).symm⟩
  | cons item items ih =>
    rw [List.foldlM_cons] at h
    obtain ⟨⟨between, soFar⟩, hitem, h⟩ := returns_bind_ok h
    obtain ⟨hobserved, event, hread, rfl⟩ := deliverReport_returns hitem
    obtain ⟨hrest, events, hevents, rfl⟩ := ih h
    refine ⟨?_, event :: events, ?_, (List.append_cons delivered event events).symm⟩
    · rw [List.foldlM_cons, hobserved, ok_bind]
      exact hrest
    · rw [List.mapM_cons, hread, ok_bind, hevents, ok_bind]
      rfl

/-- The errors of `_append_and_read_back`. -/
def ledgerFailures : List SandboxFailure :=
  [raised "ledger delivery failed", raised "ledger append outcome is invalid", raised "ledger read-back is not exact"]

theorem appendAndReadBack_error {event : ReportEvent} {e : SandboxFailure}
    (h : (appendAndReadBack codec event).run.Returns (.error e)) : e ∈ ledgerFailures := by
  have hrequire : ∀ {p : Prop} [Decidable p] {failure : SandboxFailure}, failure ∈ ledgerFailures →
      (pass (require p failure)).run.Returns (.error e) → e ∈ ledgerFailures := by
    intro p _ failure hmem hreturns
    have hraised := returns_ret_iff.1 hreturns
    unfold require at hraised
    split_ifs at hraised
    rw [← Except.error.inj hraised]
    exact hmem
  have hdelivery : raised "ledger delivery failed" ∈ ledgerFailures := by simp [ledgerFailures]
  have hfailed : (pass (.error (raised "ledger delivery failed") : Except SandboxFailure Unit)).run.Returns (.error e) →
      e ∈ ledgerFailures := by
    intro hreturns
    rw [← Except.error.inj (returns_ret_iff.1 hreturns)]
    exact hdelivery
  unfold appendAndReadBack at h
  split at h
  · exact hfailed h
  · rcases returns_bind_error h with h | ⟨-, -, h⟩
    · exact hrequire hdelivery h
    rcases returns_bind_error h with h | ⟨outcome, -, h⟩
    · cases h with
      | call reply h => cases returns_ret_iff.1 h
    split at h
    · exact hfailed h
    rcases returns_bind_error h with h | ⟨-, -, h⟩
    · exact hrequire (by simp [ledgerFailures]) h
    rcases returns_bind_error h with h | ⟨loaded, -, h⟩
    · cases h with
      | call reply h => cases returns_ret_iff.1 h
    split at h
    · exact hfailed h
    · exact hrequire (by simp [ledgerFailures]) h

theorem deliverReports_error {e : SandboxFailure} (hdue : items.foldlM (observeDue codec) orders = .ok orders')
    (h : (items.foldlM (deliverReport codec) (orders, delivered)).run.Returns (.error e)) : e ∈ ledgerFailures := by
  induction items generalizing orders delivered with
  | nil => cases returns_ret_iff.1 h
  | cons item items ih =>
    rw [List.foldlM_cons] at hdue h
    obtain ⟨between, hitem, hrest⟩ := bind_ok_iff.1 hdue
    have hobserved := hitem
    simp only [observeDue, bind_ok_iff] at hobserved
    obtain ⟨event, hread, order, horder, hobserved⟩ := hobserved
    rcases returns_bind_error h with h | ⟨⟨between', soFar⟩, hdelivered, h⟩
    · unfold deliverReport at h
      rw [hread] at h
      rcases returns_bind_error h with h | ⟨event', hevent, h⟩
      · cases returns_ret_iff.1 h
      obtain rfl := Except.ok.inj (returns_ret_iff.1 hevent)
      rw [horder] at h
      rcases returns_bind_error h with h | ⟨order', horder', h⟩
      · cases returns_ret_iff.1 h
      obtain rfl := Except.ok.inj (returns_ret_iff.1 horder')
      rcases returns_bind_error h with h | ⟨-, -, h⟩
      · exact appendAndReadBack_error h
      rw [hobserved] at h
      rcases returns_bind_error h with h | ⟨_, -, h⟩
      · cases returns_ret_iff.1 h
      · cases returns_ret_iff.1 h
    · obtain rfl := Except.ok.inj (hitem.symm.trans (deliverReport_returns hdelivered).1)
      exact ih hrest h

theorem orderFrom_of_mem {orderId : Uuid} (h : orderId ∈ orders.map (·.orderId)) :
    ∃ order, orderFrom orders orderId = .ok order := by
  unfold orderFrom
  cases hfind : lookupBy (fun order : SandboxOrderSnapshot => order.orderId) orders orderId with
  | some order => exact ⟨order, rfl⟩
  | none =>
    obtain ⟨order, horder, rfl⟩ := List.mem_map.1 h
    exact absurd rfl (lookupBy_eq_none_iff.1 hfind order horder)

theorem observeReport_of {text : String} {event : ReportEvent} {order : SandboxOrderSnapshot} {state : OrderState}
    (hread : deserializeReport codec text = some event) (hid : order.orderId = event.payload.orderId)
    (hfollow : (eventsFor codec order.orderId [text]).foldlM (reduceOrder codec.fingerprint) order.observedState =
      .ok state) : ∃ orders', observeReport codec orders order event = .ok orders' := by
  have hevent := orderEventOf_of_read hread order.orderId
  unfold observeReport
  cases hpayload : event.payload with
  | fill payload => exact ⟨orders, rfl⟩
  | order payload =>
    rw [hpayload] at hevent hid
    unfold eventsFor at hfollow
    rw [List.filterMap_cons_some (hevent.trans (Option.filter_some_pos (decide_eq_true hid.symm))),
      List.filterMap_nil, List.foldlM_cons, bind_ok_iff] at hfollow
    obtain ⟨next, hnext, -⟩ := hfollow
    have hvalid : { order.toOrderSnapshotFields with observedState := next }.validate = .ok () := by
      have hbefore := order.valid
      unfold OrderSnapshotFields.validate at hbefore ⊢
      simp only [bind_ok_iff, require_ok_iff, exists_const] at hbefore ⊢
      exact ⟨hbefore.1, hbefore.2.1, hbefore.2.2.1, hbefore.2.2.2.trans (reduceOrder_ok hnext).2.1.symm⟩
    refine ⟨replaceOrderIn orders ⟨_, hvalid⟩, ?_⟩
    simp only [reduce_ok_iff.2 hnext, ok_bind]
    unfold OrderSnapshotFields.build
    rw [validated_of _ hvalid]
    rfl

theorem observeDues_ok (hids : (orders.map (·.orderId)).Nodup)
    (hread : ∀ item ∈ items, ∃ event, deserializeReport codec item.canonicalEvent = some event ∧
      event.payload.orderId ∈ orders.map (·.orderId))
    (hfollow : ∀ order ∈ orders, ∃ state, (eventsFor codec order.orderId (items.map fun item =>
      item.canonicalEvent)).foldlM (reduceOrder codec.fingerprint) order.observedState = .ok state) :
    ∃ orders', items.foldlM (observeDue codec) orders = .ok orders' := by
  induction items generalizing orders with
  | nil => exact ⟨orders, rfl⟩
  | cons item items ih =>
    obtain ⟨event, hevent, hknown⟩ := hread item List.mem_cons_self
    obtain ⟨order, horder⟩ := orderFrom_of_mem hknown
    obtain ⟨hmem, hid⟩ := orderFrom_ok horder
    obtain ⟨state, hstate⟩ := hfollow order hmem
    rw [List.map_cons, ← List.singleton_append, eventsFor_append, List.foldlM_append, bind_ok_iff] at hstate
    obtain ⟨next, hnext, -⟩ := hstate
    obtain ⟨observed, hobserved⟩ := @observeReport_of codec orders _ _ _ _ hevent hid hnext
    have hfirst := observeReport_ok hids hevent horder hobserved
    have hsame := orderIds_of_forall₂ hfirst
    obtain ⟨orders', hrest⟩ := ih (by rw [hsame]; exact hids)
      (fun later hlater => by rw [hsame]; exact hread later (List.mem_cons_of_mem _ hlater))
      (fun after hafter => by
        obtain ⟨before, hbefore, hmoved⟩ := exists_mem_left hfirst hafter
        obtain ⟨state, hstate⟩ := hfollow before hbefore
        rw [List.map_cons, ← List.singleton_append, eventsFor_append, List.foldlM_append, hmoved.observedState,
          ok_bind] at hstate
        rw [hmoved.orderId]
        exact ⟨state, hstate⟩)
    refine ⟨orders', ?_⟩
    rw [List.foldlM_cons]
    unfold observeDue
    rw [readReport_ok_iff.2 hevent, ok_bind, horder, ok_bind, hobserved, ok_bind]
    exact hrest

variable {scenario : SandboxScenario codec} {client : SandboxClient}

theorem Consistent.pendingTexts_due (h : Consistent scenario client) :
    ∃ rest, client.pendingTexts = (client.due.map (·.canonicalEvent)) ++ rest := by
  unfold SandboxClient.pendingTexts SandboxClient.due
  rw [sortBy_split (positions_nodup h.ordinals)
    (fun item => decide (item.plan.deliverAt ≤ client.snapshot.currentTime)) fun a _ ha b _ hb => ?_, List.map_append]
  · exact ⟨_, rfl⟩
  · rw [decide_eq_true_eq] at ha
    rw [decide_eq_false_iff_not, not_le] at hb
    exact Prod.Lex.toLex_lt_toLex.2 (.inl (ha.trans_lt hb))

theorem Consistent.observeDues_ok (h : Consistent scenario client) :
    ∃ orders', client.due.foldlM (observeDue codec) client.snapshot.orders = .ok orders' := by
  refine ExecutionSandbox.observeDues_ok client.snapshot.checked.orderIds ?_ ?_
  · intro item hitem
    obtain ⟨report, hreport, -, hevent⟩ := exists_known h.known (h.retained item (mem_due.1 hitem).1)
    exact ⟨report.event, hevent, client.snapshot.checked.knownOrders report hreport⟩
  · intro order horder
    obtain ⟨rest, hrest⟩ := h.pendingTexts_due
    have hvenue := (h.tracks order horder).venue
    rw [hrest, eventsFor_append, List.foldlM_append, bind_ok_iff] at hvenue
    obtain ⟨state, hstate, -⟩ := hvenue
    exact ⟨state, hstate⟩

def lifecycleError : SandboxFailure := raised "invalid order lifecycle transition"

theorem avoids_replaceState (change : StateChange) :
    Avoids (fun e => e = lifecycleError) (client.replaceState codec change) := by
  unfold SandboxClient.replaceState
  refine Avoids.bind (avoids_mapM fun item _ => Avoids.bind ?_ fun _ _ => avoids_ok _) fun _ _ =>
    Avoids.bind ?_ fun _ _ => avoids_ok _
  · unfold readReport
    split
    · exact avoids_ok _
    · exact avoids_error (by decide)
  · unfold SnapshotFields.build SnapshotFields.validate
    refine avoids_validated ?_
    simp only [avoids_bind_iff]
    refine ⟨avoids_require (by decide), fun _ _ => ⟨avoids_require (by decide), fun _ _ => ⟨avoids_require (by decide),
      fun _ _ => ⟨avoids_require (by decide), fun _ _ => ⟨avoids_require (by decide), fun _ _ =>
        avoids_require (by decide)⟩⟩⟩⟩⟩

theorem Consistent.drain_error (h : Consistent scenario client) {e : SandboxFailure} {next : SandboxClient}
    (hdrain : (client.drainReports codec).Returns (.error e, next)) : next = client ∧ e ≠ lifecycleError := by
  have hend : ∀ {e' : SandboxFailure}, e' ≠ lifecycleError →
      (Prog.ret (.error e', client) : Prog RepositoryReply Outcomes).Returns (.error e, next) →
      next = client ∧ e ≠ lifecycleError := by
    intro e' hne hreturns
    obtain ⟨he, rfl⟩ := Prod.mk.inj (returns_ret_iff.1 hreturns)
    rw [← Except.error.inj he]
    exact ⟨rfl, hne⟩
  unfold SandboxClient.drainReports at hdrain
  split at hdrain
  · rename_i e' hconnected
    refine hend ?_ hdrain
    unfold SandboxClient.requireConnected require at hconnected
    split_ifs at hconnected
    rw [← Except.error.inj hconnected]
    decide
  · split_ifs at hdrain
    · cases (Prod.mk.inj (returns_ret_iff.1 hdrain)).1
    · obtain ⟨result, hresult, hdrain⟩ := returns_bind hdrain
      split at hdrain
      · obtain ⟨orders', hdue⟩ := h.observeDues_ok
        refine hend ?_ hdrain
        rintro rfl
        exact absurd (deliverReports_error hdue hresult) (by decide)
      · split at hdrain
        · rename_i e' hdrained
          exact hend (avoids_replaceState _ e' hdrained) hdrain
        · cases (Prod.mk.inj (returns_ret_iff.1 hdrain)).1

variable {reply : SandboxReply} {next : SandboxClient}

theorem drain_ok (h : (client.drainReports codec).Returns (.ok reply, next)) :
    ∃ events, client.due.mapM (fun item => readReport codec item.canonicalEvent) = .ok events ∧
      reply = .delivered events ∧ (client.due = [] → next = client) ∧ (client.due ≠ [] →
        ∃ orders', client.due.foldlM (observeDue codec) client.snapshot.orders = .ok orders' ∧
          client.drained codec orders' = .ok next) := by
  unfold SandboxClient.drainReports at h
  split at h
  · cases (Prod.mk.inj (returns_ret_iff.1 h)).1
  · split_ifs at h with hdue
    · obtain ⟨hreply, rfl⟩ := Prod.mk.inj (returns_ret_iff.1 h)
      rw [hdue]
      exact ⟨[], rfl, (Except.ok.inj hreply).symm, fun _ => rfl, fun hne => absurd rfl hne⟩
    · obtain ⟨result, hresult, h⟩ := returns_bind h
      split at h
      · cases (Prod.mk.inj (returns_ret_iff.1 h)).1
      · split at h
        · cases (Prod.mk.inj (returns_ret_iff.1 h)).1
        · rename_i hdrained
          obtain ⟨hreply, rfl⟩ := Prod.mk.inj (returns_ret_iff.1 h)
          obtain ⟨horders, events, hevents, hdelivered⟩ := deliverReports_returns hresult
          rw [List.nil_append] at hdelivered
          rw [← Except.ok.inj hreply, hdelivered]
          exact ⟨events, hevents, rfl, fun hnil => absurd hnil hdue, fun _ => ⟨_, horders, hdrained⟩⟩

/-- Drains that succeed deliver the same reports and leave the same state, whatever their ledgers are. -/
theorem drain_unique {reply' : SandboxReply} {next' : SandboxClient}
    (h : (client.drainReports codec).Returns (.ok reply, next))
    (h' : (client.drainReports codec).Returns (.ok reply', next')) : reply' = reply ∧ next' = next := by
  obtain ⟨events, hevents, rfl, hempty, hdue⟩ := drain_ok h
  obtain ⟨events', hevents', rfl, hempty', hdue'⟩ := drain_ok h'
  refine ⟨congrArg _ (Except.ok.inj (hevents'.symm.trans hevents)), ?_⟩
  by_cases hnil : client.due = []
  · exact (hempty' hnil).trans (hempty hnil).symm
  · obtain ⟨orders', horders, hdrained⟩ := hdue hnil
    obtain ⟨orders'', horders', hdrained'⟩ := hdue' hnil
    obtain rfl := Except.ok.inj (horders'.symm.trans horders)
    exact Except.ok.inj (hdrained'.symm.trans hdrained)

section Stored

variable {σ : Type} {ledger : FailingLedger codec.toAuthorityCodec σ} {n : ℕ} {s t u : σ} {event : ReportEvent}

/-- The ledger has the event of the report, once. -/
def StoredOnce (codec : SandboxCodec) (store : AuthorityStore) (event : ReportEvent) : Prop :=
  ((eventsOf store.log).filter fun stored => stored.eventId = event.eventId) = [toLedger codec event]

theorem StoredOnce.later {store store' : AuthorityStore} (h : StoredOnce codec store event)
    (hle : store.log <+: store'.log) (hrecorded : Recorded codec.toAuthorityCodec store') :
    StoredOnce codec store' event := by
  obtain ⟨added, hadded⟩ := hle
  have hdistinct := hrecorded.distinct
  have hmem : toLedger codec event ∈ (eventsOf store.log).filter fun stored => stored.eventId = event.eventId := by
    rw [h]
    exact List.mem_singleton_self _
  obtain ⟨hstored, hid⟩ := List.mem_filter.1 hmem
  rw [decide_eq_true_eq] at hid
  unfold StoredOnce at h ⊢
  rw [← hadded, eventsOf_append] at hdistinct ⊢
  rw [List.map_append, List.nodup_append] at hdistinct
  have hnone : ((eventsOf added).filter fun stored => stored.eventId = event.eventId) = [] := by
    refine List.filter_eq_nil_iff.2 fun other hother heq => ?_
    rw [decide_eq_true_eq] at heq
    exact hdistinct.2.2 _ (List.mem_map_of_mem hstored) _ (List.mem_map_of_mem hother) (hid.trans heq.symm)
  rw [List.filter_append, h, hnone, List.append_nil]

theorem storedOnce_append (hround : codec.RoundTrips)
    (h : (appendAndReadBack codec event).run.RunsTo ledger.server ledger.discipline n s (.ok ()) u) :
    StoredOnce codec (ledger.view u) event := by
  unfold appendAndReadBack at h
  split at h
  · cases (runsTo_ret_iff.1 h).1
  rename_i text htext
  obtain ⟨_, _, -, h⟩ := runsTo_bind_ok h
  obtain ⟨outcome, _, -, h⟩ := runsTo_bind_ok h
  split at h
  · cases (runsTo_ret_iff.1 h).1
  obtain ⟨_, _, -, h⟩ := runsTo_bind_ok h
  obtain ⟨loaded, v, hload, h⟩ := runsTo_bind_ok h
  split at h
  · cases (runsTo_ret_iff.1 h).1
  rename_i events
  obtain ⟨hrequire, rfl⟩ := runsTo_ret_iff.1 h
  obtain ⟨stored, honly, hstored⟩ := require_ok_iff.1 hrequire
  cases hload with
  | call hle hinv hload =>
    obtain ⟨hevents, rfl⟩ := runsTo_ret_iff.1 hload
    have hloaded := ledger.loaded hround.ledger hinv (Except.ok.inj hevents)
    rw [hloaded] at honly
    obtain rfl : stored = toLedger codec event := by
      have hread := deserializeEvent_of_serialize hround.ledger hstored
      exact Option.some.inj (hread.symm.trans (deserializeEvent_of_serialize hround.ledger htext))
    have hone := onlyOne_eq_some_iff.1 honly
    refine List.perm_singleton.1 (List.Perm.trans ?_ (List.Perm.of_eq hone))
    exact ((sortBy_perm _ _).filter _).symm

theorem storedOnce_deliver (hround : codec.RoundTrips) {item : QueuedReport}
    (h : (deliverReport codec (orders, delivered) item).run.RunsTo ledger.server ledger.discipline n s
      (.ok (orders', delivered')) u) (hread : readReport codec item.canonicalEvent = .ok event) :
    StoredOnce codec (ledger.view u) event := by
  unfold deliverReport at h
  rw [hread] at h
  obtain ⟨_, _, hevent, h⟩ := runsTo_bind_ok h
  obtain rfl := Except.ok.inj (runsTo_ret_iff.1 hevent).1
  obtain ⟨_, _, -, h⟩ := runsTo_bind_ok h
  obtain ⟨_, _, happend, h⟩ := runsTo_bind_ok h
  obtain ⟨_, _, hobserved, h⟩ := runsTo_bind_ok h
  obtain ⟨-, rfl⟩ := runsTo_ret_iff.1 hobserved
  obtain ⟨-, rfl⟩ := runsTo_ret_iff.1 h
  exact storedOnce_append hround happend

theorem FailingLedger.runs_keep {α : Type} {p : Prog RepositoryReply α} {a : α} (hinv : ledger.discipline.Inv s)
    (h : p.RunsTo ledger.server ledger.discipline n s a t) :
    (ledger.view s).log <+: (ledger.view t).log ∧ Recorded codec.toAuthorityCodec (ledger.view t) :=
  ⟨h.le fun request _ hs => (ledger.keeps request hs).1, h.inv (fun request _ hs => (ledger.keeps request hs).2) hinv⟩

theorem storedOnce_delivers (hround : codec.RoundTrips) {events : List ReportEvent} (hinv : ledger.discipline.Inv s)
    (h : (items.foldlM (deliverReport codec) (orders, delivered)).run.RunsTo ledger.server ledger.discipline n s
      (.ok (orders', delivered')) u)
    (hread : items.mapM (fun item => readReport codec item.canonicalEvent) = .ok events) :
    ∀ event ∈ events, StoredOnce codec (ledger.view u) event := by
  induction items generalizing orders delivered s events with
  | nil =>
    obtain rfl := Except.ok.inj hread
    exact fun _ hevent => nomatch hevent
  | cons item items ih =>
    rw [List.foldlM_cons] at h
    obtain ⟨⟨between, soFar⟩, v, hitem, hrest⟩ := runsTo_bind_ok h
    simp only [List.mapM_cons, bind_ok_iff, pure_eq_ok, Except.ok.injEq] at hread
    obtain ⟨first, hfirst, others, hothers, rfl⟩ := hread
    obtain ⟨-, hv⟩ := ledger.runs_keep hinv hitem
    obtain ⟨hle, hu⟩ := ledger.runs_keep hv hrest
    intro event hevent
    rcases List.mem_cons.1 hevent with rfl | hlater
    · exact (storedOnce_deliver hround hitem hfirst).later hle hu
    · exact ih hv hrest hothers event hlater

theorem storedOnce_drain (hround : codec.RoundTrips) {events : List ReportEvent} (hinv : ledger.discipline.Inv s)
    (h : (client.drainReports codec).RunsTo ledger.server ledger.discipline n s (.ok reply, next) u)
    (hread : client.due.mapM (fun item => readReport codec item.canonicalEvent) = .ok events) :
    ∀ event ∈ events, StoredOnce codec (ledger.view u) event := by
  unfold SandboxClient.drainReports at h
  split at h
  · cases (Prod.mk.inj (runsTo_ret_iff.1 h).1).1
  · split_ifs at h with hdue
    · rw [hdue] at hread
      obtain rfl := Except.ok.inj hread
      exact fun _ hevent => nomatch hevent
    · obtain ⟨result, v, hresult, h⟩ := runsTo_bind h
      split at h
      · cases (Prod.mk.inj (runsTo_ret_iff.1 h).1).1
      · split at h
        · cases (Prod.mk.inj (runsTo_ret_iff.1 h).1).1
        · obtain ⟨-, rfl⟩ := runsTo_ret_iff.1 h
          exact storedOnce_delivers hround hinv hresult hread

/-- Drains that failed, and what others did meanwhile. -/
inductive FailedDrains (ledger : FailingLedger codec.toAuthorityCodec σ) :
    SandboxClient → σ → SandboxClient → σ → Prop
  | none (client : SandboxClient) (s : σ) : FailedDrains ledger client s client s
  | drain {client between next : SandboxClient} {s t u : σ} {n : ℕ} {e : SandboxFailure}
      (h : FailedDrains ledger client s between t)
      (hrun : (between.drainReports codec).RunsTo ledger.server ledger.discipline n t (.error e, next) u) :
      FailedDrains ledger client s next u
  | others {client between : SandboxClient} {s t u : σ} (h : FailedDrains ledger client s between t)
      (hle : ledger.discipline.le t u) (hinv : ledger.discipline.Inv u) : FailedDrains ledger client s between u

theorem FailedDrains.same {retried : SandboxClient} (h : FailedDrains ledger client s retried t)
    (hclient : Consistent scenario client) (hinv : ledger.discipline.Inv s) :
    retried = client ∧ ledger.discipline.Inv t := by
  induction h with
  | none => exact ⟨rfl, hinv⟩
  | drain _ hrun ih =>
    obtain ⟨rfl, ht⟩ := ih hinv
    exact ⟨(hclient.drain_error hrun.returns).1, (ledger.runs_keep ht hrun).2⟩
  | others _ _ hinv' ih => exact ⟨(ih hinv).1, hinv'⟩

end Stored

/-- Drains that raise change nothing; the one that succeeds delivers each report once and returns what any other
would. -/
theorem delivery_survives_failures {σ : Type} (codec : SandboxCodec) (scenario : SandboxScenario codec)
    (ledger : FailingLedger codec.toAuthorityCodec σ) (client retried : SandboxClient) (s t : σ)
    (hround : codec.RoundTrips) (hdistinct : Distinguishes codec.fingerprint scenario.Observes)
    (hreachable : Reachable scenario client (ledger.view s)) (hfailed : FailedDrains ledger client s retried t) :
    retried = client ∧
    (∀ n e next u, (retried.drainReports codec).RunsTo ledger.server ledger.discipline n t (.error e, next) u →
      next = client ∧ e ≠ lifecycleError) ∧
    ∀ n reply next u, (retried.drainReports codec).RunsTo ledger.server ledger.discipline n t (.ok reply, next) u →
      (∀ n' store reply' next' store', (client.drainReports codec).RunsTo (serve codec.toAuthorityCodec)
        (ledgerDiscipline codec.toAuthorityCodec) n' store (.ok reply', next') store' →
        reply = reply' ∧ next = next') ∧
      ∃ events, client.due.mapM (fun item => readReport codec item.canonicalEvent) = .ok events ∧
        reply = .delivered events ∧ ∀ event ∈ events, StoredOnce codec (ledger.view u) event := by
  have hclient := hreachable.consistent hround hdistinct
  obtain ⟨rfl, hinv⟩ := hfailed.same hclient hreachable.recorded
  refine ⟨rfl, fun n e next u hrun => hclient.drain_error hrun.returns, fun n reply next u hrun => ⟨?_, ?_⟩⟩
  · intro n' store reply' next' store' hother
    exact drain_unique hother.returns hrun.returns
  · obtain ⟨events, hevents, hreply, -⟩ := drain_ok hrun.returns
    exact ⟨events, hevents, hreply, storedOnce_drain hround hinv hrun hevents⟩

def sampleLedger : FailingLedger sampleSandbox.toAuthorityCodec (AuthorityStore × ℕ) where
  server n request s :=
    match request with
    | .append event outbox =>
      let answer := serve sampleSandbox.toAuthorityCodec n (.append event outbox) s.1
      (if s.2 = 1 then .error (.eventConflict "connection lost") else answer.1, (answer.2, s.2 - 1))
    | .loadEvents => (serve sampleSandbox.toAuthorityCodec n .loadEvents s.1 |>.1, (s.1, s.2 - 1))
  view s := s.1
  answers n request s := by
    cases request with
    | loadEvents => exact .served _
    | append event outbox =>
      dsimp only
      split_ifs
      · exact .notReported event outbox _
      · exact .served _

/-- A drain of the client that submitted one order. -/
def sampleDrain (state : AuthorityStore × ℕ) : Outcomes × (AuthorityStore × ℕ) :=
  (sampleSubmission.1.2.drainReports sampleSandbox).runAlone sampleLedger.server 0 state

theorem runsTo_sampleDrain {state : AuthorityStore × ℕ} (h : sampleLedger.discipline.Inv state) :
    (sampleSubmission.1.2.drainReports sampleSandbox).RunsTo sampleLedger.server sampleLedger.discipline 0 state
      (sampleDrain state).1 (sampleDrain state).2 :=
  runsTo_runAlone (fun request _ hs => (sampleLedger.keeps request hs).2) _ h

theorem sampleDrain_fails : (sampleDrain (sampleSubmission.2, 3)).1.1.isOk = false := by decide +kernel

theorem sampleDrain_succeeds : (sampleDrain (sampleDrain (sampleSubmission.2, 3)).2).1.1.isOk = true := by
  decide +kernel

theorem sampleSubmission_due : sampleSubmission.1.2.due ≠ [] := by decide +kernel

/-- The first drain fails, and the second delivers. -/
theorem sample_delivery_survives_failure : ∃ t events next u, events ≠ [] ∧
    FailedDrains sampleLedger sampleSubmission.1.2 (sampleSubmission.2, 3) sampleSubmission.1.2 t ∧
    (sampleSubmission.1.2.drainReports sampleSandbox).RunsTo sampleLedger.server sampleLedger.discipline 0 t
      (.ok (.delivered events), next) u ∧
    sampleSubmission.1.2.due.mapM (fun item => readReport sampleSandbox item.canonicalEvent) = .ok events ∧
    ∀ event ∈ events, StoredOnce sampleSandbox (sampleLedger.view u) event := by
  have hreachable : Reachable sampleScenario sampleSubmission.1.2 sampleSubmission.2 :=
    reachable_callAlone (.start 0 sampleStore_recorded) _
  have hinv : sampleLedger.discipline.Inv (sampleSubmission.2, 3) := hreachable.recorded
  have hfirst := runsTo_sampleDrain hinv
  have hsecond := runsTo_sampleDrain (sampleLedger.runs_keep hinv hfirst).2
  have hfails := sampleDrain_fails
  have hsucceeds := sampleDrain_succeeds
  generalize sampleDrain (sampleDrain (sampleSubmission.2, 3)).2 = later at hsecond hsucceeds
  generalize sampleDrain (sampleSubmission.2, 3) = result at hfirst hfails hsecond
  obtain ⟨⟨outcome, between⟩, t⟩ := result
  obtain ⟨⟨outcome', next⟩, u⟩ := later
  cases outcome with
  | ok reply => cases hfails
  | error e =>
    cases outcome' with
    | error e' => cases hsucceeds
    | ok reply =>
      have hfailed := FailedDrains.drain (.none _ _) hfirst
      obtain ⟨rfl, -, hdelivers⟩ := delivery_survives_failures sampleSandbox sampleScenario sampleLedger _ _
        (sampleSubmission.2, 3) t sampleSandbox_roundTrips sampleScenario_distinct hreachable hfailed
      obtain ⟨-, events, hread, rfl, hstored⟩ := hdelivers 0 reply next u hsecond
      refine ⟨t, events, next, u, ?_, hfailed, hsecond, hread, hstored⟩
      rintro rfl
      exact sampleSubmission_due (List.forall₂_nil_right_iff.1 (mapM_ok_iff.1 hread))

/-! ## The reports of a run -/

variable {scenario : SandboxScenario codec} {client next : SandboxClient} {store : AuthorityStore}
  {outcome : Except SandboxFailure SandboxReply} {given : List ReportEvent}

/-- The states of a client and its ledger, with the reports that the calls so far gave. -/
inductive Gives (scenario : SandboxScenario codec) : SandboxClient → AuthorityStore → List ReportEvent → Prop
  | start (initialTime : DateTime) {store : AuthorityStore} (hstore : Recorded codec.toAuthorityCodec store) :
      Gives scenario (.initial initialTime) store []
  | others {client : SandboxClient} {store store' : AuthorityStore} {given : List ReportEvent}
      (h : Gives scenario client store given) (hle : store.log <+: store'.log)
      (hstore : Recorded codec.toAuthorityCodec store') : Gives scenario client store' given
  | call {client next : SandboxClient} {store store' : AuthorityStore} {given : List ReportEvent}
      {outcome : Except SandboxFailure SandboxReply} {n : ℕ} (h : Gives scenario client store given)
      (call : SandboxCall) (hrun : (client.call scenario call).RunsTo (serve codec.toAuthorityCodec)
        (ledgerDiscipline codec.toAuthorityCodec) n store (outcome, next) store') :
      Gives scenario next store' (given ++ reportsOf outcome)

theorem Gives.reachable (h : Gives scenario client store given) : Reachable scenario client store := by
  induction h with
  | start _ hstore => exact .start _ hstore
  | others _ hle hstore ih => exact ih.others hle hstore
  | call _ call hrun ih => exact ih.call call hrun

theorem Drains.of_prefix (h : Drains codec client next) (hclient : Consistent scenario client)
    (hqueue : client.queuedReports <+: next.queuedReports) : next.deliveredTexts = client.deliveredTexts := by
  have hsame : next.queuedReports = client.queuedReports := by
    rw [h.rest hclient] at hqueue ⊢
    exact List.filter_sublist.antisymm hqueue.sublist
  unfold SandboxClient.deliveredTexts
  rw [h.retained, hsame]

theorem call_gives (hclient : Consistent scenario client) {call : SandboxCall}
    (h : (client.call scenario call).Returns (outcome, next)) : (next.deliveredTexts.map (deserializeReport codec)).Perm
      (client.deliveredTexts.map (deserializeReport codec) ++ (reportsOf outcome).map some) := by
  have hquiet : reportsOf outcome = [] → next.deliveredTexts = client.deliveredTexts →
      (next.deliveredTexts.map (deserializeReport codec)).Perm
        (client.deliveredTexts.map (deserializeReport codec) ++ (reportsOf outcome).map some) := by
    intro hnone hsame
    rw [hnone, hsame, List.map_nil, List.append_nil]
  by_cases hcall : call = .drainReports
  · subst hcall
    cases outcome with
    | error e => exact hquiet rfl (by rw [(hclient.drain_error h).1])
    | ok reply =>
      obtain ⟨events, hevents, rfl, hnil, hdue⟩ := drain_ok h
      by_cases hempty : client.due = []
      · rw [hempty] at hevents
        exact hquiet (Except.ok.inj hevents).symm (by rw [hnil hempty])
      · obtain ⟨orders, -, hdrained⟩ := hdue hempty
        obtain ⟨hqueue, hretained, -⟩ := replaceState_ok hdrained
        have hperm := (hclient.delivered hretained hqueue).map (deserializeReport codec)
        rw [List.map_append, List.map_map] at hperm
        refine hperm.trans (.append_left _ (.of_eq ?_))
        have hread := mapM_ok_iff.1 hevents
        simp only [readReport_ok_iff] at hread
        exact List.forall₂_eq_eq_eq ▸ List.forall₂_map_left_iff.2 (List.forall₂_map_right_iff.2 hread)
  · obtain ⟨⟨hstep, hqueue⟩, hnone⟩ := call_acts hcall h
    refine hquiet hnone ?_
    cases hstep with
    | refused => rfl
    | schedules h => exact h.deliveredTexts
    | drains h => exact h.of_prefix hclient hqueue
    | transition _ _ hsame | advances _ hsame =>
      unfold SandboxClient.deliveredTexts
      rw [hsame.1, hsame.2.1]

theorem Consistent.deliveredReports (h : Consistent scenario client) :
    client.snapshot.deliveredReports.map (fun report => some report.event) =
      client.deliveredTexts.map (deserializeReport codec) := by
  have hqueued : (client.snapshot.queuedReports.map (·.reportId)) =
      client.queuedReports.map (·.plan.reportId) := by
    rw [h.plans, List.map_map]
    rfl
  unfold SandboxSnapshot.deliveredReports SandboxClient.deliveredTexts
  rw [hqueued]
  have hknown := mapM_ok_iff.1 h.known
  generalize client.snapshot.knownReports = known at hknown
  generalize client.retainedReports = retained at hknown
  induction hknown with
  | nil => rfl
  | @cons item report _ _ hreport _ ih =>
    obtain ⟨hid, hread⟩ := known_ok_iff.1 hreport
    rw [List.filter_cons, List.filter_cons, hid]
    split
    · rw [List.map_cons, List.map_cons, List.map_cons, ih, hread]
    · exact ih

/-- The reports given are the planned reports of the executed commands that are not queued any more, each once. -/
structure GivenOnce (scenario : SandboxScenario codec) (client : SandboxClient) (given : List ReportEvent) : Prop where
  given : given.Perm (client.snapshot.deliveredReports.map fun report => report.event)
  known : (client.snapshot.knownReports.map fun report => report.reportId) =
    client.executedCommandIds.flatMap scenario.reportIdsOf
  once : client.executedCommandIds.Nodup ∧ (client.snapshot.knownReports.map fun report => report.reportId).Nodup

theorem reports_given_once (codec : SandboxCodec) (scenario : SandboxScenario codec) (client : SandboxClient)
    (store : AuthorityStore) (given : List ReportEvent) (hround : codec.RoundTrips)
    (hdistinct : Distinguishes codec.fingerprint scenario.Observes) (h : Gives scenario client store given) :
    GivenOnce scenario client given := by
  have hgiven : (given.map some).Perm (client.deliveredTexts.map (deserializeReport codec)) := by
    induction h with
    | start => exact .nil
    | others _ _ _ ih => exact ih
    | call h call hrun ih =>
      rw [List.map_append]
      exact (ih.append_right _).trans (call_gives (h.reachable.consistent hround hdistinct) hrun.returns).symm
  have hclient := h.reachable.consistent hround hdistinct
  have hids := known_ids hclient.known
  rw [← hclient.deliveredReports] at hgiven
  refine ⟨?_, hids.trans hclient.commands.2, hclient.commands.1, hids ▸ hclient.retained_nodup⟩
  simpa [List.filterMap_map, Function.comp_def] using hgiven.filterMap id

theorem gives_callAlone {state : Outcomes × AuthorityStore} (h : Gives sampleScenario state.1.2 state.2 given)
    (call : SandboxCall) : Gives sampleScenario (callAlone state call).1.2 (callAlone state call).2
      (given ++ reportsOf (callAlone state call).1.1) :=
  .call h call (runsTo_runAlone serve_recorded _ h.reachable.recorded)

theorem sampleRun_given_once : GivenOnce sampleScenario sampleRun.1.2
    ([] ++ reportsOf sampleSubmission.1.1 ++ reportsOf sampleRun.1.1) :=
  reports_given_once sampleSandbox sampleScenario _ _ _ sampleSandbox_roundTrips sampleScenario_distinct
    (gives_callAlone (gives_callAlone (.start 0 sampleStore_recorded) _) _)

end TradingAgent.ExecutionSandbox
