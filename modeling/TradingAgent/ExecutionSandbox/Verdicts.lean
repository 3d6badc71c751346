import TradingAgent.ExecutionSandbox.Agreement
import TradingAgent.RuntimeRisk.AuthorityRuns

/-! Which evidence the reconciliation takes for complete. -/

namespace TradingAgent.ExecutionSandbox

open Outcome Interaction EventLedger RuntimeRisk

variable {codec : SandboxCodec}

/-- Faithful evidence, in any order and with repetitions, finds nothing but what is still to be delivered. -/
theorem faithful_evidence_reconciles (scenario : SandboxScenario codec) (client : SandboxClient)
    (store : AuthorityStore) (hround : codec.RoundTrips)
    (hdistinct : Distinguishes codec.fingerprint scenario.Observes) (hreachable : Reachable scenario client store)
    (observed : List ReportEvent)
    (hobserved : ∀ event, event ∈ observed ↔ ∃ report ∈ client.snapshot.deliveredReports, report.event = event) :
    (∃ (hvalid : (observed.foldlM (observedText codec) []).isOk = true) (result : SandboxReconciliationResult),
      reconcileExecutionState codec ⟨client.snapshot, observed, hvalid⟩ = .ok result ∧
        result.status = if client.queuedReports = [] then .reconciled else .deliveryPending) ∧
      ∀ order ∈ client.snapshot.orders, (eventsFor codec order.orderId client.pendingTexts).foldlM
        (reduceOrder codec.fingerprint) order.observedState = .ok order.venueState := by
  have h := hreachable.consistent hround hdistinct
  have hvalid : (observed.foldlM (observedText codec) []).isOk = true := by
    refine isOk_iff.2 ?_
    have htexts : ∀ event ∈ observed, (serializeReport codec event).isSome := by
      intro event hevent
      obtain ⟨report, hreport, rfl⟩ := (hobserved event).1 hevent
      obtain ⟨text, htext⟩ := h.known_text (List.mem_filter.1 hreport).1
      rw [htext]
      rfl
    have hcollected := Dict.foldlM_collects (@observedText_collects codec) observed htexts ?_
    · obtain ⟨texts, htexts, -⟩ := hcollected
      exact ⟨texts, htexts⟩
    · intro a ha b hb hid
      obtain ⟨report, hreport, rfl⟩ := (hobserved a).1 ha
      obtain ⟨report', hreport', rfl⟩ := (hobserved b).1 hb
      rw [h.known_functional hround (List.mem_filter.1 hreport).1 (List.mem_filter.1 hreport').1 hid]
  have haccounted : Accounted client.snapshot observed :=
    ⟨fun event => (hobserved event).1, fun report hreport => .inl ((hobserved _).2 ⟨report, hreport, rfl⟩)⟩
  obtain ⟨result, hresult, -, hstatus⟩ := @Consistent.reconcile codec scenario client h hround
    ⟨client.snapshot, observed, hvalid⟩ rfl
  exact ⟨⟨hvalid, result, hresult, hstatus haccounted⟩, fun order horder => (h.tracks order horder).venue⟩

/-- The observed reports are not the delivered ones, as event ids with texts. -/
def EvidenceDiffers (codec : SandboxCodec) (snapshot : SandboxSnapshot) (observed : List ReportEvent) : Prop :=
  ¬ ∀ entry, entry ∈ (observed.map fun event => (event.eventId, serializeReport codec event)) ↔
    entry ∈ snapshot.deliveredReports.map fun report => (report.event.eventId, serializeReport codec report.event)

/-- Unfaithful evidence is a mismatch, unless what differs is accounted for. -/
theorem unfaithful_evidence_mismatch_iff (scenario : SandboxScenario codec) (client : SandboxClient)
    (store : AuthorityStore) (hround : codec.RoundTrips)
    (hdistinct : Distinguishes codec.fingerprint scenario.Observes) (hreachable : Reachable scenario client store)
    (request : SandboxReconciliationRequest codec) (hsnapshot : request.snapshot = client.snapshot) :
    (EvidenceDiffers codec client.snapshot request.observedReports →
      ∃ result, reconcileExecutionState codec request = .ok result ∧ result.status = .mismatch) ↔
    (EvidenceDiffers codec client.snapshot request.observedReports →
      ¬ Accounted client.snapshot request.observedReports) := by
  have h := hreachable.consistent hround hdistinct
  obtain ⟨result, hresult, hmismatch, hagrees⟩ := h.reconcile hround hsnapshot
  refine imp_congr_right fun _ => ⟨?_, fun hnot => ⟨result, hresult, hmismatch hnot⟩⟩
  rintro ⟨result', hresult', hstatus⟩ haccounted
  obtain rfl := Except.ok.inj (hresult.symm.trans hresult')
  rw [hagrees haccounted] at hstatus
  split_ifs at hstatus

def sampleSubmitted : OrderEvent where
  eventId := 41
  orderId := sampleOrder.intentId
  sequence := 1
  targetStatus := .submitted
  occurredAt := ⟨4, by decide⟩
  reason := none
  cancelResolution := none
  valid := by decide +kernel

def sampleReport (eventId : Uuid) (head : ℕ) : ReportEvent where
  eventId := eventId
  schemaVersion := "order-event-v1"
  source := "sandbox"
  streamId := 71
  sequence := head + 1
  observedAt := 4
  ingestedAt := 4
  producedAt := 4
  effectiveAt := 4
  expiresAt := 5
  correlationId := 1
  causationId := 1
  traceId := 1
  payload := .order sampleSubmitted
  valid := ⟨Nat.succ_pos head, le_rfl, le_rfl, show (4 : ℤ) < 5 by decide⟩

def sampleSandboxCodec (events : List LedgerEvent) : SandboxCodec where
  toAuthorityCodec := sampleAuthorityCodec events
  fingerprint material := toString material.eventId ++ "/" ++ toString material.sequence
  orderEventJson event := if event = sampleSubmitted then "submitted" else "other"
  parseOrderEvent text := if text = "submitted" then some sampleSubmitted else none

def sampleReportEvents : List LedgerEvent :=
  [toLedger (sampleSandboxCodec []) (sampleReport 31 0), toLedger (sampleSandboxCodec []) (sampleReport 32 1)]

def sampleSandbox : SandboxCodec := sampleSandboxCodec (sampleRunEvents ++ sampleReportEvents)

theorem sampleSandbox_roundTrips : sampleSandbox.RoundTrips := by
  refine ⟨sampleAuthorityCodec_roundTrips (by decide +kernel), fun event payload htext hpayload => ?_⟩
  have hmem : toLedger sampleSandbox event ∈ sampleRunEvents ++ sampleReportEvents := by
    unfold serializeReport serializeEvent at htext
    split_ifs at htext with hstorable
    · exact of_decide_eq_true hstorable
    · cases htext
  have hothers : ∀ e ∈ sampleRunEvents ++ sampleReportEvents, e.payload ≠ .unread .orderEvent "other" := by
    decide +kernel
  have hstored := hothers _ hmem
  by_cases hsubmitted : payload = sampleSubmitted
  · rw [hsubmitted]
    decide +kernel
  · refine absurd ?_ hstored
    show event.payload.toLedger sampleSandbox = _
    rw [hpayload]
    exact congrArg (LedgerPayload.unread .orderEvent) (if_neg hsubmitted)

def sampleScenario : SandboxScenario sampleSandbox where
  commandPlans := [⟨51, .submit, .acknowledged, sampleOrder.intentId, [61, 62]⟩]
  reportPlans := [⟨61, 4, .original (sampleReport 31 0)⟩, ⟨62, 4, .original (sampleReport 32 1)⟩]
  valid := by decide +kernel

def sampleSubmitRequest : SandboxSubmitRequest where
  commandId := 51
  orderId := sampleOrder.intentId
  orderIntent := sampleOrder
  permit := (sampleConsume (samplePrepare 21 7 13 0) 1 15).permit
  policyDecision := samplePolicyDecision
  currentObservation := sampleObservation
  currentPolicy := samplePolicy
  currentSafety := sampleSafety .inactive 3
  consumedEventId := 15
  submittedAt := 4
  valid := rfl

def sampleStore : AuthorityStore :=
  (runAuthority sampleSandbox.toAuthorityCodec sampleCalls (sampleSchedule.take 9)).store

def callAlone (state : Outcomes × AuthorityStore) (call : SandboxCall) : Outcomes × AuthorityStore :=
  (state.1.2.call sampleScenario call).runAlone (serve sampleSandbox.toAuthorityCodec) 0 state.2

def sampleSubmission : Outcomes × AuthorityStore :=
  callAlone ((.ok (.delivered []), .initial 0), sampleStore) (.submit sampleSubmitRequest some)

def sampleRun : Outcomes × AuthorityStore := callAlone sampleSubmission .drainReports

theorem reachable_callAlone {state : Outcomes × AuthorityStore}
    (h : Reachable sampleScenario state.1.2 state.2) (call : SandboxCall) :
    Reachable sampleScenario (callAlone state call).1.2 (callAlone state call).2 :=
  .call h call (runsTo_runAlone serve_recorded _ h.recorded)

theorem sampleStore_recorded : Recorded sampleSandbox.toAuthorityCodec sampleStore :=
  (run_holds sampleSandbox_roundTrips.ledger sampleCalls (sampleSchedule.take 9)).1.recorded

theorem sampleRun_reachable : Reachable sampleScenario sampleRun.1.2 sampleRun.2 :=
  reachable_callAlone (reachable_callAlone (.start 0 sampleStore_recorded) _) _

theorem sampleScenario_distinct : Distinguishes sampleSandbox.fingerprint sampleScenario.Observes := by
  have honly : ∀ event, sampleScenario.Observes event → event = sampleSubmitted := by
    rintro event ⟨plan, hplan, report, hsource, hpayload⟩
    have hplans : plan.source = .original (sampleReport 31 0) ∨ plan.source = .original (sampleReport 32 1) := by
      simp only [sampleScenario, List.mem_cons, List.not_mem_nil, or_false] at hplan
      rcases hplan with rfl | rfl
      · exact .inl rfl
      · exact .inr rfl
    rcases hplans with heq | heq
    · obtain rfl := ReportSource.original.inj (heq.symm.trans hsource)
      exact (ReportPayload.order.inj hpayload).symm
    · obtain rfl := ReportSource.original.inj (heq.symm.trans hsource)
      exact (ReportPayload.order.inj hpayload).symm
  intro a b ha hb _ _
  rw [honly a ha, honly b hb]

theorem sampleRun_delivered :
    sampleRun.1.2.snapshot.deliveredReports = [⟨61, sampleReport 31 0⟩, ⟨62, sampleReport 32 1⟩] := by
  decide +kernel

theorem sampleRun_reconciles :
    (∃ (hvalid : ([sampleReport 32 1, sampleReport 31 0, sampleReport 32 1].foldlM (observedText sampleSandbox)
        []).isOk = true) (result : SandboxReconciliationResult),
      reconcileExecutionState sampleSandbox ⟨sampleRun.1.2.snapshot,
          [sampleReport 32 1, sampleReport 31 0, sampleReport 32 1], hvalid⟩ = .ok result ∧
        result.status = if sampleRun.1.2.queuedReports = [] then .reconciled else .deliveryPending) ∧
      ∀ order ∈ sampleRun.1.2.snapshot.orders, (eventsFor sampleSandbox order.orderId
        sampleRun.1.2.pendingTexts).foldlM (reduceOrder sampleSandbox.fingerprint) order.observedState =
          .ok order.venueState :=
  faithful_evidence_reconciles sampleScenario _ _ sampleSandbox_roundTrips sampleScenario_distinct
    sampleRun_reachable _ fun event => by
      rw [sampleRun_delivered]
      simp only [List.mem_cons, List.not_mem_nil, or_false, exists_eq_or_imp, exists_eq_left]
      constructor
      · rintro (rfl | rfl | rfl)
        · exact .inr rfl
        · exact .inl rfl
        · exact .inr rfl
      · rintro (rfl | rfl)
        · exact .inr (.inl rfl)
        · exact .inl rfl

def sampleLoss : SandboxReconciliationRequest sampleSandbox where
  snapshot := sampleRun.1.2.snapshot
  observedReports := [sampleReport 31 0]
  valid := by decide +kernel

theorem sampleLoss_differs : EvidenceDiffers sampleSandbox sampleRun.1.2.snapshot [sampleReport 31 0] := by
  intro hsame
  rw [sampleRun_delivered] at hsame
  have hmem := (hsame (32, serializeReport sampleSandbox (sampleReport 32 1))).2
    (List.mem_cons_of_mem _ List.mem_cons_self)
  have hid := congrArg Prod.fst (List.mem_singleton.1 hmem)
  exact absurd hid (by decide)

/-- The lost report is not noticed: the other one carries the same observation. -/
theorem lost_order_report_reconciles : ¬ ∀ (codec : SandboxCodec) (scenario : SandboxScenario codec)
    (client : SandboxClient) (store : AuthorityStore), codec.RoundTrips →
    Distinguishes codec.fingerprint scenario.Observes → Reachable scenario client store →
    ∀ request : SandboxReconciliationRequest codec, request.snapshot = client.snapshot →
      EvidenceDiffers codec client.snapshot request.observedReports →
      ∃ result, reconcileExecutionState codec request = .ok result ∧ result.status = .mismatch := by
  intro h
  obtain ⟨result, hresult, hstatus⟩ := h sampleSandbox sampleScenario _ _ sampleSandbox_roundTrips
    sampleScenario_distinct sampleRun_reachable sampleLoss rfl sampleLoss_differs
  have hreconciled : (reconcileExecutionState sampleSandbox sampleLoss).toOption.map (fun r => r.status) =
      some .reconciled := by
    decide +kernel
  rw [hresult] at hreconciled
  have hok : result.status = .reconciled := Option.some.inj hreconciled
  rw [hok] at hstatus
  cases hstatus

theorem sampleLoss_verdict : (EvidenceDiffers sampleSandbox sampleRun.1.2.snapshot [sampleReport 31 0] →
      ∃ result, reconcileExecutionState sampleSandbox sampleLoss = .ok result ∧ result.status = .mismatch) ↔
    (EvidenceDiffers sampleSandbox sampleRun.1.2.snapshot [sampleReport 31 0] →
      ¬ Accounted sampleRun.1.2.snapshot [sampleReport 31 0]) :=
  unfaithful_evidence_mismatch_iff sampleScenario _ _ sampleSandbox_roundTrips sampleScenario_distinct
    sampleRun_reachable sampleLoss rfl

end TradingAgent.ExecutionSandbox
