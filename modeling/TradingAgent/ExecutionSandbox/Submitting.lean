import TradingAgent.ExecutionSandbox.Verdicts

/-! A submission consumes its authority before it books an order. -/

namespace TradingAgent.ExecutionSandbox

open Outcome Interaction EventLedger RuntimeRisk

variable {codec : SandboxCodec} {scenario : SandboxScenario codec} {client next : SandboxClient}
  {plan : SandboxCommandPlan} {request : SandboxSubmitRequest} {reports : List (SandboxReportPlan × String)}
  {retained : List RetainedReport}

/-! ## Reports of different commands -/

theorem assignReports_ok {orderIds : Dict Uuid Uuid} {assigned assigned' reportIds : List Uuid}
    (h : reportIds.foldlM (assignReport orderIds plan) assigned = .ok assigned') (hnodup : assigned.Nodup) :
    assigned' = assigned ++ reportIds ∧ assigned'.Nodup := by
  induction reportIds generalizing assigned with
  | nil =>
    obtain rfl := Except.ok.inj h
    exact ⟨(List.append_nil _).symm, hnodup⟩
  | cons reportId reportIds ih =>
    rw [List.foldlM_cons, bind_ok_iff] at h
    obtain ⟨between, hfirst, h⟩ := h
    unfold assignReport at hfirst
    simp only [bind_ok_iff, require_ok_iff, exists_const, pure_eq_ok, Except.ok.injEq] at hfirst
    obtain ⟨-, hnew, -, rfl⟩ := hfirst
    have hbetween : (assigned ++ [reportId]).Nodup :=
      List.nodup_append.2 ⟨hnodup, List.nodup_singleton _, by simpa using fun a ha => by rintro rfl; exact hnew ha⟩
    obtain ⟨rfl, hfinal⟩ := ih h hbetween
    exact ⟨by simp, hfinal⟩

theorem SandboxScenario.reportIds_nodup (scenario : SandboxScenario codec) :
    (scenario.commandPlans.flatMap (·.reportIds)).Nodup := by
  have hvalid := scenario.valid
  unfold validateCrossReferences at hvalid
  simp only [bind_ok_iff] at hvalid
  obtain ⟨_, -, _, -, _, -, reports, -, assigned, hassigned, -⟩ := hvalid
  have hall : ∀ (plans : List SandboxCommandPlan) (assigned : List Uuid),
      plans.foldlM (fun assigned plan => plan.reportIds.foldlM (assignReport reports.orderIds plan) assigned) [] =
        .ok assigned → assigned = (plans.flatMap (·.reportIds)) ∧ assigned.Nodup := by
    intro plans
    induction plans using List.reverseRecOn with
    | nil =>
      intro assigned h
      obtain rfl := Except.ok.inj h
      exact ⟨rfl, .nil⟩
    | append_singleton plans plan ih =>
      intro assigned h
      rw [foldlM_concat, bind_ok_iff] at h
      obtain ⟨before, hbefore, h⟩ := h
      obtain ⟨rfl, hnodup⟩ := ih before hbefore
      obtain ⟨rfl, hfinal⟩ := assignReports_ok h hnodup
      refine ⟨?_, hfinal⟩
      rw [List.flatMap_append, List.flatMap_singleton]
  obtain ⟨rfl, hnodup⟩ := hall _ _ hassigned
  exact hnodup

theorem reportIdsOf_nodup {ids : List Uuid} (h : ids.Nodup) : (ids.flatMap scenario.reportIdsOf).Nodup := by
  have hplans := List.nodup_flatMap.1 scenario.reportIds_nodup
  have hfound : ∀ id reportId, reportId ∈ scenario.reportIdsOf id → ∃ plan ∈ scenario.commandPlans,
      plan.commandId = id ∧ scenario.reportIdsOf id = plan.reportIds := by
    intro id reportId hmem
    unfold SandboxScenario.reportIdsOf at hmem ⊢
    cases hfind : lookupBy (fun plan : SandboxCommandPlan => plan.commandId) scenario.commandPlans id with
    | none =>
      rw [hfind] at hmem
      cases hmem
    | some plan => exact ⟨plan, (lookupBy_some hfind).1, (lookupBy_some hfind).2, rfl⟩
  refine List.nodup_flatMap.2 ⟨fun id _ => ?_, h.imp_of_mem fun {a b} _ _ hne => ?_⟩
  · by_cases hnil : scenario.reportIdsOf id = []
    · rw [hnil]
      exact .nil
    · obtain ⟨reportId, hmem⟩ := List.exists_mem_of_ne_nil _ hnil
      obtain ⟨plan, hplan, -, heq⟩ := hfound id reportId hmem
      rw [heq]
      exact hplans.1 plan hplan
  · intro reportId ha hb
    obtain ⟨plan, hplan, hid, heq⟩ := hfound a reportId ha
    obtain ⟨plan', hplan', hid', heq'⟩ := hfound b reportId hb
    have hdiffer : plan ≠ plan' := by
      rintro rfl
      exact hne (hid.symm.trans hid')
    rw [heq] at ha
    rw [heq'] at hb
    have : Std.Symm (Function.onFun List.Disjoint fun plan : SandboxCommandPlan => plan.reportIds) :=
      ⟨fun _ _ hdisjoint => List.Disjoint.symm hdisjoint⟩
    exact hplans.2.forall hplan hplan' hdiffer ha hb

/-! ## Booking -/

theorem known_of_read {item : RetainedReport} {event : ReportEvent}
    (h : deserializeReport codec item.canonicalEvent = some event) :
    item.known codec = .ok ⟨item.reportId, event⟩ := known_ok_iff.2 ⟨rfl, h⟩

theorem Planned.known (h : Planned scenario retained request.orderId plan.reportIds reports) :
    ∃ known : List SandboxKnownReport, (reports.map retainedOf).mapM (RetainedReport.known codec) = .ok known ∧
      ∀ report ∈ known, report.event.payload.orderId = request.orderId := by
  obtain ⟨ps, hps, hread⟩ := exists_partners h.orders
  refine ⟨ps.map fun p => ⟨p.1.1.reportId, p.2⟩, ?_, ?_⟩
  · rw [← hps, List.map_map, mapM_ok_iff, List.forall₂_map_left_iff, List.forall₂_map_right_iff]
    exact List.forall₂_same.2 fun p hp => known_of_read (hread p hp).1
  · intro report hreport
    obtain ⟨p, hp, rfl⟩ := List.mem_map.1 hreport
    exact (hread p hp).2

theorem mapM_append_ok {α β ε : Type} {f : α → Except ε β} {xs xs' : List α} {ys ys' : List β}
    (h : xs.mapM f = .ok ys) (h' : xs'.mapM f = .ok ys') : (xs ++ xs').mapM f = .ok (ys ++ ys') :=
  mapM_ok_iff.2 (List.rel_append (mapM_ok_iff.1 h) (mapM_ok_iff.1 h'))

variable (h : Consistent scenario client) (hchecked : SubmitChecked scenario client request plan reports retained)
include h hchecked

theorem booked_checked {nextOrder : SandboxOrderSnapshot} (horderId : nextOrder.orderId = request.orderId)
    (hclientId : nextOrder.clientOrderId = request.orderIntent.clientOrderId) :
    ∃ known, retained.mapM (RetainedReport.known codec) = .ok known ∧ SnapshotChecked
      { connectionState := client.snapshot.connectionState
        currentTime := request.submittedAt
        orders := client.snapshot.orders ++ [nextOrder]
        knownReports := known
        queuedReports := (client.queuedReports ++ enqueued client.queuedReports reports).map fun item => item.plan } := by
  obtain ⟨hplanned, hretained⟩ := plannedReports_ok hchecked.planned
  obtain ⟨new, hnew, hnewOrders⟩ := hplanned.known
  have hknown := mapM_append_ok h.known hnew
  rw [← hretained] at hknown
  have hids := known_ids hknown
  -- the reports of the command are new
  have hnodup : (retained.map (·.reportId)).Nodup := by
    have hcommands : (client.executedCommandIds ++ [request.commandId]).Nodup :=
      List.nodup_append.2 ⟨h.commands.1, List.nodup_singleton _, by
        simpa using fun a ha => by rintro rfl; exact hchecked.command.2.2 ha⟩
    have hreports := @reportIdsOf_nodup codec scenario _ hcommands
    have hplan : scenario.reportIdsOf request.commandId = plan.reportIds := by
      unfold SandboxScenario.reportIdsOf
      rw [hchecked.command.1]
      rfl
    rw [List.flatMap_append, List.flatMap_singleton, ← h.commands.2, hplan, ← hplanned.ids] at hreports
    rw [hretained, List.map_append, List.map_map]
    exact hreports
  have hqueuedIds : ((client.queuedReports ++ enqueued client.queuedReports reports).map
      (·.plan.reportId)) = (client.queuedReports.map (·.plan.reportId)) ++
        reports.map (·.1.reportId) := by
    have henqueued := congrArg (List.map fun report : SandboxReportPlan × String => report.1.reportId)
      (enqueued_reports client.queuedReports reports)
    rw [List.map_map] at henqueued
    rw [List.map_append, ← henqueued]
    rfl
  have hsub : ∀ reportId ∈ (client.queuedReports.map (·.plan.reportId)),
      reportId ∈ client.retainedReports.map (·.reportId) := by
    intro reportId hmem
    obtain ⟨item, hitem, rfl⟩ := List.mem_map.1 hmem
    exact List.mem_map.2 ⟨_, h.retained item hitem, rfl⟩
  have hsplit : (retained.map (·.reportId)) =
      (client.retainedReports.map (·.reportId)) ++ reports.map (·.1.reportId) := by
    rw [hretained, List.map_append, List.map_map]
    rfl
  refine ⟨_, hknown, ⟨?_, ?_, ?_, ?_, ?_, ?_⟩⟩
  · rw [List.map_append, List.map_singleton, horderId]
    refine List.nodup_append.2 ⟨client.snapshot.checked.orderIds, List.nodup_singleton _, ?_⟩
    simpa using hchecked.newOrder
  · rw [List.map_append, List.map_singleton, hclientId]
    refine List.nodup_append.2 ⟨client.snapshot.checked.clientOrderIds, List.nodup_singleton _, ?_⟩
    simpa using hchecked.newClientOrder
  · rw [hids]
    exact hnodup
  · rw [List.map_map]
    show ((client.queuedReports ++ enqueued client.queuedReports reports).map
      (·.plan.reportId)).Nodup
    rw [hsplit, List.nodup_append] at hnodup
    rw [hqueuedIds]
    refine List.nodup_append.2 ⟨h.queued_nodup, hnodup.2.1, fun a ha b hb => ?_⟩
    exact hnodup.2.2 a (hsub a ha) b hb
  · intro reportId hmem
    rw [List.map_map] at hmem
    have hmem' : reportId ∈ (client.queuedReports ++ enqueued client.queuedReports reports).map
      (·.plan.reportId) := hmem
    rw [hqueuedIds, List.mem_append] at hmem'
    rw [hids, hsplit]
    exact List.mem_append.2 (hmem'.imp_left (hsub reportId))
  · intro report hreport
    rw [List.map_append, List.mem_append]
    rcases List.mem_append.1 hreport with hold | hreport
    · exact .inl (client.snapshot.checked.knownOrders report hold)
    · rw [hnewOrders report hreport, List.map_singleton, horderId]
      exact .inr List.mem_cons_self

theorem bookOrder_of_checked : ∃ next, client.bookOrder scenario request plan = .ok next := by
  have hvalid : OrderSnapshotFields.validate ⟨request.orderId, request.orderIntent.clientOrderId,
      request.orderIntent, .initial request.orderId, .initial request.orderId⟩ = .ok () := by
    unfold OrderSnapshotFields.validate
    simp only [bind_ok_iff, require_ok_iff, exists_const]
    exact ⟨request.valid, trivial, rfl, rfl⟩
  obtain ⟨state, hstate⟩ := hchecked.venue
  obtain ⟨progress, hprogress⟩ := @applyVenueReports_of codec reports
    ⟨⟨_, hvalid⟩, client.queuedReports, nextOrdinal client.queuedReports, false⟩ state hstate
  obtain ⟨hmoved, hqueued, -⟩ := applyVenueReports_ok hprogress
  obtain ⟨known, hknown, hsnapshot⟩ := booked_checked h hchecked hmoved.orderId hmoved.clientOrderId
  obtain ⟨next, hnext⟩ := @replaceState_of codec client
    { currentTime := some request.submittedAt
      orders := some (client.snapshot.orders ++ [progress.nextOrder])
      queued := some progress.queued
      retained := some retained
      executed := some (client.executedCommandIds ++ [plan.commandId]) } known hknown (by
        rw [show progress.queued = client.queuedReports ++ enqueued client.queuedReports reports from hqueued]
        exact hsnapshot)
  refine ⟨next, ?_⟩
  unfold SandboxClient.bookOrder OrderSnapshotFields.build SandboxClient.applyVenueReportsAndEnqueue
  rw [validated_of _ hvalid, ok_bind, hchecked.planned, ok_bind]
  dsimp only
  rw [hprogress, ok_bind]
  exact hnext

omit h hchecked

/-! ## Spent commands -/

def SandboxCall.commandId? : SandboxCall → Option Uuid
  | .submit request _ => some request.commandId
  | .modify request => some request.commandId
  | .cancel request => some request.commandId
  | .disconnect commandId _ => some commandId
  | .reconnect commandId _ => some commandId
  | .advanceTime _ => none
  | .drainReports => none

theorem settle_refused {x : Except SandboxFailure (SandboxCommandPlan × SandboxClient)}
    (h : ∀ result, x ≠ .ok result) : ∃ e, settle client x = (.error e, client) := by
  cases x with
  | error e => exact ⟨e, rfl⟩
  | ok result => exact absurd rfl (h result)

variable {commandId : Uuid}

theorem call_refused {call : SandboxCall} (hcall : call.commandId? = some commandId)
    (hexecuted : commandId ∈ client.executedCommandIds) : ∃ e, client.call scenario call = .ret (.error e, client) := by
  have hplan : ∀ kind orderId plan, client.requirePlan scenario commandId kind orderId ≠ .ok plan :=
    fun kind orderId plan hplan => (requirePlan_ok hplan).2.2.2.2 hexecuted
  have hsettled : ∀ x : Except SandboxFailure (SandboxCommandPlan × SandboxClient), (∀ result, x ≠ .ok result) →
      ∃ e, (.ret (settle client x) : Prog RepositoryReply Outcomes) = .ret (.error e, client) := by
    intro x hx
    obtain ⟨e, he⟩ := @settle_refused client x hx
    exact ⟨e, by rw [he]⟩
  cases call with
  | submit request verifier =>
    obtain rfl := Option.some.inj hcall
    show ∃ e, client.submit scenario request verifier = _
    unfold SandboxClient.submit
    cases hchecks : client.submitChecks scenario request with
    | error e => exact ⟨e, rfl⟩
    | ok plan =>
      obtain ⟨reports, retained, hchecked⟩ := submitChecks_ok hchecks
      exact absurd hexecuted hchecked.command.2.2
  | modify request =>
    obtain rfl := Option.some.inj hcall
    refine hsettled _ fun result hresult => ?_
    unfold SandboxClient.modify at hresult
    simp only [bind_ok_iff] at hresult
    obtain ⟨_, -, _, -, _, -, _, -, _, -, _, -, plan, hfound, -⟩ := hresult
    exact hplan _ _ _ hfound
  | cancel request =>
    obtain rfl := Option.some.inj hcall
    refine hsettled _ fun result hresult => ?_
    unfold SandboxClient.cancel at hresult
    simp only [bind_ok_iff] at hresult
    obtain ⟨_, -, _, -, _, -, _, -, plan, hfound, -⟩ := hresult
    exact hplan _ _ _ hfound
  | disconnect id time | reconnect id time =>
    obtain rfl := Option.some.inj hcall
    refine hsettled _ fun result hresult => ?_
    unfold SandboxClient.connectionTransition at hresult
    simp only [bind_ok_iff] at hresult
    obtain ⟨_, -, _, -, plan, hfound, -⟩ := hresult
    exact hplan _ _ _ hfound
  | advanceTime target => cases hcall
  | drainReports => cases hcall

inductive Later (scenario : SandboxScenario codec) (client : SandboxClient) : SandboxClient → Prop
  | refl : Later scenario client client
  | call {between next : SandboxClient} {outcome : Except SandboxFailure SandboxReply}
      (h : Later scenario client between) (call : SandboxCall)
      (hreturns : (between.call scenario call).Returns (outcome, next)) : Later scenario client next

theorem ClientStep.executed (h : ClientStep scenario client next)
    (hexecuted : commandId ∈ client.executedCommandIds) : commandId ∈ next.executedCommandIds := by
  cases h with
  | refused => exact hexecuted
  | schedules h =>
    rw [h.executed]
    exact List.mem_append_left _ hexecuted
  | drains h =>
    rw [h.executed]
    exact hexecuted
  | transition _ hnext =>
    rw [hnext]
    exact List.mem_append_left _ hexecuted
  | advances hnext =>
    rw [hnext]
    exact hexecuted

theorem Later.executed {later : SandboxClient} (h : Later scenario client later)
    (hexecuted : commandId ∈ client.executedCommandIds) : commandId ∈ later.executedCommandIds := by
  induction h with
  | refl => exact hexecuted
  | call _ call hreturns ih => exact (call_step hreturns).executed ih

/-! ## Authority and orders -/

theorem applyVenueReports_intent {progress next : VenueProgress}
    (h : reports.foldlM (applyVenueReport codec none) progress = .ok next) :
    next.nextOrder.orderIntent = progress.nextOrder.orderIntent := by
  refine foldlM_invariant (fun p => p.nextOrder.orderIntent = progress.nextOrder.orderIntent) ?_ rfl h
  intro report _ p p' hp hstep
  unfold applyVenueReport at hstep
  rw [bind_ok_iff] at hstep
  obtain ⟨event, -, hstep⟩ := hstep
  split at hstep
  · rename_i payload hpayload
    rw [bind_ok_iff] at hstep
    obtain ⟨⟨moved, ready⟩, hmoved, hstep⟩ := hstep
    obtain rfl := Except.ok.inj hstep
    unfold applyVenueObservation at hmoved
    simp only [bind_ok_iff, pure_eq_ok, Except.ok.injEq, Prod.mk.injEq] at hmoved
    obtain ⟨state, -, order, horder, rfl, -⟩ := hmoved
    rw [← hp, build_ok horder]
  · obtain rfl := Except.ok.inj hstep
    exact hp

/-- The order is booked, and its reports are queued. -/
structure Booked (scenario : SandboxScenario codec) (client : SandboxClient) (request : SandboxSubmitRequest)
    (plan : SandboxCommandPlan) (next : SandboxClient) : Prop where
  scripted : lookupBy (fun plan : SandboxCommandPlan => plan.commandId) scenario.commandPlans request.commandId =
    some plan
  order : ∃ order, next.snapshot.orders = client.snapshot.orders ++ [order] ∧ order.orderId = request.orderId ∧
    order.orderIntent = request.orderIntent
  new : ∀ order ∈ client.snapshot.orders, order.orderId ≠ request.orderId
  reports : ∃ reports, Planned scenario client.retainedReports request.orderId plan.reportIds reports ∧
    next.queuedReports = client.queuedReports ++ enqueued client.queuedReports reports ∧
    next.retainedReports = client.retainedReports ++ reports.map retainedOf
  time : next.snapshot.currentTime = request.submittedAt
  executed : next.executedCommandIds = client.executedCommandIds ++ [request.commandId]
  spent : ∀ later, Later scenario next later → ∀ call : SandboxCall, call.commandId? = some request.commandId →
    ∃ e, later.call scenario call = .ret (.error e, later)

theorem booked (hchecked : SubmitChecked scenario client request plan reports retained)
    (hnext : client.bookOrder scenario request plan = .ok next) : Booked scenario client request plan next := by
  obtain ⟨order, nextOrder, hschedules, horderId, -, horders, htime⟩ := bookOrder_ok hchecked hnext
  have hexecuted := hschedules.executed
  rw [hchecked.command.2.1] at hexecuted
  have hplanned := (plannedReports_ok hschedules.planned).1
  rw [horderId] at hplanned
  refine ⟨hchecked.command.1, ⟨nextOrder, horders, hschedules.moved.orderId.trans horderId, ?_⟩,
    hchecked.newOrder, ⟨reports, hplanned, hschedules.queue, hschedules.retainedReports⟩, htime, hexecuted, ?_⟩
  · unfold SandboxClient.bookOrder SandboxClient.applyVenueReportsAndEnqueue at hnext
    simp only [bind_ok_iff, pure_eq_ok, Except.ok.injEq] at hnext
    obtain ⟨initial, hinitial, ⟨moved, queue, retained'⟩, ⟨planned, -, progress, hprogress, happlied⟩, hreplaced⟩ :=
      hnext
    obtain ⟨hmoved, -⟩ := Prod.mk.inj happlied
    have hstored := (replaceState_ok hreplaced).2.2.2.2.2.2.2
    rw [horders] at hstored
    have hlast : nextOrder = moved := List.singleton_inj.1 (List.append_cancel_left hstored)
    rw [hlast, ← hmoved, applyVenueReports_intent hprogress, build_ok hinitial]
  · intro later hlater call hcall
    refine call_refused hcall (hlater.executed ?_)
    rw [hexecuted]
    exact List.mem_append_right _ List.mem_cons_self

/-- A submission spends authority exactly when it books the order: what follows the consumption cannot fail. -/
theorem submit_spends_when_it_books (codec : SandboxCodec) (scenario : SandboxScenario codec)
    (client : SandboxClient) (store : AuthorityStore) (hround : codec.RoundTrips)
    (hdistinct : Distinguishes codec.fingerprint scenario.Observes) (hreachable : Reachable scenario client store)
    (request : SandboxSubmitRequest) (verifier : GlobalSafetyAuthorityVerifier) (n : ℕ)
    (outcome : Except SandboxFailure SandboxReply) (next : SandboxClient) (store' : AuthorityStore)
    (hrun : (client.submit scenario request verifier).RunsTo (serve codec.toAuthorityCodec)
      (ledgerDiscipline codec.toAuthorityCodec) n store (outcome, next) store') :
    (∃ e, outcome = .error e ∧ next = client ∧ store' = store) ∨
      ∃ consumed, (consumeSubmitPermit codec.toAuthorityCodec (request.consumption verifier)).run.RunsTo
          (serve codec.toAuthorityCodec) (ledgerDiscipline codec.toAuthorityCodec) n store consumed store' ∧
        ((∃ cause, consumed = .error cause ∧ outcome = .error (consumptionRaised cause) ∧ next = client) ∨
          ∃ authority plan, consumed = .ok authority ∧ Booked scenario client request plan next ∧
            outcome = respond plan "sandbox response was intentionally lost" (some authority)) := by
  have h := hreachable.consistent hround hdistinct
  unfold SandboxClient.submit at hrun
  cases hchecks : client.submitChecks scenario request with
  | error e =>
    rw [hchecks] at hrun
    obtain ⟨heq, rfl⟩ := runsTo_ret_iff.1 hrun
    obtain ⟨rfl, rfl⟩ := Prod.mk.inj heq
    exact .inl ⟨e, rfl, rfl, rfl⟩
  | ok plan =>
    rw [hchecks] at hrun
    obtain ⟨consumed, between, hconsumed, hrun⟩ := runsTo_bind hrun
    obtain ⟨reports, retained, hchecked⟩ := submitChecks_ok hchecks
    obtain ⟨booking, hbooking⟩ := bookOrder_of_checked h hchecked
    cases consumed with
    | error cause =>
      obtain ⟨heq, rfl⟩ := runsTo_ret_iff.1 hrun
      obtain ⟨rfl, rfl⟩ := Prod.mk.inj heq
      exact .inr ⟨_, hconsumed, .inl ⟨cause, rfl, rfl, rfl⟩⟩
    | ok authority =>
      dsimp only at hrun
      rw [hbooking] at hrun
      obtain ⟨heq, rfl⟩ := runsTo_ret_iff.1 hrun
      obtain ⟨rfl, rfl⟩ := Prod.mk.inj heq
      exact .inr ⟨_, hconsumed, .inr ⟨authority, plan, rfl, booked hchecked hbooking, rfl⟩⟩

theorem sample_submission_books :
    (∃ e, sampleSubmission.1.1 = .error e ∧ sampleSubmission.1.2 = .initial 0 ∧ sampleSubmission.2 = sampleStore) ∨
      ∃ consumed, (consumeSubmitPermit sampleSandbox.toAuthorityCodec
          (sampleSubmitRequest.consumption some)).run.RunsTo (serve sampleSandbox.toAuthorityCodec)
          (ledgerDiscipline sampleSandbox.toAuthorityCodec) 0 sampleStore consumed sampleSubmission.2 ∧
        ((∃ cause, consumed = .error cause ∧ sampleSubmission.1.1 = .error (consumptionRaised cause) ∧
            sampleSubmission.1.2 = .initial 0) ∨
          ∃ authority plan, consumed = .ok authority ∧
            Booked sampleScenario (.initial 0) sampleSubmitRequest plan sampleSubmission.1.2 ∧
            sampleSubmission.1.1 = respond plan "sandbox response was intentionally lost" (some authority)) :=
  submit_spends_when_it_books sampleSandbox sampleScenario (.initial 0) sampleStore sampleSandbox_roundTrips
    sampleScenario_distinct (.start 0 sampleStore_recorded) sampleSubmitRequest some 0 _ _ _
    (runsTo_runAlone serve_recorded _ sampleStore_recorded)

end TradingAgent.ExecutionSandbox
