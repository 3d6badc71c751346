import TradingAgent.PortfolioReducer.Counterfactual

/-! Runs of two histories that differ in one event. -/

namespace TradingAgent.PortfolioReducer

open Outcome

variable {codec : Codec}

theorem not_mem_withoutTicket (ts : List Ticket) (z : Ticket) : z ∉ withoutTicket ts z.executionId := by
  unfold withoutTicket
  simp

variable {ts : List Ticket}

theorem mem_retain_consumed {event : PortfolioEvent} {z : Ticket}
    (h : z ∈ retain ts event) (hc : consumed event.payload = some z.executionId) : z.sourceEvent = event := by
  unfold retain at h
  cases hp : event.payload with
  | fill entry =>
    simp only [hp, consumed, retainFill] at h hc
    cases hstatus : entry.fill.status with
    | correction =>
      simp only [hstatus] at h hc
      simp only [hc] at h
      rcases List.mem_append.1 h with h | h
      · obtain ⟨t, -, rfl⟩ := List.mem_map.1 h
        rfl
      · exact absurd h (not_mem_withoutTicket ts z)
    | bust =>
      simp only [hstatus] at h hc
      simp only [hc] at h
      exact absurd h (not_mem_withoutTicket ts z)
    | _ => simp [hstatus] at hc
  | _ => simp [hp, consumed] at hc

theorem retain_cons {event : PortfolioEvent} {z : Ticket} (hrec : event.payload.isReconciliation = false)
    (hc : consumed event.payload ≠ some z.executionId) : (retain (z :: ts) event).Perm (z :: retain ts event) := by
  unfold retain
  cases hp : event.payload with
  | reconciliation entry =>
    rw [hp] at hrec
    cases hrec
  | fill entry =>
    simp only [hp, consumed, retainFill] at hc ⊢
    have hothers : ∀ {reference}, some reference ≠ some z.executionId →
        withoutTicket (z :: ts) reference = z :: withoutTicket ts reference := by
      intro reference hne
      unfold withoutTicket
      rw [List.filter_cons_of_pos]
      exact decide_eq_true fun h => hne (congrArg some h.symm)
    cases hstatus : entry.fill.status with
    | partiallyFilled => exact .swap _ _ _
    | filled => exact .swap _ _ _
    | duplicate => exact .refl _
    | correction =>
      cases href : entry.fill.correctionOfExecutionId with
      | none => exact .refl _
      | some reference =>
        simp only [hstatus, href] at hc ⊢
        have hlookup : lookupBy Ticket.executionId (z :: ts) reference = lookupBy Ticket.executionId ts reference := by
          unfold lookupBy
          rw [List.find?_cons_of_neg]
          simpa using fun h => hc (congrArg some h.symm)
        rw [hlookup, hothers hc]
        exact List.perm_middle
    | bust =>
      cases href : entry.fill.bustOfExecutionId with
      | none => exact .refl _
      | some reference =>
        simp only [hstatus, href] at hc ⊢
        rw [hothers hc]
  | _ => exact .refl _

theorem retain_append {ys : List Ticket} {event : PortfolioEvent} (hrec : event.payload.isReconciliation = false)
    (hc : ∀ y ∈ ys, consumed event.payload ≠ some y.executionId) :
    (retain (ys ++ ts) event).Perm (ys ++ retain ts event) := by
  induction ys with
  | nil => exact .refl _
  | cons y ys ih =>
    refine (retain_cons hrec (hc y List.mem_cons_self)).trans ?_
    exact (ih fun z hz => hc z (List.mem_cons_of_mem _ hz)).cons y

variable {us : List Ticket}

theorem withoutTicket_of_perm (h : ts.Perm us) (reference : Uuid) :
    (withoutTicket ts reference).Perm (withoutTicket us reference) :=
  h.filter _

theorem retain_of_perm {event : PortfolioEvent} (h : ts.Perm us)
    (hn : (ts.map Ticket.executionId).Nodup) : (retain ts event).Perm (retain us event) := by
  unfold retain
  cases hp : event.payload with
  | reconciliation entry => exact .refl _
  | fill entry =>
    simp only [retainFill]
    cases hstatus : entry.fill.status with
    | partiallyFilled => exact h.cons _
    | filled => exact h.cons _
    | duplicate => exact h
    | correction =>
      cases href : entry.fill.correctionOfExecutionId with
      | none => exact h
      | some reference =>
        simp only
        rw [lookupBy_of_perm h hn]
        exact (withoutTicket_of_perm h reference).append_left _
    | bust =>
      cases href : entry.fill.bustOfExecutionId with
      | none => exact h
      | some reference => exact withoutTicket_of_perm h reference
  | _ => exact h

section Active

variable {s s' t : PortfolioReplayState} {event : PortfolioEvent} {events : List PortfolioEvent}
  {z : Ticket}

variable (h : Fresh codec event s s')
include h

theorem Fresh.applied : s'.appliedEvents.Perm (s.appliedEvents ++ [appliedEvent codec event]) := by
  obtain ⟨ids, hbooks⟩ := h.step.books
  rw [hbooks.appliedEvents]
  exact sortedApplied_perm ((appliedDigest_eq_none_iff _ _).1 h.fresh)

theorem Fresh.appliedDigest (id : Uuid) : PortfolioReducer.appliedDigest s'.appliedEvents id =
      if event.eventId = id then some (eventDigest codec event)
      else PortfolioReducer.appliedDigest s.appliedEvents id := by
  rw [appliedDigest_eq, appliedDigest_eq, lookupBy_of_perm h.applied (nodup_eventIds s')]
  unfold lookupBy
  rw [List.find?_append]
  split_ifs with hid
  · have hnone : s.appliedEvents.find? (fun a => a.eventId = id) = none := by
      have hfresh := h.fresh
      rw [appliedDigest_eq, Option.map_eq_none_iff, hid] at hfresh
      exact hfresh
    rw [hnone]
    simp [appliedEvent, hid]
  · simp [appliedEvent, hid]

variable {id : Uuid}

theorem Fresh.known (hid : PortfolioReducer.appliedDigest s.appliedEvents id ≠ none) :
    PortfolioReducer.appliedDigest s'.appliedEvents id ≠ none := by
  rw [h.appliedDigest]
  split_ifs
  · simp
  · exact hid

theorem Fresh.active (hz : z ∈ tickets s')
    (hknown : PortfolioReducer.appliedDigest s.appliedEvents z.sourceEvent.eventId ≠ none) :
    z ∈ tickets s ∧ event.payload.isReconciliation = false ∧
      PortfolioReducer.consumed event.payload ≠ some z.executionId := by
  have hsource : z.sourceEvent ≠ event := by
    intro heq
    exact hknown (heq ▸ h.fresh)
  have hretain := h.step.tickets.mem_iff.1 hz
  have hnamed : PortfolioReducer.consumed event.payload ≠ some z.executionId :=
    fun hc => hsource (mem_retain_consumed hretain hc)
  rcases mem_retain hretain with ⟨hm, hrec⟩ | ⟨heq, -⟩
  · exact ⟨hm, hrec, hnamed⟩
  · exact absurd heq hsource

omit h

theorem stays_active (h : events.foldlM (applyPortfolioEvent codec) s = .ok t) (hz : z ∈ tickets t)
    (hknown : PortfolioReducer.appliedDigest s.appliedEvents z.sourceEvent.eventId ≠ none) : z ∈ tickets s := by
  induction events generalizing s with
  | nil =>
    obtain rfl := Except.ok.inj h
    exact hz
  | cons event events ih =>
    rw [List.foldlM_cons, bind_ok_iff] at h
    obtain ⟨u, hu, h⟩ := h
    rcases applyPortfolioEvent_cases hu with ⟨-, rfl⟩ | hfresh
    · exact ih h hknown
    · exact (hfresh.active (ih h (hfresh.known hknown)) hknown).1

theorem skip_known (h : events.foldlM (applyPortfolioEvent codec) s = .ok t)
    (hknown : PortfolioReducer.appliedDigest s.appliedEvents id ≠ none) :
    (events.filter fun e => e.eventId ≠ id).foldlM (applyPortfolioEvent codec) s = .ok t := by
  induction events generalizing s with
  | nil => exact h
  | cons event events ih =>
    rw [List.foldlM_cons, bind_ok_iff] at h
    obtain ⟨u, hu, h⟩ := h
    by_cases hid : event.eventId = id
    · rw [List.filter_cons_of_neg (by simpa using hid)]
      rcases applyPortfolioEvent_cases hu with ⟨-, rfl⟩ | hfresh
      · exact ih h hknown
      · exact absurd hfresh.fresh (hid ▸ hknown)
    · rw [List.filter_cons_of_pos (by simpa using hid), List.foldlM_cons, hu, ok_bind]
      refine ih h ?_
      rcases applyPortfolioEvent_cases hu with ⟨-, rfl⟩ | hfresh
      · exact hknown
      · exact hfresh.known hknown

end Active

/-- Two states of runs that differ in one execution: the first retains `z`, the second `ys`. -/
structure Diverged (z : Ticket) (ys : List Ticket) (done done' : List PortfolioEvent)
    (s s' : PortfolioReplayState) : Prop where
  known : appliedDigest s.appliedEvents z.sourceEvent.eventId ≠ none
  digests : ∀ id, id ≠ z.sourceEvent.eventId →
    appliedDigest s.appliedEvents id = appliedDigest s'.appliedEvents id
  tickets : ∃ rest, (tickets s).Perm (z :: rest) ∧ (PortfolioReducer.tickets s').Perm (ys ++ rest)
  net : net s = PortfolioReducer.net s'
  run : ∃ base, RunInv done base s ∧ RunInv done' base s'

variable {z : Ticket} {ys : List Ticket} {done done' : List PortfolioEvent}
  {s s' t t' : PortfolioReplayState} {event : PortfolioEvent}

theorem Diverged.step (h : Diverged z ys done done' s s') (hfresh : Fresh codec event s t)
    (hfresh' : Fresh codec event s' t') (hz : z ∈ PortfolioReducer.tickets t)
    (hinc : Increasing (done ++ [event])) (hinc' : Increasing (done' ++ [event])) :
    Diverged z ys (done ++ [event]) (done' ++ [event]) t t' := by
  obtain ⟨-, hrec, hnamed⟩ := hfresh.active hz h.known
  obtain ⟨rest, hrest, hrest'⟩ := h.tickets
  obtain ⟨base, hrun, hrun'⟩ := h.run
  have hys : ∀ y ∈ ys, consumed event.payload ≠ some y.executionId := by
    -- the execution the event names is active in the first state, hence one of the rest
    intro y hy hc
    have hactive := hfresh.consumed y.executionId hc
    rw [(hrest.map _).mem_iff, List.map_cons, List.mem_cons] at hactive
    have hn := (hrest'.map Ticket.executionId).nodup_iff.1 (tickets_nodup s')
    rw [List.map_append, List.nodup_append] at hn
    rcases hactive with heq | hactive
    · exact hnamed (heq ▸ hc)
    · exact hn.2.2 _ (List.mem_map_of_mem hy) _ hactive rfl
  refine ⟨hfresh.known h.known, fun id hid => ?_, ⟨retain rest event, ?_, ?_⟩, ?_, ?_⟩
  · rw [hfresh.appliedDigest, hfresh'.appliedDigest, h.digests id hid]
  · refine hfresh.step.tickets.trans ((retain_of_perm hrest (tickets_nodup s)).trans ?_)
    exact retain_cons hrec hnamed
  · refine hfresh'.step.tickets.trans ((retain_of_perm hrest' (tickets_nodup s')).trans ?_)
    exact retain_append hrec hys
  · rw [hfresh.step.net hrun.inv.linked hrec, hfresh'.step.net hrun'.inv.linked hrec, h.net]
  · obtain ⟨b, hb, hbase⟩ := hrun.step hinc hfresh
    obtain ⟨b', hb', hbase'⟩ := hrun'.step hinc' hfresh'
    rw [hbase hrec] at hb
    rw [hbase' hrec] at hb'
    exact ⟨base, hb, hb'⟩

variable {events : List PortfolioEvent}

variable {done : List PortfolioEvent} {event : PortfolioEvent} (h : Increasing (done ++ event :: events))
include h

theorem Increasing.skip : Increasing (done ++ events) :=
  List.Pairwise.sublist (List.Sublist.map _ ((List.sublist_cons_self _ _).append_left _)) h

theorem Increasing.upTo : Increasing (done ++ [event]) := by
  rw [List.append_cons] at h
  exact List.Pairwise.sublist (List.Sublist.map _ (List.sublist_append_left _ _)) h

omit h

theorem Diverged.run_all (h : Diverged z ys done done' s s') (hne : ∀ e ∈ events, e.eventId ≠ z.sourceEvent.eventId)
    (hrun : events.foldlM (applyPortfolioEvent codec) s = .ok t)
    (hrun' : events.foldlM (applyPortfolioEvent codec) s' = .ok t')
    (hz : z ∈ PortfolioReducer.tickets t) (hinc : Increasing (done ++ events))
    (hinc' : Increasing (done' ++ events)) : ∃ all all', Diverged z ys all all' t t' := by
  induction events generalizing s s' done done' with
  | nil =>
    obtain rfl := Except.ok.inj hrun
    obtain rfl := Except.ok.inj hrun'
    exact ⟨done, done', h⟩
  | cons event events ih =>
    rw [List.foldlM_cons, bind_ok_iff] at hrun hrun'
    obtain ⟨u, hu, hrun⟩ := hrun
    obtain ⟨u', hu', hrun'⟩ := hrun'
    have hsame := h.digests event.eventId (hne event List.mem_cons_self)
    have hrest : ∀ e ∈ events, e.eventId ≠ z.sourceEvent.eventId :=
      fun e he => hne e (List.mem_cons_of_mem _ he)
    rcases applyPortfolioEvent_cases hu with ⟨hknown, rfl⟩ | hfresh
    · rcases applyPortfolioEvent_cases hu' with ⟨-, rfl⟩ | hfresh'
      · exact ih h hrest hrun hrun' hinc.skip hinc'.skip
      · rw [hsame, hfresh'.fresh] at hknown
        cases hknown
    · rcases applyPortfolioEvent_cases hu' with ⟨hknown', -⟩ | hfresh'
      · rw [← hsame, hfresh.fresh] at hknown'
        cases hknown'
      · have hactive := stays_active hrun hz (hfresh.known h.known)
        refine ih (h.step hfresh hfresh' hactive hinc.upTo hinc'.upTo) hrest hrun hrun' ?_ ?_
        · rw [List.append_cons] at hinc
          exact hinc
        · rw [List.append_cons] at hinc'
          exact hinc'

end TradingAgent.PortfolioReducer
