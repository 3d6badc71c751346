import TradingAgent.PortfolioReducer.Touches

/-! One event of a portfolio. -/

namespace TradingAgent.PortfolioReducer

open Outcome

def Ticket.executionId (t : Ticket) : Uuid := t.entry.fill.executionId

def withoutTicket (ts : List Ticket) (reference : Uuid) : List Ticket :=
  ts.filter fun t => t.executionId ≠ reference

def retainFill (ts : List Ticket) (event : PortfolioEvent) (entry : PortfolioFillEntry) : List Ticket :=
  match entry.fill.status with
  | .partiallyFilled | .filled => ⟨entry, event, event.sequence⟩ :: ts
  | .duplicate => ts
  | .correction =>
    match entry.fill.correctionOfExecutionId with
    | none => ts
    | some reference =>
      (lookupBy Ticket.executionId ts reference).toList.map
        (fun t => ⟨entry, event, t.logicalSequence⟩) ++ withoutTicket ts reference
  | .bust =>
    match entry.fill.bustOfExecutionId with
    | none => ts
    | some reference => withoutTicket ts reference

/-- The retained executions after an event; a reconciliation forgets them. -/
def retain (ts : List Ticket) (event : PortfolioEvent) : List Ticket :=
  match event.payload with
  | .fill entry => retainFill ts event entry
  | .reconciliation _ => []
  | _ => ts

/-- The execution that a bust takes back or a correction replaces. -/
def consumed : PortfolioPayload → Option Uuid
  | .fill entry =>
    match entry.fill.status with
    | .correction => entry.fill.correctionOfExecutionId
    | .bust => entry.fill.bustOfExecutionId
    | _ => none
  | _ => none

theorem ticket_executionId (e : PortfolioExecutionEffect) : (ticket e).executionId = e.executionId := by
  unfold ticket Ticket.executionId
  rw [e.facts.executionId, e.facts.entryFill]

theorem tickets_executionIds (s : PortfolioReplayState) :
    (tickets s).map Ticket.executionId = s.activeEffects.map (·.executionId) := by
  unfold tickets
  rw [List.map_map]
  exact List.map_congr_left fun e _ => ticket_executionId e

theorem tickets_nodup (s : PortfolioReplayState) : ((tickets s).map Ticket.executionId).Nodup := by
  rw [tickets_executionIds]
  exact s.facts.nodup_executionIds

variable {reference : Uuid}

theorem lookup_ticket {s : PortfolioReplayState} {e : PortfolioExecutionEffect}
    (h : findEffect s.activeEffects reference = some e) :
    lookupBy Ticket.executionId (tickets s) reference = some (ticket e) := by
  obtain ⟨hm, hid⟩ := lookupBy_some h
  rw [lookupBy_eq_some_iff (tickets_nodup s)]
  exact ⟨List.mem_map_of_mem hm, (ticket_executionId e).trans hid⟩

theorem withoutTicket_perm {ts : List Ticket} (hn : (ts.map Ticket.executionId).Nodup) {t : Ticket}
    (ht : t ∈ ts) : ts.Perm (t :: withoutTicket ts t.executionId) :=
  perm_cons_filter hn ht

section

variable {t s' : PortfolioReplayState}

theorem net_congr (hsnap : s'.snapshot = t.snapshot) (heff : s'.activeEffects = t.activeEffects) : net s' = net t := by
  unfold net amountIn heldIn positionTotal positionAmount effectTotal keyTotal
  rw [hsnap, heff]

theorem Linked.congr (h : Linked t) (hsnap : s'.snapshot = t.snapshot)
    (heff : s'.activeEffects = t.activeEffects) : Linked s' := by
  refine ⟨?_, ?_, ?_, ?_, ?_⟩ <;> simp only [hsnap, heff]
  · exact h.economics
  · exact h.status
  · exact h.position
  · exact h.precision
  · exact h.balance

theorem Inv.congr {marked : Prop} {base : PositionKey → LotBase} (h : Inv marked base t)
    (hsnap : s'.snapshot = t.snapshot) (heff : s'.activeEffects = t.activeEffects) : Inv marked base s' := by
  refine ⟨h.linked.congr hsnap heff, ?_, ?_⟩ <;> simp only [hsnap, heff]
  · exact h.sequences
  · exact h.keys

theorem tickets_congr (heff : s'.activeEffects = t.activeEffects) : tickets s' = tickets t := by
  unfold tickets
  rw [heff]

end

def reconciliationOf : PortfolioPayload → Option PortfolioReconciliationEntry
  | .reconciliation entry => some entry
  | _ => none

def baseOf : Option PortfolioPositionState → LotBase
  | none => .flat
  | some p => ⟨p.quantity.value, p.averageEntryPrice, by
      constructor
      · exact fun h => (p.facts.flat h).1
      · intro h
        by_contra hq
        obtain ⟨-, average, ha, -⟩ := p.facts.nonflat hq
        rw [ha] at h
        cases h⟩

theorem inv_of_no_effects {s : PortfolioReplayState} (h : s.activeEffects = []) :
    Inv False (fun k => baseOf (findPosition s.snapshot.positions k)) s := by
  refine ⟨⟨?_, ?_, ?_, ?_, ?_⟩, ?_, fun k => ?_⟩
  · simp [h]
  · simp [h]
  · simp [h]
  · simp [h]
  · simp [h]
  · simp [h]
  · have hl : lineage s.activeEffects k = [] := by
      rw [h]
      rfl
    rw [hl]
    generalize findPosition s.snapshot.positions k = position
    refine ⟨chain_nil _, ?_, ?_, ?_, False.elim⟩
    · rintro rfl
      exact ⟨rfl, rfl⟩
    · rintro p hp
      obtain rfl := Option.mem_def.1 hp
      rfl
    · rintro p hp
      obtain rfl := Option.mem_def.1 hp
      rfl

structure Step (codec : Codec) (event : PortfolioEvent) (s s' : PortfolioReplayState) : Prop where
  books : ∃ ids, Books codec event (reconciliationOf event.payload) s s' ids
  tickets : (tickets s').Perm (retain (tickets s) event)
  linked : Linked s → Linked s'
  net : Linked s → event.payload.isReconciliation = false → net s' =
    (net s).add (cashFlow event.payload) fun c => Money.totalIn c (accountFundings event.payload)
  inv : ∀ marked base, Inv marked base s →
    (consumed event.payload = none → ∀ e ∈ s.activeEffects, e.logicalSequence < event.sequence) →
    event.payload.isReconciliation = false → Inv marked base s'

variable {codec : Codec} {s s' : PortfolioReplayState} {event : PortfolioEvent}

theorem TouchStep.step {payload : PortfolioPayload} (h : TouchStep codec event payload s s')
    (hp : event.payload = payload) (hr : reconciliationOf payload = none)
    (hretain : retain (tickets s) event = tickets s) : Step codec event s s' := by
  refine ⟨?_, ?_, h.linked, ?_, fun marked base hs _ _ => h.inv hs⟩
  · rw [hp, hr]
    exact h.books
  · obtain ⟨delta, funding, ht⟩ := h.touched
    rw [hretain, tickets_congr ht.effects]
  · intro _ _
    rw [hp]
    exact h.net

theorem net_add_of_fill (n : Net) (entry : PortfolioFillEntry) :
    n.add (cashFlow (.fill entry)) (fun c => Money.totalIn c (accountFundings (.fill entry))) = n := by
  ext1 <;> simp [Net.add, cashFlow, fundings, conversionTargets, conversionSources, accountFundings]

variable {entry : PortfolioFillEntry}

theorem step_of_fill {t : PortfolioReplayState}
    (hp : event.payload = .fill entry) (hnext : nextState codec t event {} = .ok s')
    (hbooks : SameBooks s t) (htickets : (tickets t).Perm (retainFill (tickets s) event entry))
    (hlinked : Linked s → Linked t ∧ net t = net s) (hinv : ∀ marked base, Inv marked base s →
      (consumed event.payload = none → ∀ e ∈ s.activeEffects, e.logicalSequence < event.sequence) → Inv marked base t) :
    Step codec event s s' := by
  obtain ⟨hsnap, heff⟩ := nextState_account hnext
  simp only [Option.getD_none] at hsnap heff
  refine ⟨?_, ?_, fun hs => (hlinked hs).1.congr hsnap heff, fun hs _ => ?_,
    fun marked base hs hseq _ => (hinv marked base hs hseq).congr hsnap heff⟩
  · rw [hp]
    exact nextState_books hnext hbooks hbooks.accountId
  · rw [tickets_congr heff]
    unfold retain
    rw [hp]
    exact htickets
  · rw [net_congr hsnap heff, (hlinked hs).2, hp, net_add_of_fill]

theorem applyNormal_step (h : applyNormal codec s event entry = .ok s')
    (hp : event.payload = .fill entry) (hstatus : entry.fill.status.IsNormal) : Step codec event s s' := by
  unfold applyNormal at h
  rw [bind_ok_iff] at h
  obtain ⟨t, ht, hnext⟩ := h
  refine step_of_fill hp hnext (bookFill_books ht) ?_ (fun hs => ?_) fun marked base hs hseq => ?_
  · have hr : retainFill (tickets s) event entry = ⟨entry, event, event.sequence⟩ :: tickets s := by
      unfold retainFill
      rcases hstatus with h | h <;> rw [h]
    rw [hr]
    exact bookFill_tickets ht
  · exact ⟨bookFill_linked ht hs (.inl hstatus), bookFill_net ht⟩
  · have hlast := hseq (by
      unfold consumed
      rw [hp]
      rcases hstatus with h | h <;> simp only [h])
    exact bookFill_inv ht hs (.inl hstatus) (fun x hx => (hlast x hx).ne) fun x hx _ => hlast x hx

theorem consumeEffect_spec (h : consumeEffect codec s event entry reference = .ok s') :
    ∃ effect t, findEffect s.activeEffects reference = some effect ∧
      effect.accountId = entry.accountId ∧ effect.strategyId = entry.strategyId ∧
      rebaseLaterEffects s effect event entry = .ok t ∧ nextState codec t event {} = .ok s' := by
  unfold consumeEffect at h
  cases hf : findEffect s.activeEffects reference with
  | none => simp [hf] at h
  | some effect =>
    rw [hf] at h
    simp only [bind_ok_iff, require_ok_iff, exists_const] at h
    obtain ⟨⟨ha, hst⟩, t, ht, hnext⟩ := h
    exact ⟨effect, t, rfl, ha, hst, ht, hnext⟩

theorem consumeEffect_step (h : consumeEffect codec s event entry reference = .ok s') (hp : event.payload = .fill entry)
    (hretain : ∀ t, lookupBy Ticket.executionId (tickets s) reference = some t → retainFill (tickets s) event entry =
        (if entry.fill.status = .correction then [⟨entry, event, t.logicalSequence⟩] else []) ++
          withoutTicket (tickets s) reference) :
    Step codec event s s' := by
  obtain ⟨effect, t, hf, -, -, ht, hnext⟩ := consumeEffect_spec h
  obtain ⟨hmem, hid⟩ := lookupBy_some hf
  obtain ⟨rest, hbefore, hafter⟩ := rebase_tickets ht hmem
  have hothers : rest.Perm (withoutTicket (tickets s) reference) := by
    have hw := withoutTicket_perm (tickets_nodup s)
      (List.mem_map_of_mem (f := ticket) hmem : ticket effect ∈ tickets s)
    rw [ticket_executionId, hid] at hw
    exact (List.perm_cons _).1 (hbefore.symm.trans hw)
  have hbooks : SameBooks s t := rebase_books ht
  refine step_of_fill hp hnext hbooks ?_ (fun hs => ?_) fun marked base hs _ => ?_
  · rw [hretain _ (lookup_ticket hf)]
    exact hafter.trans (hothers.append_left _)
  · have hk := rebase_kept ht hs hmem
    exact ⟨hk.linked, hk.net⟩
  · exact rebase_inv ht hs hmem

theorem applyFill_step (h : applyFill codec s event entry = .ok s')
    (hp : event.payload = .fill entry) : Step codec event s s' := by
  unfold applyFill at h
  cases hstatus : entry.fill.status with
  | partiallyFilled =>
    simp only [hstatus, bind_ok_iff, require_ok_iff, exists_const] at h
    exact applyNormal_step h.2 hp (.inl hstatus)
  | filled =>
    simp only [hstatus, bind_ok_iff, require_ok_iff, exists_const] at h
    exact applyNormal_step h.2 hp (.inr hstatus)
  | duplicate =>
    simp only [hstatus] at h
    cases hf : entry.fill.duplicateOfExecutionId.bind (findEffect s.activeEffects) with
    | none => simp [hf] at h
    | some effect =>
      simp only [hf, bind_ok_iff, require_ok_iff, exists_const] at h
      obtain ⟨-, -, hnext⟩ := h
      refine step_of_fill hp hnext (SameBooks.refl s) ?_ (fun hs => ⟨hs, rfl⟩) fun _ _ hs _ => hs
      unfold retainFill
      rw [hstatus]
  | correction =>
    simp only [hstatus] at h
    cases href : entry.fill.correctionOfExecutionId with
    | none => simp [href] at h
    | some reference =>
      rw [href] at h
      refine consumeEffect_step h hp fun t ht => ?_
      simp [retainFill, hstatus, href, ht]
  | bust =>
    simp only [hstatus] at h
    cases href : entry.fill.bustOfExecutionId with
    | none => simp [href] at h
    | some reference =>
      rw [href] at h
      refine consumeEffect_step h hp fun t ht => ?_
      simp [retainFill, hstatus, href]

theorem applyReconciliation_spec {entry : PortfolioReconciliationEntry}
    (h : applyReconciliation codec s event entry = .ok s') (haccount : entry.accountId = s.snapshot.accountId) :
    (∃ ids, Books codec event (some entry) s s' ids) ∧ s'.activeEffects = [] := by
  unfold applyReconciliation at h
  simp only [bind_ok_iff, PortfolioWorkingSnapshot.of_ok_iff] at h
  obtain ⟨positions, -, w, hw, hnext⟩ := h
  have hacc : w.accountId = s.snapshot.accountId := by
    rw [hw]
    exact entry.matchingAccount.trans haccount
  exact ⟨nextState_books hnext (SameBooks.refl s) hacc, (nextState_account hnext).2⟩

theorem applyPayload_step (h : applyPayload codec s event = .ok s')
    (haccount : event.payload.accountId = s.snapshot.accountId) : Step codec event s s' := by
  unfold applyPayload at h
  cases hp : event.payload with
  | opening entry => simp [hp] at h
  | accountObservation entry =>
    rw [hp] at h
    exact (applyAccountObservation_touch h).step hp rfl (by unfold retain; rw [hp])
  | fill entry =>
    rw [hp] at h
    exact applyFill_step h hp
  | mark entry =>
    rw [hp] at h
    exact (applyMark_touch h).step hp rfl (by unfold retain; rw [hp])
  | funding entry =>
    rw [hp] at h
    exact (applyFunding_touch h).step hp rfl (by unfold retain; rw [hp])
  | conversion entry =>
    rw [hp] at h
    exact (applyConversion_touch h).step hp rfl (by unfold retain; rw [hp])
  | valuationRate entry =>
    rw [hp] at h
    exact (applyValuationRate_touch h).step hp rfl (by unfold retain; rw [hp])
  | reconciliation entry =>
    rw [hp] at h haccount
    obtain ⟨hbooks, heff⟩ := applyReconciliation_spec h haccount
    have hisr : event.payload.isReconciliation = true := by rw [hp]; rfl
    refine ⟨by rw [hp]; exact hbooks, ?_, fun _ => (inv_of_no_effects heff).linked, fun _ hr => ?_,
      fun _ _ _ _ hr => ?_⟩
    · unfold retain tickets
      rw [hp, heff]
      exact .refl _
    · rw [hisr] at hr
      cases hr
    · rw [hisr] at hr
      cases hr

/-- The event was new and made a step. -/
structure Fresh (codec : Codec) (event : PortfolioEvent) (s s' : PortfolioReplayState) : Prop where
  fresh : appliedDigest s.appliedEvents event.eventId = none
  stream : event.streamId ∈ s.cursor.map PortfolioStreamCursor.streamId
  opening : event.payload.isOpening = false
  account : event.payload.accountId = s.snapshot.accountId
  consumed : ∀ reference ∈ consumed event.payload, reference ∈ (tickets s).map Ticket.executionId
  step : Step codec event s s'

theorem consumeEffect_active (h : consumeEffect codec s event entry reference = .ok s') :
    reference ∈ (tickets s).map Ticket.executionId := by
  obtain ⟨effect, t, hf, -⟩ := consumeEffect_spec h
  obtain ⟨hmem, hid⟩ := lookupBy_some hf
  rw [tickets_executionIds]
  exact List.mem_map.2 ⟨effect, hmem, hid⟩

theorem applyPayload_consumed (h : applyPayload codec s event = .ok s')
    (hc : reference ∈ consumed event.payload) : reference ∈ (tickets s).map Ticket.executionId := by
  unfold applyPayload at h
  cases hp : event.payload with
  | fill entry =>
    simp only [hp, applyFill, consumed] at h hc
    cases hstatus : entry.fill.status with
    | correction | bust =>
      simp only [hstatus, Option.mem_def] at h hc
      rw [hc] at h
      exact consumeEffect_active h
    | _ => simp [hstatus] at hc
  | _ => simp [hp, consumed] at hc

theorem applyPortfolioEvent_cases (h : applyPortfolioEvent codec s event = .ok s') :
    appliedDigest s.appliedEvents event.eventId = some (eventDigest codec event) ∧ s' = s ∨ Fresh codec event s s' := by
  unfold applyPortfolioEvent at h
  rw [requireDigest_eq, ok_bind] at h
  cases hd : appliedDigest s.appliedEvents event.eventId with
  | some previous =>
    simp only [hd] at h
    split_ifs at h with heq
    exact .inl ⟨congrArg some heq, (Except.ok.inj h).symm⟩
  | none =>
    simp only [hd, bind_ok_iff, require_ok_iff, exists_const] at h
    obtain ⟨hstream, hopening, haccount, _, -, h⟩ := h
    exact .inr ⟨hd, hstream, hopening, haccount, fun _ => applyPayload_consumed h, applyPayload_step h haccount⟩

end TradingAgent.PortfolioReducer
