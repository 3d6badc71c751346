import TradingAgent.PortfolioReducer.Conservation

/-! What the reversal of an effect leaves as it was. -/

namespace TradingAgent.PortfolioReducer

open Outcome

/-- What identifies a retained execution: its entry, its event and its place in the logical order. -/
@[ext] structure Ticket where
  entry : PortfolioFillEntry
  sourceEvent : PortfolioEvent
  logicalSequence : ℕ

def ticket (e : PortfolioExecutionEffect) : Ticket := ⟨e.entry, e.sourceEvent, e.logicalSequence⟩

def tickets (s : PortfolioReplayState) : List Ticket := s.activeEffects.map ticket

theorem tradeDelta_ne_zero (fill : FillEvent) : tradeDelta fill ≠ 0 := by
  have hq : (0 : ℚ) < fill.quantity.value := fill.valid.quantity_pos
  have hp : (0 : ℚ) < fill.lastFillPrice.amount := fill.lastFillPrice.pos
  have hm : (0 : ℚ) < fill.instrumentDefinition.multiplier :=
    fill.instrumentDefinition.valid.multiplier_pos
  have hg := mul_pos (mul_pos hq hp) hm
  unfold tradeDelta
  cases fill.side with
  | buy => exact (neg_neg_of_pos hg).ne
  | sell => exact hg.ne'

variable {fill : FillEvent} {ms : List Money}

theorem mem_cashDeltas (h : cashDeltas fill = .ok ms)
    {c : Currency} {amount : ℚ} (hm : (c, amount) ∈ cashByCurrency fill) (hne : amount ≠ 0) :
    ∃ m ∈ ms, m.currency = c := by
  unfold cashDeltas at h
  rw [fractions_eq, ok_bind, mapM_ok_iff] at h
  obtain ⟨entries, hentries⟩ : ∃ entries, entries =
      (sortBy (·.1.code) (cashByCurrency fill)).filter fun e => e.2 ≠ 0 := ⟨_, rfl⟩
  have hmem : (c, amount) ∈ entries := by
    rw [hentries, List.mem_filter, mem_sortBy]
    exact ⟨hm, by simpa using hne⟩
  rw [← hentries] at h
  clear hentries
  induction h with
  | nil => simp at hmem
  | cons hy _ ih =>
    rcases List.mem_cons.1 hmem with rfl | hmem
    · simp only [roundedDecimal_eq, ok_bind, money_ok_iff] at hy
      exact ⟨_, List.mem_cons_self, hy.2⟩
    · obtain ⟨m, hm, hc⟩ := ih hmem
      exact ⟨m, List.mem_cons_of_mem _ hm, hc⟩

theorem settlement_mem_deltas (h : cashDeltas fill = .ok ms) : ∃ m ∈ ms ++ nonzero fill.commission,
      m.currency = fill.instrumentDefinition.settlementCurrency := by
  set c := fill.instrumentDefinition.settlementCurrency with hc
  by_cases hcc : fill.commission.currency = c
  · have hmem : (c, tradeDelta fill - fill.commission.amount) ∈ cashByCurrency fill := by
      unfold cashByCurrency
      rw [hcc, ← hc]
      simp [Dict.get?, Dict.set]
    by_cases hz : fill.commission.amount = 0
    · obtain ⟨m, hm, hmc⟩ := mem_cashDeltas h hmem (by simpa [hz] using tradeDelta_ne_zero fill)
      exact ⟨m, List.mem_append_left _ hm, hmc⟩
    · refine ⟨fill.commission, List.mem_append_right _ ?_, hcc⟩
      simp [nonzero, hz]
  · have hmem : (c, tradeDelta fill) ∈ cashByCurrency fill := by
      unfold cashByCurrency
      rw [← hc]
      simp [Dict.set, Ne.symm hcc]
    obtain ⟨m, hm, hmc⟩ := mem_cashDeltas h hmem (tradeDelta_ne_zero fill)
    exact ⟨m, List.mem_append_left _ hm, hmc⟩

structure Linked (s : PortfolioReplayState) : Prop where
  economics : ∀ e ∈ s.activeEffects, Economics e
  status : ∀ e ∈ s.activeEffects, e.fill.status.IsNormal ∨ e.fill.status = .correction
  position : ∀ e ∈ s.activeEffects, ∃ p, findPosition s.snapshot.positions e.positionKey = some p ∧
    p.instrumentDefinition = some e.fill.instrumentDefinition
  precision : ∀ e ∈ s.activeEffects, ∀ p ∈ findPosition s.snapshot.positions e.positionKey,
    p.quantity.precision = e.fill.quantity.precision
  balance : ∀ e ∈ s.activeEffects, ∀ m ∈ e.cashDeltas ++ e.balanceRealizedPnlDeltas ++ e.balanceFeeDeltas,
      (balanceOf s.snapshot.balances m.currency).isSome = true

theorem Linked.settlementBalance {s : PortfolioReplayState} (h : Linked s) {e : PortfolioExecutionEffect}
    (he : e ∈ s.activeEffects) :
    (balanceOf s.snapshot.balances e.fill.instrumentDefinition.settlementCurrency).isSome = true := by
  have hec := h.economics e he
  obtain ⟨m, hm, hc⟩ := settlement_mem_deltas hec.cashDeltas
  rw [← hc]
  refine h.balance e he m ?_
  rw [hec.balanceFees, List.append_assoc]
  rcases List.mem_append.1 hm with hm | hm
  · exact List.mem_append_left _ hm
  · exact List.mem_append_right _ (List.mem_append_right _ hm)

variable {x : PortfolioExecutionEffect}

theorem Linked.definition_eq (hs : Linked s) {y : PortfolioExecutionEffect} (hx : x ∈ s.activeEffects)
    (hy : y ∈ s.activeEffects) (hk : x.positionKey = y.positionKey) :
    x.fill.instrumentDefinition = y.fill.instrumentDefinition := by
  obtain ⟨p, hp, hd⟩ := hs.position x hx
  obtain ⟨q, hq, hd'⟩ := hs.position y hy
  rw [hk, hq] at hp
  obtain rfl := Option.some.inj hp
  rw [hd] at hd'
  exact Option.some.inj hd'

theorem quantity_precision (fill : FillEvent) :
    fill.quantity.precision = fill.instrumentDefinition.sizeIncrement.precision :=
  fill.valid.grid.1.1

theorem settlement_of_definition {p : PortfolioPositionState} {d : InstrumentDefinition}
    (h : p.instrumentDefinition = some d) : p.settlementCurrency = d.settlementCurrency :=
  ((p.facts.definition d h).2).symm

section Booked

variable {s s' : PortfolioReplayState} {entry : PortfolioFillEntry} {source : PortfolioEvent} {seq : ℕ}
  {mark : Option PositionMark} {observedAt : Option DateTime}

variable (h : bookFill s entry source seq mark observedAt = .ok s')
include h

theorem bookFill_linked (hs : Linked s)
    (hstatus : entry.fill.status.IsNormal ∨ entry.fill.status = .correction) : Linked s' := by
  obtain ⟨p, before, accounting, e, next, p', unrealized, hf, hw⟩ := bookFill_spec h
  have hmem : ∀ x, x ∈ s'.activeEffects ↔ x ∈ s.activeEffects ∨ x = e := by
    intro x
    rw [hw.effects, mem_sortBy, List.mem_append, List.mem_singleton]
  have hfill : e.fill = entry.fill := by rw [hf.effect]
  have hekey : e.positionKey = entryKey entry := by rw [hf.effect]
  have hkey : p'.key = entryKey entry :=
    (hw.applied_key.trans hf.next_key).trans (positionFor_key hf.position)
  have hdef : p'.instrumentDefinition = some entry.fill.instrumentDefinition := by
    rw [hw.applied]
    change next.instrumentDefinition = _
    rw [hf.next]
  have hfind := hw.moved.findPosition_eq
  -- the effects of the position that is replaced share the definition of the entry
  have hshared : ∀ x ∈ s'.activeEffects, p'.key = x.positionKey →
      p'.instrumentDefinition = some x.fill.instrumentDefinition := by
    intro x hx hk
    rcases (hmem x).1 hx with hx | rfl
    · obtain ⟨q, hq, hqd⟩ := hs.position x hx
      have hfound : findPosition s.snapshot.positions (entryKey entry) = some q := by
        rw [← hkey, hk, hq]
      rcases positionFor_cases hf.position with hp | ⟨hp, -⟩
      · rw [hp] at hfound
        obtain rfl := Option.some.inj hfound
        rcases hf.definition with hd | hd
        · rw [hqd] at hd
          cases hd
        · rw [hdef, ← hd, hqd]
      · rw [hp] at hfound
        cases hfound
    · rw [hdef, hfill]
  refine ⟨?_, ?_, ?_, ?_, ?_⟩
  · intro x hx
    rcases (hmem x).1 hx with hx | rfl
    · exact hs.economics x hx
    · exact hf.economics
  · intro x hx
    rcases (hmem x).1 hx with hx | rfl
    · exact hs.status x hx
    · rwa [hfill]
  · intro x hx
    rw [hfind]
    split_ifs with hk
    · exact ⟨p', rfl, hshared x hx hk⟩
    · rcases (hmem x).1 hx with hx | rfl
      · exact hs.position x hx
      · exact absurd (hkey.trans hekey.symm) hk
  · intro x hx q hq
    rw [hfind] at hq
    split_ifs at hq with hk
    · obtain rfl := Option.mem_some_iff.1 hq
      have hx' := hshared x hx hk
      rw [hdef] at hx'
      have hprecision : p'.quantity.precision = entry.fill.quantity.precision := by
        rw [hw.applied]
        exact hf.quantity_precision
      rw [hprecision, quantity_precision, quantity_precision, Option.some.inj hx']
    · rcases (hmem x).1 hx with hx | rfl
      · exact hs.precision x hx q hq
      · exact absurd (hkey.trans hekey.symm) hk
  · intro x hx m hm
    rw [hw.moved.hasBalance_eq]
    rcases (hmem x).1 hx with hx | rfl
    · exact hs.balance x hx m hm
    · simp only [List.mem_append] at hm
      rcases hm with (hm | hm) | hm
      · exact hw.moved.hasBalance .cash m hm
      · exact hw.moved.hasBalance .realizedPnl m hm
      · exact hw.moved.hasBalance .fees m hm

theorem bookFill_tickets : (tickets s').Perm (⟨entry, source, seq⟩ :: tickets s) := by
  obtain ⟨p, before, accounting, e, next, p', unrealized, hf, hw⟩ := bookFill_spec h
  have ht : ticket e = ⟨entry, source, seq⟩ := by
    unfold ticket
    rw [hf.effect]
  unfold tickets
  rw [hw.effects, ← ht]
  refine ((sortBy_perm _ _).map ticket).trans ?_
  rw [List.map_append, List.map_singleton]
  exact List.perm_append_singleton _ _

theorem bookFill_books : SameBooks s s' := by
  obtain ⟨p, before, accounting, e, next, p', unrealized, -, hw⟩ := bookFill_spec h
  exact hw.moved.books

end Booked

variable {s s' : PortfolioReplayState} {e : PortfolioExecutionEffect} {observedAt : DateTime}

theorem mem_withoutExecution {effects : List PortfolioExecutionEffect} {id : Uuid} :
    x ∈ withoutExecution effects id ↔ x ∈ effects ∧ x.executionId ≠ id := by
  unfold withoutExecution
  simp

variable (h : removeEffect s e observedAt = .ok s')
include h

theorem removeEffect_net (hs : Linked s) (he : e ∈ s.activeEffects) : net s' = net s := by
  obtain ⟨p, p', basis, unrealized, hr⟩ := removeEffect_spec h
  obtain ⟨q, hq, hd⟩ := hs.position e he
  have hec := hs.economics e he
  have hpq : p = q := by
    have := hr.position
    rw [← hec.key, hq] at this
    exact (Option.some.inj this).symm
  subst hpq
  exact hr.moved.net_eq (removeEffect_moved hr hec he (settlement_of_definition hd))

theorem removeEffect_linked (hs : Linked s) : Linked s' := by
  obtain ⟨p, p', basis, unrealized, hr⟩ := removeEffect_spec h
  have hmem : ∀ x ∈ s'.activeEffects, x ∈ s.activeEffects := by
    intro x hx
    rw [hr.effects] at hx
    exact (mem_withoutExecution.1 hx).1
  have hkey : p'.key = p.key := by
    unfold PortfolioPositionState.key
    rw [hr.next]
  have hdef : p'.instrumentDefinition = p.instrumentDefinition := by rw [hr.next]
  refine ⟨fun x hx => hs.economics x (hmem x hx), fun x hx => hs.status x (hmem x hx), ?_, ?_, ?_⟩
  · intro x hx
    obtain ⟨q, hq, hd⟩ := hs.position x (hmem x hx)
    rw [hr.moved.findPosition_eq]
    split_ifs with hk
    · refine ⟨p', rfl, ?_⟩
      have hp := hr.position
      rw [← findPosition_key hr.position, ← hkey, hk, hq] at hp
      obtain rfl := Option.some.inj hp
      rw [hdef, hd]
    · exact ⟨q, hq, hd⟩
  · intro x hx q hq
    rw [hr.moved.findPosition_eq] at hq
    split_ifs at hq with hk
    · obtain rfl := Option.mem_some_iff.1 hq
      rw [hr.quantity_precision]
      refine hs.precision x (hmem x hx) p ?_
      rw [← hk, hkey, findPosition_key hr.position]
      exact hr.position
    · exact hs.precision x (hmem x hx) q hq
  · intro x hx m hm
    rw [hr.moved.hasBalance_eq]
    exact hs.balance x (hmem x hx) m hm

theorem removeEffect_tickets (he : e ∈ s.activeEffects) : (tickets s).Perm (ticket e :: tickets s') := by
  obtain ⟨p, p', basis, unrealized, hr⟩ := removeEffect_spec h
  unfold tickets
  rw [hr.effects]
  exact (withoutExecution_perm s.facts.nodup_executionIds he).map ticket

theorem removeEffect_books : SameBooks s s' := by
  obtain ⟨p, p', basis, unrealized, hr⟩ := removeEffect_spec h
  exact hr.moved.books

theorem removeEffect_effects : s'.activeEffects = withoutExecution s.activeEffects e.executionId := by
  obtain ⟨p, p', basis, unrealized, hr⟩ := removeEffect_spec h
  exact hr.effects

end TradingAgent.PortfolioReducer
