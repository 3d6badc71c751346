import TradingAgent.PortfolioReducer.Balances

/-! What booking, rebasing and reversing do to a portfolio. -/

namespace TradingAgent.PortfolioReducer

open Outcome AverageCost

/-! ## The position of an entry -/

structure NewPosition (entry : PortfolioFillEntry) (p : PortfolioPositionState) : Prop where
  key : p.key = entryKey entry
  accountId : p.accountId = entry.accountId
  definition : p.instrumentDefinition = some entry.fill.instrumentDefinition
  quantity : p.quantity.value = 0
  average : p.averageEntryPrice = none
  mark : p.mark = none
  realizedPnl : p.realizedPnl.amount = 0
  unrealizedPnl : p.unrealizedPnl.amount = 0
  fees : p.fees.amount = 0
  funding : p.funding.amount = 0

theorem quantityFits_zero (fill : FillEvent) : QuantityFits 0 fill.quantity.precision := by
  refine ⟨fill.quantity.fits.1, ?_, ?_⟩
  · simp
  · simp

variable {p : PortfolioPositionState} {entry : PortfolioFillEntry}

theorem newPosition_spec (h : newPosition entry entry.fill = .ok p) : NewPosition entry p := by
  unfold newPosition at h
  simp only [quantity_of (quantityFits_zero entry.fill), money_zero, ok_bind, PortfolioPositionState.of_ok_iff] at h
  constructor <;> simp [PortfolioPositionState.key, entryKey, h, Money.zero]

theorem newPosition_ok (entry : PortfolioFillEntry) : ∃ p, newPosition entry entry.fill = .ok p := by
  unfold newPosition
  simp only [quantity_of (quantityFits_zero entry.fill), money_zero, ok_bind]
  apply PortfolioPositionState.of_valid
  constructor <;> simp [Money.zero]

variable {s : PortfolioReplayState}

theorem positionFor_cases (h : positionFor s entry = .ok p) :
    findPosition s.snapshot.positions (entryKey entry) = some p ∨
      findPosition s.snapshot.positions (entryKey entry) = none ∧ NewPosition entry p := by
  unfold positionFor at h
  cases hf : findPosition s.snapshot.positions (entryKey entry) with
  | none =>
    rw [hf] at h
    exact .inr ⟨rfl, newPosition_spec h⟩
  | some q =>
    rw [hf] at h
    exact .inl (congrArg some (Except.ok.inj h))

theorem findPosition_key {k : PositionKey} (h : findPosition s.snapshot.positions k = some p) : p.key = k :=
  (lookupBy_some h).2

theorem positionFor_key (h : positionFor s entry = .ok p) : p.key = entryKey entry := by
  rcases positionFor_cases h with hf | ⟨-, hn⟩
  · exact findPosition_key hf
  · exact hn.key

theorem positionFor_ok (s : PortfolioReplayState) (entry : PortfolioFillEntry) : ∃ p, positionFor s entry = .ok p := by
  unfold positionFor
  cases findPosition s.snapshot.positions (entryKey entry) with
  | none => exact newPosition_ok entry
  | some p => exact ⟨p, rfl⟩

theorem key_inj {a b c d : String} (h : positionKey a b = positionKey c d) : a = c ∧ b = d := by
  have := congrArg ofLex h
  exact Prod.mk.inj this

theorem entry_strategy_key (h : p.key = entryKey entry) :
    positionKey entry.strategyId p.instrument.canonical = entryKey entry := by
  unfold entryKey
  rw [(key_inj h).2]

/-! ## The effect of a fill -/

/-- All that `_fill_effect` does. -/
structure FillOf (s : PortfolioReplayState) (entry : PortfolioFillEntry) (source : PortfolioEvent)
    (seq : ℕ) (mark : Option PositionMark) (p : PortfolioPositionState) (before : ℚ × ℚ)
    (accounting : FillAccounting) (e : PortfolioExecutionEffect) (p' : PortfolioPositionState) :
    Prop where
  position : positionFor s entry = .ok p
  definition : p.instrumentDefinition = none ∨
    p.instrumentDefinition = some entry.fill.instrumentDefinition
  accountingBefore : accountingBefore s.activeEffects (entryKey entry) p.quantity.value
    p.averageEntryPrice = .ok before
  fillAccounting : fillAccounting entry.fill p.quantity.value p.averageEntryPrice before.1 =
    .ok accounting
  marked : markAndUnrealized p p'.quantity accounting.nextAverage accounting.basisAfter mark =
    .ok (p'.mark, p'.unrealizedPnl)
  next : p'.toPortfolioPositionFields =
    { p.toPortfolioPositionFields with
      instrumentDefinition := some entry.fill.instrumentDefinition
      quantity := p'.quantity
      mark := p'.mark
      averageEntryPrice := accounting.nextAverage
      realizedPnl := p'.realizedPnl
      unrealizedPnl := p'.unrealizedPnl
      fees := p'.fees
      observedAt := entry.effectiveAt }
  quantity : p'.quantity.value = accounting.residual
  quantity_precision : p'.quantity.precision = entry.fill.quantity.precision
  realizedPnl : p'.realizedPnl.amount = p.realizedPnl.amount + e.realizedPnlDelta.amount
  fees : p'.fees.amount = p.fees.amount + e.feesDelta.amount
  realizedPnlDelta : e.realizedPnlDelta.amount =
    rounded entry.fill.instrumentDefinition.settlementCurrency.precision
      (before.2 + accounting.realized) -
    rounded entry.fill.instrumentDefinition.settlementCurrency.precision before.2
  cashDeltas : cashDeltas entry.fill = .ok e.cashDeltas
  balanceRealized : e.balanceRealizedPnlDeltas = nonzero e.realizedPnlDelta
  quantityDelta : e.quantityDelta.value = accounting.signedFill
  quantityDelta_precision : e.quantityDelta.precision = entry.fill.quantity.precision
  feesDelta : e.feesDelta.amount = accounting.feeDelta
  realizedPnlDelta_currency : e.realizedPnlDelta.currency = p.settlementCurrency
  feesDelta_currency : e.feesDelta.currency = p.settlementCurrency
  effect : e.toPortfolioExecutionFields =
    { executionId := entry.fill.executionId
      accountId := entry.accountId
      strategyId := entry.strategyId
      fill := entry.fill
      entry := entry
      sourceEvent := source
      logicalSequence := seq
      cashDeltas := e.cashDeltas
      balanceRealizedPnlDeltas := e.balanceRealizedPnlDeltas
      balanceFeeDeltas := nonzero entry.fill.commission
      positionKey := entryKey entry
      quantityBefore := p.quantity
      quantityDelta := e.quantityDelta
      realizedPnlDelta := e.realizedPnlDelta
      feesDelta := e.feesDelta
      averageBefore := p.averageEntryPrice
      averageAfter := accounting.nextAverage }

variable {amount : Decimal} {currency : Currency} {field : String} {m : Money} {ms : List Money}

theorem nonzeroDelta_ok_iff (hm : m.amount = amount ∧ m.currency = currency) :
    nonzeroDelta amount currency field = .ok ms ↔ ms = nonzero m := by
  rw [nonzeroDelta_of field m hm.1 hm.2, Except.ok.injEq, eq_comm]

variable {e : PortfolioExecutionEffect} {mark : Option PositionMark} {p' : PortfolioPositionState}
    {source : PortfolioEvent} {seq : ℕ}

theorem fillEffect_ok_iff : fillEffect s entry source seq mark = .ok (e, p') ↔
      ∃ p before accounting, FillOf s entry source seq mark p before accounting e p' := by
  unfold fillEffect
  simp only [bind_ok_iff, require_ok_iff, exists_const, sum_eq, realizedDelta_eq, Except.ok.injEq,
    money_ok_iff, quantity_ok_iff, PortfolioPositionState.of_ok_iff, PortfolioExecutionEffect.of_ok_iff,
    List.sum_cons, List.sum_nil, add_zero, exists_eq_left', Prod.mk.injEq]
  constructor
  · rintro ⟨p, hp, hdef, before, hbefore, accounting, hacc, q, hq, marked, hmarked, realized, hrealized,
      fees, hfees, _, hnext, cash, hcash, balanceRealized, hbr, qd, hqd, rd, hrd, fd, hfd, _, heffect,
      rfl, rfl⟩
    have hkey := entry_strategy_key (positionFor_key hp)
    rw [hkey] at hbefore heffect
    have hbr' := (nonzeroDelta_ok_iff hrd).1 hbr
    refine ⟨p, before, accounting, hp, hdef, hbefore, hacc, ?_, ?_, ?_, ?_, ?_, ?_, ?_, ?_, ?_, ?_, ?_, ?_, ?_, ?_, ?_⟩
    all_goals simp only [hnext, heffect]
    · exact hmarked
    · exact hq.1
    · exact hq.2
    · rw [hrealized.1, hrd.1]
    · rw [hfees.1, hfd.1]
    · exact hrd.1
    · exact hcash
    · exact hbr'
    · exact hqd.1
    · exact hqd.2
    · exact hfd.1
    · exact hrd.2
    · exact hfd.2
    · rfl
  · rintro ⟨p, before, accounting, h⟩
    have hkey := entry_strategy_key (positionFor_key h.position)
    have hset : p'.settlementCurrency = p.settlementCurrency := by rw [h.next]
    refine ⟨p, h.position, h.definition, before, by rw [hkey]; exact h.accountingBefore, accounting,
      h.fillAccounting, p'.quantity, ⟨h.quantity, h.quantity_precision⟩, _, h.marked, p'.realizedPnl,
      ⟨by rw [h.realizedPnl, h.realizedPnlDelta], p'.facts.realizedPnl.trans hset⟩, p'.fees,
      ⟨by rw [h.fees, h.feesDelta], p'.facts.fees.trans hset⟩, p', h.next, e.cashDeltas, h.cashDeltas,
      e.balanceRealizedPnlDeltas,
      (nonzeroDelta_ok_iff ⟨h.realizedPnlDelta, h.realizedPnlDelta_currency⟩).2 h.balanceRealized,
      e.quantityDelta, ⟨h.quantityDelta, h.quantityDelta_precision⟩, e.realizedPnlDelta,
      ⟨h.realizedPnlDelta, h.realizedPnlDelta_currency⟩, e.feesDelta,
      ⟨h.feesDelta, h.feesDelta_currency⟩, e, ?_, rfl, rfl⟩
    rw [hkey]
    exact h.effect

/-! ## Marks -/

def unrealizedOf (settlement : Currency) (mark : Option PositionMark)
    (definition : Option InstrumentDefinition) (quantity basis : ℚ) : Decimal :=
  match mark, definition with
  | some mark, some definition =>
    if quantity = 0 then 0
    else rounded settlement.precision
      ((mark.price.amount - basis / |quantity|) * quantity * definition.multiplier)
  | _, _ => 0

def keptMark (p : PortfolioPositionState) (q : Quantity) (retained : Option PositionMark) :
    Option PositionMark :=
  if q.value = 0 then none else retained.or p.mark

theorem markAndUnrealized_eq {p : PortfolioPositionState} {q : Quantity} {average : Option Price}
    {basis : ℚ} {retained : Option PositionMark}
    (h : keptMark p q retained ≠ none → average.isSome = true ∧ p.instrumentDefinition.isSome = true) :
    ∃ m : Money, markAndUnrealized p q average basis retained = .ok (keptMark p q retained, m) ∧
      m.amount = unrealizedOf p.settlementCurrency (keptMark p q retained) p.instrumentDefinition
        q.value basis ∧ m.currency = p.settlementCurrency := by
  unfold markAndUnrealized
  by_cases hq : q.value = 0
  · exact ⟨Money.zero p.settlementCurrency, by simp [hq, keptMark], by simp [hq, keptMark, unrealizedOf,
      Money.zero], rfl⟩
  · have hq' : (q.value : ℚ) ≠ 0 := fun h0 => hq (Subtype.ext h0)
    simp only [keptMark, hq, if_false] at h ⊢
    cases hmark : retained.or p.mark with
    | none => exact ⟨Money.zero p.settlementCurrency, by simp, rfl, rfl⟩
    | some mark =>
      obtain ⟨ha, hd⟩ := h (by simp [hmark])
      obtain ⟨a, rfl⟩ := Option.isSome_iff_exists.1 ha
      obtain ⟨d, hd⟩ := Option.isSome_iff_exists.1 hd
      simp only [hd]
      refine ⟨⟨_, p.settlementCurrency, rounded_atScale _
        ((mark.price.amount - basis / |(q.value : ℚ)|) * q.value * d.multiplier)⟩, ?_, ?_, rfl⟩
      · simp only [roundedDecimal_eq, fractions_eq, ok_bind]
        rw [money_of _ (rounded_atScale _ _)]
        rfl
      · simp [unrealizedOf, hq']

variable {basis : ℚ}

theorem markAndUnrealized_spec {q : Quantity} {average : Option Price} {retained : Option PositionMark}
    (hr : markAndUnrealized p q average basis retained = .ok (mark, m)) :
    mark = keptMark p q retained ∧ (mark.isSome = true → p.instrumentDefinition.isSome = true) ∧
      m.amount = unrealizedOf p.settlementCurrency mark p.instrumentDefinition q.value basis := by
  by_cases hk : keptMark p q retained = none
  · have hz : markAndUnrealized p q average basis retained =
        .ok (none, Money.zero p.settlementCurrency) := by
      unfold markAndUnrealized
      unfold keptMark at hk
      by_cases hq : q.value = 0
      · simp [hq]
      · rw [if_neg hq] at hk
        simp [hq, hk]
    rw [hz, Except.ok.injEq, Prod.mk.injEq] at hr
    obtain ⟨rfl, rfl⟩ := hr
    exact ⟨hk.symm, by simp, by simp [unrealizedOf, Money.zero]⟩
  · have h : average.isSome = true ∧ p.instrumentDefinition.isSome = true := by
      unfold keptMark at hk
      have hq : q.value ≠ 0 := fun h0 => hk (if_pos h0)
      rw [if_neg hq] at hk
      obtain ⟨mk, hmk⟩ := Option.ne_none_iff_exists'.1 hk
      unfold markAndUnrealized at hr
      simp only [hq, if_false, hmk] at hr
      cases average <;> cases hd : p.instrumentDefinition <;> simp [hd] at hr ⊢
    obtain ⟨m', hm', ha, -⟩ := @markAndUnrealized_eq p q average basis retained fun _ => h
    rw [hm', Except.ok.injEq, Prod.mk.injEq] at hr
    obtain ⟨rfl, rfl⟩ := hr
    exact ⟨rfl, fun _ => h.2, ha⟩

/-! ## Moves of the account -/

structure SameBooks (s s' : PortfolioReplayState) : Prop where
  cursor : s'.cursor = s.cursor
  appliedEvents : s'.appliedEvents = s.appliedEvents
  valuationRates : s'.valuationRates = s.valuationRates
  executionIdentities : s'.executionIdentities = s.executionIdentities
  fundingIdentities : s'.fundingIdentities = s.fundingIdentities
  reconciliationIdentities : s'.reconciliationIdentities = s.reconciliationIdentities
  reconciliation : s'.reconciliation = s.reconciliation
  accountId : s'.snapshot.accountId = s.snapshot.accountId
  reportingCurrency : s'.snapshot.reportingCurrency = s.snapshot.reportingCurrency

theorem SameBooks.refl (s : PortfolioReplayState) : SameBooks s s :=
  ⟨rfl, rfl, rfl, rfl, rfl, rfl, rfl, rfl, rfl⟩

variable {s' : PortfolioReplayState}

theorem SameBooks.trans {s'' : PortfolioReplayState} (h : SameBooks s s') (h' : SameBooks s' s'') : SameBooks s s'' :=
  ⟨h'.cursor.trans h.cursor, h'.appliedEvents.trans h.appliedEvents,
    h'.valuationRates.trans h.valuationRates, h'.executionIdentities.trans h.executionIdentities,
    h'.fundingIdentities.trans h.fundingIdentities,
    h'.reconciliationIdentities.trans h.reconciliationIdentities,
    h'.reconciliation.trans h.reconciliation, h'.accountId.trans h.accountId,
    h'.reportingCurrency.trans h.reportingCurrency⟩

structure Moved (s s' : PortfolioReplayState) (p' : PortfolioPositionState) (deltas : BalanceDeltas) :
    Prop where
  books : SameBooks s s'
  positions : s'.snapshot.positions = replacePosition s.snapshot.positions p'
  balances : BalancesStep deltas.total s.snapshot.balances s'.snapshot.balances
  hasBalance : ∀ column, ∀ m ∈ deltas.column column,
    (balanceOf s.snapshot.balances m.currency).isSome = true

variable {deltas : BalanceDeltas}

theorem Moved.findPosition_eq (h : Moved s s' p' deltas) (k : PositionKey) : findPosition s'.snapshot.positions k =
      if p'.key = k then some p' else findPosition s.snapshot.positions k := by
  rw [h.positions]
  exact lookupBy_replaceBy s.snapshot.facts.nodup_keys p' k

theorem totalIn_nonzero (c : Currency) (m : Money) :
    Money.totalIn c (nonzero m) = if m.currency = c then m.amount else 0 := by
  unfold nonzero
  split_ifs with ha hc hc
  · simp [Money.totalIn, hc]
  · simp [Money.totalIn, hc]
  · simp [not_not.1 ha]
  · rfl

def effectDeltas (e : PortfolioExecutionEffect) (unrealized : Money) : BalanceDeltas :=
  ⟨e.cashDeltas, e.balanceRealizedPnlDeltas, e.balanceFeeDeltas, nonzero unrealized⟩

structure WithEffect (s : PortfolioReplayState) (e : PortfolioExecutionEffect)
    (next : PortfolioPositionState) (observedAt : Option DateTime) (s' : PortfolioReplayState)
    (p p' : PortfolioPositionState) (unrealized : Money) : Prop where
  previous : positionFor s e.entry = .ok p
  applied : p'.toPortfolioPositionFields = { next.toPortfolioPositionFields with
    observedAt := observedAt.getD e.entry.effectiveAt }
  unrealized_amount : unrealized.amount = p'.unrealizedPnl.amount - p.unrealizedPnl.amount
  unrealized_currency : unrealized.currency = p'.settlementCurrency
  moved : Moved s s' p' (effectDeltas e unrealized)
  effects : s'.activeEffects = sortBy (fun e => e.executionId) (s.activeEffects ++ [e])

theorem exists_money (h : nonzeroDelta amount currency field = .ok ms) :
    ∃ m : Money, m.amount = amount ∧ m.currency = currency ∧ ms = nonzero m := by
  by_cases ha : amount = 0
  · refine ⟨Money.zero currency, ha.symm, rfl, ?_⟩
    simp only [nonzeroDelta, ha, ne_eq, not_true_eq_false, if_false, Except.ok.injEq] at h
    simp [nonzero, Money.zero, ← h]
  · simp only [nonzeroDelta, ne_eq, ha, not_false_eq_true, if_true, bind_ok_iff, money_ok_iff,
      Except.ok.injEq] at h
    obtain ⟨m, hm, rfl⟩ := h
    refine ⟨m, hm.1, hm.2, ?_⟩
    simp [nonzero, hm.1, ha]

variable {observedAt : Option DateTime}

theorem withEffect_spec {next : PortfolioPositionState} (h : withEffect s e next observedAt = .ok s') :
    ∃ p p' unrealized, WithEffect s e next observedAt s' p p' unrealized := by
  unfold withEffect at h
  simp only [bind_ok_iff, sum_eq, ok_bind, PortfolioPositionState.of_ok_iff,
    PortfolioWorkingSnapshot.of_ok_iff, PortfolioReplayState.of_ok_iff, List.sum_cons, List.sum_nil,
    add_zero] at h
  obtain ⟨p', hp', p, hp, ms, hms, balances, hb, w, hw, hs⟩ := h
  obtain ⟨m, hm, hc, rfl⟩ := exists_money hms
  obtain ⟨hstep, hhas⟩ := applyBalances_spec s.snapshot.facts.nodup_currencies hb
  refine ⟨p, p', m, hp, hp', by rw [hm, sub_eq_add_neg], hc, ⟨?_, ?_, ?_, hhas⟩, ?_⟩
  · constructor <;> simp [hs, hw]
  · simp [hs, hw]
  · rw [hs]
    simp only [hw]
    exact hstep
  · rw [hs]

theorem BalancesStep.accounts {delta : Currency → BalanceDelta} {bs bs' : List AccountBalanceSnapshot}
    {accountId : String} (h : BalancesStep delta bs bs')
    (hn : (bs'.map (·.currency)).Nodup) (ha : ∀ b ∈ bs, b.accountId = accountId) :
    ∀ b ∈ bs', b.accountId = accountId := by
  intro b' hb'
  have hc := h b'.currency
  have hb : balanceOf bs' b'.currency = some b' := (lookupBy_eq_some_iff hn).2 ⟨hb', rfl⟩
  rw [hb] at hc
  generalize hx : balanceOf bs b'.currency = x at hc
  cases hc with
  | some hstep =>
    rw [hstep.accountId]
    exact ha _ (lookupBy_some hx).1

theorem movedSnapshot_ok {observedAt : DateTime} {balances : List AccountBalanceSnapshot}
    (hb : applyBalances s.snapshot.balances deltas observedAt = .ok balances)
    (hacc : p'.accountId = s.snapshot.accountId) :
    ∃ w, PortfolioWorkingSnapshot.of
      { s.snapshot.toPortfolioWorkingFields with
        balances := balances
        positions := replacePosition s.snapshot.positions p'
        observedAt := observedAt } = .ok w := by
  obtain ⟨hstep, -⟩ := applyBalances_spec s.snapshot.facts.nodup_currencies hb
  have hsorted := applyBalances_sorted hb
  have hn : (balances.map (·.currency)).Nodup := by
    refine List.Nodup.of_map Currency.code ?_
    rw [List.map_map]
    exact hsorted.imp ne_of_lt
  apply PortfolioWorkingSnapshot.of_valid
  refine ⟨hsorted, hstep.accounts hn s.snapshot.facts.balanceAccount,
    replaceBy_pairwise_lt s.snapshot.facts.nodup_keys p', ?_⟩
  intro q hq
  rcases mem_replaceBy.1 hq with rfl | ⟨hq, -⟩
  · exact hacc
  · exact s.snapshot.facts.positionAccount q hq

theorem withEffect_ok {s : PortfolioReplayState} {e : PortfolioExecutionEffect}
    {next p : PortfolioPositionState} (observedAt : Option DateTime)
    (hp : positionFor s e.entry = .ok p) (hset : next.settlementCurrency = p.settlementCurrency)
    (hacc : next.accountId = s.snapshot.accountId) (hnew : e.executionId ∉ s.activeEffects.map (·.executionId))
    (hhas : ∀ m ∈ e.cashDeltas ++ e.balanceRealizedPnlDeltas ++ e.balanceFeeDeltas,
      (balanceOf s.snapshot.balances m.currency).isSome = true)
    (hsettle : (balanceOf s.snapshot.balances next.settlementCurrency).isSome = true) :
    ∃ s', withEffect s e next observedAt = .ok s' := by
  obtain ⟨p', hp'⟩ := @PortfolioPositionState.of_valid
    { next.toPortfolioPositionFields with observedAt := observedAt.getD e.entry.effectiveAt }
    (by
      have h := next.facts
      exact ⟨h.definition, h.realizedPnl, h.unrealizedPnl, h.fees, h.funding, h.flat, h.nonflat⟩)
  have hp'' := PortfolioPositionState.of_ok_iff.1 hp'
  have hset' : p'.settlementCurrency = next.settlementCurrency := by rw [hp'']
  have hscale : AtScale p'.settlementCurrency.precision
      ((p'.unrealizedPnl.amount + -p.unrealizedPnl.amount : Decimal) : ℚ) := by
    push_cast
    exact (money_amount_atScale _ p'.facts.unrealizedPnl).add
      (money_amount_atScale _ (p.facts.unrealizedPnl.trans (hset.symm.trans hset'.symm))).neg
  have hms := nonzeroDelta_of "balance unrealized PnL delta" ⟨_, _, hscale⟩ rfl rfl
  obtain ⟨balances, hb⟩ := @applyBalances_ok s.snapshot.balances
    (effectDeltas e ⟨_, _, hscale⟩) (observedAt.getD e.entry.effectiveAt)
    s.snapshot.facts.nodup_currencies (by
      intro column m hm
      cases column with
      | cash => exact hhas m (by simp only [List.mem_append]; exact .inl (.inl hm))
      | realizedPnl => exact hhas m (by simp only [List.mem_append]; exact .inl (.inr hm))
      | fees => exact hhas m (by simp only [List.mem_append]; exact .inr hm)
      | unrealizedPnl =>
        have hc : m.currency = p'.settlementCurrency := by
          simp only [BalanceDeltas.column, effectDeltas, nonzero] at hm
          split_ifs at hm
          · rw [List.mem_singleton.1 hm]
          · simp at hm
        rw [hc, hset']
        exact hsettle)
  obtain ⟨w, hw⟩ := movedSnapshot_ok hb (show p'.accountId = _ by rw [hp'']; exact hacc)
  have hids : ((sortBy (·.executionId) (s.activeEffects ++ [e])).map
      (·.executionId)).Pairwise (· < ·) := by
    refine List.pairwise_map.2 (sortBy_pairwise_lt
      (fun e : PortfolioExecutionEffect => e.executionId) (s.activeEffects ++ [e]) ?_)
    rw [List.map_append, List.map_singleton, List.nodup_append]
    refine ⟨s.facts.nodup_executionIds, by simp, ?_⟩
    rintro a ha b hb rfl
    rw [List.mem_singleton.1 hb] at ha
    exact hnew ha
  obtain ⟨s', hs'⟩ := @PortfolioReplayState.of_valid
    { s.toPortfolioReplayFields with
      snapshot := w
      activeEffects := sortBy (·.executionId) (s.activeEffects ++ [e]) }
    ⟨s.facts.cursor, s.facts.appliedEvents, s.facts.valuationRates, hids, s.facts.executionIdentities,
      s.facts.fundingIdentities, s.facts.reconciliationIdentities⟩
  refine ⟨s', ?_⟩
  unfold withEffect
  simp only [hp', hp, ok_bind, sum_eq, List.sum_cons, List.sum_nil, add_zero, hms]
  unfold effectDeltas at hb
  rw [hb]
  simp only [ok_bind]
  rw [hw]
  exact hs'

/-! ## Reversals -/

def negMoney (m : Money) : Money :=
  ⟨-m.amount, m.currency, by push_cast; exact m.exact.neg⟩

@[simp] theorem reversedDeltas_eq (ms : List Money) (field : String) :
    reversedDeltas ms field = .ok (ms.map negMoney) := by
  unfold reversedDeltas
  induction ms with
  | nil => rfl
  | cons m ms ih =>
    have hm : money (-m.amount) m.currency field = .ok (negMoney m) := money_of field (negMoney m).exact
    rw [List.mapM_cons, ih, hm]
    rfl

theorem totalIn_neg (c : Currency) (ms : List Money) : Money.totalIn c (ms.map negMoney) = -Money.totalIn c ms := by
  induction ms with
  | nil => simp
  | cons m ms ih =>
    rw [List.map_cons, Money.totalIn_cons, Money.totalIn_cons, ih, neg_add]
    by_cases hc : m.currency = c <;> simp [negMoney, hc]

def reversalDeltas (e : PortfolioExecutionEffect) (unrealized : Money) : BalanceDeltas :=
  ⟨e.cashDeltas.map negMoney, e.balanceRealizedPnlDeltas.map negMoney, e.balanceFeeDeltas.map negMoney,
    nonzero unrealized⟩

/-- All that `_remove_effect` does. -/
structure RemoveOf (s : PortfolioReplayState) (e : PortfolioExecutionEffect) (observedAt : DateTime)
    (s' : PortfolioReplayState) (p p' : PortfolioPositionState) (nextBasis : ℚ) (unrealized : Money) :
    Prop where
  position : findPosition s.snapshot.positions (entryKey e.entry) = some p
  basis : costBasisBefore (withoutExecution s.activeEffects e.executionId) e.positionKey
    (p.quantity.value - e.quantityDelta.value) e.averageBefore = .ok nextBasis
  marked : markAndUnrealized p p'.quantity e.averageBefore nextBasis none = .ok (p'.mark, p'.unrealizedPnl)
  next : p'.toPortfolioPositionFields =
    { p.toPortfolioPositionFields with
      quantity := p'.quantity
      mark := p'.mark
      averageEntryPrice := e.averageBefore
      realizedPnl := p'.realizedPnl
      unrealizedPnl := p'.unrealizedPnl
      fees := p'.fees
      observedAt := observedAt }
  quantity : p'.quantity.value = p.quantity.value - e.quantityDelta.value
  quantity_precision : p'.quantity.precision = p.quantity.precision
  realizedPnl : p'.realizedPnl.amount = p.realizedPnl.amount - e.realizedPnlDelta.amount
  fees : p'.fees.amount = p.fees.amount - e.feesDelta.amount
  unrealized_amount : unrealized.amount = p'.unrealizedPnl.amount - p.unrealizedPnl.amount
  unrealized_currency : unrealized.currency = p.settlementCurrency
  moved : Moved s s' p' (reversalDeltas e unrealized)
  effects : s'.activeEffects = withoutExecution s.activeEffects e.executionId

theorem removeEffect_spec {observedAt : DateTime} (h : removeEffect s e observedAt = .ok s') :
    ∃ p p' basis unrealized, RemoveOf s e observedAt s' p p' basis unrealized := by
  unfold removeEffect at h
  rw [bind_ok_iff] at h
  obtain ⟨w, hw, hs⟩ := h
  rw [PortfolioReplayState.of_ok_iff] at hs
  unfold reverseEffect at hw
  cases hf : findPosition s.snapshot.positions (entryKey e.entry) with
  | none => simp [hf] at hw
  | some p =>
    rw [hf] at hw
    simp only [bind_ok_iff, sum_eq, ok_bind, reversedDeltas_eq, PortfolioWorkingSnapshot.of_ok_iff,
      List.sum_cons, List.sum_nil, add_zero] at hw
    obtain ⟨p', hp', ms, hms, balances, hb, hw⟩ := hw
    unfold reversedPosition at hp'
    simp only [bind_ok_iff, sum_eq, Except.ok.injEq, exists_eq_left', quantity_ok_iff, money_ok_iff,
      PortfolioPositionState.of_ok_iff, List.sum_cons, List.sum_nil, add_zero, ← sub_eq_add_neg]
      at hp' hms
    obtain ⟨q, ⟨hq, hprecision⟩, basis, hbasis, marked, hmarked, realized, hrealized, fees, hfees, hnext⟩ := hp'
    obtain ⟨m, hm, hc, rfl⟩ := exists_money hms
    obtain ⟨hstep, hhas⟩ := applyBalances_spec s.snapshot.facts.nodup_currencies hb
    refine ⟨p, p', basis, m, hf, hbasis, ?_, ?_, ?_, ?_, ?_, ?_, hm, hc, ⟨?_, ?_, ?_, hhas⟩, ?_⟩
    · rw [hnext]
      exact hmarked
    · rw [hnext]
    · rw [hnext]
      exact hq
    · rw [hnext]
      exact hprecision
    · rw [hnext]
      exact hrealized.1
    · rw [hnext]
      exact hfees.1
    · constructor <;> simp [hs, hw]
    · simp [hs, hw]
    · rw [hs]
      simp only [hw]
      exact hstep
    · rw [hs]

theorem removeEffect_ok (observedAt : DateTime) (hp : findPosition s.snapshot.positions (entryKey e.entry) = some p)
    (hset : p.settlementCurrency = e.fill.instrumentDefinition.settlementCurrency)
    (hdef : p.instrumentDefinition.isSome = true)
    (hfits : QuantityFits (p.quantity.value - e.quantityDelta.value) p.quantity.precision)
    (hbasis : costBasisBefore (withoutExecution s.activeEffects e.executionId) e.positionKey
      (p.quantity.value - e.quantityDelta.value) e.averageBefore = .ok basis)
    (hflat : p.quantity.value - e.quantityDelta.value = 0 → e.averageBefore = none)
    (hopen : p.quantity.value - e.quantityDelta.value ≠ 0 →
      ∃ average, e.averageBefore = some average ∧ average.currency = p.settlementCurrency)
    (hhas : ∀ m ∈ e.cashDeltas ++ e.balanceRealizedPnlDeltas ++ e.balanceFeeDeltas,
      (balanceOf s.snapshot.balances m.currency).isSome = true)
    (hsettle : (balanceOf s.snapshot.balances p.settlementCurrency).isSome = true) :
    ∃ s', removeEffect s e observedAt = .ok s' := by
  obtain ⟨q, hq⟩ : ∃ q, quantity (p.quantity.value - e.quantityDelta.value) p.quantity.precision = .ok q :=
    ⟨_, quantity_of hfits⟩
  have hqv := (quantity_ok_iff.1 hq).1
  obtain ⟨u, hmarked, hu, hucur⟩ := @markAndUnrealized_eq p q e.averageBefore basis none (by
    intro hkept
    have h0 : q.value ≠ 0 := fun h0 => hkept (if_pos h0)
    rw [hqv] at h0
    obtain ⟨average, ha, -⟩ := hopen h0
    exact ⟨by rw [ha]; rfl, hdef⟩)
  have hscale : ∀ {m n : Money}, m.currency = p.settlementCurrency → n.currency = p.settlementCurrency →
      AtScale p.settlementCurrency.precision ((m.amount - n.amount : Decimal) : ℚ) := by
    intro m n hm hn
    push_cast
    exact (money_amount_atScale m hm).sub (money_amount_atScale n hn)
  have hrealized := money_of "reversed realized PnL" (hscale p.facts.realizedPnl
    (e.facts.realizedPnlDelta.trans hset.symm))
  have hfees := money_of "reversed fees" (hscale p.facts.fees (e.facts.feesDelta.trans hset.symm))
  obtain ⟨p', hp'⟩ := @PortfolioPositionState.of_valid
    { p.toPortfolioPositionFields with
      quantity := q
      mark := keptMark p q none
      averageEntryPrice := e.averageBefore
      realizedPnl := ⟨_, _, hscale p.facts.realizedPnl (e.facts.realizedPnlDelta.trans hset.symm)⟩
      unrealizedPnl := u
      fees := ⟨_, _, hscale p.facts.fees (e.facts.feesDelta.trans hset.symm)⟩
      observedAt := observedAt }
    (by
      refine ⟨p.facts.definition, rfl, hucur, rfl, p.facts.funding, fun h0 => ?_, fun h0 => ?_⟩
      · have hq0 : q.value = 0 := h0
        refine ⟨hflat (hqv ▸ hq0), by simp [keptMark, hq0], ?_⟩
        simp [hu, keptMark, hq0, unrealizedOf]
      · exact ⟨hdef, hopen (hqv ▸ h0)⟩)
  have hpf := PortfolioPositionState.of_ok_iff.1 hp'
  have huc : p'.unrealizedPnl.currency = p.settlementCurrency := by
    rw [hpf]
    exact hucur
  have hms := nonzeroDelta_of "reversed balance unrealized PnL"
    ⟨_, _, hscale huc p.facts.unrealizedPnl⟩ rfl rfl
  obtain ⟨balances, hb⟩ := @applyBalances_ok s.snapshot.balances
    (reversalDeltas e ⟨_, _, hscale huc p.facts.unrealizedPnl⟩) observedAt
    s.snapshot.facts.nodup_currencies (by
      have hneg : ∀ ms : List Money, (∀ m ∈ ms, (balanceOf s.snapshot.balances m.currency).isSome = true) →
          ∀ m ∈ ms.map negMoney, (balanceOf s.snapshot.balances m.currency).isSome = true := by
        intro ms h m hm
        obtain ⟨m₀, hm₀, rfl⟩ := List.mem_map.1 hm
        exact h m₀ hm₀
      simp only [List.mem_append, or_imp, forall_and] at hhas
      intro column
      cases column with
      | cash => exact hneg _ hhas.1.1
      | realizedPnl => exact hneg _ hhas.1.2
      | fees => exact hneg _ hhas.2
      | unrealizedPnl =>
        intro m hm
        have hc : m.currency = p.settlementCurrency := by
          simp only [BalanceDeltas.column, reversalDeltas, nonzero] at hm
          split_ifs at hm
          · rw [List.mem_singleton.1 hm]
          · simp at hm
        rw [hc]
        exact hsettle)
  obtain ⟨w, hw⟩ := movedSnapshot_ok hb (show p'.accountId = _ by
    rw [hpf]
    exact s.snapshot.facts.positionAccount p (lookupBy_some hp).1)
  obtain ⟨s', hs'⟩ := @PortfolioReplayState.of_valid
    { s.toPortfolioReplayFields with
      snapshot := w
      activeEffects := withoutExecution s.activeEffects e.executionId }
    ⟨s.facts.cursor, s.facts.appliedEvents, s.facts.valuationRates,
      s.facts.activeEffects.sublist (List.filter_sublist.map _), s.facts.executionIdentities,
      s.facts.fundingIdentities, s.facts.reconciliationIdentities⟩
  have hreversed : reversedPosition s e p observedAt = .ok p' := by
    unfold reversedPosition
    simp only [sum_eq, ok_bind, List.sum_cons, List.sum_nil, add_zero, ← sub_eq_add_neg, hq, hbasis,
      hmarked, hrealized, hfees]
    exact hp'
  refine ⟨s', ?_⟩
  unfold removeEffect reverseEffect
  simp only [hp, hreversed, ok_bind, reversedDeltas_eq, sum_eq, List.sum_cons, List.sum_nil, add_zero,
    ← sub_eq_add_neg, hms]
  unfold reversalDeltas at hb
  rw [hb]
  simp only [ok_bind]
  rw [hw]
  exact hs'

/-! ## Booking -/

theorem bookFill_spec (h : bookFill s entry source seq mark observedAt = .ok s') :
    ∃ p before accounting e next p' unrealized, FillOf s entry source seq mark p before accounting e next ∧
      WithEffect s e next observedAt s' p p' unrealized := by
  unfold bookFill at h
  rw [bind_ok_iff] at h
  obtain ⟨⟨e, next⟩, hfill, hwith⟩ := h
  obtain ⟨p, before, accounting, hf⟩ := fillEffect_ok_iff.1 hfill
  obtain ⟨q, p', unrealized, hw⟩ := withEffect_spec hwith
  have hq : p = q := by
    have hentry : e.entry = entry := by rw [hf.effect]
    have := hw.previous
    rw [hentry, hf.position] at this
    exact Except.ok.inj this
  subst hq
  exact ⟨p, before, accounting, e, next, p', unrealized, hf, hw⟩

end TradingAgent.PortfolioReducer
