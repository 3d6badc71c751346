import TradingAgent.PortfolioReducer.Faults

/-! When the next event of a portfolio is accepted. -/

namespace TradingAgent.PortfolioReducer

open Outcome AverageCost

section Accepted

variable {marked : Prop} {base : PositionKey → LotBase} {s : PortfolioReplayState}
  {e : PortfolioExecutionEffect}

theorem averageAfter_of_flat {base : LotBase} {fills : List FillEvent}
    (h : (base.account fills).quantity = 0) : base.averageAfter fills = none := by
  rcases List.eq_nil_or_concat fills with rfl | ⟨fills, fill, rfl⟩
  · exact base.flat_iff.1 (Subtype.ext h)
  · rw [List.concat_eq_append] at h ⊢
    rw [LotBase.averageAfter_concat]
    exact if_pos h

theorem removeEffect_accepted (hs : Inv marked base s) (he : e ∈ s.activeEffects) (hlast : LastOf s e)
    (hfits : QuantityFits e.quantityBefore.value e.fill.quantity.precision) (observedAt : DateTime) :
    ∃ s', removeEffect s e observedAt = .ok s' := by
  have hec := hs.linked.economics e he
  obtain ⟨p, hp, hd⟩ := hs.linked.position e he
  obtain ⟨hbefore, hbasis⟩ := hs.before_last he hlast hp
  have hsettle := settlement_of_definition hd
  have hchain := (hs.keys e.positionKey).chain
  rw [hs.lineage_last he hlast] at hchain
  have hend := hchain.last
  refine removeEffect_ok observedAt (hec.key ▸ hp) hsettle (by rw [hd]; rfl) ?_ (hbefore ▸ hbasis) ?_ ?_
    (hs.linked.balance e he) (hsettle ▸ hs.linked.settlementBalance he)
  · rw [hbefore, hs.linked.precision e he p hp]
    exact hfits
  · intro hzero
    rw [hbefore] at hzero
    rw [hend.averageBefore]
    refine averageAfter_of_flat ?_
    rw [← hend.quantityBefore, hzero]
    rfl
  · intro hne
    rw [hbefore] at hne
    rcases hend.averageBefore_isSome with hzero | hsome
    · exact absurd hzero hne
    · obtain ⟨average, haverage⟩ := Option.isSome_iff_exists.1 hsome
      exact ⟨average, haverage, (hend.averageBefore_currency average haverage).trans hsettle.symm⟩

theorem settlementFee_atScale (fill : FillEvent) :
    AtScale fill.instrumentDefinition.settlementCurrency.precision (settlementFee fill) := by
  unfold settlementFee
  split_ifs with hc
  · exact money_amount_atScale _ hc
  · simp

theorem signedFill_fits (fill : FillEvent) : QuantityFits (signedFill fill) fill.quantity.precision := by
  obtain ⟨hprecision, hscale, hbound⟩ := fill.quantity.fits
  unfold signedFill
  cases fill.side with
  | buy => exact ⟨hprecision, hscale, hbound⟩
  | sell =>
    refine ⟨hprecision, ?_, ?_⟩
    · push_cast
      exact hscale.neg
    · push_cast
      rwa [abs_neg]

theorem nonzero_sorted (m : Money) : ((nonzero m).map (·.currency.code)).Pairwise (· < ·) := by
  unfold nonzero
  split_ifs <;> simp

variable {fill : FillEvent} {ms : List Money} (h : cashDeltas fill = .ok ms)
include h

theorem cashDeltas_currencies : (ms.map (·.currency)) = (((sortBy (·.1.code) (cashByCurrency fill)).filter
      fun e => e.2 ≠ 0).map Prod.fst) := by
  unfold cashDeltas at h
  rw [fractions_eq, ok_bind, mapM_ok_iff] at h
  generalize List.filter _ _ = entries at h ⊢
  induction h with
  | nil => rfl
  | cons hm _ ih =>
    simp only [roundedDecimal_eq, ok_bind, money_ok_iff] at hm
    rw [List.map_cons, List.map_cons, ih, hm.2]

theorem cashDeltas_sorted : (ms.map (·.currency.code)).Pairwise (· < ·) := by
  have hkeys : (cashByCurrency fill).keys.Nodup := Dict.nodup_keys_set _ _ _ (List.nodup_singleton _)
  have hcodes : ((cashByCurrency fill).map (·.1.code)).Nodup := by
    simpa [Dict.keys, Function.comp_def] using hkeys.map Currency.code_injective
  rw [show (fun m : Money => m.currency.code) = Currency.code ∘ fun m => m.currency from rfl,
    ← List.map_map, cashDeltas_currencies h, List.map_map]
  exact List.pairwise_map.2 ((sortBy_pairwise_lt _ _ hcodes).filter _)

theorem cashDeltas_currency {m : Money} (hm : m ∈ ms) :
    m.currency = fill.instrumentDefinition.settlementCurrency ∨ m.currency = fill.commission.currency := by
  have hmem : m.currency ∈ ms.map (·.currency) := List.mem_map_of_mem hm
  rw [cashDeltas_currencies h] at hmem
  obtain ⟨e, he, hc⟩ := List.mem_map.1 hmem
  have hkey : e.1 ∈ (cashByCurrency fill).keys :=
    List.mem_map_of_mem ((mem_sortBy _ _ _).1 (List.mem_filter.1 he).1)
  rw [hc] at hkey
  exact ((Dict.mem_keys_set _ _ _ _).1 hkey).symm.imp (by simp [Dict.keys]) id

omit h

variable {entry : PortfolioFillEntry} {source : PortfolioEvent} {seq : ℕ}

variable {mark : Option PositionMark}

theorem fillEffect_of_account {p : PortfolioPositionState} {account : Account ℚ}
    (hsource : source.payload = .fill entry) (hposition : positionFor s entry = .ok p)
    (hd : p.instrumentDefinition = some entry.fill.instrumentDefinition ∨ p.instrumentDefinition = none ∧ mark = none)
    (hinstrument : entry.fill.instrumentDefinition.instrumentId = p.instrument)
    (hsettle : p.settlementCurrency = entry.fill.instrumentDefinition.settlementCurrency)
    (hq : (p.quantity.value : ℚ) = account.quantity)
    (hbefore : accountingBefore s.activeEffects (entryKey entry) p.quantity.value p.averageEntryPrice =
      .ok (account.basis, account.realized))
    (haverage : AverageFits entry.fill.instrumentDefinition.settlementCurrency (account.book (trade entry.fill)))
    (hfits : QuantityFits (p.quantity.value + signedFill entry.fill) entry.fill.quantity.precision) :
    ∃ e next, fillEffect s entry source seq mark = .ok (e, next) := by
  have hopen : p.quantity.value = 0 ∨ p.averageEntryPrice.isSome = true := by
    by_cases hzero : p.quantity.value = 0
    · exact .inl hzero
    · obtain ⟨-, average, ha, -⟩ := p.facts.nonflat hzero
      exact .inr (by rw [ha]; rfl)
  have hresidual : ((p.quantity.value + signedFill entry.fill : Decimal) : ℚ) =
      (account.book (trade entry.fill)).quantity := by
    push_cast
    rw [hq]
    rfl
  have hnext := roundedAverage_eq_none_iff haverage
  obtain ⟨u, hmarked, hu, hucur⟩ := @markAndUnrealized_eq p
    ⟨p.quantity.value + signedFill entry.fill, entry.fill.quantity.precision, hfits⟩
    (bookedFill account p.quantity.value entry.fill).nextAverage
    (bookedFill account p.quantity.value entry.fill).basisAfter mark (by
      intro hkept
      have hne : p.quantity.value + signedFill entry.fill ≠ 0 := fun hzero => hkept (if_pos hzero)
      refine ⟨Option.isSome_iff_ne_none.2 fun hnone => hne (Subtype.ext ?_), ?_⟩
      · rw [hresidual]
        exact hnext.1 hnone
      · rcases hd with hd | ⟨hnone, rfl⟩
        · rw [hd]
          rfl
        · -- a position without a definition is flat, so it has no mark to keep
          have hflat : p.quantity.value = 0 := by
            by_contra hopen
            simpa [hnone] using (p.facts.nonflat hopen).1
          simp [keptMark, hne, (p.facts.flat hflat).2.1] at hkept)
  obtain ⟨cash, hcashOk⟩ := cashDeltas_ok entry.fill
  set settlement := entry.fill.instrumentDefinition.settlementCurrency with hsettlement
  have hdelta : AtScale settlement.precision
      ((rounded settlement.precision (account.realized + account.profit (trade entry.fill)) -
        rounded settlement.precision account.realized : Decimal) : ℚ) := by
    push_cast
    exact (rounded_atScale _ _).sub (rounded_atScale _ _)
  have hrealized := money_amount_atScale _ (p.facts.realizedPnl.trans hsettle)
  have hfees := money_amount_atScale _ (p.facts.fees.trans hsettle)
  have hfeeDelta := settlementFee_atScale entry.fill
  -- the position after the fill and its effect
  obtain ⟨next, hnextOk⟩ := @PortfolioPositionState.of_valid
    { p.toPortfolioPositionFields with
      instrumentDefinition := some entry.fill.instrumentDefinition
      quantity := ⟨p.quantity.value + signedFill entry.fill, entry.fill.quantity.precision, hfits⟩
      mark := keptMark p ⟨_, _, hfits⟩ mark
      averageEntryPrice := (bookedFill account p.quantity.value entry.fill).nextAverage
      realizedPnl := ⟨p.realizedPnl.amount + _, settlement, by push_cast; exact hrealized.add hdelta⟩
      unrealizedPnl := u
      fees := ⟨p.fees.amount + _, settlement, by push_cast; exact hfees.add hfeeDelta⟩
      observedAt := entry.effectiveAt }
    (by
      refine ⟨fun d hmem => ?_, hsettle.symm, hucur, hsettle.symm, p.facts.funding, fun hzero => ?_, fun hne => ?_⟩
      · obtain rfl := Option.some.inj hmem
        exact ⟨hinstrument, hsettle.symm⟩
      · have hzero' : p.quantity.value + signedFill entry.fill = 0 := hzero
        refine ⟨hnext.2 ?_, by simp [keptMark, hzero'], ?_⟩
        · rw [← hresidual, hzero']
          rfl
        · simp [hu, keptMark, hzero', unrealizedOf]
      · refine ⟨rfl, ?_⟩
        have hsome : (bookedFill account p.quantity.value entry.fill).nextAverage ≠ none := by
          intro hnone
          refine hne (Subtype.ext ?_)
          rw [hresidual]
          exact hnext.1 hnone
        obtain ⟨average, ha⟩ := Option.ne_none_iff_exists'.1 hsome
        exact ⟨average, ha, (roundedAverage_eq_some ha).2.trans hsettle.symm⟩)
  have hnextFields := PortfolioPositionState.of_ok_iff.1 hnextOk
  obtain ⟨e, heOk⟩ := @PortfolioExecutionEffect.of_valid
    { executionId := entry.fill.executionId
      accountId := entry.accountId
      strategyId := entry.strategyId
      fill := entry.fill
      entry := entry
      sourceEvent := source
      logicalSequence := seq
      cashDeltas := cash
      balanceRealizedPnlDeltas := nonzero ⟨_, settlement, hdelta⟩
      balanceFeeDeltas := nonzero entry.fill.commission
      positionKey := entryKey entry
      quantityBefore := p.quantity
      quantityDelta := ⟨signedFill entry.fill, entry.fill.quantity.precision, signedFill_fits entry.fill⟩
      realizedPnlDelta := ⟨_, settlement, hdelta⟩
      feesDelta := ⟨_, settlement, hfeeDelta⟩
      averageBefore := p.averageEntryPrice
      averageAfter := (bookedFill account p.quantity.value entry.fill).nextAverage }
    ⟨rfl, rfl, hsource, rfl, rfl, rfl, cashDeltas_sorted hcashOk, nonzero_sorted _, nonzero_sorted _, rfl, rfl⟩
  have heFields := PortfolioExecutionEffect.of_ok_iff.1 heOk
  refine ⟨e, next, fillEffect_ok_iff.2 ⟨p, (account.basis, account.realized),
    bookedFill account p.quantity.value entry.fill, ?_⟩⟩
  constructor
  case position => exact hposition
  case definition => exact hd.symm.imp (·.1) id
  case accountingBefore => exact hbefore
  case fillAccounting => exact (fillAccounting_ok_iff hq).2 ⟨hopen, haverage, rfl⟩
  case cashDeltas =>
    rw [heFields]
    exact hcashOk
  all_goals simp only [hnextFields, heFields]
  case marked => exact hmarked
  case realizedPnlDelta_currency => exact hsettle.symm
  case feesDelta_currency => exact hsettle.symm
  all_goals rfl

theorem fillEffect_accepted {p : PortfolioPositionState} (hs : Inv marked base s)
    (hsource : source.payload = .fill entry) (hp : findPosition s.snapshot.positions (entryKey entry) = some p)
    (hd : p.instrumentDefinition = some entry.fill.instrumentDefinition)
    (haverage : AverageFits entry.fill.instrumentDefinition.settlementCurrency ((base (entryKey entry)).account
        (fills (lineage s.activeEffects (entryKey entry)) ++ [entry.fill])))
    (hfits : QuantityFits (p.quantity.value + signedFill entry.fill) entry.fill.quantity.precision) :
    ∃ e next, fillEffect s entry source seq mark = .ok (e, next) := by
  have hkey := hs.keys (entryKey entry)
  have hposition : positionFor s entry = .ok p := by
    unfold positionFor
    rw [hp]
  rw [LotBase.account_concat] at haverage
  exact fillEffect_of_account hsource hposition (.inl hd) (p.facts.definition _ hd).1
    (settlement_of_definition hd) (hkey.positionFor hposition).1 (hkey.accountingBefore hposition)
    haverage hfits

theorem bookFill_of_effect {next : PortfolioPositionState} (hok : fillEffect s entry source seq mark = .ok (e, next))
    (haccount : next.accountId = s.snapshot.accountId)
    (hnew : entry.fill.executionId ∉ s.activeEffects.map (·.executionId))
    (hbalance : ∀ m ∈ e.cashDeltas ++ e.balanceFeeDeltas, (balanceOf s.snapshot.balances m.currency).isSome = true)
    (observedAt : Option DateTime) : ∃ s', bookFill s entry source seq mark observedAt = .ok s' := by
  obtain ⟨p, before, accounting, hf⟩ := fillEffect_ok_iff.1 hok
  have hentry : e.entry = entry := by rw [hf.effect]
  have hfees : e.balanceFeeDeltas = nonzero entry.fill.commission := by rw [hf.effect]
  have hposition : p.settlementCurrency = next.settlementCurrency := by rw [hf.next]
  have hsettle : (balanceOf s.snapshot.balances next.settlementCurrency).isSome = true := by
    obtain ⟨m, hm, hc⟩ := settlement_mem_deltas hf.cashDeltas
    rw [← (next.facts.definition entry.fill.instrumentDefinition (by rw [hf.next]; rfl)).2, ← hc]
    exact hbalance m (hfees ▸ hm)
  obtain ⟨s', hs'⟩ := @withEffect_ok s e next p observedAt (hentry ▸ hf.position) hposition.symm haccount
    (by
      have hid : e.executionId = entry.fill.executionId := by rw [hf.effect]
      rwa [hid])
    (by
      intro m hm
      simp only [List.mem_append] at hm
      rcases hm with (hm | hm) | hm
      · exact hbalance m (List.mem_append_left _ hm)
      · rw [hf.balanceRealized] at hm
        unfold nonzero at hm
        split_ifs at hm
        · rw [List.mem_singleton.1 hm, hf.realizedPnlDelta_currency, hposition]
          exact hsettle
        · simp at hm
      · exact hbalance m (List.mem_append_right _ hm))
    hsettle
  refine ⟨s', ?_⟩
  unfold bookFill
  rw [hok, ok_bind]
  exact hs'

theorem bookFill_accepted {x : PortfolioExecutionEffect} {p : PortfolioPositionState}
    (hs : Inv marked base s) (hx : Economics x) (hnew : x.executionId ∉ s.activeEffects.map (·.executionId))
    (hp : findPosition s.snapshot.positions x.positionKey = some p)
    (hd : p.instrumentDefinition = some x.fill.instrumentDefinition)
    (haverage : AverageFits x.fill.instrumentDefinition.settlementCurrency
      ((base x.positionKey).account (fills (lineage s.activeEffects x.positionKey) ++ [x.fill])))
    (hfits : QuantityFits (p.quantity.value + signedFill x.fill) x.fill.quantity.precision)
    (hbalance : ∀ m ∈ x.cashDeltas ++ x.balanceFeeDeltas, (balanceOf s.snapshot.balances m.currency).isSome = true)
    (mark : Option PositionMark) (observedAt : Option DateTime) :
    ∃ s', bookFill s x.entry x.sourceEvent x.logicalSequence mark observedAt = .ok s' := by
  have hfill := x.facts.entryFill
  rw [hx.key] at hp haverage
  rw [← hfill] at hd haverage hfits
  obtain ⟨e, next, hok⟩ := @fillEffect_accepted marked base s x.entry x.sourceEvent x.logicalSequence mark
    p hs x.facts.sourceEvent hp hd haverage hfits
  obtain ⟨q, before, accounting, hf⟩ := fillEffect_ok_iff.1 hok
  refine bookFill_of_effect hok ?_ ?_ ?_ observedAt
  · have hq := hf.position
    unfold positionFor at hq
    rw [hp] at hq
    obtain rfl := Except.ok.inj hq
    rw [hf.next]
    exact s.snapshot.facts.positionAccount p (lookupBy_some hp).1
  · rwa [hfill, ← x.facts.executionId]
  · have hcash := hf.cashDeltas
    rw [hfill, hx.cashDeltas] at hcash
    have hfees : e.balanceFeeDeltas = x.balanceFeeDeltas := by rw [hx.balanceFees, hf.effect, hfill]
    rwa [← Except.ok.inj hcash, hfees]

end Accepted

section Loops

variable {marked : Prop} {base : PositionKey → LotBase} {s : PortfolioReplayState}

theorem removeAll_accepted {observedAt : DateTime} {items : List PortfolioExecutionEffect}
    (hs : Inv marked base s) (hitems : Reversible s items)
    (hfits : ∀ x ∈ items, QuantityFits x.quantityBefore.value x.fill.quantity.precision) :
    ∃ s', removeAll observedAt items s = .ok s' := by
  induction items generalizing s with
  | nil => exact ⟨s, rfl⟩
  | cons item items ih =>
    have hitem := hitems.active item List.mem_cons_self
    have hlast := hitems.last hs.sequences
    obtain ⟨t, ht⟩ := removeEffect_accepted hs hitem hlast (hfits item List.mem_cons_self) observedAt
    obtain ⟨s', hs'⟩ := ih (removeEffect_inv ht hs hitem hlast) (hitems.tail ht) fun x hx =>
      hfits x (List.mem_cons_of_mem _ hx)
    refine ⟨s', ?_⟩
    rw [removeAll_cons, ht, ok_bind]
    exact hs'

theorem bookFill_lineage {s' : PortfolioReplayState} {entry : PortfolioFillEntry}
    {source : PortfolioEvent} {seq : ℕ} {mark : Option PositionMark} {observedAt : Option DateTime}
    (h : bookFill s entry source seq mark observedAt = .ok s') (hs' : Inv marked base s')
    (hlast : ∀ x ∈ s.activeEffects, x.positionKey = entryKey entry → x.logicalSequence < seq) :
    ∃ e ∈ s'.activeEffects, ticket e = ⟨entry, source, seq⟩ ∧ e.positionKey = entryKey entry ∧
      lineage s'.activeEffects (entryKey entry) = lineage s.activeEffects (entryKey entry) ++ [e] := by
  obtain ⟨p, before, accounting, e, next, p', unrealized, hf, hw⟩ := bookFill_spec h
  have hperm : s'.activeEffects.Perm (e :: s.activeEffects) := by
    rw [hw.effects]
    exact (sortBy_perm _ _).trans (List.perm_append_singleton _ _)
  have hseq : e.logicalSequence = seq := by rw [hf.effect]
  have hkey : e.positionKey = entryKey entry := by rw [hf.effect]
  refine ⟨e, hperm.mem_iff.2 List.mem_cons_self, by unfold ticket; rw [hf.effect], hkey, ?_⟩
  rw [lineage_of_perm_cons hperm hs'.sequences (fun x hx hxk => by
    rw [hseq]
    exact hlast x hx (hxk.trans hkey)), if_pos hkey]

theorem fills_of_tickets {es fs : List PortfolioExecutionEffect} (h : es.map ticket = fs.map ticket) :
    fills es = fills fs := by
  have hfills : ∀ es : List PortfolioExecutionEffect,
      fills es = (es.map ticket).map (·.entry.fill) := by
    intro es
    unfold fills
    rw [List.map_map]
    exact List.map_congr_left fun e _ => e.facts.entryFill.symm
  rw [hfills, hfills, h]

/-- Retained executions of one position that can be booked again in order, at free places. -/
structure Rebookable (s : PortfolioReplayState) (k : PositionKey) (d : InstrumentDefinition)
    (items : List PortfolioExecutionEffect) : Prop where
  economics : ∀ x ∈ items, Economics x
  key : ∀ x ∈ items, x.positionKey = k
  status : ∀ x ∈ items, x.entry.fill.status.IsNormal ∨ x.entry.fill.status = .correction
  definition : ∀ x ∈ items, x.fill.instrumentDefinition = d
  balance : ∀ x ∈ items, ∀ m ∈ x.cashDeltas ++ x.balanceFeeDeltas,
    (balanceOf s.snapshot.balances m.currency).isSome = true
  ids : (items.map fun x => x.executionId).Nodup
  new : ∀ x ∈ items, x.executionId ∉ s.activeEffects.map fun e => e.executionId
  sorted : items.Pairwise fun x y => x.logicalSequence < y.logicalSequence
  above : Above s.activeEffects items

theorem Rebookable.tail {k : PositionKey} {d : InstrumentDefinition} {x : PortfolioExecutionEffect}
    {items : List PortfolioExecutionEffect} {mark : Option PositionMark} {observedAt : Option DateTime}
    {t : PortfolioReplayState} (h : Rebookable s k d (x :: items))
    (ht : bookFill s x.entry x.sourceEvent x.logicalSequence mark observedAt = .ok t) : Rebookable t k d items := by
  have hmem : ∀ {y}, y ∈ items → y ∈ x :: items := List.mem_cons_of_mem _
  obtain ⟨hlt, hsorted⟩ := List.pairwise_cons.1 h.sorted
  obtain ⟨hid, hids⟩ := List.nodup_cons.1 h.ids
  have habove : Above s.activeEffects items := fun y hy => h.above y (hmem hy)
  have hhas : ∀ c, (balanceOf t.snapshot.balances c).isSome = (balanceOf s.snapshot.balances c).isSome :=
    fun c => congrFun (congrArg Net.hasBalance (bookFill_net ht)) c
  refine ⟨fun y hy => h.economics y (hmem hy), fun y hy => h.key y (hmem hy),
    fun y hy => h.status y (hmem hy), fun y hy => h.definition y (hmem hy), fun y hy m hm => ?_, hids,
    fun y hy hm => ?_, hsorted, habove.book ht hlt⟩
  · rw [hhas]
    exact h.balance y (hmem hy) m hm
  · rw [← tickets_executionIds, ((bookFill_tickets ht).map _).mem_iff, List.map_cons, List.mem_cons,
      tickets_executionIds] at hm
    rcases hm with heq | hm
    · refine hid (List.mem_map.2 ⟨y, hy, heq.trans ?_⟩)
      exact ticket_executionId x
    · exact h.new y (hmem hy) hm

theorem bookAgain_accepted {marks : PositionKey → Option PositionMark} {observedAt : DateTime}
    {k : PositionKey} {target items : List PortfolioExecutionEffect} {p : PortfolioPositionState}
    {d : InstrumentDefinition} (hs : Inv marked base s) (htarget : Chain (base k) target)
    (hsplit : (lineage s.activeEffects k).map ticket ++ items.map ticket = target.map ticket)
    (hitems : Rebookable s k d items) (hp : findPosition s.snapshot.positions k = some p)
    (hd : p.instrumentDefinition = some d) : ∃ s', bookAgain marks observedAt items s = .ok s' := by
  induction items generalizing s p with
  | nil => exact ⟨s, rfl⟩
  | cons x items ih =>
    have hself : x ∈ x :: items := List.mem_cons_self
    have hx : x.positionKey = k := hitems.key x hself
    have hxd := hitems.definition x hself
    have hec := hitems.economics x hself
    have hitem := hitems.above x hself
    -- the effect of the target chain that `x` becomes again
    rw [List.map_cons] at hsplit
    obtain ⟨before, rest, rfl, hbefore, hrest⟩ := List.map_eq_append_iff.1 hsplit.symm
    obtain ⟨f, after, rfl, hf, hafter⟩ := List.map_eq_cons_iff.1 hrest
    have hfx : f.fill = x.fill := by
      rw [← f.facts.entryFill, ← x.facts.entryFill]
      exact congrArg (·.entry.fill) hf
    have heffect : EffectOf (base k) (fills before) f := htarget before f after rfl
    rw [fills_of_tickets hbefore] at heffect
    have hquantity : f.quantityBefore.value = p.quantity.value := by
      refine Subtype.ext ?_
      rw [heffect.quantityBefore, ← (hs.keys k).quantity p hp]
    obtain ⟨t, ht⟩ := bookFill_accepted hs hec (hitems.new x hself) (hx ▸ hp) (hxd ▸ hd)
      (by rw [hx, ← hfx]; exact heffect.averageFits)
      (by rw [← hquantity, ← hfx]; exact heffect.residualFits)
      (hitems.balance x hself) (marks x.positionKey) (some observedAt)
    have hlast : ∀ y ∈ s.activeEffects, y.positionKey = entryKey x.entry → y.logicalSequence < x.logicalSequence :=
      fun y hy hyk => (hitem y hy).2 (hyk.trans hec.key.symm)
    have htinv := bookFill_inv ht hs (hitems.status x hself) (fun y hy => (hitem y hy).1) hlast
    obtain ⟨e, he, hticket, hekey, hlineage⟩ := bookFill_lineage ht htinv hlast
    rw [← hec.key, hx] at hlineage hekey
    obtain ⟨q, hq, hqd⟩ := htinv.linked.position e he
    rw [hekey] at hq
    have hed : e.fill.instrumentDefinition = d := by
      rw [← e.facts.entryFill, ← hxd, ← x.facts.entryFill]
      exact congrArg (·.entry.fill.instrumentDefinition) hticket
    have hsplit' : (lineage t.activeEffects k).map ticket ++ items.map ticket = (before ++ f :: after).map ticket := by
      rw [hlineage, List.map_append, List.map_singleton, hticket, List.append_assoc, List.map_append,
        List.map_cons, hbefore, hf, hafter]
      rfl
    obtain ⟨s', hs'⟩ := ih htinv hsplit' (hitems.tail ht) hq (hqd.trans (congrArg some hed))
    refine ⟨s', ?_⟩
    rw [bookAgain_cons, ht, ok_bind]
    exact hs'

end Loops

section Bust

variable {marked marked' : Prop} {base : PositionKey → LotBase} {s t : PortfolioReplayState}
  {effect : PortfolioExecutionEffect} {event : PortfolioEvent} {entry : PortfolioFillEntry}

theorem Inv.quantityBefore_fits (hs : Inv marked base s) {x y : PortfolioExecutionEffect}
    (hx : x ∈ s.activeEffects) (hy : y ∈ s.activeEffects) (hk : y.positionKey = x.positionKey)
    (hlt : y.logicalSequence < x.logicalSequence) : QuantityFits x.quantityBefore.value x.fill.quantity.precision := by
  have hmem : x ∈ lineage s.activeEffects x.positionKey := mem_lineage.2 ⟨hx, rfl⟩
  have hsorted := hs.lineage_sorted x.positionKey
  have hchain := (hs.keys x.positionKey).chain
  have hy' : y ∈ lineage s.activeEffects x.positionKey := mem_lineage.2 ⟨hy, hk⟩
  have hself : ∀ w ∈ lineage s.activeEffects x.positionKey, w.fill.quantity.precision = x.fill.quantity.precision := by
    intro w hw
    obtain ⟨hw, hwk⟩ := mem_lineage.1 hw
    rw [quantity_precision, quantity_precision, hs.linked.definition_eq hw hx hwk]
  obtain ⟨before, after, hsplit⟩ := List.append_of_mem hmem
  rw [hsplit] at hsorted hchain hy' hself
  rcases List.eq_nil_or_concat before with rfl | ⟨before, w, rfl⟩
  · -- nothing comes before the first effect
    rcases List.mem_cons.1 hy' with rfl | hmem
    · exact absurd hlt (lt_irrefl _)
    · exact absurd ((List.pairwise_cons.1 hsorted).1 y hmem) hlt.not_gt
  · rw [List.concat_eq_append] at hchain hself
    have hw : EffectOf (base x.positionKey) (fills before) w :=
      hchain before w (x :: after) (by simp)
    have hx' : EffectOf (base x.positionKey) (fills (before ++ [w])) x := hchain _ x after rfl
    have hquantity : x.quantityBefore.value = w.quantityBefore.value + signedFill w.fill := by
      refine Subtype.ext ?_
      push_cast
      rw [hx'.quantityBefore, hw.quantityBefore, fills_append, fills_singleton, LotBase.account_concat]
      rfl
    rw [hquantity, ← hself w (by simp)]
    exact hw.residualFits

theorem removeAll_position {observedAt : DateTime} {items : List PortfolioExecutionEffect}
    {s' : PortfolioReplayState} {k : PositionKey} {d : InstrumentDefinition} (h : removeAll observedAt items s = .ok s')
    (hp : ∃ p, findPosition s.snapshot.positions k = some p ∧ p.instrumentDefinition = some d) :
    ∃ p, findPosition s'.snapshot.positions k = some p ∧ p.instrumentDefinition = some d := by
  refine foldlM_invariant (fun s : PortfolioReplayState =>
    ∃ p, findPosition s.snapshot.positions k = some p ∧ p.instrumentDefinition = some d) ?_ hp h
  rintro item - u u' ⟨p, hp, hd⟩ hu
  obtain ⟨q, q', basis, unrealized, hr⟩ := removeEffect_spec hu
  have hkey : q'.key = q.key := by
    unfold PortfolioPositionState.key
    rw [hr.next]
  rw [hr.moved.findPosition_eq]
  split_ifs with hk
  · have hq := hr.position
    rw [← findPosition_key hr.position, ← hkey, hk, hp] at hq
    obtain rfl := Option.some.inj hq
    exact ⟨q', rfl, by rw [hr.next]; exact hd⟩
  · exact ⟨p, hp, hd⟩

theorem lineage_tickets_perm (hs : Linked s) (k : PositionKey) :
    ((lineage s.activeEffects k).map ticket).Perm ((tickets s).filter fun t => entryKey t.entry = k) := by
  refine ((sortBy_perm _ _).map ticket).trans ?_
  unfold tickets
  rw [List.filter_map]
  refine List.Perm.of_eq (congrArg _ (List.filter_congr fun e he => ?_))
  rw [(hs.economics e he).key]
  rfl

theorem lineage_split {s₁ : PortfolioReplayState} (hs : Inv marked base s) (ht : Inv marked' base t)
    (he : effect ∈ s.activeEffects) (hbust : entry.fill.status ≠ .correction)
    (htickets : (tickets s).Perm (ticket effect :: tickets t))
    (h₁ : removeAll entry.effectiveAt (removals s effect entry) s = .ok s₁) :
    (lineage s₁.activeEffects effect.positionKey).map ticket ++
        (laterEffects s (affectedDefinitions effect entry) effect).map ticket =
      (lineage t.activeEffects effect.positionKey).map ticket := by
  have hinv₁ := removeAll_inv h₁ hs (removals_reversible hs.sequences he)
  have hlater : ∀ x ∈ laterEffects s (affectedDefinitions effect entry) effect, x.positionKey = effect.positionKey := by
    intro x hx
    obtain ⟨-, hk, -⟩ := mem_laterEffects.1 hx
    simpa [affectedDefinitions, hbust, Dict.keys] using hk
  have hperm : (tickets s₁ ++ (laterEffects s (affectedDefinitions effect entry) effect).map ticket).Perm
      (tickets t) := by
    have hall := removeAll_tickets h₁ removals_nodup (removals_active he)
    have hcons : ((removals s effect entry).map ticket).Perm ((effect ::
        laterEffects s (affectedDefinitions effect entry) effect).map ticket) := removals_perm.map ticket
    refine List.perm_append_comm.trans ((List.perm_cons (ticket effect)).1 ?_)
    exact ((hcons.symm.append_right _).trans hall.symm).trans htickets
  refine @eq_of_perm_of_pairwise_lt _ _ _ Ticket.logicalSequence _ _ ?_ ?_ ?_
  · have hfilter : ((laterEffects s (affectedDefinitions effect entry) effect).map ticket).filter
        (fun t => entryKey t.entry = effect.positionKey) =
        (laterEffects s (affectedDefinitions effect entry) effect).map ticket := by
      refine List.filter_eq_self.2 fun t ht => ?_
      obtain ⟨x, hx, rfl⟩ := List.mem_map.1 ht
      have hxk := (hs.linked.economics x (mem_laterEffects.1 hx).1).key
      exact decide_eq_true (hxk.symm.trans (hlater x hx))
    refine ((lineage_tickets_perm hinv₁.linked _).append_right _).trans ?_
    rw [← hfilter, ← List.filter_append]
    exact (hperm.filter _).trans (lineage_tickets_perm ht.linked _).symm
  · rw [← List.map_append, List.pairwise_map, List.pairwise_append]
    refine ⟨hinv₁.lineage_sorted _, later_sorted hs.sequences _, fun x hx y hy => ?_⟩
    obtain ⟨hx, hxk⟩ := mem_lineage.1 hx
    exact (later_above h₁ hs.sequences he y hy x hx).2 (hxk.trans (hlater y hy).symm)
  · exact List.pairwise_map.2 (ht.lineage_sorted _)

theorem rebase_accepted (hs : Inv marked base s) (ht : Inv marked' base t)
    (he : effect ∈ s.activeEffects) (hbust : entry.fill.status ≠ .correction)
    (htickets : (tickets s).Perm (ticket effect :: tickets t))
    (hfits : QuantityFits effect.quantityBefore.value effect.fill.quantity.precision) :
    ∃ s', rebaseLaterEffects s effect event entry = .ok s' := by
  obtain ⟨s₁, h₁⟩ := @removeAll_accepted marked base s entry.effectiveAt (removals s effect entry) hs
    (removals_reversible hs.sequences he) (by
      intro x hx
      rcases mem_removals.1 hx with rfl | hx
      · exact hfits
      · obtain ⟨hx, hk, hlt⟩ := mem_laterEffects.1 hx
        refine hs.quantityBefore_fits hx he ?_ hlt
        simpa [affectedDefinitions, hbust, Dict.keys, eq_comm] using hk)
  have hinv₁ := removeAll_inv h₁ hs (removals_reversible hs.sequences he)
  have hkept := removeAll_kept h₁ hs.linked removals_nodup (removals_active he)
  obtain ⟨p, hp, hd⟩ := removeAll_position h₁ (hs.linked.position effect he)
  have hlater : Rebookable s₁ effect.positionKey effect.fill.instrumentDefinition
      (laterEffects s (affectedDefinitions effect entry) effect) := by
    have hactive : ∀ {x}, x ∈ laterEffects s (affectedDefinitions effect entry) effect →
        x ∈ s.activeEffects := fun hx => (mem_laterEffects.1 hx).1
    have hkey : ∀ x ∈ laterEffects s (affectedDefinitions effect entry) effect, x.positionKey = effect.positionKey := by
      intro x hx
      simpa [affectedDefinitions, hbust, Dict.keys] using (mem_laterEffects.1 hx).2.1
    refine ⟨fun x hx => hs.linked.economics x (hactive hx), hkey, fun x hx => ?_,
      fun x hx => hs.linked.definition_eq (hactive hx) he (hkey x hx), fun x hx m hm => ?_, ?_,
      fun x hx hm => ?_, later_sorted hs.sequences _, later_above h₁ hs.sequences he⟩
    · rw [x.facts.entryFill]
      exact hs.linked.status x (hactive hx)
    · have hhas := congrFun (congrArg Net.hasBalance hkept.net) m.currency
      change (balanceOf s₁.snapshot.balances m.currency).isSome = _ at hhas
      rw [hhas]
      refine hs.linked.balance x (hactive hx) m ?_
      rw [List.append_assoc]
      rcases List.mem_append.1 hm with hm | hm
      · exact List.mem_append_left _ hm
      · exact List.mem_append_right _ (List.mem_append_right _ hm)
    · unfold laterEffects
      rw [((sortBy_perm _ _).map _).nodup_iff]
      exact (List.filter_sublist.map _).nodup s.facts.nodup_executionIds
    · obtain ⟨y, hy, hid⟩ := List.mem_map.1 hm
      exact ((mem_of_removeAll h₁).1 hy).2 x (mem_removals.2 (.inr hx)) hid
  obtain ⟨s', hs'⟩ := bookAgain_accepted hinv₁ (ht.keys effect.positionKey).chain
    (lineage_split hs ht he hbust htickets h₁) hlater hp hd
  refine ⟨s', ?_⟩
  rw [rebaseLaterEffects_eq, h₁, ok_bind, if_neg hbust, ok_bind]
  exact hs'

end Bust

theorem nextState_accepted (codec : Codec) (s : PortfolioReplayState) {event : PortfolioEvent}
    {entry : PortfolioFillEntry} (hp : event.payload = .fill entry)
    (hnew : entry.fill.executionId ∉ s.executionIdentities.map PortfolioBusinessIdentity.identityId) :
    ∃ s', nextState codec s event {} = .ok s' := by
  have hnone : lookupBy PortfolioBusinessIdentity.identityId s.executionIdentities
      entry.fill.executionId = none := by
    rw [lookupBy_eq_none_iff]
    intro x hx hid
    exact hnew (List.mem_map.2 ⟨x, hx, hid⟩)
  have hids : businessIdentities codec s event = .ok
      ⟨sortBy PortfolioBusinessIdentity.identityId (s.executionIdentities ++
        [identityRecord codec event entry.fill.executionId]), s.fundingIdentities,
        s.reconciliationIdentities⟩ := by
    unfold businessIdentities updatedIdentityTuple
    simp only [hp, identityRecord, hnone, ok_bind]
  unfold nextState
  rw [hids, ok_bind]
  apply PortfolioReplayState.of_valid
  refine ⟨?_, ?_, s.facts.valuationRates, s.facts.activeEffects, ?_, s.facts.fundingIdentities,
    s.facts.reconciliationIdentities⟩
  · exact Dict.valuesBy_set_pairwise_lt PortfolioStreamCursor.streamId s.cursor
      ⟨event.streamId, event.sequence⟩
  · exact Dict.valuesBy_set_pairwise_lt PortfolioAppliedEvent.eventId s.appliedEvents
      (appliedEvent codec event)
  · refine List.pairwise_map.2 (sortBy_pairwise_lt _ _ ?_)
    rw [List.map_append, List.map_singleton, List.nodup_append]
    refine ⟨s.facts.executionIdentities.imp ne_of_lt, by simp, ?_⟩
    rintro a ha b hb rfl
    rw [List.mem_singleton.1 hb] at ha
    exact hnew ha

end TradingAgent.PortfolioReducer
