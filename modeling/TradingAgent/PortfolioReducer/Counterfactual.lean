import TradingAgent.PortfolioReducer.AverageCostRefinement

/-! Two portfolios that differ in one execution. -/

namespace TradingAgent.PortfolioReducer

open Outcome AverageCost

@[ext] structure Terms where
  key : PositionKey
  place : ℕ
  definition : InstrumentDefinition
  side : OrderSide
  quantity : OrderQuantity
  lastFillPrice : Price
  commission : Money

def Ticket.terms (t : Ticket) : Terms where
  key := entryKey t.entry
  place := t.logicalSequence
  definition := t.entry.fill.instrumentDefinition
  side := t.entry.fill.side
  quantity := t.entry.fill.quantity
  lastFillPrice := t.entry.fill.lastFillPrice
  commission := t.entry.fill.commission

def effectTerms (e : PortfolioExecutionEffect) : Terms := (ticket e).terms

section

variable {e e' : PortfolioExecutionEffect}

variable (h : effectTerms e = effectTerms e')
include h

theorem fill_of_terms : e.fill.instrumentDefinition = e'.fill.instrumentDefinition ∧ e.fill.side = e'.fill.side ∧
      e.fill.quantity = e'.fill.quantity ∧ e.fill.lastFillPrice = e'.fill.lastFillPrice ∧
      e.fill.commission = e'.fill.commission := by
  rw [← e.facts.entryFill, ← e'.facts.entryFill]
  exact ⟨congrArg Terms.definition h, congrArg Terms.side h, congrArg Terms.quantity h,
    congrArg Terms.lastFillPrice h, congrArg Terms.commission h⟩

theorem trade_of_terms : trade e.fill = trade e'.fill := by
  obtain ⟨hd, hs, hq, hp, -⟩ := fill_of_terms h
  simp only [trade, signedFill, hd, hs, hq, hp]

theorem settlementFee_of_terms : settlementFee e.fill = settlementFee e'.fill := by
  obtain ⟨hd, -, -, -, hc⟩ := fill_of_terms h
  simp only [settlementFee, hd, hc]

theorem cashDeltas_of_terms (he : Economics e) (he' : Economics e') : e.cashDeltas = e'.cashDeltas := by
  obtain ⟨hd, hs, hq, hp, hc⟩ := fill_of_terms h
  have hcash : cashDeltas e.fill = cashDeltas e'.fill := by
    simp only [cashDeltas, cashByCurrency, tradeDelta, tradeAmounts, hd, hs, hq, hp, hc]
  rw [he.cashDeltas, he'.cashDeltas] at hcash
  exact Except.ok.inj hcash

theorem balanceFees_of_terms (he : Economics e) (he' : Economics e') : e.balanceFeeDeltas = e'.balanceFeeDeltas := by
  obtain ⟨-, -, -, -, hc⟩ := fill_of_terms h
  rw [he.balanceFees, he'.balanceFees, hc]

end

section

variable {es es' : List PortfolioExecutionEffect}

theorem account_of_terms (base : LotBase) (h : es.map effectTerms = es'.map effectTerms) :
    base.account (fills es) = base.account (fills es') := by
  have htrades : (fills es).map trade = (fills es').map trade := by
    unfold fills
    induction es generalizing es' with
    | nil =>
      rw [List.map_nil, eq_comm, List.map_eq_nil_iff] at h
      rw [h]
    | cons e es ih =>
      cases es' with
      | nil => simp at h
      | cons e' es' =>
        obtain ⟨he, hes⟩ := List.cons.inj h
        simp only [List.map_cons, trade_of_terms he, ih hes]
  unfold LotBase.account
  rw [htrades]

theorem averageAfter_of_terms (base : LotBase) (h : es.map effectTerms = es'.map effectTerms) :
    base.averageAfter (fills es) = base.averageAfter (fills es') := by
  have haccount := account_of_terms base h
  rcases List.eq_nil_or_concat es with rfl | ⟨es, e, rfl⟩
  · rw [List.map_nil, eq_comm, List.map_eq_nil_iff] at h
    rw [h]
  · rcases List.eq_nil_or_concat es' with rfl | ⟨es', e', rfl⟩
    · simp at h
    · simp only [List.concat_eq_append, List.map_append, List.map_singleton, fills_append,
        fills_singleton] at h haccount ⊢
      obtain ⟨-, he⟩ := List.append_inj' h rfl
      obtain ⟨hd, -⟩ := fill_of_terms (List.cons.inj he).1
      rw [LotBase.averageAfter_concat, LotBase.averageAfter_concat, haccount, hd]

end

def positionQuantity (s : PortfolioReplayState) (k : PositionKey) : Decimal :=
  (findPosition s.snapshot.positions k).elim 0 fun p => p.quantity.value

def positionAverage (s : PortfolioReplayState) (k : PositionKey) : Option Price :=
  (findPosition s.snapshot.positions k).bind fun p => p.averageEntryPrice

/-- Two states agree in the quantity, average entry price, realized profit and fees of every position and
in the cash, realized profit and fees of every balance. -/
structure SameAmounts (s t : PortfolioReplayState) : Prop where
  quantity : ∀ k, positionQuantity s k = positionQuantity t k
  average : ∀ k, positionAverage s k = positionAverage t k
  realizedPnl : ∀ k, positionAmount s k .realizedPnl = positionAmount t k .realizedPnl
  fees : ∀ k, positionAmount s k .fees = positionAmount t k .fees
  balance : ∀ c, (balanceOf s.snapshot.balances c).isSome = (balanceOf t.snapshot.balances c).isSome
  cash : ∀ c, amountIn s c .cash = amountIn t c .cash
  balanceRealizedPnl : ∀ c, amountIn s c .realizedPnl = amountIn t c .realizedPnl
  balanceFees : ∀ c, amountIn s c .fees = amountIn t c .fees

variable {marked marked' : Prop} {base : PositionKey → LotBase} {s t : PortfolioReplayState}

theorem effects_terms (s : PortfolioReplayState) : s.activeEffects.map effectTerms = (tickets s).map Ticket.terms := by
  unfold tickets
  rw [List.map_map]
  rfl

theorem lineage_terms_perm (hs : Linked s) (k : PositionKey) : ((lineage s.activeEffects k).map effectTerms).Perm
      ((s.activeEffects.map effectTerms).filter fun d => d.key = k) := by
  refine ((lineage_perm _ _).map effectTerms).trans ?_
  rw [List.filter_map]
  refine List.Perm.of_eq (congrArg _ (List.filter_congr fun e he => ?_))
  rw [(hs.economics e he).key]
  rfl

theorem lineage_terms (hs : Inv marked base s) (ht : Inv marked' base t)
    (h : (s.activeEffects.map effectTerms).Perm (t.activeEffects.map effectTerms)) (k : PositionKey) :
    (lineage s.activeEffects k).map effectTerms = (lineage t.activeEffects k).map effectTerms := by
  refine @eq_of_perm_of_pairwise_lt _ _ _ Terms.place _ _ ?_ ?_ ?_
  · exact ((lineage_terms_perm hs.linked k).trans (h.filter _)).trans
      (lineage_terms_perm ht.linked k).symm
  · exact List.pairwise_map.2 (hs.lineage_sorted k)
  · exact List.pairwise_map.2 (ht.lineage_sorted k)

theorem Inv.positionQuantity_eq (hs : Inv marked base s) (k : PositionKey) :
    (positionQuantity s k : ℚ) = ((base k).account (fills (lineage s.activeEffects k))).quantity := by
  have hk := hs.keys k
  unfold positionQuantity
  cases hp : findPosition s.snapshot.positions k with
  | none =>
    obtain ⟨hnil, hflat⟩ := hk.missing hp
    rw [hnil, hflat]
    rfl
  | some p => exact hk.quantity p hp

theorem Inv.positionAverage_eq (hs : Inv marked base s) (k : PositionKey) :
    positionAverage s k = (base k).averageAfter (fills (lineage s.activeEffects k)) := by
  have hk := hs.keys k
  unfold positionAverage
  cases hp : findPosition s.snapshot.positions k with
  | none =>
    obtain ⟨hnil, hflat⟩ := hk.missing hp
    rw [hnil, hflat]
    rfl
  | some p => exact hk.average p hp

variable {k : PositionKey} {e : PortfolioExecutionEffect}

theorem Linked.lineage_definition (hs : Linked s) {e' : PortfolioExecutionEffect}
    (he : e ∈ lineage s.activeEffects k) (he' : e' ∈ lineage s.activeEffects k) :
    e.fill.instrumentDefinition = e'.fill.instrumentDefinition := by
  obtain ⟨hm, hk⟩ := mem_lineage.1 he
  obtain ⟨hm', hk'⟩ := mem_lineage.1 he'
  exact hs.definition_eq hm hm' (hk.trans hk'.symm)

theorem realized_of_terms (hs : Inv marked base s) (ht : Inv marked' base t)
    (h : (s.activeEffects.map effectTerms).Perm (t.activeEffects.map effectTerms)) (k : PositionKey) :
    ((lineage s.activeEffects k).map (·.realizedPnlDelta.amount)).sum =
      ((lineage t.activeEffects k).map (·.realizedPnlDelta.amount)).sum := by
  have hterms := lineage_terms hs ht h k
  have haccount := account_of_terms (base k) hterms
  cases hls : lineage s.activeEffects k with
  | nil =>
    rw [hls, List.map_nil, eq_comm, List.map_eq_nil_iff] at hterms
    rw [hterms]
  | cons e es =>
    cases hlt : lineage t.activeEffects k with
    | nil =>
      rw [hls, hlt] at hterms
      cases hterms
    | cons e' es' =>
      have hhead : e.fill.instrumentDefinition = e'.fill.instrumentDefinition := by
        rw [hls, hlt] at hterms
        exact (fill_of_terms (List.cons.inj hterms).1).1
      rw [← hls, ← hlt, (hs.keys k).chain.sum_realized (c := e.fill.instrumentDefinition.settlementCurrency)
          (fun x hx => by rw [hs.linked.lineage_definition hx (hls ▸ List.mem_cons_self)]),
        (ht.keys k).chain.sum_realized (c := e.fill.instrumentDefinition.settlementCurrency)
          (fun x hx => by rw [ht.linked.lineage_definition hx (hlt ▸ List.mem_cons_self), hhead]),
        haccount]

def realizedIn (c : Currency) (e : PortfolioExecutionEffect) : Decimal :=
  if e.fill.instrumentDefinition.settlementCurrency = c then e.realizedPnlDelta.amount else 0

theorem Linked.effectTotal_realized (hs : Linked s) (c : Currency) :
    (effectTotal s c (·.balanceRealizedPnlDeltas)) = (s.activeEffects.map (realizedIn c)).sum := by
  unfold effectTotal
  congr 1
  refine List.map_congr_left fun e he => ?_
  simp only [(hs.economics e he).balanceRealized, totalIn_nonzero, e.facts.realizedPnlDelta]
  rfl

theorem Linked.lineage_realizedIn (hs : Linked s) (he : e ∈ lineage s.activeEffects k) (c : Currency) :
    ((lineage s.activeEffects k).map (realizedIn c)).sum =
      if e.fill.instrumentDefinition.settlementCurrency = c then
        ((lineage s.activeEffects k).map (·.realizedPnlDelta.amount)).sum
      else 0 := by
  have hall : ∀ x ∈ lineage s.activeEffects k, realizedIn c x =
      if e.fill.instrumentDefinition.settlementCurrency = c then x.realizedPnlDelta.amount else 0 := by
    intro x hx
    unfold realizedIn
    rw [hs.lineage_definition hx he]
  rw [List.map_congr_left hall]
  split_ifs
  · rfl
  · simp

theorem effectTotal_realized_of_terms (hs : Inv marked base s) (ht : Inv marked' base t)
    (h : (s.activeEffects.map effectTerms).Perm (t.activeEffects.map effectTerms)) (c : Currency) :
    (effectTotal s c (·.balanceRealizedPnlDeltas)) = effectTotal t c (·.balanceRealizedPnlDeltas) := by
  rw [hs.linked.effectTotal_realized, ht.linked.effectTotal_realized]
  refine sum_eq_of_fibers (·.positionKey) fun k => ?_
  change keyTotal s k (realizedIn c) = keyTotal t k (realizedIn c)
  rw [keyTotal_eq, keyTotal_eq, ← ((lineage_perm _ _).map _).sum_eq, ← ((lineage_perm _ _).map _).sum_eq]
  have hterms := lineage_terms hs ht h k
  have hrealized := realized_of_terms hs ht h k
  cases hls : lineage s.activeEffects k with
  | nil =>
    rw [hls, List.map_nil, eq_comm, List.map_eq_nil_iff] at hterms
    rw [hterms]
  | cons e es =>
    cases hlt : lineage t.activeEffects k with
    | nil =>
      rw [hls, hlt] at hterms
      cases hterms
    | cons e' es' =>
      have hhead : e.fill.instrumentDefinition = e'.fill.instrumentDefinition := by
        rw [hls, hlt] at hterms
        exact (fill_of_terms (List.cons.inj hterms).1).1
      rw [← hls, ← hlt, hs.linked.lineage_realizedIn (hls ▸ List.mem_cons_self) c,
        ht.linked.lineage_realizedIn (hlt ▸ List.mem_cons_self) c, hhead, hrealized]

theorem keyTotal_fees_of_terms (hs : Linked s) (ht : Linked t)
    (h : (s.activeEffects.map effectTerms).Perm (t.activeEffects.map effectTerms)) (k : PositionKey) :
    (keyTotal s k (·.feesDelta.amount)) = keyTotal t k (·.feesDelta.amount) := by
  refine sum_eq_of_perm_map h fun e he e' he' hterms => ?_
  have hkey : e.positionKey = e'.positionKey := by
    rw [(hs.economics e he).key, (ht.economics e' he').key]
    exact congrArg Terms.key hterms
  simp only [hkey, (hs.economics e he).feesDelta, (ht.economics e' he').feesDelta, settlementFee_of_terms hterms]

theorem sameAmounts_of_terms (hs : Inv marked base s) (ht : Inv marked' base t)
    (h : ((tickets s).map Ticket.terms).Perm ((tickets t).map Ticket.terms)) (hnet : net s = net t) :
    SameAmounts s t := by
  rw [← effects_terms, ← effects_terms] at h
  have hcash : ∀ c, (effectTotal s c (·.cashDeltas)) = effectTotal t c (·.cashDeltas) :=
    fun c => sum_eq_of_perm_map h fun e he e' he' hterms => by
      simp only [cashDeltas_of_terms hterms (hs.linked.economics e he) (ht.linked.economics e' he')]
  have hfees : ∀ c, (effectTotal s c (·.balanceFeeDeltas)) =
      effectTotal t c (·.balanceFeeDeltas) :=
    fun c => sum_eq_of_perm_map h fun e he e' he' hterms => by
      simp only [balanceFees_of_terms hterms (hs.linked.economics e he) (ht.linked.economics e' he')]
  have hrealized := effectTotal_realized_of_terms hs ht h
  have hkeyRealized : ∀ k, (keyTotal s k (·.realizedPnlDelta.amount)) =
      keyTotal t k (·.realizedPnlDelta.amount) := by
    intro k
    rw [keyTotal_eq, keyTotal_eq, ← ((lineage_perm _ _).map _).sum_eq, ← ((lineage_perm _ _).map _).sum_eq]
    exact realized_of_terms hs ht h k
  have hkeyFees := keyTotal_fees_of_terms hs.linked ht.linked h
  refine ⟨fun k => ?_, fun k => ?_, fun k => ?_, fun k => ?_, fun c => congrFun (congrArg Net.hasBalance hnet) c,
    fun c => ?_, fun c => ?_, fun c => ?_⟩
  · refine Subtype.ext ?_
    rw [hs.positionQuantity_eq, ht.positionQuantity_eq, account_of_terms (base k) (lineage_terms hs ht h k)]
  · rw [hs.positionAverage_eq, ht.positionAverage_eq, averageAfter_of_terms (base k) (lineage_terms hs ht h k)]
  · have hk := congrFun (congrArg Net.positionRealizedPnl hnet) k
    simp only [net, hkeyRealized k] at hk
    exact sub_left_inj.1 hk
  · have hk := congrFun (congrArg Net.positionFees hnet) k
    simp only [net, hkeyFees k] at hk
    exact sub_left_inj.1 hk
  · have hc := congrFun (congrArg Net.cash hnet) c
    simp only [net, hcash c] at hc
    exact sub_left_inj.1 hc
  · have hc := congrFun (congrArg Net.retainedRealizedPnl hnet) c
    simp only [net, hrealized c] at hc
    exact sub_left_inj.1 hc
  · have hc := congrFun (congrArg Net.fees hnet) c
    simp only [net, hfees c] at hc
    exact sub_left_inj.1 hc

end TradingAgent.PortfolioReducer
