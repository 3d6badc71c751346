import TradingAgent.Lib.Pairs
import TradingAgent.PortfolioReducer.DigitLimits
import TradingAgent.PortfolioReducer.FillAcceptance

/-!
# A fill under a limit on digits

Each step of the accounting of a fill `Takes` the amounts that it reads and forms: given what it returns without a
limit, it returns the same under exactly the limits under which these amounts are written.
-/

namespace TradingAgent.PortfolioReducer

open Outcome AverageCost

/-! ## Exact accounting -/

theorem takes_fractions (values : List Decimal) :
    Takes (fun _ : DigitLimit => fractions values) (fun _ => ∀ v ∈ values, Written v) () :=
  takes_forM values fun _ => takes_require

theorem takes_decimal (d : Decimal) (field : String) :
    Takes (fun _ : DigitLimit => decimal d field) (fun _ => Written d) d := by
  unfold decimal
  simp only [exactDecimal?_coe]
  exact takes_require.bind_ok rfl

theorem takes_roundedDecimal (value : ℚ) (precision : ℕ) (field : String) :
    Takes (fun _ : DigitLimit => roundedDecimal value precision field)
      (fun _ => Written (rounded precision value)) (rounded precision value) := by
  unfold roundedDecimal
  simp only
  rw [← halfEven_eq_sign_mul]
  exact takes_decimal (rounded precision value) field

theorem takes_sum (x y : Decimal) (field : String) : Takes (fun _ : DigitLimit => sum [x, y] field)
      (fun _ => (Written x ∧ Written y) ∧ Written ((x + y : Decimal) : ℚ)) (x + y) := by
  have h : ([x, y].map fun v : Decimal => (v : ℚ)).sum = ((x + y : Decimal) : ℚ) := by simp
  unfold sum
  rw [h]
  exact ((takes_fractions [x, y]).bind (takes_decimal (x + y) field)).congr fun _ => by simp

theorem takes_cashDeltas {fill : FillEvent} {ms : List Money} (h : cashDeltas fill = .ok ms) :
    Takes (fun _ : DigitLimit => cashDeltas fill)
      (fun _ => (∀ v ∈ tradeAmounts fill ++ [fill.commission.amount], Written v) ∧
        ∀ e ∈ cashByCurrency fill, e.2 ≠ 0 → Written (rounded e.1.precision e.2)) ms := by
  unfold cashDeltas at h ⊢
  rw [fractions_eq, ok_bind, mapM_ok_iff] at h
  refine ((takes_fractions _).bind (takes_mapM (P := fun e (_ : DigitLimit) => Written (rounded e.1.precision e.2))
    (h.imp fun e m hm => ?_))).congr fun _ => and_congr_right' ?_
  · rw [roundedDecimal_eq, ok_bind] at hm
    exact (takes_roundedDecimal _ _ _).bind_ok hm
  · simp only [List.mem_filter, mem_sortBy, decide_eq_true_eq, and_imp]

theorem takes_accountEffect {account account' : Account ℚ} {effect : PortfolioExecutionEffect}
    (h : accountEffect account effect = .ok account') : Takes (fun _ : DigitLimit => accountEffect account effect)
      (fun _ => ∀ v ∈ effect.quantityBefore.value :: tradeAmounts effect.fill, Written v) account' := by
  unfold accountEffect at h ⊢
  rw [fractions_eq, ok_bind] at h
  exact (takes_fractions _).bind_ok h

variable {effects : List PortfolioExecutionEffect} {key : PositionKey} {current : Decimal} {average : Option Price}

/-- The amounts that the accounting of the retained effects reads. -/
def LineageWritten [DigitLimit] (effects : List PortfolioExecutionEffect) (current : Decimal)
    (average : Option Price) : Prop :=
  (∀ v ∈ current :: (lineageStart effects current average).1 ::
    ((lineageStart effects current average).2.map fun price => price.amount).toList, Written v) ∧
  ∀ e ∈ effects, ∀ v ∈ e.quantityBefore.value :: tradeAmounts e.fill, Written v

theorem takes_accountingBefore {before : ℚ × ℚ} (h : accountingBefore effects key current average = .ok before) :
    Takes (fun _ : DigitLimit => accountingBefore effects key current average)
      (fun _ => LineageWritten (lineage effects key) current average) before := by
  unfold accountingBefore at h ⊢
  simp only [fractions_eq, ok_bind] at h ⊢
  obtain ⟨_, hpriced, h⟩ := bind_ok_iff.1 h
  obtain ⟨account, haccount, h⟩ := bind_ok_iff.1 h
  simp only [require_of _ (require_ok_iff.1 hpriced), ok_bind]
  refine (takes_fractions _).bind (Takes.bind_ok ?_ h)
  exact takes_foldlM (P := fun e (_ : DigitLimit) => ∀ v ∈ e.quantityBefore.value :: tradeAmounts e.fill, Written v)
    (fun _ _ _ => takes_accountEffect) haccount

theorem takes_weightedAverage {settlement : Currency} {residual basisAfter : ℚ} {r : Option Price}
    (h : weightedAverage settlement residual basisAfter = .ok r) :
    Takes (fun _ : DigitLimit => weightedAverage settlement residual basisAfter)
      (fun _ => residual ≠ 0 → Written (rounded settlement.precision (basisAfter / |residual|))) r := by
  unfold weightedAverage at h ⊢
  by_cases hzero : residual = 0
  · simp only [if_pos hzero] at h ⊢
    exact (takes_of_ok h).congr fun _ => by simp [hzero]
  · simp only [if_neg hzero, roundedDecimal_eq, ok_bind] at h ⊢
    exact ((takes_roundedDecimal _ _ _).bind_ok h).congr fun _ => by simp [hzero]

theorem takes_fillAccounting {fill : FillEvent} {basis : ℚ} {r : FillAccounting}
    (h : fillAccounting fill current average basis = .ok r) :
    Takes (fun _ : DigitLimit => fillAccounting fill current average basis)
      (fun _ => ((Written current ∧ Written (signedFill fill)) ∧ Written ((current + signedFill fill : Decimal) : ℚ)) ∧
        (∀ v ∈ tradeAmounts fill, Written v) ∧ ((current : ℚ) + signedFill fill ≠ 0 →
          Written (rounded fill.instrumentDefinition.settlementCurrency.precision
            ((advancedCostBasis current basis fill).2 / |(current : ℚ) + signedFill fill|)))) r := by
  unfold fillAccounting at h ⊢
  simp only [sum_eq, fractions_eq, ok_bind] at h ⊢
  obtain ⟨_, haverage, h⟩ := bind_ok_iff.1 h
  obtain ⟨next, hnext, h⟩ := bind_ok_iff.1 h
  simp only [require_of _ (require_ok_iff.1 haverage), ok_bind]
  refine (takes_sum _ _ _).bind ((takes_fractions _).bind ((takes_weightedAverage hnext).bind_ok ?_))
  simpa using h

theorem takes_realizedDelta (settlement : Currency) (before realized : ℚ) :
    Takes (fun _ : DigitLimit => realizedDelta settlement before realized)
      (fun _ => Written (rounded settlement.precision (before + realized)) ∧
        Written (rounded settlement.precision before) ∧
        Written ((rounded settlement.precision (before + realized) - rounded settlement.precision before : Decimal) : ℚ))
      (rounded settlement.precision (before + realized) - rounded settlement.precision before) := by
  unfold realizedDelta
  simp only [sub_eq_add_neg]
  refine ((takes_roundedDecimal _ _ _).bind ((takes_roundedDecimal _ _ _).bind (takes_sum _ _ _))).congr fun _ => ?_
  constructor
  · rintro ⟨hafter, hbefore, -, hdelta⟩
    exact ⟨hafter, hbefore, hdelta⟩
  · rintro ⟨hafter, hbefore, hdelta⟩
    exact ⟨hafter, hbefore, ⟨hafter, hbefore.neg⟩, hdelta⟩

/-- The amounts that the mark of a position is read as, and the profit that it makes of them. -/
def MarkWritten [DigitLimit] (settlement : Currency) (mark : Option PositionMark)
    (definition : Option InstrumentDefinition) (quantity : Decimal) (basis : ℚ) : Prop :=
  ∀ m ∈ mark, ∀ d ∈ definition, Written m.price.amount ∧ Written quantity ∧ Written d.multiplier ∧
    Written (unrealizedOf settlement (some m) (some d) quantity basis)

theorem takes_markAndUnrealized {p : PortfolioPositionState} {q : Quantity} {basis : ℚ}
    {retained : Option PositionMark} {r : Option PositionMark × Money}
    (h : markAndUnrealized p q average basis retained = .ok r) :
    Takes (fun _ : DigitLimit => markAndUnrealized p q average basis retained)
      (fun _ => MarkWritten p.settlementCurrency (keptMark p q retained) p.instrumentDefinition q.value basis) r := by
  unfold markAndUnrealized MarkWritten keptMark at *
  by_cases hq : q.value = 0
  · simp only [if_pos hq] at h ⊢
    exact (takes_of_ok h).congr fun _ => by simp
  · have hq' : (q.value : ℚ) ≠ 0 := fun h0 => hq (Subtype.ext h0)
    simp only [if_neg hq] at h ⊢
    cases hmark : retained.or p.mark with
    | none =>
      simp only [hmark] at h ⊢
      exact (takes_of_ok h).congr fun _ => by simp
    | some mark =>
      simp only [hmark] at h ⊢
      cases average with
      | none => cases h
      | some price =>
        cases hd : p.instrumentDefinition with
        | none => simp [hd] at h
        | some definition =>
          simp only [hd, fractions_eq, roundedDecimal_eq, ok_bind] at h ⊢
          refine ((takes_fractions _).bind ((takes_roundedDecimal _ _ _).bind_ok h)).congr fun _ => ?_
          simp [unrealizedOf, hq', and_assoc]

/-! ## Balances -/

theorem takes_addDeltas (column : BalanceColumn) (field : String) {ms : List Money}
    {deltas : Dict Currency BalanceDelta} (hn : (ms.map fun m => m.currency).Nodup)
    (hzero : ∀ m ∈ ms, deltaOf deltas m.currency column = 0) :
    Takes (fun _ : DigitLimit => ms.foldlM (addDelta column field) deltas) (fun _ => ∀ m ∈ ms, Written m.amount)
      (ms.foldl (addedDelta column) deltas) := by
  induction ms generalizing deltas with
  | nil => exact (takes_of_ok rfl).congr fun _ => by simp
  | cons m ms ih =>
    rw [List.map_cons, List.nodup_cons] at hn
    have hadd : Takes (fun _ : DigitLimit => addDelta column field deltas m) (fun _ => Written m.amount)
        (addedDelta column deltas m) := by
      have hsum := takes_sum (deltaOf deltas m.currency column) m.amount field
      refine (hsum.bind_ok (f := fun amount => .ok (deltas.set m.currency
        (Function.update (deltaOf deltas m.currency) column amount))) rfl).congr fun _ => ?_
      rw [hzero m List.mem_cons_self, zero_add]
      exact ⟨fun h => h.2, fun h => ⟨⟨written_zero, h⟩, h⟩⟩
    have hrest : ∀ m' ∈ ms, deltaOf (addedDelta column deltas m) m'.currency column = 0 := by
      intro m' hm'
      have hne : m.currency ≠ m'.currency := fun heq => hn.1 (heq ▸ List.mem_map_of_mem hm')
      rw [deltaOf_addedDelta, hzero m' (List.mem_cons_of_mem _ hm')]
      simp [hne]
    simp only [List.foldlM_cons, List.foldl_cons]
    exact (Takes.bind (f := fun (_ : DigitLimit) deltas => ms.foldlM (addDelta column field) deltas) hadd
      (ih hn.2 hrest)).congr fun _ => by simp

/-- The amounts of a balance before and after a delta. -/
def BalanceWritten [DigitLimit] (balance : AccountBalanceSnapshot) (delta : BalanceDelta) : Prop :=
  ∀ column, Written (balanceAmount balance column) ∧ Written (delta column) ∧
    Written ((balanceAmount balance column + delta column : Decimal) : ℚ)

theorem takes_deltaBalance {b b' : AccountBalanceSnapshot} {delta : BalanceDelta} {observedAt : DateTime}
    (h : deltaBalance b delta observedAt = .ok b') :
    Takes (fun _ : DigitLimit => deltaBalance b delta observedAt) (fun _ => BalanceWritten b delta) b' := by
  unfold deltaBalance at h ⊢
  simp only [sum_eq, ok_bind, List.sum_cons, List.sum_nil, add_zero] at h
  obtain ⟨cash, hcash, h⟩ := bind_ok_iff.1 h
  obtain ⟨realized, hrealized, h⟩ := bind_ok_iff.1 h
  obtain ⟨unrealized, hunrealized, h⟩ := bind_ok_iff.1 h
  obtain ⟨fees, hfees, h⟩ := bind_ok_iff.1 h
  refine Takes.congr (Takes.bind_bind (takes_sum _ _ _) hcash (Takes.bind_bind (takes_sum _ _ _) hrealized
    (Takes.bind_bind (takes_sum _ _ _) hunrealized (Takes.bind_bind (takes_sum _ _ _) hfees (takes_of_ok h)))))
    fun _ => ?_
  constructor
  · rintro ⟨⟨⟨hc, hc'⟩, hc''⟩, ⟨⟨hr, hr'⟩, hr''⟩, ⟨⟨hu, hu'⟩, hu''⟩, ⟨⟨hf, hf'⟩, hf''⟩, -⟩ column
    cases column with
    | cash => exact ⟨hc, hc', hc''⟩
    | realizedPnl => exact ⟨hr, hr', hr''⟩
    | fees => exact ⟨hf, hf', hf''⟩
    | unrealizedPnl => exact ⟨hu, hu', hu''⟩
  · intro hb
    have hsplit (column : BalanceColumn) := and_assoc.2 (hb column)
    exact ⟨hsplit .cash, hsplit .realizedPnl, hsplit .unrealizedPnl, hsplit .fees, trivial⟩

theorem takes_applyDelta {observedAt : DateTime} {d d' : Dict Currency AccountBalanceSnapshot}
    {e : Currency × BalanceDelta} (h : applyDelta observedAt d e = .ok d') :
    Takes (fun _ : DigitLimit => applyDelta observedAt d e)
      (fun _ => ∀ b ∈ d.get? e.1, BalanceWritten b e.2) d' := by
  unfold applyDelta at h ⊢
  cases hb : d.get? e.1 with
  | none => simp [hb] at h
  | some b =>
    simp only [hb, bind_ok_iff, rescue_ok_iff] at h ⊢
    obtain ⟨b', hb', h⟩ := h
    exact ((takes_deltaBalance hb').rescue.bind_ok h).congr fun _ => by simp

/-- Every entry of the deltas meets the balance of its currency as it was. -/
theorem takes_applyDeltas {observedAt : DateTime} {deltas : Dict Currency BalanceDelta}
    {d d' : Dict Currency AccountBalanceSnapshot} (hn : deltas.keys.Nodup)
    (h : deltas.foldlM (applyDelta observedAt) d = .ok d') :
    Takes (fun _ : DigitLimit => deltas.foldlM (applyDelta observedAt) d)
      (fun _ => ∀ e ∈ deltas, ∀ b ∈ d.get? e.1, BalanceWritten b e.2) d' := by
  induction deltas generalizing d with
  | nil => exact (takes_of_ok h).congr fun _ => by simp
  | cons e deltas ih =>
    rw [Dict.keys_cons, List.nodup_cons] at hn
    simp only [List.foldlM_cons] at h ⊢
    obtain ⟨d₁, h₁, h₂⟩ := bind_ok_iff.1 h
    refine (Takes.bind (f := fun (_ : DigitLimit) d => deltas.foldlM (applyDelta observedAt) d) (takes_applyDelta h₁)
      (ih hn.2 h₂)).congr fun _ => ?_
    have hkeep : ∀ e' ∈ deltas, d₁.get? e'.1 = d.get? e'.1 := by
      intro e' he'
      unfold applyDelta at h₁
      cases hb : d.get? e.1 with
      | none => simp [hb] at h₁
      | some b =>
        simp only [hb, bind_ok_iff, rescue_ok_iff, Except.ok.injEq] at h₁
        obtain ⟨b', -, rfl⟩ := h₁
        exact Dict.get?_set_of_ne _ _ fun heq => hn.1 (heq ▸ List.mem_map_of_mem he')
    rw [List.forall_mem_cons]
    refine and_congr_right' (forall₂_congr fun e' he' => ?_)
    rw [hkeep e' he']

theorem takes_applyBalances {balances balances' : List AccountBalanceSnapshot} {deltas : BalanceDeltas}
    {observedAt : DateTime} (hn : ∀ column, ((deltas.column column).map fun m => m.currency).Nodup)
    (h : applyBalances balances deltas observedAt = .ok balances') :
    Takes (fun _ : DigitLimit => applyBalances balances deltas observedAt)
      (fun _ => (∀ column, ∀ m ∈ deltas.column column, Written m.amount) ∧
        ∀ e ∈ deltas.collected, ∀ b ∈ (balancesByCurrency balances).get? e.1, BalanceWritten b e.2) balances' := by
  rw [applyBalances_eq] at h
  obtain ⟨d, hd, h⟩ := bind_ok_iff.1 h
  unfold applyBalances
  refine ((takes_addDeltas .cash _ (hn .cash) fun _ _ => rfl).bind
    ((takes_addDeltas .realizedPnl _ (hn .realizedPnl) ?_).bind ((takes_addDeltas .fees _ (hn .fees) ?_).bind
      ((takes_addDeltas .unrealizedPnl _ (hn .unrealizedPnl) ?_).bind
        ((takes_applyDeltas deltas.nodup_keys_collected hd).bind_ok h))))).congr fun _ => ?_
  · intro m _
    simp only [deltaOf_foldl, reduceCtorEq, if_false, add_zero]
    rfl
  · intro m _
    simp only [deltaOf_foldl, reduceCtorEq, if_false, add_zero]
    rfl
  · intro m _
    simp only [deltaOf_foldl, reduceCtorEq, if_false, add_zero]
    rfl
  · constructor
    · rintro ⟨hc, hr, hf, hu, hd⟩
      refine ⟨fun column => ?_, hd⟩
      cases column with
      | cash => exact hc
      | realizedPnl => exact hr
      | fees => exact hf
      | unrealizedPnl => exact hu
    · rintro ⟨hm, hd⟩
      exact ⟨hm .cash, hm .realizedPnl, hm .fees, hm .unrealizedPnl, hd⟩

/-! ## The amounts of a fill -/

section Condition

variable (s : PortfolioReplayState) (entry : PortfolioFillEntry) (p : PortfolioPositionState)

def settlementOf : Currency := entry.fill.instrumentDefinition.settlementCurrency

/-- The exact account that the fill leaves. -/
def nextLot : Account ℚ := (lotOf s entry p).book (trade entry.fill)

def realizedMove : Decimal :=
  roundedRealized (settlementOf entry) (nextLot s entry p) - roundedRealized (settlementOf entry) (lotOf s entry p)

def quantityAfter : Decimal := p.quantity.value + signedFill entry.fill

def markAfter : Option PositionMark := if quantityAfter entry p = 0 then none else p.mark

def unrealizedAfter : Decimal :=
  unrealizedOf p.settlementCurrency (markAfter entry p) p.instrumentDefinition (quantityAfter entry p)
    (nextLot s entry p).basis

/-- What the fill adds to the columns of the balance in a currency. -/
def fillMove (c : Currency) : BalanceDelta
  | .cash => rounded c.precision (((cashByCurrency entry.fill).get? c).getD 0)
  | .realizedPnl => if settlementOf entry = c then realizedMove s entry p else 0
  | .fees => if entry.fill.commission.currency = c then entry.fill.commission.amount else 0
  | .unrealizedPnl => if settlementOf entry = c then unrealizedAfter s entry p - p.unrealizedPnl.amount else 0

/-- The balances that the fill moves. -/
def MovesBalance (c : Currency) : Prop :=
  settlementOf entry = c ∨ entry.fill.commission.amount ≠ 0 ∧ entry.fill.commission.currency = c

/-- Every amount that the accounting of the fill reads or forms is written under the limit. -/
structure FillWritten [DigitLimit] : Prop where
  lineage : LineageWritten (PortfolioReducer.lineage s.activeEffects (entryKey entry)) p.quantity.value
    p.averageEntryPrice
  fill : ∀ v ∈ tradeAmounts entry.fill ++ [entry.fill.commission.amount], Written v
  average : quantityAfter entry p ≠ 0 →
    Written (rounded (settlementOf entry).precision (nextLot s entry p).average)
  realized : Written (roundedRealized (settlementOf entry) (lotOf s entry p)) ∧
    Written (roundedRealized (settlementOf entry) (nextLot s entry p)) ∧ Written (realizedMove s entry p)
  position : Written p.realizedPnl.amount ∧ Written ((p.realizedPnl.amount + realizedMove s entry p : Decimal) : ℚ) ∧
    Written p.fees.amount ∧ Written ((p.fees.amount + settlementFee entry.fill : Decimal) : ℚ)
  mark : MarkWritten p.settlementCurrency (markAfter entry p) p.instrumentDefinition (quantityAfter entry p)
    (nextLot s entry p).basis
  unrealized : Written p.unrealizedPnl.amount ∧
    Written ((unrealizedAfter s entry p - p.unrealizedPnl.amount : Decimal) : ℚ)
  cash : ∀ e ∈ cashByCurrency entry.fill, e.2 ≠ 0 → Written (rounded e.1.precision e.2)
  balances : ∀ c, MovesBalance entry c → ∀ b ∈ balanceOf s.snapshot.balances c, BalanceWritten b (fillMove s entry p c)

end Condition

theorem written_quantity [DigitLimit] {value : Decimal} {precision : ℕ} (h : QuantityFits value precision) :
    Written value :=
  written_of_scaled h.2.1 (h.2.2.trans_le (pow_le_pow_right₀ (by norm_num) (by decide)))

theorem written_signedFill [DigitLimit] (fill : FillEvent) : Written (signedFill fill) := by
  have hq : Written fill.quantity.value := written_quantity fill.quantity.fits
  unfold signedFill
  cases fill.side with
  | buy => exact hq
  | sell => exact hq.neg

theorem written_settlementFee [DigitLimit] {fill : FillEvent} (h : Written fill.commission.amount) :
    Written (settlementFee fill) := by
  unfold settlementFee
  split_ifs
  · exact h
  · exact written_zero

/-! ## The effect of a fill -/

variable {s s' : PortfolioReplayState} {entry : PortfolioFillEntry} {source : PortfolioEvent} {seq : ℕ}
  {mark : Option PositionMark} {p next : PortfolioPositionState} {before : ℚ × ℚ} {accounting : FillAccounting}
  {e : PortfolioExecutionEffect}

theorem keptMark_eq {q : Quantity} (hq : q.value = quantityAfter entry p) : keptMark p q none = markAfter entry p := by
  unfold keptMark markAfter
  rw [hq]
  rfl

theorem average_written_iff [DigitLimit] (hreaches : (lotOf s entry p).quantity = p.quantity.value) :
    ((p.quantity.value : ℚ) + signedFill entry.fill ≠ 0 →
      Written (rounded entry.fill.instrumentDefinition.settlementCurrency.precision
        ((advancedCostBasis p.quantity.value (lotOf s entry p).basis entry.fill).2 /
          |(p.quantity.value : ℚ) + signedFill entry.fill|))) ↔
      (quantityAfter entry p ≠ 0 → Written (rounded (settlementOf entry).precision (nextLot s entry p).average)) := by
  have hzero : (p.quantity.value : ℚ) + signedFill entry.fill = 0 ↔ quantityAfter entry p = 0 := by
    rw [← ZeroMemClass.coe_eq_zero]
    unfold quantityAfter
    push_cast
    rfl
  refine imp_congr hzero.not ?_
  rw [← hreaches, advancedCostBasis_eq]
  rfl

/-- What an effect of the fill and its application read and form, before the amounts are named by the fill. -/
theorem takes_fillEffect (h : FillOf s entry source seq none p before accounting e next) :
    Takes (fun _ : DigitLimit => fillEffect s entry source seq none)
      (fun _ => LineageWritten (lineage s.activeEffects (entryKey entry)) p.quantity.value p.averageEntryPrice ∧
        (∀ v ∈ tradeAmounts entry.fill ++ [entry.fill.commission.amount], Written v) ∧
        (quantityAfter entry p ≠ 0 → Written (rounded (settlementOf entry).precision (nextLot s entry p).average)) ∧
        (Written (roundedRealized (settlementOf entry) (lotOf s entry p)) ∧
          Written (roundedRealized (settlementOf entry) (nextLot s entry p)) ∧ Written (realizedMove s entry p)) ∧
        (Written p.realizedPnl.amount ∧ Written ((p.realizedPnl.amount + realizedMove s entry p : Decimal) : ℚ) ∧
          Written p.fees.amount ∧ Written ((p.fees.amount + settlementFee entry.fill : Decimal) : ℚ)) ∧
        MarkWritten p.settlementCurrency (markAfter entry p) p.instrumentDefinition (quantityAfter entry p)
          (nextLot s entry p).basis ∧
        ∀ e ∈ cashByCurrency entry.fill, e.2 ≠ 0 → Written (rounded e.1.precision e.2)) (e, next) := by
  have hok := fillEffect_ok_iff.2 ⟨p, before, accounting, h⟩
  have hbefore := h.accountingBefore
  obtain ⟨hjoins, rfl⟩ := accountingBefore_ok_iff.1 hbefore
  obtain ⟨-, -, rfl⟩ := (fillAccounting_ok_iff hjoins.reaches.symm).1 h.fillAccounting
  rw [← entry_strategy_key (positionFor_key h.position)] at hbefore
  unfold fillEffect at hok ⊢
  simp only [h.position, hbefore, h.fillAccounting, sum_eq, realizedDelta_eq, h.cashDeltas, ok_bind, List.sum_cons,
    List.sum_nil, add_zero] at hok ⊢
  obtain ⟨_, hdefinition, hok⟩ := bind_ok_iff.1 hok
  obtain ⟨q, hq, hok⟩ := bind_ok_iff.1 hok
  obtain ⟨marked, hmarked, hok⟩ := bind_ok_iff.1 hok
  obtain ⟨realizedPnl, hrealized, hok⟩ := bind_ok_iff.1 hok
  obtain ⟨fees, hfees, hok⟩ := bind_ok_iff.1 hok
  obtain ⟨next', hnext, hok⟩ := bind_ok_iff.1 hok
  simp only [hdefinition, ok_bind]
  refine Takes.congr (Takes.bind (takes_accountingBefore hbefore) (Takes.bind (takes_fillAccounting h.fillAccounting)
    (Takes.bind (takes_realizedDelta _ _ _) (Takes.bind (takes_of_ok hq) (Takes.bind (takes_markAndUnrealized hmarked)
    (Takes.bind_bind (takes_sum _ _ _) hrealized (Takes.bind_bind (takes_sum _ _ _) hfees
    (Takes.bind (takes_of_ok hnext) (Takes.bind_ok (takes_cashDeltas h.cashDeltas) hok))))))))) fun _ => ?_
  simp only [entry_strategy_key (positionFor_key h.position), true_and]
  obtain ⟨hvalue, -⟩ := quantity_ok_iff.1 hq
  have haverage := average_written_iff hjoins.reaches
  have hresidual : Written ((p.quantity.value + signedFill entry.fill : Decimal) : ℚ) := by
    have hfits := next.quantity.fits
    rw [h.quantity] at hfits
    exact written_quantity hfits
  rw [keptMark_eq hvalue, hvalue]
  constructor
  · rintro ⟨hlineage, ⟨-, -, hav⟩, ⟨hafter, hbefore, hdelta⟩, hmark, ⟨⟨hr, -⟩, hr'⟩, ⟨⟨hf, -⟩, hf'⟩, htrade, hcash⟩
    exact ⟨hlineage, htrade, haverage.1 hav, ⟨hbefore, hafter, hdelta⟩, ⟨hr, hr', hf, hf'⟩, hmark, hcash⟩
  · rintro ⟨hlineage, htrade, hav, ⟨hbefore, hafter, hdelta⟩, ⟨hr, hr', hf, hf'⟩, hmark, hcash⟩
    refine ⟨hlineage, ⟨⟨⟨written_quantity p.quantity.fits, ?_⟩, ?_⟩, fun v hv => htrade v (List.mem_append_left _ hv),
      haverage.2 hav⟩, ⟨hafter, hbefore, hdelta⟩, hmark, ⟨⟨hr, hdelta⟩, hr'⟩, ⟨⟨hf, ?_⟩, hf'⟩, htrade, hcash⟩
    · exact written_signedFill entry.fill
    · exact hresidual
    · exact written_settlementFee (htrade _ (List.mem_append_right _ (List.mem_singleton_self _)))

theorem Written.neg_iff [DigitLimit] {d : Decimal} : Written ((-d : Decimal) : ℚ) ↔ Written d :=
  ⟨fun h => neg_neg d ▸ h.neg, Written.neg⟩

theorem nodup_currencies {ms : List Money} (h : (ms.map fun m => m.currency.code).Pairwise (· < ·)) :
    (ms.map fun m => m.currency).Nodup := by
  refine List.Nodup.of_map Currency.code ?_
  rw [List.map_map]
  exact h.imp ne_of_lt

theorem effectDeltas_nodup (e : PortfolioExecutionEffect) (unrealized : Money) (column : BalanceColumn) :
    (((effectDeltas e unrealized).column column).map fun m => m.currency).Nodup := by
  cases column with
  | cash => exact nodup_currencies e.facts.cashDeltas
  | realizedPnl => exact nodup_currencies e.facts.balanceRealizedPnlDeltas
  | fees => exact nodup_currencies e.facts.balanceFeeDeltas
  | unrealizedPnl => exact nodup_currencies (nonzero_sorted unrealized)

variable {observedAt : Option DateTime}

theorem takes_withEffect (h : withEffect s e next observedAt = .ok s') :
    ∃ p p' unrealized, WithEffect s e next observedAt s' p p' unrealized ∧
      Takes (fun _ : DigitLimit => withEffect s e next observedAt)
        (fun _ => (Written p'.unrealizedPnl.amount ∧ Written p.unrealizedPnl.amount ∧
            Written ((p'.unrealizedPnl.amount - p.unrealizedPnl.amount : Decimal) : ℚ)) ∧
          (∀ column, ∀ m ∈ (effectDeltas e unrealized).column column, Written m.amount) ∧
          ∀ entry ∈ (effectDeltas e unrealized).collected,
            ∀ b ∈ (balancesByCurrency s.snapshot.balances).get? entry.1, BalanceWritten b entry.2) s' := by
  obtain ⟨p, p', unrealized, hw⟩ := withEffect_spec h
  refine ⟨p, p', unrealized, hw, ?_⟩
  have happlied := PortfolioPositionState.of_ok_iff.2 hw.applied
  have hunrealized : nonzeroDelta (p'.unrealizedPnl.amount + -p.unrealizedPnl.amount) p'.settlementCurrency
      "balance unrealized PnL delta" = .ok (nonzero unrealized) :=
    nonzeroDelta_of _ unrealized (hw.unrealized_amount.trans (sub_eq_add_neg _ _)) hw.unrealized_currency
  unfold withEffect at h ⊢
  simp only [happlied, hw.previous, sum_eq, ok_bind, List.sum_cons, List.sum_nil, add_zero, hunrealized] at h ⊢
  obtain ⟨balances, hbalances, h⟩ := bind_ok_iff.1 h
  have htake : Takes (fun _ : DigitLimit => applyBalances s.snapshot.balances (effectDeltas e unrealized)
      (observedAt.getD e.entry.effectiveAt)) _ balances :=
    takes_applyBalances (effectDeltas_nodup e unrealized) hbalances
  refine Takes.congr (Takes.bind_bind (takes_sum _ _ _) hunrealized (Takes.bind_ok htake h)) fun _ => ?_
  simp only [Written.neg_iff, and_assoc, sub_eq_add_neg]

/-! ## The deltas of a fill -/

theorem totalIn_of_mem {ms : List Money} {m : Money} (hn : (ms.map fun m => m.currency).Nodup) (hm : m ∈ ms) :
    Money.totalIn m.currency ms = m.amount := by
  induction ms with
  | nil => cases hm
  | cons m' ms ih =>
    rw [List.map_cons, List.nodup_cons] at hn
    have hother : ∀ x ∈ ms, x.currency ≠ m'.currency := fun x hx hc => hn.1 (List.mem_map.2 ⟨x, hx, hc⟩)
    rw [Money.totalIn_cons]
    rcases List.mem_cons.1 hm with rfl | hm
    · rw [if_pos rfl, totalIn_eq_zero hother, add_zero]
    · rw [if_neg (hother m hm).symm, ih hn.2 hm, zero_add]

section Cash

variable {fill : FillEvent} {ms : List Money} (h : cashDeltas fill = .ok ms)
include h

theorem mem_cashDeltas_iff {m : Money} : m ∈ ms ↔ ∃ amount, (m.currency, amount) ∈ cashByCurrency fill ∧ amount ≠ 0 ∧
      m.amount = rounded m.currency.precision amount := by
  unfold cashDeltas at h
  simp only [fractions_eq, roundedDecimal_eq, ok_bind, mapM_ok_iff, money_ok_iff] at h
  constructor
  · intro hm
    obtain ⟨e, he, ha, hc⟩ := exists_mem_left h hm
    rw [List.mem_filter, mem_sortBy, decide_eq_true_iff] at he
    exact ⟨e.2, hc ▸ he.1, he.2, hc ▸ ha⟩
  · rintro ⟨amount, hmem, hne, ha⟩
    obtain ⟨m', hm', ha', hc'⟩ := exists_mem_right h (x := (m.currency, amount))
      (List.mem_filter.2 ⟨(mem_sortBy _ _ _).2 hmem, decide_eq_true hne⟩)
    rwa [show m = m' from Money.ext (ha.trans ha'.symm) hc'.symm]

theorem totalIn_cashDeltas (c : Currency) :
    Money.totalIn c ms = rounded c.precision (((cashByCurrency fill).get? c).getD 0) := by
  have hkeys : (cashByCurrency fill).keys.Nodup := Dict.nodup_keys_set _ _ _ (List.nodup_singleton _)
  have hnone (hno : ∀ amount, (c, amount) ∈ cashByCurrency fill → amount = 0) : Money.totalIn c ms = 0 := by
    refine totalIn_eq_zero fun m hm hc => ?_
    obtain ⟨amount, hmem, hne, -⟩ := (mem_cashDeltas_iff h).1 hm
    exact hne (hno amount (hc ▸ hmem))
  cases hget : (cashByCurrency fill).get? c with
  | none =>
    rw [Option.getD_none, rounded_zero]
    refine hnone fun amount hmem => ?_
    rw [(Dict.get?_eq_some_iff hkeys).2 hmem] at hget
    cases hget
  | some amount =>
    rw [Option.getD_some]
    by_cases hne : amount = 0
    · rw [hne, rounded_zero]
      refine hnone fun amount' hmem => ?_
      rw [(Dict.get?_eq_some_iff hkeys).2 hmem, hne] at hget
      exact Option.some.inj hget
    · have hmem : (⟨_, c, rounded_atScale c.precision amount⟩ : Money) ∈ ms :=
        (mem_cashDeltas_iff h).2 ⟨amount, Dict.mem_of_get?_eq_some hget, hne, rfl⟩
      exact totalIn_of_mem (nodup_currencies (cashDeltas_sorted h)) hmem

/-- The settlement of a fill moves cash unless its commission makes up for it. -/
theorem mem_cashDeltas_settlement_or : ∀ m ∈ ms, m.currency = fill.instrumentDefinition.settlementCurrency ∨
      fill.commission.amount ≠ 0 ∧ fill.commission.currency = m.currency := by
  intro m hm
  obtain ⟨amount, hmem, hne, -⟩ := (mem_cashDeltas_iff h).1 hm
  by_cases hc : m.currency = fill.instrumentDefinition.settlementCurrency
  · exact .inl hc
  · refine .inr ?_
    have hkeys : (cashByCurrency fill).keys.Nodup := Dict.nodup_keys_set _ _ _ (List.nodup_singleton _)
    have hget := (Dict.get?_eq_some_iff hkeys).2 hmem
    unfold cashByCurrency at hget
    rw [Dict.get?_set] at hget
    split_ifs at hget with hcc
    · refine ⟨fun hzero => hne ?_, hcc⟩
      rw [← Option.some.inj hget, hzero, hcc]
      simp [Dict.get?_cons, Ne.symm hc]
    · simp [Dict.get?_cons, Ne.symm hc] at hget

end Cash

section Booked

variable {p' : PortfolioPositionState} {unrealized : Money}

theorem next_unrealized (h : FillOf s entry source seq none p before accounting e next) :
    next.unrealizedPnl.amount = unrealizedAfter s entry p := by
  obtain ⟨hjoins, rfl⟩ := accountingBefore_ok_iff.1 h.accountingBefore
  obtain ⟨-, -, rfl⟩ := (fillAccounting_ok_iff hjoins.reaches.symm).1 h.fillAccounting
  obtain ⟨hmark, -, hamount⟩ := markAndUnrealized_spec h.marked
  have hquantity : next.quantity.value = quantityAfter entry p := h.quantity
  have hkept : next.mark = markAfter entry p := by
    rw [hmark]
    unfold keptMark markAfter
    rw [hquantity]
    rfl
  rw [hamount, hkept, hquantity]
  rfl

variable (hf : FillOf s entry source seq none p before accounting e next)
include hf

theorem realized_eq : e.realizedPnlDelta.amount = realizedMove s entry p ∧
      e.realizedPnlDelta.currency = settlementOf entry := by
  obtain ⟨hjoins, rfl⟩ := accountingBefore_ok_iff.1 hf.accountingBefore
  obtain ⟨-, -, rfl⟩ := (fillAccounting_ok_iff hjoins.reaches.symm).1 hf.fillAccounting
  exact ⟨hf.realizedPnlDelta, hf.realizedPnlDelta_currency.trans hf.accountable.settlement.symm⟩

variable (hw : WithEffect s e next none s' p p' unrealized)
include hw

theorem unrealized_eq : unrealized.amount = unrealizedAfter s entry p - p.unrealizedPnl.amount ∧
      unrealized.currency = settlementOf entry := by
  have hnext : p'.unrealizedPnl = next.unrealizedPnl := by rw [hw.applied]
  have hcurrency : p'.settlementCurrency = p.settlementCurrency := by rw [hw.applied, hf.next]
  refine ⟨?_, ?_⟩
  · rw [hw.unrealized_amount, hnext, next_unrealized hf]
  · rw [hw.unrealized_currency, hcurrency]
    exact hf.accountable.settlement.symm

theorem fillMove_eq (c : Currency) : (effectDeltas e unrealized).total c = fillMove s entry p c := by
  obtain ⟨hrealized, hrealizedCurrency⟩ := realized_eq hf
  obtain ⟨hunrealized, hunrealizedCurrency⟩ := unrealized_eq hf hw
  have hfees : e.balanceFeeDeltas = nonzero entry.fill.commission := by rw [hf.effect]
  funext column
  unfold BalanceDeltas.total effectDeltas BalanceDeltas.column fillMove
  cases column with
  | cash => exact totalIn_cashDeltas hf.cashDeltas c
  | realizedPnl =>
    simp only
    rw [hf.balanceRealized, totalIn_nonzero, hrealized, hrealizedCurrency]
  | fees =>
    simp only
    rw [hfees, totalIn_nonzero]
  | unrealizedPnl =>
    simp only
    rw [totalIn_nonzero, hunrealized, hunrealizedCurrency]

theorem movesBalance_iff (c : Currency) : c ∈ (effectDeltas e unrealized).collected.keys ↔ MovesBalance entry c := by
  have hfees : e.balanceFeeDeltas = nonzero entry.fill.commission := by rw [hf.effect]
  have hcommission : ∀ m, m ∈ nonzero entry.fill.commission ↔
      entry.fill.commission.amount ≠ 0 ∧ m = entry.fill.commission := by
    intro m
    unfold nonzero
    split_ifs with hzero
    · simp [hzero]
    · simp [hzero]
  have hsettled : ∀ m₀ : Money, m₀.currency = settlementOf entry → ∀ m ∈ nonzero m₀, m.currency = settlementOf entry := by
    intro m₀ hc m hm
    unfold nonzero at hm
    split_ifs at hm
    · rw [List.mem_singleton.1 hm, hc]
    · cases hm
  rw [BalanceDeltas.mem_keys_collected]
  constructor
  · rintro ⟨column, m, hm, rfl⟩
    unfold effectDeltas BalanceDeltas.column at hm
    cases column with
    | cash => exact (mem_cashDeltas_settlement_or hf.cashDeltas m hm).imp Eq.symm id
    | realizedPnl =>
      simp only [hf.balanceRealized] at hm
      exact .inl (hsettled _ (realized_eq hf).2 m hm).symm
    | fees =>
      simp only [hfees, hcommission] at hm
      exact .inr ⟨hm.1, congrArg _ hm.2.symm⟩
    | unrealizedPnl => exact .inl (hsettled _ (unrealized_eq hf hw).2 m hm).symm
  · rintro (rfl | ⟨hne, rfl⟩)
    · obtain ⟨m, hm, hc⟩ := settlement_mem_deltas hf.cashDeltas
      rcases List.mem_append.1 hm with hm | hm
      · exact ⟨.cash, m, hm, hc⟩
      · exact ⟨.fees, m, (hfees.symm ▸ hm : m ∈ e.balanceFeeDeltas), hc⟩
    · have hm := (hcommission entry.fill.commission).2 ⟨hne, rfl⟩
      exact ⟨.fees, _, (hfees.symm ▸ hm : entry.fill.commission ∈ e.balanceFeeDeltas), rfl⟩

variable [DigitLimit]

theorem balances_written_iff : (∀ d ∈ (effectDeltas e unrealized).collected,
        ∀ b ∈ (balancesByCurrency s.snapshot.balances).get? d.1, BalanceWritten b d.2) ↔
      ∀ c, MovesBalance entry c → ∀ b ∈ balanceOf s.snapshot.balances c, BalanceWritten b (fillMove s entry p c) := by
  have hbalance : ∀ c, (balancesByCurrency s.snapshot.balances).get? c = balanceOf s.snapshot.balances c :=
    Dict.get?_byKey s.snapshot.facts.nodup_currencies
  have hmove : ∀ d ∈ (effectDeltas e unrealized).collected, d.2 = fillMove s entry p d.1 := by
    intro d hd
    rw [← fillMove_eq hf hw, ← BalanceDeltas.deltaOf_collected]
    unfold deltaOf
    rw [(Dict.get?_eq_some_iff (BalanceDeltas.nodup_keys_collected _)).2 hd]
    rfl
  constructor
  · intro h c hc b hb
    obtain ⟨d, hd, rfl⟩ := List.mem_map.1 ((movesBalance_iff hf hw c).2 hc)
    rw [← hmove d hd]
    exact h d hd b (by rwa [hbalance])
  · intro h d hd b hb
    rw [hmove d hd]
    exact h d.1 ((movesBalance_iff hf hw _).1 (List.mem_map_of_mem hd)) b (by rwa [← hbalance])

theorem FillWritten.columns (h : FillWritten s entry p) (column : BalanceColumn) :
    ∀ m ∈ (effectDeltas e unrealized).column column, Written m.amount := by
  have hnonzero : ∀ m₀ : Money, Written m₀.amount → ∀ m ∈ nonzero m₀, Written m.amount := by
    intro m₀ hm₀ m hm
    unfold nonzero at hm
    split_ifs at hm
    · rwa [List.mem_singleton.1 hm]
    · cases hm
  have hfees : e.balanceFeeDeltas = nonzero entry.fill.commission := by rw [hf.effect]
  unfold effectDeltas BalanceDeltas.column
  cases column with
  | cash =>
    intro m hm
    obtain ⟨amount, hmem, hne, ha⟩ := (mem_cashDeltas_iff hf.cashDeltas).1 hm
    rw [ha]
    exact h.cash (m.currency, amount) hmem hne
  | realizedPnl =>
    simp only [hf.balanceRealized]
    exact hnonzero _ ((realized_eq hf).1 ▸ h.realized.2.2)
  | fees =>
    simp only [hfees]
    exact hnonzero _ (h.fill _ (List.mem_append_right _ (List.mem_singleton_self _)))
  | unrealizedPnl => exact hnonzero _ ((unrealized_eq hf hw).1 ▸ h.unrealized.2)

end Booked

theorem MarkWritten.unrealized [DigitLimit] {settlement : Currency} {mark : Option PositionMark}
    {definition : Option InstrumentDefinition} {quantity : Decimal} {basis : ℚ}
    (h : MarkWritten settlement mark definition quantity basis) :
    Written (unrealizedOf settlement mark definition quantity basis) := by
  cases mark with
  | none => exact written_zero
  | some m =>
    cases definition with
    | none => exact written_zero
    | some d => exact (h m rfl d rfl).2.2.2

theorem takes_bookFill (h : bookFill s entry source seq none none = .ok s') (hp : positionFor s entry = .ok p) :
    Takes (fun _ : DigitLimit => bookFill s entry source seq none none) (fun _ => FillWritten s entry p) s' := by
  unfold bookFill at h ⊢
  obtain ⟨⟨e, next⟩, hfill, hwith⟩ := bind_ok_iff.1 h
  obtain ⟨p₁, before, accounting, hf⟩ := fillEffect_ok_iff.1 hfill
  obtain ⟨p₂, p', unrealized, hw, htakes⟩ := takes_withEffect hwith
  obtain rfl : p₁ = p := Except.ok.inj (hf.position.symm.trans hp)
  have hentry : e.entry = entry := by rw [hf.effect]
  obtain rfl : p₂ = p₁ := Except.ok.inj (hw.previous.symm.trans (hentry ▸ hp))
  have hunrealized : p'.unrealizedPnl.amount = unrealizedAfter s entry p₂ := by
    rw [← next_unrealized hf, hw.applied]
  refine Takes.congr (Takes.bind (takes_fillEffect hf) htakes) fun _ => ?_
  rw [balances_written_iff hf hw, hunrealized]
  constructor
  · rintro ⟨⟨hlineage, hfill, haverage, hrealized, hposition, hmark, hcash⟩, ⟨-, hbefore, hdelta⟩, -, hbalances⟩
    exact ⟨hlineage, hfill, haverage, hrealized, hposition, hmark, ⟨hbefore, hdelta⟩, hcash, hbalances⟩
  · intro hwritten
    exact ⟨⟨hwritten.lineage, hwritten.fill, hwritten.average, hwritten.realized, hwritten.position, hwritten.mark,
      hwritten.cash⟩, ⟨hwritten.mark.unrealized, hwritten.unrealized⟩, hwritten.columns hf hw, hwritten.balances⟩

/-! ## A fill as an event -/

theorem takes_apply {codec : Codec} {event : PortfolioEvent} (h : FreshFill s event entry)
    (hp : positionFor s entry = .ok p) (hok : applyPortfolioEvent codec s event = .ok s') :
    Takes (fun _ : DigitLimit => applyPortfolioEvent codec s event)
      (fun _ => (∀ n ∈ eventIntegers event, Converts n) ∧ FillWritten s entry p) s' := by
  rw [h.apply_eq, requireDigest_eq, ok_bind] at hok
  unfold applyNormal at hok
  obtain ⟨booked, hbooked, hnext⟩ := bind_ok_iff.1 hok
  have hdigest : Takes (fun _ : DigitLimit => requireDigest event) (fun _ => ∀ n ∈ eventIntegers event, Converts n) () :=
    takes_forM _ fun _ => takes_require
  have hnormal : Takes (fun _ : DigitLimit => applyNormal codec s event entry) (fun _ => FillWritten s entry p) s' :=
    (takes_bookFill hbooked hp).bind_ok hnext
  intro limit b
  simp only
  rw [h.apply_eq]
  exact Takes.bind (f := fun (_ : DigitLimit) _ => applyNormal codec s event entry) hdigest hnormal limit b

def mill : Price := ⟨Decimal.scaled 1 3, .USD, by decide +kernel⟩

def millDefinition : InstrumentDefinition where
  toInstrumentCatalog := { sampleDefinition.toInstrumentCatalog with
    tickSize := mill
    minimumNotional := usd 1 }
  valid := ⟨rfl, rfl, rfl, rfl, ⟨3, by decide +kernel⟩, by decide +kernel, by decide +kernel,
    by decide +kernel, by decide +kernel, by decide +kernel, by decide +kernel, ⟨rfl, rfl⟩,
    by decide +kernel, by decide +kernel, by decide +kernel⟩

def millEntry : PortfolioFillEntry :=
  ⟨sampleCommon, "alpha",
    ⟨{ sampleReport millDefinition tenShares noShares 11 .buy .filled none none with
        lastFillPrice := mill
        averageFillPrice := mill },
      Nat.one_pos, by decide +kernel, by decide +kernel, by decide +kernel, by decide +kernel,
      by decide +kernel, le_rfl, by decide +kernel, fun _ => rfl, by decide +kernel, by decide +kernel,
      ⟨rfl, rfl, rfl⟩, ⟨nofun, nofun, nofun⟩⟩⟩

def millFill : PortfolioEvent := sampleEvent 1 (.fill millEntry)

theorem opened_fills : ∃ s, reduceByDefault (sampleCodec []) [sampleEvent 0 (.opening sampleOpening)] = .ok s ∧
      FreshFill s (sampleEvent 1 (sampleFill (sampleBuy 11))) ⟨sampleCommon, "alpha", sampleBuy 11⟩ ∧
      FreshFill s millFill millEntry ∧
      (applyByDefault (sampleCodec []) s millFill).isOk = false :=
  exists_ok_of_any (by decide +kernel)

end TradingAgent.PortfolioReducer
