import TradingAgent.PortfolioReducer.Booking

/-! Amounts that effects move are conserved. -/

namespace TradingAgent.PortfolioReducer

open Outcome

def amountIn (s : PortfolioReplayState) (c : Currency) (column : BalanceColumn) : Decimal :=
  (balanceOf s.snapshot.balances c).elim 0 fun b => balanceAmount b column

def heldIn (s : PortfolioReplayState) (c : Currency) (f : AccountBalanceSnapshot → Money) : Decimal :=
  (balanceOf s.snapshot.balances c).elim 0 fun b => (f b).amount

def effectTotal (s : PortfolioReplayState) (c : Currency)
    (f : PortfolioExecutionEffect → List Money) : Decimal :=
  (s.activeEffects.map fun e => Money.totalIn c (f e)).sum

inductive PositionColumn
  | realizedPnl
  | unrealizedPnl
  | fees
  | funding

def PositionColumn.money (column : PositionColumn) (p : PortfolioPositionState) : Money :=
  match column with
  | .realizedPnl => p.realizedPnl
  | .unrealizedPnl => p.unrealizedPnl
  | .fees => p.fees
  | .funding => p.funding

def positionTotal (s : PortfolioReplayState) (c : Currency) (column : PositionColumn) : Decimal :=
  (s.snapshot.positions.map fun p =>
    if p.settlementCurrency = c then (column.money p).amount else 0).sum

def positionAmount (s : PortfolioReplayState) (k : PositionKey) (column : PositionColumn) : Decimal :=
  (findPosition s.snapshot.positions k).elim 0 fun p => (column.money p).amount

def keyTotal (s : PortfolioReplayState) (k : PositionKey) (f : PortfolioExecutionEffect → Decimal) :
    Decimal :=
  (s.activeEffects.map fun e => if e.positionKey = k then f e else 0).sum

/-- What a state holds net of its retained effects and its positions. -/
@[ext] structure Net where
  hasBalance : Currency → Bool
  cash : Currency → Decimal
  realizedPnl : Currency → Decimal
  retainedRealizedPnl : Currency → Decimal
  unrealizedPnl : Currency → Decimal
  fees : Currency → Decimal
  funding : Currency → Decimal
  lockedFunds : Currency → Decimal
  marginUsed : Currency → Decimal
  positionRealizedPnl : PositionKey → Decimal
  positionFees : PositionKey → Decimal

def net (s : PortfolioReplayState) : Net where
  hasBalance c := (balanceOf s.snapshot.balances c).isSome
  cash c := amountIn s c .cash - effectTotal s c fun e => e.cashDeltas
  realizedPnl c := amountIn s c .realizedPnl - positionTotal s c .realizedPnl
  retainedRealizedPnl c := amountIn s c .realizedPnl - effectTotal s c fun e => e.balanceRealizedPnlDeltas
  unrealizedPnl c := amountIn s c .unrealizedPnl - positionTotal s c .unrealizedPnl
  fees c := amountIn s c .fees - effectTotal s c fun e => e.balanceFeeDeltas
  funding c := heldIn s c (fun b => b.funding) - positionTotal s c .funding
  lockedFunds c := heldIn s c fun b => b.lockedFunds
  marginUsed c := heldIn s c fun b => b.marginUsed
  positionRealizedPnl k := positionAmount s k .realizedPnl -
    keyTotal s k fun e => e.realizedPnlDelta.amount
  positionFees k := positionAmount s k .fees - keyTotal s k fun e => e.feesDelta.amount

theorem totalIn_eq_zero {c : Currency} {ms : List Money} (h : ∀ m ∈ ms, m.currency ≠ c) : Money.totalIn c ms = 0 := by
  unfold Money.totalIn
  rw [List.filter_eq_nil_iff.2 fun m hm => by simpa using h m hm]
  rfl

section Moved

variable {s s' : PortfolioReplayState} {p p' : PortfolioPositionState} {deltas : BalanceDeltas}

variable (h : Moved s s' p' deltas) (c : Currency)
include h c

theorem Moved.hasBalance_eq : (balanceOf s'.snapshot.balances c).isSome = (balanceOf s.snapshot.balances c).isSome := by
  have hc := h.balances c
  generalize balanceOf s.snapshot.balances c = b at hc ⊢
  generalize balanceOf s'.snapshot.balances c = b' at hc ⊢
  cases hc <;> rfl

theorem Moved.amountIn_eq (column : BalanceColumn) :
    amountIn s' c column = amountIn s c column + deltas.total c column := by
  have hc := h.balances c
  have hz : balanceOf s.snapshot.balances c = none → deltas.total c column = 0 := by
    intro hn
    refine totalIn_eq_zero fun m hm hmc => ?_
    have := h.hasBalance column m hm
    rw [hmc, hn] at this
    exact absurd this (by simp)
  unfold amountIn
  generalize balanceOf s.snapshot.balances c = b at hc hz ⊢
  generalize balanceOf s'.snapshot.balances c = b' at hc ⊢
  cases hc with
  | none => simp [hz rfl]
  | some hstep => exact hstep.amounts column

theorem Moved.heldIn_eq (f : AccountBalanceSnapshot → Money)
    (hf : ∀ b b' δ, BalanceStep δ b b' → f b' = f b) : heldIn s' c f = heldIn s c f := by
  have hc := h.balances c
  unfold heldIn
  generalize balanceOf s.snapshot.balances c = b at hc ⊢
  generalize balanceOf s'.snapshot.balances c = b' at hc ⊢
  cases hc with
  | none => rfl
  | some hstep => simp [hf _ _ _ hstep]

omit h c

/-- Before a move, the position of a key counts as `p`: it is `p`, or missing and `p` is empty. -/
def CountsAs (s : PortfolioReplayState) (k : PositionKey) (p : PortfolioPositionState) : Prop :=
  findPosition s.snapshot.positions k = some p ∨
    findPosition s.snapshot.positions k = none ∧ p.realizedPnl.amount = 0 ∧
      p.unrealizedPnl.amount = 0 ∧ p.fees.amount = 0 ∧ p.funding.amount = 0

variable {k : PositionKey}

theorem CountsAs.elim (h : CountsAs s k p) (column : PositionColumn) (c : Currency) :
    ((findPosition s.snapshot.positions k).elim 0 fun p =>
      if p.settlementCurrency = c then (column.money p).amount else 0) =
        if p.settlementCurrency = c then (column.money p).amount else 0 := by
  rcases h with h | ⟨h, h1, h2, h3, h4⟩
  · rw [h]
    rfl
  · rw [h]
    cases column <;> simp [PositionColumn.money, h1, h2, h3, h4]

theorem CountsAs.positionAmount_eq (h : CountsAs s k p) (column : PositionColumn) :
    positionAmount s k column = (column.money p).amount := by
  unfold positionAmount
  rcases h with h | ⟨h, h1, h2, h3, h4⟩
  · rw [h]
    rfl
  · rw [h]
    cases column <;> simp [PositionColumn.money, h1, h2, h3, h4]

theorem Moved.positionTotal_eq (h : Moved s s' p' deltas) (hp : CountsAs s p'.key p)
    (hset : p.settlementCurrency = p'.settlementCurrency) (c : Currency) (column : PositionColumn) :
    positionTotal s' c column = positionTotal s c column +
      if p'.settlementCurrency = c then (column.money p').amount - (column.money p).amount else 0 := by
  have helim := hp.elim column c
  unfold positionTotal
  rw [h.positions]
  unfold replacePosition
  rw [sum_replaceBy s.snapshot.facts.nodup_keys]
  unfold findPosition at helim
  rw [helim, hset]
  split_ifs
  · rfl
  · simp

theorem Moved.positionAmount_eq (h : Moved s s' p' deltas) (k : PositionKey) (column : PositionColumn) :
    positionAmount s' k column =
      if p'.key = k then (column.money p').amount else positionAmount s k column := by
  unfold positionAmount
  rw [h.findPosition_eq]
  split_ifs <;> rfl

/-- How the deltas of a move follow those of one effect, which is added (`ε = 1`) or taken back. -/
structure Follows (ε : Decimal) (s s' : PortfolioReplayState) (e : PortfolioExecutionEffect)
    (p p' : PortfolioPositionState) (deltas : BalanceDeltas) : Prop where
  previous : CountsAs s p'.key p
  key : e.positionKey = p'.key
  settlement : p.settlementCurrency = p'.settlementCurrency
  funding : p'.funding = p.funding
  realizedPnl : (p'.realizedPnl.amount : Decimal) - p.realizedPnl.amount = ε * e.realizedPnlDelta.amount
  fees : p'.fees.amount - p.fees.amount = ε * e.feesDelta.amount
  effects : ∀ g : PortfolioExecutionEffect → Decimal,
    (s'.activeEffects.map g).sum = (s.activeEffects.map g).sum + ε * g e
  cashDeltas : ∀ c, deltas.total c .cash = ε * Money.totalIn c e.cashDeltas
  feeDeltas : ∀ c, deltas.total c .fees = ε * Money.totalIn c e.balanceFeeDeltas
  retainedDeltas : ∀ c, deltas.total c .realizedPnl = ε * Money.totalIn c e.balanceRealizedPnlDeltas
  realizedDeltas : ∀ c, deltas.total c .realizedPnl =
    if p'.settlementCurrency = c then p'.realizedPnl.amount - p.realizedPnl.amount else 0
  unrealizedDeltas : ∀ c, deltas.total c .unrealizedPnl =
    if p'.settlementCurrency = c then p'.unrealizedPnl.amount - p.unrealizedPnl.amount else 0

theorem Moved.net_eq (h : Moved s s' p' deltas) {ε : Decimal} {e : PortfolioExecutionEffect}
    (hf : Follows ε s s' e p p' deltas) : net s' = net s := by
  have htot := h.positionTotal_eq hf.previous hf.settlement
  have hkey : ∀ (k : PositionKey) (column : PositionColumn) (g : PortfolioExecutionEffect → Decimal),
      (column.money p').amount - (column.money p).amount = ε * g e →
      positionAmount s' k column - keyTotal s' k g = positionAmount s k column - keyTotal s k g := by
    intro k column g hg
    unfold keyTotal
    rw [hf.effects, h.positionAmount_eq, hf.key]
    split_ifs with hk
    · subst hk
      rw [hf.previous.positionAmount_eq column, ← hg]
      ring
    · ring
  ext1
  · exact funext h.hasBalance_eq
  · funext c
    simp only [net, effectTotal]
    rw [h.amountIn_eq, hf.effects, hf.cashDeltas]
    ring
  · funext c
    simp only [net]
    rw [h.amountIn_eq, hf.realizedDeltas]
    rw [htot c .realizedPnl]
    simp only [PositionColumn.money]
    ring
  · funext c
    simp only [net, effectTotal]
    rw [h.amountIn_eq, hf.effects, hf.retainedDeltas]
    ring
  · funext c
    simp only [net]
    rw [h.amountIn_eq, hf.unrealizedDeltas]
    rw [htot c .unrealizedPnl]
    simp only [PositionColumn.money]
    ring
  · funext c
    simp only [net, effectTotal]
    rw [h.amountIn_eq, hf.effects, hf.feeDeltas]
    ring
  · funext c
    simp only [net]
    rw [h.heldIn_eq c _ fun b b' δ hb => hb.funding, htot c .funding]
    simp only [PositionColumn.money, hf.funding, sub_self, ite_self, add_zero]
  · funext c
    exact h.heldIn_eq c _ fun b b' δ hb => hb.lockedFunds
  · funext c
    exact h.heldIn_eq c _ fun b b' δ hb => hb.marginUsed
  · funext k
    exact hkey k .realizedPnl _ hf.realizedPnl
  · funext k
    exact hkey k .fees _ hf.fees

end Moved

/-- What an effect repeats of its fill, whatever the state it was booked in. -/
structure Economics (e : PortfolioExecutionEffect) : Prop where
  key : e.positionKey = entryKey e.entry
  cashDeltas : cashDeltas e.fill = .ok e.cashDeltas
  balanceRealized : e.balanceRealizedPnlDeltas = nonzero e.realizedPnlDelta
  balanceFees : e.balanceFeeDeltas = nonzero e.fill.commission
  feesDelta : e.feesDelta.amount = settlementFee e.fill

theorem fillAccounting_feeDelta {fill : FillEvent} {current : Decimal} {average : Option Price}
    {basis : ℚ} {r : FillAccounting} (h : fillAccounting fill current average basis = .ok r) :
    r.signedFill = signedFill fill ∧ r.residual = current + signedFill fill ∧ r.feeDelta = settlementFee fill := by
  unfold fillAccounting at h
  simp only [sum_eq, fractions_eq, ok_bind, bind_ok_iff, require_ok_iff, exists_const, List.sum_cons,
    List.sum_nil, add_zero, Except.ok.injEq] at h
  obtain ⟨-, average, -, rfl⟩ := h
  exact ⟨rfl, rfl, rfl⟩

section Booked

variable {s s' : PortfolioReplayState} {entry : PortfolioFillEntry} {source : PortfolioEvent} {seq : ℕ}
  {mark : Option PositionMark} {observedAt : Option DateTime} {p next p' : PortfolioPositionState}
  {before : ℚ × ℚ} {accounting : FillAccounting} {e : PortfolioExecutionEffect} {unrealized : Money}

theorem FillOf.economics (h : FillOf s entry source seq mark p before accounting e next) : Economics e := by
  have hentry : e.entry = entry := by rw [h.effect]
  have hfill : e.fill = entry.fill := by rw [h.effect]
  refine ⟨?_, ?_, h.balanceRealized, ?_, ?_⟩
  · rw [hentry, h.effect]
  · rw [hfill]
    exact h.cashDeltas
  · rw [hfill]
    rw [h.effect]
  · rw [hfill, h.feesDelta]
    exact (fillAccounting_feeDelta h.fillAccounting).2.2

theorem NewPosition.countsAs (h : positionFor s entry = .ok p) : CountsAs s (entryKey entry) p := by
  rcases positionFor_cases h with hf | ⟨hf, hn⟩
  · exact .inl hf
  · exact .inr ⟨hf, hn.realizedPnl, hn.unrealizedPnl, hn.fees, hn.funding⟩

theorem FillOf.next_key (h : FillOf s entry source seq mark p before accounting e next) : next.key = p.key := by
  unfold PortfolioPositionState.key
  rw [h.next]

theorem WithEffect.applied_key (h : WithEffect s e next observedAt s' p p' unrealized) : p'.key = next.key := by
  unfold PortfolioPositionState.key
  rw [h.applied]

theorem bookFill_moved (hf : FillOf s entry source seq mark p before accounting e next)
    (hw : WithEffect s e next observedAt s' p p' unrealized) : Follows 1 s s' e p p' (effectDeltas e unrealized) := by
  have hkey : p'.key = p.key := hw.applied_key.trans hf.next_key
  have hp : p.key = entryKey entry := positionFor_key hf.position
  have hnext : next.settlementCurrency = p.settlementCurrency ∧ next.funding = p.funding := by
    constructor <;> rw [hf.next]
  have happlied : p'.settlementCurrency = next.settlementCurrency ∧ p'.funding = next.funding := by
    constructor <;> rw [hw.applied]
  have hset : p'.settlementCurrency = p.settlementCurrency := happlied.1.trans hnext.1
  have hreal : p'.realizedPnl = next.realizedPnl := by rw [hw.applied]
  have hfees : p'.fees = next.fees := by rw [hw.applied]
  have hec := hf.economics
  refine ⟨?_, ?_, hset.symm, ?_, ?_, ?_, ?_, ?_, ?_, ?_, ?_, ?_⟩
  · rw [hkey, hp]
    exact NewPosition.countsAs hf.position
  · rw [hkey, hp, hf.effect]
  · exact happlied.2.trans hnext.2
  · rw [hreal, hf.realizedPnl]
    ring
  · rw [hfees, hf.fees]
    ring
  · intro g
    rw [hw.effects, ((sortBy_perm _ _).map g).sum_eq]
    simp
  · intro c
    rw [one_mul]
    rfl
  · intro c
    rw [one_mul]
    rfl
  · intro c
    rw [one_mul]
    rfl
  · intro c
    change Money.totalIn c e.balanceRealizedPnlDeltas = _
    rw [hec.balanceRealized, totalIn_nonzero, hf.realizedPnlDelta_currency, hset, hreal, hf.realizedPnl]
    simp
  · intro c
    change Money.totalIn c (nonzero unrealized) = _
    rw [totalIn_nonzero, hw.unrealized_currency, hw.unrealized_amount]

theorem bookFill_net (h : bookFill s entry source seq mark observedAt = .ok s') : net s' = net s := by
  obtain ⟨p, before, accounting, e, next, p', unrealized, hf, hw⟩ := bookFill_spec h
  exact hw.moved.net_eq (bookFill_moved hf hw)

end Booked

variable {effects : List PortfolioExecutionEffect}

theorem withoutExecution_perm {e : PortfolioExecutionEffect}
    (hn : (effects.map (·.executionId)).Nodup) (he : e ∈ effects) :
    effects.Perm (e :: withoutExecution effects e.executionId) :=
  perm_cons_filter hn he

variable {s s' : PortfolioReplayState} {e : PortfolioExecutionEffect} {observedAt : DateTime}
  {p p' : PortfolioPositionState} {basis : ℚ} {unrealized : Money}

theorem sum_withoutExecution (hn : (effects.map (·.executionId)).Nodup) (he : e ∈ effects)
    (g : PortfolioExecutionEffect → Decimal) :
    ((withoutExecution effects e.executionId).map g).sum = (effects.map g).sum - g e := by
  have hp := withoutExecution_perm hn he
  rw [(hp.map g).sum_eq]
  simp

theorem removeEffect_moved (h : RemoveOf s e observedAt s' p p' basis unrealized)
    (hec : Economics e) (he : e ∈ s.activeEffects)
    (hset : p.settlementCurrency = e.fill.instrumentDefinition.settlementCurrency) :
    Follows (-1) s s' e p p' (reversalDeltas e unrealized) := by
  have hfound := findPosition_key h.position
  have hkey : p'.key = p.key := by
    unfold PortfolioPositionState.key
    rw [h.next]
  have hset' : p'.settlementCurrency = p.settlementCurrency := by rw [h.next]
  refine ⟨.inl (by rw [hkey, hfound]; exact h.position), ?_, hset'.symm, ?_, ?_, ?_, ?_, ?_, ?_, ?_, ?_,
    ?_⟩
  · rw [hec.key, hkey, hfound]
  · rw [h.next]
  · rw [h.realizedPnl]
    ring
  · rw [h.fees]
    ring
  · intro g
    rw [h.effects, sum_withoutExecution s.facts.nodup_executionIds he]
    ring
  · intro c
    change Money.totalIn c (e.cashDeltas.map negMoney) = _
    rw [totalIn_neg]
    ring
  · intro c
    change Money.totalIn c (e.balanceFeeDeltas.map negMoney) = _
    rw [totalIn_neg]
    ring
  · intro c
    change Money.totalIn c (e.balanceRealizedPnlDeltas.map negMoney) = _
    rw [totalIn_neg]
    ring
  · intro c
    change Money.totalIn c (e.balanceRealizedPnlDeltas.map negMoney) = _
    rw [totalIn_neg, hec.balanceRealized, totalIn_nonzero, e.facts.realizedPnlDelta, hset', hset, h.realizedPnl]
    split_ifs
    · ring
    · simp
  · intro c
    change Money.totalIn c (nonzero unrealized) = _
    rw [totalIn_nonzero, h.unrealized_currency, h.unrealized_amount, hset']

end TradingAgent.PortfolioReducer
