import TradingAgent.PortfolioReducer.Run

/-! The balances of an account are the totals of its positions. -/

namespace TradingAgent.PortfolioReducer

open Outcome

variable {α : Type}

theorem totalIn_flatMap (c : Currency) (f : α → List Money) (xs : List α) :
    Money.totalIn c (xs.flatMap f) = (xs.map fun x => Money.totalIn c (f x)).sum := by
  induction xs with
  | nil => rfl
  | cons x xs ih => rw [List.flatMap_cons, Money.totalIn_append, List.map_cons, List.sum_cons, ih]

theorem totalIn_map (c : Currency) (f : α → Money) (xs : List α) :
    Money.totalIn c (xs.map f) = (xs.map fun x => if (f x).currency = c then (f x).amount else 0).sum := by
  induction xs with
  | nil => rfl
  | cons x xs ih => rw [List.map_cons, Money.totalIn_cons, List.map_cons, List.sum_cons, ih]

theorem cashFlows_eq (events : List PortfolioEvent) (c : Currency) :
    cashFlows events c = Money.totalIn c (events.flatMap fun e => fundings e.payload) +
      Money.totalIn c (events.flatMap fun e => conversionTargets e.payload) -
      Money.totalIn c (events.flatMap fun e => conversionSources e.payload) := by
  unfold cashFlows
  rw [totalIn_flatMap, totalIn_flatMap, totalIn_flatMap]
  induction events with
  | nil => simp
  | cons e events ih =>
    rw [List.map_cons, List.sum_cons, ih]
    simp only [List.map_cons, List.sum_cons, cashFlow]
    ring

theorem keyTotal_eq (s : PortfolioReplayState) (k : PositionKey) (f : PortfolioExecutionEffect → Decimal) :
    keyTotal s k f = ((s.activeEffects.filter fun e => e.positionKey = k).map f).sum := by
  unfold keyTotal
  generalize s.activeEffects = effects
  induction effects with
  | nil => rfl
  | cons e effects ih =>
    rw [List.map_cons, List.sum_cons, ih]
    by_cases hk : e.positionKey = k
    · rw [if_pos hk, List.filter_cons_of_pos (by simpa using hk), List.map_cons, List.sum_cons]
    · rw [if_neg hk, List.filter_cons_of_neg (by simpa using hk), zero_add]

variable {s : PortfolioReplayState}

theorem Linked.feeTotal (h : Linked s) (c : Currency) : (effectTotal s c (·.balanceFeeDeltas)) =
      Money.totalIn c (s.activeEffects.map (·.fill.commission)) := by
  unfold effectTotal
  rw [totalIn_map]
  congr 1
  refine List.map_congr_left fun e he => ?_
  simp only [(h.economics e he).balanceFees, totalIn_nonzero]

theorem Linked.positionFees (h : Linked s) {p : PortfolioPositionState}
    (hp : findPosition s.snapshot.positions p.key = some p) :
    (keyTotal s p.key (·.feesDelta.amount)) = Money.totalIn p.settlementCurrency
      ((s.activeEffects.filter fun e => e.positionKey = p.key).map (·.fill.commission)) := by
  have hfee : ∀ e ∈ s.activeEffects, e.positionKey = p.key → e.feesDelta.amount =
      if e.fill.commission.currency = p.settlementCurrency then e.fill.commission.amount else 0 := by
    intro e he hk
    obtain ⟨q, hq, hd⟩ := h.position e he
    rw [hk, hp] at hq
    obtain rfl := Option.some.inj hq
    rw [(h.economics e he).feesDelta, settlement_of_definition hd]
    rfl
  rw [keyTotal_eq, totalIn_map]
  congr 1
  refine List.map_congr_left fun e he => ?_
  obtain ⟨hm, hk⟩ := List.mem_filter.1 he
  exact hfee e hm (by simpa using hk)

theorem balance_currencies (b : AccountBalanceSnapshot) :
    b.lockedFunds.currency = b.currency ∧ b.marginUsed.currency = b.currency := by
  have hvalid := b.valid
  unfold AccountBalanceFields.validate at hvalid
  simp only [bind_ok_iff, require_ok_iff, List.forall_mem_cons] at hvalid
  obtain ⟨-, ⟨-, hlocked, hmargin, -⟩, -⟩ := hvalid
  exact ⟨hlocked, hmargin⟩

/-- A balance agrees with the positions and retained effects of a state and with the events that were
delivered; `b₀` is the opening balance. -/
structure BalanceAgrees (s : PortfolioReplayState) (events : List PortfolioEvent)
    (b₀ b : AccountBalanceSnapshot) : Prop where
  realizedPnl : b.realizedPnl.amount - b₀.realizedPnl.amount = positionTotal s b.currency .realizedPnl
  unrealizedPnl : b.unrealizedPnl.amount - b₀.unrealizedPnl.amount =
    positionTotal s b.currency .unrealizedPnl
  funding : b.funding.amount - b₀.funding.amount = positionTotal s b.currency .funding +
    Money.totalIn b.currency (events.flatMap fun e => accountFundings e.payload)
  fees : b.fees.amount - b₀.fees.amount =
    Money.totalIn b.currency (s.activeEffects.map fun e => e.fill.commission)
  cash : b.cash.amount = b₀.cash.amount +
    Money.totalIn b.currency (s.activeEffects.flatMap fun e => e.cashDeltas) +
    Money.totalIn b.currency (events.flatMap fun e => fundings e.payload) +
    Money.totalIn b.currency (events.flatMap fun e => conversionTargets e.payload) -
    Money.totalIn b.currency (events.flatMap fun e => conversionSources e.payload)
  lockedFunds : b.lockedFunds = b₀.lockedFunds
  marginUsed : b.marginUsed = b₀.marginUsed

theorem balanceAgrees_of_net {events : List PortfolioEvent}
    {balances : List AccountBalanceSnapshot} {b₀ b : AccountBalanceSnapshot} (hs : Linked s)
    (hnet : net s = (openingNet balances).add (cashFlows events) (accountFundingTotal events))
    (hb : balanceOf s.snapshot.balances b.currency = some b)
    (hb₀ : balanceOf balances b.currency = some b₀) : BalanceAgrees s events b₀ b := by
  have hcur : b₀.currency = b.currency := (lookupBy_some hb₀).2
  have hcash := congrFun (congrArg Net.cash hnet) b.currency
  have hreal := congrFun (congrArg Net.realizedPnl hnet) b.currency
  have hunreal := congrFun (congrArg Net.unrealizedPnl hnet) b.currency
  have hfees := congrFun (congrArg Net.fees hnet) b.currency
  have hfund := congrFun (congrArg Net.funding hnet) b.currency
  have hlocked := congrFun (congrArg Net.lockedFunds hnet) b.currency
  have hmargin := congrFun (congrArg Net.marginUsed hnet) b.currency
  simp only [net, openingNet, Net.add, amountIn, heldIn, hb, hb₀, Option.elim_some, balanceAmount,
    cashFlows_eq, hs.feeTotal, accountFundingTotal] at hcash hreal hunreal hfees hfund hlocked hmargin
  refine ⟨?_, ?_, ?_, ?_, ?_, ?_, ?_⟩
  · rw [← hreal]
    ring
  · rw [← hunreal]
    ring
  · rw [← sub_eq_iff_eq_add'.2 hfund]
    ring
  · rw [← hfees]
    ring
  · have htotal : Money.totalIn b.currency (s.activeEffects.flatMap (·.cashDeltas)) =
        effectTotal s b.currency (·.cashDeltas) := totalIn_flatMap _ _ _
    rw [htotal, sub_eq_iff_eq_add.1 hcash]
    ring
  · exact Money.ext hlocked ((balance_currencies b).1.trans
      (hcur.symm.trans (balance_currencies b₀).1.symm))
  · exact Money.ext hmargin ((balance_currencies b).2.trans
      (hcur.symm.trans (balance_currencies b₀).2.symm))

/-- Without a reconciliation, balances, positions, retained effects and delivered events agree in every currency. -/
theorem balances_agree_with_positions (codec : Codec) {first : PortfolioEvent}
    {rest : List PortfolioEvent} {entry : PortfolioOpeningEntry} {s : PortfolioReplayState}
    (hfirst : first.payload = .opening entry)
    (h : reducePortfolioEvents codec (first :: rest) = .ok s)
    (hrec : NoReconciliation (first :: rest)) :
    (∀ b ∈ s.snapshot.balances, ∃ b₀ ∈ entry.balances, b₀.currency = b.currency ∧
      BalanceAgrees s (delivered (first :: rest)) b₀ b) ∧
    (∀ b₀ ∈ entry.balances, ∃ b ∈ s.snapshot.balances, b.currency = b₀.currency) ∧
    ∀ p ∈ s.snapshot.positions, p.fees.amount = Money.totalIn p.settlementCurrency
      ((s.activeEffects.filter fun e => e.positionKey = p.key).map fun e => e.fill.commission) := by
  have hs := reduce_linked h
  have hnet := reduce_net h hfirst hrec
  have hhas : ∀ c, (balanceOf s.snapshot.balances c).isSome = (balanceOf entry.balances c).isSome :=
    congrFun (congrArg Net.hasBalance hnet)
  have hn := s.snapshot.facts.nodup_currencies
  refine ⟨fun b hb => ?_, fun b₀ hb₀ => ?_, fun p hp => ?_⟩
  · have hfind : balanceOf s.snapshot.balances b.currency = some b :=
      (lookupBy_eq_some_iff hn).2 ⟨hb, rfl⟩
    have hsome := hhas b.currency
    rw [hfind] at hsome
    obtain ⟨b₀, hb₀⟩ := Option.isSome_iff_exists.1 hsome.symm
    obtain ⟨hmem, hcur⟩ := lookupBy_some hb₀
    exact ⟨b₀, hmem, hcur, balanceAgrees_of_net hs hnet hfind hb₀⟩
  · have hsome : (balanceOf entry.balances b₀.currency).isSome = true := by
      rw [Option.isSome_iff_ne_none]
      exact fun hnone => lookupBy_eq_none_iff.1 hnone b₀ hb₀ rfl
    rw [← hhas] at hsome
    obtain ⟨b, hb⟩ := Option.isSome_iff_exists.1 hsome
    exact ⟨b, lookupBy_some hb⟩
  · have hfind : findPosition s.snapshot.positions p.key = some p :=
      (lookupBy_eq_some_iff s.snapshot.facts.nodup_keys).2 ⟨hp, rfl⟩
    have hfees := congrFun (congrArg Net.positionFees hnet) p.key
    simp only [net, openingNet, Net.add, positionAmount, hfind, Option.elim_some,
      PositionColumn.money] at hfees
    rw [sub_eq_zero.1 hfees, hs.positionFees hfind]

theorem balances_agree_in_sample : ∃ s,
    reducePortfolioEvents (sampleCodec sampleHistory) sampleHistory = .ok s ∧
      ∀ b ∈ s.snapshot.balances, ∃ b₀ ∈ sampleOpening.balances, b₀.currency = b.currency ∧
        BalanceAgrees s (delivered sampleHistory) b₀ b := by
  obtain ⟨s, hs⟩ := sampleHistory_reduces
  exact ⟨s, hs, (balances_agree_with_positions _ rfl hs (by decide)).1⟩

end TradingAgent.PortfolioReducer
