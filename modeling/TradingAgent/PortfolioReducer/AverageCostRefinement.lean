import TradingAgent.PortfolioReducer.AccountTotals
import TradingAgent.PortfolioReducer.Faults

/-! Positions refine exact average-cost accounting. -/

namespace TradingAgent.PortfolioReducer

open Outcome AverageCost

/-- The exact account of a position: its active effects in logical order, from a flat start. -/
def exactAccount (s : PortfolioReplayState) (key : PositionKey) : Account ℚ :=
  Account.flat.bookAll ((lineage s.activeEffects key).map fun e => trade e.fill)

/-- The position shows the exact account, rounded. -/
structure RefinesAccount (p : PortfolioPositionState) (account : Account ℚ) : Prop where
  quantity : (p.quantity.value : ℚ) = account.quantity
  flat_iff : p.averageEntryPrice = none ↔ account.quantity = 0
  average : ∀ price ∈ p.averageEntryPrice, price.currency = p.settlementCurrency ∧
    price.amount = rounded p.settlementCurrency.precision (account.basis / |account.quantity|)
  realizedPnl : p.realizedPnl.amount = rounded p.settlementCurrency.precision account.realized
  unvalued : account.quantity = 0 ∨ p.mark = none → p.unrealizedPnl.amount = 0
  unrealizedPnl : account.quantity ≠ 0 → ∀ mark ∈ p.mark, ∃ d ∈ p.instrumentDefinition,
    p.unrealizedPnl.amount = rounded p.settlementCurrency.precision
      ((mark.price.amount - account.basis / |account.quantity|) * account.quantity * d.multiplier)

theorem Chain.sum_realized {base : LotBase} {effects : List PortfolioExecutionEffect} {c : Currency}
    (h : Chain base effects) (hc : ∀ e ∈ effects, e.fill.instrumentDefinition.settlementCurrency = c) :
    (effects.map (·.realizedPnlDelta.amount)).sum = roundedRealized c (base.account (fills effects)) := by
  induction effects using List.reverseRecOn with
  | nil =>
    simp [roundedRealized]
  | append_singleton es e ih =>
    have hlast := h.last.realized
    rw [hc e (by simp)] at hlast
    rw [List.map_append, List.sum_append, ih h.left fun x hx => hc x (List.mem_append_left _ hx),
      List.map_singleton, List.sum_singleton, hlast, fills_append, fills_singleton]
    exact add_sub_cancel _ _

theorem lineage_perm (effects : List PortfolioExecutionEffect) (k : PositionKey) :
    (lineage effects k).Perm (effects.filter fun e => e.positionKey = k) :=
  sortBy_perm _ _

theorem exactAccount_eq (s : PortfolioReplayState) (k : PositionKey) :
    exactAccount s k = LotBase.flat.account (fills (lineage s.activeEffects k)) := by
  rw [LotBase.account_flat]
  unfold exactAccount fills
  rw [List.map_map]
  rfl

variable {s : PortfolioReplayState} {p : PortfolioPositionState}

variable (hs : Inv True (fun _ => LotBase.flat) s) (hp : p ∈ s.snapshot.positions)
  (hnet : (net s).positionRealizedPnl p.key = 0)
include hs hp hnet

theorem positionRealized_eq : p.realizedPnl.amount = roundedRealized p.settlementCurrency (exactAccount s p.key) := by
  have hfind : findPosition s.snapshot.positions p.key = some p :=
    (lookupBy_eq_some_iff s.snapshot.facts.nodup_keys).2 ⟨hp, rfl⟩
  have hsettle : ∀ e ∈ lineage s.activeEffects p.key,
      e.fill.instrumentDefinition.settlementCurrency = p.settlementCurrency := by
    intro e he
    obtain ⟨hm, hk⟩ := mem_lineage.1 he
    obtain ⟨q, hq, hd⟩ := hs.linked.position e hm
    rw [hk, hfind] at hq
    obtain rfl := Option.some.inj hq
    exact (settlement_of_definition hd).symm
  have hsum := (hs.keys p.key).chain.sum_realized hsettle
  simp only [net, positionAmount, hfind, Option.elim_some, PositionColumn.money] at hnet
  rw [sub_eq_zero.1 hnet, keyTotal_eq, ← ((lineage_perm _ _).map _).sum_eq, hsum, exactAccount_eq]

theorem refinesAccount_of_inv : RefinesAccount p (exactAccount s p.key) := by
  have hfind : findPosition s.snapshot.positions p.key = some p :=
    (lookupBy_eq_some_iff s.snapshot.facts.nodup_keys).2 ⟨hp, rfl⟩
  have hk := hs.keys p.key
  have hq := hk.quantity p hfind
  have hu := hk.unrealized trivial p hfind
  rw [← exactAccount_eq] at hq hu
  have hzero : (exactAccount s p.key).quantity = 0 ↔ p.quantity.value = 0 := by
    rw [← hq]
    exact ⟨fun h => Subtype.ext h, fun h => by rw [h]; rfl⟩
  refine ⟨hq, ?_, ?_, positionRealized_eq hs hp hnet, ?_, ?_⟩
  · rw [hzero]
    constructor
    · intro hnone
      by_contra hne
      obtain ⟨-, average, ha, -⟩ := p.facts.nonflat hne
      rw [hnone] at ha
      cases ha
    · exact fun h => (p.facts.flat h).1
  · intro price hprice
    have ha := hk.average p hfind
    rw [hprice] at ha
    have hopen : p.quantity.value ≠ 0 := by
      intro h0
      rw [(p.facts.flat h0).1] at hprice
      cases hprice
    obtain ⟨-, average, haverage, hcurrency⟩ := p.facts.nonflat hopen
    rw [hprice] at haverage
    obtain rfl := Option.some.inj haverage
    refine ⟨hcurrency, ?_⟩
    rcases List.eq_nil_or_concat (lineage s.activeEffects p.key) with hnil | ⟨es, e, hlast⟩
    · rw [hnil] at ha
      cases ha
    · rw [List.concat_eq_append] at hlast
      rw [exactAccount_eq, hlast, fills_append, fills_singleton]
      rw [hlast, fills_append, fills_singleton, LotBase.averageAfter_concat] at ha
      obtain ⟨hamount, hcur⟩ := roundedAverage_eq_some ha.symm
      rw [hamount, ← hcur, hcurrency]
      rfl
  · intro h
    rw [hu]
    unfold unrealizedOf
    rcases h with h | h
    · cases p.mark <;> cases p.instrumentDefinition <;> simp [h]
    · rw [h]
  · intro hne mark hmark
    have hopen : p.quantity.value ≠ 0 := fun h0 => hne (hzero.2 h0)
    obtain ⟨d, hd⟩ := Option.isSome_iff_exists.1 (p.facts.nonflat hopen).1
    refine ⟨d, hd, ?_⟩
    rw [hu, Option.mem_def.1 hmark, hd]
    simp [unrealizedOf, hne]

omit hs hp hnet

/-- Without a reconciliation every position is the rounding of the exact average-cost account of its active
effects. -/
theorem reducer_refines_average_cost (codec : Codec) {events : List PortfolioEvent}
    (hinc : Increasing events) (hrec : NoReconciliation events) :
    (∀ fault ∈ lineageFaults, reducePortfolioEvents codec events ≠ .error fault) ∧
      ∀ s, reducePortfolioEvents codec events = .ok s → ∀ p ∈ s.snapshot.positions,
        RefinesAccount p (exactAccount s p.key) := by
  refine ⟨fun fault hfault herror => reduce_faultless hinc fault herror hfault, fun s hs p hp => ?_⟩
  obtain ⟨base, hrun⟩ := reduce_inv hs hinc
  obtain rfl := hrun.flat hrec.delivered
  cases events with
  | nil => cases hs
  | cons first rest =>
    obtain ⟨s₀, entry, -, hopen, -⟩ := reduce_opening hs
    have hnet := reduce_net hs hopen.payload hrec
    refine refinesAccount_of_inv (hrun.inv.mono fun _ => hrec.delivered) hp ?_
    rw [hnet]
    rfl

theorem sample_refines_average_cost : ∃ s,
    reducePortfolioEvents (sampleCodec sampleHistory) sampleHistory = .ok s ∧
      ∀ p ∈ s.snapshot.positions, RefinesAccount p (exactAccount s p.key) := by
  obtain ⟨s, hs⟩ := sampleHistory_reduces
  exact ⟨s, hs, (reducer_refines_average_cost _ (by decide) (by decide)).2 s hs⟩

end TradingAgent.PortfolioReducer
