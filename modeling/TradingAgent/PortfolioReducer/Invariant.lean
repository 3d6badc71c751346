import TradingAgent.PortfolioReducer.Retained

/-! The invariant of a portfolio: positions follow from the active effects. -/

namespace TradingAgent.PortfolioReducer

open Outcome AverageCost

/-- The effects of one position form a chain from its base that ends at the position. `marked` asks
for the unrealized profit as well. -/
structure KeyInv (marked : Prop) (base : LotBase) (effects : List PortfolioExecutionEffect)
    (position : Option PortfolioPositionState) : Prop where
  chain : Chain base effects
  missing : position = none → effects = [] ∧ base = LotBase.flat
  quantity : ∀ p ∈ position, (p.quantity.value : ℚ) = (base.account (fills effects)).quantity
  average : ∀ p ∈ position, p.averageEntryPrice = base.averageAfter (fills effects)
  unrealized : marked → ∀ p ∈ position, p.unrealizedPnl.amount =
    unrealizedOf p.settlementCurrency p.mark p.instrumentDefinition
      (base.account (fills effects)).quantity (base.account (fills effects)).basis

section Fill

variable {marked : Prop} {base : LotBase} {s : PortfolioReplayState} {entry : PortfolioFillEntry}
  {source : PortfolioEvent} {seq : ℕ} {mark : Option PositionMark} {p next : PortfolioPositionState}
  {before : ℚ × ℚ} {accounting : FillAccounting} {e : PortfolioExecutionEffect}

theorem KeyInv.positionFor {effects : List PortfolioExecutionEffect}
    (h : KeyInv marked base effects (findPosition s.snapshot.positions (entryKey entry)))
    (hp : positionFor s entry = .ok p) : (p.quantity.value : ℚ) = (base.account (fills effects)).quantity ∧
      (effects = [] → p.averageEntryPrice = base.average) ∧
      p.averageEntryPrice = base.averageAfter (fills effects) := by
  rcases positionFor_cases hp with hf | ⟨hf, hn⟩
  · have ha := h.average p hf
    refine ⟨h.quantity p hf, fun he => ?_, ha⟩
    rw [ha, he]
    rfl
  · obtain ⟨rfl, rfl⟩ := h.missing hf
    refine ⟨?_, fun _ => hn.average, hn.average⟩
    rw [hn.quantity]
    rfl

theorem KeyInv.accountingBefore (h : KeyInv marked base (lineage s.activeEffects (entryKey entry))
      (findPosition s.snapshot.positions (entryKey entry))) (hp : PortfolioReducer.positionFor s entry = .ok p) :
    PortfolioReducer.accountingBefore s.activeEffects (entryKey entry) p.quantity.value p.averageEntryPrice =
      .ok ((base.account (fills (lineage s.activeEffects (entryKey entry)))).basis,
        (base.account (fills (lineage s.activeEffects (entryKey entry)))).realized) := by
  obtain ⟨hq, ha, -⟩ := h.positionFor hp
  exact accountingBefore_of_chain h.chain hq ha

theorem FillOf.effectOf (hf : FillOf s entry source seq mark p before accounting e next)
    (h : KeyInv marked base (lineage s.activeEffects (entryKey entry))
      (findPosition s.snapshot.positions (entryKey entry))) :
    EffectOf base (fills (lineage s.activeEffects (entryKey entry))) e ∧
      accounting = bookedFill (base.account (fills (lineage s.activeEffects (entryKey entry))))
        p.quantity.value entry.fill := by
  set account := base.account (fills (lineage s.activeEffects (entryKey entry))) with haccount
  obtain ⟨hq, ha, havg⟩ := h.positionFor hf.position
  have hbefore : before = (account.basis, account.realized) := by
    have := hf.accountingBefore
    rw [h.accountingBefore hf.position] at this
    exact (Except.ok.inj this).symm
  have hfa := hf.fillAccounting
  rw [hbefore] at hfa
  obtain ⟨hsome, hfits, hacc⟩ := (fillAccounting_ok_iff hq).1 hfa
  have hfill : e.fill = entry.fill := by rw [hf.effect]
  have hqb : e.quantityBefore = p.quantity := by rw [hf.effect]
  have hab : e.averageBefore = p.averageEntryPrice := by rw [hf.effect]
  have haa : e.averageAfter = accounting.nextAverage := by rw [hf.effect]
  have hcon : base.account (fills (lineage s.activeEffects (entryKey entry)) ++ [entry.fill]) =
      account.book (trade entry.fill) := base.account_concat _ _
  refine ⟨⟨?_, ?_, ?_, ?_, ?_, ?_, ?_, ?_, ?_, ?_, ?_, hf.balanceRealized, ?_, ?_⟩, hacc⟩
  · rw [hqb]
    exact hq
  · rw [hab]
    exact havg
  · rw [hqb, hab]
    exact hsome
  · intro average haverage
    rw [hab] at haverage
    rw [← e.facts.realizedPnlDelta, hf.realizedPnlDelta_currency]
    by_cases hzero : p.quantity.value = 0
    · rw [(p.facts.flat hzero).1] at haverage
      cases haverage
    · obtain ⟨-, a, ha, hcurrency⟩ := p.facts.nonflat hzero
      rw [ha] at haverage
      obtain rfl := Option.mem_some_iff.1 haverage
      exact hcurrency
  · rw [hf.quantityDelta, hacc, hfill]
    rfl
  · rw [hf.quantityDelta_precision, hfill]
  · rw [haa, hacc, hfill, base.averageAfter_concat, hcon]
    rfl
  · rw [hfill, hcon]
    exact hfits
  · have hfit := next.quantity.fits
    rw [hf.quantity, hf.quantity_precision, hacc] at hfit
    rw [hqb, hfill]
    exact hfit
  · rw [hf.realizedPnlDelta, hbefore, hacc, hfill, hcon]
    rfl
  · rw [hfill]
    exact hf.cashDeltas
  · rw [hfill, hf.effect]
  · rw [hfill, hf.feesDelta, hacc]
    rfl

theorem KeyInv.book {p' : PortfolioPositionState} {observedAt : DateTime}
    (hf : FillOf s entry source seq mark p before accounting e next)
    (h : KeyInv marked base (lineage s.activeEffects (entryKey entry))
      (findPosition s.snapshot.positions (entryKey entry)))
    (happlied : p'.toPortfolioPositionFields =
      { next.toPortfolioPositionFields with observedAt := observedAt }) :
    KeyInv marked base (lineage s.activeEffects (entryKey entry) ++ [e]) (some p') := by
  obtain ⟨heff, hacc⟩ := hf.effectOf h
  obtain ⟨hq, -, -⟩ := h.positionFor hf.position
  have hfill : e.fill = entry.fill := by rw [hf.effect]
  have hcon : base.account (fills (lineage s.activeEffects (entryKey entry) ++ [e])) =
      (base.account (fills (lineage s.activeEffects (entryKey entry)))).book (trade entry.fill) := by
    rw [fills_append, fills_singleton, base.account_concat, hfill]
  have hqn : (next.quantity.value : ℚ) =
      (base.account (fills (lineage s.activeEffects (entryKey entry) ++ [e]))).quantity := by
    rw [hf.quantity, hacc, hcon]
    change ((p.quantity.value + signedFill entry.fill : Decimal) : ℚ) = _
    push_cast
    rw [hq]
    rfl
  refine ⟨h.chain.concat heff, by simp, ?_, ?_, ?_⟩
  · intro q hmem
    obtain rfl := Option.mem_some_iff.1 hmem
    rw [happlied]
    exact hqn
  · intro q hmem
    obtain rfl := Option.mem_some_iff.1 hmem
    rw [happlied]
    change next.averageEntryPrice = _
    rw [hf.next, fills_append, fills_singleton, ← heff.averageAfter, hf.effect]
  · intro _ q hmem
    obtain rfl := Option.mem_some_iff.1 hmem
    obtain ⟨-, hmd, hu⟩ := markAndUnrealized_spec hf.marked
    have hset : next.settlementCurrency = p.settlementCurrency := by rw [hf.next]
    have hdef : next.instrumentDefinition = some entry.fill.instrumentDefinition := by rw [hf.next]
    rw [happlied]
    simp only
    rw [hu, hset, hdef, ← hqn, hcon, hacc]
    -- the old position may have had no definition, but then it is unmarked
    rcases hf.definition with hd | hd
    · cases hm : next.mark with
      | none => simp [unrealizedOf]
      | some m =>
        rw [hm, hd] at hmd
        exact absurd (hmd rfl) (by simp)
    · rw [hd]
      rfl

end Fill

section

variable {marked : Prop} {base : LotBase} {s s' : PortfolioReplayState} {e : PortfolioExecutionEffect}
  {observedAt : DateTime} {p p' : PortfolioPositionState} {basis : ℚ} {unrealized : Money}

theorem KeyInv.remove (hr : RemoveOf s e observedAt s' p p' basis unrealized) (hkey : e.positionKey = entryKey e.entry)
    (h : KeyInv marked base (lineage s'.activeEffects e.positionKey ++ [e])
      (findPosition s.snapshot.positions e.positionKey)) :
    KeyInv marked base (lineage s'.activeEffects e.positionKey) (some p') := by
  have hp : findPosition s.snapshot.positions e.positionKey = some p := by
    rw [hkey]
    exact hr.position
  have hlast := h.chain.last
  have hq := h.quantity p hp
  rw [fills_append, fills_singleton, base.account_concat] at hq
  have hqn : ((p.quantity.value - e.quantityDelta.value : Decimal) : ℚ) =
      (base.account (fills (lineage s'.activeEffects e.positionKey))).quantity := by
    push_cast
    rw [hq, hlast.quantityDelta, Account.book_quantity]
    exact add_sub_cancel_right _ _
  have hbasis := hr.basis
  rw [← hr.effects, costBasisBefore_of_chain h.chain.left hqn
    (fun he => by rw [hlast.averageBefore, he]; rfl)] at hbasis
  obtain rfl := Except.ok.inj hbasis
  refine ⟨h.chain.left, by simp, ?_, ?_, ?_⟩
  · intro q hmem
    obtain rfl := Option.mem_some_iff.1 hmem
    rw [hr.quantity]
    exact hqn
  · intro q hmem
    obtain rfl := Option.mem_some_iff.1 hmem
    rw [hr.next]
    exact hlast.averageBefore
  · intro _ q hmem
    obtain rfl := Option.mem_some_iff.1 hmem
    obtain ⟨-, -, hu⟩ := markAndUnrealized_spec hr.marked
    have hset : p'.settlementCurrency = p.settlementCurrency := by rw [hr.next]
    have hdef : p'.instrumentDefinition = p.instrumentDefinition := by rw [hr.next]
    rw [hu, hset, hdef, hr.quantity, hqn]

end

theorem lineage_of_perm_cons {effects effects' : List PortfolioExecutionEffect}
    {e : PortfolioExecutionEffect} (hp : effects'.Perm (e :: effects))
    (hn : (effects'.map (·.logicalSequence)).Nodup)
    (hlast : ∀ x ∈ effects, x.positionKey = e.positionKey → x.logicalSequence < e.logicalSequence)
    (k : PositionKey) :
    lineage effects' k = if e.positionKey = k then lineage effects k ++ [e] else lineage effects k := by
  have hn' : ((e :: effects).map (·.logicalSequence)).Nodup :=
    (hp.map (·.logicalSequence)).nodup_iff.1 hn
  have hne : (effects.map (·.logicalSequence)).Nodup := (List.nodup_cons.1 hn').2
  have hfil : (effects'.filter fun x => x.positionKey = k).Perm
      ((e :: effects).filter fun x => x.positionKey = k) := hp.filter _
  have hsub : ∀ xs : List PortfolioExecutionEffect, (xs.map (·.logicalSequence)).Nodup →
      ((xs.filter fun x => x.positionKey = k).map (·.logicalSequence)).Nodup :=
    fun xs h => (List.filter_sublist.map _).nodup h
  unfold lineage
  rw [sortBy_congr_perm hfil (hsub _ hn)]
  split_ifs with hk
  · subst hk
    rw [List.filter_cons_of_pos (by simp)]
    refine @eq_of_perm_of_pairwise_lt _ _ _ (·.logicalSequence) _ _ ?_ ?_ ?_
    · refine (sortBy_perm _ _).trans ?_
      refine List.Perm.trans ?_ (List.perm_append_singleton e _).symm
      exact (sortBy_perm _ _).symm.cons e
    · refine sortBy_pairwise_lt _ _ ?_
      have := hsub _ hn'
      rwa [List.filter_cons_of_pos (by simp)] at this
    · rw [List.pairwise_append]
      refine ⟨sortBy_pairwise_lt _ _ (hsub _ hne), by simp, ?_⟩
      intro x hx y hy
      rw [List.mem_singleton.1 hy]
      rw [mem_sortBy, List.mem_filter] at hx
      exact hlast x hx.1 (by simpa using hx.2)
  · rw [List.filter_cons_of_neg (by simpa using hk)]

theorem mem_lineage {effects : List PortfolioExecutionEffect} {k : PositionKey}
    {e : PortfolioExecutionEffect} : e ∈ lineage effects k ↔ e ∈ effects ∧ e.positionKey = k := by
  unfold lineage
  simp

structure Inv (marked : Prop) (base : PositionKey → LotBase) (s : PortfolioReplayState) : Prop where
  linked : Linked s
  sequences : (s.activeEffects.map fun e => e.logicalSequence).Nodup
  keys : ∀ k, KeyInv marked (base k) (lineage s.activeEffects k) (findPosition s.snapshot.positions k)

variable {marked : Prop} {base : PositionKey → LotBase} {s s' : PortfolioReplayState}

theorem bookFill_inv {entry : PortfolioFillEntry} {source : PortfolioEvent} {seq : ℕ}
    {mark : Option PositionMark} {observedAt : Option DateTime}
    (h : bookFill s entry source seq mark observedAt = .ok s') (hs : Inv marked base s)
    (hstatus : entry.fill.status.IsNormal ∨ entry.fill.status = .correction)
    (hnew : ∀ x ∈ s.activeEffects, x.logicalSequence ≠ seq)
    (hlast : ∀ x ∈ s.activeEffects, x.positionKey = entryKey entry → x.logicalSequence < seq) : Inv marked base s' := by
  have hlinked := bookFill_linked h hs.linked hstatus
  obtain ⟨p, before, accounting, e, next, p', unrealized, hf, hw⟩ := bookFill_spec h
  have hperm : s'.activeEffects.Perm (e :: s.activeEffects) := by
    rw [hw.effects]
    exact (sortBy_perm _ _).trans (List.perm_append_singleton _ _)
  have hseq : e.logicalSequence = seq := by rw [hf.effect]
  have hekey : e.positionKey = entryKey entry := by rw [hf.effect]
  have hkey : p'.key = entryKey entry :=
    (hw.applied_key.trans hf.next_key).trans (positionFor_key hf.position)
  have hnodup : (s'.activeEffects.map (·.logicalSequence)).Nodup := by
    rw [(hperm.map _).nodup_iff, List.map_cons, List.nodup_cons]
    refine ⟨fun hm => ?_, hs.sequences⟩
    obtain ⟨x, hx, hxs⟩ := List.mem_map.1 hm
    exact hnew x hx (hxs.trans hseq)
  have hlin := lineage_of_perm_cons hperm hnodup
    (fun x hx hxk => by rw [hseq]; exact hlast x hx (hxk.trans hekey))
  refine ⟨hlinked, hnodup, fun k => ?_⟩
  rw [hlin, hw.moved.findPosition_eq, hekey, hkey]
  split_ifs with hk
  · subst hk
    exact KeyInv.book hf (hs.keys _) hw.applied
  · exact hs.keys k

theorem Inv.lineage_sorted (hs : Inv marked base s) (k : PositionKey) :
    (lineage s.activeEffects k).Pairwise fun x y => x.logicalSequence < y.logicalSequence :=
  sortBy_pairwise_lt _ _ ((List.filter_sublist.map _).nodup hs.sequences)

variable {e : PortfolioExecutionEffect}

/-- No effect of the position comes after `e`. -/
def LastOf (s : PortfolioReplayState) (e : PortfolioExecutionEffect) : Prop :=
  ∀ x ∈ s.activeEffects, x.positionKey = e.positionKey → x ≠ e → x.logicalSequence < e.logicalSequence

theorem LastOf.lt_of_mem (hlast : LastOf s e) {x : PortfolioExecutionEffect}
    (hx : x ∈ withoutExecution s.activeEffects e.executionId) (hxk : x.positionKey = e.positionKey) :
    x.logicalSequence < e.logicalSequence := by
  rw [mem_withoutExecution] at hx
  refine hlast x hx.1 hxk ?_
  rintro rfl
  exact hx.2 rfl

theorem Inv.lineage_last (hs : Inv marked base s) (he : e ∈ s.activeEffects) (hlast : LastOf s e) :
    lineage s.activeEffects e.positionKey =
      lineage (withoutExecution s.activeEffects e.executionId) e.positionKey ++ [e] := by
  have hperm := withoutExecution_perm s.facts.nodup_executionIds he
  have hlin := lineage_of_perm_cons hperm hs.sequences (fun _ => hlast.lt_of_mem) e.positionKey
  rw [if_pos rfl] at hlin
  exact hlin

theorem Inv.before_last {p : PortfolioPositionState} (hs : Inv marked base s) (he : e ∈ s.activeEffects)
    (hlast : LastOf s e) (hp : findPosition s.snapshot.positions e.positionKey = some p) :
    p.quantity.value - e.quantityDelta.value = e.quantityBefore.value ∧
      costBasisBefore (withoutExecution s.activeEffects e.executionId) e.positionKey
        e.quantityBefore.value e.averageBefore = .ok ((base e.positionKey).account (fills (lineage
          (withoutExecution s.activeEffects e.executionId) e.positionKey))).basis := by
  have hk := hs.keys e.positionKey
  rw [hs.lineage_last he hlast] at hk
  have hend := hk.chain.last
  have hq := hk.quantity p hp
  rw [fills_append, fills_singleton, LotBase.account_concat] at hq
  refine ⟨Subtype.ext ?_, costBasisBefore_of_chain hk.chain.left hend.quantityBefore fun hnil => ?_⟩
  · push_cast
    rw [hq, hend.quantityDelta, hend.quantityBefore, Account.book_quantity]
    exact add_sub_cancel_right _ _
  · rw [hend.averageBefore, hnil]
    rfl

theorem removeEffect_inv {observedAt : DateTime}
    (h : removeEffect s e observedAt = .ok s') (hs : Inv marked base s) (he : e ∈ s.activeEffects)
    (hlast : LastOf s e) : Inv marked base s' := by
  have hlinked := removeEffect_linked h hs.linked
  obtain ⟨p, p', basis, unrealized, hr⟩ := removeEffect_spec h
  have hec := hs.linked.economics e he
  have hperm := withoutExecution_perm s.facts.nodup_executionIds he
  rw [← hr.effects] at hperm
  have hnodup : (s'.activeEffects.map (·.logicalSequence)).Nodup := by
    rw [hr.effects]
    exact (List.filter_sublist.map _).nodup hs.sequences
  have hlin := lineage_of_perm_cons hperm hs.sequences fun x hx => hlast.lt_of_mem (hr.effects ▸ hx)
  have hkey : p'.key = e.positionKey := by
    rw [hec.key, ← findPosition_key hr.position]
    unfold PortfolioPositionState.key
    rw [hr.next]
  refine ⟨hlinked, hnodup, fun k => ?_⟩
  have hk := hs.keys k
  rw [hlin] at hk
  rw [hr.moved.findPosition_eq, hkey]
  split_ifs at hk ⊢ with hek
  · subst hek
    exact hk.remove hr hec.key
  · exact hk

end TradingAgent.PortfolioReducer
