import TradingAgent.PortfolioReducer.Rebase

/-! What each kind of event touches. -/

namespace TradingAgent.PortfolioReducer

open Outcome

/-! ## Recording an event -/

structure Books (codec : Codec) (event : PortfolioEvent) (entry : Option PortfolioReconciliationEntry)
    (s s' : PortfolioReplayState) (ids : IdentityIndexes) : Prop where
  identities : businessIdentities codec s event = .ok ids
  cursor : s'.cursor = advancedCursor s.cursor event.streamId event.sequence
  appliedEvents : s'.appliedEvents = sortedApplied s.appliedEvents (appliedEvent codec event)
  executionIdentities : s'.executionIdentities = ids.execution
  fundingIdentities : s'.fundingIdentities = ids.funding
  reconciliationIdentities : s'.reconciliationIdentities = ids.reconciliation
  reconciliation : s'.reconciliation = entry.or s.reconciliation
  accountId : s'.snapshot.accountId = s.snapshot.accountId

section

variable {codec : Codec} {s t s' : PortfolioReplayState} {event : PortfolioEvent} {update : StateUpdate}

theorem nextState_account (h : nextState codec t event update = .ok s') :
    s'.snapshot = update.snapshot.getD t.snapshot ∧ s'.activeEffects = update.activeEffects.getD t.activeEffects := by
  unfold nextState at h
  simp only [bind_ok_iff, PortfolioReplayState.of_ok_iff] at h
  obtain ⟨ids, -, hs⟩ := h
  constructor <;> rw [hs]

theorem businessIdentities_congr (h : SameBooks s t) :
    businessIdentities codec t event = businessIdentities codec s event := by
  unfold businessIdentities
  rw [h.executionIdentities, h.fundingIdentities, h.reconciliationIdentities]

theorem nextState_books (h : nextState codec t event update = .ok s') (hbooks : SameBooks s t)
    (haccount : (update.snapshot.getD t.snapshot).accountId = s.snapshot.accountId) :
    ∃ ids, Books codec event update.reconciliation s s' ids := by
  have hsnap := (nextState_account h).1
  unfold nextState at h
  rw [businessIdentities_congr hbooks] at h
  simp only [bind_ok_iff, PortfolioReplayState.of_ok_iff] at h
  obtain ⟨ids, hids, hs⟩ := h
  refine ⟨ids, hids, ?_, ?_, ?_, ?_, ?_, ?_, by rw [hsnap, haccount]⟩
  · rw [hs, ← hbooks.cursor]
  · rw [hs, ← hbooks.appliedEvents]
  · rw [hs]
  · rw [hs]
  · rw [hs]
  · rw [hs, ← hbooks.reconciliation]

end

/-! ## Flows from outside -/

def fundings : PortfolioPayload → List Money
  | .funding entry => [entry.amount]
  | _ => []

def accountFundings : PortfolioPayload → List Money
  | .funding entry => if entry.strategyId = none then [entry.amount] else []
  | _ => []

def conversionTargets : PortfolioPayload → List Money
  | .conversion entry => [entry.conversion.target]
  | _ => []

def conversionSources : PortfolioPayload → List Money
  | .conversion entry => [entry.conversion.source]
  | _ => []

def cashFlow (payload : PortfolioPayload) (c : Currency) : Decimal :=
  Money.totalIn c (fundings payload) + Money.totalIn c (conversionTargets payload) -
    Money.totalIn c (conversionSources payload)

def Net.add (n : Net) (cash funding : Currency → Decimal) : Net :=
  { n with
    cash := fun c => n.cash c + cash c
    funding := fun c => n.funding c + funding c }

/-! ## Touched states -/

/-- The position after a mark or a funding: only mark, unrealized profit, funding and time may differ. -/
structure SamePosition (p p' : PortfolioPositionState) : Prop where
  key : p'.key = p.key
  definition : p'.instrumentDefinition = p.instrumentDefinition
  settlement : p'.settlementCurrency = p.settlementCurrency
  quantity : p'.quantity = p.quantity
  average : p'.averageEntryPrice = p.averageEntryPrice
  realizedPnl : p'.realizedPnl = p.realizedPnl
  fees : p'.fees = p.fees

theorem SamePosition.refl (p : PortfolioPositionState) : SamePosition p p :=
  ⟨rfl, rfl, rfl, rfl, rfl, rfl, rfl⟩

/-- The positions of two states are the same up to marks and funding. -/
structure SamePositions (ps ps' : List PortfolioPositionState) : Prop where
  find : ∀ k, Option.Rel SamePosition (findPosition ps k) (findPosition ps' k)
  totals : ∀ g : PortfolioPositionState → Decimal, (∀ p p', SamePosition p p' → g p' = g p) →
    (ps'.map g).sum = (ps.map g).sum

theorem SamePositions.refl (ps : List PortfolioPositionState) : SamePositions ps ps := by
  refine ⟨fun k => ?_, fun _ _ => rfl⟩
  cases findPosition ps k with
  | none => exact .none
  | some p => exact .some (SamePosition.refl p)

variable {ps : List PortfolioPositionState}

theorem SamePositions.of_forall₂ {ps' : List PortfolioPositionState}
    (h : List.Forall₂ SamePosition ps ps') : SamePositions ps ps' :=
  ⟨lookupBy_forall₂ (fun _ _ hp => hp.key) h, fun g hg => by rw [map_eq_of_forall₂ hg h]⟩

variable {p p' : PortfolioPositionState}

theorem SamePositions.of_replace {w : PortfolioWorkingSnapshot}
    (hp : findPosition w.positions p'.key = some p) (h : SamePosition p p') :
    SamePositions w.positions (replacePosition w.positions p') := by
  have hn := w.facts.nodup_keys
  refine ⟨fun k => ?_, fun g hg => ?_⟩
  · unfold findPosition at hp ⊢
    unfold replacePosition
    rw [lookupBy_replaceBy hn]
    split_ifs with hk
    · rw [← hk, hp]
      exact .some h
    · exact (SamePositions.refl w.positions).find k
  · unfold findPosition at hp
    unfold replacePosition
    rw [sum_replaceBy hn, hp]
    simp [hg p p' h]

/-- `b'` is `b` with a delta added to each column and to the funding. -/
structure Credited (delta : BalanceDelta) (funding : Decimal) (b b' : AccountBalanceSnapshot) :
    Prop where
  amounts : ∀ column, balanceAmount b' column = balanceAmount b column + delta column
  funding : b'.funding.amount = b.funding.amount + funding
  lockedFunds : b'.lockedFunds = b.lockedFunds
  marginUsed : b'.marginUsed = b.marginUsed

theorem Credited.refl (b : AccountBalanceSnapshot) : Credited (fun _ => 0) 0 b b :=
  ⟨fun _ => (add_zero _).symm, (add_zero _).symm, rfl, rfl⟩

/-- An event that keeps the effects and the lots of all positions. -/
structure Touched (s s' : PortfolioReplayState) (delta : Currency → BalanceDelta)
    (funding : Currency → Decimal) : Prop where
  effects : s'.activeEffects = s.activeEffects
  positions : SamePositions s.snapshot.positions s'.snapshot.positions
  balances : ∀ c, Option.Rel (Credited (delta c) (funding c)) (balanceOf s.snapshot.balances c)
    (balanceOf s'.snapshot.balances c)
  absent : ∀ c, balanceOf s.snapshot.balances c = none → delta c = (fun _ => 0) ∧ funding c = 0

section Touched

variable {s s' : PortfolioReplayState} {delta : Currency → BalanceDelta} {funding : Currency → Decimal}

variable (h : Touched s s' delta funding)
include h

theorem Touched.hasBalance (c : Currency) :
    (balanceOf s'.snapshot.balances c).isSome = (balanceOf s.snapshot.balances c).isSome := by
  have hc := h.balances c
  generalize balanceOf s.snapshot.balances c = b at hc ⊢
  generalize balanceOf s'.snapshot.balances c = b' at hc ⊢
  cases hc <;> rfl

theorem Touched.amountIn_eq (c : Currency) (column : BalanceColumn) :
    amountIn s' c column = amountIn s c column + delta c column := by
  have hc := h.balances c
  have hz := h.absent c
  unfold amountIn
  generalize balanceOf s.snapshot.balances c = b at hc hz ⊢
  generalize balanceOf s'.snapshot.balances c = b' at hc ⊢
  cases hc with
  | none => simp [(hz rfl).1]
  | some hstep => exact hstep.amounts column

theorem Touched.funding_eq (c : Currency) : heldIn s' c (·.funding) = heldIn s c (·.funding) + funding c := by
  have hc := h.balances c
  have hz := h.absent c
  unfold heldIn
  generalize balanceOf s.snapshot.balances c = b at hc hz ⊢
  generalize balanceOf s'.snapshot.balances c = b' at hc ⊢
  cases hc with
  | none => simp [(hz rfl).2]
  | some hstep => exact hstep.funding

theorem Touched.heldIn_eq (c : Currency) (f : AccountBalanceSnapshot → Money)
    (hf : ∀ δ x b b', Credited δ x b b' → f b' = f b) : heldIn s' c f = heldIn s c f := by
  have hc := h.balances c
  unfold heldIn
  generalize balanceOf s.snapshot.balances c = b at hc ⊢
  generalize balanceOf s'.snapshot.balances c = b' at hc ⊢
  cases hc with
  | none => rfl
  | some hstep => simp [hf _ _ _ _ hstep]

variable {k : PositionKey}

theorem Touched.position (hp : findPosition s.snapshot.positions k = some p) :
    ∃ p', findPosition s'.snapshot.positions k = some p' ∧ SamePosition p p' := by
  have hk := h.positions.find k
  rw [hp] at hk
  generalize findPosition s'.snapshot.positions k = x at hk ⊢
  cases hk with
  | some hsame => exact ⟨_, rfl, hsame⟩

theorem Touched.position_of (hp : findPosition s'.snapshot.positions k = some p') :
    ∃ p, findPosition s.snapshot.positions k = some p ∧ SamePosition p p' := by
  have hk := h.positions.find k
  rw [hp] at hk
  generalize findPosition s.snapshot.positions k = x at hk ⊢
  cases hk with
  | some hsame => exact ⟨_, rfl, hsame⟩

theorem Touched.linked (hs : Linked s) : Linked s' := by
  refine ⟨?_, ?_, ?_, ?_, ?_⟩
  · rw [h.effects]
    exact hs.economics
  · rw [h.effects]
    exact hs.status
  · rw [h.effects]
    intro e he
    obtain ⟨p, hp, hd⟩ := hs.position e he
    obtain ⟨p', hp', hsame⟩ := h.position hp
    exact ⟨p', hp', hsame.definition.trans hd⟩
  · rw [h.effects]
    intro e he p' hp'
    obtain ⟨p, hp, hsame⟩ := h.position_of hp'
    rw [hsame.quantity]
    exact hs.precision e he p hp
  · rw [h.effects]
    intro e he m hm
    rw [h.hasBalance]
    exact hs.balance e he m hm

def Revalued (base : PositionKey → LotBase) (s s' : PortfolioReplayState) : Prop :=
  ∀ k, ∀ p' ∈ findPosition s'.snapshot.positions k,
    p'.unrealizedPnl.amount = unrealizedOf p'.settlementCurrency p'.mark p'.instrumentDefinition
      ((base k).account (fills (lineage s.activeEffects k))).quantity
      ((base k).account (fills (lineage s.activeEffects k))).basis

theorem Touched.inv {marked : Prop} {base : PositionKey → LotBase} (hs : Inv marked base s)
    (hunrealized : marked → Revalued base s s') : Inv marked base s' := by
  refine ⟨h.linked hs.linked, by rw [h.effects]; exact hs.sequences, fun k => ?_⟩
  rw [h.effects]
  have hk := hs.keys k
  refine ⟨hk.chain, fun hnone => ?_, fun p' hp' => ?_, fun p' hp' => ?_, fun hm => hunrealized hm k⟩
  · apply hk.missing
    cases hf : findPosition s.snapshot.positions k with
    | none => rfl
    | some p =>
      obtain ⟨p', hp', -⟩ := h.position hf
      rw [hnone] at hp'
      cases hp'
  · obtain ⟨p, hp, hsame⟩ := h.position_of hp'
    rw [hsame.quantity]
    exact hk.quantity p hp
  · obtain ⟨p, hp, hsame⟩ := h.position_of hp'
    rw [hsame.average]
    exact hk.average p hp

theorem Touched.positionTotal_eq (c : Currency) (column : PositionColumn)
    (hc : ∀ p p', SamePosition p p' → column.money p' = column.money p) :
    positionTotal s' c column = positionTotal s c column := by
  refine h.positions.totals _ fun p p' hsame => ?_
  rw [hsame.settlement, hc p p' hsame]

theorem Touched.positionAmount_eq (k : PositionKey) (column : PositionColumn)
    (hc : ∀ p p', SamePosition p p' → column.money p' = column.money p) :
    positionAmount s' k column = positionAmount s k column := by
  have hk := h.positions.find k
  unfold positionAmount
  generalize findPosition s.snapshot.positions k = x at hk ⊢
  generalize findPosition s'.snapshot.positions k = y at hk ⊢
  cases hk with
  | none => rfl
  | some hsame => simp [hc _ _ hsame]

theorem Touched.net_eq {external : Currency → Decimal} (hrealized : ∀ c, delta c .realizedPnl = 0)
    (hfees : ∀ c, delta c .fees = 0)
    (hunrealized : ∀ c, positionTotal s' c .unrealizedPnl = positionTotal s c .unrealizedPnl + delta c .unrealizedPnl)
    (hfunding : ∀ c, positionTotal s' c .funding + external c = positionTotal s c .funding + funding c) :
    net s' = (net s).add (fun c => delta c .cash) external := by
  have hreal : ∀ p p', SamePosition p p' → PositionColumn.realizedPnl.money p' = PositionColumn.realizedPnl.money p :=
    fun p p' hsame => hsame.realizedPnl
  have hfee : ∀ p p', SamePosition p p' → PositionColumn.fees.money p' = PositionColumn.fees.money p :=
    fun p p' hsame => hsame.fees
  ext1
  · exact funext h.hasBalance
  · funext c
    simp only [net, Net.add, effectTotal]
    rw [h.amountIn_eq, h.effects]
    ring
  · funext c
    simp only [net, Net.add]
    rw [h.amountIn_eq, hrealized, h.positionTotal_eq c .realizedPnl hreal, add_zero]
  · funext c
    simp only [net, Net.add, effectTotal]
    rw [h.amountIn_eq, hrealized, h.effects, add_zero]
  · funext c
    simp only [net, Net.add]
    rw [h.amountIn_eq, hunrealized]
    ring
  · funext c
    simp only [net, Net.add, effectTotal]
    rw [h.amountIn_eq, hfees, h.effects, add_zero]
  · funext c
    have hc := hfunding c
    simp only [net, Net.add]
    rw [h.funding_eq, ← sub_eq_zero]
    rw [← sub_eq_zero] at hc
    rw [← neg_eq_zero, ← hc]
    ring
  · funext c
    exact h.heldIn_eq c _ fun δ x b b' hb => hb.lockedFunds
  · funext c
    exact h.heldIn_eq c _ fun δ x b b' hb => hb.marginUsed
  · funext k
    simp only [net, Net.add, keyTotal]
    rw [h.positionAmount_eq k .realizedPnl hreal, h.effects]
  · funext k
    simp only [net, Net.add, keyTotal]
    rw [h.positionAmount_eq k .fees hfee, h.effects]

end Touched

/-! ## Marks -/

structure MarkOf (s : PortfolioReplayState) (p p' : PortfolioPositionState) : Prop where
  same : SamePosition p p'
  funding : p'.funding = p.funding
  revalued : p' = p ∨ ∃ basis,
    costBasisBefore s.activeEffects p.key p.quantity.value p.averageEntryPrice = .ok basis ∧
    p'.unrealizedPnl.amount = unrealizedOf p'.settlementCurrency p'.mark p'.instrumentDefinition
      p.quantity.value basis

def collectedIn (d : Dict Currency Decimal) (c : Currency) : Decimal := (d.get? c).getD 0

def unrealizedIn (c : Currency) (p : PortfolioPositionState) : Decimal :=
  if p.settlementCurrency = c then p.unrealizedPnl.amount else 0

section Mark

variable {s : PortfolioReplayState} {entry : PortfolioMarkEntry}
  {acc acc' : List PortfolioPositionState × Dict Currency Decimal}

theorem markPosition_spec (h : markPosition s entry acc p = .ok acc') : ∃ p', MarkOf s p p' ∧ acc'.1 = acc.1 ++ [p'] ∧
      (∀ c, collectedIn acc'.2 c = collectedIn acc.2 c + (unrealizedIn c p' - unrealizedIn c p)) ∧
      (acc.2.keys.Nodup → acc'.2.keys.Nodup) := by
  unfold markPosition at h
  split_ifs at h with hskip
  · obtain rfl := Except.ok.inj h
    exact ⟨p, ⟨SamePosition.refl p, rfl, .inl rfl⟩, rfl, by simp, id⟩
  · simp only [bind_ok_iff, require_ok_iff, exists_const, sum_eq, Except.ok.injEq, exists_eq_left',
      PortfolioPositionState.of_ok_iff, List.sum_cons, List.sum_nil, add_zero, pure_eq_ok] at h
    obtain ⟨-, -, -, basis, hbasis, marked, hmarked, p', hp', rfl⟩ := h
    obtain ⟨hmark, -, hamount⟩ := markAndUnrealized_spec hmarked
    have hset : p'.settlementCurrency = p.settlementCurrency := by rw [hp']
    have hun : p'.unrealizedPnl = marked.2 := by rw [hp']
    refine ⟨p', ⟨?_, ?_, .inr ⟨basis, hbasis, ?_⟩⟩, rfl, fun c => ?_, Dict.nodup_keys_set _ _ _⟩
    · constructor <;> simp [PortfolioPositionState.key, hp']
    · rw [hp']
    · have hm : marked.1 = some entry.mark := by
        rw [hmark, keptMark, if_neg fun h0 => hskip (.inr h0)]
        rfl
      have hmk : p'.mark = some entry.mark := by rw [hp']
      have hdef : p'.instrumentDefinition = p.instrumentDefinition := by rw [hp']
      rw [hun, hamount, hset, hmk, hdef, hm]
    · unfold collectedIn unrealizedIn
      rw [Dict.get?_set, hset, hun]
      split_ifs with hc
      · simp [hc, sub_eq_add_neg]
      · simp

theorem foldlM_markPosition (h : ps.foldlM (markPosition s entry) acc = .ok acc') :
    ∃ ps', List.Forall₂ (MarkOf s) ps ps' ∧ acc'.1 = acc.1 ++ ps' ∧ (∀ c, collectedIn acc'.2 c = collectedIn acc.2 c +
        ((ps'.map (unrealizedIn c)).sum - (ps.map (unrealizedIn c)).sum)) ∧ (acc.2.keys.Nodup → acc'.2.keys.Nodup) := by
  induction ps generalizing acc with
  | nil =>
    obtain rfl := Except.ok.inj h
    exact ⟨[], .nil, by simp, by simp, id⟩
  | cons p ps ih =>
    rw [List.foldlM_cons, bind_ok_iff] at h
    obtain ⟨mid, hmid, h⟩ := h
    obtain ⟨p', hp', hpos, hcol, hnod⟩ := markPosition_spec hmid
    obtain ⟨ps', hps', hpos', hcol', hnod'⟩ := ih h
    refine ⟨p' :: ps', .cons hp' hps', by rw [hpos', hpos]; simp, fun c => ?_, hnod' ∘ hnod⟩
    rw [hcol', hcol]
    simp only [List.map_cons, List.sum_cons]
    ring

theorem totalIn_collected {d : Dict Currency Decimal} (hd : d.keys.Nodup) {field : String} {ms : List Money}
    (h : ((sortBy (·.1.code) d).filter fun e => e.2 ≠ 0).mapM (fun e => money e.2 e.1 field) = .ok ms) (c : Currency) :
    Money.totalIn c ms = collectedIn d c := by
  have hsum : ∀ (entries : List (Currency × Decimal)) (ms : List Money),
      List.Forall₂ (fun e m => money e.2 e.1 field = .ok m) entries ms →
      Money.totalIn c ms = (entries.map fun e => if e.1 = c then e.2 else 0).sum := by
    intro entries ms hms
    induction hms with
    | nil => rfl
    | cons hm _ ih =>
      obtain ⟨ha, hc⟩ := money_ok_iff.1 hm
      rw [Money.totalIn_cons, List.map_cons, List.sum_cons, ih, ha, hc]
  have hfilter : ∀ entries : List (Currency × Decimal),
      ((entries.filter fun e => e.2 ≠ 0).map fun e => if e.1 = c then e.2 else 0).sum =
        (entries.map fun e => if e.1 = c then e.2 else 0).sum := by
    intro entries
    induction entries with
    | nil => rfl
    | cons e entries ih =>
      by_cases he : e.2 = 0
      · rw [List.filter_cons_of_neg (by simpa using he), ih]
        simp [he]
      · rw [List.filter_cons_of_pos (by simpa using he), List.map_cons, List.map_cons, List.sum_cons,
          List.sum_cons, ih]
  rw [hsum _ _ (mapM_ok_iff.1 h), hfilter, ((sortBy_perm _ d).map _).sum_eq]
  unfold collectedIn
  clear h hsum hfilter
  induction d with
  | nil => rfl
  | cons e d ih =>
    obtain ⟨c', x⟩ := e
    rw [Dict.keys_cons, List.nodup_cons] at hd
    rw [List.map_cons, List.sum_cons, ih hd.2, Dict.get?_cons]
    split_ifs with hc
    · subst hc
      rw [(Dict.get?_eq_none_iff d c').2 hd.1]
      simp
    · simp

end Mark

/-! ## The five events -/

structure TouchStep (codec : Codec) (event : PortfolioEvent) (payload : PortfolioPayload)
    (s s' : PortfolioReplayState) : Prop where
  books : ∃ ids, Books codec event none s s' ids
  touched : ∃ delta funding, Touched s s' delta funding
  net : net s' = (net s).add (cashFlow payload) fun c => Money.totalIn c (accountFundings payload)
  revalued : ∀ base, Inv True base s → Revalued base s s'

section

variable {codec : Codec} {event : PortfolioEvent} {payload : PortfolioPayload}
  {s s' : PortfolioReplayState}

theorem TouchStep.linked (h : TouchStep codec event payload s s') (hs : Linked s) : Linked s' := by
  obtain ⟨delta, funding, ht⟩ := h.touched
  exact ht.linked hs

theorem TouchStep.inv {marked : Prop} {base : PositionKey → LotBase}
    (h : TouchStep codec event payload s s') (hs : Inv marked base s) : Inv marked base s' := by
  obtain ⟨delta, funding, ht⟩ := h.touched
  refine ht.inv hs fun hm => h.revalued base ⟨hs.linked, hs.sequences, fun k => ?_⟩
  have hk := hs.keys k
  exact ⟨hk.chain, hk.missing, hk.quantity, hk.average, fun _ => hk.unrealized hm⟩

end

variable {codec : Codec} {s s' : PortfolioReplayState} {event : PortfolioEvent}

theorem revalued_of_kept {base : PositionKey → LotBase} (hs : Inv True base s)
    (h : ∀ k, ∀ p' ∈ findPosition s'.snapshot.positions k, ∃ p ∈ findPosition s.snapshot.positions k,
      p'.unrealizedPnl = p.unrealizedPnl ∧ p'.mark = p.mark ∧
      p'.settlementCurrency = p.settlementCurrency ∧ p'.instrumentDefinition = p.instrumentDefinition) :
    Revalued base s s' := by
  intro k p' hp'
  obtain ⟨p, hp, hu, hm, hc, hd⟩ := h k p' hp'
  rw [hu, hm, hc, hd]
  exact (hs.keys k).unrealized trivial p hp

theorem applyMark_touch {entry : PortfolioMarkEntry} (h : applyMark codec s event entry = .ok s') :
    TouchStep codec event (.mark entry) s s' := by
  unfold applyMark at h
  simp only [bind_ok_iff, require_ok_iff, exists_const, PortfolioWorkingSnapshot.of_ok_iff] at h
  obtain ⟨-, -, marked, hmarked, deltas, hdeltas, balances, hb, w, hw, hnext⟩ := h
  obtain ⟨hsnap, heff⟩ := nextState_account hnext
  simp only [Option.getD_some, Option.getD_none] at hsnap heff
  obtain ⟨ps', hps', hpos, hcol, hnod⟩ := foldlM_markPosition hmarked
  obtain ⟨hstep, hhas⟩ := applyBalances_spec s.snapshot.facts.nodup_currencies hb
  rw [List.nil_append] at hpos
  have hwpos : s'.snapshot.positions = ps' := by rw [hsnap, hw, hpos]
  have hwbal : s'.snapshot.balances = balances := by rw [hsnap, hw]
  have hsame : List.Forall₂ SamePosition s.snapshot.positions ps' := hps'.imp fun _ _ hm => hm.same
  have htotal := totalIn_collected (hnod List.nodup_nil) hdeltas
  set total : Currency → BalanceDelta := BalanceDeltas.total ⟨[], [], [], deltas⟩ with htot
  have ht : Touched s s' total fun _ => 0 := by
    refine ⟨heff, by rw [hwpos]; exact SamePositions.of_forall₂ hsame, fun c => ?_, fun c hnone => ?_⟩
    · rw [hwbal]
      have hc := hstep c
      generalize balanceOf s.snapshot.balances c = b at hc ⊢
      generalize balanceOf balances c = b' at hc ⊢
      cases hc with
      | none => exact .none
      | some hstep => exact .some ⟨hstep.amounts, by rw [hstep.funding, add_zero], hstep.lockedFunds,
          hstep.marginUsed⟩
    · refine ⟨funext fun column => totalIn_eq_zero fun m hm hmc => ?_, rfl⟩
      have := hhas column m hm
      rw [hmc, hnone] at this
      exact absurd this (by simp)
  have hbooks := nextState_books hnext (SameBooks.refl s) (by rw [Option.getD_some, hw])
  refine ⟨hbooks, ⟨_, _, ht⟩, ?_, fun base hs k p' hp' => ?_⟩
  · have hfunding : ∀ c, positionTotal s' c .funding = positionTotal s c .funding := by
      intro c
      unfold positionTotal
      rw [hwpos, map_eq_of_forall₂ (fun p p' hm => ?_) hps']
      rw [hm.same.settlement]
      simp only [PositionColumn.money, hm.funding]
    have hunrealized : ∀ c, positionTotal s' c .unrealizedPnl =
        positionTotal s c .unrealizedPnl + total c .unrealizedPnl := by
      intro c
      change _ = _ + Money.totalIn c deltas
      rw [htotal, hcol]
      unfold positionTotal
      rw [hwpos]
      change (ps'.map (unrealizedIn c)).sum = (s.snapshot.positions.map (unrealizedIn c)).sum +
        (0 + ((ps'.map (unrealizedIn c)).sum - (s.snapshot.positions.map (unrealizedIn c)).sum))
      ring
    have hnet := @Touched.net_eq _ _ _ _ ht (fun _ => 0) (fun _ => rfl) (fun _ => rfl) hunrealized
      fun c => by rw [hfunding]
    rw [hnet]
    congr 1
    funext c
    simp [cashFlow, fundings, conversionTargets, conversionSources, htot, BalanceDeltas.total, BalanceDeltas.column]
  · obtain ⟨p, hp, hpp⟩ := ht.position_of hp'
    have hk := hs.keys k
    have hq := hk.quantity p hp
    have hm : MarkOf s p p' := by
      have hrel := @lookupBy_forall₂ _ _ _ _ PortfolioPositionState.key
        (fun _ _ h => h.same.key) _ _ hps' k
      unfold findPosition at hp hp'
      rw [hwpos] at hp'
      rw [hp, hp'] at hrel
      cases hrel with
      | some hm => exact hm
    rcases hm.revalued with rfl | ⟨basis, hbasis, hu⟩
    · exact hk.unrealized trivial p' hp
    · rw [hu, hq]
      congr 1
      rw [findPosition_key hp] at hbasis
      rw [costBasisBefore_of_chain hk.chain hq fun he => by
        rw [hk.average p hp, he]
        rfl] at hbasis
      exact (Except.ok.inj hbasis).symm

/-- A dictionary of balances that differs from the stored ones by some updates. -/
structure BalanceDict (d : Dict Currency AccountBalanceSnapshot) : Prop where
  keyed : d.Keyed fun b => b.currency
  nodup : d.keys.Nodup

theorem balanceDict_byCurrency (balances : List AccountBalanceSnapshot) : BalanceDict (balancesByCurrency balances) :=
  ⟨Dict.keyed_byKey _ _, Dict.nodup_keys_byKey _ _⟩

variable {d : Dict Currency AccountBalanceSnapshot} {b : AccountBalanceSnapshot}

theorem BalanceDict.set (h : BalanceDict d) {c : Currency} (hb : b.currency = c) : BalanceDict (d.set c b) :=
  ⟨h.keyed.set hb, Dict.nodup_keys_set _ _ _ h.nodup⟩

theorem BalanceDict.balanceOf_eq (h : BalanceDict d)
    (c : Currency) : balanceOf (Dict.valuesBy Currency.code d) c = d.get? c :=
  Dict.lookupBy_valuesBy h.keyed h.nodup c

theorem balancesByCurrency_get? (w : PortfolioWorkingSnapshot) (c : Currency) :
    (balancesByCurrency w.balances).get? c = balanceOf w.balances c :=
  Dict.get?_byKey w.facts.nodup_currencies c

def cashOnly (amount : Decimal) : BalanceDelta := Function.update (fun _ => 0) .cash amount

theorem updatedBalance_spec {b' : AccountBalanceSnapshot} {cash funding : Decimal}
    {observedAt : DateTime} (h : updatedBalance b cash funding observedAt = .ok b') :
    Credited (cashOnly cash) funding b b' ∧ b'.currency = b.currency := by
  unfold updatedBalance at h
  simp only [bind_ok_iff, sum_eq, Except.ok.injEq, exists_eq_left', money_ok_iff,
    AccountBalanceSnapshot.of_ok_iff, List.sum_cons, List.sum_nil, add_zero] at h
  obtain ⟨m, ⟨hm, -⟩, f, ⟨hf, -⟩, hb⟩ := h
  refine ⟨⟨fun column => ?_, ?_, ?_, ?_⟩, ?_⟩
  · cases column <;> simp [balanceAmount, cashOnly, hb, hm]
  · rw [hb]
    exact hf
  · rw [hb]
  · rw [hb]
  · rw [hb]

variable {entry : PortfolioFundingEntry}

theorem fundedPositions_spec (h : fundedPositions s entry = .ok ps) : SamePositions s.snapshot.positions ps ∧
      (∀ k, ∀ p' ∈ findPosition ps k, ∃ p ∈ findPosition s.snapshot.positions k,
        p'.unrealizedPnl = p.unrealizedPnl ∧ p'.mark = p.mark ∧
        p'.settlementCurrency = p.settlementCurrency ∧
        p'.instrumentDefinition = p.instrumentDefinition) ∧
      (∀ c, (ps.map (unrealizedIn c)).sum = (s.snapshot.positions.map (unrealizedIn c)).sum) ∧
      ∀ c, (ps.map fun p => if p.settlementCurrency = c then p.funding.amount else 0).sum +
          Money.totalIn c (accountFundings (.funding entry)) =
        (s.snapshot.positions.map fun p => if p.settlementCurrency = c then p.funding.amount else 0).sum +
          Money.totalIn c [entry.amount] := by
  unfold fundedPositions at h
  cases hstrategy : entry.strategyId with
  | none =>
    rw [hstrategy] at h
    obtain rfl := Except.ok.inj h
    refine ⟨SamePositions.refl _, fun k p hp => ⟨p, hp, rfl, rfl, rfl, rfl⟩, fun _ => rfl, fun c => ?_⟩
    simp [accountFundings, hstrategy]
  | some strategyId =>
    rw [hstrategy] at h
    cases hinstrument : entry.instrument with
    | none => simp [hinstrument] at h
    | some instrument =>
      rw [hinstrument] at h
      simp only at h
      cases hp : findPosition s.snapshot.positions (positionKey strategyId instrument.canonical) with
      | none => simp [hp] at h
      | some p =>
        rw [hp] at h
        simp only [bind_ok_iff, Except.ok.injEq] at h
        obtain ⟨p', hp', rfl⟩ := h
        unfold fundedPosition at hp'
        simp only [bind_ok_iff, require_ok_iff, exists_const, sum_eq, Except.ok.injEq, exists_eq_left',
          money_ok_iff, PortfolioPositionState.of_ok_iff, List.sum_cons, List.sum_nil, add_zero] at hp'
        obtain ⟨hcurrency, m, ⟨hm, -⟩, hp'⟩ := hp'
        have hkey : p'.key = p.key := by
          unfold PortfolioPositionState.key
          rw [hp']
        have hfound : findPosition s.snapshot.positions p'.key = some p := by
          rw [hkey, findPosition_key hp, hp]
        have hfund : p'.funding.amount = p.funding.amount + entry.amount.amount := by
          rw [hp']
          exact hm
        have hset : p'.settlementCurrency = p.settlementCurrency := by rw [hp']
        have hun : p'.unrealizedPnl = p.unrealizedPnl := by rw [hp']
        have hn := s.snapshot.facts.nodup_keys
        refine ⟨SamePositions.of_replace hfound ?_, fun k q hq => ?_, fun c => ?_, fun c => ?_⟩
        · constructor <;> simp [PortfolioPositionState.key, hp']
        · unfold findPosition replacePosition at hq
          rw [lookupBy_replaceBy hn] at hq
          split_ifs at hq with hk
          · obtain rfl := Option.mem_some_iff.1 hq
            exact ⟨p, by rw [← hk, hfound]; rfl, by rw [hp'], by rw [hp'], by rw [hp'], by rw [hp']⟩
          · exact ⟨q, hq, rfl, rfl, rfl, rfl⟩
        · unfold findPosition at hfound
          unfold replacePosition
          rw [sum_replaceBy hn, hfound]
          simp [unrealizedIn, hset, hun]
        · unfold findPosition at hfound
          unfold replacePosition
          rw [sum_replaceBy hn, hfound]
          simp only [accountFundings, hstrategy, Option.elim_some, hset, hfund, Money.totalIn_cons,
            Money.totalIn_nil, hcurrency, reduceCtorEq, if_false]
          split_ifs
          · ring
          · ring

theorem applyFunding_touch
    (h : applyFunding codec s event entry = .ok s') : TouchStep codec event (.funding entry) s s' := by
  unfold applyFunding at h
  simp only [balancesByCurrency_get?] at h
  cases hb : balanceOf s.snapshot.balances entry.amount.currency with
  | none => simp [hb] at h
  | some b =>
    rw [hb] at h
    simp only [bind_ok_iff, PortfolioWorkingSnapshot.of_ok_iff] at h
    obtain ⟨ps, hps, b', hb', w, hw, hnext⟩ := h
    obtain ⟨hsnap, heff⟩ := nextState_account hnext
    simp only [Option.getD_some, Option.getD_none] at hsnap heff
    obtain ⟨hsame, hkept, hunrealized, hfunding⟩ := fundedPositions_spec hps
    obtain ⟨hcredited, hcur⟩ := updatedBalance_spec hb'
    have hbc : b.currency = entry.amount.currency := (lookupBy_some hb).2
    have hpos : s'.snapshot.positions = ps := by rw [hsnap, hw]
    have hbal : ∀ c, balanceOf s'.snapshot.balances c =
        if entry.amount.currency = c then some b' else balanceOf s.snapshot.balances c := by
      intro c
      rw [hsnap, hw, ((balanceDict_byCurrency _).set (hcur.trans hbc)).balanceOf_eq, Dict.get?_set,
        balancesByCurrency_get?]
    have ht : Touched s s'
        (fun c => cashOnly (Money.totalIn c [entry.amount])) fun c => Money.totalIn c [entry.amount] := by
      refine ⟨heff, by rw [hpos]; exact hsame, fun c => ?_, fun c hnone => ?_⟩
      · rw [hbal]
        split_ifs with hc
        · subst hc
          rw [hb]
          refine .some ?_
          simpa [Money.totalIn_cons] using hcredited
        · simp only [Money.totalIn_cons, hc, if_false, Money.totalIn_nil, add_zero]
          cases balanceOf s.snapshot.balances c with
          | none => exact .none
          | some x => exact .some (by simpa [cashOnly] using Credited.refl x)
      · have hc : entry.amount.currency ≠ c := by
          rintro rfl
          rw [hb] at hnone
          cases hnone
        simp [Money.totalIn_cons, hc, cashOnly]
    have hbooks := nextState_books hnext (SameBooks.refl s) (by rw [Option.getD_some, hw])
    refine ⟨hbooks, ⟨_, _, ht⟩, ?_, fun base hs => revalued_of_kept hs (by rw [hpos]; exact hkept)⟩
    have hnet := @Touched.net_eq _ _ _ _ ht (fun c => Money.totalIn c (accountFundings (.funding entry)))
      (fun _ => rfl) (fun _ => rfl) ?_ ?_
    · rw [hnet]
      congr 1
      funext c
      simp [cashFlow, fundings, conversionTargets, conversionSources, cashOnly]
    · intro c
      unfold positionTotal
      rw [hpos]
      exact (hunrealized c).trans (add_zero _).symm
    · intro c
      unfold positionTotal
      rw [hpos]
      exact hfunding c

theorem applyConversion_touch {entry : PortfolioConversionEntry}
    (h : applyConversion codec s event entry = .ok s') : TouchStep codec event (.conversion entry) s s' := by
  unfold applyConversion at h
  simp only [balancesByCurrency_get?, bind_ok_iff, require_ok_iff, exists_const] at h
  obtain ⟨-, h⟩ := h
  cases hsource : balanceOf s.snapshot.balances entry.conversion.source.currency with
  | none => simp [hsource] at h
  | some source =>
    cases htarget : balanceOf s.snapshot.balances entry.conversion.target.currency with
    | none => simp [hsource, htarget] at h
    | some target =>
      rw [hsource, htarget] at h
      simp only [bind_ok_iff, require_ok_iff, exists_const, PortfolioWorkingSnapshot.of_ok_iff] at h
      obtain ⟨-, debited, hd, credited, hc, w, hw, hnext⟩ := h
      obtain ⟨hsnap, heff⟩ := nextState_account hnext
      simp only [Option.getD_some, Option.getD_none] at hsnap heff
      obtain ⟨hdebit, hdcur⟩ := updatedBalance_spec hd
      obtain ⟨hcredit, hccur⟩ := updatedBalance_spec hc
      have hsc : source.currency = entry.conversion.source.currency := (lookupBy_some hsource).2
      have htc : target.currency = entry.conversion.target.currency := (lookupBy_some htarget).2
      have hne : entry.conversion.source.currency ≠ entry.conversion.target.currency := by
        rw [entry.conversion.target_currency]
        exact entry.conversion.crossCurrency
      have hpos : s'.snapshot.positions = s.snapshot.positions := by rw [hsnap, hw]
      have hbal : ∀ c, balanceOf s'.snapshot.balances c =
          if entry.conversion.target.currency = c then some credited
          else if entry.conversion.source.currency = c then some debited
          else balanceOf s.snapshot.balances c := by
        intro c
        rw [hsnap, hw, (((balanceDict_byCurrency _).set hdcur).set hccur).balanceOf_eq, Dict.get?_set,
          Dict.get?_set, balancesByCurrency_get?, hsc, htc]
      have ht : Touched s s' (fun c => cashOnly (cashFlow (.conversion entry) c)) fun _ => 0 := by
        refine ⟨heff, by rw [hpos]; exact SamePositions.refl _, fun c => ?_, fun c hnone => ?_⟩
        · rw [hbal]
          split_ifs with h1 h2
          · subst h1
            rw [htarget]
            refine .some ?_
            simpa [cashFlow, fundings, conversionTargets, conversionSources, Money.totalIn_cons, hne]
              using hcredit
          · subst h2
            rw [hsource]
            refine .some ?_
            simpa [cashFlow, fundings, conversionTargets, conversionSources, Money.totalIn_cons, h1]
              using hdebit
          · cases balanceOf s.snapshot.balances c with
            | none => exact .none
            | some x =>
              refine .some ?_
              simpa [cashFlow, fundings, conversionTargets, conversionSources, Money.totalIn_cons, h1,
                h2, cashOnly] using Credited.refl x
        · have h1 : entry.conversion.target.currency ≠ c := by
            rintro rfl
            rw [htarget] at hnone
            cases hnone
          have h2 : entry.conversion.source.currency ≠ c := by
            rintro rfl
            rw [hsource] at hnone
            cases hnone
          simp [cashFlow, fundings, conversionTargets, conversionSources, Money.totalIn_cons, h1, h2, cashOnly]
      have hbooks := nextState_books hnext (SameBooks.refl s) (by rw [Option.getD_some, hw])
      refine ⟨hbooks, ⟨_, _, ht⟩, ?_, fun base hs => revalued_of_kept hs ?_⟩
      · rw [@Touched.net_eq _ _ _ _ ht (fun _ => 0) (fun _ => rfl) (fun _ => rfl) ?_ ?_]
        · congr 1
        · intro c
          unfold positionTotal
          rw [hpos]
          exact (add_zero _).symm
        · intro c
          unfold positionTotal
          rw [hpos]
      · rw [hpos]
        exact fun k p hp => ⟨p, hp, rfl, rfl, rfl, rfl⟩

theorem touchStep_of_eq {payload : PortfolioPayload} (hbooks : ∃ ids, Books codec event none s s' ids)
    (hbalances : s'.snapshot.balances = s.snapshot.balances) (hpositions : s'.snapshot.positions = s.snapshot.positions)
    (heffects : s'.activeEffects = s.activeEffects) (hcash : cashFlow payload = fun _ => 0)
    (hfunding : (fun c => Money.totalIn c (accountFundings payload)) = fun _ => 0) :
    TouchStep codec event payload s s' := by
  have ht : Touched s s' (fun _ _ => 0) fun _ => 0 := by
    refine ⟨heffects, by rw [hpositions]; exact SamePositions.refl _, fun c => ?_, fun _ _ => ⟨rfl, rfl⟩⟩
    rw [hbalances]
    cases balanceOf s.snapshot.balances c with
    | none => exact .none
    | some b => exact .some (Credited.refl b)
  refine ⟨hbooks, ⟨_, _, ht⟩, ?_, fun base hs => revalued_of_kept hs ?_⟩
  · rw [hcash, hfunding]
    refine ht.net_eq (fun _ => rfl) (fun _ => rfl) (fun c => ?_) fun c => ?_
    · unfold positionTotal
      rw [hpositions, add_zero]
    · unfold positionTotal
      rw [hpositions]
  · rw [hpositions]
    exact fun k p hp => ⟨p, hp, rfl, rfl, rfl, rfl⟩

theorem applyValuationRate_touch {entry : PortfolioValuationRateEntry}
    (h : applyValuationRate codec s event entry = .ok s') : TouchStep codec event (.valuationRate entry) s s' := by
  unfold applyValuationRate at h
  obtain ⟨hsnap, heff⟩ := nextState_account h
  simp only [Option.getD_none] at hsnap heff
  have hbooks := nextState_books h (SameBooks.refl s) (by rw [Option.getD_none])
  exact touchStep_of_eq hbooks (by rw [hsnap]) (by rw [hsnap]) heff (funext fun _ => by
    simp [cashFlow, fundings, conversionTargets, conversionSources]) rfl

theorem applyAccountObservation_touch {entry : PortfolioAccountObservationEntry}
    (h : applyAccountObservation codec s event entry = .ok s') :
    TouchStep codec event (.accountObservation entry) s s' := by
  unfold applyAccountObservation at h
  cases hb : lookupBy (fun b : AccountBalanceSnapshot => b.currency) s.snapshot.balances
    entry.currency with
  | none => simp [hb] at h
  | some b =>
    simp only [hb, bind_ok_iff, require_ok_iff, exists_const, PortfolioWorkingSnapshot.of_ok_iff] at h
    obtain ⟨-, -, w, hw, hnext⟩ := h
    obtain ⟨hsnap, heff⟩ := nextState_account hnext
    simp only [Option.getD_some, Option.getD_none] at hsnap heff
    have hbooks := nextState_books hnext (SameBooks.refl s) (by rw [Option.getD_some, hw])
    exact touchStep_of_eq hbooks (by rw [hsnap, hw]) (by rw [hsnap, hw]) heff (funext fun _ => by
      simp [cashFlow, fundings, conversionTargets, conversionSources]) rfl

end TradingAgent.PortfolioReducer
