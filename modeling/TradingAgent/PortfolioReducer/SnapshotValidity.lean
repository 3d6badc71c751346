import TradingAgent.PortfolioReducer.History

/-! Every reduced state passes the validation of a snapshot. -/

namespace TradingAgent.PortfolioReducer

open Outcome AverageCost

/-! ## Lineages -/

section

variable {base : LotBase} {k : PositionKey}

theorem lineage_self {effects : List PortfolioExecutionEffect} (hk : ∀ e ∈ effects, e.positionKey = k)
    (hsorted : effects.Pairwise fun x y => x.logicalSequence < y.logicalSequence) : lineage effects k = effects := by
  unfold lineage
  rw [List.filter_eq_self.2 fun e he => by simpa using hk e he]
  exact sortBy_eq_self (hsorted.imp le_of_lt)

theorem validateExecutionEffect_of_chain {prior : List PortfolioExecutionEffect}
    {e : PortfolioExecutionEffect} (hec : Economics e) (hstatus : e.fill.status.IsNormal ∨ e.fill.status = .correction)
    (hprior : lineage prior e.positionKey = prior) (hchain : Chain base (prior ++ [e])) :
    validateExecutionEffect e prior = .ok () := by
  have heff := hchain.last
  set account := base.account (fills prior) with haccount
  have hbefore : accountingBefore prior e.positionKey e.quantityBefore.value e.averageBefore =
      .ok (account.basis, account.realized) := by
    have := @accountingBefore_of_chain base prior e.positionKey e.quantityBefore.value e.averageBefore
      (by rw [hprior]; exact hchain.left) (by rw [hprior]; exact heff.quantityBefore)
      (fun hnil => by rw [hprior] at hnil; rw [heff.averageBefore, hnil]; rfl)
    rwa [hprior] at this
  have hcon : base.account (fills prior ++ [e.fill]) = account.book (trade e.fill) :=
    base.account_concat _ _
  have hacc : fillAccounting e.fill e.quantityBefore.value e.averageBefore account.basis =
      .ok (bookedFill account e.quantityBefore.value e.fill) := by
    refine (fillAccounting_ok_iff heff.quantityBefore).2 ⟨heff.averageBefore_isSome, ?_, rfl⟩
    rw [← hcon]
    exact heff.averageFits
  have hreal : e.realizedPnlDelta.amount = rounded e.fill.instrumentDefinition.settlementCurrency.precision
        (account.realized + account.profit (trade e.fill)) -
      rounded e.fill.instrumentDefinition.settlementCurrency.precision account.realized := by
    rw [heff.realized, hcon]
    rfl
  have hentry : e.positionKey = positionKey e.strategyId e.fill.instrumentDefinition.instrumentId.canonical := by
    rw [hec.key, entryKey, e.facts.strategyId, e.facts.entryFill]
  have haverage : e.averageAfter = (bookedFill account e.quantityBefore.value e.fill).nextAverage := by
    rw [heff.averageAfter, LotBase.averageAfter_concat, hcon]
    rfl
  have hquantity : quantity (signedFill e.fill) e.fill.quantity.precision = .ok e.quantityDelta :=
    quantity_ok_iff.2 ⟨heff.quantityDelta, heff.quantityDelta_precision⟩
  unfold validateExecutionEffect
  rw [require_of _ hstatus]
  simp only [ok_bind]
  have hmatch : effectMatches e prior = .ok true := by
    unfold effectMatches
    simp only [hbefore, hacc, ok_bind, realizedDelta_eq]
    simp only [bookedFill]
    rw [nonzeroDelta_of _ e.realizedPnlDelta hreal e.facts.realizedPnlDelta]
    simp only [ok_bind, hquantity, heff.cash]
    rw [money_ok_iff.2 ⟨hreal, e.facts.realizedPnlDelta⟩]
    simp only [ok_bind]
    rw [money_ok_iff.2 ⟨heff.fees, e.facts.feesDelta⟩]
    simp only [ok_bind, Except.ok.injEq, decide_eq_true_eq, true_and]
    exact ⟨hentry, heff.balanceRealized, heff.balanceFees, haverage⟩
  rw [hmatch]
  rfl

theorem checkLineage_loop {first : PortfolioExecutionEffect} {rest : List PortfolioExecutionEffect}
    (hec : ∀ e ∈ first :: rest, Economics e)
    (hstatus : ∀ e ∈ first :: rest, e.fill.status.IsNormal ∨ e.fill.status = .correction)
    (hkey : ∀ e ∈ first :: rest, e.positionKey = k)
    (hsorted : (first :: rest).Pairwise fun x y => x.logicalSequence < y.logicalSequence)
    (hchain : Chain base (first :: rest)) : ∃ final, (first :: rest).foldlM checkLineageEffect
        ⟨first.quantityBefore.value, first.averageBefore, []⟩ = .ok final ∧
      (final.quantity : ℚ) = (base.account (fills (first :: rest))).quantity ∧
      final.average = base.averageAfter (fills (first :: rest)) := by
  have hloop := @foldlM_ok _ _ _ checkLineageEffect (first :: rest)
    ⟨first.quantityBefore.value, first.averageBefore, []⟩
    (fun done progress => progress.prior = done ∧ (progress.quantity : ℚ) = (base.account (fills done)).quantity ∧
      progress.average = base.averageAfter (fills done)) ?_ ?_
  · obtain ⟨final, hfinal, -, hq, ha⟩ := hloop
    exact ⟨final, hfinal, hq, ha⟩
  · obtain ⟨hq, ha⟩ := hchain.head
    exact ⟨rfl, by rw [hq]; rfl, ha⟩
  · rintro done e after progress heq ⟨hprior, hq, ha⟩
    have hsub : (done ++ [e]).Sublist (first :: rest) := by
      rw [heq]
      exact (List.Sublist.refl done).append (List.singleton_sublist.2 List.mem_cons_self)
    have hmem : ∀ x ∈ done, x ∈ first :: rest := fun x hx => hsub.subset (List.mem_append_left _ hx)
    have he : e ∈ first :: rest := hsub.subset (by simp)
    have hchain' : Chain base (done ++ [e]) := by
      have := hchain
      rw [heq, ← List.singleton_append, ← List.append_assoc] at this
      exact this.left
    have hlast := hchain'.last
    have hself : lineage done e.positionKey = done :=
      lineage_self (fun x hx => (hkey x (hmem x hx)).trans (hkey e he).symm)
        (hsorted.sublist ((List.sublist_append_left _ _).trans hsub))
    have hvalid := validateExecutionEffect_of_chain (hec e he) (hstatus e he) hself hchain'
    refine ⟨⟨progress.quantity + e.quantityDelta.value, e.averageAfter, progress.prior ++ [e]⟩, ?_,
      by rw [hprior], ?_, ?_⟩
    · unfold checkLineageEffect
      rw [hprior, hvalid]
      simp only [ok_bind, sum_eq, List.sum_cons, List.sum_nil, add_zero]
      rw [require_of]
      · rfl
      · exact ⟨Subtype.ext (by rw [hlast.quantityBefore, hq]), by rw [hlast.averageBefore, ha]⟩
    · push_cast
      rw [hq, hlast.quantityDelta, fills_append, fills_singleton, base.account_concat]
      rfl
    · rw [hlast.averageAfter, fills_append, fills_singleton]

theorem checkLineage_of_inv {marked : Prop} {base : PositionKey → LotBase} {s : PortfolioReplayState}
    (hs : Inv marked base s) (k : PositionKey) : checkLineage s k = .ok () := by
  unfold checkLineage
  have hk := hs.keys k
  cases hl : lineage s.activeEffects k with
  | nil => rfl
  | cons first rest =>
    have hmem : ∀ e ∈ first :: rest, e ∈ s.activeEffects ∧ e.positionKey = k := by
      intro e he
      rw [← hl] at he
      exact mem_lineage.1 he
    have hsorted : (first :: rest).Pairwise fun x y => x.logicalSequence < y.logicalSequence := by
      rw [← hl]
      exact sortBy_pairwise_lt _ _ ((List.filter_sublist.map _).nodup hs.sequences)
    rw [hl] at hk
    obtain ⟨final, hfinal, hq, ha⟩ := checkLineage_loop (fun e he => hs.linked.economics e (hmem e he).1)
      (fun e he => hs.linked.status e (hmem e he).1) (fun e he => (hmem e he).2) hsorted hk.chain
    simp only [hfinal, ok_bind]
    cases hp : findPosition s.snapshot.positions k with
    | none => exact absurd (hk.missing hp).1 (by simp)
    | some p =>
      refine require_of _ ⟨Subtype.ext ?_, ?_⟩
      · rw [hk.quantity p hp, hq]
      · rw [hk.average p hp, ha]

end

/-! ## Applied events and identities -/

structure Reduced (codec : ReplayCodec) (streamId : Uuid) (events : List PortfolioEvent)
    (s : PortfolioReplayState) : Prop where
  history : History codec s.snapshot.accountId streamId events
  cursor : s.cursor = [⟨streamId, events.length⟩]
  applied : s.appliedEvents.Perm (events.map (appliedEvent codec.toCodec))
  booked : Booked codec.toCodec events s
  run : ∃ base, RunInv events base s

section Reduced

variable {codec : ReplayCodec} {streamId : Uuid} {events : List PortfolioEvent} {s : PortfolioReplayState}

theorem reduced_of_history (hvalid : validateFullHistory codec events = .ok ())
    (h : reducePortfolioEvents codec.toCodec events = .ok s) : ∃ streamId, Reduced codec streamId events s := by
  obtain ⟨first, rest, rfl, -, hist⟩ := validateFullHistory_spec hvalid
  have hdelivered := delivered_of_nodup hist.ids
  have hbooked := reduce_booked h
  have happlied := reduce_applied h
  obtain ⟨base, hrun⟩ := reduce_inv h hist.increasing
  rw [hdelivered] at hbooked happlied hrun
  have hacc := hbooked.account first List.mem_cons_self
  refine ⟨first.streamId, by rw [← hacc]; exact hist, ?_, happlied, hbooked, base, hrun⟩
  obtain ⟨first', last, hfirst, hlast, hcursor⟩ := hbooked.cursor
  obtain rfl := Option.some.inj hfirst
  have hseq : last.sequence = (first :: rest).length := by
    have hl := congrArg List.getLast? hist.sequences
    rw [List.getLast?_map, hlast, List.getLast?_range'] at hl
    simpa [Nat.add_comm] using hl
  rw [hcursor, hseq]

variable {e : PortfolioEvent}

variable (h : Reduced codec streamId events s)
include h

theorem Reduced.sequence_le (he : e ∈ events) : e.sequence ≤ events.length := by
  have hm : e.sequence ∈ events.map (·.sequence) := List.mem_map_of_mem he
  rw [h.history.sequences, List.mem_range'_1] at hm
  omega

theorem Reduced.sequences_nodup : (events.map (·.sequence)).Nodup := by
  rw [h.history.sequences]
  exact List.nodup_range'

theorem Reduced.digest (he : e ∈ events) :
    appliedDigest s.appliedEvents e.eventId = some (eventDigest codec.toCodec e) :=
  @appliedDigest_of_mem s (appliedEvent codec.toCodec e) (h.applied.mem_iff.2 (List.mem_map_of_mem he))

theorem Reduced.checkAppliedEvents :
    ∃ seen, s.appliedEvents.foldlM (checkAppliedEvent ⟨streamId, events.length⟩) [] = .ok seen := by
  have hnodup : (s.appliedEvents.map PortfolioAppliedEvent.sequence).Nodup := by
    have := h.applied.map PortfolioAppliedEvent.sequence
    rw [List.map_map] at this
    exact this.nodup_iff.2 h.sequences_nodup
  refine foldlM_fresh (fun seen item => item.sequence ∉ seen) (List.pairwise_map.1 hnodup) (by simp)
    fun item hitem seen hnew => ?_
  obtain ⟨e, he, rfl⟩ := List.mem_map.1 (h.applied.mem_iff.1 hitem)
  refine ⟨e.sequence :: seen, ?_, fun y hy hne => List.not_mem_cons_of_ne_of_not_mem (Ne.symm hne) hy⟩
  unfold checkAppliedEvent
  simp only [bind_ok_iff, require_ok_iff, exists_const]
  exact ⟨h.history.stream e he, h.sequence_le he, hnew, rfl⟩

omit h

/-! ### Identities -/

def bindings (items : List PortfolioAppliedEvent) : ExpectedIdentities :=
  items.filterMap fun item => item.businessIdentityId.map fun id => ((item.eventType, id), item)

theorem identityEventTypes_iff (payload : PortfolioPayload) :
    payload.eventType ∈ identityEventTypes ↔ (businessIdentity payload).isSome = true := by
  cases payload <;> simp [PortfolioPayload.eventType, identityEventTypes, businessIdentity]

variable {index : List PortfolioBusinessIdentity} {identity : PortfolioPayload → Option Uuid}

theorem identities_pairwise {codec : Codec} (hindex : (index.map PortfolioBusinessIdentity.identityId).Pairwise (· < ·))
    (hperm : index.Perm (identitiesOf codec identity events)) :
    events.Pairwise fun e e' => ∀ id ∈ identity e.payload, ∀ id' ∈ identity e'.payload, id ≠ id' := by
  have hn : ((identitiesOf codec identity events).map PortfolioBusinessIdentity.identityId).Nodup :=
    (hperm.map _).nodup_iff.1 (hindex.imp ne_of_lt)
  have hp : (identitiesOf codec identity events).Pairwise fun r r' => r.identityId ≠ r'.identityId :=
    List.pairwise_map.1 hn
  unfold identitiesOf at hp
  rw [List.pairwise_filterMap] at hp
  refine hp.imp fun {e e'} h id hid id' hid' => ?_
  exact h (identityRecord codec e id) (Option.map_eq_some_iff.2 ⟨id, hid, rfl⟩)
    (identityRecord codec e' id') (Option.map_eq_some_iff.2 ⟨id', hid', rfl⟩)

theorem Reduced.bindings_nodup (h : Reduced codec streamId events s) : (bindings s.appliedEvents).keys.Nodup := by
  have hexecution := identities_pairwise s.facts.executionIdentities h.booked.execution
  have hfunding := identities_pairwise s.facts.fundingIdentities h.booked.funding
  have hreconciliation := identities_pairwise s.facts.reconciliationIdentities h.booked.reconciliation
  have hperm : (bindings s.appliedEvents).keys.Perm
      (bindings (events.map (appliedEvent codec.toCodec))).keys :=
    (h.applied.filterMap _).map Prod.fst
  rw [hperm.nodup_iff]
  unfold bindings Dict.keys List.Nodup
  rw [List.pairwise_map, List.pairwise_filterMap, List.pairwise_map]
  refine ((hexecution.and hfunding).and hreconciliation).imp ?_
  rintro e e' ⟨⟨he, hf⟩, hr⟩ b hb b' hb' heq
  simp only [Option.map_eq_some_iff] at hb hb'
  obtain ⟨id, hid, rfl⟩ := hb
  obtain ⟨id', hid', rfl⟩ := hb'
  obtain ⟨htype, rfl⟩ := Prod.mk.inj heq
  simp only [appliedEvent] at hid hid' htype
  cases hp : e.payload <;> cases hp' : e'.payload <;> rw [hp] at hid htype <;>
    rw [hp'] at hid' htype <;> simp [PortfolioPayload.eventType, businessIdentity] at hid hid' htype
  · exact he id (by simp [hp, executionIdentity, hid]) id (by simp [hp', executionIdentity, hid']) rfl
  · exact hf id (by simp [hp, fundingIdentity, hid]) id (by simp [hp', fundingIdentity, hid']) rfl
  · exact hr id (by simp [hp, reconciliationIdentity, hid]) id
      (by simp [hp', reconciliationIdentity, hid']) rfl

theorem Reduced.expected (h : Reduced codec streamId events s) :
    s.appliedEvents.foldlM expectIdentity [] = .ok (bindings s.appliedEvents) := by
  have hnodup := h.bindings_nodup
  obtain ⟨expected, hexpected, rfl⟩ := @foldlM_ok _ _ _ expectIdentity s.appliedEvents []
    (fun done expected => expected = bindings done) rfl fun done item rest expected heq hdone => by
      have hitem : item ∈ s.appliedEvents := by rw [heq]; simp
      obtain ⟨e, he, rfl⟩ := List.mem_map.1 (h.applied.mem_iff.1 hitem)
      have htype := identityEventTypes_iff e.payload
      have hconcat : bindings (done ++ [appliedEvent codec.toCodec e]) = bindings done ++
          ((businessIdentity e.payload).map fun id =>
            ((e.payload.eventType, id), appliedEvent codec.toCodec e)).toList := filterMap_concat _ _ _
      refine ⟨_, ?_, rfl⟩
      unfold expectIdentity
      rw [hdone, hconcat]
      cases hb : businessIdentity e.payload with
      | none =>
        rw [hb] at htype
        rw [if_neg (by simpa [appliedEvent] using htype)]
        simp [appliedEvent, hb, require]
      | some id =>
        rw [hb] at htype
        rw [if_pos (by simpa [appliedEvent] using htype)]
        have hnew : (e.payload.eventType, id) ∉ (bindings done).keys := by
          intro hm
          have hsplit : bindings s.appliedEvents = bindings done ++
              ((e.payload.eventType, id), appliedEvent codec.toCodec e) :: bindings rest := by
            unfold bindings
            rw [heq, List.filterMap_append, List.filterMap_cons]
            simp [appliedEvent, hb]
          rw [hsplit] at hnodup
          unfold Dict.keys at hnodup hm
          rw [List.map_append, List.map_cons, List.nodup_append] at hnodup
          exact hnodup.2.2 _ hm _ List.mem_cons_self rfl
        have hreq : require ((e.payload.eventType, id) ∉ (bindings done).keys)
            (Failure.portfolioReplayError "snapshot applied events duplicate a business identity binding") = .ok () :=
          require_of _ hnew
        simp only [appliedEvent, hb, Option.map_some, Option.toList_some]
        rw [hreq, ok_bind, Dict.set_of_notMem _ _ _ hnew]
  exact hexpected

variable {eventType : String}

theorem mem_expectedOf {items : List PortfolioAppliedEvent}
    {entry : Uuid × PortfolioAppliedEvent} : entry ∈ expectedOf (bindings items) eventType ↔
      entry.2 ∈ items ∧ entry.2.eventType = eventType ∧ entry.2.businessIdentityId = some entry.1 := by
  obtain ⟨id, item⟩ := entry
  unfold expectedOf bindings
  simp only [List.mem_map, List.mem_filter, List.mem_filterMap, Option.map_eq_some_iff, decide_eq_true_eq]
  constructor
  · rintro ⟨⟨⟨type, id'⟩, item'⟩, ⟨⟨x, hx, id'', hid, heq⟩, htype⟩, hpair⟩
    simp only [Prod.mk.injEq] at heq hpair
    obtain ⟨⟨rfl, rfl⟩, rfl⟩ := heq
    obtain ⟨rfl, rfl⟩ := hpair
    exact ⟨hx, htype, hid⟩
  · rintro ⟨hm, rfl, hid⟩
    exact ⟨((item.eventType, id), item), ⟨⟨item, hm, id, hid, rfl⟩, rfl⟩, rfl⟩

theorem mem_identitiesOf {codec : Codec}
    {record : PortfolioBusinessIdentity} : record ∈ identitiesOf codec identity events ↔
      ∃ e ∈ events, ∃ id, identity e.payload = some id ∧ identityRecord codec e id = record := by
  unfold identitiesOf
  simp only [List.mem_filterMap, Option.map_eq_some_iff]

theorem get?_identity {codec : Codec} (hindex : (index.map PortfolioBusinessIdentity.identityId).Pairwise (· < ·))
    {id : Uuid} (hmem : identityRecord codec e id ∈ index) :
    (Dict.byKey PortfolioBusinessIdentity.identityId index).get? id = some (identityRecord codec e id) := by
  have hn : (index.map PortfolioBusinessIdentity.identityId).Nodup := hindex.imp ne_of_lt
  rw [Dict.get?_byKey hn]
  exact (lookupBy_eq_some_iff hn).2 ⟨hmem, rfl⟩

theorem Reduced.checkIndex (h : Reduced codec streamId events s) {label : String}
    (hindex : (index.map PortfolioBusinessIdentity.identityId).Pairwise (· < ·))
    (hperm : index.Perm (identitiesOf codec.toCodec identity events))
    (hkind : ∀ payload : PortfolioPayload, ∀ id, payload.eventType = eventType ∧
      businessIdentity payload = some id ↔ identity payload = some id) :
    checkIdentityIndex (expectedOf (bindings s.appliedEvents) eventType) index label = .ok () := by
  have hn : (index.map PortfolioBusinessIdentity.identityId).Nodup := hindex.imp ne_of_lt
  have hkeys : ∀ id, id ∈ (Dict.byKey PortfolioBusinessIdentity.identityId index).keys ↔
      ∃ e ∈ events, identity e.payload = some id := by
    intro id
    rw [Dict.byKey_of_nodup hn]
    simp only [Dict.keys, List.map_map, List.mem_map, Function.comp_apply]
    constructor
    · rintro ⟨record, hrecord, rfl⟩
      obtain ⟨e, he, id, hid, rfl⟩ := mem_identitiesOf.1 (hperm.mem_iff.1 hrecord)
      exact ⟨e, he, hid⟩
    · rintro ⟨e, he, hid⟩
      exact ⟨identityRecord codec.toCodec e id, hperm.mem_iff.2 (mem_identitiesOf.2 ⟨e, he, id, hid, rfl⟩), rfl⟩
  have hexpected : ∀ entry ∈ expectedOf (bindings s.appliedEvents) eventType,
      ∃ e ∈ events, identity e.payload = some entry.1 ∧ entry.2 = appliedEvent codec.toCodec e := by
    intro entry hentry
    obtain ⟨hitem, htype, hid⟩ := mem_expectedOf.1 hentry
    obtain ⟨e, he, heq⟩ := List.mem_map.1 (h.applied.mem_iff.1 hitem)
    rw [← heq] at htype hid
    exact ⟨e, he, (hkind _ _).1 ⟨htype, hid⟩, heq.symm⟩
  unfold checkIdentityIndex
  simp only [bind_ok_iff, require_ok_iff, exists_const]
  refine ⟨⟨fun id hid => ?_, fun id hid => ?_⟩, fun entry hentry record hrecord => ?_⟩
  · obtain ⟨entry, hentry, rfl⟩ := List.mem_map.1 hid
    obtain ⟨e, he, hide, -⟩ := hexpected entry hentry
    exact (hkeys _).2 ⟨e, he, hide⟩
  · obtain ⟨e, he, hide⟩ := (hkeys id).1 hid
    refine List.mem_map.2 ⟨(id, appliedEvent codec.toCodec e), mem_expectedOf.2 ⟨?_, ?_⟩, rfl⟩
    · exact h.applied.mem_iff.2 (List.mem_map_of_mem he)
    · exact (hkind _ _).2 hide
  · obtain ⟨e, he, hide, hitem⟩ := hexpected entry hentry
    have hmem : identityRecord codec.toCodec e entry.1 ∈ index :=
      hperm.mem_iff.2 (mem_identitiesOf.2 ⟨e, he, _, hide, rfl⟩)
    rw [get?_identity hindex hmem] at hrecord
    obtain rfl := Option.mem_some_iff.1 hrecord
    rw [hitem]
    exact ⟨rfl, rfl, rfl, rfl⟩

theorem identitiesOf_business (codec : Codec) (events : List PortfolioEvent) :
    (identitiesOf codec executionIdentity events ++ identitiesOf codec fundingIdentity events ++
      identitiesOf codec reconciliationIdentity events).Perm (identitiesOf codec businessIdentity events) := by
  induction events with
  | nil => exact .refl _
  | cons e events ih =>
    unfold identitiesOf at ih ⊢
    simp only [List.filterMap_cons]
    cases e.payload with
    | fill entry =>
      simp only [executionIdentity, fundingIdentity, reconciliationIdentity, businessIdentity,
        Option.map_some, Option.map_none, List.cons_append]
      exact ih.cons _
    | funding entry =>
      simp only [executionIdentity, fundingIdentity, reconciliationIdentity, businessIdentity,
        Option.map_some, Option.map_none, List.append_assoc, List.cons_append]
      rw [List.append_assoc] at ih
      exact List.perm_middle.trans (ih.cons _)
    | reconciliation entry =>
      simp only [executionIdentity, fundingIdentity, reconciliationIdentity, businessIdentity,
        Option.map_some, Option.map_none]
      exact List.perm_middle.trans (ih.cons _)
    | _ =>
      simpa only [executionIdentity, fundingIdentity, reconciliationIdentity, businessIdentity,
        Option.map_none] using ih

theorem identitiesOf_sublist {β : Type} (codec : Codec) (identity : PortfolioPayload → Option Uuid)
    (events : List PortfolioEvent) (f : PortfolioBusinessIdentity → β) (g : PortfolioEvent → β)
    (hfg : ∀ e id, f (identityRecord codec e id) = g e) :
    ((identitiesOf codec identity events).map f).Sublist (events.map g) := by
  induction events with
  | nil => exact .slnil
  | cons e events ih =>
    unfold identitiesOf at ih ⊢
    rw [List.filterMap_cons]
    cases identity e.payload with
    | none => exact ih.cons _
    | some id =>
      rw [Option.map_some, List.map_cons, List.map_cons, hfg]
      exact ih.cons_cons _

theorem Reduced.checkIdentities (h : Reduced codec streamId events s) :
    ∃ seen, (s.executionIdentities ++ s.fundingIdentities ++ s.reconciliationIdentities).foldlM
      (checkIdentity s ⟨streamId, events.length⟩) ([], []) = .ok seen := by
  set all := s.executionIdentities ++ s.fundingIdentities ++ s.reconciliationIdentities with hall
  have hperm : all.Perm (identitiesOf codec.toCodec businessIdentity events) :=
    ((h.booked.execution.append h.booked.funding).append h.booked.reconciliation).trans
      (identitiesOf_business _ _)
  have hids : (all.map (·.eventId)).Nodup :=
    (hperm.map _).nodup_iff.2 ((identitiesOf_sublist _ _ _ _ _ fun _ _ => rfl).nodup h.history.ids)
  have hseqs : (all.map (·.sequence)).Nodup :=
    (hperm.map _).nodup_iff.2 ((identitiesOf_sublist _ _ _ _ _ fun _ _ => rfl).nodup h.sequences_nodup)
  refine foldlM_fresh (fun seen record => record.eventId ∉ seen.1 ∧ record.sequence ∉ seen.2)
    ((List.pairwise_map.1 hids).and (List.pairwise_map.1 hseqs)) (by simp) fun record hrecord seen hnew => ?_
  obtain ⟨e, he, id, -, rfl⟩ := mem_identitiesOf.1 (hperm.mem_iff.1 hrecord)
  refine ⟨(e.eventId :: seen.1, e.sequence :: seen.2), ?_, fun y hy hne =>
    ⟨List.not_mem_cons_of_ne_of_not_mem hne.1.symm hy.1, List.not_mem_cons_of_ne_of_not_mem hne.2.symm hy.2⟩⟩
  unfold checkIdentity
  simp only [bind_ok_iff, require_ok_iff, exists_const]
  exact ⟨h.digest he, h.history.stream e he, h.sequence_le he, hnew, rfl⟩

/-! ### The latest reconciliation -/

theorem latestIdentity_eq {latest : PortfolioBusinessIdentity}
    (hmem : latest ∈ index) (hmax : ∀ r ∈ index, r ≠ latest → r.sequence < latest.sequence) :
    latestIdentity index = some latest := by
  have hloop : ∀ (f : Option PortfolioBusinessIdentity → PortfolioBusinessIdentity → Option _),
      (∀ item, f none item = some item) → (∀ current item, f (some current) item =
        if current.sequence < item.sequence then some item else some current) → ∀ rest best,
      (∀ r ∈ rest, r ∈ index) → (∀ r ∈ best, r ∈ index) → (latest ∈ rest ∨ best = some latest) →
      List.foldl f best rest = some latest := by
    intro f hnone hsome rest
    induction rest with
    | nil =>
      rintro best - - (h | h)
      · cases h
      · exact h
    | cons r rest ih =>
      intro best hrest hbest hlatest
      rw [List.foldl_cons]
      have hr := hrest r List.mem_cons_self
      have hrest' : ∀ x ∈ rest, x ∈ index := fun x hx => hrest x (List.mem_cons_of_mem _ hx)
      cases best with
      | none =>
        rw [hnone]
        refine ih _ hrest' (fun x hx => by rwa [← Option.mem_some_iff.1 hx]) ?_
        rcases hlatest with h | h
        · rcases List.mem_cons.1 h with rfl | h
          · exact .inr rfl
          · exact .inl h
        · cases h
      | some current =>
        have hcurrent := hbest current rfl
        rw [hsome]
        split_ifs with hlt
        · refine ih _ hrest' (fun x hx => by rwa [← Option.mem_some_iff.1 hx]) ?_
          rcases hlatest with h | h
          · rcases List.mem_cons.1 h with rfl | h
            · exact .inr rfl
            · exact .inl h
          · -- the latest record is never displaced
            obtain rfl := Option.some.inj h
            by_cases hne : r = current
            · exact .inr (congrArg some hne)
            · exact absurd hlt (hmax r hr hne).not_gt
        · refine ih _ hrest' (fun x hx => by rwa [← Option.mem_some_iff.1 hx]) ?_
          rcases hlatest with h | h
          · rcases List.mem_cons.1 h with rfl | h
            · by_cases hne : current = latest
              · exact .inr (congrArg some hne)
              · exact absurd (hmax current hcurrent hne) hlt
            · exact .inl h
          · exact .inr h
  exact hloop _ (fun _ => rfl) (fun _ _ => rfl) index none (fun r hr => hr) (by simp) (.inl hmem)

def reconciliations (events : List PortfolioEvent) :
    List (PortfolioEvent × PortfolioReconciliationEntry) :=
  events.filterMap fun e => (reconciliationOf e.payload).map fun entry => (e, entry)

theorem mem_reconciliations {x : PortfolioEvent × PortfolioReconciliationEntry} :
    x ∈ reconciliations events ↔ x.1 ∈ events ∧ x.1.payload = .reconciliation x.2 := by
  obtain ⟨e, entry⟩ := x
  unfold reconciliations
  simp only [List.mem_filterMap, Option.map_eq_some_iff, Prod.mk.injEq]
  constructor
  · rintro ⟨e', he, entry', hentry, rfl, rfl⟩
    refine ⟨he, ?_⟩
    cases hp : e'.payload <;> rw [hp] at hentry <;> simp [reconciliationOf] at hentry
    rw [hentry]
  · rintro ⟨he, hp⟩
    exact ⟨e, he, entry, by rw [hp]; rfl, rfl, rfl⟩

theorem reconciliations_entries (events : List PortfolioEvent) :
    (events.filterMap fun e => reconciliationOf e.payload) = (reconciliations events).map Prod.snd := by
  unfold reconciliations
  rw [List.map_filterMap]
  congr 1
  funext e
  cases reconciliationOf e.payload <;> rfl

theorem reconciliations_identities (codec : Codec) (events : List PortfolioEvent) :
    identitiesOf codec reconciliationIdentity events =
      (reconciliations events).map fun x => identityRecord codec x.1 x.2.reconciliationId := by
  unfold reconciliations identitiesOf
  rw [List.map_filterMap]
  congr 1
  funext e
  cases e.payload <;> rfl

theorem Reduced.latest (h : Reduced codec streamId events s) :
    s.reconciliation = none ∧ latestIdentity s.reconciliationIdentities = none ∨
      ∃ e ∈ events, ∃ entry, e.payload = .reconciliation entry ∧ s.reconciliation = some entry ∧
        latestIdentity s.reconciliationIdentities = some (identityRecord codec.toCodec e entry.reconciliationId) := by
  have hperm := h.booked.reconciliation
  rw [reconciliations_identities] at hperm
  rw [h.booked.retained, reconciliations_entries]
  rcases List.eq_nil_or_concat (reconciliations events) with hnil | ⟨init, last, hlast⟩
  · left
    rw [hnil] at hperm ⊢
    rw [List.map_nil] at hperm
    rw [hperm.eq_nil]
    exact ⟨rfl, rfl⟩
  · right
    rw [List.concat_eq_append] at hlast
    have hmem : last ∈ reconciliations events := by rw [hlast]; simp
    obtain ⟨he, hp⟩ := mem_reconciliations.1 hmem
    refine ⟨last.1, he, last.2, hp, by rw [hlast]; simp, latestIdentity_eq ?_ ?_⟩
    · exact hperm.mem_iff.2 (List.mem_map_of_mem hmem)
    · intro r hr hne
      obtain ⟨x, hx, rfl⟩ := List.mem_map.1 (hperm.mem_iff.1 hr)
      have hsorted : (reconciliations events).Pairwise fun x y => x.1.sequence < y.1.sequence := by
        unfold reconciliations
        rw [List.pairwise_filterMap]
        refine (List.pairwise_map.1 h.history.increasing).imp fun {e e'} hlt b hb b' hb' => ?_
        obtain ⟨_, -, rfl⟩ := Option.map_eq_some_iff.1 hb
        obtain ⟨_, -, rfl⟩ := Option.map_eq_some_iff.1 hb'
        exact hlt
      rw [hlast] at hx hsorted
      rcases List.mem_append.1 hx with hx | hx
      · exact (List.pairwise_append.1 hsorted).2.2 x hx last (by simp)
      · rw [List.mem_singleton.1 hx] at hne
        exact absurd rfl hne

theorem Reduced.checkReconciliation (h : Reduced codec streamId events s) :
    checkReconciliationAccount s = .ok () ∧ checkReconciliationIdentity codec s = .ok () := by
  unfold checkReconciliationAccount checkReconciliationIdentity
  rcases h.latest with ⟨hnone, hlatest⟩ | ⟨e, he, entry, hp, hsome, hlatest⟩
  · rw [hnone, hlatest]
    exact ⟨rfl, rfl⟩
  · rw [hsome, hlatest]
    have hacc := h.history.account e he
    rw [hp] at hacc
    refine ⟨require_of _ ⟨hacc, entry.matchingAccount.trans hacc⟩, require_of _ ?_⟩
    simp only [identityRecord, hp]

/-! ## Effects -/

def RoundTrips (codec : Codec) (events : List PortfolioEvent) : Prop :=
  ∀ e ∈ events, codec.parse (codec.eventJson e.toLedger) = some e.toLedger

theorem canonicalEvent_of_roundTrip (hstorable : codec.storable e.toLedger = true)
    (hround : codec.parse (codec.eventJson e.toLedger) = some e.toLedger) :
    canonicalEvent codec e.toLedger = .ok e := by
  have hserialize : EventLedger.serializeEvent codec.toLedgerCodec e.toLedger = some (codec.eventJson e.toLedger) := by
    unfold EventLedger.serializeEvent
    rw [if_pos hstorable]
  unfold canonicalEvent EventLedger.deserializeEvent
  rw [hserialize, Option.bind_some, hround]
  simp only [Option.filter, hserialize, decide_true, if_true]
  rfl

include h

theorem Reduced.source {e : PortfolioExecutionEffect} (he : e ∈ s.activeEffects) : (ticket e).Sound events := by
  obtain ⟨base, hrun⟩ := h.run
  exact hrun.sound _ (List.mem_map_of_mem he)

theorem Reduced.checkSource (hround : RoundTrips codec.toCodec events) {e : PortfolioExecutionEffect}
    (he : e ∈ s.activeEffects) : checkEffectSource codec s ⟨streamId, events.length⟩ e = .ok () := by
  have hsound := h.source he
  have hmem : e.sourceEvent ∈ events := hsound.source
  have hpayload : e.sourceEvent.payload = .fill e.entry := hsound.payload
  have hstorable := h.history.storable _ hmem
  have hrecord : identityRecord codec.toCodec e.sourceEvent e.executionId ∈ s.executionIdentities := by
    refine h.booked.execution.mem_iff.2 (mem_identitiesOf.2 ⟨_, hmem, e.executionId, ?_, rfl⟩)
    rw [hpayload, executionIdentity, e.facts.entryFill, e.facts.executionId]
  unfold checkEffectSource
  rw [canonicalEvent_of_roundTrip hstorable (hround _ hmem)]
  simp only [ok_bind, true_and]
  rw [require_of _ hpayload, serializedDigest_ok_iff.2 ⟨hstorable, rfl⟩]
  simp only [ok_bind]
  rw [require_of _ (h.digest hmem), require_of _ (h.history.stream _ hmem),
    require_of _ (h.sequence_le hmem), get?_identity s.facts.executionIdentities hrecord]
  simp only [ok_bind]
  refine require_of _ ⟨rfl, rfl, ?_, rfl⟩
  simp only [identityRecord, hpayload]

theorem Reduced.sources_nodup : (s.activeEffects.map (·.sourceEvent.eventId)).Nodup := by
  refine List.Nodup.map_on ?_ (List.Nodup.of_map _ s.facts.nodup_executionIds)
  intro e he e' he' hid
  have hs := h.source he
  have hs' := h.source he'
  have hsource : e.sourceEvent = e'.sourceEvent :=
    List.inj_on_of_nodup_map h.history.ids hs.source hs'.source hid
  have hentry : e.entry = e'.entry := by
    have hp := hs.payload
    have hp' := hs'.payload
    change e.sourceEvent.payload = .fill e.entry at hp
    change e'.sourceEvent.payload = .fill e'.entry at hp'
    rw [hsource, hp'] at hp
    exact (PortfolioPayload.fill.inj hp).symm
  refine List.inj_on_of_nodup_map s.facts.nodup_executionIds he he' ?_
  rw [e.facts.executionId, e'.facts.executionId, ← e.facts.entryFill, ← e'.facts.entryFill, hentry]

theorem Reduced.checkEffects (hround : RoundTrips codec.toCodec events) :
    ∃ seen, s.activeEffects.foldlM (checkEffect codec s ⟨streamId, events.length⟩) ([], []) = .ok seen := by
  obtain ⟨base, hrun⟩ := h.run
  refine foldlM_fresh (fun seen e => e.sourceEvent.eventId ∉ seen.1 ∧ e.logicalSequence ∉ seen.2)
    ((List.pairwise_map.1 h.sources_nodup).and (List.pairwise_map.1 hrun.inv.sequences)) (by simp)
    fun e he seen hnew => ?_
  have hsound := h.source he
  have haccount : e.entry.accountId = s.snapshot.accountId := by
    have hacc := h.history.account _ hsound.source
    rw [hsound.payload] at hacc
    exact hacc
  have hplace : e.logicalSequence ≤ events.length := by
    obtain ⟨x, hx, hxe⟩ := List.mem_map.1 hsound.place
    have hle := h.sequence_le hx
    rw [hxe] at hle
    exact hle
  refine ⟨(e.sourceEvent.eventId :: seen.1, e.logicalSequence :: seen.2), ?_, fun y hy hne =>
    ⟨List.not_mem_cons_of_ne_of_not_mem hne.1.symm hy.1, List.not_mem_cons_of_ne_of_not_mem hne.2.symm hy.2⟩⟩
  unfold checkEffect checkEffectSequence
  simp only [bind_ok_iff, require_ok_iff, exists_const, and_true]
  refine ⟨⟨e.facts.accountId.symm.trans haccount, haccount⟩, hplace, (), h.checkSource hround he, ?_, hnew,
    hsound.normal, hsound.correction⟩
  intro latest hlatest
  rcases h.latest with ⟨-, hnone⟩ | ⟨r, hr, entry, hp, -, hsome⟩
  · rw [hnone] at hlatest
    cases hlatest
  · rw [hsome] at hlatest
    obtain rfl := Option.mem_some_iff.1 hlatest
    exact hsound.reconciled r hr (by rw [hp]; rfl)

/-! ## The validator -/

theorem Reduced.validated (hround : RoundTrips codec.toCodec events) : validatedState codec s = .ok s := by
  obtain ⟨base, hrun⟩ := h.run
  obtain ⟨seen, hseen⟩ := h.checkAppliedEvents
  obtain ⟨hraccount, hridentity⟩ := h.checkReconciliation
  obtain ⟨seenIds, hseenIds⟩ := h.checkIdentities
  obtain ⟨seenEffects, hseenEffects⟩ := h.checkEffects hround
  have hlength : s.appliedEvents.length = events.length := by
    rw [h.applied.length_eq, List.length_map]
  have hlineages : (effectKeys s.activeEffects).forM (checkLineage s) = .ok () :=
    forM_ok_iff.2 fun k _ => checkLineage_of_inv hrun.inv k
  unfold validatedState
  rw [h.cursor]
  simp only [require_of _ hlength, ok_bind, hseen, hraccount, h.expected]
  rw [h.checkIndex s.facts.executionIdentities h.booked.execution fun payload id => by
      cases payload <;> simp [PortfolioPayload.eventType, businessIdentity, executionIdentity],
    h.checkIndex s.facts.fundingIdentities h.booked.funding fun payload id => by
      cases payload <;> simp [PortfolioPayload.eventType, businessIdentity, fundingIdentity],
    h.checkIndex s.facts.reconciliationIdentities h.booked.reconciliation fun payload id => by
      cases payload <;> simp [PortfolioPayload.eventType, businessIdentity, reconciliationIdentity]]
  simp only [ok_bind, hseenIds, hridentity, hseenEffects, hlineages]

end Reduced

/-- Every state that a validated history reduces to passes the snapshot validator. -/
theorem reduced_state_is_valid (codec : ReplayCodec) {events : List PortfolioEvent}
    {s : PortfolioReplayState} (hround : RoundTrips codec.toCodec events)
    (hvalid : validateFullHistory codec events = .ok ())
    (h : reducePortfolioEvents codec.toCodec events = .ok s) : validatedState codec s = .ok s := by
  obtain ⟨streamId, hreduced⟩ := reduced_of_history hvalid h
  exact hreduced.validated hround

def sampleReplayCodec (events : List PortfolioEvent) : ReplayCodec where
  toCodec := sampleCodec events
  historyJson digest _ _ previous _ := previous ++ "/" ++ digest
  documentJson _ _ _ prefixHistoryHash _ _ := some prefixHistoryHash

theorem sample_state_is_valid : ∃ s,
    reducePortfolioEvents (sampleCodec sampleHistory) sampleHistory = .ok s ∧
      validatedState (sampleReplayCodec sampleHistory) s = .ok s := by
  obtain ⟨s, hs⟩ := sampleHistory_reduces
  exact ⟨s, hs, reduced_state_is_valid (sampleReplayCodec sampleHistory) (by
    intro e he
    simp only [sampleHistory, sampleTail, List.mem_cons, List.not_mem_nil, or_false] at he
    rcases he with rfl | rfl | rfl <;> decide +kernel) (by decide +kernel) hs⟩

end TradingAgent.PortfolioReducer
