import TradingAgent.PortfolioReducer.Step

/-! Runs over histories in logical order. -/

namespace TradingAgent.PortfolioReducer

open Outcome AverageCost

variable {codec : Codec}

/-! ## Following a history -/

variable {events : List PortfolioEvent}

theorem reduce_append {more : List PortfolioEvent} (h : events ≠ []) : reducePortfolioEvents codec (events ++ more) =
      reducePortfolioEvents codec events >>= more.foldlM (applyPortfolioEvent codec) := by
  cases events with
  | nil => exact absurd rfl h
  | cons first rest =>
    simp only [List.cons_append, reducePortfolioEvents, List.foldlM_append]
    cases openingState codec first with
    | error e => rfl
    | ok s => rfl

variable {s : PortfolioReplayState} {P : List PortfolioEvent → PortfolioReplayState → Prop}

theorem reduce_induction (hopen : ∀ first s, openingState codec first = .ok s → P [first] s)
    (hstep : ∀ events s event s', reducePortfolioEvents codec events = .ok s → P events s →
      applyPortfolioEvent codec s event = .ok s' → P (events ++ [event]) s')
    (h : reducePortfolioEvents codec events = .ok s) : P events s := by
  induction events using List.reverseRecOn generalizing s with
  | nil => cases h
  | append_singleton events event ih =>
    cases events with
    | nil =>
      simp only [reducePortfolioEvents, List.nil_append, List.foldlM_nil, bind_ok_iff, pure_eq_ok,
        Except.ok.injEq, exists_eq_right] at h
      exact hopen event s h
    | cons first rest =>
      rw [reduce_append (by simp), bind_ok_iff] at h
      obtain ⟨t, ht, h⟩ := h
      simp only [List.foldlM_cons, List.foldlM_nil, bind_ok_iff, pure_eq_ok, Except.ok.injEq, exists_eq_right] at h
      exact hstep _ t event s ht (ih ht) h

/-! ## The opening -/

structure OpeningOf (codec : Codec) (first : PortfolioEvent) (entry : PortfolioOpeningEntry)
    (s : PortfolioReplayState) : Prop where
  payload : first.payload = .opening entry
  accountId : s.snapshot.accountId = entry.accountId
  balances : s.snapshot.balances = entry.balances
  positions : s.snapshot.positions = []
  effects : s.activeEffects = []
  cursor : s.cursor = [⟨first.streamId, first.sequence⟩]
  appliedEvents : s.appliedEvents = [appliedEvent codec first]
  executionIdentities : s.executionIdentities = []
  fundingIdentities : s.fundingIdentities = []
  reconciliationIdentities : s.reconciliationIdentities = []
  reconciliation : s.reconciliation = none

variable {first : PortfolioEvent}

theorem openingState_spec (h : openingState codec first = .ok s) : ∃ entry, OpeningOf codec first entry s := by
  unfold openingState at h
  cases hp : first.payload with
  | opening entry =>
    simp only [hp, requireDigest_eq, ok_bind, bind_ok_iff, PortfolioWorkingSnapshot.of_ok_iff,
      PortfolioReplayState.of_ok_iff] at h
    obtain ⟨w, hw, hs⟩ := h
    exact ⟨entry, hp, by rw [hs, hw], by rw [hs, hw], by rw [hs, hw], by rw [hs], by rw [hs], by rw [hs],
      by rw [hs], by rw [hs], by rw [hs], by rw [hs]⟩
  | _ => simp [hp] at h

variable {rest : List PortfolioEvent}

theorem reduce_opening (h : reducePortfolioEvents codec (first :: rest) = .ok s) :
    ∃ s₀ entry, openingState codec first = .ok s₀ ∧ OpeningOf codec first entry s₀ ∧
      rest.foldlM (applyPortfolioEvent codec) s₀ = .ok s := by
  simp only [reducePortfolioEvents, bind_ok_iff] at h
  obtain ⟨s₀, h₀, h⟩ := h
  obtain ⟨entry, hentry⟩ := openingState_spec h₀
  exact ⟨s₀, entry, h₀, hentry, h⟩

variable {entry : PortfolioOpeningEntry}

theorem OpeningOf.inv (h : OpeningOf codec first entry s) : Inv True (fun _ => LotBase.flat) s := by
  have hinv := inv_of_no_effects h.effects
  refine ⟨hinv.linked, hinv.sequences, fun k => ?_⟩
  have hk := hinv.keys k
  have hnone : findPosition s.snapshot.positions k = none := by
    rw [h.positions]
    rfl
  rw [hnone] at hk ⊢
  exact ⟨hk.chain, hk.missing, by simp, by simp, by simp⟩

/-! ## Delivered events -/

/-- The events without repetitions. -/
def delivered (events : List PortfolioEvent) : List PortfolioEvent :=
  events.foldl (fun seen event =>
    if event.eventId ∈ seen.map (fun e => e.eventId) then seen else seen ++ [event]) []

theorem delivered_concat (events : List PortfolioEvent) (event : PortfolioEvent) : delivered (events ++ [event]) =
      if event.eventId ∈ (delivered events).map (·.eventId) then delivered events
      else delivered events ++ [event] := by
  simp [delivered]

theorem delivered_head (first : PortfolioEvent) (rest : List PortfolioEvent) :
    (delivered (first :: rest)).head? = some first := by
  induction rest using List.reverseRecOn with
  | nil => simp [delivered]
  | append_singleton rest e ih =>
    rw [← List.cons_append, delivered_concat]
    split_ifs
    · exact ih
    · rw [List.head?_append, ih]
      rfl

theorem delivered_sublist (events : List PortfolioEvent) : (delivered events).Sublist events := by
  induction events using List.reverseRecOn with
  | nil => simp [delivered]
  | append_singleton events e ih =>
    rw [delivered_concat]
    split_ifs
    · exact ih.trans (List.sublist_append_left _ _)
    · exact ih.append_right _

theorem mem_delivered_ids (events : List PortfolioEvent) (id : Uuid) :
    id ∈ (delivered events).map (·.eventId) ↔ id ∈ events.map (·.eventId) := by
  induction events using List.reverseRecOn with
  | nil => simp [delivered]
  | append_singleton events e ih =>
    rw [delivered_concat, List.map_append, List.mem_append, ← ih]
    split_ifs with h
    · constructor
      · exact .inl
      · rintro (hm | hm)
        · exact hm
        · rw [List.map_singleton, List.mem_singleton] at hm
          exact hm ▸ h
    · rw [List.map_append, List.mem_append]

/-! ## Applied events -/

theorem nodup_eventIds (s : PortfolioReplayState) : (s.appliedEvents.map PortfolioAppliedEvent.eventId).Nodup :=
  s.facts.appliedEvents.imp ne_of_lt

theorem appliedDigest_eq (s : PortfolioReplayState) (eventId : Uuid) : appliedDigest s.appliedEvents eventId =
      (lookupBy PortfolioAppliedEvent.eventId s.appliedEvents eventId).map (·.digest) := by
  have hn : Dict.keys (s.appliedEvents.map fun item => (item.eventId, item.digest)) =
      s.appliedEvents.map PortfolioAppliedEvent.eventId := by
    simp [Dict.keys]
  have hnodup : (Dict.keys (s.appliedEvents.map fun item => (item.eventId, item.digest))).Nodup := by
    rw [hn]
    exact nodup_eventIds s
  unfold appliedDigest
  rw [Dict.ofList_of_nodup hnodup]
  ext digest
  rw [Dict.get?_eq_some_iff hnodup]
  simp only [List.mem_map, Prod.mk.injEq, Option.map_eq_some_iff, lookupBy_eq_some_iff (nodup_eventIds s)]
  constructor
  · rintro ⟨item, hm, rfl, rfl⟩
    exact ⟨item, ⟨hm, rfl⟩, rfl⟩
  · rintro ⟨item, ⟨hm, rfl⟩, rfl⟩
    exact ⟨item, hm, rfl, rfl⟩

theorem appliedDigest_eq_none_iff (s : PortfolioReplayState) (eventId : Uuid) :
    appliedDigest s.appliedEvents eventId = none ↔ eventId ∉ s.appliedEvents.map PortfolioAppliedEvent.eventId := by
  rw [appliedDigest_eq, Option.map_eq_none_iff, lookupBy_eq_none_iff]
  simp

theorem appliedDigest_of_mem {s : PortfolioReplayState} {a : PortfolioAppliedEvent}
    (h : a ∈ s.appliedEvents) : appliedDigest s.appliedEvents a.eventId = some a.digest := by
  rw [appliedDigest_eq, (lookupBy_eq_some_iff (nodup_eventIds s)).2 ⟨h, rfl⟩]
  rfl

theorem sortedApplied_perm {a : PortfolioAppliedEvent}
    (h : a.eventId ∉ s.appliedEvents.map PortfolioAppliedEvent.eventId) :
    (sortedApplied s.appliedEvents a).Perm (s.appliedEvents ++ [a]) := by
  unfold sortedApplied
  refine (Dict.valuesBy_perm _ _).trans ?_
  have hkeys : a.eventId ∉ (Dict.byKey PortfolioAppliedEvent.eventId s.appliedEvents).keys := by
    rw [Dict.byKey_of_nodup (nodup_eventIds s)]
    simpa [Dict.keys] using h
  rw [Dict.set_of_notMem _ _ _ hkeys, Dict.byKey_of_nodup (nodup_eventIds s)]
  simp [Dict.values, List.map_map, Function.comp_def]

variable (h : reducePortfolioEvents codec events = .ok s)
include h

theorem reduce_applied : s.appliedEvents.Perm ((delivered events).map (appliedEvent codec)) := by
  refine reduce_induction (P := fun events s =>
    s.appliedEvents.Perm ((delivered events).map (appliedEvent codec))) ?_ ?_ h
  · intro first s hs
    obtain ⟨entry, hopen⟩ := openingState_spec hs
    rw [hopen.appliedEvents]
    simp [delivered]
  · intro events s event s' _ ih hstep
    have hids : (s.appliedEvents.map PortfolioAppliedEvent.eventId).Perm
        ((delivered events).map (·.eventId)) := by
      have := ih.map PortfolioAppliedEvent.eventId
      rwa [List.map_map] at this
    rw [delivered_concat]
    rcases applyPortfolioEvent_cases hstep with ⟨hknown, rfl⟩ | hfresh
    · have hmem : event.eventId ∈ (delivered events).map (·.eventId) := by
        rw [← hids.mem_iff]
        by_contra hn
        rw [(appliedDigest_eq_none_iff _ _).2 hn] at hknown
        cases hknown
      rw [if_pos hmem]
      exact ih
    · have hn := (appliedDigest_eq_none_iff _ _).1 hfresh.fresh
      obtain ⟨ids, hbooks⟩ := hfresh.step.books
      rw [if_neg fun hm => hn (hids.mem_iff.2 hm), hbooks.appliedEvents, List.map_append]
      exact (sortedApplied_perm hn).trans (ih.append_right _)

theorem mem_appliedIds (id : Uuid) : id ∈ s.appliedEvents.map PortfolioAppliedEvent.eventId ↔
      id ∈ (delivered events).map (·.eventId) := by
  have := (reduce_applied h).map PortfolioAppliedEvent.eventId
  rw [List.map_map] at this
  exact this.mem_iff

variable {event : PortfolioEvent} {s' : PortfolioReplayState}

theorem delivered_step (hstep : applyPortfolioEvent codec s event = .ok s') :
    delivered (events ++ [event]) = delivered events ∧ s' = s ∨
      delivered (events ++ [event]) = delivered events ++ [event] ∧ Fresh codec event s s' := by
  rw [delivered_concat]
  rcases applyPortfolioEvent_cases hstep with ⟨hknown, rfl⟩ | hfresh
  · left
    have hmem : event.eventId ∈ (delivered events).map (·.eventId) := by
      rw [← mem_appliedIds h]
      by_contra hn
      rw [(appliedDigest_eq_none_iff _ _).2 hn] at hknown
      cases hknown
    exact ⟨if_pos hmem, rfl⟩
  · right
    have hn := (appliedDigest_eq_none_iff _ _).1 hfresh.fresh
    exact ⟨if_neg fun hm => hn ((mem_appliedIds h _).2 hm), hfresh⟩

omit h

theorem delivered_induction (hopen : ∀ first entry s, OpeningOf codec first entry s → P [first] s)
    (hstep : ∀ done event s s', P done s → Fresh codec event s s' → P (done ++ [event]) s')
    (h : reducePortfolioEvents codec events = .ok s) : P (delivered events) s := by
  refine reduce_induction (P := fun events s => P (delivered events) s) ?_ ?_ h
  · intro first s hs
    obtain ⟨entry, hentry⟩ := openingState_spec hs
    have hone : delivered [first] = [first] := by simp [delivered]
    rw [hone]
    exact hopen first entry s hentry
  · intro events s event s' hr ih hs
    rcases delivered_step hr hs with ⟨hd, rfl⟩ | ⟨hd, hfresh⟩
    · rw [hd]
      exact ih
    · rw [hd]
      exact hstep _ event s s' ih hfresh

theorem reduce_linked (h : reducePortfolioEvents codec events = .ok s) : Linked s :=
  delivered_induction (P := fun _ s => Linked s) (fun _ _ _ hs => hs.inv.linked)
    (fun _ _ _ _ ih hfresh => hfresh.step.linked ih) h

/-! ## Net amounts of a run -/

/-- No event is a reconciliation. -/
def NoReconciliation (events : List PortfolioEvent) : Prop :=
  ∀ e ∈ events, e.payload.isReconciliation = false

instance (events : List PortfolioEvent) : Decidable (NoReconciliation events) :=
  inferInstanceAs (Decidable (∀ e ∈ events, _ = false))

theorem NoReconciliation.delivered (h : NoReconciliation events) : NoReconciliation (delivered events) :=
  fun e he => h e ((delivered_sublist events).subset he)

def openingNet (balances : List AccountBalanceSnapshot) : Net where
  hasBalance c := (balanceOf balances c).isSome
  cash c := (balanceOf balances c).elim 0 fun b => b.cash.amount
  realizedPnl c := (balanceOf balances c).elim 0 fun b => b.realizedPnl.amount
  retainedRealizedPnl c := (balanceOf balances c).elim 0 fun b => b.realizedPnl.amount
  unrealizedPnl c := (balanceOf balances c).elim 0 fun b => b.unrealizedPnl.amount
  fees c := (balanceOf balances c).elim 0 fun b => b.fees.amount
  funding c := (balanceOf balances c).elim 0 fun b => b.funding.amount
  lockedFunds c := (balanceOf balances c).elim 0 fun b => b.lockedFunds.amount
  marginUsed c := (balanceOf balances c).elim 0 fun b => b.marginUsed.amount
  positionRealizedPnl _ := 0
  positionFees _ := 0

theorem OpeningOf.net_eq {first : PortfolioEvent} {entry : PortfolioOpeningEntry}
    {s : PortfolioReplayState} (h : OpeningOf codec first entry s) : net s = openingNet entry.balances := by
  ext1 <;> funext x <;>
    simp [net, openingNet, amountIn, heldIn, positionTotal, positionAmount, effectTotal, keyTotal,
      balanceAmount, h.balances, h.positions, h.effects, findPosition, lookupBy]

def cashFlows (events : List PortfolioEvent) (c : Currency) : Decimal :=
  (events.map fun e => cashFlow e.payload c).sum

def accountFundingTotal (events : List PortfolioEvent) (c : Currency) : Decimal :=
  Money.totalIn c (events.flatMap fun e => accountFundings e.payload)

theorem reduce_net (h : reducePortfolioEvents codec (first :: rest) = .ok s)
    (hfirst : first.payload = .opening entry) (hrec : NoReconciliation (first :: rest)) :
    net s = (openingNet entry.balances).add (cashFlows (delivered (first :: rest)))
      (accountFundingTotal (delivered (first :: rest))) := by
  have hP := delivered_induction (P := fun done s => Linked s ∧
    ∀ head entry, done.head? = some head → head.payload = .opening entry → NoReconciliation done →
      net s = (openingNet entry.balances).add (cashFlows done) (accountFundingTotal done)) ?_ ?_ h
  · exact hP.2 first entry (delivered_head first rest) hfirst hrec.delivered
  · intro first entry s hs
    refine ⟨hs.inv.linked, fun head entry' hhead hpayload _ => ?_⟩
    obtain rfl := Option.some.inj hhead
    rw [hs.payload] at hpayload
    obtain rfl := PortfolioPayload.opening.inj hpayload
    rw [hs.net_eq]
    ext1 <;> simp [Net.add, cashFlows, accountFundingTotal, hs.payload, cashFlow, fundings,
      conversionTargets, conversionSources, accountFundings]
  · rintro done event s s' ⟨hl, ih⟩ hfresh
    refine ⟨hfresh.step.linked hl, fun head entry hhead hpayload hnone => ?_⟩
    have hdone : NoReconciliation done := fun e he => hnone e (List.mem_append_left _ he)
    have hevent : event.payload.isReconciliation = false := hnone event (by simp)
    have hhead' : done.head? = some head := by
      cases done with
      | nil =>
        -- the opening is never applied again
        obtain rfl := Option.some.inj hhead
        have := hfresh.opening
        rw [hpayload] at this
        cases this
      | cons e done => exact hhead
    rw [hfresh.step.net hl hevent, ih head entry hhead' hpayload hdone]
    ext1 <;> try rfl
    · funext c
      simp only [Net.add, cashFlows, List.map_append, List.sum_append, List.map_singleton, List.sum_singleton]
      ring
    · funext c
      simp only [Net.add, accountFundingTotal, List.flatMap_append, Money.totalIn_append, List.flatMap_singleton]
      ring

/-! ## Places in the logical order -/

/-- The sequences grow from event to event. -/
def Increasing (events : List PortfolioEvent) : Prop :=
  (events.map fun e => e.sequence).Pairwise (· < ·)

instance (events : List PortfolioEvent) : Decidable (Increasing events) :=
  inferInstanceAs (Decidable (List.Pairwise _ _))

theorem Increasing.delivered (h : Increasing events) : Increasing (delivered events) :=
  h.sublist ((delivered_sublist events).map _)

theorem Increasing.concat (h : Increasing (events ++ [event])) :
    Increasing events ∧ ∀ e ∈ events, e.sequence < event.sequence := by
  unfold Increasing at h
  rw [List.map_append, List.pairwise_append] at h
  refine ⟨h.1, fun e he => h.2.2 _ (List.mem_map_of_mem he) _ (by simp)⟩

structure Ticket.Sound (done : List PortfolioEvent) (t : Ticket) : Prop where
  source : t.sourceEvent ∈ done
  payload : t.sourceEvent.payload = .fill t.entry
  status : t.entry.fill.status.IsNormal ∨ t.entry.fill.status = .correction
  place : t.logicalSequence ∈ done.map fun e => e.sequence
  normal : t.entry.fill.status.IsNormal → t.logicalSequence = t.sourceEvent.sequence
  correction : t.entry.fill.status = .correction → t.logicalSequence < t.sourceEvent.sequence
  reconciled : ∀ e ∈ done, e.payload.isReconciliation = true →
    e.sequence < t.sourceEvent.sequence ∧ e.sequence < t.logicalSequence

variable {ts : List Ticket} {t : Ticket}

theorem mem_retain (h : t ∈ retain ts event) : (t ∈ ts ∧ event.payload.isReconciliation = false) ∨
      (t.sourceEvent = event ∧ event.payload = .fill t.entry ∧
        (t.entry.fill.status.IsNormal ∧ t.logicalSequence = event.sequence ∨
          t.entry.fill.status = .correction ∧ ∃ t' ∈ ts, t.logicalSequence = t'.logicalSequence)) := by
  have hothers : ∀ reference, t ∈ withoutTicket ts reference → t ∈ ts :=
    fun reference hm => (List.mem_filter.1 hm).1
  unfold retain at h
  cases hp : event.payload with
  | reconciliation entry => simp [hp] at h
  | fill entry =>
    simp only [hp] at h
    unfold retainFill at h
    cases hstatus : entry.fill.status with
    | partiallyFilled =>
      simp only [hstatus] at h
      rcases List.mem_cons.1 h with rfl | h
      · exact .inr ⟨rfl, rfl, .inl ⟨.inl hstatus, rfl⟩⟩
      · exact .inl ⟨h, rfl⟩
    | filled =>
      simp only [hstatus] at h
      rcases List.mem_cons.1 h with rfl | h
      · exact .inr ⟨rfl, rfl, .inl ⟨.inr hstatus, rfl⟩⟩
      · exact .inl ⟨h, rfl⟩
    | duplicate =>
      simp only [hstatus] at h
      exact .inl ⟨h, rfl⟩
    | correction =>
      simp only [hstatus] at h
      cases href : entry.fill.correctionOfExecutionId with
      | none =>
        simp only [href] at h
        exact .inl ⟨h, rfl⟩
      | some reference =>
        simp only [href] at h
        rcases List.mem_append.1 h with h | h
        · obtain ⟨t', ht', rfl⟩ := List.mem_map.1 h
          have hmem := (lookupBy_some (Option.mem_toList.1 ht')).1
          exact .inr ⟨rfl, rfl, .inr ⟨hstatus, t', hmem, rfl⟩⟩
        · exact .inl ⟨hothers _ h, rfl⟩
    | bust =>
      simp only [hstatus] at h
      cases href : entry.fill.bustOfExecutionId with
      | none =>
        simp only [href] at h
        exact .inl ⟨h, rfl⟩
      | some reference =>
        simp only [href] at h
        exact .inl ⟨hothers _ h, rfl⟩
  | _ => exact .inl ⟨by simpa [hp] using h, rfl⟩

variable {done : List PortfolioEvent}

theorem retain_sound (hinc : Increasing (done ++ [event])) (hts : ∀ t ∈ ts, t.Sound done)
    (ht : t ∈ retain ts event) : t.Sound (done ++ [event]) := by
  obtain ⟨-, hlt⟩ := hinc.concat
  have hplace : ∀ x ∈ done.map (·.sequence), x ∈ (done ++ [event]).map (·.sequence) := by
    intro x hx
    rw [List.map_append]
    exact List.mem_append_left _ hx
  have hbefore : ∀ x ∈ done.map (·.sequence), x < event.sequence := by
    intro x hx
    obtain ⟨e, he, rfl⟩ := List.mem_map.1 hx
    exact hlt e he
  rcases mem_retain ht with ⟨hm, hevent⟩ | ⟨hsource, hpayload, hcase⟩
  · have hs := hts t hm
    refine ⟨List.mem_append_left _ hs.source, hs.payload, hs.status, hplace _ hs.place, hs.normal,
      hs.correction, fun e he hr => ?_⟩
    rcases List.mem_append.1 he with he | he
    · exact hs.reconciled e he hr
    · rw [List.mem_singleton.1 he, hevent] at hr
      cases hr
  · have hself : t.sourceEvent ∈ done ++ [event] := by
      rw [hsource]
      simp
    have hrec : ∀ e ∈ done ++ [event], e.payload.isReconciliation = true → e ∈ done := by
      intro e he hr
      rcases List.mem_append.1 he with he | he
      · exact he
      · rw [List.mem_singleton.1 he, hpayload] at hr
        cases hr
    rcases hcase with ⟨hnormal, hseq⟩ | ⟨hcorrection, t', ht', hseq⟩
    · refine ⟨hself, by rw [hsource, hpayload], .inl hnormal, by rw [hseq]; simp,
        fun _ => by rw [hseq, hsource], fun hc => ?_, fun e he hr => ?_⟩
      · rcases hnormal with h | h <;> rw [h] at hc <;> cases hc
      · rw [hsource, hseq]
        exact ⟨hlt e (hrec e he hr), hlt e (hrec e he hr)⟩
    · have hs := hts t' ht'
      refine ⟨hself, by rw [hsource, hpayload], .inr hcorrection, by rw [hseq]; exact hplace _ hs.place,
        fun hn => ?_, fun _ => by rw [hseq, hsource]; exact hbefore _ hs.place, fun e he hr => ?_⟩
      · rcases hn with h | h <;> rw [h] at hcorrection <;> cases hcorrection
      · rw [hsource, hseq]
        exact ⟨hlt e (hrec e he hr), (hs.reconciled e (hrec e he hr) hr).2⟩

/-! ## The invariant of a run -/

variable {base : PositionKey → LotBase}

theorem Inv.mono {marked marked' : Prop} (h : Inv marked base s) (hm : marked' → marked) : Inv marked' base s := by
  refine ⟨h.linked, h.sequences, fun k => ?_⟩
  have hk := h.keys k
  exact ⟨hk.chain, hk.missing, hk.quantity, hk.average, fun hm' => hk.unrealized (hm hm')⟩

structure RunInv (done : List PortfolioEvent) (base : PositionKey → LotBase)
    (s : PortfolioReplayState) : Prop where
  inv : Inv (NoReconciliation done) base s
  flat : NoReconciliation done → base = fun _ => LotBase.flat
  sound : ∀ t ∈ tickets s, t.Sound done

theorem RunInv.below (h : RunInv done base s) {n : ℕ} (hn : ∀ e ∈ done, e.sequence < n) :
    ∀ e ∈ s.activeEffects, e.logicalSequence < n := by
  intro e he
  obtain ⟨x, hx, hxe⟩ := List.mem_map.1 (h.sound (ticket e) (List.mem_map_of_mem he)).place
  have hlt := hn x hx
  rw [hxe] at hlt
  exact hlt

theorem RunInv.step (h : RunInv done base s) (hinc : Increasing (done ++ [event])) (hfresh : Fresh codec event s s') :
    ∃ base', RunInv (done ++ [event]) base' s' ∧ (event.payload.isReconciliation = false → base' = base) := by
  have hsound : ∀ t ∈ tickets s', t.Sound (done ++ [event]) := fun t ht =>
    retain_sound hinc h.sound (hfresh.step.tickets.mem_iff.1 ht)
  cases hr : event.payload.isReconciliation with
  | false =>
    have hinv := hfresh.step.inv _ base h.inv (fun _ => h.below hinc.concat.2) hr
    refine ⟨base, ⟨hinv.mono fun hn e he => hn e (List.mem_append_left _ he), fun hn => ?_, hsound⟩, fun _ => rfl⟩
    exact h.flat fun e he => hn e (List.mem_append_left _ he)
  | true =>
    have hnot : ¬ NoReconciliation (done ++ [event]) := by
      intro hn
      have := hn event (by simp)
      rw [hr] at this
      cases this
    have hempty : s'.activeEffects = [] := by
      have ht := hfresh.step.tickets
      have hret : retain (tickets s) event = [] := by
        unfold retain
        cases hp : event.payload with
        | reconciliation entry => rfl
        | _ => rw [hp] at hr; cases hr
      rw [hret] at ht
      exact List.map_eq_nil_iff.1 ht.eq_nil
    exact ⟨_, ⟨(inv_of_no_effects hempty).mono fun hn => hnot hn, fun hn => absurd hn hnot, hsound⟩,
      fun hf => by cases hf⟩

theorem reduce_inv (h : reducePortfolioEvents codec events = .ok s) (hinc : Increasing events) :
    ∃ base, RunInv (delivered events) base s := by
  refine delivered_induction (P := fun done s => Increasing done → ∃ base, RunInv done base s)
    ?_ ?_ h hinc.delivered
  · intro first entry s hs _
    refine ⟨fun _ => LotBase.flat, hs.inv.mono fun _ => trivial, fun _ => rfl, fun t ht => ?_⟩
    unfold tickets at ht
    rw [hs.effects] at ht
    cases ht
  · intro done event s s' ih hfresh hinc
    obtain ⟨base, hbase⟩ := ih hinc.concat.1
    obtain ⟨base', hbase', -⟩ := hbase.step hinc hfresh
    exact ⟨base', hbase'⟩

/-! ## A small history

An opening with a thousand dollars, a purchase of ten shares and a mark, in a codec whose texts are the
event identities. -/

def sampleCodec (events : List PortfolioEvent) : Codec where
  sha256 text := text
  eventJson event := toString event.eventId
  storable _ := true
  parse text := (events.find? fun e => toString e.eventId = text).map PortfolioEvent.toLedger
  payloadJson payload := payload.eventType
  stateJson _ observedAt := toString observedAt
  uuid5 _ := 0

def usd (cents : ℤ) : Money := ⟨Decimal.scaled cents 2, .USD, atScale_iff.2 ⟨cents, rfl⟩⟩

def tenShares : OrderQuantity := ⟨Decimal.scaled 10 0, 0, by decide +kernel, by decide +kernel⟩

theorem zero_nonnegative : (0 : Decimal) ≤ 0 := le_rfl

def noShares : OrderQuantity := ⟨0, 0, by decide +kernel, zero_nonnegative⟩

def tenDollars : Price := ⟨Decimal.scaled 10 0, .USD, by decide +kernel⟩

def sampleDefinition : InstrumentDefinition where
  instrumentId := ⟨"ABC", .equity, "XNYS", by decide, by decide⟩
  rawSymbol := "ABC"
  assetClass := .equity
  baseCurrency := none
  quoteCurrency := .USD
  settlementCurrency := .USD
  tickSize := ⟨Decimal.scaled 1 2, .USD, by decide +kernel⟩
  sizeIncrement := ⟨Decimal.scaled 1 0, 0, by decide +kernel, by decide +kernel⟩
  minimumQuantity := ⟨Decimal.scaled 1 0, 0, by decide +kernel, by decide +kernel⟩
  maximumQuantity := ⟨Decimal.scaled 1000 0, 0, by decide +kernel, by decide +kernel⟩
  minimumNotional := usd 100
  maximumNotional := usd 100000000
  multiplier := Decimal.scaled 1 0
  margin := none
  sessionCalendar := "XNYS"
  provenance := ⟨"catalog", "1", 0⟩
  valid := ⟨rfl, rfl, rfl, rfl, ⟨2, by decide +kernel⟩, by decide +kernel, by decide +kernel,
    by decide +kernel, by decide +kernel, by decide +kernel, by decide +kernel, ⟨rfl, rfl⟩,
    by decide +kernel, by decide +kernel, by decide +kernel⟩

def sampleReport (definition : InstrumentDefinition) (quantity leaves : OrderQuantity)
    (executionId : Uuid) (side : OrderSide) (status : FillReportStatus)
    (corrected busted : Option Uuid) : FillReport where
  executionId := executionId
  orderId := 1
  reportSequence := 1
  venueTradeId := "T"
  instrumentDefinition := definition
  side := side
  liquiditySide := .taker
  status := status
  quantity := quantity
  cumulativeFillQuantity := quantity
  leavesQuantity := leaves
  orderQuantity := quantity
  lastFillPrice := tenDollars
  averageFillPrice := tenDollars
  commission := usd 100
  reconciliationSource := .venue
  duplicateOfExecutionId := none
  correctionOfExecutionId := corrected
  bustOfExecutionId := busted
  filledAt := 0

def Fillable (definition : InstrumentDefinition) (quantity leaves : OrderQuantity) : Prop :=
  definition.OnGrid quantity ∧ definition.OnGrid leaves ∧ 0 < quantity.value ∧ leaves.value = 0 ∧
    definition.minimumQuantity.value ≤ quantity.value ∧
    quantity.value ≤ definition.maximumQuantity.value ∧ definition.AdmitsPrice tenDollars

instance (definition : InstrumentDefinition) (quantity leaves : OrderQuantity) :
    Decidable (Fillable definition quantity leaves) :=
  inferInstanceAs (Decidable (_ ∧ _))

theorem sampleReport_valid {definition : InstrumentDefinition} {quantity leaves : OrderQuantity}
    {executionId : Uuid} {side : OrderSide} {status : FillReportStatus} {corrected busted : Option Uuid}
    (hfill : Fillable definition quantity leaves)
    (hrefs : (sampleReport definition quantity leaves executionId side status corrected busted).ReferencesMatch)
    (hself : corrected ≠ some executionId ∧ busted ≠ some executionId) :
    (sampleReport definition quantity leaves executionId side status corrected busted).Valid := by
  obtain ⟨hgrid, hleaves, hpos, hzero, hmin, hmax, hprice⟩ := hfill
  refine ⟨Nat.one_pos, ⟨hgrid, hgrid, hleaves, hgrid⟩, hpos, hpos, hpos, ⟨hmin, hmax⟩, le_rfl, ?_,
    fun _ => hzero, ⟨hprice, hprice⟩, ?_, hrefs, ⟨nofun, hself⟩⟩
  · change quantity.value + leaves.value = quantity.value
    rw [hzero, add_zero]
  · exact (by decide +kernel : 0 ≤ (usd 100).amount)

def sampleBuy (executionId : Uuid) : FillEvent :=
  ⟨sampleReport sampleDefinition tenShares noShares executionId .buy .filled none none,
    sampleReport_valid (by decide +kernel) ⟨rfl, rfl, rfl⟩ ⟨nofun, nofun⟩⟩

def sampleCommon : PortfolioLedgerEntry := ⟨"account", 0, "v1"⟩

def sampleFill (fill : FillEvent) : PortfolioPayload := .fill ⟨sampleCommon, "alpha", fill⟩

def sampleMark : PortfolioPayload :=
  .mark ⟨sampleCommon, sampleDefinition.instrumentId,
    ⟨⟨Decimal.scaled 12 0, .USD, by decide +kernel⟩, 0, "mark"⟩, 0, rfl⟩

def sampleOpening : PortfolioOpeningEntry where
  toPortfolioLedgerEntry := sampleCommon
  reportingCurrency := .USD
  balances := [⟨⟨"account", .USD, usd 100000, usd 0, usd 0, usd 0, usd 0, usd 0, usd 0, 0, "v1"⟩,
    by decide +kernel⟩]
  sourceId := "venue"
  sourceRevision := "1"
  ordered := by decide
  balanceAccount := by decide
  balanceTime := by decide

def sampleEvent (sequence : ℕ) (payload : PortfolioPayload) : PortfolioEvent where
  eventId := sequence + 1
  schemaVersion := "v1"
  source := "venue"
  streamId := 7
  sequence := sequence + 1
  observedAt := 0
  ingestedAt := 0
  producedAt := 0
  effectiveAt := 0
  expiresAt := 1
  correlationId := 1
  causationId := 1
  traceId := 1
  payload := payload
  valid := ⟨Nat.succ_pos _, le_rfl, le_rfl, zero_lt_one⟩

def sampleTail : List PortfolioEvent :=
  [sampleEvent 1 (sampleFill (sampleBuy 11)), sampleEvent 2 sampleMark]

def sampleHistory : List PortfolioEvent := sampleEvent 0 (.opening sampleOpening) :: sampleTail

theorem sampleHistory_reduces : ∃ s, reducePortfolioEvents (sampleCodec sampleHistory) sampleHistory = .ok s := by
  have h : (reducePortfolioEvents (sampleCodec sampleHistory) sampleHistory).isOk = true := by
    decide +kernel
  exact isOk_iff.1 h

end TradingAgent.PortfolioReducer
