import TradingAgent.PortfolioReducer.ExposureTotals
import TradingAgent.RuntimeRisk.Totality

/-! Which derived snapshots the evaluator accepts. -/

namespace TradingAgent.RuntimeRisk

open Outcome PortfolioReducer

section

variable (observation : RuntimeRiskObservation) (policy : RuntimeRiskPolicy) (decidedAt : DateTime)

/-- The signed notional of a reduced position in the reporting currency, without its multiplier. -/
def heldNotional (position : PortfolioPositionState) : Decimal :=
  position.quantity.value * (position.mark.elim 0 fun mark => mark.price.amount) *
    (conversionRate position.settlementCurrency observation policy decidedAt).getD 0

/-- What the reducer adds for a position, at the rates of the evaluator. -/
abbrev ratedAmounts : PortfolioPositionState → Decimal × Decimal :=
  exposedAmounts fun currency => conversionRate currency observation policy decidedAt

/-- What the multiplier of a position adds to the gross and the net exposure. -/
def multiplierExcess (position : PortfolioPositionState) : Decimal × Decimal :=
  ((multiplierOf position - 1) * |heldNotional observation policy decidedAt position|,
    (multiplierOf position - 1) * heldNotional observation policy decidedAt position)

def CancelsBy (state : PortfolioReplayState) (key : PortfolioPositionState → String) : Prop :=
  ∀ p ∈ heldPositions state, (((heldPositions state).filter fun q => key q = key p).map
    (multiplierExcess observation policy decidedAt)).sum = 0

/-- Multipliers change no total of a partition. -/
structure MultipliersCancel (state : PortfolioReplayState) : Prop where
  instruments : CancelsBy observation policy decidedAt state fun p => p.instrument.canonical
  strategies : CancelsBy observation policy decidedAt state fun p => p.strategyId
  venues : CancelsBy observation policy decidedAt state fun p => p.instrument.venue

/-- Both sides convert at the same rates. -/
def SameRates (state : PortfolioReplayState) (observedAt : DateTime) : Prop :=
  ∀ p ∈ heldPositions state, ∀ rate,
    valuationRate state p.settlementCurrency state.snapshot.reportingCurrency observedAt = .ok rate →
      conversionRate p.settlementCurrency observation policy decidedAt = some rate

variable {observation policy decidedAt} {state : PortfolioReplayState} {observedAt : DateTime}

theorem conversionRate_pos {source : Currency} {rate : Decimal}
    (h : conversionRate source observation policy decidedAt = some rate) : 0 < rate := by
  unfold conversionRate at h
  simp only at h
  split_ifs at h
  · rw [← Option.some.inj h]
    exact one_pos
  · obtain ⟨item, -, rfl⟩ := Option.map_eq_some_iff.1 h
    exact item.rate_pos

end

/-! ## Derived partitions -/

section

variable {observation : RuntimeRiskObservation} {policy : RuntimeRiskPolicy} {decidedAt : DateTime}
  {state : PortfolioReplayState} {currency : Currency}

def heldContribution (observation : RuntimeRiskObservation) (policy : RuntimeRiskPolicy) (decidedAt : DateTime)
    (position : PortfolioPositionState) : Decimal × Decimal :=
  (|heldNotional observation policy decidedAt position|, heldNotional observation policy decidedAt position)

theorem exposedAmounts_eq (p : PortfolioPositionState) : ratedAmounts observation policy decidedAt p =
    heldContribution observation policy decidedAt p + multiplierExcess observation policy decidedAt p := by
  have habs : |heldNotional observation policy decidedAt p| = |p.quantity.value| *
      (p.mark.elim 0 (·.price.amount)) *
        (conversionRate p.settlementCurrency observation policy decidedAt).getD 0 := by
    have hmark : (0 : Decimal) ≤ p.mark.elim 0 (·.price.amount) := by
      cases p.mark with
      | none => exact le_rfl
      | some mark => exact mark.price.pos.le
    have hrate : 0 ≤ (conversionRate p.settlementCurrency observation policy decidedAt).getD 0 := by
      cases h : conversionRate p.settlementCurrency observation policy decidedAt with
      | none => exact le_rfl
      | some rate => exact (conversionRate_pos h).le
    unfold heldNotional
    rw [abs_mul, abs_mul, abs_of_nonneg hmark, abs_of_nonneg hrate]
  unfold ratedAmounts exposedAmounts heldContribution multiplierExcess
  rw [Prod.mk_add_mk, Prod.mk.injEq, habs]
  unfold heldNotional
  exact ⟨by ring, by ring⟩

variable {o : AccountPositionSnapshot}

theorem contribution_eq {p : PortfolioPositionState} (h : o.toAccountPositionFields = observedFields p) :
    contribution observation policy decidedAt o = heldContribution observation policy decidedAt p := by
  have hnotional : positionNotional observation policy decidedAt o = heldNotional observation policy decidedAt p := by
    unfold positionNotional
    rw [h]
    rfl
  unfold contribution heldContribution
  rw [hnotional]

/-- The observation has the positions of the state. -/
structure Observes (observation : RuntimeRiskObservation) (state : PortfolioReplayState)
    (observed : List AccountPositionSnapshot) : Prop where
  fields : List.Forall₂ (fun p o => o.toAccountPositionFields = observedFields p) state.snapshot.positions observed
  stored : observation.portfolio.positions.Perm observed

variable {observed : List AccountPositionSnapshot}

theorem Observes.held (h : Observes observation state observed) :
    List.Forall₂ (fun p o => o.toAccountPositionFields = observedFields p) (heldPositions state)
      (observed.filter fun o => o.quantity.value ≠ 0) := by
  refine List.rel_filter (fun p o hfields => ?_) h.fields
  simp only
  rw [hfields]
  exact Iff.rfl

theorem Observes.exists_held (h : Observes observation state observed) (ho : o ∈ openPositions observation.portfolio) :
    ∃ p ∈ heldPositions state, o.toAccountPositionFields = observedFields p := by
  have hmem := (h.stored.filter fun o => o.quantity.value ≠ 0).mem_iff.1 ho
  obtain ⟨i, hi, rfl⟩ := List.mem_iff_getElem.1 hmem
  obtain ⟨hlength, hget⟩ := List.forall₂_iff_get.1 h.held
  exact ⟨(heldPositions state)[i], List.getElem_mem _, hget i (hlength ▸ hi) hi⟩

theorem Observes.groupTotal_eq (h : Observes observation state observed)
    {key : AccountPositionSnapshot → String} {key' : PortfolioPositionState → String}
    (hkey : ∀ p o, o.toAccountPositionFields = observedFields p → key o = key' p) (k : String) :
    groupTotal observation policy decidedAt key (openPositions observation.portfolio) k =
      (((heldPositions state).filter fun p => key' p = k).map (heldContribution observation policy decidedAt)).sum := by
  have hgroup : List.Forall₂ (fun p o => o.toAccountPositionFields = observedFields p)
      ((heldPositions state).filter fun p => key' p = k)
      ((observed.filter fun o => o.quantity.value ≠ 0).filter fun o => key o = k) := by
    refine List.rel_filter (fun p o hfields => ?_) h.held
    simp only [decide_eq_true_eq]
    rw [hkey p o hfields]
  have hperm := (((h.stored.filter fun o => o.quantity.value ≠ 0).filter fun o => key o = k).map
    (contribution observation policy decidedAt)).sum_eq
  refine hperm.trans (congrArg List.sum ?_)
  rw [← List.forall₂_eq_eq_eq, List.forall₂_map_left_iff, List.forall₂_map_right_iff]
  exact hgroup.flip.imp fun o p hfields => contribution_eq hfields

end

/-! ## Agreement -/

section

variable {observation : RuntimeRiskObservation} {policy : RuntimeRiskPolicy} {decidedAt : DateTime}
  {state : PortfolioReplayState} {observed : List AccountPositionSnapshot}

theorem sum_exposedAmounts (positions : List PortfolioPositionState) :
    (positions.map (ratedAmounts observation policy decidedAt)).sum =
      (positions.map (heldContribution observation policy decidedAt)).sum +
        (positions.map (multiplierExcess observation policy decidedAt)).sum := by
  rw [← List.sum_map_add]
  exact congrArg (fun f => (positions.map f).sum) (funext exposedAmounts_eq)

theorem groupsAgree_derived {κ : Type} [DecidableEq κ] {exposures : List (κ × ExposureSnapshot)}
    {name : κ → String} {key : AccountPositionSnapshot → String} {key' : PortfolioPositionState → κ}
    (hobserves : Observes observation state observed)
    (hkey : ∀ p o, o.toAccountPositionFields = observedFields p → key o = name (key' p))
    (hplain : ∀ e ∈ exposures, e.2.pending.amount = 0 ∧ e.2.currency = observation.portfolio.reportingCurrency)
    (hperm : (exposures.map fun e => (e.1, (e.2.gross.amount, e.2.net.amount))).Perm
      (Dict.tally key' (ratedAmounts observation policy decidedAt) (heldPositions state)))
    (hnodup : (exposures.map fun e => name e.1).Nodup)
    (hpending : observation.portfolio.totalExposure.pending.amount = 0) :
    GroupsAgree observation policy decidedAt (Dict.ofList (exposures.map fun e => (name e.1, e.2))) key ↔
      CancelsBy observation policy decidedAt state fun p => name (key' p) := by
  have hkeys : Dict.keys (exposures.map fun e => (name e.1, e.2)) = exposures.map fun e => name e.1 := by
    unfold Dict.keys
    rw [List.map_map]
    rfl
  have hmem : ∀ k, k ∈ exposures.map Prod.fst ↔ k ∈ (heldPositions state).map key' := by
    intro k
    have hfst : exposures.map Prod.fst =
        (exposures.map fun e => (e.1, (e.2.gross.amount, e.2.net.amount))).map Prod.fst := by
      rw [List.map_map]
      rfl
    rw [hfst, (hperm.map Prod.fst).mem_iff]
    exact Dict.mem_keys_tally key' _ _ k
  -- names decide the keys that occur
  have hname : ∀ e ∈ exposures, ∀ p ∈ heldPositions state, name (key' p) = name e.1 ↔ key' p = e.1 := by
    intro e he p hp
    refine ⟨fun hsame => ?_, fun hsame => by rw [hsame]⟩
    obtain ⟨e', he', hfst⟩ := List.mem_map.1 ((hmem (key' p)).2 (List.mem_map_of_mem hp))
    rw [← hfst] at hsame ⊢
    rw [List.inj_on_of_nodup_map hnodup he' he hsame]
  have hgroup : ∀ e ∈ exposures, (e.2.gross.amount, e.2.net.amount) =
      (((heldPositions state).filter fun p => name (key' p) = name e.1).map
        (ratedAmounts observation policy decidedAt)).sum := by
    intro e he
    have hentry := hperm.mem_iff.1 (List.mem_map.2 ⟨e, he, rfl⟩)
    have htotal := (Dict.get?_eq_some_iff (Dict.nodup_keys_tally _ _ _)).2 hentry
    have hsum := Dict.total_tally key' (ratedAmounts observation policy decidedAt) (heldPositions state) e.1
    unfold Dict.total at hsum
    rw [htotal] at hsum
    refine hsum.trans (congrArg (fun l => (List.map _ l).sum) (List.filter_congr fun p hp => ?_))
    rw [decide_eq_decide]
    exact (hname e he p hp).symm
  have hentries : ∀ e ∈ exposures, ((e.2.gross.amount, e.2.net.amount) =
      groupTotal observation policy decidedAt key (openPositions observation.portfolio) (name e.1) ↔
        (((heldPositions state).filter fun p => name (key' p) = name e.1).map
          (multiplierExcess observation policy decidedAt)).sum = 0) := by
    intro e he
    rw [hgroup e he, hobserves.groupTotal_eq hkey, sum_exposedAmounts, add_eq_left]
  rw [Dict.ofList_of_nodup (by rw [hkeys]; exact hnodup)]
  constructor
  · intro h p hp
    obtain ⟨e, he, hfst⟩ := List.mem_map.1 ((hmem (key' p)).2 (List.mem_map_of_mem hp))
    have htotal := (h.totals (name e.1, e.2) (List.mem_map.2 ⟨e, he, rfl⟩)).2
    have hcancels := (hentries e he).1 htotal
    rw [hfst] at hcancels
    exact hcancels
  · intro h
    refine ⟨fun o ho => ?_, fun entry hentry => ?_, ?_⟩
    · obtain ⟨p, hp, hfields⟩ := hobserves.exists_held ho
      rw [hkeys, hkey p o hfields]
      obtain ⟨e, he, hfst⟩ := List.mem_map.1 ((hmem (key' p)).2 (List.mem_map_of_mem hp))
      exact List.mem_map.2 ⟨e, he, by rw [hfst]⟩
    · obtain ⟨e, he, rfl⟩ := List.mem_map.1 hentry
      refine ⟨(hplain e he).2, (hentries e he).2 ?_⟩
      obtain ⟨p, hp, hsame⟩ := List.mem_map.1 ((hmem e.1).1 (List.mem_map_of_mem he))
      rw [← hsame]
      exact h p hp
    · rw [hpending]
      refine List.sum_eq_zero fun x hx => ?_
      unfold Dict.values at hx
      rw [List.map_map, List.map_map] at hx
      obtain ⟨e, he, rfl⟩ := List.mem_map.1 hx
      exact (hplain e he).1

end

/-! ## Derived snapshots -/

section

variable {observation : RuntimeRiskObservation} {policy : RuntimeRiskPolicy} {decidedAt : DateTime}
  {state : PortfolioReplayState} {observedAt : DateTime} {codec : PortfolioReducer.Codec}

structure Derives (observation : RuntimeRiskObservation) (policy : RuntimeRiskPolicy) (decidedAt : DateTime)
    (state : PortfolioReplayState) : Prop where
  valued : PositionsValued observation policy decidedAt
  observed : ∃ observed, Observes observation state observed
  total : (observation.portfolio.totalExposure.gross.amount, observation.portfolio.totalExposure.net.amount) =
    ((heldPositions state).map (ratedAmounts observation policy decidedAt)).sum
  instruments : GroupsAgree observation policy decidedAt (instrumentExposuresOf observation.portfolio)
    (fun p => p.instrument.canonical) ↔
      CancelsBy observation policy decidedAt state fun p => p.instrument.canonical
  strategies : GroupsAgree observation policy decidedAt (strategyExposuresOf observation.portfolio)
    (fun p => p.strategyId) ↔ CancelsBy observation policy decidedAt state fun p => p.strategyId
  venues : GroupsAgree observation policy decidedAt (venueExposuresOf observation.portfolio)
    (fun p => p.instrument.venue) ↔ CancelsBy observation policy decidedAt state fun p => p.instrument.venue

theorem derives_of_snapshot (hrates : SameRates observation policy decidedAt state observedAt)
    (h : deriveAccountSnapshot codec state observedAt = .ok observation.portfolio) :
    Derives observation policy decidedAt state := by
  have hderivation : Derivation state observedAt
      (fun currency => conversionRate currency observation policy decidedAt) observation.portfolio :=
    derivation_of_ok hrates h
  obtain ⟨observed, hfields, hperm⟩ := hderivation.observed
  have hobserves : Observes observation state observed := ⟨hfields, hperm⟩
  obtain ⟨⟨hinodup, -⟩, ⟨hsnodup, -⟩, hvnodup, -⟩ := exposures_ordered observation.portfolio
  refine ⟨fun o ho => ?_, ⟨_, hobserves⟩, hderivation.total, ?_, ?_, ?_⟩
  · obtain ⟨p, hp, hsame⟩ := hobserves.exists_held ho
    obtain ⟨-, -, rate, -, -, hrate⟩ := hderivation.valued p hp
    rw [hsame]
    exact Option.isSome_iff_exists.2 ⟨rate, hrates p hp rate hrate⟩
  · have hgroups := @groupsAgree_derived _ _ _ _ _ _ _ _ InstrumentId.canonical
      (·.instrument.canonical) (·.instrument) hobserves (fun p o hsame => by rw [hsame]; rfl)
      (hderivation.reporting ▸ hderivation.instruments.plain) hderivation.instruments.tally
      (by rw [List.map_map]; exact hinodup) hderivation.pending
    rw [List.map_map] at hgroups
    exact hgroups
  · have hgroups := @groupsAgree_derived _ _ _ _ _ _ _ _ id
      (·.strategyId) (·.strategyId) hobserves (fun p o hsame => by rw [hsame]; rfl)
      (hderivation.reporting ▸ hderivation.strategies.plain) hderivation.strategies.tally
      (by rw [List.map_map]; exact hsnodup) hderivation.pending
    rw [List.map_map] at hgroups
    exact hgroups
  · have hgroups := @groupsAgree_derived _ _ _ _ _ _ _ _ id
      (·.instrument.venue) (·.instrument.venue) hobserves (fun p o hsame => by rw [hsame]; rfl)
      (hderivation.reporting ▸ hderivation.venues.plain) hderivation.venues.tally
      (by rw [List.map_map]; exact hvnodup) hderivation.pending
    rw [List.map_map] at hgroups
    exact hgroups

theorem sum_excess_eq_zero (h : CancelsBy observation policy decidedAt state (·.instrument.canonical)) :
    ((heldPositions state).map (multiplierExcess observation policy decidedAt)).sum = 0 := by
  have hsum := Dict.sum_values_tally (fun p : PortfolioPositionState => p.instrument.canonical)
    (multiplierExcess observation policy decidedAt) (heldPositions state)
  rw [← hsum]
  refine List.sum_eq_zero fun v hv => ?_
  obtain ⟨⟨k, _⟩, hentry, rfl⟩ := List.mem_map.1 hv
  have hkey := (Dict.mem_keys_tally _ _ _ k).1 (List.mem_map.2 ⟨_, hentry, rfl⟩)
  obtain ⟨p, hp, rfl⟩ := List.mem_map.1 hkey
  have hget := (Dict.get?_eq_some_iff (Dict.nodup_keys_tally _ _ _)).2 hentry
  have htotal := Dict.total_tally (fun p : PortfolioPositionState => p.instrument.canonical)
    (multiplierExcess observation policy decidedAt) (heldPositions state) p.instrument.canonical
  unfold Dict.total at htotal
  rw [hget] at htotal
  exact htotal.trans (h p hp)

theorem positionsAgree_iff (h : Derives observation policy decidedAt state) :
    PositionsAgree observation policy decidedAt ↔ MultipliersCancel observation policy decidedAt state := by
  obtain ⟨observed, hobserves⟩ := h.observed
  constructor
  · rintro ⟨-, hi, hs, hv⟩
    exact ⟨h.instruments.1 hi, h.strategies.1 hs, h.venues.1 hv⟩
  · rintro ⟨hi, hs, hv⟩
    refine ⟨?_, h.instruments.2 hi, h.strategies.2 hs, h.venues.2 hv⟩
    have hopen : ((openPositions observation.portfolio).map (contribution observation policy decidedAt)).sum =
        ((heldPositions state).map (heldContribution observation policy decidedAt)).sum := by
      have hperm := ((h.observed.choose_spec.stored.filter fun o => o.quantity.value ≠ 0).map
        (contribution observation policy decidedAt)).sum_eq
      refine hperm.trans (congrArg List.sum ?_)
      rw [← List.forall₂_eq_eq_eq, List.forall₂_map_left_iff, List.forall₂_map_right_iff]
      exact h.observed.choose_spec.held.flip.imp fun o p hfields => contribution_eq hfields
    rw [h.total, sum_exposedAmounts, sum_excess_eq_zero hi, add_zero, hopen]

/-- The exposures of a derived snapshot are accepted exactly when the multipliers cancel in every group and the
amounts can be written. -/
theorem derived_exposures_accepted_iff (codec : PortfolioReducer.Codec) (state : PortfolioReplayState)
    (observedAt : DateTime) (observation : RuntimeRiskObservation) (policy : RuntimeRiskPolicy)
    (decidedAt : DateTime)
    (hsnapshot : deriveAccountSnapshot codec state observedAt = .ok observation.portfolio)
    (hrates : SameRates observation policy decidedAt state observedAt) :
    (PartitionsAreConsistent observation policy decidedAt ∧
      ∃ partitions, positionContributions observation policy decidedAt = .ok partitions ∧
        verifyPartitions observation partitions = .ok ()) ↔
      MultipliersCancel observation policy decidedAt state ∧
        ContributionDigits observation policy decidedAt (openPositions observation.portfolio) ∧
        TotalDigits observation := by
  have hderives := derives_of_snapshot hrates hsnapshot
  rw [partitionsAreConsistent_iff, positionsAgree_iff hderives, positionContributions_eq hderives.valued]
  simp only [checked_ok_iff]
  constructor
  · rintro ⟨⟨-, hcancel⟩, _, ⟨hdigits, rfl⟩, hverified⟩
    exact ⟨hcancel, hdigits, (verifyPartitions_ok_iff.1 hverified).2⟩
  · rintro ⟨hcancel, hdigits, htotals⟩
    exact ⟨⟨hderives.valued, hcancel⟩, _, ⟨hdigits, rfl⟩,
      verifyPartitions_ok_iff.2 ⟨(positionsAgree_iff hderives).2 hcancel, htotals⟩⟩

end

/-! ## A contract with a multiplier -/

def doubleContract : InstrumentDefinition where
  toInstrumentCatalog := { sampleDefinition.toInstrumentCatalog with multiplier := Decimal.scaled 2 0 }
  valid := ⟨rfl, rfl, rfl, rfl, ⟨2, by decide +kernel⟩, by decide +kernel, by decide +kernel,
    by decide +kernel, by decide +kernel, by decide +kernel, by decide +kernel, ⟨rfl, rfl⟩,
    by decide +kernel, by decide +kernel, by decide +kernel⟩

theorem doubleBuy_valid : (sampleReport doubleContract tenShares noShares 11 .buy .filled none none).Valid :=
  sampleReport_valid (by decide +kernel) ⟨rfl, rfl, rfl⟩ ⟨by simp, by simp⟩

def doubleBuy : FillEvent := ⟨_, doubleBuy_valid⟩

def doubleHistory : List PortfolioEvent :=
  [sampleEvent 0 (.opening sampleOpening), sampleEvent 1 (sampleFill doubleBuy), sampleEvent 2 sampleMark]

def doubleState : PortfolioReplayState :=
  (reducePortfolioEvents (sampleCodec doubleHistory) doubleHistory).toOption.get (by decide +kernel)

def singleState : PortfolioReplayState :=
  (reducePortfolioEvents (sampleCodec sampleHistory) sampleHistory).toOption.get (by decide +kernel)

def derivedPortfolio (state : PortfolioReplayState) : AccountPortfolioSnapshot :=
  (deriveAccountSnapshot (sampleCodec []) state 0).toOption.getD samplePortfolio

def derivedFields (state : PortfolioReplayState) : RuntimeRiskObservationFields :=
  { sampleObservation.toRuntimeRiskObservationFields with portfolio := derivedPortfolio state }

def doubleObservation : RuntimeRiskObservation := ⟨derivedFields doubleState, by constructor <;> decide +kernel⟩

def singleObservation : RuntimeRiskObservation := ⟨derivedFields singleState, by constructor <;> decide +kernel⟩

theorem sameRates_of_reporting {observation : RuntimeRiskObservation} {policy : RuntimeRiskPolicy}
    {decidedAt observedAt : DateTime} {state : PortfolioReplayState}
    (hreporting : observation.portfolio.reportingCurrency = state.snapshot.reportingCurrency)
    (h : ∀ p ∈ heldPositions state, p.settlementCurrency = state.snapshot.reportingCurrency) :
    SameRates observation policy decidedAt state observedAt := by
  intro p hp rate hrate
  unfold valuationRate at hrate
  rw [if_pos (h p hp)] at hrate
  unfold conversionRate
  rw [if_pos ((h p hp).trans hreporting.symm), ← Except.ok.inj hrate]

theorem single_shares_accepted :
    deriveAccountSnapshot (sampleCodec []) singleState 0 = .ok singleObservation.portfolio ∧
      SameRates singleObservation samplePolicy 0 singleState 0 ∧
      PartitionsAreConsistent singleObservation samplePolicy 0 ∧
      MultipliersCancel singleObservation samplePolicy 0 singleState := by
  have hsnapshot : deriveAccountSnapshot (sampleCodec []) singleState 0 = .ok singleObservation.portfolio := by
    decide +kernel
  have hrates : SameRates singleObservation samplePolicy 0 singleState 0 :=
    sameRates_of_reporting (by decide +kernel) (by decide +kernel)
  have hconsistent : PartitionsAreConsistent singleObservation samplePolicy 0 := by decide +kernel
  have hverified : (positionContributions singleObservation samplePolicy 0 >>=
      verifyPartitions singleObservation) = .ok () := by
    decide +kernel
  have haccepted := (derived_exposures_accepted_iff _ _ _ _ _ _ hsnapshot hrates).1
    ⟨hconsistent, bind_ok_iff.1 hverified⟩
  exact ⟨hsnapshot, hrates, hconsistent, haccepted.1⟩

theorem double_contracts_refused : ¬ ∀ (codec : PortfolioReducer.Codec) (state : PortfolioReplayState)
    (observedAt : DateTime) (observation : RuntimeRiskObservation) (policy : RuntimeRiskPolicy)
    (decidedAt : DateTime), deriveAccountSnapshot codec state observedAt = .ok observation.portfolio →
      SameRates observation policy decidedAt state observedAt →
      PartitionsAreConsistent observation policy decidedAt ∧
        ∃ partitions, positionContributions observation policy decidedAt = .ok partitions ∧
          verifyPartitions observation partitions = .ok () := by
  intro h
  have hsnapshot : deriveAccountSnapshot (sampleCodec []) doubleState 0 = .ok doubleObservation.portfolio := by
    decide +kernel
  have hrates : SameRates doubleObservation samplePolicy 0 doubleState 0 :=
    sameRates_of_reporting (by decide +kernel) (by decide +kernel)
  have hrefused : ¬ PartitionsAreConsistent doubleObservation samplePolicy 0 := by decide +kernel
  exact hrefused (h _ _ _ _ _ _ hsnapshot hrates).1

end TradingAgent.RuntimeRisk
