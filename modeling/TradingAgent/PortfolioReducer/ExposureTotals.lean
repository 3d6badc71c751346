import Mathlib.Algebra.Ring.Subring.Order
import TradingAgent.PortfolioReducer.Run
import TradingAgent.PortfolioReducer.Exposure
import TradingAgent.Lib.Tally

/-! The exposures of a snapshot add up. -/

namespace TradingAgent.PortfolioReducer

open Outcome

def heldPositions (state : PortfolioReplayState) : List PortfolioPositionState :=
  state.snapshot.positions.filter fun position => position.quantity.value ≠ 0

def multiplierOf (position : PortfolioPositionState) : Decimal :=
  position.instrumentDefinition.elim 1 fun definition => definition.multiplier

/-- What the loop adds to the gross and the net exposure for a position. -/
def exposedAmounts (rateOf : Currency → Option Decimal) (position : PortfolioPositionState) : Decimal × Decimal :=
  let value := (position.mark.elim 0 fun mark => mark.price.amount) * multiplierOf position *
    (rateOf position.settlementCurrency).getD 0
  (|position.quantity.value| * value, position.quantity.value * value)

variable {rateOf : Currency → Option Decimal} {state : PortfolioReplayState} {observedAt : DateTime}

theorem addAmounts_eq {κ : Type} [DecidableEq κ] (amounts : Amounts κ) (key : κ) (notional signed : Decimal)
    (field : String) : addAmounts amounts key notional signed field = .ok (amounts.addAt key (notional, signed)) := by
  have hpair : ∀ a b : Decimal, [a, b].sum = a + b := fun a b => by simp
  unfold addAmounts
  simp only [sum_eq, ok_bind, hpair]
  rfl

def Valued (state : PortfolioReplayState) (observedAt : DateTime) (position : PortfolioPositionState) : Prop :=
  ∃ mark definition rate, position.mark = some mark ∧ position.instrumentDefinition = some definition ∧
    valuationRate state position.settlementCurrency state.snapshot.reportingCurrency observedAt = .ok rate

variable {position : PortfolioPositionState}

theorem markedExposure_ok {notional : Decimal}
    (hrates : ∀ rate, valuationRate state position.settlementCurrency state.snapshot.reportingCurrency
      observedAt = .ok rate → rateOf position.settlementCurrency = some rate)
    (h : markedExposure state position observedAt = .ok notional) :
    Valued state observedAt position ∧
      (notional, if position.quantity.value > 0 then notional else -notional) = exposedAmounts rateOf position := by
  unfold markedExposure at h
  cases hmark : position.mark with
  | none =>
    rw [hmark] at h
    cases h
  | some mark =>
    rw [hmark] at h
    obtain ⟨rate, hrate, h⟩ := bind_ok_iff.1 h
    cases hdefinition : position.instrumentDefinition with
    | none =>
      rw [hdefinition] at h
      cases h
    | some definition =>
      rw [hdefinition] at h
      have hnotional : notional = |position.quantity.value| * (mark.price.amount * definition.multiplier * rate) := by
        simp only [product_eq, Except.ok.injEq] at h
        rw [← h]
        simp [mul_assoc]
      refine ⟨⟨mark, definition, rate, hmark, hdefinition, hrate⟩, ?_⟩
      unfold exposedAmounts multiplierOf
      rw [hmark, hdefinition, hrates rate hrate, hnotional, Prod.mk.injEq]
      refine ⟨rfl, ?_⟩
      simp only [Option.elim_some, Option.getD_some]
      split_ifs with hpos
      · rw [abs_of_pos hpos]
      · rw [abs_of_nonpos (not_lt.1 hpos)]
        ring

/-- What the loop of `derive_account_snapshot` has after some positions. -/
structure ExposedSoFar (state : PortfolioReplayState) (observedAt : DateTime) (rateOf : Currency → Option Decimal)
    (positions : List PortfolioPositionState) (acc : ExposureAmounts) : Prop where
  observed : List.Forall₂ (fun p o => o.toAccountPositionFields = observedFields p) positions acc.positions
  valued : ∀ p ∈ positions, p.quantity.value ≠ 0 → Valued state observedAt p
  instruments : acc.instruments = Dict.tally (fun p => p.instrument)
    (exposedAmounts rateOf) (positions.filter fun p => p.quantity.value ≠ 0)
  strategies : acc.strategies = Dict.tally (fun p => p.strategyId)
    (exposedAmounts rateOf) (positions.filter fun p => p.quantity.value ≠ 0)
  venues : acc.venues = Dict.tally (fun p => p.instrument.venue)
    (exposedAmounts rateOf) (positions.filter fun p => p.quantity.value ≠ 0)

variable {positions : List PortfolioPositionState} {acc : ExposureAmounts}

theorem ExposedSoFar.step {next : ExposureAmounts} (h : ExposedSoFar state observedAt rateOf positions acc)
    (hrates : position.quantity.value ≠ 0 → ∀ rate, valuationRate state position.settlementCurrency
      state.snapshot.reportingCurrency observedAt = .ok rate → rateOf position.settlementCurrency = some rate)
    (hstep : exposePosition state observedAt acc position = .ok next) :
    ExposedSoFar state observedAt rateOf (positions ++ [position]) next := by
  unfold exposePosition at hstep
  obtain ⟨observed, hobserved, hstep⟩ := bind_ok_iff.1 hstep
  have hfields : observed.toAccountPositionFields = observedFields position :=
    AccountPositionSnapshot.of_ok_iff.1 hobserved
  have hpositions : List.Forall₂ (fun p o => o.toAccountPositionFields = observedFields p)
      (positions ++ [position]) (acc.positions ++ [observed]) :=
    List.rel_append h.observed (.cons hfields .nil)
  by_cases hflat : position.quantity.value = 0
  · simp only [if_pos hflat] at hstep
    obtain rfl := Except.ok.inj hstep
    have hfilter : (positions ++ [position]).filter (fun p => p.quantity.value ≠ 0) =
        positions.filter fun p => p.quantity.value ≠ 0 := by
      simp [hflat]
    refine ⟨hpositions, fun p hp hopen => ?_, ?_, ?_, ?_⟩
    · rcases List.mem_append.1 hp with hp | hp
      · exact h.valued p hp hopen
      · rw [List.mem_singleton.1 hp] at hopen
        exact absurd hflat hopen
    · rw [hfilter]
      exact h.instruments
    · rw [hfilter]
      exact h.strategies
    · rw [hfilter]
      exact h.venues
  · simp only [if_neg hflat] at hstep
    obtain ⟨notional, hnotional, hstep⟩ := bind_ok_iff.1 hstep
    obtain ⟨hvalued, hexposed⟩ := markedExposure_ok (hrates hflat) hnotional
    simp only [addAmounts_eq, hexposed, ok_bind] at hstep
    obtain rfl := Except.ok.inj hstep
    have hfilter : (positions ++ [position]).filter (fun p => p.quantity.value ≠ 0) =
        (positions.filter fun p => p.quantity.value ≠ 0) ++ [position] := by
      simp [hflat]
    refine ⟨hpositions, fun p hp hopen => ?_, ?_, ?_, ?_⟩
    · rcases List.mem_append.1 hp with hp | hp
      · exact h.valued p hp hopen
      · rw [List.mem_singleton.1 hp]
        exact hvalued
    · rw [hfilter, Dict.tally_concat, ← h.instruments]
    · rw [hfilter, Dict.tally_concat, ← h.strategies]
    · rw [hfilter, Dict.tally_concat, ← h.venues]

theorem foldlM_exposePosition
    (hrates : ∀ p ∈ positions, p.quantity.value ≠ 0 → ∀ rate, valuationRate state p.settlementCurrency
      state.snapshot.reportingCurrency observedAt = .ok rate → rateOf p.settlementCurrency = some rate)
    (h : positions.foldlM (exposePosition state observedAt) ⟨[], [], [], []⟩ = .ok acc) :
    ExposedSoFar state observedAt rateOf positions acc := by
  induction positions using List.reverseRecOn generalizing acc with
  | nil =>
    obtain rfl := Except.ok.inj h
    exact ⟨.nil, fun _ hp => (nomatch hp), rfl, rfl, rfl⟩
  | append_singleton positions position ih =>
    rw [foldlM_concat] at h
    obtain ⟨before, hbefore, hstep⟩ := bind_ok_iff.1 h
    have hexposed := ih (fun p hp => hrates p (List.mem_append_left _ hp)) hbefore
    exact hexposed.step (hrates position (by simp)) hstep

variable {currency : Currency}

theorem exposure_ok {gross net : Decimal} {e : ExposureSnapshot} (h : exposure gross net currency = .ok e) :
    (e.gross.amount, e.net.amount) = (gross, net) ∧ e.pending.amount = 0 ∧ e.currency = currency := by
  unfold exposure at h
  obtain ⟨g, hg, h⟩ := bind_ok_iff.1 h
  obtain ⟨n, hn, h⟩ := bind_ok_iff.1 h
  obtain ⟨p, hp, h⟩ := bind_ok_iff.1 h
  rw [ExposureSnapshot.of_ok_iff.1 h]
  exact ⟨Prod.ext (money_ok_iff.1 hg).1 (money_ok_iff.1 hn).1, (money_ok_iff.1 hp).1, rfl⟩

theorem partitionExposures_ok {κ ω : Type} [LinearOrder ω] {order : κ → ω} {amounts : Amounts κ}
    {exposures : List (κ × ExposureSnapshot)} (h : partitionExposures order amounts currency = .ok exposures) :
    (∀ e ∈ exposures, e.2.pending.amount = 0 ∧ e.2.currency = currency) ∧
      (exposures.map fun e => (e.1, (e.2.gross.amount, e.2.net.amount))).Perm amounts := by
  unfold partitionExposures at h
  have hpairs : List.Forall₂ (fun (e : κ × ExposureSnapshot) (a : κ × Decimal × Decimal) =>
      (e.2.pending.amount = 0 ∧ e.2.currency = currency) ∧
        (e.1, (e.2.gross.amount, e.2.net.amount)) = a) exposures (sortBy (fun e => order e.1) amounts) := by
    refine ((mapM_ok_iff.1 h).imp fun a e he => ?_).flip
    obtain ⟨exposed, hexposed, he⟩ := bind_ok_iff.1 he
    obtain rfl := Except.ok.inj he
    obtain ⟨hamounts, hrest⟩ := exposure_ok hexposed
    exact ⟨hrest, Prod.ext rfl hamounts⟩
  obtain ⟨hplain, hsame⟩ := (List.forall₂_and_left _ _).1 hpairs
  rw [← List.forall₂_map_left_iff (f := fun e : κ × ExposureSnapshot =>
    (e.1, (e.2.gross.amount, e.2.net.amount))) (R := Eq), List.forall₂_eq_eq_eq] at hsame
  refine ⟨hplain, ?_⟩
  rw [hsame]
  exact sortBy_perm _ _

def ratesAt (state : PortfolioReplayState) (observedAt : DateTime) (currency : Currency) : Option Decimal :=
  (valuationRate state currency state.snapshot.reportingCurrency observedAt).toOption

structure PartitionOf {κ ω : Type} [DecidableEq κ] [LinearOrder ω] (amounts : PortfolioPositionState → Decimal × Decimal)
    (positions : List PortfolioPositionState) (key : PortfolioPositionState → κ) (order : κ → ω)
    (total : ExposureSnapshot) (entries : List (κ × ExposureSnapshot)) : Prop where
  keys : ∀ k, k ∈ entries.map Prod.fst ↔ ∃ p ∈ positions, key p = k
  sorted : (entries.map fun e => order e.1).Pairwise (· < ·)
  exact : ∀ e ∈ entries, (e.2.gross.amount, e.2.net.amount) =
    ((positions.filter fun p => key p = e.1).map amounts).sum
  covers : ∀ e ∈ entries, |e.2.net.amount| ≤ e.2.gross.amount
  total : (entries.map fun e => (e.2.gross.amount, e.2.net.amount)).sum = (total.gross.amount, total.net.amount)

theorem ExposureSnapshot.covered (e : ExposureSnapshot) : |e.net.amount| ≤ e.gross.amount := by
  have hvalid := e.valid
  unfold ExposureFields.validate at hvalid
  simp only [bind_ok_iff, require_ok_iff, exists_const] at hvalid
  exact hvalid.2.2

theorem partitionOf_tally {κ ω : Type} [DecidableEq κ] [LinearOrder ω]
    {amounts : PortfolioPositionState → Decimal × Decimal} {positions : List PortfolioPositionState}
    {key : PortfolioPositionState → κ} {order : κ → ω} {total : ExposureSnapshot}
    {entries : List (κ × ExposureSnapshot)}
    (hentries : (entries.map fun e => (e.1, (e.2.gross.amount, e.2.net.amount))).Perm
      (Dict.tally key amounts positions))
    (hordered : (entries.map fun e => order e.1).Nodup ∧ (entries.map fun e => order e.1).Pairwise (· ≤ ·))
    (htotal : (total.gross.amount, total.net.amount) = (positions.map amounts).sum) :
    PartitionOf amounts positions key order total entries := by
  refine ⟨fun k => ?_, ?_, fun e he => ?_, fun e _ => ExposureSnapshot.covered e.2, ?_⟩
  · have hkeys := Dict.mem_keys_tally key amounts positions k
    unfold Dict.keys at hkeys
    rw [← (hentries.map Prod.fst).mem_iff, List.map_map, List.mem_map (l := positions)] at hkeys
    exact hkeys
  · exact hordered.2.imp₂ (fun _ _ hle hne => lt_of_le_of_ne hle hne) hordered.1
  · have hentry := hentries.mem_iff.1 (List.mem_map.2 ⟨e, he, rfl⟩)
    have hget := (Dict.get?_eq_some_iff (Dict.nodup_keys_tally _ _ _)).2 hentry
    have hsum := Dict.total_tally key amounts positions e.1
    unfold Dict.total at hsum
    rw [hget] at hsum
    exact hsum
  · have hvalues := (hentries.map Prod.snd).sum_eq
    rw [List.map_map] at hvalues
    rw [htotal, ← Dict.sum_values_tally key amounts positions]
    exact hvalues

/-- The exposures are sums over the held positions. -/
structure ExposuresOf (state : PortfolioReplayState) (observedAt : DateTime)
    (portfolio : AccountPortfolioSnapshot) : Prop where
  valued : ∀ p ∈ heldPositions state, Valued state observedAt p
  total : |portfolio.totalExposure.net.amount| ≤ portfolio.totalExposure.gross.amount
  instruments : PartitionOf (exposedAmounts (ratesAt state observedAt)) (heldPositions state)
    (fun p => p.instrument) InstrumentId.canonical portfolio.totalExposure
    (portfolio.instrumentExposures.map fun e => (e.instrument, e.exposure))
  strategies : PartitionOf (exposedAmounts (ratesAt state observedAt)) (heldPositions state)
    (fun p => p.strategyId) id portfolio.totalExposure
    (portfolio.strategyExposures.map fun e => (e.strategyId, e.exposure))
  venues : PartitionOf (exposedAmounts (ratesAt state observedAt)) (heldPositions state)
    (fun p => p.instrument.venue) id portfolio.totalExposure
    (portfolio.venueExposures.map fun e => (e.venueId, e.exposure))

variable {codec : Codec} {portfolio : AccountPortfolioSnapshot}

structure Tallied {κ : Type} [DecidableEq κ] (amounts : PortfolioPositionState → Decimal × Decimal)
    (positions : List PortfolioPositionState) (key : PortfolioPositionState → κ) (currency : Currency)
    (entries : List (κ × ExposureSnapshot)) : Prop where
  plain : ∀ e ∈ entries, e.2.pending.amount = 0 ∧ e.2.currency = currency
  tally : (entries.map fun e => (e.1, (e.2.gross.amount, e.2.net.amount))).Perm (Dict.tally key amounts positions)

/-- What the steps of `derive_account_snapshot` have left in a snapshot. -/
structure Derivation (state : PortfolioReplayState) (observedAt : DateTime) (rateOf : Currency → Option Decimal)
    (portfolio : AccountPortfolioSnapshot) : Prop where
  valued : ∀ p ∈ heldPositions state, Valued state observedAt p
  observed : ∃ observed, List.Forall₂ (fun p o => o.toAccountPositionFields = observedFields p)
    state.snapshot.positions observed ∧ portfolio.positions.Perm observed
  reporting : portfolio.reportingCurrency = state.snapshot.reportingCurrency
  total : (portfolio.totalExposure.gross.amount, portfolio.totalExposure.net.amount) =
    ((heldPositions state).map (exposedAmounts rateOf)).sum
  pending : portfolio.totalExposure.pending.amount = 0
  instruments : Tallied (exposedAmounts rateOf) (heldPositions state) (fun p => p.instrument)
    state.snapshot.reportingCurrency (portfolio.instrumentExposures.map fun e => (e.instrument, e.exposure))
  strategies : Tallied (exposedAmounts rateOf) (heldPositions state) (fun p => p.strategyId)
    state.snapshot.reportingCurrency (portfolio.strategyExposures.map fun e => (e.strategyId, e.exposure))
  venues : Tallied (exposedAmounts rateOf) (heldPositions state) (fun p => p.instrument.venue)
    state.snapshot.reportingCurrency (portfolio.venueExposures.map fun e => (e.venueId, e.exposure))

theorem derivation_of_ok (hrates : ∀ p ∈ heldPositions state, ∀ rate, valuationRate state p.settlementCurrency
      state.snapshot.reportingCurrency observedAt = .ok rate → rateOf p.settlementCurrency = some rate)
    (h : deriveAccountSnapshot codec state observedAt = .ok portfolio) :
    Derivation state observedAt rateOf portfolio := by
  unfold deriveAccountSnapshot at h
  obtain ⟨_, -, h⟩ := bind_ok_iff.1 h
  obtain ⟨amounts, hamounts, h⟩ := bind_ok_iff.1 h
  simp only [sum_eq, ok_bind] at h
  obtain ⟨total, htotal, h⟩ := bind_ok_iff.1 h
  obtain ⟨instruments, hinstruments, h⟩ := bind_ok_iff.1 h
  obtain ⟨strategies, hstrategies, h⟩ := bind_ok_iff.1 h
  obtain ⟨venues, hvenues, h⟩ := bind_ok_iff.1 h
  have hfields := AccountPortfolioSnapshot.of_ok_iff.1 h
  have hexposed : ExposedSoFar state observedAt rateOf state.snapshot.positions amounts :=
    foldlM_exposePosition (fun p hp hopen rate hrate =>
      hrates p (List.mem_filter.2 ⟨hp, decide_eq_true hopen⟩) rate hrate) hamounts
  obtain ⟨hamount, hpending, -⟩ := exposure_ok htotal
  obtain ⟨hiplain, hitally⟩ := partitionExposures_ok hinstruments
  obtain ⟨hsplain, hstally⟩ := partitionExposures_ok hstrategies
  obtain ⟨hvplain, hvtally⟩ := partitionExposures_ok hvenues
  have hsum := (Dict.sum_components amounts.instruments.values).trans
    (by rw [hexposed.instruments, Dict.sum_values_tally])
  refine ⟨fun p hp => ?_, ⟨_, hexposed.observed, ?_⟩, ?_, ?_, ?_, ?_, ?_, ?_⟩
  · obtain ⟨hp, hopen⟩ := List.mem_filter.1 hp
    exact hexposed.valued p hp (of_decide_eq_true hopen)
  · rw [hfields]
    exact sortBy_perm _ _
  · rw [hfields]
  · rw [hfields]
    exact hamount.trans hsum
  · rw [hfields]
    exact hpending
  · simp only [hfields, List.map_map, Function.comp_def, List.map_id']
    exact ⟨hiplain, hexposed.instruments ▸ hitally⟩
  · simp only [hfields, List.map_map, Function.comp_def, List.map_id']
    exact ⟨hsplain, hexposed.strategies ▸ hstally⟩
  · simp only [hfields, List.map_map, Function.comp_def, List.map_id']
    exact ⟨hvplain, hexposed.venues ▸ hvtally⟩

theorem exposures_ordered (portfolio : AccountPortfolioSnapshot) :
    ((portfolio.instrumentExposures.map (·.instrument.canonical)).Nodup ∧
      (portfolio.instrumentExposures.map (·.instrument.canonical)).Pairwise (· ≤ ·)) ∧
    ((portfolio.strategyExposures.map (·.strategyId)).Nodup ∧
      (portfolio.strategyExposures.map (·.strategyId)).Pairwise (· ≤ ·)) ∧
    (portfolio.venueExposures.map (·.venueId)).Nodup ∧ (portfolio.venueExposures.map (·.venueId)).Pairwise (· ≤ ·) := by
  have hvalid := portfolio.valid
  unfold AccountPortfolioFields.validate requireOrdered at hvalid
  simp only [bind_ok_iff, require_ok_iff, exists_const] at hvalid
  tauto

theorem exposures_add_up (codec : Codec) (state : PortfolioReplayState) (observedAt : DateTime)
    (portfolio : AccountPortfolioSnapshot) (h : deriveAccountSnapshot codec state observedAt = .ok portfolio) :
    ExposuresOf state observedAt portfolio := by
  have hderivation : Derivation state observedAt (ratesAt state observedAt) portfolio :=
    derivation_of_ok (fun p _ rate hrate => by unfold ratesAt; rw [hrate]; rfl) h
  obtain ⟨hinstruments, hstrategies, hvenues⟩ := exposures_ordered portfolio
  refine ⟨hderivation.valued, ExposureSnapshot.covered _, ?_, ?_, ?_⟩
  · exact partitionOf_tally hderivation.instruments.tally (by rw [List.map_map]; exact hinstruments) hderivation.total
  · exact partitionOf_tally hderivation.strategies.tally (by rw [List.map_map]; exact hstrategies) hderivation.total
  · exact partitionOf_tally hderivation.venues.tally (by rw [List.map_map]; exact hvenues) hderivation.total

theorem sample_exposures_add_up : ∃ s portfolio,
    reducePortfolioEvents (sampleCodec sampleHistory) sampleHistory = .ok s ∧ ExposuresOf s 0 portfolio := by
  have h : (reducePortfolioEvents (sampleCodec sampleHistory) sampleHistory >>= fun s =>
      deriveAccountSnapshot (sampleCodec []) s 0).isOk = true := by
    decide +kernel
  obtain ⟨portfolio, h⟩ := isOk_iff.1 h
  obtain ⟨s, hs, hportfolio⟩ := bind_ok_iff.1 h
  exact ⟨s, portfolio, hs, exposures_add_up _ s 0 portfolio hportfolio⟩

end TradingAgent.PortfolioReducer
