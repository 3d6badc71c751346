import TradingAgent.RuntimeRisk.Partitions

/-! Which failures an evaluation can raise. -/

namespace TradingAgent.RuntimeRisk

open Outcome

/-- An error that `except ProjectionError` does not catch. -/
def IsRaised (e : EvaluationFailure) : Prop := ∀ message, e ≠ .projectionError message

section

variable {α β : Type} {bad : EvaluationFailure → Prop} {fits : Prop}

theorem avoids_checked_iff [Decidable fits] {a : α} (hlong : bad digitsExceeded) :
    Avoids bad (checked fits a) ↔ fits := by
  unfold checked
  split_ifs with h
  · exact ⟨fun _ => h, fun _ => avoids_ok a⟩
  · exact ⟨fun havoids => absurd hlong (havoids _ rfl), fun hfits => absurd hfits h⟩

theorem avoids_checked_bind_iff [Decidable fits] {a : α} {f : α → Except EvaluationFailure β}
    (hlong : bad digitsExceeded) : Avoids bad (checked fits a >>= f) ↔ fits ∧ Avoids bad (f a) := by
  rw [avoids_bind_iff, avoids_checked_iff hlong]
  refine and_congr_right fun hfits => ⟨fun h => h a (checked_ok_iff.2 ⟨hfits, rfl⟩), ?_⟩
  intro h b hb
  rwa [← (checked_ok_iff.1 hb).2]

variable {field : String}

theorem avoids_moneyOf {amount : Decimal} {currency : Currency}
    (hmoney : ∀ field, ¬ bad (.projectionError (field ++ " is not exact at reporting currency precision"))) :
    Avoids bad (moneyOf amount currency field) := by
  unfold moneyOf
  split
  · exact avoids_ok _
  · exact avoids_error (hmoney field)

theorem avoids_projectionOf {reporting : Currency} {price : Price} {quantity : Quantity}
    {orderNotional : Decimal} {amounts : ProjectedAmounts}
    (hmoney : ∀ field, ¬ bad (.projectionError (field ++ " is not exact at reporting currency precision"))) :
    Avoids bad (projectionOf reporting price quantity orderNotional amounts) := by
  unfold projectionOf
  iterate 9 refine (avoids_moneyOf hmoney).bind fun _ _ => ?_
  exact avoids_ok _

end

/-! ## Lookups -/

section

variable (intent : OrderIntent) (observation : RuntimeRiskObservation) (policy : RuntimeRiskPolicy)
  (decidedAt : DateTime)

/-- What the observation holds for the order: its instrument, market, balance, rate and price. -/
structure Authorized (authority : OrderAuthority) : Prop where
  spec : specOf intent observation = some authority.spec
  market : marketOf intent observation = some authority.market
  balance : onlyOne (observation.portfolio.balances.filter fun balance =>
    balance.currency = observation.portfolio.reportingCurrency) = some authority.balance
  rate : conversionRate authority.spec.settlementCurrency observation policy decidedAt = some authority.rate
  price : authority.price = greatestPrice (priceCandidates intent authority.market).1
    (priceCandidates intent authority.market).2
  settled : ∀ price ∈ (priceCandidates intent authority.market).2,
    price.currency = authority.spec.settlementCurrency

variable {intent observation policy decidedAt} {spec : RuntimeInstrumentRiskSpec}

theorem specOf_eq_some_iff : specOf intent observation = some spec ↔
    onlyOne (observation.instrumentSpecs.filter fun item =>
        item.instrument.canonical = intent.instrument.canonical) = some spec ∧
      spec.instrument = intent.instrument ∧ spec.venueId = intent.instrument.venue := by
  unfold specOf instrumentAuthority
  rw [Option.filter_eq_some_iff, decide_eq_true_eq]

theorem marketOf_eq_some_iff {market : RuntimeRiskMarketSnapshot}
    (hspec : specOf intent observation = some spec) : marketOf intent observation = some market ↔
      onlyOne (observation.marketSnapshots.filter fun item =>
          item.instrument.canonical = intent.instrument.canonical) = some market ∧
        market.instrument = intent.instrument ∧
        ∀ price ∈ [market.bid, market.ask, market.last], price.currency = spec.settlementCurrency := by
  unfold marketOf marketAuthority
  rw [hspec, Option.bind_some, Option.filter_eq_some_iff, decide_eq_true_eq]

theorem onlyOne_venue {venueId : String}
    (h : (observation.venueHealth.filter fun item => item.venueId = venueId) ≠ []) :
    ∃ record, onlyOne (observation.venueHealth.filter fun item => item.venueId = venueId) = some record := by
  have hnodup : (observation.venueHealth.map RuntimeVenueHealthRecord.venueId).Nodup :=
    observation.valid.venues_ordered.imp (·.ne)
  obtain ⟨record, hrecord⟩ := List.exists_mem_of_ne_nil _ h
  rw [onlyOne_filter hnodup]
  obtain ⟨hmem, hid⟩ := List.mem_filter.1 hrecord
  exact ⟨record, (lookupBy_eq_some_iff hnodup).2 ⟨hmem, of_decide_eq_true hid⟩⟩

def pricesUnsettled : EvaluationFailure := .projectionError "order and market prices must use settlement currency"

def Settled (intent : OrderIntent) (authority : OrderAuthority) : Prop :=
  ∀ price ∈ (priceCandidates intent authority.market).2, price.currency = authority.spec.settlementCurrency

instance (authority : OrderAuthority) : Decidable (Settled intent authority) := inferInstanceAs (Decidable (∀ _ ∈ _, _))

theorem orderAuthority_eq (hattempt : ProjectionAttempted intent observation policy decidedAt) :
    ∃ authority, specOf intent observation = some authority.spec ∧
      (∀ other, Authorized intent observation policy decidedAt other ↔ other = authority ∧ Settled intent authority) ∧
      orderAuthority intent observation policy decidedAt =
        if Settled intent authority then .ok authority else .error pricesUnsettled := by
  obtain ⟨⟨spec, hspec, hvenue⟩, hmarket, hvaluation, ⟨⟨haccounts, -⟩, -⟩, hbalance⟩ := hattempt
  obtain ⟨market, hmarket⟩ := Option.isSome_iff_exists.1 hmarket
  obtain ⟨spec', hspec', hmoneys, hrates⟩ := hvaluation
  obtain ⟨record, hrecord⟩ := onlyOne_venue hvenue
  obtain ⟨balance, hbalance⟩ := List.length_eq_one_iff.1 hbalance
  have hspec := Option.mem_def.1 hspec
  obtain rfl := Option.some.inj (hspec.symm.trans hspec')
  obtain ⟨rate, hrate⟩ := Option.isSome_iff_exists.1 (hrates _ List.mem_cons_self)
  obtain ⟨hone, hinstrument, hid⟩ := specOf_eq_some_iff.1 hspec
  obtain ⟨hmone, hminstrument, hcurrencies⟩ := (marketOf_eq_some_iff hspec).1 hmarket
  have hbalance := onlyOne_eq_some_iff.2 hbalance
  have hmem : ∀ {α : Type} {p : α → Prop} [DecidablePred p] {xs : List α} {a : α},
      onlyOne (xs.filter fun x => p x) = some a → p a := by
    intro α p _ xs a h
    have ha : a ∈ xs.filter fun x => p x := onlyOne_eq_some_iff.1 h ▸ List.mem_singleton.2 rfl
    exact of_decide_eq_true (List.mem_filter.1 ha).2
  have hcodes : (observation.portfolio.balances.filter fun balance =>
      balance.currency.code = observation.portfolio.reportingCurrency.code) =
        observation.portfolio.balances.filter fun balance =>
          balance.currency = observation.portfolio.reportingCurrency := by
    refine List.filter_congr fun balance _ => ?_
    exact decide_eq_decide.2 Currency.code_injective.eq_iff
  have hexecutable : (priceCandidates intent market).1.currency = spec.settlementCurrency := by
    unfold priceCandidates
    split_ifs
    · exact hcurrencies _ (by simp)
    · exact hcurrencies _ (by simp)
  refine ⟨⟨spec, market, balance, rate, greatestPrice (priceCandidates intent market).1
    (priceCandidates intent market).2⟩, hspec, fun other => ?_, ?_⟩
  · constructor
    · rintro ⟨hspec', hmarket', hbalance', hrate', hprice, hsettled⟩
      obtain ⟨ospec, omarket, obalance, orate, oprice⟩ := other
      obtain rfl := Option.some.inj (hspec.symm.trans hspec')
      obtain rfl := Option.some.inj (hmarket.symm.trans hmarket')
      obtain rfl := Option.some.inj (hbalance.symm.trans hbalance')
      obtain rfl := Option.some.inj (hrate.symm.trans hrate')
      dsimp only at hprice
      subst hprice
      exact ⟨rfl, hsettled⟩
    · rintro ⟨rfl, hsettled⟩
      exact ⟨hspec, hmarket, hbalance, hrate, rfl, hsettled⟩
  · have hvenueId : record.venueId = spec.venueId :=
      hmem (p := fun item : RuntimeVenueHealthRecord => item.venueId = spec.venueId) hrecord
    have hcurrency : balance.currency = observation.portfolio.reportingCurrency :=
      hmem (p := fun b : AccountBalanceSnapshot => b.currency = observation.portfolio.reportingCurrency) hbalance
    have hprice : riskPrice intent market spec =
        if ∀ price ∈ (priceCandidates intent market).2, price.currency = spec.settlementCurrency then
          .ok (greatestPrice (priceCandidates intent market).1 (priceCandidates intent market).2)
        else .error pricesUnsettled := by
      unfold riskPrice require
      simp only [List.forall_mem_cons, hexecutable, true_and]
      split_ifs <;> rfl
    unfold orderAuthority
    simp only [require_of _ haccounts, require_of _ hmoneys, oneByKey_ok_iff.2 hone, oneByKey_ok_iff.2 hmone,
      require_of _ (And.intro hinstrument hminstrument), require_of _ hid, oneByKey_ok_iff.2 hrecord,
      require_of _ hvenueId, require_of _ hcurrencies, oneByKey_ok_iff.2 (hcodes ▸ hbalance), require_of _ hcurrency,
      projectionRate_ok_iff.2 hrate, hprice, ok_bind]
    by_cases hsettled : ∀ price ∈ (priceCandidates intent market).2, price.currency = spec.settlementCurrency
    · rw [if_pos hsettled]
      exact (if_pos hsettled).symm
    · rw [if_neg hsettled]
      exact (if_neg hsettled).symm

end

/-! ## Amounts of the projection -/

section

variable (intent : OrderIntent) (observation : RuntimeRiskObservation) (policy : RuntimeRiskPolicy)
  (decidedAt : DateTime) (authority : OrderAuthority)

def orderNotional : Decimal := intent.quantity.value * authority.price.amount * authority.rate

def currentPosition : Option AccountPositionSnapshot := (matchingPositions intent observation).head?

def currentPositionNotional : Decimal :=
  (currentPosition intent observation).elim 0 (positionNotional observation policy decidedAt)

def projectedQuantity : Decimal :=
  ((currentPosition intent observation).map fun p => p.quantity.value).getD 0 + signedOrderQuantity intent

def projectedPrecision : ℕ :=
  max intent.quantity.precision (((currentPosition intent observation).map fun p => p.quantity.precision).getD 0)

def projectedNotional : Decimal :=
  projectedQuantity intent observation * authority.price.amount * authority.rate

def riskIncrease : Decimal :=
  |projectedNotional intent observation authority| -
    |currentPositionNotional intent observation policy decidedAt|

def marginIncrease : Decimal :=
  (if riskIncrease intent observation policy decidedAt authority < 0 then 0
    else riskIncrease intent observation policy decidedAt authority) * authority.spec.initialMarginRate

def replacedGross (gross : Decimal) : Decimal :=
  gross - |currentPositionNotional intent observation policy decidedAt| +
    |projectedNotional intent observation authority|

def groupGross (key : AccountPositionSnapshot → String) (k : String) : Decimal :=
  (groupTotal observation policy decidedAt key (openPositions observation.portfolio) k).1

def projectedAmounts : ProjectedAmounts where
  pending := observation.portfolio.totalExposure.pending.amount + |orderNotional intent authority|
  gross := replacedGross intent observation policy decidedAt authority
    observation.portfolio.totalExposure.gross.amount
  net := observation.portfolio.totalExposure.net.amount -
    currentPositionNotional intent observation policy decidedAt + projectedNotional intent observation authority
  strategyGross := replacedGross intent observation policy decidedAt authority
    (groupGross observation policy decidedAt (fun p => p.strategyId) intent.strategyId)
  venueGross := replacedGross intent observation policy decidedAt authority
    (groupGross observation policy decidedAt (fun p => p.instrument.venue) authority.spec.venueId)
  instrumentGross := replacedGross intent observation policy decidedAt authority
    (groupGross observation policy decidedAt (fun p => p.instrument.canonical) intent.instrument.canonical)
  marginUsed := authority.balance.marginUsed.amount +
    marginIncrease intent observation policy decidedAt authority
  availableFunds := authority.balance.cash.amount - authority.balance.lockedFunds.amount -
    (authority.balance.marginUsed.amount + marginIncrease intent observation policy decidedAt authority)

structure ProjectedDigits : Prop where
  pending : DigitsFit (projectedAmounts intent observation policy decidedAt authority).pending
  gross : DigitsFit (projectedAmounts intent observation policy decidedAt authority).gross
  net : DigitsFit (projectedAmounts intent observation policy decidedAt authority).net
  strategyGross : DigitsFit (projectedAmounts intent observation policy decidedAt authority).strategyGross
  venueGross : DigitsFit (projectedAmounts intent observation policy decidedAt authority).venueGross
  instrumentGross : DigitsFit (projectedAmounts intent observation policy decidedAt authority).instrumentGross
  riskIncrease : DigitsFit (riskIncrease intent observation policy decidedAt authority)
  marginIncrease : DigitsFit (marginIncrease intent observation policy decidedAt authority)
  marginUsed : DigitsFit (projectedAmounts intent observation policy decidedAt authority).marginUsed
  availableFunds : DigitsFit (projectedAmounts intent observation policy decidedAt authority).availableFunds

/-- Every amount that the projection of an order forms can be written. -/
structure OrderDigits : Prop where
  order : DigitsFit (orderNotional intent authority)
  contributions : ContributionDigits observation policy decidedAt (openPositions observation.portfolio)
  totals : TotalDigits observation
  quantity : DigitsFit (projectedQuantity intent observation)
  current : QuantityFits (projectedQuantity intent observation) (projectedPrecision intent observation) →
    DigitsFit (currentPositionNotional intent observation policy decidedAt)
  projected : QuantityFits (projectedQuantity intent observation) (projectedPrecision intent observation) →
    DigitsFit (projectedNotional intent observation authority)
  amounts : QuantityFits (projectedQuantity intent observation) (projectedPrecision intent observation) →
    ProjectedDigits intent observation policy decidedAt authority

variable {intent observation policy decidedAt authority}

open scoped Classical in
theorem projectAmounts_eq : projectAmounts intent observation.portfolio authority
      (partitionsOf observation policy decidedAt (openPositions observation.portfolio))
      |orderNotional intent authority| (currentPositionNotional intent observation policy decidedAt)
      (projectedNotional intent observation authority) =
    checked (ProjectedDigits intent observation policy decidedAt authority)
      (projectedAmounts intent observation policy decidedAt authority) := by
  have hgroup : ∀ (key : AccountPositionSnapshot → String) (k : String),
      (Partition.amounts (Dict.tally key (contribution observation policy decidedAt)
        (openPositions observation.portfolio)) k).1 = groupGross observation policy decidedAt key k :=
    fun key k => congrArg Prod.fst (Dict.total_tally _ _ _ _)
  have hreplace : ∀ (gross : Decimal) (field : String), replaceGross gross
      (currentPositionNotional intent observation policy decidedAt)
      (projectedNotional intent observation authority) field =
        checked (DigitsFit (replacedGross intent observation policy decidedAt authority gross))
          (replacedGross intent observation policy decidedAt authority gross) := by
    intro gross field
    unfold replaceGross replacedGross
    rw [sumOf_triple, ← sub_eq_add_neg]
  have hdigits : ProjectedDigits intent observation policy decidedAt authority ↔
      DigitsFit (projectedAmounts intent observation policy decidedAt authority).pending ∧
      DigitsFit (projectedAmounts intent observation policy decidedAt authority).gross ∧
      DigitsFit (projectedAmounts intent observation policy decidedAt authority).net ∧
      DigitsFit (projectedAmounts intent observation policy decidedAt authority).strategyGross ∧
      DigitsFit (projectedAmounts intent observation policy decidedAt authority).venueGross ∧
      DigitsFit (projectedAmounts intent observation policy decidedAt authority).instrumentGross ∧
      DigitsFit (riskIncrease intent observation policy decidedAt authority) ∧
      DigitsFit (marginIncrease intent observation policy decidedAt authority) ∧
      DigitsFit (projectedAmounts intent observation policy decidedAt authority).marginUsed ∧
      DigitsFit (projectedAmounts intent observation policy decidedAt authority).availableFunds :=
    ⟨fun ⟨h₁, h₂, h₃, h₄, h₅, h₆, h₇, h₈, h₉, h₁₀⟩ => ⟨h₁, h₂, h₃, h₄, h₅, h₆, h₇, h₈, h₉, h₁₀⟩,
      fun ⟨h₁, h₂, h₃, h₄, h₅, h₆, h₇, h₈, h₉, h₁₀⟩ => ⟨h₁, h₂, h₃, h₄, h₅, h₆, h₇, h₈, h₉, h₁₀⟩⟩
  rw [checked_congr hdigits]
  unfold projectAmounts
  simp only [partitionsOf, hgroup, hreplace, sumOf_pair, sumOf_triple, productOf_pair, ← sub_eq_add_neg]
  exact checked_bind (checked_bind (checked_bind (checked_bind (checked_bind (checked_bind
    (checked_bind (checked_bind (checked_bind (checked_map rfl)))))))))

end

/-! ## When the projection raises -/

section

variable {intent : OrderIntent} {observation : RuntimeRiskObservation} {policy : RuntimeRiskPolicy}
  {decidedAt : DateTime} {authority : OrderAuthority}

theorem eq_checked {x : Except EvaluationFailure Unit} {fits : Prop} [Decidable fits]
    (hok : x = .ok () ↔ fits) (herror : Avoids (fun e => e ≠ digitsExceeded) x) : x = checked fits () := by
  unfold checked
  split_ifs with h
  · exact hok.2 h
  · cases x with
    | ok u => exact absurd (hok.1 rfl) h
    | error e => rw [not_not.1 (herror e rfl)]

theorem sumOf_avoids (values : List Decimal) (field : String) :
    Avoids (fun e => e ≠ digitsExceeded) (sumOf values field) := by
  rw [sumOf_eq]
  unfold checked
  split_ifs
  · exact avoids_ok _
  · exact avoids_error (not_not.2 rfl)

theorem verifyCollection_avoids {actual : Dict String ExposureSnapshot}
    {key : AccountPositionSnapshot → String} {field : String}
    (h : GroupsAgree observation policy decidedAt actual key) :
    Avoids (fun e => e ≠ digitsExceeded) (verifyCollection observation.portfolio actual
      (Dict.tally key (contribution observation policy decidedAt) (openPositions observation.portfolio)) field) := by
  unfold verifyCollection
  refine Avoids.bind (avoids_of_ok ⟨(), require_of _ ?_⟩) fun _ _ => ?_
  · intro k hk
    rw [Dict.mem_keys_tally] at hk
    obtain ⟨p, hp, rfl⟩ := List.mem_map.1 hk
    exact h.covered p hp
  refine Avoids.bind (avoids_of_ok ⟨(), forM_ok_iff.2 fun entry hentry => ?_⟩) fun _ _ => ?_
  · rw [assertExposure_ok_iff]
    exact (h.totals entry hentry).imp id fun htotal => htotal.trans (Dict.total_tally _ _ _ _).symm
  refine (sumOf_avoids _ _).bind fun pending hpending => ?_
  rw [sumOf_eq, checked_ok_iff] at hpending
  refine avoids_of_ok ⟨(), require_of _ ?_⟩
  rw [← hpending.2, h.pending]

theorem verifyPartitions_eq (h : PositionsAgree observation policy decidedAt) : verifyPartitions observation
        (partitionsOf observation policy decidedAt (openPositions observation.portfolio)) =
      checked (TotalDigits observation) () := by
  refine eq_checked (verifyPartitions_ok_iff.trans (and_iff_right h)) ?_
  have hsums := Dict.sum_values_tally (fun p : AccountPositionSnapshot => p.instrument.canonical)
    (contribution observation policy decidedAt) (openPositions observation.portfolio)
  rw [← Dict.sum_components, ← h.total] at hsums
  unfold verifyPartitions partitionsOf
  refine (sumOf_avoids _ _).bind fun gross hgross => ?_
  refine (sumOf_avoids _ _).bind fun net hnet => ?_
  rw [sumOf_eq, checked_ok_iff] at hgross hnet
  refine Avoids.bind (avoids_of_ok ⟨(), assertExposure_ok_iff.2 ⟨totalExposure_currency _, ?_⟩⟩)
    fun _ _ => ?_
  · rw [← hsums, ← hgross.2, ← hnet.2]
  refine (verifyCollection_avoids h.instruments).bind fun _ _ => ?_
  refine (verifyCollection_avoids h.strategies).bind fun _ _ => ?_
  exact verifyCollection_avoids h.venues

theorem matchingPosition_eq {spec : RuntimeInstrumentRiskSpec} (h : MatchingIsExact intent spec observation) :
    matchingPosition intent observation spec = .ok (currentPosition intent observation) := by
  obtain ⟨hlength, hexact⟩ := h
  unfold matchingPosition currentPosition
  match hmatch : matchingPositions intent observation with
  | [] => rfl
  | [position] =>
    rw [hmatch] at hexact
    obtain ⟨hinstrument, hcurrency⟩ := hexact position rfl
    simp only [require_of _ hinstrument, require_of _ hcurrency, ok_bind]
    rfl
  | p :: q :: rest =>
    rw [hmatch] at hlength
    simp at hlength

theorem currentNotional_eq (h : MatchingIsExact intent authority.spec observation)
    (hrate : conversionRate authority.spec.settlementCurrency observation policy decidedAt = some authority.rate) :
    currentNotional (currentPosition intent observation) authority.rate =
      checked (DigitsFit (currentPositionNotional intent observation policy decidedAt))
        (currentPositionNotional intent observation policy decidedAt) := by
  have hexact : ∀ position ∈ currentPosition intent observation, _ := h.2
  unfold currentNotional currentPositionNotional
  cases hcurrent : currentPosition intent observation with
  | none =>
    unfold checked
    exact (if_pos digitsFit_zero).symm
  | some position =>
    obtain ⟨-, hcurrency⟩ := hexact position hcurrent
    show (if position.quantity.value = 0 then _ else _) =
      checked (DigitsFit (positionNotional observation policy decidedAt position))
        (positionNotional observation policy decidedAt position)
    by_cases hzero : position.quantity.value = 0
    · have hnotional : positionNotional observation policy decidedAt position = 0 := by
        unfold positionNotional
        rw [hzero, zero_mul, zero_mul]
      rw [if_pos hzero, eq_comm, checked_ok_iff, hnotional]
      exact ⟨digitsFit_zero, rfl⟩
    · obtain ⟨mark, hmark⟩ := mark_of_open position hzero
      rw [if_neg hzero]
      simp only [hmark, reportingNotional_eq, positionNotional, Option.elim_some, hcurrency, hrate, Option.getD_some]

theorem avoids_quantityOf {bad : EvaluationFailure → Prop} {amount : Decimal} {precision : ℕ}
    (hquantity : ¬ QuantityFits amount precision → ¬ bad (.projectionError "projected position quantity is not exact")) :
    Avoids bad (quantityOf amount precision) := by
  unfold quantityOf Quantity.ofDecimal?
  by_cases h : QuantityFits amount precision
  · rw [dif_pos h]
    exact avoids_ok _
  · rw [dif_neg h]
    exact avoids_error (hquantity h)

theorem quantityOf_isOk_iff {amount : Decimal} {precision : ℕ} :
    (∃ quantity, quantityOf amount precision = .ok quantity) ↔ QuantityFits amount precision := by
  unfold quantityOf Quantity.ofDecimal?
  by_cases h : QuantityFits amount precision <;> simp [h]

/-- The errors that the conditions of an attempt leave open, with what causes them. -/
inductive Expected (intent : OrderIntent) (observation : RuntimeRiskObservation) : EvaluationFailure → Prop
  | price {spec : RuntimeInstrumentRiskSpec} (hspec : specOf intent observation = some spec) {price : Price}
      (hprice : price ∈ intent.limitPrice.toList ++ intent.triggerPrice.toList)
      (h : price.currency ≠ spec.settlementCurrency) : Expected intent observation pricesUnsettled
  | quantity (h : ¬ QuantityFits (projectedQuantity intent observation) (projectedPrecision intent observation)) :
      Expected intent observation (.projectionError "projected position quantity is not exact")
  | amount (field : String) :
      Expected intent observation (.projectionError (field ++ " is not exact at reporting currency precision"))

open scoped Classical in
theorem avoids_projectRuntimeOrder_iff {bad : EvaluationFailure → Prop} (hlong : bad digitsExceeded)
    (hexpected : ∀ e, Expected intent observation e → ¬ bad e)
    (hattempt : ProjectionAttempted intent observation policy decidedAt) :
    Avoids bad (projectRuntimeOrder intent observation policy decidedAt) ↔
      ∀ authority, Authorized intent observation policy decidedAt authority →
        OrderDigits intent observation policy decidedAt authority := by
  obtain ⟨hvalued, hagree⟩ := partitionsAreConsistent_iff.1 hattempt.2.2.2.1.2.2.2
  obtain ⟨authority, hspec, hauthorized, heq⟩ := orderAuthority_eq hattempt
  unfold projectRuntimeOrder
  rw [heq]
  by_cases hsettled : Settled intent authority
  · have hauthorized : ∀ other, Authorized intent observation policy decidedAt other ↔ other = authority := fun other =>
      (hauthorized other).trans (and_iff_left hsettled)
    simp only [hauthorized, forall_eq]
    rw [if_pos hsettled, ok_bind]
    have hrate := ((hauthorized authority).2 rfl).rate
    have hmatching : MatchingIsExact intent authority.spec observation := hattempt.2.2.2.1.2.2.1 _ hspec
    have hlast : ∀ quantity : Quantity, Avoids bad (do
        let amounts ← projectAmounts intent observation.portfolio authority
          (partitionsOf observation policy decidedAt (openPositions observation.portfolio))
          |orderNotional intent authority| (currentPositionNotional intent observation policy decidedAt)
          (projectedNotional intent observation authority)
        projectionOf observation.portfolio.reportingCurrency authority.price quantity
          |orderNotional intent authority| amounts) ↔
        ProjectedDigits intent observation policy decidedAt authority := by
      intro quantity
      rw [projectAmounts_eq, avoids_checked_bind_iff hlong]
      exact and_iff_left (avoids_projectionOf fun field => hexpected _ (.amount field))
    rw [reportingNotional_eq, avoids_checked_bind_iff hlong, positionContributions_eq hvalued,
      avoids_checked_bind_iff hlong, verifyPartitions_eq hagree, avoids_checked_bind_iff hlong,
      matchingPosition_eq hmatching, ok_bind]
    rw [sumOf_pair, avoids_checked_bind_iff hlong, avoids_bind_iff]
    change _ ∧ _ ∧ _ ∧ _ ∧ Avoids bad (quantityOf (projectedQuantity intent observation)
      (projectedPrecision intent observation)) ∧ _ ↔ _
    rw [and_iff_right (avoids_quantityOf fun h => hexpected _ (.quantity h))]
    simp only [currentNotional_eq hmatching hrate, avoids_checked_bind_iff hlong, reportingNotional_eq]
    constructor
    · rintro ⟨horder, hcontributions, htotals, hq, hrest⟩
      have hrest' : QuantityFits (projectedQuantity intent observation) (projectedPrecision intent observation) →
          DigitsFit (currentPositionNotional intent observation policy decidedAt) ∧
            DigitsFit (projectedNotional intent observation authority) ∧
            ProjectedDigits intent observation policy decidedAt authority := by
        intro hfits
        obtain ⟨quantity, hok⟩ := quantityOf_isOk_iff.2 hfits
        obtain ⟨hcurrent, hprojected, hamounts⟩ := hrest quantity hok
        exact ⟨hcurrent, hprojected, (hlast quantity).1 hamounts⟩
      exact ⟨horder, hcontributions, htotals, hq, fun h => (hrest' h).1, fun h => (hrest' h).2.1,
        fun h => (hrest' h).2.2⟩
    · rintro ⟨horder, hcontributions, htotals, hq, hcurrent, hprojected, hamounts⟩
      refine ⟨horder, hcontributions, htotals, hq, fun quantity hok => ?_⟩
      have hfits : QuantityFits (projectedQuantity intent observation) (projectedPrecision intent observation) :=
        quantityOf_isOk_iff.1 ⟨quantity, hok⟩
      exact ⟨hcurrent hfits, hprojected hfits, (hlast quantity).2 (hamounts hfits)⟩
  · rw [if_neg hsettled, error_bind]
    refine iff_of_true (avoids_error (hexpected _ ?_)) fun other hother => absurd ((hauthorized other).1 hother).2 hsettled
    simp only [Settled, not_forall] at hsettled
    obtain ⟨price, hprice, hne⟩ := hsettled
    exact .price hspec hprice hne

theorem avoids_raised_iff (hattempt : ProjectionAttempted intent observation policy decidedAt) :
    Avoids IsRaised (projectRuntimeOrder intent observation policy decidedAt) ↔
      ∀ authority, Authorized intent observation policy decidedAt authority →
        OrderDigits intent observation policy decidedAt authority := by
  refine avoids_projectRuntimeOrder_iff ?_ ?_ hattempt
  · intro message hmessage
    cases hmessage
  · rintro e hexpected hraised
    cases hexpected <;> exact hraised _ rfl

end

/-! ## Decisions -/

section

variable {intent : OrderIntent} {policyDecision : RiskDecision} {observation : RuntimeRiskObservation}
  {policy : RuntimeRiskPolicy} {decidedAt : DateTime} {projection : Option RuntimeRiskProjection}
  {failed : Bool} {codec : ModelCodec} {decisionId : Uuid}

def checkedReasons : List RuntimeRiskReasonCode :=
  [.policyRiskNotApproved, .engineNotReady, .instrumentUnknown, .marketDataStale, .valuationAuthorityMissing,
    .portfolioStateInvalid, .pricePrecisionInvalid, .quantityPrecisionInvalid, .quantityOutOfBounds,
    .orderNotionalLimit, .balanceMarginLimit, .pendingExposureLimit, .grossExposureLimit, .netExposureLimit,
    .strategyExposureLimit, .venueExposureLimit, .dailyLossLimit, .drawdownLimit, .reduceOnlyViolation,
    .commandRateLimit, .venueUnhealthy, .duplicateCommand]

theorem reasons_of_riskChecks :
    (riskChecks intent policyDecision observation policy decidedAt projection failed).map Prod.fst =
      checkedReasons := rfl

theorem reasonsOf_eq_nil_iff {checks : List (RuntimeRiskReasonCode × Bool)} :
    reasonsOf checks = [] ↔ ∀ check ∈ checks, check.2 = false := by
  unfold reasonsOf
  simp [List.filter_eq_nil_iff]

theorem reasonsOf_sublist :
    (reasonsOf (riskChecks intent policyDecision observation policy decidedAt projection failed)).Sublist
      checkedReasons := by
  rw [← reasons_of_riskChecks]
  exact List.filter_sublist.map Prod.fst

structure WithinPolicy (policy : RuntimeRiskPolicy) (projection : RuntimeRiskProjection) : Prop where
  pending : projection.projectedPending.amount ≤ policy.maxPendingExposure.amount
  gross : projection.projectedGross.amount ≤ policy.maxGrossExposure.amount
  net : |projection.projectedNet.amount| ≤ policy.maxAbsNetExposure.amount
  strategy : projection.projectedStrategyGross.amount ≤ policy.maxStrategyExposure.amount
  venue : projection.projectedVenueGross.amount ≤ policy.maxVenueExposure.amount
  funds : policy.minAvailableFunds.amount ≤ projection.projectedAvailableFunds.amount

theorem complete_ofProjection : (RuntimeRiskProjectionFields.ofProjection projection).Complete ↔ projection ≠ none := by
  cases projection with
  | none | some => simp [RuntimeRiskProjectionFields.Complete, RuntimeRiskProjectionFields.ofProjection]

theorem attemptProjection_ok_iff : (∃ result, attemptProjection intent observation policy decidedAt = .ok result) ↔
    (ProjectionAttempted intent observation policy decidedAt →
      Avoids IsRaised (projectRuntimeOrder intent observation policy decidedAt)) := by
  unfold attemptProjection
  by_cases hattempt : ProjectionAttempted intent observation policy decidedAt
  · rw [if_pos hattempt]
    cases projectRuntimeOrder intent observation policy decidedAt with
    | ok p => simp [hattempt, avoids_ok]
    | error e =>
      cases e with
      | projectionError message => simp [hattempt, Avoids, IsRaised]
      | valueError message =>
        constructor
        · rintro ⟨_, h⟩
          cases h
        · intro h
          refine absurd (h hattempt _ rfl) (not_not.2 fun m hm => ?_)
          cases hm
  · simp [hattempt]

variable (hattempt : attemptProjection intent observation policy decidedAt = .ok (projection, failed))
include hattempt

theorem projection_of_no_reason
    (hchecks : ∀ check ∈ riskChecks intent policyDecision observation policy decidedAt projection failed,
      check.2 = false) : ∃ p, projection = some p ∧ WithinPolicy policy p := by
  unfold riskChecks at hchecks
  simp only [List.forall_mem_cons, List.not_mem_nil, false_implies, implies_true, and_true,
    decide_eq_false_iff_not, not_not, not_and, not_or, not_exists] at hchecks
  obtain ⟨-, -, hspec, hmarket, hvaluation, hportfolio, -, -, -, -, ⟨hbalance, hfunds⟩, hpending, hgross, hnet,
    hstrategy, hvenue, -, -, -, -, hhealthy, -⟩ := hchecks
  obtain ⟨hvalued, hfailed⟩ := hvaluation hspec
  obtain ⟨spec, hsome⟩ := Option.ne_none_iff_exists'.1 hspec
  have hattempted : ProjectionAttempted intent observation policy decidedAt := by
    refine ⟨⟨spec, hsome, ?_⟩, ?_, hvalued, hportfolio hspec hvalued, hbalance⟩
    · obtain ⟨record, hrecord, -⟩ := hhealthy
      have hvenues := onlyOne_eq_some_iff.1 (Option.mem_def.1 hrecord)
      rw [hsome] at hvenues
      have hfilter : (observation.venueHealth.filter fun item => item.venueId = spec.venueId) = [record] :=
        hvenues
      rw [hfilter]
      exact List.cons_ne_nil _ _
    · obtain ⟨market, hmem, -⟩ := hmarket hspec
      exact Option.isSome_iff_exists.2 ⟨market, hmem⟩
  unfold attemptProjection at hattempt
  rw [if_pos hattempted] at hattempt
  cases hproject : projectRuntimeOrder intent observation policy decidedAt with
  | error e =>
    rw [hproject] at hattempt
    cases e with
    | projectionError message =>
      obtain ⟨-, rfl⟩ := Prod.mk.inj (Except.ok.inj hattempt)
      exact absurd rfl hfailed
    | valueError message => cases hattempt
  | ok p =>
    rw [hproject] at hattempt
    obtain ⟨rfl, -⟩ := Prod.mk.inj (Except.ok.inj hattempt)
    refine ⟨p, rfl, ?_, ?_, ?_, ?_, ?_, ?_⟩
    · exact not_lt.1 (hpending p rfl)
    · exact not_lt.1 (hgross p rfl)
    · exact not_lt.1 (hnet p rfl)
    · exact not_lt.1 (hstrategy p rfl)
    · exact not_lt.1 (hvenue p rfl)
    · exact (hfunds p rfl).2

theorem decisionFields_valid :
    (decisionFields intent policyDecision observation policy decidedAt codec decisionId projection
      (reasonsOf (riskChecks intent policyDecision observation policy decidedAt projection failed))).Valid := by
  have hsub := @reasonsOf_sublist intent policyDecision observation policy decidedAt projection failed
  have hprojection : reasonsOf (riskChecks intent policyDecision observation policy decidedAt projection
      failed) = [] → projection ≠ none := by
    intro hnil
    obtain ⟨p, rfl, -⟩ := projection_of_no_reason hattempt (reasonsOf_eq_nil_iff.1 hnil)
    exact Option.some_ne_none p
  generalize reasonsOf (riskChecks intent policyDecision observation policy decidedAt projection failed) =
    reasons at hsub hprojection
  have hordered : (reasons.map RuntimeRiskReasonCode.order).Pairwise (· < ·) :=
    (by decide : (checkedReasons.map RuntimeRiskReasonCode.order).Pairwise (· < ·)).sublist
      (hsub.map RuntimeRiskReasonCode.order)
  have hlimits : RuntimeRiskReasonCode.withinLimits ∉ reasons :=
    fun hmem => absurd (hsub.subset hmem) (by decide)
  unfold RuntimeOrderRiskFields.Valid decisionFields
  by_cases hnil : reasons = []
  · simp only [hnil, if_true]
    exact ⟨observation.valid.stateVersion_nonneg, by decide, by decide, trivial,
      complete_ofProjection.2 (hprojection hnil)⟩
  · simp only [hnil, if_false]
    exact ⟨observation.valid.stateVersion_nonneg, hnil, hordered, hlimits⟩

omit hattempt

/-- The evaluation approves exactly when no check fails, within the limits, and gives reasons otherwise. -/
def DecidesSoundly (codec : ModelCodec) (decisionId : Uuid) (intent : OrderIntent)
    (policyDecision : RiskDecision) (observation : RuntimeRiskObservation) (policy : RuntimeRiskPolicy)
    (decidedAt : DateTime) : Prop :=
  ∃ decision projection failed,
    evaluateRuntimeOrderRisk intent policyDecision observation policy decidedAt codec decisionId =
        .ok decision ∧
      attemptProjection intent observation policy decidedAt = .ok (projection, failed) ∧
      decision.projection = .ofProjection projection ∧
      (decision.outcome = .approved ↔
        ∀ check ∈ riskChecks intent policyDecision observation policy decidedAt projection failed,
          check.2 = false) ∧
      (decision.outcome = .approved → decision.projection.Complete ∧
        ∃ p, projection = some p ∧ WithinPolicy policy p) ∧
      (¬ decision.projection.Complete →
        decision.reasonCodes ≠ [] ∧ ∀ reason ∈ decision.reasonCodes, reason ∈ checkedReasons)

/-- The unbounded integers of the inputs can be written. -/
def InputsWritten (intent : OrderIntent) (policyDecision : RiskDecision) (observation : RuntimeRiskObservation)
    (policy : RuntimeRiskPolicy) : Prop :=
  ∀ model ∈ [.intent intent, .policyDecision policyDecision, .observation observation, .policy policy,
    .portfolio observation.portfolio], CanonicalModel.Written model

theorem validatedDigests_ok_iff : validatedDigests intent policyDecision observation policy codec = .ok () ↔
    InputsWritten intent policyDecision observation policy := by
  have hdigest (model : CanonicalModel) (field : String) :
      (∃ digest, validatedDigest codec model field = .ok digest) ↔ model.Written := by
    simp only [validatedDigest, bind_ok_iff, require_ok_iff, exists_const, pure_eq_ok, Except.ok.injEq, exists_and_left,
      exists_eq', and_true]
  unfold validatedDigests
  simp only [bind_ok_iff, exists_and_right, hdigest, InputsWritten, List.forall_mem_cons, List.not_mem_nil,
    false_implies, implies_true, pure_eq_ok, and_true]

theorem decidesSoundly_of_attempt (hwritten : InputsWritten intent policyDecision observation policy)
    (htime : (policyDecision.decidedAt ≤ intent.requestedAt ∧
      intent.requestedAt ≤ decidedAt) ∧ observation.observedAt ≤ decidedAt)
    (hattempt : attemptProjection intent observation policy decidedAt = .ok (projection, failed)) :
    DecidesSoundly codec decisionId intent policyDecision observation policy decidedAt := by
  have hvalid := @decisionFields_valid intent policyDecision observation policy decidedAt projection failed
    codec decisionId hattempt
  refine ⟨⟨_, hvalid⟩, projection, failed, ?_, hattempt, rfl, ?_, ?_, ?_⟩
  · unfold evaluateRuntimeOrderRisk RuntimeOrderRiskDecision.of
    rw [validatedDigests_ok_iff.2 hwritten, ok_bind]
    simp only [require_of _ htime, ok_bind, hattempt]
    exact dif_pos hvalid
  · rw [← reasonsOf_eq_nil_iff]
    show (if _ = [] then RuntimeRiskOutcome.approved else .rejected) = .approved ↔ _
    split_ifs with hnil <;> simp [hnil]
  · intro houtcome
    have hnil : reasonsOf (riskChecks intent policyDecision observation policy decidedAt projection failed) = [] := by
      by_contra hne
      have : (if reasonsOf (riskChecks intent policyDecision observation policy decidedAt projection failed) =
          [] then RuntimeRiskOutcome.approved else .rejected) = .approved := houtcome
      rw [if_neg hne] at this
      cases this
    obtain ⟨p, rfl, hp⟩ := projection_of_no_reason hattempt (reasonsOf_eq_nil_iff.1 hnil)
    exact ⟨complete_ofProjection.2 (Option.some_ne_none p), p, rfl, hp⟩
  · intro hincomplete
    have hnone : projection = none := not_not.1 fun hne => hincomplete (complete_ofProjection.2 hne)
    have hnil : reasonsOf (riskChecks intent policyDecision observation policy decidedAt projection failed) ≠ [] := by
      intro hnil
      obtain ⟨p, hp, -⟩ := projection_of_no_reason hattempt (reasonsOf_eq_nil_iff.1 hnil)
      rw [hnone] at hp
      cases hp
    show (if _ = [] then _ else _) ≠ [] ∧ ∀ reason ∈ (if _ = [] then _ else _), reason ∈ checkedReasons
    rw [if_neg hnil]
    exact ⟨hnil, fun reason hmem => reasonsOf_sublist.subset hmem⟩

/-- For inputs in time order, exactly when their integers and every amount that an attempted projection forms can be
written. -/
theorem evaluation_decides_soundly_iff (codec : ModelCodec) (decisionId : Uuid) (intent : OrderIntent)
    (policyDecision : RiskDecision) (observation : RuntimeRiskObservation) (policy : RuntimeRiskPolicy)
    (decidedAt : DateTime) (hrequested : policyDecision.decidedAt ≤ intent.requestedAt)
    (hdecided : intent.requestedAt ≤ decidedAt) (hobserved : observation.observedAt ≤ decidedAt) :
    DecidesSoundly codec decisionId intent policyDecision observation policy decidedAt ↔
      InputsWritten intent policyDecision observation policy ∧
      (ProjectionAttempted intent observation policy decidedAt →
        ∀ authority, Authorized intent observation policy decidedAt authority →
          OrderDigits intent observation policy decidedAt authority) := by
  constructor
  · rintro ⟨decision, projection, failed, hdecision, hattempt, -⟩
    refine ⟨?_, fun hattempted => ?_⟩
    · unfold evaluateRuntimeOrderRisk at hdecision
      obtain ⟨_, hdigests, -⟩ := bind_ok_iff.1 hdecision
      exact validatedDigests_ok_iff.1 hdigests
    · rw [← avoids_raised_iff hattempted]
      exact attemptProjection_ok_iff.1 ⟨_, hattempt⟩ hattempted
  · rintro ⟨hwritten, h⟩
    obtain ⟨⟨projection, failed⟩, hattempt⟩ := attemptProjection_ok_iff.2 fun hattempted =>
      (avoids_raised_iff hattempted).2 (h hattempted)
    exact decidesSoundly_of_attempt hwritten ⟨⟨hrequested, hdecided⟩, hobserved⟩ hattempt

end

/-! ## A sample order -/

def dollars (n : ℤ) : Money := ⟨.scaled n 0, .USD, atScale_iff.2 ⟨n * 100, by
  show (n : ℚ) / 10 ^ 0 = _
  push_cast
  norm_num [Currency.precision]⟩⟩

def powerPrice (k : ℕ) : Price := ⟨.scaled (10 ^ k) 0, .USD, by
  have hpos : (0 : ℚ) < ((10 ^ k : ℤ) : ℚ) := by exact_mod_cast pow_pos (by norm_num) k
  exact div_pos hpos (by norm_num)⟩

def shares (n : ℕ) (h : QuantityFits (.scaled n 0) 0 ∧ 0 ≤ Decimal.scaled n 0) : OrderQuantity :=
  ⟨.scaled n 0, 0, h.1, h.2⟩

def sampleInstrument : InstrumentId := ⟨"AAPL", .equity, "XNAS", by decide, by decide⟩

def sampleIntent (limit : Price) : OrderIntent where
  intentId := 1
  riskDecisionId := 2
  clientOrderId := "order-1"
  venueOrderId := none
  strategyId := "alpha"
  traderId := "trader"
  accountId := "account"
  executionClientId := "client"
  orderListId := none
  instrument := sampleInstrument
  side := .buy
  orderType := .limit
  timeInForce := .gtc
  quantity := shares 1 (by decide +kernel)
  limitPrice := some limit
  triggerPrice := none
  trailingOffset := none
  gtdExpiry := none
  postOnly := false
  reduceOnly := false
  requestedAt := 0
  schemaVersion := "order-intent-v2"
  valid := by
    have hone : 0 < (shares 1 (by decide +kernel)).value := by decide +kernel
    exact ⟨hone, by simp [OrderType.IsLimit], by simp [OrderType.IsTrigger], by simp, by simp, nofun, nofun⟩

def samplePolicyDecision : RiskDecision := ⟨2, some 3, .approved, 0, "", by decide⟩

def noExposure : ExposureSnapshot := ⟨⟨.USD, dollars 0, dollars 0, dollars 0⟩, by decide +kernel⟩

def samplePortfolio : AccountPortfolioSnapshot where
  snapshotId := 4
  accountId := "account"
  reportingCurrency := .USD
  balances := [⟨⟨"account", .USD, dollars 1000, dollars 0, dollars 0, dollars 0, dollars 0, dollars 0,
    dollars 0, 0, "v1"⟩, by decide +kernel⟩]
  positions := []
  totalExposure := noExposure
  instrumentExposures := []
  strategyExposures := []
  venueExposures := []
  observedAt := 0
  schemaVersion := "v1"
  valid := by decide +kernel

theorem unit_rate : (0 : Decimal) ≤ 1 ∧ (1 : Decimal) ≤ 1 := by decide +kernel

def sampleSpec : RuntimeInstrumentRiskSpec where
  instrument := sampleInstrument
  venueId := "XNAS"
  settlementCurrency := .USD
  priceIncrement := powerPrice 0
  quantityIncrement := shares 1 (by decide +kernel)
  minQuantity := shares 1 (by decide +kernel)
  maxQuantity := shares 100 (by decide +kernel)
  minOrderNotional := dollars 1
  maxOrderNotional := dollars 500
  initialMarginRate := 1
  incrementCurrency := rfl
  quantities_pos := by decide +kernel
  precisions := ⟨rfl, rfl⟩
  quantity_bounds := by decide +kernel
  notionalCurrency := rfl
  notional_pos := by decide +kernel
  notional_bounds := by decide +kernel
  marginRate := unit_rate

def sampleObservation : RuntimeRiskObservation where
  observationId := 5
  stateVersion := 1
  portfolio := samplePortfolio
  instrumentSpecs := [sampleSpec]
  marketSnapshots := [⟨sampleInstrument, powerPrice 1, powerPrice 1, powerPrice 1, 0, "feed", by decide,
    le_rfl⟩]
  conversionRates := []
  venueHealth := [⟨"XNAS", .healthy, 0⟩]
  engineReady := true
  dailyPnl := dollars 0
  currentEquity := dollars 1000
  peakEquity := dollars 1000
  commandWindowStartedAt := 0
  commandsInWindow := 0
  priorCommands := []
  observedAt := 0
  valid := by constructor <;> decide +kernel

def samplePolicy : RuntimeRiskPolicy where
  policyId := 6
  policyVersion := "v1"
  accountId := "account"
  marketDataMaxAgeSeconds := 3600
  portfolioMaxAgeSeconds := 3600
  maxPendingExposure := dollars 500
  maxGrossExposure := dollars 500
  maxAbsNetExposure := dollars 500
  maxStrategyExposure := dollars 500
  maxVenueExposure := dollars 500
  minAvailableFunds := dollars 0
  maxDailyLoss := dollars 100
  maxDrawdown := dollars 100
  commandWindowSeconds := 3600
  maxCommandsPerWindow := 10
  durations := by unfold IsRuntimeRiskDuration; decide
  maxCommands_nonneg := by decide
  oneCurrency := by decide
  moneys_nonneg := by decide +kernel

def sampleModelCodec : ModelCodec where
  sha256 text := text
  canonicalModelJson
    | .intent m => "intent." ++ toString m.intentId
    | .policyDecision m => "policyDecision." ++ toString m.decisionId
    | .observation m => "observation." ++ toString m.observationId
    | .policy m => "policy." ++ toString m.policyId
    | .portfolio m => "portfolio." ++ toString m.snapshotId
    | .decision m => "decision." ++ toString m.decisionId ++ "." ++ toString m.decidedAt
    | .approval m => "approval." ++ toString m.eventId
    | .safety m => "safety." ++ m.sourceFingerprint ++ "." ++ toString m.observedAt
    | .authorization m => "authorization." ++ toString m.authorizationId
  safetyBindingJson _ fingerprint := "binding." ++ fingerprint

example : (evaluateRuntimeOrderRisk (sampleIntent (powerPrice 1)) samplePolicyDecision sampleObservation
    samplePolicy 0 sampleModelCodec 7).toOption.any (fun d => d.reasonCodes = [.withinLimits]) = true := by
  decide +kernel

theorem sample_order_decides_soundly : samplePolicyDecision.decidedAt ≤ (sampleIntent (powerPrice 1)).requestedAt ∧
    (sampleIntent (powerPrice 1)).requestedAt ≤ 0 ∧ sampleObservation.observedAt ≤ 0 ∧
    (DecidesSoundly sampleModelCodec 7 (sampleIntent (powerPrice 1)) samplePolicyDecision sampleObservation
        samplePolicy 0 ↔
      InputsWritten (sampleIntent (powerPrice 1)) samplePolicyDecision sampleObservation samplePolicy ∧
      (ProjectionAttempted (sampleIntent (powerPrice 1)) sampleObservation samplePolicy 0 →
        ∀ authority, Authorized (sampleIntent (powerPrice 1)) sampleObservation samplePolicy 0 authority →
          OrderDigits (sampleIntent (powerPrice 1)) sampleObservation samplePolicy 0 authority)) :=
  ⟨by decide, by decide, by decide, evaluation_decides_soundly_iff _ _ _ _ _ _ _ (by decide) (by decide)
    (by decide)⟩

/-- An order with a limit price of more digits than `str` writes is not decided: the evaluation raises. -/
theorem long_price_raises : ¬ ∀ (codec : ModelCodec) (decisionId : Uuid) (intent : OrderIntent)
    (policyDecision : RiskDecision) (observation : RuntimeRiskObservation) (policy : RuntimeRiskPolicy)
    (decidedAt : DateTime), policyDecision.decidedAt ≤ intent.requestedAt → intent.requestedAt ≤ decidedAt →
      observation.observedAt ≤ decidedAt →
        DecidesSoundly codec decisionId intent policyDecision observation policy decidedAt := by
  intro h
  obtain ⟨decision, _, _, hdecision, -⟩ := h sampleModelCodec 7 (sampleIntent (powerPrice 5000))
    samplePolicyDecision sampleObservation samplePolicy 0 (by decide) (by decide) (by decide)
  have hraised : evaluateRuntimeOrderRisk (sampleIntent (powerPrice 5000)) samplePolicyDecision
      sampleObservation samplePolicy 0 sampleModelCodec 7 = .error digitsExceeded := by
    decide +kernel
  rw [hraised] at hdecision
  cases hdecision

/-! ## Failures of the projection -/

theorem not_expected_digitsExceeded {intent : OrderIntent} {observation : RuntimeRiskObservation} :
    ¬ Expected intent observation digitsExceeded := by
  intro h
  generalize he : digitsExceeded = e at h
  cases h <;> cases he

/-- What the evaluator checked does not fail in the projection, as long as every amount can be written. -/
theorem projection_fails_as_expected_iff (intent : OrderIntent) (observation : RuntimeRiskObservation)
    (policy : RuntimeRiskPolicy) (decidedAt : DateTime)
    (hattempt : ProjectionAttempted intent observation policy decidedAt) :
    (∀ e, projectRuntimeOrder intent observation policy decidedAt = .error e → Expected intent observation e) ↔
      ∀ authority, Authorized intent observation policy decidedAt authority →
        OrderDigits intent observation policy decidedAt authority := by
  have havoids : Avoids (fun e => ¬ Expected intent observation e)
      (projectRuntimeOrder intent observation policy decidedAt) ↔ _ :=
    avoids_projectRuntimeOrder_iff not_expected_digitsExceeded (fun _ => not_not.2) hattempt
  simpa only [Avoids, not_not] using havoids

theorem sample_projection_fails_as_expected :
    (∀ e, projectRuntimeOrder (sampleIntent (powerPrice 1)) sampleObservation samplePolicy 0 = .error e →
      Expected (sampleIntent (powerPrice 1)) sampleObservation e) ↔
      ∀ authority, Authorized (sampleIntent (powerPrice 1)) sampleObservation samplePolicy 0 authority →
        OrderDigits (sampleIntent (powerPrice 1)) sampleObservation samplePolicy 0 authority :=
  projection_fails_as_expected_iff _ _ _ _ (by decide +kernel)

theorem long_price_fails_unexpectedly : ¬ ∀ (intent : OrderIntent) (observation : RuntimeRiskObservation)
    (policy : RuntimeRiskPolicy) (decidedAt : DateTime), ProjectionAttempted intent observation policy decidedAt →
      ∀ e, projectRuntimeOrder intent observation policy decidedAt = .error e → Expected intent observation e := by
  intro h
  have hraised : projectRuntimeOrder (sampleIntent (powerPrice 5000)) sampleObservation samplePolicy 0 =
      .error digitsExceeded := by
    decide +kernel
  exact not_expected_digitsExceeded (h _ _ _ _ (by decide +kernel) _ hraised)

end TradingAgent.RuntimeRisk
