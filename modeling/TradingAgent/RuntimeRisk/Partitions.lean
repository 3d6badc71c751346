import Mathlib.Algebra.Ring.Subring.Order
import TradingAgent.RuntimeRisk.Evaluator
import TradingAgent.Lib.Tally

/-! The partitions of the evaluator and of the projection, exactly. -/

namespace TradingAgent.RuntimeRisk

open Outcome

/-! ## Exact arithmetic -/

def checked {α : Type} (fits : Prop) [Decidable fits] (result : α) : Except EvaluationFailure α :=
  if fits then .ok result else .error digitsExceeded

variable {α β : Type} {fits fits' : Prop}

theorem checked_bind [Decidable fits] {a : α} {f : α → Except EvaluationFailure β}
    [Decidable fits'] {b : β} (h : f a = checked fits' b) : (checked fits a >>= f) = checked (fits ∧ fits') b := by
  unfold checked at h ⊢
  by_cases hf : fits
  · rw [if_pos hf, ok_bind, h]
    simp only [hf, true_and]
  · rw [if_neg hf, error_bind, if_neg fun hboth => hf hboth.1]

theorem checked_map [Decidable fits] {a : α} {f : α → Except EvaluationFailure β}
    {b : β} (h : f a = .ok b) : (checked fits a >>= f) = checked fits b := by
  unfold checked
  by_cases hf : fits
  · rw [if_pos hf, if_pos hf, ok_bind, h]
  · rw [if_neg hf, if_neg hf, error_bind]

theorem checked_congr [Decidable fits] [Decidable fits'] {a : α}
    (h : fits ↔ fits') : checked fits a = checked fits' a := by
  unfold checked
  simp only [h]

@[simp] theorem checked_ok_iff [Decidable fits] {a b : α} : checked fits a = .ok b ↔ fits ∧ a = b := by
  unfold checked
  split_ifs with h <;> simp [h]

theorem decimalOf_coe (d : Decimal) (field : String) : decimalOf d field = checked (DigitsFit d) d := by
  unfold decimalOf checked
  rw [exactDecimal?_coe]

theorem sumOf_eq (values : List Decimal) (field : String) :
    sumOf values field = checked (DigitsFit (values.sum : Decimal)) values.sum := by
  unfold sumOf
  rw [← AddSubmonoidClass.coe_list_sum]
  exact decimalOf_coe _ field

theorem sumOf_pair (a b : Decimal) (field : String) :
    sumOf [a, b] field = checked (DigitsFit (a + b : Decimal)) (a + b) := by
  have h : [a, b].sum = a + b := by simp
  rw [sumOf_eq, h]

theorem productOf_eq (values : List Decimal) (field : String) :
    productOf values field = checked (DigitsFit (values.prod : Decimal)) values.prod := by
  unfold productOf
  rw [← SubmonoidClass.coe_list_prod]
  exact decimalOf_coe _ field

theorem sumOf_triple (a b c : Decimal) (field : String) :
    sumOf [a, b, c] field = checked (DigitsFit (a + b + c : Decimal)) (a + b + c) := by
  have h : [a, b, c].sum = a + b + c := by simp [add_assoc]
  rw [sumOf_eq, h]

theorem productOf_pair (a b : Decimal) (field : String) :
    productOf [a, b] field = checked (DigitsFit (a * b : Decimal)) (a * b) := by
  have h : [a, b].prod = a * b := by simp
  rw [productOf_eq, h]

theorem reportingNotional_eq (quantity : Decimal) (price : Price) (rate : Decimal) (field : String) :
    reportingNotional quantity price rate field =
      checked (DigitsFit (quantity * price.amount * rate : Decimal)) (quantity * price.amount * rate) := by
  have h : [quantity, price.amount, rate].prod = quantity * price.amount * rate := by simp [mul_assoc]
  unfold reportingNotional
  rw [productOf_eq, h]

/-! ## Conversion rates -/

variable {field : String}

theorem oneByKey_ok_iff {κ : Type} [DecidableEq κ] {values : List α} {key : κ} {keyOf : α → κ}
    {a : α} : oneByKey values key keyOf field = .ok a ↔
      onlyOne (values.filter fun value => keyOf value = key) = some a := by
  unfold oneByKey
  cases onlyOne (values.filter fun value => keyOf value = key) <;> simp

theorem projectionRate_ok_iff {observation : RuntimeRiskObservation} {policy : RuntimeRiskPolicy}
    {decidedAt : DateTime} {source : Currency} {rate : Decimal} :
    projectionRate source observation.portfolio.reportingCurrency observation policy decidedAt = .ok rate ↔
      conversionRate source observation policy decidedAt = some rate := by
  have hcodes : ∀ item : RuntimeRiskConversionRate, (item.sourceCurrency.code, item.targetCurrency.code) =
        (source.code, observation.portfolio.reportingCurrency.code) ↔
      item.sourceCurrency = source ∧ item.targetCurrency = observation.portfolio.reportingCurrency := by
    intro item
    rw [Prod.mk.injEq, Currency.code_injective.eq_iff, Currency.code_injective.eq_iff]
  unfold projectionRate conversionRate
  by_cases hsame : source = observation.portfolio.reportingCurrency
  · simp [hsame]
  · simp only [if_neg hsame, bind_ok_iff, rescue_ok_iff, oneByKey_ok_iff, hcodes, require_ok_iff,
      exists_const, pure_eq_ok, Except.ok.injEq, Option.map_eq_some_iff, Option.filter_eq_some_iff,
      decide_eq_true_eq]
    constructor
    · rintro ⟨item, hitem, -, hage, rfl⟩
      have hmem : item ∈ observation.conversionRates := by
        have := onlyOne_eq_some_iff.1 hitem
        exact (List.mem_filter.1 (this ▸ List.mem_singleton.2 rfl)).1
      exact ⟨item, ⟨hitem, hage, observation.valid.conversionTime item hmem⟩, rfl⟩
    · rintro ⟨item, ⟨hitem, hage, -⟩, rfl⟩
      have hmem := onlyOne_eq_some_iff.1 hitem
      have hkeys := (List.mem_filter.1 (hmem ▸ List.mem_singleton.2 rfl : item ∈ _)).2
      exact ⟨item, hitem, of_decide_eq_true hkeys, hage, rfl⟩

/-! ## Notionals -/

theorem mark_of_open (position : AccountPositionSnapshot) (h : position.quantity.value ≠ 0) :
    ∃ mark, position.mark = some mark := by
  have hvalid := position.valid
  unfold AccountPositionFields.validate at hvalid
  cases hm : position.mark with
  | some mark => exact ⟨mark, rfl⟩
  | none =>
    rw [hm] at hvalid
    simp [bind_ok_iff, h] at hvalid

section

variable (observation : RuntimeRiskObservation) (policy : RuntimeRiskPolicy) (decidedAt : DateTime)

def positionNotional (position : AccountPositionSnapshot) : Decimal :=
  position.quantity.value * (position.mark.elim 0 fun mark => mark.price.amount) *
    (conversionRate position.settlementCurrency observation policy decidedAt).getD 0

/-- What a position adds to the gross and the net exposure of its groups. -/
def contribution (position : AccountPositionSnapshot) : Decimal × Decimal :=
  (|positionNotional observation policy decidedAt position|,
    positionNotional observation policy decidedAt position)

def PositionsValued : Prop :=
  ∀ position ∈ openPositions observation.portfolio,
    (conversionRate position.settlementCurrency observation policy decidedAt).isSome = true

def partitionsOf (positions : List AccountPositionSnapshot) : Partitions Decimal where
  instruments := Dict.tally (fun p => p.instrument.canonical) (contribution observation policy decidedAt) positions
  strategies := Dict.tally (fun p => p.strategyId) (contribution observation policy decidedAt) positions
  venues := Dict.tally (fun p => p.instrument.venue) (contribution observation policy decidedAt) positions

def fractions : Decimal × Decimal →+ ℚ × ℚ :=
  decimalRing.subtype.toAddMonoidHom.prodMap decimalRing.subtype.toAddMonoidHom

def fractionPartitionsOf (positions : List AccountPositionSnapshot) : Partitions ℚ where
  instruments := Dict.tally (fun p => p.instrument.canonical)
    (fun p => fractions (contribution observation policy decidedAt p)) positions
  strategies := Dict.tally (fun p => p.strategyId)
    (fun p => fractions (contribution observation policy decidedAt p)) positions
  venues := Dict.tally (fun p => p.instrument.venue)
    (fun p => fractions (contribution observation policy decidedAt p)) positions

end

theorem decimal_abs (d : Decimal) : ((|d| : Decimal) : ℚ) = |(d : ℚ)| := by
  rcases le_total 0 d with h | h
  · have hq : (0 : ℚ) ≤ d := h
    rw [abs_of_nonneg h, abs_of_nonneg hq]
  · have hq : (d : ℚ) ≤ 0 := h
    rw [abs_of_nonpos h, abs_of_nonpos hq]
    rfl

/-! ## The evaluator's loop -/

section

variable {observation : RuntimeRiskObservation} {policy : RuntimeRiskPolicy} {decidedAt : DateTime}

theorem addPositionAmounts_of_valued {partitions : Partitions ℚ} {position : AccountPositionSnapshot}
    (hopen : position.quantity.value ≠ 0)
    (hrate : (conversionRate position.settlementCurrency observation policy decidedAt).isSome = true) :
    addPositionAmounts observation policy decidedAt partitions position =
      some ⟨partitions.instruments.addAt position.instrument.canonical
          (fractions (contribution observation policy decidedAt position)),
        partitions.strategies.addAt position.strategyId
          (fractions (contribution observation policy decidedAt position)),
        partitions.venues.addAt position.instrument.venue
          (fractions (contribution observation policy decidedAt position))⟩ := by
  obtain ⟨mark, hmark⟩ := mark_of_open position hopen
  obtain ⟨rate, hrate⟩ := Option.isSome_iff_exists.1 hrate
  have hcontribution : fractions (contribution observation policy decidedAt position) =
      (|(position.quantity.value * mark.price.amount * rate : ℚ)|,
        (position.quantity.value * mark.price.amount * rate : ℚ)) := by
    show (((|positionNotional observation policy decidedAt position| : Decimal) : ℚ),
      (positionNotional observation policy decidedAt position : ℚ)) = _
    rw [decimal_abs]
    simp only [positionNotional, hmark, hrate, Option.elim_some, Option.getD_some]
    rfl
  unfold addPositionAmounts
  rw [if_neg hopen, hmark, hrate, hcontribution]
  rfl

theorem fractionPartitionsOf_concat (xs : List AccountPositionSnapshot) (p : AccountPositionSnapshot) :
    fractionPartitionsOf observation policy decidedAt (xs ++ [p]) =
      ⟨(fractionPartitionsOf observation policy decidedAt xs).instruments.addAt p.instrument.canonical
          (fractions (contribution observation policy decidedAt p)),
        (fractionPartitionsOf observation policy decidedAt xs).strategies.addAt p.strategyId
          (fractions (contribution observation policy decidedAt p)),
        (fractionPartitionsOf observation policy decidedAt xs).venues.addAt p.instrument.venue
          (fractions (contribution observation policy decidedAt p))⟩ := by
  unfold fractionPartitionsOf
  simp only [Dict.tally_concat]

variable {amounts : Partitions ℚ}

theorem foldlM_addPositionAmounts {xs : List AccountPositionSnapshot} (hopen : ∀ p ∈ xs, p.quantity.value ≠ 0) :
    xs.foldlM (addPositionAmounts observation policy decidedAt) ⟨[], [], []⟩ = some amounts ↔
      (∀ p ∈ xs, (conversionRate p.settlementCurrency observation policy decidedAt).isSome = true) ∧
        amounts = fractionPartitionsOf observation policy decidedAt xs := by
  induction xs using List.reverseRecOn generalizing amounts with
  | nil =>
    constructor
    · intro h
      exact ⟨by simp, (Option.some.inj h).symm⟩
    · rintro ⟨-, rfl⟩
      rfl
  | append_singleton xs p ih =>
    have ih := fun b => @ih b fun q hq => hopen q (List.mem_append_left _ hq)
    have hp : p.quantity.value ≠ 0 := hopen p (by simp)
    rw [foldlM_concat, Option.bind_eq_bind, Option.bind_eq_some_iff, fractionPartitionsOf_concat]
    constructor
    · rintro ⟨b, hb, ha⟩
      obtain ⟨hvalued, rfl⟩ := (ih b).1 hb
      have hrate : (conversionRate p.settlementCurrency observation policy decidedAt).isSome = true := by
        obtain ⟨mark, hmark⟩ := mark_of_open p hp
        by_contra hnone
        rw [Option.not_isSome_iff_eq_none] at hnone
        unfold addPositionAmounts at ha
        rw [if_neg hp, hmark, hnone] at ha
        cases ha
      rw [addPositionAmounts_of_valued hp hrate] at ha
      refine ⟨?_, (Option.some.inj ha).symm⟩
      intro q hq
      rcases List.mem_append.1 hq with hq | hq
      · exact hvalued q hq
      · rwa [List.mem_singleton.1 hq]
    · rintro ⟨hvalued, rfl⟩
      refine ⟨_, (ih _).2 ⟨fun q hq => hvalued q (List.mem_append_left _ hq), rfl⟩, ?_⟩
      exact addPositionAmounts_of_valued hp (hvalued p (by simp))

theorem positionAmounts_eq_some_iff : positionAmounts observation policy decidedAt = some amounts ↔
      PositionsValued observation policy decidedAt ∧
        amounts = fractionPartitionsOf observation policy decidedAt (openPositions observation.portfolio) := by
  have hskip : positionAmounts observation policy decidedAt =
      (openPositions observation.portfolio).foldlM (addPositionAmounts observation policy decidedAt)
        ⟨[], [], []⟩ := by
    refine foldlM_filter (fun s p hp => ?_) _ _
    have hzero : p.quantity.value = 0 := by simpa using hp
    unfold addPositionAmounts
    rw [if_pos hzero]
  rw [hskip]
  exact foldlM_addPositionAmounts fun p hp => by simpa using (List.mem_filter.1 hp).2

end

/-! ## The projection's loop -/

section

variable (observation : RuntimeRiskObservation) (policy : RuntimeRiskPolicy) (decidedAt : DateTime)

def groupTotal (key : AccountPositionSnapshot → String) (positions : List AccountPositionSnapshot)
    (k : String) : Decimal × Decimal :=
  ((positions.filter fun p => key p = k).map (contribution observation policy decidedAt)).sum

/-- Gross and net of every group can be written, position by position. -/
def GroupDigits (key : AccountPositionSnapshot → String) (positions : List AccountPositionSnapshot) : Prop :=
  ∀ done, done <+: positions → ∀ k, DigitsFit (groupTotal observation policy decidedAt key done k).1 ∧
      DigitsFit (groupTotal observation policy decidedAt key done k).2

/-- The notionals of the positions and the sums over their groups can be written. -/
structure ContributionDigits (positions : List AccountPositionSnapshot) : Prop where
  notionals : ∀ p ∈ positions, DigitsFit (positionNotional observation policy decidedAt p)
  instruments : GroupDigits observation policy decidedAt (fun p => p.instrument.canonical) positions
  strategies : GroupDigits observation policy decidedAt (fun p => p.strategyId) positions
  venues : GroupDigits observation policy decidedAt (fun p => p.instrument.venue) positions

variable {observation policy decidedAt}

theorem total_tally_eq_groupTotal (key : AccountPositionSnapshot → String)
    (positions : List AccountPositionSnapshot) (k : String) :
    (Dict.tally key (contribution observation policy decidedAt) positions).total k =
      groupTotal observation policy decidedAt key positions k :=
  Dict.total_tally _ _ _ _

theorem digitsFit_zero : DigitsFit 0 := by decide +kernel

theorem groupDigits_nil (key : AccountPositionSnapshot → String) : GroupDigits observation policy decidedAt key [] := by
  intro done hdone k
  rw [List.prefix_nil] at hdone
  subst hdone
  exact ⟨digitsFit_zero, digitsFit_zero⟩

variable {xs : List AccountPositionSnapshot} {p : AccountPositionSnapshot}

theorem groupDigits_concat {key : AccountPositionSnapshot → String} :
    GroupDigits observation policy decidedAt key (xs ++ [p]) ↔
      GroupDigits observation policy decidedAt key xs ∧
        DigitsFit ((groupTotal observation policy decidedAt key xs (key p)).1 +
          |positionNotional observation policy decidedAt p| : Decimal) ∧
        DigitsFit ((groupTotal observation policy decidedAt key xs (key p)).2 +
          positionNotional observation policy decidedAt p : Decimal) := by
  have hown : groupTotal observation policy decidedAt key (xs ++ [p]) (key p) =
      groupTotal observation policy decidedAt key xs (key p) + contribution observation policy decidedAt p := by
    unfold groupTotal
    simp
  constructor
  · intro h
    refine ⟨fun done hdone => h done (hdone.trans (List.prefix_append _ _)), ?_⟩
    have := h (xs ++ [p]) (List.prefix_refl _) (key p)
    rwa [hown] at this
  · rintro ⟨hxs, hlast⟩ done hdone k
    rcases List.prefix_concat_iff.1 hdone with rfl | hdone
    · by_cases hk : key p = k
      · subst hk
        rw [hown]
        exact hlast
      · have hsame : groupTotal observation policy decidedAt key (xs ++ [p]) k =
            groupTotal observation policy decidedAt key xs k := by
          unfold groupTotal
          simp [hk]
        rw [hsame]
        exact hxs xs (List.prefix_refl _) k
    · exact hxs done hdone k

theorem addPartitionContribution_eq (partition : Partition Decimal) (key : String) (n : Decimal)
    (field : String) : addPartitionContribution partition key n field =
      checked (DigitsFit ((partition.total key).1 + |n| : Decimal) ∧
        DigitsFit ((partition.total key).2 + n : Decimal)) (partition.addAt key (|n|, n)) := by
  unfold addPartitionContribution
  simp only [sumOf_pair]
  exact checked_bind (checked_map rfl)

theorem addPosition_of_valued {partitions : Partitions Decimal} {position : AccountPositionSnapshot}
    (hopen : position.quantity.value ≠ 0)
    (hrate : (conversionRate position.settlementCurrency observation policy decidedAt).isSome = true) :
    addPosition observation policy decidedAt partitions position =
      checked (DigitsFit (positionNotional observation policy decidedAt position) ∧
        (DigitsFit ((partitions.instruments.total position.instrument.canonical).1 +
            |positionNotional observation policy decidedAt position| : Decimal) ∧
          DigitsFit ((partitions.instruments.total position.instrument.canonical).2 +
            positionNotional observation policy decidedAt position : Decimal)) ∧
        (DigitsFit ((partitions.strategies.total position.strategyId).1 +
            |positionNotional observation policy decidedAt position| : Decimal) ∧
          DigitsFit ((partitions.strategies.total position.strategyId).2 +
            positionNotional observation policy decidedAt position : Decimal)) ∧
        (DigitsFit ((partitions.venues.total position.instrument.venue).1 +
            |positionNotional observation policy decidedAt position| : Decimal) ∧
          DigitsFit ((partitions.venues.total position.instrument.venue).2 +
            positionNotional observation policy decidedAt position : Decimal)))
      ⟨partitions.instruments.addAt position.instrument.canonical (contribution observation policy decidedAt position),
        partitions.strategies.addAt position.strategyId (contribution observation policy decidedAt position),
        partitions.venues.addAt position.instrument.venue
          (contribution observation policy decidedAt position)⟩ := by
  obtain ⟨mark, hmark⟩ := mark_of_open position hopen
  obtain ⟨rate, hrate⟩ := Option.isSome_iff_exists.1 hrate
  have hnotional : reportingNotional position.quantity.value mark.price rate
      "current marked position notional" = checked (DigitsFit (positionNotional observation policy decidedAt position))
          (positionNotional observation policy decidedAt position) := by
    rw [reportingNotional_eq]
    simp only [positionNotional, hmark, hrate, Option.elim_some, Option.getD_some]
  unfold addPosition
  rw [if_neg hopen, hmark]
  simp only [projectionRate_ok_iff.2 hrate, ok_bind, hnotional, addPartitionContribution_eq]
  exact checked_bind (checked_bind (checked_bind (checked_map rfl)))

theorem partitionsOf_concat (xs : List AccountPositionSnapshot) (p : AccountPositionSnapshot) :
    partitionsOf observation policy decidedAt (xs ++ [p]) =
      ⟨(partitionsOf observation policy decidedAt xs).instruments.addAt p.instrument.canonical
          (contribution observation policy decidedAt p),
        (partitionsOf observation policy decidedAt xs).strategies.addAt p.strategyId
          (contribution observation policy decidedAt p),
        (partitionsOf observation policy decidedAt xs).venues.addAt p.instrument.venue
          (contribution observation policy decidedAt p)⟩ := by
  unfold partitionsOf
  simp only [Dict.tally_concat]

theorem contributionDigits_concat : ContributionDigits observation policy decidedAt (xs ++ [p]) ↔
      ContributionDigits observation policy decidedAt xs ∧ DigitsFit (positionNotional observation policy decidedAt p) ∧
        (DigitsFit (((partitionsOf observation policy decidedAt xs).instruments.total
            p.instrument.canonical).1 + |positionNotional observation policy decidedAt p| : Decimal) ∧
          DigitsFit (((partitionsOf observation policy decidedAt xs).instruments.total
            p.instrument.canonical).2 + positionNotional observation policy decidedAt p : Decimal)) ∧
        (DigitsFit (((partitionsOf observation policy decidedAt xs).strategies.total p.strategyId).1 +
            |positionNotional observation policy decidedAt p| : Decimal) ∧
          DigitsFit (((partitionsOf observation policy decidedAt xs).strategies.total p.strategyId).2 +
            positionNotional observation policy decidedAt p : Decimal)) ∧
        (DigitsFit (((partitionsOf observation policy decidedAt xs).venues.total p.instrument.venue).1 +
            |positionNotional observation policy decidedAt p| : Decimal) ∧
          DigitsFit (((partitionsOf observation policy decidedAt xs).venues.total p.instrument.venue).2 +
            positionNotional observation policy decidedAt p : Decimal)) := by
  simp only [partitionsOf, total_tally_eq_groupTotal]
  constructor
  · rintro ⟨hn, hi, hs, hv⟩
    rw [groupDigits_concat] at hi hs hv
    exact ⟨⟨fun q hq => hn q (List.mem_append_left _ hq), hi.1, hs.1, hv.1⟩, hn p (by simp), hi.2, hs.2,
      hv.2⟩
  · rintro ⟨⟨hn, hi, hs, hv⟩, hp, hi', hs', hv'⟩
    refine ⟨?_, groupDigits_concat.2 ⟨hi, hi'⟩, groupDigits_concat.2 ⟨hs, hs'⟩, groupDigits_concat.2 ⟨hv, hv'⟩⟩
    intro q hq
    rcases List.mem_append.1 hq with hq | hq
    · exact hn q hq
    · rwa [List.mem_singleton.1 hq]

open scoped Classical in
theorem foldlM_addPosition (hopen : ∀ p ∈ xs, p.quantity.value ≠ 0)
    (hvalued : ∀ p ∈ xs, (conversionRate p.settlementCurrency observation policy decidedAt).isSome = true) :
    xs.foldlM (addPosition observation policy decidedAt) ⟨[], [], []⟩ =
      checked (ContributionDigits observation policy decidedAt xs) (partitionsOf observation policy decidedAt xs) := by
  induction xs using List.reverseRecOn with
  | nil =>
    have hdigits : ContributionDigits observation policy decidedAt [] :=
      ⟨by simp, groupDigits_nil _, groupDigits_nil _, groupDigits_nil _⟩
    unfold checked
    rw [if_pos hdigits]
    rfl
  | append_singleton xs p ih =>
    have ih := ih (fun q hq => hopen q (List.mem_append_left _ hq))
      fun q hq => hvalued q (List.mem_append_left _ hq)
    have hstep := @addPosition_of_valued observation policy decidedAt
      (partitionsOf observation policy decidedAt xs) p (hopen p (by simp)) (hvalued p (by simp))
    rw [foldlM_concat, ih, partitionsOf_concat]
    refine (checked_bind (f := fun t => addPosition observation policy decidedAt t p) hstep).trans ?_
    exact checked_congr contributionDigits_concat.symm

open scoped Classical in
theorem positionContributions_eq (hvalued : PositionsValued observation policy decidedAt) :
    positionContributions observation policy decidedAt =
      checked (ContributionDigits observation policy decidedAt (openPositions observation.portfolio))
        (partitionsOf observation policy decidedAt (openPositions observation.portfolio)) := by
  have hskip : positionContributions observation policy decidedAt =
      (openPositions observation.portfolio).foldlM (addPosition observation policy decidedAt)
        ⟨[], [], []⟩ := by
    refine foldlM_filter (fun s p hp => ?_) _ _
    have hzero : p.quantity.value = 0 := by simpa using hp
    unfold addPosition
    rw [if_pos hzero]
  rw [hskip]
  exact foldlM_addPosition (fun p hp => by simpa using (List.mem_filter.1 hp).2) hvalued

end

/-! ## Agreement with the snapshot -/

variable (observation : RuntimeRiskObservation) (policy : RuntimeRiskPolicy) (decidedAt : DateTime)

structure GroupsAgree (actual : Dict String ExposureSnapshot) (key : AccountPositionSnapshot → String) :
    Prop where
  covered : ∀ p ∈ openPositions observation.portfolio, key p ∈ actual.keys
  totals : ∀ entry ∈ actual, entry.2.currency = observation.portfolio.reportingCurrency ∧
    (entry.2.gross.amount, entry.2.net.amount) =
      groupTotal observation policy decidedAt key (openPositions observation.portfolio) entry.1
  pending : (actual.values.map fun value => value.pending.amount).sum =
    observation.portfolio.totalExposure.pending.amount

/-- The exposures of the snapshot are the sums over its open positions. -/
structure PositionsAgree : Prop where
  total : (observation.portfolio.totalExposure.gross.amount, observation.portfolio.totalExposure.net.amount) =
    ((openPositions observation.portfolio).map (contribution observation policy decidedAt)).sum
  instruments : GroupsAgree observation policy decidedAt (instrumentExposuresOf observation.portfolio)
    fun p => p.instrument.canonical
  strategies : GroupsAgree observation policy decidedAt (strategyExposuresOf observation.portfolio)
    fun p => p.strategyId
  venues : GroupsAgree observation policy decidedAt (venueExposuresOf observation.portfolio)
    fun p => p.instrument.venue

def TotalDigits : Prop :=
  DigitsFit observation.portfolio.totalExposure.gross.amount ∧
    DigitsFit observation.portfolio.totalExposure.net.amount ∧
    DigitsFit observation.portfolio.totalExposure.pending.amount

instance : Decidable (TotalDigits observation) := inferInstanceAs (Decidable (_ ∧ _))

variable {observation policy decidedAt}

theorem totalExposure_currency (portfolio : AccountPortfolioSnapshot) :
    portfolio.totalExposure.currency = portfolio.reportingCurrency := by
  have hvalid := portfolio.valid
  unfold AccountPortfolioFields.validate at hvalid
  simp only [bind_ok_iff, require_ok_iff, exists_const] at hvalid
  tauto

theorem fractions_injective : Function.Injective fractions := by
  rintro ⟨a, b⟩ ⟨c, d⟩ h
  obtain ⟨h₁, h₂⟩ := Prod.mk.inj h
  exact Prod.ext (Subtype.ext h₁) (Subtype.ext h₂)

theorem sum_fractions (f : α → Decimal × Decimal) (xs : List α) :
    (xs.map fun x => fractions (f x)).sum = fractions (xs.map f).sum := by
  rw [map_list_sum, List.map_map]
  rfl

theorem sum_coe (f : α → Decimal) (xs : List α) : (xs.map fun x => (f x : ℚ)).sum = ((xs.map f).sum : Decimal) := by
  induction xs with
  | nil => rfl
  | cons x xs ih =>
    rw [List.map_cons, List.sum_cons, ih, List.map_cons, List.sum_cons]
    rfl

variable {key : AccountPositionSnapshot → String} {actual : Dict String ExposureSnapshot}

theorem collectionIsConsistent_iff : CollectionIsConsistent observation.portfolio actual
        (Dict.tally key (fun p => fractions (contribution observation policy decidedAt p))
          (openPositions observation.portfolio)) ↔ GroupsAgree observation policy decidedAt actual key := by
  have hpair : ∀ (e : ExposureSnapshot) (pair : Decimal × Decimal),
      ((e.gross.amount : ℚ) = (fractions pair).1 ∧ (e.net.amount : ℚ) = (fractions pair).2) ↔
        (e.gross.amount, e.net.amount) = pair := by
    intro e pair
    rw [← fractions_injective.eq_iff, Prod.ext_iff]
    rfl
  have htotal : ∀ k, Partition.amounts (Dict.tally key
      (fun p => fractions (contribution observation policy decidedAt p))
      (openPositions observation.portfolio)) k =
        fractions (groupTotal observation policy decidedAt key (openPositions observation.portfolio) k) := by
    intro k
    refine (Dict.total_tally _ _ _ _).trans ?_
    exact sum_fractions _ _
  unfold CollectionIsConsistent
  simp only [htotal, hpair, Dict.mem_keys_tally, List.forall_mem_map, sum_coe]
  constructor
  · rintro ⟨h₁, h₂, h₃⟩
    exact ⟨h₁, h₂, Subtype.ext h₃⟩
  · rintro ⟨h₁, h₂, h₃⟩
    exact ⟨h₁, h₂, congrArg Subtype.val h₃⟩

theorem partitionsAreConsistent_iff : PartitionsAreConsistent observation policy decidedAt ↔
    PositionsValued observation policy decidedAt ∧ PositionsAgree observation policy decidedAt := by
  have htotal : (openPositions observation.portfolio |>.map fun p =>
      fractions (contribution observation policy decidedAt p)).sum = fractions
        ((openPositions observation.portfolio).map (contribution observation policy decidedAt)).sum :=
    sum_fractions _ _
  have hagree : ExposuresAgree observation.portfolio (fractionPartitionsOf observation policy decidedAt
      (openPositions observation.portfolio)) ↔ PositionsAgree observation policy decidedAt := by
    unfold ExposuresAgree fractionPartitionsOf
    simp only [collectionIsConsistent_iff]
    rw [← and_assoc, ← Prod.mk.injEq, Dict.sum_components, Dict.sum_values_tally, htotal]
    constructor
    · rintro ⟨h, hi, hs, hv⟩
      exact ⟨fractions_injective h, hi, hs, hv⟩
    · rintro ⟨h, hi, hs, hv⟩
      exact ⟨congrArg fractions h, hi, hs, hv⟩
  unfold PartitionsAreConsistent
  simp only [Option.mem_def, positionAmounts_eq_some_iff]
  constructor
  · rintro ⟨_, ⟨hvalued, rfl⟩, -, -, hexposures⟩
    exact ⟨hvalued, hagree.1 hexposures⟩
  · rintro ⟨hvalued, hpositions⟩
    exact ⟨_, ⟨hvalued, rfl⟩, totalExposure_currency _, observation.valid.portfolioTime, hagree.2 hpositions⟩

variable {u : Unit}

theorem assertExposure_ok_iff {actual : ExposureSnapshot} {expected : Decimal × Decimal}
    {reporting : Currency} : assertExposure actual expected reporting field = .ok u ↔
      actual.currency = reporting ∧ (actual.gross.amount, actual.net.amount) = expected := by
  unfold assertExposure
  simp only [bind_ok_iff, require_ok_iff, exists_const, Prod.ext_iff]

theorem verifyCollection_ok_iff :
    verifyCollection observation.portfolio actual (Dict.tally key (contribution observation policy decidedAt)
        (openPositions observation.portfolio)) field = .ok u ↔ GroupsAgree observation policy decidedAt actual key ∧
        DigitsFit observation.portfolio.totalExposure.pending.amount := by
  have htotal : ∀ k, Partition.amounts (Dict.tally key (contribution observation policy decidedAt)
      (openPositions observation.portfolio)) k =
        groupTotal observation policy decidedAt key (openPositions observation.portfolio) k :=
    fun k => Dict.total_tally _ _ _ _
  unfold verifyCollection
  simp only [bind_ok_iff, require_ok_iff, exists_const, forM_ok_iff, assertExposure_ok_iff, htotal,
    Dict.mem_keys_tally, List.forall_mem_map, sumOf_eq, checked_ok_iff]
  constructor
  · rintro ⟨h₁, h₂, _, ⟨hdigits, rfl⟩, h₃⟩
    refine ⟨⟨h₁, h₂, h₃⟩, ?_⟩
    rwa [h₃] at hdigits
  · rintro ⟨⟨h₁, h₂, h₃⟩, hdigits⟩
    refine ⟨h₁, h₂, _, ⟨?_, rfl⟩, h₃⟩
    rwa [h₃]

/-- The projection accepts the partitions when the snapshot agrees with its open positions and its totals
can be written. -/
theorem verifyPartitions_ok_iff : verifyPartitions observation
      (partitionsOf observation policy decidedAt (openPositions observation.portfolio)) = .ok u ↔
    PositionsAgree observation policy decidedAt ∧ TotalDigits observation := by
  unfold verifyPartitions partitionsOf
  simp only [bind_ok_iff, exists_const, sumOf_eq, checked_ok_iff, assertExposure_ok_iff, verifyCollection_ok_iff]
  have hsums := Dict.sum_values_tally (fun p : AccountPositionSnapshot => p.instrument.canonical)
    (contribution observation policy decidedAt) (openPositions observation.portfolio)
  rw [← Dict.sum_components, Prod.ext_iff] at hsums
  obtain ⟨hgross, hnet⟩ := hsums
  simp only at hgross hnet
  constructor
  · rintro ⟨gross, ⟨hg, rfl⟩, net, ⟨hn, rfl⟩, ⟨-, htotal⟩, ⟨hi, hp⟩, ⟨hs, -⟩, hv, -⟩
    obtain ⟨h₁, h₂⟩ := Prod.mk.inj htotal
    refine ⟨⟨?_, hi, hs, hv⟩, ?_, ?_, hp⟩
    · rw [htotal]
      exact Prod.ext hgross hnet
    · rwa [h₁]
    · rwa [h₂]
  · rintro ⟨⟨htotal, hi, hs, hv⟩, hg, hn, hp⟩
    obtain ⟨h₁, h₂⟩ := Prod.ext_iff.1 htotal
    simp only at h₁ h₂
    rw [← hgross] at h₁
    rw [← hnet] at h₂
    refine ⟨_, ⟨?_, rfl⟩, _, ⟨?_, rfl⟩, ⟨totalExposure_currency _, ?_⟩, ⟨hi, hp⟩, ⟨hs, hp⟩, hv, hp⟩
    · rwa [← h₁]
    · rwa [← h₂]
    · rw [h₁, h₂]

end TradingAgent.RuntimeRisk
