import TradingAgent.Domain.ExactDecimals
import TradingAgent.PortfolioReducer.CostBasis
import TradingAgent.PortfolioReducer.Reducer

/-!
# The reducer under a limit on digits

Every function of the reducer is `Metered`: what it gives under a limit is what it gives without one, and the limits
under which it does so are those that cover the longest integer of the run.
-/

namespace TradingAgent.PortfolioReducer

open Outcome

/-! ## Exact accounting -/

theorem metered_fractions (values : List Decimal) : Metered fun _ : DigitLimit => fractions values :=
  metered_forM values fun _ _ => metered_converts _ fun _ => digitsUnread _

theorem decimal_ok_iff [DigitLimit] {value : ℚ} {field : String} {d : Decimal} :
    decimal value field = .ok d ↔ value = d ∧ Written value := by
  unfold decimal
  cases hexact : exactDecimal? value with
  | none =>
    refine iff_of_false nofun fun ⟨heq, _⟩ => ?_
    rw [heq, exactDecimal?_coe] at hexact
    cases hexact
  | some d' =>
    simp only [bind_ok_iff, require_ok_iff, exists_const, Except.ok.injEq]
    rw [and_comm, ← exactDecimal?_eq_some hexact, Subtype.coe_inj]

theorem metered_decimal (value : ℚ) (field : String) : Metered fun _ : DigitLimit => decimal value field := by
  unfold decimal
  cases exactDecimal? value with
  | none => exact metered_const _
  | some d => exact (metered_converts _ fun _ => digitsExceeded).bind fun _ _ => metered_const _

theorem metered_roundedDecimal (value : ℚ) (precision : ℕ) (field : String) :
    Metered fun _ : DigitLimit => roundedDecimal value precision field :=
  metered_decimal _ _

theorem metered_sum (values : List Decimal) (field : String) : Metered fun _ : DigitLimit => sum values field :=
  (metered_fractions values).bind fun _ _ => metered_decimal _ _

theorem metered_cashDeltas (fill : FillEvent) : Metered fun _ : DigitLimit => cashDeltas fill :=
  (metered_fractions _).bind fun _ _ =>
    metered_mapM _ fun _ _ => (metered_roundedDecimal _ _ _).bind fun _ _ => metered_const _

theorem metered_accountEffect (account : AverageCost.Account ℚ) (effect : PortfolioExecutionEffect) :
    Metered fun _ : DigitLimit => accountEffect account effect :=
  (metered_fractions _).bind fun _ _ => metered_const _

theorem metered_accountingBefore (effects : List PortfolioExecutionEffect) (key : PositionKey) (current : Decimal)
    (average : Option Price) : Metered fun _ : DigitLimit => accountingBefore effects key current average :=
  (metered_fractions _).bind fun _ _ => (metered_const _).bind fun _ _ =>
    (metered_foldlM _ (fun account effect _ => metered_accountEffect account effect) _).bind fun _ _ => metered_const _

theorem metered_costBasisBefore (effects : List PortfolioExecutionEffect) (key : PositionKey) (current : Decimal)
    (average : Option Price) : Metered fun _ : DigitLimit => costBasisBefore effects key current average :=
  (metered_accountingBefore _ _ _ _).bind fun _ _ => metered_const _

theorem metered_weightedAverage (settlement : Currency) (residual basisAfter : ℚ) :
    Metered fun _ : DigitLimit => weightedAverage settlement residual basisAfter := by
  unfold weightedAverage
  by_cases h : residual = 0
  · simp only [if_pos h]
    exact metered_const _
  · simp only [if_neg h]
    exact (metered_roundedDecimal _ _ _).bind fun _ _ => metered_const _

theorem metered_fillAccounting (fill : FillEvent) (current : Decimal) (average : Option Price) (basis : ℚ) :
    Metered fun _ : DigitLimit => fillAccounting fill current average basis :=
  (metered_sum _ _).bind fun _ _ => (metered_fractions _).bind fun _ _ => (metered_const _).bind fun _ _ =>
    (metered_weightedAverage _ _ _).bind fun _ _ => metered_const _

theorem metered_realizedDelta (settlement : Currency) (before realized : ℚ) :
    Metered fun _ : DigitLimit => realizedDelta settlement before realized :=
  (metered_roundedDecimal _ _ _).bind fun _ _ => (metered_roundedDecimal _ _ _).bind fun _ _ => metered_sum _ _

theorem metered_markAndUnrealized (position : PortfolioPositionState) (q : Quantity) (average : Option Price)
    (basis : ℚ) (retained : Option PositionMark) :
    Metered fun _ : DigitLimit => markAndUnrealized position q average basis retained := by
  unfold markAndUnrealized
  by_cases hq : q.value = 0
  · simp only [if_pos hq]
    exact metered_const _
  · simp only [if_neg hq]
    cases retained.or position.mark with
    | none => exact metered_const _
    | some mark =>
      cases average with
      | none => exact metered_const _
      | some average =>
        cases position.instrumentDefinition with
        | none => exact metered_const _
        | some definition =>
          exact (metered_fractions _).bind fun _ _ => (metered_roundedDecimal _ _ _).bind fun _ _ => metered_const _

/-! ## Balances -/

theorem metered_addDelta (column : BalanceColumn) (field : String) (deltas : Dict Currency BalanceDelta) (m : Money) :
    Metered fun _ : DigitLimit => addDelta column field deltas m :=
  (metered_sum _ _).bind fun _ _ => metered_const _

theorem metered_deltaBalance (balance : AccountBalanceSnapshot) (delta : BalanceDelta) (observedAt : DateTime) :
    Metered fun _ : DigitLimit => deltaBalance balance delta observedAt :=
  (metered_sum _ _).bind fun _ _ => (metered_const _).bind fun _ _ =>
    (metered_sum _ _).bind fun _ _ => (metered_const _).bind fun _ _ =>
    (metered_sum _ _).bind fun _ _ => (metered_const _).bind fun _ _ =>
    (metered_sum _ _).bind fun _ _ => (metered_const _).bind fun _ _ => metered_const _

theorem metered_applyDelta (observedAt : DateTime) (byCurrency : Dict Currency AccountBalanceSnapshot)
    (delta : Currency × BalanceDelta) : Metered fun _ : DigitLimit => applyDelta observedAt byCurrency delta := by
  unfold applyDelta
  cases byCurrency.get? delta.1 with
  | none => exact metered_const _
  | some balance => exact (metered_deltaBalance _ _ _).rescue.bind fun _ _ => metered_const _

theorem metered_applyBalances (balances : List AccountBalanceSnapshot) (deltas : BalanceDeltas)
    (observedAt : DateTime) : Metered fun _ : DigitLimit => applyBalances balances deltas observedAt := by
  have hadd (column : BalanceColumn) (field : String) (ms : List Money) (byDelta : Dict Currency BalanceDelta) :
      Metered fun _ : DigitLimit => ms.foldlM (addDelta column field) byDelta :=
    metered_foldlM _ (fun byDelta m _ => metered_addDelta column field byDelta m) _
  exact (hadd _ _ _ _).bind fun _ _ => (hadd _ _ _ _).bind fun _ _ => (hadd _ _ _ _).bind fun _ _ =>
    (hadd _ _ _ _).bind fun _ _ =>
    (metered_foldlM _ (fun d delta _ => metered_applyDelta observedAt d delta) _).bind fun _ _ => metered_const _

/-! ## Fills, busts and corrections -/

section

variable (s : PortfolioReplayState) (entry : PortfolioFillEntry) (source : PortfolioEvent) (seq : ℕ)
  (mark : Option PositionMark) (effect : PortfolioExecutionEffect) (observedAt : DateTime) (codec : Codec)

theorem metered_fillEffect : Metered fun _ : DigitLimit => fillEffect s entry source seq mark :=
  (metered_const _).bind fun _ _ => (metered_const _).bind fun _ _ =>
    (metered_accountingBefore _ _ _ _).bind fun _ _ => (metered_fillAccounting _ _ _ _).bind fun _ _ =>
    (metered_realizedDelta _ _ _).bind fun _ _ => (metered_const _).bind fun _ _ =>
    (metered_markAndUnrealized _ _ _ _ _).bind fun _ _ =>
    (metered_sum _ _).bind fun _ _ => (metered_const _).bind fun _ _ =>
    (metered_sum _ _).bind fun _ _ => (metered_const _).bind fun _ _ => (metered_const _).bind fun _ _ =>
    (metered_cashDeltas _).bind fun _ _ => metered_const _

theorem metered_withEffect (next : PortfolioPositionState) (at? : Option DateTime) :
    Metered fun _ : DigitLimit => withEffect s effect next at? :=
  (metered_const _).bind fun _ _ => (metered_const _).bind fun _ _ => (metered_sum _ _).bind fun _ _ =>
    (metered_const _).bind fun _ _ => (metered_applyBalances _ _ _).bind fun _ _ => metered_const _

theorem metered_bookFill (at? : Option DateTime) :
    Metered fun _ : DigitLimit => bookFill s entry source seq mark at? :=
  (metered_fillEffect _ _ _ _ _).bind fun _ _ => metered_withEffect _ _ _ _

theorem metered_reversedPosition (position : PortfolioPositionState) :
    Metered fun _ : DigitLimit => reversedPosition s effect position observedAt :=
  (metered_sum _ _).bind fun _ _ => (metered_const _).bind fun _ _ =>
    (metered_costBasisBefore _ _ _ _).bind fun _ _ => (metered_markAndUnrealized _ _ _ _ _).bind fun _ _ =>
    (metered_sum _ _).bind fun _ _ => (metered_const _).bind fun _ _ =>
    (metered_sum _ _).bind fun _ _ => metered_const _

theorem metered_removeEffect : Metered fun _ : DigitLimit => removeEffect s effect observedAt := by
  unfold removeEffect reverseEffect
  refine Metered.bind ?_ fun _ _ => metered_const _
  cases findPosition s.snapshot.positions (entryKey effect.entry) with
  | none => exact metered_const _
  | some position =>
    exact (metered_reversedPosition _ _ _ _).bind fun _ _ => (metered_const _).bind fun _ _ =>
      (metered_const _).bind fun _ _ => (metered_const _).bind fun _ _ => (metered_sum _ _).bind fun _ _ =>
      (metered_const _).bind fun _ _ => (metered_applyBalances _ _ _).bind fun _ _ => metered_const _

theorem metered_rebaseLaterEffects (event : PortfolioEvent) :
    Metered fun _ : DigitLimit => rebaseLaterEffects s effect event entry := by
  unfold rebaseLaterEffects
  refine (metered_foldlM _ (fun _ item _ => metered_removeEffect _ item _) _).bind fun rebased _ => ?_
  have hlater (rebased : PortfolioReplayState) : Metered fun _ : DigitLimit =>
      (laterEffects s (affectedDefinitions effect entry) effect).foldlM (fun rebased item =>
        bookFill rebased item.entry item.sourceEvent item.logicalSequence
          (retainedMark s (affectedDefinitions effect entry) item.positionKey) (some entry.effectiveAt)) rebased :=
    metered_foldlM _ (fun _ item _ => metered_bookFill _ _ _ _ _ _) _
  by_cases h : entry.fill.status = .correction
  · simp only [if_pos h]
    exact (metered_bookFill _ _ _ _ _ _).bind fun t _ => hlater t
  · simp only [if_neg h]
    exact hlater rebased

theorem metered_consumeEffect (event : PortfolioEvent) (reference : Uuid) :
    Metered fun _ : DigitLimit => consumeEffect codec s event entry reference := by
  unfold consumeEffect
  cases findEffect s.activeEffects reference with
  | none => exact metered_const _
  | some effect =>
    exact (metered_const _).bind fun _ _ => (metered_rebaseLaterEffects _ _ _ _).bind fun _ _ => metered_const _

theorem metered_applyNormal (event : PortfolioEvent) :
    Metered fun _ : DigitLimit => applyNormal codec s event entry :=
  (metered_bookFill _ _ _ _ _ _).bind fun _ _ => metered_const _

theorem metered_applyFill (event : PortfolioEvent) : Metered fun _ : DigitLimit => applyFill codec s event entry := by
  unfold applyFill
  cases entry.fill.status with
  | partiallyFilled | filled => exact (metered_const _).bind fun _ _ => metered_applyNormal _ _ _ _
  | duplicate => exact metered_const _
  | correction =>
    cases entry.fill.correctionOfExecutionId with
    | none => exact metered_const _
    | some reference => exact metered_consumeEffect _ _ _ _ _
  | bust =>
    cases entry.fill.bustOfExecutionId with
    | none => exact metered_const _
    | some reference => exact metered_consumeEffect _ _ _ _ _

end

/-! ## Marks, funding and conversions -/

section

variable (s : PortfolioReplayState) (event : PortfolioEvent) (codec : Codec)

theorem metered_updatedBalance (balance : AccountBalanceSnapshot) (cash funding : Decimal) (observedAt : DateTime) :
    Metered fun _ : DigitLimit => updatedBalance balance cash funding observedAt :=
  (metered_sum _ _).bind fun _ _ => (metered_const _).bind fun _ _ =>
    (metered_sum _ _).bind fun _ _ => metered_const _

theorem metered_markPosition (entry : PortfolioMarkEntry)
    (acc : List PortfolioPositionState × Dict Currency Decimal) (position : PortfolioPositionState) :
    Metered fun _ : DigitLimit => markPosition s entry acc position := by
  unfold markPosition
  by_cases h : position.instrument ≠ entry.instrument ∨ position.quantity.value = 0
  · simp only [if_pos h]
    exact metered_const _
  · simp only [if_neg h]
    exact (metered_const _).bind fun _ _ => (metered_const _).bind fun _ _ => (metered_const _).bind fun _ _ =>
      (metered_costBasisBefore _ _ _ _).bind fun _ _ => (metered_markAndUnrealized _ _ _ _ _).bind fun _ _ =>
      (metered_sum _ _).bind fun _ _ => (metered_sum _ _).bind fun _ _ => metered_const _

theorem metered_applyMark (entry : PortfolioMarkEntry) :
    Metered fun _ : DigitLimit => applyMark codec s event entry :=
  (metered_const _).bind fun _ _ => (metered_const _).bind fun _ _ =>
    (metered_foldlM _ (fun acc position _ => metered_markPosition s entry acc position) _).bind fun _ _ =>
    (metered_const _).bind fun _ _ => (metered_applyBalances _ _ _).bind fun _ _ => metered_const _

theorem metered_fundedPositions (entry : PortfolioFundingEntry) :
    Metered fun _ : DigitLimit => fundedPositions s entry := by
  unfold fundedPositions
  cases entry.strategyId with
  | none => exact metered_const _
  | some strategyId =>
    cases entry.instrument with
    | none => exact metered_const _
    | some instrument =>
      dsimp only
      cases findPosition s.snapshot.positions (positionKey strategyId instrument.canonical) with
      | none => exact metered_const _
      | some position =>
        refine Metered.bind ?_ fun _ _ => metered_const _
        exact (metered_const _).bind fun _ _ => (metered_sum _ _).bind fun _ _ => metered_const _

theorem metered_applyFunding (entry : PortfolioFundingEntry) :
    Metered fun _ : DigitLimit => applyFunding codec s event entry := by
  unfold applyFunding
  dsimp only
  cases (balancesByCurrency s.snapshot.balances).get? entry.amount.currency with
  | none => exact metered_const _
  | some balance =>
    exact (metered_fundedPositions _ _).bind fun _ _ => (metered_updatedBalance _ _ _ _).bind fun _ _ =>
      metered_const _

theorem metered_applyConversion (entry : PortfolioConversionEntry) :
    Metered fun _ : DigitLimit => applyConversion codec s event entry := by
  unfold applyConversion
  refine (metered_const _).bind fun _ _ => ?_
  dsimp only
  cases (balancesByCurrency s.snapshot.balances).get? entry.conversion.source.currency with
  | none => exact metered_const _
  | some source =>
    cases (balancesByCurrency s.snapshot.balances).get? entry.conversion.target.currency with
    | none => exact metered_const _
    | some target =>
      exact (metered_const _).bind fun _ _ => (metered_updatedBalance _ _ _ _).bind fun _ _ =>
        (metered_updatedBalance _ _ _ _).bind fun _ _ => metered_const _

/-! ## Histories -/

theorem metered_applyPayload : Metered fun _ : DigitLimit => applyPayload codec s event := by
  unfold applyPayload
  cases event.payload with
  | fill entry => exact metered_applyFill _ _ _ _
  | mark entry => exact metered_applyMark _ _ _ _
  | funding entry => exact metered_applyFunding _ _ _ _
  | conversion entry => exact metered_applyConversion _ _ _ _
  | opening _ | valuationRate _ | reconciliation _ | accountObservation _ => exact metered_const _

theorem metered_requireDigest : Metered fun _ : DigitLimit => requireDigest event :=
  metered_forM _ fun _ _ => metered_converts _ fun _ => .portfolioReplayError _

theorem metered_applyPortfolioEvent : Metered fun _ : DigitLimit => applyPortfolioEvent codec s event := by
  unfold applyPortfolioEvent
  refine (metered_requireDigest event).bind fun _ _ => ?_
  cases appliedDigest s.appliedEvents event.eventId with
  | some previous => exact metered_const _
  | none =>
    exact (metered_const _).bind fun _ _ => (metered_const _).bind fun _ _ => (metered_const _).bind fun _ _ =>
      (metered_const _).bind fun _ _ => metered_applyPayload _ _ _

theorem metered_openingState : Metered fun _ : DigitLimit => openingState codec event := by
  unfold openingState
  cases event.payload with
  | opening payload =>
    exact (metered_const _).bind fun _ _ => (metered_requireDigest event).bind fun _ _ => metered_const _
  | _ => exact metered_const _

theorem metered_reducePortfolioEvents (events : List PortfolioEvent) :
    Metered fun _ : DigitLimit => reducePortfolioEvents codec events := by
  cases events with
  | nil => exact metered_const _
  | cons first rest =>
    exact (metered_openingState first codec).bind fun _ _ =>
      metered_foldlM _ (fun s event _ => metered_applyPortfolioEvent s event codec) _

end

/-! ## Python's own limit -/

theorem written_standard_iff {d : Decimal} : @Written .standard d ↔ CanonicalDecimal.Writable d := by
  have hconverts (n : ℤ) : @Converts .standard n ↔ n.natAbs < 10 ^ intMaxStrDigits := by
    have hdigits : DigitLimit.standard.digits = intMaxStrDigits := rfl
    unfold Converts
    rw [hdigits, or_iff_right (by decide)]
  rw [@written_iff .standard]
  simp only [hconverts, and_comm]
  rfl

/-- The conversion gives the value of the tuple that `_decimal` forms. -/
theorem decimal_standard_iff {value : ℚ} {field : String} {d : Decimal} :
    @decimal .standard value field = .ok d ↔ ∃ t, CanonicalDecimal.decimal value field = .ok t ∧ t.value = d := by
  rw [@decimal_ok_iff .standard]
  constructor
  · rintro ⟨rfl, hwritten⟩
    obtain ⟨n, k, hd⟩ := d.2
    obtain ⟨t, ht⟩ := CanonicalDecimal.exists_decimal_iff.2
      ⟨finite10_of_atScale (atScale_iff.2 ⟨n, hd⟩), written_standard_iff.1 hwritten⟩
    exact ⟨t, ht, CanonicalDecimal.value_of_decimal ht⟩
  · rintro ⟨t, ht, hd⟩
    obtain rfl := (CanonicalDecimal.value_of_decimal ht).symm.trans hd
    exact ⟨rfl, written_standard_iff.2 (CanonicalDecimal.exists_decimal_iff.1 ⟨t, ht⟩).2⟩

/-- The amounts are read that `_fraction` reads back from the tuples which `_decimal` forms. -/
theorem fractions_standard_iff {values : List Decimal} (field : String) : @fractions .standard values = .ok () ↔
      ∀ d ∈ values, ∃ t, CanonicalDecimal.decimal d field = .ok t ∧ CanonicalDecimal.fraction t = .ok d := by
  unfold fractions
  rw [forM_ok_iff]
  refine forall₂_congr fun d _ => ?_
  rw [require_ok_iff]
  constructor
  · intro h
    obtain ⟨t, ht, -⟩ := decimal_standard_iff.1 ((@decimal_ok_iff .standard _ field _).2 ⟨rfl, h⟩)
    exact ⟨t, ht, CanonicalDecimal.fraction_of_decimal ht⟩
  · rintro ⟨t, ht, -⟩
    exact written_standard_iff.2 (CanonicalDecimal.exists_decimal_iff.1 ⟨t, ht⟩).2

/-- `apply_portfolio_event` under Python's own limit. -/
def applyByDefault (codec : Codec) (s : PortfolioReplayState) (event : PortfolioEvent) :
    Except Failure PortfolioReplayState :=
  @applyPortfolioEvent codec .standard s event

/-- `reduce_portfolio_events` under Python's own limit. -/
def reduceByDefault (codec : Codec) (events : List PortfolioEvent) : Except Failure PortfolioReplayState :=
  @reducePortfolioEvents codec .standard events

end TradingAgent.PortfolioReducer
