import TradingAgent.PortfolioReducer.Run

/-! No failure of a reduction is an assertion or attribute error. -/

namespace TradingAgent.PortfolioReducer

open Outcome AverageCost

/-- The two faults of `_accounting_before`. -/
def lineageFaults : List Failure :=
  [.portfolioReplayError "active execution cost basis does not match position",
    .portfolioReplayError "active execution quantity lineage is inconsistent"]

def Faultless {α : Type} (x : Except Failure α) : Prop := Avoids (fun e => e ∈ lineageFaults) x

/-! ## Constructors -/

theorem faultless_requireSorted {κ : Type} [LinearOrder κ] (keys : List κ) (message : String) :
    Faultless (requireSorted keys message) :=
  avoids_require (by simp [lineageFaults])

theorem faultless_position (p : PortfolioPositionFields) : Faultless (PortfolioPositionState.of p) := by
  refine avoids_validated ?_
  unfold PortfolioPositionFields.validate
  refine Avoids.bind ?_ fun _ _ => (avoids_require (by decide)).bind fun _ _ => ?_
  · unfold PortfolioPositionFields.validateDefinition
    cases p.instrumentDefinition with
    | none => exact avoids_ok ()
    | some d => exact (avoids_require (by decide)).bind fun _ _ => avoids_require (by decide)
  · unfold PortfolioPositionFields.validateOpen
    split_ifs
    · exact (avoids_require (by decide)).bind fun _ _ => avoids_require (by decide)
    · refine (avoids_require (by decide)).bind fun _ _ => ?_
      cases p.averageEntryPrice with
      | none => exact avoids_error (by decide)
      | some average => exact avoids_require (by decide)

theorem faultless_snapshot (w : PortfolioWorkingFields) : Faultless (PortfolioWorkingSnapshot.of w) := by
  refine avoids_validated ?_
  unfold PortfolioWorkingFields.validate
  refine (faultless_requireSorted _ _).bind fun _ _ => (avoids_require (by decide)).bind fun _ _ => ?_
  exact (faultless_requireSorted _ _).bind fun _ _ => avoids_require (by decide)

theorem faultless_effect (e : PortfolioExecutionFields) : Faultless (PortfolioExecutionEffect.of e) := by
  refine avoids_validated ?_
  unfold PortfolioExecutionFields.validate validateDeltas
  refine (avoids_require (by decide)).bind fun _ _ => (avoids_require (by decide)).bind fun _ _ =>
    (avoids_require (by decide)).bind fun _ _ => (avoids_require (by decide)).bind fun _ _ =>
    (avoids_require (by decide)).bind fun _ _ => ?_
  exact (faultless_requireSorted _ _).bind fun _ _ => (faultless_requireSorted _ _).bind fun _ _ =>
    (faultless_requireSorted _ _).bind fun _ _ => avoids_require (by decide)

theorem faultless_state (s : PortfolioReplayFields) : Faultless (PortfolioReplayState.of s) := by
  refine avoids_validated ?_
  unfold PortfolioReplayFields.validate
  exact (faultless_requireSorted _ _).bind fun _ _ => (faultless_requireSorted _ _).bind fun _ _ =>
    (faultless_requireSorted _ _).bind fun _ _ => (faultless_requireSorted _ _).bind fun _ _ =>
    (faultless_requireSorted _ _).bind fun _ _ => (faultless_requireSorted _ _).bind fun _ _ =>
    faultless_requireSorted _ _

theorem faultless_balance (b : AccountBalanceFields) : Faultless (AccountBalanceSnapshot.of b) := by
  refine avoids_validated ?_
  unfold AccountBalanceFields.validate
  exact (avoids_require (by decide)).bind fun _ _ => (avoids_require (by decide)).bind fun _ _ =>
    avoids_require (by decide)

variable {amount : Decimal} {currency : Currency} {field : String}

theorem faultless_money
    (h : Failure.portfolioReplayError (field ++ " is not exact at currency precision") ∉ lineageFaults) :
    Faultless (money amount currency field) := by
  unfold money
  cases Money.ofDecimal? amount currency with
  | some m => exact avoids_ok m
  | none => exact avoids_error h

theorem faultless_quantity (amount : Decimal) (precision : ℕ) : Faultless (quantity amount precision) := by
  unfold quantity
  cases Quantity.ofDecimal? amount precision with
  | some q => exact avoids_ok q
  | none => exact avoids_error (by decide)

theorem faultless_nonzeroDelta
    (h : Failure.portfolioReplayError (field ++ " is not exact at currency precision") ∉ lineageFaults) :
    Faultless (nonzeroDelta amount currency field) := by
  unfold nonzeroDelta
  split_ifs
  · exact (faultless_money h).bind fun _ _ => avoids_ok _
  · exact avoids_ok _

theorem faultless_markAndUnrealized (p : PortfolioPositionState) (q : Quantity) (average : Option Price)
    (basis : ℚ) (mark : Option PositionMark) : Faultless (markAndUnrealized p q average basis mark) := by
  unfold markAndUnrealized
  simp only [roundedDecimal_eq, fractions_eq, ok_bind]
  split_ifs
  · exact (faultless_money (by decide)).bind fun _ _ => avoids_ok _
  · cases mark.or p.mark with
    | none => exact (faultless_money (by decide)).bind fun _ _ => avoids_ok _
    | some m =>
      cases average with
      | none => exact avoids_error (by decide)
      | some a =>
        cases p.instrumentDefinition with
        | none => exact avoids_error (by decide)
        | some d => exact (faultless_money (by decide)).bind fun _ _ => avoids_ok _

theorem faultless_applyBalances (balances : List AccountBalanceSnapshot) (deltas : BalanceDeltas)
    (observedAt : DateTime) : Faultless (applyBalances balances deltas observedAt) := by
  rw [applyBalances_eq]
  refine Avoids.bind (avoids_foldlM fun e _ d => ?_) fun _ _ => avoids_ok _
  unfold applyDelta
  cases d.get? e.1 with
  | none =>
    refine avoids_error ?_
    cases e.1 <;> decide
  | some b => exact (avoids_rescue (by decide)).bind fun _ _ => avoids_ok _

/-! ## Booking and reversing -/

section

variable {marked : Prop} {base : PositionKey → LotBase} {s : PortfolioReplayState}

theorem faultless_positionFor (s : PortfolioReplayState) (entry : PortfolioFillEntry) :
    Faultless (positionFor s entry) :=
  avoids_of_ok (positionFor_ok s entry)

theorem faultless_fillAccounting (fill : FillEvent) (current : Decimal) (average : Option Price)
    (basis : ℚ) : Faultless (fillAccounting fill current average basis) := by
  unfold fillAccounting weightedAverage price
  simp only [sum_eq, fractions_eq, ok_bind, roundedDecimal_eq]
  refine (avoids_require (by decide)).bind fun _ _ => Avoids.bind ?_ fun _ _ => avoids_ok _
  split_ifs
  · exact avoids_ok _
  · refine Avoids.bind ?_ fun _ _ => avoids_ok _
    cases Price.ofDecimal? _ _ with
    | none => exact avoids_error (by decide)
    | some p => exact avoids_ok p

variable {entry : PortfolioFillEntry} {source : PortfolioEvent} {seq : ℕ} {mark : Option PositionMark}

theorem faultless_fillEffect (hs : KeyInv marked (base (entryKey entry)) (lineage s.activeEffects (entryKey entry))
      (findPosition s.snapshot.positions (entryKey entry))) : Faultless (fillEffect s entry source seq mark) := by
  unfold fillEffect
  simp only [sum_eq, ok_bind, realizedDelta_eq]
  refine (faultless_positionFor s entry).bind fun p hp => (avoids_require (by decide)).bind fun _ _ => ?_
  refine Avoids.bind ?_ fun before _ => ?_
  · rw [entry_strategy_key (positionFor_key hp)]
    exact avoids_of_ok ⟨_, hs.accountingBefore hp⟩
  · refine (faultless_fillAccounting _ _ _ _).bind fun accounting _ =>
      (faultless_quantity _ _).bind fun q _ => (faultless_markAndUnrealized _ _ _ _ _).bind fun m _ =>
      (faultless_money (by decide)).bind fun _ _ => (faultless_money (by decide)).bind fun _ _ =>
      (faultless_position _).bind fun next _ => (avoids_of_ok (cashDeltas_ok _)).bind fun cash _ =>
      (faultless_nonzeroDelta (by decide)).bind fun _ _ => (faultless_quantity _ _).bind fun _ _ =>
      (faultless_money (by decide)).bind fun _ _ => (faultless_money (by decide)).bind fun _ _ => ?_
    exact (faultless_effect _).bind fun _ _ => avoids_ok _

theorem faultless_withEffect (s : PortfolioReplayState) (e : PortfolioExecutionEffect)
    (next : PortfolioPositionState) (observedAt : Option DateTime) : Faultless (withEffect s e next observedAt) := by
  unfold withEffect
  simp only [sum_eq, ok_bind]
  exact (faultless_position _).bind fun _ _ => (faultless_positionFor _ _).bind fun _ _ =>
    (faultless_nonzeroDelta (by decide)).bind fun _ _ => (faultless_applyBalances _ _ _).bind fun _ _ =>
    (faultless_snapshot _).bind fun _ _ => faultless_state _

theorem faultless_bookFill {observedAt : Option DateTime} (hs : Inv marked base s) :
    Faultless (bookFill s entry source seq mark observedAt) := by
  unfold bookFill
  exact (faultless_fillEffect (hs.keys _)).bind fun _ _ => faultless_withEffect _ _ _ _

variable {e : PortfolioExecutionEffect}

theorem costBasisBefore_last {p : PortfolioPositionState} (hs : Inv marked base s) (he : e ∈ s.activeEffects)
    (hlast : LastOf s e) (hp : findPosition s.snapshot.positions e.positionKey = some p) :
    ∃ basis, costBasisBefore (withoutExecution s.activeEffects e.executionId) e.positionKey
      (p.quantity.value - e.quantityDelta.value) e.averageBefore = .ok basis := by
  obtain ⟨hq, hbasis⟩ := hs.before_last he hlast hp
  rw [hq]
  exact ⟨_, hbasis⟩

theorem faultless_removeEffect {observedAt : DateTime} (hs : Inv marked base s) (he : e ∈ s.activeEffects)
    (hlast : LastOf s e) : Faultless (removeEffect s e observedAt) := by
  unfold removeEffect reverseEffect
  refine Avoids.bind ?_ fun _ _ => faultless_state _
  cases hp : findPosition s.snapshot.positions (entryKey e.entry) with
  | none => exact avoids_error (by decide)
  | some p =>
    simp only [sum_eq, ok_bind, reversedDeltas_eq]
    refine Avoids.bind ?_ fun next _ => ?_
    · unfold reversedPosition
      simp only [sum_eq, ok_bind, List.sum_cons, List.sum_nil, add_zero, ← sub_eq_add_neg]
      rw [← (hs.linked.economics e he).key] at hp
      refine (faultless_quantity _ _).bind fun _ _ =>
        (avoids_of_ok (costBasisBefore_last hs he hlast hp)).bind fun _ _ => ?_
      exact (faultless_markAndUnrealized _ _ _ _ _).bind fun _ _ =>
        (faultless_money (by decide)).bind fun _ _ => (faultless_money (by decide)).bind fun _ _ =>
        faultless_position _
    · exact (faultless_nonzeroDelta (by decide)).bind fun _ _ =>
        (faultless_applyBalances _ _ _).bind fun _ _ => faultless_snapshot _

end

/-! ## Busts and corrections -/

section

variable {marked : Prop} {base : PositionKey → LotBase} {s : PortfolioReplayState}
  {observedAt : DateTime} {items : List PortfolioExecutionEffect}

theorem faultless_removeAll (hs : Inv marked base s) (hitems : Reversible s items) :
    Faultless (removeAll observedAt items s) := by
  induction items generalizing s with
  | nil => exact avoids_ok s
  | cons item items ih =>
    rw [removeAll_cons]
    have hitem := hitems.active item List.mem_cons_self
    have hlast := hitems.last hs.sequences
    refine (faultless_removeEffect hs hitem hlast).bind fun t ht => ?_
    exact ih (removeEffect_inv ht hs hitem hlast) (hitems.tail ht)

theorem faultless_bookAgain {marks : PositionKey → Option PositionMark} (hs : Inv marked base s)
    (hitems : Repeatable s items) : Faultless (bookAgain marks observedAt items s) := by
  induction items generalizing s with
  | nil => exact avoids_ok s
  | cons item items ih =>
    rw [bookAgain_cons]
    refine (faultless_bookFill hs).bind fun t ht => ?_
    obtain ⟨hinv, htail⟩ := hitems.book hs ht
    exact ih hinv htail

theorem faultless_rebase {effect : PortfolioExecutionEffect} {event : PortfolioEvent}
    {entry : PortfolioFillEntry} (hs : Inv marked base s) (he : effect ∈ s.activeEffects) :
    Faultless (rebaseLaterEffects s effect event entry) := by
  rw [rebaseLaterEffects_eq]
  have hremovals : Reversible s (removals s effect entry) := removals_reversible hs.sequences he
  refine (faultless_removeAll hs hremovals).bind fun s₁ h₁ => ?_
  have hi₁ := removeAll_inv h₁ hs hremovals
  refine Avoids.bind ?_ fun s₂ h₂ => ?_
  · split_ifs
    · exact faultless_bookFill hi₁
    · exact avoids_ok s₁
  · obtain ⟨-, hi₂, hlater⟩ := rebase_inv_middle hs he h₁ h₂
    exact faultless_bookAgain hi₂ hlater

end

/-! ## Events -/

variable {codec : Codec} {marked : Prop} {base : PositionKey → LotBase} {s : PortfolioReplayState}

theorem faultless_updatedIdentityTuple {identities : List PortfolioBusinessIdentity}
    {record : PortfolioBusinessIdentity} {label : String}
    (hduplicate : Failure.portfolioReplayError ("duplicate " ++ label ++ " identity") ∉ lineageFaults)
    (hconflict : Failure.portfolioReplayError ("conflicting " ++ label ++ " identity") ∉ lineageFaults) :
    Faultless (updatedIdentityTuple identities record label) := by
  unfold updatedIdentityTuple
  cases lookupBy PortfolioBusinessIdentity.identityId identities record.identityId with
  | none => exact avoids_ok _
  | some existing =>
    dsimp only
    split_ifs
    · exact avoids_error hduplicate
    · exact avoids_error hconflict

theorem faultless_businessIdentities (s : PortfolioReplayState) (event : PortfolioEvent) :
    Faultless (businessIdentities codec s event) := by
  unfold businessIdentities
  cases event.payload with
  | fill entry | funding entry | reconciliation entry =>
    exact (faultless_updatedIdentityTuple (by decide) (by decide)).bind fun _ _ => avoids_ok _
  | _ => exact avoids_ok _

theorem faultless_nextState (s : PortfolioReplayState) (event : PortfolioEvent) (update : StateUpdate) :
    Faultless (nextState codec s event update) := by
  unfold nextState
  exact (faultless_businessIdentities s event).bind fun _ _ => faultless_state _

theorem costBasisBefore_position {p : PortfolioPositionState} (hs : Inv marked base s) (hp : p ∈ s.snapshot.positions) :
    ∃ basis, costBasisBefore s.activeEffects p.key p.quantity.value p.averageEntryPrice = .ok basis := by
  have hfind : findPosition s.snapshot.positions p.key = some p :=
    (lookupBy_eq_some_iff s.snapshot.facts.nodup_keys).2 ⟨hp, rfl⟩
  have hk := hs.keys p.key
  refine ⟨_, costBasisBefore_of_chain hk.chain (hk.quantity p hfind) fun hnil => ?_⟩
  rw [hk.average p hfind, hnil]
  rfl

variable {event : PortfolioEvent}

theorem faultless_applyMark {entry : PortfolioMarkEntry}
    (hs : Inv marked base s) : Faultless (applyMark codec s event entry) := by
  unfold applyMark
  refine (avoids_require (by decide)).bind fun _ _ => (avoids_require (by decide)).bind fun _ _ => ?_
  refine Avoids.bind (avoids_foldlM fun p hp acc => ?_) fun marked _ => ?_
  · unfold markPosition
    simp only [sum_eq, ok_bind]
    split_ifs
    · exact avoids_ok _
    · exact (avoids_require (by decide)).bind fun _ _ => (avoids_require (by decide)).bind fun _ _ =>
        (avoids_require (by decide)).bind fun _ _ =>
        (avoids_of_ok (costBasisBefore_position hs hp)).bind fun _ _ =>
        (faultless_markAndUnrealized _ _ _ _ _).bind fun _ _ =>
        (faultless_position _).bind fun _ _ => avoids_ok _
  · exact (avoids_mapM fun e _ => faultless_money (by decide)).bind fun _ _ =>
      (faultless_applyBalances _ _ _).bind fun _ _ => (faultless_snapshot _).bind fun _ _ =>
      faultless_nextState _ _ _

theorem faultless_updatedBalance (b : AccountBalanceSnapshot) (cash funding : Decimal)
    (observedAt : DateTime) : Faultless (updatedBalance b cash funding observedAt) := by
  unfold updatedBalance
  simp only [sum_eq, ok_bind]
  exact (faultless_money (by decide)).bind fun _ _ => (faultless_money (by decide)).bind fun _ _ =>
    faultless_balance _

theorem faultless_applyFunding (s : PortfolioReplayState) (event : PortfolioEvent)
    (entry : PortfolioFundingEntry) : Faultless (applyFunding codec s event entry) := by
  unfold applyFunding
  dsimp only
  cases (balancesByCurrency s.snapshot.balances).get? entry.amount.currency with
  | none =>
    refine avoids_error ?_
    cases entry.amount.currency <;> decide
  | some b =>
    refine Avoids.bind ?_ fun _ _ => (faultless_updatedBalance _ _ _ _).bind fun _ _ =>
      (faultless_snapshot _).bind fun _ _ => faultless_nextState _ _ _
    unfold fundedPositions
    cases entry.strategyId with
    | none => exact avoids_ok _
    | some strategyId =>
      cases entry.instrument with
      | none => exact avoids_error (by decide)
      | some instrument =>
        dsimp only
        cases findPosition s.snapshot.positions (positionKey strategyId instrument.canonical) with
        | none => exact avoids_error (by decide)
        | some p =>
          refine Avoids.bind ?_ fun _ _ => avoids_ok _
          unfold fundedPosition
          simp only [sum_eq, ok_bind]
          exact (avoids_require (by decide)).bind fun _ _ =>
            (faultless_money (by decide)).bind fun _ _ => faultless_position _

theorem faultless_applyConversion (s : PortfolioReplayState) (event : PortfolioEvent)
    (entry : PortfolioConversionEntry) : Faultless (applyConversion codec s event entry) := by
  unfold applyConversion
  refine (avoids_require (by decide)).bind fun _ _ => ?_
  dsimp only
  cases (balancesByCurrency s.snapshot.balances).get? entry.conversion.source.currency with
  | none => exact avoids_error (by decide)
  | some source =>
    cases (balancesByCurrency s.snapshot.balances).get? entry.conversion.target.currency with
    | none => exact avoids_error (by decide)
    | some target =>
      exact (avoids_require (by decide)).bind fun _ _ =>
        (faultless_updatedBalance _ _ _ _).bind fun _ _ =>
        (faultless_updatedBalance _ _ _ _).bind fun _ _ => (faultless_snapshot _).bind fun _ _ =>
        faultless_nextState _ _ _

theorem faultless_applyAccountObservation (s : PortfolioReplayState) (event : PortfolioEvent)
    (entry : PortfolioAccountObservationEntry) : Faultless (applyAccountObservation codec s event entry) := by
  unfold applyAccountObservation
  dsimp only
  cases lookupBy (fun b : AccountBalanceSnapshot => b.currency) s.snapshot.balances entry.currency with
  | none => exact avoids_error (by decide)
  | some b =>
    exact (avoids_require (by decide)).bind fun _ _ => (avoids_require (by decide)).bind fun _ _ =>
      (faultless_snapshot _).bind fun _ _ => faultless_nextState _ _ _

variable {entry : PortfolioFillEntry}

theorem faultless_consumeEffect {reference : Uuid}
    (hs : Inv marked base s) : Faultless (consumeEffect codec s event entry reference) := by
  unfold consumeEffect
  cases hf : findEffect s.activeEffects reference with
  | none => exact avoids_error (by decide)
  | some effect =>
    exact (avoids_require (by decide)).bind fun _ _ =>
      (faultless_rebase hs (lookupBy_some hf).1).bind fun _ _ => faultless_nextState _ _ _

theorem faultless_applyNormal (hs : Inv marked base s) : Faultless (applyNormal codec s event entry) := by
  unfold applyNormal
  exact (faultless_bookFill hs).bind fun _ _ => faultless_nextState _ _ _

theorem faultless_applyFill (hs : Inv marked base s) : Faultless (applyFill codec s event entry) := by
  unfold applyFill
  cases entry.fill.status with
  | partiallyFilled | filled => exact (avoids_require (by decide)).bind fun _ _ => faultless_applyNormal hs
  | duplicate =>
    dsimp only
    cases entry.fill.duplicateOfExecutionId.bind (findEffect s.activeEffects) with
    | none => exact avoids_error (by decide)
    | some effect =>
      exact (avoids_require (by decide)).bind fun _ _ => (avoids_require (by decide)).bind fun _ _ =>
        faultless_nextState _ _ _
  | correction =>
    cases entry.fill.correctionOfExecutionId with
    | none => exact avoids_error (by decide)
    | some reference => exact faultless_consumeEffect hs
  | bust =>
    cases entry.fill.bustOfExecutionId with
    | none => exact avoids_error (by decide)
    | some reference => exact faultless_consumeEffect hs

theorem faultless_applyReconciliation (s : PortfolioReplayState) (event : PortfolioEvent)
    (entry : PortfolioReconciliationEntry) : Faultless (applyReconciliation codec s event entry) := by
  unfold applyReconciliation
  refine Avoids.bind (avoids_mapM fun p _ => ?_) fun _ _ =>
    (faultless_snapshot _).bind fun _ _ => faultless_nextState _ _ _
  unfold reconciledPosition
  exact (avoids_require (by decide)).bind fun _ _ => faultless_position _

theorem faultless_applyPortfolioEvent (hs : Inv marked base s) (event : PortfolioEvent) :
    Faultless (applyPortfolioEvent codec s event) := by
  unfold applyPortfolioEvent
  rw [requireDigest_eq, ok_bind]
  cases appliedDigest s.appliedEvents event.eventId with
  | some previous =>
    dsimp only
    split_ifs
    · exact avoids_ok s
    · exact avoids_error (by decide)
  | none =>
    refine (avoids_require (by decide)).bind fun _ _ => (avoids_require (by decide)).bind fun _ _ =>
      (avoids_require (by decide)).bind fun _ _ =>
      (faultless_businessIdentities s event).bind fun _ _ => ?_
    unfold applyPayload
    cases event.payload with
    | opening entry => exact avoids_error (by decide)
    | accountObservation entry => exact faultless_applyAccountObservation s event entry
    | fill entry => exact faultless_applyFill hs
    | mark entry => exact faultless_applyMark hs
    | funding entry => exact faultless_applyFunding s event entry
    | conversion entry => exact faultless_applyConversion s event entry
    | valuationRate entry => exact faultless_nextState _ _ _
    | reconciliation entry => exact faultless_applyReconciliation s event entry

theorem faultless_openingState (first : PortfolioEvent) : Faultless (openingState codec first) := by
  unfold openingState
  cases first.payload with
  | opening entry =>
    simp only [requireDigest_eq, ok_bind]
    exact (faultless_snapshot _).bind fun _ _ => faultless_state _
  | _ => exact avoids_error (by decide)

theorem reduce_faultless {events : List PortfolioEvent} (hinc : Increasing events) :
    Faultless (reducePortfolioEvents codec events) := by
  induction events using List.reverseRecOn with
  | nil => exact avoids_error (by decide)
  | append_singleton events event ih =>
    cases events with
    | nil =>
      simp only [reducePortfolioEvents, List.nil_append, List.foldlM_nil]
      exact (faultless_openingState event).bind fun _ _ => avoids_ok _
    | cons first rest =>
      rw [reduce_append (by simp)]
      refine (ih hinc.concat.1).bind fun s hs => ?_
      obtain ⟨base, hbase⟩ := reduce_inv hs hinc.concat.1
      rw [List.foldlM_cons]
      exact (faultless_applyPortfolioEvent hbase.inv event).bind fun _ _ => avoids_ok _

end TradingAgent.PortfolioReducer
