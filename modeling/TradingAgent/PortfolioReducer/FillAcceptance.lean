import TradingAgent.PortfolioReducer.Acceptance

/-!
# Which fills are accounted

A fresh fill meets the checks of a normal execution; what may still fail is the accounting of its position, whose
retained effects have to join and whose next average has to be positive.
-/

namespace TradingAgent.PortfolioReducer

open Outcome AverageCost

/-- Every effect begins with the quantity that the ones before it left. -/
def Joined : Account ℚ → List PortfolioExecutionEffect → Prop
  | _, [] => True
  | account, e :: es =>
    (e.quantityBefore.value : ℚ) = account.quantity ∧ Joined (account.book (trade e.fill)) es

theorem foldlM_accountEffect_ok_iff {es : List PortfolioExecutionEffect} {account account' : Account ℚ} :
    es.foldlM accountEffect account = .ok account' ↔
      Joined account es ∧ account' = account.bookAll ((fills es).map trade) := by
  induction es generalizing account with
  | nil => simp [Joined, eq_comm]
  | cons e es ih =>
    rw [List.foldlM_cons]
    by_cases he : (e.quantityBefore.value : ℚ) = account.quantity
    · rw [accountEffect_eq account e he, ok_bind, ih]
      simp [Joined, he, fills, Account.bookAll]
    · have hfail : ∀ a, accountEffect account e ≠ .ok a := by
        intro a ha
        unfold accountEffect at ha
        rw [fractions_eq, ok_bind, bind_ok_iff] at ha
        obtain ⟨_, hrequire, -⟩ := ha
        exact he (require_ok_iff.1 hrequire)
      simp [bind_ok_iff, hfail, Joined, he]

variable {s s' : PortfolioReplayState} {entry : PortfolioFillEntry} {event : PortfolioEvent}
  {p : PortfolioPositionState}

def lotStart (s : PortfolioReplayState) (entry : PortfolioFillEntry) (p : PortfolioPositionState) :
    Decimal × Option Price :=
  lineageStart (lineage s.activeEffects (entryKey entry)) p.quantity.value p.averageEntryPrice

def lotOpening (s : PortfolioReplayState) (entry : PortfolioFillEntry) (p : PortfolioPositionState) :
    Account ℚ :=
  ⟨(lotStart s entry p).1, openingBasis (lotStart s entry p).1 (lotStart s entry p).2, 0⟩

/-- The exact account that the retained effects of a position reach. -/
def lotOf (s : PortfolioReplayState) (entry : PortfolioFillEntry) (p : PortfolioPositionState) :
    Account ℚ :=
  (lotOpening s entry p).bookAll ((fills (lineage s.activeEffects (entryKey entry))).map trade)

structure LotJoins (s : PortfolioReplayState) (entry : PortfolioFillEntry) (p : PortfolioPositionState) :
    Prop where
  priced : (lotStart s entry p).1 = 0 ∨ (lotStart s entry p).2.isSome = true
  joined : Joined (lotOpening s entry p) (lineage s.activeEffects (entryKey entry))
  reaches : (lotOf s entry p).quantity = p.quantity.value

theorem accountingBefore_ok_iff {before : ℚ × ℚ} :
    accountingBefore s.activeEffects (entryKey entry) p.quantity.value p.averageEntryPrice = .ok before ↔
      LotJoins s entry p ∧ before = ((lotOf s entry p).basis, (lotOf s entry p).realized) := by
  unfold accountingBefore
  simp only [fractions_eq, ok_bind, bind_ok_iff, require_ok_iff, exists_const, foldlM_accountEffect_ok_iff, Except.ok.injEq]
  constructor
  · rintro ⟨hpriced, account, ⟨hjoined, rfl⟩, hreaches, rfl⟩
    exact ⟨⟨hpriced, hjoined, hreaches⟩, rfl⟩
  · rintro ⟨h, rfl⟩
    exact ⟨h.priced, _, ⟨h.joined, rfl⟩, h.reaches, rfl⟩

/-- What the position of a fill must satisfy for the fill to be accounted. -/
structure Accountable (s : PortfolioReplayState) (entry : PortfolioFillEntry)
    (p : PortfolioPositionState) : Prop where
  instrument : entry.fill.instrumentDefinition.instrumentId = p.instrument
  settlement : entry.fill.instrumentDefinition.settlementCurrency = p.settlementCurrency
  joins : LotJoins s entry p
  quantityFits : QuantityFits (p.quantity.value + signedFill entry.fill) entry.fill.quantity.precision
  averageFits : AverageFits entry.fill.instrumentDefinition.settlementCurrency
    ((lotOf s entry p).book (trade entry.fill))

/-- The event is a fill that the state has not seen. -/
structure FreshFill (s : PortfolioReplayState) (event : PortfolioEvent) (entry : PortfolioFillEntry) :
    Prop where
  payload : event.payload = .fill entry
  normal : entry.fill.status.IsNormal
  stream : event.streamId ∈ s.cursor.map PortfolioStreamCursor.streamId
  account : entry.accountId = s.snapshot.accountId
  event : event.eventId ∉ s.appliedEvents.map PortfolioAppliedEvent.eventId
  execution : entry.fill.executionId ∉ s.executionIdentities.map PortfolioBusinessIdentity.identityId
  inactive : entry.fill.executionId ∉ s.activeExecutionIds
  definition : ∀ p ∈ findPosition s.snapshot.positions (entryKey entry), ∀ d ∈ p.instrumentDefinition,
    d = entry.fill.instrumentDefinition
  settlement : (balanceOf s.snapshot.balances
    entry.fill.instrumentDefinition.settlementCurrency).isSome = true
  commission : (balanceOf s.snapshot.balances entry.fill.commission.currency).isSome = true

theorem FillOf.accountable {source : PortfolioEvent} {seq : ℕ} {mark : Option PositionMark}
    {before : ℚ × ℚ} {accounting : FillAccounting} {e : PortfolioExecutionEffect}
    {next : PortfolioPositionState} (h : FillOf s entry source seq mark p before accounting e next) :
    Accountable s entry p := by
  obtain ⟨hjoins, rfl⟩ := accountingBefore_ok_iff.1 h.accountingBefore
  obtain ⟨-, haverage, rfl⟩ := (fillAccounting_ok_iff hjoins.reaches.symm).1 h.fillAccounting
  have hdefinition := next.facts.definition entry.fill.instrumentDefinition (by rw [h.next]; rfl)
  have hfits := next.quantity.fits
  rw [h.quantity, h.quantity_precision] at hfits
  rw [h.next] at hdefinition
  exact ⟨hdefinition.1, hdefinition.2, hjoins, hfits, haverage⟩

variable {codec : Codec}

variable (h : FreshFill s event entry)
include h

theorem FreshFill.definition_cases (hp : positionFor s entry = .ok p) :
    p.instrumentDefinition = some entry.fill.instrumentDefinition ∨ p.instrumentDefinition = none := by
  rcases positionFor_cases hp with hf | ⟨-, hnew⟩
  · cases hd : p.instrumentDefinition with
    | none => exact .inr rfl
    | some d => exact .inl (congrArg some (h.definition p hf d hd))
  · exact .inl hnew.definition

theorem FreshFill.position_account (hp : positionFor s entry = .ok p) : p.accountId = s.snapshot.accountId := by
  rcases positionFor_cases hp with hf | ⟨-, hnew⟩
  · exact s.snapshot.facts.positionAccount p (lookupBy_some hf).1
  · exact hnew.accountId.trans h.account

theorem FreshFill.bookFill_ok (hp : positionFor s entry = .ok p) (haccountable : Accountable s entry p) :
    ∃ s', bookFill s entry event event.sequence none none = .ok s' := by
  obtain ⟨e, next, hok⟩ := @fillEffect_of_account s entry event event.sequence none p (lotOf s entry p)
    h.payload hp ((h.definition_cases hp).imp id fun hnone => ⟨hnone, rfl⟩) haccountable.instrument
    haccountable.settlement.symm haccountable.joins.reaches.symm
    (accountingBefore_ok_iff.2 ⟨haccountable.joins, rfl⟩) haccountable.averageFits
    haccountable.quantityFits
  obtain ⟨q, before, accounting, hf⟩ := fillEffect_ok_iff.1 hok
  refine bookFill_of_effect hok ?_ h.inactive ?_ none
  · rw [hf.next]
    exact h.position_account hf.position
  · intro m hm
    rcases List.mem_append.1 hm with hm | hm
    · rcases cashDeltas_currency hf.cashDeltas hm with hc | hc
      · exact hc ▸ h.settlement
      · exact hc ▸ h.commission
    · rw [hf.effect] at hm
      change m ∈ nonzero entry.fill.commission at hm
      unfold nonzero at hm
      split_ifs at hm
      · rw [List.mem_singleton.1 hm]
        exact h.commission
      · simp at hm

theorem FreshFill.apply_eq [DigitLimit] : applyPortfolioEvent codec s event =
      (requireDigest event >>= fun _ => applyNormal codec s event entry) := by
  obtain ⟨s₀, hs₀⟩ := nextState_accepted codec s h.payload h.execution
  unfold nextState at hs₀
  rw [bind_ok_iff] at hs₀
  obtain ⟨ids, hids, -⟩ := hs₀
  have hbranch : applyFill codec s event entry = applyNormal codec s event entry := by
    unfold applyFill
    rcases h.normal with hstatus | hstatus
    · simp only [hstatus, require_of _ h.inactive, ok_bind]
    · simp only [hstatus, require_of _ h.inactive, ok_bind]
  unfold applyPortfolioEvent
  rw [(appliedDigest_eq_none_iff _ _).2 h.event]
  simp only [require_of _ h.stream, hids, ok_bind]
  unfold applyPayload
  simp only [h.payload]
  have hopening : (PortfolioPayload.fill entry).isOpening = false := rfl
  have haccount : (PortfolioPayload.fill entry).accountId = s.snapshot.accountId := h.account
  simp only [require_of _ hopening, require_of _ haccount, ok_bind, hbranch]

theorem FreshFill.apply_ok_iff : (∃ s', applyPortfolioEvent codec s event = .ok s') ↔
      ∃ s', bookFill s entry event event.sequence none none = .ok s' := by
  rw [h.apply_eq, requireDigest_eq, ok_bind]
  unfold applyNormal
  constructor
  · rintro ⟨s', hs'⟩
    obtain ⟨booked, hbooked, -⟩ := bind_ok_iff.1 hs'
    exact ⟨booked, hbooked⟩
  · rintro ⟨booked, hbooked⟩
    obtain ⟨p, before, accounting, e, next, p', unrealized, -, hw⟩ := bookFill_spec hbooked
    obtain ⟨s', hs'⟩ := nextState_accepted codec booked h.payload (by
      rw [hw.moved.books.executionIdentities]
      exact h.execution)
    exact ⟨s', bind_ok_iff.2 ⟨booked, hbooked, hs'⟩⟩

omit h

/-- Without a limit on digits, a fresh fill is accounted exactly when its position is accountable. -/
theorem fill_accounted_lifted_iff (codec : Codec) (h : FreshFill s event entry) :
    (∃ s', applyPortfolioEvent codec s event = .ok s') ↔
      ∃ p, positionFor s entry = .ok p ∧ Accountable s entry p := by
  rw [h.apply_ok_iff]
  constructor
  · rintro ⟨s', hs'⟩
    obtain ⟨p, before, accounting, e, next, p', unrealized, hf, -⟩ := bookFill_spec hs'
    exact ⟨p, hf.position, hf.accountable⟩
  · rintro ⟨p, hp, haccountable⟩
    exact h.bookFill_ok hp haccountable

instance (s : PortfolioReplayState) (event : PortfolioEvent) (entry : PortfolioFillEntry) :
    Decidable (FreshFill s event entry) :=
  decidable_of_iff (event.payload = .fill entry ∧ entry.fill.status.IsNormal ∧
    event.streamId ∈ s.cursor.map PortfolioStreamCursor.streamId ∧
    entry.accountId = s.snapshot.accountId ∧
    event.eventId ∉ s.appliedEvents.map PortfolioAppliedEvent.eventId ∧
    entry.fill.executionId ∉ s.executionIdentities.map PortfolioBusinessIdentity.identityId ∧
    entry.fill.executionId ∉ s.activeExecutionIds ∧
    (∀ p ∈ findPosition s.snapshot.positions (entryKey entry), ∀ d ∈ p.instrumentDefinition,
      d = entry.fill.instrumentDefinition) ∧
    (balanceOf s.snapshot.balances entry.fill.instrumentDefinition.settlementCurrency).isSome = true ∧
    (balanceOf s.snapshot.balances entry.fill.commission.currency).isSome = true)
    ⟨fun ⟨h₁, h₂, h₃, h₄, h₅, h₆, h₇, h₈, h₉, h₁₀⟩ => ⟨h₁, h₂, h₃, h₄, h₅, h₆, h₇, h₈, h₉, h₁₀⟩,
      fun ⟨h₁, h₂, h₃, h₄, h₅, h₆, h₇, h₈, h₉, h₁₀⟩ => ⟨h₁, h₂, h₃, h₄, h₅, h₆, h₇, h₈, h₉, h₁₀⟩⟩

end TradingAgent.PortfolioReducer
