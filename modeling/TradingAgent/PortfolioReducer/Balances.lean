import TradingAgent.PortfolioReducer.Lineage

/-! How deltas are applied to the balances of an account. -/

namespace TradingAgent.PortfolioReducer

open Outcome

def balanceOf (balances : List AccountBalanceSnapshot) (currency : Currency) :
    Option AccountBalanceSnapshot :=
  lookupBy (fun b => b.currency) balances currency

/-- `b'` is `b` with a delta added to each column. -/
structure BalanceStep (delta : BalanceDelta) (b b' : AccountBalanceSnapshot) : Prop where
  amounts : ∀ column, balanceAmount b' column = balanceAmount b column + delta column
  funding : b'.funding = b.funding
  lockedFunds : b'.lockedFunds = b.lockedFunds
  marginUsed : b'.marginUsed = b.marginUsed
  accountId : b'.accountId = b.accountId
  currency : b'.currency = b.currency

theorem BalanceStep.refl (b : AccountBalanceSnapshot) : BalanceStep (fun _ => 0) b b :=
  ⟨fun _ => (add_zero _).symm, rfl, rfl, rfl, rfl, rfl⟩

def BalancesStep (delta : Currency → BalanceDelta) (bs bs' : List AccountBalanceSnapshot) : Prop :=
  ∀ c, Option.Rel (BalanceStep (delta c)) (balanceOf bs c) (balanceOf bs' c)

theorem totalIn_atScale (currency : Currency) (ms : List Money) :
    AtScale currency.precision (Money.totalIn currency ms) := by
  induction ms with
  | nil => simp
  | cons m ms ih =>
    rw [Money.totalIn_cons]
    push_cast
    refine AtScale.add ?_ ih
    split_ifs with h
    · exact money_amount_atScale m h
    · simp

def deltaOf (deltas : Dict Currency BalanceDelta) (currency : Currency) : BalanceDelta :=
  (deltas.get? currency).getD fun _ => 0

/-- `addDelta` without the exactness check, which never fails. -/
def addedDelta (column : BalanceColumn) (deltas : Dict Currency BalanceDelta) (delta : Money) :
    Dict Currency BalanceDelta :=
  deltas.set delta.currency (Function.update (deltaOf deltas delta.currency) column
    (deltaOf deltas delta.currency column + delta.amount))

theorem foldlM_addDelta (column : BalanceColumn) (field : String) (ms : List Money)
    (deltas : Dict Currency BalanceDelta) :
    ms.foldlM (addDelta column field) deltas = .ok (ms.foldl (addedDelta column) deltas) := by
  induction ms generalizing deltas with
  | nil => rfl
  | cons m ms ih =>
    rw [List.foldlM_cons, List.foldl_cons, ← ih]
    have h : addDelta column field deltas m = .ok (addedDelta column deltas m) := by
      unfold addDelta addedDelta deltaOf
      simp
    rw [h]
    rfl

theorem deltaOf_addedDelta (column : BalanceColumn) (deltas : Dict Currency BalanceDelta) (m : Money)
    (c : Currency) (column' : BalanceColumn) :
    deltaOf (addedDelta column deltas m) c column' = deltaOf deltas c column' +
      if column = column' ∧ m.currency = c then m.amount else 0 := by
  unfold addedDelta
  by_cases hc : m.currency = c
  · subst hc
    have h : deltaOf (deltas.set m.currency (Function.update (deltaOf deltas m.currency) column
        (deltaOf deltas m.currency column + m.amount))) m.currency =
        Function.update (deltaOf deltas m.currency) column
          (deltaOf deltas m.currency column + m.amount) := by
      conv_lhs => unfold deltaOf
      rw [Dict.get?_set_self]
      rfl
    rw [h]
    by_cases hcol : column = column'
    · subst hcol
      simp
    · rw [Function.update_of_ne (Ne.symm hcol)]
      simp [hcol]
  · have h : deltaOf (deltas.set m.currency (Function.update (deltaOf deltas m.currency) column
        (deltaOf deltas m.currency column + m.amount))) c = deltaOf deltas c := by
      conv_lhs => unfold deltaOf
      rw [Dict.get?_set_of_ne _ _ hc]
      rfl
    rw [h]
    simp [hc]

theorem deltaOf_foldl (column : BalanceColumn) (ms : List Money) (deltas : Dict Currency BalanceDelta)
    (c : Currency) (column' : BalanceColumn) :
    deltaOf (ms.foldl (addedDelta column) deltas) c column' = deltaOf deltas c column' +
      if column = column' then Money.totalIn c ms else 0 := by
  induction ms generalizing deltas with
  | nil => simp
  | cons m ms ih =>
    rw [List.foldl_cons, ih, deltaOf_addedDelta, Money.totalIn_cons]
    by_cases hcol : column = column' <;> simp [hcol, add_assoc]

theorem mem_keys_foldl (column : BalanceColumn) (ms : List Money) (deltas : Dict Currency BalanceDelta)
    (c : Currency) : c ∈ (ms.foldl (addedDelta column) deltas).keys ↔ c ∈ deltas.keys ∨ ∃ m ∈ ms, m.currency = c := by
  induction ms generalizing deltas with
  | nil => simp
  | cons m ms ih =>
    rw [List.foldl_cons, ih]
    unfold addedDelta
    rw [Dict.mem_keys_set]
    simp only [List.mem_cons, exists_eq_or_imp]
    constructor
    · rintro ((rfl | h) | h)
      · exact .inr (.inl rfl)
      · exact .inl h
      · exact .inr (.inr h)
    · rintro (h | rfl | h)
      · exact .inl (.inr h)
      · exact .inl (.inl rfl)
      · exact .inr h

theorem nodup_keys_foldl (column : BalanceColumn) (ms : List Money) (deltas : Dict Currency BalanceDelta)
    (h : deltas.keys.Nodup) : (ms.foldl (addedDelta column) deltas).keys.Nodup := by
  induction ms generalizing deltas with
  | nil => exact h
  | cons m ms ih => exact ih _ (Dict.nodup_keys_set _ _ _ h)

def BalanceDeltas.column (deltas : BalanceDeltas) : BalanceColumn → List Money
  | .cash => deltas.cash
  | .realizedPnl => deltas.realizedPnl
  | .fees => deltas.fees
  | .unrealizedPnl => deltas.unrealizedPnl

def BalanceDeltas.total (deltas : BalanceDeltas) (currency : Currency) : BalanceDelta :=
  fun column => Money.totalIn currency (deltas.column column)

/-- The dictionary the first loop of `_apply_balances` builds. -/
def BalanceDeltas.collected (deltas : BalanceDeltas) : Dict Currency BalanceDelta :=
  deltas.unrealizedPnl.foldl (addedDelta .unrealizedPnl) (deltas.fees.foldl (addedDelta .fees)
    (deltas.realizedPnl.foldl (addedDelta .realizedPnl) (deltas.cash.foldl (addedDelta .cash) [])))

theorem BalanceDeltas.deltaOf_collected (deltas : BalanceDeltas) (c : Currency) :
    deltaOf deltas.collected c = deltas.total c := by
  funext column
  unfold BalanceDeltas.collected BalanceDeltas.total
  simp only [deltaOf_foldl]
  cases column <;> simp [deltaOf, BalanceDeltas.column]

theorem BalanceDeltas.mem_keys_collected (deltas : BalanceDeltas) (c : Currency) :
    c ∈ deltas.collected.keys ↔ ∃ column, ∃ m ∈ deltas.column column, m.currency = c := by
  unfold BalanceDeltas.collected
  simp only [mem_keys_foldl, Dict.keys_nil, List.not_mem_nil, false_or]
  constructor
  · rintro (((h | h) | h) | h)
    · exact ⟨.cash, h⟩
    · exact ⟨.realizedPnl, h⟩
    · exact ⟨.fees, h⟩
    · exact ⟨.unrealizedPnl, h⟩
  · rintro ⟨column, h⟩
    cases column with
    | cash => exact .inl (.inl (.inl h))
    | realizedPnl => exact .inl (.inl (.inr h))
    | fees => exact .inl (.inr h)
    | unrealizedPnl => exact .inr h

theorem BalanceDeltas.nodup_keys_collected (deltas : BalanceDeltas) : deltas.collected.keys.Nodup := by
  unfold BalanceDeltas.collected
  exact nodup_keys_foldl _ _ _ (nodup_keys_foldl _ _ _ (nodup_keys_foldl _ _ _ (nodup_keys_foldl _ _ _ List.nodup_nil)))

variable {observedAt : DateTime}

theorem deltaBalance_step {b b' : AccountBalanceSnapshot} {delta : BalanceDelta}
    (h : deltaBalance b delta observedAt = .ok b') : BalanceStep delta b b' := by
  unfold deltaBalance at h
  simp only [sum_eq, ok_bind, bind_ok_iff, money_ok_iff, AccountBalanceSnapshot.of_ok_iff,
    List.sum_cons, List.sum_nil, add_zero] at h
  obtain ⟨cash, ⟨hcash, -⟩, realized, ⟨hreal, -⟩, unrealized, ⟨hunreal, -⟩, fees, ⟨hfees, -⟩, hb⟩ := h
  refine ⟨fun column => ?_, ?_, ?_, ?_, ?_, ?_⟩ <;> try { rw [hb] }
  cases column <;> simp [balanceAmount, hb, hcash, hreal, hunreal, hfees]

theorem deltaBalance_ok (b : AccountBalanceSnapshot) {delta : BalanceDelta} (observedAt : DateTime)
    (h : ∀ column, AtScale b.currency.precision (delta column)) : ∃ b', deltaBalance b delta observedAt = .ok b' := by
  have hvalid := b.valid
  unfold AccountBalanceFields.validate at hvalid
  simp only [bind_ok_iff, require_ok_iff, List.forall_mem_cons] at hvalid
  obtain ⟨-, ⟨hcash, hlocked, hmargin, hreal, hunreal, hfees, hfunding, -⟩, -, hl, hm⟩ := hvalid
  have hs : ∀ (m : Money) (column : BalanceColumn), m.currency = b.currency →
      AtScale b.currency.precision ((m.amount + delta column : Decimal) : ℚ) := by
    intro m column hc
    push_cast
    exact (money_amount_atScale m hc).add (h column)
  unfold deltaBalance
  simp only [sum_eq, ok_bind, List.sum_cons, List.sum_nil, add_zero,
    money_of _ (hs _ _ hcash), money_of _ (hs _ _ hreal), money_of _ (hs _ _ hunreal),
    money_of _ (hs _ _ hfees)]
  refine ⟨_, validated_of _ ?_⟩
  unfold AccountBalanceFields.validate
  simp only [bind_ok_iff, require_ok_iff, List.forall_mem_cons]
  exact ⟨(), by simp [hlocked, hmargin, hfunding], (), hl, hm⟩

/-- What the second loop of `_apply_balances` does to a dictionary. -/
structure DictStep (delta : Currency → BalanceDelta) (d d' : Dict Currency AccountBalanceSnapshot) :
    Prop where
  keyed : d'.Keyed fun b => b.currency
  nodup : d'.keys.Nodup
  step : ∀ c, Option.Rel (BalanceStep (delta c)) (d.get? c) (d'.get? c)

variable {d : Dict Currency AccountBalanceSnapshot}

theorem foldlM_applyDelta {deltas : Dict Currency BalanceDelta}
    {d' : Dict Currency AccountBalanceSnapshot} (hn : deltas.keys.Nodup) (hk : d.Keyed (·.currency)) (hd : d.keys.Nodup)
    (h : deltas.foldlM (applyDelta observedAt) d = .ok d') :
    DictStep (deltaOf deltas) d d' ∧ ∀ c ∈ deltas.keys, (d.get? c).isSome = true := by
  induction deltas generalizing d with
  | nil =>
    obtain rfl := Except.ok.inj h
    refine ⟨⟨hk, hd, fun c => ?_⟩, by simp⟩
    cases d.get? c with
    | none => exact .none
    | some b => exact .some (BalanceStep.refl b)
  | cons e deltas ih =>
    obtain ⟨c₀, δ⟩ := e
    rw [Dict.keys_cons, List.nodup_cons] at hn
    rw [List.foldlM_cons, bind_ok_iff] at h
    obtain ⟨d₁, h₁, h₂⟩ := h
    unfold applyDelta at h₁
    cases hb : d.get? c₀ with
    | none => simp [hb] at h₁
    | some b =>
      simp only [hb, bind_ok_iff, rescue_ok_iff, Except.ok.injEq] at h₁
      obtain ⟨b', hb', rfl⟩ := h₁
      have hstep := deltaBalance_step hb'
      have hbc : b.currency = c₀ := hk _ (Dict.mem_of_get?_eq_some hb)
      obtain ⟨⟨hk', hn', hs'⟩, hsome⟩ := ih hn.2 (hk.set (hstep.currency.trans hbc))
        (Dict.nodup_keys_set _ _ _ hd) h₂
      have hzero : deltaOf deltas c₀ = fun _ => 0 := by
        unfold deltaOf
        rw [(Dict.get?_eq_none_iff _ _).2 hn.1]
        rfl
      refine ⟨⟨hk', hn', fun c => ?_⟩, ?_⟩
      · have hc := hs' c
        by_cases hcc : c₀ = c
        · subst hcc
          rw [Dict.get?_set_self, hzero] at hc
          rw [hb]
          have hδ : deltaOf ((c₀, δ) :: deltas) c₀ = δ := by simp [deltaOf, Dict.get?_cons]
          rw [hδ]
          generalize d'.get? c₀ = b₂ at hc ⊢
          cases hc with
          | some hlast =>
            refine .some ⟨fun column => ?_, ?_, ?_, ?_, ?_, ?_⟩
            · rw [hlast.amounts, hstep.amounts, add_zero]
            · rw [hlast.funding, hstep.funding]
            · rw [hlast.lockedFunds, hstep.lockedFunds]
            · rw [hlast.marginUsed, hstep.marginUsed]
            · rw [hlast.accountId, hstep.accountId]
            · rw [hlast.currency, hstep.currency]
        · rw [Dict.get?_set_of_ne _ _ hcc] at hc
          have hδ : deltaOf ((c₀, δ) :: deltas) c = deltaOf deltas c := by
            simp [deltaOf, Dict.get?_cons, hcc]
          rwa [hδ]
      · intro c hc
        rcases List.mem_cons.1 hc with rfl | hc
        · rw [hb]
          rfl
        · have := hsome c hc
          rw [Dict.get?_set] at this
          split_ifs at this with hcc
          · subst hcc
            rw [hb]
            rfl
          · exact this

theorem foldlM_applyDelta_ok (observedAt : DateTime) {deltas : Dict Currency BalanceDelta}
    {d : Dict Currency AccountBalanceSnapshot} (hk : d.Keyed (·.currency))
    (hsome : ∀ c ∈ deltas.keys, (d.get? c).isSome = true)
    (hscale : ∀ e ∈ deltas, ∀ column, AtScale e.1.precision (e.2 column)) :
    ∃ d', deltas.foldlM (applyDelta observedAt) d = .ok d' := by
  induction deltas generalizing d with
  | nil => exact ⟨d, rfl⟩
  | cons e deltas ih =>
    obtain ⟨c₀, δ⟩ := e
    obtain ⟨b, hb⟩ := Option.isSome_iff_exists.1 (hsome c₀ (by simp))
    have hbc : b.currency = c₀ := hk _ (Dict.mem_of_get?_eq_some hb)
    obtain ⟨b', hb'⟩ := @deltaBalance_ok b δ observedAt (by rw [hbc]; exact hscale (c₀, δ) (by simp))
    have h₁ : applyDelta observedAt d (c₀, δ) = .ok (d.set c₀ b') := by
      unfold applyDelta
      simp only [hb]
      rw [rescue_ok_iff.2 hb']
      rfl
    have hk' := hk.set ((deltaBalance_step hb').currency.trans hbc)
    have hsome' : ∀ c ∈ Dict.keys deltas, ((d.set c₀ b').get? c).isSome = true := by
      intro c hc
      rw [Dict.get?_set]
      by_cases hcc : c₀ = c
      · simp [hcc]
      · rw [if_neg hcc]
        exact hsome c (List.mem_cons_of_mem _ hc)
    obtain ⟨d', hd'⟩ := ih hk' hsome' fun e he => hscale e (List.mem_cons_of_mem _ he)
    exact ⟨d', by rw [List.foldlM_cons, h₁]; exact hd'⟩

theorem applyBalances_eq (balances : List AccountBalanceSnapshot) (deltas : BalanceDeltas) (observedAt : DateTime) :
    applyBalances balances deltas observedAt =
      (deltas.collected.foldlM (applyDelta observedAt) (balancesByCurrency balances) >>= fun d =>
        .ok (Dict.valuesBy Currency.code d)) := by
  unfold applyBalances
  simp only [foldlM_addDelta, ok_bind]
  rfl

theorem DictStep.balances {delta : Currency → BalanceDelta} {balances : List AccountBalanceSnapshot}
    (hn : (balances.map (·.currency)).Nodup) (h : DictStep delta (balancesByCurrency balances) d) :
    BalancesStep delta balances (Dict.valuesBy Currency.code d) := by
  intro c
  have hc := h.step c
  unfold balancesByCurrency at hc
  rw [Dict.get?_byKey hn] at hc
  unfold balanceOf
  rwa [Dict.lookupBy_valuesBy h.keyed h.nodup]

variable {balances' : List AccountBalanceSnapshot} {deltas : BalanceDeltas}

variable {balances : List AccountBalanceSnapshot}

theorem applyBalances_spec (hn : (balances.map (·.currency)).Nodup)
    (h : applyBalances balances deltas observedAt = .ok balances') : BalancesStep deltas.total balances balances' ∧
      ∀ column, ∀ m ∈ deltas.column column, (balanceOf balances m.currency).isSome = true := by
  rw [applyBalances_eq, bind_ok_iff] at h
  obtain ⟨d, hd, hr⟩ := h
  obtain rfl := Except.ok.inj hr
  obtain ⟨hstep, hsome⟩ := foldlM_applyDelta deltas.nodup_keys_collected (Dict.keyed_byKey _ _)
    (Dict.nodup_keys_byKey _ _) hd
  have htotal : deltaOf deltas.collected = deltas.total := funext deltas.deltaOf_collected
  rw [htotal] at hstep
  refine ⟨hstep.balances hn, fun column m hm => ?_⟩
  have := hsome m.currency ((deltas.mem_keys_collected _).2 ⟨column, m, hm, rfl⟩)
  rwa [Dict.get?_byKey hn] at this

theorem applyBalances_ok {deltas : BalanceDeltas} (observedAt : DateTime) (hn : (balances.map (·.currency)).Nodup)
    (h : ∀ column, ∀ m ∈ deltas.column column, (balanceOf balances m.currency).isSome = true) :
    ∃ balances', applyBalances balances deltas observedAt = .ok balances' := by
  obtain ⟨d, hd⟩ := @foldlM_applyDelta_ok observedAt deltas.collected (balancesByCurrency balances)
    (Dict.keyed_byKey _ _)
    (fun c hc => by
      obtain ⟨column, m, hm, rfl⟩ := (deltas.mem_keys_collected c).1 hc
      unfold balancesByCurrency
      rw [Dict.get?_byKey hn]
      exact h column m hm)
    (fun e he column => by
      have hget := (Dict.get?_eq_some_iff deltas.nodup_keys_collected).2 he
      have hδ : e.2 = deltas.total e.1 := by
        rw [← deltas.deltaOf_collected]
        unfold deltaOf
        rw [hget]
        rfl
      rw [hδ]
      exact totalIn_atScale _ _)
  exact ⟨Dict.valuesBy Currency.code d, by rw [applyBalances_eq, hd]; rfl⟩

theorem applyBalances_sorted (h : applyBalances balances deltas observedAt = .ok balances') :
    (balances'.map (·.currency.code)).Pairwise (· < ·) := by
  rw [applyBalances_eq, bind_ok_iff] at h
  obtain ⟨d, hd, hr⟩ := h
  obtain rfl := Except.ok.inj hr
  obtain ⟨hstep, -⟩ := foldlM_applyDelta deltas.nodup_keys_collected (Dict.keyed_byKey _ _)
    (Dict.nodup_keys_byKey _ _) hd
  exact Dict.valuesBy_pairwise_lt hstep.keyed hstep.nodup Currency.code_injective

end TradingAgent.PortfolioReducer
