import TradingAgent.PortfolioReducer.Invariant

/-! Reversing effects and booking them again keeps the invariant. -/

namespace TradingAgent.PortfolioReducer

open Outcome

def removeAll (observedAt : DateTime) (items : List PortfolioExecutionEffect)
    (s : PortfolioReplayState) : Except Failure PortfolioReplayState :=
  items.foldlM (fun rebased item => removeEffect rebased item observedAt) s

def bookAgain (marks : PositionKey → Option PositionMark) (observedAt : DateTime)
    (items : List PortfolioExecutionEffect) (s : PortfolioReplayState) :
    Except Failure PortfolioReplayState :=
  items.foldlM (fun rebased item => bookFill rebased item.entry item.sourceEvent item.logicalSequence
    (marks item.positionKey) (some observedAt)) s

structure Kept (s s' : PortfolioReplayState) : Prop where
  linked : Linked s'
  net : net s' = net s
  books : SameBooks s s'

theorem Kept.refl {s : PortfolioReplayState} (h : Linked s) : Kept s s := ⟨h, rfl, SameBooks.refl s⟩

theorem Kept.trans {s s' s'' : PortfolioReplayState} (h : Kept s s') (h' : Kept s' s'') : Kept s s'' :=
  ⟨h'.linked, h'.net.trans h.net, h.books.trans h'.books⟩

theorem removeEffect_kept {s s' : PortfolioReplayState} {e : PortfolioExecutionEffect}
    {observedAt : DateTime} (h : removeEffect s e observedAt = .ok s') (hs : Linked s)
    (he : e ∈ s.activeEffects) : Kept s s' :=
  ⟨removeEffect_linked h hs, removeEffect_net h hs he, removeEffect_books h⟩

variable {source : PortfolioEvent} {seq : ℕ} {mark : Option PositionMark}

theorem bookFill_kept {s s' : PortfolioReplayState} {entry : PortfolioFillEntry} {observedAt : Option DateTime}
    (h : bookFill s entry source seq mark observedAt = .ok s') (hs : Linked s)
    (hstatus : entry.fill.status.IsNormal ∨ entry.fill.status = .correction) : Kept s s' :=
  ⟨bookFill_linked h hs hstatus, bookFill_net h, bookFill_books h⟩

section RemoveAll

variable {observedAt : DateTime} {items : List PortfolioExecutionEffect} {s s' : PortfolioReplayState}
  {item : PortfolioExecutionEffect}

theorem removeAll_cons : removeAll observedAt (item :: items) s =
      removeEffect s item observedAt >>= removeAll observedAt items := by
  unfold removeAll
  rw [List.foldlM_cons]

theorem still_active {t : PortfolioReplayState}
    (h : removeEffect s item observedAt = .ok t) (hn : (item :: items).Nodup)
    (hmem : ∀ x ∈ item :: items, x ∈ s.activeEffects) : ∀ x ∈ items, x ∈ t.activeEffects := by
  intro x hx
  rw [removeEffect_effects h, mem_withoutExecution]
  refine ⟨hmem x (List.mem_cons_of_mem _ hx), fun hid => ?_⟩
  have heq : x = item := List.inj_on_of_nodup_map s.facts.nodup_executionIds
    (hmem x (List.mem_cons_of_mem _ hx)) (hmem item List.mem_cons_self) hid
  exact (List.nodup_cons.1 hn).1 (heq ▸ hx)

variable (h : removeAll observedAt items s = .ok s')
include h

theorem removeAll_kept (hs : Linked s) (hn : items.Nodup) (hmem : ∀ x ∈ items, x ∈ s.activeEffects) : Kept s s' := by
  induction items generalizing s with
  | nil =>
    obtain rfl := Except.ok.inj h
    exact Kept.refl hs
  | cons item items ih =>
    rw [removeAll_cons, bind_ok_iff] at h
    obtain ⟨t, ht, h⟩ := h
    have hk := removeEffect_kept ht hs (hmem item List.mem_cons_self)
    exact hk.trans (ih h hk.linked (List.nodup_cons.1 hn).2 (still_active ht hn hmem))

theorem removeAll_tickets (hn : items.Nodup) (hmem : ∀ x ∈ items, x ∈ s.activeEffects) :
    (tickets s).Perm (items.map ticket ++ tickets s') := by
  induction items generalizing s with
  | nil =>
    obtain rfl := Except.ok.inj h
    exact .refl _
  | cons item items ih =>
    rw [removeAll_cons, bind_ok_iff] at h
    obtain ⟨t, ht, h⟩ := h
    have hp := removeEffect_tickets ht (hmem item List.mem_cons_self)
    exact hp.trans ((ih h (List.nodup_cons.1 hn).2 (still_active ht hn hmem)).cons _)

theorem removeAll_books : SameBooks s s' :=
  foldlM_invariant (SameBooks s) (fun _ _ _ _ ht hstep => ht.trans (removeEffect_books hstep))
    (SameBooks.refl s) h

theorem mem_of_removeAll {x : PortfolioExecutionEffect} :
    x ∈ s'.activeEffects ↔ x ∈ s.activeEffects ∧ ∀ y ∈ items, x.executionId ≠ y.executionId := by
  induction items generalizing s with
  | nil =>
    obtain rfl := Except.ok.inj h
    simp
  | cons item items ih =>
    rw [removeAll_cons, bind_ok_iff] at h
    obtain ⟨t, ht, h⟩ := h
    rw [ih h, removeEffect_effects ht, mem_withoutExecution]
    simp [and_assoc]

omit h

/-- `items` holds every effect of its positions that comes after one of its own. -/
def UpClosed (effects items : List PortfolioExecutionEffect) : Prop :=
  ∀ x ∈ items, ∀ y ∈ effects, y.positionKey = x.positionKey → x.logicalSequence < y.logicalSequence →
    y ∈ items

/-- The effects can be reversed in this order, each of them as the last one of its position. -/
structure Reversible (s : PortfolioReplayState) (items : List PortfolioExecutionEffect) : Prop where
  sorted : items.Pairwise fun x y => y.logicalSequence < x.logicalSequence
  active : ∀ x ∈ items, x ∈ s.activeEffects
  closed : UpClosed s.activeEffects items

theorem Reversible.last {item : PortfolioExecutionEffect} (h : Reversible s (item :: items))
    (hseq : (s.activeEffects.map (·.logicalSequence)).Nodup) : LastOf s item := by
  intro y hy hyk hne
  by_contra hlt
  have hle : item.logicalSequence ≤ y.logicalSequence := not_lt.1 hlt
  rcases hle.eq_or_lt with heq | hlt
  · exact hne (List.inj_on_of_nodup_map hseq hy (h.active item List.mem_cons_self) heq.symm)
  · rcases List.mem_cons.1 (h.closed item List.mem_cons_self y hy hyk hlt) with rfl | hm
    · exact hne rfl
    · exact absurd ((List.pairwise_cons.1 h.sorted).1 y hm) hlt.not_gt

theorem Reversible.tail {t : PortfolioReplayState} {item : PortfolioExecutionEffect}
    (h : Reversible s (item :: items)) (ht : removeEffect s item observedAt = .ok t) : Reversible t items := by
  have hn : (item :: items).Nodup := h.sorted.imp fun hlt heq => by simp [heq] at hlt
  refine ⟨(List.pairwise_cons.1 h.sorted).2, still_active ht hn h.active, fun x hx y hy hyk hlt => ?_⟩
  rw [removeEffect_effects ht, mem_withoutExecution] at hy
  rcases List.mem_cons.1 (h.closed x (List.mem_cons_of_mem _ hx) y hy.1 hyk hlt) with rfl | hm
  · exact absurd rfl hy.2
  · exact hm

theorem removeAll_inv {marked : Prop} {base : PositionKey → LotBase}
    (h : removeAll observedAt items s = .ok s') (hs : Inv marked base s) (hitems : Reversible s items) :
    Inv marked base s' := by
  induction items generalizing s with
  | nil =>
    obtain rfl := Except.ok.inj h
    exact hs
  | cons item items ih =>
    rw [removeAll_cons, bind_ok_iff] at h
    obtain ⟨t, ht, h⟩ := h
    have hinv := removeEffect_inv ht hs (hitems.active item List.mem_cons_self) (hitems.last hs.sequences)
    exact ih h hinv (hitems.tail ht)

end RemoveAll

section BookAgain

variable {marks : PositionKey → Option PositionMark} {observedAt : DateTime}
  {items : List PortfolioExecutionEffect} {s s' : PortfolioReplayState}

theorem bookAgain_cons {item : PortfolioExecutionEffect} : bookAgain marks observedAt (item :: items) s =
      bookFill s item.entry item.sourceEvent item.logicalSequence (marks item.positionKey)
        (some observedAt) >>= bookAgain marks observedAt items := by
  unfold bookAgain
  rw [List.foldlM_cons]

variable (h : bookAgain marks observedAt items s = .ok s')
include h

theorem bookAgain_kept (hs : Linked s)
    (hstatus : ∀ x ∈ items, x.entry.fill.status.IsNormal ∨ x.entry.fill.status = .correction) : Kept s s' := by
  induction items generalizing s with
  | nil =>
    obtain rfl := Except.ok.inj h
    exact Kept.refl hs
  | cons item items ih =>
    rw [bookAgain_cons, bind_ok_iff] at h
    obtain ⟨t, ht, h⟩ := h
    have hk := bookFill_kept ht hs (hstatus item List.mem_cons_self)
    exact hk.trans (ih h hk.linked fun x hx => hstatus x (List.mem_cons_of_mem _ hx))

theorem bookAgain_books : SameBooks s s' :=
  foldlM_invariant (SameBooks s) (fun _ _ _ _ ht hstep => ht.trans (bookFill_books hstep))
    (SameBooks.refl s) h

theorem bookAgain_tickets : (tickets s').Perm (items.map ticket ++ tickets s) := by
  induction items generalizing s with
  | nil =>
    obtain rfl := Except.ok.inj h
    exact .refl _
  | cons item items ih =>
    rw [bookAgain_cons, bind_ok_iff] at h
    obtain ⟨t, ht, h⟩ := h
    exact (ih h).trans (((bookFill_tickets ht).append_left _).trans List.perm_middle)

omit h

/-- Every item comes after all effects of its position, at a place that is free. -/
def Above (effects items : List PortfolioExecutionEffect) : Prop :=
  ∀ x ∈ items, ∀ y ∈ effects, y.logicalSequence ≠ x.logicalSequence ∧
    (y.positionKey = x.positionKey → y.logicalSequence < x.logicalSequence)

variable {entry : PortfolioFillEntry}

theorem bookFill_mem {observedAt : Option DateTime}
    (h : bookFill s entry source seq mark observedAt = .ok s') {y : PortfolioExecutionEffect}
    (hy : y ∈ s'.activeEffects) : y ∈ s.activeEffects ∨ (y.logicalSequence = seq ∧ y.positionKey = entryKey entry) := by
  obtain ⟨p, before, accounting, e, next, p', unrealized, hf, hw⟩ := bookFill_spec h
  rw [hw.effects, mem_sortBy, List.mem_append, List.mem_singleton] at hy
  rcases hy with hy | rfl
  · exact .inl hy
  · exact .inr (by rw [hf.effect]; exact ⟨rfl, rfl⟩)

theorem Above.book {observedAt : Option DateTime} (h : Above s.activeEffects items)
    (hb : bookFill s entry source seq mark observedAt = .ok s')
    (hlt : ∀ x ∈ items, seq < x.logicalSequence) : Above s'.activeEffects items := by
  intro x hx y hy
  rcases bookFill_mem hb hy with hy | ⟨hseq, -⟩
  · exact h x hx y hy
  · rw [hseq]
    exact ⟨(hlt x hx).ne, fun _ => hlt x hx⟩

/-- The effects can be booked in this order, each of them as the last one of its position. -/
structure Repeatable (s : PortfolioReplayState) (items : List PortfolioExecutionEffect) : Prop where
  status : ∀ x ∈ items, x.entry.fill.status.IsNormal ∨ x.entry.fill.status = .correction
  key : ∀ x ∈ items, x.positionKey = entryKey x.entry
  sorted : items.Pairwise fun x y => x.logicalSequence < y.logicalSequence
  above : Above s.activeEffects items

theorem Repeatable.book {marked : Prop} {base : PositionKey → LotBase} {item : PortfolioExecutionEffect}
    {observedAt : Option DateTime} (h : Repeatable s (item :: items)) (hs : Inv marked base s)
    (hb : bookFill s item.entry item.sourceEvent item.logicalSequence mark observedAt = .ok s') :
    Inv marked base s' ∧ Repeatable s' items := by
  obtain ⟨hlt, hsorted⟩ := List.pairwise_cons.1 h.sorted
  have hitem := h.above item List.mem_cons_self
  have htail : Above s.activeEffects items := fun x hx => h.above x (List.mem_cons_of_mem _ hx)
  refine ⟨bookFill_inv hb hs (h.status item List.mem_cons_self) (fun y hy => (hitem y hy).1)
    (fun y hy hyk => (hitem y hy).2 (hyk.trans (h.key item List.mem_cons_self).symm)),
    fun x hx => h.status x (List.mem_cons_of_mem _ hx), fun x hx => h.key x (List.mem_cons_of_mem _ hx), hsorted,
    htail.book hb hlt⟩

theorem bookAgain_inv {marked : Prop} {base : PositionKey → LotBase}
    (h : bookAgain marks observedAt items s = .ok s') (hs : Inv marked base s) (hitems : Repeatable s items) :
    Inv marked base s' := by
  induction items generalizing s with
  | nil =>
    obtain rfl := Except.ok.inj h
    exact hs
  | cons item items ih =>
    rw [bookAgain_cons, bind_ok_iff] at h
    obtain ⟨t, ht, h⟩ := h
    obtain ⟨hinv, htail⟩ := hitems.book hs ht
    exact ih h hinv htail

end BookAgain

variable {s s' : PortfolioReplayState} {effect : PortfolioExecutionEffect} {event : PortfolioEvent}
  {entry : PortfolioFillEntry}

/-- The reversals of a rebase, from the last effect back to the replaced one. -/
def removals (s : PortfolioReplayState) (effect : PortfolioExecutionEffect) (entry : PortfolioFillEntry) :
    List PortfolioExecutionEffect :=
  sortBy (fun e => OrderDual.toDual e.logicalSequence)
    (effect :: laterEffects s (affectedDefinitions effect entry) effect)

theorem rebaseLaterEffects_eq (s : PortfolioReplayState) (effect : PortfolioExecutionEffect)
    (event : PortfolioEvent) (entry : PortfolioFillEntry) :
    rebaseLaterEffects s effect event entry = (removeAll entry.effectiveAt (removals s effect entry) s >>= fun s₁ =>
        (if entry.fill.status = .correction then
          bookFill s₁ entry event effect.logicalSequence
            (retainedMark s (affectedDefinitions effect entry) (entryKey entry)) none
         else .ok s₁) >>=
        bookAgain (retainedMark s (affectedDefinitions effect entry)) entry.effectiveAt
          (laterEffects s (affectedDefinitions effect entry) effect)) := by
  unfold rebaseLaterEffects
  split_ifs <;> rfl

theorem rebaseLaterEffects_spec (h : rebaseLaterEffects s effect event entry = .ok s') :
    ∃ s₁ s₂, removeAll entry.effectiveAt (removals s effect entry) s = .ok s₁ ∧
      (if entry.fill.status = .correction then
        bookFill s₁ entry event effect.logicalSequence
          (retainedMark s (affectedDefinitions effect entry) (entryKey entry)) none
       else .ok s₁) = .ok s₂ ∧
      bookAgain (retainedMark s (affectedDefinitions effect entry)) entry.effectiveAt
        (laterEffects s (affectedDefinitions effect entry) effect) s₂ = .ok s' := by
  rw [rebaseLaterEffects_eq] at h
  simp only [bind_ok_iff] at h
  obtain ⟨s₁, h₁, s₂, h₂, h₃⟩ := h
  exact ⟨s₁, s₂, h₁, h₂, h₃⟩

variable {x : PortfolioExecutionEffect}

theorem mem_laterEffects {affected : Dict PositionKey InstrumentDefinition} : x ∈ laterEffects s affected effect ↔
      x ∈ s.activeEffects ∧ x.positionKey ∈ affected.keys ∧ effect.logicalSequence < x.logicalSequence := by
  unfold laterEffects
  simp

theorem key_mem_affected (effect : PortfolioExecutionEffect) (entry : PortfolioFillEntry) :
    effect.positionKey ∈ (affectedDefinitions effect entry).keys := by
  unfold affectedDefinitions
  simp only
  split_ifs
  · rw [Dict.mem_keys_set]
    simp
  · simp

theorem mem_removals : x ∈ removals s effect entry ↔
    x = effect ∨ x ∈ laterEffects s (affectedDefinitions effect entry) effect := by
  unfold removals
  simp

theorem removals_perm : (removals s effect entry).Perm
    (effect :: laterEffects s (affectedDefinitions effect entry) effect) :=
  sortBy_perm _ _

theorem laterEffects_nodup (affected : Dict PositionKey InstrumentDefinition) :
    (effect :: laterEffects s affected effect).Nodup := by
  rw [List.nodup_cons]
  constructor
  · intro hm
    exact absurd (mem_laterEffects.1 hm).2.2 (lt_irrefl _)
  · unfold laterEffects
    rw [(sortBy_perm _ _).nodup_iff]
    exact (List.Nodup.of_map _ s.facts.nodup_executionIds).filter _

theorem removals_nodup : (removals s effect entry).Nodup := by
  rw [removals_perm.nodup_iff]
  exact laterEffects_nodup _

theorem removals_active (he : effect ∈ s.activeEffects) : ∀ x ∈ removals s effect entry, x ∈ s.activeEffects := by
  intro x hx
  rcases mem_removals.1 hx with rfl | hx
  · exact he
  · exact (mem_laterEffects.1 hx).1

def replacement (effect : PortfolioExecutionEffect) (event : PortfolioEvent)
    (entry : PortfolioFillEntry) : List Ticket :=
  if entry.fill.status = .correction then [⟨entry, event, effect.logicalSequence⟩] else []

variable (h : rebaseLaterEffects s effect event entry = .ok s')
include h

theorem rebase_kept (hs : Linked s) (he : effect ∈ s.activeEffects) : Kept s s' := by
  obtain ⟨s₁, s₂, h₁, h₂, h₃⟩ := rebaseLaterEffects_spec h
  have hk₁ := removeAll_kept h₁ hs removals_nodup (removals_active he)
  have hk₂ : Kept s₁ s₂ := by
    split_ifs at h₂ with hc
    · exact bookFill_kept h₂ hk₁.linked (.inr hc)
    · obtain rfl := Except.ok.inj h₂
      exact Kept.refl hk₁.linked
  refine (hk₁.trans hk₂).trans (bookAgain_kept h₃ hk₂.linked fun x hx => ?_)
  rw [x.facts.entryFill]
  exact hs.status x (mem_laterEffects.1 hx).1

theorem rebase_books : SameBooks s s' := by
  obtain ⟨s₁, s₂, h₁, h₂, h₃⟩ := rebaseLaterEffects_spec h
  have hb₂ : SameBooks s₁ s₂ := by
    split_ifs at h₂
    · exact bookFill_books h₂
    · obtain rfl := Except.ok.inj h₂
      exact SameBooks.refl s₁
  exact ((removeAll_books h₁).trans hb₂).trans (bookAgain_books h₃)

theorem rebase_tickets (he : effect ∈ s.activeEffects) : ∃ rest, (tickets s).Perm (ticket effect :: rest) ∧
      (tickets s').Perm (replacement effect event entry ++ rest) := by
  obtain ⟨s₁, s₂, h₁, h₂, h₃⟩ := rebaseLaterEffects_spec h
  set later := laterEffects s (affectedDefinitions effect entry) effect with hlater
  have ht₁ := removeAll_tickets h₁ removals_nodup (removals_active he)
  have ht₂ : (tickets s₂).Perm (replacement effect event entry ++ tickets s₁) := by
    unfold replacement
    split_ifs at h₂ ⊢
    · exact bookFill_tickets h₂
    · obtain rfl := Except.ok.inj h₂
      exact .refl _
  refine ⟨later.map ticket ++ tickets s₁, ?_, ?_⟩
  · exact ht₁.trans ((removals_perm.map ticket).append_right _)
  · refine (bookAgain_tickets h₃).trans ((ht₂.append_left _).trans ?_)
    rw [← List.append_assoc, ← List.append_assoc]
    exact List.perm_append_comm.append_right _

omit h

variable {marked : Prop} {base : PositionKey → LotBase}

theorem later_sorted (hseq : (s.activeEffects.map (·.logicalSequence)).Nodup)
    (affected : Dict PositionKey InstrumentDefinition) :
    (laterEffects s affected effect).Pairwise fun x y => x.logicalSequence < y.logicalSequence := by
  unfold laterEffects
  exact sortBy_pairwise_lt _ _ ((List.filter_sublist.map _).nodup hseq)

theorem removals_sorted (hseq : (s.activeEffects.map (·.logicalSequence)).Nodup) (he : effect ∈ s.activeEffects) :
    (removals s effect entry).Pairwise fun x y => y.logicalSequence < x.logicalSequence := by
  unfold removals
  refine sortBy_pairwise_lt (fun e : PortfolioExecutionEffect => OrderDual.toDual e.logicalSequence) _ ?_
  have hsub : ∀ x ∈ effect :: laterEffects s (affectedDefinitions effect entry) effect, x ∈ s.activeEffects := by
    intro x hx
    exact removals_active he x (removals_perm.mem_iff.2 hx)
  refine List.Nodup.map_on ?_ (laterEffects_nodup _)
  intro x hx y hy hxy
  exact List.inj_on_of_nodup_map hseq (hsub x hx) (hsub y hy) (OrderDual.toDual_inj.1 hxy)

theorem removals_upClosed : UpClosed s.activeEffects (removals s effect entry) := by
  intro x hx y hy hyk hlt
  rw [mem_removals] at hx ⊢
  right
  rw [mem_laterEffects]
  rcases hx with rfl | hx
  · exact ⟨hy, hyk ▸ key_mem_affected _ _, hlt⟩
  · obtain ⟨-, hk, hgt⟩ := mem_laterEffects.1 hx
    exact ⟨hy, hyk ▸ hk, hgt.trans hlt⟩

theorem removals_reversible (hseq : (s.activeEffects.map (·.logicalSequence)).Nodup)
    (he : effect ∈ s.activeEffects) : Reversible s (removals s effect entry) :=
  ⟨removals_sorted hseq he, removals_active he, removals_upClosed⟩

variable {s₁ : PortfolioReplayState}

theorem below_of_removals (h : removeAll entry.effectiveAt (removals s effect entry) s = .ok s₁)
    (hseq : (s.activeEffects.map (·.logicalSequence)).Nodup) (he : effect ∈ s.activeEffects)
    {y : PortfolioExecutionEffect} (hy : y ∈ s₁.activeEffects) :
    y.logicalSequence ≠ effect.logicalSequence ∧ (y.positionKey ∈ (affectedDefinitions effect entry).keys →
        y.logicalSequence < effect.logicalSequence) := by
  obtain ⟨hys, hne⟩ := (mem_of_removeAll h).1 hy
  have hseqne : y.logicalSequence ≠ effect.logicalSequence := by
    intro heq
    have := List.inj_on_of_nodup_map hseq hys he heq
    exact hne effect (mem_removals.2 (.inl rfl)) (by rw [this])
  refine ⟨hseqne, fun hk => ?_⟩
  by_contra hlt
  have hgt : effect.logicalSequence < y.logicalSequence :=
    lt_of_le_of_ne (not_lt.1 hlt) hseqne.symm
  exact hne y (mem_removals.2 (.inr (mem_laterEffects.2 ⟨hys, hk, hgt⟩))) rfl

theorem later_above (h : removeAll entry.effectiveAt (removals s effect entry) s = .ok s₁)
    (hseq : (s.activeEffects.map (·.logicalSequence)).Nodup) (he : effect ∈ s.activeEffects) :
    Above s₁.activeEffects (laterEffects s (affectedDefinitions effect entry) effect) := by
  intro x hx y hy
  obtain ⟨hxs, hxk, hgt⟩ := mem_laterEffects.1 hx
  obtain ⟨hys, hne⟩ := (mem_of_removeAll h).1 hy
  refine ⟨fun heq => ?_, fun hk => ?_⟩
  · have := List.inj_on_of_nodup_map hseq hys hxs heq
    exact hne x (mem_removals.2 (.inr hx)) (by rw [this])
  · exact ((below_of_removals h hseq he hy).2 (hk ▸ hxk)).trans hgt

theorem rebase_inv_middle {s₂ : PortfolioReplayState} (hs : Inv marked base s) (he : effect ∈ s.activeEffects)
    (h₁ : removeAll entry.effectiveAt (removals s effect entry) s = .ok s₁)
    (h₂ : (if entry.fill.status = .correction then
        bookFill s₁ entry event effect.logicalSequence
          (retainedMark s (affectedDefinitions effect entry) (entryKey entry)) none
       else .ok s₁) = .ok s₂) :
    Inv marked base s₁ ∧ Inv marked base s₂ ∧
      Repeatable s₂ (laterEffects s (affectedDefinitions effect entry) effect) := by
  have hi₁ := removeAll_inv h₁ hs (removals_reversible hs.sequences he)
  have habove := later_above h₁ hs.sequences he
  have hrepeatable (h : Above s₂.activeEffects (laterEffects s (affectedDefinitions effect entry) effect)) :
      Repeatable s₂ (laterEffects s (affectedDefinitions effect entry) effect) := by
    refine ⟨fun x hx => ?_, fun x hx => (hs.linked.economics x (mem_laterEffects.1 hx).1).key,
      later_sorted hs.sequences _, h⟩
    rw [x.facts.entryFill]
    exact hs.linked.status x (mem_laterEffects.1 hx).1
  refine ⟨hi₁, ?_⟩
  split_ifs at h₂ with hc
  · have hmem : entryKey entry ∈ (affectedDefinitions effect entry).keys := by
      unfold affectedDefinitions
      simp only [hc, if_true]
      rw [Dict.mem_keys_set]
      exact .inl rfl
    refine ⟨bookFill_inv h₂ hi₁ (.inr hc) (fun y hy => (below_of_removals h₁ hs.sequences he hy).1)
      (fun y hy hk => (below_of_removals h₁ hs.sequences he hy).2 (hk ▸ hmem)), ?_⟩
    exact hrepeatable (habove.book h₂ fun x hx => (mem_laterEffects.1 hx).2.2)
  · obtain rfl := Except.ok.inj h₂
    exact ⟨hi₁, hrepeatable habove⟩

theorem rebase_inv (h : rebaseLaterEffects s effect event entry = .ok s') (hs : Inv marked base s)
    (he : effect ∈ s.activeEffects) : Inv marked base s' := by
  obtain ⟨s₁, s₂, h₁, h₂, h₃⟩ := rebaseLaterEffects_spec h
  obtain ⟨-, hi₂, hlater⟩ := rebase_inv_middle hs he h₁ h₂
  exact bookAgain_inv h₃ hi₂ hlater

end TradingAgent.PortfolioReducer
