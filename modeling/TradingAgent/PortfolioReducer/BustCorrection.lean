import TradingAgent.PortfolioReducer.DigitLimits
import TradingAgent.PortfolioReducer.Divergence
import TradingAgent.PortfolioReducer.Acceptance

/-! A bust or a correction against the history without the execution. -/

namespace TradingAgent.PortfolioReducer

open Outcome AverageCost

variable {codec : Codec}

/-! ## The other history -/

/-- The history without an event. -/
def withoutEvent (events : List PortfolioEvent) (x : PortfolioEvent) : List PortfolioEvent :=
  events.filter fun e => e.eventId ≠ x.eventId

/-- The history with another fill in the event's place. -/
def withFill (events : List PortfolioEvent) (x : PortfolioEvent) (entry : PortfolioFillEntry) :
    List PortfolioEvent :=
  events.map fun e => if e.eventId = x.eventId then e.withPayload (.fill entry) else e

theorem delivered_split {events : List PortfolioEvent} {x : PortfolioEvent} (h : x ∈ delivered events) :
    ∃ pre post, events = pre ++ x :: post ∧ x.eventId ∉ pre.map (·.eventId) := by
  induction events using List.reverseRecOn with
  | nil => simp [delivered] at h
  | append_singleton events e ih =>
    rw [delivered_concat] at h
    split_ifs at h with hid
    · obtain ⟨pre, post, rfl, hpre⟩ := ih h
      exact ⟨pre, post ++ [e], by simp, hpre⟩
    · rcases List.mem_append.1 h with h | h
      · obtain ⟨pre, post, rfl, hpre⟩ := ih h
        exact ⟨pre, post ++ [e], by simp, hpre⟩
      · obtain rfl := List.mem_singleton.1 h
        refine ⟨events, [], rfl, fun hm => hid ?_⟩
        exact (mem_delivered_ids events _).2 hm

section

variable {pre post : List PortfolioEvent} {x : PortfolioEvent}

variable (hpre : x.eventId ∉ pre.map fun e => e.eventId)
include hpre

theorem filter_ids_of_notMem : (pre.filter fun e => e.eventId ≠ x.eventId) = pre := by
  refine List.filter_eq_self.2 fun e he => decide_eq_true fun heq => hpre ?_
  exact List.mem_map.2 ⟨e, he, heq⟩

theorem withoutEvent_split : withoutEvent (pre ++ x :: post) x = pre ++ post.filter fun e => e.eventId ≠ x.eventId := by
  unfold withoutEvent
  rw [List.filter_append, filter_ids_of_notMem hpre, List.filter_cons_of_neg (by simp)]

theorem withFill_split (entry : PortfolioFillEntry) : withFill (pre ++ x :: post) x entry =
      pre ++ x.withPayload (.fill entry) :: withFill post x entry := by
  unfold withFill
  rw [List.map_append, List.map_cons, if_pos rfl]
  congr 1
  refine (List.map_congr_left fun e he => ?_).trans (List.map_id _)
  exact if_neg fun heq => hpre (List.mem_map.2 ⟨e, he, heq⟩)

omit hpre

theorem filter_withFill (events : List PortfolioEvent) (entry : PortfolioFillEntry) :
    ((withFill events x entry).filter fun e => e.eventId ≠ x.eventId) =
      events.filter fun e => e.eventId ≠ x.eventId := by
  induction events with
  | nil => rfl
  | cons e events ih =>
    unfold withFill at ih ⊢
    by_cases hid : e.eventId = x.eventId
    · rw [List.map_cons, if_pos hid, List.filter_cons_of_neg (by simp [EventEnvelope.withPayload, hid]),
        List.filter_cons_of_neg (by simpa using hid), ih]
    · rw [List.map_cons, if_neg hid, List.filter_cons_of_pos (by simpa using hid),
        List.filter_cons_of_pos (by simpa using hid), ih]

end

/-! ## The fork -/

theorem retain_normal {ts : List Ticket} {event : PortfolioEvent} {entry : PortfolioFillEntry}
    (hp : event.payload = .fill entry) (hnormal : entry.fill.status.IsNormal) :
    retain ts event = ⟨entry, event, event.sequence⟩ :: ts := by
  unfold retain retainFill
  rw [hp]
  rcases hnormal with h | h <;> simp only [h]

structure Fork (codec : Codec) (events : List PortfolioEvent) (z : Ticket) (s : PortfolioReplayState)
    (pre post : List PortfolioEvent) (s₀ s₁ : PortfolioReplayState) (base : PositionKey → LotBase) :
    Prop where
  split : events = pre ++ z.sourceEvent :: post
  first : z.sourceEvent.eventId ∉ pre.map fun e => e.eventId
  before : reducePortfolioEvents codec pre = .ok s₀
  run : RunInv (delivered pre) base s₀
  fresh : Fresh codec z.sourceEvent s₀ s₁
  after : post.foldlM (applyPortfolioEvent codec) s₁ = .ok s
  payload : z.sourceEvent.payload = .fill z.entry
  place : z.logicalSequence = z.sourceEvent.sequence

theorem applyPortfolioEvent_fresh {events : List PortfolioEvent} {s s' : PortfolioReplayState}
    {event : PortfolioEvent} (h : reducePortfolioEvents codec events = .ok s)
    (hid : event.eventId ∉ events.map (·.eventId))
    (hstep : applyPortfolioEvent codec s event = .ok s') : Fresh codec event s s' := by
  rcases applyPortfolioEvent_cases hstep with ⟨hknown, -⟩ | hfresh
  · rw [(appliedDigest_eq_none_iff _ _).2 ?_] at hknown
    · cases hknown
    · rwa [mem_appliedIds h, mem_delivered_ids]
  · exact hfresh

theorem fork_of_active {events : List PortfolioEvent} {s : PortfolioReplayState} {z : Ticket}
    (h : reducePortfolioEvents codec events = .ok s) (hinc : Increasing events) (hz : z ∈ tickets s)
    (hnormal : z.entry.fill.status.IsNormal) : ∃ pre post s₀ s₁ base, Fork codec events z s pre post s₀ s₁ base := by
  obtain ⟨_, hrun⟩ := reduce_inv h hinc
  have hsound := hrun.sound z hz
  obtain ⟨pre, post, rfl, hpre⟩ := delivered_split hsound.source
  have hne : pre ≠ [] := by
    rintro rfl
    obtain ⟨s₀, entry, -, hopen, -⟩ := reduce_opening h
    have := hopen.payload
    rw [hsound.payload] at this
    cases this
  rw [reduce_append hne, bind_ok_iff] at h
  obtain ⟨s₀, h₀, h⟩ := h
  rw [List.foldlM_cons, bind_ok_iff] at h
  obtain ⟨s₁, h₁, h⟩ := h
  have hinc₀ : Increasing pre :=
    List.Pairwise.sublist (List.Sublist.map _ (List.sublist_append_left _ _)) hinc
  obtain ⟨base, hbase⟩ := reduce_inv h₀ hinc₀
  exact ⟨pre, post, s₀, s₁, base, rfl, hpre, h₀, hbase, applyPortfolioEvent_fresh h₀ hpre h₁, h,
    hsound.payload, hsound.normal hnormal⟩

section Fork

variable {events pre post : List PortfolioEvent} {z : Ticket} {s s₀ s₁ : PortfolioReplayState}
  {base : PositionKey → LotBase}

variable (h : Fork codec events z s pre post s₀ s₁ base)
include h

theorem Fork.ne_nil : pre ≠ [] := by
  rintro rfl
  cases h.before

theorem Fork.tickets (hnormal : z.entry.fill.status.IsNormal) :
    (tickets s₁).Perm (z :: PortfolioReducer.tickets s₀) := by
  have ht := h.fresh.step.tickets
  rw [retain_normal h.payload hnormal, ← h.place] at ht
  exact ht

theorem Fork.increasing (hinc : Increasing events) :
    Increasing (delivered pre ++ z.sourceEvent :: post.filter fun e => e.eventId ≠ z.sourceEvent.eventId) := by
  rw [h.split] at hinc
  refine List.Pairwise.sublist (List.Sublist.map _ ?_) hinc
  exact (delivered_sublist pre).append (List.filter_sublist.cons_cons _)

theorem Fork.rest : (post.filter fun e => e.eventId ≠ z.sourceEvent.eventId).foldlM (applyPortfolioEvent codec) s₁ =
      .ok s := by
  refine skip_known h.after ?_
  rw [h.fresh.appliedDigest, if_pos rfl]
  simp

omit h

variable {entry : PortfolioFillEntry}

theorem net_of_fill {s s' : PortfolioReplayState} {event : PortfolioEvent}
    (h : Fresh codec event s s') (hs : Linked s) (hp : event.payload = .fill entry) : net s' = net s := by
  rw [h.step.net hs (by rw [hp]; rfl), hp, net_add_of_fill]

variable {t : PortfolioReplayState}

variable (h : Fork codec events z s pre post s₀ s₁ base) (hinc : Increasing events) (hnormal : z.entry.fill.status.IsNormal)
include h hinc hnormal

theorem Fork.deleted (hz : z ∈ PortfolioReducer.tickets s)
    (ht : reducePortfolioEvents codec (withoutEvent events z.sourceEvent) = .ok t) :
    ∃ all all', Diverged z [] all all' s t := by
  have hincreasing := h.increasing hinc
  obtain ⟨base', hrun, hbase⟩ := h.run.step hincreasing.upTo h.fresh
  rw [hbase (by rw [h.payload]; rfl)] at hrun
  rw [h.split, withoutEvent_split h.first, reduce_append h.ne_nil, h.before, ok_bind] at ht
  have hstart : Diverged z [] (delivered pre ++ [z.sourceEvent]) (delivered pre) s₁ s₀ := by
    refine ⟨?_, fun id hid => ?_, ⟨PortfolioReducer.tickets s₀, h.tickets hnormal, .refl _⟩, ?_, base, hrun, h.run⟩
    · rw [h.fresh.appliedDigest, if_pos rfl]
      simp
    · rw [h.fresh.appliedDigest, if_neg hid.symm]
    · exact net_of_fill h.fresh h.run.inv.linked h.payload
  refine hstart.run_all (fun e he => by simpa using (List.mem_filter.1 he).2) h.rest ht hz ?_
    hincreasing.skip
  rw [← List.append_cons]
  exact hincreasing

theorem Fork.replaced (hz : z ∈ PortfolioReducer.tickets s) (hentry : entry.fill.status.IsNormal)
    (ht : reducePortfolioEvents codec (withFill events z.sourceEvent entry) = .ok t) : ∃ all all', Diverged z
      [⟨entry, z.sourceEvent.withPayload (.fill entry), z.sourceEvent.sequence⟩] all all' s t := by
  have hincreasing := h.increasing hinc
  obtain ⟨base', hrun, hbase⟩ := h.run.step hincreasing.upTo h.fresh
  rw [hbase (by rw [h.payload]; rfl)] at hrun
  rw [h.split, withFill_split h.first, reduce_append h.ne_nil, h.before, ok_bind, List.foldlM_cons, bind_ok_iff] at ht
  obtain ⟨t₁, ht₁, ht⟩ := ht
  have hfresh : Fresh codec (z.sourceEvent.withPayload (.fill entry)) s₀ t₁ :=
    applyPortfolioEvent_fresh h.before h.first ht₁
  have hincreasing' : Increasing (delivered pre ++ z.sourceEvent.withPayload (.fill entry) ::
      post.filter fun e => e.eventId ≠ z.sourceEvent.eventId) := by
    unfold Increasing at hincreasing ⊢
    rw [List.map_append, List.map_cons] at hincreasing ⊢
    exact hincreasing
  obtain ⟨base'', hrun', hbase'⟩ := h.run.step hincreasing'.upTo hfresh
  rw [hbase' rfl] at hrun'
  have hstart : Diverged z [⟨entry, z.sourceEvent.withPayload (.fill entry), z.sourceEvent.sequence⟩]
      (delivered pre ++ [z.sourceEvent])
      (delivered pre ++ [z.sourceEvent.withPayload (.fill entry)]) s₁ t₁ := by
    refine ⟨?_, fun id hid => ?_, ⟨PortfolioReducer.tickets s₀, h.tickets hnormal, ?_⟩, ?_, base, hrun, hrun'⟩
    · rw [h.fresh.appliedDigest, if_pos rfl]
      simp
    · rw [h.fresh.appliedDigest, hfresh.appliedDigest, if_neg hid.symm]
      exact (if_neg hid.symm).symm
    · have htickets := hfresh.step.tickets
      rw [retain_normal rfl hentry] at htickets
      exact htickets
    · rw [net_of_fill h.fresh h.run.inv.linked h.payload, net_of_fill hfresh h.run.inv.linked rfl]
  have hrest : (post.filter fun e => e.eventId ≠ z.sourceEvent.eventId).foldlM
      (applyPortfolioEvent codec) t₁ = .ok t := by
    rw [← filter_withFill post entry]
    refine skip_known ht ?_
    rw [hfresh.appliedDigest]
    exact ne_of_eq_of_ne (if_pos rfl) (by simp)
  refine hstart.run_all (fun e he => by simpa using (List.mem_filter.1 he).2) h.rest hrest hz ?_ ?_
  · rw [← List.append_cons]
    exact hincreasing
  · rw [← List.append_cons]
    exact hincreasing'

end Fork

/-! ## What a bust or a correction leaves -/

variable {z : Ticket} {rest : List Ticket} (hn : ((z :: rest).map Ticket.executionId).Nodup)
include hn

theorem withoutTicket_cons : withoutTicket (z :: rest) z.executionId = rest := by
  unfold withoutTicket
  rw [List.filter_cons_of_neg (by simp)]
  refine List.filter_eq_self.2 fun y hy => decide_eq_true fun heq => ?_
  rw [List.map_cons, List.nodup_cons] at hn
  exact hn.1 (heq ▸ List.mem_map_of_mem hy)

variable {event : PortfolioEvent} {entry : PortfolioFillEntry} (hp : event.payload = .fill entry)
include hp

theorem retain_bust (hstatus : entry.fill.status = .bust) (href : entry.fill.bustOfExecutionId = some z.executionId) :
    retain (z :: rest) event = rest := by
  unfold retain retainFill
  simp only [hp, hstatus, href]
  exact withoutTicket_cons hn

theorem retain_correction (hstatus : entry.fill.status = .correction)
    (href : entry.fill.correctionOfExecutionId = some z.executionId) :
    retain (z :: rest) event = ⟨entry, event, z.logicalSequence⟩ :: rest := by
  have hlookup : lookupBy Ticket.executionId (z :: rest) z.executionId = some z :=
    (lookupBy_eq_some_iff hn).2 ⟨List.mem_cons_self, rfl⟩
  unfold retain retainFill
  simp only [hp, hstatus, href, hlookup, Option.toList_some, List.map_singleton, List.singleton_append,
    withoutTicket_cons hn]

omit hp

omit hn

section

variable {z : Ticket} {ys : List Ticket} {done done' : List PortfolioEvent}
  {s s' t : PortfolioReplayState} {event : PortfolioEvent} {entry : PortfolioFillEntry}

theorem Diverged.sameAmounts (h : Diverged z ys done done' s t) (hfresh : Fresh codec event s s')
    (hp : event.payload = .fill entry) (hc : consumed event.payload ≠ none)
    (hterms : ∀ rest, ((z :: rest).map Ticket.executionId).Nodup →
      ((retain (z :: rest) event).map Ticket.terms).Perm ((ys ++ rest).map Ticket.terms)) : SameAmounts s' t := by
  obtain ⟨base, hrun, hrun'⟩ := h.run
  obtain ⟨rest, hrest, hrest'⟩ := h.tickets
  have hinv := hfresh.step.inv _ base hrun.inv (fun hnone => absurd hnone hc) (by rw [hp]; rfl)
  refine sameAmounts_of_terms hinv hrun'.inv ?_ ?_
  · have hn := (hrest.map Ticket.executionId).nodup_iff.1 (tickets_nodup s)
    refine ((hfresh.step.tickets.trans (retain_of_perm hrest (tickets_nodup s))).map _).trans ?_
    exact (hterms rest hn).trans (hrest'.map _).symm
  · rw [net_of_fill hfresh hrun.inv.linked hp, h.net]

end

/-! ## The result -/

/-- A bust of an effect that passes the checks on its envelope, scope and identity. -/
structure BustOf (s : PortfolioReplayState) (effect : PortfolioExecutionEffect) (bust : PortfolioEvent)
    (entry : PortfolioFillEntry) : Prop where
  payload : bust.payload = .fill entry
  status : entry.fill.status = .bust
  reference : entry.fill.bustOfExecutionId = some effect.executionId
  accountId : entry.accountId = s.snapshot.accountId ∧ entry.accountId = effect.accountId
  strategyId : entry.strategyId = effect.strategyId
  stream : bust.streamId ∈ s.cursor.map PortfolioStreamCursor.streamId
  event : bust.eventId ∉ s.appliedEvents.map PortfolioAppliedEvent.eventId
  identity : entry.fill.executionId ∉ s.executionIdentities.map PortfolioBusinessIdentity.identityId

/-- The event corrects the execution. -/
structure CorrectionOf (s : PortfolioReplayState) (effect : PortfolioExecutionEffect)
    (correction : PortfolioEvent) (entry : PortfolioFillEntry) : Prop where
  payload : correction.payload = .fill entry
  status : entry.fill.status = .correction
  reference : entry.fill.correctionOfExecutionId = some effect.executionId
  event : correction.eventId ∉ s.appliedEvents.map PortfolioAppliedEvent.eventId

section Result

variable {s t : PortfolioReplayState} {effect : PortfolioExecutionEffect} {bust : PortfolioEvent}
  {entry : PortfolioFillEntry} {z : Ticket} {done done' : List PortfolioEvent}

theorem bust_accepted (codec : Codec) (h : Diverged (ticket effect) [] done done' s t) (he : effect ∈ s.activeEffects)
    (hbust : BustOf s effect bust entry)
    (hfits : QuantityFits effect.quantityBefore.value effect.fill.quantity.precision) :
    ∃ s', applyPortfolioEvent codec s bust = .ok s' := by
  obtain ⟨base, hrun, hrun'⟩ := h.run
  obtain ⟨rest, hrest, hrest'⟩ := h.tickets
  have hstatus : entry.fill.status ≠ .correction := by
    rw [hbust.status]
    decide
  obtain ⟨u, hu⟩ := @rebase_accepted _ _ base s t effect bust entry hrun.inv hrun'.inv he hstatus
    (hrest.trans (hrest'.symm.cons _)) hfits
  have hbooks := rebase_books hu
  obtain ⟨s', hs'⟩ := nextState_accepted codec u hbust.payload (by
    rw [hbooks.executionIdentities]
    exact hbust.identity)
  obtain ⟨s'', hs''⟩ := nextState_accepted codec s hbust.payload hbust.identity
  have hfind : findEffect s.activeEffects effect.executionId = some effect :=
    (lookupBy_eq_some_iff s.facts.nodup_executionIds).2 ⟨he, rfl⟩
  refine ⟨s', ?_⟩
  unfold applyPortfolioEvent
  rw [requireDigest_eq, ok_bind]
  rw [(appliedDigest_eq_none_iff _ _).2 hbust.event]
  simp only [bind_ok_iff, require_ok_iff, exists_const]
  unfold nextState at hs''
  rw [bind_ok_iff] at hs''
  obtain ⟨ids, hids, -⟩ := hs''
  refine ⟨hbust.stream, by rw [hbust.payload]; rfl, by rw [hbust.payload]; exact hbust.accountId.1,
    ids, hids, ?_⟩
  unfold applyPayload applyFill
  simp only [hbust.payload, hbust.status, hbust.reference]
  unfold consumeEffect
  simp only [hfind, bind_ok_iff, require_ok_iff, exists_const]
  exact ⟨⟨hbust.accountId.2.symm, hbust.strategyId.symm⟩, u, hu, hs'⟩

/-- A bust leads to the history without the execution, and a correction to the one with the corrected fill; all
that can refuse the bust is a limit below the number of digits that it needs. -/
theorem bust_and_correction_rewrite_history [limit : DigitLimit] (codec : Codec) {events : List PortfolioEvent}
    (h : reducePortfolioEvents codec events = .ok s) (hinc : Increasing events)
    (he : effect ∈ s.activeEffects) (hnormal : effect.fill.status.IsNormal) :
    (∀ bust entry t, BustOf s effect bust entry →
      QuantityFits effect.quantityBefore.value effect.fill.quantity.precision →
      reducePortfolioEvents codec (withoutEvent events effect.sourceEvent) = .ok t →
      ∃ s' digits, SameAmounts s' t ∧ ∀ (limit' : DigitLimit) (u : PortfolioReplayState),
        reducePortfolioEvents codec (events ++ [bust]) = .ok u ↔ limit'.Covers digits ∧ u = s') ∧
    (∀ correction entry replacement s' t, CorrectionOf s effect correction entry →
      replacement.fill.status.IsNormal → SameEconomics entry.fill replacement.fill →
      replacement.strategyId = entry.strategyId →
      reducePortfolioEvents codec (events ++ [correction]) = .ok s' →
      reducePortfolioEvents codec (withFill events effect.sourceEvent replacement) = .ok t →
      SameAmounts s' t) := by
  have hlift {events : List PortfolioEvent} {s : PortfolioReplayState}
      (h : reducePortfolioEvents codec events = .ok s) : @reducePortfolioEvents codec .lifted events = .ok s :=
    (metered_reducePortfolioEvents codec events).lift limit s h
  replace h := hlift h
  have hz : ticket effect ∈ tickets s := List.mem_map_of_mem he
  have hnormal' : (ticket effect).entry.fill.status.IsNormal := by
    change effect.entry.fill.status.IsNormal
    rw [effect.facts.entryFill]
    exact hnormal
  have hne : events ≠ [] := by
    rintro rfl
    cases h
  have happend (event : PortfolioEvent) : @reducePortfolioEvents codec .lifted (events ++ [event]) =
      @applyPortfolioEvent codec .lifted s event := by
    rw [reduce_append hne, h, ok_bind, List.foldlM_cons]
    cases @applyPortfolioEvent codec .lifted s event <;> rfl
  have hfresh {event : PortfolioEvent} {s' : PortfolioReplayState}
      (hid : event.eventId ∉ s.appliedEvents.map PortfolioAppliedEvent.eventId)
      (hs' : @applyPortfolioEvent codec .lifted s event = .ok s') : Fresh codec event s s' := by
    rw [mem_appliedIds h, mem_delivered_ids] at hid
    exact applyPortfolioEvent_fresh h hid hs'
  obtain ⟨pre, post, s₀, s₁, base, hfork⟩ := fork_of_active h hinc hz hnormal'
  constructor
  · intro bust entry t hbust hfits ht
    obtain ⟨all, all', hdiverged⟩ := hfork.deleted hinc hnormal' hz (hlift ht)
    obtain ⟨s', hs'⟩ := bust_accepted codec hdiverged he hbust hfits
    obtain ⟨digits, hdigits⟩ := (metered_reducePortfolioEvents codec (events ++ [bust])).needs s'
      ((happend bust).trans hs')
    refine ⟨s', digits, hdiverged.sameAmounts (hfresh hbust.event hs') hbust.payload ?_ fun rest hn => ?_, hdigits⟩
    · simp [consumed, hbust.payload, hbust.status, hbust.reference]
    · rw [retain_bust hn hbust.payload hbust.status
        (by rw [hbust.reference, ticket_executionId])]
      exact .refl _
  · intro correction entry replacement s' t hcorrection hreplacement hsame hstrategy hs' ht
    replace hs' := (happend correction).symm.trans (hlift hs')
    obtain ⟨all, all', hdiverged⟩ := hfork.replaced hinc hnormal' hz hreplacement (hlift ht)
    refine hdiverged.sameAmounts (hfresh hcorrection.event hs') hcorrection.payload ?_ fun rest hn => ?_
    · simp [consumed, hcorrection.payload, hcorrection.status, hcorrection.reference]
    · rw [retain_correction hn hcorrection.payload hcorrection.status
        (by rw [hcorrection.reference, ticket_executionId])]
      obtain ⟨hd, hside, hquantity, hprice, -, hcommission⟩ := hsame
      have hterms : (⟨entry, correction, (ticket effect).logicalSequence⟩ : Ticket).terms =
          Ticket.terms ⟨replacement, effect.sourceEvent.withPayload (.fill replacement),
            effect.sourceEvent.sequence⟩ := by
        have hplace : (ticket effect).logicalSequence = effect.sourceEvent.sequence := hfork.place
        simp only [Ticket.terms, entryKey, hd, hside, hquantity, hprice, hcommission, hstrategy, hplace]
      rw [List.map_cons, hterms]
      exact .refl _

end Result

/-! ## Samples -/

def sampleBust (executionId reference : Uuid) (h : reference ≠ executionId) : PortfolioFillEntry :=
  ⟨sampleCommon, "alpha", ⟨sampleReport sampleDefinition tenShares noShares executionId .buy .bust none
    (some reference), sampleReport_valid (by decide +kernel) ⟨rfl, rfl, rfl⟩
    ⟨nofun, fun heq => h (Option.some.inj heq)⟩⟩⟩

def sampleCorrection (executionId reference : Uuid) (h : reference ≠ executionId) : PortfolioFillEntry :=
  ⟨sampleCommon, "alpha", ⟨sampleReport sampleDefinition tenShares noShares executionId .sell .correction
    (some reference) none, sampleReport_valid (by decide +kernel) ⟨rfl, rfl, rfl⟩
    ⟨fun heq => h (Option.some.inj heq), nofun⟩⟩⟩

def sampleSale (executionId : Uuid) : PortfolioFillEntry :=
  ⟨sampleCommon, "alpha", ⟨sampleReport sampleDefinition tenShares noShares executionId .sell .filled none
    none, sampleReport_valid (by decide +kernel) ⟨rfl, rfl, rfl⟩ ⟨nofun, nofun⟩⟩⟩

def samplePurchase : PortfolioEvent := sampleEvent 1 (sampleFill (sampleBuy 11))

def samplePurchaseBust : PortfolioEvent := sampleEvent 3 (.fill (sampleBust 12 11 (by decide)))

def samplePurchaseCorrection : PortfolioEvent := sampleEvent 3 (.fill (sampleCorrection 12 11 (by decide)))

theorem sampleHistory_state : ∃ s, reduceByDefault (sampleCodec sampleHistory) sampleHistory = .ok s ∧
    ∃ e ∈ s.activeEffects, e.sourceEvent = samplePurchase ∧
      e.fill.status.IsNormal ∧ e.executionId = 11 ∧ e.accountId = "account" ∧ e.strategyId = "alpha" ∧
      QuantityFits e.quantityBefore.value e.fill.quantity.precision ∧ s.snapshot.accountId = "account" ∧
      7 ∈ s.cursor.map PortfolioStreamCursor.streamId ∧
      4 ∉ s.appliedEvents.map PortfolioAppliedEvent.eventId ∧
      12 ∉ s.executionIdentities.map PortfolioBusinessIdentity.identityId :=
  exists_ok_of_any (by decide +kernel)

theorem sample_bust_and_correction : ∃ s t s' t',
    reduceByDefault (sampleCodec sampleHistory) (sampleHistory ++ [samplePurchaseBust]) = .ok s ∧
    reduceByDefault (sampleCodec sampleHistory)
      (withoutEvent sampleHistory samplePurchase) = .ok t ∧ SameAmounts s t ∧
    reduceByDefault (sampleCodec sampleHistory)
      (sampleHistory ++ [samplePurchaseCorrection]) = .ok s' ∧
    reduceByDefault (sampleCodec sampleHistory)
      (withFill sampleHistory samplePurchase (sampleSale 11)) = .ok t' ∧ SameAmounts s' t' := by
  obtain ⟨u, hu, e, he, hsource, hnormal, hid, haccount, hstrategy, hfits, hsnapshot, hstream, hevent,
    hidentity⟩ := sampleHistory_state
  obtain ⟨t, ht⟩ := (isOk_iff (x := reduceByDefault (sampleCodec sampleHistory)
    (withoutEvent sampleHistory samplePurchase))).1 (by decide +kernel)
  obtain ⟨s', hs'⟩ := (isOk_iff (x := reduceByDefault (sampleCodec sampleHistory)
    (sampleHistory ++ [samplePurchaseCorrection]))).1 (by decide +kernel)
  obtain ⟨t', ht'⟩ := (isOk_iff (x := reduceByDefault (sampleCodec sampleHistory)
    (withFill sampleHistory samplePurchase (sampleSale 11)))).1 (by decide +kernel)
  obtain ⟨hbust, hcorrection⟩ := @bust_and_correction_rewrite_history _ _ .standard (sampleCodec sampleHistory)
    sampleHistory hu (by decide) he hnormal
  rw [hsource] at hbust hcorrection
  obtain ⟨s, hs⟩ := (isOk_iff (x := reduceByDefault (sampleCodec sampleHistory)
    (sampleHistory ++ [samplePurchaseBust]))).1 (by decide +kernel)
  obtain ⟨_, digits, hst, hdigits⟩ := hbust samplePurchaseBust (sampleBust 12 11 (by decide)) t
    ⟨rfl, rfl, by rw [hid]; rfl, ⟨hsnapshot.symm, haccount.symm⟩, hstrategy.symm, hstream, hevent,
      hidentity⟩ hfits ht
  obtain ⟨-, rfl⟩ := (hdigits .standard s).1 hs
  refine ⟨s, t, s', t', hs, ht, hst, hs', ht', ?_⟩
  exact hcorrection samplePurchaseCorrection (sampleCorrection 12 11 (by decide)) (sampleSale 11) s' t'
    ⟨rfl, rfl, by rw [hid]; rfl, hevent⟩ (.inr rfl) ⟨rfl, rfl, rfl, rfl, rfl, rfl⟩ rfl hs' ht'

/-! ### Three busts that are no deletions

The bust of a correction also takes the corrected execution back. A reconciliation can set a position
to a quantity with too many digits for the size precision of its instrument, so that the next sale can be
booked but not taken back. And on the way back a balance can be longer than in any state of the history. -/

def correctionEvent : PortfolioEvent := sampleEvent 2 (.fill (sampleCorrection 12 11 (by decide)))

def correctionBustEntry : PortfolioFillEntry := sampleBust 13 12 (by decide)

def correctedHistory : List PortfolioEvent :=
  [sampleEvent 0 (.opening sampleOpening), samplePurchase, correctionEvent]

def fineDefinition : InstrumentDefinition where
  toInstrumentCatalog := { sampleDefinition.toInstrumentCatalog with
    sizeIncrement := ⟨Decimal.scaled 1 1, 1, by decide +kernel, by decide +kernel⟩
    minimumQuantity := ⟨Decimal.scaled 1 1, 1, by decide +kernel, by decide +kernel⟩
    maximumQuantity := ⟨Decimal.scaled (9 * 10 ^ 126) 0, 1, by decide +kernel, by decide +kernel⟩ }
  valid := ⟨rfl, rfl, rfl, rfl, ⟨2, by decide +kernel⟩, by decide +kernel, by decide +kernel,
    by decide +kernel, by decide +kernel, by decide +kernel, by decide +kernel, ⟨rfl, rfl⟩,
    by decide +kernel, by decide +kernel, by decide +kernel⟩

def noTenths : OrderQuantity := ⟨0, 1, by decide +kernel, zero_nonnegative⟩

def oneTenth : OrderQuantity := ⟨Decimal.scaled 1 1, 1, by decide +kernel, by decide +kernel⟩

def manyShares : OrderQuantity :=
  ⟨Decimal.scaled (8 * 10 ^ 126) 0, 1, by decide +kernel, by decide +kernel⟩

def finePurchase : PortfolioFillEntry :=
  ⟨sampleCommon, "alpha", ⟨sampleReport fineDefinition oneTenth noTenths 11 .buy .filled none none,
    sampleReport_valid (by decide +kernel) ⟨rfl, rfl, rfl⟩ ⟨nofun, nofun⟩⟩⟩

def fineSale : PortfolioFillEntry :=
  ⟨sampleCommon, "alpha", ⟨sampleReport fineDefinition manyShares noTenths 12 .sell .filled none none,
    sampleReport_valid (by decide +kernel) ⟨rfl, rfl, rfl⟩ ⟨nofun, nofun⟩⟩⟩

def fineBustEntry : PortfolioFillEntry :=
  ⟨sampleCommon, "alpha", ⟨sampleReport fineDefinition manyShares noTenths 13 .sell .bust none (some 12),
    sampleReport_valid (by decide +kernel) ⟨rfl, rfl, rfl⟩ ⟨nofun, by decide⟩⟩⟩

/-- The account as reconciled: a position of 128 digits, declared without decimal places. -/
def reconciledAccount : AccountPortfolioSnapshot where
  snapshotId := 1
  accountId := "account"
  reportingCurrency := .USD
  balances := sampleOpening.balances
  positions := [⟨⟨"account", "alpha", fineDefinition.instrumentId, .USD,
    ⟨Decimal.scaled (15 * 10 ^ 126) 0, 0, by decide +kernel⟩, some ⟨tenDollars, 0, "mark"⟩,
    some tenDollars, usd 0, usd 0, usd 0, usd 0, 0, "v1"⟩, by decide +kernel⟩]
  totalExposure := ⟨⟨.USD, usd 0, usd 0, usd 0⟩, by decide +kernel⟩
  instrumentExposures := []
  strategyExposures := []
  venueExposures := []
  observedAt := 0
  schemaVersion := "v1"
  valid := by decide +kernel

def fineSaleEvent : PortfolioEvent := sampleEvent 3 (.fill fineSale)

def fineHistory : List PortfolioEvent :=
  [sampleEvent 0 (.opening sampleOpening), sampleEvent 1 (.fill finePurchase),
    sampleEvent 2 (.reconciliation ⟨sampleCommon, 1, .venue, "1", reconciledAccount, rfl, le_rfl⟩),
    fineSaleEvent]

instance (s : PortfolioReplayState) (effect : PortfolioExecutionEffect) (bust : PortfolioEvent)
    (entry : PortfolioFillEntry) : Decidable (BustOf s effect bust entry) :=
  decidable_of_iff (bust.payload = .fill entry ∧ entry.fill.status = .bust ∧
    entry.fill.bustOfExecutionId = some effect.executionId ∧
    (entry.accountId = s.snapshot.accountId ∧ entry.accountId = effect.accountId) ∧
    entry.strategyId = effect.strategyId ∧ bust.streamId ∈ s.cursor.map PortfolioStreamCursor.streamId ∧
    bust.eventId ∉ s.appliedEvents.map PortfolioAppliedEvent.eventId ∧
    entry.fill.executionId ∉ s.executionIdentities.map PortfolioBusinessIdentity.identityId)
    ⟨fun ⟨h₁, h₂, h₃, h₄, h₅, h₆, h₇, h₈⟩ => ⟨h₁, h₂, h₃, h₄, h₅, h₆, h₇, h₈⟩,
      fun ⟨h₁, h₂, h₃, h₄, h₅, h₆, h₇, h₈⟩ => ⟨h₁, h₂, h₃, h₄, h₅, h₆, h₇, h₈⟩⟩

theorem correctedHistory_state : ∃ u, reduceByDefault (sampleCodec correctedHistory) correctedHistory = .ok u ∧
      ∃ e ∈ u.activeEffects, e.sourceEvent = correctionEvent ∧
        BustOf u e (sampleEvent 3 (.fill correctionBustEntry)) correctionBustEntry :=
  exists_ok_of_any (by decide +kernel)

theorem fineHistory_state : ∃ u, reduceByDefault (sampleCodec fineHistory) fineHistory = .ok u ∧
      ∃ e ∈ u.activeEffects, e.sourceEvent = fineSaleEvent ∧ e.fill.status.IsNormal ∧
        BustOf u e (sampleEvent 4 (.fill fineBustEntry)) fineBustEntry :=
  exists_ok_of_any (by decide +kernel)

-- irreducible, so that only the kernel computes the amounts
@[irreducible] def longMoney (amount : ℤ) : Money := usd (amount * 10 ^ 4301)

def longBalance : AccountBalanceSnapshot :=
  ⟨⟨"account", .USD, longMoney 5, usd 0, usd 0, usd 0, usd 0, usd 0, usd 0, 0, "v1"⟩, by decide +kernel⟩

def longOpening : PortfolioOpeningEntry :=
  ⟨sampleCommon, .USD, [longBalance], "venue", "1", by simp, by simp [longBalance, sampleCommon],
    by simp [longBalance, sampleCommon]⟩

theorem FillReport.Valid.withCommission {report : FillReport} (h : report.Valid) {commission : Money}
    (hc : 0 ≤ commission.amount) : { report with commission := commission }.Valid :=
  ⟨h.reportSequence_pos, h.grid, h.quantity_pos, h.cumulative_pos, h.order_pos, h.order_bounds, h.cumulative_ge,
    h.order_eq, h.filled, h.prices, hc, h.references, h.noSelfReference⟩

def longBuy : PortfolioFillEntry :=
  ⟨sampleCommon, "alpha", ⟨{ (sampleBuy 12).toFillReport with commission := longMoney 9 },
    FillReport.Valid.withCommission (sampleBuy 12).valid (by decide +kernel)⟩⟩

def longHistory : List PortfolioEvent :=
  [sampleEvent 0 (.opening longOpening), samplePurchase, sampleEvent 2 (.fill longBuy),
    sampleEvent 3 (.funding ⟨sampleCommon, 14, none, none, longMoney 9, "venue", ⟨fun _ => rfl, fun _ => rfl⟩⟩)]

def longBustEntry : PortfolioFillEntry := sampleBust 13 11 (by decide)

theorem longHistory_state : ∃ u, reduceByDefault (sampleCodec longHistory) longHistory = .ok u ∧
      ∃ e ∈ u.activeEffects, e.sourceEvent = samplePurchase ∧ e.fill.status.IsNormal ∧
        BustOf u e (sampleEvent 4 (.fill longBustEntry)) longBustEntry ∧
        QuantityFits e.quantityBefore.value e.fill.quantity.precision :=
  exists_ok_of_any (by decide +kernel)

/-- The bust of a correction does not lead to the history without it, and a bust may be refused where that
history is accepted. -/
theorem bust_is_not_always_deletion :
    (∃ u, reduceByDefault (sampleCodec correctedHistory) correctedHistory = .ok u ∧
      ∃ e ∈ u.activeEffects, e.sourceEvent = correctionEvent ∧
        BustOf u e (sampleEvent 3 (.fill correctionBustEntry)) correctionBustEntry ∧
        ∃ s, reduceByDefault (sampleCodec correctedHistory)
          (correctedHistory ++ [sampleEvent 3 (.fill correctionBustEntry)]) = .ok s ∧
        ∃ t, reduceByDefault (sampleCodec correctedHistory)
          (withoutEvent correctedHistory correctionEvent) = .ok t ∧ ¬ SameAmounts s t) ∧
    (∃ u, reduceByDefault (sampleCodec fineHistory) fineHistory = .ok u ∧
      ∃ e ∈ u.activeEffects, e.sourceEvent = fineSaleEvent ∧ e.fill.status.IsNormal ∧
        BustOf u e (sampleEvent 4 (.fill fineBustEntry)) fineBustEntry ∧
        (∃ t, reduceByDefault (sampleCodec fineHistory)
          (withoutEvent fineHistory fineSaleEvent) = .ok t) ∧
        ∃ error, reduceByDefault (sampleCodec fineHistory)
          (fineHistory ++ [sampleEvent 4 (.fill fineBustEntry)]) = .error error) ∧
    ∃ u, reduceByDefault (sampleCodec longHistory) longHistory = .ok u ∧
      ∃ e ∈ u.activeEffects, e.sourceEvent = samplePurchase ∧ e.fill.status.IsNormal ∧
        BustOf u e (sampleEvent 4 (.fill longBustEntry)) longBustEntry ∧
        QuantityFits e.quantityBefore.value e.fill.quantity.precision ∧
        (∃ t, reduceByDefault (sampleCodec longHistory) (withoutEvent longHistory samplePurchase) = .ok t) ∧
        ∃ error, reduceByDefault (sampleCodec longHistory)
          (longHistory ++ [sampleEvent 4 (.fill longBustEntry)]) = .error error := by
  refine ⟨?_, ?_, ?_⟩
  · obtain ⟨u, hu, e, he, hsource, hbust⟩ := correctedHistory_state
    have hkey : ∃ s, reduceByDefault (sampleCodec correctedHistory)
        (correctedHistory ++ [sampleEvent 3 (.fill correctionBustEntry)]) = .ok s ∧
        positionQuantity s (positionKey "alpha" sampleDefinition.instrumentId.canonical) = 0 :=
      exists_ok_of_any (by decide +kernel)
    have hkey' : ∃ t, reduceByDefault (sampleCodec correctedHistory)
        (withoutEvent correctedHistory correctionEvent) = .ok t ∧
        positionQuantity t (positionKey "alpha" sampleDefinition.instrumentId.canonical) ≠ 0 :=
      exists_ok_of_any (by decide +kernel)
    obtain ⟨s, hs, hzero⟩ := hkey
    obtain ⟨t, ht, hne⟩ := hkey'
    refine ⟨u, hu, e, he, hsource, hbust, s, hs, t, ht, fun hsame => hne ?_⟩
    rw [← hsame.quantity, hzero]
  · obtain ⟨u, hu, e, he, hsource, hnormal, hbust⟩ := fineHistory_state
    exact ⟨u, hu, e, he, hsource, hnormal, hbust, isOk_iff.1 (by decide +kernel), isOk_eq_false_iff.1 (by decide +kernel)⟩
  · obtain ⟨u, hu, e, he, hsource, hnormal, hbust, hfits⟩ := longHistory_state
    exact ⟨u, hu, e, he, hsource, hnormal, hbust, hfits, isOk_iff.1 (by decide +kernel),
      isOk_eq_false_iff.1 (by decide +kernel)⟩

end TradingAgent.PortfolioReducer
