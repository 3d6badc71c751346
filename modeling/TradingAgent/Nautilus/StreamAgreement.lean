import Mathlib.Algebra.Order.BigOperators.Group.List
import TradingAgent.Lib.Pairs
import TradingAgent.Nautilus.PaperStop
import TradingAgent.Nautilus.ProjectedStream

/-! The passes on documents and on events accept the same streams, up to rounded sums. -/

namespace TradingAgent.Nautilus

open Outcome

/-! ## Documents and events -/

/-- The object holds the fields of the event. -/
def Represents (object : JsonObject) (event : P1Event) : Prop := object.members.Same event.document

variable {name : String} {value : Value}

theorem get?_document {event : P1Event} (h : (name, value) ∈ event.document) : event.document.get? name = some value :=
  (Dict.get?_eq_some_iff event.nodup_keys_document).2 h

section

variable {d : Document} {event : P1Event}

variable (h : d.Same event.document)
include h

theorem Document.Same.kind? : d.kind? = some event.body.kind := by
  rw [Document.kind?, read_kind, h, P1Body.text_kind]
  exact get?_document (by simp [P1Event.document])

theorem Document.Same.text {text : String} (hmem : (name, Value.str text) ∈ event.document) : d.text name = text := by
  simp [Document.text, h name, get?_document hmem, Value.str?]

theorem Document.Same.decimal {x : Decimal} (hmem : (name, decimalValue x) ∈ event.document) : d.decimal name = x :=
  decimal_of_get? ((h name).trans (get?_document hmem))

variable {body : P1Body} (hbody : event.body = body)
include hbody

theorem Document.Same.field (hmem : (name, value) ∈ body.fields := by simp [P1Body.fields]) :
    d.get? name = some value := by
  subst hbody
  exact (h name).trans (get?_document (List.mem_append_right _ hmem))

theorem Document.Same.textField {text : String} (hmem : (name, .str text) ∈ body.fields := by simp [P1Body.fields]) :
    d.text name = text := by
  simp [Document.text, h.field hbody hmem, Value.str?]

theorem Document.Same.decimalField {x : Decimal}
    (hmem : (name, decimalValue x) ∈ body.fields := by simp [P1Body.fields]) : d.decimal name = x :=
  decimal_of_get? (h.field hbody hmem)

omit h hbody

theorem runtimePayload_congr {e : Document} (h : d.Same e) : runtimePayload d = runtimePayload e := by
  have hread {α : Type} (name : String) (reader : Value → Option α) : d.read name reader = e.read name reader := by
    rw [Document.read, Document.read, h name]
  unfold runtimePayload
  rw [hread]
  simp only [h _]

end

theorem signalsValue_injective : Function.Injective signalsValue := by
  intro a b h
  have := Value.signals?_eq_some.2 h
  exact Option.some.inj ((Value.signals?_eq_some.2 rfl).symm.trans this)

theorem decimalValue_injective : Function.Injective decimalValue := by
  intro a b h
  have := Value.decimal?_eq_some.2 h
  exact Option.some.inj ((Value.decimal?_eq_some.2 rfl).symm.trans this)

theorem sideText_injective : Function.Injective sideText := by
  intro a b h
  cases a <;> cases b <;> first | rfl | exact absurd h (by decide)

/-! ## Both passes -/

theorem Identifier.text_inj {a b : Identifier} : a.text = b.text ↔ a = b :=
  ⟨Identifier.ext, congrArg Identifier.text⟩

/-- The documents by text have the same facts as the values by identifier. -/
structure Mirrors {ν ω : Type} (f : Document → ω) (g : ν → ω) (s : Dict String Document) (t : Dict Identifier ν) :
    Prop where
  get? : ∀ id : Identifier, (s.get? id.text).map f = (t.get? id).map g
  length_eq : s.length = t.length

namespace Mirrors

variable {ν ω : Type} {f : Document → ω} {g : ν → ω} {s : Dict String Document} {t : Dict Identifier ν}

theorem mem_keys (h : Mirrors f g s t) (id : Identifier) : id.text ∈ s.keys ↔ id ∈ t.keys := by
  have := congrArg Option.isSome (h.get? id)
  rw [Option.isSome_map, Option.isSome_map] at this
  rw [Dict.mem_keys_iff, Dict.mem_keys_iff, this]

theorem nil : Mirrors f g [] [] := ⟨fun _ => rfl, rfl⟩

variable {id : Identifier} {d : Document}

theorem set (h : Mirrors f g s t) {v : ν} (heq : f d = g v) : Mirrors f g (s.set id.text d) (t.set id v) where
  get? id' := by
    rw [Dict.get?_set, Dict.get?_set]
    by_cases hid : id = id'
    · rw [if_pos (congrArg _ hid), if_pos hid, Option.map_some, Option.map_some, heq]
    · rw [if_neg fun htext => hid (Identifier.text_inj.1 htext), if_neg hid]
      exact h.get? id'
  length_eq := by
    rw [Dict.length_set, Dict.length_set, h.length_eq]
    simp only [h.mem_keys id]

theorem exists_of_mem (h : Mirrors f g s t) (hd : s.get? id.text = some d) : ∃ v, t.get? id = some v ∧ f d = g v := by
  have := h.get? id
  rw [hd, Option.map_some] at this
  obtain ⟨v, hv, hg⟩ := Option.map_eq_some_iff.1 this.symm
  exact ⟨v, hv, hg.symm⟩

end Mirrors

def SameTexts (s : List String) (t : List Identifier) : Prop := ∀ id : Identifier, id.text ∈ s ↔ id ∈ t

theorem SameTexts.insert {s : List String} {t : List Identifier} (h : SameTexts s t) (id : Identifier) :
    SameTexts (s.insert id.text) (t.insert id) := by
  intro id'
  rw [List.mem_insert_iff, List.mem_insert_iff, h id', Identifier.text_inj]

/-- The state of the pass on documents follows the state of the pass on events. -/
structure Follows (s : ProjectedState) (t : StreamState) : Prop where
  targets : Mirrors (fun d => d.get? "source_signal_ids") (fun signals => some (signalsValue signals))
    s.targets t.acceptedTargets
  plans : Mirrors (fun d => d.get? "quantity") (fun quantity => some (decimalValue quantity))
    s.plans t.plannedTargets
  orders : Mirrors (fun d => (d.get? "side", d.get? "quantity"))
    (fun facts : OrderSide × Decimal × Identifier =>
      (some (Value.str (sideText facts.1)), some (decimalValue facts.2.1))) s.orders t.submittedOrderFacts
  submittedOrders : ∀ id, id ∈ t.submittedOrders ↔ id ∈ t.submittedOrderFacts.keys
  submittedOrders_length : t.submittedOrders.length = t.submittedOrderFacts.length
  facts_nodup : t.submittedOrderFacts.keys.Nodup
  submittedTargets : SameTexts s.submittedTargets t.submittedTargets
  nativeOrders : SameTexts s.nativeOrders t.nativeOrderIds
  fills : SameTexts s.fills t.nativeFillIds
  fills_length : s.fills.length = t.fillCount

def fillsOf (orderId : Identifier) (events : List P1Event) : ℚ :=
  (events.map fun event =>
    match event.fill? with
    | some fill => if fill.clientOrderId = orderId then (fill.quantity : ℚ) else 0
    | none => 0).sum

variable {fill : Fill}

theorem fillsOf_cons_fill (orderId : Identifier) {event : P1Event} (h : event.body = .fill fill)
    (events : List P1Event) : fillsOf orderId (event :: events) =
      (if fill.clientOrderId = orderId then (fill.quantity : ℚ) else 0) + fillsOf orderId events := by
  simp [fillsOf, P1Event.fill?, h]

theorem fillsOf_cons (orderId : Identifier) {event : P1Event} (h : event.fill? = none) (events : List P1Event) :
    fillsOf orderId (event :: events) = fillsOf orderId events := by
  simp [fillsOf, h]

theorem fillsOf_nonneg (orderId : Identifier) (events : List P1Event) : 0 ≤ fillsOf orderId events := by
  apply List.sum_nonneg
  intro x hx
  obtain ⟨event, -, rfl⟩ := List.mem_map.1 hx
  split
  · rename_i fill _
    split_ifs
    · exact fill.valid_amounts.1.le
    · exact le_rfl
  · exact le_rfl

/-- What is filled and what is still to be filled make up the quantity of every order, submitted or still to
be submitted. -/
structure Room (t : StreamState) (rest : List P1Event) : Prop where
  submitted : ∀ id facts, t.submittedOrderFacts.get? id = some facts →
    t.filled id + fillsOf id rest = facts.2.1
  coming : ∀ event ∈ rest, ∀ order, event.body = .orderSubmitted order →
    t.filled order.clientOrderId + fillsOf order.clientOrderId rest = order.quantity

variable {t' : StreamState}

theorem Room.skip {t : StreamState} {event : P1Event} {rest : List P1Event} (h : Room t (event :: rest))
    (hfill : event.fill? = none) (hfacts : t'.submittedOrderFacts = t.submittedOrderFacts)
    (hfilled : t'.filledQuantities = t.filledQuantities) : Room t' rest where
  submitted id facts hget := by
    rw [hfacts] at hget
    rw [StreamState.filled, hfilled, ← h.submitted id facts hget, fillsOf_cons id hfill]
    rfl
  coming event' hevent order horder := by
    rw [StreamState.filled, hfilled, ← h.coming event' (List.mem_cons_of_mem _ hevent) order horder,
      fillsOf_cons _ hfill]
    rfl

section Simulation

variable {s s' : ProjectedState} {t : StreamState} {d : Document} {event : P1Event} {rest : List P1Event}

variable (h : Follows s t)
include h

theorem Follows.withTime (text : String) (time : UtcDateTime) :
    Follows { s with previousTime := text } { t with previousSimulationTime := time } :=
  ⟨h.targets, h.plans, h.orders, h.submittedOrders, h.submittedOrders_length, h.facts_nodup, h.submittedTargets,
    h.nativeOrders, h.fills, h.fills_length⟩

variable (hd : d.Same event.document)
include hd

theorem Follows.acceptTarget {target : TargetAccepted}
    (hbody : event.body = .targetAccepted target) (hok : s.acceptTarget d = .ok s') :
    ∃ t', t.acceptTarget target = .ok t' ∧ Follows s' t' ∧ t'.submittedOrderFacts = t.submittedOrderFacts ∧
      t'.filledQuantities = t.filledQuantities ∧ t'.previousSimulationTime = t.previousSimulationTime := by
  have hid : d.text "target_id" = target.targetId.text := hd.textField hbody
  have hsignals : d.get? "source_signal_ids" = some (signalsValue target.sourceSignalIds) := hd.field hbody
  simp only [ProjectedState.acceptTarget, bind_ok_iff, require_ok_iff, exists_const, Except.ok.injEq, hid] at hok
  obtain ⟨hnew, rfl⟩ := hok
  rw [h.targets.mem_keys] at hnew
  refine ⟨{ t with acceptedTargets := t.acceptedTargets.set target.targetId target.sourceSignalIds }, ?_, ?_, rfl,
    rfl, rfl⟩
  · rw [StreamState.acceptTarget, require_of _ hnew]
    rfl
  · exact { h with targets := h.targets.set hsignals }

theorem Follows.planQuantity {plan : TargetQuantityPlanned}
    (hbody : event.body = .targetQuantityPlanned plan) (hok : s.planQuantity d = .ok s') :
    ∃ t', t.planQuantity plan = .ok t' ∧ Follows s' t' ∧ t'.submittedOrderFacts = t.submittedOrderFacts ∧
      t'.filledQuantities = t.filledQuantities ∧ t'.previousSimulationTime = t.previousSimulationTime := by
  have hid : d.text "target_id" = plan.targetId.text := hd.textField hbody
  have hquantity : d.get? "quantity" = some (decimalValue plan.quantity) := hd.field hbody
  simp only [ProjectedState.planQuantity, bind_ok_iff, require_ok_iff, exists_const, Except.ok.injEq, hid] at hok
  obtain ⟨⟨hknown, hnew⟩, rfl⟩ := hok
  rw [h.targets.mem_keys] at hknown
  rw [h.plans.mem_keys] at hnew
  refine ⟨{ t with plannedTargets := t.plannedTargets.set plan.targetId plan.quantity }, ?_, ?_, rfl, rfl, rfl⟩
  · rw [StreamState.planQuantity, require_of _ ⟨hknown, hnew⟩]
    rfl
  · exact { h with plans := h.plans.set hquantity }

theorem Follows.submitOrder {order : OrderSubmitted}
    (hbody : event.body = .orderSubmitted order) (hroom : Room t (event :: rest)) (hok : s.submitOrder d = .ok s') :
    ∃ t', t.submitOrder order = .ok t' ∧ Follows s' t' ∧ Room t' rest ∧
      t'.previousSimulationTime = t.previousSimulationTime := by
  have hclient : d.text "client_order_id" = order.clientOrderId.text := hd.textField hbody
  have hnative : d.text "native_order_id" = order.nativeOrderId.text := hd.textField hbody
  have htarget : d.text "target_id" = order.targetId.text := hd.textField hbody
  have hsignals : d.get? "source_signal_ids" = some (signalsValue order.sourceSignalIds) := hd.field hbody
  have hside : d.get? "side" = some (.str (sideText order.side)) := hd.field hbody
  have hquantity : d.get? "quantity" = some (decimalValue order.quantity) := hd.field hbody
  simp only [ProjectedState.submitOrder, bind_ok_iff, require_ok_iff, exists_const, Except.ok.injEq,
    ProjectedState.TargetBound, hclient, hnative, htarget, hsignals, hquantity] at hok
  obtain ⟨⟨⟨target, htargetDoc, hsame⟩, ⟨plan, hplanDoc, hplan⟩, -, hnewTarget, hnewOrder, hnewNative⟩, rfl⟩ := hok
  obtain ⟨signals, hsignals', heq⟩ := h.targets.exists_of_mem htargetDoc
  obtain ⟨quantity, hquantity', heq'⟩ := h.plans.exists_of_mem hplanDoc
  have hsignalsEq : signals = order.sourceSignalIds :=
    signalsValue_injective (Option.some.inj (heq.symm.trans hsame))
  have hquantityEq : quantity = order.quantity :=
    decimalValue_injective (Option.some.inj (heq'.symm.trans hplan))
  rw [hsignalsEq] at hsignals'
  rw [hquantityEq] at hquantity'
  have hfill : event.fill? = none := by simp [P1Event.fill?, hbody]
  have hplanned : order.targetId ∈ t.plannedTargets.keys := by
    rw [Dict.mem_keys_iff, hquantity']
    rfl
  have hnewOrder' : order.clientOrderId ∉ t.submittedOrderFacts.keys := by rwa [← h.orders.mem_keys]
  have hnewSubmitted : order.clientOrderId ∉ t.submittedOrders := by rwa [h.submittedOrders]
  have hbound : t.OrderBound order := by
    refine ⟨fun hnil => ?_, hnewSubmitted, by rwa [← h.nativeOrders], hplanned, by rwa [← h.submittedTargets],
      hsignals', hquantity'⟩
    rw [hnil] at hplanned
    exact List.not_mem_nil hplanned
  refine ⟨{ t with
    submittedOrders := t.submittedOrders.insert order.clientOrderId
    nativeOrderIds := t.nativeOrderIds.insert order.nativeOrderId
    submittedTargets := t.submittedTargets.insert order.targetId
    submittedOrderFacts :=
      t.submittedOrderFacts.set order.clientOrderId (order.side, order.quantity, order.nativeOrderId) },
    ?_, ?_, ⟨fun id facts hget => ?_, fun event' hevent' order' horder' => ?_⟩, rfl⟩
  · rw [StreamState.submitOrder, require_of _ hbound]
    rfl
  · exact { h with
      orders := h.orders.set (by rw [hside, hquantity])
      submittedOrders := fun id => by rw [List.mem_insert_iff, Dict.mem_keys_set, h.submittedOrders]
      submittedOrders_length := by
        rw [List.length_insert_of_not_mem hnewSubmitted, Dict.length_set, if_neg hnewOrder', h.submittedOrders_length]
      facts_nodup := Dict.nodup_keys_set _ _ _ h.facts_nodup
      submittedTargets := h.submittedTargets.insert order.targetId
      nativeOrders := h.nativeOrders.insert order.nativeOrderId }
  · change t.filled id + fillsOf id rest = facts.2.1
    rw [← fillsOf_cons id hfill]
    rw [Dict.get?_set] at hget
    split_ifs at hget with hid
    · obtain rfl := Option.some.inj hget
      subst hid
      exact hroom.coming event List.mem_cons_self order hbody
    · exact hroom.submitted id facts hget
  · change t.filled order'.clientOrderId + fillsOf order'.clientOrderId rest = order'.quantity
    rw [← fillsOf_cons _ hfill]
    exact hroom.coming event' (List.mem_cons_of_mem _ hevent') order' horder'

theorem Follows.applyFill
    (hbody : event.body = .fill fill) (hroom : Room t (event :: rest)) (hok : s.applyFill d = .ok s') :
    ∃ t', t.applyFill fill = .ok t' ∧ Follows s' t' ∧ Room t' rest ∧
      t'.previousSimulationTime = t.previousSimulationTime := by
  have hclient : d.text "client_order_id" = fill.clientOrderId.text := hd.textField hbody
  have hnative : d.text "native_fill_id" = fill.nativeFillId.text := hd.textField hbody
  have hside : d.get? "side" = some (.str (sideText fill.side)) := hd.field hbody
  simp only [ProjectedState.applyFill, bind_ok_iff, require_ok_iff, exists_const, Except.ok.injEq, hclient, hnative,
    hside] at hok
  obtain ⟨⟨⟨orderDoc, horderDoc, hsameSide⟩, hnewFill⟩, -, rfl⟩ := hok
  obtain ⟨facts, hfacts, heq⟩ := h.orders.exists_of_mem horderDoc
  have hsideEq : fill.side = facts.1 := by
    have := hsameSide.symm.trans (Prod.mk.inj heq).1
    exact sideText_injective (Value.str.inj (Option.some.inj this))
  have hnewFill' : fill.nativeFillId ∉ t.nativeFillIds := by rwa [← h.fills]
  have hsubmitted : fill.clientOrderId ∈ t.submittedOrders := by
    rw [h.submittedOrders, Dict.mem_keys_iff, hfacts]
    rfl
  have htotal := hroom.submitted fill.clientOrderId facts hfacts
  rw [fillsOf_cons_fill _ hbody, if_pos rfl] at htotal
  have hmatches : t.FillMatches fill := by
    refine ⟨facts, hfacts, hsideEq, ?_⟩
    have := fillsOf_nonneg fill.clientOrderId rest
    linarith
  -- the new total of an order and what is left of its fills
  have hfilled (id : Identifier) : ((t.filledQuantities.set fill.clientOrderId
      (t.filled fill.clientOrderId + fill.quantity)).get? id).getD 0 + fillsOf id rest =
        t.filled id + fillsOf id (event :: rest) := by
    rw [Dict.get?_set, fillsOf_cons_fill _ hbody]
    split_ifs with hid
    · subst hid
      rw [Option.getD_some]
      ring
    · rw [zero_add]
      rfl
  refine ⟨{ t with
    nativeFillIds := t.nativeFillIds.insert fill.nativeFillId
    filledQuantities := t.filledQuantities.set fill.clientOrderId (t.filled fill.clientOrderId + fill.quantity)
    fillCount := t.fillCount + 1 }, ?_, ?_, ⟨fun id facts' hget => ?_, fun event' hevent' order' horder' => ?_⟩, rfl⟩
  · rw [StreamState.applyFill, require_of _ ⟨hsubmitted, hnewFill'⟩]
    simp only [require_of _ hmatches]
    rfl
  · refine { h with fills := h.fills.insert fill.nativeFillId, fills_length := ?_ }
    rw [List.length_insert_of_not_mem hnewFill, h.fills_length]
  · exact (hfilled id).trans (hroom.submitted id facts' hget)
  · exact (hfilled _).trans (hroom.coming event' (List.mem_cons_of_mem _ hevent') order' horder')

end Simulation

/-! ## What the pass on events records -/

def StreamState.Linked (t : StreamState) : Prop := ∀ id ∈ t.submittedOrderFacts.keys, id ∈ t.submittedOrders

structure Progress (t t' : StreamState) (event : P1Event) : Prop where
  linked : t'.Linked
  accepted : ∀ id ∈ t.acceptedTargets.keys, id ∈ t'.acceptedTargets.keys
  accepts : ∀ target, event.body = .targetAccepted target → target.targetId ∈ t'.acceptedTargets.keys
  facts : ∀ id facts, t.submittedOrderFacts.get? id = some facts → t'.submittedOrderFacts.get? id = some facts
  submits : ∀ order, event.body = .orderSubmitted order →
    t'.submittedOrderFacts.get? order.clientOrderId = some (order.side, order.quantity, order.nativeOrderId)
  filled : ∀ id, t'.filled id = t.filled id + fillsOf id [event]

variable {t : StreamState} {event : P1Event}

theorem Progress.of_eq (hlinked : t.Linked)
    (haccepted : t'.acceptedTargets = t.acceptedTargets) (hsubmitted : t'.submittedOrders = t.submittedOrders)
    (hfacts : t'.submittedOrderFacts = t.submittedOrderFacts) (hfilled : t'.filledQuantities = t.filledQuantities)
    (htarget : ∀ target, event.body ≠ .targetAccepted target) (horder : ∀ order, event.body ≠ .orderSubmitted order)
    (hfill : event.fill? = none) : Progress t t' event where
  linked := by
    intro id hid
    rw [hfacts] at hid
    rw [hsubmitted]
    exact hlinked id hid
  accepted id hid := by rwa [haccepted]
  accepts target h := absurd h (htarget target)
  facts id facts h := by rwa [hfacts]
  submits order h := absurd h (horder order)
  filled id := by
    rw [fillsOf_cons id hfill, StreamState.filled, hfilled]
    simp [StreamState.filled, fillsOf]

theorem StreamState.apply_progress (hlinked : t.Linked) (h : t.apply event.body = .ok t') : Progress t t' event := by
  cases hbody : event.body with
  | runStarted | runCompleted | positionObserved | accountObserved =>
    rw [hbody] at h
    obtain rfl := Except.ok.inj h
    exact Progress.of_eq hlinked rfl rfl rfl rfl (by simp [hbody]) (by simp [hbody]) (by simp [P1Event.fill?, hbody])
  | targetAccepted target =>
    rw [hbody] at h
    simp only [apply, acceptTarget, bind_ok_iff, require_ok_iff, exists_const, Except.ok.injEq] at h
    obtain ⟨-, rfl⟩ := h
    have hfill : event.fill? = none := by simp [P1Event.fill?, hbody]
    refine ⟨hlinked, fun id hid => ?_, fun target' htarget => ?_, fun _ _ h => h, by simp [hbody], fun id => ?_⟩
    · exact (Dict.mem_keys_set _ _ _ _).2 (Or.inr hid)
    · obtain rfl := P1Body.targetAccepted.inj (hbody.symm.trans htarget)
      exact (Dict.mem_keys_set _ _ _ _).2 (Or.inl rfl)
    · rw [fillsOf_cons id hfill]
      simp [StreamState.filled, fillsOf]
  | targetQuantityPlanned plan =>
    rw [hbody] at h
    simp only [apply, planQuantity, bind_ok_iff, require_ok_iff, exists_const, Except.ok.injEq] at h
    obtain ⟨-, rfl⟩ := h
    exact Progress.of_eq hlinked rfl rfl rfl rfl (by simp [hbody]) (by simp [hbody]) (by simp [P1Event.fill?, hbody])
  | orderSubmitted order =>
    rw [hbody] at h
    simp only [apply, submitOrder, bind_ok_iff, require_ok_iff, exists_const, Except.ok.injEq] at h
    obtain ⟨hbound, rfl⟩ := h
    have hfill : event.fill? = none := by simp [P1Event.fill?, hbody]
    refine ⟨fun id hid => ?_, fun _ h => h, by simp [hbody], fun id facts hfacts => ?_, fun order' horder => ?_,
      fun id => ?_⟩
    · rcases (Dict.mem_keys_set _ _ _ _).1 hid with rfl | hid
      · exact List.mem_insert_self
      · exact List.mem_insert_of_mem (hlinked id hid)
    · rw [Dict.get?_set, if_neg]
      · exact hfacts
      · rintro rfl
        exact hbound.2.1 (hlinked _ ((Dict.mem_keys_iff _ _).2 (by rw [hfacts]; rfl)))
    · obtain rfl := P1Body.orderSubmitted.inj (hbody.symm.trans horder)
      exact Dict.get?_set_self _ _ _
    · rw [fillsOf_cons id hfill]
      simp [StreamState.filled, fillsOf]
  | fill fill =>
    rw [hbody] at h
    simp only [apply, applyFill, bind_ok_iff, require_ok_iff, exists_const, Except.ok.injEq] at h
    obtain ⟨-, -, rfl⟩ := h
    refine ⟨hlinked, fun _ h => h, by simp [hbody], fun _ _ h => h, by simp [hbody], fun id => ?_⟩
    rw [fillsOf_cons_fill id hbody, StreamState.filled, Dict.get?_set]
    split_ifs with hid
    · subst hid
      simp [StreamState.filled, fillsOf]
    · simp [StreamState.filled, fillsOf]

/-- What a whole pass records: the accepted targets, the facts of the orders and the exact fills. -/
structure Recorded (t t' : StreamState) (events : List P1Event) : Prop where
  accepted : ∀ id ∈ t.acceptedTargets.keys, id ∈ t'.acceptedTargets.keys
  accepts : ∀ event ∈ events, ∀ target, event.body = .targetAccepted target →
    target.targetId ∈ t'.acceptedTargets.keys
  facts : ∀ id facts, t.submittedOrderFacts.get? id = some facts → t'.submittedOrderFacts.get? id = some facts
  submits : ∀ event ∈ events, ∀ order, event.body = .orderSubmitted order →
    t'.submittedOrderFacts.get? order.clientOrderId = some (order.side, order.quantity, order.nativeOrderId)
  filled : ∀ id, t'.filled id = t.filled id + fillsOf id events

theorem StreamState.foldlM_recorded {events : List P1Event} {expected : ℕ} {t : StreamState} (hlinked : t.Linked)
    (h : (events.zipIdx expected).foldlM step t = .ok t') : Recorded t t' events := by
  induction events generalizing expected t with
  | nil =>
    obtain rfl := Except.ok.inj h
    exact ⟨fun _ h => h, by simp, fun _ _ h => h, by simp, by simp [fillsOf]⟩
  | cons event events ih =>
    rw [List.zipIdx_cons, List.foldlM_cons, bind_ok_iff] at h
    obtain ⟨next, hnext, h⟩ := h
    simp only [step, bind_ok_iff] at hnext
    obtain ⟨_, _, _, _, hnext⟩ := hnext
    have hone := apply_progress (t := { t with previousSimulationTime := event.simulationTime }) hlinked hnext
    have hrest := ih hone.linked h
    refine ⟨fun id hid => hrest.accepted id (hone.accepted id hid), ?_,
      fun id facts hfacts => hrest.facts id facts (hone.facts id facts hfacts), ?_, fun id => ?_⟩
    · rw [List.forall_mem_cons]
      exact ⟨fun target htarget => hrest.accepted _ (hone.accepts target htarget), hrest.accepts⟩
    · rw [List.forall_mem_cons]
      exact ⟨fun order horder => hrest.facts _ _ (hone.submits order horder), hrest.submits⟩
    · have hsplit : fillsOf id (event :: events) = fillsOf id [event] + fillsOf id events := by
        simp [fillsOf]
      rw [hrest.filled id, hone.filled id, hsplit, ← add_assoc]
      rfl

/-! ## One round, on documents and on events -/

variable {kind : P1Kind}

theorem ProjectedState.apply_previousTime {s s' : ProjectedState} {d : Document}
    (h : s.apply d kind = .ok s') : s'.previousTime = s.previousTime := by
  cases kind with
  | runStarted | runCompleted | positionObserved | accountObserved =>
    obtain rfl := Except.ok.inj h
    rfl
  | targetAccepted =>
    simp only [apply, acceptTarget, bind_ok_iff, Except.ok.injEq] at h
    obtain ⟨_, _, rfl⟩ := h
    rfl
  | targetQuantityPlanned =>
    simp only [apply, planQuantity, bind_ok_iff, Except.ok.injEq] at h
    obtain ⟨_, _, rfl⟩ := h
    rfl
  | orderSubmitted =>
    simp only [apply, submitOrder, bind_ok_iff, Except.ok.injEq] at h
    obtain ⟨_, _, rfl⟩ := h
    rfl
  | fill =>
    simp only [apply, applyFill, bind_ok_iff, Except.ok.injEq] at h
    obtain ⟨_, _, _, _, rfl⟩ := h
    rfl

theorem Follows.apply {s s' : ProjectedState} {t : StreamState} {d : Document} {event : P1Event}
    {rest : List P1Event} (h : Follows s t) (hd : d.Same event.document) (hroom : Room t (event :: rest))
    (hok : s.apply d event.body.kind = .ok s') : ∃ t', t.apply event.body = .ok t' ∧ Follows s' t' ∧ Room t' rest ∧
      t'.previousSimulationTime = t.previousSimulationTime := by
  cases hbody : event.body with
  | runStarted | runCompleted =>
    rw [hbody] at hok
    obtain rfl := Except.ok.inj hok
    exact ⟨t, rfl, h, hroom.skip (by simp [P1Event.fill?, hbody]) rfl rfl, rfl⟩
  | positionObserved | accountObserved =>
    rw [hbody] at hok
    obtain rfl := Except.ok.inj hok
    exact ⟨_, rfl, { h with }, hroom.skip (by simp [P1Event.fill?, hbody]) rfl rfl, rfl⟩
  | targetAccepted target =>
    rw [hbody] at hok
    obtain ⟨t', hok', hfollows, hfacts, hfilled, htime⟩ := h.acceptTarget hd hbody hok
    exact ⟨t', hok', hfollows, hroom.skip (by simp [P1Event.fill?, hbody]) hfacts hfilled, htime⟩
  | targetQuantityPlanned plan =>
    rw [hbody] at hok
    obtain ⟨t', hok', hfollows, hfacts, hfilled, htime⟩ := h.planQuantity hd hbody hok
    exact ⟨t', hok', hfollows, hroom.skip (by simp [P1Event.fill?, hbody]) hfacts hfilled, htime⟩
  | orderSubmitted order =>
    rw [hbody] at hok
    exact h.submitOrder hd hbody hroom hok
  | fill fill =>
    rw [hbody] at hok
    exact h.applyFill hd hbody hroom hok

section Pass

variable {R : RuntimeProtocol} {requestMessageId : String} {requestAuthority : Dict String Value}
  {s s' : ProjectedState} {n : ℕ} {object : JsonObject} {envelope : Envelope}

theorem projectedStep_ok {event : P1Event} (hrep : Represents object event)
    (hok : projectedStep R requestMessageId requestAuthority s ((object, envelope), n) = .ok s') :
    event.sequence = n ∧ regressed (serializeUtc event.simulationTime) s.previousTime = false ∧
      envelope.payload.equals ⟨event.body.eventType, event.body.kind.family, event.pairs⟩ = true ∧
      { s with previousTime := serializeUtc event.simulationTime }.apply object.members event.body.kind = .ok s' := by
  have htime : object.members.text "simulation_time" = serializeUtc event.simulationTime :=
    hrep.text (by simp [P1Event.document])
  have hsequence : object.members.get? "sequence" = some (.int event.sequence) :=
    (hrep _).trans (get?_document (by simp [P1Event.document]))
  simp only [projectedStep, hrep.kind?, bind_ok_iff, require_ok_iff, exists_const, htime, hsequence,
    Option.some.injEq, Value.int.injEq, Nat.cast_inj] at hok
  obtain ⟨-, -, ⟨rfl, -⟩, hregressed, hmatches, happly⟩ := hok
  have hpayload := hmatches.1
  rw [runtimePayload_congr hrep, runtimePayload_document] at hpayload
  exact ⟨rfl, hregressed, hpayload, happly⟩

theorem exists_event (hok : projectedStep R requestMessageId requestAuthority s ((object, envelope), n) = .ok s') :
    ∃ event, Represents object event := by
  unfold projectedStep at hok
  simp only at hok
  split at hok
  · cases hok
  · simp only [bind_ok_iff, require_ok_iff, exists_const] at hok
    obtain ⟨event, -, hsame⟩ := validateDocument_event hok.1
    exact ⟨event, hsame⟩

variable {objects : List JsonObject} {envelopes : List Envelope}

theorem exists_events (hlength : objects.length = envelopes.length)
    (hok : ((objects.zip envelopes).zipIdx n).foldlM (projectedStep R requestMessageId requestAuthority) s = .ok s') :
    ∃ events, List.Forall₂ Represents objects events ∧ List.Forall₂ (fun (envelope : Envelope) (event : P1Event) =>
        envelope.payload.equals ⟨event.body.eventType, event.body.kind.family, event.pairs⟩ = true)
        envelopes events := by
  induction objects generalizing envelopes n s with
  | nil =>
    obtain rfl := List.length_eq_zero_iff.1 hlength.symm
    exact ⟨[], .nil, .nil⟩
  | cons object objects ih =>
    cases envelopes with
    | nil => cases hlength
    | cons envelope envelopes =>
      rw [List.zip_cons_cons, List.zipIdx_cons, List.foldlM_cons, bind_ok_iff] at hok
      obtain ⟨next, hnext, hok⟩ := hok
      obtain ⟨event, hevent⟩ := exists_event hnext
      obtain ⟨events, hevents, hpayloads⟩ := ih (Nat.succ.inj hlength) hok
      exact ⟨event :: events, .cons hevent hevents, .cons (projectedStep_ok hevent hnext).2.2.1 hpayloads⟩

def TimeFollows (s : ProjectedState) (t : StreamState) (events : List P1Event) : Prop :=
  s.previousTime = serializeUtc t.previousSimulationTime ∨
    s.previousTime = "" ∧ ∀ first ∈ events.head?, first.simulationTime = t.previousSimulationTime

/-- The pass on events accepts what the pass on documents accepts, as long as there is room for the fills. -/
theorem follows_pass {events : List P1Event}
    {t : StreamState} (hlength : objects.length = envelopes.length) (hrep : List.Forall₂ Represents objects events)
    (hok : ((objects.zip envelopes).zipIdx n).foldlM (projectedStep R requestMessageId requestAuthority) s = .ok s')
    (hfollows : Follows s t) (hroom : Room t events) (htime : TimeFollows s t events) :
    ∃ t', (events.zipIdx n).foldlM StreamState.step t = .ok t' ∧ Follows s' t' ∧ Room t' [] := by
  induction hrep generalizing envelopes n s t with
  | nil =>
    obtain rfl := List.length_eq_zero_iff.1 hlength.symm
    obtain rfl := Except.ok.inj hok
    exact ⟨t, rfl, hfollows, hroom⟩
  | @cons object event objects events hevent _ ih =>
    cases envelopes with
    | nil => cases hlength
    | cons envelope envelopes =>
      rw [List.zip_cons_cons, List.zipIdx_cons, List.foldlM_cons, bind_ok_iff] at hok
      obtain ⟨next, hnext, hok⟩ := hok
      obtain ⟨hsequence, hregressed, -, happly⟩ := projectedStep_ok hevent hnext
      have hnotlt : ¬ event.simulationTime < t.previousSimulationTime := by
        rcases htime with hprevious | ⟨-, hfirst⟩
        · rw [hprevious] at hregressed
          rwa [regressed_serializeUtc, decide_eq_false_iff_not] at hregressed
        · rw [hfirst event rfl]
          exact Nat.lt_irrefl _
      have hroom' : Room { t with previousSimulationTime := event.simulationTime } (event :: events) :=
        ⟨hroom.submitted, hroom.coming⟩
      obtain ⟨t', ht', hfollows', hroom'', hprevious⟩ :=
        (hfollows.withTime (serializeUtc event.simulationTime) event.simulationTime).apply hevent hroom' happly
      have htime' : TimeFollows next t' events := by
        left
        rw [ProjectedState.apply_previousTime happly, hprevious]
      obtain ⟨final, hfinal, hresult⟩ := ih (Nat.succ.inj hlength) hok hfollows' hroom'' htime'
      refine ⟨final, ?_, hresult⟩
      rw [List.zipIdx_cons, List.foldlM_cons, bind_ok_iff]
      refine ⟨t', ?_, hfinal⟩
      simp only [StreamState.step, bind_ok_iff, require_ok_iff, exists_const]
      exact ⟨hsequence, hnotlt, ht'⟩

end Pass

/-! ## Payloads -/

/-- `_decode_event` of the engine event that a payload is parsed as. -/
def decodeEnvelope (envelope : Envelope) : Option P1Event := do
  let attributes ← envelope.payload.attributes.mapM EventAttribute.of?
  let payload ← EngineEvent.of? envelope.payload.eventType envelope.payload.family attributes
  decodeEvent payload

/-- No attribute is a bool or too large. -/
def PlainPayload (envelope : Envelope) : Prop :=
  ∀ pair ∈ envelope.payload.attributes, pair.2.Fits ∧ ∀ b, pair.2 ≠ .bool b

instance (envelope : Envelope) : Decidable (PlainPayload envelope) :=
  inferInstanceAs (Decidable (∀ pair ∈ envelope.payload.attributes, pair.2.Fits ∧ ∀ b, pair.2 ≠ .bool b))

theorem P1Event.pairs_ne_bool {event : P1Event} {pair : String × EventValue} (h : pair ∈ event.pairs) (b : Bool) :
    pair.2 ≠ .bool b := by
  obtain ⟨-, value, hmem, hscalar⟩ := P1Event.mem_pairs.1 h
  intro hbool
  rw [hbool] at hscalar
  obtain ⟨signals, -, heq⟩ | ⟨-, hnull | ⟨n, hint⟩ | ⟨text, hstr⟩⟩ := event.values_document hmem
  · obtain rfl := (Prod.mk.inj heq).2
    cases hscalar
  · obtain rfl := hnull
    cases hscalar
  · obtain rfl := hint
    cases hscalar
  · obtain rfl := hstr
    cases hscalar

theorem EventValue.eq_of_equals {a b : EventValue} (h : a.equals b = true) (ha : ∀ x, a ≠ .bool x)
    (hb : ∀ x, b ≠ .bool x) : a = b := by
  cases a with
  | bool x => exact absurd rfl (ha x)
  | str text => exact of_decide_eq_true h
  | int n =>
    cases b with
    | bool x => exact absurd rfl (hb x)
    | str text => exact of_decide_eq_true h
    | int m => exact of_decide_eq_true h

variable {envelope : Envelope}

variable {event : P1Event}

theorem attributes_of_equals
    (h : envelope.payload.equals ⟨event.body.eventType, event.body.kind.family, event.pairs⟩ = true)
    (hplain : ∀ pair ∈ envelope.payload.attributes, ∀ b, pair.2 ≠ .bool b) :
    envelope.payload.attributes = event.pairs := by
  simp only [RuntimePayload.equals, Bool.and_eq_true, decide_eq_true_eq, List.all_eq_true] at h
  obtain ⟨⟨-, hlength⟩, hall⟩ := h
  rw [← List.forall₂_eq_eq_eq, List.forall₂_iff_zip]
  refine ⟨hlength, fun {a b} hab => ?_⟩
  obtain ⟨hname, hvalue⟩ := hall (a, b) hab
  have hmem := List.of_mem_zip hab
  exact Prod.ext hname (EventValue.eq_of_equals hvalue (hplain a hmem.1) (P1Event.pairs_ne_bool hmem.2))

theorem decodeEnvelope_eq_some (h : decodeEnvelope envelope = some event) :
    ∃ payload : EngineEvent, payload.pairs = envelope.payload.attributes ∧ decodeEvent payload = some event := by
  simp only [decodeEnvelope, Option.bind_eq_bind, Option.bind_eq_some_iff, mapM_attributes_eq_some,
    EngineEvent.of?_eq_some] at h
  obtain ⟨attributes, hattributes, payload, ⟨-, -, rfl⟩, hdecode⟩ := h
  exact ⟨payload, hattributes, hdecode⟩

theorem plainPayload_of_decode (h : decodeEnvelope envelope = some event) : PlainPayload envelope := by
  obtain ⟨payload, hpairs, hdecode⟩ := decodeEnvelope_eq_some h
  obtain ⟨-, -, hnames, ⟨text, htext, -⟩, hsame⟩ := decodeEvent_eq_some hdecode
  have hnodup : (payload.pairs.map Prod.fst).Nodup := payload.names_eq ▸ payload.unique_attributes
  intro pair hpair
  rw [← hpairs] at hpair
  refine ⟨EngineEvent.fits_of_mem hpair, fun b hbool => ?_⟩
  by_cases hname : pair.1 = "simulation_time"
  · rw [eq_of_mem_pairs hnodup hpair htext hname] at hbool
    cases hbool
  · have hkey : pair.1 ∈ event.pairs.map Prod.fst := by
      rw [event.keys_pairs, ← hnames, payload.names_eq]
      exact List.mem_map_of_mem hpair
    obtain ⟨other, hother, heq⟩ := List.mem_map.1 hkey
    have := eq_of_mem_pairs hnodup (hsame other hother (heq ▸ hname)) hpair heq
    exact P1Event.pairs_ne_bool hother b (this ▸ hbool)

theorem decodeEnvelope_of_fits (htype : envelope.payload.eventType = event.body.eventType)
    (hfamily : envelope.payload.family = event.body.kind.family) (hattributes : envelope.payload.attributes = event.pairs)
    (hfits : ∀ pair ∈ event.pairs, pair.2.Fits) : decodeEnvelope envelope = some event := by
  obtain ⟨payload, hpayload⟩ := exists_paperEventPayload_iff.2 hfits
  obtain ⟨htype', hfamily', hpairs⟩ := paperEventPayload_eq_some.1 hpayload
  simp only [decodeEnvelope, Option.bind_eq_bind, Option.bind_eq_some_iff, mapM_attributes_eq_some,
    EngineEvent.of?_eq_some]
  exact ⟨payload.attributes, hpairs.trans hattributes.symm, payload,
    ⟨htype'.trans htype.symm, hfamily'.trans hfamily.symm, rfl⟩, decodeEvent_of_pairs htype' hfamily' hpairs⟩

theorem decodeEnvelope_of_plain
    (h : envelope.payload.equals ⟨event.body.eventType, event.body.kind.family, event.pairs⟩ = true)
    (hplain : PlainPayload envelope) : decodeEnvelope envelope = some event := by
  have hattributes := attributes_of_equals h fun pair hpair => (hplain pair hpair).2
  simp only [RuntimePayload.equals, Bool.and_eq_true, decide_eq_true_eq] at h
  exact decodeEnvelope_of_fits h.1.1.1 h.1.1.2 hattributes fun pair hpair => (hplain pair (hattributes ▸ hpair)).1

/-! ## The stream as a whole -/

def filledTotal (objects : List JsonObject) (orderId : String) : ℚ :=
  (objects.map fun object =>
    if object.members.kind? = some .fill ∧ object.members.text "client_order_id" = orderId then
      (object.members.decimal "quantity" : ℚ)
    else 0).sum

/-- The fills of every order sum up to it. -/
def FillsExact (objects : List JsonObject) : Prop :=
  ∀ order ∈ objects, order.members.kind? = some .orderSubmitted →
    filledTotal objects (order.members.text "client_order_id") = order.members.decimal "quantity"

instance (objects : List JsonObject) : Decidable (FillsExact objects) :=
  inferInstanceAs (Decidable (∀ order ∈ objects, order.members.kind? = some .orderSubmitted → _))

section Represented

variable {objects : List JsonObject} {events : List P1Event}

theorem filledTotal_eq (h : List.Forall₂ Represents objects events) (id : Identifier) :
    filledTotal objects id.text = fillsOf id events := by
  induction h with
  | nil => rfl
  | @cons object event objects events hevent _ ih =>
    have hsplit : filledTotal (object :: objects) id.text = filledTotal [object] id.text +
        filledTotal objects id.text := by simp [filledTotal]
    have hone : filledTotal [object] id.text = fillsOf id [event] := by
      cases hbody : event.body with
      | fill fill =>
        have hclient : object.members.text "client_order_id" = fill.clientOrderId.text := hevent.textField hbody
        have hquantity : object.members.decimal "quantity" = fill.quantity := hevent.decimalField hbody
        simp [filledTotal, fillsOf, hevent.kind?, hbody, P1Body.kind, P1Event.fill?, hclient, hquantity,
          Identifier.text_inj]
      | runStarted | targetAccepted | targetQuantityPlanned | orderSubmitted | positionObserved | accountObserved |
          runCompleted =>
        simp [filledTotal, fillsOf, hevent.kind?, hbody, P1Body.kind, P1Event.fill?]
    have hsplit' : fillsOf id (event :: events) = fillsOf id [event] + fillsOf id events := by simp [fillsOf]
    rw [hsplit, hone, ih, hsplit']

theorem fillsExact_iff (h : List.Forall₂ Represents objects events) : FillsExact objects ↔
    ∀ event ∈ events, ∀ order, event.body = .orderSubmitted order →
      fillsOf order.clientOrderId events = order.quantity := by
  have horder {object : JsonObject} {event : P1Event} (hevent : Represents object event) {order : OrderSubmitted}
      (hbody : event.body = .orderSubmitted order) :
      filledTotal objects (object.members.text "client_order_id") = object.members.decimal "quantity" ↔
        fillsOf order.clientOrderId events = order.quantity := by
    have hclient : object.members.text "client_order_id" = order.clientOrderId.text := hevent.textField hbody
    have hquantity : object.members.decimal "quantity" = order.quantity := hevent.decimalField hbody
    rw [hclient, hquantity, filledTotal_eq h]
  constructor
  · intro hexact event hevent order hbody
    obtain ⟨object, hobject, hrep⟩ := exists_mem_left h hevent
    exact (horder hrep hbody).1 (hexact object hobject (by rw [hrep.kind?, hbody]; rfl))
  · intro hall object hobject hkind
    obtain ⟨event, hevent, hrep⟩ := exists_mem_right h hobject
    rw [hrep.kind?] at hkind
    cases hbody : event.body with
    | orderSubmitted order => exact (horder hrep hbody).2 (hall event hevent order hbody)
    | runStarted | targetAccepted | targetQuantityPlanned | fill | positionObserved | accountObserved |
        runCompleted =>
      rw [hbody] at hkind
      cases hkind

end Represented

section Whole

variable {objects : List JsonObject} {events : List P1Event}

variable (h : List.Forall₂ Represents objects events)
include h

theorem represents_getElem? {i : ℕ} {object : JsonObject} (hobject : objects[i]? = some object) :
    ∃ event, events[i]? = some event ∧ Represents object event := by
  induction h generalizing i with
  | nil => cases hobject
  | @cons object' event objects events hevent _ ih =>
    cases i with
    | zero =>
      obtain rfl := Option.some.inj hobject
      exact ⟨event, rfl, hevent⟩
    | succ i => exact ih hobject

theorem represents_kind {i : ℕ} (hkind : objects[i]?.bind (·.members.kind?) = some kind) :
    ∃ object event, objects[i]? = some object ∧
      events[i]? = some event ∧ Represents object event ∧ event.body.kind = kind := by
  obtain ⟨object, hobject, hkind⟩ := Option.bind_eq_some_iff.1 hkind
  obtain ⟨event, hevent, hrep⟩ := represents_getElem? h hobject
  rw [hrep.kind?] at hkind
  exact ⟨object, event, hobject, hevent, hrep, Option.some.inj hkind⟩

theorem countP_kind (kind : P1Kind) : objects.countP (fun object => object.members.kind? = some kind) =
      events.countP fun event => event.body.kind = kind := by
  induction h with
  | nil => rfl
  | @cons object event objects events hevent _ ih =>
    rw [List.countP_cons, List.countP_cons, ih, hevent.kind?]
    simp

omit h

theorem runStarted?_isSome (event : P1Event) : event.runStarted?.isSome = decide (event.body.kind = .runStarted) := by
  cases hbody : event.body <;> simp [P1Event.runStarted?, hbody, P1Body.kind]

theorem runCompleted?_isSome (event : P1Event) :
    event.runCompleted?.isSome = decide (event.body.kind = .runCompleted) := by
  cases hbody : event.body <;> simp [P1Event.runCompleted?, hbody, P1Body.kind]

theorem projectedDigest_eq (R : RuntimeProtocol) (h : List.Forall₂ Represents objects events) :
    projectedDigest R objects = semanticDigest R.codec events := by
  unfold projectedDigest semanticDigest
  congr 1
  induction h with
  | nil => rfl
  | @cons object event objects events hevent _ ih =>
    rw [List.map_cons, List.map_cons, ih]
    congr 1
    have hperm : object.members.Perm event.document :=
      Dict.perm_of_get? object.nodup event.nodup_keys_document hevent
    refine sortBy_congr_perm (hperm.filter _) ?_
    exact (object.nodup.sublist (List.filter_sublist.map _))

theorem exists_last_three {α : Type} {xs : List α} (h : 3 ≤ xs.length) : ∃ front x y z, xs = front ++ [x, y, z] := by
  have hlength : (xs.drop (xs.length - 3)).length = 3 := by
    rw [List.length_drop]
    omega
  obtain ⟨x, y, z, heq⟩ := List.length_eq_three.1 hlength
  exact ⟨xs.take (xs.length - 3), x, y, z, by rw [← heq, List.take_append_drop]⟩

end Whole

variable {body : P1Body}

theorem exists_runStarted (h : body.kind = .runStarted) : ∃ start, body = .runStarted start := by
  cases body <;> first | exact ⟨_, rfl⟩ | cases h

theorem exists_runCompleted (h : body.kind = .runCompleted) : ∃ completion, body = .runCompleted completion := by
  cases body <;> first | exact ⟨_, rfl⟩ | cases h

theorem exists_positionObserved (h : body.kind = .positionObserved) :
    ∃ position, body = .positionObserved position := by
  cases body <;> first | exact ⟨_, rfl⟩ | cases h

theorem exists_accountObserved (h : body.kind = .accountObserved) : ∃ account, body = .accountObserved account := by
  cases body <;> first | exact ⟨_, rfl⟩ | cases h

theorem exists_targetAccepted (h : body.kind = .targetAccepted) : ∃ target, body = .targetAccepted target := by
  cases body <;> first | exact ⟨_, rfl⟩ | cases h

theorem follows_start (time : UtcDateTime) : Follows {} { previousSimulationTime := time } where
  targets := .nil
  plans := .nil
  orders := .nil
  submittedOrders := by simp
  submittedOrders_length := rfl
  facts_nodup := List.nodup_nil
  submittedTargets := by simp [SameTexts]
  nativeOrders := by simp [SameTexts]
  fills := by simp [SameTexts]
  fills_length := rfl

variable {a b : Option Value}

theorem eq_of_decimal_members {x y : Decimal} (h : a = b) (ha : a = some (decimalValue x))
    (hb : b = some (decimalValue y)) : x = y :=
  decimalValue_injective (Option.some.inj (ha.symm.trans (h.trans hb)))

theorem eq_of_text_members {x y : String} (h : a = b) (ha : a = some (.str x)) (hb : b = some (.str y)) : x = y :=
  Value.str.inj (Option.some.inj (ha.symm.trans (h.trans hb)))

theorem eq_of_count_members {m n : ℕ} (h : a = some (.int m)) (ha : a = some (.int n)) : n = m :=
  Int.natCast_inj.1 (Value.int.inj (Option.some.inj (ha.symm.trans h)))

theorem typed_completion {R : RuntimeProtocol} {objects : List JsonObject} {events : List P1Event}
    {state : ProjectedState} {so po ao co : JsonObject} {se pe ae ce : P1Event} {start : RunStarted}
    {position : PositionObserved} {account : AccountObserved} {completion : RunCompleted}
    (h : CompletionConsistent R objects state) (hrep : List.Forall₂ Represents objects events)
    (hso : objects.head? = some so) (hs : Represents so se) (hsbody : se.body = .runStarted start)
    (hpo : objects[objects.length - 3]? = some po) (hp : Represents po pe) (hpbody : pe.body = .positionObserved position)
    (hao : objects[objects.length - 2]? = some ao) (ha : Represents ao ae) (habody : ae.body = .accountObserved account)
    (hco : objects.getLast? = some co) (hc : Represents co ce) (hcbody : ce.body = .runCompleted completion) :
    (completion.upstreamCommit = start.upstreamCommit ∧ completion.closureDigest = start.closureDigest) ∧
      (completion.targetCount = state.targets.length ∧ completion.orderCount = state.orders.length ∧
        completion.fillCount = state.fills.length) ∧
      (completion.finalPosition = position.quantity ∧ completion.finalCash = account.cashBalance ∧
        completion.fees = account.fees ∧ completion.realizedPnl = account.realizedPnl ∧
        completion.unrealizedPnl = account.unrealizedPnl ∧ position.realizedPnl = account.realizedPnl ∧
        position.unrealizedPnl = account.unrealizedPnl) ∧
      completion.semanticDigest = semanticDigest R.codec events := by
  simp only [CompletionConsistent, hso, hpo, hao, hco, Option.map_some] at h
  obtain ⟨-, -, -, hcounts, horders, hfills, -, -, hcommit, hclosure, hposition, hcash, hfees, hrealized,
    hunrealized, hprealized, hpunrealized, hdigest⟩ := h
  change Document.Same _ _ at hs hp ha hc
  refine ⟨⟨?_, ?_⟩, ⟨?_, ?_, ?_⟩, ⟨?_, ?_, ?_, ?_, ?_, ?_, ?_⟩, ?_⟩
  · exact SourceCommit.ext (eq_of_text_members hcommit (hc.field hcbody) (hs.field hsbody))
  · exact Sha256Hex.ext (eq_of_text_members hclosure (hc.field hcbody) (hs.field hsbody))
  · exact eq_of_count_members hcounts (hc.field hcbody)
  · exact eq_of_count_members horders (hc.field hcbody)
  · exact eq_of_count_members hfills (hc.field hcbody)
  · exact eq_of_decimal_members hposition (hc.field hcbody) (hp.field hpbody)
  · exact eq_of_decimal_members hcash (hc.field hcbody) (ha.field habody)
  · exact eq_of_decimal_members hfees (hc.field hcbody) (ha.field habody)
  · exact eq_of_decimal_members hrealized (hc.field hcbody) (ha.field habody)
  · exact eq_of_decimal_members hunrealized (hc.field hcbody) (ha.field habody)
  · exact eq_of_decimal_members hprealized (hp.field hpbody) (ha.field habody)
  · exact eq_of_decimal_members hpunrealized (hp.field hpbody) (ha.field habody)
  · have hmember : memberOf (some co.members) "semantic_digest" = some (.str completion.semanticDigest.text) :=
      hc.field hcbody
    rw [← projectedDigest_eq R hrep]
    exact Sha256Hex.ext (eq_of_text_members hdigest hmember rfl)

theorem validateEventStream_of_projected {R : RuntimeProtocol} {requestMessageId : String}
    {requestAuthority : Dict String Value} {objects : List JsonObject} {envelopes : List Envelope}
    {events : List P1Event}
    (hok : validateProjectedStream R requestMessageId requestAuthority objects envelopes = .ok ())
    (hrep : List.Forall₂ Represents objects events)
    (htarget : ∃ object ∈ objects, object.members.kind? = some .targetAccepted) (hexact : FillsExact objects) :
    validateEventStream R.codec events = .ok events := by
  simp only [validateProjectedStream, bind_ok_iff, require_ok_iff, exists_const] at hok
  obtain ⟨⟨hfive, hlength, -, hstart, hend, hstarts, hends⟩, -, s', hpass, hconsistent⟩ := hok
  have hsize := hrep.length_eq
  -- the four events that the checks name
  obtain ⟨front, pe, ae, ce, hevents⟩ := exists_last_three (by omega : 3 ≤ events.length)
  have hpe : events[events.length - 3]? = some pe := by simp [hevents]
  have hae : events[events.length - 2]? = some ae := by simp [hevents]
  have hce : events.getLast? = some ce := by simp [hevents]
  rw [List.head?_eq_getElem?] at hstart
  rw [List.getLast?_eq_getElem?] at hend
  obtain ⟨so, se, hso, hse, hsrep, hskind⟩ := represents_kind hrep hstart
  obtain ⟨co, ce', hco, hce', hcrep, hckind⟩ := represents_kind hrep hend
  have hpkind := hconsistent.2.1
  have hakind := hconsistent.2.2.1
  rw [Option.bind_map] at hpkind hakind
  obtain ⟨po, pe', hpo, hpe', hprep, hpkind⟩ := represents_kind hrep hpkind
  obtain ⟨ao, ae', hao, hae', harep, hakind⟩ := represents_kind hrep hakind
  rw [hsize, ← List.getLast?_eq_getElem?, hce] at hce'
  rw [hsize, hpe] at hpe'
  rw [hsize, hae] at hae'
  obtain rfl := Option.some.inj hce'
  obtain rfl := Option.some.inj hpe'
  obtain rfl := Option.some.inj hae'
  rw [← List.head?_eq_getElem?] at hso hse
  rw [← List.getLast?_eq_getElem?] at hco
  obtain ⟨start, hsbody⟩ := exists_runStarted hskind
  obtain ⟨completion, hcbody⟩ := exists_runCompleted hckind
  obtain ⟨position, hpbody⟩ := exists_positionObserved hpkind
  obtain ⟨account, habody⟩ := exists_accountObserved hakind
  -- both passes
  have hroom : Room { previousSimulationTime := se.simulationTime } events := by
    constructor
    · intro id facts hget
      cases hget
    · intro event hevent order hbody
      have := (fillsExact_iff hrep).1 hexact event hevent order hbody
      simpa [StreamState.filled] using this
  have htime : TimeFollows {} { previousSimulationTime := se.simulationTime } events := by
    refine Or.inr ⟨rfl, fun first hfirst => ?_⟩
    rw [Option.mem_def, hse] at hfirst
    rw [Option.some.inj hfirst]
  obtain ⟨t', hfold, hfollows, hroom'⟩ := follows_pass hlength hrep hpass (follows_start _) hroom htime
  have hobserves := StreamState.foldlM_observes hfold
  have hrecorded := StreamState.foldlM_recorded (by simp [StreamState.Linked]) hfold
  -- the checks of the completion
  have hpositions : events.filterMap P1Event.positionObserved? =
      front.filterMap P1Event.positionObserved? ++ [position] := by
    rw [hevents]
    simp [P1Event.positionObserved?, hpbody, habody, hcbody]
  have haccounts : events.filterMap P1Event.accountObserved? =
      front.filterMap P1Event.accountObserved? ++ [account] := by
    rw [hevents]
    simp [P1Event.accountObserved?, hpbody, habody, hcbody]
  obtain ⟨hlineage, ⟨htargets, horders, hfills⟩, hsummary, hdigest⟩ := typed_completion hconsistent hrep hso hsrep
    hsbody hpo hprep hpbody hao harep habody hco hcrep hcbody
  have hplanned : t'.TargetsPlanned := by
    refine ⟨fun id hid => ?_, fun id hid => ?_, fun hnil => ?_⟩
    · rw [← hfollows.plans.mem_keys]
      exact hconsistent.1.1 ((hfollows.targets.mem_keys id).2 hid)
    · rw [← hfollows.targets.mem_keys]
      exact hconsistent.1.2 ((hfollows.plans.mem_keys id).2 hid)
    · obtain ⟨object, hobject, hkind⟩ := htarget
      obtain ⟨event, hevent, hrepEvent⟩ := exists_mem_right hrep hobject
      rw [hrepEvent.kind?] at hkind
      obtain ⟨target, htarget⟩ := exists_targetAccepted (Option.some.inj hkind)
      have := hrecorded.accepts event hevent target htarget
      rw [hnil] at this
      exact List.not_mem_nil this
  have hcompletion : validateCompletion R.codec events start completion t' = .ok () := by
    simp only [validateCompletion, bind_ok_iff, require_ok_iff, exists_const]
    refine ⟨hplanned, ⟨?_, ?_⟩, ⟨?_, ?_⟩, ?_, hlineage, ⟨?_, ?_, ?_⟩, ?_, hdigest⟩
    · rw [hobserves.positionCount, hpositions]
      simp
    · rw [hobserves.accountCount, haccounts]
      simp
    · simp [hpe, P1Event.positionObserved?, hpbody]
    · simp [hae, P1Event.accountObserved?, habody]
    · intro order horder
      have := hroom'.submitted order.1 order.2 ((Dict.get?_eq_some_iff hfollows.facts_nodup).2 horder)
      simpa [fillsOf] using this
    · rw [htargets, hfollows.targets.length_eq]
    · rw [horders, hfollows.orders.length_eq, hfollows.submittedOrders_length]
    · rw [hfills, hfollows.fills_length]
    · refine ⟨position, ?_, account, ?_, hsummary⟩
      · rw [hobserves.lastPosition, hpositions]
        simp
      · rw [hobserves.lastAccount, haccounts]
        simp
  rw [countP_kind hrep] at hstarts hends
  have hstartValue : se.runStarted? = some start := by simp [P1Event.runStarted?, hsbody]
  have hendValue : ce.runCompleted? = some completion := by simp [P1Event.runCompleted?, hcbody]
  simp only [validateEventStream, bind_ok_iff, require_ok_iff, exists_const, hse, hce, Option.bind_some, hstartValue,
    hendValue, runStarted?_isSome, runCompleted?_isSome]
  exact ⟨by omega, ⟨hstarts, hends⟩, t', hfold, (), hcompletion, trivial⟩

theorem fillsExact_of_validate {codec : EngineCodec} {objects : List JsonObject} {events : List P1Event}
    (hrep : List.Forall₂ Represents objects events) (h : validateEventStream codec events = .ok events) :
    FillsExact objects := by
  obtain ⟨-, -, first, start, completion, state, -, -, -, -, -, hfold, hcompletion⟩ := validateEventStream_ok h
  have hrecorded := StreamState.foldlM_recorded (by simp [StreamState.Linked]) hfold
  simp only [validateCompletion, bind_ok_iff, require_ok_iff, exists_const] at hcompletion
  obtain ⟨-, -, -, hfinished, -⟩ := hcompletion
  rw [fillsExact_iff hrep]
  intro event hevent order hbody
  have hfacts := hrecorded.submits event hevent order hbody
  have hfilled := hfinished _ (Dict.mem_of_get?_eq_some hfacts)
  rw [hrecorded.filled] at hfilled
  simpa [StreamState.filled] using hfilled

/-- The control plane accepts what the runtime accepts, exactly when every payload is plain and the fills are
exact. -/
theorem projected_stream_agrees {R : RuntimeProtocol} {requestMessageId : String}
    {requestAuthority : Dict String Value} {objects : List JsonObject} {envelopes : List Envelope}
    (hok : validateProjectedStream R requestMessageId requestAuthority objects envelopes = .ok ())
    (htarget : ∃ object ∈ objects, object.members.kind? = some .targetAccepted) :
    (∃ decoded, envelopes.mapM decodeEnvelope = some decoded ∧ List.Forall₂ Represents objects decoded ∧
      validateEventStream R.codec decoded = .ok decoded) ↔
      (∀ envelope ∈ envelopes, PlainPayload envelope) ∧ FillsExact objects := by
  constructor
  · rintro ⟨decoded, hdecode, hrep, hvalid⟩
    refine ⟨fun envelope henvelope => ?_, fillsExact_of_validate hrep hvalid⟩
    obtain ⟨event, -, hevent⟩ := exists_mem_right (mapM_some_iff.1 hdecode) henvelope
    exact plainPayload_of_decode hevent
  · rintro ⟨hplain, hexact⟩
    have hpass := hok
    simp only [validateProjectedStream, bind_ok_iff, require_ok_iff, exists_const] at hpass
    obtain ⟨⟨-, hlength, -⟩, -, s', hpass, -⟩ := hpass
    obtain ⟨events, hrep, hpayloads⟩ := exists_events hlength hpass
    refine ⟨events, ?_, hrep, validateEventStream_of_projected hok hrep htarget hexact⟩
    rw [mapM_some_iff]
    exact forall₂_imp_mem hpayloads fun henvelope hpayload => decodeEnvelope_of_plain hpayload (hplain _ henvelope)

/-! ## Two streams -/

def sampleRuntime : RuntimeProtocol := ⟨sampleProtocol.codec, fun _ => zeroDigest.text, fun _ _ _ => ""⟩

def sampleRequest : Dict String Value := authorityFields.map fun name => (name, .null)

def objectOf (event : P1Event) : JsonObject := ⟨event.document, event.nodup_keys_document⟩

def envelopeOf (event : P1Event) : Envelope :=
  ⟨"", event.sequence, sampleRequest, zeroDigest.text, event.body.eventType, event.body.kind.family, event.pairs⟩

def sampleStream (bodies : List P1Body) : List P1Event :=
  bodies.zipIdx.filterMap fun numbered =>
    if h : 0 < numbered.2 + 2 ∧ numbered.2 + 2 ≤ maxCount then some ⟨numbered.2 + 2, sampleTime, numbered.1, h⟩
    else none

def sampleFill (text : String) (quantity : Decimal) : P1Body :=
  if hq : 0 < quantity ∧ 0 < Decimal.scaled 100 0 ∧ 0 ≤ (0 : Decimal) then
    .fill ⟨sampleIdentifier "t", sampleIdentifier text, .buy, quantity, .scaled 100 0, 0, hq⟩
  else sampleStart

def unitCompletion (fills : ℕ) : P1Body := sampleCompletion 1 1 fills 1

def unitStream (fills : List P1Body) (completion : P1Body) : List P1Event :=
  sampleStream ([sampleStart, sampleTarget "t" 1,
    .targetQuantityPlanned ⟨sampleIdentifier "t", 1, one_nonnegative⟩,
    .orderSubmitted ⟨sampleIdentifier "t", sampleIdentifier "n", sampleIdentifier "t", [sampleIdentifier "s"], .buy, 1,
      sampleSignals_valid, one_positive⟩] ++ fills ++
    [.positionObserved ⟨1, .scaled 100 0, 0, 0, by decide +kernel⟩, sampleAccount, completion])

theorem fits_envelopeOf {events : List P1Event} (h : ∀ event ∈ events, TextsFit event) :
    (∀ envelope ∈ events.map envelopeOf, PlainPayload envelope) ∧
      (events.map envelopeOf).mapM decodeEnvelope = some events := by
  have hfits := fun event hevent => (P1Event.forall_pairs_fit event).2 (h event hevent)
  refine ⟨List.forall_mem_map.2 fun event hevent pair hpair =>
    ⟨hfits event hevent pair hpair, P1Event.pairs_ne_bool hpair⟩, mapM_some_iff.2 ?_⟩
  exact List.forall₂_map_left_iff.2 (List.forall₂_same.2 fun event hevent =>
    decodeEnvelope_of_fits rfl rfl rfl (hfits event hevent))

def filledStream : List P1Event := unitStream [sampleFill "f" 1] (unitCompletion 1)

/-- The control plane decodes and accepts what the runtime accepts. -/
theorem filled_stream_agrees :
    validateProjectedStream sampleRuntime "" sampleRequest (filledStream.map objectOf) (filledStream.map envelopeOf) =
      .ok () ∧
      ∃ decoded, (filledStream.map envelopeOf).mapM decodeEnvelope = some decoded ∧
        List.Forall₂ Represents (filledStream.map objectOf) decoded ∧
        validateEventStream sampleRuntime.codec decoded = .ok decoded := by
  have hok : validateProjectedStream sampleRuntime "" sampleRequest (filledStream.map objectOf)
      (filledStream.map envelopeOf) = .ok () := by decide +kernel
  have htarget : ∃ object ∈ filledStream.map objectOf, object.members.kind? = some .targetAccepted := by
    decide +kernel
  exact ⟨hok, (projected_stream_agrees hok htarget).2 ⟨(fits_envelopeOf (by decide +kernel)).1, by decide +kernel⟩⟩

def dust : Decimal := .scaled 1 100

def dustStream : List P1Event := unitStream [sampleFill "f" 1, sampleFill "g" dust] (unitCompletion 2)

/-- The runtime accepts an order of one filled with a little more than one; the control plane refuses it. -/
theorem dust_is_lost :
    validateProjectedStream sampleRuntime "" sampleRequest (dustStream.map objectOf) (dustStream.map envelopeOf) =
      .ok () ∧
      FitsDigits 96 1 ∧ FitsDigits 96 dust ∧ (dustStream.map envelopeOf).mapM decodeEnvelope = some dustStream ∧
      validateEventStream sampleRuntime.codec dustStream =
        .error (.valueError "fill facts do not match the submitted order") := by
  refine ⟨by decide +kernel, ⟨1, 0, by norm_num, by norm_num⟩, ⟨1, -100, by norm_num, ?_⟩,
    (fits_envelopeOf (by decide +kernel)).2, by decide +kernel⟩
  change ((1 : ℤ) : ℚ) / 10 ^ 100 = ((1 : ℤ) : ℚ) * (10 : ℚ) ^ (-100 : ℤ)
  rw [zpow_neg, div_eq_mul_inv]
  rfl

end TradingAgent.Nautilus
