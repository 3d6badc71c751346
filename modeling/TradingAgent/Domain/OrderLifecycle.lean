import TradingAgent.Domain.DigitLimits
import TradingAgent.Domain.Events
import TradingAgent.Lib.DigitText
import TradingAgent.Lib.Journal

/-!
# Order lifecycle

Lifecycle observations of one order and the state that their history determines. The fingerprint of an observation is
a parameter here.
-/

namespace TradingAgent

open Outcome DigitText

inductive OrderStatus
  | initialized
  | submitted
  | accepted
  | pendingUpdate
  | pendingCancel
  | triggered
  | partiallyFilled
  | filled
  | canceled
  | expired
  | rejected
  | denied
  deriving DecidableEq

inductive OrderCancelResolution
  | rejected
  deriving DecidableEq

def OrderStatus.IsTerminal (s : OrderStatus) : Prop :=
  s ∈ [OrderStatus.filled, .canceled, .expired, .rejected, .denied]

instance (s : OrderStatus) : Decidable s.IsTerminal := inferInstanceAs (Decidable (_ ∈ _))

def OrderStatus.RequiresReason (s : OrderStatus) : Prop :=
  s ∈ [OrderStatus.canceled, .expired, .rejected, .denied]

instance (s : OrderStatus) : Decidable s.RequiresReason := inferInstanceAs (Decidable (_ ∈ _))

abbrev OrderStateKey := OrderStatus × Bool

abbrev OrderObservationKey := OrderStatus × Option OrderCancelResolution

/-- A row of the table. -/
def observed (target : OrderStatus) (cancelPending : Bool) : OrderObservationKey × OrderStateKey :=
  ((target, none), (target, cancelPending))

def cancelRejected (target : OrderStatus) : OrderObservationKey × OrderStateKey :=
  ((target, some .rejected), (target, false))

def orderStatusTransitions : OrderStateKey → Dict OrderObservationKey OrderStateKey
  | (.initialized, false) => [observed .submitted false, observed .denied false]
  | (.submitted, false) =>
    [observed .accepted false, observed .pendingCancel true, observed .partiallyFilled false,
      observed .filled false, observed .canceled false, observed .expired false, observed .rejected false]
  | (.accepted, false) =>
    [observed .pendingUpdate false, observed .pendingCancel true, observed .triggered false,
      observed .partiallyFilled false, observed .filled false, observed .canceled false,
      observed .expired false]
  | (.pendingUpdate, false) =>
    [observed .accepted false, observed .pendingCancel true, observed .triggered false,
      observed .partiallyFilled false, observed .filled false, observed .canceled false,
      observed .expired false]
  | (.triggered, false) =>
    [observed .pendingUpdate false, observed .pendingCancel true, observed .partiallyFilled false,
      observed .filled false, observed .canceled false, observed .expired false]
  | (.partiallyFilled, false) =>
    [observed .pendingUpdate false, observed .pendingCancel true, observed .partiallyFilled false,
      observed .filled false, observed .canceled false, observed .expired false]
  | (.pendingCancel, true) =>
    [cancelRejected .accepted, observed .triggered true, observed .partiallyFilled true,
      observed .filled false, observed .canceled false, observed .expired false]
  | (.triggered, true) =>
    [cancelRejected .triggered, observed .partiallyFilled true, observed .filled false,
      observed .canceled false, observed .expired false]
  | (.partiallyFilled, true) =>
    [observed .partiallyFilled true, cancelRejected .partiallyFilled, observed .filled false,
      observed .canceled false, observed .expired false]
  | _ => []

/-! ## Observations -/

/-- The pattern `^[A-Z][A-Z0-9_]{0,63}$`. -/
def isCanonicalReason (text : String) : Bool :=
  match text.toList with
  | [] => false
  | first :: rest =>
    first.isUpper && rest.length ≤ 63 && rest.all fun c => c.isUpper || c.isDigit || c == '_'

abbrev CanonicalReason : Type := {text : String // isCanonicalReason text = true}

/-- The fields of an observation that its fingerprint covers. -/
@[ext] structure OrderEventMaterial where
  eventId : Uuid
  orderId : Uuid
  sequence : ℕ
  targetStatus : OrderStatus
  occurredAt : Instant
  reason : Option CanonicalReason
  cancelResolution : Option OrderCancelResolution
  deriving DecidableEq

/-- The bound on `sequence`, which the fingerprint writes out, and the checks of `_validate_reason`. -/
def OrderEventMaterial.Valid (e : OrderEventMaterial) : Prop :=
  0 < e.sequence ∧ (naturalText e.sequence).length ≤ intMaxStrDigits ∧
    (e.targetStatus.RequiresReason → e.reason ≠ none) ∧ (e.cancelResolution ≠ none → e.reason ≠ none)

instance (e : OrderEventMaterial) : Decidable e.Valid := inferInstanceAs (Decidable (_ ∧ _))

/-- A valid observation. -/
@[ext] structure OrderEvent extends OrderEventMaterial where
  valid : toOrderEventMaterial.Valid
  deriving DecidableEq

inductive OrderReductionError
  /-- "terminal order status cannot change" -/
  | terminalStatus (status : OrderStatus)
  /-- "pending cancel forbids order update" -/
  | pendingCancelForbidsUpdate
  /-- "forbidden order transition" -/
  | forbiddenTransition (current : OrderStateKey) (observation : OrderObservationKey)
  /-- "order id mismatch" -/
  | orderIdMismatch (state event : Uuid)
  /-- "event id conflict" -/
  | eventIdConflict (eventId : Uuid)
  /-- "non-increasing sequence" -/
  | nonIncreasingSequence (event state : ℕ)
  /-- A text of `OrderState._validate_history`. -/
  | invalidHistory (message : String)

def nextStateKey (current : OrderStateKey) (event : OrderEvent) : Except OrderReductionError OrderStateKey :=
  if current.1.IsTerminal then .error (.terminalStatus current.1)
  else match (orderStatusTransitions current).get? (event.targetStatus, event.cancelResolution) with
    | some next => .ok next
    | none =>
      if current.2 = true ∧ event.targetStatus = .pendingUpdate then .error .pendingCancelForbidsUpdate
      else .error (.forbiddenTransition current (event.targetStatus, event.cancelResolution))

/-! ## States -/

/-- The variables of the loop of `OrderState._validate_history`. -/
@[ext] structure OrderHistory where
  eventIds : List Uuid
  current : OrderStateKey
  previousSequence : ℕ

def OrderHistory.empty : OrderHistory := ⟨[], (.initialized, false), 0⟩

def historyStep (orderId : Uuid) (history : OrderHistory) (event : OrderEvent) :
    Except OrderReductionError OrderHistory := do
  require (event.orderId = orderId) (.invalidHistory "applied event order_id does not match state order_id")
  require (event.eventId ∉ history.eventIds) (.invalidHistory "applied_events contain a duplicate event_id")
  require (history.previousSequence < event.sequence)
    (.invalidHistory "applied_events contain non-increasing sequence")
  let current ← nextStateKey history.current event
  return ⟨history.eventIds ++ [event.eventId], current, event.sequence⟩

def validateHistory (orderId : Uuid) (events : List OrderEvent) : Except OrderReductionError OrderHistory :=
  events.foldlM (historyStep orderId) .empty

def historyOfState (status : OrderStatus) (cancelPending : Bool) (lastSequence : ℕ)
    (appliedEvents : List OrderEvent) : OrderHistory :=
  ⟨appliedEvents.map fun event => event.eventId, (status, cancelPending), lastSequence⟩

/-- A state that its history determines. -/
@[ext] structure OrderState where
  orderId : Uuid
  status : OrderStatus
  cancelPending : Bool
  lastSequence : ℕ
  appliedEvents : List OrderEvent
  valid : validateHistory orderId appliedEvents =
    .ok (historyOfState status cancelPending lastSequence appliedEvents)
  deriving DecidableEq

namespace OrderState

/-- `OrderState(order_id=...)` -/
def initial (orderId : Uuid) : OrderState := ⟨orderId, .initialized, false, 0, [], rfl⟩

def history (state : OrderState) : OrderHistory :=
  historyOfState state.status state.cancelPending state.lastSequence state.appliedEvents

def extend (state : OrderState) (event : OrderEvent) (key : OrderStateKey)
    (h : historyStep state.orderId state.history event =
      .ok (historyOfState key.1 key.2 event.sequence (state.appliedEvents ++ [event]))) : OrderState where
  orderId := state.orderId
  status := key.1
  cancelPending := key.2
  lastSequence := event.sequence
  appliedEvents := state.appliedEvents ++ [event]
  valid := by
    unfold validateHistory
    rw [foldlM_concat]
    show (validateHistory state.orderId state.appliedEvents >>= _) = _
    rw [state.valid]
    exact h

end OrderState

variable {orderId : Uuid}

theorem historyStep_ok_iff {history history' : OrderHistory} {event : OrderEvent} :
    historyStep orderId history event = .ok history' ↔ event.orderId = orderId ∧ event.eventId ∉ history.eventIds ∧
        history.previousSequence < event.sequence ∧ ∃ current, nextStateKey history.current event = .ok current ∧
          ⟨history.eventIds ++ [event.eventId], current, event.sequence⟩ = history' := by
  unfold historyStep
  simp only [bind_ok_iff, require_ok_iff, pure_eq_ok, Except.ok.injEq, exists_const]

variable (fingerprint : OrderEventMaterial → Sha256)

/-- `reduce_order` -/
def reduceOrder (state : OrderState) (event : OrderEvent) : Except OrderReductionError OrderState :=
  if horder : event.orderId = state.orderId then
    match hfind : state.appliedEvents.find? fun applied => applied.eventId = event.eventId with
    | some duplicate =>
      if fingerprint duplicate.toOrderEventMaterial = fingerprint event.toOrderEventMaterial then .ok state
      else .error (.eventIdConflict event.eventId)
    | none =>
      if hsequence : state.lastSequence < event.sequence then
        match hkey : nextStateKey (state.status, state.cancelPending) event with
        | .error e => .error e
        | .ok key => .ok (state.extend event key (historyStep_ok_iff.2 ⟨horder, by
            simpa [OrderState.history, historyOfState] using hfind, hsequence, key, hkey, by
            simp [OrderState.history, historyOfState]⟩))
      else .error (.nonIncreasingSequence event.sequence state.lastSequence)
  else .error (.orderIdMismatch state.orderId event.orderId)

/-! ## What a state says about its history -/

structure HistoryChecked (orderId : Uuid) (events : List OrderEvent) (history : OrderHistory) : Prop where
  orderIds : ∀ event ∈ events, event.orderId = orderId
  eventIds : history.eventIds = events.map fun event => event.eventId
  distinct : (events.map fun event => event.eventId).Nodup
  sorted : events.Pairwise fun a b => a.sequence < b.sequence
  below : ∀ event ∈ events, event.sequence ≤ history.previousSequence

variable {events : List OrderEvent}

theorem historyChecked {history : OrderHistory}
    (h : validateHistory orderId events = .ok history) : HistoryChecked orderId events history := by
  induction events using List.reverseRecOn generalizing history with
  | nil =>
    obtain rfl := Except.ok.inj h
    exact ⟨by simp, rfl, by simp, .nil, by simp⟩
  | append_singleton events event ih =>
    unfold validateHistory at h
    rw [foldlM_concat, bind_ok_iff] at h
    obtain ⟨before, hbefore, h⟩ := h
    have hchecked := ih hbefore
    obtain ⟨horder, hnew, hsequence, current, -, rfl⟩ := historyStep_ok_iff.1 h
    rw [hchecked.eventIds] at hnew
    have hlt : ∀ a ∈ events, a.sequence < event.sequence := fun a ha => (hchecked.below a ha).trans_lt hsequence
    refine ⟨?_, ?_, ?_, ?_, ?_⟩
    · simpa [or_imp, forall_and] using ⟨hchecked.orderIds, horder⟩
    · simp [hchecked.eventIds]
    · rw [List.map_append, List.map_singleton]
      exact List.nodup_append.2 ⟨hchecked.distinct, List.nodup_singleton _, by simpa using hnew⟩
    · exact List.pairwise_append.2 ⟨hchecked.sorted, List.pairwise_singleton _ _, by simpa using hlt⟩
    · simpa [or_imp, forall_and] using fun a ha => (hlt a ha).le

namespace OrderState

variable {state state' : OrderState} {event : OrderEvent}

theorem checked (state : OrderState) : HistoryChecked state.orderId state.appliedEvents state.history :=
  historyChecked state.valid

theorem sorted (state : OrderState) : state.appliedEvents.Pairwise fun a b => a.sequence < b.sequence :=
  state.checked.sorted

theorem eq_of_history (horder : state.orderId = state'.orderId)
    (hevents : state.appliedEvents = state'.appliedEvents) : state = state' := by
  have hvalid := state.valid
  rw [horder, hevents, state'.valid] at hvalid
  obtain ⟨-, hcurrent, hsequence⟩ := OrderHistory.mk.inj (Except.ok.inj hvalid)
  obtain ⟨hstatus, hpending⟩ := Prod.mk.inj hcurrent
  exact OrderState.ext horder hstatus.symm hpending.symm hsequence.symm hevents

theorem eq_of_eventId {a b : OrderEvent} (ha : a ∈ state.appliedEvents) (hb : b ∈ state.appliedEvents)
    (h : a.eventId = b.eventId) : a = b :=
  List.inj_on_of_nodup_map state.checked.distinct ha hb h

end OrderState

variable {fingerprint} {state next : OrderState} {event : OrderEvent}

theorem reduceOrder_ok (h : reduceOrder fingerprint state event = .ok next) :
    event.orderId = state.orderId ∧ next.orderId = state.orderId ∧
      ((∃ applied ∈ state.appliedEvents, applied.eventId = event.eventId ∧
          fingerprint applied.toOrderEventMaterial = fingerprint event.toOrderEventMaterial ∧ next = state) ∨
        ((∀ applied ∈ state.appliedEvents, applied.sequence < event.sequence) ∧
          next.appliedEvents = state.appliedEvents ++ [event])) := by
  unfold reduceOrder at h
  split at h
  · rename_i horder
    split at h
    · rename_i duplicate hfind
      split at h
      · rename_i hsame
        obtain rfl := Except.ok.inj h
        exact ⟨horder, rfl, .inl ⟨duplicate, List.mem_of_find?_eq_some hfind,
          by simpa using List.find?_some hfind, hsame, rfl⟩⟩
      · cases h
    · split at h
      · rename_i hsequence
        split at h
        · cases h
        · obtain rfl := Except.ok.inj h
          exact ⟨horder, rfl, .inr ⟨fun a ha => (state.checked.below a ha).trans_lt hsequence, rfl⟩⟩
      · cases h
  · cases h

theorem reduceOrder_of_same {applied : OrderEvent} (horder : event.orderId = state.orderId)
    (h : applied ∈ state.appliedEvents) (hid : applied.eventId = event.eventId)
    (hsame : fingerprint applied.toOrderEventMaterial = fingerprint event.toOrderEventMaterial) :
    reduceOrder fingerprint state event = .ok state := by
  unfold reduceOrder
  rw [dif_pos horder]
  split
  · rename_i duplicate hfind
    obtain rfl : duplicate = applied := OrderState.eq_of_eventId (List.mem_of_find?_eq_some hfind) h
      ((show duplicate.eventId = event.eventId by simpa using List.find?_some hfind).trans hid.symm)
    rw [if_pos hsame]
  · rename_i hfind
    exact absurd (decide_eq_true hid) (List.find?_eq_none.1 hfind applied h)

theorem reduceOrder_of_mem (h : event ∈ state.appliedEvents) : reduceOrder fingerprint state event = .ok state :=
  reduceOrder_of_same (state.checked.orderIds event h) h rfl rfl

theorem reduceOrder_of_history {history : OrderHistory}
    (h : validateHistory state.orderId (state.appliedEvents ++ [event]) = .ok history) :
    ∃ next, reduceOrder fingerprint state event = .ok next ∧ next.orderId = state.orderId ∧
      next.appliedEvents = state.appliedEvents ++ [event] := by
  unfold validateHistory at h
  rw [foldlM_concat, bind_ok_iff] at h
  obtain ⟨before, hbefore, h⟩ := h
  obtain rfl : state.history = before := Except.ok.inj (state.valid.symm.trans hbefore)
  obtain ⟨horder, hnew, hsequence, current, hkey, -⟩ := historyStep_ok_iff.1 h
  unfold reduceOrder
  rw [dif_pos horder]
  split
  · rename_i duplicate hfind
    refine absurd (List.mem_map.2 ⟨duplicate, List.mem_of_find?_eq_some hfind, ?_⟩) hnew
    simpa using List.find?_some hfind
  · rw [dif_pos (show state.lastSequence < event.sequence from hsequence)]
    split
    · rename_i e hkey'
      rw [show nextStateKey (state.status, state.cancelPending) event = .ok current from hkey] at hkey'
      cases hkey'
    · exact ⟨_, rfl, rfl, rfl⟩

theorem foldlM_reduceOrder_orderId
    (h : events.foldlM (reduceOrder fingerprint) state = .ok next) : next.orderId = state.orderId :=
  foldlM_invariant (fun t => t.orderId = state.orderId)
    (fun _ _ _ _ ht hstep => (reduceOrder_ok hstep).2.1.trans ht) rfl h

/-- Different observations under one event id have different fingerprints. -/
def Distinguishes (fingerprint : OrderEventMaterial → Sha256) (admitted : OrderEvent → Prop) : Prop :=
  ∀ a b, admitted a → admitted b → a.eventId = b.eventId →
    fingerprint a.toOrderEventMaterial = fingerprint b.toOrderEventMaterial → a = b

variable {admitted : OrderEvent → Prop}

theorem reduceOrder_journals (h : Distinguishes fingerprint admitted) :
    Journals (reduceOrder fingerprint) OrderState.appliedEvents (·.sequence) admitted := by
  intro state event next hstate hevent hreduce
  obtain ⟨-, -, ⟨applied, happlied, hid, hsame, rfl⟩ | ⟨hlt, hlog⟩⟩ := reduceOrder_ok hreduce
  · obtain rfl := h applied event (hstate applied happlied) hevent hid hsame
    exact .inl ⟨happlied, rfl⟩
  · exact .inr ⟨hlt, hlog⟩

theorem foldlM_reduceOrder_eq (h : Distinguishes fingerprint admitted) {events' : List OrderEvent} {t u : OrderState}
    (hstate : ∀ a ∈ state.appliedEvents, admitted a) (hevents : ∀ a ∈ events, admitted a)
    (hsame : ∀ a, a ∈ events ↔ a ∈ events') (ht : events.foldlM (reduceOrder fingerprint) state = .ok t)
    (hu : events'.foldlM (reduceOrder fingerprint) state = .ok u) : t = u := by
  refine OrderState.eq_of_history ?_ ?_
  · rw [foldlM_reduceOrder_orderId ht, foldlM_reduceOrder_orderId hu]
  · exact (reduceOrder_journals h).log_eq OrderState.sorted hstate hevents hsame ht hu

/-! ## Replaying a history -/

variable {rest : List OrderEvent}

theorem validateHistory_of_append {history : OrderHistory}
    (h : validateHistory orderId (events ++ rest) = .ok history) :
    ∃ part, validateHistory orderId events = .ok part := by
  unfold validateHistory at h
  rw [List.foldlM_append, bind_ok_iff] at h
  obtain ⟨part, hpart, -⟩ := h
  exact ⟨part, hpart⟩

theorem foldlM_reduceOrder_rest (horder : next.orderId = state.orderId)
    (hrest : next.appliedEvents = state.appliedEvents ++ rest)
    (hsorted : events.Pairwise fun a b => a.sequence ≤ b.sequence)
    (hevents : ∀ a ∈ events, a ∈ next.appliedEvents) (hmem : ∀ a ∈ rest, a ∈ events) :
    events.foldlM (reduceOrder fingerprint) state = .ok next := by
  induction events generalizing state rest with
  | nil =>
    obtain rfl : rest = [] := List.eq_nil_iff_forall_not_mem.2 fun a ha => nomatch hmem a ha
    rw [List.append_nil] at hrest
    exact congrArg Except.ok (OrderState.eq_of_history horder.symm hrest.symm)
  | cons event events ih =>
    rw [List.foldlM_cons]
    have hevent := hevents event List.mem_cons_self
    rw [List.pairwise_cons] at hsorted
    by_cases happlied : event ∈ state.appliedEvents
    · rw [reduceOrder_of_mem happlied, ok_bind]
      refine ih horder hrest hsorted.2 (fun a ha => hevents a (List.mem_cons_of_mem _ ha)) fun a ha => ?_
      rcases List.mem_cons.1 (hmem a ha) with rfl | hmem
      · have hdistinct := next.sorted
        rw [hrest] at hdistinct
        exact absurd ((List.pairwise_append.1 hdistinct).2.2 a happlied a ha) (lt_irrefl _)
      · exact hmem
    · -- the first event that is not applied is the first of the rest
      have hnew : event ∈ rest := by
        rw [hrest, List.mem_append] at hevent
        exact hevent.resolve_left happlied
      obtain ⟨first, rest, rfl⟩ : ∃ first rest', rest = first :: rest' := by
        cases rest with
        | nil => cases hnew
        | cons first rest' => exact ⟨first, rest', rfl⟩
      have hdistinct := next.sorted
      rw [hrest] at hdistinct
      have hafter := (List.pairwise_cons.1 (List.pairwise_append.1 hdistinct).2.1).1
      obtain rfl : event = first := by
        rcases List.mem_cons.1 hnew with heq | hlater
        · exact heq
        · rcases List.mem_cons.1 (hmem first List.mem_cons_self) with heq | hfirst
          · exact heq.symm
          · exact absurd (hafter event hlater) (hsorted.1 first hfirst).not_gt
      have hhistory := next.valid
      rw [horder, hrest, List.append_cons] at hhistory
      obtain ⟨part, hpart⟩ := validateHistory_of_append hhistory
      obtain ⟨t, ht, htorder, htevents⟩ := @reduceOrder_of_history fingerprint _ _ _ hpart
      rw [ht, ok_bind]
      refine ih (horder.trans htorder.symm) (by rw [htevents, hrest, List.append_cons]) hsorted.2
        (fun a ha => hevents a (List.mem_cons_of_mem _ ha)) fun a ha => ?_
      rcases List.mem_cons.1 (hmem a (List.mem_cons_of_mem _ ha)) with rfl | hmem
      · exact absurd (hafter a ha) (lt_irrefl _)
      · exact hmem

theorem foldlM_reduceOrder_history (hsorted : events.Pairwise fun a b => a.sequence ≤ b.sequence)
    (hevents : ∀ a, a ∈ events ↔ a ∈ state.appliedEvents) :
    events.foldlM (reduceOrder fingerprint) (.initial state.orderId) = .ok state :=
  foldlM_reduceOrder_rest rfl (List.nil_append _).symm hsorted (fun a => (hevents a).1) fun a => (hevents a).2

end TradingAgent
