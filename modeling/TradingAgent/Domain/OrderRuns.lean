import TradingAgent.Domain.OrderFingerprint

/-!
# Runs of one order

The validator of an order state against the reducer, and what the repeated delivery of observations changes.
-/

namespace TradingAgent

open Outcome

/-- `OrderState._validate_history` -/
def validateOrderState (orderId : Uuid) (status : OrderStatus) (cancelPending : Bool) (lastSequence : ℕ)
    (appliedEvents : List OrderEvent) : Except OrderReductionError Unit :=
  if appliedEvents = [] then
    require (status = .initialized ∧ cancelPending = false ∧ lastSequence = 0)
      (.invalidHistory "empty history requires INITIALIZED status, no pending cancel, and sequence zero")
  else do
    let history ← validateHistory orderId appliedEvents
    require (history.previousSequence = lastSequence)
      (.invalidHistory "last_sequence does not match applied_events")
    require (history.current = (status, cancelPending))
      (.invalidHistory "status or cancel_pending does not match applied_events")

variable {orderId : Uuid} {status : OrderStatus} {cancelPending : Bool} {lastSequence : ℕ}
  {events : List OrderEvent}

theorem validateOrderState_ok_iff : validateOrderState orderId status cancelPending lastSequence events = .ok () ↔
      validateHistory orderId events = .ok (historyOfState status cancelPending lastSequence events) := by
  unfold validateOrderState
  by_cases hnil : events = []
  · subst hnil
    rw [if_pos rfl, require_ok_iff]
    unfold validateHistory historyOfState
    simp [OrderHistory.empty, pure_eq_ok, eq_comm, and_assoc]
  · rw [if_neg hnil]
    simp only [bind_ok_iff, require_ok_iff, exists_const]
    constructor
    · rintro ⟨history, hhistory, hsequence, hcurrent⟩
      rw [hhistory]
      exact congrArg Except.ok (OrderHistory.ext (historyChecked hhistory).eventIds hcurrent hsequence)
    · intro h
      exact ⟨_, h, rfl, rfl⟩

/-- A cancellation was requested; neither its rejection nor a terminal status has followed. -/
def CancelOutstanding (events : List OrderEvent) : Prop :=
  ∃ before request after, events = before ++ request :: after ∧ request.targetStatus = .pendingCancel ∧
    ∀ event ∈ after, event.cancelResolution ≠ some .rejected ∧ ¬ event.targetStatus.IsTerminal

theorem cancelOutstanding_concat_iff {event : OrderEvent} :
    CancelOutstanding (events ++ [event]) ↔ event.targetStatus = .pendingCancel ∨
      CancelOutstanding events ∧ event.cancelResolution ≠ some .rejected ∧ ¬ event.targetStatus.IsTerminal := by
  constructor
  · rintro ⟨before, request, after, hevents, hrequest, hafter⟩
    cases after using List.reverseRecOn with
    | nil =>
      obtain rfl := List.singleton_inj.1 (List.append_inj' hevents rfl).2
      exact .inl hrequest
    | append_singleton after last =>
      rw [← List.cons_append, ← List.append_assoc] at hevents
      obtain ⟨rfl, hlast⟩ := List.append_inj' hevents rfl
      obtain rfl := List.singleton_inj.1 hlast
      refine .inr ⟨⟨before, request, after, rfl, hrequest, fun e he => ?_⟩, hafter event (by simp)⟩
      exact hafter e (List.mem_append_left _ he)
  · rintro (hrequest | ⟨⟨before, request, after, rfl, hrequest, hafter⟩, hevent⟩)
    · exact ⟨events, event, [], rfl, hrequest, by simp⟩
    · refine ⟨before, request, after ++ [event], by simp, hrequest, ?_⟩
      simpa [or_imp, forall_and] using ⟨⟨fun e he => (hafter e he).1, hevent.1⟩, fun e he => (hafter e he).2, hevent.2⟩

theorem orderStatusTransitions_pending (current : OrderStateKey) :
    ∀ row ∈ orderStatusTransitions current, (row.2.2 = true ↔ row.1.1 = .pendingCancel ∨
      current.2 = true ∧ row.1.2 ≠ some .rejected ∧ ¬ row.1.1.IsTerminal) := by
  obtain ⟨status, pending⟩ := current
  cases status <;> cases pending <;> decide

theorem pendingUpdate_forbidden (status : OrderStatus) (resolution : Option OrderCancelResolution) :
    (orderStatusTransitions (status, true)).get? (.pendingUpdate, resolution) = none := by
  rcases resolution with _ | ⟨⟨⟩⟩ <;> cases status <;> decide

variable {current next : OrderStateKey} {event : OrderEvent}

theorem nextStateKey_ok_iff : nextStateKey current event = .ok next ↔ ¬ current.1.IsTerminal ∧
    (orderStatusTransitions current).get? (event.targetStatus, event.cancelResolution) = some next := by
  unfold nextStateKey
  by_cases hterminal : current.1.IsTerminal
  · simp [hterminal]
  · rw [if_neg hterminal]
    cases (orderStatusTransitions current).get? (event.targetStatus, event.cancelResolution) with
    | some key => simp [hterminal]
    | none => by_cases h : current.2 = true ∧ event.targetStatus = .pendingUpdate <;> simp [h]

theorem cancelPending_iff {history : OrderHistory} (h : validateHistory orderId events = .ok history) :
    history.current.2 = true ↔ CancelOutstanding events := by
  induction events using List.reverseRecOn generalizing history with
  | nil =>
    obtain rfl := Except.ok.inj h
    simp [OrderHistory.empty, CancelOutstanding]
  | append_singleton events event ih =>
    unfold validateHistory at h
    rw [foldlM_concat, bind_ok_iff] at h
    obtain ⟨before, hbefore, h⟩ := h
    obtain ⟨-, -, -, current, hcurrent, rfl⟩ := historyStep_ok_iff.1 h
    have hrow := Dict.mem_of_get?_eq_some (nextStateKey_ok_iff.1 hcurrent).2
    rw [cancelOutstanding_concat_iff, ← ih hbefore]
    exact orderStatusTransitions_pending before.current _ hrow

variable {fingerprint : OrderEventMaterial → Sha256} {state : OrderState}

theorem reduceOrder_new {next : OrderState} (hnew : ∀ applied ∈ state.appliedEvents, applied.eventId ≠ event.eventId)
    (h : reduceOrder fingerprint state event = .ok next) :
    ∃ key, nextStateKey (state.status, state.cancelPending) event = .ok key := by
  obtain ⟨-, horder, ⟨applied, happlied, hid, -⟩ | ⟨-, hevents⟩⟩ := reduceOrder_ok h
  · exact absurd hid (hnew applied happlied)
  · have hvalid := next.valid
    unfold validateHistory at hvalid
    rw [hevents, horder, foldlM_concat, bind_ok_iff] at hvalid
    obtain ⟨before, hbefore, hvalid⟩ := hvalid
    obtain rfl : state.history = before := Except.ok.inj (state.valid.symm.trans hbefore)
    obtain ⟨-, -, -, key, hkey, -⟩ := historyStep_ok_iff.1 hvalid
    exact ⟨key, hkey⟩

/-- The validator accepts exactly the states that the reducer reaches, and what follows for them. -/
theorem orderState_valid_iff_reachable (fingerprint : OrderEventMaterial → Sha256) :
    (∀ orderId status cancelPending lastSequence events,
      validateOrderState orderId status cancelPending lastSequence events = .ok () ↔
        ∃ state, events.foldlM (reduceOrder fingerprint) (.initial orderId) = .ok state ∧
          state.orderId = orderId ∧ state.status = status ∧ state.cancelPending = cancelPending ∧
          state.lastSequence = lastSequence ∧ state.appliedEvents = events) ∧
    (∀ state event next, reduceOrder fingerprint state event = .ok next →
      validateOrderState next.orderId next.status next.cancelPending next.lastSequence next.appliedEvents =
        .ok ()) ∧
    (∀ (state : OrderState) (event : OrderEvent),
      (∀ applied ∈ state.appliedEvents, applied.eventId ≠ event.eventId) →
        state.status.IsTerminal ∨ (state.cancelPending = true ∧ event.targetStatus = .pendingUpdate) →
          ∀ next, reduceOrder fingerprint state event ≠ .ok next) ∧
    ∀ state : OrderState, state.cancelPending = true ↔ CancelOutstanding state.appliedEvents := by
  refine ⟨?_, ?_, ?_, ?_⟩
  · intro orderId status cancelPending lastSequence events
    rw [validateOrderState_ok_iff]
    constructor
    · intro h
      have hsorted : events.Pairwise fun a b => a.sequence ≤ b.sequence :=
        (historyChecked h).sorted.imp fun hlt => hlt.le
      obtain ⟨state, rfl, hfields⟩ : ∃ state : OrderState, state.orderId = orderId ∧ state.status = status ∧
          state.cancelPending = cancelPending ∧ state.lastSequence = lastSequence ∧
          state.appliedEvents = events :=
        ⟨⟨orderId, status, cancelPending, lastSequence, events, h⟩, rfl, rfl, rfl, rfl, rfl⟩
      exact ⟨state, foldlM_reduceOrder_history hsorted (by simp [hfields]), rfl, hfields⟩
    · rintro ⟨state, -, rfl, rfl, rfl, rfl, rfl⟩
      exact state.valid
  · intro state event next _
    exact validateOrderState_ok_iff.2 next.valid
  · intro state event hnew hclosed next h
    obtain ⟨key, hkey⟩ := reduceOrder_new hnew h
    obtain ⟨hopen, hrow⟩ := nextStateKey_ok_iff.1 hkey
    rcases hclosed with hterminal | ⟨hpending, hupdate⟩
    · exact hopen hterminal
    · rw [hpending, hupdate, pendingUpdate_forbidden] at hrow
      cases hrow
  · intro state
    exact cancelPending_iff state.valid

/-- An event that was accepted is recognised from then on, before its sequence and the status are looked at. -/
theorem reduceOrder_absorbs : AbsorbsInputs (reduceOrder fingerprint) where
  accepted := by
    intro state next event h
    obtain ⟨-, -, ⟨-, -, -, -, rfl⟩ | ⟨-, hevents⟩⟩ := reduceOrder_ok h
    · exact h
    · exact reduceOrder_of_mem (by rw [hevents]; exact List.mem_append_right _ List.mem_cons_self)
  kept := by
    intro state next event other h hother
    obtain ⟨horder, -, ⟨applied, happlied, hid, hsame, -⟩ | ⟨-, hevents⟩⟩ := reduceOrder_ok h
    · obtain ⟨-, hnext, ⟨-, -, -, -, rfl⟩ | ⟨-, hevents⟩⟩ := reduceOrder_ok hother
      · exact h
      · refine reduceOrder_of_same (horder.trans hnext.symm) ?_ hid hsame
        rw [hevents]
        exact List.mem_append_left _ happlied
    · exact absurd hevents (by simp)

theorem foldlM_reduceOrder_conflict (hdistinct : Distinguishes fingerprint (· ∈ events)) {a b : OrderEvent}
    (ha : a ∈ events) (hb : b ∈ events) (hid : a.eventId = b.eventId) (hne : a ≠ b) :
    ∃ error, events.foldlM (reduceOrder fingerprint) (.initial orderId) = .error error := by
  cases hfold : events.foldlM (reduceOrder fingerprint) (.initial orderId) with
  | error e => exact ⟨e, rfl⟩
  | ok state =>
    have hmem := (reduceOrder_journals hdistinct).mem_foldlM (s := .initial orderId) (fun _ h => absurd h List.not_mem_nil)
      (fun _ h => h) hfold
    exact absurd (state.eq_of_eventId ((hmem a).2 (.inr ha)) ((hmem b).2 (.inr hb)) hid) hne

theorem orderId_of_foldlM {state next : OrderState} (h : events.foldlM (reduceOrder fingerprint) state = .ok next) :
    ∀ event ∈ events, event.orderId = state.orderId := by
  induction events generalizing state with
  | nil => exact fun _ h => absurd h List.not_mem_nil
  | cons event events ih =>
    rw [List.foldlM_cons, bind_ok_iff] at h
    obtain ⟨after, hafter, h⟩ := h
    obtain ⟨horder, hkept, -⟩ := reduceOrder_ok hafter
    rw [List.forall_mem_cons]
    exact ⟨horder, fun other hother => (ih h other hother).trans hkept⟩

/-- Further copies of applied events leave the run as it is; a different event with a used id ends it. -/
theorem redelivery_keeps_order (sha256 : String → Sha256) (orderId : Uuid) (events : List OrderEvent) :
    (∀ (fingerprint : OrderEventMaterial → Sha256) (events' : List OrderEvent), Redelivered [] events events' →
      events'.foldlM (reduceOrder fingerprint) (.initial orderId) =
        events.foldlM (reduceOrder fingerprint) (.initial orderId)) ∧
    (FingerprintsDiffer sha256 events → ∀ a ∈ events, ∀ b ∈ events, a.eventId = b.eventId → a ≠ b →
      ∃ error, events.foldlM (reduceOrder (eventFingerprint sha256)) (.initial orderId) = .error error) := by
  constructor
  · intro fingerprint events' hcopies
    exact reduceOrder_absorbs.foldlM_eq hcopies fun _ h => absurd h List.not_mem_nil
  · intro hdiffer a ha b hb hid hne
    cases hfold : events.foldlM (reduceOrder (eventFingerprint sha256)) (.initial orderId) with
    | error e => exact ⟨e, rfl⟩
    | ok state =>
      have hdistinct := distinguishes_eventFingerprint (orderId_of_foldlM hfold) hdiffer
      rw [← hfold]
      exact foldlM_reduceOrder_conflict hdistinct ha hb hid hne

def submittedEvent : OrderEvent := ⟨⟨1, 0, 1, .submitted, ⟨0, by decide⟩, none, none⟩, by decide +kernel⟩

def rejectedEvent : OrderEvent :=
  ⟨⟨2, 0, 2, .rejected, ⟨5, by decide⟩, some ⟨"RISK_LIMIT", by decide⟩, none⟩, by decide +kernel⟩

/-- `submittedEvent` under another status. -/
def deniedEvent : OrderEvent :=
  ⟨⟨1, 0, 1, .denied, ⟨0, by decide⟩, some ⟨"RISK_LIMIT", by decide⟩, none⟩, by decide +kernel⟩

/-- Both events once more after the terminal one. -/
theorem sample_redelivery_keeps_order :
    [submittedEvent, rejectedEvent, submittedEvent, rejectedEvent].foldlM (reduceOrder (eventFingerprint id))
        (.initial 0) = [submittedEvent, rejectedEvent].foldlM (reduceOrder (eventFingerprint id)) (.initial 0) ∧
      ∃ error, [submittedEvent, rejectedEvent, deniedEvent].foldlM (reduceOrder (eventFingerprint id))
        (.initial 0) = .error error := by
  constructor
  · refine (redelivery_keeps_order id 0 [submittedEvent, rejectedEvent]).1 _ _ (.next (.next ?_))
    exact .again (by simp) (.again (by simp) (.done _))
  · exact (redelivery_keeps_order id 0 [submittedEvent, rejectedEvent, deniedEvent]).2 (Set.injOn_id _) submittedEvent
      (by simp) deniedEvent (by simp) rfl fun h => OrderStatus.noConfusion (congrArg (fun event => event.targetStatus) h)

end TradingAgent
