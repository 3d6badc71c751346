import TradingAgent.Nautilus.Documents

/-!
# Validation of a complete P1 event stream

`validate_event_stream` (`nautilus_runtime_contracts/state_machine.py`): one pass over the events that keeps
the targets, plans, orders and fills seen so far, and then the checks of the completion against them.
-/

namespace TradingAgent.Nautilus

open Outcome

structure StreamState where
  previousSimulationTime : UtcDateTime
  acceptedTargets : Dict Identifier (List Identifier) := []
  plannedTargets : Dict Identifier Decimal := []
  submittedOrders : List Identifier := []
  submittedTargets : List Identifier := []
  nativeOrderIds : List Identifier := []
  nativeFillIds : List Identifier := []
  fillCount : ℕ := 0
  positionCount : ℕ := 0
  accountCount : ℕ := 0
  submittedOrderFacts : Dict Identifier (OrderSide × Decimal × Identifier) := []
  filledQuantities : Dict Identifier ℚ := []
  lastPosition : Option PositionObserved := none
  lastAccount : Option AccountObserved := none

namespace StreamState

def acceptTarget (state : StreamState) (target : TargetAccepted) : Except Failure StreamState := do
  require (target.targetId ∉ state.acceptedTargets.keys) (.valueError "duplicate target acceptance")
  .ok { state with acceptedTargets := state.acceptedTargets.set target.targetId target.sourceSignalIds }

def planQuantity (state : StreamState) (plan : TargetQuantityPlanned) : Except Failure StreamState := do
  require (plan.targetId ∈ state.acceptedTargets.keys ∧ plan.targetId ∉ state.plannedTargets.keys)
    (.valueError "target quantity was not planned after acceptance")
  .ok { state with plannedTargets := state.plannedTargets.set plan.targetId plan.quantity }

def OrderBound (state : StreamState) (order : OrderSubmitted) : Prop :=
  state.plannedTargets ≠ [] ∧ order.clientOrderId ∉ state.submittedOrders ∧
    order.nativeOrderId ∉ state.nativeOrderIds ∧ order.targetId ∈ state.plannedTargets.keys ∧
    order.targetId ∉ state.submittedTargets ∧
    state.acceptedTargets.get? order.targetId = some order.sourceSignalIds ∧
    state.plannedTargets.get? order.targetId = some order.quantity

instance (state : StreamState) (order : OrderSubmitted) : Decidable (state.OrderBound order) :=
  inferInstanceAs (Decidable (_ ∧ _ ∧ _ ∧ _ ∧ _ ∧ _ ∧ _))

def submitOrder (state : StreamState) (order : OrderSubmitted) : Except Failure StreamState := do
  require (state.OrderBound order) (.valueError "order submission is not bound to a target plan")
  .ok { state with
    submittedOrders := state.submittedOrders.insert order.clientOrderId
    nativeOrderIds := state.nativeOrderIds.insert order.nativeOrderId
    submittedTargets := state.submittedTargets.insert order.targetId
    submittedOrderFacts :=
      state.submittedOrderFacts.set order.clientOrderId (order.side, order.quantity, order.nativeOrderId) }

def filled (state : StreamState) (orderId : Identifier) : ℚ := (state.filledQuantities.get? orderId).getD 0

def FillMatches (state : StreamState) (fill : Fill) : Prop :=
  ∃ facts ∈ state.submittedOrderFacts.get? fill.clientOrderId,
    fill.side = facts.1 ∧ state.filled fill.clientOrderId + fill.quantity ≤ facts.2.1

instance (state : StreamState) (fill : Fill) : Decidable (state.FillMatches fill) :=
  match h : state.submittedOrderFacts.get? fill.clientOrderId with
  | none => isFalse fun ⟨facts, hfacts, _⟩ => by simp [h] at hfacts
  | some facts =>
    if hmatch : fill.side = facts.1 ∧ state.filled fill.clientOrderId + fill.quantity ≤ facts.2.1 then
      isTrue ⟨facts, by simp [h], hmatch⟩
    else isFalse fun ⟨facts', hfacts, h'⟩ => hmatch (by
      obtain rfl : facts = facts' := by simpa [h] using hfacts
      exact h')

def applyFill (state : StreamState) (fill : Fill) : Except Failure StreamState := do
  require (fill.clientOrderId ∈ state.submittedOrders ∧ fill.nativeFillId ∉ state.nativeFillIds)
    (.valueError "fill occurred before order submission")
  require (state.FillMatches fill) (.valueError "fill facts do not match the submitted order")
  .ok { state with
    nativeFillIds := state.nativeFillIds.insert fill.nativeFillId
    filledQuantities := state.filledQuantities.set fill.clientOrderId
      (state.filled fill.clientOrderId + fill.quantity)
    fillCount := state.fillCount + 1 }

def apply (state : StreamState) : P1Body → Except Failure StreamState
  | .targetAccepted target => state.acceptTarget target
  | .targetQuantityPlanned plan => state.planQuantity plan
  | .orderSubmitted order => state.submitOrder order
  | .fill fill => state.applyFill fill
  | .positionObserved position =>
    .ok { state with positionCount := state.positionCount + 1, lastPosition := some position }
  | .accountObserved account =>
    .ok { state with accountCount := state.accountCount + 1, lastAccount := some account }
  | .runStarted _ => .ok state
  | .runCompleted _ => .ok state

def step (state : StreamState) (numbered : P1Event × ℕ) : Except Failure StreamState := do
  let (event, expected) := numbered
  require (event.sequence = expected) (.valueError "P1 event stream sequence is not contiguous")
  require (¬ event.simulationTime < state.previousSimulationTime)
    (.valueError "simulation_time must not regress")
  { state with previousSimulationTime := event.simulationTime }.apply event.body

def TargetsPlanned (state : StreamState) : Prop :=
  state.acceptedTargets.keys ⊆ state.plannedTargets.keys ∧
    state.plannedTargets.keys ⊆ state.acceptedTargets.keys ∧ state.acceptedTargets ≠ []

instance (state : StreamState) : Decidable state.TargetsPlanned := inferInstanceAs (Decidable (_ ∧ _ ∧ _))

def SummaryMatches (state : StreamState) (completion : RunCompleted) : Prop :=
  ∃ position ∈ state.lastPosition, ∃ account ∈ state.lastAccount,
    completion.finalPosition = position.quantity ∧ completion.finalCash = account.cashBalance ∧
      completion.fees = account.fees ∧ completion.realizedPnl = account.realizedPnl ∧
      completion.unrealizedPnl = account.unrealizedPnl ∧ position.realizedPnl = account.realizedPnl ∧
      position.unrealizedPnl = account.unrealizedPnl

instance (state : StreamState) (completion : RunCompleted) : Decidable (state.SummaryMatches completion) :=
  inferInstanceAs (Decidable (∃ position ∈ state.lastPosition, ∃ account ∈ state.lastAccount, _))

end StreamState

variable (codec : EngineCodec)

def validateCompletion (events : List P1Event) (start : RunStarted) (completion : RunCompleted)
    (state : StreamState) : Except Failure Unit := do
  require state.TargetsPlanned (.valueError "every accepted target requires exactly one quantity plan")
  require (state.positionCount ≠ 0 ∧ state.accountCount ≠ 0)
    (.valueError "completion requires position and account observations")
  require ((events[events.length - 3]?.bind P1Event.positionObserved?).isSome ∧
      (events[events.length - 2]?.bind P1Event.accountObserved?).isSome)
    (.valueError "final observations must immediately precede completion")
  require (∀ order ∈ state.submittedOrderFacts, state.filled order.1 = order.2.2.1)
    (.valueError "completion cannot retain an unfinished order")
  require (completion.upstreamCommit = start.upstreamCommit ∧ completion.closureDigest = start.closureDigest)
    (.valueError "completion lineage does not match run start")
  require (completion.targetCount = state.acceptedTargets.length ∧
      completion.orderCount = state.submittedOrders.length ∧ completion.fillCount = state.fillCount)
    (.valueError "completion counters do not match the event stream")
  require (state.SummaryMatches completion)
    (.valueError "completion summary does not match final observations")
  require (completion.semanticDigest = semanticDigest codec events)
    (.valueError "completion semantic digest does not match the stream")

def validateEventStream (events : List P1Event) : Except Failure (List P1Event) := do
  require (5 ≤ events.length) (.valueError "P1 event stream is incomplete")
  match events.head?, events.head?.bind P1Event.runStarted?, events.getLast?.bind P1Event.runCompleted? with
  | some first, some start, some completion => do
    require (events.countP (fun event => event.runStarted?.isSome) = 1 ∧
        events.countP (fun event => event.runCompleted?.isSome) = 1)
      (.valueError "P1 event stream lifecycle cardinality is invalid")
    let state ← (events.zipIdx 2).foldlM StreamState.step { previousSimulationTime := first.simulationTime }
    validateCompletion codec events start completion state
    .ok events
  | _, _, _ => .error (.valueError "P1 event stream must start and complete exactly once")

section

variable {codec} {events events' : List P1Event}

theorem validateEventStream_ok (h : validateEventStream codec events = .ok events') :
    events' = events ∧ 5 ≤ events.length ∧ ∃ first start completion state, events.head? = some first ∧
      first.runStarted? = some start ∧ events.getLast?.bind P1Event.runCompleted? = some completion ∧
      events.countP (·.runStarted?.isSome) = 1 ∧
      events.countP (·.runCompleted?.isSome) = 1 ∧
      (events.zipIdx 2).foldlM StreamState.step { previousSimulationTime := first.simulationTime } = .ok state ∧
      validateCompletion codec events start completion state = .ok () := by
  simp only [validateEventStream, bind_ok_iff, require_ok_iff, exists_const] at h
  obtain ⟨hlength, h⟩ := h
  split at h
  · rename_i first start completion hfirst hstart hcompletion
    simp only [bind_ok_iff, require_ok_iff, exists_const, Except.ok.injEq] at h
    obtain ⟨hcount, state, hstate, u, hchecks, rfl⟩ := h
    rw [hfirst] at hstart
    exact ⟨rfl, hlength, first, start, completion, state, hfirst, hstart, hcompletion, hcount.1, hcount.2,
      hstate, hchecks⟩
  · cases h

theorem validateEventStream_eq (h : validateEventStream codec events = .ok events') : events' = events :=
  (validateEventStream_ok h).1

end

/-- What a pass over some events has observed, beside what was observed before. -/
structure StreamState.Observes (state final : StreamState) (events : List P1Event) : Prop where
  lastPosition :
    final.lastPosition = (events.filterMap P1Event.positionObserved?).getLast?.or state.lastPosition
  lastAccount : final.lastAccount = (events.filterMap P1Event.accountObserved?).getLast?.or state.lastAccount
  positionCount : final.positionCount = state.positionCount + (events.filterMap P1Event.positionObserved?).length
  accountCount : final.accountCount = state.accountCount + (events.filterMap P1Event.accountObserved?).length

variable {state next : StreamState} {event : P1Event}

theorem StreamState.Observes.of_eq
    (hposition : event.positionObserved? = none) (haccount : event.accountObserved? = none)
    (h1 : next.lastPosition = state.lastPosition) (h2 : next.lastAccount = state.lastAccount)
    (h3 : next.positionCount = state.positionCount) (h4 : next.accountCount = state.accountCount) :
    Observes state next [event] := by
  constructor <;> simp [hposition, haccount, h1, h2, h3, h4]

theorem StreamState.apply_observes (h : state.apply event.body = .ok next) : Observes state next [event] := by
  obtain ⟨sequence, time, body, hsequence⟩ := event
  cases body with
  | runStarted | runCompleted =>
    obtain rfl := Except.ok.inj h
    exact .of_eq rfl rfl rfl rfl rfl rfl
  | positionObserved | accountObserved =>
    obtain rfl := Except.ok.inj h
    exact ⟨rfl, rfl, rfl, rfl⟩
  | targetAccepted target =>
    simp only [apply, acceptTarget, bind_ok_iff, Except.ok.injEq] at h
    obtain ⟨_, _, rfl⟩ := h
    exact .of_eq rfl rfl rfl rfl rfl rfl
  | targetQuantityPlanned plan =>
    simp only [apply, planQuantity, bind_ok_iff, Except.ok.injEq] at h
    obtain ⟨_, _, rfl⟩ := h
    exact .of_eq rfl rfl rfl rfl rfl rfl
  | orderSubmitted order =>
    simp only [apply, submitOrder, bind_ok_iff, Except.ok.injEq] at h
    obtain ⟨_, _, rfl⟩ := h
    exact .of_eq rfl rfl rfl rfl rfl rfl
  | fill fill =>
    simp only [apply, applyFill, bind_ok_iff, Except.ok.injEq] at h
    obtain ⟨_, _, _, _, rfl⟩ := h
    exact .of_eq rfl rfl rfl rfl rfl rfl

variable {expected : ℕ}

theorem StreamState.step_observes (h : state.step (event, expected) = .ok next) : Observes state next [event] := by
  simp only [step, bind_ok_iff] at h
  obtain ⟨_, _, _, _, h⟩ := h
  obtain ⟨h1, h2, h3, h4⟩ := apply_observes h
  exact ⟨h1, h2, h3, h4⟩

theorem getLast?_append_or {α : Type} (xs ys : List α) (o : Option α) :
    (xs ++ ys).getLast?.or o = ys.getLast?.or (xs.getLast?.or o) := by
  rw [List.getLast?_append, Option.or_assoc]

theorem StreamState.foldlM_observes {events : List P1Event} {final : StreamState}
    (h : (events.zipIdx expected).foldlM step state = .ok final) : Observes state final events := by
  induction events generalizing expected state with
  | nil =>
    obtain rfl := Except.ok.inj h
    constructor <;> simp
  | cons event events ih =>
    rw [List.zipIdx_cons, List.foldlM_cons, bind_ok_iff] at h
    obtain ⟨next, hnext, h⟩ := h
    obtain ⟨h1, h2, h3, h4⟩ := step_observes hnext
    obtain ⟨r1, r2, r3, r4⟩ := ih h
    rw [← List.singleton_append]
    constructor
    · rw [r1, h1, List.filterMap_append, getLast?_append_or]
    · rw [r2, h2, List.filterMap_append, getLast?_append_or]
    · rw [r3, h3, List.filterMap_append, List.length_append, add_assoc]
    · rw [r4, h4, List.filterMap_append, List.length_append, add_assoc]

end TradingAgent.Nautilus
