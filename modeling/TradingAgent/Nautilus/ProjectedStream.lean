import TradingAgent.Nautilus.EngineEvents
import TradingAgent.Nautilus.RuntimeDocuments
import TradingAgent.Nautilus.StateMachine
import TradingAgent.Lib.Digits

/-!
# Validation of a projected stream in the runtime

`validate_projected_stream` (`nautilus/runtime_v1/event_projector.py`) compares texts where the control plane compares
values, sums fills in a context of 96 digits, and compares payloads with the equality of the language, in which a
boolean equals an integer.
-/

namespace TradingAgent.Nautilus

open Outcome

structure JsonObject where
  members : Document
  nodup : members.keys.Nodup

/-- `context.prec` of the sums of fills. -/
def fillPrecision : ℕ := 96

def authorityFields : List String :=
  ["correlation_id", "causation_id", "engine_run_id", "event_time", "initialization_time", "schema_version",
    "producer_identity", "source_commit", "config_digest"]

/-- `==` of two scalars: `True == 1` and `False == 0`. -/
def EventValue.equals : EventValue → EventValue → Bool
  | bool b, int n => n = if b then 1 else 0
  | int n, bool b => n = if b then 1 else 0
  | a, b => a = b

def RuntimePayload.equals (p q : RuntimePayload) : Bool :=
  p.eventType = q.eventType && p.family = q.family && p.attributes.length = q.attributes.length &&
    (p.attributes.zip q.attributes).all fun pair => pair.1.1 = pair.2.1 && pair.1.2.equals pair.2.2

structure Envelope where
  messageId : String
  streamSequence : ℤ
  authority : Dict String Value
  payloadDigest : String
  payload : RuntimePayload

structure RuntimeProtocol where
  codec : EngineCodec
  payloadDigest : RuntimePayload → String
  /-- `_expected_message_id` -/
  expectedMessageId : String → ℕ → String → String

structure ProjectedState where
  targets : Dict String Document := []
  plans : Dict String Document := []
  orders : Dict String Document := []
  submittedTargets : List String := []
  nativeOrders : List String := []
  fills : List String := []
  filledQuantities : Dict String ℚ := []
  previousTime : String := ""

namespace ProjectedState

variable (state : ProjectedState) (event : Document)

/-- The round of `TargetAccepted`. -/
def acceptTarget : Except Failure ProjectedState := do
  require (event.text "target_id" ∉ state.targets.keys) (.valueError "P1 target was accepted twice")
  .ok { state with targets := state.targets.set (event.text "target_id") event }

/-- The round of `TargetQuantityPlanned`. -/
def planQuantity : Except Failure ProjectedState := do
  require (event.text "target_id" ∈ state.targets.keys ∧ event.text "target_id" ∉ state.plans.keys)
    (.valueError "P1 target plan is invalid")
  .ok { state with plans := state.plans.set (event.text "target_id") event }

def TargetBound : Prop :=
  (∃ target ∈ state.targets.get? (event.text "target_id"),
    target.get? "source_signal_ids" = event.get? "source_signal_ids") ∧
    (∃ plan ∈ state.plans.get? (event.text "target_id"), plan.get? "quantity" = event.get? "quantity") ∧
    event.text "client_order_id" = event.text "target_id" ∧
    event.text "target_id" ∉ state.submittedTargets ∧ event.text "client_order_id" ∉ state.orders.keys ∧
    event.text "native_order_id" ∉ state.nativeOrders

instance : Decidable (state.TargetBound event) := inferInstanceAs (Decidable (_ ∧ _ ∧ _ ∧ _ ∧ _ ∧ _))

/-- The round of `OrderSubmitted`. -/
def submitOrder : Except Failure ProjectedState := do
  require (state.TargetBound event) (.valueError "P1 order is not target-bound")
  .ok { state with
    orders := state.orders.set (event.text "client_order_id") event
    submittedTargets := state.submittedTargets.insert (event.text "target_id")
    nativeOrders := state.nativeOrders.insert (event.text "native_order_id") }

def filled (orderId : String) : ℚ := (state.filledQuantities.get? orderId).getD 0

/-- The round of `Fill`. -/
def applyFill : Except Failure ProjectedState := do
  require ((∃ order ∈ state.orders.get? (event.text "client_order_id"), order.get? "side" = event.get? "side") ∧
      event.text "native_fill_id" ∉ state.fills) (.valueError "P1 fill is not order-bound")
  require (0 < event.decimal "quantity") (.valueError "P1 fill is not order-bound")
  .ok { state with
    fills := state.fills.insert (event.text "native_fill_id")
    filledQuantities := state.filledQuantities.set (event.text "client_order_id")
      (roundDigits fillPrecision (state.filled (event.text "client_order_id") + event.decimal "quantity")) }

def apply : P1Kind → Except Failure ProjectedState
  | .targetAccepted => state.acceptTarget event
  | .targetQuantityPlanned => state.planQuantity event
  | .orderSubmitted => state.submitOrder event
  | .fill => state.applyFill event
  | _ => .ok state

end ProjectedState

/-- `_instant(time) < _instant(previous_time)`, once there is a previous time; `_instant` raises on a text that
is not the canonical one. -/
def regressed (time previousTime : String) : Bool :=
  previousTime ≠ "" && match parseUtc time, parseUtc previousTime with
    | some t, some previous => t < previous
    | _, _ => true

theorem regressed_serializeUtc (t u : UtcDateTime) : regressed (serializeUtc t) (serializeUtc u) = decide (t < u) := by
  have hne : serializeUtc u ≠ "" := by
    intro heq
    have hparse := parseUtc_serializeUtc u
    have hempty : parseUtc "" = none := by decide +kernel
    rw [heq, hempty] at hparse
    cases hparse
  simp [regressed, parseUtc_serializeUtc, hne]

def Document.kind? (d : Document) : Option P1Kind := d.read "event_type" fun value => value.str?.bind P1Kind.of?

variable (R : RuntimeProtocol) (requestMessageId : String) (requestAuthority : Dict String Value)

def EnvelopeMatches (event : Document) (kind : P1Kind) (sequence : ℕ) (envelope : Envelope) : Prop :=
  (runtimePayload event).any envelope.payload.equals = true ∧
    envelope.payloadDigest = R.payloadDigest envelope.payload ∧
    (∀ name ∈ authorityFields, envelope.authority.get? name = requestAuthority.get? name) ∧
    envelope.messageId = R.expectedMessageId requestMessageId sequence kind.text

instance (event : Document) (kind : P1Kind) (sequence : ℕ) (envelope : Envelope) :
    Decidable (EnvelopeMatches R requestMessageId requestAuthority event kind sequence envelope) :=
  inferInstanceAs (Decidable (_ ∧ _ ∧ _ ∧ _))

def projectedStep (state : ProjectedState) (numbered : (JsonObject × Envelope) × ℕ) :
    Except Failure ProjectedState := do
  let ((event, envelope), sequence) := numbered
  match event.members.kind? with
  | none => .error (.valueError "document kind")
  | some kind => do
    require (validateDocument kind event.members = true) (.valueError "P1 event document is invalid")
    require (envelope.authority.keys ⊆ authorityFields ∧ authorityFields ⊆ envelope.authority.keys)
      (.valueError "P1 event envelope authority is invalid")
    require (event.members.get? "sequence" = some (.int sequence) ∧ envelope.streamSequence = sequence)
      (.valueError "P1 event sequence is invalid")
    require (regressed (event.members.text "simulation_time") state.previousTime = false)
      (.valueError "P1 simulation time regressed")
    require (EnvelopeMatches R requestMessageId requestAuthority event.members kind sequence envelope)
      (.valueError "P1 event envelope authority is invalid")
    { state with previousTime := event.members.text "simulation_time" }.apply event.members kind

def memberOf (document : Option Document) (name : String) : Option Value := document.bind (·.get? name)

/-- `_semantic_digest` -/
def projectedDigest (events : List JsonObject) : Sha256Hex :=
  R.codec.documentsDigest (events.map fun event => canonicalDocument (semanticFields event.members))

def CompletionConsistent (events : List JsonObject) (state : ProjectedState) : Prop :=
  let start := events.head?.map JsonObject.members
  let position := events[events.length - 3]?.map JsonObject.members
  let account := events[events.length - 2]?.map JsonObject.members
  let completion := events.getLast?.map JsonObject.members
  (state.targets.keys ⊆ state.plans.keys ∧ state.plans.keys ⊆ state.targets.keys) ∧
    position.bind Document.kind? = some .positionObserved ∧ account.bind Document.kind? = some .accountObserved ∧
    memberOf completion "target_count" = some (.int state.targets.length) ∧
    memberOf completion "order_count" = some (.int state.orders.length) ∧
    memberOf completion "fill_count" = some (.int state.fills.length) ∧
    (state.orders.keys ⊆ state.filledQuantities.keys ∧ state.filledQuantities.keys ⊆ state.orders.keys) ∧
    (∀ order ∈ state.orders, state.filled order.1 = order.2.decimal "quantity") ∧
    memberOf completion "upstream_commit" = memberOf start "upstream_commit" ∧
    memberOf completion "closure_digest" = memberOf start "closure_digest" ∧
    memberOf completion "final_position" = memberOf position "quantity" ∧
    memberOf completion "final_cash" = memberOf account "cash_balance" ∧
    memberOf completion "fees" = memberOf account "fees" ∧
    memberOf completion "realized_pnl" = memberOf account "realized_pnl" ∧
    memberOf completion "unrealized_pnl" = memberOf account "unrealized_pnl" ∧
    memberOf position "realized_pnl" = memberOf account "realized_pnl" ∧
    memberOf position "unrealized_pnl" = memberOf account "unrealized_pnl" ∧
    memberOf completion "semantic_digest" = some (.str (projectedDigest R events).text)

instance (events : List JsonObject) (state : ProjectedState) : Decidable (CompletionConsistent R events state) :=
  inferInstanceAs (Decidable (_ ∧ _ ∧ _ ∧ _ ∧ _ ∧ _ ∧ _ ∧ _ ∧ _ ∧ _ ∧ _ ∧ _ ∧ _ ∧ _ ∧ _ ∧ _ ∧ _ ∧ _))

/-- `validate_projected_stream` -/
def validateProjectedStream (events : List JsonObject) (envelopes : List Envelope) : Except Failure Unit := do
  require (5 ≤ events.length ∧ events.length = envelopes.length ∧ envelopes.length ≤ 4096 ∧
      events.head?.bind (·.members.kind?) = some .runStarted ∧
      events.getLast?.bind (·.members.kind?) = some .runCompleted ∧
      events.countP (fun event => event.members.kind? = some .runStarted) = 1 ∧
      events.countP (fun event => event.members.kind? = some .runCompleted) = 1)
    (.valueError "P1 event stream lifecycle is invalid")
  require (requestAuthority.keys = authorityFields) (.valueError "P1 event envelope authority is invalid")
  let state ← ((events.zip envelopes).zipIdx 2).foldlM (projectedStep R requestMessageId requestAuthority) {}
  require (CompletionConsistent R events state) (.valueError "P1 completion authority is inconsistent")

end TradingAgent.Nautilus
