import TradingAgent.Nautilus.Texts
import TradingAgent.Lib.Dict

/-!
# JSON documents of P1 events

`P1Event.document` is `model_dump(mode="json")`: the fields of the model in their order, decimals and
instants as canonical texts. SHA-256 of canonical JSON is the parameter `EngineCodec`; the sorting of keys
that makes the JSON canonical is explicit (`canonicalDocument`).
-/

namespace TradingAgent.Nautilus

/-- A JSON value. `other` is a float, an object, or a list with an item that is not a string: no field of an
event admits one. -/
inductive Value
  | null
  | bool (b : Bool)
  | int (n : ℤ)
  | str (text : String)
  | list (items : List String)
  | other
  deriving DecidableEq

abbrev Document := Dict String Value

def p1EventSchema : String := "nautilus-p1-event-stream-v1"

def p1EngineVersion : String := "1.231.0"

def p1RuntimeFamily : String := "cython-v1"

def sideText : OrderSide → String
  | .buy => "BUY"
  | .sell => "SELL"

inductive P1Kind
  | runStarted
  | targetAccepted
  | targetQuantityPlanned
  | orderSubmitted
  | fill
  | positionObserved
  | accountObserved
  | runCompleted
  deriving DecidableEq

namespace P1Kind

def text : P1Kind → String
  | runStarted => "RunStarted"
  | targetAccepted => "TargetAccepted"
  | targetQuantityPlanned => "TargetQuantityPlanned"
  | orderSubmitted => "OrderSubmitted"
  | fill => "Fill"
  | positionObserved => "PositionObserved"
  | accountObserved => "AccountObserved"
  | runCompleted => "RunCompleted"

/-- The literal `origin` of a kind. -/
def origin : P1Kind → String
  | fill => "NAUTILUS_CALLBACK"
  | positionObserved => "NAUTILUS_CACHE_OBSERVATION"
  | accountObserved => "NAUTILUS_CACHE_OBSERVATION"
  | _ => "CONTROL_PLANE"

/-- The literal `native_type` of a kind. -/
def nativeType : P1Kind → Option String
  | orderSubmitted => some "Order"
  | fill => some "OrderFilled"
  | positionObserved => some "Position"
  | accountObserved => some "Account"
  | _ => none

end P1Kind

def P1Body.kind : P1Body → P1Kind
  | runStarted _ => .runStarted
  | targetAccepted _ => .targetAccepted
  | targetQuantityPlanned _ => .targetQuantityPlanned
  | orderSubmitted _ => .orderSubmitted
  | fill _ => .fill
  | positionObserved _ => .positionObserved
  | accountObserved _ => .accountObserved
  | runCompleted _ => .runCompleted

def P1Body.eventType (body : P1Body) : String := body.kind.text

def P1Body.origin (body : P1Body) : String := body.kind.origin

def P1Body.nativeType (body : P1Body) : Option String := body.kind.nativeType

def decimalValue (d : Decimal) : Value := .str (serializeCanonicalDecimal d)

def signalsValue (signals : List Identifier) : Value := .list (signals.map Identifier.text)

def P1Body.fields : P1Body → Document
  | runStarted start =>
    [("runtime_family", .str p1RuntimeFamily), ("engine_version", .str p1EngineVersion),
      ("upstream_commit", .str start.upstreamCommit.text), ("closure_digest", .str start.closureDigest.text),
      ("config_digest", .str start.configDigest.text), ("catalog_digest", .str start.catalogDigest.text),
      ("data_digest", .str start.dataDigest.text)]
  | targetAccepted target =>
    [("target_id", .str target.targetId.text), ("source_signal_ids", signalsValue target.sourceSignalIds),
      ("target_weight", decimalValue target.targetWeight)]
  | targetQuantityPlanned plan =>
    [("target_id", .str plan.targetId.text), ("quantity", decimalValue plan.quantity)]
  | orderSubmitted order =>
    [("client_order_id", .str order.clientOrderId.text), ("native_order_id", .str order.nativeOrderId.text),
      ("target_id", .str order.targetId.text), ("source_signal_ids", signalsValue order.sourceSignalIds),
      ("side", .str (sideText order.side)), ("quantity", decimalValue order.quantity),
      ("order_type", .str "MARKET")]
  | fill execution =>
    [("client_order_id", .str execution.clientOrderId.text), ("native_fill_id", .str execution.nativeFillId.text),
      ("side", .str (sideText execution.side)), ("quantity", decimalValue execution.quantity),
      ("price", decimalValue execution.price), ("fee", decimalValue execution.fee), ("fee_currency", .str "USDT")]
  | positionObserved position =>
    [("quantity", decimalValue position.quantity),
      ("average_entry_price", decimalValue position.averageEntryPrice),
      ("realized_pnl", decimalValue position.realizedPnl),
      ("unrealized_pnl", decimalValue position.unrealizedPnl)]
  | accountObserved account =>
    [("cash_balance", decimalValue account.cashBalance), ("fees", decimalValue account.fees),
      ("realized_pnl", decimalValue account.realizedPnl),
      ("unrealized_pnl", decimalValue account.unrealizedPnl)]
  | runCompleted completion =>
    [("runtime_family", .str p1RuntimeFamily), ("engine_version", .str p1EngineVersion),
      ("upstream_commit", .str completion.upstreamCommit.text),
      ("closure_digest", .str completion.closureDigest.text), ("target_count", .int completion.targetCount),
      ("order_count", .int completion.orderCount), ("fill_count", .int completion.fillCount),
      ("final_cash", decimalValue completion.finalCash),
      ("final_position", decimalValue completion.finalPosition), ("fees", decimalValue completion.fees),
      ("realized_pnl", decimalValue completion.realizedPnl),
      ("unrealized_pnl", decimalValue completion.unrealizedPnl),
      ("semantic_digest", .str completion.semanticDigest.text)]

/-- `event.model_dump(mode="json")` -/
def P1Event.document (event : P1Event) : Document :=
  [("schema_version", .str p1EventSchema), ("sequence", .int event.sequence),
    ("simulation_time", .str (serializeUtc event.simulationTime)),
    ("event_type", .str event.body.eventType), ("origin", .str event.body.origin),
    ("native_type", (event.body.nativeType.map Value.str).getD .null)] ++ event.body.fields

/-- `_canonical_value` of an object: the members sorted by key. -/
def canonicalDocument (document : Document) : Document := sortBy Prod.fst document

/-- SHA-256 of canonical JSON. -/
structure EngineCodec where
  /-- of one object with sorted keys -/
  documentDigest : Document → Sha256Hex
  /-- of a list of objects with sorted keys -/
  documentsDigest : List Document → Sha256Hex

variable (codec : EngineCodec)

def eventDigest (event : P1Event) : Sha256Hex := codec.documentDigest (canonicalDocument event.document)

def custodyOnlyFields : List String := ["native_fill_id", "native_order_id", "semantic_digest"]

/-- One object of `semantic_projection`. -/
def semanticFields (document : Document) : Document := document.filter fun field => field.1 ∉ custodyOnlyFields

def semanticDigest (events : List P1Event) : Sha256Hex :=
  codec.documentsDigest (events.map fun event => canonicalDocument (semanticFields event.document))

end TradingAgent.Nautilus
