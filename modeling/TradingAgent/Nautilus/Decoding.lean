import TradingAgent.Nautilus.Documents

/-!
# Reading P1 events from JSON documents

`P1_EVENT_ADAPTER.validate_json` (`nautilus_runtime_contracts/events.py`): the union of the eight event models,
discriminated by `event_type`. Every field has one JSON value, so an event is read from a document exactly when the
document holds its fields.
-/

namespace TradingAgent.Nautilus

namespace P1Kind

def all : List P1Kind :=
  [runStarted, targetAccepted, targetQuantityPlanned, orderSubmitted, fill, positionObserved, accountObserved,
    runCompleted]

def of? (text : String) : Option P1Kind := all.find? fun kind => kind.text = text

theorem of?_text (kind : P1Kind) : of? kind.text = some kind := by
  cases kind <;> decide +kernel

theorem text_of_of? {name : String} {kind : P1Kind} (h : of? name = some kind) : name = kind.text := by
  have := List.find?_some h
  exact (of_decide_eq_true this).symm

def ownFields : P1Kind → List String
  | runStarted =>
    ["runtime_family", "engine_version", "upstream_commit", "closure_digest", "config_digest",
      "catalog_digest", "data_digest"]
  | targetAccepted => ["target_id", "source_signal_ids", "target_weight"]
  | targetQuantityPlanned => ["target_id", "quantity"]
  | orderSubmitted =>
    ["client_order_id", "native_order_id", "target_id", "source_signal_ids", "side", "quantity", "order_type"]
  | fill => ["client_order_id", "native_fill_id", "side", "quantity", "price", "fee", "fee_currency"]
  | positionObserved => ["quantity", "average_entry_price", "realized_pnl", "unrealized_pnl"]
  | accountObserved => ["cash_balance", "fees", "realized_pnl", "unrealized_pnl"]
  | runCompleted =>
    ["runtime_family", "engine_version", "upstream_commit", "closure_digest", "target_count", "order_count",
      "fill_count", "final_cash", "final_position", "fees", "realized_pnl", "unrealized_pnl", "semantic_digest"]

def documentFields (kind : P1Kind) : List String :=
  ["schema_version", "sequence", "simulation_time", "event_type", "origin", "native_type"] ++ kind.ownFields

theorem nodup_documentFields (kind : P1Kind) : kind.documentFields.Nodup := by
  cases kind <;> decide +kernel

end P1Kind

theorem P1Body.text_kind (body : P1Body) : body.kind.text = body.eventType := rfl

theorem P1Body.origin_kind (body : P1Body) : body.kind.origin = body.origin := rfl

theorem P1Body.nativeType_kind (body : P1Body) : body.kind.nativeType = body.nativeType := rfl

theorem P1Body.keys_fields (body : P1Body) : body.fields.keys = body.kind.ownFields := by cases body <;> rfl

theorem P1Event.keys_document (event : P1Event) : event.document.keys = event.body.kind.documentFields := by
  rw [P1Event.document, Dict.keys, List.map_append, ← Dict.keys.eq_1 event.body.fields, P1Body.keys_fields]
  rfl

theorem P1Event.nodup_keys_document (event : P1Event) : event.document.keys.Nodup := by
  rw [keys_document]
  exact event.body.kind.nodup_documentFields

def Identifier.of? (text : String) : Option Identifier :=
  if h : isIdentifier text = true then some ⟨text, h⟩ else none

variable {identifier : Identifier}

theorem Identifier.of?_eq_some {text : String} : Identifier.of? text = some identifier ↔ text = identifier.text := by
  constructor
  · intro h
    unfold of? at h
    split_ifs at h with hvalid
    obtain rfl := Option.some.inj h
    rfl
  · rintro rfl
    exact dif_pos identifier.valid

namespace Value

def str? : Value → Option String
  | str text => some text
  | _ => none

def exactly? (expected value : Value) : Option Unit := if value = expected then some () else none

def literal? (text : String) (value : Value) : Option Unit := exactly? (.str text) value

def identifier? (value : Value) : Option Identifier := value.str?.bind Identifier.of?

def sha256? (value : Value) : Option Sha256Hex :=
  value.str?.bind fun text => if h : isSha256Hex text = true then some ⟨text, h⟩ else none

def commit? (value : Value) : Option SourceCommit :=
  value.str?.bind fun text => if h : isSourceCommit text = true then some ⟨text, h⟩ else none

def decimal? (value : Value) : Option Decimal := value.str?.bind parseCanonicalDecimal

def time? (value : Value) : Option UtcDateTime := value.str?.bind parseUtc

def signals? : Value → Option (List Identifier)
  | list items => items.mapM Identifier.of?
  | _ => none

def side? (value : Value) : Option OrderSide :=
  if value = .str "BUY" then some .buy else if value = .str "SELL" then some .sell else none

def count? : Value → Option ℕ
  | int n => if 0 ≤ n ∧ n ≤ maxCount then some n.toNat else none
  | _ => none

variable {value : Value}

theorem str?_eq_some {text : String} : value.str? = some text ↔ value = .str text := by
  cases value <;> simp [str?]

theorem exactly?_eq_some {expected : Value} {u : Unit} : exactly? expected value = some u ↔ value = expected := by
  simp [exactly?]

theorem identifier?_eq_some : value.identifier? = some identifier ↔ value = .str identifier.text := by
  simp [identifier?, Option.bind_eq_some_iff, str?_eq_some, Identifier.of?_eq_some]

theorem sha256?_eq_some {digest : Sha256Hex} : value.sha256? = some digest ↔ value = .str digest.text := by
  simp only [sha256?, Option.bind_eq_some_iff, str?_eq_some, Option.dite_none_right_eq_some, Option.some.injEq]
  constructor
  · rintro ⟨text, rfl, hvalid, rfl⟩
    rfl
  · rintro rfl
    exact ⟨digest.text, rfl, digest.valid, rfl⟩

theorem commit?_eq_some {commit : SourceCommit} : value.commit? = some commit ↔ value = .str commit.text := by
  simp only [commit?, Option.bind_eq_some_iff, str?_eq_some, Option.dite_none_right_eq_some, Option.some.injEq]
  constructor
  · rintro ⟨text, rfl, hvalid, rfl⟩
    rfl
  · rintro rfl
    exact ⟨commit.text, rfl, commit.valid, rfl⟩

theorem decimal?_eq_some {d : Decimal} : value.decimal? = some d ↔ value = decimalValue d := by
  simp [decimal?, Option.bind_eq_some_iff, str?_eq_some, parseCanonicalDecimal_eq_some, decimalValue]

theorem time?_eq_some {t : UtcDateTime} :
    value.time? = some t ↔ ∃ text, value = .str text ∧ parseUtc text = some t := by
  simp [time?, Option.bind_eq_some_iff, str?_eq_some]

variable {signals : List Identifier}

theorem mapM_of?_eq_some {items : List String} :
    items.mapM Identifier.of? = some signals ↔ items = signals.map Identifier.text := by
  induction items generalizing signals with
  | nil => cases signals <;> simp
  | cons item items ih =>
    cases signals with
    | nil => simp [List.mapM_cons, Option.bind_eq_some_iff]
    | cons signal signals =>
      simp [List.mapM_cons, Option.bind_eq_some_iff, Identifier.of?_eq_some, ih]

theorem signals?_eq_some : value.signals? = some signals ↔ value = signalsValue signals := by
  cases value <;> simp [signals?, signalsValue, mapM_of?_eq_some]

theorem side?_eq_some {side : OrderSide} : value.side? = some side ↔ value = .str (sideText side) := by
  unfold side?
  cases side <;> split_ifs <;> simp_all [sideText]

theorem count?_eq_some {n : ℕ} : value.count? = some n ↔ value = .int n ∧ n ≤ maxCount := by
  cases value <;> simp [count?]
  omega

end Value

def Document.read {α : Type} (document : Document) (name : String) (reader : Value → Option α) : Option α :=
  (document.get? name).bind reader

variable {document : Document}

theorem Document.read_eq_some {α : Type} {name : String} {reader : Value → Option α} {a : α}
    {encoded : Value} (h : ∀ value, reader value = some a ↔ value = encoded) :
    document.read name reader = some a ↔ document.get? name = some encoded := by
  simp [Document.read, Option.bind_eq_some_iff, h]

def Document.Holds (document fields : Document) : Prop :=
  ∀ field ∈ fields, document.get? field.1 = some field.2

theorem Document.holds_nil : document.Holds [] ↔ True := by
  simp [Document.Holds]

variable {fields : Document}

theorem Document.holds_cons {name : String} {value : Value} :
    document.Holds ((name, value) :: fields) ↔ document.get? name = some value ∧ document.Holds fields := by
  simp [Document.Holds]

def RunStarted.read (d : Document) : Option RunStarted := do
  d.read "runtime_family" (Value.literal? p1RuntimeFamily)
  d.read "engine_version" (Value.literal? p1EngineVersion)
  let upstreamCommit ← d.read "upstream_commit" Value.commit?
  let closureDigest ← d.read "closure_digest" Value.sha256?
  let configDigest ← d.read "config_digest" Value.sha256?
  let catalogDigest ← d.read "catalog_digest" Value.sha256?
  let dataDigest ← d.read "data_digest" Value.sha256?
  some ⟨upstreamCommit, closureDigest, configDigest, catalogDigest, dataDigest⟩

def TargetAccepted.read (d : Document) : Option TargetAccepted := do
  let targetId ← d.read "target_id" Value.identifier?
  let sourceSignalIds ← d.read "source_signal_ids" Value.signals?
  let targetWeight ← d.read "target_weight" Value.decimal?
  if h : SignalsValid sourceSignalIds ∧ 0 ≤ targetWeight ∧ targetWeight ≤ 1 then
    some ⟨targetId, sourceSignalIds, targetWeight, h.1, h.2⟩
  else none

def TargetQuantityPlanned.read (d : Document) : Option TargetQuantityPlanned := do
  let targetId ← d.read "target_id" Value.identifier?
  let quantity ← d.read "quantity" Value.decimal?
  if h : 0 ≤ quantity then some ⟨targetId, quantity, h⟩ else none

def OrderSubmitted.read (d : Document) : Option OrderSubmitted := do
  let clientOrderId ← d.read "client_order_id" Value.identifier?
  let nativeOrderId ← d.read "native_order_id" Value.identifier?
  let targetId ← d.read "target_id" Value.identifier?
  let sourceSignalIds ← d.read "source_signal_ids" Value.signals?
  let side ← d.read "side" Value.side?
  let quantity ← d.read "quantity" Value.decimal?
  d.read "order_type" (Value.literal? "MARKET")
  if h : SignalsValid sourceSignalIds ∧ 0 < quantity then
    some ⟨clientOrderId, nativeOrderId, targetId, sourceSignalIds, side, quantity, h.1, h.2⟩
  else none

def Fill.read (d : Document) : Option Fill := do
  let clientOrderId ← d.read "client_order_id" Value.identifier?
  let nativeFillId ← d.read "native_fill_id" Value.identifier?
  let side ← d.read "side" Value.side?
  let quantity ← d.read "quantity" Value.decimal?
  let price ← d.read "price" Value.decimal?
  let fee ← d.read "fee" Value.decimal?
  d.read "fee_currency" (Value.literal? "USDT")
  if h : 0 < quantity ∧ 0 < price ∧ 0 ≤ fee then
    some ⟨clientOrderId, nativeFillId, side, quantity, price, fee, h⟩
  else none

def PositionObserved.read (d : Document) : Option PositionObserved := do
  let quantity ← d.read "quantity" Value.decimal?
  let averageEntryPrice ← d.read "average_entry_price" Value.decimal?
  let realizedPnl ← d.read "realized_pnl" Value.decimal?
  let unrealizedPnl ← d.read "unrealized_pnl" Value.decimal?
  if h : 0 ≤ quantity ∧ 0 ≤ averageEntryPrice then
    some ⟨quantity, averageEntryPrice, realizedPnl, unrealizedPnl, h⟩
  else none

def AccountObserved.read (d : Document) : Option AccountObserved := do
  let cashBalance ← d.read "cash_balance" Value.decimal?
  let fees ← d.read "fees" Value.decimal?
  let realizedPnl ← d.read "realized_pnl" Value.decimal?
  let unrealizedPnl ← d.read "unrealized_pnl" Value.decimal?
  if h : 0 ≤ cashBalance ∧ 0 ≤ fees then some ⟨cashBalance, fees, realizedPnl, unrealizedPnl, h⟩ else none

def RunCompleted.read (d : Document) : Option RunCompleted := do
  d.read "runtime_family" (Value.literal? p1RuntimeFamily)
  d.read "engine_version" (Value.literal? p1EngineVersion)
  let upstreamCommit ← d.read "upstream_commit" Value.commit?
  let closureDigest ← d.read "closure_digest" Value.sha256?
  let targetCount ← d.read "target_count" Value.count?
  let orderCount ← d.read "order_count" Value.count?
  let fillCount ← d.read "fill_count" Value.count?
  let finalCash ← d.read "final_cash" Value.decimal?
  let finalPosition ← d.read "final_position" Value.decimal?
  let fees ← d.read "fees" Value.decimal?
  let realizedPnl ← d.read "realized_pnl" Value.decimal?
  let unrealizedPnl ← d.read "unrealized_pnl" Value.decimal?
  let semanticDigest ← d.read "semantic_digest" Value.sha256?
  if h : (targetCount ≤ maxCount ∧ orderCount ≤ maxCount ∧ fillCount ≤ maxCount) ∧
      0 ≤ finalCash ∧ 0 ≤ finalPosition ∧ 0 ≤ fees then
    some ⟨upstreamCommit, closureDigest, targetCount, orderCount, fillCount, finalCash, finalPosition, fees,
      realizedPnl, unrealizedPnl, semanticDigest, h.1, h.2⟩
  else none

def P1Body.read (d : Document) : P1Kind → Option P1Body
  | .runStarted => (RunStarted.read d).map .runStarted
  | .targetAccepted => (TargetAccepted.read d).map .targetAccepted
  | .targetQuantityPlanned => (TargetQuantityPlanned.read d).map .targetQuantityPlanned
  | .orderSubmitted => (OrderSubmitted.read d).map .orderSubmitted
  | .fill => (Fill.read d).map .fill
  | .positionObserved => (PositionObserved.read d).map .positionObserved
  | .accountObserved => (AccountObserved.read d).map .accountObserved
  | .runCompleted => (RunCompleted.read d).map .runCompleted

/-- The value of a literal, or of the type `None`. -/
def nativeTypeValue (nativeType : Option String) : Value := (nativeType.map Value.str).getD .null

/-- `P1_EVENT_ADAPTER.validate_json`; `none` when it raises. The models forbid further fields. -/
def validateP1Event (d : Document) : Option P1Event := do
  let kind ← d.read "event_type" fun value => value.str?.bind P1Kind.of?
  d.read "schema_version" (Value.literal? p1EventSchema)
  let sequence ← d.read "sequence" Value.count?
  let simulationTime ← d.read "simulation_time" Value.time?
  d.read "origin" (Value.literal? kind.origin)
  d.read "native_type" (Value.exactly? (nativeTypeValue kind.nativeType))
  let body ← P1Body.read d kind
  if h : (0 < sequence ∧ sequence ≤ maxCount) ∧ ∀ name ∈ d.keys, name ∈ kind.documentFields then
    some ⟨sequence, simulationTime, body, h.1⟩
  else none

section Readers

variable {d : Document} {name : String} {u : Unit}

theorem read_literal {text : String} : d.read name (Value.literal? text) = some u ↔ d.get? name = some (.str text) :=
  Document.read_eq_some fun _ => Value.exactly?_eq_some

theorem read_exactly {expected : Value} :
    d.read name (Value.exactly? expected) = some u ↔ d.get? name = some expected :=
  Document.read_eq_some fun _ => Value.exactly?_eq_some

theorem read_identifier : d.read name Value.identifier? = some identifier ↔ d.get? name = some (.str identifier.text) :=
  Document.read_eq_some fun _ => Value.identifier?_eq_some

theorem read_sha256 {digest : Sha256Hex} :
    d.read name Value.sha256? = some digest ↔ d.get? name = some (.str digest.text) :=
  Document.read_eq_some fun _ => Value.sha256?_eq_some

theorem read_commit {commit : SourceCommit} :
    d.read name Value.commit? = some commit ↔ d.get? name = some (.str commit.text) :=
  Document.read_eq_some fun _ => Value.commit?_eq_some

theorem read_decimal {x : Decimal} : d.read name Value.decimal? = some x ↔ d.get? name = some (decimalValue x) :=
  Document.read_eq_some fun _ => Value.decimal?_eq_some

theorem read_signals {signals : List Identifier} :
    d.read name Value.signals? = some signals ↔ d.get? name = some (signalsValue signals) :=
  Document.read_eq_some fun _ => Value.signals?_eq_some

theorem read_side {side : OrderSide} :
    d.read name Value.side? = some side ↔ d.get? name = some (.str (sideText side)) :=
  Document.read_eq_some fun _ => Value.side?_eq_some

theorem read_count {n : ℕ} : d.read name Value.count? = some n ↔ d.get? name = some (.int n) ∧ n ≤ maxCount := by
  simp [Document.read, Option.bind_eq_some_iff, Value.count?_eq_some]

theorem read_time {t : UtcDateTime} : d.read name Value.time? = some t ↔
    ∃ text, d.get? name = some (.str text) ∧ parseUtc text = some t := by
  simp [Document.read, Option.bind_eq_some_iff, Value.time?_eq_some]

theorem read_kind {kind : P1Kind} : (d.read name fun value => value.str?.bind P1Kind.of?) = some kind ↔
    d.get? name = some (.str kind.text) := by
  apply Document.read_eq_some
  intro value
  simp only [Option.bind_eq_some_iff, Value.str?_eq_some]
  constructor
  · rintro ⟨text, rfl, h⟩
    rw [P1Kind.text_of_of? h]
  · rintro rfl
    exact ⟨_, rfl, kind.of?_text⟩

/-! The document of each model. -/

theorem RunStarted.read_eq_some {start : RunStarted} :
    RunStarted.read d = some start ↔ d.Holds (P1Body.runStarted start).fields := by
  simp only [RunStarted.read, Option.bind_eq_bind, Option.bind_eq_some_iff, read_literal, read_commit,
    read_sha256, P1Body.fields, Document.holds_cons, Document.holds_nil, and_true,
    Option.some.injEq]
  constructor
  · rintro ⟨-, h1, -, h2, commit, h3, closure, h4, config, h5, catalog, h6, data, h7, rfl⟩
    exact ⟨h1, h2, h3, h4, h5, h6, h7⟩
  · rintro ⟨h1, h2, h3, h4, h5, h6, h7⟩
    exact ⟨(), h1, (), h2, _, h3, _, h4, _, h5, _, h6, _, h7, rfl⟩

theorem TargetAccepted.read_eq_some {target : TargetAccepted} :
    TargetAccepted.read d = some target ↔ d.Holds (P1Body.targetAccepted target).fields := by
  simp only [TargetAccepted.read, Option.bind_eq_bind, Option.bind_eq_some_iff, read_identifier, read_signals,
    read_decimal, P1Body.fields, Document.holds_cons, Document.holds_nil, and_true,
    Option.dite_none_right_eq_some, Option.some.injEq]
  constructor
  · rintro ⟨targetId, h1, signals, h2, weight, h3, hvalid, rfl⟩
    exact ⟨h1, h2, h3⟩
  · rintro ⟨h1, h2, h3⟩
    exact ⟨_, h1, _, h2, _, h3, ⟨target.signals_valid, target.long_or_flat⟩, rfl⟩

theorem TargetQuantityPlanned.read_eq_some {plan : TargetQuantityPlanned} :
    TargetQuantityPlanned.read d = some plan ↔ d.Holds (P1Body.targetQuantityPlanned plan).fields := by
  simp only [TargetQuantityPlanned.read, Option.bind_eq_bind, Option.bind_eq_some_iff, read_identifier,
    read_decimal, P1Body.fields, Document.holds_cons, Document.holds_nil, and_true,
    Option.dite_none_right_eq_some, Option.some.injEq]
  constructor
  · rintro ⟨targetId, h1, quantity, h2, hvalid, rfl⟩
    exact ⟨h1, h2⟩
  · rintro ⟨h1, h2⟩
    exact ⟨_, h1, _, h2, plan.non_negative, rfl⟩

theorem OrderSubmitted.read_eq_some {order : OrderSubmitted} :
    OrderSubmitted.read d = some order ↔ d.Holds (P1Body.orderSubmitted order).fields := by
  simp only [OrderSubmitted.read, Option.bind_eq_bind, Option.bind_eq_some_iff, read_identifier, read_signals,
    read_side, read_decimal, read_literal, P1Body.fields, Document.holds_cons, Document.holds_nil, and_true,
    Option.dite_none_right_eq_some, Option.some.injEq]
  constructor
  · rintro ⟨client, h1, native, h2, targetId, h3, signals, h4, side, h5, quantity, h6, -, h7, hvalid, rfl⟩
    exact ⟨h1, h2, h3, h4, h5, h6, h7⟩
  · rintro ⟨h1, h2, h3, h4, h5, h6, h7⟩
    exact ⟨_, h1, _, h2, _, h3, _, h4, _, h5, _, h6, (), h7, ⟨order.signals_valid, order.positive⟩, rfl⟩

theorem Fill.read_eq_some {execution : Fill} :
    Fill.read d = some execution ↔ d.Holds (P1Body.fill execution).fields := by
  simp only [Fill.read, Option.bind_eq_bind, Option.bind_eq_some_iff, read_identifier, read_side, read_decimal,
    read_literal, P1Body.fields, Document.holds_cons, Document.holds_nil, and_true,
    Option.dite_none_right_eq_some, Option.some.injEq]
  constructor
  · rintro ⟨client, h1, native, h2, side, h3, quantity, h4, price, h5, fee, h6, -, h7, hvalid, rfl⟩
    exact ⟨h1, h2, h3, h4, h5, h6, h7⟩
  · rintro ⟨h1, h2, h3, h4, h5, h6, h7⟩
    exact ⟨_, h1, _, h2, _, h3, _, h4, _, h5, _, h6, (), h7, execution.valid_amounts, rfl⟩

theorem PositionObserved.read_eq_some {position : PositionObserved} :
    PositionObserved.read d = some position ↔ d.Holds (P1Body.positionObserved position).fields := by
  simp only [PositionObserved.read, Option.bind_eq_bind, Option.bind_eq_some_iff, read_decimal, P1Body.fields,
    Document.holds_cons, Document.holds_nil, and_true, Option.dite_none_right_eq_some, Option.some.injEq]
  constructor
  · rintro ⟨quantity, h1, average, h2, realized, h3, unrealized, h4, hvalid, rfl⟩
    exact ⟨h1, h2, h3, h4⟩
  · rintro ⟨h1, h2, h3, h4⟩
    exact ⟨_, h1, _, h2, _, h3, _, h4, position.long_or_flat, rfl⟩

theorem AccountObserved.read_eq_some {account : AccountObserved} :
    AccountObserved.read d = some account ↔ d.Holds (P1Body.accountObserved account).fields := by
  simp only [AccountObserved.read, Option.bind_eq_bind, Option.bind_eq_some_iff, read_decimal, P1Body.fields,
    Document.holds_cons, Document.holds_nil, and_true, Option.dite_none_right_eq_some, Option.some.injEq]
  constructor
  · rintro ⟨cash, h1, fees, h2, realized, h3, unrealized, h4, hvalid, rfl⟩
    exact ⟨h1, h2, h3, h4⟩
  · rintro ⟨h1, h2, h3, h4⟩
    exact ⟨_, h1, _, h2, _, h3, _, h4, account.valid_account, rfl⟩

theorem RunCompleted.read_eq_some {completion : RunCompleted} :
    RunCompleted.read d = some completion ↔ d.Holds (P1Body.runCompleted completion).fields := by
  simp only [RunCompleted.read, Option.bind_eq_bind, Option.bind_eq_some_iff, read_literal, read_commit,
    read_sha256, read_count, read_decimal, P1Body.fields, Document.holds_cons, Document.holds_nil, and_true,
    Option.dite_none_right_eq_some, Option.some.injEq]
  constructor
  · rintro ⟨-, h1, -, h2, commit, h3, closure, h4, targets, ⟨h5, -⟩, orders, ⟨h6, -⟩, fills, ⟨h7, -⟩, cash, h8,
      position, h9, fees, h10, realized, h11, unrealized, h12, digest, h13, hvalid, rfl⟩
    exact ⟨h1, h2, h3, h4, h5, h6, h7, h8, h9, h10, h11, h12, h13⟩
  · rintro ⟨h1, h2, h3, h4, h5, h6, h7, h8, h9, h10, h11, h12, h13⟩
    have hcounts := completion.counts_bounded
    exact ⟨(), h1, (), h2, _, h3, _, h4, _, ⟨h5, hcounts.1⟩, _, ⟨h6, hcounts.2.1⟩, _, ⟨h7, hcounts.2.2⟩, _, h8,
      _, h9, _, h10, _, h11, _, h12, _, h13, ⟨hcounts, completion.valid_final_account⟩, rfl⟩

theorem P1Body.read_eq_some {kind : P1Kind} {body : P1Body} :
    P1Body.read d kind = some body ↔ body.kind = kind ∧ d.Holds body.fields := by
  cases kind <;> cases body <;>
    simp [P1Body.read, P1Body.kind, RunStarted.read_eq_some, TargetAccepted.read_eq_some,
      TargetQuantityPlanned.read_eq_some, OrderSubmitted.read_eq_some, Fill.read_eq_some,
      PositionObserved.read_eq_some, AccountObserved.read_eq_some, RunCompleted.read_eq_some]

end Readers

theorem P1Event.erase_document (event : P1Event) : event.document.erase "simulation_time" =
    [("schema_version", .str p1EventSchema), ("sequence", .int event.sequence),
      ("event_type", .str event.body.eventType), ("origin", .str event.body.origin),
      ("native_type", nativeTypeValue event.body.nativeType)] ++ event.body.fields := by
  obtain ⟨sequence, time, body, hsequence⟩ := event
  cases body <;> simp [Dict.erase, P1Event.document, P1Body.fields, nativeTypeValue]

theorem Document.holds_append {rest : Document} :
    document.Holds (fields ++ rest) ↔ document.Holds fields ∧ document.Holds rest :=
  List.forall_mem_append

theorem validateP1Event_eq_some {d : Document} {event : P1Event} : validateP1Event d = some event ↔
    (∃ text, d.get? "simulation_time" = some (.str text) ∧ parseUtc text = some event.simulationTime) ∧
      d.Holds (event.document.erase "simulation_time") ∧
      ∀ name ∈ d.keys, name ∈ event.body.kind.documentFields := by
  simp only [validateP1Event, Option.bind_eq_bind, Option.bind_eq_some_iff, read_kind, read_literal, read_count,
    read_time, read_exactly, P1Body.read_eq_some, Option.dite_none_right_eq_some,
    Option.some.injEq, P1Event.erase_document, Document.holds_append, Document.holds_cons, Document.holds_nil,
    and_true]
  constructor
  · rintro ⟨kind, hkind, -, hschema, sequence, ⟨hsequence, -⟩, time, htime, -, horigin, -, hnative,
      body, ⟨rfl, hfields⟩, hvalid, rfl⟩
    rw [P1Body.text_kind] at hkind
    rw [P1Body.origin_kind] at horigin
    rw [P1Body.nativeType_kind] at hnative
    exact ⟨htime, ⟨⟨hschema, hsequence, hkind, horigin, hnative⟩, hfields⟩, hvalid.2⟩
  · rintro ⟨htime, ⟨⟨hschema, hsequence, hkind, horigin, hnative⟩, hfields⟩, hnames⟩
    rw [← P1Body.text_kind] at hkind
    rw [← P1Body.origin_kind] at horigin
    rw [← P1Body.nativeType_kind] at hnative
    exact ⟨_, hkind, (), hschema, _, ⟨hsequence, event.sequence_valid.2⟩, _, htime, (), horigin, (),
      hnative, _, ⟨rfl, hfields⟩, ⟨event.sequence_valid, hnames⟩, rfl⟩

theorem validateP1Event_document (event : P1Event) : validateP1Event event.document = some event := by
  have hget {name : String} {value : Value} (h : (name, value) ∈ event.document) :
      event.document.get? name = some value :=
    (Dict.get?_eq_some_iff event.nodup_keys_document).2 h
  refine validateP1Event_eq_some.2 ⟨⟨serializeUtc event.simulationTime, hget ?_, parseUtc_serializeUtc _⟩, ?_, ?_⟩
  · simp [P1Event.document]
  · intro field hfield
    exact hget (List.mem_filter.1 hfield).1
  · intro name hname
    rwa [← event.keys_document]

end TradingAgent.Nautilus
