import TradingAgent.Nautilus.Decoding

/-!
# P1 events as engine events

An engine event (`engine_contracts/events.py`) carries bounded scalar attributes. `paperEventPayload` and the
`_payload` of the runtime flatten a P1 event into one, `decodeEvent` reads it back; the codec is total on the events
whose texts fit, and only on those.
-/

namespace TradingAgent.Nautilus

open Outcome DigitText

inductive EventFamily
  | engineLifecycle
  | marketDataContinuity
  | strategyLifecycle
  | orderLifecycle
  | fills
  | positions
  | accountState
  | runtimeRisk
  | reconciliation
  | health
  | halt
  deriving DecidableEq

/-- `P1_EVENT_FAMILIES`, and `_FAMILY` of the runtime. -/
def P1Kind.family : P1Kind → EventFamily
  | .runStarted => .engineLifecycle
  | .targetAccepted => .strategyLifecycle
  | .targetQuantityPlanned => .strategyLifecycle
  | .orderSubmitted => .orderLifecycle
  | .fill => .fills
  | .positionObserved => .positions
  | .accountObserved => .accountState
  | .runCompleted => .engineLifecycle

/-- `EventValue`, before the bound on its length. -/
inductive EventValue
  | str (text : String)
  | bool (b : Bool)
  | int (n : ℤ)
  deriving DecidableEq

/-- `Field(max_length=4_096)` -/
def EventValue.Fits : EventValue → Prop
  | str text => text.length ≤ 4096
  | _ => True

instance : (value : EventValue) → Decidable value.Fits
  | .str text => inferInstanceAs (Decidable (text.length ≤ 4096))
  | .bool _ => isTrue trivial
  | .int _ => isTrue trivial

/-- `^[a-z][a-z0-9_]{0,63}$` -/
def isAttributeName (name : String) : Bool :=
  match name.toList with
  | [] => false
  | first :: rest => first.isLower && rest.length < 64 && rest.all fun c => c.isLower || c.isDigit || c = '_'

/-- `^[A-Za-z][A-Za-z0-9_.:-]{0,127}$` -/
def isEventType (text : String) : Bool :=
  match text.toList with
  | [] => false
  | first :: rest => first.isAlpha && rest.length < 128 && rest.all isIdentifierChar

@[ext] structure EventAttribute where
  name : String
  value : EventValue
  name_valid : isAttributeName name = true
  value_fits : value.Fits
  deriving DecidableEq

@[ext] structure EngineEvent where
  eventType : String
  family : EventFamily
  attributes : List EventAttribute
  type_valid : isEventType eventType = true
  attributes_bounded : attributes.length ≤ 256
  unique_attributes : (attributes.map EventAttribute.name).Nodup

/-- `EventAttribute(name=…, value=…)` -/
def EventAttribute.of? (pair : String × EventValue) : Option EventAttribute :=
  if h : isAttributeName pair.1 = true ∧ pair.2.Fits then some ⟨pair.1, pair.2, h.1, h.2⟩
  else none

/-- `EngineEvent(event_type=…, family=…, attributes=…)` -/
def EngineEvent.of? (eventType : String) (family : EventFamily) (attributes : List EventAttribute) :
    Option EngineEvent :=
  if h : isEventType eventType = true ∧ attributes.length ≤ 256 ∧ (attributes.map EventAttribute.name).Nodup then
    some ⟨eventType, family, attributes, h.1, h.2.1, h.2.2⟩
  else none

def EventAttribute.pair (a : EventAttribute) : String × EventValue := (a.name, a.value)

def EngineEvent.pairs (event : EngineEvent) : List (String × EventValue) :=
  event.attributes.map EventAttribute.pair

/-! ## The two encoders -/

def listText (items : List String) : String := String.ofList (jsonStrings (items.map String.toList))

def Value.scalar? : Value → Option EventValue
  | bool b => some (.bool b)
  | int n => some (.int n)
  | str text => some (.str text)
  | list items => some (.str (listText items))
  | null => none
  | other => none

def attributeFields (document : Document) : Document :=
  document.filter fun field => field.1 ≠ "event_type" ∧ field.2 ≠ .null

/-- The attributes of the fields of a document; `none` when a value is not a scalar. -/
def attributePairs (document : Document) : Option (List (String × EventValue)) :=
  (attributeFields document).mapM fun field => field.2.scalar?.map (Prod.mk field.1)

/-- `paper_event_payload`; `none` when a model refuses a value. -/
def paperEventPayload (event : P1Event) : Option EngineEvent := do
  let pairs ← attributePairs event.document
  let attributes ← pairs.mapM EventAttribute.of?
  EngineEvent.of? event.body.eventType event.body.kind.family attributes

structure RuntimePayload where
  eventType : String
  family : EventFamily
  attributes : List (String × EventValue)

/-- `_payload` of the runtime; `none` when it raises. -/
def runtimePayload (document : Document) : Option RuntimePayload := do
  let kind ← document.read "event_type" fun value => value.str?.bind P1Kind.of?
  let fields ← kind.documentFields.mapM fun name => (document.get? name).map (Prod.mk name)
  let attributes ← attributePairs fields
  some ⟨kind.text, kind.family, attributes⟩

/-! ## The decoder -/

def P1Kind.expectedAttributes (kind : P1Kind) : List String :=
  kind.documentFields.filter fun name => name ≠ "event_type" ∧ (name = "native_type" → kind.nativeType ≠ none)

def decodeValue (pair : String × EventValue) : Option Value :=
  match pair.2 with
  | .str text =>
    if pair.1 = "source_signal_ids" then
      (parseJsonStrings text).map fun items => .list (items.map String.ofList)
    else some (.str text)
  | .bool b => if pair.1 = "source_signal_ids" then none else some (.bool b)
  | .int n => if pair.1 = "source_signal_ids" then none else some (.int n)

def decodedDocument (kind : P1Kind) (fields : Document) : Document :=
  ("event_type", .str kind.text) :: ((if kind.nativeType = none then [("native_type", .null)] else []) ++ fields)

/-- `_decode_event`; `none` when it raises. -/
def decodeEvent (payload : EngineEvent) : Option P1Event := do
  let kind ← P1Kind.of? payload.eventType
  if payload.family = kind.family ∧ payload.attributes.map EventAttribute.name ⊆ kind.expectedAttributes ∧
      kind.expectedAttributes ⊆ payload.attributes.map EventAttribute.name then
    let fields ← payload.pairs.mapM fun pair => (decodeValue pair).map (Prod.mk pair.1)
    validateP1Event (decodedDocument kind fields)
  else none

/-! ## Encoding -/

def P1Event.pairs (event : P1Event) : List (String × EventValue) :=
  (attributeFields event.document).filterMap fun field => field.2.scalar?.map (Prod.mk field.1)

variable {event : P1Event} {field : String × Value}

theorem P1Event.values_document (h : field ∈ event.document) :
    (∃ signals : List Identifier, signals ≠ [] ∧ field = ("source_signal_ids", signalsValue signals)) ∨
      field.1 ≠ "source_signal_ids" ∧ (field.2 = .null ∨ (∃ n, field.2 = .int n) ∨ ∃ text, field.2 = .str text) := by
  obtain ⟨sequence, time, body, hsequence⟩ := event
  cases body with
  | targetAccepted target =>
    have hne : target.sourceSignalIds ≠ [] := List.ne_nil_of_length_pos target.signals_valid.1
    simp only [document, P1Body.fields, List.mem_append, List.mem_cons, List.not_mem_nil, or_false] at h
    rcases h with (rfl | rfl | rfl | rfl | rfl | rfl) | rfl | rfl | rfl <;>
      first | exact Or.inl ⟨_, hne, rfl⟩ | simp [P1Body.nativeType, P1Body.kind, P1Kind.nativeType, decimalValue]
  | orderSubmitted order =>
    have hne : order.sourceSignalIds ≠ [] := List.ne_nil_of_length_pos order.signals_valid.1
    simp only [document, P1Body.fields, List.mem_append, List.mem_cons, List.not_mem_nil, or_false] at h
    rcases h with (rfl | rfl | rfl | rfl | rfl | rfl) | rfl | rfl | rfl | rfl | rfl | rfl | rfl <;>
      first | exact Or.inl ⟨_, hne, rfl⟩ | simp [P1Body.nativeType, P1Body.kind, P1Kind.nativeType, decimalValue]
  | runStarted | targetQuantityPlanned | fill | positionObserved | accountObserved | runCompleted =>
    right
    revert field
    simp [document, P1Body.fields, P1Body.nativeType, P1Body.kind, P1Kind.nativeType, decimalValue]

theorem P1Event.attributePairs_document (event : P1Event) : attributePairs event.document = some event.pairs := by
  apply mapM_some_of
  intro field hfield
  obtain ⟨hmem, hkeep⟩ := List.mem_filter.1 hfield
  obtain ⟨signals, -, rfl⟩ | ⟨-, hnull | ⟨n, hint⟩ | ⟨text, hstr⟩⟩ := event.values_document hmem
  · rfl
  · exact absurd hnull (of_decide_eq_true hkeep).2
  · rw [hint]
    rfl
  · rw [hstr]
    rfl

theorem P1Event.keys_pairs (event : P1Event) : event.pairs.map Prod.fst = event.body.kind.expectedAttributes := by
  obtain ⟨sequence, time, body, hsequence⟩ := event
  cases body <;> rfl

theorem P1Event.mem_pairs {pair : String × EventValue} : pair ∈ event.pairs ↔
    pair.1 ≠ "event_type" ∧ ∃ value, (pair.1, value) ∈ event.document ∧ value.scalar? = some pair.2 := by
  simp only [pairs, attributeFields, List.mem_filterMap, List.mem_filter, Option.map_eq_some_iff, decide_eq_true_eq]
  constructor
  · rintro ⟨⟨name, value⟩, ⟨hmem, hname, -⟩, scalar, hscalar, rfl⟩
    exact ⟨hname, value, hmem, hscalar⟩
  · rintro ⟨hname, value, hmem, hscalar⟩
    refine ⟨(pair.1, value), ⟨hmem, hname, ?_⟩, pair.2, hscalar, rfl⟩
    rintro rfl
    cases hscalar

theorem P1Kind.nodup_expectedAttributes (kind : P1Kind) : kind.expectedAttributes.Nodup :=
  kind.nodup_documentFields.filter _

variable {kind : P1Kind}

theorem P1Kind.isAttributeName_of_mem {name : String} (h : name ∈ kind.expectedAttributes) :
    isAttributeName name = true := by
  have hall : kind.documentFields.all isAttributeName = true := by cases kind <;> decide +kernel
  exact List.all_eq_true.1 hall name (List.mem_filter.1 h).1

variable {a : EventAttribute}

theorem EventAttribute.of?_eq_some {pair : String × EventValue} : EventAttribute.of? pair = some a ↔ a.pair = pair := by
  simp only [of?, Option.dite_none_right_eq_some, Option.some.injEq]
  constructor
  · rintro ⟨-, rfl⟩
    rfl
  · rintro rfl
    exact ⟨⟨a.name_valid, a.value_fits⟩, rfl⟩

variable {attributes : List EventAttribute}

theorem mapM_attributes_eq_some {pairs : List (String × EventValue)} :
    pairs.mapM EventAttribute.of? = some attributes ↔ attributes.map EventAttribute.pair = pairs := by
  rw [mapM_some_iff]
  simp only [EventAttribute.of?_eq_some]
  rw [← List.forall₂_eq_eq_eq, List.forall₂_map_left_iff]
  exact ⟨List.Forall₂.flip, List.Forall₂.flip⟩

variable {payload : EngineEvent}

theorem EngineEvent.of?_eq_some {eventType : String} {family : EventFamily} :
    EngineEvent.of? eventType family attributes = some payload ↔
      payload.eventType = eventType ∧ payload.family = family ∧ payload.attributes = attributes := by
  simp only [of?, Option.dite_none_right_eq_some, Option.some.injEq]
  constructor
  · rintro ⟨-, rfl⟩
    exact ⟨rfl, rfl, rfl⟩
  · rintro ⟨rfl, rfl, rfl⟩
    exact ⟨⟨payload.type_valid, payload.attributes_bounded, payload.unique_attributes⟩, rfl⟩

theorem paperEventPayload_eq_some : paperEventPayload event = some payload ↔
      payload.eventType = event.body.eventType ∧ payload.family = event.body.kind.family ∧
        payload.pairs = event.pairs := by
  simp only [paperEventPayload, event.attributePairs_document, Option.bind_eq_bind, Option.bind_some,
    Option.bind_eq_some_iff, mapM_attributes_eq_some, EngineEvent.of?_eq_some]
  constructor
  · rintro ⟨attributes, hpairs, htype, hfamily, rfl⟩
    exact ⟨htype, hfamily, hpairs⟩
  · rintro ⟨htype, hfamily, hpairs⟩
    exact ⟨payload.attributes, hpairs, htype, hfamily, rfl⟩

theorem EngineEvent.names_eq (payload : EngineEvent) :
    payload.attributes.map EventAttribute.name = payload.pairs.map Prod.fst := by
  simp [EngineEvent.pairs, EventAttribute.pair, List.map_map, Function.comp_def]

theorem EngineEvent.fits_of_mem {pair : String × EventValue} (h : pair ∈ payload.pairs) : pair.2.Fits := by
  obtain ⟨a, -, rfl⟩ := List.mem_map.1 h
  exact a.value_fits

theorem exists_paperEventPayload_iff :
    (∃ payload, paperEventPayload event = some payload) ↔ ∀ pair ∈ event.pairs, pair.2.Fits := by
  constructor
  · rintro ⟨payload, h⟩ pair hpair
    rw [← (paperEventPayload_eq_some.1 h).2.2] at hpair
    exact EngineEvent.fits_of_mem hpair
  · intro hfits
    have hsome : ∀ pair ∈ event.pairs, (EventAttribute.of? pair).isSome := by
      intro pair hpair
      have hname : pair.1 ∈ event.body.kind.expectedAttributes := by
        rw [← event.keys_pairs]
        exact List.mem_map_of_mem hpair
      rw [EventAttribute.of?, dif_pos ⟨P1Kind.isAttributeName_of_mem hname, hfits pair hpair⟩]
      rfl
    have hattributes := mapM_some_of hsome
    have hpairs := mapM_attributes_eq_some.1 hattributes
    have hnames := congrArg (List.map Prod.fst) hpairs
    rw [List.map_map, event.keys_pairs] at hnames
    have htype : isEventType event.body.eventType = true := by
      rw [← P1Body.text_kind]
      cases event.body.kind <;> decide +kernel
    have hlength := congrArg List.length hnames
    rw [List.length_map] at hlength
    have hbound : event.body.kind.expectedAttributes.length ≤ 256 := by
      cases event.body.kind <;> decide +kernel
    refine ⟨⟨event.body.eventType, event.body.kind.family, _, htype, hlength ▸ hbound, ?_⟩,
      paperEventPayload_eq_some.2 ⟨rfl, rfl, hpairs⟩⟩
    exact (congrArg List.Nodup hnames).mpr event.body.kind.nodup_expectedAttributes

def P1Body.decimals : P1Body → List Decimal
  | runStarted _ => []
  | targetAccepted target => [target.targetWeight]
  | targetQuantityPlanned plan => [plan.quantity]
  | orderSubmitted order => [order.quantity]
  | fill execution => [execution.quantity, execution.price, execution.fee]
  | positionObserved position =>
    [position.quantity, position.averageEntryPrice, position.realizedPnl, position.unrealizedPnl]
  | accountObserved account => [account.cashBalance, account.fees, account.realizedPnl, account.unrealizedPnl]
  | runCompleted completion =>
    [completion.finalCash, completion.finalPosition, completion.fees, completion.realizedPnl,
      completion.unrealizedPnl]

def P1Body.signals : P1Body → List Identifier
  | targetAccepted target => target.sourceSignalIds
  | orderSubmitted order => order.sourceSignalIds
  | _ => []

/-- Every text of an event fits into an attribute: the digits of its decimals and the JSON text of its
signals. -/
def TextsFit (event : P1Event) : Prop :=
  (∀ x ∈ event.body.decimals, (serializeCanonicalDecimal x).length ≤ 4096) ∧
    (listText (event.body.signals.map Identifier.text)).length ≤ 4096

instance (event : P1Event) : Decidable (TextsFit event) := inferInstanceAs (Decidable (_ ∧ _))

theorem Identifier.length_le (identifier : Identifier) : identifier.text.length ≤ 128 := by
  have h := identifier.valid
  unfold isIdentifier at h
  rw [← String.length_toList]
  split at h
  · cases h
  · rename_i first rest heq
    simp only [Bool.and_eq_true, decide_eq_true_eq] at h
    rw [heq, List.length_cons]
    omega

theorem Sha256Hex.length_eq (digest : Sha256Hex) : digest.text.length = 64 := by
  have h := digest.valid
  simp only [isSha256Hex, Bool.and_eq_true, decide_eq_true_eq] at h
  rw [← String.length_toList, h.1]

theorem SourceCommit.length_le (commit : SourceCommit) : commit.text.length ≤ 64 := by
  have h := commit.valid
  simp only [isSourceCommit, Bool.and_eq_true, Bool.or_eq_true, decide_eq_true_eq] at h
  rw [← String.length_toList]
  omega

theorem length_serializeUtc_le (t : UtcDateTime) : (serializeUtc t).length ≤ 27 := by
  rw [← String.length_toList, serializeUtc, String.toList_ofList, utcChars, secondChars]
  split_ifs <;> simp

theorem P1Event.forall_pairs_fit (event : P1Event) : (∀ pair ∈ event.pairs, pair.2.Fits) ↔ TextsFit event := by
  obtain ⟨sequence, time, body, hsequence⟩ := event
  have htime : (serializeUtc time).length ≤ 4096 := (length_serializeUtc_le time).trans (by decide)
  have hidentifier (i : Identifier) : i.text.length ≤ 4096 := i.length_le.trans (by decide)
  have hdigest (d : Sha256Hex) : d.text.length ≤ 4096 := d.length_eq.trans_le (by decide)
  have hcommit (c : SourceCommit) : c.text.length ≤ 4096 := c.length_le.trans (by decide)
  have hside (side : OrderSide) : (sideText side).length ≤ 4096 := by cases side <;> decide
  have hnone : (listText []).length ≤ 4096 := by decide +kernel
  have hliteral : ∀ text ∈ [p1EventSchema, p1RuntimeFamily, p1EngineVersion, "CONTROL_PLANE", "NAUTILUS_CALLBACK",
      "NAUTILUS_CACHE_OBSERVATION", "Order", "OrderFilled", "Position", "Account", "MARKET", "USDT"],
      text.length ≤ 4096 := by decide +kernel
  simp only [List.forall_mem_cons] at hliteral
  cases body with
  | targetAccepted | orderSubmitted =>
    rw [TextsFit, and_comm]
    simp [pairs, attributeFields, document, P1Body.fields, P1Body.origin, P1Body.nativeType, P1Body.kind,
      P1Kind.origin, P1Kind.nativeType, Value.scalar?,
      EventValue.Fits, P1Body.decimals, P1Body.signals, decimalValue, signalsValue, htime, hidentifier, hside,
      hliteral]
  | runStarted | targetQuantityPlanned | fill | positionObserved | accountObserved | runCompleted =>
    simp [pairs, attributeFields, document, P1Body.fields, P1Body.origin, P1Body.nativeType, P1Body.kind,
      P1Kind.origin, P1Kind.nativeType, Value.scalar?,
      EventValue.Fits, TextsFit, P1Body.decimals, P1Body.signals, decimalValue, htime, hidentifier, hdigest,
      hcommit, hside, hnone, hliteral]

theorem runtimePayload_document (event : P1Event) : runtimePayload event.document =
    some ⟨event.body.eventType, event.body.kind.family, event.pairs⟩ := by
  have hget {field : String × Value} (h : field ∈ event.document) :
      event.document.get? field.1 = some field.2 := (Dict.get?_eq_some_iff event.nodup_keys_document).2 h
  have hkind : (event.document.read "event_type" fun value => value.str?.bind P1Kind.of?) = some event.body.kind := by
    have hmem : ("event_type", Value.str event.body.eventType) ∈ event.document := by simp [P1Event.document]
    rw [read_kind, P1Body.text_kind]
    exact hget hmem
  have hfields : (event.body.kind.documentFields.mapM fun name => (event.document.get? name).map (Prod.mk name)) =
      some event.document := by
    rw [mapM_some_iff, ← event.keys_document, Dict.keys, List.forall₂_map_left_iff, List.forall₂_same]
    intro field hfield
    rw [hget hfield]
    rfl
  simp only [runtimePayload, hkind, hfields, event.attributePairs_document, Option.bind_eq_bind, Option.bind_some,
    P1Body.text_kind]

/-! ## Decoding -/

theorem scalar?_of_decodeValue {pair : String × EventValue} {value : Value} (h : decodeValue pair = some value) :
    value.scalar? = some pair.2 := by
  obtain ⟨name, scalar⟩ := pair
  cases scalar with
  | str text =>
    simp only [decodeValue] at h
    split_ifs at h with hname
    · obtain ⟨items, hitems, rfl⟩ := Option.map_eq_some_iff.1 h
      rw [parseJsonStrings_eq_some hitems]
      simp [Value.scalar?, listText, List.map_map, Function.comp_def]
    · obtain rfl := Option.some.inj h
      rfl
  | bool b | int n =>
    simp only [decodeValue] at h
    split_ifs at h with hname
    obtain rfl := Option.some.inj h
    rfl

theorem isIdentifierChar_of_mem {text : String} (h : isIdentifier text = true) {c : Char} (hc : c ∈ text.toList) :
    isIdentifierChar c = true := by
  unfold isIdentifier at h
  split at h
  · cases h
  · rename_i first rest heq
    rw [heq] at hc
    simp only [Bool.and_eq_true] at h
    rcases List.mem_cons.1 hc with rfl | hc
    · simp [isIdentifierChar, h.1.1]
    · exact List.all_eq_true.1 h.2 c hc

theorem decodeValue_scalar? (hfield : field ∈ event.document)
    {scalar : EventValue} (h : field.2.scalar? = some scalar) : decodeValue (field.1, scalar) = some field.2 := by
  obtain ⟨signals, hne, rfl⟩ | ⟨hname, hnull | ⟨n, hint⟩ | ⟨text, hstr⟩⟩ := event.values_document hfield
  · obtain rfl := Option.some.inj h
    have hchars : ∀ s ∈ signals.map (·.text.toList), ∀ c ∈ s, isIdentifierChar c = true := by
      intro s hs c hc
      obtain ⟨identifier, -, rfl⟩ := List.mem_map.1 hs
      exact isIdentifierChar_of_mem identifier.valid hc
    have hparse := parseJsonStrings_jsonStrings hchars (by simpa using hne)
    simp only [decodeValue, listText, List.map_map, Function.comp_def, if_pos]
    rw [hparse]
    simp [signalsValue, List.map_map, Function.comp_def]
  · rw [hnull] at h
    cases h
  · rw [hint] at h ⊢
    obtain rfl := Option.some.inj h
    simp [decodeValue, hname]
  · rw [hstr] at h ⊢
    obtain rfl := Option.some.inj h
    simp [decodeValue, hname]

theorem validateP1Event_congr {d e : Document} (h : ∀ name, d.get? name = e.get? name) :
    validateP1Event d = validateP1Event e := by
  ext event
  simp only [validateP1Event_eq_some, Document.Holds, Dict.mem_keys_iff, h]

theorem keys_attributeFields (event : P1Event) :
    (attributeFields event.document).keys = event.body.kind.expectedAttributes := by
  obtain ⟨sequence, time, body, hsequence⟩ := event
  cases body <;> rfl

theorem nodup_keys_decodedDocument {fields : Document} (hnodup : fields.keys.Nodup)
    (hsubset : fields.keys ⊆ kind.expectedAttributes) : (decodedDocument kind fields).keys.Nodup := by
  have hnot {name : String} (h : name ∉ kind.expectedAttributes) : name ∉ fields.keys := fun hn => h (hsubset hn)
  have htype : "event_type" ∉ fields.keys := hnot (by simp [P1Kind.expectedAttributes])
  unfold decodedDocument
  split_ifs with hnative
  · have hnull : "native_type" ∉ fields.keys := hnot (by simp [P1Kind.expectedAttributes, hnative])
    simp only [Dict.keys_cons, List.singleton_append, List.nodup_cons, List.mem_cons, not_or]
    exact ⟨⟨by decide, htype⟩, hnull, hnodup⟩
  · simp only [Dict.keys_cons, List.nil_append, List.nodup_cons]
    exact ⟨htype, hnodup⟩

theorem P1Event.attributeFields_document (event : P1Event) : attributeFields event.document =
    [("schema_version", .str p1EventSchema), ("sequence", .int event.sequence),
      ("simulation_time", .str (serializeUtc event.simulationTime)), ("origin", .str event.body.origin)] ++
      (event.body.nativeType.toList.map fun text => ("native_type", .str text)) ++ event.body.fields := by
  obtain ⟨sequence, time, body, hsequence⟩ := event
  cases body <;> rfl

theorem get?_decodedDocument (event : P1Event) (name : String) :
    (decodedDocument event.body.kind (attributeFields event.document)).get? name = event.document.get? name := by
  have hnodup : (decodedDocument event.body.kind (attributeFields event.document)).keys.Nodup := by
    apply nodup_keys_decodedDocument
    · rw [keys_attributeFields]
      exact P1Kind.nodup_expectedAttributes _
    · rw [keys_attributeFields]
      exact List.Subset.refl _
  apply Dict.get?_eq_of_perm _ hnodup
  rw [List.perm_ext_iff_of_nodup hnodup.of_map event.nodup_keys_document.of_map]
  intro field
  rw [decodedDocument, event.attributeFields_document, P1Event.document, P1Body.nativeType_kind, P1Body.text_kind]
  cases event.body.nativeType with
  | none =>
    simp only [if_pos, Option.toList_none, List.map_nil, Option.map_none, Option.getD_none, List.mem_cons,
      List.mem_append, List.not_mem_nil, or_false]
    tauto
  | some text =>
    simp only [reduceCtorEq, if_false, Option.toList_some, List.map_cons, List.map_nil, Option.map_some,
      Option.getD_some, List.mem_cons, List.mem_append, List.not_mem_nil, or_false, false_or]
    tauto

theorem decodeEvent_of_pairs
    (htype : payload.eventType = event.body.eventType) (hfamily : payload.family = event.body.kind.family)
    (hpairs : payload.pairs = event.pairs) : decodeEvent payload = some event := by
  have hnames : payload.attributes.map EventAttribute.name = event.body.kind.expectedAttributes := by
    rw [payload.names_eq, hpairs, event.keys_pairs]
  have hfields : (payload.pairs.mapM fun pair => (decodeValue pair).map (Prod.mk pair.1)) =
      some (attributeFields event.document) := by
    rw [hpairs]
    refine mapM_some_inverse (fun field hfield pair hpair => ?_) event.attributePairs_document
    obtain ⟨scalar, hscalar, rfl⟩ := Option.map_eq_some_iff.1 hpair
    rw [decodeValue_scalar? (List.mem_filter.1 hfield).1 hscalar]
    rfl
  unfold decodeEvent
  rw [htype, ← P1Body.text_kind, P1Kind.of?_text]
  simp only [Option.bind_eq_bind, Option.bind_some, hfields]
  rw [if_pos ⟨hfamily, by rw [hnames]; exact List.Subset.refl _, by rw [hnames]; exact List.Subset.refl _⟩]
  exact (validateP1Event_congr (get?_decodedDocument event)).trans (validateP1Event_document event)

theorem decodeEvent_eq_some (h : decodeEvent payload = some event) :
    payload.eventType = event.body.eventType ∧ payload.family = event.body.kind.family ∧
      (∀ name, name ∈ payload.attributes.map EventAttribute.name ↔ name ∈ event.body.kind.expectedAttributes) ∧
      (∃ text, ("simulation_time", EventValue.str text) ∈ payload.pairs ∧ parseUtc text = some event.simulationTime) ∧
      ∀ pair ∈ event.pairs, pair.1 ≠ "simulation_time" → pair ∈ payload.pairs := by
  unfold decodeEvent at h
  simp only [Option.bind_eq_bind, Option.bind_eq_some_iff, Option.ite_none_right_eq_some] at h
  obtain ⟨kind, hkind, ⟨hfamily, hsub, hsup⟩, fields, hfields, hevent⟩ := h
  obtain ⟨⟨text, htime, hparse⟩, hholds, -⟩ := validateP1Event_eq_some.1 hevent
  have htype : kind.text = event.body.eventType := by
    have hmem : ("event_type", Value.str event.body.eventType) ∈ event.document.erase "simulation_time" := by
      rw [event.erase_document]
      simp
    have := hholds _ hmem
    simpa [decodedDocument, Dict.get?_cons] using this
  have hkind' : kind = event.body.kind := by
    rw [← P1Body.text_kind] at htype
    have := congrArg P1Kind.of? htype
    rwa [P1Kind.of?_text, P1Kind.of?_text, Option.some.injEq] at this
  subst hkind'
  -- a member of the decoded document that is not `event_type` and not null comes from an attribute
  have hattribute {name : String} {value : Value} {scalar : EventValue} (hname : name ≠ "event_type")
      (hscalar : value.scalar? = some scalar)
      (hget : (decodedDocument event.body.kind fields).get? name = some value) : (name, scalar) ∈ payload.pairs := by
    rcases List.mem_cons.1 (Dict.mem_of_get?_eq_some hget) with heq | hmem
    · exact absurd (Prod.mk.inj heq).1 hname
    · rcases List.mem_append.1 hmem with hnull | hfield
      · split_ifs at hnull with hnative
        · obtain rfl := (Prod.mk.inj (List.mem_singleton.1 hnull)).2
          cases hscalar
        · cases hnull
      · obtain ⟨pair, hpair, hdecode⟩ := exists_mem_of_mapM_some hfields hfield
        obtain ⟨value', hvalue, heq⟩ := Option.map_eq_some_iff.1 hdecode
        obtain ⟨rfl, rfl⟩ := Prod.mk.inj heq
        rw [scalar?_of_decodeValue hvalue] at hscalar
        obtain rfl := Option.some.inj hscalar
        exact hpair
  refine ⟨(P1Kind.text_of_of? hkind).trans htype, hfamily, fun name => ⟨fun hn => hsub hn, fun hn => hsup hn⟩,
    ⟨text, hattribute (by decide) rfl htime, hparse⟩, fun pair hpair hname => ?_⟩
  obtain ⟨hne, value, hmem, hscalar⟩ := P1Event.mem_pairs.1 hpair
  refine hattribute hne hscalar (hholds (pair.1, value) ?_)
  exact List.mem_filter.2 ⟨hmem, by simpa using hname⟩

/-! ## The codec -/

/-- The two encoders agree on an event, and the decoder gives it back. -/
def Survives (event : P1Event) : Prop :=
  ∃ payload, paperEventPayload event = some payload ∧
    runtimePayload event.document = some ⟨payload.eventType, payload.family, payload.pairs⟩ ∧
    decodeEvent payload = some event

/-- The payload has the attributes of the event, in any order. -/
def SameAttributes (payload : EngineEvent) (event : P1Event) : Prop :=
  ∃ encoded, paperEventPayload event = some encoded ∧ ∀ a, a ∈ payload.attributes ↔ a ∈ encoded.attributes

/-- The simulation time is in canonical spelling. -/
def CanonicalTime (payload : EngineEvent) : Prop :=
  ∀ a ∈ payload.attributes, ∀ text, a.name = "simulation_time" → a.value = .str text → CanonicalFraction text

theorem EngineEvent.mem_attributes_iff : a ∈ payload.attributes ↔ a.pair ∈ payload.pairs := by
  constructor
  · exact fun h => List.mem_map_of_mem h
  · intro h
    obtain ⟨b, hb, heq⟩ := List.mem_map.1 h
    obtain ⟨hname, hvalue⟩ := Prod.mk.inj heq
    rwa [← EventAttribute.ext hname hvalue]

theorem eq_of_mem_pairs {pairs : List (String × EventValue)} (h : (pairs.map Prod.fst).Nodup)
    {p q : String × EventValue} (hp : p ∈ pairs) (hq : q ∈ pairs) (heq : p.1 = q.1) : p = q :=
  List.inj_on_of_nodup_map h hp hq heq

theorem survives_iff (event : P1Event) : Survives event ↔ TextsFit event := by
  rw [← event.forall_pairs_fit, ← exists_paperEventPayload_iff]
  constructor
  · rintro ⟨payload, hpayload, -⟩
    exact ⟨payload, hpayload⟩
  · rintro ⟨payload, hpayload⟩
    obtain ⟨htype, hfamily, hpairs⟩ := paperEventPayload_eq_some.1 hpayload
    refine ⟨payload, hpayload, ?_, decodeEvent_of_pairs htype hfamily hpairs⟩
    rw [runtimePayload_document, htype, hfamily, hpairs]

theorem sameAttributes_iff (h : decodeEvent payload = some event) :
    SameAttributes payload event ↔ CanonicalTime payload := by
  obtain ⟨-, -, hnames, ⟨text, htext, hparse⟩, hpairs⟩ := decodeEvent_eq_some h
  have hnodup : (payload.pairs.map Prod.fst).Nodup := payload.names_eq ▸ payload.unique_attributes
  have hnodup' : (event.pairs.map Prod.fst).Nodup := event.keys_pairs ▸ P1Kind.nodup_expectedAttributes _
  have htime : ("simulation_time", EventValue.str (serializeUtc event.simulationTime)) ∈ event.pairs :=
    P1Event.mem_pairs.2 ⟨by simp, .str _, by simp [P1Event.document], rfl⟩
  obtain ⟨encoded, hencoded⟩ := exists_paperEventPayload_iff.2 (by
    intro pair hpair
    by_cases hname : pair.1 = "simulation_time"
    · rw [eq_of_mem_pairs hnodup' hpair htime hname]
      exact (length_serializeUtc_le _).trans (by decide)
    · exact EngineEvent.fits_of_mem (hpairs pair hpair hname))
  have hencodedPairs := (paperEventPayload_eq_some.1 hencoded).2.2
  have hcanonical : CanonicalTime payload ↔ text = serializeUtc event.simulationTime := by
    rw [eq_serializeUtc_iff hparse]
    constructor
    · intro hall
      obtain ⟨a, ha, heq⟩ := List.mem_map.1 htext
      exact hall a ha text (Prod.mk.inj heq).1 (Prod.mk.inj heq).2
    · intro hfraction a ha text' hname hvalue
      have := eq_of_mem_pairs hnodup (List.mem_map_of_mem ha) htext hname
      obtain rfl := EventValue.str.inj (hvalue.symm.trans (Prod.mk.inj this).2)
      exact hfraction
  rw [hcanonical]
  constructor
  · rintro ⟨encoded', hencoded', hsame⟩
    obtain rfl := Option.some.inj (hencoded'.symm.trans hencoded)
    obtain ⟨a, ha, heq⟩ := List.mem_map.1 htext
    have hmem := EngineEvent.mem_attributes_iff.1 ((hsame a).1 ha)
    rw [heq, hencodedPairs] at hmem
    exact EventValue.str.inj (Prod.mk.inj (eq_of_mem_pairs hnodup' hmem htime rfl)).2
  · rintro rfl
    refine ⟨encoded, hencoded, fun a => ?_⟩
    have hsub : ∀ pair ∈ event.pairs, pair ∈ payload.pairs := by
      intro pair hpair
      by_cases hname : pair.1 = "simulation_time"
      · rwa [eq_of_mem_pairs hnodup' hpair htime hname]
      · exact hpairs pair hpair hname
    rw [EngineEvent.mem_attributes_iff, EngineEvent.mem_attributes_iff, hencodedPairs]
    constructor
    · intro hmem
      have hname : a.pair.1 ∈ event.pairs.map Prod.fst := by
        rw [event.keys_pairs, ← hnames, payload.names_eq]
        exact List.mem_map_of_mem hmem
      obtain ⟨pair, hpair, heq⟩ := List.mem_map.1 hname
      rwa [← eq_of_mem_pairs hnodup (hsub pair hpair) hmem heq]
    · exact hsub a.pair

/-- An event survives the codec exactly when its texts fit, and decodes to its attributes exactly when its time
is canonical. -/
theorem engine_event_codec (event : P1Event) (payload : EngineEvent) : (Survives event ↔ TextsFit event) ∧
      ∀ decoded, decodeEvent payload = some decoded →
        (SameAttributes payload decoded ↔ CanonicalTime payload) :=
  ⟨survives_iff event, fun _ => sameAttributes_iff⟩

def codecTime : UtcDateTime := ⟨2026, 8, 30, 0, 0, 0, 0, by decide⟩

theorem length_le_flatMap_jsonChar (s : List Char) : s.length ≤ (s.flatMap jsonChar).length := by
  induction s with
  | nil => exact le_rfl
  | cons c s ih =>
    have hc : 1 ≤ (jsonChar c).length := by
      unfold jsonChar
      split_ifs <;> simp
    rw [List.flatMap_cons, List.length_append, List.length_cons]
    omega

theorem sum_length_le_jsonItems (items : List (List Char)) :
    (items.map List.length).sum ≤ (jsonItems items).length := by
  induction items with
  | nil => simp
  | cons s rest ih =>
    have hs := length_le_flatMap_jsonChar s
    cases rest with
    | nil =>
      simp only [jsonItems, jsonString, List.map_cons, List.map_nil, List.sum_cons, List.sum_nil,
        List.length_append, List.length_cons]
      omega
    | cons s' rest =>
      simp only [jsonItems, jsonString, List.map_cons, List.sum_cons, List.length_append, List.length_cons] at ih ⊢
      omega

theorem isIdentifier_digits (i : ℕ) : isIdentifier (String.ofList (fixedDigits 128 i)) = true := by
  unfold isIdentifier
  rw [String.toList_ofList]
  have hdigit : ∀ c ∈ fixedDigits 128 i, c.isDigit = true := fun c hc => isDigit_of_mem_fixedDigits hc
  have hlength := length_fixedDigits 128 i
  cases hchars : fixedDigits 128 i with
  | nil => rw [hchars] at hlength; cases hlength
  | cons first rest =>
    rw [hchars, List.forall_mem_cons] at hdigit
    rw [hchars, List.length_cons] at hlength
    have hrest : rest.all isIdentifierChar = true := by
      refine List.all_eq_true.2 fun c hc => ?_
      simp [isIdentifierChar, Char.isAlphanum, hdigit.2 c hc]
    have hbound : rest.length < 128 := by omega
    simp [Char.isAlphanum, hdigit.1, hrest, hbound]

def longIdentifier (i : ℕ) : Identifier := ⟨_, isIdentifier_digits i⟩

def longSignals : List Identifier := (List.range 64).map longIdentifier

theorem longSignals_valid : SignalsValid longSignals := by
  refine ⟨by simp [longSignals], by simp [longSignals], ?_⟩
  refine List.Nodup.map_on (fun i hi j hj heq => ?_) List.nodup_range
  have hchars := String.ofList_injective (congrArg Identifier.text heq)
  have hread := congrArg readDigits hchars
  rwa [readDigits_fixedDigits_of_lt (lt_trans (List.mem_range.1 hi) (by decide +kernel)),
    readDigits_fixedDigits_of_lt (lt_trans (List.mem_range.1 hj) (by decide +kernel))] at hread

def longTarget : P1Event :=
  ⟨3, codecTime, .targetAccepted ⟨⟨"t", by decide +kernel⟩, longSignals, 1, longSignals_valid, by decide +kernel⟩,
    by decide⟩

theorem longTarget_does_not_fit : ¬ TextsFit longTarget := by
  intro h
  have hlength : (listText (longSignals.map Identifier.text)).length ≤ 4096 := h.2
  rw [listText, String.length_ofList, jsonStrings, List.length_cons] at hlength
  have hsum := sum_length_le_jsonItems ((longSignals.map Identifier.text).map String.toList)
  have hall : ((longSignals.map Identifier.text).map String.toList).map List.length = List.replicate 64 128 := by
    rw [List.eq_replicate_iff]
    refine ⟨by simp [longSignals], ?_⟩
    simp [longSignals, longIdentifier]
  rw [hall, List.sum_replicate, smul_eq_mul] at hsum
  omega

def plannedQuantity (microsecond : ℕ) (h : isCalendar 2026 8 30 0 0 0 microsecond = true) : P1Event :=
  ⟨4, ⟨2026, 8, 30, 0, 0, 0, microsecond, h⟩, .targetQuantityPlanned ⟨⟨"t", by decide +kernel⟩, 1, by decide +kernel⟩,
    by decide⟩

def checkedAttribute (name : String) (value : EventValue)
    (h : isAttributeName name = true ∧ value.Fits := by decide +kernel) : EventAttribute :=
  ⟨name, value, h.1, h.2⟩

def plannedPayload (time : String) (h : (EventValue.str time).Fits := by decide +kernel) : EngineEvent where
  eventType := "TargetQuantityPlanned"
  family := .strategyLifecycle
  attributes :=
    [checkedAttribute "quantity" (.str "1"), checkedAttribute "schema_version" (.str p1EventSchema),
      checkedAttribute "sequence" (.int 4), checkedAttribute "origin" (.str "CONTROL_PLANE"),
      checkedAttribute "simulation_time" (.str time) ⟨by decide +kernel, h⟩,
      checkedAttribute "target_id" (.str "t")]
  type_valid := by decide +kernel
  attributes_bounded := by simp
  unique_attributes := by simp [checkedAttribute]

/-- A planned quantity survives, and so does its payload with the attributes in another order. -/
theorem planned_quantity_survives : Survives (plannedQuantity 100000 (by decide)) ∧
      SameAttributes (plannedPayload "2026-08-30T00:00:00.100000Z") (plannedQuantity 100000 (by decide)) := by
  obtain ⟨hsurvives, hattributes⟩ := engine_event_codec (plannedQuantity 100000 (by decide))
    (plannedPayload "2026-08-30T00:00:00.100000Z")
  refine ⟨hsurvives.2 (by decide +kernel), (hattributes _ ?_).2 ?_⟩
  · decide +kernel
  · intro a ha text hname hvalue
    have hall : ∀ a ∈ (plannedPayload "2026-08-30T00:00:00.100000Z").attributes, a.name = "simulation_time" →
        a.value = .str "2026-08-30T00:00:00.100000Z" := by decide +kernel
    obtain rfl := EventValue.str.inj (hvalue.symm.trans (hall a ha hname))
    decide +kernel

/-- The encoder refuses the long target, and a time with one fractional digit comes back with six. -/
theorem long_target_is_refused : paperEventPayload longTarget = none ∧ ¬ Survives longTarget ∧
    decodeEvent (plannedPayload "2026-08-30T00:00:00.1Z") = some (plannedQuantity 100000 (by decide)) ∧
    ¬ SameAttributes (plannedPayload "2026-08-30T00:00:00.1Z") (plannedQuantity 100000 (by decide)) := by
  have hnot : ¬ Survives longTarget := fun h => longTarget_does_not_fit ((survives_iff _).1 h)
  have hdecode : decodeEvent (plannedPayload "2026-08-30T00:00:00.1Z") =
      some (plannedQuantity 100000 (by decide)) := by decide +kernel
  refine ⟨?_, hnot, hdecode, ?_⟩
  · cases hpayload : paperEventPayload longTarget with
    | none => rfl
    | some payload =>
      exact absurd (longTarget.forall_pairs_fit.1 (exists_paperEventPayload_iff.1 ⟨payload, hpayload⟩))
        longTarget_does_not_fit
  · intro hsame
    have hcanonical := (sameAttributes_iff hdecode).1 hsame
      (checkedAttribute "simulation_time" (.str "2026-08-30T00:00:00.1Z")) (by decide +kernel) _ rfl rfl
    exact absurd hcanonical (by decide +kernel)

end TradingAgent.Nautilus
