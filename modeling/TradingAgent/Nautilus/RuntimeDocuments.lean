import TradingAgent.Nautilus.Decoding

/-!
# Event documents in the runtime

The runtime checks JSON documents against the schemas that are generated from the event models (`validate_document`,
`nautilus/runtime_v1/generated_protocol.py`). A document that passes is the document of one event, with the members in
any order (`validateDocument_event`).
-/

namespace TradingAgent.Nautilus

open DigitText

/-- `[1-9]\d*` -/
def isPositiveWhole (cs : List Char) : Bool :=
  match cs with
  | [] => false
  | first :: rest => first.isDigit && first ≠ '0' && rest.all Char.isDigit

/-- `(?:0|[1-9]\d*)` -/
def isWhole (cs : List Char) : Bool := cs = ['0'] || isPositiveWhole cs

/-- `\d*[1-9]` -/
def isFraction (cs : List Char) : Bool :=
  cs.all Char.isDigit && cs.getLast?.any fun last => last ≠ '0'

/-- An unsigned number: `[1-9]\d*|(?:0|[1-9]\d*)\.\d*[1-9]` -/
def isMagnitude (cs : List Char) : Bool :=
  let whole := cs.takeWhile fun c => c ≠ '.'
  match cs.drop whole.length with
  | [] => isPositiveWhole whole
  | _ :: fraction => isWhole whole && isFraction fraction

/-- `^(?:0|-?[1-9]\d*|-?(?:0|[1-9]\d*)\.\d*[1-9])$` -/
def isCanonicalDecimal (text : String) : Bool :=
  match text.toList with
  | ['0'] => true
  | '-' :: rest => isMagnitude rest
  | cs => isMagnitude cs

theorem readDigits_append (cs ds : List Char) :
    readDigits (cs ++ ds) = readDigits cs * 10 ^ ds.length + readDigits ds := by
  induction ds using List.reverseRecOn with
  | nil => simp [readDigits]
  | append_singleton ds d ih =>
    rw [← List.append_assoc, readDigits_concat, ih, readDigits_concat, List.length_append, List.length_singleton,
      pow_succ]
    ring

theorem readDigits_singleton (c : Char) : readDigits [c] = digitValue c := by
  simp [readDigits]

variable {cs : List Char} {c : Char}

theorem isDigit_of_isPositiveWhole (h : isPositiveWhole cs = true) (hc : c ∈ cs) : c.isDigit = true := by
  cases cs with
  | nil => cases h
  | cons first rest =>
    simp only [isPositiveWhole, Bool.and_eq_true, List.all_eq_true] at h
    exact (List.forall_mem_cons.2 ⟨h.1.1, h.2⟩ : ∀ c ∈ first :: rest, c.isDigit = true) c hc

theorem isDigit_of_isWhole (h : isWhole cs = true) (hc : c ∈ cs) : c.isDigit = true := by
  rw [isWhole, Bool.or_eq_true, decide_eq_true_eq] at h
  rcases h with rfl | h
  · rw [List.mem_singleton.1 hc]
    decide
  · exact isDigit_of_isPositiveWhole h hc

theorem pow_le_readDigits {first : Char} {rest : List Char} (h : isPositiveWhole (first :: rest) = true) :
    10 ^ rest.length ≤ readDigits (first :: rest) := by
  simp only [isPositiveWhole, Bool.and_eq_true, decide_eq_true_eq] at h
  have hvalue : 1 ≤ digitValue first := by
    rw [Nat.one_le_iff_ne_zero]
    intro hzero
    have := digitChar_digitValue h.1.1
    rw [hzero] at this
    exact h.1.2 this.symm
  rw [← List.singleton_append, readDigits_append, readDigits_singleton]
  exact (Nat.le_mul_of_pos_left _ hvalue).trans (Nat.le_add_right _ _)

theorem naturalText_readDigits (h : isWhole cs = true) : naturalText (readDigits cs) = cs := by
  have hall : ∀ c ∈ cs, c.isDigit = true := fun c hc => isDigit_of_isWhole h hc
  rw [isWhole, Bool.or_eq_true, decide_eq_true_eq] at h
  rcases h with rfl | h
  · decide +kernel
  · cases cs with
    | nil => cases h
    | cons first rest =>
      have hlog : Nat.log 10 (readDigits (first :: rest)) = rest.length :=
        Nat.log_eq_of_pow_le_of_lt_pow (pow_le_readDigits h) (by simpa using readDigits_lt hall)
      rw [naturalText, hlog]
      exact fixedDigits_readDigits hall

theorem decimalScale_le {d : Decimal} {p : ℕ} (h : AtScale p d) : decimalScale d ≤ p := scale_le_of_atScale h

theorem decimalScale_eq {d : Decimal} {n k : ℕ} (h : |(d : ℚ)| = n / 10 ^ k) (hlast : k ≠ 0 → ¬ 10 ∣ n) :
    decimalScale d = k := by
  have hk : AtScale k d := by
    rcases abs_choice (d : ℚ) with habs | habs
    · exact atScale_iff.2 ⟨n, by rw [← habs, h]; push_cast; rfl⟩
    · refine atScale_iff.2 ⟨-n, ?_⟩
      rw [← neg_neg (d : ℚ), ← habs, h]
      push_cast
      ring
  refine le_antisymm (decimalScale_le hk) (not_lt.1 fun hlt => hlast (by omega) ?_)
  have hcoefficient := decimalCoefficient_eq d
  rw [h] at hcoefficient
  obtain ⟨j, rfl⟩ : ∃ j, k = decimalScale d + 1 + j := ⟨k - decimalScale d - 1, by omega⟩
  have hn : (n : ℚ) = (decimalCoefficient d * 10 ^ j * 10 : ℕ) := by
    push_cast
    rw [hcoefficient, pow_add, pow_add]
    field_simp
  exact ⟨decimalCoefficient d * 10 ^ j, by rw [mul_comm]; exact_mod_cast hn⟩

variable {fraction : List Char}

theorem not_dvd_of_isFraction (whole : List Char) (h : isFraction fraction = true) :
    ¬ 10 ∣ readDigits (whole ++ fraction) := by
  simp only [isFraction, Bool.and_eq_true, List.all_eq_true] at h
  obtain ⟨last, hlast, hne⟩ := (Option.any_eq_true _ _).1 h.2
  obtain ⟨front, rfl⟩ := List.getLast?_eq_some_iff.1 hlast
  have hdigit := h.1 last (by simp)
  have hlt := digitValue_lt hdigit
  have hzero : digitValue last ≠ 0 := by
    intro hzero
    have := digitChar_digitValue hdigit
    rw [hzero] at this
    exact of_decide_eq_true hne this.symm
  rw [← List.append_assoc, readDigits_concat]
  omega

theorem isMagnitude_split (h : isMagnitude cs = true) : ∃ whole fraction,
    isWhole whole = true ∧ (∀ c ∈ fraction, c.isDigit = true) ∧
      (fraction ≠ [] → ¬ 10 ∣ readDigits (whole ++ fraction)) ∧ 0 < readDigits (whole ++ fraction) ∧
      cs = whole ++ (if fraction = [] then [] else '.' :: fraction) ∧
      readUnsigned cs = .scaled (readDigits (whole ++ fraction)) fraction.length := by
  unfold isMagnitude at h
  unfold readUnsigned
  simp only at h ⊢
  set whole := cs.takeWhile fun c => c ≠ '.' with hwhole
  have hdrop : cs.drop whole.length = cs.dropWhile fun c => c ≠ '.' := by
    nth_rewrite 1 [← List.takeWhile_append_dropWhile (p := fun c => decide (c ≠ '.')) (l := cs)]
    exact List.drop_left
  have hcs : cs = whole ++ cs.drop whole.length := by
    rw [hdrop, hwhole, List.takeWhile_append_dropWhile]
  split at h
  · rename_i heq
    rw [heq, List.append_nil] at hcs
    refine ⟨whole, [], by rw [isWhole, h, Bool.or_true], by simp, by simp, ?_, by simpa using hcs, by simp [heq]⟩
    rw [List.append_nil]
    cases hcons : whole with
    | nil => rw [hcons] at h; cases h
    | cons first rest =>
      rw [hcons] at h
      exact lt_of_lt_of_le (by positivity) (pow_le_readDigits h)
  · rename_i point fraction heq
    rw [Bool.and_eq_true] at h
    have hpoint : point = '.' := by
      have hhead := List.head?_dropWhile_not (fun c => decide (c ≠ '.')) cs
      rw [← hdrop, heq] at hhead
      simpa using hhead
    have hne : fraction ≠ [] := by
      rintro rfl
      cases h.2
    have hlast := not_dvd_of_isFraction whole h.2
    refine ⟨whole, fraction, h.1, ?_, fun _ => hlast, Nat.pos_of_ne_zero fun hzero => hlast (hzero ▸ dvd_zero _), ?_,
      by rw [heq]; rfl⟩
    · simp only [isFraction, Bool.and_eq_true, List.all_eq_true] at h
      exact h.2.1
    · rw [if_neg hne, ← hpoint, ← heq]
      exact hcs

theorem magnitudeChars_eq {d : Decimal} {whole : List Char} (hwhole : isWhole whole = true)
    (hfraction : ∀ c ∈ fraction, c.isDigit = true) (hlast : fraction ≠ [] → ¬ 10 ∣ readDigits (whole ++ fraction))
    (h : |(d : ℚ)| = readDigits (whole ++ fraction) / 10 ^ fraction.length) :
    magnitudeChars d = whole ++ (if fraction = [] then [] else '.' :: fraction) := by
  have hscale : decimalScale d = fraction.length :=
    decimalScale_eq h fun hne => hlast fun hnil => hne (by rw [hnil]; rfl)
  have hcoefficient : decimalCoefficient d = readDigits whole * 10 ^ fraction.length + readDigits fraction := by
    have := decimalCoefficient_eq d
    rw [hscale, h, div_mul_cancel₀ _ (by positivity)] at this
    rw [← readDigits_append]
    exact_mod_cast this
  have hlt := readDigits_lt hfraction
  have hpos : 0 < 10 ^ fraction.length := by positivity
  rw [magnitudeChars, hscale, hcoefficient]
  rw [mul_comm, Nat.mul_add_div hpos, Nat.div_eq_of_lt hlt, add_zero, naturalText_readDigits hwhole,
    Nat.mul_add_mod, Nat.mod_eq_of_lt hlt, fixedDigits_readDigits hfraction]
  simp only [List.length_eq_zero_iff]

theorem readUnsigned_pos (h : isMagnitude cs = true) : 0 < (readUnsigned cs : ℚ) := by
  obtain ⟨whole, fraction, -, -, -, hpos, -, hread⟩ := isMagnitude_split h
  have : (0 : ℚ) < readDigits (whole ++ fraction) := by exact_mod_cast hpos
  rw [hread]
  simp only [Decimal.scaled, Int.cast_natCast]
  exact div_pos this (by positivity)

theorem magnitudeChars_of_isMagnitude (h : isMagnitude cs = true) {d : Decimal}
    (hd : |(d : ℚ)| = readUnsigned cs) : magnitudeChars d = cs := by
  obtain ⟨whole, fraction, hwhole, hfraction, hlast, -, hcs, hread⟩ := isMagnitude_split h
  rw [hread] at hd
  rw [magnitudeChars_eq hwhole hfraction hlast (by simpa [Decimal.scaled] using hd), ← hcs]

theorem parseCanonicalDecimal_of_pattern {text : String} (h : isCanonicalDecimal text = true) :
    parseCanonicalDecimal text = some (readDecimal text.toList) := by
  rw [parseCanonicalDecimal_eq_some, serializeCanonicalDecimal, ← String.toList_inj, String.toList_ofList]
  unfold isCanonicalDecimal at h
  split at h
  · rename_i heq
    rw [heq]
    decide +kernel
  · rename_i rest heq
    have hpos := readUnsigned_pos h
    have hvalue : (readDecimal ('-' :: rest) : ℚ) = -(readUnsigned rest : ℚ) := rfl
    rw [heq, decimalChars, hvalue, if_pos (neg_neg_of_pos hpos),
      magnitudeChars_of_isMagnitude h (by rw [hvalue, abs_neg, abs_of_pos hpos])]
  · rename_i hnegative
    have hpos := readUnsigned_pos h
    have hvalue : readDecimal text.toList = readUnsigned text.toList := by
      unfold readDecimal
      split
      · rename_i rest heq
        exact absurd heq (hnegative rest)
      · rfl
    rw [hvalue, decimalChars, if_neg (not_lt.2 hpos.le), magnitudeChars_of_isMagnitude h (abs_of_pos hpos)]

inductive FieldSchema
  | const (text : String)
  | null
  | identifier
  | sha256
  | commit
  | decimal
  | time
  | signals
  | side
  | sequence
  | count

/-- `_validate` of a field. -/
def FieldSchema.admits : FieldSchema → Value → Bool
  | const text, value => value = .str text
  | null, value => value = .null
  | identifier, .str text => isIdentifier text
  | sha256, .str text => isSha256Hex text
  | commit, .str text => isSourceCommit text
  | decimal, .str text => isCanonicalDecimal text
  | time, .str text => (parseUtc text).any fun t => serializeUtc t = text
  | signals, .list items => 1 ≤ items.length && items.length ≤ 64 && items.all isIdentifier
  | side, .str text => text = "BUY" || text = "SELL"
  | sequence, .int n => 0 < n && n ≤ maxCount
  | count, .int n => 0 ≤ n && n ≤ maxCount
  | _, _ => false

def P1Kind.ownSchema : P1Kind → List (String × FieldSchema)
  | .runStarted =>
    [("runtime_family", .const p1RuntimeFamily), ("engine_version", .const p1EngineVersion),
      ("upstream_commit", .commit), ("closure_digest", .sha256), ("config_digest", .sha256),
      ("catalog_digest", .sha256), ("data_digest", .sha256)]
  | .targetAccepted => [("target_id", .identifier), ("source_signal_ids", .signals), ("target_weight", .decimal)]
  | .targetQuantityPlanned => [("target_id", .identifier), ("quantity", .decimal)]
  | .orderSubmitted =>
    [("client_order_id", .identifier), ("native_order_id", .identifier), ("target_id", .identifier),
      ("source_signal_ids", .signals), ("side", .side), ("quantity", .decimal), ("order_type", .const "MARKET")]
  | .fill =>
    [("client_order_id", .identifier), ("native_fill_id", .identifier), ("side", .side), ("quantity", .decimal),
      ("price", .decimal), ("fee", .decimal), ("fee_currency", .const "USDT")]
  | .positionObserved =>
    [("quantity", .decimal), ("average_entry_price", .decimal), ("realized_pnl", .decimal),
      ("unrealized_pnl", .decimal)]
  | .accountObserved =>
    [("cash_balance", .decimal), ("fees", .decimal), ("realized_pnl", .decimal), ("unrealized_pnl", .decimal)]
  | .runCompleted =>
    [("runtime_family", .const p1RuntimeFamily), ("engine_version", .const p1EngineVersion),
      ("upstream_commit", .commit), ("closure_digest", .sha256), ("target_count", .count), ("order_count", .count),
      ("fill_count", .count), ("final_cash", .decimal), ("final_position", .decimal), ("fees", .decimal),
      ("realized_pnl", .decimal), ("unrealized_pnl", .decimal), ("semantic_digest", .sha256)]

/-- `DOCUMENT_SCHEMAS` -/
def P1Kind.schema (kind : P1Kind) : Dict String FieldSchema :=
  [("schema_version", .const p1EventSchema), ("sequence", .sequence), ("simulation_time", .time),
    ("event_type", .const kind.text), ("origin", .const kind.origin),
    ("native_type", kind.nativeType.elim .null .const)] ++ kind.ownSchema

def Document.text (d : Document) (name : String) : String := ((d.get? name).bind Value.str?).getD ""

def Document.decimal (d : Document) (name : String) : Decimal := readDecimal (d.text name).toList

def Document.uniqueSignals (d : Document) : Bool :=
  match d.get? "source_signal_ids" with
  | some (.list items) => items.Nodup
  | _ => false

def validateSemantics (d : Document) : P1Kind → Bool
  | .targetAccepted => d.uniqueSignals && 0 ≤ d.decimal "target_weight" && d.decimal "target_weight" ≤ 1
  | .orderSubmitted => d.uniqueSignals && 0 < d.decimal "quantity"
  | .targetQuantityPlanned => 0 ≤ d.decimal "quantity"
  | .fill => 0 < d.decimal "quantity" && 0 < d.decimal "price" && 0 ≤ d.decimal "fee"
  | .positionObserved => 0 ≤ d.decimal "quantity" && 0 ≤ d.decimal "average_entry_price"
  | .accountObserved => 0 ≤ d.decimal "cash_balance" && 0 ≤ d.decimal "fees"
  | .runCompleted => 0 ≤ d.decimal "final_cash" && 0 ≤ d.decimal "final_position" && 0 ≤ d.decimal "fees"
  | .runStarted => true

/-- `validate_document`; `false` when it raises. -/
def validateDocument (kind : P1Kind) (d : Document) : Bool :=
  kind.documentFields ⊆ d.keys && d.keys ⊆ kind.documentFields &&
    d.all (fun field => (kind.schema.get? field.1).any fun schema => schema.admits field.2) &&
    validateSemantics d kind

/-- What a value that the field admits was written from. -/
def FieldSchema.Reads : FieldSchema → Value → Prop
  | const text, value => value = .str text
  | null, value => value = .null
  | identifier, value => ∃ identifier : Identifier, value = .str identifier.text
  | sha256, value => ∃ digest : Sha256Hex, value = .str digest.text
  | commit, value => ∃ commit : SourceCommit, value = .str commit.text
  | decimal, value => ∃ x, value = decimalValue x
  | time, value => ∃ t, value = .str (serializeUtc t)
  | signals, value => ∃ signals : List Identifier, (1 ≤ signals.length ∧ signals.length ≤ 64) ∧
      value = signalsValue signals
  | side, value => ∃ side, value = .str (sideText side)
  | sequence, value => ∃ n : ℕ, (0 < n ∧ n ≤ maxCount) ∧ value = .int n
  | count, value => ∃ n : ℕ, n ≤ maxCount ∧ value = .int n

theorem FieldSchema.reads_of_admits {field : FieldSchema} {value : Value} (h : field.admits value = true) :
    field.Reads value := by
  cases field with
  | const text => exact (of_decide_eq_true h : value = .str text)
  | null => exact (of_decide_eq_true h : value = .null)
  | identifier | sha256 | commit =>
    cases value <;> try cases h
    exact ⟨⟨_, h⟩, rfl⟩
  | decimal =>
    cases value <;> try cases h
    exact ⟨_, congrArg Value.str (parseCanonicalDecimal_eq_some.1 (parseCanonicalDecimal_of_pattern h))⟩
  | time =>
    cases value <;> try cases h
    obtain ⟨t, -, htext⟩ := (Option.any_eq_true _ _).1 h
    exact ⟨t, congrArg Value.str (of_decide_eq_true htext).symm⟩
  | signals =>
    cases value <;> try cases h
    rename_i items
    simp only [admits, Bool.and_eq_true, decide_eq_true_eq, List.all_eq_true] at h
    have hread : items.mapM Identifier.of? = some (items.filterMap Identifier.of?) := by
      apply Outcome.mapM_some_of
      intro item hitem
      rw [Identifier.of?, dif_pos (h.2 item hitem)]
      rfl
    have hitems := Value.mapM_of?_eq_some.1 hread
    have hlength := congrArg List.length hitems
    rw [List.length_map] at hlength
    exact ⟨_, hlength ▸ h.1, congrArg Value.list hitems⟩
  | side =>
    cases value <;> try cases h
    simp only [admits, Bool.or_eq_true, decide_eq_true_eq] at h
    rcases h with rfl | rfl
    · exact ⟨.buy, rfl⟩
    · exact ⟨.sell, rfl⟩
  | sequence | count =>
    cases value <;> try cases h
    rename_i n
    simp only [admits, Bool.and_eq_true, decide_eq_true_eq] at h
    exact ⟨n.toNat, by omega, by rw [Int.toNat_of_nonneg (by omega)]⟩

def Document.Reads (d : Document) (schema : Dict String FieldSchema) : Prop :=
  ∀ field ∈ schema, ∃ value, d.get? field.1 = some value ∧ field.2.Reads value

variable {d : Document} {name : String}

theorem Document.reads_cons {field : FieldSchema} {schema : Dict String FieldSchema} :
    d.Reads ((name, field) :: schema) ↔ (∃ value, d.get? name = some value ∧ field.Reads value) ∧ d.Reads schema := by
  simp [Document.Reads]

theorem keys_schema (kind : P1Kind) : kind.schema.keys = kind.documentFields := by cases kind <;> rfl

variable {kind : P1Kind}

theorem reads_of_validateDocument (h : validateDocument kind d = true) : d.Reads kind.schema := by
  simp only [validateDocument, Bool.and_eq_true, decide_eq_true_eq, List.all_eq_true] at h
  obtain ⟨⟨⟨hfields, -⟩, hall⟩, -⟩ := h
  intro field hfield
  have hkey : field.1 ∈ d.keys := hfields (by rw [← keys_schema]; exact List.mem_map_of_mem hfield)
  obtain ⟨value, hvalue⟩ := Option.isSome_iff_exists.1 ((Dict.mem_keys_iff d field.1).1 hkey)
  obtain ⟨schema, hschema, hadmits⟩ := (Option.any_eq_true _ _).1 (hall _ (Dict.mem_of_get?_eq_some hvalue))
  have hnodup : kind.schema.keys.Nodup := by
    rw [keys_schema]
    exact kind.nodup_documentFields
  rw [(Dict.get?_eq_some_iff hnodup).2 hfield] at hschema
  obtain rfl := Option.some.inj hschema
  exact ⟨value, hvalue, FieldSchema.reads_of_admits hadmits⟩

theorem decimal_of_get? {x : Decimal} (h : d.get? name = some (decimalValue x)) : d.decimal name = x := by
  simp [Document.decimal, Document.text, h, decimalValue, Value.str?, serializeCanonicalDecimal,
    readDecimal_decimalChars]

theorem nodup_of_uniqueSignals {signals : List Identifier}
    (h : d.get? "source_signal_ids" = some (signalsValue signals)) (hunique : d.uniqueSignals = true) :
    signals.Nodup := by
  simp only [Document.uniqueSignals, h, signalsValue, decide_eq_true_eq] at hunique
  exact hunique.of_map

theorem exists_body (h : d.Reads kind.ownSchema)
    (hsemantics : validateSemantics d kind = true) : ∃ body : P1Body, body.kind = kind ∧ d.Holds body.fields := by
  cases kind <;> simp only [P1Kind.ownSchema, Document.reads_cons, FieldSchema.Reads] at h
  case runStarted =>
    obtain ⟨⟨_, h1, rfl⟩, ⟨_, h2, rfl⟩, ⟨_, h3, commit, rfl⟩, ⟨_, h4, closure, rfl⟩, ⟨_, h5, config, rfl⟩,
      ⟨_, h6, catalog, rfl⟩, ⟨_, h7, data, rfl⟩, -⟩ := h
    refine ⟨.runStarted ⟨commit, closure, config, catalog, data⟩, rfl, ?_⟩
    simp [P1Body.fields, Document.Holds, h1, h2, h3, h4, h5, h6, h7]
  case targetAccepted =>
    obtain ⟨⟨_, h1, target, rfl⟩, ⟨_, h2, signals, hlength, rfl⟩, ⟨_, h3, weight, rfl⟩, -⟩ := h
    simp only [validateSemantics, Bool.and_eq_true, decide_eq_true_eq, decimal_of_get? h3] at hsemantics
    refine ⟨.targetAccepted ⟨target, signals, weight,
      ⟨hlength.1, hlength.2, nodup_of_uniqueSignals h2 hsemantics.1.1⟩, ⟨hsemantics.1.2, hsemantics.2⟩⟩, rfl, ?_⟩
    simp [P1Body.fields, Document.Holds, h1, h2, h3]
  case targetQuantityPlanned =>
    obtain ⟨⟨_, h1, target, rfl⟩, ⟨_, h2, quantity, rfl⟩, -⟩ := h
    simp only [validateSemantics, decide_eq_true_eq, decimal_of_get? h2] at hsemantics
    refine ⟨.targetQuantityPlanned ⟨target, quantity, hsemantics⟩, rfl, ?_⟩
    simp [P1Body.fields, Document.Holds, h1, h2]
  case orderSubmitted =>
    obtain ⟨⟨_, h1, client, rfl⟩, ⟨_, h2, native, rfl⟩, ⟨_, h3, target, rfl⟩, ⟨_, h4, signals, hlength, rfl⟩,
      ⟨_, h5, side, rfl⟩, ⟨_, h6, quantity, rfl⟩, ⟨_, h7, rfl⟩, -⟩ := h
    simp only [validateSemantics, Bool.and_eq_true, decide_eq_true_eq, decimal_of_get? h6] at hsemantics
    refine ⟨.orderSubmitted ⟨client, native, target, signals, side, quantity,
      ⟨hlength.1, hlength.2, nodup_of_uniqueSignals h4 hsemantics.1⟩, hsemantics.2⟩, rfl, ?_⟩
    simp [P1Body.fields, Document.Holds, h1, h2, h3, h4, h5, h6, h7]
  case fill =>
    obtain ⟨⟨_, h1, client, rfl⟩, ⟨_, h2, native, rfl⟩, ⟨_, h3, side, rfl⟩, ⟨_, h4, quantity, rfl⟩,
      ⟨_, h5, price, rfl⟩, ⟨_, h6, fee, rfl⟩, ⟨_, h7, rfl⟩, -⟩ := h
    simp only [validateSemantics, Bool.and_eq_true, decide_eq_true_eq, decimal_of_get? h4, decimal_of_get? h5,
      decimal_of_get? h6] at hsemantics
    refine ⟨.fill ⟨client, native, side, quantity, price, fee, ⟨hsemantics.1.1, hsemantics.1.2, hsemantics.2⟩⟩, rfl, ?_⟩
    simp [P1Body.fields, Document.Holds, h1, h2, h3, h4, h5, h6, h7]
  case positionObserved =>
    obtain ⟨⟨_, h1, quantity, rfl⟩, ⟨_, h2, average, rfl⟩, ⟨_, h3, realized, rfl⟩, ⟨_, h4, unrealized, rfl⟩, -⟩ := h
    simp only [validateSemantics, Bool.and_eq_true, decide_eq_true_eq, decimal_of_get? h1,
      decimal_of_get? h2] at hsemantics
    refine ⟨.positionObserved ⟨quantity, average, realized, unrealized, hsemantics⟩, rfl, ?_⟩
    simp [P1Body.fields, Document.Holds, h1, h2, h3, h4]
  case accountObserved =>
    obtain ⟨⟨_, h1, cash, rfl⟩, ⟨_, h2, fees, rfl⟩, ⟨_, h3, realized, rfl⟩, ⟨_, h4, unrealized, rfl⟩, -⟩ := h
    simp only [validateSemantics, Bool.and_eq_true, decide_eq_true_eq, decimal_of_get? h1,
      decimal_of_get? h2] at hsemantics
    refine ⟨.accountObserved ⟨cash, fees, realized, unrealized, hsemantics⟩, rfl, ?_⟩
    simp [P1Body.fields, Document.Holds, h1, h2, h3, h4]
  case runCompleted =>
    obtain ⟨⟨_, h1, rfl⟩, ⟨_, h2, rfl⟩, ⟨_, h3, commit, rfl⟩, ⟨_, h4, closure, rfl⟩, ⟨_, h5, targets, htargets, rfl⟩,
      ⟨_, h6, orders, horders, rfl⟩, ⟨_, h7, fills, hfills, rfl⟩, ⟨_, h8, cash, rfl⟩, ⟨_, h9, position, rfl⟩,
      ⟨_, h10, fees, rfl⟩, ⟨_, h11, realized, rfl⟩, ⟨_, h12, unrealized, rfl⟩, ⟨_, h13, digest, rfl⟩, -⟩ := h
    simp only [validateSemantics, Bool.and_eq_true, decide_eq_true_eq, decimal_of_get? h8, decimal_of_get? h9,
      decimal_of_get? h10] at hsemantics
    refine ⟨.runCompleted ⟨commit, closure, targets, orders, fills, cash, position, fees, realized, unrealized, digest,
      ⟨htargets, horders, hfills⟩, ⟨hsemantics.1.1, hsemantics.1.2, hsemantics.2⟩⟩, rfl, ?_⟩
    simp [P1Body.fields, Document.Holds, h1, h2, h3, h4, h5, h6, h7, h8, h9, h10, h11, h12, h13]

def Document.Same (d e : Document) : Prop := ∀ name, d.get? name = e.get? name

theorem validateDocument_event (h : validateDocument kind d = true) :
    ∃ event : P1Event, event.body.kind = kind ∧ d.Same event.document := by
  have hreads := reads_of_validateDocument h
  simp only [validateDocument, Bool.and_eq_true, decide_eq_true_eq] at h
  obtain ⟨⟨⟨-, hkeys⟩, -⟩, hsemantics⟩ := h
  obtain ⟨body, rfl, hfields⟩ := exists_body
    (fun field hfield => hreads field (List.mem_append_right _ hfield)) hsemantics
  simp only [P1Kind.schema, List.cons_append, List.nil_append, Document.reads_cons, FieldSchema.Reads] at hreads
  obtain ⟨⟨_, h1, rfl⟩, ⟨_, h2, sequence, hsequence, rfl⟩, ⟨_, h3, time, rfl⟩, ⟨_, h4, rfl⟩, ⟨_, h5, rfl⟩,
    ⟨native, h6, a6⟩, -⟩ := hreads
  obtain rfl : native = nativeTypeValue body.nativeType := by
    rw [P1Body.nativeType_kind] at a6
    cases hn : body.nativeType <;> rw [hn] at a6 <;> exact a6
  have hholds : d.Holds (P1Event.document ⟨sequence, time, body, hsequence⟩) := by
    rw [P1Event.document, Document.holds_append]
    refine ⟨?_, hfields⟩
    simp only [Document.holds_cons, Document.holds_nil, and_true]
    exact ⟨h1, h2, h3, body.text_kind ▸ h4, body.origin_kind ▸ h5, h6⟩
  refine ⟨⟨sequence, time, body, hsequence⟩, rfl, fun name => ?_⟩
  cases hname : (P1Event.document ⟨sequence, time, body, hsequence⟩).get? name with
  | some value => exact hholds (name, value) (Dict.mem_of_get?_eq_some hname)
  | none =>
    rw [Dict.get?_eq_none_iff, P1Event.keys_document] at hname
    rw [Dict.get?_eq_none_iff]
    exact fun hmem => hname (hkeys hmem)

end TradingAgent.Nautilus
