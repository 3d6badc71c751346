import Mathlib.Algebra.Order.Ring.Abs
import TradingAgent.Nautilus.Events
import TradingAgent.Lib.DigitText

/-!
# Canonical texts of values

How decimals, instants and lists of strings are spelled in JSON documents and read back (`domain/primitives.py`,
`engine_contracts/serialization.py`, `json.dumps` and `json.loads`).
-/

namespace TradingAgent.Nautilus

open DigitText

def decimalScale (d : Decimal) : ℕ :=
  let twos := stripFactor 2 (d : ℚ).den (d : ℚ).den
  max twos.2 (stripFactor 5 twos.1 twos.1).2

theorem atScale_decimalScale (d : Decimal) : AtScale (decimalScale d) d := by
  have h := exactDecimal?_coe d
  unfold exactDecimal? at h
  simp only at h
  split_ifs at h with hone
  have hd := congrArg Subtype.val (Option.some.inj h)
  exact atScale_iff.2 ⟨_, hd.symm⟩

def decimalCoefficient (d : Decimal) : ℕ := (|(d : ℚ)| * 10 ^ decimalScale d).num.toNat

theorem decimalCoefficient_eq (d : Decimal) : (decimalCoefficient d : ℚ) = |(d : ℚ)| * 10 ^ decimalScale d := by
  obtain ⟨n, hn⟩ := atScale_iff.1 (atScale_decimalScale d)
  have h10 : (10 : ℚ) ^ decimalScale d ≠ 0 := by positivity
  have hint : |(d : ℚ)| * 10 ^ decimalScale d = ((|n| : ℤ) : ℚ) := by
    rw [← abs_of_pos (by positivity : (0 : ℚ) < 10 ^ decimalScale d), ← abs_mul, hn,
      div_mul_cancel₀ _ h10]
    push_cast
    rfl
  unfold decimalCoefficient
  rw [hint, Rat.num_intCast]
  exact_mod_cast Int.toNat_of_nonneg (abs_nonneg n)

def magnitudeChars (d : Decimal) : List Char :=
  naturalText (decimalCoefficient d / 10 ^ decimalScale d) ++
    if decimalScale d = 0 then []
    else '.' :: fixedDigits (decimalScale d) (decimalCoefficient d % 10 ^ decimalScale d)

/-- `_serialize_canonical_decimal`, by characters. -/
def decimalChars (d : Decimal) : List Char :=
  if (d : ℚ) < 0 then '-' :: magnitudeChars d else magnitudeChars d

def serializeCanonicalDecimal (d : Decimal) : String := String.ofList (decimalChars d)

/-- `Decimal(text)` of digits with at most one point. -/
def readUnsigned (cs : List Char) : Decimal :=
  let whole := cs.takeWhile fun c => c ≠ '.'
  let fraction := (cs.drop whole.length).drop 1
  .scaled (readDigits (whole ++ fraction)) fraction.length

/-- `Decimal(text)` -/
def readDecimal (cs : List Char) : Decimal :=
  match cs with
  | '-' :: rest => -readUnsigned rest
  | cs => readUnsigned cs

/-- `_validate_canonical_decimal` of a JSON string: the text has to be the canonical one. -/
def parseCanonicalDecimal (text : String) : Option Decimal :=
  let parsed := readDecimal text.toList
  if serializeCanonicalDecimal parsed = text then some parsed else none

theorem readUnsigned_magnitudeChars (d : Decimal) : (readUnsigned (magnitudeChars d) : ℚ) = |(d : ℚ)| := by
  have h10 : (10 : ℚ) ^ decimalScale d ≠ 0 := by positivity
  have hvalue : (decimalCoefficient d : ℚ) / 10 ^ decimalScale d = |(d : ℚ)| := by
    rw [decimalCoefficient_eq, mul_div_cancel_right₀ _ h10]
  have hwhole : ∀ c ∈ naturalText (decimalCoefficient d / 10 ^ decimalScale d), c.isDigit = true :=
    fun c => isDigit_of_mem_naturalText
  unfold readUnsigned magnitudeChars
  simp only
  split_ifs with hzero
  · rw [List.append_nil, takeWhile_digits hwhole]
    simp only [List.drop_length, List.drop_nil, List.append_nil, List.length_nil, readDigits_naturalText]
    simp only [Decimal.scaled, pow_zero, div_one, hzero, Nat.div_one, Int.cast_natCast] at hvalue ⊢
    exact hvalue
  · rw [takeWhile_digits_point hwhole, List.drop_left, List.drop_one, List.tail_cons,
      readDigits_append_fixedDigits, readDigits_naturalText, length_fixedDigits, Nat.mod_mod]
    simp only [Decimal.scaled, Int.cast_natCast]
    rw [mul_comm, Nat.div_add_mod]
    exact hvalue

variable {d : Decimal} {c : Char} {rest : List Char}

theorem isDigit_of_head_magnitudeChars (h : magnitudeChars d = c :: rest) : c.isDigit = true := by
  cases hn : naturalText (decimalCoefficient d / 10 ^ decimalScale d) with
  | nil => exact absurd hn (naturalText_ne_nil _)
  | cons x xs =>
    rw [magnitudeChars, hn, List.cons_append, List.cons.injEq] at h
    rw [← h.1]
    apply isDigit_of_mem_naturalText (n := decimalCoefficient d / 10 ^ decimalScale d)
    rw [hn]
    exact List.mem_cons_self

theorem readDecimal_decimalChars (d : Decimal) : readDecimal (decimalChars d) = d := by
  apply Subtype.ext
  have hread := readUnsigned_magnitudeChars d
  unfold decimalChars
  split_ifs with hneg
  · change -(readUnsigned (magnitudeChars d) : ℚ) = d
    rw [hread, abs_of_neg hneg, neg_neg]
  · rw [abs_of_nonneg (not_lt.1 hneg)] at hread
    unfold readDecimal
    split
    next rest heq => exact absurd (isDigit_of_head_magnitudeChars heq) (by decide)
    next => exact hread

theorem parseCanonicalDecimal_serialize (d : Decimal) :
    parseCanonicalDecimal (serializeCanonicalDecimal d) = some d := by
  unfold parseCanonicalDecimal
  simp only [serializeCanonicalDecimal, String.toList_ofList, readDecimal_decimalChars, if_true]

variable {text : String}

theorem parseCanonicalDecimal_eq_some : parseCanonicalDecimal text = some d ↔ text = serializeCanonicalDecimal d := by
  constructor
  · intro h
    unfold parseCanonicalDecimal at h
    simp only at h
    split_ifs at h with heq
    obtain rfl := Option.some.inj h
    exact heq.symm
  · rintro rfl
    exact parseCanonicalDecimal_serialize d

/-- `isoformat` up to the second, and what comes after it. -/
def secondChars (t : UtcDateTime) (fraction : List Char) : List Char :=
  fixedDigits 4 t.year ++ '-' :: (fixedDigits 2 t.month ++ '-' :: (fixedDigits 2 t.day ++ 'T' ::
    (fixedDigits 2 t.hour ++ ':' :: (fixedDigits 2 t.minute ++ ':' :: (fixedDigits 2 t.second ++ fraction)))))

/-- `_serialize_utc`, by characters. -/
def utcChars (t : UtcDateTime) : List Char :=
  secondChars t (if t.microsecond = 0 then ['Z'] else '.' :: (fixedDigits 6 t.microsecond ++ ['Z']))

def serializeUtc (t : UtcDateTime) : String := String.ofList (utcChars t)

/-- `isoformat(timespec="microseconds")` with `Z` for the offset. -/
def isoMicroseconds (t : UtcDateTime) : String :=
  String.ofList (secondChars t ('.' :: (fixedDigits 6 t.microsecond ++ ['Z'])))

/-- Read `k` digits. -/
def takeDigits (k : ℕ) (cs : List Char) : Option (ℕ × List Char) :=
  if (cs.take k).length = k ∧ (cs.take k).all Char.isDigit then some (readDigits (cs.take k), cs.drop k)
  else none

def takeChar (c : Char) (cs : List Char) : Option (List Char) :=
  match cs with
  | d :: rest => if d = c then some rest else none
  | [] => none

/-- The optional fraction of one to six digits and the final `Z`, in microseconds. -/
def readFraction (cs : List Char) : Option ℕ :=
  match cs with
  | ['Z'] => some 0
  | '.' :: rest =>
    let digits := rest.takeWhile Char.isDigit
    if rest.drop digits.length = ['Z'] ∧ 1 ≤ digits.length ∧ digits.length ≤ 6 then
      some (readDigits digits * 10 ^ (6 - digits.length))
    else none
  | _ => none

/-- `datetime(…, tzinfo=UTC)` -/
def UtcDateTime.of? (year month day hour minute second microsecond : ℕ) : Option UtcDateTime :=
  if h : isCalendar year month day hour minute second microsecond = true then
    some ⟨year, month, day, hour, minute, second, microsecond, h⟩
  else none

/-- `_canonical_utc` of a JSON string. -/
def parseUtc (text : String) : Option UtcDateTime := do
  let (year, cs) ← takeDigits 4 text.toList
  let cs ← takeChar '-' cs
  let (month, cs) ← takeDigits 2 cs
  let cs ← takeChar '-' cs
  let (day, cs) ← takeDigits 2 cs
  let cs ← takeChar 'T' cs
  let (hour, cs) ← takeDigits 2 cs
  let cs ← takeChar ':' cs
  let (minute, cs) ← takeDigits 2 cs
  let cs ← takeChar ':' cs
  let (second, cs) ← takeDigits 2 cs
  let microsecond ← readFraction cs
  UtcDateTime.of? year month day hour minute second microsecond

variable {n : ℕ}

theorem takeDigits_fixedDigits {k : ℕ} (h : n < 10 ^ k) (rest : List Char) :
    takeDigits k (fixedDigits k n ++ rest) = some (n, rest) := by
  have htake : (fixedDigits k n ++ rest).take k = fixedDigits k n := List.take_left' (length_fixedDigits k n)
  have hdrop : (fixedDigits k n ++ rest).drop k = rest := List.drop_left' (length_fixedDigits k n)
  unfold takeDigits
  rw [htake, hdrop, if_pos, readDigits_fixedDigits_of_lt h]
  exact ⟨length_fixedDigits k n, List.all_eq_true.2 fun c hc => isDigit_of_mem_fixedDigits hc⟩

variable {cs : List Char}

theorem takeDigits_eq_some {k : ℕ} (h : takeDigits k cs = some (n, rest)) :
    cs = fixedDigits k n ++ rest ∧ n < 10 ^ k := by
  unfold takeDigits at h
  split_ifs at h with hcs
  obtain ⟨rfl, rfl⟩ := Prod.mk.inj (Option.some.inj h)
  have hdigits : ∀ c ∈ cs.take k, c.isDigit = true := List.all_eq_true.1 hcs.2
  have hwrite := fixedDigits_readDigits hdigits
  have hlt := readDigits_lt hdigits
  rw [hcs.1] at hwrite hlt
  exact ⟨by rw [hwrite, List.take_append_drop], hlt⟩

@[simp] theorem takeChar_cons (c : Char) (rest : List Char) : takeChar c (c :: rest) = some rest := by
  simp [takeChar]

theorem takeChar_eq_some (h : takeChar c cs = some rest) : cs = c :: rest := by
  cases cs with
  | nil => simp [takeChar] at h
  | cons d cs =>
    simp only [takeChar] at h
    split_ifs at h with hd
    rw [hd, Option.some.inj h]

theorem takeWhile_isDigit_append (hds : ∀ d ∈ ds, d.isDigit = true)
    (hc : c.isDigit = false) : (ds ++ c :: rest).takeWhile Char.isDigit = ds := by
  rw [List.takeWhile_append_of_pos hds, List.takeWhile_cons, hc]
  simp

theorem readFraction_fixedDigits (h : n < 10 ^ 6) : readFraction ('.' :: (fixedDigits 6 n ++ ['Z'])) = some n := by
  unfold readFraction
  simp only
  rw [takeWhile_isDigit_append (fun d hd => isDigit_of_mem_fixedDigits hd) (by decide), List.drop_left,
    length_fixedDigits, readDigits_fixedDigits_of_lt h]
  simp

theorem UtcDateTime.valid_bounds (t : UtcDateTime) :
    t.year ≤ 9999 ∧ t.month ≤ 12 ∧ t.day ≤ 31 ∧ t.hour < 24 ∧ t.minute < 60 ∧ t.second < 60 ∧
      t.microsecond < 1000000 := by
  have h := t.valid
  simp only [isCalendar, Bool.and_eq_true, decide_eq_true_eq] at h
  obtain ⟨⟨⟨⟨⟨⟨⟨⟨⟨-, hy⟩, -⟩, hm⟩, -⟩, hd⟩, hh⟩, hn⟩, hs⟩, hu⟩ := h
  have hdays : Calendar.daysInMonth t.year t.month ≤ 31 := by
    unfold Calendar.daysInMonth Calendar.monthLength
    split_ifs <;> omega
  exact ⟨hy, hm, hd.trans hdays, hh, hn, hs, hu⟩

theorem parseUtc_secondChars (t : UtcDateTime) {fraction : List Char}
    (hfraction : readFraction fraction = some t.microsecond) :
    parseUtc (String.ofList (secondChars t fraction)) = some t := by
  obtain ⟨hy, hm, hd, hh, hn, hs, hu⟩ := t.valid_bounds
  unfold parseUtc
  rw [String.toList_ofList, secondChars, takeDigits_fixedDigits (by omega)]
  simp only [Option.bind_eq_bind, Option.bind_some, takeChar_cons]
  rw [takeDigits_fixedDigits (by omega)]
  simp only [Option.bind_some, takeChar_cons]
  rw [takeDigits_fixedDigits (by omega)]
  simp only [Option.bind_some, takeChar_cons]
  rw [takeDigits_fixedDigits (by omega)]
  simp only [Option.bind_some, takeChar_cons]
  rw [takeDigits_fixedDigits (by omega)]
  simp only [Option.bind_some, takeChar_cons]
  rw [takeDigits_fixedDigits (by omega)]
  simp only [Option.bind_some, hfraction]
  unfold UtcDateTime.of?
  rw [dif_pos t.valid]

theorem parseUtc_serializeUtc (t : UtcDateTime) : parseUtc (serializeUtc t) = some t := by
  refine parseUtc_secondChars t ?_
  split_ifs with hzero
  · rw [hzero]
    rfl
  · exact readFraction_fixedDigits t.valid_bounds.2.2.2.2.2.2

theorem parseUtc_isoMicroseconds (t : UtcDateTime) : parseUtc (isoMicroseconds t) = some t :=
  parseUtc_secondChars t (readFraction_fixedDigits t.valid_bounds.2.2.2.2.2.2)

variable {t : UtcDateTime}

theorem parseUtc_eq_some (h : parseUtc text = some t) : ∃ fraction, readFraction fraction = some t.microsecond ∧
      text.toList = fixedDigits 4 t.year ++ '-' :: (fixedDigits 2 t.month ++ '-' :: (fixedDigits 2 t.day ++
        'T' :: (fixedDigits 2 t.hour ++ ':' :: (fixedDigits 2 t.minute ++ ':' ::
          (fixedDigits 2 t.second ++ fraction))))) := by
  unfold parseUtc at h
  simp only [Option.bind_eq_bind, Option.bind_eq_some_iff, Prod.exists] at h
  obtain ⟨year, c1, h1, c2, h2, month, c3, h3, c4, h4, day, c5, h5, c6, h6, hour, c7, h7, c8, h8,
    minute, c9, h9, c10, h10, second, c11, h11, microsecond, hmicro, ht⟩ := h
  unfold UtcDateTime.of? at ht
  split_ifs at ht with hvalid
  obtain rfl := Option.some.inj ht
  refine ⟨c11, hmicro, ?_⟩
  rw [(takeDigits_eq_some h1).1, takeChar_eq_some h2, (takeDigits_eq_some h3).1, takeChar_eq_some h4,
    (takeDigits_eq_some h5).1, takeChar_eq_some h6, (takeDigits_eq_some h7).1, takeChar_eq_some h8,
    (takeDigits_eq_some h9).1, takeChar_eq_some h10, (takeDigits_eq_some h11).1]

theorem readFraction_eq_some (h : readFraction cs = some n) :
    cs = ['Z'] ∧ n = 0 ∨ ∃ digits, (∀ c ∈ digits, c.isDigit = true) ∧ 1 ≤ digits.length ∧ digits.length ≤ 6 ∧
      cs = '.' :: (digits ++ ['Z']) ∧ n = readDigits digits * 10 ^ (6 - digits.length) := by
  unfold readFraction at h
  split at h
  · exact Or.inl ⟨rfl, (Option.some.inj h).symm⟩
  · rename_i rest
    simp only [Option.ite_none_right_eq_some, Option.some.injEq] at h
    obtain ⟨⟨hend, hpos, hle⟩, rfl⟩ := h
    refine Or.inr ⟨rest.takeWhile Char.isDigit, List.all_eq_true.1 List.all_takeWhile, hpos, hle, ?_, rfl⟩
    have hdrop : rest.drop (rest.takeWhile Char.isDigit).length = rest.dropWhile Char.isDigit := by
      nth_rewrite 2 [← List.takeWhile_append_dropWhile (p := Char.isDigit) (l := rest)]
      exact List.drop_left
    rw [← hend, hdrop, List.takeWhile_append_dropWhile]
  · cases h

def fractionChars (t : UtcDateTime) : List Char :=
  if t.microsecond = 0 then ['Z'] else '.' :: (fixedDigits 6 t.microsecond ++ ['Z'])

def CanonicalFraction (text : String) : Prop :=
  text.length = 20 ∨ text.length = 27 ∧ text.toList.drop 20 ≠ "000000Z".toList

instance (text : String) : Decidable (CanonicalFraction text) := inferInstanceAs (Decidable (_ ∨ _ ∧ _))

theorem eq_fractionChars_iff {fraction : List Char} (h : readFraction fraction = some t.microsecond) :
    fraction = fractionChars t ↔ fraction.length = 1 ∨ fraction.length = 8 ∧ fraction.drop 1 ≠ "000000Z".toList := by
  obtain ⟨rfl, hzero⟩ | ⟨digits, hdigits, hpos, hle, rfl, hvalue⟩ := readFraction_eq_some h
  · simp [fractionChars, hzero]
  · have hzeros : fixedDigits 6 0 ++ ['Z'] = "000000Z".toList := by decide +kernel
    have hlength : ('.' :: (digits ++ ['Z'])).length = digits.length + 2 := by simp
    rw [fractionChars, hlength, List.drop_succ_cons, List.drop_zero, ← hzeros]
    by_cases hsix : digits.length = 6
    · have hdigits := fixedDigits_readDigits hdigits
      rw [hsix] at hdigits hvalue
      rw [Nat.sub_self, pow_zero, mul_one] at hvalue
      rw [← hvalue] at hdigits
      split_ifs with hzero
      · rw [hzero] at hdigits
        simp [← hdigits]
      · have hne : digits ≠ fixedDigits 6 0 := by
          intro heq
          rw [heq, readDigits_fixedDigits] at hvalue
          exact hzero (hvalue.trans (Nat.zero_mod _))
        simp [hdigits, hsix, hne]
    · have hleft : '.' :: (digits ++ ['Z']) ≠
          if t.microsecond = 0 then ['Z'] else '.' :: (fixedDigits 6 t.microsecond ++ ['Z']) := by
        intro heq
        have := congrArg List.length heq
        split_ifs at this
        · simp at this
        · simp only [List.length_cons, List.length_append, List.length_nil, length_fixedDigits] at this
          omega
      exact iff_of_false hleft (by omega)

/-- A spelling of an instant is the one that it is written with exactly when its fraction is canonical. -/
theorem eq_serializeUtc_iff (h : parseUtc text = some t) : text = serializeUtc t ↔ CanonicalFraction text := by
  obtain ⟨fraction, hfraction, htext⟩ := parseUtc_eq_some h
  set head := fixedDigits 4 t.year ++ '-' :: (fixedDigits 2 t.month ++ '-' :: (fixedDigits 2 t.day ++
        'T' :: (fixedDigits 2 t.hour ++ ':' :: (fixedDigits 2 t.minute ++ ':' :: fixedDigits 2 t.second)))) with hhead
  have hlength : head.length = 19 := by simp [hhead]
  have htext : text.toList = head ++ fraction := by
    rw [htext, hhead]
    simp
  have hserialize : (serializeUtc t).toList = head ++ fractionChars t := by
    rw [serializeUtc, String.toList_ofList, utcChars, secondChars, hhead]
    simp [fractionChars]
  have hdrop : text.toList.drop 20 = fraction.drop 1 := by
    rw [htext, List.drop_append, hlength, List.drop_of_length_le (by omega), List.nil_append]
  have hlen : text.length = 19 + fraction.length := by
    rw [← String.length_toList, htext, List.length_append, hlength]
  rw [← String.toList_inj, htext, hserialize, List.append_cancel_left_eq, eq_fractionChars_iff hfraction,
    CanonicalFraction, hdrop, hlen]
  constructor
  · rintro (h1 | ⟨h8, hne⟩)
    · exact Or.inl (by omega)
    · exact Or.inr ⟨by omega, hne⟩
  · rintro (h1 | ⟨h8, hne⟩)
    · exact Or.inl (by omega)
    · exact Or.inr ⟨by omega, hne⟩

def hexChar (d : ℕ) : Char := if d < 10 then Char.ofNat (48 + d) else Char.ofNat (87 + d)

/-- One character inside a JSON string, with `ensure_ascii=False`. -/
def jsonChar (c : Char) : List Char :=
  if c = '"' then ['\\', '"']
  else if c = '\\' then ['\\', '\\']
  else if c = '\n' then ['\\', 'n']
  else if c = '\r' then ['\\', 'r']
  else if c = '\t' then ['\\', 't']
  else if c.toNat = 8 then ['\\', 'b']
  else if c.toNat = 12 then ['\\', 'f']
  else if c.toNat < 32 then ['\\', 'u', '0', '0', hexChar (c.toNat / 16), hexChar (c.toNat % 16)]
  else [c]

def jsonString (s : List Char) : List Char := '"' :: (s.flatMap jsonChar ++ ['"'])

def jsonItems : List (List Char) → List Char
  | [] => [']']
  | [s] => jsonString s ++ [']']
  | s :: rest => jsonString s ++ ',' :: jsonItems rest

/-- `canonical_json_bytes` of a list of strings. -/
def jsonStrings (items : List (List Char)) : List Char := '[' :: jsonItems items

def unescape (c : Char) : Option Char :=
  if c = '"' then some '"'
  else if c = '\\' then some '\\'
  else if c = 'n' then some '\n'
  else if c = 'r' then some '\r'
  else if c = 't' then some '\t'
  else if c = 'b' then some (Char.ofNat 8)
  else if c = 'f' then some (Char.ofNat 12)
  else none

def hexValue (c : Char) : ℕ := if c.isDigit then c.toNat - 48 else c.toNat - 87

def readJsonString : List Char → Option (List Char × List Char)
  | [] => none
  | '"' :: rest => some ([], rest)
  | '\\' :: 'u' :: '0' :: '0' :: a :: b :: rest =>
    (readJsonString rest).map fun r => (Char.ofNat (hexValue a * 16 + hexValue b) :: r.1, r.2)
  | '\\' :: c :: rest =>
    (unescape c).bind fun d => (readJsonString rest).map fun r => (d :: r.1, r.2)
  | c :: rest => (readJsonString rest).map fun r => (c :: r.1, r.2)

def readJsonItems : ℕ → List Char → Option (List (List Char))
  | 0, _ => none
  | fuel + 1, cs => do
    let cs ← takeChar '"' cs
    let (s, cs) ← readJsonString cs
    match cs with
    | [']'] => some [s]
    | ',' :: rest => (readJsonItems fuel rest).map (s :: ·)
    | _ => none

def readJsonArray (cs : List Char) : Option (List (List Char)) :=
  if cs = [']'] then some [] else readJsonItems cs.length cs

/-- `json.loads` of the canonical text of a list of strings; any other text is refused. -/
def parseJsonStrings (text : String) : Option (List (List Char)) := do
  let cs ← takeChar '[' text.toList
  let items ← readJsonArray cs
  if String.ofList (jsonStrings items) = text then some items else none

variable (h : isIdentifierChar c = true)
include h

theorem isIdentifierChar_toNat : 45 ≤ c.toNat ∧ c.toNat ≠ 92 := by
  delta isIdentifierChar Char.isAlphanum Char.isAlpha Char.isUpper Char.isLower Char.isDigit at h
  simp only [Bool.or_eq_true, Bool.and_eq_true, decide_eq_true_eq, UInt32.le_iff_toNat_le] at h
  rcases h with ((((((h | h) | h) | h) | h) | h) | h)
  · have h1 : 65 ≤ c.toNat := h.1
    have h2 : c.toNat ≤ 90 := h.2
    omega
  · have h1 : 97 ≤ c.toNat := h.1
    omega
  · have h1 : 48 ≤ c.toNat := h.1
    have h2 : c.toNat ≤ 57 := h.2
    omega
  all_goals
    subst h
    decide

theorem jsonChar_of_isIdentifierChar : jsonChar c = [c] := by
  obtain ⟨hge, hne⟩ := isIdentifierChar_toNat h
  have hchar : ∀ d : Char, d.toNat < 45 ∨ d.toNat = 92 → c ≠ d := by
    rintro d hd rfl
    omega
  unfold jsonChar
  rw [if_neg (hchar _ (by decide)), if_neg (hchar _ (by decide)), if_neg (hchar _ (by decide)),
    if_neg (hchar _ (by decide)), if_neg (hchar _ (by decide)), if_neg (by omega), if_neg (by omega),
    if_neg (by omega)]

theorem readJsonString_cons (rest : List Char) :
    readJsonString (c :: rest) = (readJsonString rest).map fun r => (c :: r.1, r.2) := by
  obtain ⟨hge, hne⟩ := isIdentifierChar_toNat h
  have hquote : c ≠ '"' := by
    rintro rfl
    exact absurd hge (by decide)
  have hslash : c ≠ '\\' := by
    rintro rfl
    exact absurd rfl hne
  rw [readJsonString.eq_def]
  split
  all_goals simp_all

omit h

theorem readJsonString_append {s : List Char} (h : ∀ c ∈ s, isIdentifierChar c = true)
    (rest : List Char) : readJsonString (s.flatMap jsonChar ++ ['"'] ++ rest) = some (s, rest) := by
  induction s with
  | nil => rfl
  | cons c s ih =>
    rw [List.flatMap_cons, jsonChar_of_isIdentifierChar (h c List.mem_cons_self), List.cons_append,
      List.nil_append, List.cons_append, List.cons_append,
      readJsonString_cons (h c List.mem_cons_self), ih fun d hd => h d (List.mem_cons_of_mem _ hd)]
    rfl

variable {items : List (List Char)}

theorem readJsonItems_jsonItems {fuel : ℕ}
    (h : ∀ s ∈ items, ∀ c ∈ s, isIdentifierChar c = true) (hne : items ≠ []) (hfuel : items.length ≤ fuel) :
    readJsonItems fuel (jsonItems items) = some items := by
  induction items generalizing fuel with
  | nil => exact absurd rfl hne
  | cons s rest ih =>
    obtain ⟨fuel, rfl⟩ : ∃ n, fuel = n + 1 := ⟨fuel - 1, by simp at hfuel; omega⟩
    have hs := h s List.mem_cons_self
    cases rest with
    | nil =>
      simp only [readJsonItems, jsonItems, jsonString, List.cons_append, takeChar_cons, Option.bind_eq_bind,
        Option.bind_some]
      rw [readJsonString_append hs]
      rfl
    | cons s' rest =>
      have hrest : readJsonItems fuel (jsonItems (s' :: rest)) = some (s' :: rest) :=
        ih (fun t ht => h t (List.mem_cons_of_mem _ ht)) (by simp) (by simp at hfuel ⊢; omega)
      simp only [readJsonItems, jsonItems, jsonString, List.cons_append, takeChar_cons, Option.bind_eq_bind,
        Option.bind_some]
      rw [readJsonString_append hs]
      simp only [Option.bind_some]
      rw [hrest]
      rfl

theorem length_le_jsonItems (items : List (List Char)) : items.length ≤ (jsonItems items).length := by
  induction items with
  | nil => simp
  | cons s rest ih =>
    cases rest with
    | nil => simp [jsonItems]
    | cons s' rest =>
      simp only [jsonItems, List.length_cons, List.length_append] at ih ⊢
      omega

theorem parseJsonStrings_jsonStrings (h : ∀ s ∈ items, ∀ c ∈ s, isIdentifierChar c = true) (hne : items ≠ []) :
    parseJsonStrings (String.ofList (jsonStrings items)) = some items := by
  have hbracket : jsonItems items ≠ [']'] := by
    cases items with
    | nil => exact absurd rfl hne
    | cons s rest => cases rest <;> simp [jsonItems, jsonString]
  have hread : readJsonArray (jsonItems items) = some items := by
    rw [readJsonArray, if_neg hbracket]
    exact readJsonItems_jsonItems h hne (length_le_jsonItems items)
  unfold parseJsonStrings
  rw [String.toList_ofList, jsonStrings, takeChar_cons]
  simp only [Option.bind_eq_bind, Option.bind_some, hread]
  exact if_pos rfl

theorem parseJsonStrings_eq_some
    (h : parseJsonStrings text = some items) : text = String.ofList (jsonStrings items) := by
  unfold parseJsonStrings at h
  simp only [Option.bind_eq_bind, Option.bind_eq_some_iff] at h
  obtain ⟨cs, -, found, -, h⟩ := h
  split_ifs at h with heq
  obtain rfl := Option.some.inj h
  exact heq.symm

end TradingAgent.Nautilus
