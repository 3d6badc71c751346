import Mathlib.Data.List.DropRight
import TradingAgent.Domain.Primitives
import TradingAgent.Lib.DigitText

/-!
# The canonical decimal codec

`_serialize_canonical_decimal` and the JSON mode of `_validate_canonical_decimal`, over finite decimals. Which
characters `\d` matches is a parameter: the pattern of the source is not limited to ASCII.
-/

namespace TradingAgent.CanonicalDecimal

open DigitText Outcome

/-- A finite `Decimal`, by the components of its `as_tuple`. -/
structure DecimalTuple where
  negative : Bool
  coefficient : ℕ
  exponent : ℤ
  deriving DecidableEq

def DecimalTuple.magnitude (d : DecimalTuple) : ℚ := d.coefficient * (10 : ℚ) ^ d.exponent

def DecimalTuple.value (d : DecimalTuple) : ℚ := if d.negative then -d.magnitude else d.magnitude

/-- `format(value, "f")` without the sign: one fractional digit for each negative power of ten. -/
def formatMagnitude (d : DecimalTuple) : List Char :=
  match d.exponent with
  | .ofNat e => naturalText (d.coefficient * 10 ^ e)
  | .negSucc k => naturalText (d.coefficient / 10 ^ (k + 1)) ++ '.' :: fixedDigits (k + 1) d.coefficient

def signChars (negative : Bool) : List Char := if negative then ['-'] else []

/-- `plain.rstrip("0").rstrip(".")` of a text with a point. -/
def stripZeros (plain : List Char) : List Char :=
  if '.' ∈ plain then (plain.rdropWhile (· = '0')).rdropWhile (· = '.') else plain

def serializeCanonicalDecimal (d : DecimalTuple) : String :=
  if d.coefficient = 0 then "0" else String.ofList (stripZeros (signChars d.negative ++ formatMagnitude d))

section

variable (unicodeDigit : Char → Option ℕ)

/-- `[1-9]\d*` -/
def matchesPositive : List Char → Bool
  | [] => false
  | c :: rest => c.isDigit && c ≠ '0' && rest.all fun c => (unicodeDigit c).isSome

/-- `[1-9]\d*|(?:0|[1-9]\d*)\.\d*[1-9]` -/
def matchesUnsigned (cs : List Char) : Bool :=
  let whole := cs.takeWhile fun c => c ≠ '.'
  match cs.drop whole.length with
  | [] => matchesPositive unicodeDigit whole
  | _ :: fraction => (whole = ['0'] || matchesPositive unicodeDigit whole) &&
      (fraction.dropLast.all fun c => (unicodeDigit c).isSome) && fraction.getLast?.any fun c => c.isDigit && c ≠ '0'

def splitSign : List Char → Bool × List Char
  | '-' :: body => (true, body)
  | body => (false, body)

/-- `_CANONICAL_DECIMAL_PATTERN` -/
def matchesPattern (cs : List Char) : Bool := cs = ['0'] || matchesUnsigned unicodeDigit (splitSign cs).2

def digitsNumber (cs : List Char) : ℕ := cs.foldl (fun n c => n * 10 + (unicodeDigit c).getD 0) 0

/-- `Decimal(text)` of a text that matches the pattern. -/
def decimalOf (cs : List Char) : DecimalTuple :=
  let body := (splitSign cs).2
  let whole := body.takeWhile fun c => c ≠ '.'
  let fraction := (body.drop whole.length).drop 1
  ⟨(splitSign cs).1, digitsNumber unicodeDigit (whole ++ fraction), -fraction.length⟩

/-- `_validate_canonical_decimal` of a string in JSON mode; what matches the pattern is finite. -/
def validateCanonicalDecimal (text : String) : Except String DecimalTuple := do
  require (matchesPattern unicodeDigit text.toList = true) "value must be a canonical Decimal string"
  let parsed := decimalOf unicodeDigit text.toList
  require (serializeCanonicalDecimal parsed = text) "value must be a canonical Decimal string"
  return parsed

end

/-! ## Spellings -/

/-- The digits of a number, without zeros at the end. -/
structure Spells (x : ℚ) (whole : ℕ) (fraction : List Char) : Prop where
  digits : ∀ c ∈ fraction, c.isDigit = true
  last : ∀ c ∈ fraction.getLast?, c ≠ '0'
  value : x = whole + readDigits fraction / 10 ^ fraction.length

def spelling (whole : ℕ) (fraction : List Char) : List Char :=
  naturalText whole ++ if fraction = [] then [] else '.' :: fraction

variable {x : ℚ} {whole whole' : ℕ} {fraction fraction' : List Char}

variable (h : Spells x whole fraction) (h' : Spells x whole' fraction')
include h h'

theorem Spells.length_le : fraction'.length ≤ fraction.length := by
  by_contra hlt
  obtain ⟨j, hj⟩ := Nat.exists_eq_add_of_lt (not_le.1 hlt)
  cases hf : fraction' using List.reverseRecOn with
  | nil => simp [hf] at hj
  | append_singleton init c =>
    have hdigit := h'.digits c (by simp [hf])
    have hne := h'.last c (by simp [hf])
    have hvalue := h.value.symm.trans h'.value
    rw [hj, hf, readDigits_concat] at hvalue
    have hnat : (whole * 10 ^ fraction.length + readDigits fraction) * 10 ^ (j + 1) =
        10 ^ fraction.length * whole' * 10 ^ (j + 1) + (readDigits init * 10 + digitValue c) := by
      have h10 : (10 : ℚ) ^ fraction.length ≠ 0 := by positivity
      have h10' : (10 : ℚ) ^ (j + 1) ≠ 0 := by positivity
      rw [add_assoc, pow_add] at hvalue
      field_simp at hvalue
      exact_mod_cast hvalue
    -- the last digit is what is left of a multiple of ten
    have hmod := congrArg (· % 10) hnat
    simp only [pow_succ, ← mul_assoc] at hmod
    have hlt := digitValue_lt hdigit
    have hzero : digitValue c = 0 := by omega
    exact hne (by rw [← digitChar_digitValue hdigit, hzero]; rfl)

theorem Spells.unique : whole = whole' ∧ fraction = fraction' := by
  have hlength : fraction.length = fraction'.length := (h'.length_le h).antisymm (h.length_le h')
  have hvalue := h.value.symm.trans h'.value
  have h10 : (10 : ℚ) ^ fraction'.length ≠ 0 := by positivity
  rw [hlength] at hvalue
  field_simp at hvalue
  have hnat : 10 ^ fraction'.length * whole + readDigits fraction =
      10 ^ fraction'.length * whole' + readDigits fraction' := by
    rw [mul_comm _ whole]
    exact_mod_cast hvalue
  have hlt := readDigits_lt h.digits
  have hlt' := readDigits_lt h'.digits
  rw [hlength] at hlt
  have hwhole := congrArg (· / 10 ^ fraction'.length) hnat
  simp only [Nat.mul_add_div (Nat.pow_pos (by norm_num : 0 < 10)), Nat.div_eq_of_lt hlt, Nat.div_eq_of_lt hlt',
    add_zero] at hwhole
  subst hwhole
  refine ⟨rfl, ?_⟩
  rw [← fixedDigits_readDigits h.digits, ← fixedDigits_readDigits h'.digits, hlength, Nat.add_left_cancel hnat]

omit h h'

/-! ## What the serializer writes -/

theorem rdropWhile_after {p : Char → Bool} (front back : List Char) {c : Char} (h : p c = false) :
    (front ++ c :: back).rdropWhile p = front ++ c :: back.rdropWhile p := by
  induction back using List.reverseRecOn with
  | nil =>
    rw [List.rdropWhile_concat_neg _ _ _ (by simp [h])]
    simp
  | append_singleton back x ih =>
    rw [← List.cons_append, ← List.append_assoc]
    by_cases hx : p x = true
    · rw [List.rdropWhile_concat_pos _ _ _ hx, ih, List.rdropWhile_concat_pos _ _ _ hx]
    · rw [List.rdropWhile_concat_neg _ _ _ hx, List.rdropWhile_concat_neg _ _ _ hx]
      simp

theorem readDigits_append_zeros (cs : List Char) {zeros : List Char} (h : ∀ c ∈ zeros, c = '0') :
    readDigits (cs ++ zeros) = readDigits cs * 10 ^ zeros.length := by
  induction zeros using List.reverseRecOn with
  | nil => simp
  | append_singleton zeros c ih =>
    rw [← List.append_assoc, readDigits_concat, ih fun d hd => h d (List.mem_append_left _ hd), h c (by simp),
      List.length_append, List.length_singleton, pow_succ, show digitValue '0' = 0 from rfl]
    ring

theorem mem_naturalText_append {front : List Char} (n : ℕ) (h : ∀ c ∈ front, c ≠ '.') :
    ∀ c ∈ front ++ naturalText n, c ≠ '.' := by
  intro c hc
  rcases List.mem_append.1 hc with hc | hc
  · exact h c hc
  · exact ne_point_of_isDigit (isDigit_of_mem_naturalText hc)

theorem signChars_ne_point (negative : Bool) : ∀ c ∈ signChars negative, c ≠ '.' := by
  cases negative <;> simp [signChars]

theorem stripZeros_point {front back : List Char} (hfront : ∀ c ∈ front, c ≠ '.') (hback : ∀ c ∈ back, c ≠ '.') :
    stripZeros (front ++ '.' :: back) = front ++
      if back.rdropWhile (· = '0') = [] then [] else '.' :: back.rdropWhile (· = '0') := by
  unfold stripZeros
  rw [if_pos (by simp), rdropWhile_after _ _ (by decide)]
  have hkept : ∀ c ∈ back.rdropWhile (· = '0'), c ≠ '.' :=
    fun c hc => hback c ((List.rdropWhile_prefix _ _).subset hc)
  generalize back.rdropWhile (· = '0') = kept at *
  cases kept using List.reverseRecOn with
  | nil =>
    rw [List.rdropWhile_concat_pos _ _ _ (by decide), List.rdropWhile_eq_self_iff.2]
    · simp
    · exact fun hne => by simpa using hfront _ (List.getLast_mem hne)
  | append_singleton kept c =>
    rw [← List.cons_append, ← List.append_assoc, List.rdropWhile_concat_neg _ _ _ (by simpa using hkept c (by simp))]
    simp

theorem serialize_spells {d : DecimalTuple} (h : d.coefficient ≠ 0) : ∃ whole fraction,
    Spells d.magnitude whole fraction ∧
      serializeCanonicalDecimal d = String.ofList (signChars d.negative ++ spelling whole fraction) := by
  obtain ⟨negative, coefficient, exponent⟩ := d
  unfold serializeCanonicalDecimal
  rw [if_neg h]
  simp only
  cases exponent with
  | ofNat e =>
    refine ⟨coefficient * 10 ^ e, [], ⟨by simp, by simp, ?_⟩, ?_⟩
    · simp [DecimalTuple.magnitude, readDigits]
    · have hplain := mem_naturalText_append (coefficient * 10 ^ e) (signChars_ne_point negative)
      unfold stripZeros
      rw [formatMagnitude, if_neg fun h => hplain '.' h rfl]
      simp [spelling]
  | negSucc k =>
    have hfront := mem_naturalText_append (coefficient / 10 ^ (k + 1)) (signChars_ne_point negative)
    have hdigits := fun c => isDigit_of_mem_fixedDigits (c := c) (k := k + 1) (n := coefficient)
    refine ⟨coefficient / 10 ^ (k + 1), (fixedDigits (k + 1) coefficient).rdropWhile (· = '0'), ⟨?_, ?_, ?_⟩, ?_⟩
    · exact fun c hc => hdigits c ((List.rdropWhile_prefix _ _).subset hc)
    · intro c hc
      obtain ⟨hne, rfl⟩ := List.mem_getLast?_eq_getLast hc
      simpa using List.rdropWhile_last_not _ _ hne
    · have hall := @List.rdropWhile_append_rtakeWhile _ (fun c : Char => decide (c = '0'))
        (fixedDigits (k + 1) coefficient)
      have hlength := congrArg List.length hall
      have hread := readDigits_fixedDigits (k + 1) coefficient
      rw [← hall, readDigits_append_zeros _ fun c hc => by simpa using List.mem_rtakeWhile_imp hc] at hread
      rw [List.length_append, length_fixedDigits] at hlength
      generalize (fixedDigits (k + 1) coefficient).rdropWhile (fun c : Char => decide (c = '0')) = f at *
      generalize ((fixedDigits (k + 1) coefficient).rtakeWhile fun c : Char => decide (c = '0')).length = z at *
      have hdivmod := Nat.div_add_mod coefficient (10 ^ (k + 1))
      rw [← hread, ← hlength, pow_add] at hdivmod
      unfold DecimalTuple.magnitude
      simp only [zpow_negSucc, ← hlength, pow_add]
      rw [← Nat.cast_inj (R := ℚ)] at hdivmod
      push_cast at hdivmod
      have h10 : (10 : ℚ) ^ f.length ≠ 0 := by positivity
      have h10' : (10 : ℚ) ^ z ≠ 0 := by positivity
      field_simp
      linarith
    · rw [formatMagnitude, ← List.append_assoc, stripZeros_point hfront fun c hc => ne_point_of_isDigit (hdigits c hc),
        spelling, List.append_assoc]

/-! ## Reading a spelling -/

variable {unicodeDigit : Char → Option ℕ}

/-- Among its digits are the ASCII digits, with their values. -/
def ReadsAscii (unicodeDigit : Char → Option ℕ) : Prop :=
  ∀ c, c.isDigit = true → unicodeDigit c = some (digitValue c)

theorem digitsNumber_eq (hascii : ReadsAscii unicodeDigit) {cs : List Char} (h : ∀ c ∈ cs, c.isDigit = true) :
    digitsNumber unicodeDigit cs = readDigits cs := by
  induction cs using List.reverseRecOn with
  | nil => rfl
  | append_singleton cs c ih =>
    rw [readDigits_concat, ← ih fun d hd => h d (List.mem_append_left _ hd)]
    simp [digitsNumber, hascii c (h c (by simp))]

theorem naturalText_head {n : ℕ} (h : n ≠ 0) : ∃ c rest, naturalText n = c :: rest ∧ c ≠ '0' := by
  have hhead : ∀ k m, fixedDigits (k + 1) m = digitChar (m / 10 ^ k % 10) :: fixedDigits k m := by
    intro k
    induction k with
    | zero => simp [fixedDigits]
    | succ k ih =>
      intro m
      rw [fixedDigits, ih, List.cons_append, Nat.div_div_eq_div_mul, ← pow_succ', fixedDigits]
  refine ⟨_, _, hhead _ n, ?_⟩
  have hlow : 10 ^ Nat.log 10 n ≤ n := Nat.pow_log_le_self 10 h
  have hhigh : n < 10 ^ (Nat.log 10 n + 1) := Nat.lt_pow_succ_log_self (by norm_num) n
  have hpos := Nat.div_pos hlow (Nat.pow_pos (by norm_num))
  have hlt : n / 10 ^ Nat.log 10 n < 10 := by
    rw [Nat.div_lt_iff_lt_mul (Nat.pow_pos (by norm_num))]
    rw [pow_succ'] at hhigh
    exact hhigh
  rw [Nat.mod_eq_of_lt hlt]
  generalize n / 10 ^ Nat.log 10 n = d at *
  interval_cases d <;> decide

theorem splitSign_signChars (negative : Bool) (whole : ℕ) (fraction : List Char) :
    splitSign (signChars negative ++ spelling whole fraction) = (negative, spelling whole fraction) := by
  cases negative with
  | true => rfl
  | false =>
    cases hn : naturalText whole with
    | nil => exact absurd hn (naturalText_ne_nil _)
    | cons c rest =>
      have hdigit : c.isDigit = true := isDigit_of_mem_naturalText (by rw [hn]; exact List.mem_cons_self)
      unfold spelling splitSign
      rw [hn]
      split
      next heq =>
        obtain rfl : c = '-' := by simpa [signChars] using congrArg List.head? heq
        exact absurd hdigit (by decide)
      next => simp [signChars]

theorem takeWhile_spelling (whole : ℕ) (fraction : List Char) :
    (spelling whole fraction).takeWhile (fun c => c ≠ '.') = naturalText whole := by
  unfold spelling
  have hwhole : ∀ c ∈ naturalText whole, c.isDigit = true := fun c => isDigit_of_mem_naturalText
  split_ifs with hnil
  · rw [List.append_nil, takeWhile_digits hwhole]
  · exact takeWhile_digits_point hwhole

theorem drop_spelling (whole : ℕ) (fraction : List Char) : (spelling whole fraction).drop (naturalText whole).length =
    if fraction = [] then [] else '.' :: fraction := List.drop_left

theorem Spells.decimalOf (hascii : ReadsAscii unicodeDigit) (h : Spells x whole fraction) (negative : Bool) :
    (decimalOf unicodeDigit (signChars negative ++ spelling whole fraction)).value =
      if negative then -x else x := by
  have hdigits : ∀ c ∈ naturalText whole ++ fraction, c.isDigit = true := by
    intro c hc
    rcases List.mem_append.1 hc with hc | hc
    · exact isDigit_of_mem_naturalText hc
    · exact h.digits c hc
  have hfraction : (if fraction = [] then [] else '.' :: fraction).drop 1 = fraction := by
    split_ifs with hnil
    · exact hnil.symm
    · rfl
  have hread : readDigits (naturalText whole ++ fraction) = whole * 10 ^ fraction.length + readDigits fraction := by
    conv_lhs => rw [← fixedDigits_readDigits h.digits]
    rw [readDigits_append_fixedDigits, readDigits_naturalText, Nat.mod_eq_of_lt (readDigits_lt h.digits)]
  unfold CanonicalDecimal.decimalOf DecimalTuple.value DecimalTuple.magnitude
  simp only [splitSign_signChars, takeWhile_spelling, drop_spelling, hfraction,
    digitsNumber_eq hascii hdigits, hread, zpow_neg, zpow_natCast]
  have h10 : (10 : ℚ) ^ fraction.length ≠ 0 := by positivity
  rw [h.value]
  congr 1 <;> push_cast <;> field_simp

theorem Spells.matches (hascii : ReadsAscii unicodeDigit) (h : Spells x whole fraction) (hx : x ≠ 0) (negative : Bool) :
    matchesPattern unicodeDigit (signChars negative ++ spelling whole fraction) = true := by
  have hpositive : whole ≠ 0 → matchesPositive unicodeDigit (naturalText whole) = true := by
    intro hwhole
    obtain ⟨c, rest, hn, hne⟩ := naturalText_head hwhole
    have hall : ∀ d ∈ c :: rest, d.isDigit = true := fun d hd => isDigit_of_mem_naturalText (n := whole) (hn ▸ hd)
    rw [hn]
    simp only [matchesPositive, hall c List.mem_cons_self, hne, ne_eq, not_false_eq_true, decide_true, Bool.and_true,
      Bool.true_and, List.all_eq_true]
    intro d hd
    rw [hascii d (hall d (List.mem_cons_of_mem _ hd))]
    rfl
  unfold matchesPattern matchesUnsigned
  simp only [splitSign_signChars, takeWhile_spelling, drop_spelling]
  by_cases hnil : fraction = []
  · subst hnil
    rw [if_pos rfl]
    have hwhole : whole ≠ 0 := by
      rintro rfl
      exact hx (by simpa [readDigits] using h.value)
    simp [hpositive hwhole]
  · rw [if_neg hnil]
    have hwhole : naturalText whole = ['0'] ∨ matchesPositive unicodeDigit (naturalText whole) = true := by
      by_cases h0 : whole = 0
      · exact .inl (by rw [h0]; rfl)
      · exact .inr (hpositive h0)
    have hinit : fraction.dropLast.all (fun c => (unicodeDigit c).isSome) = true := by
      rw [List.all_eq_true]
      intro c hc
      rw [hascii c (h.digits c (List.mem_of_mem_dropLast hc))]
      rfl
    have hlast : fraction.getLast?.any (fun c => c.isDigit && c ≠ '0') = true := by
      rw [List.getLast?_eq_some_getLast hnil]
      simpa using ⟨h.digits _ (List.getLast_mem hnil), h.last _ (List.getLast?_eq_some_getLast hnil)⟩
    simp only [ne_eq, decide_not] at hlast
    simp [hwhole, hinit, hlast]

/-! ## The codec -/

variable {d d' : DecimalTuple}

theorem magnitude_pos (h : d.coefficient ≠ 0) : 0 < d.magnitude := by
  have hpos : (0 : ℚ) < d.coefficient := by exact_mod_cast Nat.pos_of_ne_zero h
  exact mul_pos hpos (zpow_pos (by norm_num) _)

theorem value_eq_zero_iff : d.value = 0 ↔ d.coefficient = 0 := by
  constructor
  · intro hvalue
    by_contra h
    have hpos := magnitude_pos h
    unfold DecimalTuple.value at hvalue
    split_ifs at hvalue <;> linarith
  · intro h
    simp [DecimalTuple.value, DecimalTuple.magnitude, h]

theorem serialize_eq_of_value (h : d.value = d'.value) : serializeCanonicalDecimal d = serializeCanonicalDecimal d' := by
  by_cases h0 : d.coefficient = 0
  · have h0' := value_eq_zero_iff.1 (h.symm.trans (value_eq_zero_iff.2 h0))
    unfold serializeCanonicalDecimal
    rw [if_pos h0, if_pos h0']
  · have h0' : d'.coefficient ≠ 0 := fun hzero => h0 (value_eq_zero_iff.1 (h.trans (value_eq_zero_iff.2 hzero)))
    have hpos := magnitude_pos h0
    have hpos' := magnitude_pos h0'
    obtain ⟨hsign, hmagnitude⟩ : d.negative = d'.negative ∧ d.magnitude = d'.magnitude := by
      unfold DecimalTuple.value at h
      cases hn : d.negative <;> cases hn' : d'.negative <;> simp [hn, hn'] at h ⊢ <;> linarith
    obtain ⟨whole, fraction, hspells, htext⟩ := serialize_spells h0
    obtain ⟨whole', fraction', hspells', htext'⟩ := serialize_spells h0'
    obtain ⟨rfl, rfl⟩ := (hmagnitude ▸ hspells).unique hspells'
    rw [htext, htext', hsign]

theorem decimalOf_serialize (hascii : ReadsAscii unicodeDigit) (d : DecimalTuple) :
    (decimalOf unicodeDigit (serializeCanonicalDecimal d).toList).value = d.value ∧
      matchesPattern unicodeDigit (serializeCanonicalDecimal d).toList = true := by
  by_cases h : d.coefficient = 0
  · rw [value_eq_zero_iff.2 h]
    unfold serializeCanonicalDecimal
    rw [if_pos h, value_eq_zero_iff]
    exact ⟨digitsNumber_eq hascii (List.forall_mem_singleton.2 rfl : ∀ c ∈ ['0'], c.isDigit = true), rfl⟩
  · obtain ⟨whole, fraction, hspells, htext⟩ := serialize_spells h
    rw [htext, String.toList_ofList]
    exact ⟨hspells.decimalOf hascii d.negative, hspells.matches hascii (magnitude_pos h).ne' d.negative⟩

/-- The codec is a bijection between the finite decimals, by value, and the texts that the validator accepts. -/
theorem canonical_decimal_bijection (hascii : ReadsAscii unicodeDigit) :
    (∀ d, ∃ parsed, validateCanonicalDecimal unicodeDigit (serializeCanonicalDecimal d) = .ok parsed ∧
      parsed.value = d.value) ∧
    (∀ d d', serializeCanonicalDecimal d = serializeCanonicalDecimal d' ↔ d.value = d'.value) ∧
    ∀ text parsed, validateCanonicalDecimal unicodeDigit text = .ok parsed → serializeCanonicalDecimal parsed = text := by
  refine ⟨fun d => ?_, fun d d' => ⟨fun h => ?_, serialize_eq_of_value⟩, fun text parsed h => ?_⟩
  · obtain ⟨hvalue, hmatches⟩ := decimalOf_serialize hascii d
    refine ⟨_, ?_, hvalue⟩
    simp only [validateCanonicalDecimal, require_of _ hmatches, require_of _ (serialize_eq_of_value hvalue), ok_bind]
    rfl
  · rw [← (decimalOf_serialize hascii d).1, h, (decimalOf_serialize hascii d').1]
  · unfold validateCanonicalDecimal at h
    simp only [bind_ok_iff, require_ok_iff, exists_const] at h
    obtain ⟨-, htext, h⟩ := h
    rw [← Except.ok.inj h, htext]

def asciiDigit (c : Char) : Option ℕ := if c.isDigit then some (digitValue c) else none

theorem ascii_decimal_bijection : ∃ parsed,
    validateCanonicalDecimal asciiDigit (serializeCanonicalDecimal ⟨true, 10500, -3⟩) = .ok parsed ∧
      parsed.value = (⟨true, 10500, -3⟩ : DecimalTuple).value :=
  (canonical_decimal_bijection fun _ h => if_pos h).1 _

example : serializeCanonicalDecimal ⟨true, 10500, -3⟩ = "-10.5" := by decide +kernel

end TradingAgent.CanonicalDecimal
