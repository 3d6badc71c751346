import TradingAgent.Lib.Json

/-!
# JSON texts

`read` reads a JSON text; what it reads can be held by a text (`storable_read`). `canonical` writes a value in
ASCII without spaces, the members of an object in key order, and is read back (`read_canonical`).
-/

namespace Json

open DigitText

/-! ## Writing -/

def hexDigit (d : ℕ) : Char := if d < 10 then Char.ofNat (48 + d) else Char.ofNat (87 + d)

def hexDigits (n : ℕ) : List Char :=
  [hexDigit (n / 4096 % 16), hexDigit (n / 256 % 16), hexDigit (n / 16 % 16), hexDigit (n % 16)]

def unitEscape (n : ℕ) : List Char := '\\' :: 'u' :: hexDigits n

def canonicalChar (c : Char) : List Char :=
  if c.toNat = 34 then ['\\', '"']
  else if c.toNat = 92 then ['\\', '\\']
  else if c.toNat = 8 then ['\\', 'b']
  else if c.toNat = 9 then ['\\', 't']
  else if c.toNat = 10 then ['\\', 'n']
  else if c.toNat = 12 then ['\\', 'f']
  else if c.toNat = 13 then ['\\', 'r']
  else if c.toNat < 32 ∨ 126 < c.toNat then
    if c.toNat ≤ 65535 then unitEscape c.toNat
    else unitEscape (55296 + (c.toNat - 65536) / 1024) ++ unitEscape (56320 + (c.toNat - 65536) % 1024)
  else [c]

def canonicalString (s : List Char) : List Char := '"' :: (s.flatMap canonicalChar ++ ['"'])

def numberText (coefficient : ℤ) (scale : ℕ) : List Char :=
  let digits := naturalText coefficient.natAbs
  let padded := List.replicate (scale + 1 - digits.length) '0' ++ digits
  let sign := if coefficient < 0 then ['-'] else []
  sign ++ (if scale = 0 then digits else
    padded.take (padded.length - scale) ++ '.' :: padded.drop (padded.length - scale))

mutual

def canonical : Json → List Char
  | null => ['n', 'u', 'l', 'l']
  | bool true => ['t', 'r', 'u', 'e']
  | bool false => ['f', 'a', 'l', 's', 'e']
  | num coefficient scale => numberText coefficient scale
  | str s => canonicalString s.toList
  | arr items => '[' :: canonicalItems items
  | obj members => '\x7b' :: canonicalMembers members

def canonicalItems : List Json → List Char
  | [] => [']']
  | [value] => canonical value ++ [']']
  | value :: rest => canonical value ++ ',' :: canonicalItems rest

def canonicalMembers : List (String × Json) → List Char
  | [] => ['\x7d']
  | [(key, value)] => canonicalString key.toList ++ ':' :: canonical value ++ ['\x7d']
  | (key, value) :: rest => canonicalString key.toList ++ ':' :: canonical value ++ ',' :: canonicalMembers rest

end

/-! ## Reading -/

def isSpace (c : Char) : Bool := c == ' ' || c == '\t' || c == '\n' || c == '\r'

def skipSpace (cs : List Char) : List Char := cs.dropWhile isSpace

def hexValue (c : Char) : Option ℕ :=
  if c.isDigit then some (c.toNat - 48)
  else if 97 ≤ c.toNat ∧ c.toNat ≤ 102 then some (c.toNat - 87)
  else if 65 ≤ c.toNat ∧ c.toNat ≤ 70 then some (c.toNat - 55)
  else none

def readUnit : List Char → Option (ℕ × List Char)
  | a :: b :: c :: d :: rest => do
    let a ← hexValue a
    let b ← hexValue b
    let c ← hexValue c
    let d ← hexValue d
    some (((a * 16 + b) * 16 + c) * 16 + d, rest)
  | _ => none

def unescape (c : Char) : Option Char :=
  if c = '"' ∨ c = '\\' ∨ c = '/' then some c
  else if c = 'b' then some (Char.ofNat 8)
  else if c = 'f' then some (Char.ofNat 12)
  else if c = 'n' then some '\n'
  else if c = 'r' then some '\r'
  else if c = 't' then some '\t'
  else none

/-- The character of an escape, after `\u`; the null character has none. -/
def readUnicode (cs : List Char) : Option (Char × List Char) := do
  let (unit, rest) ← readUnit cs
  if unit = 0 ∨ 56320 ≤ unit ∧ unit ≤ 57343 then none
  else if 55296 ≤ unit ∧ unit ≤ 56319 then
    match rest with
    | '\\' :: 'u' :: rest => do
      let (low, rest) ← readUnit rest
      if 56320 ≤ low ∧ low ≤ 57343 then
        some (Char.ofNat (65536 + (unit - 55296) * 1024 + (low - 56320)), rest)
      else none
    | _ => none
  else some (Char.ofNat unit, rest)

/-- The next character of a string, `none` at its closing quote, and what follows. -/
def readChar : List Char → Option (Option Char × List Char)
  | '"' :: rest => some (none, rest)
  | '\\' :: 'u' :: rest => (readUnicode rest).map fun r => (some r.1, r.2)
  | '\\' :: c :: rest => (unescape c).map fun d => (some d, rest)
  | c :: rest => if c.toNat < 32 ∨ c = '\\' then none else some (some c, rest)
  | [] => none

/-- The characters of a string after its opening quote, and what follows the string. -/
def readString : ℕ → List Char → Option (List Char × List Char)
  | 0, _ => none
  | fuel + 1, cs => do
    match ← readChar cs with
    | (none, rest) => some ([], rest)
    | (some c, rest) => (readString fuel rest).map fun r => (c :: r.1, r.2)

def readExponent (cs : List Char) : Option (ℤ × List Char) :=
  match cs with
  | c :: rest =>
    if c = 'e' ∨ c = 'E' then
      let (negative, rest) := match rest with
        | '-' :: r => (true, r)
        | '+' :: r => (false, r)
        | r => (false, r)
      let digits := rest.takeWhile Char.isDigit
      if digits = [] then none
      else some (if negative then -(readDigits digits : ℤ) else readDigits digits, rest.dropWhile Char.isDigit)
    else some (0, cs)
  | [] => some (0, [])

def readFraction (cs : List Char) : Option (List Char × List Char) :=
  match cs with
  | '.' :: rest =>
    let digits := rest.takeWhile Char.isDigit
    if digits = [] then none else some (digits, rest.dropWhile Char.isDigit)
  | _ => some ([], cs)

/-- The digits that a number may have before its point. -/
def maxWholeDigits : ℕ := 131072

/-- The digits that a number may have after its point. -/
def maxScale : ℕ := 16383

def signed (negative : Bool) (n : ℕ) : ℤ := if negative then -n else n

def numberOf (negative : Bool) (whole fraction : List Char) (exponent : ℤ) : Option Json :=
  let n := signed negative (readDigits (whole ++ fraction))
  let scale : ℤ := fraction.length - exponent
  if maxWholeDigits < whole.length + exponent ∨ maxScale < scale then none
  else if scale < 0 then some (num (n * 10 ^ (-scale).toNat) 0)
  else some (num n scale.toNat)

def readUnsigned (negative : Bool) (cs : List Char) : Option (Json × List Char) := do
  let whole := cs.takeWhile Char.isDigit
  if whole = [] ∨ whole.head? = some '0' ∧ 1 < whole.length then none
  else
    let (fraction, rest) ← readFraction (cs.dropWhile Char.isDigit)
    let (exponent, rest) ← readExponent rest
    let value ← numberOf negative whole fraction exponent
    some (value, rest)

def readNumber : List Char → Option (Json × List Char)
  | '-' :: rest => readUnsigned true rest
  | cs => readUnsigned false cs

mutual

def readValue : ℕ → List Char → Option (Json × List Char)
  | 0, _ => none
  | fuel + 1, cs =>
    match skipSpace cs with
    | 'n' :: 'u' :: 'l' :: 'l' :: rest => some (null, rest)
    | 't' :: 'r' :: 'u' :: 'e' :: rest => some (bool true, rest)
    | 'f' :: 'a' :: 'l' :: 's' :: 'e' :: rest => some (bool false, rest)
    | '"' :: rest => (readString (rest.length + 1) rest).map fun r => (str (String.ofList r.1), r.2)
    | '[' :: rest =>
      match skipSpace rest with
      | ']' :: rest => some (arr [], rest)
      | rest => (readItems fuel rest).map fun r => (arr r.1, r.2)
    | '\x7b' :: rest =>
      match skipSpace rest with
      | '\x7d' :: rest => some (obj [], rest)
      | rest => (readMembers fuel rest).map fun r => (object r.1, r.2)
    | rest => readNumber rest

/-- The items of an array that is not empty, and what follows the array. -/
def readItems : ℕ → List Char → Option (List Json × List Char)
  | 0, _ => none
  | fuel + 1, cs => do
    let (value, rest) ← readValue fuel cs
    match skipSpace rest with
    | ',' :: rest => (readItems fuel rest).map fun r => (value :: r.1, r.2)
    | ']' :: rest => some ([value], rest)
    | _ => none

/-- The members of an object that is not empty, as they stand, and what follows the object. -/
def readMembers : ℕ → List Char → Option (List (String × Json) × List Char)
  | 0, _ => none
  | fuel + 1, cs =>
    match skipSpace cs with
    | '"' :: rest => do
      let (key, rest) ← readString (rest.length + 1) rest
      match skipSpace rest with
      | ':' :: rest => do
        let (value, rest) ← readValue fuel rest
        match skipSpace rest with
        | ',' :: rest => (readMembers fuel rest).map fun r => ((String.ofList key, value) :: r.1, r.2)
        | '\x7d' :: rest => some ([(String.ofList key, value)], rest)
        | _ => none
      | _ => none
    | _ => none

end

def read (cs : List Char) : Option Json := do
  let (value, rest) ← readValue (cs.length + 1) cs
  if skipSpace rest = [] then some value else none

/-! ## Reading back -/

theorem hexValue_hexDigit {d : ℕ} (h : d < 16) : hexValue (hexDigit d) = some d := by
  interval_cases d <;> decide

variable {n : ℕ}

theorem readUnit_hexDigits (h : n < 65536) (rest : List Char) : readUnit (hexDigits n ++ rest) = some (n, rest) := by
  have hmod : ∀ k, k % 16 < 16 := fun k => Nat.mod_lt _ (by norm_num)
  simp only [hexDigits, List.cons_append, List.nil_append, readUnit, hexValue_hexDigit (hmod _),
    Option.bind_eq_bind, Option.bind_some, Option.some.injEq, Prod.mk.injEq, and_true]
  omega

variable {c d : Char}

theorem ne_of_toNat_ne (h : c.toNat ≠ d.toNat) : c ≠ d := fun heq => h (by rw [heq])

theorem toNat_lt_surrogates_or (c : Char) : c.toNat < 55296 ∨ 57343 < c.toNat ∧ c.toNat < 1114112 := c.valid

theorem readUnicode_unit (h0 : c.toNat ≠ 0) (h : c.toNat ≤ 65535) (rest : List Char) :
    readUnicode (hexDigits c.toNat ++ rest) = some (c, rest) := by
  have hvalid := toNat_lt_surrogates_or c
  rw [readUnicode, readUnit_hexDigits (by omega)]
  simp only [Option.bind_eq_bind, Option.bind_some]
  rw [if_neg (by omega), if_neg (by omega), Char.ofNat_toNat]

theorem readUnicode_surrogates {high low : ℕ} (hhigh : 55296 ≤ high) (hhigh' : high ≤ 56319)
    (hlow : 56320 ≤ low) (hlow' : low ≤ 57343) (rest : List Char) :
    readUnicode (hexDigits high ++ (unitEscape low ++ rest)) =
      some (Char.ofNat (65536 + (high - 55296) * 1024 + (low - 56320)), rest) := by
  rw [readUnicode, readUnit_hexDigits (by omega)]
  simp only [Option.bind_eq_bind, Option.bind_some]
  rw [if_neg (by omega), if_pos ⟨hhigh, hhigh'⟩]
  have hescape : unitEscape low ++ rest = '\\' :: 'u' :: (hexDigits low ++ rest) := rfl
  rw [hescape]
  show (readUnit (hexDigits low ++ rest)).bind _ = _
  rw [readUnit_hexDigits (by omega), Option.bind_some, if_pos ⟨hlow, hlow'⟩]

theorem ofNat_surrogates (h : 65535 < c.toNat) : Char.ofNat (65536 + (55296 + (c.toNat - 65536) / 1024 - 55296) * 1024 +
      (56320 + (c.toNat - 65536) % 1024 - 56320)) = c := by
  rw [Nat.add_sub_cancel_left, Nat.add_sub_cancel_left, Nat.add_assoc, Nat.div_add_mod',
    Nat.add_sub_cancel' h, Char.ofNat_toNat]

theorem readUnicode_pair (h : 65535 < c.toNat) (rest : List Char) :
    readUnicode (hexDigits (55296 + (c.toNat - 65536) / 1024) ++
      (unitEscape (56320 + (c.toNat - 65536) % 1024) ++ rest)) = some (c, rest) := by
  have hvalid := toNat_lt_surrogates_or c
  have hhigh : 55296 + (c.toNat - 65536) / 1024 ≤ 56319 := by omega
  have hlow : 56320 + (c.toNat - 65536) % 1024 ≤ 57343 := by omega
  refine (readUnicode_surrogates (Nat.le_add_right _ _) hhigh (Nat.le_add_right _ _) hlow rest).trans ?_
  exact congrArg (fun d => some (d, rest)) (ofNat_surrogates h)

theorem readChar_escape (hu : c ≠ 'u') (h : unescape c = some d) (rest : List Char) :
    readChar ('\\' :: c :: rest) = some (some d, rest) := by
  rw [readChar, h]
  · rfl
  · exact hu

theorem readChar_plain (h32 : 32 ≤ c.toNat) (hquote : c.toNat ≠ 34) (hslash : c.toNat ≠ 92)
    (rest : List Char) : readChar (c :: rest) = some (some c, rest) := by
  have hquote : c ≠ '"' := ne_of_toNat_ne hquote
  have hslash : c ≠ '\\' := ne_of_toNat_ne hslash
  have h32 : ¬ c.toNat < 32 := by omega
  rw [readChar.eq_def]
  split <;> simp_all

theorem readChar_canonicalChar (h0 : c.toNat ≠ 0) (rest : List Char) :
    readChar (canonicalChar c ++ rest) = some (some c, rest) := by
  have hchar : ∀ n, c.toNat = n → c = Char.ofNat n := by
    rintro n rfl
    exact (Char.ofNat_toNat c).symm
  unfold canonicalChar
  split_ifs with h34 h92 h8 h9 h10 h12 h13 hplain hunit
  · exact readChar_escape (by decide) (by rw [hchar _ h34]; decide) rest
  · exact readChar_escape (by decide) (by rw [hchar _ h92]; decide) rest
  · exact readChar_escape (by decide) (by rw [hchar _ h8]; decide) rest
  · exact readChar_escape (by decide) (by rw [hchar _ h9]; decide) rest
  · exact readChar_escape (by decide) (by rw [hchar _ h10]; decide) rest
  · exact readChar_escape (by decide) (by rw [hchar _ h12]; decide) rest
  · exact readChar_escape (by decide) (by rw [hchar _ h13]; decide) rest
  · rw [unitEscape, List.cons_append, List.cons_append, readChar, readUnicode_unit h0 hunit]
    rfl
  · rw [unitEscape, List.append_assoc, List.cons_append, List.cons_append, readChar,
      readUnicode_pair (by omega)]
    rfl
  · exact readChar_plain (by omega) h34 h92 rest

variable {s : List Char} {fuel : ℕ}

theorem readString_flatMap (h0 : ∀ c ∈ s, c.toNat ≠ 0) (hfuel : s.length < fuel)
    (rest : List Char) : readString fuel (s.flatMap canonicalChar ++ '"' :: rest) = some (s, rest) := by
  induction s generalizing fuel with
  | nil =>
    obtain ⟨fuel, rfl⟩ : ∃ n, fuel = n + 1 := ⟨fuel - 1, by simp at hfuel; omega⟩
    rfl
  | cons c s ih =>
    obtain ⟨fuel, rfl⟩ : ∃ n, fuel = n + 1 := ⟨fuel - 1, by simp at hfuel; omega⟩
    have hrest := ih (fun d hd => h0 d (List.mem_cons_of_mem _ hd)) (show s.length < fuel by simp at hfuel; omega)
    rw [List.flatMap_cons, List.append_assoc, readString, readChar_canonicalChar (h0 c List.mem_cons_self)]
    simp only [Option.bind_eq_bind, Option.bind_some]
    rw [hrest]
    rfl

theorem canonicalChar_ne_nil (c : Char) : canonicalChar c ≠ [] := by
  unfold canonicalChar unitEscape
  split_ifs <;> simp

theorem length_le_flatMap_canonicalChar (s : List Char) : s.length ≤ (s.flatMap canonicalChar).length := by
  induction s with
  | nil => simp
  | cons c s ih =>
    have hpos := List.length_pos_iff.2 (canonicalChar_ne_nil c)
    rw [List.flatMap_cons, List.length_append, List.length_cons]
    omega

theorem readString_canonicalString (h0 : ∀ c ∈ s, c.toNat ≠ 0) (rest : List Char) :
    readString ((s.flatMap canonicalChar ++ '"' :: rest).length + 1) (s.flatMap canonicalChar ++ '"' :: rest) =
      some (s, rest) := by
  have hlength := length_le_flatMap_canonicalChar s
  refine readString_flatMap h0 ?_ rest
  rw [List.length_append]
  omega

/-! ### Numbers -/

/-- What follows a value: a separator, a closing bracket, or nothing. -/
def Follows (rest : List Char) : Prop := ∀ c ∈ rest.head?, c = ',' ∨ c = ']' ∨ c = '\x7d'

theorem follows_nil : Follows [] := by simp [Follows]

theorem follows_comma (rest : List Char) : Follows (',' :: rest) := by simp [Follows]

theorem follows_bracket (rest : List Char) : Follows (']' :: rest) := by simp [Follows]

theorem follows_brace (rest : List Char) : Follows ('\x7d' :: rest) := by simp [Follows]

variable {rest : List Char}

theorem takeWhile_digits {ds : List Char} (hds : ∀ c ∈ ds, c.isDigit = true) (hrest : Follows rest) :
    (ds ++ rest).takeWhile Char.isDigit = ds ∧ (ds ++ rest).dropWhile Char.isDigit = rest := by
  rw [List.takeWhile_append_of_pos hds, List.dropWhile_append_of_pos hds]
  cases rest with
  | nil => simp
  | cons c rest =>
    have hc : c.isDigit = false := by
      rcases hrest c rfl with rfl | rfl | rfl <;> decide
    simp [hc]

theorem readFraction_follows (h : Follows rest) : readFraction rest = some ([], rest) := by
  cases rest with
  | nil => rfl
  | cons c rest => rcases h c rfl with rfl | rfl | rfl <;> rfl

theorem readExponent_follows (h : Follows rest) : readExponent rest = some (0, rest) := by
  cases rest with
  | nil => rfl
  | cons c rest => rcases h c rfl with rfl | rfl | rfl <;> rfl

theorem head_naturalText (h : (naturalText n).head? = some '0') : (naturalText n).length = 1 := by
  by_contra hlength
  obtain ⟨k, hk⟩ : ∃ k, Nat.log 10 n = k + 1 := by
    refine ⟨Nat.log 10 n - 1, ?_⟩
    rw [naturalText, length_fixedDigits] at hlength
    omega
  have hhead : ∀ j m : ℕ, (fixedDigits (j + 1) m).head? = some (digitChar (m / 10 ^ j % 10)) := by
    intro j
    induction j with
    | zero =>
      intro m
      simp [fixedDigits]
    | succ j ih =>
      intro m
      rw [fixedDigits, List.head?_append, ih, Nat.div_div_eq_div_mul, pow_succ']
      rfl
  have hpow : 10 ^ (k + 1) ≤ n := by
    rw [← hk]
    refine Nat.pow_log_le_self 10 ?_
    rintro rfl
    simp at hk
  have hlt : n < 10 ^ (k + 1 + 1) := by
    rw [← hk]
    exact Nat.lt_pow_succ_log_self (by norm_num) n
  have hpos : 0 < 10 ^ (k + 1) := by positivity
  have hdigit : n / 10 ^ (k + 1) < 10 := by
    rw [Nat.div_lt_iff_lt_mul hpos, mul_comm, ← pow_succ]
    exact hlt
  have hone : 1 ≤ n / 10 ^ (k + 1) := (Nat.le_div_iff_mul_le hpos).2 (by omega)
  rw [naturalText, hk, hhead, Option.some.injEq] at h
  have hvalue := congrArg digitValue h
  rw [digitValue_digitChar (Nat.mod_lt _ (by norm_num)), Nat.mod_eq_of_lt hdigit] at hvalue
  rw [hvalue] at hone
  exact absurd hone (by decide)

theorem readUnsigned_naturalText (hn : (naturalText n).length ≤ maxWholeDigits) (h : Follows rest) (negative : Bool) :
    readUnsigned negative (naturalText n ++ rest) = some (num (signed negative n) 0, rest) := by
  obtain ⟨htake, hdrop⟩ := takeWhile_digits (fun _ hc => isDigit_of_mem_naturalText hc) h
  rw [readUnsigned, htake, hdrop, if_neg]
  · rw [readFraction_follows h]
    simp only [Option.bind_eq_bind, Option.bind_some]
    rw [readExponent_follows h]
    simp only [Option.bind_some]
    have hnumber : numberOf negative (naturalText n) [] 0 = some (num (signed negative n) 0) := by
      unfold numberOf
      simp only [List.append_nil, readDigits_naturalText, List.length_nil, Nat.cast_zero, sub_zero]
      rw [if_neg]
      · rfl
      · push Not
        exact ⟨by simpa using hn, by simp⟩
    rw [hnumber]
    rfl
  · rintro (hnil | ⟨hzero, hlength⟩)
    · exact naturalText_ne_nil n hnil
    · have := head_naturalText hzero
      omega

theorem naturalText_eq_cons (n : ℕ) : ∃ c cs, naturalText n = c :: cs ∧ c.isDigit = true := by
  cases hn : naturalText n with
  | nil => exact absurd hn (naturalText_ne_nil n)
  | cons c cs => exact ⟨c, cs, rfl, isDigit_of_mem_naturalText (n := n) (by rw [hn]; exact List.mem_cons_self)⟩

theorem numberText_zero (n : ℤ) : numberText n 0 = (if n < 0 then ['-'] else []) ++ naturalText n.natAbs := by
  simp [numberText]

theorem readNumber_numberText {n : ℤ} (hn : (naturalText n.natAbs).length ≤ maxWholeDigits)
    (h : Follows rest) : readNumber (numberText n 0 ++ rest) = some (num n 0, rest) := by
  rw [numberText_zero]
  by_cases hneg : n < 0
  · rw [if_pos hneg, List.append_assoc, List.cons_append, List.nil_append, readNumber,
      readUnsigned_naturalText hn h]
    congr 3
    rw [signed, if_pos rfl]
    omega
  · rw [if_neg hneg, List.nil_append]
    obtain ⟨c, cs, hc, hdigit⟩ := naturalText_eq_cons n.natAbs
    have hminus : c ≠ '-' := by
      rintro rfl
      exact absurd hdigit (by decide)
    have hread : readNumber (naturalText n.natAbs ++ rest) = readUnsigned false (naturalText n.natAbs ++ rest) := by
      rw [hc, List.cons_append, readNumber.eq_def]
      split <;> simp_all
    rw [hread, readUnsigned_naturalText hn h]
    congr 3
    rw [signed, if_neg (by decide)]
    omega

/-! ### Values -/

def StorableText (text : String) : Prop := ∀ c ∈ text.toList, c.toNat ≠ 0

mutual

/-- A text can hold the value: short whole numbers, members in key order, and no null characters. -/
def Storable : Json → Prop
  | num n scale => scale = 0 → (naturalText n.natAbs).length ≤ maxWholeDigits
  | str text => StorableText text
  | arr items => StorableItems items
  | obj members => (members.map Prod.fst).Pairwise (· < ·) ∧ StorableMembers members
  | _ => True

def StorableItems : List Json → Prop
  | [] => True
  | value :: rest => value.Storable ∧ StorableItems rest

def StorableMembers : List (String × Json) → Prop
  | [] => True
  | (key, value) :: rest => StorableText key ∧ value.Storable ∧ StorableMembers rest

end

mutual

def integral : Json → Bool
  | num _ scale => scale == 0
  | arr items => integralItems items
  | obj members => integralMembers members
  | _ => true

def integralItems : List Json → Bool
  | [] => true
  | value :: rest => value.integral && integralItems rest

def integralMembers : List (String × Json) → Bool
  | [] => true
  | (_, value) :: rest => value.integral && integralMembers rest

end

def Begins (cs : List Char) : Prop := ∃ c rest, cs = c :: rest ∧ isSpace c = false ∧ c ≠ ']' ∧ c ≠ '\x7d'

theorem begins_cons {c : Char} (hspace : isSpace c = false) (hbracket : c ≠ ']') (hbrace : c ≠ '\x7d')
    (rest : List Char) : Begins (c :: rest) := ⟨c, rest, rfl, hspace, hbracket, hbrace⟩

variable {cs : List Char}

theorem Begins.append (h : Begins cs) (rest : List Char) : Begins (cs ++ rest) := by
  obtain ⟨c, cs, rfl, h⟩ := h
  exact ⟨c, cs ++ rest, rfl, h⟩

theorem Begins.skipSpace (h : Begins cs) : skipSpace cs = cs := by
  obtain ⟨c, rest, rfl, hspace, -⟩ := h
  rw [Json.skipSpace, List.dropWhile_cons, if_neg (by simp [hspace])]

theorem begins_of_isDigit (h : c.isDigit = true) (rest : List Char) : Begins (c :: rest) := by
  have hne : ∀ d : Char, d.isDigit = false → c ≠ d := by
    rintro d hd rfl
    rw [h] at hd
    cases hd
  refine begins_cons ?_ (hne _ (by decide)) (hne _ (by decide)) rest
  simp [isSpace, hne ' ' (by decide), hne '\t' (by decide), hne '\n' (by decide), hne '\r' (by decide)]

theorem begins_canonical (value : Json) : Begins (canonical value) := by
  cases value with
  | null => exact begins_cons (by decide) (by decide) (by decide) _
  | bool b => cases b <;> exact begins_cons (by decide) (by decide) (by decide) _
  | num n scale =>
    unfold canonical numberText
    obtain ⟨c, cs, hc, hdigit⟩ := naturalText_eq_cons n.natAbs
    by_cases hneg : n < 0
    · rw [if_pos hneg]
      exact begins_cons (by decide) (by decide) (by decide) _
    · rw [if_neg hneg, List.nil_append]
      split_ifs with hscale
      · rw [hc]
        exact begins_of_isDigit hdigit cs
      · have hpadded : ∀ d ∈ List.replicate (scale + 1 - (naturalText n.natAbs).length) '0' ++
            naturalText n.natAbs, d.isDigit = true := by
          intro d hd
          rcases List.mem_append.1 hd with hd | hd
          · rw [(List.mem_replicate.1 hd).2]
            decide
          · exact isDigit_of_mem_naturalText hd
        have hlength : scale < (List.replicate (scale + 1 - (naturalText n.natAbs).length) '0' ++
            naturalText n.natAbs).length := by
          rw [List.length_append, List.length_replicate]
          omega
        generalize List.replicate (scale + 1 - (naturalText n.natAbs).length) '0' ++
          naturalText n.natAbs = padded at hpadded hlength
        cases padded with
        | nil => simp at hlength
        | cons d ds =>
          obtain ⟨k, hk⟩ : ∃ k, (d :: ds).length - scale = k + 1 := ⟨(d :: ds).length - scale - 1, by omega⟩
          rw [hk]
          exact begins_of_isDigit (hpadded d List.mem_cons_self) _
  | str s => exact begins_cons (by decide) (by decide) (by decide) _
  | arr items => exact begins_cons (by decide) (by decide) (by decide) _
  | obj members => exact begins_cons (by decide) (by decide) (by decide) _

theorem canonicalItems_cons (value : Json) (rest : List Json) : canonicalItems (value :: rest) =
      canonical value ++ (if rest = [] then [']'] else ',' :: canonicalItems rest) := by
  cases rest <;> simp [canonicalItems]

theorem canonicalMembers_cons (key : String) (value : Json) (rest : List (String × Json)) :
    canonicalMembers ((key, value) :: rest) = canonicalString key.toList ++ ':' :: (canonical value ++
      (if rest = [] then ['\x7d'] else ',' :: canonicalMembers rest)) := by
  cases rest <;> simp [canonicalMembers]

variable {items : List Json}

theorem begins_canonicalItems (h : items ≠ []) : Begins (canonicalItems items) := by
  cases items with
  | nil => exact absurd rfl h
  | cons value rest =>
    rw [canonicalItems_cons]
    exact (begins_canonical value).append _

variable {members : List (String × Json)}

theorem begins_canonicalMembers (h : members ≠ []) : Begins (canonicalMembers members) := by
  cases members with
  | nil => exact absurd rfl h
  | cons m rest =>
    obtain ⟨key, value⟩ := m
    rw [canonicalMembers_cons]
    exact begins_cons (by decide) (by decide) (by decide) _

variable {value : Json} {key : String}

theorem setMember_append (h : ∀ m ∈ members, m.1 < key) : setMember key value members = members ++ [(key, value)] := by
  induction members with
  | nil => rfl
  | cons m rest ih =>
    obtain ⟨k, v⟩ := m
    have hk : k < key := h (k, v) List.mem_cons_self
    rw [setMember, if_neg (Ne.symm (String.ne_of_lt hk)), if_neg (String.lt_asymm hk),
      ih fun m hm => h m (List.mem_cons_of_mem _ hm)]
    rfl

theorem ofMembers_of_pairwise (h : (members.map Prod.fst).Pairwise (· < ·)) : ofMembers members = members := by
  have hfold : ∀ (rest acc : List (String × Json)), ((acc ++ rest).map Prod.fst).Pairwise (· < ·) →
      rest.foldl (fun acc m => setMember m.1 m.2 acc) acc = acc ++ rest := by
    intro rest
    induction rest with
    | nil => intro acc _; simp
    | cons m rest ih =>
      intro acc hacc
      have hset : setMember m.1 m.2 acc = acc ++ [m] := by
        refine setMember_append fun n hn => ?_
        rw [List.map_append, List.pairwise_append] at hacc
        exact hacc.2.2 _ (List.mem_map_of_mem hn) _ (by simp)
      rw [List.foldl_cons, hset, ih _ (by rwa [List.append_assoc]), List.append_assoc]
      rfl
  exact hfold members [] h

theorem readValue_number (h : c = '-' ∨ c.isDigit = true) : readValue (fuel + 1) (c :: cs) = readNumber (c :: cs) := by
  have hskip : skipSpace (c :: cs) = c :: cs := by
    rcases h with rfl | h
    · rfl
    · exact (begins_of_isDigit h cs).skipSpace
  have hne : ∀ d : Char, d ≠ '-' → d.isDigit = false → c ≠ d := by
    rintro d hminus hd rfl
    rcases h with h | h
    · exact hminus h
    · rw [h] at hd
      cases hd
  rw [readValue, hskip]
  split
  all_goals
    rename_i heq
    first
    | rfl
    | exact absurd (List.cons.inj heq).1 (hne _ (by decide) (by decide))

theorem readValue_numberText {n : ℤ} (hn : (naturalText n.natAbs).length ≤ maxWholeDigits)
    (h : Follows rest) (fuel : ℕ) : readValue (fuel + 1) (numberText n 0 ++ rest) = some (num n 0, rest) := by
  have hread := readNumber_numberText hn h
  obtain ⟨c, cs, hc, hdigit⟩ := naturalText_eq_cons n.natAbs
  rw [numberText_zero] at hread ⊢
  by_cases hneg : n < 0
  · rw [if_pos hneg, List.append_assoc, List.cons_append, List.nil_append] at hread ⊢
    rw [readValue_number (.inl rfl), hread]
  · rw [if_neg hneg, List.nil_append, hc, List.cons_append] at hread ⊢
    rw [readValue_number (.inr hdigit), hread]

theorem canonical_length_pos (value : Json) : 0 < (canonical value).length := by
  obtain ⟨c, cs, hc, -⟩ := begins_canonical value
  rw [hc]
  exact Nat.succ_pos _

mutual

theorem readValue_canonical : ∀ (value : Json), value.Storable → value.integral = true →
    ∀ (fuel : ℕ) (rest : List Char), (canonical value).length ≤ fuel → Follows rest →
      readValue fuel (canonical value ++ rest) = some (value, rest)
  | value, _, _, 0, rest, hfuel, _ => by
    have := canonical_length_pos value
    omega
  | null, _, _, fuel + 1, rest, _, _ => rfl
  | bool true, _, _, fuel + 1, rest, _, _ => rfl
  | bool false, _, _, fuel + 1, rest, _, _ => rfl
  | num n scale, h, hwhole, fuel + 1, rest, _, hrest => by
    obtain rfl : scale = 0 := by simpa [integral] using hwhole
    exact readValue_numberText (h rfl) hrest fuel
  | str text, h, _, fuel + 1, rest, _, _ => by
    have hread := readString_canonicalString h rest
    have hskip : skipSpace (canonical (str text) ++ rest) = canonical (str text) ++ rest :=
      ((begins_canonical _).append rest).skipSpace
    rw [readValue, hskip]
    simp only [canonical, canonicalString, List.cons_append, List.append_assoc, List.nil_append]
    rw [hread, Option.map_some, String.ofList_toList]
  | arr items, h, hwhole, fuel + 1, rest, hfuel, hrest => by
    have hskip : skipSpace (canonical (arr items) ++ rest) = canonical (arr items) ++ rest :=
      ((begins_canonical _).append rest).skipSpace
    rw [readValue, hskip]
    simp only [canonical, List.cons_append]
    by_cases hitems : items = []
    · subst hitems
      rfl
    · have hbegins := (begins_canonicalItems hitems).append rest
      have hread := readItems_canonicalItems items hitems h hwhole fuel rest
        (by simp only [canonical, List.length_cons] at hfuel; omega)
      rw [hbegins.skipSpace]
      split
      · rename_i heq
        obtain ⟨c, cs, hc, -, hbracket, -⟩ := hbegins
        rw [hc] at heq
        exact absurd (List.cons.inj heq).1 hbracket
      · rw [hread]
        rfl
  | obj members, h, hwhole, fuel + 1, rest, hfuel, hrest => by
    have hskip : skipSpace (canonical (obj members) ++ rest) = canonical (obj members) ++ rest :=
      ((begins_canonical _).append rest).skipSpace
    rw [readValue, hskip]
    simp only [canonical, List.cons_append]
    by_cases hmembers : members = []
    · subst hmembers
      rfl
    · have hbegins := (begins_canonicalMembers hmembers).append rest
      have hread := readMembers_canonicalMembers members hmembers h.2 hwhole fuel rest
        (by simp only [canonical, List.length_cons] at hfuel; omega)
      rw [hbegins.skipSpace]
      split
      · rename_i heq
        obtain ⟨c, cs, hc, -, -, hbrace⟩ := hbegins
        rw [hc] at heq
        exact absurd (List.cons.inj heq).1 hbrace
      · rw [hread, Option.map_some, object, ofMembers_of_pairwise h.1]

theorem readItems_canonicalItems : ∀ (items : List Json), items ≠ [] → StorableItems items →
    integralItems items = true → ∀ (fuel : ℕ) (rest : List Char), (canonicalItems items).length ≤ fuel →
      readItems fuel (canonicalItems items ++ rest) = some (items, rest)
  | [], hne, _, _, fuel, rest, _ => absurd rfl hne
  | value :: items, _, h, hwhole, fuel, rest, hfuel => by
    have hpos := canonical_length_pos value
    obtain ⟨hvalueWhole, hitemsWhole⟩ := Bool.and_eq_true_iff.1 hwhole
    rw [canonicalItems_cons] at hfuel ⊢
    by_cases hitems : items = []
    · subst hitems
      rw [if_pos rfl] at hfuel ⊢
      rw [List.length_append, List.length_singleton] at hfuel
      obtain ⟨fuel, rfl⟩ : ∃ k, fuel = k + 1 := ⟨fuel - 1, by omega⟩
      have hvalue := readValue_canonical value h.1 hvalueWhole fuel _ (by omega) (follows_bracket rest)
      rw [List.append_assoc, readItems, List.cons_append, List.nil_append, hvalue]
      rfl
    · rw [if_neg hitems] at hfuel ⊢
      rw [List.length_append, List.length_cons] at hfuel
      obtain ⟨fuel, rfl⟩ : ∃ k, fuel = k + 1 := ⟨fuel - 1, by omega⟩
      have hvalue := readValue_canonical value h.1 hvalueWhole fuel _ (by omega)
        (follows_comma (canonicalItems items ++ rest))
      have hrest := readItems_canonicalItems items hitems h.2 hitemsWhole fuel rest (by omega)
      rw [List.append_assoc, readItems, List.cons_append, hvalue]
      simp only [Option.bind_eq_bind, Option.bind_some]
      show (readItems fuel (canonicalItems items ++ rest)).map _ = _
      rw [hrest, Option.map_some]

theorem readMembers_canonicalMembers : ∀ (members : List (String × Json)), members ≠ [] →
    StorableMembers members → integralMembers members = true →
      ∀ (fuel : ℕ) (rest : List Char), (canonicalMembers members).length ≤ fuel →
        readMembers fuel (canonicalMembers members ++ rest) = some (members, rest)
  | [], hne, _, _, fuel, rest, _ => absurd rfl hne
  | (key, value) :: members, _, h, hwhole, fuel, rest, hfuel => by
    obtain ⟨hkey, hstored, hrest⟩ := h
    have hpos := canonical_length_pos value
    obtain ⟨hvalueWhole, hmembersWhole⟩ := Bool.and_eq_true_iff.1 hwhole
    rw [canonicalMembers_cons] at hfuel ⊢
    simp only [canonicalString, List.cons_append, List.append_assoc, List.nil_append, List.length_cons,
      List.length_append] at hfuel ⊢
    obtain ⟨fuel, rfl⟩ : ∃ k, fuel = k + 1 := ⟨fuel - 1, by omega⟩
    have hread := fun tail => readString_canonicalString (s := key.toList) hkey tail
    by_cases hmembers : members = []
    · subst hmembers
      rw [if_pos rfl] at hfuel ⊢
      have hvalue := readValue_canonical value hstored hvalueWhole fuel _ (by omega) (follows_brace rest)
      rw [readMembers]
      show ((readString _ _).bind _) = _
      rw [hread]
      show (readValue fuel _).bind _ = _
      rw [List.cons_append, List.nil_append, hvalue]
      simp only [Option.bind_some, String.ofList_toList]
      rfl
    · rw [if_neg hmembers] at hfuel ⊢
      rw [List.length_cons] at hfuel
      have hvalue := readValue_canonical value hstored hvalueWhole fuel _ (by omega)
        (follows_comma (canonicalMembers members ++ rest))
      have htail := readMembers_canonicalMembers members hmembers hrest hmembersWhole fuel rest (by omega)
      rw [readMembers]
      show ((readString _ _).bind _) = _
      rw [hread]
      show (readValue fuel _).bind _ = _
      rw [List.cons_append, hvalue]
      show (readMembers fuel (canonicalMembers members ++ rest)).map _ = _
      rw [htail, Option.map_some, String.ofList_toList]

end

theorem read_canonical (h : value.Storable) (hwhole : value.integral = true) : read (canonical value) = some value := by
  have hvalue := readValue_canonical value h hwhole _ _ (Nat.le_succ _) follows_nil
  rw [List.append_nil] at hvalue
  rw [read, hvalue]
  rfl

theorem canonical_inj {x y : Json} (hx : x.Storable) (hxWhole : x.integral = true) (hy : y.Storable)
    (hyWhole : y.integral = true) (h : canonical x = canonical y) : x = y := by
  have := read_canonical hx hxWhole
  rw [h, read_canonical hy hyWhole] at this
  exact (Option.some.inj this).symm

/-! ## What is read can be held by a text -/

theorem toNat_ofNat (h : n.isValidChar) : (Char.ofNat n).toNat = n := by
  rw [Char.ofNat, dif_pos h]
  rfl

theorem storable_unescape (h : unescape c = some d) : d.toNat ≠ 0 := by
  unfold unescape at h
  split_ifs at h with hself
  · obtain rfl := Option.some.inj h
    rcases hself with rfl | rfl | rfl <;> decide
  all_goals
    obtain rfl := Option.some.inj h
    decide

theorem readUnit_lt (h : readUnit cs = some (n, rest)) : n < 65536 := by
  have hdigit : ∀ {c : Char} {d : ℕ}, hexValue c = some d → d < 16 := by
    intro c d hd
    unfold hexValue at hd
    split_ifs at hd with hten
    · obtain rfl := Option.some.inj hd
      have : c.toNat ≤ 57 := by
        simp only [Char.isDigit, Bool.and_eq_true, decide_eq_true_eq] at hten
        exact hten.2
      omega
    all_goals
      obtain rfl := Option.some.inj hd
      omega
  unfold readUnit at h
  split at h
  · simp only [Option.bind_eq_bind, Option.bind_eq_some_iff, Option.some.injEq, Prod.mk.injEq] at h
    obtain ⟨a, ha, b, hb, c, hc, d, hd, rfl, -⟩ := h
    have := hdigit ha
    have := hdigit hb
    have := hdigit hc
    have := hdigit hd
    omega
  · cases h

theorem storable_readUnicode (h : readUnicode cs = some (c, rest)) : c.toNat ≠ 0 := by
  unfold readUnicode at h
  simp only [Option.bind_eq_bind, Option.bind_eq_some_iff] at h
  obtain ⟨⟨unit, tail⟩, hunit, h⟩ := h
  have hlt := readUnit_lt hunit
  dsimp only at h
  split_ifs at h with hbad hhigh
  · split at h
    · rw [Option.bind_eq_some_iff] at h
      obtain ⟨⟨low, last⟩, -, h⟩ := h
      dsimp only at h
      split_ifs at h with hlow
      simp only [Option.some.injEq, Prod.mk.injEq] at h
      rw [← h.1, toNat_ofNat (.inr ⟨by omega, by omega⟩)]
      omega
    · cases h
  · cases h
    rw [toNat_ofNat]
    · omega
    · rcases Nat.lt_or_ge unit 55296 with hsmall | hlarge
      · exact .inl hsmall
      · exact .inr ⟨by omega, by omega⟩

theorem storable_readChar (h : readChar cs = some (some c, rest)) : c.toNat ≠ 0 := by
  unfold readChar at h
  split at h
  · cases h
  · obtain ⟨⟨d, tail⟩, hd, ⟨⟩⟩ := Option.map_eq_some_iff.1 h
    exact storable_readUnicode hd
  · obtain ⟨d, hd, ⟨⟩⟩ := Option.map_eq_some_iff.1 h
    exact storable_unescape hd
  · split_ifs at h with hbad
    cases h
    omega
  · cases h

theorem storable_readString (h : readString fuel cs = some (s, rest)) : ∀ c ∈ s, c.toNat ≠ 0 := by
  induction fuel generalizing cs s rest with
  | zero => cases h
  | succ fuel ih =>
    rw [readString, Option.bind_eq_bind, Option.bind_eq_some_iff] at h
    obtain ⟨⟨_ | c, tail⟩, hchar, h⟩ := h
    · cases h
      simp
    · obtain ⟨⟨s', rest'⟩, hs', ⟨⟩⟩ := Option.map_eq_some_iff.1 h
      intro d hd
      rcases List.mem_cons.1 hd with rfl | hd
      · exact storable_readChar hchar
      · exact ih hs' d hd

theorem length_naturalText_le {k : ℕ} (hk : 0 < k) (h : n < 10 ^ k) : (naturalText n).length ≤ k := by
  rw [naturalText, length_fixedDigits]
  rcases Nat.eq_zero_or_pos n with rfl | hn
  · rw [Nat.log_zero_right]
    omega
  · exact (Nat.log_lt_iff_lt_pow (by norm_num) (by omega)).2 h

variable {negative : Bool}

theorem storable_numberOf {whole fraction : List Char} {exponent : ℤ}
    (hwhole : ∀ c ∈ whole, c.isDigit = true) (hne : whole ≠ []) (hfraction : ∀ c ∈ fraction, c.isDigit = true)
    (h : numberOf negative whole fraction exponent = some value) : value.Storable := by
  have hlt : readDigits (whole ++ fraction) < 10 ^ (whole ++ fraction).length := by
    refine readDigits_lt fun c hc => ?_
    rcases List.mem_append.1 hc with hc | hc
    · exact hwhole c hc
    · exact hfraction c hc
  have hpos := List.length_pos_iff.2 hne
  rw [List.length_append] at hlt
  have habs : ∀ m k : ℕ, (signed negative m * 10 ^ k).natAbs = m * 10 ^ k := by
    intro m k
    rw [Int.natAbs_mul, Int.natAbs_pow, signed]
    split_ifs <;> simp
  unfold numberOf at h
  dsimp only at h
  split_ifs at h with hlimit hscale
  · push Not at hlimit
    obtain rfl := Option.some.inj h
    intro _
    obtain ⟨m, hm⟩ : ∃ m : ℕ, -((fraction.length : ℤ) - exponent) = m := ⟨_, (Int.toNat_of_nonneg (by omega)).symm⟩
    rw [habs, hm, Int.toNat_natCast]
    refine (length_naturalText_le (k := whole.length + fraction.length + m) (by omega) ?_).trans (by omega)
    rw [pow_add]
    exact Nat.mul_lt_mul_of_pos_right hlt (by positivity)
  · push Not at hlimit
    obtain rfl := Option.some.inj h
    intro hzero
    have hlength := length_naturalText_le (by omega) hlt
    have hn := habs (readDigits (whole ++ fraction)) 0
    rw [pow_zero, mul_one, pow_zero, mul_one] at hn
    rw [hn]
    omega

theorem storable_readUnsigned (h : readUnsigned negative cs = some (value, rest)) : value.Storable := by
  have htake : ∀ ds : List Char, ∀ c ∈ ds.takeWhile Char.isDigit, c.isDigit = true := fun ds =>
    List.all_eq_true.1 (List.all_takeWhile (l := ds))
  unfold readUnsigned at h
  dsimp only at h
  split_ifs at h with hbad
  push Not at hbad
  simp only [Option.bind_eq_bind, Option.bind_eq_some_iff, Option.some.injEq, Prod.mk.injEq] at h
  obtain ⟨⟨fraction, tail⟩, hfraction, ⟨exponent, last⟩, -, v, hv, rfl, -⟩ := h
  refine storable_numberOf (htake cs) hbad.1 ?_ hv
  unfold readFraction at hfraction
  split at hfraction
  · dsimp only at hfraction
    split_ifs at hfraction
    cases hfraction
    exact htake _
  · cases hfraction
    simp

theorem storable_readNumber (h : readNumber cs = some (value, rest)) : value.Storable := by
  unfold readNumber at h
  split at h
  · exact storable_readUnsigned h
  · exact storable_readUnsigned h

theorem mem_setMember {m : String × Json} (h : m ∈ setMember key value members) : m = (key, value) ∨ m ∈ members := by
  induction members with
  | nil => exact .inl (List.mem_singleton.1 h)
  | cons n rest ih =>
    obtain ⟨k, v⟩ := n
    rw [setMember] at h
    split_ifs at h
    · rcases List.mem_cons.1 h with h | h
      · exact .inl h
      · exact .inr (List.mem_cons_of_mem _ h)
    · exact List.mem_cons.1 h
    · rcases List.mem_cons.1 h with rfl | h
      · exact .inr List.mem_cons_self
      · rcases ih h with h | h
        · exact .inl h
        · exact .inr (List.mem_cons_of_mem _ h)

theorem pairwise_setMember (h : (members.map Prod.fst).Pairwise (· < ·)) :
    ((setMember key value members).map Prod.fst).Pairwise (· < ·) := by
  induction members with
  | nil => simp [setMember]
  | cons n rest ih =>
    obtain ⟨k, v⟩ := n
    rw [List.map_cons, List.pairwise_cons] at h
    rw [setMember]
    split_ifs with heq hlt
    · subst heq
      exact List.pairwise_cons.2 h
    · refine List.pairwise_cons.2 ⟨fun l hl => ?_, List.pairwise_cons.2 h⟩
      rcases List.mem_cons.1 hl with rfl | hl
      · exact hlt
      · exact String.lt_trans hlt (h.1 l hl)
    · refine List.pairwise_cons.2 ⟨fun l hl => ?_, ih h.2⟩
      obtain ⟨m, hm, rfl⟩ := List.mem_map.1 hl
      rcases mem_setMember hm with rfl | hm
      · by_contra hk
        exact heq (String.le_antisymm (String.not_lt.1 hk) (String.not_lt.1 hlt))
      · exact h.1 _ (List.mem_map_of_mem hm)

theorem storableMembers_iff : StorableMembers members ↔ ∀ m ∈ members, StorableText m.1 ∧ m.2.Storable := by
  induction members with
  | nil => simp [StorableMembers]
  | cons m rest ih =>
    obtain ⟨key, value⟩ := m
    rw [StorableMembers, ih, List.forall_mem_cons, and_assoc]

theorem storableItems_iff : StorableItems items ↔ ∀ x ∈ items, x.Storable := by
  induction items with
  | nil => simp [StorableItems]
  | cons x rest ih => rw [StorableItems, ih, List.forall_mem_cons]

theorem storable_object (h : StorableMembers members) : (object members).Storable := by
  have hfold : ∀ (rest acc : List (String × Json)), (acc.map Prod.fst).Pairwise (· < ·) →
      (∀ m ∈ acc, StorableText m.1 ∧ m.2.Storable) → (∀ m ∈ rest, StorableText m.1 ∧ m.2.Storable) →
      ((rest.foldl (fun acc m => setMember m.1 m.2 acc) acc).map Prod.fst).Pairwise (· < ·) ∧
        ∀ m ∈ rest.foldl (fun acc m => setMember m.1 m.2 acc) acc, StorableText m.1 ∧ m.2.Storable := by
    intro rest
    induction rest with
    | nil => exact fun acc hsorted hacc _ => ⟨hsorted, hacc⟩
    | cons m rest ih =>
      intro acc hsorted hacc hrest
      refine ih _ (pairwise_setMember hsorted) (fun n hn => ?_) fun n hn => hrest n (List.mem_cons_of_mem _ hn)
      rcases mem_setMember hn with rfl | hn
      · exact hrest _ List.mem_cons_self
      · exact hacc n hn
  obtain ⟨hsorted, hmembers⟩ := hfold members [] (by simp) (by simp) (storableMembers_iff.1 h)
  exact ⟨hsorted, storableMembers_iff.2 hmembers⟩

theorem storableText_ofList (h : ∀ c ∈ s, c.toNat ≠ 0) : StorableText (String.ofList s) := by
  rwa [StorableText, String.toList_ofList]

theorem storable_read_step (fuel : ℕ) : (∀ cs value rest, readValue fuel cs = some (value, rest) → value.Storable) ∧
    (∀ cs items rest, readItems fuel cs = some (items, rest) → StorableItems items) ∧
      ∀ cs members rest, readMembers fuel cs = some (members, rest) → StorableMembers members := by
  induction fuel with
  | zero =>
    refine ⟨fun cs value rest h => ?_, fun cs items rest h => ?_, fun cs members rest h => ?_⟩
    · cases h
    · cases h
    · cases h
  | succ fuel ih =>
    obtain ⟨hvalue, hitems, hmembers⟩ := ih
    refine ⟨fun cs value rest h => ?_, fun cs items rest h => ?_, fun cs members rest h => ?_⟩
    · rw [readValue] at h
      split at h
      · cases h
        trivial
      · cases h
        trivial
      · cases h
        trivial
      · obtain ⟨⟨s, tail⟩, hs, ⟨⟩⟩ := Option.map_eq_some_iff.1 h
        exact storableText_ofList (storable_readString hs)
      · split at h
        · cases h
          trivial
        · obtain ⟨⟨items, tail⟩, hread, ⟨⟩⟩ := Option.map_eq_some_iff.1 h
          exact hitems _ _ _ hread
      · split at h
        · cases h
          exact ⟨by simp, trivial⟩
        · obtain ⟨⟨members, tail⟩, hread, ⟨⟩⟩ := Option.map_eq_some_iff.1 h
          exact storable_object (hmembers _ _ _ hread)
      · exact storable_readNumber h
    · rw [readItems, Option.bind_eq_bind, Option.bind_eq_some_iff] at h
      obtain ⟨⟨value, tail⟩, hread, h⟩ := h
      dsimp only at h
      split at h
      · obtain ⟨⟨more, last⟩, hmore, ⟨⟩⟩ := Option.map_eq_some_iff.1 h
        exact ⟨hvalue _ _ _ hread, hitems _ _ _ hmore⟩
      · cases h
        exact ⟨hvalue _ _ _ hread, trivial⟩
      · cases h
    · rw [readMembers] at h
      split at h
      · rw [Option.bind_eq_bind, Option.bind_eq_some_iff] at h
        obtain ⟨⟨key, tail⟩, hkey, h⟩ := h
        have hkey := storableText_ofList (storable_readString hkey)
        dsimp only at h
        split at h
        · obtain ⟨⟨value, tail'⟩, hread, h⟩ := Option.bind_eq_some_iff.1 h
          dsimp only at h
          split at h
          · obtain ⟨⟨more, last⟩, hmore, ⟨⟩⟩ := Option.map_eq_some_iff.1 h
            exact ⟨hkey, hvalue _ _ _ hread, hmembers _ _ _ hmore⟩
          · cases h
            exact ⟨hkey, hvalue _ _ _ hread, trivial⟩
          · cases h
        · cases h
      · cases h

theorem storable_read (h : read cs = some value) : value.Storable := by
  rw [read, Option.bind_eq_bind, Option.bind_eq_some_iff] at h
  obtain ⟨⟨v, rest⟩, hread, h⟩ := h
  dsimp only at h
  split_ifs at h
  obtain rfl := Option.some.inj h
  exact (storable_read_step _).1 _ _ _ hread

theorem Storable.field {member : Json} (h : value.Storable) (hmember : value.field? key = some member) :
    member.Storable := by
  have hmem : ∀ members : List (String × Json), StorableMembers members → member? key members = some member →
      member.Storable := by
    intro members hmembers hfound
    induction members with
    | nil => cases hfound
    | cons m rest ih =>
      obtain ⟨k, v⟩ := m
      rw [member?] at hfound
      split_ifs at hfound
      · exact Option.some.inj hfound ▸ hmembers.2.1
      · exact ih hmembers.2.2 hfound
  cases value with
  | obj members => exact hmem members h.2 hmember
  | _ => cases hmember

end Json
