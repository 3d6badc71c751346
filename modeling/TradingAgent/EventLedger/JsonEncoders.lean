import TradingAgent.Domain.DigitLimits
import TradingAgent.EventLedger.CanonicalJson
import TradingAgent.Lib.Bytes
import TradingAgent.Lib.Dict

/-!
# Two encoders of canonical JSON

`public.canonical_domain_json` (`alembic/versions/0008_trading_domain_ledger.py`) and `_canonical_json`
(`packages/event_ledger/replay.py`). They differ in the order of keys, in escapes and in the numbers they accept.
-/

namespace Json

mutual

def arranged : Json → Json
  | arr items => arr (arrangedItems items)
  | obj members => obj (sortBy Prod.fst (arrangedMembers members))
  | value => value

def arrangedItems : List Json → List Json
  | [] => []
  | value :: rest => arranged value :: arrangedItems rest

def arrangedMembers : List (String × Json) → List (String × Json)
  | [] => []
  | (key, value) :: rest => (key, arranged value) :: arrangedMembers rest

end

mutual

def numbers : Json → List ℤ
  | num n _ => [n]
  | arr items => numbersOfItems items
  | obj members => numbersOfMembers members
  | _ => []

def numbersOfItems : List Json → List ℤ
  | [] => []
  | value :: rest => numbers value ++ numbersOfItems rest

def numbersOfMembers : List (String × Json) → List ℤ
  | [] => []
  | (_, value) :: rest => numbers value ++ numbersOfMembers rest

end

section

variable {κ : Type} [LinearOrder κ] (order : String → κ) (text : String → Option (List Char))
  (number : ℤ → ℕ → Option (List Char))

mutual

def encode : Json → Option (List Char)
  | null => some ['n', 'u', 'l', 'l']
  | bool true => some ['t', 'r', 'u', 'e']
  | bool false => some ['f', 'a', 'l', 's', 'e']
  | num n scale => number n scale
  | str s => text s
  | arr items => (encodeItems items).map fun texts => '[' :: ([','].intercalate texts ++ [']'])
  | obj members => (encodeMembers members).map fun texts =>
      '\x7b' :: ([','].intercalate ((sortBy (fun m => order m.1) texts).map Prod.snd) ++ ['\x7d'])

def encodeItems : List Json → Option (List (List Char))
  | [] => some []
  | value :: rest => do
    let first ← encode value
    let texts ← encodeItems rest
    some (first :: texts)

def encodeMembers : List (String × Json) → Option (List (String × List Char))
  | [] => some []
  | (key, value) :: rest => do
    let name ← text key
    let first ← encode value
    let texts ← encodeMembers rest
    some ((key, name ++ ':' :: first) :: texts)

end

end

def memberText (m : String × Json) : List Char := canonicalString m.1.toList ++ ':' :: canonical m.2

theorem canonicalItems_eq (items : List Json) :
    canonicalItems items = [','].intercalate (items.map canonical) ++ [']'] := by
  induction items with
  | nil => rfl
  | cons value rest ih =>
    rw [canonicalItems_cons, ih]
    cases rest <;> simp

theorem canonicalMembers_eq (members : List (String × Json)) :
    canonicalMembers members = [','].intercalate (members.map memberText) ++ ['\x7d'] := by
  induction members with
  | nil => rfl
  | cons m rest ih =>
    obtain ⟨key, value⟩ := m
    rw [canonicalMembers_cons, ih]
    cases rest <;> simp [memberText]

theorem integralMembers_iff {members : List (String × Json)} :
    integralMembers members = true ↔ ∀ m ∈ members, m.2.integral = true := by
  induction members with
  | nil => simp [integralMembers]
  | cons m rest ih => rw [integralMembers, Bool.and_eq_true, ih, List.forall_mem_cons]

section

variable {κ : Type} [LinearOrder κ] {order : String → κ} {text : String → Option (List Char)}
  {number : ℤ → ℕ → Option (List Char)} {P : ℤ → Prop}

variable (order text number P) in
/-- The encoder writes keys, texts and the integers with `P` as a canonical text has them. -/
structure WritesCanonical : Prop where
  order : ∀ x y, order x ≤ order y ↔ x ≤ y
  text : ∀ s, StorableText s → text s = some (canonicalString s.toList)
  number : ∀ n, P n → number n 0 = some (numberText n 0)

mutual

theorem encode_eq (hw : WritesCanonical order text number P) : ∀ value : Json, (arranged value).Storable →
    (arranged value).integral = true → (∀ n ∈ value.numbers, P n) →
      encode order text number value = some (canonical (arranged value))
  | .null, _, _, _ => rfl
  | .bool true, _, _, _ => rfl
  | .bool false, _, _, _ => rfl
  | .num n scale, _, hwhole, hP => by
    obtain rfl : scale = 0 := by simpa [arranged, integral] using hwhole
    exact hw.number n (hP n List.mem_cons_self)
  | .str s, h, _, _ => hw.text s h
  | .arr items, h, hwhole, hP => by
    rw [encode, encodeItems_eq hw items h hwhole hP, arranged, canonical, canonicalItems_eq]
    rfl
  | .obj members, h, hwhole, hP => by
    have hmem : ∀ m ∈ arrangedMembers members, (StorableText m.1 ∧ m.2.Storable) ∧ m.2.integral = true := by
      intro m hm
      rw [← mem_sortBy Prod.fst] at hm
      exact ⟨storableMembers_iff.1 h.2 m hm, integralMembers_iff.1 hwhole m hm⟩
    have hsort : (sortBy Prod.fst (arrangedMembers members)).map (fun m => (m.1, memberText m)) =
        sortBy (fun m => order m.1) ((arrangedMembers members).map fun m => (m.1, memberText m)) :=
      List.map_insertionSort _ _ _ _ fun a _ b _ => (hw.order a.1 b.1).symm
    rw [encode, encodeMembers_eq hw members hmem hP, Option.map_some, arranged, canonical, canonicalMembers_eq,
      ← hsort, List.map_map]
    rfl

theorem encodeItems_eq (hw : WritesCanonical order text number P) : ∀ items : List Json,
    StorableItems (arrangedItems items) → integralItems (arrangedItems items) = true →
      (∀ n ∈ numbersOfItems items, P n) →
        encodeItems order text number items = some ((arrangedItems items).map canonical)
  | [], _, _, _ => rfl
  | value :: rest, h, hwhole, hP => by
    rw [arrangedItems, integralItems, Bool.and_eq_true] at hwhole
    rw [numbersOfItems, List.forall_mem_append] at hP
    rw [encodeItems, encode_eq hw value h.1 hwhole.1 hP.1, encodeItems_eq hw rest h.2 hwhole.2 hP.2]
    rfl

theorem encodeMembers_eq (hw : WritesCanonical order text number P) : ∀ members : List (String × Json),
    (∀ m ∈ arrangedMembers members, (StorableText m.1 ∧ m.2.Storable) ∧ m.2.integral = true) →
      (∀ n ∈ numbersOfMembers members, P n) → encodeMembers order text number members =
        some ((arrangedMembers members).map fun m => (m.1, memberText m))
  | [], _, _ => rfl
  | (key, value) :: rest, h, hP => by
    rw [arrangedMembers, List.forall_mem_cons] at h
    rw [numbersOfMembers, List.forall_mem_append] at hP
    rw [encodeMembers, hw.text key h.1.1.1, encode_eq hw value h.1.1.2 h.1.2 hP.1, encodeMembers_eq hw rest h.2 hP.2]
    rfl

end

end

mutual

theorem arranged_eq_self : ∀ value : Json, value.Storable → arranged value = value
  | .null, _ | .bool _, _ | .num _ _, _ | .str _, _ => rfl
  | .arr items, h => by rw [arranged, arrangedItems_eq_self items h]
  | .obj members, h => by
    rw [arranged, arrangedMembers_eq_self members h.2, sortBy_eq_self]
    exact (List.pairwise_map.1 h.1).imp (·.le)

theorem arrangedItems_eq_self : ∀ items : List Json, StorableItems items → arrangedItems items = items
  | [], _ => rfl
  | value :: rest, h => by rw [arrangedItems, arranged_eq_self value h.1, arrangedItems_eq_self rest h.2]

theorem arrangedMembers_eq_self : ∀ members : List (String × Json), StorableMembers members →
    arrangedMembers members = members
  | [], _ => rfl
  | (key, value) :: rest, h => by
    rw [arrangedMembers, arranged_eq_self value h.2.1, arrangedMembers_eq_self rest h.2.2]

end

end Json

namespace TradingAgent.JsonEncoders

open Json DigitText CanonicalJson

/-- What `COLLATE "C"` orders a text by. -/
def collateC (s : String) : List ℕ := utf8Bytes s.toList

/-- `public.canonical_domain_json` -/
def canonicalDomainJson : Json → Option (List Char) :=
  encode collateC (fun s => some (canonicalString s.toList)) fun n scale =>
    if scale = 0 then some (numberText n scale) else none

/-- A character inside a string that `json.dumps` writes with `ensure_ascii=True`. -/
def asciiChar (c : Char) : List Char :=
  match c with
  | '\\' => ['\\', '\\']
  | '"' => ['\\', '"']
  | '\x08' => ['\\', 'b']
  | '\x0c' => ['\\', 'f']
  | '\n' => ['\\', 'n']
  | '\r' => ['\\', 'r']
  | '\t' => ['\\', 't']
  | _ =>
    if ' ' ≤ c ∧ c ≤ '~' then [c]
    else if c.toNat < 0x10000 then unitEscape c.toNat
    else
      let n := c.toNat - 0x10000
      unitEscape (0xd800 ||| (n >>> 10 &&& 0x3ff)) ++ unitEscape (0xdc00 ||| (n &&& 0x3ff))

def Short (n : ℤ) : Prop := (naturalText n.natAbs).length ≤ intMaxStrDigits

instance (n : ℤ) : Decidable (Short n) := inferInstanceAs (Decidable (_ ≤ _))

/-- `_canonical_json`; a number with a fraction is not encoded. -/
def canonicalJson : Json → Option (List Char) :=
  encode id
    (fun s => if '\x00' ∈ s.toList then none else some ('"' :: (s.toList.flatMap asciiChar ++ ['"'])))
    fun n scale => if scale = 0 ∧ Short n then some (numberText n scale) else none

/-- No two members of an object have one key, no string has a null character, and numbers are integers that
PostgreSQL can hold. -/
structure IsValue (value : Json) : Prop where
  storable : value.arranged.Storable
  whole : value.arranged.integral = true

theorem collateC_le_iff (x y : String) : collateC x ≤ collateC y ↔ x ≤ y := by
  have hmono : StrictMono collateC := fun x y h => utf8Bytes_lt (String.lt_iff_toList_lt.1 h)
  exact hmono.le_iff_le

theorem asciiChar_eq (c : Char) : asciiChar c = canonicalChar c := by
  have hvalid : c.toNat < 1114112 := by rcases toNat_lt_surrogates_or c with h | h <;> omega
  have hor (a : ℕ) {b : ℕ} (hb : b < 1024) : 1024 * a ||| b = 1024 * a + b :=
    (Nat.two_pow_add_eq_or_of_lt (i := 10) hb a).symm
  unfold asciiChar
  split
  any_goals rfl
  rename_i hslash hquote hb hf hn hr ht
  have hne (d : Char) (h : c = d → False) : c.toNat ≠ d.toNat := fun heq => h (Char.toNat_inj.1 heq)
  have hrange : ' ' ≤ c ∧ c ≤ '~' ↔ ¬ (c.toNat < 32 ∨ 126 < c.toNat) := by
    show (32 ≤ c.toNat ∧ c.toNat ≤ 126) ↔ _
    omega
  have h34 : c.toNat ≠ 34 := hne _ hquote
  have h92 : c.toNat ≠ 92 := hne _ hslash
  have h8 : c.toNat ≠ 8 := hne _ hb
  have h9 : c.toNat ≠ 9 := hne _ ht
  have h10 : c.toNat ≠ 10 := hne _ hn
  have h12 : c.toNat ≠ 12 := hne _ hf
  have h13 : c.toNat ≠ 13 := hne _ hr
  rw [canonicalChar, if_neg h34, if_neg h92, if_neg h8, if_neg h9, if_neg h10, if_neg h12, if_neg h13]
  by_cases hplain : c.toNat < 32 ∨ 126 < c.toNat
  · rw [if_neg (by rw [hrange]; exact not_not_intro hplain), if_pos hplain]
    by_cases hbmp : c.toNat < 0x10000
    · rw [if_pos hbmp, if_pos (by omega)]
    · dsimp only
      rw [if_neg hbmp, if_neg (by omega), Nat.and_two_pow_sub_one_eq_mod _ 10,
        Nat.and_two_pow_sub_one_eq_mod _ 10, Nat.shiftRight_eq_div_pow, hor 54 (Nat.mod_lt _ (by decide)),
        hor 55 (Nat.mod_lt _ (by decide))]
      congr 2
      omega
  · rw [if_pos (hrange.2 hplain), if_neg hplain]

theorem canonicalDomainJson_eq {value : Json} (h : IsValue value) :
    canonicalDomainJson value = some (canonical value.arranged) :=
  encode_eq (P := fun _ => True) ⟨collateC_le_iff, fun _ _ => rfl, fun _ _ => rfl⟩ value h.storable h.whole
    fun _ _ => trivial

theorem canonicalJson_eq {value : Json} (h : IsValue value) (hshort : ∀ n ∈ value.numbers, Short n) :
    canonicalJson value = some (canonical value.arranged) := by
  refine encode_eq ⟨fun _ _ => Iff.rfl, fun s hs => ?_, fun n hn => if_pos ⟨rfl, hn⟩⟩ value h.storable h.whole
    hshort
  rw [if_neg fun hmem => hs _ hmem rfl, canonicalString, funext asciiChar_eq]

/-- The rendering of a stored value is the encoding of any value that is arranged so. -/
theorem canonicalDomainJson_arranged {value : Json} (h : IsValue value) :
    (CanonicalJson.canonicalDomainJson value.arranged).toOption.map String.toList = canonicalDomainJson value := by
  rw [canonicalDomainJson_eq h, CanonicalJson.canonicalDomainJson, if_pos h.whole]
  exact congrArg some String.toList_ofList

theorem canonicalDomainJsonString_iff (text : String) : canonicalDomainJsonString text = .ok text ↔
    ∃ value, IsValue value ∧ canonicalDomainJson value = some text.toList := by
  constructor
  · intro h
    obtain ⟨value, hcanonical⟩ := isCanonical_of h
    have hself := arranged_eq_self value hcanonical.storable
    have hvalue : IsValue value := ⟨by rw [hself]; exact hcanonical.storable, by rw [hself]; exact hcanonical.2.1⟩
    refine ⟨value, hvalue, ?_⟩
    rw [canonicalDomainJson_eq hvalue, hself, hcanonical.2.2, String.toList_ofList]
  · rintro ⟨value, hvalue, htext⟩
    rw [canonicalDomainJson_eq hvalue, Option.some_inj] at htext
    have hstring := canonicalDomainJsonString_canonical hvalue.storable hvalue.whole
    rwa [htext, String.ofList_toList] at hstring

theorem encoders_agree (value other : Json) (text : String) (h : IsValue value) (hother : IsValue other) :
    ((∀ n ∈ value.numbers, Short n) → ∃ encoded, canonicalDomainJson value = some encoded ∧
      canonicalJson value = some encoded) ∧
    (canonicalDomainJson value = canonicalDomainJson other → value.arranged = other.arranged) ∧
    (canonicalDomainJsonString text = .ok text ↔
      ∃ value, IsValue value ∧ canonicalDomainJson value = some text.toList) := by
  refine ⟨fun hshort => ⟨_, canonicalDomainJson_eq h, canonicalJson_eq h hshort⟩, fun heq => ?_,
    canonicalDomainJsonString_iff text⟩
  rw [canonicalDomainJson_eq h, canonicalDomainJson_eq hother, Option.some_inj] at heq
  exact canonical_inj h.storable h.whole hother.storable hother.whole heq

def sampleValue : Json := .arr [.num (-7) 0, .str "𝄞"]

theorem sample_encoders_agree : ∃ encoded, canonicalDomainJson sampleValue = some encoded ∧
    canonicalJson sampleValue = some encoded := by
  have hdigits : (naturalText 7).length ≤ 1 := length_naturalText_le one_pos (by decide)
  have htext : StorableText "𝄞" := by
    intro c hc
    rw [List.mem_singleton.1 hc]
    decide
  have hvalue : IsValue sampleValue := ⟨⟨fun _ => hdigits.trans (by decide), htext, trivial⟩, rfl⟩
  refine (encoders_agree sampleValue .null "null" hvalue ⟨trivial, rfl⟩).1 fun n hn => ?_
  obtain rfl : n = -7 := List.mem_singleton.1 hn
  exact hdigits.trans (by decide)

theorem long_integer_raises : ¬ ∀ value, IsValue value → canonicalJson value = canonicalDomainJson value := by
  intro h
  have hlength : (naturalText (10 ^ 4300)).length = 4301 := by
    rw [naturalText, length_fixedDigits, Nat.log_pow (by decide)]
  have hvalue : IsValue (.num ((10 ^ 4300 : ℕ) : ℤ) 0) := by
    refine ⟨fun _ => ?_, rfl⟩
    rw [Int.natAbs_natCast, hlength]
    decide
  have hlong : ¬ Short ((10 ^ 4300 : ℕ) : ℤ) := by
    rw [Short, Int.natAbs_natCast, hlength]
    decide
  have heq := h _ hvalue
  rw [canonicalDomainJson_eq hvalue, canonicalJson, encode, if_neg fun hshort => hlong hshort.2] at heq
  cases heq

end TradingAgent.JsonEncoders
