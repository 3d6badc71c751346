import Mathlib.Data.List.Sort
import TradingAgent.Lib.JsonText
import TradingAgent.Lib.Outcome
import TradingAgent.Lib.ThreeValued

/-!
# The `jsonb` operators

A value that may be null is an `Option`. Two `jsonb` values without fractional numbers are equal where they are
the same `Json`.
-/

namespace Jsonb

open Json ThreeValued

def displayChar (c : Char) : List Char :=
  if c.toNat = 34 then ['\\', '"']
  else if c.toNat = 92 then ['\\', '\\']
  else if c.toNat = 8 then ['\\', 'b']
  else if c.toNat = 9 then ['\\', 't']
  else if c.toNat = 10 then ['\\', 'n']
  else if c.toNat = 12 then ['\\', 'f']
  else if c.toNat = 13 then ['\\', 'r']
  else if c.toNat < 32 then unitEscape c.toNat
  else [c]

def displayString (s : String) : List Char := '"' :: (s.toList.flatMap displayChar ++ ['"'])

/-- The order in which the members of an object are printed: shorter keys first. -/
def printedBefore (x y : String × List Char) : Bool :=
  decide (x.1.utf8ByteSize < y.1.utf8ByteSize) || (x.1.utf8ByteSize == y.1.utf8ByteSize && !decide (y.1 < x.1))

def separated : List (List Char) → List Char
  | [] => []
  | [text] => text
  | text :: rest => text ++ ',' :: ' ' :: separated rest

mutual

def display : Json → List Char
  | arr items => '[' :: (separated (displayItems items) ++ [']'])
  | obj members => '\x7b' :: (separated (((displayMembers members).insertionSort fun x y => printedBefore x y = true).map fun m =>
      displayString m.1 ++ ':' :: ' ' :: m.2) ++ ['\x7d'])
  | str s => displayString s
  | null => ['n', 'u', 'l', 'l']
  | .bool b => if b then ['t', 'r', 'u', 'e'] else ['f', 'a', 'l', 's', 'e']
  | num coefficient scale => numberText coefficient scale

def displayItems : List Json → List (List Char)
  | [] => []
  | value :: rest => display value :: displayItems rest

def displayMembers : List (String × Json) → List (String × List Char)
  | [] => []
  | (key, value) :: rest => (key, display value) :: displayMembers rest

end

/-- `value #>> '{}'` -/
def text : Json → Option String
  | null => none
  | str s => some s
  | value => some (String.ofList (display value))

@[simp] theorem text_str (s : String) : text (str s) = some s := rfl

/-- `text::jsonb` -/
def ofText (text : String) : Option Json := read text.toList

/-- `value -> key` -/
def get (value : Option Json) (key : String) : Option Json := value.bind (field? key)

/-- `value ->> key` -/
def getText (value : Option Json) (key : String) : Option String := (get value key).bind text

/-- `value #> path` -/
def path (value : Option Json) (steps : List String) : Option Json := value.bind (path? steps)

/-- `value #>> path` -/
def pathText (value : Option Json) (steps : List String) : Option String := (path value steps).bind text

/-- `jsonb_typeof(value)` -/
def typeOf (value : Option Json) : Option Kind := value.map kind

/-- `jsonb_typeof(value) = kind` -/
def isKind (kind : Kind) (value : Option Json) : Truth := eq (typeOf value) (some kind)

/-- `value ? key`: a member of an object, or a string of an array. -/
def hasKey (value : Option Json) (key : Option String) : Truth :=
  match value, key with
  | some (obj members), some key => some ((member? key members).isSome)
  | some (arr items), some key => some (decide (str key ∈ items))
  | some (str s), some key => some (decide (s = key))
  | some _, some _ => some false
  | _, _ => none

/-- `value ?& keys` -/
def hasKeys (value : Option Json) (keys : List String) : Truth :=
  match value with
  | some v => some (keys.all fun key => hasKey (some v) (some key) == some true)
  | none => none

/-- `jsonb_build_object('key', value, …)`, where a null value makes a null member. -/
def buildObject (members : List (String × Option Json)) : Json :=
  object (members.map fun m => (m.1, m.2.getD null))

/-- The value is an object of exactly the members that the keys name: `value = jsonb_build_object(…)`. -/
def isObjectOf (value : Option Json) (keys : List String) : Truth :=
  eq value (some (buildObject (keys.map fun key => (key, get value key))))

theorem get_some (value : Json) (key : String) : get (some value) key = field? key value := rfl

theorem holds_isKind_iff {k : Kind} {value : Option Json} :
    holds (isKind k value) ↔ ∃ v, value = some v ∧ v.kind = k := by
  rw [isKind, holds_eq_iff, typeOf]
  constructor
  · rintro ⟨a, ha, hk⟩
    obtain ⟨v, hv, rfl⟩ := Option.map_eq_some_iff.1 ha
    exact ⟨v, hv, (Option.some.inj hk).symm⟩
  · rintro ⟨v, rfl, rfl⟩
    exact ⟨v.kind, rfl, rfl⟩

def IsBigint (n : ℤ) : Prop := -9223372036854775808 ≤ n ∧ n ≤ 9223372036854775807

instance (n : ℤ) : Decidable (IsBigint n) := inferInstanceAs (Decidable (_ ∧ _))

def integerOf (text : String) : Option ℤ :=
  let isBlank := fun c => isSpace c || c.toNat == 11 || c.toNat == 12
  let cs := ((text.toList.dropWhile isBlank).reverse.dropWhile isBlank).reverse
  let (negative, digits) := match cs with
    | '-' :: ds => (true, ds)
    | '+' :: ds => (false, ds)
    | ds => (false, ds)
  if digits ≠ [] ∧ digits.all Char.isDigit then some (signed negative (DigitText.readDigits digits)) else none

/-- `text::bigint` of a text that may be null; `none` where the cast raises. -/
def bigint (text : Option String) : Option (Option ℤ) :=
  match text with
  | none => some none
  | some t => ((integerOf t).filter fun n => IsBigint n).map some

/-- The whole number of digits only, `text::numeric` of a text that matches `^(0|[1-9][0-9]*)$`. -/
def wholeNumber (text : Option String) : Option ℕ :=
  text.bind fun t => if t ≠ "" ∧ t.toList.all Char.isDigit then some (DigitText.readDigits t.toList) else none

def octetLength (text : String) : ℕ := text.utf8ByteSize

end Jsonb
