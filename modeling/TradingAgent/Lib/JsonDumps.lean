import TradingAgent.Lib.JsonText

/-!
# JSON texts that keep their characters

`dumps` writes a value without spaces and with its members in key order, as `canonical` does, but escapes only
the characters that a JSON string cannot hold. A value whose strings are printable ASCII has one text.
-/

namespace Json

open DigitText

def dumpsChar (c : Char) : List Char :=
  if c.toNat = 34 then ['\\', '"']
  else if c.toNat = 92 then ['\\', '\\']
  else if c.toNat = 8 then ['\\', 'b']
  else if c.toNat = 9 then ['\\', 't']
  else if c.toNat = 10 then ['\\', 'n']
  else if c.toNat = 12 then ['\\', 'f']
  else if c.toNat = 13 then ['\\', 'r']
  else if c.toNat < 32 then unitEscape c.toNat
  else [c]

def dumpsString (s : List Char) : List Char := '"' :: (s.flatMap dumpsChar ++ ['"'])

mutual

def dumps : Json → List Char
  | null => ['n', 'u', 'l', 'l']
  | bool true => ['t', 'r', 'u', 'e']
  | bool false => ['f', 'a', 'l', 's', 'e']
  | num coefficient scale => numberText coefficient scale
  | str s => dumpsString s.toList
  | arr items => '[' :: dumpsItems items
  | obj members => '\x7b' :: dumpsMembers members

def dumpsItems : List Json → List Char
  | [] => [']']
  | [value] => dumps value ++ [']']
  | value :: rest => dumps value ++ ',' :: dumpsItems rest

def dumpsMembers : List (String × Json) → List Char
  | [] => ['\x7d']
  | [(key, value)] => dumpsString key.toList ++ ':' :: dumps value ++ ['\x7d']
  | (key, value) :: rest => dumpsString key.toList ++ ':' :: dumps value ++ ',' :: dumpsMembers rest

end

def PrintableText (text : String) : Prop := ∀ c ∈ text.toList, 32 ≤ c.toNat ∧ c.toNat ≤ 126

instance (text : String) : Decidable (PrintableText text) :=
  List.decidableBAll (fun c : Char => 32 ≤ c.toNat ∧ c.toNat ≤ 126) text.toList

mutual

def Printable : Json → Prop
  | str text => PrintableText text
  | arr items => PrintableItems items
  | obj members => PrintableMembers members
  | _ => True

def PrintableItems : List Json → Prop
  | [] => True
  | value :: rest => value.Printable ∧ PrintableItems rest

def PrintableMembers : List (String × Json) → Prop
  | [] => True
  | (key, value) :: rest => PrintableText key ∧ value.Printable ∧ PrintableMembers rest

end

theorem printableItems_iff {items : List Json} : PrintableItems items ↔ ∀ x ∈ items, x.Printable := by
  induction items with
  | nil => simp [PrintableItems]
  | cons x xs ih => simp [PrintableItems, ih]

variable {c : Char}

theorem dumpsChar_eq (h : 32 ≤ c.toNat ∧ c.toNat ≤ 126) : dumpsChar c = canonicalChar c := by
  have hlow : ¬ c.toNat < 32 := by omega
  have hhigh : ¬ 126 < c.toNat := by omega
  unfold dumpsChar canonicalChar
  simp only [hlow, hhigh, or_self, if_false]

variable {s : List Char}

theorem dumpsString_eq (h : ∀ c ∈ s, 32 ≤ c.toNat ∧ c.toNat ≤ 126) : dumpsString s = canonicalString s := by
  unfold dumpsString canonicalString
  rw [List.flatMap_def, List.flatMap_def, List.map_congr_left fun c hc => dumpsChar_eq (h c hc)]

mutual

theorem dumps_eq_canonical : ∀ value : Json, value.Printable → dumps value = canonical value
  | null, _ => rfl
  | bool true, _ => rfl
  | bool false, _ => rfl
  | num _ _, _ => rfl
  | str s, h => by
    rw [dumps, canonical]
    exact dumpsString_eq h
  | arr items, h => by
    rw [dumps, canonical, dumpsItems_eq_canonicalItems items h]
  | obj members, h => by
    rw [dumps, canonical, dumpsMembers_eq_canonicalMembers members h]

theorem dumpsItems_eq_canonicalItems : ∀ items : List Json, PrintableItems items →
    dumpsItems items = canonicalItems items
  | [], _ => rfl
  | [x], h => by
    rw [dumpsItems, canonicalItems, dumps_eq_canonical x h.1]
  | x :: y :: rest, h => by
    rw [dumpsItems, canonicalItems, dumps_eq_canonical x h.1, dumpsItems_eq_canonicalItems (y :: rest) h.2]
    all_goals simp

theorem dumpsMembers_eq_canonicalMembers : ∀ members : List (String × Json), PrintableMembers members →
    dumpsMembers members = canonicalMembers members
  | [], _ => rfl
  | [(key, x)], h => by
    rw [dumpsMembers, canonicalMembers, dumps_eq_canonical x h.2.1, dumpsString_eq h.1]
  | (key, x) :: m :: rest, h => by
    rw [dumpsMembers, canonicalMembers, dumps_eq_canonical x h.2.1, dumpsString_eq h.1,
      dumpsMembers_eq_canonicalMembers (m :: rest) h.2.2]
    all_goals simp

end

theorem read_dumps {value : Json} (hprint : value.Printable) (h : value.Storable)
    (hwhole : value.integral = true) : read (dumps value) = some value := by
  rw [dumps_eq_canonical value hprint, read_canonical h hwhole]

def Graphic (cs : List Char) : Prop := ∀ c ∈ cs, 32 ≤ c.toNat ∧ c.toNat ≤ 126

variable {cs : List Char}

theorem graphic_cons :
    Graphic (c :: cs) ↔ (32 ≤ c.toNat ∧ c.toNat ≤ 126) ∧ Graphic cs := by simp [Graphic]

theorem graphic_append {ds : List Char} : Graphic (cs ++ ds) ↔ Graphic cs ∧ Graphic ds := by
  unfold Graphic
  simp only [List.mem_append, or_imp, forall_and]
  tauto

theorem graphic_of_isDigit (h : ∀ c ∈ cs, c.isDigit = true) : Graphic cs := by
  intro c hc
  have hdigit := h c hc
  simp only [Char.isDigit, Bool.and_eq_true, decide_eq_true_eq] at hdigit
  have hlow : 48 ≤ c.toNat := hdigit.1
  have hhigh : c.toNat ≤ 57 := hdigit.2
  omega

theorem graphic_dumpsString (h : Graphic s) : Graphic (dumpsString s) := by
  have hchars : ∀ c ∈ s, Graphic (dumpsChar c) := by
    intro c hc
    have hrange := h c hc
    unfold dumpsChar
    split_ifs
    any_goals omega
    all_goals simp [Graphic, hrange]
  refine graphic_cons.2 ⟨by decide, graphic_append.2 ⟨?_, by simp [Graphic]⟩⟩
  intro c hc
  obtain ⟨d, hd, hcd⟩ := List.mem_flatMap.1 hc
  exact hchars d hd c hcd

theorem graphic_numberText (n : ℤ) (scale : ℕ) : Graphic (numberText n scale) := by
  have hdigits : Graphic (naturalText n.natAbs) := graphic_of_isDigit fun c => isDigit_of_mem_naturalText
  have hpadded : Graphic (List.replicate (scale + 1 - (naturalText n.natAbs).length) '0' ++ naturalText n.natAbs) := by
    refine graphic_append.2 ⟨?_, hdigits⟩
    intro c hc
    rw [List.eq_of_mem_replicate hc]
    decide
  unfold numberText
  refine graphic_append.2 ⟨?_, ?_⟩
  · split_ifs <;> simp [Graphic]
  · split_ifs
    · exact hdigits
    · refine graphic_append.2 ⟨fun c hc => hpadded c (List.mem_of_mem_take hc), graphic_cons.2 ⟨by decide, ?_⟩⟩
      exact fun c hc => hpadded c (List.mem_of_mem_drop hc)

mutual

theorem graphic_dumps : ∀ value : Json, value.Printable → Graphic (dumps value)
  | null, _ => by simp [dumps, Graphic]
  | bool true, _ => by simp [dumps, Graphic]
  | bool false, _ => by simp [dumps, Graphic]
  | num n scale, _ => by
    rw [dumps]
    exact graphic_numberText n scale
  | str s, h => by
    rw [dumps]
    exact graphic_dumpsString h
  | arr items, h => by
    rw [dumps]
    exact graphic_cons.2 ⟨by decide, graphic_dumpsItems items h⟩
  | obj members, h => by
    rw [dumps]
    exact graphic_cons.2 ⟨by decide, graphic_dumpsMembers members h⟩

theorem graphic_dumpsItems : ∀ items : List Json, PrintableItems items → Graphic (dumpsItems items)
  | [], _ => by simp [dumpsItems, Graphic]
  | [x], h => by
    rw [dumpsItems]
    exact graphic_append.2 ⟨graphic_dumps x h.1, by simp [Graphic]⟩
  | x :: y :: rest, h => by
    rw [dumpsItems]
    · exact graphic_append.2 ⟨graphic_dumps x h.1, graphic_cons.2 ⟨by decide, graphic_dumpsItems (y :: rest) h.2⟩⟩
    · simp

theorem graphic_dumpsMembers : ∀ members : List (String × Json), PrintableMembers members →
    Graphic (dumpsMembers members)
  | [], _ => by simp [dumpsMembers, Graphic]
  | [(key, x)], h => by
    rw [dumpsMembers, List.append_assoc, List.cons_append]
    refine graphic_append.2 ⟨graphic_dumpsString h.1, graphic_cons.2 ⟨by decide, ?_⟩⟩
    exact graphic_append.2 ⟨graphic_dumps x h.2.1, by simp [Graphic]⟩
  | (key, x) :: m :: rest, h => by
    rw [dumpsMembers, List.append_assoc, List.cons_append]
    · refine graphic_append.2 ⟨graphic_dumpsString h.1, graphic_cons.2 ⟨by decide, ?_⟩⟩
      refine graphic_append.2 ⟨graphic_dumps x h.2.1, graphic_cons.2 ⟨by decide, ?_⟩⟩
      exact graphic_dumpsMembers (m :: rest) h.2.2
    · simp

end

theorem utf8ByteSize_of_graphic (h : Graphic cs) : (String.ofList cs).utf8ByteSize = cs.length := by
  induction cs with
  | nil => rfl
  | cons c cs ih =>
    rw [graphic_cons] at h
    have hc : c.utf8Size = 1 := by
      rw [Char.utf8Size_eq_one_iff, UInt32.le_iff_toNat_le]
      exact h.1.2.trans (by decide)
    rw [String.ofList_cons, String.utf8ByteSize_append, String.utf8ByteSize_singleton, ih h.2, hc, List.length_cons]
    omega

end Json
