import Mathlib.Data.List.Basic
import TradingAgent.Lib.JsonDumps

/-!
# Canonical codecs

A `Codec` spells the values of a type in JSON. Every value has one spelling: reading undoes writing, and what is
read is written back as it was. The strings of a spelling are printable, and its text has a bounded length. A
record is spelled as an object with fixed keys in key order, member by member (`Fields`).
-/

open Json DigitText

/-- One spelling in JSON for each value of a type. -/
structure Codec (α : Type) where
  encode : α → Json
  decode : Json → Option α
  bound : ℕ
  decode_encode : ∀ a, decode (encode a) = some a
  encode_decode : ∀ {value a}, decode value = some a → encode a = value
  printable : ∀ a, (encode a).Printable
  storable : ∀ a, (encode a).Storable
  integral : ∀ a, (encode a).integral = true
  length_le : ∀ a, (dumps (encode a)).length ≤ bound

/-- One spelling as the members of an object for each value of a type. -/
structure Fields (α : Type) where
  keys : List String
  encode : α → List (String × Json)
  decode : List (String × Json) → Option α
  bound : ℕ
  keys_encode : ∀ a, (encode a).map Prod.fst = keys
  decode_encode : ∀ a, decode (encode a) = some a
  encode_decode : ∀ {members a}, decode members = some a → encode a = members
  printable : ∀ a, PrintableMembers (encode a)
  storable : ∀ a, StorableMembers (encode a)
  integral : ∀ a, integralMembers (encode a) = true
  length_le : ∀ a, (dumpsMembers (encode a)).length ≤ bound

theorem storableText_of_printable {text : String} (h : PrintableText text) : StorableText text := by
  intro c hc
  have := h c hc
  omega

theorem length_dumpsString_le {s : List Char} (h : Graphic s) : (dumpsString s).length ≤ 2 * s.length + 2 := by
  have hchar : ∀ c ∈ s, (dumpsChar c).length ≤ 2 := by
    intro c hc
    have hrange := h c hc
    unfold dumpsChar
    split_ifs
    any_goals omega
    all_goals simp
  have hflat : (s.flatMap dumpsChar).length ≤ 2 * s.length := by
    clear h
    induction s with
    | nil => simp
    | cons c s ih =>
      have hc := hchar c List.mem_cons_self
      have hs := ih fun d hd => hchar d (List.mem_cons_of_mem _ hd)
      rw [List.flatMap_cons, List.length_append, List.length_cons]
      omega
  unfold dumpsString
  simp only [List.length_cons, List.length_append, List.length_nil]
  omega

namespace Codec

variable {α β : Type}

theorem decode_eq_some_iff (c : Codec α) {value : Json} {a : α} : c.decode value = some a ↔ value = c.encode a := by
  constructor
  · exact fun h => (c.encode_decode h).symm
  · rintro rfl
    exact c.decode_encode a

def text (c : Codec α) (a : α) : String := String.ofList (dumps (c.encode a))

def parse (c : Codec α) (text : String) : Option α := do
  let a ← (read text.toList).bind c.decode
  if c.text a = text then some a else none

theorem read_text (c : Codec α) (a : α) : read (c.text a).toList = some (c.encode a) := by
  rw [text, String.toList_ofList, read_dumps (c.printable a) (c.storable a) (c.integral a)]

theorem parse_eq_some_iff (c : Codec α) {t : String} {a : α} : c.parse t = some a ↔ t = c.text a := by
  unfold parse
  constructor
  · intro h
    obtain ⟨b, -, h⟩ := Option.bind_eq_some_iff.1 h
    split_ifs at h with heq
    rw [← Option.some.inj h, heq]
  · rintro rfl
    rw [read_text]
    simp [c.decode_encode]

theorem text_eq_canonical (c : Codec α) (a : α) : c.text a = String.ofList (canonical (c.encode a)) := by
  rw [text, dumps_eq_canonical _ (c.printable a)]

/-! ## Texts -/

theorem length_dumps_str_le {text : String} {n : ℕ} (h : PrintableText text) (hn : text.length ≤ n) :
    (dumps (.str text)).length ≤ 2 * n + 2 := by
  have hle := length_dumpsString_le h
  rw [String.length_toList] at hle
  rw [dumps]
  omega

def ofText (toText : α → String) (ofText : String → Option α) (n : ℕ) (left : ∀ a, ofText (toText a) = some a)
    (right : ∀ {s a}, ofText s = some a → toText a = s) (printable : ∀ a, PrintableText (toText a))
    (short : ∀ a, (toText a).length ≤ n) : Codec α where
  encode a := .str (toText a)
  decode
    | .str s => ofText s
    | _ => none
  bound := 2 * n + 2
  decode_encode := left
  encode_decode := by
    intro value a h
    cases value with
    | str s => exact congrArg Json.str (right h)
    | _ => cases h
  printable := printable
  storable a := storableText_of_printable (printable a)
  integral _ := rfl
  length_le a := length_dumps_str_le (printable a) (short a)

/-- Strings with a property that implies a bounded printable text. -/
def matching (p : String → Bool) (n : ℕ) (h : ∀ s, p s = true → PrintableText s ∧ s.length ≤ n) :
    Codec {s : String // p s = true} :=
  ofText Subtype.val (fun s => if hs : p s = true then some ⟨s, hs⟩ else none) n
    (fun a => by rw [dif_pos a.2])
    (fun {s a} hs => by
      split_ifs at hs
      rw [← Option.some.inj hs])
    (fun a => (h a.1 a.2).1) (fun a => (h a.1 a.2).2)

def literal (s : String) (h : PrintableText s) : Codec Unit :=
  ofText (fun _ => s) (fun t => if t = s then some () else none) s.length (fun _ => if_pos rfl)
    (fun {t a} ht => by
      split_ifs at ht with heq
      exact heq.symm)
    (fun _ => h) (fun _ => le_rfl)

def enum (all : List α) (name : α → String) (n : ℕ) (complete : ∀ a, a ∈ all)
    (injective : ∀ a ∈ all, ∀ b ∈ all, name a = name b → a = b)
    (printable : ∀ a ∈ all, PrintableText (name a) ∧ (name a).length ≤ n) : Codec α :=
  ofText name (fun s => all.find? fun a => name a = s) n (fun a => by
      cases hfind : all.find? fun b => name b = name a with
      | none => exact absurd (decide_eq_true rfl) (List.find?_eq_none.1 hfind a (complete a))
      | some b =>
        have hname : name b = name a := by simpa using List.find?_some hfind
        rw [injective b (complete b) a (complete a) hname])
    (fun {s a} hs => by simpa using List.find?_some hs)
    (fun a => (printable a (complete a)).1) (fun a => (printable a (complete a)).2)

/-! ## Numbers -/

def range (low high k : ℕ) (hk : 0 < k ∧ high < 10 ^ k ∧ k ≤ maxWholeDigits) :
    Codec {n : ℕ // low ≤ n ∧ n ≤ high} where
  encode n := .num n.1 0
  decode
    | .num n 0 => if h : 0 ≤ n ∧ low ≤ n.toNat ∧ n.toNat ≤ high then some ⟨n.toNat, h.2⟩ else none
    | _ => none
  bound := k
  decode_encode n := by simp [n.2.1, n.2.2]
  encode_decode := by
    intro value a h
    split at h
    · split_ifs at h with hn
      obtain rfl := Option.some.inj h
      simp [hn.1]
    · cases h
  printable _ := trivial
  storable n := by
    have hlt : n.1 < 10 ^ k := lt_of_le_of_lt n.2.2 hk.2.1
    have hlength := length_naturalText_le hk.1 hlt
    intro _
    exact le_trans (by simpa using hlength) hk.2.2
  integral _ := rfl
  length_le n := by
    have hlt : n.1 < 10 ^ k := lt_of_le_of_lt n.2.2 hk.2.1
    have hlength := length_naturalText_le hk.1 hlt
    rw [dumps, numberText_zero, if_neg (not_lt.2 (Int.natCast_nonneg n.1))]
    simpa using hlength

/-! ## Values with a check, null and alternatives -/

/-- The values of which another type is a part. -/
def refine (c : Codec α) (check : α → Option β) (forget : β → α)
    (left : ∀ b, check (forget b) = some b) (right : ∀ {a b}, check a = some b → forget b = a) : Codec β where
  encode b := c.encode (forget b)
  decode value := (c.decode value).bind check
  bound := c.bound
  decode_encode b := by rw [c.decode_encode, Option.bind_some, left]
  encode_decode := by
    intro value b h
    obtain ⟨a, ha, hb⟩ := Option.bind_eq_some_iff.1 h
    rw [right hb, c.encode_decode ha]
  printable b := c.printable _
  storable b := c.storable _
  integral b := c.integral _
  length_le b := c.length_le _

def nullable (c : Codec α) (h : ∀ a, c.encode a ≠ .null) : Codec (Option α) where
  encode
    | none => .null
    | some a => c.encode a
  decode value := if value = .null then some none else (c.decode value).map some
  bound := c.bound + 4
  decode_encode
    | none => if_pos rfl
    | some a => by simp only [if_neg (h a), c.decode_encode, Option.map_some]
  encode_decode := by
    intro value a ha
    split_ifs at ha with hnull
    · rw [← Option.some.inj ha, hnull]
    · obtain ⟨b, hb, rfl⟩ := Option.map_eq_some_iff.1 ha
      exact c.encode_decode hb
  printable
    | none => trivial
    | some a => c.printable a
  storable
    | none => trivial
    | some a => c.storable a
  integral
    | none => rfl
    | some a => c.integral a
  length_le
    | none => by simp [dumps]
    | some a => le_trans (c.length_le a) (Nat.le_add_right _ _)

/-- One of two spellings, of which the first reads none of the second. -/
def sum (c : Codec α) (d : Codec β) (h : ∀ b, c.decode (d.encode b) = none) : Codec (α ⊕ β) where
  encode := Sum.elim c.encode d.encode
  decode value :=
    match c.decode value with
    | some a => some (.inl a)
    | none => (d.decode value).map .inr
  bound := c.bound + d.bound
  decode_encode
    | .inl a => by simp [c.decode_encode]
    | .inr b => by simp [h, d.decode_encode]
  encode_decode := by
    intro value x hx
    split at hx
    · rename_i a ha
      obtain rfl := Option.some.inj hx
      exact c.encode_decode ha
    · obtain ⟨b, hb, rfl⟩ := Option.map_eq_some_iff.1 hx
      exact d.encode_decode hb
  printable
    | .inl a => c.printable a
    | .inr b => d.printable b
  storable
    | .inl a => c.storable a
    | .inr b => d.storable b
  integral
    | .inl a => c.integral a
    | .inr b => d.integral b
  length_le
    | .inl a => le_trans (c.length_le a) (Nat.le_add_right _ _)
    | .inr b => le_trans (d.length_le b) (Nat.le_add_left _ _)

/-! ## Lists -/

def decodeItems (c : Codec α) : List Json → Option (List α)
  | [] => some []
  | value :: rest => (c.decode value).bind fun a => (decodeItems c rest).map (a :: ·)

theorem decodeItems_eq_some_iff (c : Codec α) {values : List Json} {items : List α} :
    c.decodeItems values = some items ↔ values = items.map c.encode := by
  induction values generalizing items with
  | nil => cases items <;> simp [decodeItems]
  | cons value rest ih =>
    simp only [decodeItems, Option.bind_eq_some_iff, Option.map_eq_some_iff]
    constructor
    · rintro ⟨a, ha, as, has, rfl⟩
      rw [List.map_cons, c.encode_decode ha, ih.1 has]
    · intro h
      cases items with
      | nil => simp at h
      | cons a as =>
        rw [List.map_cons, List.cons.injEq] at h
        exact ⟨a, c.decode_eq_some_iff.2 h.1, as, ih.2 h.2, rfl⟩

theorem length_dumpsItems_le (c : Codec α) (items : List α) :
    (dumpsItems (items.map c.encode)).length ≤ items.length * (c.bound + 1) + 1 := by
  induction items with
  | nil => simp [dumpsItems]
  | cons a items ih =>
    have ha := c.length_le a
    cases items with
    | nil =>
      simp only [List.map_cons, List.map_nil, dumpsItems, List.length_append, List.length_cons, List.length_nil]
      omega
    | cons b items =>
      simp only [List.map_cons, dumpsItems, List.length_append, List.length_cons] at ih ⊢
      rw [Nat.succ_mul]
      omega

theorem length_dumps_arr_le (c : Codec α) {items : List α} {high : ℕ} (h : items.length ≤ high) :
    (dumps (.arr (items.map c.encode))).length ≤ high * (c.bound + 1) + 2 := by
  have hle := c.length_dumpsItems_le items
  have hmul : items.length * (c.bound + 1) ≤ high * (c.bound + 1) := Nat.mul_le_mul_right _ h
  rw [dumps, List.length_cons]
  omega

def list (c : Codec α) (low high : ℕ) : Codec {items : List α // low ≤ items.length ∧ items.length ≤ high} where
  encode items := .arr (items.1.map c.encode)
  decode
    | .arr values => (c.decodeItems values).bind fun items =>
      if h : low ≤ items.length ∧ items.length ≤ high then some ⟨items, h⟩ else none
    | _ => none
  bound := high * (c.bound + 1) + 2
  decode_encode items := by
    simp only [c.decodeItems_eq_some_iff.2 rfl, Option.bind_some, dif_pos items.2]
  encode_decode := by
    intro value items h
    cases value with
    | arr values =>
      obtain ⟨decoded, hdecoded, h⟩ := Option.bind_eq_some_iff.1 h
      split_ifs at h
      rw [← Option.some.inj h, c.decodeItems_eq_some_iff.1 hdecoded]
    | _ => cases h
  printable items := by
    refine printableItems_iff.2 fun x hx => ?_
    obtain ⟨a, -, rfl⟩ := List.mem_map.1 hx
    exact c.printable a
  storable items := by
    refine storableItems_iff.2 fun x hx => ?_
    obtain ⟨a, -, rfl⟩ := List.mem_map.1 hx
    exact c.storable a
  integral items := by
    have h : ∀ xs : List α, integralItems (xs.map c.encode) = true := by
      intro xs
      induction xs with
      | nil => rfl
      | cons a xs ih => rw [List.map_cons, integralItems, c.integral, ih]; rfl
    exact h items.1
  length_le items := c.length_dumps_arr_le items.2.2

end Codec

/-! ## Records -/

namespace Fields

variable {α β : Type}

def nil : Fields Unit where
  keys := []
  encode _ := []
  decode
    | [] => some ()
    | _ => none
  bound := 1
  keys_encode _ := rfl
  decode_encode _ := rfl
  encode_decode := by
    intro members a h
    cases members with
    | nil => rfl
    | cons _ _ => cases h
  printable _ := trivial
  storable _ := trivial
  integral _ := rfl
  length_le _ := by simp [dumpsMembers]

theorem length_dumpsMembers_cons_le (key : String) (value : Json) (rest : List (String × Json)) :
    (dumpsMembers ((key, value) :: rest)).length ≤
      (dumpsString key.toList).length + (dumps value).length + (dumpsMembers rest).length + 2 := by
  cases rest with
  | nil =>
    simp only [dumpsMembers, List.length_append, List.length_cons, List.length_nil]
    omega
  | cons m rest =>
    simp only [dumpsMembers, List.length_append, List.length_cons]
    omega

def cons (key : String) (hkey : PrintableText key) (c : Codec α) (f : Fields β) : Fields (α × β) where
  keys := key :: f.keys
  encode x := (key, c.encode x.1) :: f.encode x.2
  decode
    | (k, value) :: rest =>
      if k = key then (c.decode value).bind fun a => (f.decode rest).map fun b => (a, b) else none
    | [] => none
  bound := 2 * key.length + 2 + c.bound + f.bound + 2
  keys_encode x := by rw [List.map_cons, f.keys_encode]
  decode_encode x := by simp [c.decode_encode, f.decode_encode]
  encode_decode := by
    intro members x h
    cases members with
    | nil => cases h
    | cons m rest =>
      obtain ⟨k, value⟩ := m
      simp only [Option.ite_none_right_eq_some, Option.bind_eq_some_iff, Option.map_eq_some_iff] at h
      obtain ⟨rfl, a, ha, b, hb, rfl⟩ := h
      rw [c.encode_decode ha, f.encode_decode hb]
  printable x := ⟨hkey, c.printable _, f.printable _⟩
  storable x := ⟨storableText_of_printable hkey, c.storable _, f.storable _⟩
  integral x := by rw [integralMembers, c.integral, f.integral]; rfl
  length_le x := by
    have hcons := length_dumpsMembers_cons_le key (c.encode x.1) (f.encode x.2)
    have hstring := length_dumpsString_le hkey
    have hvalue := c.length_le x.1
    have hrest := f.length_le x.2
    rw [String.length_toList] at hstring
    omega

theorem length_dumps_obj_le (f : Fields α) (a : α) : (dumps (.obj (f.encode a))).length ≤ f.bound + 1 := by
  have := f.length_le a
  rw [dumps, List.length_cons]
  omega

def object (f : Fields α) (h : f.keys.Pairwise (· < ·)) : Codec α where
  encode a := .obj (f.encode a)
  decode
    | .obj members => f.decode members
    | _ => none
  bound := f.bound + 1
  decode_encode := f.decode_encode
  encode_decode := by
    intro value a ha
    cases value with
    | obj members => exact congrArg Json.obj (f.encode_decode ha)
    | _ => cases ha
  printable a := f.printable a
  storable a := ⟨by rw [f.keys_encode]; exact h, f.storable a⟩
  integral a := f.integral a
  length_le := f.length_dumps_obj_le

end Fields

namespace Codec

variable {α β : Type}

/-- The values are spelled as objects with one of the lists of keys. -/
def Shaped (c : Codec α) (shapes : List (List String)) : Prop :=
  ∀ a, ∃ members, c.encode a = .obj members ∧ members.map Prod.fst ∈ shapes

theorem shaped_object (f : Fields α) (h : f.keys.Pairwise (· < ·)) : (f.object h).Shaped [f.keys] :=
  fun a => ⟨f.encode a, rfl, by simp [f.keys_encode]⟩

variable {c : Codec α} {d : Codec β} {shapes : List (List String)}

theorem Shaped.of_encode (h : c.Shaped shapes)
    {forget : β → α} (hencode : ∀ b, d.encode b = c.encode (forget b)) : d.Shaped shapes := by
  intro b
  rw [hencode]
  exact h (forget b)

theorem Shaped.ne_null (h : c.Shaped shapes) (a : α) : c.encode a ≠ .null := by
  obtain ⟨members, hmembers, -⟩ := h a
  rw [hmembers]
  exact Json.noConfusion

theorem Shaped.decode_eq_none {shape : List String}
    (hc : c.Shaped [shape]) (hd : d.Shaped shapes) (hne : shape ∉ shapes) (b : β) : c.decode (d.encode b) = none := by
  cases hdecode : c.decode (d.encode b) with
  | none => rfl
  | some a =>
    obtain ⟨members, hmembers, hshape⟩ := hd b
    obtain ⟨members', hmembers', hshape'⟩ := hc a
    rw [c.encode_decode hdecode, hmembers, Json.obj.injEq] at hmembers'
    rw [← hmembers', List.mem_singleton] at hshape'
    rw [hshape'] at hshape
    exact absurd hshape hne

theorem Shaped.sum {xs ys : List (List String)} (hc : c.Shaped xs) (hd : d.Shaped ys)
    (h : ∀ b, c.decode (d.encode b) = none) : (c.sum d h).Shaped (xs ++ ys) := by
  intro x
  cases x with
  | inl a =>
    obtain ⟨members, hmembers, hmem⟩ := hc a
    exact ⟨members, hmembers, List.mem_append_left _ hmem⟩
  | inr b =>
    obtain ⟨members, hmembers, hmem⟩ := hd b
    exact ⟨members, hmembers, List.mem_append_right _ hmem⟩

end Codec
