import TradingAgent.Lib.DigitText

/-!
# JSON values

A number is a coefficient with the number of its decimal places. The members of an object stand in key order
with each key once (`Json.ofMembers`), so two values without fractional numbers are equal where they are the
same value.
-/

inductive Json
  | null
  | bool (value : Bool)
  | num (coefficient : ℤ) (scale : ℕ)
  | str (text : String)
  | arr (items : List Json)
  | obj (members : List (String × Json))

namespace Json

mutual

def same : Json → Json → Bool
  | null, null => true
  | bool a, bool b => a == b
  | num a m, num b n => decide (a = b) && decide (m = n)
  | str a, str b => decide (a = b)
  | arr xs, arr ys => sameItems xs ys
  | obj xs, obj ys => sameMembers xs ys
  | _, _ => false

def sameItems : List Json → List Json → Bool
  | [], [] => true
  | x :: xs, y :: ys => same x y && sameItems xs ys
  | _, _ => false

def sameMembers : List (String × Json) → List (String × Json) → Bool
  | [], [] => true
  | (k, x) :: xs, (l, y) :: ys => decide (k = l) && same x y && sameMembers xs ys
  | _, _ => false

end

mutual

theorem same_iff : ∀ x y : Json, same x y = true ↔ x = y
  | null, y => by cases y <;> simp [same]
  | bool a, y => by cases y <;> simp [same]
  | num a m, y => by cases y <;> simp [same]
  | str a, y => by cases y <;> simp [same]
  | arr xs, y => by cases y <;> simp [same, sameItems_iff xs]
  | obj xs, y => by cases y <;> simp [same, sameMembers_iff xs]

theorem sameItems_iff : ∀ xs ys : List Json, sameItems xs ys = true ↔ xs = ys
  | [], ys => by cases ys <;> simp [sameItems]
  | x :: xs, ys => by cases ys <;> simp [sameItems, same_iff x, sameItems_iff xs]

theorem sameMembers_iff : ∀ xs ys : List (String × Json), sameMembers xs ys = true ↔ xs = ys
  | [], ys => by cases ys <;> simp [sameMembers]
  | (k, x) :: xs, ys => by
    cases ys with
    | nil => simp [sameMembers]
    | cons y ys => cases y; simp [sameMembers, same_iff x, sameMembers_iff xs, and_assoc]

end

instance : DecidableEq Json := fun x y => decidable_of_iff _ (same_iff x y)

def setMember (key : String) (value : Json) : List (String × Json) → List (String × Json)
  | [] => [(key, value)]
  | (k, v) :: rest =>
    if key = k then (key, value) :: rest
    else if key < k then (key, value) :: (k, v) :: rest
    else (k, v) :: setMember key value rest

/-- The members of an object, of which the last counts where a key is repeated. -/
def ofMembers (members : List (String × Json)) : List (String × Json) :=
  members.foldl (fun acc m => setMember m.1 m.2 acc) []

def object (members : List (String × Json)) : Json := obj (ofMembers members)

def member? (key : String) : List (String × Json) → Option Json
  | [] => none
  | (k, v) :: rest => if k = key then some v else member? key rest

def field? (key : String) : Json → Option Json
  | obj members => member? key members
  | _ => none

def position? (step : String) : Option ℕ :=
  if step ≠ "" ∧ step.toList.all Char.isDigit then some (DigitText.readDigits step.toList) else none

variable {members : List (String × Json)}

theorem member?_eq_some_of_mem_keys {key : String}
    (h : key ∈ members.map Prod.fst) : ∃ value, member? key members = some value := by
  induction members with
  | nil => cases h
  | cons m rest ih =>
    obtain ⟨k, v⟩ := m
    rw [member?]
    split_ifs with hk
    · exact ⟨v, rfl⟩
    · rw [List.map_cons, List.mem_cons] at h
      exact ih (h.resolve_left fun heq => hk heq.symm)

variable {keys : List String}

theorem eq_map_member? (hkeys : members.map Prod.fst = keys)
    (hnodup : keys.Nodup) : members = keys.map fun key => (key, (member? key members).getD null) := by
  subst hkeys
  induction members with
  | nil => rfl
  | cons m rest ih =>
    obtain ⟨k, v⟩ := m
    rw [List.map_cons, List.nodup_cons] at hnodup
    rw [List.map_cons, List.map_cons, member?, if_pos rfl, Option.getD_some]
    congr 1
    have hrest : ∀ key ∈ rest.map Prod.fst, member? key ((k, v) :: rest) = member? key rest := by
      intro key hkey
      rw [member?, if_neg]
      rintro rfl
      exact hnodup.1 hkey
    nth_rewrite 1 [ih hnodup.2]
    exact List.map_congr_left fun key hkey => by rw [hrest key hkey]

theorem eq_of_member? (others : List (String × Json))
    (hkeys : members.map Prod.fst = keys) (hothers : others.map Prod.fst = keys) (hnodup : keys.Nodup)
    (h : ∀ m ∈ others, member? m.1 members = some m.2) : members = others := by
  rw [eq_map_member? hkeys hnodup, ← hothers, List.map_map]
  conv_rhs => rw [← List.map_id others]
  refine List.map_congr_left fun m hm => ?_
  rw [Function.comp_apply, h m hm]
  rfl

def step? (step : String) : Json → Option Json
  | obj members => member? step members
  | arr items => (position? step).bind fun n => items[n]?
  | _ => none

def path? : List String → Json → Option Json
  | [], value => some value
  | step :: rest, value => (step? step value).bind (path? rest)

def keys? : Json → Option (List String)
  | obj members => some (members.map Prod.fst)
  | _ => none

def items? : Json → Option (List Json)
  | arr items => some items
  | _ => none

def without (key : String) : Json → Json
  | obj members => obj (members.filter fun m => m.1 ≠ key)
  | value => value

inductive Kind
  | null
  | boolean
  | number
  | string
  | array
  | object
  deriving DecidableEq

def kind : Json → Kind
  | null => .null
  | bool _ => .boolean
  | num _ _ => .number
  | str _ => .string
  | arr _ => .array
  | obj _ => .object

@[simp] theorem kind_null : null.kind = .null := rfl

@[simp] theorem kind_bool (b : Bool) : (bool b).kind = .boolean := rfl

@[simp] theorem kind_num (n : ℤ) (k : ℕ) : (num n k).kind = .number := rfl

@[simp] theorem kind_str (s : String) : (str s).kind = .string := rfl

@[simp] theorem kind_arr (xs : List Json) : (arr xs).kind = .array := rfl

@[simp] theorem kind_obj (xs : List (String × Json)) : (obj xs).kind = .object := rfl

variable {value : Json}

theorem kind_eq_string_iff : value.kind = .string ↔ ∃ text, value = str text := by
  cases value <;> simp

theorem kind_eq_number_iff : value.kind = .number ↔ ∃ n k, value = num n k := by
  cases value <;> simp

theorem kind_eq_array_iff : value.kind = .array ↔ ∃ items, value = arr items := by
  cases value <;> simp

theorem kind_eq_object_iff : value.kind = .object ↔ ∃ members, value = obj members := by
  cases value <;> simp

theorem kind_eq_null_iff : value.kind = .null ↔ value = null := by
  cases value <;> simp

end Json
