import Mathlib.Logic.Basic

/-!
# Three-valued logic

A comparison with a missing value is unknown, and the connectives pass the unknown on unless the other side
decides. A row is selected where the condition is true.
-/

namespace ThreeValued

/-- A truth value; `none` is unknown. -/
abbrev Truth := Option Bool

variable {α : Type}

def relate (p : α → α → Bool) (x y : Option α) : Truth :=
  match x, y with
  | some a, some b => some (p a b)
  | _, _ => none

/-- `x = y` -/
def eq [DecidableEq α] (x y : Option α) : Truth := relate (fun a b => decide (a = b)) x y

/-- `x <> y` -/
def ne [DecidableEq α] (x y : Option α) : Truth := relate (fun a b => decide (a ≠ b)) x y

/-- `x IS DISTINCT FROM y` -/
def distinct [DecidableEq α] (x y : Option α) : Truth := some (decide (x ≠ y))

def test (p : α → Bool) (x : Option α) : Truth := x.map p

def and : Truth → Truth → Truth
  | some false, _ => some false
  | _, some false => some false
  | some true, some true => some true
  | _, _ => none

def or : Truth → Truth → Truth
  | some true, _ => some true
  | _, some true => some true
  | some false, some false => some false
  | _, _ => none

def not (x : Truth) : Truth := x.map (!·)

/-- `x IN (…)`, of the comparisons with the listed values. -/
def anyOf (xs : List Truth) : Truth := xs.foldr or (some false)

/-- Conditions joined by `AND`. -/
def allOf (xs : List Truth) : Truth := xs.foldr and (some true)

def holds (x : Truth) : Prop := x = some true

instance (x : Truth) : Decidable (holds x) := inferInstanceAs (Decidable (_ = _))

@[simp] theorem holds_some_iff {b : Bool} : holds (some b) ↔ b = true := by simp [holds]

@[simp] theorem not_holds_none : ¬ holds none := by simp [holds]

@[simp] theorem eq_some_some [DecidableEq α] (a b : α) : eq (some a) (some b) = some (decide (a = b)) := rfl

@[simp] theorem eq_none_left [DecidableEq α] (y : Option α) : eq none y = none := by cases y <;> rfl

@[simp] theorem eq_none_right [DecidableEq α] (x : Option α) : eq x none = none := by cases x <;> rfl

theorem holds_and_iff {x y : Truth} : holds (and x y) ↔ holds x ∧ holds y := by
  rcases x with _ | _ | _ <;> rcases y with _ | _ | _ <;> decide

theorem holds_or_iff {x y : Truth} : holds (or x y) ↔ holds x ∨ holds y := by
  rcases x with _ | _ | _ <;> rcases y with _ | _ | _ <;> decide

theorem holds_not_iff {x : Truth} : holds (not x) ↔ x = some false := by
  rcases x with _ | _ | _ <;> decide

variable {xs : List Truth}

theorem holds_anyOf_iff : holds (anyOf xs) ↔ ∃ x ∈ xs, holds x := by
  induction xs with
  | nil => simp [anyOf]
  | cons x xs ih =>
    rw [anyOf, List.foldr_cons, holds_or_iff]
    exact (or_congr_right ih).trans (by simp)

theorem not_holds_or_iff {x y : Truth} : ¬ holds (or x y) ↔ ¬ holds x ∧ ¬ holds y := by
  rw [holds_or_iff, not_or]

theorem not_holds_anyOf_iff : ¬ holds (anyOf xs) ↔ ∀ x ∈ xs, ¬ holds x := by
  rw [holds_anyOf_iff]
  simp only [not_exists, not_and]

theorem holds_allOf_iff : holds (allOf xs) ↔ ∀ x ∈ xs, holds x := by
  induction xs with
  | nil => simp [allOf]
  | cons x xs ih =>
    rw [allOf, List.foldr_cons, holds_and_iff, List.forall_mem_cons]
    exact and_congr_right' ih

variable {x y : Option α}

theorem holds_eq_iff [DecidableEq α] : holds (eq x y) ↔ ∃ a, x = some a ∧ y = some a := by
  cases x with
  | none => simp
  | some a => cases y <;> simp [eq_comm]

theorem holds_relate_iff {p : α → α → Bool} : holds (relate p x y) ↔ ∃ a b, x = some a ∧ y = some b ∧ p a b = true := by
  cases x with
  | none => simp [relate]
  | some a => cases y <;> simp [relate]

@[simp] theorem holds_distinct_iff [DecidableEq α] : holds (distinct x y) ↔ x ≠ y := by
  simp [distinct]

theorem holds_ne_iff [DecidableEq α] : holds (ne x y) ↔ ∃ a b, x = some a ∧ y = some b ∧ a ≠ b := by
  rw [ne, holds_relate_iff]
  simp

variable {p : α → Bool}

theorem holds_test_iff : holds (test p x) ↔ ∃ a, x = some a ∧ p a = true := by
  rw [holds, test, Option.map_eq_some_iff]

theorem holds_not_test_iff : holds (not (test p x)) ↔ ∃ a, x = some a ∧ p a = false := by
  rw [holds_not_iff, test, Option.map_eq_some_iff]

end ThreeValued
