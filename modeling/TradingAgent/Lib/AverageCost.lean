import Mathlib.Algebra.Order.Field.Basic
import Mathlib.Algebra.Order.AbsoluteValue.Basic
import Mathlib.Tactic.Linarith
import Mathlib.Tactic.FieldSimp
import Mathlib.Tactic.Ring

/-!
# Exact average-cost accounting

An account holds a signed quantity, the cost basis of the open lot and the realized profit, all exact. A trade first
closes the overlap of an opposite lot at the average cost and opens the rest at its own price.
-/

namespace AverageCost

variable {𝕜 : Type*}

/-- One trade: its signed quantity (positive for a purchase), price and contract multiplier. -/
structure Trade (𝕜 : Type*) where
  (signed price multiplier : 𝕜)

/-- The state of one account: signed quantity, cost basis of the open lot, realized profit. -/
@[ext] structure Account (𝕜 : Type*) where
  quantity : 𝕜
  basis : 𝕜
  realized : 𝕜

variable [Field 𝕜] [LinearOrder 𝕜]

namespace Account

def flat : Account 𝕜 := ⟨0, 0, 0⟩

def opened (quantity average : 𝕜) : Account 𝕜 := ⟨quantity, |quantity| * average, 0⟩

def average (a : Account 𝕜) : 𝕜 := a.basis / |a.quantity|

def closed (a : Account 𝕜) (t : Trade 𝕜) : 𝕜 :=
  if a.quantity * t.signed < 0 then min |a.quantity| |t.signed| else 0

/-- Profit realized by a trade: the closed part at the trade price against its average cost. -/
def profit (a : Account 𝕜) (t : Trade 𝕜) : 𝕜 :=
  (if 0 < a.quantity then t.price - a.average else a.average - t.price) * a.closed t * t.multiplier

def book (a : Account 𝕜) (t : Trade 𝕜) : Account 𝕜 where
  quantity := a.quantity + t.signed
  basis := (|a.quantity| - a.closed t) * a.average + (|t.signed| - a.closed t) * t.price
  realized := a.realized + a.profit t

def bookAll (a : Account 𝕜) (ts : List (Trade 𝕜)) : Account 𝕜 := ts.foldl book a

variable (a : Account 𝕜)
include a

@[simp] theorem bookAll_nil : a.bookAll [] = a := rfl

@[simp] theorem bookAll_concat (ts : List (Trade 𝕜)) (t : Trade 𝕜) : a.bookAll (ts ++ [t]) = (a.bookAll ts).book t := by
  simp [bookAll]

variable (t : Trade 𝕜)
include t

@[simp] theorem book_quantity : (a.book t).quantity = a.quantity + t.signed := rfl

@[simp] theorem book_realized : (a.book t).realized = a.realized + a.profit t := rfl

theorem profit_of_not_opposite (h : ¬ a.quantity * t.signed < 0) : a.profit t = 0 := by
  simp [profit, closed, h]

theorem profit_of_opposite (h : a.quantity * t.signed < 0) :
    a.profit t = (if 0 < a.quantity then t.price - a.average else a.average - t.price) *
      min |a.quantity| |t.signed| * t.multiplier := by
  simp [profit, closed, h]

variable [IsStrictOrderedRing 𝕜]

theorem book_basis_of_residual_zero (h : a.quantity + t.signed = 0) : (a.book t).basis = 0 := by
  have hs : t.signed = -a.quantity := by linarith
  by_cases hq : a.quantity = 0
  · simp [book, closed, hs, hq]
  · simp [book, closed, hs, hq]

theorem book_basis_of_new_lot (h : a.quantity = 0 ∨ a.quantity * (a.quantity + t.signed) < 0) :
    (a.book t).basis = |a.quantity + t.signed| * t.price := by
  rcases h with h | h
  · simp [book, closed, h]
  · have hneg : a.quantity * t.signed < 0 := by
      have : 0 ≤ a.quantity * a.quantity := mul_self_nonneg _
      rw [mul_add] at h
      linarith
    have habs : |a.quantity + t.signed| = |t.signed| - |a.quantity| ∧ |a.quantity| ≤ |t.signed| := by
      rcases mul_neg_iff.1 h with ⟨h1, h2⟩ | ⟨h1, h2⟩
      · rw [abs_of_pos h1, abs_of_neg h2, abs_of_neg (by linarith : t.signed < 0)]
        constructor <;> linarith
      · rw [abs_of_neg h1, abs_of_pos h2, abs_of_pos (by linarith : 0 < t.signed)]
        constructor <;> linarith
    simp [book, closed, hneg, habs.1, min_eq_left habs.2]

theorem book_basis_of_increase (h : 0 < a.quantity * t.signed) : (a.book t).basis = a.basis + |t.signed| * t.price := by
  have hq : |a.quantity| ≠ 0 := by
    rw [abs_ne_zero]
    rintro h0
    simp [h0] at h
  simp only [book, closed, if_neg h.not_gt, sub_zero, average]
  rw [mul_div_cancel₀ _ hq]

theorem book_basis_of_reduce (h : a.quantity * t.signed < 0) (hr : 0 ≤ a.quantity * (a.quantity + t.signed)) :
    (a.book t).basis = a.basis * |a.quantity + t.signed| / |a.quantity| := by
  have habs : |a.quantity + t.signed| = |a.quantity| - |t.signed| ∧ |t.signed| ≤ |a.quantity| := by
    rcases mul_neg_iff.1 h with ⟨h1, h2⟩ | ⟨h1, h2⟩
    · have := nonneg_of_mul_nonneg_right hr h1
      rw [abs_of_pos h1, abs_of_neg h2, abs_of_nonneg this]
      constructor <;> linarith
    · have := nonpos_of_mul_nonneg_right hr h1
      rw [abs_of_neg h1, abs_of_pos h2, abs_of_nonpos this]
      constructor <;> linarith
  simp only [book, closed, if_pos h, min_eq_right habs.2, habs.1, average]
  ring

end Account

end AverageCost
