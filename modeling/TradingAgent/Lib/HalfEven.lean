import Mathlib.Data.Rat.Floor

/-!
# Rounding to the nearest integer, ties to even

`halfEven x` is the integer nearest to `x`; when `x` lies half-way between two integers it is the even
one. `halfEven_eq_iff` characterises it, and `halfEvenMagnitude` is the usual way to compute it from
the quotient and the remainder of the magnitude.
-/

def halfEven (x : ℚ) : ℤ :=
  if x - ⌊x⌋ < 1 / 2 then ⌊x⌋
  else if 1 / 2 < x - ⌊x⌋ then ⌊x⌋ + 1
  else if Even ⌊x⌋ then ⌊x⌋ else ⌊x⌋ + 1

/-- `n` is a nearest integer to `x`, and even when `x` is half-way. -/
def IsHalfEven (x : ℚ) (n : ℤ) : Prop :=
  |x - n| ≤ 1 / 2 ∧ (|x - n| = 1 / 2 → Even n)

theorem isHalfEven_halfEven (x : ℚ) : IsHalfEven x (halfEven x) := by
  have h0 : 0 ≤ x - ⌊x⌋ := sub_nonneg.2 (Int.floor_le x)
  have h1 : x - ⌊x⌋ < 1 := by linarith [Int.lt_floor_add_one x]
  unfold halfEven IsHalfEven
  split_ifs with hlt hgt he
  · rw [abs_of_nonneg h0]
    exact ⟨hlt.le, fun h => absurd h hlt.ne⟩
  · push_cast
    rw [abs_of_nonpos (by linarith)]
    exact ⟨by linarith, fun h => by linarith⟩
  · rw [abs_of_nonneg h0]
    exact ⟨not_lt.1 hgt, fun _ => he⟩
  · push_cast
    rw [abs_of_nonpos (by linarith)]
    exact ⟨by linarith, fun _ => Int.even_add_one.2 he⟩

theorem IsHalfEven.unique {x : ℚ} {m n : ℤ} (hm : IsHalfEven x m) (hn : IsHalfEven x n) : m = n := by
  have hdist : |(m : ℚ) - n| ≤ 1 := by
    calc |(m : ℚ) - n| = |(x - n) - (x - m)| := by ring_nf
      _ ≤ |x - n| + |x - m| := abs_sub _ _
      _ ≤ 1 / 2 + 1 / 2 := add_le_add hn.1 hm.1
      _ = 1 := by norm_num
  have hz : |m - n| ≤ 1 := by exact_mod_cast hdist
  rcases Int.abs_le_one_iff.1 hz with h | h | h
  · omega
  · exact absurd (parity_of_adjacent hm hn h) (by simp)
  · exact absurd (parity_of_adjacent hn hm (by omega)) (by simp)
where
  parity_of_adjacent {x : ℚ} {m n : ℤ} (hm : IsHalfEven x m) (hn : IsHalfEven x n)
      (h : m - n = 1) : False := by
    have hm' : m = n + 1 := by omega
    subst hm'
    have h1 := abs_le.1 hm.1
    have h2 := abs_le.1 hn.1
    push_cast at h1
    have hx : x - n = 1 / 2 := by linarith
    have hen : Even n := hn.2 (by rw [hx]; norm_num)
    have hem : Even (n + 1) := hm.2 (by push_cast; rw [show x - (n + 1) = -(1 / 2) by linarith]; norm_num)
    exact (Int.even_add_one.1 hem) hen

theorem halfEven_eq_iff {x : ℚ} {n : ℤ} : halfEven x = n ↔ IsHalfEven x n :=
  ⟨fun h => h ▸ isHalfEven_halfEven x, fun h => (isHalfEven_halfEven x).unique h⟩

@[simp] theorem halfEven_intCast (n : ℤ) : halfEven (n : ℚ) = n := by
  rw [halfEven_eq_iff]
  constructor
  · norm_num
  · intro h
    norm_num at h

@[simp] theorem halfEven_zero : halfEven 0 = 0 := by
  simpa using halfEven_intCast 0

theorem halfEven_neg (x : ℚ) : halfEven (-x) = -halfEven x := by
  rw [halfEven_eq_iff]
  obtain ⟨h1, h2⟩ := isHalfEven_halfEven x
  have habs : |-x - ((-halfEven x : ℤ) : ℚ)| = |x - halfEven x| := by
    rw [← abs_neg (x - halfEven x)]
    congr 1
    push_cast
    ring
  refine ⟨by rw [habs]; exact h1, fun h => ?_⟩
  rw [habs] at h
  exact (h2 h).neg

theorem halfEven_mono {x y : ℚ} (h : x ≤ y) : halfEven x ≤ halfEven y := by
  by_contra hlt
  have hx := isHalfEven_halfEven x
  have hy := isHalfEven_halfEven y
  have hle : (halfEven y : ℚ) + 1 ≤ halfEven x := by exact_mod_cast not_le.1 hlt
  -- the two can only cross at a value half-way between them
  have hsame : x = y := le_antisymm h (by linarith [(abs_le.1 hx.1).1, (abs_le.1 hy.1).2])
  exact hlt (hsame ▸ le_refl _)

def halfEvenMagnitude (numerator denominator : ℕ) : ℕ :=
  let quotient := numerator / denominator
  let doubled := numerator % denominator * 2
  if denominator < doubled ∨ (doubled = denominator ∧ quotient % 2 ≠ 0) then quotient + 1 else quotient

theorem halfEven_natCast_div (a b : ℕ) (hb : 0 < b) : halfEven ((a : ℚ) / b) = (halfEvenMagnitude a b : ℤ) := by
  have hb' : (0 : ℚ) < b := by exact_mod_cast hb
  have hdiv : (a : ℚ) / b = (a / b : ℕ) + ((a % b : ℕ) : ℚ) / b := by
    have h : (a : ℚ) = b * (a / b : ℕ) + (a % b : ℕ) := by exact_mod_cast (Nat.div_add_mod a b).symm
    field_simp
    linarith
  have hr : ((a % b : ℕ) : ℚ) < b := by exact_mod_cast Nat.mod_lt a hb
  have hr0 : (0 : ℚ) ≤ ((a % b : ℕ) : ℚ) := by positivity
  rw [halfEven_eq_iff]
  unfold halfEvenMagnitude IsHalfEven
  simp only
  rw [hdiv]
  split_ifs with h
  · have hge : b ≤ a % b * 2 := by omega
    have hge' : (b : ℚ) ≤ ((a % b : ℕ) : ℚ) * 2 := by exact_mod_cast hge
    have hlow : (1 : ℚ) / 2 ≤ ((a % b : ℕ) : ℚ) / b := by
      rw [le_div_iff₀ hb']
      linarith
    have hhigh : ((a % b : ℕ) : ℚ) / b < 1 := by rwa [div_lt_one hb']
    rw [Int.cast_natCast, Nat.cast_succ]
    rw [abs_of_nonpos (by linarith)]
    refine ⟨by linarith, fun heq => ?_⟩
    have htie : ((a % b : ℕ) : ℚ) / b = 1 / 2 := by linarith
    have hdbl : a % b * 2 = b := by
      rw [div_eq_div_iff hb'.ne' two_ne_zero] at htie
      have : ((a % b * 2 : ℕ) : ℚ) = (b : ℕ) := by push_cast; linarith
      exact_mod_cast this
    have hodd : a / b % 2 ≠ 0 := by
      rcases h with h | h
      · omega
      · exact h.2
    have : Even (a / b + 1) := Nat.even_add_one.2 (fun he => hodd (Nat.even_iff.1 he))
    exact_mod_cast this
  · have hle : a % b * 2 ≤ b := by omega
    have hle' : ((a % b : ℕ) : ℚ) * 2 ≤ b := by exact_mod_cast hle
    have hup : ((a % b : ℕ) : ℚ) / b ≤ 1 / 2 := by
      rw [div_le_iff₀ hb']
      linarith
    rw [Int.cast_natCast, add_sub_cancel_left, abs_of_nonneg (by positivity)]
    refine ⟨hup, fun heq => ?_⟩
    have hdbl : a % b * 2 = b := by
      rw [div_eq_div_iff hb'.ne' two_ne_zero] at heq
      have : ((a % b * 2 : ℕ) : ℚ) = (b : ℕ) := by push_cast; linarith
      exact_mod_cast this
    have heven : a / b % 2 = 0 := by
      by_contra hne
      exact h (Or.inr ⟨hdbl, hne⟩)
    exact_mod_cast Nat.even_iff.2 heven

theorem halfEven_eq_sign_mul (x : ℚ) :
    ((halfEven x : ℤ) : ℚ) = (if x < 0 then -1 else 1) * (halfEvenMagnitude x.num.natAbs x.den : ℕ) := by
  have hden : 0 < x.den := x.den_pos
  have habs : ((x.num.natAbs : ℕ) : ℚ) / x.den = |x| := by
    rw [Nat.cast_natAbs, Int.cast_abs, ← Nat.abs_cast x.den, ← abs_div, Rat.num_div_den]
  have h := halfEven_natCast_div x.num.natAbs x.den hden
  rw [habs] at h
  split_ifs with hx
  · rw [abs_of_neg hx, halfEven_neg] at h
    have : halfEven x = -(halfEvenMagnitude x.num.natAbs x.den : ℤ) := by omega
    rw [this]
    push_cast
    ring
  · rw [abs_of_nonneg (not_lt.1 hx)] at h
    rw [h]
    push_cast
    ring
