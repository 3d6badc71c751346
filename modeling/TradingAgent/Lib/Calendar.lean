import Mathlib.Tactic.IntervalCases

/-!
# The Gregorian calendar

Days are counted from the first of January of year 1, which is day zero. `daysOfCivil` counts the days before a date
and `civilOfDays` finds the date of a day.
-/

namespace Calendar

def isLeap (year : ℕ) : Bool := year % 4 = 0 && (year % 100 ≠ 0 || year % 400 = 0)

def monthLength (leap : Bool) (month : ℕ) : ℕ :=
  if month = 2 then if leap then 29 else 28
  else if month = 4 ∨ month = 6 ∨ month = 9 ∨ month = 11 then 30 else 31

def daysInMonth (year month : ℕ) : ℕ := monthLength (isLeap year) month

def daysBeforeMonth (leap : Bool) : ℕ → ℕ
  | 0 => 0
  | 1 => 0
  | month + 2 => daysBeforeMonth leap (month + 1) + monthLength leap (month + 1)

def daysBeforeYear (year : ℕ) : ℕ := (year - 1) * 365 + (year - 1) / 4 - (year - 1) / 100 + (year - 1) / 400

def daysOfCivil (year month day : ℕ) : ℕ := daysBeforeYear year + daysBeforeMonth (isLeap year) month + (day - 1)

def monthAndDay (leap : Bool) (n : ℕ) : ℕ × ℕ :=
  let month := (n + 50) / 32
  -- the estimate is right or one too large
  let month := if n < daysBeforeMonth leap month then month - 1 else month
  (month, n - daysBeforeMonth leap month + 1)

def civilOfDays (n : ℕ) : ℕ × ℕ × ℕ :=
  let n400 := n / 146097
  let n := n % 146097
  let n100 := n / 36524
  let n := n % 36524
  let n4 := n / 1461
  let n := n % 1461
  let n1 := n / 365
  let n := n % 365
  let year := n400 * 400 + n100 * 100 + n4 * 4 + n1 + 1
  -- the last day of a leap year at the end of its cycle
  if n1 = 4 ∨ n100 = 4 then (year - 1, 12, 31)
  else (year, monthAndDay (n1 = 3 && (n4 ≠ 24 || n100 = 3)) n)

theorem monthAndDay_spec : ∀ leap : Bool, ∀ n < 365,
    1 ≤ (monthAndDay leap n).1 ∧ (monthAndDay leap n).1 ≤ 12 ∧ 1 ≤ (monthAndDay leap n).2 ∧
      (monthAndDay leap n).2 ≤ monthLength leap (monthAndDay leap n).1 ∧
      daysBeforeMonth leap (monthAndDay leap n).1 + ((monthAndDay leap n).2 - 1) = n := by
  decide +kernel

structure Parts (n a b c d r : ℕ) : Prop where
  sum : n = 146097 * a + 36524 * b + 1461 * c + 365 * d + r
  centuries : b ≤ 3
  fours : c ≤ 24
  years : d ≤ 3
  days : r < 365

variable {n a b c d r : ℕ}

theorem Parts.daysBeforeYear_eq (h : Parts n a b c d r) :
    daysBeforeYear (a * 400 + b * 100 + c * 4 + d + 1) + r = n := by
  obtain ⟨rfl, hb, hc, hd, hr⟩ := h
  unfold daysBeforeYear
  have h4 : (a * 400 + b * 100 + c * 4 + d + 1 - 1) / 4 = a * 100 + b * 25 + c := by omega
  have h100 : (a * 400 + b * 100 + c * 4 + d + 1 - 1) / 100 = a * 4 + b := by omega
  have h400 : (a * 400 + b * 100 + c * 4 + d + 1 - 1) / 400 = a := by omega
  rw [h4, h100, h400]
  omega

theorem Parts.isLeap_eq (h : Parts n a b c d r) :
    isLeap (a * 400 + b * 100 + c * 4 + d + 1) = (d = 3 && (c ≠ 24 || b = 3) : Bool) := by
  obtain ⟨-, hb, hc, hd, -⟩ := h
  have h4 : (a * 400 + b * 100 + c * 4 + d + 1) % 4 = 0 ↔ d = 3 := by omega
  have h100 : (a * 400 + b * 100 + c * 4 + d + 1) % 100 = 0 ↔ d = 3 ∧ c = 24 := by omega
  have h400 : (a * 400 + b * 100 + c * 4 + d + 1) % 400 = 0 ↔ d = 3 ∧ c = 24 ∧ b = 3 := by omega
  unfold isLeap
  simp only [ne_eq, h4, h100, h400]
  by_cases hd3 : d = 3
  · by_cases hc24 : c = 24 <;> simp [hd3, hc24]
  · simp [hd3]

theorem isLeap_cycle (a : ℕ) : isLeap (a * 400 + 400) = true := by
  simp only [isLeap, ne_eq, Bool.and_eq_true, Bool.or_eq_true, decide_eq_true_eq]
  omega

theorem daysBeforeYear_cycle (a : ℕ) : daysBeforeYear (a * 400 + 400) = a * 146097 + 145731 := by
  unfold daysBeforeYear
  omega

theorem isLeap_fourth (hc : c ≤ 23) : isLeap (a * 400 + b * 100 + c * 4 + 4) = true := by
  simp only [isLeap, ne_eq, Bool.and_eq_true, Bool.or_eq_true, decide_eq_true_eq]
  omega

theorem daysBeforeYear_fourth (hb : b ≤ 3) (hc : c ≤ 23) :
    daysBeforeYear (a * 400 + b * 100 + c * 4 + 4) = a * 146097 + b * 36524 + c * 1461 + 1095 := by
  unfold daysBeforeYear
  have h4 : (a * 400 + b * 100 + c * 4 + 4 - 1) / 4 = a * 100 + b * 25 + c := by omega
  have h100 : (a * 400 + b * 100 + c * 4 + 4 - 1) / 100 = a * 4 + b := by omega
  have h400 : (a * 400 + b * 100 + c * 4 + 4 - 1) / 400 = a := by omega
  omega

theorem civilOfDays_cases (n : ℕ) : (∃ a b c d r, Parts n a b c d r ∧
      civilOfDays n = (a * 400 + b * 100 + c * 4 + d + 1, monthAndDay (d = 3 && (c ≠ 24 || b = 3)) r)) ∨
    ∃ year, isLeap year = true ∧ 1 ≤ year ∧ n = daysBeforeYear year + 365 ∧ civilOfDays n = (year, 12, 31) := by
  by_cases hlast : n % 146097 % 36524 % 1461 / 365 = 4 ∨ n % 146097 / 36524 = 4
  · right
    have hcivil : civilOfDays n = (n / 146097 * 400 + n % 146097 / 36524 * 100 + n % 146097 % 36524 / 1461 * 4 +
        n % 146097 % 36524 % 1461 / 365, 12, 31) := by
      unfold civilOfDays
      simp only [if_pos hlast, Nat.add_sub_cancel]
    by_cases hcentury : n % 146097 / 36524 = 4
    · have hyear : n / 146097 * 400 + n % 146097 / 36524 * 100 + n % 146097 % 36524 / 1461 * 4 +
          n % 146097 % 36524 % 1461 / 365 = n / 146097 * 400 + 400 := by omega
      rw [hyear] at hcivil
      exact ⟨_, isLeap_cycle _, by omega, by rw [daysBeforeYear_cycle]; omega, hcivil⟩
    · have hyear : n / 146097 * 400 + n % 146097 / 36524 * 100 + n % 146097 % 36524 / 1461 * 4 +
          n % 146097 % 36524 % 1461 / 365 =
          n / 146097 * 400 + n % 146097 / 36524 * 100 + n % 146097 % 36524 / 1461 * 4 + 4 := by omega
      have hb : n % 146097 / 36524 ≤ 3 := by omega
      have hc : n % 146097 % 36524 / 1461 ≤ 23 := by omega
      rw [hyear] at hcivil
      exact ⟨_, isLeap_fourth hc, by omega, by rw [daysBeforeYear_fourth hb hc]; omega, hcivil⟩
  · left
    refine ⟨n / 146097, n % 146097 / 36524, n % 146097 % 36524 / 1461, n % 146097 % 36524 % 1461 / 365,
      n % 146097 % 36524 % 1461 % 365, ⟨?_, ?_, ?_, ?_, ?_⟩, ?_⟩
    · omega
    · omega
    · omega
    · omega
    · omega
    · unfold civilOfDays
      simp only [if_neg hlast]

theorem civilOfDays_valid (n : ℕ) :
    1 ≤ (civilOfDays n).1 ∧ 1 ≤ (civilOfDays n).2.1 ∧ (civilOfDays n).2.1 ≤ 12 ∧ 1 ≤ (civilOfDays n).2.2 ∧
      (civilOfDays n).2.2 ≤ monthLength (isLeap (civilOfDays n).1) (civilOfDays n).2.1 := by
  obtain ⟨a, b, c, d, r, hparts, heq⟩ | ⟨year, hleap, hyear, -, heq⟩ := civilOfDays_cases n
  · have hmonth := monthAndDay_spec (d = 3 && (c ≠ 24 || b = 3)) r hparts.days
    rw [heq]
    simp only [hparts.isLeap_eq]
    exact ⟨by omega, hmonth.1, hmonth.2.1, hmonth.2.2.1, hmonth.2.2.2.1⟩
  · rw [heq]
    simp [hyear, monthLength]

theorem daysOfCivil_civilOfDays (n : ℕ) :
    daysOfCivil (civilOfDays n).1 (civilOfDays n).2.1 (civilOfDays n).2.2 = n := by
  obtain ⟨a, b, c, d, r, hparts, heq⟩ | ⟨year, hleap, hyear, hn, heq⟩ := civilOfDays_cases n
  · have hmonth := monthAndDay_spec (d = 3 && (c ≠ 24 || b = 3)) r hparts.days
    have hyear := hparts.daysBeforeYear_eq
    rw [heq]
    simp only [daysOfCivil, hparts.isLeap_eq]
    omega
  · rw [heq]
    simp only [daysOfCivil, hleap]
    have hdecember : daysBeforeMonth true 12 = 335 := by decide
    omega

theorem civilOfDays_year_le {n : ℕ} (h : n < 3652059) : (civilOfDays n).1 ≤ 9999 := by
  have hday := daysOfCivil_civilOfDays n
  by_contra hyear
  have hbefore : 3652059 ≤ daysBeforeYear (civilOfDays n).1 := by
    unfold daysBeforeYear
    omega
  unfold daysOfCivil at hday
  omega

theorem dayOfYear_lt : ∀ leap : Bool, ∀ month < 13, ∀ day < 32, day ≤ monthLength leap month →
    daysBeforeMonth leap month + (day - 1) < 365 + leap.toNat := by
  decide +kernel

theorem monthAndDay_daysBeforeMonth : ∀ leap : Bool, ∀ month < 13, ∀ day < 32,
    1 ≤ month ∧ 1 ≤ day ∧ day ≤ monthLength leap month →
      (monthAndDay leap (daysBeforeMonth leap month + (day - 1))).1 = month ∧
        (monthAndDay leap (daysBeforeMonth leap month + (day - 1))).2 = day := by
  decide +kernel

variable {year : ℕ}

theorem daysBeforeYear_succ (h : 1 ≤ year) :
    daysBeforeYear (year + 1) = daysBeforeYear year + 365 + (isLeap year).toNat := by
  have h4 : year / 4 = (year - 1) / 4 + (decide (year % 4 = 0)).toNat := by
    by_cases hmod : year % 4 = 0 <;> simp only [hmod, decide_true, decide_false, Bool.toNat_true, Bool.toNat_false] <;>
      omega
  have h100 : year / 100 = (year - 1) / 100 + (decide (year % 100 = 0)).toNat := by
    by_cases hmod : year % 100 = 0 <;>
      simp only [hmod, decide_true, decide_false, Bool.toNat_true, Bool.toNat_false] <;> omega
  have h400 : year / 400 = (year - 1) / 400 + (decide (year % 400 = 0)).toNat := by
    by_cases hmod : year % 400 = 0 <;>
      simp only [hmod, decide_true, decide_false, Bool.toNat_true, Bool.toNat_false] <;> omega
  have hleap : (isLeap year).toNat + (decide (year % 100 = 0)).toNat =
      (decide (year % 4 = 0)).toNat + (decide (year % 400 = 0)).toNat := by
    unfold isLeap
    by_cases hm4 : year % 4 = 0
    · by_cases hm100 : year % 100 = 0 <;> by_cases hm400 : year % 400 = 0 <;> simp [hm4, hm100, hm400]
      omega
    · have hm100 : ¬ year % 100 = 0 := by omega
      have hm400 : ¬ year % 400 = 0 := by omega
      simp [hm4, hm100, hm400]
  unfold daysBeforeYear
  rw [Nat.add_sub_cancel]
  omega

theorem daysBeforeYear_mono {later : ℕ} (h : year ≤ later) : daysBeforeYear year ≤ daysBeforeYear later := by
  induction later, h using Nat.le_induction with
  | base => exact le_rfl
  | succ later hle ih =>
    refine le_trans ih ?_
    by_cases hpos : 1 ≤ later
    · have := daysBeforeYear_succ hpos
      omega
    · obtain rfl : later = 0 := by omega
      decide

variable {month day : ℕ}

theorem daysOfCivil_lt (hyear : year ≤ 9999) (hmonth : month ≤ 12)
    (hday : day ≤ monthLength (isLeap year) month) : daysOfCivil year month day < 3652059 := by
  have hlength : monthLength (isLeap year) month ≤ 31 := by
    unfold monthLength
    split_ifs <;> omega
  have hlt := dayOfYear_lt (isLeap year) month (by omega) day (by omega) hday
  unfold daysOfCivil
  cases hleap : isLeap year with
  | false =>
    rw [hleap] at hlt
    simp only [Bool.toNat_false] at hlt
    unfold daysBeforeYear
    omega
  | true =>
    rw [hleap] at hlt
    simp only [isLeap, ne_eq, Bool.and_eq_true, Bool.or_eq_true, decide_eq_true_eq] at hleap
    simp only [Bool.toNat_true] at hlt
    unfold daysBeforeYear
    omega

theorem year_le_of_daysOfCivil_eq {year' month' day' : ℕ} (hyear : 1 ≤ year) (hmonth : month ≤ 12)
    (hday : day ≤ monthLength (isLeap year) month) (h : daysOfCivil year month day = daysOfCivil year' month' day') :
    year' ≤ year := by
  by_contra hlt
  have hlength : monthLength (isLeap year) month ≤ 31 := by
    unfold monthLength
    split_ifs <;> omega
  have hof := dayOfYear_lt (isLeap year) month (by omega) day (by omega) hday
  have hsucc := daysBeforeYear_succ hyear
  have hmono := daysBeforeYear_mono (show year + 1 ≤ year' by omega)
  unfold daysOfCivil at h
  omega

theorem civilOfDays_daysOfCivil (hyear : 1 ≤ year) (hmonth : 1 ≤ month) (hmonth' : month ≤ 12)
    (hday : 1 ≤ day) (hday' : day ≤ monthLength (isLeap year) month) :
    civilOfDays (daysOfCivil year month day) = (year, month, day) := by
  have hvalid := civilOfDays_valid (daysOfCivil year month day)
  have hdays := daysOfCivil_civilOfDays (daysOfCivil year month day)
  generalize civilOfDays (daysOfCivil year month day) = date at hvalid hdays ⊢
  obtain ⟨year', month', day'⟩ := date
  have hvalid : 1 ≤ year' ∧ 1 ≤ month' ∧ month' ≤ 12 ∧ 1 ≤ day' ∧ day' ≤ monthLength (isLeap year') month' := hvalid
  have hdays : daysOfCivil year' month' day' = daysOfCivil year month day := hdays
  obtain ⟨hy, hm, hm', hd, hd'⟩ := hvalid
  have hle := year_le_of_daysOfCivil_eq hyear hmonth' hday' hdays.symm
  have hge := year_le_of_daysOfCivil_eq hy hm' hd' hdays
  obtain rfl : year' = year := Nat.le_antisymm hle hge
  have hlength : ∀ m, monthLength (isLeap year') m ≤ 31 := by
    intro m
    unfold monthLength
    split_ifs <;> omega
  have hthis := monthAndDay_daysBeforeMonth (isLeap year') month (by omega) day
    (by have := hlength month; omega) ⟨hmonth, hday, hday'⟩
  have hthat := monthAndDay_daysBeforeMonth (isLeap year') month' (by omega) day'
    (by have := hlength month'; omega) ⟨hm, hd, hd'⟩
  have hsame : daysBeforeMonth (isLeap year') month' + (day' - 1) =
      daysBeforeMonth (isLeap year') month + (day - 1) := by
    unfold daysOfCivil at hdays
    omega
  rw [hsame, hthis.1, hthis.2] at hthat
  rw [hthat.1, hthat.2]

end Calendar
