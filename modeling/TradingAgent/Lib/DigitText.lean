import Mathlib.Data.Nat.Log
import Mathlib.Data.List.Induction
import Mathlib.Tactic.IntervalCases
import Mathlib.Tactic.Ring

/-!
# Decimal digits as text

`fixedDigits k n` writes the last `k` decimal digits of `n`, `naturalText n` all of them, and `readDigits`
reads digits back.
-/

namespace DigitText

def digitChar (d : ℕ) : Char := Char.ofNat (48 + d)

def digitValue (c : Char) : ℕ := c.toNat - 48

/-- The last `k` decimal digits of `n`. -/
def fixedDigits : ℕ → ℕ → List Char
  | 0, _ => []
  | k + 1, n => fixedDigits k (n / 10) ++ [digitChar (n % 10)]

/-- The decimal digits of `n`, without leading zeros. -/
def naturalText (n : ℕ) : List Char := fixedDigits (Nat.log 10 n + 1) n

def readDigits (cs : List Char) : ℕ := cs.foldl (fun n c => n * 10 + digitValue c) 0

theorem digitValue_digitChar {d : ℕ} (h : d < 10) : digitValue (digitChar d) = d := by
  interval_cases d <;> rfl

theorem isDigit_digitChar {d : ℕ} (h : d < 10) : (digitChar d).isDigit = true := by
  interval_cases d <;> rfl

@[simp] theorem length_fixedDigits (k n : ℕ) : (fixedDigits k n).length = k := by
  induction k generalizing n with
  | zero => rfl
  | succ k ih => simp [fixedDigits, ih]

variable {c : Char} {n : ℕ}

theorem isDigit_of_mem_fixedDigits {k : ℕ} (h : c ∈ fixedDigits k n) : c.isDigit = true := by
  induction k generalizing n with
  | zero => simp [fixedDigits] at h
  | succ k ih =>
    rw [fixedDigits, List.mem_append, List.mem_singleton] at h
    rcases h with h | rfl
    · exact ih h
    · exact isDigit_digitChar (Nat.mod_lt _ (by norm_num))

theorem readDigits_concat (cs : List Char) (c : Char) : readDigits (cs ++ [c]) = readDigits cs * 10 + digitValue c := by
  simp [readDigits]

theorem readDigits_fixedDigits (k n : ℕ) : readDigits (fixedDigits k n) = n % 10 ^ k := by
  induction k generalizing n with
  | zero => simp [fixedDigits, readDigits, Nat.mod_one]
  | succ k ih =>
    rw [fixedDigits, readDigits_concat, ih, digitValue_digitChar (Nat.mod_lt _ (by norm_num)), pow_succ,
      mul_comm (10 ^ k) 10, Nat.mod_mul]
    ring

theorem readDigits_fixedDigits_of_lt {k : ℕ} (h : n < 10 ^ k) : readDigits (fixedDigits k n) = n := by
  rw [readDigits_fixedDigits, Nat.mod_eq_of_lt h]

theorem readDigits_naturalText (n : ℕ) : readDigits (naturalText n) = n :=
  readDigits_fixedDigits_of_lt (Nat.lt_pow_succ_log_self (by norm_num) n)

theorem isDigit_of_mem_naturalText (h : c ∈ naturalText n) : c.isDigit = true :=
  isDigit_of_mem_fixedDigits h

theorem naturalText_ne_nil (n : ℕ) : naturalText n ≠ [] := by
  intro h
  have := congrArg List.length h
  simp [naturalText] at this

theorem digitValue_lt (h : c.isDigit = true) : digitValue c < 10 := by
  simp only [Char.isDigit, Bool.and_eq_true, decide_eq_true_eq] at h
  have h2 : c.toNat ≤ 57 := h.2
  unfold digitValue
  omega

theorem digitChar_digitValue (h : c.isDigit = true) : digitChar (digitValue c) = c := by
  simp only [Char.isDigit, Bool.and_eq_true, decide_eq_true_eq] at h
  have h1 : 48 ≤ c.toNat := h.1
  unfold digitChar digitValue
  rw [Nat.add_sub_cancel' h1]
  exact Char.ofNat_toNat c

variable {cs : List Char}

theorem readDigits_lt (h : ∀ c ∈ cs, c.isDigit = true) : readDigits cs < 10 ^ cs.length := by
  induction cs using List.reverseRecOn with
  | nil => simp [readDigits]
  | append_singleton cs c ih =>
    have hcs := ih fun d hd => h d (List.mem_append_left _ hd)
    have hc := digitValue_lt (h c (by simp))
    rw [readDigits_concat, List.length_append, List.length_singleton, pow_succ]
    omega

theorem fixedDigits_readDigits (h : ∀ c ∈ cs, c.isDigit = true) : fixedDigits cs.length (readDigits cs) = cs := by
  induction cs using List.reverseRecOn with
  | nil => rfl
  | append_singleton cs c ih =>
    have hc := h c (by simp)
    have hlt := digitValue_lt hc
    rw [List.length_append, List.length_singleton, fixedDigits, readDigits_concat]
    rw [show (readDigits cs * 10 + digitValue c) / 10 = readDigits cs by omega,
      show (readDigits cs * 10 + digitValue c) % 10 = digitValue c by omega,
      ih fun d hd => h d (List.mem_append_left _ hd), digitChar_digitValue hc]

theorem ne_point_of_isDigit (h : c.isDigit = true) : c ≠ '.' := by
  rintro rfl
  exact absurd h (by decide)

variable {rest ds : List Char}

theorem takeWhile_digits_point (h : ∀ c ∈ ds, c.isDigit = true) :
    (ds ++ '.' :: rest).takeWhile (fun c => c ≠ '.') = ds := by
  rw [List.takeWhile_append_of_pos fun c hc => decide_eq_true (ne_point_of_isDigit (h c hc))]
  simp

theorem takeWhile_digits (h : ∀ c ∈ ds, c.isDigit = true) : ds.takeWhile (fun c => c ≠ '.') = ds := by
  have := @List.takeWhile_append_of_pos _ (fun c => decide (c ≠ '.')) ds []
    fun c hc => decide_eq_true (ne_point_of_isDigit (h c hc))
  simpa using this

theorem readDigits_append_fixedDigits (cs : List Char) (k n : ℕ) :
    readDigits (cs ++ fixedDigits k n) = readDigits cs * 10 ^ k + n % 10 ^ k := by
  induction k generalizing n with
  | zero => simp [fixedDigits, Nat.mod_one]
  | succ k ih =>
    rw [fixedDigits, ← List.append_assoc, readDigits_concat, ih,
      digitValue_digitChar (Nat.mod_lt _ (by norm_num)), pow_succ, mul_comm (10 ^ k) 10, Nat.mod_mul]
    ring

end DigitText
