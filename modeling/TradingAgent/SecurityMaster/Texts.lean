import TradingAgent.AlphaCampaign.Authority
import TradingAgent.Lib.Codec
import TradingAgent.Nautilus.Instants

/-!
# Text formats

The patterns of `security_master/models.py` and `domain/signals.py`, which the migration 0019 repeats, and how
long a text that matches them can be. All of them admit printable ASCII only.
-/

namespace TradingAgent.SecurityMaster

open Json DigitText
open JobPlane (formatted isHexChar isSha256)
open AlphaCampaign (isUuid)

def isUpperOrDigit (c : Char) : Bool := c.isUpper || c.isDigit

/-- `^[A-Z0-9][A-Z0-9._-]{0,63}$` -/
def isToken : String → Bool :=
  formatted isUpperOrDigit (fun c => isUpperOrDigit c || c == '.' || c == '_' || c == '-') 0 63

/-- `^[A-Za-z0-9][A-Za-z0-9._-]{0,63}$` -/
def isVersion : String → Bool :=
  formatted Char.isAlphanum (fun c => c.isAlphanum || c == '.' || c == '_' || c == '-') 0 63

/-- `^[A-Z0-9]{4}$` -/
def isMic : String → Bool := formatted isUpperOrDigit isUpperOrDigit 3 3

/-- `[-A-Za-z0-9_+./]` -/
def isTimezoneChar (c : Char) : Bool := c.isAlphanum || c == '_' || c == '+' || c == '.' || c == '/' || c == '-'

/-- `^[-A-Za-z0-9_+./]{1,64}$` -/
def isTimezone : String → Bool := formatted isTimezoneChar isTimezoneChar 0 63

def isLowerOrDigit (c : Char) : Bool := c.isLower || c.isDigit

/-- `^[a-z0-9]([a-z0-9.-]{0,126}[a-z0-9])?$` -/
def isAuthority (text : String) : Bool :=
  formatted isLowerOrDigit (fun c => isLowerOrDigit c || c == '.' || c == '-') 0 127 text &&
    (text.toList.getLast?.any isLowerOrDigit)

/-- `^[A-Za-z0-9][A-Za-z0-9._~-]{0,63}$` -/
def isPathSegment : String → Bool :=
  formatted Char.isAlphanum (fun c => c.isAlphanum || c == '.' || c == '_' || c == '~' || c == '-') 0 63

/-- `[ -~]` -/
def isPrintable (c : Char) : Bool := decide (32 ≤ c.toNat ∧ c.toNat ≤ 126)

/-- Printable ASCII without a blank at an edge, of which there are 1 to `n` characters. -/
def isPlainText (n : ℕ) (text : String) : Bool :=
  decide (1 ≤ text.length ∧ text.length ≤ n) && text.toList.all isPrintable &&
    decide (text.toList.head? ≠ some ' ' ∧ text.toList.getLast? ≠ some ' ')

/-- `^(?:[1-9]\d*|(?:0|[1-9]\d*)\.\d*[1-9])$`, of at most 128 characters. -/
def isPositiveDecimal (text : String) : Bool :=
  let whole := text.toList.takeWhile Char.isDigit
  let nonzero := decide (whole ≠ [] ∧ whole.head? ≠ some '0')
  decide (text.length ≤ 128) && match text.toList.dropWhile Char.isDigit with
    | [] => nonzero
    | '.' :: fraction => (nonzero || decide (whole = ['0'])) && fraction.all Char.isDigit &&
        fraction.getLast?.any fun c => c ≠ '0'
    | _ => false

variable {c : Char}

theorem printable_of_isAlphanum (h : c.isAlphanum = true) : 32 ≤ c.toNat ∧ c.toNat ≤ 126 := by
  delta Char.isAlphanum Char.isAlpha Char.isUpper Char.isLower Char.isDigit at h
  simp only [Bool.or_eq_true, Bool.and_eq_true, decide_eq_true_eq, UInt32.le_iff_toNat_le] at h
  rcases h with (h | h) | h
  · have h1 : 65 ≤ c.toNat := h.1
    have h2 : c.toNat ≤ 90 := h.2
    omega
  · have h1 : 97 ≤ c.toNat := h.1
    have h2 : c.toNat ≤ 122 := h.2
    omega
  · have h1 : 48 ≤ c.toNat := h.1
    have h2 : c.toNat ≤ 57 := h.2
    omega

theorem printable_of_isDigit (h : c.isDigit = true) : 32 ≤ c.toNat ∧ c.toNat ≤ 126 := by
  apply printable_of_isAlphanum
  simp [Char.isAlphanum, h]

theorem printable_of_isUpperOrDigit (h : isUpperOrDigit c = true) : 32 ≤ c.toNat ∧ c.toNat ≤ 126 := by
  apply printable_of_isAlphanum
  rw [isUpperOrDigit, Bool.or_eq_true] at h
  delta Char.isAlphanum Char.isAlpha
  rcases h with h | h <;> simp [h]

theorem printable_of_isLowerOrDigit (h : isLowerOrDigit c = true) : 32 ≤ c.toNat ∧ c.toNat ≤ 126 := by
  apply printable_of_isAlphanum
  rw [isLowerOrDigit, Bool.or_eq_true] at h
  delta Char.isAlphanum Char.isAlpha
  rcases h with h | h <;> simp [h]

theorem printable_of_isHexChar (h : isHexChar c = true) : 32 ≤ c.toNat ∧ c.toNat ≤ 126 := by
  simp only [isHexChar, Bool.or_eq_true, decide_eq_true_eq] at h
  rcases h with h | h
  · exact printable_of_isDigit h
  · have h1 : 97 ≤ c.toNat := h.1
    have h2 : c.toNat ≤ 102 := h.2
    omega

theorem printable_or {p : Char → Bool} {d : Char} (hp : ∀ {c : Char}, p c = true → 32 ≤ c.toNat ∧ c.toNat ≤ 126)
    (hd : 32 ≤ d.toNat ∧ d.toNat ≤ 126) (h : (p c || c == d) = true) : 32 ≤ c.toNat ∧ c.toNat ≤ 126 := by
  rw [Bool.or_eq_true, beq_iff_eq] at h
  rcases h with h | rfl
  · exact hp h
  · exact hd

theorem printable_of_formatted {first rest : Char → Bool} {least most : ℕ}
    (hfirst : ∀ {c : Char}, first c = true → 32 ≤ c.toNat ∧ c.toNat ≤ 126)
    (hrest : ∀ {c : Char}, rest c = true → 32 ≤ c.toNat ∧ c.toNat ≤ 126) {text : String}
    (h : formatted first rest least most text = true) : PrintableText text ∧ text.length ≤ most + 1 := by
  unfold formatted at h
  split at h
  · cases h
  · rename_i c cs hcs
    simp only [Bool.and_eq_true, decide_eq_true_eq, List.all_eq_true] at h
    obtain ⟨⟨⟨hc, hall⟩, -⟩, hmost⟩ := h
    constructor
    · intro d hd
      rw [hcs, List.mem_cons] at hd
      rcases hd with rfl | hd
      · exact hfirst hc
      · exact hrest (hall d hd)
    · rw [← String.length_toList, hcs, List.length_cons]
      omega

variable {s : String}

theorem printable_of_isToken (h : isToken s = true) : PrintableText s ∧ s.length ≤ 64 :=
  printable_of_formatted printable_of_isUpperOrDigit
    (printable_or (printable_or (printable_or printable_of_isUpperOrDigit (by decide)) (by decide)) (by decide)) h

theorem printable_of_isVersion (h : isVersion s = true) : PrintableText s ∧ s.length ≤ 64 :=
  printable_of_formatted printable_of_isAlphanum
    (printable_or (printable_or (printable_or printable_of_isAlphanum (by decide)) (by decide)) (by decide)) h

theorem printable_of_isMic (h : isMic s = true) : PrintableText s ∧ s.length ≤ 4 :=
  printable_of_formatted printable_of_isUpperOrDigit printable_of_isUpperOrDigit h

theorem printable_of_isTimezone (h : isTimezone s = true) : PrintableText s ∧ s.length ≤ 64 := by
  have hchar : ∀ {c : Char}, isTimezoneChar c = true → 32 ≤ c.toNat ∧ c.toNat ≤ 126 := fun {c} =>
    printable_or (printable_or (printable_or (printable_or (printable_or printable_of_isAlphanum (by decide))
      (by decide)) (by decide)) (by decide)) (by decide)
  exact printable_of_formatted hchar hchar h

theorem printable_of_isAuthority (h : isAuthority s = true) : PrintableText s ∧ s.length ≤ 128 := by
  rw [isAuthority, Bool.and_eq_true] at h
  exact printable_of_formatted printable_of_isLowerOrDigit
    (printable_or (printable_or printable_of_isLowerOrDigit (by decide)) (by decide)) h.1

theorem printable_of_isPathSegment (h : isPathSegment s = true) : PrintableText s ∧ s.length ≤ 64 :=
  printable_of_formatted printable_of_isAlphanum
    (printable_or (printable_or (printable_or (printable_or printable_of_isAlphanum (by decide)) (by decide))
      (by decide)) (by decide)) h

theorem printable_of_isSha256 (h : isSha256 s = true) : PrintableText s ∧ s.length ≤ 64 :=
  printable_of_formatted printable_of_isHexChar printable_of_isHexChar h

theorem printable_of_isUuid (h : isUuid s = true) : PrintableText s ∧ s.length ≤ 36 := by
  simp only [isUuid, Bool.and_eq_true, decide_eq_true_eq, List.all_eq_true, Prod.forall] at h
  constructor
  · intro c hc
    obtain ⟨n, hn⟩ := List.mem_iff_getElem?.1 hc
    have := h.2 c n (List.mem_zipIdx_iff_getElem?.2 hn)
    split_ifs at this
    · rw [beq_iff_eq] at this
      subst this
      decide
    · exact printable_of_isHexChar this
  · rw [← String.length_toList, h.1]

theorem printable_of_isPlainText {n : ℕ} (h : isPlainText n s = true) : PrintableText s ∧ s.length ≤ n := by
  simp only [isPlainText, Bool.and_eq_true, decide_eq_true_eq, List.all_eq_true] at h
  exact ⟨fun c hc => of_decide_eq_true (h.1.2 c hc), h.1.1.2⟩

theorem printable_of_isPositiveDecimal (h : isPositiveDecimal s = true) : PrintableText s ∧ s.length ≤ 128 := by
  simp only [isPositiveDecimal, Bool.and_eq_true, decide_eq_true_eq] at h
  refine ⟨?_, h.1⟩
  have hrest : ∀ c ∈ s.toList.dropWhile Char.isDigit, 32 ≤ c.toNat ∧ c.toNat ≤ 126 := by
    intro c hc
    have h := h.2
    split at h
    · rename_i hnil
      rw [hnil] at hc
      cases hc
    · rename_i fraction hfraction
      rw [hfraction, List.mem_cons] at hc
      simp only [Bool.and_eq_true, List.all_eq_true] at h
      rcases hc with rfl | hc
      · decide
      · exact printable_of_isDigit (h.1.2 c hc)
    · cases h
  intro c hc
  rw [← List.takeWhile_append_dropWhile (p := Char.isDigit) (l := s.toList), List.mem_append] at hc
  rcases hc with hc | hc
  · exact printable_of_isDigit (List.all_eq_true.1 List.all_takeWhile c hc)
  · exact hrest c hc

theorem printable_instantText (t : Instant) : PrintableText (Nautilus.instantText t) := by
  intro c hc
  rcases Nautilus.mem_instantText hc with h | rfl | rfl | rfl | rfl | rfl
  · exact printable_of_isDigit h
  all_goals decide

end TradingAgent.SecurityMaster
