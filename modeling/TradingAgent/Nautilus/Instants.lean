import TradingAgent.Nautilus.Texts

/-! Instants as calendar dates and times of day, and their texts. -/

namespace TradingAgent.Nautilus

open DigitText

def epochDays : ℤ := 719162

def dayMicroseconds : ℤ := 86400000000

def UtcDateTime.microseconds (t : UtcDateTime) : ℤ :=
  ((Calendar.daysOfCivil t.year t.month t.day : ℤ) - epochDays) * dayMicroseconds +
    (((t.hour * 60 + t.minute) * 60 + t.second) * 1000000 + t.microsecond : ℕ)

def dayNumber (t : Instant) : ℕ := ((t : ℤ) / dayMicroseconds + epochDays).toNat

def timeOfDay (t : Instant) : ℕ := ((t : ℤ) % dayMicroseconds).toNat

variable (t : Instant)
include t

theorem dayNumber_eq : (dayNumber t : ℤ) = (t : ℤ) / dayMicroseconds + epochDays := by
  obtain ⟨t, hlow, hhigh⟩ := t
  apply Int.toNat_of_nonneg
  unfold dayMicroseconds epochDays
  simp only
  omega

theorem dayNumber_lt : dayNumber t < 3652059 := by
  have h := dayNumber_eq t
  obtain ⟨t, hlow, hhigh⟩ := t
  unfold dayMicroseconds epochDays at h
  simp only at h
  omega

theorem timeOfDay_eq : (timeOfDay t : ℤ) = (t : ℤ) % dayMicroseconds := by
  apply Int.toNat_of_nonneg
  unfold dayMicroseconds
  omega

theorem timeOfDay_lt : timeOfDay t < 86400000000 := by
  have h := timeOfDay_eq t
  unfold dayMicroseconds at h
  omega

theorem isCalendar_instant : isCalendar (Calendar.civilOfDays (dayNumber t)).1 (Calendar.civilOfDays (dayNumber t)).2.1
      (Calendar.civilOfDays (dayNumber t)).2.2 (timeOfDay t / 3600000000) (timeOfDay t / 60000000 % 60)
      (timeOfDay t / 1000000 % 60) (timeOfDay t % 1000000) = true := by
  have hdate := Calendar.civilOfDays_valid (dayNumber t)
  have hyear := Calendar.civilOfDays_year_le (dayNumber_lt t)
  have htime := timeOfDay_lt t
  rw [← Calendar.daysInMonth] at hdate
  simp only [isCalendar, Bool.and_eq_true, decide_eq_true_eq]
  omega

omit t

def utcOf (t : Instant) : UtcDateTime := ⟨_, _, _, _, _, _, _, isCalendar_instant t⟩

theorem microseconds_utcOf (t : Instant) : (utcOf t).microseconds = t := by
  have hday := dayNumber_eq t
  have htime := timeOfDay_eq t
  simp only [UtcDateTime.microseconds, utcOf, Calendar.daysOfCivil_civilOfDays]
  unfold dayMicroseconds epochDays at *
  omega

theorem representable_microseconds (t : UtcDateTime) : Representable t.microseconds := by
  have hvalid := t.valid
  simp only [isCalendar, Bool.and_eq_true, decide_eq_true_eq] at hvalid
  obtain ⟨⟨⟨⟨⟨⟨⟨⟨⟨-, hyear⟩, -⟩, hmonth⟩, -⟩, hday⟩, hhour⟩, hminute⟩, hsecond⟩, hmicrosecond⟩ := hvalid
  have hdays := Calendar.daysOfCivil_lt hyear hmonth hday
  unfold Representable UtcDateTime.microseconds dayMicroseconds epochDays
  omega

def instantOf (t : UtcDateTime) : Instant := ⟨t.microseconds, representable_microseconds t⟩

@[simp] theorem instantOf_utcOf (t : Instant) : instantOf (utcOf t) = t := Subtype.ext (microseconds_utcOf t)

@[simp] theorem utcOf_instantOf (t : UtcDateTime) : utcOf (instantOf t) = t := by
  have hvalid := t.valid
  simp only [isCalendar, Bool.and_eq_true, decide_eq_true_eq] at hvalid
  obtain ⟨⟨⟨⟨⟨⟨⟨⟨⟨hyear, -⟩, hmonth⟩, hmonth'⟩, hday⟩, hday'⟩, hhour⟩, hminute⟩, hsecond⟩, hmicrosecond⟩ := hvalid
  have hdate := Calendar.civilOfDays_daysOfCivil hyear hmonth hmonth' hday hday'
  have hnumber := dayNumber_eq (instantOf t)
  have htime := timeOfDay_eq (instantOf t)
  unfold instantOf UtcDateTime.microseconds dayMicroseconds epochDays at hnumber htime
  simp only at hnumber htime
  have hdays : dayNumber (instantOf t) = Calendar.daysOfCivil t.year t.month t.day := by
    unfold instantOf UtcDateTime.microseconds dayMicroseconds epochDays
    omega
  have htimeOfDay : timeOfDay (instantOf t) = ((t.hour * 60 + t.minute) * 60 + t.second) * 1000000 + t.microsecond := by
    unfold instantOf UtcDateTime.microseconds dayMicroseconds epochDays
    omega
  unfold utcOf
  ext <;> simp only [hdays, htimeOfDay, hdate] <;> omega

def instantText (t : Instant) : String := serializeUtc (utcOf t)

def parseInstant (text : String) : Option Instant := do
  let t ← parseUtc text
  if serializeUtc t = text then some (instantOf t) else none

variable {t : Instant}

theorem parseInstant_eq_some_iff {text : String} : parseInstant text = some t ↔ instantText t = text := by
  unfold parseInstant instantText
  constructor
  · intro h
    obtain ⟨u, -, h⟩ := Option.bind_eq_some_iff.1 h
    split_ifs at h with htext
    rw [← Option.some.inj h, utcOf_instantOf, htext]
  · rintro rfl
    simp [parseUtc_serializeUtc]

theorem length_instantText (t : Instant) : (instantText t).length ≤ 27 := by
  unfold instantText serializeUtc utcChars secondChars
  rw [← String.length_toList, String.toList_ofList]
  split_ifs <;> simp

theorem mem_instantText {c : Char} (h : c ∈ (instantText t).toList) :
    c.isDigit = true ∨ c = '-' ∨ c = 'T' ∨ c = ':' ∨ c = '.' ∨ c = 'Z' := by
  unfold instantText serializeUtc utcChars secondChars at h
  rw [String.toList_ofList] at h
  simp only [List.mem_append, List.mem_cons] at h
  have hdigit : ∀ k n, c ∈ fixedDigits k n → c.isDigit = true := fun _ _ => isDigit_of_mem_fixedDigits
  rcases h with h | h | h | h | h | h | h | h | h | h | h | h
  · exact .inl (hdigit _ _ h)
  · simp [h]
  · exact .inl (hdigit _ _ h)
  · simp [h]
  · exact .inl (hdigit _ _ h)
  · simp [h]
  · exact .inl (hdigit _ _ h)
  · simp [h]
  · exact .inl (hdigit _ _ h)
  · simp [h]
  · exact .inl (hdigit _ _ h)
  split_ifs at h
  · simp at h
    simp [h]
  · rcases List.mem_cons.1 h with h | h
    · simp [h]
    · rcases List.mem_append.1 h with h | h
      · exact .inl (hdigit _ _ h)
      · simp at h
        simp [h]

end TradingAgent.Nautilus
