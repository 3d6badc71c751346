import TradingAgent.Nautilus.Texts

/-!
# ISO timestamps

Which texts `datetime.fromisoformat` accepts: a calendar or week date with or without dashes, any one character, and a
time with or without colons, a fraction and an offset. A canonical UTC timestamp is accepted once its `Z` is written
as an offset (`isIsoFormat_canonical`).
-/

namespace TradingAgent.SafetySources

open DigitText
open Nautilus (takeDigits takeChar takeDigits_fixedDigits takeChar_cons UtcDateTime isCalendar)

namespace IsoFormat

def skip (separated : Bool) (separator : Char) (cs : List Char) : Option (List Char) :=
  if separated then takeChar separator cs else some cs

def isWeekDate (year week day : ℕ) : Bool :=
  let first := Calendar.daysBeforeYear year
  let weekday := first % 7
  let long := weekday = 3 || (weekday = 2 && Calendar.isLeap year)
  let monday := if 3 < weekday then first + 7 - weekday else first - weekday
  decide (1 ≤ year ∧ year ≤ 9999 ∧ 1 ≤ week ∧ (week ≤ 52 ∨ week = 53 ∧ long) ∧ 1 ≤ day ∧ day ≤ 7 ∧
    monday + (week - 1) * 7 + (day - 1) < 3652059)

def isDate (cs : List Char) : Bool :=
  (do
    let (year, cs) ← takeDigits 4 cs
    let separated := decide (cs.head? = some '-')
    let cs ← skip separated '-' cs
    match cs with
    | 'W' :: cs =>
      let (week, cs) ← takeDigits 2 cs
      if cs = [] then some (isWeekDate year week 1)
      else
        let cs ← skip separated '-' cs
        let (day, cs) ← takeDigits 1 cs
        some (decide (cs = []) && isWeekDate year week day)
    | cs =>
      let (month, cs) ← takeDigits 2 cs
      let cs ← skip separated '-' cs
      let (day, cs) ← takeDigits 2 cs
      some (decide (cs = []) && isCalendar year month day 0 0 0 0)).getD false

def isFraction : List Char → Bool
  | [] => true
  | c :: digits => decide (c = '.' ∨ c = ',') && decide (digits ≠ []) && digits.all Char.isDigit

/-- `_parse_hh_mm_ss_ff`; the fraction decides nothing. -/
def clock (cs : List Char) : Option (ℕ × ℕ × ℕ) := do
  let (hour, cs) ← takeDigits 2 cs
  if cs = [] then some (hour, 0, 0)
  else
    let separated := decide (cs.head? = some ':')
    let cs ← skip separated ':' cs
    let (minute, cs) ← takeDigits 2 cs
    if cs = [] then some (hour, minute, 0)
    else
      let cs ← skip separated ':' cs
      let (second, cs) ← takeDigits 2 cs
      if isFraction cs then some (hour, minute, second) else none

def beginsZone (c : Char) : Bool := c == '+' || c == '-' || c == 'Z'

def isTime (cs : List Char) : Bool :=
  match clock (cs.takeWhile (! beginsZone ·)) with
  | none => false
  | some (hour, minute, second) =>
    decide (hour < 24 ∧ minute < 60 ∧ second < 60) && match cs.dropWhile (! beginsZone ·) with
      | [] => true
      | ['Z'] => true
      | c :: zone => decide (c ≠ 'Z') &&
        (clock zone).any fun (hours, minutes, seconds) => hours * 3600 + minutes * 60 + seconds < 86400

def separatorLocation (cs : List Char) : ℕ :=
  if cs.length = 7 then 7
  else if cs[4]? = some '-' then
    if cs[5]? = some 'W' then
      if cs[8]? = some '-' then if cs[10]?.any Char.isDigit then 8 else 10 else 8
    else 10
  else if cs[4]? = some 'W' then
    let digits := 7 + ((cs.drop 7).takeWhile Char.isDigit).length
    if digits < 9 then digits else if digits % 2 = 0 then 7 else 8
  else 8

end IsoFormat

open IsoFormat

/-- `datetime.fromisoformat` does not raise. (CPython also passes over some characters before an offset.) -/
def isIsoFormat (cs : List Char) : Bool :=
  decide (7 ≤ cs.length) && isDate (cs.take (separatorLocation cs)) &&
    (decide (cs.drop (separatorLocation cs + 1) = []) || isTime (cs.drop (separatorLocation cs + 1)))

namespace IsoFormat

def dateChars (t : UtcDateTime) : List Char :=
  fixedDigits 4 t.year ++ '-' :: (fixedDigits 2 t.month ++ '-' :: fixedDigits 2 t.day)

def timeChars (t : UtcDateTime) : List Char :=
  fixedDigits 2 t.hour ++ ':' :: (fixedDigits 2 t.minute ++ ':' :: fixedDigits 2 t.second)

theorem isDate_dateChars (t : UtcDateTime) : isDate (dateChars t) = true := by
  obtain ⟨hy, hm, hd, -⟩ := t.valid_bounds
  have hcalendar : isCalendar t.year t.month t.day 0 0 0 0 = true := by
    have h := t.valid
    simp only [isCalendar, Bool.and_eq_true, decide_eq_true_eq] at h ⊢
    omega
  have hmonth : ∀ cs, fixedDigits 2 t.month ++ cs ≠ [] ∧ ∀ rest, fixedDigits 2 t.month ++ cs ≠ 'W' :: rest := by
    intro cs
    have hdigit : (digitChar (t.month / 10 % 10)).isDigit = true := isDigit_digitChar (Nat.mod_lt _ (by decide))
    refine ⟨by simp [fixedDigits], fun rest heq => ?_⟩
    rw [show fixedDigits 2 t.month ++ cs = digitChar (t.month / 10 % 10) :: (digitChar (t.month % 10) :: cs) from rfl,
      List.cons.injEq] at heq
    rw [heq.1] at hdigit
    exact absurd hdigit (by decide)
  unfold isDate dateChars
  rw [takeDigits_fixedDigits (by omega)]
  simp only [Option.bind_eq_bind, Option.bind_some, List.head?_cons, decide_true, skip, if_true, takeChar_cons]
  split
  · rename_i heq
    exact absurd heq ((hmonth _).2 _)
  · rw [takeDigits_fixedDigits (by omega)]
    simp only [Option.bind_some, takeChar_cons]
    rw [← List.append_nil (fixedDigits 2 t.day), takeDigits_fixedDigits (by omega)]
    simp [hcalendar]

variable {fraction : List Char}

theorem clock_timeChars (t : UtcDateTime) (h : isFraction fraction = true) :
    clock (timeChars t ++ fraction) = some (t.hour, t.minute, t.second) := by
  obtain ⟨-, -, -, hh, hn, hs, -⟩ := t.valid_bounds
  unfold clock timeChars
  rw [List.append_assoc, takeDigits_fixedDigits (by omega)]
  simp only [Option.bind_eq_bind, Option.bind_some, List.cons_append, List.head?_cons, decide_true, skip, if_true,
    takeChar_cons, reduceCtorEq, if_false]
  rw [List.append_assoc, takeDigits_fixedDigits (by omega)]
  simp only [Option.bind_some, List.cons_append, takeChar_cons, reduceCtorEq, if_false]
  rw [takeDigits_fixedDigits (by omega)]
  simp only [Option.bind_some, h, if_true]

variable {c : Char}

theorem not_beginsZone_of_isDigit (h : c.isDigit = true) : (! beginsZone c) = true := by
  unfold beginsZone
  rw [Bool.not_eq_true', Bool.or_eq_false_iff, Bool.or_eq_false_iff]
  refine ⟨⟨?_, ?_⟩, ?_⟩ <;>
  · rw [beq_eq_false_iff_ne]
    rintro rfl
    exact absurd h (by decide)

theorem not_beginsZone_of_mem {t : UtcDateTime} (h : isFraction fraction = true)
    (hc : c ∈ timeChars t ++ fraction) : (! beginsZone c) = true := by
  have hdigits : ∀ {n : ℕ}, c ∈ fixedDigits 2 n → (! beginsZone c) = true := fun hc =>
    not_beginsZone_of_isDigit (isDigit_of_mem_fixedDigits hc)
  rcases List.mem_append.1 hc with hc | hc
  · simp only [timeChars, List.mem_append, List.mem_cons] at hc
    rcases hc with hc | rfl | hc | rfl | hc
    · exact hdigits hc
    · rfl
    · exact hdigits hc
    · rfl
    · exact hdigits hc
  · cases fraction with
    | nil => cases hc
    | cons d digits =>
      simp only [isFraction, Bool.and_eq_true, decide_eq_true_eq, List.all_eq_true] at h
      rcases List.mem_cons.1 hc with rfl | hc
      · rcases h.1.1 with rfl | rfl <;> rfl
      · exact not_beginsZone_of_isDigit (h.2 c hc)

theorem isTime_timeChars (t : UtcDateTime) (h : isFraction fraction = true) :
    isTime (timeChars t ++ fraction ++ "+00:00".toList) = true := by
  obtain ⟨-, -, -, hh, hn, hs, -⟩ := t.valid_bounds
  have htake : (timeChars t ++ fraction ++ "+00:00".toList).takeWhile (! beginsZone ·) = timeChars t ++ fraction := by
    rw [List.takeWhile_append_of_pos fun c hc => not_beginsZone_of_mem h hc]
    exact List.append_nil _
  have hdrop : (timeChars t ++ fraction ++ "+00:00".toList).dropWhile (! beginsZone ·) = "+00:00".toList := by
    rw [List.dropWhile_append_of_pos fun c hc => not_beginsZone_of_mem h hc]
    rfl
  unfold isTime
  rw [htake, hdrop, clock_timeChars t h]
  simp only [hh, hn, hs, and_self, decide_true, Bool.true_and]
  decide +kernel

end IsoFormat

theorem isIsoFormat_canonical (t : UtcDateTime) {fraction : List Char} (h : isFraction fraction = true) :
    isIsoFormat (dateChars t ++ 'T' :: (timeChars t ++ fraction ++ "+00:00".toList)) = true := by
  have hlength : (dateChars t).length = 10 := by simp [dateChars]
  have hlocation : separatorLocation (dateChars t ++ 'T' :: (timeChars t ++ fraction ++ "+00:00".toList)) = 10 := by
    have h4 : (dateChars t ++ 'T' :: (timeChars t ++ fraction ++ "+00:00".toList))[4]? = some '-' := by
      rw [List.getElem?_append_left (by omega)]
      rfl
    have h5 : (dateChars t ++ 'T' :: (timeChars t ++ fraction ++ "+00:00".toList))[5]? =
        some (digitChar (t.month / 10 % 10)) := by
      rw [List.getElem?_append_left (by omega)]
      rfl
    have hdigit : (digitChar (t.month / 10 % 10)).isDigit = true := isDigit_digitChar (Nat.mod_lt _ (by decide))
    have hweek : digitChar (t.month / 10 % 10) ≠ 'W' := by
      intro heq
      rw [heq] at hdigit
      exact absurd hdigit (by decide)
    unfold separatorLocation
    rw [if_neg (by simp only [List.length_append, List.length_cons, hlength]; omega), if_pos h4,
      if_neg (by rw [h5]; simpa using hweek)]
  unfold isIsoFormat
  rw [hlocation, List.take_left' hlength, isDate_dateChars]
  have hdrop : (dateChars t ++ 'T' :: (timeChars t ++ fraction ++ "+00:00".toList)).drop (10 + 1) =
      timeChars t ++ fraction ++ "+00:00".toList := by
    rw [← List.drop_drop, List.drop_left' hlength]
    rfl
  rw [hdrop, isTime_timeChars t h, Bool.or_true, Bool.and_true, Bool.and_true, decide_eq_true_eq, List.length_append,
    hlength]
  omega

example : isIsoFormat "2024-W01-2T10".toList = true ∧ isIsoFormat "2024-13-01".toList = false := by decide +kernel

end TradingAgent.SafetySources
