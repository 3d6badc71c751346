import TradingAgent.OperatorControl.Policy

/-! When the service and the exporter read a sentinel alike. -/

namespace TradingAgent.SafetySources

open OperatorControl (sentinelBytes)
open Nautilus (parseUtc instantOf utcOf UtcDateTime)
open DigitText
open PyText
open IsoFormat

@[simp] theorem decode_toUTF8 (text : String) : decode text.toUTF8 = some text.toList := by
  show (String.fromUTF8? text.toByteArray).map String.toList = some text.toList
  rw [String.fromUTF8?, dif_pos text.isValidUTF8]
  rfl

theorem eq_toUTF8_of_decode {raw : ByteArray} {text : List Char} (h : decode raw = some text) :
    raw = (String.ofList text).toUTF8 := by
  obtain ⟨s, hs, rfl⟩ := Option.map_eq_some_iff.1 h
  rw [String.ofList_toList]
  unfold String.fromUTF8? at hs
  split_ifs at hs
  exact congrArg String.toUTF8 (Option.some.inj hs) |>.symm ▸ rfl

theorem parseUtc_chars {timestamp : String} {t : UtcDateTime} (h : parseUtc timestamp = some t) :
    ∃ fraction, isFraction fraction = true ∧ 'Z' ∉ fraction ∧
      timestamp.toList = dateChars t ++ 'T' :: (timeChars t ++ fraction) ++ ['Z'] := by
  obtain ⟨tail, hfraction, htext⟩ := Nautilus.parseUtc_eq_some h
  have hspell : ∀ fraction, tail = fraction ++ ['Z'] →
      timestamp.toList = dateChars t ++ 'T' :: (timeChars t ++ fraction) ++ ['Z'] := by
    rintro fraction rfl
    rw [htext, dateChars, timeChars]
    simp only [List.append_assoc, List.cons_append]
  rcases Nautilus.readFraction_eq_some hfraction with ⟨rfl, -⟩ | ⟨digits, hdigits, hpos, -, rfl, -⟩
  · exact ⟨[], rfl, by simp, hspell [] rfl⟩
  · refine ⟨'.' :: digits, ?_, ?_, hspell _ (by simp)⟩
    · have hne : digits ≠ [] := List.ne_nil_of_length_pos (by omega)
      simp only [isFraction, Bool.and_eq_true, decide_eq_true_eq, List.all_eq_true]
      exact ⟨⟨.inl trivial, hne⟩, hdigits⟩
    · intro hmem
      rcases List.mem_cons.1 hmem with hdot | hmem
      · exact absurd hdot (by decide)
      · exact absurd (hdigits _ hmem) (by decide)

variable {c : Char}

theorem mem_fields {t : UtcDateTime} (h : c ∈ dateChars t ++ 'T' :: timeChars t) :
    c.isDigit = true ∨ c = '-' ∨ c = 'T' ∨ c = ':' := by
  have hdigit : ∀ {k n}, c ∈ fixedDigits k n → c.isDigit = true := fun h => isDigit_of_mem_fixedDigits h
  simp only [dateChars, timeChars, List.mem_append, List.mem_cons] at h
  rcases h with (h | h | h | h | h) | h | h | h | h | h | h
  all_goals first | exact .inl (hdigit h) | simp [h]

section

variable {timestamp : String} {t : UtcDateTime} (h : parseUtc timestamp = some t)
include h

theorem mem_timestamp (hc : c ∈ timestamp.toList) :
    c.isDigit = true ∨ c = '-' ∨ c = 'T' ∨ c = ':' ∨ c = '.' ∨ c = ',' ∨ c = 'Z' := by
  obtain ⟨fraction, hfraction, -, htext⟩ := parseUtc_chars h
  rw [htext, List.mem_append, List.mem_singleton] at hc
  rcases hc with hc | rfl
  · rw [← List.cons_append, ← List.append_assoc, List.mem_append] at hc
    rcases hc with hc | hc
    · rcases mem_fields hc with hc | rfl | rfl | rfl <;> simp_all
    · cases fraction with
      | nil => cases hc
      | cons d digits =>
        simp only [isFraction, Bool.and_eq_true, decide_eq_true_eq, List.all_eq_true] at hfraction
        rcases List.mem_cons.1 hc with rfl | hc
        · rcases hfraction.1.1 with rfl | rfl <;> simp
        · exact .inl (hfraction.2 c hc)
  · simp

theorem not_isSpace_of_mem (hc : c ∈ timestamp.toList) : isSpace c = false := by
  have hrange : 44 ≤ c.toNat ∧ c.toNat ≤ 90 := by
    rcases mem_timestamp h hc with hdigit | rfl | rfl | rfl | rfl | rfl | rfl
    · simp only [Char.isDigit, Bool.and_eq_true, decide_eq_true_eq] at hdigit
      have h1 : 48 ≤ c.toNat := hdigit.1
      have h2 : c.toNat ≤ 57 := hdigit.2
      omega
    all_goals decide
  simp only [isSpace, decide_eq_false_iff_not]
  omega

theorem isIsoFormat_timestamp :
    isIsoFormat (timestamp.toList.flatMap fun c => if c = 'Z' then "+00:00".toList else [c]) = true := by
  obtain ⟨fraction, hfraction, hzulu, htext⟩ := parseUtc_chars h
  have hkeep : ∀ cs : List Char, 'Z' ∉ cs →
      (cs.flatMap fun c => if c = 'Z' then "+00:00".toList else [c]) = cs := by
    intro cs hcs
    induction cs with
    | nil => rfl
    | cons c cs ih =>
      rw [List.mem_cons, not_or] at hcs
      rw [List.flatMap_cons, if_neg (Ne.symm hcs.1), ih hcs.2]
      rfl
  have hbody : 'Z' ∉ dateChars t ++ 'T' :: (timeChars t ++ fraction) := by
    rw [← List.cons_append, ← List.append_assoc, List.mem_append, not_or]
    refine ⟨fun hmem => ?_, hzulu⟩
    rcases mem_fields hmem with h | h | h | h <;> exact absurd h (by decide)
  have heq : (timestamp.toList.flatMap fun c => if c = 'Z' then "+00:00".toList else [c]) =
      dateChars t ++ 'T' :: (timeChars t ++ fraction ++ "+00:00".toList) := by
    rw [htext, List.flatMap_append, hkeep _ hbody]
    simp
  rw [heq]
  exact isIsoFormat_canonical t hfraction

end

/-- The bytes spell one sentinel line with a canonical timestamp and a reason of 1 to 256 characters. -/
structure Spells (raw : ByteArray) (t : UtcDateTime) (timestamp reason : String) : Prop where
  bytes : raw = sentinelBytes timestamp reason
  timestamp : parseUtc timestamp = some t
  length : 1 ≤ reason.length ∧ reason.length ≤ 256
  stripped : strip reason.toList = reason.toList
  one_line : '\n' ∉ reason.toList ∧ '\r' ∉ reason.toList

theorem toList_sentinel (timestamp reason : String) : (timestamp ++ ": " ++ reason ++ "\n").toList =
    timestamp.toList ++ (": ".toList ++ reason.toList) ++ ['\n'] := by
  simp [String.toList_append]

theorem decode_sentinelBytes (timestamp reason : String) : decode (sentinelBytes timestamp reason) =
    some (timestamp.toList ++ (": ".toList ++ reason.toList) ++ ['\n']) := by
  rw [sentinelBytes, decode_toUTF8, toList_sentinel]

theorem partition_sentinel {timestamp : String} {t : UtcDateTime} (h : parseUtc timestamp = some t)
    (reason : List Char) :
    partition ": ".toList (timestamp.toList ++ (": ".toList ++ reason)) = some (timestamp.toList, reason) := by
  refine @partition_append [':'] timestamp.toList reason ' ' fun hmem => ?_
  rcases List.mem_append.1 hmem with hmem | hmem
  · exact absurd (not_isSpace_of_mem h hmem) (by decide)
  · exact absurd hmem (by decide)

theorem parseSentinel_eq_some_iff {raw : ByteArray} {activatedAt : Instant} {reason : String} :
    parseSentinel raw = some (activatedAt, reason) ↔
      ∃ t timestamp, Spells raw t timestamp reason ∧ activatedAt = instantOf t := by
  constructor
  · intro h
    unfold parseSentinel at h
    obtain ⟨text, hdecode, h⟩ := Option.bind_eq_some_iff.1 h
    obtain ⟨hlines, h⟩ := Option.ite_none_left_eq_some.1 h
    obtain ⟨⟨timestamp, reason'⟩, hpartition, h⟩ := Option.bind_eq_some_iff.1 h
    obtain ⟨hreason, h⟩ := Option.ite_none_left_eq_some.1 h
    obtain ⟨t, ht, h⟩ := Option.map_eq_some_iff.1 h
    obtain ⟨rfl, rfl⟩ := Prod.mk.inj h
    simp only [ne_eq, not_or, not_not] at hlines hreason
    obtain ⟨hlast, hcount, hreturn⟩ := hlines
    have htext : text = timestamp ++ (": ".toList ++ reason') ++ ['\n'] := by
      rw [← partition_eq_some hpartition]
      exact (List.dropLast_append_getLast? '\n' hlast).symm
    have hno : '\n' ∉ reason' := by
      intro hmem
      have hpos := List.count_pos_iff.2 hmem
      rw [htext] at hcount
      simp only [List.count_append, List.count_singleton_self] at hcount
      omega
    have hno' : '\r' ∉ reason' := by
      intro hmem
      rw [htext] at hreturn
      exact hreturn (by simp [hmem])
    refine ⟨t, String.ofList timestamp, ⟨?_, ht, ?_, ?_, ?_⟩, rfl⟩
    · rw [eq_toUTF8_of_decode hdecode, sentinelBytes, htext]
      congr 1
      rw [← String.toList_inj, toList_sentinel]
      simp
    · rw [String.length_ofList]
      exact hreason.1
    · rw [String.toList_ofList]
      exact hreason.2
    · rw [String.toList_ofList]
      exact ⟨hno, hno'⟩
  · rintro ⟨t, timestamp, ⟨rfl, ht, hlength, hstrip, hno, hno'⟩, rfl⟩
    have hcount : (timestamp.toList ++ (": ".toList ++ reason.toList) ++ ['\n']).count '\n' = 1 := by
      have hstamp : timestamp.toList.count '\n' = 0 :=
        List.count_eq_zero.2 fun hmem => absurd (not_isSpace_of_mem ht hmem) (by decide)
      rw [List.count_append, List.count_append, List.count_append, hstamp, List.count_eq_zero.2 hno]
      decide
    have hreturn : '\r' ∉ timestamp.toList ++ (": ".toList ++ reason.toList) ++ ['\n'] := by
      intro hmem
      simp only [List.mem_append, List.mem_singleton] at hmem
      rcases hmem with (hmem | hmem | hmem) | hmem
      · exact absurd (not_isSpace_of_mem ht hmem) (by decide)
      · exact absurd hmem (by decide)
      · exact hno' hmem
      · exact absurd hmem (by decide)
    unfold parseSentinel
    rw [decode_sentinelBytes, Option.bind_some, if_neg, List.dropLast_concat, partition_sentinel ht]
    · rw [← String.length_toList] at hlength
      simp [hlength, hstrip, ht]
    · rw [List.getLast?_concat, hcount]
      simp only [ne_eq, not_true_eq_false, false_or]
      exact hreturn

/-- The reason holds a character at which the lenient readers end a line. -/
def HidesLine (reason : String) : Prop := ∃ c ∈ reason.toList, isLineBreak c = true

instance (reason : String) : Decidable (HidesLine reason) :=
  List.decidableBEx (fun c => isLineBreak c = true) reason.toList

variable {raw : ByteArray} {t : UtcDateTime} {timestamp reason : String}

theorem Spells.reason_ne_nil (h : Spells raw t timestamp reason) : reason.toList ≠ [] := by
  intro hnil
  have := h.length.1
  rw [← String.length_toList, hnil] at this
  exact absurd this (by decide)

theorem timestamp_ne_nil (h : parseUtc timestamp = some t) : timestamp.toList ≠ [] := by
  obtain ⟨fraction, -, -, htext⟩ := parseUtc_chars h
  rw [htext]
  simp

variable (h : Spells raw t timestamp reason)
include h

theorem Spells.getLast_line :
    ∀ c ∈ (timestamp.toList ++ (": ".toList ++ reason.toList)).getLast?, isSpace c = false := by
  intro c hc
  rw [← List.append_assoc, List.getLast?_append_of_ne_nil _ h.reason_ne_nil] at hc
  exact (ends_of_strip_eq h.stripped).2 c hc

theorem Spells.strip_text : strip (timestamp.toList ++ (": ".toList ++ reason.toList) ++ ['\n']) =
      timestamp.toList ++ (": ".toList ++ reason.toList) := by
  have hhead : ∀ c ∈ (timestamp.toList ++ (": ".toList ++ reason.toList)).head?, isSpace c = false := by
    intro c hc
    rw [List.head?_append_of_ne_nil _ (timestamp_ne_nil h.timestamp)] at hc
    exact not_isSpace_of_mem h.timestamp (List.mem_of_mem_head? hc)
  rw [strip_append_space (by simp [timestamp_ne_nil h.timestamp]) hhead (by decide), rdropWhile_of_getLast h.getLast_line]

theorem Spells.isSentinelLine : isSentinelLine (timestamp.toList ++ (": ".toList ++ reason.toList)) = true := by
  have hiso := isIsoFormat_timestamp h.timestamp
  unfold SafetySources.isSentinelLine
  rw [partition_sentinel h.timestamp]
  simp only [h.stripped, h.reason_ne_nil, ne_eq, not_false_eq_true, decide_true, Bool.true_and]
  exact hiso

theorem Spells.sentinelState_eq : sentinelState (timestamp.toList ++ (": ".toList ++ reason.toList) ++ ['\n']) =
      if HidesLine reason then .unknown else .active := by
  unfold sentinelState
  rw [h.strip_text]
  split_ifs with hhides
  · obtain ⟨c, hc, hbreak⟩ := hhides
    have htwo := @length_splitLinesFrom [] _ ⟨c, by simp [hc], hbreak⟩ fun d hd =>
      not_isLineBreak_of_not_isSpace (h.getLast_line d hd)
    split
    · rename_i line hlines
      rw [← splitLines, hlines] at htwo
      exact absurd htwo (by simp)
    · rfl
  · have hall : ∀ c ∈ timestamp.toList ++ (": ".toList ++ reason.toList), isLineBreak c = false := by
      intro c hc
      rcases List.mem_append.1 hc with hc | hc
      · exact not_isLineBreak_of_not_isSpace (not_isSpace_of_mem h.timestamp hc)
      rcases List.mem_append.1 hc with hc | hc
      · have hseparator : (": ".toList.all fun d => !isLineBreak d) = true := by decide
        exact Bool.not_eq_true' _ ▸ List.all_eq_true.1 hseparator c hc
      · exact Bool.eq_false_iff.2 fun hbreak => hhides ⟨c, hc, hbreak⟩
    rw [splitLines_of_all (by simp [timestamp_ne_nil h.timestamp]) hall]
    simp only [h.isSentinelLine, if_true]

theorem Spells.decode_eq : decode raw = some (timestamp.toList ++ (": ".toList ++ reason.toList) ++ ['\n']) := by
  rw [h.bytes, decode_sentinelBytes]

theorem Spells.exporter_eq (hsize : raw.size ≤ 1024) : Exporter.killSwitch (Exporter.readPrivateSource (.regular raw)) =
      if HidesLine reason then .unknown else .active := by
  have hne : raw ≠ ByteArray.empty := by
    intro hempty
    have hdecode := h.decode_eq
    rw [hempty, show ByteArray.empty = "".toUTF8 from rfl, decode_toUTF8] at hdecode
    have := congrArg List.length (Option.some.inj hdecode)
    simp at this
  rw [Exporter.readPrivateSource, if_neg (by unfold Exporter.maxSourceBytes; omega), Exporter.killSwitch]
  simp only [if_neg hne, h.decode_eq]
  exact h.sentinelState_eq

theorem Spells.resolve_eq :
    resolveKillSwitch (.regular raw) = if HidesLine reason then .unknown else .active := by
  have hreturn : ∀ c ∈ timestamp.toList ++ (": ".toList ++ reason.toList) ++ ['\n'], c ≠ '\r' := by
    rintro c hc rfl
    simp only [List.mem_append, List.mem_singleton] at hc
    rcases hc with (hc | hc | hc) | hc
    · exact absurd (not_isSpace_of_mem h.timestamp hc) (by decide)
    · exact absurd hc (by decide)
    · exact h.one_line.2 hc
    · exact absurd hc (by decide)
  rw [resolveKillSwitch, h.decode_eq]
  simp only
  rw [universalNewlines_of_all hreturn, h.sentinelState_eq]

end TradingAgent.SafetySources
