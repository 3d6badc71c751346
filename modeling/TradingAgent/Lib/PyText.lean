import Mathlib.Data.List.DropRight
import Mathlib.Data.List.Infix

/-!
# Texts of Python

The methods of `str` that readers of small text files use, on lists of characters: `strip`, `splitlines`,
`partition` and the newline translation of `read_text`. Every line boundary is white space, so a stripped text has
boundaries only inside.
-/

namespace PyText

/-- `str.isspace` of one character. -/
def isSpace (c : Char) : Bool :=
  decide (9 ≤ c.toNat ∧ c.toNat ≤ 13 ∨ 28 ≤ c.toNat ∧ c.toNat ≤ 32 ∨ c.toNat = 0x85 ∨ c.toNat = 0xA0 ∨
    c.toNat = 0x1680 ∨ 0x2000 ≤ c.toNat ∧ c.toNat ≤ 0x200A ∨ c.toNat = 0x2028 ∨ c.toNat = 0x2029 ∨
    c.toNat = 0x202F ∨ c.toNat = 0x205F ∨ c.toNat = 0x3000)

/-- The characters at which `str.splitlines` ends a line. -/
def isLineBreak (c : Char) : Bool :=
  decide (10 ≤ c.toNat ∧ c.toNat ≤ 13 ∨ 28 ≤ c.toNat ∧ c.toNat ≤ 30 ∨ c.toNat = 0x85 ∨ c.toNat = 0x2028 ∨
    c.toNat = 0x2029)

/-- `str.strip()` -/
def strip (cs : List Char) : List Char := (cs.dropWhile isSpace).rdropWhile isSpace

/-- `str.splitlines()` of the rest of a text, with the characters of its unfinished line. -/
def splitLinesFrom (line : List Char) : List Char → List (List Char)
  | [] => if line = [] then [] else [line]
  | '\r' :: '\n' :: rest => line :: splitLinesFrom [] rest
  | c :: rest => if isLineBreak c then line :: splitLinesFrom [] rest else splitLinesFrom (line ++ [c]) rest

/-- `str.splitlines()` -/
def splitLines (cs : List Char) : List (List Char) := splitLinesFrom [] cs

/-- `str.partition(separator)`, or nothing where the separator does not occur. -/
def partition (separator : List Char) : List Char → Option (List Char × List Char)
  | [] => none
  | c :: rest =>
    if separator <+: c :: rest then some ([], (c :: rest).drop separator.length)
    else (partition separator rest).map fun parts => (c :: parts.1, parts.2)

/-- The newline translation of a text file that is opened for reading. -/
def universalNewlines : List Char → List Char
  | [] => []
  | '\r' :: '\n' :: rest => '\n' :: universalNewlines rest
  | c :: rest => (if c = '\r' then '\n' else c) :: universalNewlines rest

/-- `str.upper()` of one character, where its upper case is ASCII; any other character stands for its upper case. -/
def upperChar (c : Char) : List Char :=
  if c.isLower then [c.toUpper]
  else if c = 'ı' then ['I']
  else if c = 'ſ' then ['S']
  else if c = 'ß' then ['S', 'S']
  else if c = 'ﬀ' then ['F', 'F']
  else if c = 'ﬁ' then ['F', 'I']
  else if c = 'ﬂ' then ['F', 'L']
  else if c = 'ﬃ' then ['F', 'F', 'I']
  else if c = 'ﬄ' then ['F', 'F', 'L']
  else if c = 'ﬅ' ∨ c = 'ﬆ' then ['S', 'T']
  else [c]

/-- `str.upper()`, as far as a comparison with an ASCII word can tell. -/
def upper (cs : List Char) : List Char := cs.flatMap upperChar

variable {c : Char}

theorem isSpace_of_isLineBreak (h : isLineBreak c = true) : isSpace c = true := by
  simp only [isLineBreak, isSpace, decide_eq_true_eq] at h ⊢
  omega

theorem not_isLineBreak_of_not_isSpace (h : isSpace c = false) : isLineBreak c = false := by
  by_contra hbreak
  rw [Bool.not_eq_false] at hbreak
  rw [isSpace_of_isLineBreak hbreak] at h
  cases h

variable {cs : List Char} {p : Char → Bool}

theorem dropWhile_of_head (h : ∀ c ∈ cs.head?, p c = false) : cs.dropWhile p = cs := by
  cases cs with
  | nil => rfl
  | cons c rest => rw [List.dropWhile_cons_of_neg (by simp [h c (by simp)])]

theorem rdropWhile_of_getLast (h : ∀ c ∈ cs.getLast?, p c = false) : cs.rdropWhile p = cs := by
  rcases List.eq_nil_or_concat cs with rfl | ⟨init, c, rfl⟩
  · rfl
  · rw [List.concat_eq_append, List.rdropWhile_concat_neg]
    simp [h c (by simp)]

theorem strip_append_space (hne : cs ≠ []) (hhead : ∀ d ∈ cs.head?, isSpace d = false)
    (hc : isSpace c = true) : strip (cs ++ [c]) = cs.rdropWhile isSpace := by
  have hhead' : ∀ d ∈ (cs ++ [c]).head?, isSpace d = false := by
    cases cs with
    | nil => exact absurd rfl hne
    | cons d rest => exact hhead
  rw [strip, dropWhile_of_head hhead', List.rdropWhile_concat_pos _ _ _ hc]

theorem ends_of_strip_eq (h : strip cs = cs) :
    (∀ c ∈ cs.head?, isSpace c = false) ∧ ∀ c ∈ cs.getLast?, isSpace c = false := by
  have hlength := congrArg List.length h
  have hdrop := List.length_dropWhile_le isSpace cs
  have hrdrop := (List.rdropWhile_prefix isSpace (cs.dropWhile isSpace)).length_le
  have hfirst : cs.dropWhile isSpace = cs :=
    (List.dropWhile_suffix isSpace).eq_of_length (by rw [strip] at hlength; omega)
  constructor
  · intro c hc
    cases cs with
    | nil => cases hc
    | cons d rest =>
      obtain rfl : d = c := by simpa using hc
      by_contra hspace
      rw [Bool.not_eq_false] at hspace
      rw [List.dropWhile_cons_of_pos hspace] at hfirst
      have := congrArg List.length hfirst
      have := List.length_dropWhile_le isSpace rest
      simp only [List.length_cons] at *
      omega
  · intro c hc
    rw [strip, hfirst] at h
    have hne : cs ≠ [] := by
      rintro rfl
      cases hc
    rw [List.rdropWhile_eq_self_iff] at h
    have hlast := h hne
    rw [List.getLast?_eq_getLast_of_ne_nil hne] at hc
    obtain rfl := Option.some.inj hc
    simpa using hlast

theorem splitLinesFrom_of_all {line : List Char} (h : ∀ c ∈ cs, isLineBreak c = false) :
    splitLinesFrom line cs = if line ++ cs = [] then [] else [line ++ cs] := by
  induction cs generalizing line with
  | nil => simp [splitLinesFrom]
  | cons c rest ih =>
    rw [List.forall_mem_cons] at h
    rw [splitLinesFrom]
    · rw [if_neg (by simp [h.1]), ih h.2]
      simp
    · rintro rest' rfl -
      exact absurd h.1 (by decide)

theorem splitLines_of_all (hne : cs ≠ []) (h : ∀ c ∈ cs, isLineBreak c = false) : splitLines cs = [cs] := by
  rw [splitLines, splitLinesFrom_of_all h, List.nil_append, if_neg hne]

theorem splitLinesFrom_ne_nil {line cs : List Char} (h : line ++ cs ≠ []) : splitLinesFrom line cs ≠ [] := by
  induction cs generalizing line with
  | nil =>
    rw [List.append_nil] at h
    simp [splitLinesFrom, h]
  | cons c rest ih =>
    rw [splitLinesFrom.eq_def]
    split
    · rename_i heq
      cases heq
    · simp
    · rename_i heq
      obtain ⟨rfl, rfl⟩ := List.cons.inj heq
      split_ifs
      · simp
      · exact ih (by simp)

theorem two_le_length_lines {rest : List Char} (line : List Char) (h : rest ≠ []) :
    2 ≤ (line :: splitLinesFrom [] rest).length := by
  have := List.length_pos_of_ne_nil (@splitLinesFrom_ne_nil [] rest h)
  rw [List.length_cons]
  omega

theorem length_splitLinesFrom {line cs : List Char} (h : ∃ c ∈ cs, isLineBreak c = true)
    (hlast : ∀ c ∈ cs.getLast?, isLineBreak c = false) : 2 ≤ (splitLinesFrom line cs).length := by
  induction cs generalizing line with
  | nil => simp at h
  | cons c rest ih =>
    rw [splitLinesFrom.eq_def]
    split
    · rename_i heq
      cases heq
    · rename_i rest' heq
      obtain ⟨rfl, rfl⟩ := List.cons.inj heq
      apply two_le_length_lines
      rintro rfl
      exact absurd (hlast '\n' (by simp)) (by decide)
    · rename_i heq
      obtain ⟨rfl, rfl⟩ := List.cons.inj heq
      have hne : isLineBreak c = true → rest ≠ [] := by
        rintro hc rfl
        rw [hlast c (by simp)] at hc
        cases hc
      split_ifs with hc
      · exact two_le_length_lines line (hne hc)
      · obtain ⟨d, hd, hbreak⟩ := h
        have hd : d ∈ rest := by
          rcases List.mem_cons.1 hd with rfl | hd
          · exact absurd hbreak hc
          · exact hd
        have hrest : rest ≠ [] := List.ne_nil_of_mem hd
        refine ih ⟨d, hd, hbreak⟩ fun e he => hlast e ?_
        rwa [List.getLast?_cons, List.getLast?_eq_getLast_of_ne_nil hrest, Option.getD_some,
          ← List.getLast?_eq_getLast_of_ne_nil hrest]

theorem partition_append {start before after : List Char} {last : Char} (h : last ∉ before ++ start) :
    partition (start ++ [last]) (before ++ (start ++ [last] ++ after)) = some (before, after) := by
  induction before with
  | nil =>
    rw [List.nil_append]
    cases htext : start ++ [last] ++ after with
    | nil => simp at htext
    | cons c rest => rw [partition, ← htext, if_pos (List.prefix_append _ _), List.drop_left]
  | cons c before ih =>
    have hno : ¬ start ++ [last] <+: c :: (before ++ (start ++ [last] ++ after)) := by
      intro hp
      have hshort : start ++ [last] <+: c :: before ++ start := by
        apply @List.prefix_of_prefix_length_le _ _ _ (c :: before ++ start ++ ([last] ++ after))
        · simpa using hp
        · exact List.prefix_append _ _
        · simp
      exact h (hshort.subset (by simp))
    rw [List.cons_append, partition, if_neg hno, ih fun hmem => h (List.mem_cons_of_mem _ hmem)]
    rfl

theorem partition_eq_some {separator before after : List Char} (h : partition separator cs = some (before, after)) :
    cs = before ++ (separator ++ after) := by
  induction cs generalizing before with
  | nil => cases h
  | cons c rest ih =>
    rw [partition] at h
    split_ifs at h with hp
    · obtain ⟨rfl, rfl⟩ := Prod.mk.inj (Option.some.inj h)
      obtain ⟨tail, htail⟩ := hp
      rw [← htail, List.drop_left, List.nil_append]
    · obtain ⟨⟨before', after'⟩, hparts, heq⟩ := Option.map_eq_some_iff.1 h
      obtain ⟨rfl, rfl⟩ := Prod.mk.inj heq
      rw [ih hparts, List.cons_append]

theorem universalNewlines_of_all (h : ∀ c ∈ cs, c ≠ '\r') : universalNewlines cs = cs := by
  induction cs with
  | nil => rfl
  | cons c rest ih =>
    rw [List.forall_mem_cons] at h
    rw [universalNewlines]
    · rw [if_neg h.1, ih h.2]
    · rintro rest' rfl
      exact absurd rfl h.1

end PyText
