import Mathlib.Data.List.Infix

/-!
# Searching texts

`replaceAll word rep` replaces the occurrences of a word from left to right. Where no occurrence can overlap
another, the word without a continuation is found in the text exactly where it is found after every continued
occurrence was replaced (`Marked.contains_replaceAll`).
-/

namespace TextSearch

variable {α : Type} [DecidableEq α]

/-- `strpos(text, word) > 0` -/
def contains (word text : List α) : Bool := decide (word <:+: text)

def replaceFrom (word rep : List α) : ℕ → List α → List α
  | _, [] => []
  | skip + 1, _ :: rest => replaceFrom word rep skip rest
  | 0, c :: rest =>
    if word <+: c :: rest then rep ++ replaceFrom word rep (word.length - 1) rest
    else c :: replaceFrom word rep 0 rest

/-- `replace(text, word, rep)` -/
def replaceAll (word rep text : List α) : List α := replaceFrom word rep 0 text

/-- The word is found where it is not continued, `re.search(word + "(?!" + continuation + ")", text)`. -/
def foundUnless (word continuation : List α) : List α → Bool
  | [] => decide (word = [] ∧ continuation ≠ [])
  | c :: rest => decide (word <+: c :: rest ∧ ¬ word ++ continuation <+: c :: rest) ||
    foundUnless word continuation rest

/-- The words between the other letters, `re.split` at them. -/
def words (letter : α → Bool) : List α → List (List α)
  | [] => [[]]
  | c :: rest =>
    if letter c then
      match words letter rest with
      | [] => [[c]]
      | word :: others => (c :: word) :: others
    else [] :: words letter rest

omit [DecidableEq α] in
theorem words_infix_filter (letter : α → Bool) (text : List α) :
    (∀ word ∈ (words letter text).head?, word <+: text.filter letter) ∧
      ∀ word ∈ words letter text, word <:+: text.filter letter := by
  induction text with
  | nil => simp [words]
  | cons c rest ih =>
    rw [words]
    split_ifs with hc
    · rw [List.filter_cons_of_pos hc]
      split
      · simp [List.singleton_infix_iff]
      · rename_i word others hwords
        rw [hwords] at ih
        have hfirst : c :: word <+: c :: rest.filter letter := List.cons_prefix_cons.2 ⟨rfl, ih.1 word rfl⟩
        refine ⟨by simpa using hfirst, fun w hw => ?_⟩
        rcases List.mem_cons.1 hw with rfl | hw
        · exact hfirst.isInfix
        · exact List.infix_cons (ih.2 w (List.mem_cons_of_mem _ hw))
    · rw [List.filter_cons_of_neg hc]
      refine ⟨by simp, fun w hw => ?_⟩
      rcases List.mem_cons.1 hw with rfl | hw
      · exact List.nil_infix
      · exact ih.2 w hw

theorem replaceFrom_eq_drop (word rep : List α) (skip : ℕ) (text : List α) :
    replaceFrom word rep skip text = replaceFrom word rep 0 (text.drop skip) := by
  induction skip generalizing text with
  | zero => rfl
  | succ skip ih =>
    cases text with
    | nil => rfl
    | cons c rest =>
      rw [replaceFrom, List.drop_succ_cons]
      exact ih rest

variable {head mark : α} {tail continuation : List α}

/-- A word begins with a letter that it does not repeat, also where it is continued, and lacks the mark. -/
structure Marked (head : α) (tail continuation : List α) (mark : α) : Prop where
  head_once : head ∉ tail ++ continuation
  unmarked : mark ≠ head ∧ mark ∉ tail

theorem prefix_replaceFrom_iff {part text : List α} (hhead : head ∉ part) (hmark : mark ∉ part) :
    part <+: replaceFrom (head :: tail ++ continuation) [mark] 0 text ↔ part <+: text := by
  induction text generalizing part with
  | nil => rfl
  | cons c rest ih =>
    cases part with
    | nil => simp
    | cons x part =>
      rw [List.mem_cons, not_or] at hhead hmark
      rw [replaceFrom]
      split_ifs with hword
      · have hc : c = head := (List.cons_prefix_cons.1 hword).1.symm
        constructor
        · intro hpart
          exact absurd (List.cons_prefix_cons.1 hpart).1.symm hmark.1
        · intro hpart
          exact absurd ((List.cons_prefix_cons.1 hpart).1.trans hc).symm hhead.1
      · rw [List.cons_prefix_cons, List.cons_prefix_cons, ih hhead.2 hmark.2]

theorem foundUnless_drop {skip : ℕ} {text : List α} (h : ∀ c ∈ text.take skip, c ≠ head) :
    foundUnless (head :: tail) continuation text = foundUnless (head :: tail) continuation (text.drop skip) := by
  induction skip generalizing text with
  | zero => rfl
  | succ skip ih =>
    cases text with
    | nil => rfl
    | cons c rest =>
      rw [List.take_succ_cons, List.forall_mem_cons] at h
      have hno : ¬ head :: tail <+: c :: rest := fun hp => h.1 (List.cons_prefix_cons.1 hp).1.symm
      rw [foundUnless, List.drop_succ_cons, ih h.2]
      simp [hno]

theorem Marked.contains_replaceAll (h : Marked head tail continuation mark) (text : List α) :
    contains (head :: tail) (replaceAll (head :: tail ++ continuation) [mark] text) =
      foundUnless (head :: tail) continuation text := by
  unfold contains replaceAll
  induction hlength : text.length using Nat.strongRecOn generalizing text with
  | ind n ih =>
    cases text with
    | nil => simp [replaceFrom, foundUnless]
    | cons c rest =>
      rw [replaceFrom]
      split_ifs with hword
      · -- the continued word is skipped on both sides
        obtain ⟨after, hafter⟩ := hword
        rw [List.cons_append, List.cons_append, List.cons.injEq] at hafter
        obtain ⟨rfl, hrest⟩ := hafter
        have hdrop : rest.drop (tail ++ continuation).length = after := by rw [← hrest, List.drop_left]
        have htake : rest.take (tail ++ continuation).length = tail ++ continuation := by rw [← hrest, List.take_left]
        have hlt : after.length < n := by
          rw [← hlength, ← hrest]
          simp only [List.length_cons, List.length_append]
          omega
        have hskip : (head :: tail ++ continuation).length - 1 = (tail ++ continuation).length := by simp
        have hskipped : ∀ d ∈ rest.take (tail ++ continuation).length, d ≠ head := by
          rw [htake]
          rintro d hd rfl
          exact h.head_once hd
        rw [hskip, replaceFrom_eq_drop, hdrop, foundUnless, foundUnless_drop hskipped, hdrop, ← ih _ hlt after rfl]
        have hmark : ¬ head :: tail <+: mark :: replaceFrom (head :: (tail ++ continuation)) [mark] 0 after :=
          fun hp => h.unmarked.1 (List.cons_prefix_cons.1 hp).1.symm
        have hcontinued : head :: (tail ++ continuation) <+: head :: rest := ⟨after, by rw [← hrest]; simp⟩
        simp [List.infix_cons_iff, hmark, hcontinued]
      · have hlt : rest.length < n := by rw [← hlength]; simp
        have hprefix : head :: tail <+: c :: replaceFrom (head :: tail ++ continuation) [mark] 0 rest ↔
            head :: tail <+: c :: rest := by
          rw [List.cons_prefix_cons, List.cons_prefix_cons, prefix_replaceFrom_iff
            (fun hm => h.head_once (List.mem_append_left _ hm)) h.unmarked.2]
        rw [foundUnless, ← ih _ hlt rest rfl]
        simp only [List.infix_cons_iff, hprefix, hword, not_false_eq_true, and_true, Bool.decide_or]

end TextSearch
