import TradingAgent.Lib.JsonDumps

/-!
# Strings told apart by their texts

The text of a string shows where it ends, so two values made of strings and lists have different texts, whatever
follows them.
-/

namespace Json

theorem readChar_dumpsChar (c : Char) (rest : List Char) :
    readChar (dumpsChar c ++ rest) = if c.toNat = 0 then none else some (some c, rest) := by
  split_ifs with h0
  · have hc : c = Char.ofNat 0 := by rw [← h0, Char.ofNat_toNat]
    subst hc
    rfl
  · by_cases hhigh : c.toNat ≤ 126
    · have hsame : dumpsChar c = canonicalChar c := by
        unfold dumpsChar canonicalChar
        have hunit : c.toNat ≤ 65535 := by omega
        have hbound : ¬ 126 < c.toNat := by omega
        simp only [hunit, hbound, or_false, if_true]
      rw [hsame, readChar_canonicalChar h0]
    · have hplain : dumpsChar c = [c] := by
        unfold dumpsChar
        repeat rw [if_neg (by omega)]
      rw [hplain]
      exact readChar_plain (by omega) (by omega) (by omega) rest

variable {r r' : List Char}

theorem dumpsChar_append_inj {c d : Char} (h : dumpsChar c ++ r = dumpsChar d ++ r') : c = d ∧ r = r' := by
  have hread := congrArg readChar h
  rw [readChar_dumpsChar, readChar_dumpsChar] at hread
  by_cases hc : c.toNat = 0
  · by_cases hd : d.toNat = 0
    · have hcd : c = d := by rw [← Char.ofNat_toNat c, ← Char.ofNat_toNat d, hc, hd]
      subst hcd
      exact ⟨rfl, List.append_cancel_left h⟩
    · rw [if_pos hc, if_neg hd] at hread
      cases hread
  · by_cases hd : d.toNat = 0
    · rw [if_neg hc, if_pos hd] at hread
      cases hread
    · rw [if_neg hc, if_neg hd] at hread
      cases hread
      exact ⟨rfl, rfl⟩

theorem dumpsChar_append_ne (c : Char) (r r' : List Char) : dumpsChar c ++ r ≠ '"' :: r' := by
  intro h
  have hread := congrArg readChar h
  rw [readChar_dumpsChar] at hread
  split_ifs at hread
  · cases hread
  · cases hread

variable {s t : List Char}

theorem dumpsChars_append_inj
    (h : s.flatMap dumpsChar ++ '"' :: r = t.flatMap dumpsChar ++ '"' :: r') : s = t ∧ r = r' := by
  induction s generalizing t with
  | nil =>
    cases t with
    | nil => exact ⟨rfl, (List.cons.inj h).2⟩
    | cons d t =>
      rw [List.flatMap_cons, List.append_assoc] at h
      exact absurd h.symm (dumpsChar_append_ne _ _ _)
  | cons c s ih =>
    rw [List.flatMap_cons, List.append_assoc] at h
    cases t with
    | nil => exact absurd h (dumpsChar_append_ne _ _ _)
    | cons d t =>
      rw [List.flatMap_cons, List.append_assoc] at h
      obtain ⟨rfl, hrest⟩ := dumpsChar_append_inj h
      obtain ⟨rfl, rfl⟩ := ih hrest
      exact ⟨rfl, rfl⟩

theorem dumpsString_append_inj (h : dumpsString s ++ r = dumpsString t ++ r') : s = t ∧ r = r' := by
  unfold dumpsString at h
  rw [List.cons_append, List.cons_append, List.append_assoc, List.append_assoc] at h
  exact dumpsChars_append_inj (List.cons.inj h).2

mutual

/-- The value is made of strings and lists. -/
def Textual : Json → Prop
  | str _ => True
  | arr items => TextualItems items
  | _ => False

def TextualItems : List Json → Prop
  | [] => True
  | value :: rest => value.Textual ∧ TextualItems rest

end

def dumpsTail (rest : List Json) : List Char := if rest = [] then [']'] else ',' :: dumpsItems rest

theorem dumpsItems_cons (value : Json) (rest : List Json) :
    dumpsItems (value :: rest) = dumps value ++ dumpsTail rest := by
  cases rest with
  | nil => rfl
  | cons x xs => rfl

theorem dumps_ne_bracket {value : Json} (h : value.Textual) (r r' : List Char) : dumps value ++ r ≠ ']' :: r' := by
  cases value with
  | str s => exact fun heq => absurd (List.cons.inj heq).1 (by decide)
  | arr items => exact fun heq => absurd (List.cons.inj heq).1 (by decide)
  | null => exact h.elim
  | bool b => exact h.elim
  | num n k => exact h.elim
  | obj members => exact h.elim

mutual

theorem dumps_append_inj : ∀ x y : Json, x.Textual → y.Textual → ∀ r r' : List Char,
    dumps x ++ r = dumps y ++ r' → x = y ∧ r = r'
  | str s, y, _, hy, r, r', h => by
    cases y with
    | str t =>
      obtain ⟨hst, hr⟩ := dumpsString_append_inj h
      exact ⟨congrArg str (String.toList_inj.1 hst), hr⟩
    | arr ys => exact absurd (List.cons.inj h).1 (by decide)
    | null => exact hy.elim
    | bool b => exact hy.elim
    | num n k => exact hy.elim
    | obj members => exact hy.elim
  | arr xs, y, hx, hy, r, r', h => by
    cases y with
    | str t => exact absurd (List.cons.inj h).1 (by decide)
    | arr ys =>
      obtain ⟨hxy, hr⟩ := dumpsItems_append_inj xs ys hx hy r r' (List.cons.inj h).2
      exact ⟨congrArg arr hxy, hr⟩
    | null => exact hy.elim
    | bool b => exact hy.elim
    | num n k => exact hy.elim
    | obj members => exact hy.elim
  | null, _, hx, _, _, _, _ => hx.elim
  | bool _, _, hx, _, _, _, _ => hx.elim
  | num _ _, _, hx, _, _, _, _ => hx.elim
  | obj _, _, hx, _, _, _, _ => hx.elim

theorem dumpsItems_append_inj : ∀ xs ys : List Json, TextualItems xs → TextualItems ys → ∀ r r' : List Char,
    dumpsItems xs ++ r = dumpsItems ys ++ r' → xs = ys ∧ r = r'
  | [], [], _, _, _, _, h => ⟨rfl, (List.cons.inj h).2⟩
  | [], y :: ys, _, hy, r, r', h => by
    rw [dumpsItems_cons, List.append_assoc] at h
    exact absurd h.symm (dumps_ne_bracket hy.1 _ _)
  | x :: xs, [], hx, _, r, r', h => by
    rw [dumpsItems_cons, List.append_assoc] at h
    exact absurd h (dumps_ne_bracket hx.1 _ _)
  | x :: xs, y :: ys, hx, hy, r, r', h => by
    rw [dumpsItems_cons, dumpsItems_cons, List.append_assoc, List.append_assoc] at h
    obtain ⟨rfl, htail⟩ := dumps_append_inj x y hx.1 hy.1 _ _ h
    unfold dumpsTail at htail
    split_ifs at htail with hxs hys hys
    · rw [hxs, hys]
      exact ⟨rfl, (List.cons.inj htail).2⟩
    · exact absurd (List.cons.inj htail).1 (by decide)
    · exact absurd (List.cons.inj htail).1 (by decide)
    · obtain ⟨rfl, hr⟩ := dumpsItems_append_inj xs ys hx.2 hy.2 r r' (List.cons.inj htail).2
      exact ⟨rfl, hr⟩

end

end Json
