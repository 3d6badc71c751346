import TradingAgent.SecurityMaster.PayloadAgreement

/-! Which locators are refused for a sensitive word. -/

namespace TradingAgent.SecurityMaster

open Json TextSearch

namespace LocatorDocument

variable (l : LocatorDocument)

def Refused : Prop :=
  ∃ candidate ∈ Validation.locatorCandidates l.authority.1 (l.path.1.map Subtype.val),
    Validation.refused candidate = true

instance : Decidable l.Refused := inferInstanceAs (Decidable (∃ candidate ∈ _, _))

/-- A component has one of the words that may be harmless in a longer word. -/
def SplitWord : Prop := ∃ word ∈ l.words, word ∈ ["token", "secret", "account"].map String.toList

instance : Decidable l.SplitWord := inferInstanceAs (Decidable (∃ word ∈ _, _))

theorem candidates_eq : l.candidates = Validation.locatorCandidates l.authority.1 (l.path.1.map Subtype.val) := by
  have hnormalized : l.normalized = Validation.normalized l.authority.1 ::
      (l.path.1.map Subtype.val).map Validation.normalized := by
    unfold normalized components Validation.normalized
    rw [List.map_cons, List.map_cons, List.map_map, List.map_map, List.map_map]
    rfl
  unfold candidates Validation.locatorCandidates
  rw [hnormalized]
  rfl

end LocatorDocument

namespace Validation

theorem replacedWord_iff (candidate : List Char) :
    (replacedWords.any fun (word, replaced) => contains word.toList (replaceAll replaced.toList ['#'] candidate)) =
      ([("token", "iz"), ("secret", "ar"), ("account", "ing")].any (embeds candidate)) := by
  have htoken := (show Marked 't' ['o', 'k', 'e', 'n'] ['i', 'z'] '#' from ⟨by decide, by decide⟩).contains_replaceAll
    candidate
  have hsecret := (show Marked 's' ['e', 'c', 'r', 'e', 't'] ['a', 'r'] '#' from
    ⟨by decide, by decide⟩).contains_replaceAll candidate
  have haccount := (show Marked 'a' ['c', 'c', 'o', 'u', 'n', 't'] ['i', 'n', 'g'] '#' from
    ⟨by decide, by decide⟩).contains_replaceAll candidate
  have hword : ∀ word continuation : String, continuation ≠ "" →
      embeds candidate (word, continuation) = foundUnless word.toList continuation.toList candidate :=
    fun word continuation h => if_neg h
  simp only [replacedWords, List.any_cons, List.any_nil, hword _ _ (show ("iz" : String) ≠ "" by decide),
    hword _ _ (show ("ar" : String) ≠ "" by decide), hword _ _ (show ("ing" : String) ≠ "" by decide)]
  exact congrArg₂ _ htoken (congrArg₂ _ hsecret (congrArg₂ _ haccount rfl))

theorem refused_iff (candidate : List Char) : refused candidate = true ↔
    (∃ term ∈ sensitiveCompounds, contains term.toList candidate = true) ∨
      ∃ pattern ∈ embeddedPatterns, embeds candidate pattern = true := by
  have hforbidden : forbiddenWords = sensitiveCompounds ++ ["routing", "execution", "execute"] := rfl
  have hpatterns : embeddedPatterns = [("token", "iz"), ("secret", "ar"), ("account", "ing")] ++
      ["routing", "execution", "execute"].map fun word => (word, "") := rfl
  rw [refused, replacedWord_iff, hforbidden, hpatterns]
  simp only [List.any_append, Bool.or_eq_true, List.any_eq_true, List.mem_append, or_and_right, exists_or,
    List.mem_map, or_assoc]
  refine or_congr_right ?_
  rw [or_comm]
  refine or_congr_right ?_
  constructor
  · rintro ⟨word, hword, h⟩
    exact ⟨(word, ""), ⟨word, hword, rfl⟩, h⟩
  · rintro ⟨_, ⟨word, hword, rfl⟩, h⟩
    exact ⟨word, hword, h⟩

end Validation

namespace LocatorDocument

variable (l : LocatorDocument)

theorem exists_candidate_of_mem_words {word : List Char} (h : word ∈ l.words) :
    ∃ candidate ∈ l.candidates, word <:+: candidate := by
  obtain ⟨hword, -⟩ := List.mem_filter.1 h
  obtain ⟨component, hcomponent, hword⟩ := List.mem_flatMap.1 hword
  refine ⟨component.filter isLowerOrDigit, ?_, (words_infix_filter _ component).2 word hword⟩
  exact List.mem_append_left _ (List.mem_map_of_mem hcomponent)

/-- The model refuses what the database refuses, and the separate words that may be harmless in a longer word. -/
theorem sensitive_iff : l.Sensitive ↔ l.Refused ∨ l.SplitWord := by
  have hrefused : l.Refused ↔ ∃ candidate ∈ l.candidates, Validation.refused candidate = true := by
    rw [Refused, l.candidates_eq]
  rw [hrefused]
  constructor
  · rintro (⟨word, hword, hsensitive⟩ | ⟨candidate, hcandidate, h⟩)
    · by_cases hsplit : word ∈ ["token", "secret", "account"].map String.toList
      · exact .inr ⟨word, hword, hsplit⟩
      · left
        obtain ⟨candidate, hcandidate, hinfix⟩ := l.exists_candidate_of_mem_words hword
        refine ⟨candidate, hcandidate, ?_⟩
        have hforbidden : ∀ w ∈ sensitiveWords.map String.toList, w ∉ ["token", "secret", "account"].map String.toList →
            ∃ term ∈ Validation.forbiddenWords, term.toList <:+: w := by decide +kernel
        obtain ⟨term, hterm, hinfix'⟩ := hforbidden word hsensitive hsplit
        rw [Validation.refused, Bool.or_eq_true]
        exact .inl (List.any_eq_true.2 ⟨term, hterm, decide_eq_true (hinfix'.trans hinfix)⟩)
    · left
      refine ⟨candidate, hcandidate, ?_⟩
      rcases h with h | h
      · have hall : ∀ w ∈ sensitiveWords.map String.toList, Validation.refused w = true := by decide +kernel
        exact hall candidate h
      · exact (Validation.refused_iff candidate).2 h
  · rintro (⟨candidate, hcandidate, h⟩ | ⟨word, hword, hsplit⟩)
    · exact .inr ⟨candidate, hcandidate, .inr ((Validation.refused_iff candidate).1 h)⟩
    · left
      have hsensitive : ∀ w ∈ ["token", "secret", "account"].map String.toList,
          w ∈ sensitiveWords.map String.toList := by decide +kernel
      exact ⟨word, hword, hsensitive word hsplit⟩

end LocatorDocument

end TradingAgent.SecurityMaster
