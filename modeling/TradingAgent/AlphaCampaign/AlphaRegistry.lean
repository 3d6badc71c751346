import TradingAgent.AlphaCampaign.Publication

/-!
# Lifecycle paths

The statuses and the transition table of `AlphaRegistry` (`packages/alpha_lifecycle/registry.py`), and the paths that
a published lifecycle takes through it.
-/

namespace TradingAgent.AlphaCampaign

open ThreeValued

inductive AlphaLifecycleStatus
  | idea
  | candidate
  | researched
  | oosPass
  | qualified
  | paperObserved
  | rejected
  | retired
  deriving DecidableEq

namespace AlphaLifecycleStatus

def value : AlphaLifecycleStatus → String
  | idea => "IDEA"
  | candidate => "CANDIDATE"
  | researched => "RESEARCHED"
  | oosPass => "OOS_PASS"
  | qualified => "QUALIFIED"
  | paperObserved => "PAPER_OBSERVED"
  | rejected => "REJECTED"
  | retired => "RETIRED"

def transitions : AlphaLifecycleStatus → List AlphaLifecycleStatus
  | idea => [candidate, rejected, retired]
  | candidate => [researched, rejected, retired]
  | researched => [oosPass, rejected, retired]
  | oosPass => [qualified, rejected, retired]
  | qualified => [paperObserved, retired]
  | paperObserved => [retired]
  | rejected => [retired]
  | retired => []

/-- A lifecycle so far: none, or a path of the transition table that starts with `IDEA`, `CANDIDATE`. -/
def LegalPath (statuses : List AlphaLifecycleStatus) : Prop :=
  statuses = [] ∨ (∃ rest, statuses = idea :: candidate :: rest) ∧
    statuses.IsChain fun before after => after ∈ before.transitions

theorem idea_notMem_transitions (s : AlphaLifecycleStatus) : idea ∉ s.transitions := by
  cases s <;> decide

theorem value_injective : Function.Injective value := by
  intro x y h
  cases x <;> cases y <;> first | rfl | simp [value] at h

variable {statuses : List AlphaLifecycleStatus}

theorem LegalPath.last_ne_idea (h : LegalPath statuses) : statuses.getLast? ≠ some idea := by
  rcases h with rfl | ⟨⟨rest, rfl⟩, hchain⟩
  · simp
  · intro hlast
    rw [List.getLast?_cons_cons] at hlast
    -- The last status of the tail comes after another one.
    obtain ⟨front, hfront⟩ := List.getLast?_eq_some_iff.1 hlast
    rw [hfront, List.isChain_cons] at hchain
    rcases List.eq_nil_or_concat front with rfl | ⟨front', s, rfl⟩
    · exact idea_notMem_transitions idea (hchain.1 idea (by simp))
    · rw [List.concat_eq_append, List.append_assoc, List.isChain_append] at hchain
      exact idea_notMem_transitions s (List.isChain_cons_cons.1 hchain.2.2.1).1

theorem LegalPath.concat (h : LegalPath statuses) {before after : AlphaLifecycleStatus}
    (hlast : statuses.getLast? = some before) (hnext : after ∈ before.transitions) :
    LegalPath (statuses ++ [after]) := by
  rcases h with rfl | ⟨⟨rest, rfl⟩, hchain⟩
  · cases hlast
  · refine .inr ⟨⟨rest ++ [after], rfl⟩, ?_⟩
    rw [List.isChain_append]
    refine ⟨hchain, List.isChain_singleton _, fun x hx y hy => ?_⟩
    rw [hlast] at hx
    obtain rfl := Option.some.inj hx
    obtain rfl := Option.some.inj hy
    exact hnext

theorem legalPath_opening : LegalPath [idea, candidate] :=
  .inr ⟨⟨[], rfl⟩, List.isChain_pair.2 (by decide)⟩

end AlphaLifecycleStatus

open AlphaLifecycleStatus

variable {next : String}

theorem mem_of_not_refused {names : List String}
    (h : ¬ holds (not (test (names.contains ·) (some next)))) : next ∈ names := by
  simpa [holds, ThreeValued.not, test] using h

theorem transition_of_allowed {previous : Option String} (h : ¬ holds (not (transitionAllowed previous (some next)))) :
    ∃ before after : AlphaLifecycleStatus, previous = some before.value ∧ next = after.value ∧
      after ∈ before.transitions := by
  have hlisted (before : AlphaLifecycleStatus) (hnext : next ∈ before.transitions.map value) :
      ∃ b after : AlphaLifecycleStatus, some before.value = some b.value ∧ next = after.value ∧
        after ∈ b.transitions := by
    obtain ⟨after, hafter, rfl⟩ := List.mem_map.1 hnext
    exact ⟨before, after, rfl, rfl, hafter⟩
  have hretired (h : ¬ holds (not (eq (some next) (some "RETIRED")))) : next ∈ ["RETIRED"] := by
    simpa [holds, ThreeValued.not] using h
  unfold transitionAllowed at h
  split at h
  · exact hlisted idea (mem_of_not_refused h)
  · exact hlisted candidate (mem_of_not_refused h)
  · exact hlisted researched (mem_of_not_refused h)
  · exact hlisted oosPass (mem_of_not_refused h)
  · exact hlisted qualified (mem_of_not_refused h)
  · exact hlisted paperObserved (hretired h)
  · exact hlisted rejected (hretired h)
  · exact absurd rfl h

end TradingAgent.AlphaCampaign
