import TradingAgent.Lib.Dict
import TradingAgent.Lib.Outcome

/-!
# Journals

A reducer that keeps a journal of the inputs it has applied: an input in the journal changes nothing, any other comes
after it and is put at its end. The journal of a loop does not depend on the order of its inputs or their repetitions
(`Journals.log_eq`).
-/

open Outcome

variable {σ α ε : Type}

/-- The reducer journals the admitted inputs by `rank`. -/
def Journals (step : σ → α → Except ε σ) (log : σ → List α) (rank : α → ℕ) (admitted : α → Prop) : Prop :=
  ∀ s a s', (∀ b ∈ log s, admitted b) → admitted a → step s a = .ok s' →
    (a ∈ log s ∧ s' = s) ∨ ((∀ b ∈ log s, rank b < rank a) ∧ log s' = log s ++ [a])

namespace Journals

variable {step : σ → α → Except ε σ} {log : σ → List α} {rank : α → ℕ} {admitted : α → Prop}

variable (h : Journals step log rank admitted)
include h

theorem mem_step {s s' : σ} {a : α} (hs : ∀ b ∈ log s, admitted b)
    (ha : admitted a) (hstep : step s a = .ok s') (b : α) : b ∈ log s' ↔ b ∈ log s ∨ b = a := by
  rcases h s a s' hs ha hstep with ⟨hmem, rfl⟩ | ⟨-, hlog⟩
  · constructor
    · exact .inl
    · rintro (hb | rfl)
      · exact hb
      · exact hmem
  · rw [hlog, List.mem_append, List.mem_singleton]

theorem mem_foldlM {inputs : List α} {s s' : σ} (hs : ∀ b ∈ log s, admitted b) (hinputs : ∀ a ∈ inputs, admitted a)
    (hfold : inputs.foldlM step s = .ok s') (b : α) : b ∈ log s' ↔ b ∈ log s ∨ b ∈ inputs := by
  induction inputs generalizing s with
  | nil =>
    obtain rfl := Except.ok.inj hfold
    simp
  | cons a inputs ih =>
    rw [List.foldlM_cons, bind_ok_iff] at hfold
    obtain ⟨t, ht, hfold⟩ := hfold
    have ha := hinputs a List.mem_cons_self
    have hmem := h.mem_step hs ha ht
    have htadm : ∀ b ∈ log t, admitted b := by
      intro b hb
      rcases (hmem b).1 hb with hb | rfl
      · exact hs b hb
      · exact ha
    rw [ih htadm (fun c hc => hinputs c (List.mem_cons_of_mem _ hc)) hfold, hmem, List.mem_cons, or_assoc]

theorem log_eq (hrank : ∀ s, (log s).Pairwise fun a b => rank a < rank b)
    {inputs inputs' : List α} {s t u : σ} (hs : ∀ b ∈ log s, admitted b) (hinputs : ∀ a ∈ inputs, admitted a)
    (hsame : ∀ a, a ∈ inputs ↔ a ∈ inputs') (ht : inputs.foldlM step s = .ok t)
    (hu : inputs'.foldlM step s = .ok u) : log t = log u := by
  have hinputs' : ∀ a ∈ inputs', admitted a := fun a ha => hinputs a ((hsame a).2 ha)
  have hnodup : ∀ v, (log v).Nodup := fun v => (hrank v).imp fun hlt heq => absurd (heq ▸ hlt) (lt_irrefl _)
  refine eq_of_perm_of_pairwise_lt ?_ (hrank t) (hrank u)
  refine (List.perm_ext_iff_of_nodup (hnodup t) (hnodup u)).2 fun a => ?_
  rw [h.mem_foldlM hs hinputs ht, h.mem_foldlM hs hinputs' hu, hsame]

end Journals

/-- `inputs'` is `inputs` with further copies of inputs that came before; those of `seen` came before all. -/
inductive Redelivered : List α → List α → List α → Prop
  | done (seen : List α) : Redelivered seen [] []
  | next {seen inputs inputs' : List α} {a : α} (h : Redelivered (seen ++ [a]) inputs inputs') :
      Redelivered seen (a :: inputs) (a :: inputs')
  | again {seen inputs inputs' : List α} {a : α} (ha : a ∈ seen) (h : Redelivered seen inputs inputs') :
      Redelivered seen inputs (a :: inputs')

/-- An input that was accepted changes nothing from then on. -/
structure AbsorbsInputs (step : σ → α → Except ε σ) : Prop where
  accepted : ∀ {s s' : σ} {a : α}, step s a = .ok s' → step s' a = .ok s'
  kept : ∀ {s s' : σ} {a b : α}, step s a = .ok s → step s b = .ok s' → step s' a = .ok s'

/-- Redelivery changes no run of a reducer that absorbs its inputs. -/
theorem AbsorbsInputs.foldlM_eq {step : σ → α → Except ε σ} (h : AbsorbsInputs step) {seen inputs inputs' : List α}
    (hcopies : Redelivered seen inputs inputs') {s : σ} (hseen : ∀ a ∈ seen, step s a = .ok s) :
    inputs'.foldlM step s = inputs.foldlM step s := by
  induction hcopies generalizing s with
  | done seen => rfl
  | @next seen inputs inputs' a hcopies ih =>
    rw [List.foldlM_cons, List.foldlM_cons]
    cases hstep : step s a with
    | error e => rfl
    | ok t =>
      refine ih fun b hb => ?_
      rcases List.mem_append.1 hb with hb | hb
      · exact h.kept (hseen b hb) hstep
      · obtain rfl := List.mem_singleton.1 hb
        exact h.accepted hstep
  | again ha hcopies ih =>
    rw [List.foldlM_cons, hseen _ ha]
    exact ih hseen
