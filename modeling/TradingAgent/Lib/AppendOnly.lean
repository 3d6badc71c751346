import Mathlib.Data.List.Nodup
import Mathlib.Data.List.Induction

/-!
# Append-only tables

A table of a state that steps leave alone or extend by one fresh row. Along a run the table only grows
(`Appends.grows`), and its rows keep the relation that freshness demands (`Appends.pairwise`).
-/

namespace AppendOnly

variable {σ α ρ κ : Type} {rows : σ → List ρ} {step : σ → α → σ} {fresh : List ρ → ρ → Prop}

/-- Every step leaves the table alone or appends a row that is fresh. -/
def Appends (rows : σ → List ρ) (step : σ → α → σ) (fresh : List ρ → ρ → Prop) : Prop :=
  ∀ s a, rows (step s a) = rows s ∨ ∃ r, fresh (rows s) r ∧ rows (step s a) = rows s ++ [r]

theorem Appends.grows (h : Appends rows step fresh) (s : σ) (calls : List α) :
    rows s <+: rows (calls.foldl step s) := by
  induction calls generalizing s with
  | nil => exact List.prefix_rfl
  | cons a calls ih =>
    refine List.IsPrefix.trans ?_ (ih (step s a))
    rcases h s a with hsame | ⟨r, -, happend⟩
    · exact ⟨[], by rw [List.append_nil, hsame]⟩
    · exact ⟨[r], happend.symm⟩

theorem Appends.prefix_append (h : Appends rows step fresh) (s : σ) (before rest : List α) :
    rows (before.foldl step s) <+: rows ((before ++ rest).foldl step s) := by
  rw [List.foldl_append]
  exact h.grows _ rest

variable {s : σ}

/-- What every fresh row is to the rows before it, the rows of a run are to each other. -/
theorem Appends.pairwise {R : ρ → ρ → Prop} (h : Appends rows step fun rs r => ∀ other ∈ rs, R other r)
    (hs : (rows s).Pairwise R) (calls : List α) : (rows (calls.foldl step s)).Pairwise R := by
  induction calls generalizing s with
  | nil => exact hs
  | cons a calls ih =>
    refine ih ?_
    rcases h s a with hsame | ⟨r, hfresh, happend⟩
    · rwa [hsame]
    · rw [happend, List.pairwise_append]
      refine ⟨hs, List.pairwise_singleton _ _, fun other hother r' hr' => ?_⟩
      obtain rfl := List.mem_singleton.1 hr'
      exact hfresh other hother

theorem Appends.origin (h : Appends rows step fresh) {calls : List α} {r : ρ} (hr : r ∈ rows (calls.foldl step s)) :
    r ∈ rows s ∨ ∃ before a rest, calls = before ++ a :: rest ∧ fresh (rows (before.foldl step s)) r ∧
      rows (step (before.foldl step s) a) = rows (before.foldl step s) ++ [r] := by
  induction calls using List.reverseRecOn with
  | nil => exact .inl hr
  | append_singleton calls a ih =>
    rw [List.foldl_append, List.foldl_cons, List.foldl_nil] at hr
    have hearlier (hr : r ∈ rows (calls.foldl step s)) : r ∈ rows s ∨ ∃ before b rest,
        calls ++ [a] = before ++ b :: rest ∧ fresh (rows (before.foldl step s)) r ∧
          rows (step (before.foldl step s) b) = rows (before.foldl step s) ++ [r] := by
      rcases ih hr with hr | ⟨before, b, rest, rfl, hfresh⟩
      · exact .inl hr
      · exact .inr ⟨before, b, rest ++ [a], by rw [List.append_assoc, List.cons_append], hfresh⟩
    rcases h (calls.foldl step s) a with hsame | ⟨r', hfresh, happend⟩
    · rw [hsame] at hr
      exact hearlier hr
    · rw [happend, List.mem_append, List.mem_singleton] at hr
      rcases hr with hr | rfl
      · exact hearlier hr
      · exact .inr ⟨calls, a, [], rfl, hfresh, happend⟩

/-- A key by which no fresh row agrees with an earlier one names each row of a run. -/
theorem Appends.nodup {key : ρ → κ} (h : Appends rows step fun rs r => ∀ other ∈ rs, key other ≠ key r)
    (hs : rows s = []) (calls : List α) : ((rows (calls.foldl step s)).map key).Nodup := by
  rw [List.Nodup, List.pairwise_map]
  exact h.pairwise (by rw [hs]; exact List.Pairwise.nil) calls

theorem Appends.mono {fresh' : List ρ → ρ → Prop} (h : Appends rows step fresh)
    (himp : ∀ rs r, fresh rs r → fresh' rs r) : Appends rows step fresh' := by
  intro s a
  rcases h s a with hsame | ⟨r, hfresh, happend⟩
  · exact .inl hsame
  · exact .inr ⟨r, himp _ _ hfresh, happend⟩

end AppendOnly
