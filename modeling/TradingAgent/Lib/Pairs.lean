import Mathlib.Data.List.Forall2

/-! Lists that are related item by item. -/

variable {α β γ : Type} {r : α → β → Prop} {xs : List α} {ys : List β}

theorem exists_mem_right (h : List.Forall₂ r xs ys) {x : α} (hx : x ∈ xs) : ∃ y ∈ ys, r x y := by
  induction h with
  | nil => cases hx
  | cons hxy _ ih =>
    rcases List.mem_cons.1 hx with rfl | hx
    · exact ⟨_, List.mem_cons_self, hxy⟩
    · obtain ⟨y, hy, hr⟩ := ih hx
      exact ⟨y, List.mem_cons_of_mem _ hy, hr⟩

theorem exists_mem_left (h : List.Forall₂ r xs ys) {y : β} (hy : y ∈ ys) : ∃ x ∈ xs, r x y :=
  exists_mem_right h.flip hy

theorem forall₂_imp_mem {q : α → β → Prop} (h : List.Forall₂ r xs ys)
    (himp : ∀ {x y}, x ∈ xs → r x y → q x y) : List.Forall₂ q xs ys := by
  induction h with
  | nil => exact .nil
  | cons hxy _ ih =>
    exact .cons (himp List.mem_cons_self hxy) (ih fun hx => himp (List.mem_cons_of_mem _ hx))

theorem forall₂_trans {q : β → γ → Prop} {p : α → γ → Prop} {zs : List γ}
    (h : List.Forall₂ r xs ys) (h' : List.Forall₂ q ys zs) (hcomp : ∀ x y z, r x y → q y z → p x z) :
    List.Forall₂ p xs zs := by
  induction h generalizing zs with
  | nil =>
    cases h'
    exact .nil
  | cons hxy _ ih =>
    cases h' with
    | cons hyz hrest => exact .cons (hcomp _ _ _ hxy hyz) (ih hrest)

theorem exists_partners (h : ∀ x ∈ xs, ∃ y, r x y) :
    ∃ ps : List (α × β), ps.map Prod.fst = xs ∧ ∀ p ∈ ps, r p.1 p.2 := by
  induction xs with
  | nil => exact ⟨[], rfl, by simp⟩
  | cons x xs ih =>
    obtain ⟨y, hy⟩ := h x List.mem_cons_self
    obtain ⟨ps, hps, hr⟩ := ih fun z hz => h z (List.mem_cons_of_mem _ hz)
    refine ⟨(x, y) :: ps, by rw [List.map_cons, hps], fun p hp => ?_⟩
    rcases List.mem_cons.1 hp with rfl | hp
    · exact hy
    · exact hr p hp
