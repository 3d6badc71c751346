import TradingAgent.Lib.Outcome

/-!
# Computations under a limit

A computation takes a limit on some resource and fails where the limit is too low for it. `Takes x P a` says that it
gives `a` under exactly the limits with `P`; `Metered x` that the run without a limit needs a certain amount, and that
the limits which cover this amount are the ones that give its result.
-/

namespace Outcome

variable {L ε α β : Type}

/-- The computation gives `a` under the limits with `P` and fails under the others. -/
def Takes (x : L → Except ε α) (P : L → Prop) (a : α) : Prop := ∀ l b, x l = .ok b ↔ P l ∧ b = a

section Takes

variable {x : L → Except ε α} {f : L → α → Except ε β} {P Q : L → Prop} {a : α} {b : β}

theorem takes_of_ok {y : Except ε α} (h : y = .ok a) : Takes (fun _ : L => y) (fun _ => True) a := by
  intro l b
  rw [h, Except.ok.injEq, true_and, eq_comm]

theorem takes_require {p : L → Prop} {_ : ∀ l, Decidable (p l)} {e : L → ε} :
    Takes (fun l => require (p l) (e l)) p () := by
  intro l u
  rw [require_ok_iff]
  exact (and_iff_left rfl).symm

theorem Takes.bind (hx : Takes x P a) (hf : Takes (fun l => f l a) Q b) :
    Takes (fun l => x l >>= f l) (fun l => P l ∧ Q l) b := by
  intro l c
  rw [bind_ok_iff, and_assoc]
  constructor
  · rintro ⟨a', ha, hc⟩
    obtain ⟨hp, rfl⟩ := (hx l a').1 ha
    exact ⟨hp, (hf l c).1 hc⟩
  · rintro ⟨hp, hc⟩
    exact ⟨a, (hx l a).2 ⟨hp, rfl⟩, (hf l c).2 hc⟩

theorem Takes.bind_ok {f : α → Except ε β} (hx : Takes x P a) (h : f a = .ok b) : Takes (fun l => x l >>= f) P b := by
  intro l c
  rw [bind_ok_iff]
  constructor
  · rintro ⟨a', ha, hc⟩
    obtain ⟨hp, rfl⟩ := (hx l a').1 ha
    exact ⟨hp, Except.ok.inj (hc.symm.trans h)⟩
  · rintro ⟨hp, rfl⟩
    exact ⟨a, (hx l a).2 ⟨hp, rfl⟩, h⟩

/-- A step that the limit does not concern may follow. -/
theorem Takes.bind_bind {γ : Type} {y : α → Except ε β} {f : L → β → Except ε γ} {c : γ} (hx : Takes x P a)
    (hy : y a = .ok b) (hf : Takes (fun l => f l b) Q c) :
    Takes (fun l => x l >>= fun a => y a >>= f l) (fun l => P l ∧ Q l) c := by
  simp only [← bind_assoc]
  exact (hx.bind_ok hy).bind hf

theorem Takes.rescue {e : L → ε} (hx : Takes x P a) : Takes (fun l => Outcome.rescue (x l) (e l)) P a := by
  intro l b
  rw [rescue_ok_iff, hx l b]

theorem Takes.congr (hx : Takes x P a) (h : ∀ l, P l ↔ Q l) : Takes x Q a :=
  fun l b => (hx l b).trans (and_congr_left' (h l))

theorem takes_forM {f : L → α → Except ε Unit} {P : α → L → Prop} (xs : List α)
    (hf : ∀ a, Takes (fun l => f l a) (P a) ()) : Takes (fun l => xs.forM (f l)) (fun l => ∀ a ∈ xs, P a l) () := by
  intro l u
  rw [forM_ok_iff]
  simp only [hf _ l (), and_true]

theorem takes_mapM {f : L → α → Except ε β} {P : α → L → Prop} {xs : List α} {ys : List β}
    (h : List.Forall₂ (fun a b => Takes (fun l => f l a) (P a) b) xs ys) :
    Takes (fun l => xs.mapM (f l)) (fun l => ∀ a ∈ xs, P a l) ys := by
  induction h with
  | nil => exact (takes_of_ok rfl).congr fun l => by simp
  | cons ha _ ih =>
    simp only [List.mapM_cons]
    refine (ha.bind (Takes.bind (f := fun l ys => .ok (_ :: ys)) ih (takes_of_ok rfl))).congr fun l => ?_
    simp

theorem takes_foldlM {σ : Type} {f : L → σ → α → Except ε σ} {P : α → L → Prop} {xs : List α} {l₀ : L} {s s' : σ}
    (hf : ∀ s a s', f l₀ s a = .ok s' → Takes (fun l => f l s a) (P a) s') (h : xs.foldlM (f l₀) s = .ok s') :
    Takes (fun l => xs.foldlM (f l) s) (fun l => ∀ a ∈ xs, P a l) s' := by
  induction xs generalizing s with
  | nil => exact (takes_of_ok h).congr fun l => by simp
  | cons a xs ih =>
    simp only [List.foldlM_cons] at h ⊢
    obtain ⟨t, ht, h⟩ := bind_ok_iff.1 h
    exact (Takes.bind (f := fun l s => xs.foldlM (f l) s) (hf s a t ht) (ih h)).congr fun l => by simp

end Takes

/-- Limits on an amount that is counted; no limit at all covers everything. -/
class Limit (L : Type) where
  Covers : L → ℕ → Prop
  lifted : L
  covers_zero : ∀ l, Covers l 0
  covers_lifted : ∀ n, Covers lifted n
  covers_max : ∀ l m n, Covers l (max m n) ↔ Covers l m ∧ Covers l n

open Limit

variable [Limit L]

structure Metered (x : L → Except ε α) : Prop where
  needs : ∀ a, x lifted = .ok a → ∃ n, Takes x (fun l => Covers l n) a
  lift : ∀ l a, x l = .ok a → x lifted = .ok a

variable {x : L → Except ε α}

theorem metered_const (y : Except ε α) : Metered fun _ : L => y :=
  ⟨fun _ h => ⟨0, (takes_of_ok h).congr fun l => (iff_of_true trivial (covers_zero l))⟩, fun _ _ h => h⟩

theorem Metered.bind {f : L → α → Except ε β} (hx : Metered x)
    (hf : ∀ a, x lifted = .ok a → Metered fun l => f l a) : Metered fun l => x l >>= f l := by
  constructor
  · intro b h
    obtain ⟨a, ha, hb⟩ := bind_ok_iff.1 h
    obtain ⟨m, hm⟩ := hx.needs a ha
    obtain ⟨n, hn⟩ := (hf a ha).needs b hb
    exact ⟨max m n, (hm.bind hn).congr fun l => (covers_max l m n).symm⟩
  · intro l b h
    obtain ⟨a, ha, hb⟩ := bind_ok_iff.1 h
    have hlift := hx.lift l a ha
    exact bind_ok_iff.2 ⟨a, hlift, (hf a hlift).lift l b hb⟩

theorem Metered.rescue {e : L → ε} (hx : Metered x) : Metered fun l => Outcome.rescue (x l) (e l) := by
  constructor
  · intro a h
    obtain ⟨n, hn⟩ := hx.needs a (rescue_ok_iff.1 h)
    exact ⟨n, hn.rescue⟩
  · intro l a h
    exact rescue_ok_iff.2 (hx.lift l a (rescue_ok_iff.1 h))

theorem metered_foldlM {σ : Type} {f : L → σ → α → Except ε σ} (xs : List α)
    (hf : ∀ s, ∀ a ∈ xs, Metered fun l => f l s a) (s : σ) : Metered fun l => xs.foldlM (f l) s := by
  induction xs generalizing s with
  | nil => exact metered_const _
  | cons a xs ih =>
    simp only [List.foldlM_cons]
    exact (hf s a List.mem_cons_self).bind fun t _ => ih (fun s' b hb => hf s' b (List.mem_cons_of_mem _ hb)) t

theorem metered_mapM {f : L → α → Except ε β} (xs : List α) (hf : ∀ a ∈ xs, Metered fun l => f l a) :
    Metered fun l => xs.mapM (f l) := by
  induction xs with
  | nil => exact metered_const _
  | cons a xs ih =>
    simp only [List.mapM_cons]
    exact (hf a List.mem_cons_self).bind fun b _ =>
      (ih fun c hc => hf c (List.mem_cons_of_mem _ hc)).bind fun _ _ => metered_const _

theorem metered_forM {f : L → α → Except ε Unit} (xs : List α) (hf : ∀ a ∈ xs, Metered fun l => f l a) :
    Metered fun l => xs.forM (f l) := by
  induction xs with
  | nil => exact metered_const _
  | cons a xs ih =>
    exact (hf a List.mem_cons_self).bind fun _ _ => ih fun b hb => hf b (List.mem_cons_of_mem _ hb)

end Outcome
