import Mathlib.Data.List.Forall2
import TradingAgent.Lib.Outcome

/-!
# Transactions that crash

A transaction reads a store, writes it step by step, and returns or raises. A crash leaves the store as it was at the
start or after any of the writes (`Tx.left`). `Upholds` is the rule for what every write keeps and what a transaction
that returns has established.
-/

namespace Transaction

/-- The stores after the writes, in order, and the result. -/
def Tx (σ ε α : Type) : Type := σ → List σ × Except ε α

variable {σ ε α β : Type}

def last (s : σ) (writes : List σ) : σ := writes.getLast?.getD s

@[simp] theorem last_nil (s : σ) : last s [] = s := rfl

@[simp] theorem last_concat (s t : σ) (writes : List σ) : last s (writes ++ [t]) = t := by simp [last]

@[simp] theorem last_singleton (s t : σ) : last s [t] = t := rfl

theorem last_append (s : σ) (xs ys : List σ) : last s (xs ++ ys) = last (last s xs) ys := by
  rcases List.eq_nil_or_concat ys with rfl | ⟨init, t, rfl⟩
  · simp
  · rw [List.concat_eq_append, ← List.append_assoc, last_concat, last_concat]

theorem last_mem (s : σ) (writes : List σ) : last s writes = s ∨ last s writes ∈ writes := by
  rcases List.eq_nil_or_concat writes with rfl | ⟨init, t, rfl⟩
  · exact .inl rfl
  · rw [List.concat_eq_append, last_concat]
    exact .inr (by simp)

variable {writes : List σ}

theorem last_mem_of_ne_nil (s : σ) (h : writes ≠ []) : last s writes ∈ writes := by
  rcases List.eq_nil_or_concat writes with rfl | ⟨init, t, rfl⟩
  · exact absurd rfl h
  · rw [List.concat_eq_append, last_concat]
    simp

namespace Tx

def bind (x : Tx σ ε α) (f : α → Tx σ ε β) : Tx σ ε β := fun s =>
  match (x s).2 with
  | .error e => ((x s).1, .error e)
  | .ok a => ((x s).1 ++ (f a (last s (x s).1)).1, (f a (last s (x s).1)).2)

instance : Monad (Tx σ ε) where
  pure a := fun _ => ([], .ok a)
  bind := bind

def raise (e : ε) : Tx σ ε α := fun _ => ([], .error e)

def read (f : σ → Except ε α) : Tx σ ε α := fun s => ([], f s)

def write (f : σ → σ) : Tx σ ε Unit := fun s => ([f s], .ok ())

def lift (x : Except ε α) : Tx σ ε α := fun _ => ([], x)

def check (p : Prop) [Decidable p] (e : ε) : Tx σ ε Unit := lift (Outcome.require p e)

def mapError {ε' : Type} (f : ε → ε') (x : Tx σ ε α) : Tx σ ε' α := fun s => ((x s).1, (x s).2.mapError f)

/-- What is left after some of the writes, or after the whole transaction. -/
def left (x : Tx σ ε α) (s : σ) : Option ℕ → σ
  | none => last s (x s).1
  | some k => last s ((x s).1.take k)

end Tx

open Tx

@[simp] theorem pure_apply (a : α) (s : σ) : (pure a : Tx σ ε α) s = ([], .ok a) := rfl

@[simp] theorem read_apply (f : σ → Except ε α) (s : σ) : read f s = ([], f s) := rfl

@[simp] theorem write_apply (f : σ → σ) (s : σ) : (write f : Tx σ ε Unit) s = ([f s], .ok ()) := rfl

@[simp] theorem check_apply (p : Prop) [Decidable p] (e : ε) (s : σ) :
    (check p e : Tx σ ε Unit) s = ([], Outcome.require p e) := rfl

variable {x : Tx σ ε α} {f : α → Tx σ ε β} {a : α}

theorem bind_apply_ok {s : σ} (h : (x s).2 = .ok a) :
    (x >>= f) s = ((x s).1 ++ (f a (last s (x s).1)).1, (f a (last s (x s).1)).2) := by
  show Tx.bind x f s = _
  unfold Tx.bind
  rw [h]

variable {e : ε}

theorem bind_apply_error {s : σ} (h : (x s).2 = .error e) : (x >>= f) s = ((x s).1, .error e) := by
  show Tx.bind x f s = _
  unfold Tx.bind
  rw [h]

variable {g : α → Tx σ ε β}

theorem bind_read_ok {f : σ → Except ε α} {s : σ} (h : f s = .ok a) : (read f >>= g) s = g a s := by
  have hread : (read f s : List σ × Except ε α).2 = .ok a := h
  rw [bind_apply_ok hread]
  rfl

theorem bind_read_error {f : σ → Except ε α} {s : σ} (h : f s = .error e) : (read f >>= g) s = ([], .error e) := by
  have hread : (read f s : List σ × Except ε α).2 = .error e := h
  rw [bind_apply_error hread]
  rfl

theorem bind_of_ok {s : σ} (h : x s = (writes, .ok a)) :
    (x >>= f) s = (writes ++ (f a (last s writes)).1, (f a (last s writes)).2) := by
  rw [bind_apply_ok (by rw [h]), h]

theorem bind_lift_ok {x : Except ε α} {s : σ} (h : x = .ok a) : (lift x >>= g) s = g a s :=
  bind_read_ok h

variable {p : Prop}

theorem bind_check [Decidable p] {g : Unit → Tx σ ε β} {s : σ} (h : p) : (check p e >>= g) s = g () s :=
  bind_lift_ok (if_pos h)

theorem bind_write (f : σ → σ) (g : Unit → Tx σ ε β) (s : σ) :
    (write f >>= g) s = (f s :: (g () (f s)).1, (g () (f s)).2) := rfl

theorem writes_bind_pure (x : Tx σ ε α) (g : α → β) (s : σ) : ((x >>= fun a => pure (g a)) s).1 = (x s).1 := by
  cases h : (x s).2 with
  | error e => rw [bind_apply_error h]
  | ok a =>
    rw [bind_apply_ok h]
    exact List.append_nil _

theorem returns_bind_iff {s : σ} {b : β} :
    ((x >>= f) s).2 = .ok b ↔ ∃ a, (x s).2 = .ok a ∧ (f a (last s (x s).1)).2 = .ok b := by
  cases h : (x s).2 with
  | error e => simp [bind_apply_error h]
  | ok a => simp [bind_apply_ok h]

theorem raises_bind_iff {s : σ} : ((x >>= f) s).2 = .error e ↔
      (x s).2 = .error e ∨ ∃ a, (x s).2 = .ok a ∧ (f a (last s (x s).1)).2 = .error e := by
  cases h : (x s).2 with
  | error e' => simp [bind_apply_error h]
  | ok a => simp [bind_apply_ok h]

theorem last_bind_ok {s : σ} (h : (x s).2 = .ok a) :
    last s ((x >>= f) s).1 = last (last s (x s).1) (f a (last s (x s).1)).1 := by
  rw [bind_apply_ok h, last_append]

theorem last_bind_error {s : σ} (h : (x s).2 = .error e) : last s ((x >>= f) s).1 = last s (x s).1 := by
  rw [bind_apply_error h]

/-- Every write leaves a store in the invariant, and a transaction that returns establishes the postcondition. -/
def Upholds (Inv : σ → Prop) (Q : α → σ → Prop) (x : Tx σ ε α) (s : σ) : Prop :=
  (∀ t ∈ (x s).1, Inv t) ∧ ∀ a, (x s).2 = .ok a → Q a (last s (x s).1)

variable {Inv : σ → Prop} {s : σ} {Q : α → σ → Prop}

theorem upholds_pure (h : Q a s) : Upholds Inv Q (pure a : Tx σ ε α) s := by
  constructor
  · intro t ht
    cases ht
  · intro b hb
    rw [← Except.ok.inj hb]
    exact h

theorem upholds_raise : Upholds Inv Q (raise e : Tx σ ε α) s := by
  constructor
  · intro t ht
    cases ht
  · intro b hb
    cases hb

theorem upholds_read {f : σ → Except ε α} (h : ∀ a, f s = .ok a → Q a s) : Upholds Inv Q (read f) s := by
  constructor
  · intro t ht
    cases ht
  · exact h

theorem upholds_lift {x : Except ε α} (h : ∀ a, x = .ok a → Q a s) : Upholds Inv Q (lift x : Tx σ ε α) s := by
  constructor
  · intro t ht
    cases ht
  · exact h

theorem upholds_write {Q : Unit → σ → Prop} {f : σ → σ} (hinv : Inv (f s)) (h : Q () (f s)) :
    Upholds Inv Q (write f : Tx σ ε Unit) s :=
  ⟨fun t ht => by rw [List.mem_singleton.1 ht]; exact hinv, fun _ _ => h⟩

theorem Upholds.mono {Q' : α → σ → Prop} (h : Upholds Inv Q x s) (himp : ∀ a t, Q a t → Q' a t) : Upholds Inv Q' x s :=
  ⟨h.1, fun a ha => himp a _ (h.2 a ha)⟩

theorem Upholds.weaken {Inv' : σ → Prop} (h : Upholds Inv Q x s) (himp : ∀ t, Inv t → Inv' t) : Upholds Inv' Q x s :=
  ⟨fun t ht => himp t (h.1 t ht), h.2⟩

theorem Upholds.bind {Q' : β → σ → Prop} (h : Upholds Inv Q x s) (hf : ∀ a t, Q a t → Upholds Inv Q' (f a) t) :
    Upholds Inv Q' (x >>= f) s := by
  cases hx : (x s).2 with
  | error e =>
    constructor
    · rw [bind_apply_error hx]
      exact h.1
    · intro b hb
      rw [bind_apply_error hx] at hb
      cases hb
  | ok a =>
    obtain ⟨hwrites, hpost⟩ := hf a _ (h.2 a hx)
    constructor
    · intro t ht
      rw [bind_apply_ok hx, List.mem_append] at ht
      rcases ht with ht | ht
      · exact h.1 t ht
      · exact hwrites t ht
    · intro b hb
      rw [last_bind_ok hx]
      rw [bind_apply_ok hx] at hb
      exact hpost b hb

theorem upholds_lift_bind {Q : β → σ → Prop} {x : Except ε α}
    (h : ∀ a, x = .ok a → Upholds Inv Q (f a) s) : Upholds Inv Q (lift x >>= f) s :=
  (upholds_lift (Q := fun a t => t = s ∧ x = .ok a) fun _ ha => ⟨rfl, ha⟩).bind fun a _ ⟨heq, ha⟩ => heq ▸ h a ha

theorem upholds_read_bind {Q : β → σ → Prop} {g : σ → Except ε α}
    (h : ∀ a, g s = .ok a → Upholds Inv Q (f a) s) : Upholds Inv Q (read g >>= f) s :=
  (upholds_read (Q := fun a t => t = s ∧ g s = .ok a) fun _ ha => ⟨rfl, ha⟩).bind fun a _ ⟨heq, ha⟩ => heq ▸ h a ha

theorem upholds_check_bind {Q : β → σ → Prop} [Decidable p] {f : Unit → Tx σ ε β}
    (h : p → Upholds Inv Q (f ()) s) : Upholds Inv Q (check p e >>= f) s :=
  upholds_lift_bind fun _ hp => h (Outcome.require_ok_iff.1 hp)

theorem upholds_write_bind {Q : β → σ → Prop} {g : σ → σ} {f : Unit → Tx σ ε β} (hinv : Inv (g s))
    (h : Upholds Inv Q (f ()) (g s)) : Upholds Inv Q (write g >>= f) s :=
  (upholds_write (Q := fun _ t => t = g s) hinv rfl).bind fun _ _ heq => heq ▸ h

theorem upholds_mapError {ε' : Type} {f : ε → ε'} (h : Upholds Inv Q x s) : Upholds Inv Q (x.mapError f) s :=
  ⟨h.1, fun a ha => h.2 a (Outcome.mapError_ok_iff.1 ha)⟩

theorem Upholds.congr {y : Tx σ ε α} (h : Upholds Inv Q x s) (heq : y s = x s) : Upholds Inv Q y s := by
  unfold Upholds
  rw [heq]
  exact h

theorem Upholds.left (h : Upholds Inv Q x s) (hs : Inv s) (crash : Option ℕ) : Inv (x.left s crash) := by
  have hlast : ∀ writes : List σ, writes ⊆ (x s).1 → Inv (last s writes) := by
    intro writes hsub
    rcases last_mem s writes with heq | hmem
    · rw [heq]
      exact hs
    · exact h.1 _ (hsub hmem)
  cases crash with
  | none => exact hlast _ (List.Subset.refl _)
  | some k => exact hlast _ (List.take_subset k _)

def Simulates (R : σ → σ → Prop) (x : Tx σ ε α) : Prop :=
  ∀ s t, R s t → (x t).2 = (x s).2 ∧ List.Forall₂ R (x s).1 (x t).1

variable {R : σ → σ → Prop}

theorem forall₂_last {s t : σ} (h : R s t) {xs ys : List σ} (hwrites : List.Forall₂ R xs ys) :
    R (last s xs) (last t ys) := by
  induction hwrites generalizing s t with
  | nil => exact h
  | @cons a b xs ys hab hrest ih =>
    have hlast : ∀ (s a : σ) (xs : List σ), last s (a :: xs) = last a xs := by
      intro s a xs
      rw [← List.singleton_append, last_append]
      rfl
    rw [hlast, hlast]
    exact ih hab

theorem Simulates.last (h : Simulates R x) {s t : σ} (hst : R s t) :
    R (Transaction.last s (x s).1) (Transaction.last t (x t).1) :=
  forall₂_last hst (h s t hst).2

theorem simulates_pure (a : α) : Simulates R (pure a : Tx σ ε α) := fun _ _ _ => ⟨rfl, .nil⟩

theorem simulates_raise (e : ε) : Simulates R (raise e : Tx σ ε α) := fun _ _ _ => ⟨rfl, .nil⟩

theorem simulates_lift (x : Except ε α) : Simulates R (lift x : Tx σ ε α) := fun _ _ _ => ⟨rfl, .nil⟩

theorem simulates_check (p : Prop) [Decidable p] (e : ε) : Simulates R (check p e : Tx σ ε Unit) := simulates_lift _

theorem simulates_read {f : σ → Except ε α} (h : ∀ s t, R s t → f t = f s) : Simulates R (read f) :=
  fun s t hst => ⟨h s t hst, .nil⟩

theorem simulates_write {f : σ → σ} (h : ∀ s t, R s t → R (f s) (f t)) : Simulates R (write f : Tx σ ε Unit) :=
  fun s t hst => ⟨rfl, .cons (h s t hst) .nil⟩

theorem Simulates.bind (hx : Simulates R x) (hf : ∀ a, Simulates R (f a)) : Simulates R (x >>= f) := by
  intro s t hst
  obtain ⟨hresult, hwrites⟩ := hx s t hst
  cases h : (x s).2 with
  | error e =>
    rw [bind_apply_error h, bind_apply_error (hresult.trans h)]
    exact ⟨rfl, hwrites⟩
  | ok a =>
    rw [bind_apply_ok h, bind_apply_ok (hresult.trans h)]
    obtain ⟨hresult', hwrites'⟩ := hf a _ _ (forall₂_last hst hwrites)
    exact ⟨hresult', List.rel_append hwrites hwrites'⟩

end Transaction
