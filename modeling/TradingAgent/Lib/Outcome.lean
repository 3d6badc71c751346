import Mathlib.Data.List.Basic
import Mathlib.Data.List.Induction

/-!
# Fallible computations

A fallible source function is an `Except ε` computation. This file gives the inversion rules for
sequencing (`bind_ok_iff`), for checks (`require_ok_iff`) and for validated constructors
(`validated_ok_iff`).
-/

namespace Outcome

variable {ε α β : Type}

/-- Fail with `e` unless the condition holds. -/
def require (p : Prop) [Decidable p] (e : ε) : Except ε Unit :=
  if p then .ok () else .error e

@[simp] theorem ok_bind (a : α) (f : α → Except ε β) : (Except.ok a >>= f) = f a := rfl

@[simp] theorem error_bind (e : ε) (f : α → Except ε β) : ((Except.error e : Except ε α) >>= f) = .error e := rfl

@[simp] theorem pure_eq_ok (a : α) : (pure a : Except ε α) = .ok a := rfl

@[simp] theorem throw_eq_error (e : ε) : (throw e : Except ε α) = .error e := rfl

variable {x : Except ε α} {f : α → Except ε β}

theorem bind_ok_iff {b : β} : (x >>= f) = .ok b ↔ ∃ a, x = .ok a ∧ f a = .ok b := by
  cases x with
  | error e => simp
  | ok a => simp

variable {e : ε} {p : Prop} {u : Unit}

@[simp] theorem require_ok_iff [Decidable p] : require p e = .ok u ↔ p := by
  unfold require
  split_ifs with h <;> simp [h]

theorem isOk_iff : x.isOk = true ↔ ∃ a, x = .ok a := by
  cases x <;> simp [Except.isOk, Except.toBool]

theorem isOk_eq_false_iff : x.isOk = false ↔ ∃ e, x = .error e := by
  cases x <;> simp [Except.isOk, Except.toBool]

theorem exists_ok_of_any {P : α → Prop} [DecidablePred P]
    (h : (x.toOption.any fun a => decide (P a)) = true) : ∃ a, x = .ok a ∧ P a := by
  cases x with
  | error e => simp [Except.toOption] at h
  | ok a => exact ⟨a, rfl, by simpa [Except.toOption] using h⟩

/-- Replace any error by `e`, as a handler for the common base class does. -/
def rescue (x : Except ε α) (e : ε) : Except ε α :=
  match x with
  | .ok a => .ok a
  | .error _ => .error e

variable {a : α}

@[simp] theorem rescue_ok_iff : rescue x e = .ok a ↔ x = .ok a := by
  cases x <;> simp [rescue]

variable {ε' : Type}

theorem mapError_ok_iff {f : ε → ε'} : x.mapError f = .ok a ↔ x = .ok a := by
  cases x <;> simp [Except.mapError]

def validated (check : Except ε Unit) (mk : check = .ok () → α) : Except ε α :=
  match check, mk with
  | .ok (), mk => .ok (mk rfl)
  | .error e, _ => .error e

variable {check : Except ε Unit}

theorem validated_of (mk : check = .ok () → α) (h : check = .ok ()) : validated check mk = .ok (mk h) := by
  subst h
  rfl

theorem validated_ok_iff {mk : check = .ok () → α} : validated check mk = .ok a ↔ ∃ h, mk h = a := by
  constructor
  · intro h
    cases check with
    | error e => cases h
    | ok u => exact ⟨rfl, Except.ok.inj h⟩
  · rintro ⟨h, rfl⟩
    exact validated_of mk h

variable {xs : List α} {ys : List β}

theorem mapM_ok_iff : xs.mapM f = .ok ys ↔ List.Forall₂ (fun x y => f x = .ok y) xs ys := by
  induction xs generalizing ys with
  | nil =>
    rw [List.mapM_nil, pure_eq_ok, Except.ok.injEq]
    constructor
    · rintro rfl
      exact .nil
    · rintro ⟨⟩
      rfl
  | cons x xs ih =>
    simp only [List.mapM_cons, bind_ok_iff, pure_eq_ok, Except.ok.injEq]
    constructor
    · rintro ⟨y, hy, ys', hys, rfl⟩
      exact .cons hy (ih.1 hys)
    · intro h
      cases h with
      | cons hy hys => exact ⟨_, hy, _, ih.2 hys, rfl⟩

theorem mapM_some_iff {f : α → Option β} : xs.mapM f = some ys ↔ List.Forall₂ (fun x y => f x = some y) xs ys := by
  induction xs generalizing ys with
  | nil =>
    rw [List.mapM_nil, Option.pure_def, Option.some.injEq]
    constructor
    · rintro rfl
      exact .nil
    · rintro ⟨⟩
      rfl
  | cons x xs ih =>
    simp only [List.mapM_cons, Option.bind_eq_bind, Option.bind_eq_some_iff, Option.pure_def, Option.some.injEq]
    constructor
    · rintro ⟨y, hy, ys', hys, rfl⟩
      exact .cons hy (ih.1 hys)
    · intro h
      cases h with
      | cons hy hys => exact ⟨_, hy, _, ih.2 hys, rfl⟩

theorem mapM_some_inverse {f : α → Option β} {g : β → Option α}
    (h : ∀ x ∈ xs, ∀ y, f x = some y → g y = some x) (hxs : xs.mapM f = some ys) : ys.mapM g = some xs := by
  have hall := mapM_some_iff.1 hxs
  clear hxs
  induction hall with
  | nil => rfl
  | @cons x y xs ys hy _ ih =>
    rw [List.mapM_cons, h x List.mem_cons_self y hy, ih fun z hz => h z (List.mem_cons_of_mem _ hz)]
    rfl

theorem mapM_some_of {f : α → Option β} (h : ∀ x ∈ xs, (f x).isSome) : xs.mapM f = some (xs.filterMap f) := by
  induction xs with
  | nil => rfl
  | cons x xs ih =>
    obtain ⟨y, hy⟩ := Option.isSome_iff_exists.1 (h x List.mem_cons_self)
    rw [List.mapM_cons, List.filterMap_cons_some hy, hy, ih fun z hz => h z (List.mem_cons_of_mem _ hz)]
    rfl

theorem exists_mem_of_mapM_some {f : α → Option β} (h : xs.mapM f = some ys)
    {y : β} (hy : y ∈ ys) : ∃ x ∈ xs, f x = some y := by
  have hall := mapM_some_iff.1 h
  clear h
  induction hall with
  | nil => cases hy
  | cons hxy _ ih =>
    rcases List.mem_cons.1 hy with rfl | hy
    · exact ⟨_, List.mem_cons_self, hxy⟩
    · obtain ⟨x, hx, hf⟩ := ih hy
      exact ⟨x, List.mem_cons_of_mem _ hx, hf⟩

theorem forM_ok_iff {f : α → Except ε Unit} : xs.forM f = .ok u ↔ ∀ x ∈ xs, f x = .ok () := by
  induction xs with
  | nil => simp
  | cons x xs ih =>
    change (f x >>= fun _ => xs.forM f) = _ ↔ _
    rw [bind_ok_iff, List.forall_mem_cons, ih]
    exact exists_and_right.trans (and_congr_left' ⟨fun ⟨_, h⟩ => h, fun h => ⟨(), h⟩⟩)

variable {σ : Type} {m : Type → Type}

theorem foldlM_filter [Monad m] [LawfulMonad m] {f : σ → α → m σ}
    {p : α → Bool} (h : ∀ s a, p a = false → f s a = pure s) (xs : List α) (s : σ) :
    xs.foldlM f s = (xs.filter p).foldlM f s := by
  induction xs generalizing s with
  | nil => rfl
  | cons x xs ih =>
    rw [List.foldlM_cons]
    cases hx : p x with
    | false => rw [h s x hx, pure_bind, ih, List.filter_cons_of_neg (by simp [hx])]
    | true =>
      rw [List.filter_cons_of_pos hx, List.foldlM_cons]
      exact congrArg _ (funext fun t => ih t)

theorem foldlM_concat [Monad m] [LawfulMonad m] (f : σ → α → m σ)
    (xs : List α) (a : α) (s : σ) : (xs ++ [a]).foldlM f s = xs.foldlM f s >>= fun t => f t a := by
  rw [List.foldlM_append]
  refine congrArg _ (funext fun t => ?_)
  rw [List.foldlM_cons]
  exact bind_pure _

theorem foldlM_invariant {f : σ → α → Except ε σ} {s s' : σ} (P : σ → Prop)
    (hstep : ∀ x ∈ xs, ∀ t t', P t → f t x = .ok t' → P t') (hs : P s) (h : xs.foldlM f s = .ok s') : P s' := by
  induction xs generalizing s with
  | nil =>
    obtain rfl := Except.ok.inj h
    exact hs
  | cons x xs ih =>
    rw [List.foldlM_cons, bind_ok_iff] at h
    obtain ⟨t, ht, h⟩ := h
    exact ih (fun y hy => hstep y (List.mem_cons_of_mem _ hy)) (hstep x List.mem_cons_self s t hs ht) h

theorem foldlM_ok {σ : Type} {f : σ → α → Except ε σ} {xs : List α} {s : σ} (P : List α → σ → Prop)
    (hs : P [] s) (hstep : ∀ done x rest t, xs = done ++ x :: rest → P done t →
      ∃ t', f t x = .ok t' ∧ P (done ++ [x]) t') : ∃ s', xs.foldlM f s = .ok s' ∧ P xs s' := by
  induction xs using List.reverseRecOn with
  | nil => exact ⟨s, rfl, hs⟩
  | append_singleton xs x ih =>
    obtain ⟨t, ht, hP⟩ := ih fun done y rest t hxs => hstep done y (rest ++ [x]) t (by simp [hxs])
    obtain ⟨t', ht', hP'⟩ := hstep xs x [] t rfl hP
    refine ⟨t', ?_, hP'⟩
    rw [List.foldlM_append, ht, ok_bind, List.foldlM_cons, ht']
    rfl

theorem foldlM_fresh {σ : Type} {f : σ → α → Except ε σ} {R : α → α → Prop} {xs : List α} {s : σ}
    (Fresh : σ → α → Prop) (hxs : xs.Pairwise R) (hs : ∀ x ∈ xs, Fresh s x)
    (hstep : ∀ x ∈ xs, ∀ t, Fresh t x → ∃ t', f t x = .ok t' ∧ ∀ y, Fresh t y → R x y → Fresh t' y) :
    ∃ s', xs.foldlM f s = .ok s' := by
  induction xs generalizing s with
  | nil => exact ⟨s, rfl⟩
  | cons x xs ih =>
    obtain ⟨hx, hxs⟩ := List.pairwise_cons.1 hxs
    obtain ⟨t, ht, hfresh⟩ := hstep x List.mem_cons_self s (hs x List.mem_cons_self)
    rw [List.foldlM_cons, ht]
    exact ih hxs (fun y hy => hfresh y (hs y (List.mem_cons_of_mem _ hy)) (hx y hy))
      fun y hy => hstep y (List.mem_cons_of_mem _ hy)

theorem require_of [Decidable p] (e : ε) (h : p) : require p e = .ok () :=
  require_ok_iff.2 h

/-- `x` does not fail with a bad error. -/
def Avoids (bad : ε → Prop) (x : Except ε α) : Prop := ∀ e, x = .error e → ¬ bad e

variable {bad : ε → Prop}

theorem avoids_ok (a : α) : Avoids bad (.ok a : Except ε α) := by
  intro e h
  cases h

theorem avoids_of_ok (h : ∃ a, x = .ok a) : Avoids bad x := by
  obtain ⟨a, rfl⟩ := h
  exact avoids_ok a

theorem avoids_error (h : ¬ bad e) : Avoids bad (.error e : Except ε α) := by
  intro e' he
  obtain rfl := Except.error.inj he
  exact h

theorem Avoids.bind (hx : Avoids bad x) (hf : ∀ a, x = .ok a → Avoids bad (f a)) : Avoids bad (x >>= f) := by
  cases x with
  | error e => exact avoids_error (hx e rfl)
  | ok a => exact hf a rfl

theorem avoids_bind_iff : Avoids bad (x >>= f) ↔ Avoids bad x ∧ ∀ a, x = .ok a → Avoids bad (f a) := by
  refine ⟨fun h => ⟨?_, ?_⟩, fun h => h.1.bind h.2⟩
  · intro e he
    exact h e (by rw [he]; rfl)
  · rintro a rfl
    exact h

theorem avoids_require [Decidable p] (h : ¬ bad e) : Avoids bad (require p e) := by
  unfold require
  split_ifs
  · exact avoids_ok ()
  · exact avoids_error h

theorem avoids_rescue (h : ¬ bad e) : Avoids bad (rescue x e) := by
  cases x with
  | error e' => exact avoids_error h
  | ok a => exact avoids_ok a

theorem avoids_mapError {bad : ε' → Prop} {f : ε → ε'} (h : ∀ e, ¬ bad (f e)) : Avoids bad (x.mapError f) := by
  cases x with
  | error e => exact avoids_error (h e)
  | ok a => exact avoids_ok a

theorem avoids_validated {mk : check = .ok () → α} (h : Avoids bad check) : Avoids bad (validated check mk) := by
  cases check with
  | error e => exact avoids_error (h e rfl)
  | ok u => exact avoids_ok _

theorem avoids_mapM (h : ∀ x ∈ xs, Avoids bad (f x)) : Avoids bad (xs.mapM f) := by
  induction xs with
  | nil => exact avoids_ok []
  | cons x xs ih =>
    rw [List.mapM_cons]
    refine (h x List.mem_cons_self).bind fun y _ => ?_
    refine (ih fun z hz => h z (List.mem_cons_of_mem _ hz)).bind fun ys _ => ?_
    exact avoids_ok _

theorem avoids_foldlM {f : σ → α → Except ε σ} {s : σ}
    (h : ∀ x ∈ xs, ∀ t, Avoids bad (f t x)) : Avoids bad (xs.foldlM f s) := by
  induction xs generalizing s with
  | nil => exact avoids_ok s
  | cons x xs ih =>
    rw [List.foldlM_cons]
    exact (h x List.mem_cons_self s).bind fun t _ => ih fun y hy => h y (List.mem_cons_of_mem _ hy)

/-! ## What a computation yields -/

variable {Q Q' : α → Prop} {P : β → Prop}

/-- Whatever the computation returns satisfies `Q`. -/
def Yields (Q : α → Prop) (x : Except ε α) : Prop := ∀ a, x = .ok a → Q a

theorem yields_ok {a : α} (h : Q a) : Yields Q (.ok a : Except ε α) := by
  intro b hb
  obtain rfl := Except.ok.inj hb
  exact h

theorem yields_error {e : ε} : Yields Q (.error e : Except ε α) := by
  intro a h
  cases h

theorem Yields.bind {f : α → Except ε β} (hf : ∀ a, x = .ok a → Yields P (f a)) : Yields P (x >>= f) := by
  intro b h
  obtain ⟨a, ha, hb⟩ := bind_ok_iff.1 h
  exact hf a ha b hb

theorem Yields.map {f : α → β} (h : Yields (fun a => P (f a)) x) : Yields P (x.map f) := by
  cases x with
  | error e => exact yields_error
  | ok a => exact yields_ok (h a rfl)

theorem Yields.mono (h : Yields Q x) (himp : ∀ a, Q a → Q' a) : Yields Q' x :=
  fun a ha => himp a (h a ha)

theorem Yields.ite {p : Prop} [Decidable p] {y : Except ε α} (hx : p → Yields Q x) (hy : ¬ p → Yields Q y) :
    Yields Q (if p then x else y) := by
  split_ifs with h
  · exact hx h
  · exact hy h

end Outcome
