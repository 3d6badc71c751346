import TradingAgent.Lib.Interaction

/-!
# Programs with a state against an unknown world

A `Stateful` program has a state of its own, which it keeps when it raises, and makes requests to a world it knows
nothing about. `Runs` says which requests and answers a run exchanged and how it ended; `Prog.play` runs a program
against one world.
-/

namespace Interaction

variable {I : Type} {R : I → Type} {α β σ ε : Type}

abbrev Trace (R : I → Type) := List (Σ i, R i)

inductive Prog.Answered : Prog R α → Trace R → α → Prop
  | ret (a : α) : Answered (.ret a) [] a
  | call {i : I} {next : R i → Prog R α} {trace : Trace R} {a : α} (r : R i) (h : Answered (next r) trace a) :
    Answered (.call i next) (⟨i, r⟩ :: trace) a

theorem answered_ret_iff {a b : α} {trace : Trace R} :
    (Prog.ret a : Prog R α).Answered trace b ↔ trace = [] ∧ b = a := by
  constructor
  · rintro ⟨⟩
    exact ⟨rfl, rfl⟩
  · rintro ⟨rfl, rfl⟩
    exact .ret b

theorem answered_bind_iff {p : Prog R α} {f : α → Prog R β} {trace : Trace R} {b : β} : (p >>= f).Answered trace b ↔
      ∃ a first rest, p.Answered first a ∧ (f a).Answered rest b ∧ trace = first ++ rest := by
  constructor
  · intro h
    induction p generalizing trace with
    | ret a => exact ⟨a, [], trace, .ret a, h, rfl⟩
    | call i next ih =>
      cases h with
      | call r h =>
        obtain ⟨a, first, rest, hp, hf, rfl⟩ := ih r h
        exact ⟨a, _, rest, .call r hp, hf, rfl⟩
  · rintro ⟨a, first, rest, hp, hf, rfl⟩
    induction hp with
    | ret a => exact hf
    | call r _ ih => exact .call r (ih hf)

abbrev Stateful (R : I → Type) (σ ε α : Type) := ExceptT ε (StateT σ (Prog R)) α

def Runs (x : Stateful R σ ε α) (s : σ) (trace : Trace R) (outcome : Except ε α) (s' : σ) : Prop :=
  Prog.Answered (StateT.run (ExceptT.run x) s) trace (outcome, s')

namespace Stateful

def ask (i : I) : Stateful R σ ε (R i) := ExceptT.lift (StateT.lift (Prog.request i))

def check (x : Except ε α) : Stateful R σ ε α := ExceptT.mk (pure x)

def read : Stateful R σ ε σ := ExceptT.lift get

def update (f : σ → σ) : Stateful R σ ε Unit := ExceptT.lift (modify f)

def handle (x : Stateful R σ ε α) (handler : ε → Stateful R σ ε α) : Stateful R σ ε α :=
  ExceptT.mk (x.run >>= fun outcome =>
    match outcome with
    | .ok a => pure (.ok a)
    | .error e => (handler e).run)

end Stateful

open Stateful

variable {s s' : σ} {trace : Trace R} {outcome : Except ε α}

theorem runs_pure_iff {a : α} :
    Runs (pure a : Stateful R σ ε α) s trace outcome s' ↔ trace = [] ∧ outcome = .ok a ∧ s' = s := by
  rw [Runs]
  exact answered_ret_iff.trans (by rw [Prod.mk.injEq])

theorem runs_check_iff {x : Except ε α} :
    Runs (check x : Stateful R σ ε α) s trace outcome s' ↔ trace = [] ∧ outcome = x ∧ s' = s := by
  rw [Runs]
  exact answered_ret_iff.trans (by rw [Prod.mk.injEq])

theorem runs_throw_iff {e : ε} :
    Runs (throw e : Stateful R σ ε α) s trace outcome s' ↔ trace = [] ∧ outcome = .error e ∧ s' = s := by
  rw [Runs]
  exact answered_ret_iff.trans (by rw [Prod.mk.injEq])

theorem runs_read_iff {outcome : Except ε σ} :
    Runs (read : Stateful R σ ε σ) s trace outcome s' ↔ trace = [] ∧ outcome = .ok s ∧ s' = s := by
  rw [Runs]
  exact answered_ret_iff.trans (by rw [Prod.mk.injEq])

variable {f : σ → σ}

theorem runs_update_iff {outcome : Except ε Unit} :
    Runs (update f : Stateful R σ ε Unit) s trace outcome s' ↔ trace = [] ∧ outcome = .ok () ∧ s' = f s := by
  rw [Runs]
  exact answered_ret_iff.trans (by rw [Prod.mk.injEq])

variable {i : I}

theorem runs_ask_iff {outcome : Except ε (R i)} : Runs (ask i : Stateful R σ ε (R i)) s trace outcome s' ↔
      ∃ r, trace = [⟨i, r⟩] ∧ outcome = .ok r ∧ s' = s := by
  constructor
  · rintro ⟨⟩
    rename_i trace r h
    obtain ⟨rfl, heq⟩ := answered_ret_iff.1 h
    obtain ⟨rfl, rfl⟩ := Prod.mk.inj heq
    exact ⟨r, rfl, rfl, rfl⟩
  · rintro ⟨r, rfl, rfl, rfl⟩
    exact .call r (.ret _)

variable {x : Stateful R σ ε α}

theorem runs_bind_iff {f : α → Stateful R σ ε β} {outcome : Except ε β} :
    Runs (x >>= f) s trace outcome s' ↔ (∃ e, Runs x s trace (.error e) s' ∧ outcome = .error e) ∨
        ∃ a mid first rest, Runs x s first (.ok a) mid ∧ Runs (f a) mid rest outcome s' ∧ trace = first ++ rest := by
  have hunfold : Runs (x >>= f) s trace outcome s' ↔ ∃ (p : Except ε α × σ) (first rest : Trace R),
      Prog.Answered (StateT.run (ExceptT.run x) s) first p ∧
        Prog.Answered (StateT.run (ExceptT.bindCont f p.1) p.2) rest (outcome, s') ∧ trace = first ++ rest :=
    answered_bind_iff
  rw [hunfold]
  constructor
  · rintro ⟨⟨_ | a, mid⟩, first, rest, hx, hf, rfl⟩
    · obtain ⟨rfl, heq⟩ := answered_ret_iff.1 hf
      obtain ⟨rfl, rfl⟩ := Prod.mk.inj heq
      exact .inl ⟨_, by rwa [List.append_nil], rfl⟩
    · exact .inr ⟨a, mid, first, rest, hx, hf, rfl⟩
  · rintro (⟨e, hx, rfl⟩ | ⟨a, mid, first, rest, hx, hf, rfl⟩)
    · exact ⟨(.error e, s'), trace, [], hx, .ret _, by simp⟩
    · exact ⟨(.ok a, mid), first, rest, hx, hf, rfl⟩

theorem runs_read_bind_iff {f : σ → Stateful R σ ε β} {outcome : Except ε β} :
    Runs (read >>= f) s trace outcome s' ↔ Runs (f s) s trace outcome s' := by
  rw [runs_bind_iff]
  constructor
  · rintro (⟨e, h, -⟩ | ⟨a, mid, first, rest, h, hf, rfl⟩)
    · cases (runs_read_iff.1 h).2.1
    · obtain ⟨rfl, ha, rfl⟩ := runs_read_iff.1 h
      obtain rfl := Except.ok.inj ha
      exact hf
  · intro h
    exact .inr ⟨s, s, [], trace, runs_read_iff.2 ⟨rfl, rfl, rfl⟩, h, rfl⟩

theorem runs_update_bind_iff {g : Unit → Stateful R σ ε β} {outcome : Except ε β} :
    Runs (update f >>= g) s trace outcome s' ↔ Runs (g ()) (f s) trace outcome s' := by
  rw [runs_bind_iff]
  constructor
  · rintro (⟨e, h, -⟩ | ⟨a, mid, first, rest, h, hg, rfl⟩)
    · cases (runs_update_iff.1 h).2.1
    · obtain ⟨rfl, -, rfl⟩ := runs_update_iff.1 h
      exact hg
  · intro h
    exact .inr ⟨(), f s, [], trace, runs_update_iff.2 ⟨rfl, rfl, rfl⟩, h, rfl⟩

theorem runs_ask_bind_iff {f : R i → Stateful R σ ε β} {outcome : Except ε β} : Runs (ask i >>= f) s trace outcome s' ↔
      ∃ r rest, Runs (f r) s rest outcome s' ∧ trace = ⟨i, r⟩ :: rest := by
  rw [runs_bind_iff]
  constructor
  · rintro (⟨e, h, -⟩ | ⟨a, mid, first, rest, h, hf, rfl⟩)
    · obtain ⟨r, -, hr, -⟩ := runs_ask_iff.1 h
      cases hr
    · obtain ⟨r, rfl, ha, rfl⟩ := runs_ask_iff.1 h
      obtain rfl := Except.ok.inj ha
      exact ⟨a, rest, hf, rfl⟩
  · rintro ⟨r, rest, hf, rfl⟩
    exact .inr ⟨r, s, [⟨i, r⟩], rest, runs_ask_iff.2 ⟨r, rfl, rfl, rfl⟩, hf, rfl⟩

variable {handler : ε → Stateful R σ ε α}

theorem runs_handle_iff : Runs (handle x handler) s trace outcome s' ↔
      (∃ a, Runs x s trace (.ok a) s' ∧ outcome = .ok a) ∨
        ∃ e mid first rest, Runs x s first (.error e) mid ∧ Runs (handler e) mid rest outcome s' ∧
          trace = first ++ rest := by
  have hunfold : Runs (handle x handler) s trace outcome s' ↔ ∃ (p : Except ε α × σ) (first rest : Trace R),
      Prog.Answered (StateT.run (ExceptT.run x) s) first p ∧ Prog.Answered (StateT.run (match p.1 with
          | .ok a => (pure (.ok a) : StateT σ (Prog R) (Except ε α))
          | .error e => (handler e).run) p.2) rest (outcome, s') ∧ trace = first ++ rest :=
    answered_bind_iff
  rw [hunfold]
  constructor
  · rintro ⟨⟨e | a, mid⟩, first, rest, hx, hf, rfl⟩
    · exact .inr ⟨e, mid, first, rest, hx, hf, rfl⟩
    · obtain ⟨rfl, heq⟩ := answered_ret_iff.1 hf
      obtain ⟨rfl, rfl⟩ := Prod.mk.inj heq
      exact .inl ⟨a, by rwa [List.append_nil], rfl⟩
  · rintro (⟨a, hx, rfl⟩ | ⟨e, mid, first, rest, hx, hf, rfl⟩)
    · exact ⟨(.ok a, s'), trace, [], hx, .ret _, by simp⟩
    · exact ⟨(.error e, mid), first, rest, hx, hf, rfl⟩

/-- A preorder along which a state moves, the requests that may be made, and the exceptions that may be
raised. -/
structure Frame {I : Type} (R : I → Type) (σ ε : Type) where
  le : σ → σ → Prop
  refl : ∀ s, le s s
  trans : ∀ {s t u}, le s t → le t u → le s u
  asks : I → Prop
  raises : ε → Prop

def Stays (F : Frame R σ ε) (x : Stateful R σ ε α) : Prop :=
  ∀ s trace outcome s', Runs x s trace outcome s' →
    F.le s s' ∧ (∀ call ∈ trace, F.asks call.1) ∧ ∀ e, outcome = .error e → F.raises e

namespace Stays

variable {F : Frame R σ ε}

theorem pure (a : α) : Stays F (Pure.pure a : Stateful R σ ε α) := by
  intro s trace outcome s' h
  obtain ⟨rfl, rfl, rfl⟩ := runs_pure_iff.1 h
  exact ⟨F.refl _, by simp, by simp⟩

theorem check {x : Except ε α} (h : ∀ e, x = .error e → F.raises e) :
    Stays F (Stateful.check x : Stateful R σ ε α) := by
  intro s trace outcome s' hrun
  obtain ⟨rfl, rfl, rfl⟩ := runs_check_iff.1 hrun
  exact ⟨F.refl _, by simp, h⟩

theorem throw {e : ε} (h : F.raises e) : Stays F (MonadExcept.throw e : Stateful R σ ε α) := by
  intro s trace outcome s' hrun
  obtain ⟨rfl, rfl, rfl⟩ := runs_throw_iff.1 hrun
  refine ⟨F.refl _, by simp, ?_⟩
  rintro e' he
  obtain rfl := Except.error.inj he
  exact h

theorem read : Stays F (Stateful.read : Stateful R σ ε σ) := by
  intro s trace outcome s' h
  obtain ⟨rfl, rfl, rfl⟩ := runs_read_iff.1 h
  exact ⟨F.refl _, by simp, by simp⟩

theorem update (h : ∀ s, F.le s (f s)) : Stays F (Stateful.update f : Stateful R σ ε Unit) := by
  intro s trace outcome s' hrun
  obtain ⟨rfl, rfl, rfl⟩ := runs_update_iff.1 hrun
  exact ⟨h s, by simp, by simp⟩

theorem ask (h : F.asks i) : Stays F (Stateful.ask i : Stateful R σ ε (R i)) := by
  intro s trace outcome s' hrun
  obtain ⟨r, rfl, rfl, rfl⟩ := runs_ask_iff.1 hrun
  exact ⟨F.refl _, by simpa using h, by simp⟩

theorem bind {f : α → Stateful R σ ε β} (hx : Stays F x) (hf : ∀ a, Stays F (f a)) : Stays F (x >>= f) := by
  intro s trace outcome s' h
  rcases runs_bind_iff.1 h with ⟨e, hrun, rfl⟩ | ⟨a, mid, first, rest, hrun, hrest, rfl⟩
  · obtain ⟨hle, hasks, hraises⟩ := hx _ _ _ _ hrun
    exact ⟨hle, hasks, fun e' he => hraises e' (by rw [Except.error.inj he])⟩
  · obtain ⟨hle, hasks, -⟩ := hx _ _ _ _ hrun
    obtain ⟨hle', hasks', hraises⟩ := hf a _ _ _ _ hrest
    exact ⟨F.trans hle hle', List.forall_mem_append.2 ⟨hasks, hasks'⟩, hraises⟩

theorem ite {p : Prop} [Decidable p] {y : Stateful R σ ε α} (hx : Stays F x) (hy : Stays F y) :
    Stays F (if p then x else y) := by
  split_ifs
  · exact hx
  · exact hy

end Stays

abbrev World (R : I → Type) := Trace R → (i : I) → R i

/-- Run a program against a world: its result and the trace it adds to the one before. -/
def Prog.play (world : World R) : Prog R α → Trace R → α × Trace R
  | .ret a, _ => (a, [])
  | .call i next, before =>
    let (a, trace) := play world (next (world before i)) (before ++ [⟨i, world before i⟩])
    (a, ⟨i, world before i⟩ :: trace)

theorem answered_play (world : World R) (p : Prog R α) (before : Trace R) :
    p.Answered (p.play world before).2 (p.play world before).1 := by
  induction p generalizing before with
  | ret a => exact .ret a
  | call i next ih => exact .call _ (ih _ _)

end Interaction
