import TradingAgent.Lib.Calls

/-!
# Weakest preconditions

A `Protocol` says which requests may be made of a world, how it may answer, and what becomes of it. The rules of `Wp`,
the weakest precondition, execute a program symbolically, and `Wp.sound` carries a postcondition over to every concrete
run.
-/

namespace Interaction

variable {I : Type} {R : I → Type} {α β σ ε V W : Type}

/-- How a world may answer a request, and what it is afterwards. -/
abbrev Steps (V : Type) {I : Type} (R : I → Type) := V → (i : I) → R i → V → Prop

/-- The world answers the requests of the trace, one after another. -/
inductive Along (steps : Steps V R) : V → Trace R → V → Prop
  | nil (v : V) : Along steps v [] v
  | cons {v mid v' : V} {i : I} {r : R i} {trace : Trace R} (h : steps v i r mid) (rest : Along steps mid trace v') :
    Along steps v (⟨i, r⟩ :: trace) v'

/-- The requests that may be made of a world, and its answers. -/
structure Protocol (V : Type) {I : Type} (R : I → Type) where
  asks : V → I → Prop
  answers : Steps V R

def Protocol.Simulates (P : Protocol V R) (concrete : Steps W R) (Rel : W → V → Prop) : Prop :=
  ∀ w v i r w', Rel w v → P.asks v i → concrete w i r w' → ∃ v', P.answers v i r v' ∧ Rel w' v'

/-- The program makes permitted requests only, and every run of it ends as the postcondition says. -/
def Prog.wp (P : Protocol V R) (Post : α → V → Prop) : Prog R α → V → Prop
  | .ret a, v => Post a v
  | .call i next, v => P.asks v i ∧ ∀ r v', P.answers v i r v' → wp P Post (next r) v'

variable {P : Protocol V R} {p : Prog R α}

theorem Prog.wp.mono {Post Post' : α → V → Prop} {v : V} (h : p.wp P Post v)
    (himp : ∀ a v', Post a v' → Post' a v') : p.wp P Post' v := by
  induction p generalizing v with
  | ret a => exact himp a v h
  | call i next ih => exact ⟨h.1, fun r v' hstep => ih r (h.2 r v' hstep)⟩

theorem Prog.wp_bind_iff {f : α → Prog R β} {Post : β → V → Prop} {v : V} :
    (p >>= f).wp P Post v ↔ p.wp P (fun a => (f a).wp P Post) v := by
  induction p generalizing v with
  | ret a => exact Iff.rfl
  | call i next ih =>
    exact and_congr_right fun _ => forall_congr' fun r => forall_congr' fun v' => imp_congr_right fun _ => ih r

variable {a : α} {concrete : Steps W R} {Rel : W → V → Prop} {trace : Trace R}

/-- Every run against the concrete world ends as the postcondition says. -/
theorem Prog.wp.sound {Post : α → V → Prop} {v : V} {w w' : W} (h : p.wp P Post v) (hsim : P.Simulates concrete Rel)
    (hrel : Rel w v) (hrun : p.Answered trace a) (halong : Along concrete w trace w') :
    ∃ v', Post a v' ∧ Rel w' v' := by
  induction hrun generalizing v w with
  | ret a =>
    cases halong
    exact ⟨v, h, hrel⟩
  | call r _ ih =>
    cases halong with
    | cons hstep hrest =>
      obtain ⟨mid, hanswer, hmid⟩ := hsim _ _ _ _ _ hrel h.1 hstep
      exact ih (h.2 _ _ hanswer) hmid hrest

/-- The weakest precondition of a program with a state. -/
def Wp (P : Protocol V R) (x : Stateful R σ ε α) (s : σ) (Post : Except ε α → σ → V → Prop) (v : V) : Prop :=
  Prog.wp P (fun p => Post p.1 p.2) (StateT.run (ExceptT.run x) s) v

/-- Go on with the value of the first part, or end with its exception. -/
def Continue (P : Protocol V R) (f : α → Stateful R σ ε β) (Post : Except ε β → σ → V → Prop) :
    Except ε α → σ → V → Prop
  | .ok a, s, v => Wp P (f a) s Post v
  | .error e, s, v => Post (.error e) s v

def Recover (P : Protocol V R) (handler : ε → Stateful R σ ε α) (Post : Except ε α → σ → V → Prop) :
    Except ε α → σ → V → Prop
  | .ok a, s, v => Post (.ok a) s v
  | .error e, s, v => Wp P (handler e) s Post v

variable {s : σ} {v : V} {Post Post' : Except ε α → σ → V → Prop} {f : α → Stateful R σ ε β}

@[simp] theorem continue_ok {Post : Except ε β → σ → V → Prop} :
    Continue P f Post (.ok a) s v ↔ Wp P (f a) s Post v := Iff.rfl

variable {e : ε} {handler : ε → Stateful R σ ε α}

@[simp] theorem recover_ok : Recover P handler Post (.ok a) s v ↔ Post (.ok a) s v := Iff.rfl

variable {x : Stateful R σ ε α}

theorem Wp.mono (h : Wp P x s Post v)
    (himp : ∀ outcome s' v', Post outcome s' v' → Post' outcome s' v') : Wp P x s Post' v :=
  Prog.wp.mono h fun p => himp p.1 p.2

theorem Wp.sound {outcome : Except ε α} {s' : σ} {w w' : W} (h : Wp P x s Post v) (hsim : P.Simulates concrete Rel)
    (hrel : Rel w v) (hrun : Runs x s trace outcome s') (halong : Along concrete w trace w') :
    ∃ v', Post outcome s' v' ∧ Rel w' v' := by
  have hwp : Prog.wp P (fun p : Except ε α × σ => Post p.1 p.2) (StateT.run (ExceptT.run x) s) v := h
  exact hwp.sound hsim hrel hrun halong

@[simp] theorem wp_pure_iff : Wp P (pure a : Stateful R σ ε α) s Post v ↔ Post (.ok a) s v := Iff.rfl

@[simp] theorem wp_check_iff {x : Except ε α} :
    Wp P (Stateful.check x : Stateful R σ ε α) s Post v ↔ Post x s v := Iff.rfl

@[simp] theorem wp_read_iff {Post : Except ε σ → σ → V → Prop} :
    Wp P (Stateful.read : Stateful R σ ε σ) s Post v ↔ Post (.ok s) s v := Iff.rfl

@[simp] theorem wp_update_iff {f : σ → σ} {Post : Except ε Unit → σ → V → Prop} :
    Wp P (Stateful.update f : Stateful R σ ε Unit) s Post v ↔ Post (.ok ()) (f s) v := Iff.rfl

@[simp] theorem wp_bind_iff {Post : Except ε β → σ → V → Prop} :
    Wp P (x >>= f) s Post v ↔ Wp P x s (Continue P f Post) v := by
  have hunfold : Wp P (x >>= f) s Post v ↔
      Prog.wp P (fun p => Prog.wp P (fun q => Post q.1 q.2) (StateT.run (ExceptT.bindCont f p.1) p.2))
        (StateT.run (ExceptT.run x) s) v := Prog.wp_bind_iff
  rw [hunfold]
  constructor <;>
  · intro h
    refine Prog.wp.mono h ?_
    rintro ⟨_ | a, s'⟩ v' h
    · exact h
    · exact h

@[simp] theorem wp_handle_iff : Wp P (Stateful.handle x handler) s Post v ↔ Wp P x s (Recover P handler Post) v := by
  refine Iff.trans Prog.wp_bind_iff ?_
  constructor <;>
  · intro h
    refine Prog.wp.mono h ?_
    rintro ⟨_ | a, s'⟩ v' h
    · exact h
    · exact h

end Interaction
