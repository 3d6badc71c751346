import TradingAgent.Lib.Outcome

/-!
# Concurrent programs on a shared store

A program is a tree of requests, each answered by the store in one indivisible step; the steps of several programs
interleave in any order (`Pool.run`). `Keeps` is the rely-guarantee rule.
-/

namespace Interaction

/-- A program over requests `I` with answers `R i`. -/
inductive Prog {I : Type} (R : I → Type) (α : Type) : Type
  | ret (a : α)
  | call (i : I) (next : R i → Prog R α)

variable {I : Type} {R : I → Type} {α β σ : Type}

namespace Prog

def bind (p : Prog R α) (f : α → Prog R β) : Prog R β :=
  match p with
  | ret a => f a
  | call i next => call i fun r => bind (next r) f

instance : Monad (Prog R) where
  pure := ret
  bind := bind

def request (i : I) : Prog R (R i) := call i ret

end Prog

structure Pool (σ : Type) {I : Type} (R : I → Type) (α : Type) where
  store : σ
  procs : List (Prog R α)

/-- How the store answers a request of process `n`. -/
abbrev Server (σ : Type) {I : Type} (R : I → Type) := ℕ → (i : I) → σ → R i × σ

namespace Pool

variable (serve : Server σ R)

/-- One request of process `n`; nothing when it has returned. -/
def step (pool : Pool σ R α) (n : ℕ) : Pool σ R α :=
  match pool.procs[n]? with
  | some (.call i next) =>
    ⟨(serve n i pool.store).2, pool.procs.set n (next (serve n i pool.store).1)⟩
  | _ => pool

def run (pool : Pool σ R α) (schedule : List ℕ) : Pool σ R α := schedule.foldl (step serve) pool

theorem run_concat (pool : Pool σ R α) (schedule : List ℕ) (n : ℕ) :
    run serve pool (schedule ++ [n]) = step serve (run serve pool schedule) n := by
  simp [run]

theorem run_procs_of_notMem {pool : Pool σ R α} {schedule : List ℕ} {m : ℕ} (h : m ∉ schedule) :
    (run serve pool schedule).procs[m]? = pool.procs[m]? := by
  induction schedule using List.reverseRecOn with
  | nil => rfl
  | append_singleton schedule n ih =>
    rw [List.mem_append, List.mem_singleton, not_or] at h
    rw [run_concat, ← ih h.1]
    unfold step
    split
    · exact List.getElem?_set_ne fun hn => h.2 hn.symm
    · rfl

end Pool

/-- What the programs keep: an invariant of the store and a preorder along which it moves. -/
structure Discipline (σ : Type) where
  Inv : σ → Prop
  le : σ → σ → Prop
  refl : ∀ s, le s s
  trans : ∀ {s t u}, le s t → le t u → le s u

variable (serve : Server σ R) (D : Discipline σ)

/-- Process `n`, from store `s` on and among others that keep the discipline, keeps it and returns what
`Post` admits. -/
def Keeps (n : ℕ) (Post : α → σ → Prop) : Prog R α → σ → Prop
  | .ret a, s => Post a s
  | .call i next, s => ∀ t, D.le s t → D.Inv t →
      D.le t (serve n i t).2 ∧ D.Inv (serve n i t).2 ∧ Keeps n Post (next (serve n i t).1) (serve n i t).2

variable {serve D} {n : ℕ} {s : σ} {Post : α → σ → Prop}

theorem keeps_ret {a : α} (h : Post a s) : Keeps serve D n Post (.ret a) s := h

variable {p : Prog R α} {Post' : α → σ → Prop}

theorem Keeps.mono (h : Keeps serve D n Post p s) (himp : ∀ a t, Post a t → Post' a t) : Keeps serve D n Post' p s := by
  induction p generalizing s with
  | ret a => exact himp a s h
  | call i next ih =>
    intro t hle hinv
    obtain ⟨hle', hinv', hnext⟩ := h t hle hinv
    exact ⟨hle', hinv', ih _ hnext⟩

theorem Keeps.map {f : α → β} {Post : β → σ → Prop}
    (h : Keeps serve D n (fun a t => Post (f a) t) p s) : Keeps serve D n Post (f <$> p) s := by
  induction p generalizing s with
  | ret a => exact h
  | call i next ih =>
    intro t hle hinv
    obtain ⟨hle', hinv', hnext⟩ := h t hle hinv
    exact ⟨hle', hinv', ih _ hnext⟩

theorem Keeps.bind {f : α → Prog R β} {Post' : β → σ → Prop} (hinv : D.Inv s) (h : Keeps serve D n Post p s)
    (hf : ∀ a t, D.le s t → D.Inv t → Post a t → Keeps serve D n Post' (f a) t) :
    Keeps serve D n Post' (p >>= f) s := by
  induction p generalizing s with
  | ret a => exact hf a s (D.refl s) hinv h
  | call i next ih =>
    intro t hle hinvt
    obtain ⟨hle', hinv', hnext⟩ := h t hle hinvt
    refine ⟨hle', hinv', ih _ hinv' hnext fun a u hu => ?_⟩
    exact hf a u (D.trans hle (D.trans hle' hu))

theorem Pool.run_keeps {procs : List (Prog R α)} {Post : ℕ → α → σ → Prop} (hinv : D.Inv s)
    (hprocs : ∀ n p, procs[n]? = some p → Keeps serve D n (Post n) p s) (schedule : List ℕ) :
    D.le s (Pool.run serve ⟨s, procs⟩ schedule).store ∧ D.Inv (Pool.run serve ⟨s, procs⟩ schedule).store ∧
      ∀ n p, (Pool.run serve ⟨s, procs⟩ schedule).procs[n]? = some p →
        ∃ t, D.le t (Pool.run serve ⟨s, procs⟩ schedule).store ∧ Keeps serve D n (Post n) p t := by
  induction schedule using List.reverseRecOn with
  | nil => exact ⟨D.refl s, hinv, fun n p hp => ⟨s, D.refl s, hprocs n p hp⟩⟩
  | append_singleton schedule m ih =>
    rw [Pool.run_concat]
    generalize Pool.run serve ⟨s, procs⟩ schedule = pool at ih ⊢
    obtain ⟨hle, hinv, hkeeps⟩ := ih
    unfold Pool.step
    split
    · rename_i i next hm
      obtain ⟨t, ht, hcall⟩ := hkeeps m _ hm
      obtain ⟨hle', hinv', hnext⟩ := hcall pool.store ht hinv
      refine ⟨D.trans hle hle', hinv', fun k p hp => ?_⟩
      by_cases hk : m = k
      · subst hk
        have hlt : m < pool.procs.length := by
          by_contra hge
          rw [List.getElem?_eq_none (Nat.not_lt.1 hge)] at hm
          cases hm
        rw [List.getElem?_set_self hlt] at hp
        obtain rfl := Option.some.inj hp
        exact ⟨_, D.refl _, hnext⟩
      · rw [List.getElem?_set_ne hk] at hp
        obtain ⟨u, hu, hku⟩ := hkeeps k p hp
        exact ⟨u, D.trans hu hle', hku⟩
    · exact ⟨hle, hinv, hkeeps⟩

variable {ε : Type}

/-- A program that keeps the discipline and, unless it raises, returns what `Post` admits. -/
def Ensures (serve : Server σ R) (D : Discipline σ) (n : ℕ) (Post : α → σ → Prop)
    (x : ExceptT ε (Prog R) α) (s : σ) : Prop :=
  Keeps serve D n (fun r t => ∀ a, r = .ok a → Post a t) x.run s

variable {x : ExceptT ε (Prog R) α}

theorem Ensures.bind {f : α → ExceptT ε (Prog R) β}
    {Post' : β → σ → Prop} (hinv : D.Inv s) (h : Ensures serve D n Post x s)
    (hf : ∀ a t, D.le s t → D.Inv t → Post a t → Ensures serve D n Post' (f a) t) :
    Ensures serve D n Post' (x >>= f) s := by
  refine Keeps.bind hinv h fun r t hle hinvt hr => ?_
  cases r with
  | error e => exact fun a ha => nomatch ha
  | ok a => exact hf a t hle hinvt (hr a rfl)

theorem ensures_pure {a : α} (h : Post a s) : Ensures serve D n Post (pure a : ExceptT ε (Prog R) α) s := by
  intro b hb
  rw [← Except.ok.inj hb]
  exact h

theorem ensures_lift (h : Keeps serve D n Post p s) :
    Ensures serve D n Post (ExceptT.lift p : ExceptT ε (Prog R) α) s := by
  refine Keeps.map (h.mono fun a t ha b hb => ?_)
  rw [← Except.ok.inj hb]
  exact ha

theorem Ensures.attempt (h : Ensures serve D n Post x s) :
    Ensures serve D n (fun r t => ∀ a, r = .ok a → Post a t) (ExceptT.lift x.run : ExceptT ε (Prog R) _) s :=
  ensures_lift h

theorem Ensures.adapt (f : ε → ε) (h : Ensures serve D n Post x s) : Ensures serve D n Post (ExceptT.adapt f x) s := by
  refine Keeps.map (Keeps.mono h fun r t hr a ha => ?_)
  cases r with
  | error e => cases ha
  | ok b => exact hr a ha

theorem ensures_ret {x : Except ε α} (h : ∀ a, x = .ok a → Post a s) :
    Ensures serve D n Post (ExceptT.mk (.ret x) : ExceptT ε (Prog R) α) s :=
  h

end Interaction
