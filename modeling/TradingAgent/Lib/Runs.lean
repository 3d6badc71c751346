import TradingAgent.Lib.Interaction

/-!
# Single runs of a program

`Returns` forgets the store: some answers lead the program to its result. `RunsTo` keeps it: the program runs
against a store that other programs move along a discipline between its requests.
-/

namespace Interaction

variable {I : Type} {R : I → Type} {α β σ ε : Type}

inductive Prog.Returns : Prog R α → α → Prop
  | ret (a : α) : Returns (.ret a) a
  | call {i : I} {next : R i → Prog R α} {a : α} (r : R i) (h : Returns (next r) a) : Returns (.call i next) a

variable {a : α}

theorem returns_ret_iff {b : α} : (Prog.ret a : Prog R α).Returns b ↔ a = b := by
  constructor
  · rintro ⟨⟩
    rfl
  · rintro rfl
    exact .ret a

variable {p : Prog R α} {b : β} {f : α → Prog R β}

theorem returns_bind (h : (p >>= f).Returns b) : ∃ a, p.Returns a ∧ (f a).Returns b := by
  induction p with
  | ret a => exact ⟨a, .ret a, h⟩
  | call i next ih =>
    obtain ⟨r, h⟩ : ∃ r, (next r >>= f).Returns b := by
      cases h with
      | call r h => exact ⟨r, h⟩
    obtain ⟨a, ha, hb⟩ := ih r h
    exact ⟨a, .call r ha, hb⟩

theorem returns_bind_ok {x : ExceptT ε (Prog R) α} {f : α → ExceptT ε (Prog R) β}
    (h : (x >>= f).run.Returns (.ok b)) : ∃ a, x.run.Returns (.ok a) ∧ (f a).run.Returns (.ok b) := by
  obtain ⟨r, hr, hf⟩ := returns_bind (p := x.run) h
  cases r with
  | error e => cases returns_ret_iff.1 hf
  | ok a => exact ⟨a, hr, hf⟩

/-- A program that raises has raised in one of its parts. -/
theorem returns_bind_error {x : ExceptT ε (Prog R) α} {f : α → ExceptT ε (Prog R) β} {e : ε}
    (h : (x >>= f).run.Returns (.error e)) :
    x.run.Returns (.error e) ∨ ∃ a, x.run.Returns (.ok a) ∧ (f a).run.Returns (.error e) := by
  obtain ⟨r, hr, hf⟩ := returns_bind (p := x.run) h
  cases r with
  | error e' =>
    obtain rfl := Except.error.inj (returns_ret_iff.1 hf)
    exact .inl hr
  | ok a => exact .inr ⟨a, hr, hf⟩

variable (serve : Server σ R) (D : Discipline σ)

/-- Process `n` returns the value, with the store that it and others have made of `s`. -/
inductive Prog.RunsTo (n : ℕ) : Prog R α → σ → α → σ → Prop
  | ret {s : σ} (a : α) : RunsTo n (.ret a) s a s
  | call {s t u : σ} {i : I} {next : R i → Prog R α} {a : α} (hle : D.le s t) (hinv : D.Inv t)
      (h : RunsTo n (next (serve n i t).1) (serve n i t).2 a u) : RunsTo n (.call i next) s a u

variable {serve D} {n : ℕ} {s t : σ}

theorem Prog.RunsTo.returns (h : p.RunsTo serve D n s a t) : p.Returns a := by
  induction h with
  | ret a => exact .ret a
  | call _ _ _ ih => exact .call _ ih

theorem runsTo_ret_iff {b : α} : (Prog.ret a : Prog R α).RunsTo serve D n s b t ↔ a = b ∧ s = t := by
  constructor
  · rintro ⟨⟩
    exact ⟨rfl, rfl⟩
  · rintro ⟨rfl, rfl⟩
    exact .ret a

theorem runsTo_bind (h : (p >>= f).RunsTo serve D n s b t) :
    ∃ a u, p.RunsTo serve D n s a u ∧ (f a).RunsTo serve D n u b t := by
  induction p generalizing s with
  | ret a => exact ⟨a, s, .ret a, h⟩
  | call i next ih =>
    cases h with
    | call hle hinv h =>
      obtain ⟨a, u, hp, hf⟩ := ih _ h
      exact ⟨a, u, .call hle hinv hp, hf⟩

theorem runsTo_bind_ok {x : ExceptT ε (Prog R) α} {f : α → ExceptT ε (Prog R) β} {s t : σ} {b : β}
    (h : (x >>= f).run.RunsTo serve D n s (.ok b) t) :
    ∃ a u, x.run.RunsTo serve D n s (.ok a) u ∧ (f a).run.RunsTo serve D n u (.ok b) t := by
  obtain ⟨r, u, hr, hf⟩ := runsTo_bind (p := x.run) h
  cases r with
  | error e => cases (runsTo_ret_iff.1 hf).1
  | ok a => exact ⟨a, u, hr, hf⟩

theorem Prog.RunsTo.le (hserve : ∀ i s, D.Inv s → D.le s (serve n i s).2) {p : Prog R α} {s t : σ} {a : α}
    (h : p.RunsTo serve D n s a t) : D.le s t := by
  induction h with
  | ret => exact D.refl _
  | call hle hinv _ ih => exact D.trans hle (D.trans (hserve _ _ hinv) ih)

theorem Prog.RunsTo.inv (hserve : ∀ i s, D.Inv s → D.Inv (serve n i s).2)
    (hinv : D.Inv s) (h : p.RunsTo serve D n s a t) : D.Inv t := by
  induction h with
  | ret => exact hinv
  | call _ hinvt _ ih => exact ih (hserve _ _ hinvt)

def Prog.runAlone (serve : Server σ R) (n : ℕ) : Prog R α → σ → α × σ
  | .ret a, s => (a, s)
  | .call i next, s => runAlone serve n (next (serve n i s).1) (serve n i s).2

theorem runsTo_runAlone (hserve : ∀ i s, D.Inv s → D.Inv (serve n i s).2) (p : Prog R α) (hinv : D.Inv s) :
    p.RunsTo serve D n s (p.runAlone serve n s).1 (p.runAlone serve n s).2 := by
  induction p generalizing s with
  | ret a => exact .ret a
  | call i next ih => exact .call (D.refl s) hinv (ih _ (hserve i s hinv))

end Interaction
