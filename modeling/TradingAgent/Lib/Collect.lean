import TradingAgent.Lib.Dict
import TradingAgent.Lib.Outcome

/-!
# Collecting results

Loops that collect the results of their rounds: in a list, or under a key, where a round fails on an element it
does not admit or on a disagreement with the value already there.
-/

namespace Outcome

theorem mapM_ok_of {α β γ ε : Type} {f : α → Except ε β} {g : β → γ} {k : α → γ} {xs : List α}
    (h : ∀ x ∈ xs, ∃ y, f x = .ok y ∧ g y = k x) : ∃ ys, xs.mapM f = .ok ys ∧ ys.map g = xs.map k := by
  induction xs with
  | nil => exact ⟨[], rfl, rfl⟩
  | cons x xs ih =>
    obtain ⟨y, hy, hg⟩ := h x List.mem_cons_self
    obtain ⟨ys, hys, hmap⟩ := ih fun z hz => h z (List.mem_cons_of_mem _ hz)
    refine ⟨y :: ys, ?_, by rw [List.map_cons, List.map_cons, hg, hmap]⟩
    rw [List.mapM_cons, hy, ok_bind, hys]
    rfl

end Outcome

open Outcome

namespace Dict

variable {α κ ν ε : Type} [DecidableEq κ] {key : α → κ} {val : α → ν} {admits : α → Prop}
  {agrees : ν → α → Prop} {step : Dict κ ν → α → Except ε (Dict κ ν)}

/-- One round checks the element and the value already there and stores the new one. -/
def Collects (step : Dict κ ν → α → Except ε (Dict κ ν)) (key : α → κ) (val : α → ν) (admits : α → Prop)
    (agrees : ν → α → Prop) : Prop :=
  ∀ d x d', step d x = .ok d' ↔ admits x ∧ (∀ v ∈ d.get? (key x), agrees v x) ∧ d' = d.set (key x) (val x)

/-- The entries are values of the elements. -/
structure CollectedFrom (key : α → κ) (val : α → ν) (xs : List α) (d : Dict κ ν) : Prop where
  nodup : d.keys.Nodup
  keys : ∀ k, k ∈ d.keys ↔ k ∈ xs.map key
  entries : ∀ k v, d.get? k = some v → ∃ x ∈ xs, key x = k ∧ val x = v

variable {xs : List α} {d : Dict κ ν}

theorem CollectedFrom.concat (h : CollectedFrom key val xs d) (x : α) :
    CollectedFrom key val (xs ++ [x]) (d.set (key x) (val x)) := by
  refine ⟨nodup_keys_set _ _ _ h.nodup, fun k => ?_, fun k v hv => ?_⟩
  · rw [mem_keys_set, h.keys, List.map_append, List.mem_append, List.map_singleton, List.mem_singleton]
    exact or_comm
  · rw [get?_set] at hv
    split_ifs at hv with hk
    · exact ⟨x, List.mem_append_right _ List.mem_cons_self, hk, Option.some.inj hv⟩
    · obtain ⟨y, hy, hkey, hval⟩ := h.entries k v hv
      exact ⟨y, List.mem_append_left _ hy, hkey, hval⟩

variable (h : Collects step key val admits agrees)
include h

theorem collectedFrom_of_foldlM (hfold : xs.foldlM step [] = .ok d) : CollectedFrom key val xs d := by
  induction xs using List.reverseRecOn generalizing d with
  | nil =>
    obtain rfl := Except.ok.inj hfold
    exact ⟨.nil, by simp, by simp⟩
  | append_singleton xs x ih =>
    rw [foldlM_concat, bind_ok_iff] at hfold
    obtain ⟨before, hbefore, hx⟩ := hfold
    obtain ⟨-, -, rfl⟩ := (h before x d).1 hx
    exact (ih hbefore).concat x

theorem admits_of_foldlM {d' : Dict κ ν} (hfold : xs.foldlM step d = .ok d') : ∀ x ∈ xs, admits x := by
  induction xs generalizing d with
  | nil => simp
  | cons x xs ih =>
    rw [List.foldlM_cons, bind_ok_iff] at hfold
    obtain ⟨between, hx, hfold⟩ := hfold
    intro y hy
    rcases List.mem_cons.1 hy with rfl | hy
    · exact ((h d y between).1 hx).1
    · exact ih hfold y hy

theorem foldlM_collects (xs : List α) (hadmits : ∀ x ∈ xs, admits x)
    (hagree : ∀ x ∈ xs, ∀ y ∈ xs, key x = key y → agrees (val x) y) :
    ∃ d, xs.foldlM step [] = .ok d ∧ CollectedFrom key val xs d := by
  have hnil : CollectedFrom key val [] ([] : Dict κ ν) := ⟨.nil, by simp, by simp⟩
  obtain ⟨d, hd, -⟩ := @foldlM_ok _ _ _ step xs [] (fun done d => CollectedFrom key val done d) hnil
    fun done x rest d hxs hd => by
      have hx : x ∈ xs := by
        rw [hxs]
        exact List.mem_append_right _ List.mem_cons_self
      refine ⟨d.set (key x) (val x), (h d x _).2 ⟨hadmits x hx, fun v hv => ?_, rfl⟩, hd.concat x⟩
      obtain ⟨y, hy, hkey, rfl⟩ := hd.entries _ v hv
      refine hagree y ?_ x hx hkey
      rw [hxs]
      exact List.mem_append_left _ hy
  exact ⟨d, hd, collectedFrom_of_foldlM h hd⟩

omit h

theorem get?_of_foldlM (h : Collects step key val admits fun v x => v = val x)
    (hfold : xs.foldlM step [] = .ok d) {x : α} (hx : x ∈ xs) : d.get? (key x) = some (val x) := by
  induction xs using List.reverseRecOn generalizing d with
  | nil => cases hx
  | append_singleton xs y ih =>
    rw [foldlM_concat, bind_ok_iff] at hfold
    obtain ⟨before, hbefore, hy⟩ := hfold
    obtain ⟨-, hagree, rfl⟩ := (h before y d).1 hy
    rw [get?_set]
    split_ifs with hkey
    · rcases List.mem_append.1 hx with hx | hx
      · rw [hagree (val x) (hkey ▸ ih hbefore hx)]
      · rw [List.mem_singleton.1 hx]
    · rcases List.mem_append.1 hx with hx | hx
      · exact ih hbefore hx
      · exact absurd (congrArg key (List.mem_singleton.1 hx).symm) hkey

end Dict
