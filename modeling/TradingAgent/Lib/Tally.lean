import TradingAgent.Lib.Dict

/-!
# Sums by key

`tally key f xs` adds the value of every element of a list to the entry of its key. The entry of a key is
the sum over the elements with that key, and the entries together are the sum over the list.
-/

namespace Dict

variable {α κ M : Type*} [DecidableEq κ] [AddCommMonoid M]

def total (d : Dict κ M) (k : κ) : M := (d.get? k).getD 0

def addAt (d : Dict κ M) (k : κ) (v : M) : Dict κ M := d.set k (d.total k + v)

def tally (key : α → κ) (f : α → M) (xs : List α) : Dict κ M :=
  xs.foldl (fun d a => d.addAt (key a) (f a)) []

variable (key : α → κ) (f : α → M)

@[simp] theorem tally_nil : tally key f [] = [] := rfl

theorem tally_concat (xs : List α) (a : α) : tally key f (xs ++ [a]) = (tally key f xs).addAt (key a) (f a) := by
  simp [tally]

theorem total_addAt (d : Dict κ M) (k k' : κ) (v : M) :
    (d.addAt k v).total k' = if k = k' then d.total k' + v else d.total k' := by
  unfold addAt total
  rw [get?_set]
  split_ifs with h
  · subst h
    rfl
  · rfl

theorem total_tally (xs : List α) (k : κ) : (tally key f xs).total k = ((xs.filter fun a => key a = k).map f).sum := by
  induction xs using List.reverseRecOn with
  | nil => rfl
  | append_singleton xs a ih =>
    rw [tally_concat, total_addAt, ih, List.filter_append]
    split_ifs with h <;> simp [h]

theorem sum_values_addAt (d : Dict κ M) (k : κ) (v : M) : (d.addAt k v).values.sum = d.values.sum + v := by
  induction d with
  | nil => simp [addAt, total, set, values]
  | cons e d ih =>
    obtain ⟨a, b⟩ := e
    unfold addAt total at ih ⊢
    unfold values at ih ⊢
    unfold set
    rw [get?_cons]
    by_cases ha : a = k
    · rw [if_pos ha, if_pos ha]
      simp only [List.map_cons, List.sum_cons, Option.getD_some]
      abel
    · rw [if_neg ha, if_neg ha]
      simp only [List.map_cons, List.sum_cons]
      rw [ih, add_assoc]

theorem sum_values_tally (xs : List α) : (tally key f xs).values.sum = (xs.map f).sum := by
  induction xs using List.reverseRecOn with
  | nil => rfl
  | append_singleton xs a ih =>
    rw [tally_concat, sum_values_addAt, ih]
    simp

theorem mem_keys_tally (xs : List α) (k : κ) : k ∈ (tally key f xs).keys ↔ k ∈ xs.map key := by
  induction xs using List.reverseRecOn with
  | nil => simp
  | append_singleton xs a ih =>
    rw [tally_concat]
    unfold addAt
    rw [mem_keys_set, ih]
    simp [or_comm]

theorem nodup_keys_tally (xs : List α) : (tally key f xs).keys.Nodup := by
  induction xs using List.reverseRecOn with
  | nil => exact List.nodup_nil
  | append_singleton xs a ih =>
    rw [tally_concat]
    exact nodup_keys_set _ _ _ ih

theorem sum_components (values : List (M × M)) :
    ((values.map Prod.fst).sum, (values.map Prod.snd).sum) = values.sum := by
  induction values with
  | nil => rfl
  | cons v values ih =>
    rw [List.sum_cons, ← ih]
    rfl

end Dict
