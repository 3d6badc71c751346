import Mathlib.Data.List.Sort
import Mathlib.Algebra.BigOperators.Group.Finset.Piecewise
import Mathlib.Tactic.Abel

/-!
# Insertion-ordered dictionaries and keyed sorting

`Dict κ ν` is a dictionary that remembers the order in which its keys were first set: setting an
existing key replaces its value in place, setting a new key puts the entry at the end. `sortBy key`
is the stable sort of a list by a key.
-/

/-- Entries in the order in which their keys were first set. -/
abbrev Dict (κ ν : Type*) := List (κ × ν)

namespace Dict

variable {κ ν : Type*}

def keys (d : Dict κ ν) : List κ := d.map Prod.fst

def values (d : Dict κ ν) : List ν := d.map Prod.snd

@[simp] theorem keys_nil : keys ([] : Dict κ ν) = [] := rfl

@[simp] theorem keys_cons (e : κ × ν) (d : Dict κ ν) : keys (e :: d) = e.1 :: keys d := rfl

variable [DecidableEq κ]

def get? (d : Dict κ ν) (k : κ) : Option ν :=
  match d with
  | [] => none
  | (k', v) :: rest => if k' = k then some v else get? rest k

def set (d : Dict κ ν) (k : κ) (v : ν) : Dict κ ν :=
  match d with
  | [] => [(k, v)]
  | (k', v') :: rest => if k' = k then (k, v) :: rest else (k', v') :: set rest k v

def ofList (entries : List (κ × ν)) : Dict κ ν :=
  entries.foldl (fun d e => d.set e.1 e.2) []

@[simp] theorem get?_nil (k : κ) : get? ([] : Dict κ ν) k = none := rfl

theorem get?_cons (k' : κ) (v : ν) (d : Dict κ ν) (k : κ) :
    get? ((k', v) :: d) k = if k' = k then some v else get? d k := rfl

variable (d : Dict κ ν)
include d

@[simp] theorem get?_set_self (k : κ) (v : ν) : (d.set k v).get? k = some v := by
  induction d with
  | nil => simp [set, get?]
  | cons e d ih =>
    obtain ⟨k', v'⟩ := e
    unfold set
    split_ifs with h
    · simp [get?]
    · simp [get?, h, ih]

variable {k : κ}

theorem get?_set_of_ne {k' : κ} (v : ν) (h : k ≠ k') : (d.set k v).get? k' = d.get? k' := by
  induction d with
  | nil => simp [set, get?, h]
  | cons e d ih =>
    obtain ⟨a, b⟩ := e
    unfold set
    split_ifs with ha
    · subst ha
      simp [get?, h]
    · by_cases hk : a = k'
      · simp [get?, hk]
      · simp [get?, hk, ih]

theorem get?_set (k k' : κ) (v : ν) : (d.set k v).get? k' = if k = k' then some v else d.get? k' := by
  split_ifs with h
  · subst h
    exact get?_set_self d k v
  · exact get?_set_of_ne d v h

theorem mem_keys_iff (k : κ) : k ∈ d.keys ↔ (d.get? k).isSome := by
  induction d with
  | nil => simp
  | cons e d ih =>
    obtain ⟨a, b⟩ := e
    by_cases h : a = k
    · simp [get?, h]
    · simp [get?, h, ih, Ne.symm h]

theorem get?_eq_none_iff (k : κ) : d.get? k = none ↔ k ∉ d.keys := by
  rw [mem_keys_iff]
  simp

theorem set_of_notMem (k : κ) (v : ν) (h : k ∉ d.keys) : d.set k v = d ++ [(k, v)] := by
  induction d with
  | nil => rfl
  | cons e d ih =>
    obtain ⟨a, b⟩ := e
    simp only [keys_cons, List.mem_cons, not_or] at h
    unfold set
    rw [if_neg (Ne.symm h.1), ih h.2]
    rfl

theorem keys_set_of_mem (k : κ) (v : ν) (h : k ∈ d.keys) : (d.set k v).keys = d.keys := by
  induction d with
  | nil => simp at h
  | cons e d ih =>
    obtain ⟨a, b⟩ := e
    unfold set
    split_ifs with ha
    · simp [ha]
    · have hk : k ∈ keys d := by
        simpa [Ne.symm ha] using h
      simp [ih hk]

theorem keys_set_of_notMem (k : κ) (v : ν) (h : k ∉ d.keys) : (d.set k v).keys = d.keys ++ [k] := by
  rw [set_of_notMem d k v h]
  simp [keys]

theorem nodup_keys_set (k : κ) (v : ν) (h : d.keys.Nodup) : (d.set k v).keys.Nodup := by
  by_cases hk : k ∈ d.keys
  · rwa [keys_set_of_mem d k v hk]
  · rw [keys_set_of_notMem d k v hk]
    refine List.nodup_append.2 ⟨h, by simp, ?_⟩
    intro a ha b hb e
    rw [List.mem_singleton] at hb
    exact hk (hb ▸ e ▸ ha)

omit d

variable {d : Dict κ ν} {v : ν}

theorem mem_of_get?_eq_some (h : d.get? k = some v) : (k, v) ∈ d := by
  induction d with
  | nil => simp at h
  | cons e d ih =>
    obtain ⟨a, b⟩ := e
    rw [get?_cons] at h
    split_ifs at h with ha
    · subst ha
      obtain rfl := Option.some.inj h
      exact List.mem_cons_self
    · exact List.mem_cons_of_mem _ (ih h)

theorem get?_eq_some_iff (h : d.keys.Nodup) : d.get? k = some v ↔ (k, v) ∈ d := by
  refine ⟨mem_of_get?_eq_some, fun hm => ?_⟩
  induction d with
  | nil => simp at hm
  | cons e d ih =>
    obtain ⟨a, b⟩ := e
    rw [keys_cons, List.nodup_cons] at h
    rcases List.mem_cons.1 hm with heq | hm
    · obtain ⟨rfl, rfl⟩ := Prod.mk.inj heq
      simp [get?]
    · have hne : a ≠ k := by
        rintro rfl
        exact h.1 (List.mem_map.2 ⟨_, hm, rfl⟩)
      rw [get?_cons, if_neg hne]
      exact ih h.2 hm

variable {e : Dict κ ν}

theorem get?_eq_of_perm (hp : d.Perm e) (h : d.keys.Nodup) (k : κ) : d.get? k = e.get? k := by
  have he : e.keys.Nodup := (hp.map Prod.fst).nodup_iff.1 h
  ext v
  rw [get?_eq_some_iff h, get?_eq_some_iff he]
  exact hp.mem_iff

theorem perm_of_get? (hd : d.keys.Nodup) (he : e.keys.Nodup) (h : ∀ k, d.get? k = e.get? k) : d.Perm e := by
  rw [List.perm_ext_iff_of_nodup hd.of_map he.of_map]
  rintro ⟨k, v⟩
  rw [← get?_eq_some_iff hd, ← get?_eq_some_iff he, h]

theorem eq_nil_of_get? (h : ∀ k, d.get? k = none) : d = [] := by
  cases d with
  | nil => rfl
  | cons e d =>
    have hhead := h e.1
    rw [show e :: d = (e.1, e.2) :: d from rfl, get?_cons, if_pos rfl] at hhead
    cases hhead

theorem ofList_append_singleton (l : List (κ × ν)) (e : κ × ν) : ofList (l ++ [e]) = (ofList l).set e.1 e.2 := by
  simp [ofList]

theorem ofList_of_nodup {l : Dict κ ν} (h : l.keys.Nodup) : ofList l = l := by
  induction l using List.reverseRecOn with
  | nil => rfl
  | append_singleton l e ih =>
    have hk : keys (l ++ [e]) = keys l ++ [e.1] := by simp [keys]
    rw [hk, List.nodup_append] at h
    rw [ofList_append_singleton, ih h.1, set_of_notMem]
    exact fun hm => h.2.2 e.1 hm e.1 (by simp) rfl

theorem nodup_keys_ofList (l : List (κ × ν)) : (ofList l).keys.Nodup := by
  induction l using List.reverseRecOn with
  | nil => exact List.nodup_nil
  | append_singleton l e ih =>
    rw [ofList_append_singleton]
    exact nodup_keys_set _ _ _ ih

theorem mem_keys_set (d : Dict κ ν) (k k' : κ) (v : ν) : k' ∈ (d.set k v).keys ↔ k' = k ∨ k' ∈ d.keys := by
  by_cases h : k ∈ d.keys
  · rw [keys_set_of_mem d k v h]
    constructor
    · exact .inr
    · rintro (rfl | hm)
      · exact h
      · exact hm
  · rw [keys_set_of_notMem d k v h]
    simp [or_comm]

def erase (d : Dict κ ν) (k : κ) : Dict κ ν := d.filter fun e => e.1 ≠ k

theorem keys_erase (d : Dict κ ν) (k : κ) : (d.erase k).keys = d.keys.filter fun k' => k' ≠ k := by
  unfold erase keys
  rw [List.filter_map]
  rfl

theorem nodup_keys_erase (h : d.keys.Nodup) (k : κ) : (d.erase k).keys.Nodup := by
  rw [keys_erase]
  exact h.filter _

theorem perm_keys_erase (h : d.keys.Nodup) (hk : k ∈ d.keys) : (k :: (d.erase k).keys).Perm d.keys := by
  have herase : (d.erase k).keys = d.keys.erase k := by
    rw [keys_erase, h.erase_eq_filter]
    exact List.filter_congr fun x _ => by rw [Bool.eq_iff_iff]; simp
  rw [herase]
  exact (List.perm_cons_erase hk).symm

theorem get?_erase (d : Dict κ ν) (k k' : κ) : (d.erase k).get? k' = if k = k' then none else d.get? k' := by
  induction d with
  | nil => simp [erase]
  | cons e d ih =>
    obtain ⟨a, b⟩ := e
    unfold erase at ih ⊢
    by_cases ha : a = k
    · rw [List.filter_cons_of_neg (by simp [ha]), ih, get?_cons]
      split_ifs with hk hak
      · rfl
      · exact absurd (ha.symm.trans hak) hk
      · rfl
    · rw [List.filter_cons_of_pos (by simp [ha]), get?_cons, get?_cons, ih]
      split_ifs with hak hk
      · exact absurd (hak.trans hk.symm) ha
      · rfl
      · rfl
      · rfl

theorem sum_values_set {M : Type*} [AddCommMonoid M] (d : Dict κ ν) (k : κ) (v : ν) (g : ν → M) :
    ((d.set k v).values.map g).sum + (d.get? k).elim 0 g = (d.values.map g).sum + g v := by
  induction d with
  | nil => simp [set, values]
  | cons e d ih =>
    obtain ⟨a, b⟩ := e
    unfold values at ih ⊢
    unfold set
    rw [get?_cons]
    split_ifs with ha
    · simp only [List.map_cons, List.sum_cons, Option.elim_some]
      abel
    · simp only [List.map_cons, List.sum_cons]
      rw [add_assoc, ih, add_assoc]

theorem length_set (d : Dict κ ν) (k : κ) (v : ν) :
    (d.set k v).length = if k ∈ d.keys then d.length else d.length + 1 := by
  have hlength : ∀ e : Dict κ ν, e.length = e.keys.length := fun e => (List.length_map _).symm
  rw [hlength, hlength d]
  split_ifs with h
  · rw [keys_set_of_mem d k v h]
  · rw [keys_set_of_notMem d k v h, List.length_append, List.length_singleton]

def Keyed (f : ν → κ) (d : Dict κ ν) : Prop := ∀ e ∈ d, f e.2 = e.1

theorem mem_set {e : κ × ν} (h : e ∈ d.set k v) : e = (k, v) ∨ e ∈ d := by
  induction d with
  | nil => simpa [set] using h
  | cons a d ih =>
    obtain ⟨a, b⟩ := a
    unfold set at h
    split_ifs at h with ha
    · rcases List.mem_cons.1 h with h | h
      · exact .inl h
      · exact .inr (List.mem_cons_of_mem _ h)
    · rcases List.mem_cons.1 h with h | h
      · exact .inr (h ▸ List.mem_cons_self)
      · exact (ih h).imp_right (List.mem_cons_of_mem _)

theorem mem_values_set {x : ν} (h : x ∈ (d.set k v).values) : x = v ∨ x ∈ d.values := by
  obtain ⟨e, he, rfl⟩ := List.mem_map.1 h
  rcases mem_set he with rfl | he
  · exact .inl rfl
  · exact .inr (List.mem_map_of_mem he)

variable {f : ν → κ}

theorem Keyed.set (h : Keyed f d) (hv : f v = k) : Keyed f (d.set k v) := by
  intro e he
  rcases mem_set he with rfl | he
  · exact hv
  · exact h e he

theorem Keyed.erase (h : Keyed f d) (k : κ) : Keyed f (d.erase k) :=
  fun e he => h e (List.mem_filter.1 he).1

def byKey (f : ν → κ) (xs : List ν) : Dict κ ν := ofList (xs.map fun x => (f x, x))

theorem byKey_of_nodup {xs : List ν} (h : (xs.map f).Nodup) : byKey f xs = xs.map fun x => (f x, x) := by
  apply ofList_of_nodup
  simpa [keys, List.map_map, Function.comp_def] using h

theorem keyed_byKey (f : ν → κ) (xs : List ν) : Keyed f (byKey f xs) := by
  induction xs using List.reverseRecOn with
  | nil => simp [Keyed, byKey, ofList]
  | append_singleton xs x ih =>
    unfold byKey at ih ⊢
    rw [List.map_append, List.map_singleton, ofList_append_singleton]
    exact ih.set rfl

theorem nodup_keys_byKey (f : ν → κ) (xs : List ν) : (byKey f xs).keys.Nodup := nodup_keys_ofList _

end Dict

section LookupBy

variable {α κ : Type*} [DecidableEq κ]

def lookupBy (key : α → κ) (xs : List α) (k : κ) : Option α := xs.find? fun a => key a = k

variable {xs : List α} {key : α → κ} {a : α} {k : κ}

theorem lookupBy_some (h : lookupBy key xs k = some a) : a ∈ xs ∧ key a = k :=
  ⟨List.mem_of_find?_eq_some h, by simpa using List.find?_some h⟩

theorem lookupBy_eq_none_iff : lookupBy key xs k = none ↔ ∀ a ∈ xs, key a ≠ k := by
  simp [lookupBy]

theorem lookupBy_eq_some_iff (h : (xs.map key).Nodup) : lookupBy key xs k = some a ↔ a ∈ xs ∧ key a = k := by
  refine ⟨lookupBy_some, ?_⟩
  rintro ⟨hm, rfl⟩
  cases hl : lookupBy key xs (key a) with
  | none => exact absurd rfl (lookupBy_eq_none_iff.1 hl a hm)
  | some b =>
    obtain ⟨hb, hk⟩ := lookupBy_some hl
    rw [List.inj_on_of_nodup_map h hb hm hk]

variable {ys : List α}

theorem lookupBy_of_perm (hp : xs.Perm ys) (h : (xs.map key).Nodup)
    (k : κ) : lookupBy key xs k = lookupBy key ys k := by
  ext a
  rw [lookupBy_eq_some_iff h, lookupBy_eq_some_iff ((hp.map key).nodup_iff.1 h), hp.mem_iff]

theorem filterMap_concat {α β : Type} (f : α → Option β) (xs : List α) (x : α) :
    (xs ++ [x]).filterMap f = xs.filterMap f ++ (f x).toList := by
  rw [List.filterMap_append]
  cases h : f x <;> simp [h]

theorem perm_cons_filter (h : (xs.map key).Nodup) (ha : a ∈ xs) : xs.Perm (a :: xs.filter fun x => key x ≠ key a) := by
  induction xs with
  | nil => simp at ha
  | cons x xs ih =>
    rw [List.map_cons, List.nodup_cons] at h
    rcases List.mem_cons.1 ha with rfl | ha
    · have hrest : ∀ y ∈ xs, key y ≠ key a := by
        intro y hy heq
        exact h.1 (heq ▸ List.mem_map_of_mem hy)
      rw [List.filter_cons_of_neg (by simp), List.filter_eq_self.2 fun y hy => by simpa using hrest y hy]
    · have hne : key x ≠ key a := by
        intro heq
        exact h.1 (heq ▸ List.mem_map_of_mem ha)
      rw [List.filter_cons_of_pos (by simpa using hne)]
      exact ((ih h.2 ha).cons x).trans (List.Perm.swap _ _ _)

theorem lookupBy_forall₂ {R : α → α → Prop} {key : α → κ} (hkey : ∀ a b, R a b → key b = key a)
    {xs ys : List α} (h : List.Forall₂ R xs ys) (k : κ) : Option.Rel R (lookupBy key xs k) (lookupBy key ys k) := by
  induction h with
  | nil => exact .none
  | @cons a b _ _ hab _ ih =>
    unfold lookupBy
    rw [List.find?_cons, List.find?_cons, hkey a b hab]
    cases decide (key a = k) with
    | true => exact .some hab
    | false => exact ih

theorem map_eq_of_forall₂ {β : Type*} {R : α → α → Prop} {f : α → β} (hf : ∀ a b, R a b → f b = f a)
    (h : List.Forall₂ R xs ys) : ys.map f = xs.map f := by
  induction h with
  | nil => rfl
  | @cons a b _ _ hab _ ih => rw [List.map_cons, List.map_cons, ih, hf a b hab]

theorem Dict.get?_byKey (h : (xs.map key).Nodup) (k : κ) : (Dict.byKey key xs).get? k = lookupBy key xs k := by
  ext a
  rw [Dict.get?_eq_some_iff (Dict.nodup_keys_byKey key xs), lookupBy_eq_some_iff h, Dict.byKey_of_nodup h]
  constructor
  · intro hm
    obtain ⟨b, hb, heq⟩ := List.mem_map.1 hm
    obtain ⟨rfl, rfl⟩ := Prod.mk.inj heq
    exact ⟨hb, rfl⟩
  · rintro ⟨hm, rfl⟩
    exact List.mem_map_of_mem hm

def onlyOne : List α → Option α
  | [a] => some a
  | _ => none

theorem onlyOne_eq_some_iff : onlyOne xs = some a ↔ xs = [a] := by
  match xs with
  | [] => simp [onlyOne]
  | [b] => simp [onlyOne]
  | b :: c :: rest => simp [onlyOne]

theorem onlyOne_filter (h : (xs.map key).Nodup) (k : κ) :
    onlyOne (xs.filter fun a => key a = k) = lookupBy key xs k := by
  induction xs with
  | nil => rfl
  | cons x xs ih =>
    rw [List.map_cons, List.nodup_cons] at h
    unfold lookupBy
    by_cases hx : key x = k
    · have hrest : (xs.filter fun a => key a = k) = [] := by
        rw [List.filter_eq_nil_iff]
        intro a ha hk
        exact h.1 (List.mem_map.2 ⟨a, ha, (of_decide_eq_true hk).trans hx.symm⟩)
      rw [List.filter_cons_of_pos (by simpa using hx), hrest, List.find?_cons_of_pos (by simpa using hx)]
      rfl
    · rw [List.filter_cons_of_neg (by simpa using hx), List.find?_cons_of_neg (by simpa using hx)]
      exact ih h.2

end LookupBy

section SortBy

variable {α κ : Type*} [LinearOrder κ]

def sortBy (key : α → κ) (xs : List α) : List α :=
  xs.insertionSort fun a b => key a ≤ key b

theorem sortBy_perm (key : α → κ) (xs : List α) : (sortBy key xs).Perm xs :=
  List.perm_insertionSort _ xs

@[simp] theorem mem_sortBy (key : α → κ) (xs : List α) (a : α) : a ∈ sortBy key xs ↔ a ∈ xs :=
  (sortBy_perm key xs).mem_iff

theorem sortBy_pairwise_le (key : α → κ) (xs : List α) : (sortBy key xs).Pairwise fun a b => key a ≤ key b := by
  have : Std.Total fun a b : α => key a ≤ key b := ⟨fun a b => le_total _ _⟩
  have : IsTrans α fun a b : α => key a ≤ key b := ⟨fun _ _ _ => le_trans⟩
  exact List.pairwise_insertionSort _ xs

variable {key : α → κ} {xs : List α}

theorem sortBy_eq_self (h : xs.Pairwise fun a b => key a ≤ key b) : sortBy key xs = xs :=
  List.Pairwise.insertionSort_eq h

theorem sortBy_pairwise_lt (key : α → κ) (xs : List α) (h : (xs.map key).Nodup) :
    (sortBy key xs).Pairwise fun a b => key a < key b := by
  have hn : ((sortBy key xs).map key).Nodup := ((sortBy_perm key xs).map key).nodup_iff.2 h
  have hne : (sortBy key xs).Pairwise fun a b => key a ≠ key b := List.pairwise_map.1 hn
  exact ((sortBy_pairwise_le key xs).and hne).imp fun hab => lt_of_le_of_ne hab.1 hab.2

theorem eq_of_perm_of_pairwise_lt {key : α → κ} {xs ys : List α} (hp : xs.Perm ys)
    (hx : xs.Pairwise fun a b => key a < key b) (hy : ys.Pairwise fun a b => key a < key b) : xs = ys := by
  refine @List.Perm.eq_of_pairwise α (fun a b => key a < key b) xs ys ?_ hx hy hp
  intro a b _ _ hab hba
  exact absurd hab hba.not_gt

theorem sortBy_congr_perm {ys : List α} (hp : xs.Perm ys) (h : (xs.map key).Nodup) : sortBy key xs = sortBy key ys := by
  refine eq_of_perm_of_pairwise_lt ?_ (sortBy_pairwise_lt key xs h)
    (sortBy_pairwise_lt key ys ((hp.map key).nodup_iff.1 h))
  exact (sortBy_perm key xs).trans (hp.trans (sortBy_perm key ys).symm)

theorem Dict.sorted_keys {ν : Type*} {d : Dict κ ν} (h : d.keys.Nodup) :
    ((sortBy Prod.fst d).map Prod.fst).Pairwise (· < ·) :=
  List.pairwise_map.2 (sortBy_pairwise_lt Prod.fst d h)

def Dict.valuesBy {ν : Type*} (key : α → κ) (d : Dict α ν) : List ν :=
  (sortBy (fun e => key e.1) d).map Prod.snd

variable {ν : Type*}

theorem Dict.mem_valuesBy {d : Dict α ν} {v : ν} : v ∈ Dict.valuesBy key d ↔ ∃ k, (k, v) ∈ d := by
  simp [Dict.valuesBy]

theorem Dict.valuesBy_perm (key : α → κ) (d : Dict α ν) : (Dict.valuesBy key d).Perm d.values :=
  (sortBy_perm _ d).map Prod.snd

theorem Dict.map_values_of_keyed {f : ν → α} {d : Dict α ν} (h : Dict.Keyed f d) : d.values.map f = d.keys := by
  unfold Dict.values Dict.keys
  rw [List.map_map]
  exact List.map_congr_left fun e he => h e he

theorem Dict.nodup_valuesBy [DecidableEq α] {f : ν → α} {d : Dict α ν}
    (hk : Dict.Keyed f d) (hd : d.keys.Nodup) : ((Dict.valuesBy key d).map f).Nodup := by
  rw [((Dict.valuesBy_perm key d).map f).nodup_iff, Dict.map_values_of_keyed hk]
  exact hd

theorem Dict.lookupBy_valuesBy [DecidableEq α] {f : ν → α} {d : Dict α ν}
    (hk : Dict.Keyed f d) (hd : d.keys.Nodup) (k : α) : lookupBy f (Dict.valuesBy key d) k = d.get? k := by
  ext v
  rw [lookupBy_eq_some_iff (Dict.nodup_valuesBy hk hd), Dict.get?_eq_some_iff hd, Dict.mem_valuesBy]
  constructor
  · rintro ⟨⟨k', hm⟩, rfl⟩
    rwa [hk _ hm]
  · intro hm
    exact ⟨⟨k, hm⟩, hk _ hm⟩

theorem Dict.valuesBy_pairwise_lt {f : ν → α} {d : Dict α ν}
    (hk : Dict.Keyed f d) (hd : d.keys.Nodup) (hinj : Function.Injective key) :
    ((Dict.valuesBy key d).map fun v => key (f v)).Pairwise (· < ·) := by
  have hn : (d.map fun e => key e.1).Nodup := by
    have : (d.map fun e => key e.1) = d.keys.map key := by simp [Dict.keys]
    rw [this]
    exact hd.map hinj
  have hs := sortBy_pairwise_lt (fun e : α × ν => key e.1) d hn
  unfold Dict.valuesBy
  rw [List.map_map, List.pairwise_map]
  refine hs.imp_of_mem fun {a b} ha hb hab => ?_
  rw [mem_sortBy] at ha hb
  simpa only [Function.comp_def, hk a ha, hk b hb] using hab

theorem Dict.valuesBy_set_pairwise_lt (f : α → κ) (xs : List α) (v : α) :
    ((Dict.valuesBy id ((Dict.byKey f xs).set (f v) v)).map f).Pairwise (· < ·) := by
  have hkeyed : Dict.Keyed f ((Dict.byKey f xs).set (f v) v) := (Dict.keyed_byKey f xs).set rfl
  exact Dict.valuesBy_pairwise_lt hkeyed (Dict.nodup_keys_set _ _ _ (Dict.nodup_keys_byKey f xs))
    Function.injective_id

/-- Put an element in the place of the one with its key, or add it. -/
def replaceBy (key : α → κ) (xs : List α) (a : α) : List α :=
  sortBy key (if xs.any (fun x => key x = key a) then xs.map fun x => if key x = key a then a else x
    else xs.map (fun x => if key x = key a then a else x) ++ [a])

theorem mem_replaceBy {a x : α} : x ∈ replaceBy key xs a ↔ x = a ∨ (x ∈ xs ∧ key x ≠ key a) := by
  have hmap : x ∈ (xs.map fun x => if key x = key a then a else x) ↔
      (x = a ∧ ∃ y ∈ xs, key y = key a) ∨ (x ∈ xs ∧ key x ≠ key a) := by
    rw [List.mem_map]
    constructor
    · rintro ⟨y, hy, rfl⟩
      split_ifs with h
      · exact .inl ⟨rfl, y, hy, h⟩
      · exact .inr ⟨hy, h⟩
    · rintro (⟨rfl, y, hy, h⟩ | ⟨hx, h⟩)
      · exact ⟨y, hy, if_pos h⟩
      · exact ⟨x, hx, if_neg h⟩
  unfold replaceBy
  rw [mem_sortBy]
  split_ifs with hany
  · rw [hmap]
    simp only [List.any_eq_true, decide_eq_true_eq] at hany
    simp [hany]
  · rw [List.mem_append, hmap, List.mem_singleton]
    simp only [List.any_eq_true, decide_eq_true_eq, not_exists, not_and] at hany
    constructor
    · rintro ((⟨h, -⟩ | h) | h)
      · exact .inl h
      · exact .inr h
      · exact .inl h
    · rintro (h | h)
      · exact .inr h
      · exact .inl (.inr h)

variable (h : (xs.map key).Nodup) (a : α)
include h a

theorem replaceBy_perm : (replaceBy key xs a).Perm (a :: xs.filter fun x => key x ≠ key a) := by
  refine (sortBy_perm key _).trans ?_
  split_ifs with hany
  · simp only [List.any_eq_true, decide_eq_true_eq] at hany
    induction xs with
    | nil => simp at hany
    | cons y ys ih =>
      rw [List.map_cons, List.nodup_cons] at h
      by_cases hy : key y = key a
      · have hrest : ∀ x ∈ ys, key x ≠ key a := by
          intro x hx hxa
          exact h.1 (hy ▸ hxa ▸ List.mem_map_of_mem hx)
        have hmap : (ys.map fun x => if key x = key a then a else x) = ys :=
          (List.map_congr_left fun x hx => if_neg (hrest x hx)).trans (List.map_id ys)
        have hfil : (ys.filter fun x => key x ≠ key a) = ys :=
          List.filter_eq_self.2 fun x hx => by simpa using hrest x hx
        rw [List.map_cons, if_pos hy, hmap, List.filter_cons_of_neg (by simpa using hy), hfil]
      · obtain ⟨z, hz, hza⟩ := hany
        have hz' : z ∈ ys := by
          rcases List.mem_cons.1 hz with rfl | hz
          · exact absurd hza hy
          · exact hz
        rw [List.map_cons, if_neg hy, List.filter_cons_of_pos (by simpa using hy)]
        exact ((ih h.2 ⟨z, hz', hza⟩).cons y).trans (List.Perm.swap _ _ _)
  · simp only [List.any_eq_true, decide_eq_true_eq, not_exists, not_and] at hany
    have hmap : (xs.map fun x => if key x = key a then a else x) = xs :=
      (List.map_congr_left fun x hx => if_neg (hany x hx)).trans (List.map_id xs)
    have hfil : (xs.filter fun x => key x ≠ key a) = xs :=
      List.filter_eq_self.2 fun x hx => by simpa using hany x hx
    rw [hmap, hfil]
    exact List.perm_append_singleton a xs

theorem nodup_replaceBy : ((replaceBy key xs a).map key).Nodup := by
  rw [((replaceBy_perm h a).map key).nodup_iff, List.map_cons, List.nodup_cons]
  refine ⟨?_, ((List.filter_sublist).map key).nodup h⟩
  intro hm
  obtain ⟨x, hx, hk⟩ := List.mem_map.1 hm
  have := (List.mem_filter.1 hx).2
  simp [hk] at this

theorem replaceBy_pairwise_lt : ((replaceBy key xs a).map key).Pairwise (· < ·) := by
  have hn := nodup_replaceBy h a
  have hle : ((replaceBy key xs a).map key).Pairwise (· ≤ ·) :=
    List.pairwise_map.2 (sortBy_pairwise_le key _)
  exact (hle.and hn).imp fun hab => lt_of_le_of_ne hab.1 hab.2

theorem lookupBy_replaceBy (k : κ) :
    lookupBy key (replaceBy key xs a) k = if key a = k then some a else lookupBy key xs k := by
  ext x
  rw [lookupBy_eq_some_iff (nodup_replaceBy h a), mem_replaceBy]
  split_ifs with hk
  · subst hk
    constructor
    · rintro ⟨rfl | ⟨-, hne⟩, hx⟩
      · rfl
      · exact absurd hx hne
    · intro hx
      obtain rfl := Option.some.inj hx
      exact ⟨.inl rfl, rfl⟩
  · rw [lookupBy_eq_some_iff h]
    constructor
    · rintro ⟨rfl | ⟨hx, -⟩, hxk⟩
      · exact absurd hxk hk
      · exact ⟨hx, hxk⟩
    · rintro ⟨hx, rfl⟩
      exact ⟨.inr ⟨hx, fun he => hk he.symm⟩, rfl⟩

omit h a

theorem sum_replaceBy {M : Type*} [AddCommGroup M] (h : (xs.map key).Nodup) (a : α) (g : α → M) :
    ((replaceBy key xs a).map g).sum = (xs.map g).sum + (g a - (lookupBy key xs (key a)).elim 0 g) := by
  rw [((replaceBy_perm h a).map g).sum_eq, List.map_cons, List.sum_cons]
  induction xs with
  | nil => simp [lookupBy]
  | cons y ys ih =>
    rw [List.map_cons, List.nodup_cons] at h
    by_cases hy : key y = key a
    · have hrest : ∀ x ∈ ys, key x ≠ key a := by
        intro x hx hxa
        exact h.1 (hy ▸ hxa ▸ List.mem_map_of_mem hx)
      have hfil : (ys.filter fun x => key x ≠ key a) = ys :=
        List.filter_eq_self.2 fun x hx => by simpa using hrest x hx
      rw [List.filter_cons_of_neg (by simpa using hy), hfil]
      simp only [lookupBy, List.find?_cons, hy, decide_true, Option.elim, List.map_cons, List.sum_cons]
      abel
    · rw [List.filter_cons_of_pos (by simpa using hy), List.map_cons, List.map_cons, List.sum_cons,
        List.sum_cons]
      have hl : lookupBy key (y :: ys) (key a) = lookupBy key ys (key a) := by
        simp [lookupBy, hy]
      rw [hl, add_left_comm, ih h.2, add_assoc]

end SortBy

variable {α κ M : Type*} [AddCommMonoid M] {xs ys : List α} {u : α → M}

theorem sum_eq_of_perm_map {f : α → κ} (h : (xs.map f).Perm (ys.map f))
    (hu : ∀ x ∈ xs, ∀ y ∈ ys, f x = f y → u x = u y) : (xs.map u).sum = (ys.map u).sum := by
  induction xs generalizing ys with
  | nil =>
    rw [List.map_nil, List.nil_perm, List.map_eq_nil_iff] at h
    rw [h]
  | cons x xs ih =>
    obtain ⟨y, hy, hxy⟩ := List.mem_map.1 (h.mem_iff.1 (List.mem_map_of_mem List.mem_cons_self))
    obtain ⟨l, r, rfl⟩ := List.append_of_mem hy
    have hmiddle : (l ++ y :: r).Perm (y :: (l ++ r)) := List.perm_middle
    have hrest : (xs.map f).Perm ((l ++ r).map f) := by
      have := h.trans (hmiddle.map f)
      rw [List.map_cons, List.map_cons, hxy] at this
      exact (List.perm_cons _).1 this
    rw [(hmiddle.map u).sum_eq, List.map_cons, List.map_cons, List.sum_cons, List.sum_cons,
      hu x List.mem_cons_self y hy hxy.symm,
      ih hrest fun x' hx' y' hy' => hu x' (List.mem_cons_of_mem _ hx') y' ?_]
    exact hmiddle.mem_iff.2 (List.mem_cons_of_mem _ hy')

variable [DecidableEq κ]

theorem sum_fibers {key : α → κ} {keys : Finset κ} (h : ∀ x ∈ xs, key x ∈ keys) :
    (xs.map u).sum = ∑ k ∈ keys, (xs.map fun x => if key x = k then u x else 0).sum := by
  induction xs with
  | nil => simp
  | cons x xs ih =>
    simp only [List.map_cons, List.sum_cons, Finset.sum_add_distrib]
    rw [ih fun y hy => h y (List.mem_cons_of_mem _ hy), Finset.sum_ite_eq, if_pos (h x List.mem_cons_self)]

theorem sum_eq_of_fibers (key : α → κ)
    (h : ∀ k, (xs.map fun x => if key x = k then u x else 0).sum =
      (ys.map fun y => if key y = k then u y else 0).sum) : (xs.map u).sum = (ys.map u).sum := by
  have hx : ∀ x ∈ xs, key x ∈ ((xs ++ ys).map key).toFinset := by
    intro x hx
    rw [List.mem_toFinset]
    exact List.mem_map_of_mem (List.mem_append_left _ hx)
  have hy : ∀ y ∈ ys, key y ∈ ((xs ++ ys).map key).toFinset := by
    intro y hy
    rw [List.mem_toFinset]
    exact List.mem_map_of_mem (List.mem_append_right _ hy)
  rw [sum_fibers hx, sum_fibers hy]
  exact Finset.sum_congr rfl fun k _ => h k
