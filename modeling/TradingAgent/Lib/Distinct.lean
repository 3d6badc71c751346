import Mathlib.Data.List.Induction
import Mathlib.Data.List.Dedup
import Mathlib.Data.List.Perm.Subperm

/-!
# First occurrences

`firstsBy key xs` keeps the first element of each key. When the key decides the element, the result
depends on the elements of the list only, up to order.
-/

variable {α κ : Type*}

def KeyDecides (key : α → κ) (xs : List α) : Prop := ∀ a ∈ xs, ∀ b ∈ xs, key a = key b → a = b

variable {key : α → κ} {xs ys : List α}

theorem KeyDecides.subset (h : KeyDecides key ys) (hsub : ∀ a ∈ xs, a ∈ ys) : KeyDecides key xs :=
  fun a ha b hb => h a (hsub a ha) b (hsub b hb)

theorem eq_of_nodup_filterMap {f : α → Option κ} (h : (xs.filterMap f).Nodup) {a b : α} {k : κ}
    (ha : a ∈ xs) (hb : b ∈ xs) (hfa : f a = some k) (hfb : f b = some k) : a = b := by
  induction xs with
  | nil => cases ha
  | cons x xs ih =>
    have htail : (xs.filterMap f).Nodup := ((List.sublist_cons_self x xs).filterMap f).nodup h
    -- a key of the head is not a key of the tail
    have hhead : ∀ c ∈ xs, f x = some k → f c ≠ some k := by
      intro c hc hx hfc
      rw [List.filterMap_cons_some hx] at h
      exact (List.nodup_cons.1 h).1 (List.mem_filterMap.2 ⟨c, hc, hfc⟩)
    rcases List.mem_cons.1 ha with rfl | hxa <;> rcases List.mem_cons.1 hb with rfl | hxb
    · rfl
    · exact absurd hfb (hhead b hxb hfa)
    · exact absurd hfa (hhead a hxa hfb)
    · exact ih htail hxa hxb

variable [DecidableEq κ]

def firstsBy (key : α → κ) (xs : List α) : List α :=
  xs.foldl (fun acc a => if key a ∈ acc.map key then acc else acc ++ [a]) []

@[simp] theorem firstsBy_nil : firstsBy key [] = [] := rfl

theorem mem_keys_firstsBy (k : κ) : k ∈ (firstsBy key xs).map key ↔ k ∈ xs.map key := by
  induction xs using List.reverseRecOn with
  | nil => simp
  | append_singleton xs a ih =>
    unfold firstsBy at ih ⊢
    rw [List.foldl_append, List.foldl_cons, List.foldl_nil, List.map_append, List.mem_append, ← ih]
    split_ifs with h
    · constructor
      · exact .inl
      · rintro (hk | hk)
        · exact hk
        · obtain rfl := List.mem_singleton.1 hk
          exact h
    · rw [List.map_append, List.mem_append]

theorem firstsBy_concat (xs : List α) (a : α) : firstsBy key (xs ++ [a]) =
    if key a ∈ xs.map key then firstsBy key xs else firstsBy key xs ++ [a] := by
  have h : firstsBy key (xs ++ [a]) =
      if key a ∈ (firstsBy key xs).map key then firstsBy key xs else firstsBy key xs ++ [a] := by
    unfold firstsBy
    rw [List.foldl_append, List.foldl_cons, List.foldl_nil]
  rw [h]
  simp only [mem_keys_firstsBy]

theorem firstsBy_sublist (xs : List α) : (firstsBy key xs).Sublist xs := by
  induction xs using List.reverseRecOn with
  | nil => exact .slnil
  | append_singleton xs a ih =>
    rw [firstsBy_concat]
    split_ifs with h
    · exact ih.trans (List.sublist_append_left _ _)
    · exact ih.append (.refl _)

theorem nodup_firstsBy (xs : List α) : ((firstsBy key xs).map key).Nodup := by
  induction xs using List.reverseRecOn with
  | nil => exact List.nodup_nil
  | append_singleton xs a ih =>
    rw [firstsBy_concat]
    split_ifs with h
    · exact ih
    · rw [List.map_append, List.map_singleton]
      refine List.nodup_append.2 ⟨ih, List.nodup_singleton _, fun k hk k' hk' heq => h ?_⟩
      rw [← mem_keys_firstsBy, ← List.mem_singleton.1 hk', ← heq]
      exact hk

theorem firstsBy_of_nodup (h : (xs.map key).Nodup) : firstsBy key xs = xs := by
  induction xs using List.reverseRecOn with
  | nil => rfl
  | append_singleton xs a ih =>
    rw [List.map_append, List.nodup_append] at h
    rw [firstsBy_concat, ih h.1, if_neg]
    exact fun hm => h.2.2 _ hm _ (by simp) rfl

theorem mem_firstsBy (h : KeyDecides key xs) (a : α) : a ∈ firstsBy key xs ↔ a ∈ xs := by
  refine ⟨fun ha => (firstsBy_sublist xs).subset ha, fun ha => ?_⟩
  obtain ⟨b, hb, hkey⟩ := List.mem_map.1 ((mem_keys_firstsBy (key a)).2 (List.mem_map_of_mem ha))
  rwa [h a ha b ((firstsBy_sublist xs).subset hb) hkey.symm]

theorem firstsBy_perm (h : KeyDecides key xs) (hmem : ∀ a, a ∈ xs ↔ a ∈ ys) :
    (firstsBy key xs).Perm (firstsBy key ys) := by
  have hys : KeyDecides key ys := h.subset fun a => (hmem a).2
  rw [List.perm_ext_iff_of_nodup (nodup_firstsBy xs).of_map (nodup_firstsBy ys).of_map]
  intro a
  rw [mem_firstsBy h, mem_firstsBy hys, hmem]
