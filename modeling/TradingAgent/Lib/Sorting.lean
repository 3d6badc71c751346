import Mathlib.Data.Prod.Lex
import TradingAgent.Lib.Dict

/-! Lists that are sorted by a key. -/

variable {α κ : Type*} [LinearOrder κ] {key : α → κ} {xs : List α}

theorem sortBy_filter (h : (xs.map key).Nodup) (p : α → Bool) :
    (sortBy key xs).filter p = sortBy key (xs.filter p) := by
  have hpart : ((xs.filter p).map key).Nodup := (List.filter_sublist.map key).nodup h
  refine eq_of_perm_of_pairwise_lt ?_ ((sortBy_pairwise_lt key xs h).filter p) (sortBy_pairwise_lt key _ hpart)
  exact ((sortBy_perm key xs).filter p).trans (sortBy_perm key _).symm

theorem sortBy_split (h : (xs.map key).Nodup) (p : α → Bool)
    (hlt : ∀ a ∈ xs, p a = true → ∀ b ∈ xs, p b = false → key a < key b) :
    sortBy key xs = sortBy key (xs.filter p) ++ sortBy key (xs.filter fun a => !p a) := by
  have hpart : ∀ q : α → Bool, ((xs.filter q).map key).Nodup := fun q => (List.filter_sublist.map key).nodup h
  refine eq_of_perm_of_pairwise_lt ?_ (sortBy_pairwise_lt key xs h) ?_
  · refine (sortBy_perm key xs).trans ((List.filter_append_perm p xs).symm.trans ?_)
    exact (sortBy_perm key _).symm.append (sortBy_perm key _).symm
  · refine List.pairwise_append.2 ⟨sortBy_pairwise_lt key _ (hpart p), sortBy_pairwise_lt key _ (hpart _), ?_⟩
    intro a ha b hb
    rw [mem_sortBy, List.mem_filter] at ha hb
    exact hlt a ha.1 ha.2 b hb.1 (by simpa using hb.2)

theorem sortBy_zipIdx (key : α → κ) {rank : α → ℕ} (h : xs.Pairwise fun a b => rank a < rank b) :
    (sortBy (fun item : α × ℕ => toLex (key item.1, item.2)) xs.zipIdx).map Prod.fst =
      sortBy (fun a => toLex (key a, rank a)) xs := by
  have hkeys : (xs.map fun a => toLex (key a, rank a)).Nodup := by
    refine List.Nodup.of_map (fun k => (ofLex k).2) ?_
    rw [List.map_map]
    exact (List.pairwise_map.2 h).imp ne_of_lt
  have hpositions : (xs.zipIdx.map fun item : α × ℕ => toLex (key item.1, item.2)).Nodup := by
    refine List.Nodup.of_map (fun k => (ofLex k).2) ?_
    rw [List.map_map]
    show (xs.zipIdx.map Prod.snd).Nodup
    rw [List.zipIdx_map_snd]
    exact List.nodup_range'
  refine eq_of_perm_of_pairwise_lt ?_ ?_ (sortBy_pairwise_lt _ xs hkeys)
  · refine ((sortBy_perm _ xs.zipIdx).map Prod.fst).trans ?_
    rw [List.zipIdx_map_fst]
    exact (sortBy_perm _ xs).symm
  · refine List.pairwise_map.2 ((sortBy_pairwise_lt _ _ hpositions).imp_of_mem ?_)
    rintro ⟨a, i⟩ ⟨b, j⟩ ha hb hlt
    rw [mem_sortBy, List.mem_zipIdx_iff_getElem?] at ha hb
    rcases Prod.Lex.toLex_lt_toLex.1 hlt with hkey | ⟨hkey, hij⟩
    · exact Prod.Lex.toLex_lt_toLex.2 (.inl hkey)
    · obtain ⟨hi, hai⟩ := List.getElem?_eq_some_iff.1 ha
      obtain ⟨hj, hbj⟩ := List.getElem?_eq_some_iff.1 hb
      have hrank := List.pairwise_iff_getElem.1 h i j hi hj hij
      rw [hai, hbj] at hrank
      exact Prod.Lex.toLex_lt_toLex.2 (.inr ⟨hkey, hrank⟩)

theorem sortBy_map {β : Type*} (f : β → α) (ys : List β) :
    sortBy key (ys.map f) = (sortBy (fun b => key (f b)) ys).map f := by
  unfold sortBy
  exact (List.map_insertionSort (fun b b' : β => key (f b) ≤ key (f b')) (fun a a' => key a ≤ key a') f ys
    fun _ _ _ _ => Iff.rfl).symm
