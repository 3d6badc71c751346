import TradingAgent.EventLedger.Snapshots

/-! A replay from a snapshot goes on with the course that the snapshot was made from. -/

namespace TradingAgent.EventLedger

open Outcome

namespace Books

variable {b b' : Books}

theorem Same.symm (h : Same b b') : Same b' b :=
  ⟨h.eventCount.symm, fun t => (h.typeCounts t).symm, fun s => (h.heads s).symm, fun i => (h.applied i).symm⟩

theorem Same.trans {b'' : Books} (h : Same b b') (h' : Same b' b'') : Same b b'' :=
  ⟨h.eventCount.trans h'.eventCount, fun t => (h.typeCounts t).trans (h'.typeCounts t),
    fun s => (h.heads s).trans (h'.heads s), fun i => (h.applied i).trans (h'.applied i)⟩

theorem Same.wanted (h : Same b b') (s : Uuid) : b.wanted s = b'.wanted s := by
  unfold Books.wanted
  rw [h.heads]

end Books

namespace Course

structure Same (c c' : Course) : Prop where
  books : Books.Same c.books c'.books
  issues : ∀ i, c.issues.get? i = c'.issues.get? i

variable {c c' : Course}

theorem Same.offer (h : Same c c') (r : StoredEvent) : Same (c.offer r) (c'.offer r) := by
  unfold Course.offer
  rw [h.books.wanted]
  split_ifs
  · refine ⟨h.books.push r, fun i => ?_⟩
    rw [Dict.get?_erase, Dict.get?_erase, h.issues]
  · refine ⟨h.books, fun i => ?_⟩
    rw [Dict.get?_set, Dict.get?_set, h.issues]

theorem Same.inOrder (h : Same c c') (records : List StoredEvent) : c.InOrder records ↔ c'.InOrder records := by
  induction records generalizing c c' with
  | nil => exact Iff.rfl
  | cons r rs ih =>
    unfold InOrder
    rw [h.books.wanted, ih (h.offer r)]

theorem Same.result_eq (h : Same c c') (hc : c.Sound) (hc' : c'.Sound) (codec : ReplayCodec) :
    c.result codec = c'.result codec := by
  have hvalues : c.issues.values.Perm c'.issues.values :=
    (Dict.perm_of_get? hc.issueNodup hc'.issueNodup h.issues).map Prod.snd
  have hnodup : (c.issues.values.map issueOrder).Nodup := by
    refine List.Nodup.of_map (fun k : Uuid ×ₗ ℕ ×ₗ Uuid => (ofLex (ofLex k).2).2) ?_
    have hids : (c.issues.values.map issueOrder).map
        (fun k : Uuid ×ₗ ℕ ×ₗ Uuid => (ofLex (ofLex k).2).2) = c.issues.keys := by
      rw [List.map_map]
      exact Dict.map_values_of_keyed hc.issueKeyed
    rw [hids]
    exact hc.issueNodup
  unfold result assembleResult
  rw [h.books.state_eq hc.tidy hc'.tidy, sortBy_congr_perm hvalues hnodup]

variable {κ ν : Type}

theorem get?_ofList_sorted {β : Type} [LinearOrder κ] {d : Dict κ ν} (h : d.keys.Nodup) (f : κ × ν → β)
    (g : β → κ × ν) (hg : ∀ e, g (f e) = e) (k : κ) :
    (Dict.ofList (((sortBy Prod.fst d).map f).map g)).get? k = d.get? k := by
  have hid : ((sortBy Prod.fst d).map f).map g = sortBy Prod.fst d := by
    rw [List.map_map]
    exact (List.map_congr_left fun e _ => hg e).trans (List.map_id _)
  have hperm := sortBy_perm Prod.fst d
  have hnodup : (Dict.keys (sortBy Prod.fst d)).Nodup := ((hperm.map Prod.fst).nodup_iff).2 h
  rw [hid, Dict.ofList_of_nodup hnodup]
  exact Dict.get?_eq_of_perm hperm hnodup k

theorem get?_byKey_sorted {μ : Type} [DecidableEq κ] [LinearOrder μ] {f : ν → κ} {d : Dict κ ν}
    (h : d.keys.Nodup) (hkeyed : d.Keyed f) (key : ν → μ) (k : κ) :
    (Dict.byKey f (sortBy key d.values)).get? k = d.get? k := by
  have hperm := sortBy_perm key d.values
  have hnodup : (d.values.map f).Nodup := by
    rw [Dict.map_values_of_keyed hkeyed]
    exact h
  have hsorted : ((sortBy key d.values).map f).Nodup := ((hperm.map f).nodup_iff).2 hnodup
  rw [Dict.get?_byKey hsorted, lookupBy_of_perm hperm hsorted]
  ext v
  rw [lookupBy_eq_some_iff hnodup, Dict.get?_eq_some_iff h, Dict.values, List.mem_map]
  constructor
  · rintro ⟨⟨e, he, rfl⟩, hk⟩
    rwa [← hk, hkeyed e he]
  · intro hmem
    exact ⟨⟨_, hmem, rfl⟩, hkeyed _ hmem⟩

variable (h : c.Sound) (codec : ReplayCodec)
include h codec

theorem same_opening_result : Same (opening (some (c.result codec))) c := by
  refine ⟨⟨rfl, fun t => ?_, fun s => ?_, fun i => ?_⟩, fun i => ?_⟩
  · exact get?_ofList_sorted h.tidy.typeCounts (fun e => (⟨e.1, e.2⟩ : EventTypeCount))
      (fun t => (t.eventType, t.count)) (fun _ => rfl) t
  · exact get?_byKey_sorted h.tidy.heads h.tidy.keyed _ s
  · exact get?_ofList_sorted h.tidy.applied (fun e => (⟨e.1, e.2⟩ : AppliedEvent))
      (fun a => (a.eventId, a.digest)) (fun _ => rfl) i
  · exact get?_byKey_sorted h.issueNodup h.issueKeyed _ i

theorem get?_applied_result (i : Uuid) :
    (initialMaps (some (c.result codec))).applied.get? i = c.books.applied.get? i :=
  (same_opening_result h codec).books.applied i

theorem get?_unresolved_result (i : Uuid) : (initialMaps (some (c.result codec))).unresolved.get? i = c.issues.get? i :=
  (same_opening_result h codec).issues i

omit h codec

theorem wanted_push (b : Books) (r : StoredEvent) (s : Uuid) :
    (b.push r).wanted s = if r.streamId = s then r.sequence + 1 else b.wanted s := by
  unfold Books.wanted
  show ((b.heads.set r.streamId _).get? s).elim 1 _ = _
  rw [Dict.get?_set]
  split_ifs <;> rfl

theorem ofStream_cons (s : Uuid) (r : StoredEvent) (rs : List StoredEvent) :
    Books.ofStream s (r :: rs) = if r.streamId = s then r :: Books.ofStream s rs
      else Books.ofStream s rs := by
  unfold Books.ofStream
  rw [List.filter_cons]
  simp only [decide_eq_true_eq]

variable {records : List StoredEvent}

theorem inOrder_iff : c.InOrder records ↔ ∀ s, (Books.ofStream s records).map StoredEvent.sequence =
      List.range' (c.books.wanted s) (Books.ofStream s records).length := by
  induction records generalizing c with
  | nil => exact iff_of_true trivial fun s => rfl
  | cons r rs ih =>
    unfold InOrder
    constructor
    · rintro ⟨hseq, hrest⟩ s
      have hs := ih.1 hrest s
      unfold Course.offer at hs
      rw [if_pos hseq] at hs
      rw [wanted_push] at hs
      rw [ofStream_cons]
      split_ifs at hs ⊢ with hstream
      · rw [List.map_cons, List.length_cons, List.range'_succ, hs, ← hstream, ← hseq]
      · exact hs
    · intro hall
      have hr := hall r.streamId
      rw [ofStream_cons, if_pos rfl, List.map_cons, List.length_cons, List.range'_succ] at hr
      obtain ⟨hseq, -⟩ := List.cons.inj hr
      refine ⟨hseq, ih.2 fun s => ?_⟩
      unfold Course.offer
      rw [if_pos hseq]
      show _ = List.range' ((c.books.push r).wanted s) _
      rw [wanted_push]
      have hs := hall s
      rw [ofStream_cons] at hs
      split_ifs at hs ⊢ with hstream
      · rw [List.map_cons, List.length_cons, List.range'_succ, ← hstream] at hs
        rw [hseq]
        subst hstream
        exact (List.cons.inj hs).2
      · exact hs

theorem InOrder.books (h : c.InOrder records) : (c.offerAll records).books = c.books.post records := by
  induction records generalizing c with
  | nil => rfl
  | cons r rs ih =>
    have hrest := ih h.2
    have hoffer : c.offer r = ⟨c.books.push r, c.issues.erase r.eventId⟩ := if_pos h.1
    show ((c.offer r).offerAll rs).books = _
    rw [hrest, hoffer]
    rfl

theorem InOrder.issues (h : c.InOrder records)
    (hnone : ∀ i, c.issues.get? i = none) (i : Uuid) : (c.offerAll records).issues.get? i = none := by
  induction records generalizing c with
  | nil => exact hnone i
  | cons r rs ih =>
    have hoffer : c.offer r = ⟨c.books.push r, c.issues.erase r.eventId⟩ := if_pos h.1
    refine ih h.2 fun j => ?_
    rw [hoffer, Dict.get?_erase, hnone, ite_self]

end Course

end TradingAgent.EventLedger
