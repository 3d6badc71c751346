import TradingAgent.EventLedger.Reducer

/-! The books of a course: what the assembled state says of the admitted records. -/

namespace TradingAgent.EventLedger

open Outcome

/-- What a replay keeps of the events applied so far. -/
structure Books where
  eventCount : ℕ
  typeCounts : Dict String ℕ
  heads : Dict Uuid StreamProjection
  applied : Dict Uuid Sha256

namespace Books

def opening (initial : Option SnapshotRecord) : Books where
  eventCount := (initialMaps initial).startingCount
  typeCounts := (initialMaps initial).typeCounts
  heads := Dict.byKey StreamProjection.streamId (initial.elim [] fun s => s.state.streams)
  applied := (initialMaps initial).applied

def countOf (b : Books) (streamId : Uuid) : ℕ := (b.heads.get? streamId).elim 0 StreamProjection.eventCount

def wanted (b : Books) (streamId : Uuid) : ℕ :=
  (b.heads.get? streamId).elim 1 fun p => p.lastSequence + 1

def push (b : Books) (r : StoredEvent) : Books where
  eventCount := b.eventCount + 1
  typeCounts := b.typeCounts.set r.eventType ((b.typeCounts.get? r.eventType).getD 0 + 1)
  heads := b.heads.set r.streamId ⟨r.streamId, b.countOf r.streamId + 1, r.sequence, some r.digest⟩
  applied := b.applied.set r.eventId r.digest

def post (b : Books) (records : List StoredEvent) : Books := records.foldl push b

def state (b : Books) : AggregateReplayState where
  eventCount := b.eventCount
  typeCounts := (sortBy Prod.fst b.typeCounts).map fun e => ⟨e.1, e.2⟩
  streams := sortBy StreamProjection.streamId b.heads.values
  appliedEvents := (sortBy Prod.fst b.applied).map fun e => ⟨e.1, e.2⟩

def ofStream (s : Uuid) (records : List StoredEvent) : List StoredEvent :=
  records.filter fun r => r.streamId = s

variable {b : Books} {records : List StoredEvent}

@[simp] theorem post_nil : b.post [] = b := rfl

theorem post_append (b : Books) (xs ys : List StoredEvent) : b.post (xs ++ ys) = (b.post xs).post ys :=
  List.foldl_append

theorem post_concat (b : Books) (xs : List StoredEvent) (r : StoredEvent) :
    b.post (xs ++ [r]) = (b.post xs).push r := by
  rw [post_append]
  rfl

theorem ofStream_concat (s : Uuid) (xs : List StoredEvent) (r : StoredEvent) :
    ofStream s (xs ++ [r]) = if r.streamId = s then ofStream s xs ++ [r] else ofStream s xs := by
  unfold ofStream
  rw [List.filter_append]
  split_ifs with h
  · rw [List.filter_cons_of_pos (by simpa using h), List.filter_nil]
  · rw [List.filter_cons_of_neg (by simpa using h), List.filter_nil, List.append_nil]

theorem post_eventCount (b : Books) (records : List StoredEvent) :
    (b.post records).eventCount = b.eventCount + records.length := by
  induction records using List.reverseRecOn with
  | nil => rfl
  | append_singleton xs r ih =>
    rw [post_concat, List.length_append]
    show (b.post xs).eventCount + 1 = _
    rw [ih, List.length_singleton]
    omega

theorem post_typeCounts (b : Books) (records : List StoredEvent) :
    (b.post records).typeCounts = countTypes b.typeCounts records := by
  induction records using List.reverseRecOn with
  | nil => rfl
  | append_singleton xs r ih =>
    unfold countTypes at ih ⊢
    rw [post_concat, List.foldl_append, List.foldl_cons, List.foldl_nil, ← ih]
    rfl

theorem post_applied (b : Books) (records : List StoredEvent) :
    (b.post records).applied = applyDigests b.applied records := by
  induction records using List.reverseRecOn with
  | nil => rfl
  | append_singleton xs r ih =>
    unfold applyDigests at ih ⊢
    rw [post_concat, List.foldl_append, List.foldl_cons, List.foldl_nil, ← ih]
    rfl

theorem get?_heads_post (b : Books) (records : List StoredEvent) (s : Uuid) :
    (b.post records).heads.get? s = match (ofStream s records).getLast? with
      | none => b.heads.get? s
      | some last =>
        some ⟨s, b.countOf s + (ofStream s records).length, last.sequence, some last.digest⟩ := by
  induction records using List.reverseRecOn with
  | nil => rfl
  | append_singleton xs r ih =>
    rw [post_concat, ofStream_concat]
    show ((b.post xs).heads.set r.streamId _).get? s = _
    rw [Dict.get?_set]
    split_ifs with h
    · subst h
      have hcount : (b.post xs).countOf r.streamId = b.countOf r.streamId + (ofStream r.streamId xs).length := by
        unfold countOf
        rw [ih]
        cases hlast : (ofStream r.streamId xs).getLast? with
        | none =>
          rw [List.getLast?_eq_none_iff] at hlast
          rw [hlast]
          rfl
        | some last => rfl
      rw [List.getLast?_concat, hcount, List.length_append, List.length_singleton]
      rfl
    · exact ih

theorem countOf_post (b : Books) (records : List StoredEvent) (s : Uuid) :
    (b.post records).countOf s = b.countOf s + (ofStream s records).length := by
  conv_lhs => unfold countOf
  rw [get?_heads_post]
  cases hlast : (ofStream s records).getLast? with
  | none =>
    rw [List.getLast?_eq_none_iff] at hlast
    rw [hlast]
    rfl
  | some last => rfl

structure Tidy (b : Books) : Prop where
  typeCounts : b.typeCounts.keys.Nodup
  heads : b.heads.keys.Nodup
  keyed : b.heads.Keyed StreamProjection.streamId
  applied : b.applied.keys.Nodup

theorem tidy_opening (initial : Option SnapshotRecord) : (opening initial).Tidy := by
  cases initial with
  | none => exact ⟨List.nodup_nil, List.nodup_nil, fun e he => absurd he List.not_mem_nil, List.nodup_nil⟩
  | some s =>
    exact ⟨Dict.nodup_keys_ofList _, Dict.nodup_keys_byKey _ _, Dict.keyed_byKey _ _, Dict.nodup_keys_ofList _⟩

theorem Tidy.push (h : b.Tidy) (r : StoredEvent) : (b.push r).Tidy :=
  ⟨Dict.nodup_keys_set _ _ _ h.typeCounts, Dict.nodup_keys_set _ _ _ h.heads, h.keyed.set rfl,
    Dict.nodup_keys_set _ _ _ h.applied⟩

theorem Tidy.post (h : b.Tidy) (records : List StoredEvent) : (b.post records).Tidy := by
  induction records using List.reverseRecOn with
  | nil => exact h
  | append_singleton xs r ih =>
    rw [post_concat]
    exact ih.push r

theorem Tidy.nodup_heads (h : b.Tidy) : (b.heads.values.map StreamProjection.streamId).Nodup := by
  rw [Dict.map_values_of_keyed h.keyed]
  exact h.heads

structure Same (b b' : Books) : Prop where
  eventCount : b.eventCount = b'.eventCount
  typeCounts : ∀ t, b.typeCounts.get? t = b'.typeCounts.get? t
  heads : ∀ s, b.heads.get? s = b'.heads.get? s
  applied : ∀ i, b.applied.get? i = b'.applied.get? i

variable {b' : Books}

theorem Same.state_eq (h : Same b b') (hb : b.Tidy) (hb' : b'.Tidy) : b.state = b'.state := by
  have htypes := Dict.perm_of_get? hb.typeCounts hb'.typeCounts h.typeCounts
  have hheads := Dict.perm_of_get? hb.heads hb'.heads h.heads
  have happlied := Dict.perm_of_get? hb.applied hb'.applied h.applied
  have hvalues : b.heads.values.Perm b'.heads.values := hheads.map Prod.snd
  unfold state
  rw [h.eventCount, sortBy_congr_perm htypes hb.typeCounts, sortBy_congr_perm happlied hb.applied,
    sortBy_congr_perm hvalues hb.nodup_heads]

theorem get?_typeCounts_post (b : Books) (records : List StoredEvent) (t : String) :
    (b.post records).typeCounts.get? t =
      if records.countP (fun r => r.eventType = t) = 0 then b.typeCounts.get? t
      else some ((b.typeCounts.get? t).getD 0 + records.countP fun r => r.eventType = t) := by
  induction records using List.reverseRecOn with
  | nil => rfl
  | append_singleton xs r ih =>
    rw [post_concat, List.countP_append, List.countP_singleton]
    show ((b.post xs).typeCounts.set r.eventType _).get? t = _
    rw [Dict.get?_set]
    by_cases h : r.eventType = t
    · subst h
      rw [if_pos rfl, ih]
      simp only [decide_true, if_true, Nat.add_eq_zero_iff, one_ne_zero, and_false, if_false]
      split_ifs with hzero
      · rw [hzero]
      · rfl
    · rw [if_neg h, ih]
      simp only [h, decide_false, Bool.false_eq_true, if_false, Nat.add_zero]

theorem get?_applied_post (b : Books) {records : List StoredEvent}
    (hnodup : (records.map StoredEvent.eventId).Nodup) (i : Uuid) (d : Sha256) :
    (b.post records).applied.get? i = some d ↔ (∃ r ∈ records, r.eventId = i ∧ r.digest = d) ∨
      ((∀ r ∈ records, r.eventId ≠ i) ∧ b.applied.get? i = some d) := by
  induction records using List.reverseRecOn with
  | nil => simp
  | append_singleton xs r ih =>
    rw [List.map_append, List.nodup_append] at hnodup
    have hnew : ∀ x ∈ xs, x.eventId ≠ r.eventId := fun x hx =>
      hnodup.2.2 _ (List.mem_map_of_mem hx) _ (List.mem_singleton_self _)
    rw [post_concat]
    show ((b.post xs).applied.set r.eventId r.digest).get? i = some d ↔ _
    rw [Dict.get?_set]
    split_ifs with h
    · subst h
      rw [Option.some.injEq]
      constructor
      · intro hd
        exact .inl ⟨r, by simp, rfl, hd⟩
      · rintro (⟨x, hx, hid, hd⟩ | ⟨hall, -⟩)
        · rcases List.mem_append.1 hx with hx | hx
          · exact absurd hid (hnew x hx)
          · rw [← List.mem_singleton.1 hx, hd]
        · exact absurd rfl (hall r (by simp))
    · rw [ih hnodup.1]
      have hexists : (∃ x ∈ xs ++ [r], x.eventId = i ∧ x.digest = d) ↔ ∃ x ∈ xs, x.eventId = i ∧ x.digest = d := by
        simp [or_and_right, exists_or, h]
      have hforall : (∀ x ∈ xs ++ [r], x.eventId ≠ i) ↔ ∀ x ∈ xs, x.eventId ≠ i := by
        simp [or_imp, forall_and, h]
      rw [hexists, hforall]

theorem same_post (b : Books) {xs ys : List StoredEvent} (hperm : xs.Perm ys)
    (hstream : ∀ s, ofStream s xs = ofStream s ys) (hnodup : (xs.map StoredEvent.eventId).Nodup) :
    Same (b.post xs) (b.post ys) := by
  refine ⟨?_, fun t => ?_, fun s => ?_, fun i => ?_⟩
  · rw [post_eventCount, post_eventCount, hperm.length_eq]
  · rw [get?_typeCounts_post, get?_typeCounts_post, hperm.countP_eq]
  · rw [get?_heads_post, get?_heads_post, hstream]
  · ext d
    rw [get?_applied_post b hnodup, get?_applied_post b ((hperm.map _).nodup_iff.1 hnodup)]
    simp only [hperm.mem_iff]

theorem Same.push (h : Same b b') (r : StoredEvent) : Same (b.push r) (b'.push r) := by
  refine ⟨?_, fun t => ?_, fun s => ?_, fun i => ?_⟩
  · show b.eventCount + 1 = b'.eventCount + 1
    rw [h.eventCount]
  · show (b.typeCounts.set _ _).get? t = (b'.typeCounts.set _ _).get? t
    rw [Dict.get?_set, Dict.get?_set, h.typeCounts, h.typeCounts]
  · show (b.heads.set _ _).get? s = (b'.heads.set _ _).get? s
    rw [Dict.get?_set, Dict.get?_set, h.heads]
    unfold countOf
    rw [h.heads]
  · show (b.applied.set _ _).get? i = (b'.applied.set _ _).get? i
    rw [Dict.get?_set, Dict.get?_set, h.applied]

theorem Same.post (h : Same b b') (records : List StoredEvent) : Same (b.post records) (b'.post records) := by
  induction records using List.reverseRecOn with
  | nil => exact h
  | append_singleton xs r ih =>
    rw [post_concat, post_concat]
    exact ih.push r

end Books

theorem streamEvents_getD (valid : List StoredEvent) (s : Uuid) :
    ((streamEvents valid).get? s).getD [] = Books.ofStream s valid := by
  induction valid using List.reverseRecOn with
  | nil => rfl
  | append_singleton xs r ih =>
    unfold streamEvents at ih ⊢
    rw [List.foldl_append, List.foldl_cons, List.foldl_nil, Dict.get?_set, Books.ofStream_concat]
    split_ifs with h
    · subst h
      rw [Option.getD_some, ih]
    · exact ih

variable {initial : Option SnapshotRecord}

def StreamsDistinct (initial : Option SnapshotRecord) : Prop :=
  ((initial.elim [] fun s => s.state.streams).map StreamProjection.streamId).Nodup

theorem projectStream_eq (h : StreamsDistinct initial) (valid : List StoredEvent) {s : Uuid}
    {p : StreamProjection} (hp : ((Books.opening initial).post valid).heads.get? s = some p) :
    projectStream (initial.elim [] (·.state.streams)) (streamEvents valid) s = p := by
  have hprevious : (Books.opening initial).heads.get? s =
      lookupBy StreamProjection.streamId (initial.elim [] (·.state.streams)) s :=
    Dict.get?_byKey h s
  rw [Books.get?_heads_post] at hp
  unfold Books.countOf at hp
  rw [hprevious] at hp
  unfold projectStream
  rw [streamEvents_getD]
  cases hlast : (Books.ofStream s valid).getLast? with
  | some last =>
    rw [hlast] at hp
    simp only [hlast]
    exact Option.some.inj hp
  | none =>
    rw [hlast] at hp
    simp only at hp
    have hid := (lookupBy_some hp).2
    rw [List.getLast?_eq_none_iff] at hlast
    simp only [hlast, hp]
    rw [← hid]
    rfl

theorem assembleState_eq (h : StreamsDistinct initial) {expected : Dict Uuid ℕ}
    (hnodup : expected.keys.Nodup) (valid : List StoredEvent)
    (hkeys : ∀ s, s ∈ expected.keys ↔ s ∈ ((Books.opening initial).post valid).heads.keys) :
    assembleState initial (initialMaps initial) expected valid = ((Books.opening initial).post valid).state := by
  have htidy := (Books.tidy_opening initial).post valid
  have hstreams : (sortBy id expected.keys).map
      (projectStream (initial.elim [] (·.state.streams)) (streamEvents valid)) =
      sortBy StreamProjection.streamId ((Books.opening initial).post valid).heads.values := by
    have hget : ∀ s ∈ expected.keys, ∃ p, ((Books.opening initial).post valid).heads.get? s = some p :=
      fun s hs => Option.isSome_iff_exists.1 ((Dict.mem_keys_iff _ s).1 ((hkeys s).1 hs))
    have hids : ((sortBy id expected.keys).map (projectStream (initial.elim [] (·.state.streams))
        (streamEvents valid))).map StreamProjection.streamId = sortBy id expected.keys := by
      rw [List.map_map]
      refine (List.map_congr_left fun s hs => ?_).trans (List.map_id _)
      obtain ⟨p, hp⟩ := hget s ((mem_sortBy id _ s).1 hs)
      rw [Function.comp_apply, projectStream_eq h valid hp]
      exact htidy.keyed _ (Dict.mem_of_get?_eq_some hp)
    refine @eq_of_perm_of_pairwise_lt _ _ _ StreamProjection.streamId _ _ ?_ (List.pairwise_map.1 ?_)
      (sortBy_pairwise_lt _ _ htidy.nodup_heads)
    · refine .trans ?_ (sortBy_perm _ _).symm
      rw [List.perm_ext_iff_of_nodup _ htidy.nodup_heads.of_map]
      · intro p
        rw [List.mem_map, Dict.values, List.mem_map]
        constructor
        · rintro ⟨s, hs, rfl⟩
          obtain ⟨p, hp⟩ := hget s ((mem_sortBy id _ s).1 hs)
          rw [projectStream_eq h valid hp]
          exact ⟨(s, p), Dict.mem_of_get?_eq_some hp, rfl⟩
        · rintro ⟨⟨s, p⟩, hp, rfl⟩
          refine ⟨s, (mem_sortBy id _ s).2 ((hkeys s).2 (List.mem_map_of_mem hp)), ?_⟩
          exact projectStream_eq h valid ((Dict.get?_eq_some_iff htidy.heads).2 hp)
      · refine List.Nodup.of_map StreamProjection.streamId ?_
        rw [hids]
        exact ((sortBy_perm id expected.keys).nodup_iff).2 hnodup
    · rw [hids]
      exact sortBy_pairwise_lt id expected.keys (by rwa [List.map_id])
  unfold assembleState Books.state
  rw [Books.post_eventCount, Books.post_typeCounts, Books.post_applied, hstreams]
  rfl

end TradingAgent.EventLedger
