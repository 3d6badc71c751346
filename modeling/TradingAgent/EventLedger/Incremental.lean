import TradingAgent.EventLedger.Resume
import TradingAgent.EventLedger.OrderIndependence

/-! A replay from a snapshot ends as the replay of the whole history does. -/

namespace TradingAgent.EventLedger

open Outcome

variable {codec : ReplayCodec} {policy : ReducerPolicy} {initial : Option SnapshotRecord}
  {events A B : List LedgerEvent}

theorem mem_canonicalRecords_iff (h : KeyDecides idOf events) {r : StoredEvent} :
    r ∈ canonicalRecords codec initial events ↔
      r ∈ recordsOf codec events ∧ (initialMaps initial).applied.get? r.eventId = none := by
  unfold canonicalRecords collected
  rw [mem_sortBy, mem_firstsBy, mem_freshRecords]
  exact (keyDecides_records h codec).subset fun r hr => (mem_freshRecords.1 hr).1

theorem sequence_le_of_eventOrder_le {r r' : StoredEvent} (hs : r.streamId = r'.streamId)
    (h : eventOrder r ≤ eventOrder r') : r.sequence ≤ r'.sequence := by
  unfold eventOrder at h
  rw [hs, Prod.Lex.toLex_le_toLex] at h
  rcases h with hlt | ⟨-, hle⟩
  · exact absurd hlt (lt_irrefl _)
  · rw [Prod.Lex.toLex_le_toLex] at hle
    rcases hle with hlt | ⟨heq, -⟩
    · exact hlt.le
    · exact heq.le

theorem ofStream_canonicalRecords_sorted (codec : ReplayCodec) (initial : Option SnapshotRecord)
    (events : List LedgerEvent) (s : Uuid) :
    ((Books.ofStream s (canonicalRecords codec initial events)).map StoredEvent.sequence).Pairwise (· ≤ ·) := by
  rw [List.pairwise_map]
  have hsorted := (sortBy_pairwise_le eventOrder
    (collected (initialMaps initial) (recordsOf codec events)).unique).filter fun r => r.streamId = s
  refine hsorted.imp_of_mem fun {r r'} hr hr' hle => ?_
  have hs : r.streamId = s := by simpa using (List.mem_filter.1 hr).2
  have hs' : r'.streamId = s := by simpa using (List.mem_filter.1 hr').2
  exact sequence_le_of_eventOrder_le (hs.trans hs'.symm) hle

theorem sorted_unique {xs ys : List ℕ} (hx : xs.Pairwise (· ≤ ·)) (hy : ys.Pairwise (· ≤ ·))
    (h : xs.Perm ys) : xs = ys :=
  h.eq_of_pairwise (fun _ _ _ _ => le_antisymm) hx hy

theorem range'_sorted (a n : ℕ) : (List.range' a n).Pairwise (· ≤ ·) :=
  (List.pairwise_lt_range' 1).imp le_of_lt

/-- No report of one batch shares an identity with one of the other. -/
def CrossDistinct (A B : List LedgerEvent) : Prop :=
  ∀ e ∈ A, ∀ e' ∈ B, e.eventId ≠ e'.eventId → ∀ r r', reportOf e = some r → reportOf e' = some r' →
    Distinguished r r'

theorem reportsDistinct_append_iff :
    ReportsDistinct (A ++ B) ↔ ReportsDistinct A ∧ ReportsDistinct B ∧ CrossDistinct A B := by
  constructor
  · intro h
    exact ⟨h.subset fun e he => List.mem_append_left _ he, h.subset fun e he => List.mem_append_right _ he,
      fun e he e' he' => h e (List.mem_append_left _ he) e' (List.mem_append_right _ he')⟩
  · rintro ⟨hA, hB, hcross⟩ e he e' he' hne r r' hr hr'
    rcases List.mem_append.1 he with he | he <;> rcases List.mem_append.1 he' with he' | he'
    · exact hA e he e' he' hne r r' hr hr'
    · exact hcross e he e' he' hne r r' hr hr'
    · exact (hcross e' he' e he hne.symm r' r hr' hr).symm
    · exact hB e he e' he' hne r r' hr hr'

theorem coherent_none_iff {records : List StoredEvent} : Coherent (initialMaps none) records ↔
    ∀ r ∈ records, ∀ r' ∈ records, r.eventId = r'.eventId → r.digest = r'.digest := by
  constructor
  · intro h r hr r' hr'
    exact h.repeated r hr r' hr' rfl
  · intro h
    exact ⟨fun r _ d hd => (by cases hd), fun r _ _ i hi => (by cases hi),
      fun r hr r' hr' _ => h r hr r' hr'⟩

/-- The first batch was accepted. -/
structure Head (codec : ReplayCodec) (A : List LedgerEvent) : Prop where
  reports : ReportsDistinct A
  storable : ∀ e ∈ A, Storable codec.toLedgerCodec e
  coherent : Coherent (initialMaps none) (recordsOf codec A)
  keys : KeyDecides idOf A
  inOrder : (Course.opening none).InOrder (canonicalRecords codec none A)

section Head

theorem validInitial_none (codec : ReplayCodec) : ValidInitial codec none := by
  intro s hs
  cases hs

theorem courseOf_none_sound (codec : ReplayCodec) (A : List LedgerEvent) :
    (courseOf codec none A).Sound := courseOf_sound (validInitial_none codec) A

variable (h : Head codec A)

include h

theorem Head.books : (courseOf codec none A).books =
    (Books.opening none).post (canonicalRecords codec none A) := h.inOrder.books

theorem Head.issues (i : Uuid) : (courseOf codec none A).issues.get? i = none :=
  h.inOrder.issues (fun _ => rfl) i

theorem Head.applied (i : Uuid) (d : Sha256) : (courseOf codec none A).books.applied.get? i = some d ↔
    ∃ r ∈ recordsOf codec A, r.eventId = i ∧ r.digest = d := by
  rw [h.books, Books.get?_applied_post _ (nodup_canonicalRecords codec none A)]
  have hnone : (Books.opening none).applied.get? i = none := rfl
  have hmem : ∀ r, r ∈ canonicalRecords codec none A ↔ r ∈ recordsOf codec A := fun r => by
    rw [mem_canonicalRecords_iff h.keys]
    exact and_iff_left rfl
  simp only [hnone, hmem, reduceCtorEq, and_false, or_false]

theorem Head.not_applied (i : Uuid) : (courseOf codec none A).books.applied.get? i = none ↔
    ∀ r ∈ recordsOf codec A, r.eventId ≠ i := by
  constructor
  · intro hnone r hr hid
    rw [(h.applied i r.digest).2 ⟨r, hr, hid, rfl⟩] at hnone
    cases hnone
  · intro hall
    cases hget : (courseOf codec none A).books.applied.get? i with
    | none => rfl
    | some d =>
      obtain ⟨r, hr, hid, -⟩ := (h.applied i d).1 hget
      exact absurd hid (hall r hr)

theorem Head.wanted (s : Uuid) : (courseOf codec none A).books.wanted s =
    (Books.ofStream s (canonicalRecords codec none A)).length + 1 := by
  rw [(courseOf_none_sound codec A).wanted, h.books, Books.countOf_post]
  show 0 + _ + 1 = _
  rw [Nat.zero_add]

theorem Head.sequences (s : Uuid) : (Books.ofStream s (canonicalRecords codec none A)).map StoredEvent.sequence =
      List.range' 1 (Books.ofStream s (canonicalRecords codec none A)).length :=
  Course.inOrder_iff.1 h.inOrder s

theorem Head.coherent_iff : Coherent (initialMaps (some ((courseOf codec none A).result codec)))
    (recordsOf codec B) ↔ Coherent (initialMaps none) (recordsOf codec (A ++ B)) := by
  have happend : recordsOf codec (A ++ B) = recordsOf codec A ++ recordsOf codec B := List.map_append
  have hA := coherent_none_iff.1 h.coherent
  rw [coherent_none_iff, happend]
  constructor
  · intro hB
    -- A delivery of the tail has the digest of the head's event with its identity.
    have hcross : ∀ r ∈ recordsOf codec A, ∀ r' ∈ recordsOf codec B, r.eventId = r'.eventId → r.digest = r'.digest := by
      intro r hr r' hr' hid
      refine hB.applied r' hr' r.digest ?_
      rw [Course.get?_applied_result (courseOf_none_sound codec A), h.applied]
      exact ⟨r, hr, hid, rfl⟩
    intro r hr r' hr' hid
    rcases List.mem_append.1 hr with hr | hr <;> rcases List.mem_append.1 hr' with hr' | hr'
    · exact hA r hr r' hr' hid
    · exact hcross r hr r' hr' hid
    · exact (hcross r' hr' r hr hid.symm).symm
    · cases hget : (courseOf codec none A).books.applied.get? r.eventId with
      | none =>
        refine hB.repeated r hr r' hr' ?_ hid
        rw [Course.get?_applied_result (courseOf_none_sound codec A), hget]
      | some d =>
        obtain ⟨x, hx, hxid, -⟩ := (h.applied r.eventId d).1 hget
        rw [← hcross x hx r hr hxid, ← hcross x hx r' hr' (hxid.trans hid)]
  · intro hall
    refine ⟨fun r hr d hd => ?_, fun r hr hnone i hi => ?_, fun r hr r' hr' _ hid => ?_⟩
    · rw [Course.get?_applied_result (courseOf_none_sound codec A), h.applied] at hd
      obtain ⟨x, hx, hxid, rfl⟩ := hd
      exact hall x (List.mem_append_left _ hx) r (List.mem_append_right _ hr) hxid
    · rw [Course.get?_unresolved_result (courseOf_none_sound codec A), h.issues] at hi
      cases hi
    · exact hall r (List.mem_append_right _ hr) r' (List.mem_append_right _ hr') hid

end Head

section Tail

variable (h : Head codec A)

variable (codec A B) in
abbrev tailRecords : List StoredEvent :=
  canonicalRecords codec (some ((courseOf codec none A).result codec)) B

include h

variable (hkeys : KeyDecides idOf (A ++ B))
include hkeys

theorem Head.canonical_perm :
    (canonicalRecords codec none (A ++ B)).Perm (canonicalRecords codec none A ++ tailRecords codec A B) := by
  have hkeysB : KeyDecides idOf B := hkeys.subset fun e he => List.mem_append_right _ he
  have happend : recordsOf codec (A ++ B) = recordsOf codec A ++ recordsOf codec B := List.map_append
  have hrecords := keyDecides_records hkeys codec
  have htail : ∀ r, r ∈ tailRecords codec A B ↔
      r ∈ recordsOf codec B ∧ ∀ x ∈ recordsOf codec A, x.eventId ≠ r.eventId := fun r => by
    rw [mem_canonicalRecords_iff hkeysB, Course.get?_applied_result (courseOf_none_sound codec A), h.not_applied]
  have hhead : ∀ r, r ∈ canonicalRecords codec none A ↔ r ∈ recordsOf codec A := fun r => by
    rw [mem_canonicalRecords_iff h.keys]
    exact and_iff_left rfl
  rw [List.perm_ext_iff_of_nodup (nodup_canonicalRecords codec none (A ++ B)).of_map]
  · intro r
    rw [mem_canonicalRecords_iff hkeys, List.mem_append, hhead, htail, happend, List.mem_append]
    constructor
    · rintro ⟨hr | hr, -⟩
      · exact .inl hr
      · by_cases hx : ∃ x ∈ recordsOf codec A, x.eventId = r.eventId
        · obtain ⟨x, hx, hid⟩ := hx
          rw [happend] at hrecords
          rw [← hrecords x (List.mem_append_left _ hx) r (List.mem_append_right _ hr) hid]
          exact .inl hx
        · exact .inr ⟨hr, fun x hxm hid => hx ⟨x, hxm, hid⟩⟩
    · rintro (hr | ⟨hr, -⟩)
      · exact ⟨.inl hr, rfl⟩
      · exact ⟨.inr hr, rfl⟩
  · refine List.nodup_append.2 ⟨(nodup_canonicalRecords codec none A).of_map,
      (nodup_canonicalRecords codec _ B).of_map, fun x hx r hr heq => ?_⟩
    exact ((htail r).1 hr).2 x ((hhead x).1 hx) (congrArg _ heq)

theorem Head.stream_perm (s : Uuid) : (Books.ofStream s (canonicalRecords codec none (A ++ B))).Perm
      (Books.ofStream s (canonicalRecords codec none A) ++ Books.ofStream s (tailRecords codec A B)) := by
  have hperm := (h.canonical_perm hkeys).filter fun r => decide (r.streamId = s)
  rwa [List.filter_append] at hperm

theorem Head.inOrder_iff : (Course.opening none).InOrder (canonicalRecords codec none (A ++ B)) ↔
      (Course.opening (some ((courseOf codec none A).result codec))).InOrder (tailRecords codec A B) := by
  have hsame := Course.same_opening_result (courseOf_none_sound codec A) codec
  rw [hsame.inOrder, Course.inOrder_iff, Course.inOrder_iff]
  refine forall_congr' fun s => ?_
  have hperm := h.stream_perm hkeys (B := B) s
  have hseqs := hperm.map StoredEvent.sequence
  have hlength := hperm.length_eq
  have hsplit := List.range'_append_1 (s := 1)
    (m := (Books.ofStream s (canonicalRecords codec none A)).length)
    (n := (Books.ofStream s (tailRecords codec A B)).length)
  rw [List.map_append, h.sequences] at hseqs
  rw [List.length_append] at hlength
  rw [h.wanted, Nat.add_comm _ 1]
  show _ = List.range' 1 _ ↔ _
  rw [hlength]
  constructor
  · intro hall
    rw [hall, ← hsplit, List.perm_append_left_iff] at hseqs
    exact sorted_unique (ofStream_canonicalRecords_sorted codec _ B s) (range'_sorted _ _) hseqs.symm
  · intro htail
    rw [htail, hsplit] at hseqs
    exact sorted_unique (ofStream_canonicalRecords_sorted codec none (A ++ B) s) (range'_sorted _ _) hseqs

theorem Head.course_same (horder : (Course.opening none).InOrder (canonicalRecords codec none (A ++ B))) :
    Course.Same (courseOf codec none (A ++ B)) (courseOf codec (some ((courseOf codec none A).result codec)) B) := by
  have hsame := Course.same_opening_result (courseOf_none_sound codec A) codec
  have htail := (h.inOrder_iff hkeys).1 horder
  have hbooks : (courseOf codec (some ((courseOf codec none A).result codec)) B).books =
      (Books.opening (some ((courseOf codec none A).result codec))).post (tailRecords codec A B) :=
    htail.books
  have hstream : ∀ s, Books.ofStream s (canonicalRecords codec none (A ++ B)) =
      Books.ofStream s (canonicalRecords codec none A ++ tailRecords codec A B) := by
    intro s
    have hperm := h.stream_perm hkeys (B := B) s
    have hseqs := Course.inOrder_iff.1 horder s
    have hincreasing : ((Books.ofStream s (canonicalRecords codec none (A ++ B))).map
        StoredEvent.sequence).Pairwise (· < ·) := by
      rw [hseqs]
      exact List.pairwise_lt_range' 1
    have hwhole : ((Books.ofStream s (canonicalRecords codec none A) ++
        Books.ofStream s (tailRecords codec A B)).map StoredEvent.sequence).Pairwise (· < ·) := by
      have htailSeqs := Course.inOrder_iff.1 ((hsame.inOrder _).1 htail) s
      rw [h.wanted, Nat.add_comm _ 1] at htailSeqs
      rw [List.map_append, h.sequences, htailSeqs, List.range'_append_1]
      exact List.pairwise_lt_range' 1
    have heq := eq_of_perm_of_pairwise_lt hperm (List.pairwise_map.1 hincreasing)
      (List.pairwise_map.1 hwhole)
    rw [heq]
    exact (List.filter_append _ _).symm
  refine ⟨?_, fun i => ?_⟩
  · have hwhole : (courseOf codec none (A ++ B)).books =
        (Books.opening none).post (canonicalRecords codec none (A ++ B)) := horder.books
    have hposts := Books.same_post (Books.opening none) (h.canonical_perm hkeys) hstream
      (nodup_canonicalRecords codec none (A ++ B))
    rw [Books.post_append, ← h.books] at hposts
    rw [hwhole, hbooks]
    exact hposts.trans ((hsame.books.post _).symm)
  · have hnone : ∀ i, (Course.opening (some ((courseOf codec none A).result codec))).issues.get? i = none := by
      intro i
      rw [hsame.issues, h.issues]
    rw [show (courseOf codec none (A ++ B)).issues.get? i = none from horder.issues (fun _ => rfl) i]
    exact (htail.issues hnone i).symm

omit hkeys

theorem Head.replay_append_iff (hhead : reduceEvents codec .default none A = .ok ((courseOf codec none A).result codec))
    (hfree : CollisionFree codec.toLedgerCodec (A ++ B)) {r : ReplayResult} :
    reduceEvents codec .default none (A ++ B) = .ok r ↔
      reduceEvents codec .default (some ((courseOf codec none A).result codec)) B = .ok r ∧ CrossDistinct A B := by
  have hfreeB : CollisionFree codec.toLedgerCodec B := hfree.subset fun e he => List.mem_append_right _ he
  have hstorable : (∀ e ∈ A ++ B, Storable codec.toLedgerCodec e) ↔ ∀ e ∈ B, Storable codec.toLedgerCodec e := by
    simp only [List.mem_append, or_imp, forall_and]
    exact and_iff_right h.storable
  rw [reduceEvents_ok_iff, reduceEvents_ok_iff, replayable_iff hfree, replayable_iff hfreeB,
    reportsDistinct_append_iff, hstorable, ← h.coherent_iff]
  simp only [validInitial_none codec, ValidInitial.of_result hhead, h.reports, true_and, forall_const]
  by_cases hcoherent : Coherent (initialMaps (some ((courseOf codec none A).result codec)))
      (recordsOf codec B)
  · have hkeys := (h.coherent_iff.1 hcoherent).keyDecides hfree
    rw [h.inOrder_iff hkeys]
    by_cases horder : (Course.opening (some ((courseOf codec none A).result codec))).InOrder
        (tailRecords codec A B)
    · have hsame := h.course_same hkeys ((h.inOrder_iff hkeys).2 horder)
      have hresult := hsame.result_eq (courseOf_none_sound codec (A ++ B))
        (courseOf_sound (ValidInitial.of_result hhead) B) codec
      rw [hresult]
      tauto
    · simp [horder]
  · simp [hcoherent]

end Tail

theorem head_of_replay {rA : ReplayResult} (h : replay codec .default none A = .ok rA)
    (hfree : CollisionFree codec.toLedgerCodec A) : Head codec A ∧ (courseOf codec none A).result codec = rA := by
  rw [replay_ok_iff, replayable_iff hfree] at h
  obtain ⟨-, ⟨hreports, hstorable, hcoherent, horder, -⟩, hr⟩ := h
  exact ⟨⟨hreports, hstorable, hcoherent, hcoherent.keyDecides hfree, horder rfl⟩, hr⟩

theorem replay_append_iff {rA r : ReplayResult} (hA : replay codec .default none A = .ok rA)
    (hfree : CollisionFree codec.toLedgerCodec (A ++ B)) :
    replay codec .default none (A ++ B) = .ok r ↔ replay codec .default (some rA) B = .ok r ∧ CrossDistinct A B := by
  obtain ⟨hhead, rfl⟩ := head_of_replay hA (hfree.subset fun e he => List.mem_append_left _ he)
  rw [replay_eq_reduceEvents] at hA
  rw [replay_eq_reduceEvents, replay_eq_reduceEvents]
  exact hhead.replay_append_iff hA hfree

/-- Replaying the tail on the snapshot of the head gives the result of a full replay. -/
theorem incremental_replay_eq_full {rA r : ReplayResult} (hA : replay codec .default none A = .ok rA)
    (hfull : replay codec .default none (A ++ B) = .ok r)
    (hfree : CollisionFree codec.toLedgerCodec (A ++ B)) :
    ∃ s, snapshotFromResult codec rA = .ok s ∧ replay codec .default (some s) B = .ok r := by
  have hsnapshot := hA
  rw [replay_eq_reduceEvents] at hsnapshot
  exact ⟨rA, snapshot_of_result hsnapshot, ((replay_append_iff hA hfree).1 hfull).1⟩

def sampleHead : List LedgerEvent :=
  [sampleFillEvent 1 7 11, sampleLedgerEvent 2 8 0 (.unread .orderEvent "placed")]

def sampleRest : List LedgerEvent :=
  [sampleLedgerEvent 3 8 1 (.unread .orderEvent "working"), sampleFillEvent 1 7 11,
    sampleLedgerEvent 4 7 1 (.unread .signalProposal "long")]

theorem sampleRest_replays_incrementally : ∃ rA r,
    replay (sampleLedgerCodec []) .default none sampleHead = .ok rA ∧
      replay (sampleLedgerCodec []) .default none (sampleHead ++ sampleRest) = .ok r ∧
      ∃ s, snapshotFromResult (sampleLedgerCodec []) rA = .ok s ∧
        replay (sampleLedgerCodec []) .default (some s) sampleRest = .ok r := by
  obtain ⟨rA, hA⟩ := isOk_iff.1 (by decide +kernel :
    (replay (sampleLedgerCodec []) .default none sampleHead).isOk = true)
  obtain ⟨r, hr⟩ := isOk_iff.1 (by decide +kernel :
    (replay (sampleLedgerCodec []) .default none (sampleHead ++ sampleRest)).isOk = true)
  refine ⟨rA, r, hA, hr, incremental_replay_eq_full hA hr ?_⟩
  unfold CollisionFree
  decide +kernel

/-- A tail is replayed with its snapshot exactly when none of its reports repeats one of the head. -/
theorem incremental_replay_accepted_iff {rA s r : ReplayResult}
    (hA : replay codec .default none A = .ok rA) (hs : snapshotFromResult codec rA = .ok s)
    (hB : replay codec .default (some s) B = .ok r)
    (hfree : CollisionFree codec.toLedgerCodec (A ++ B)) :
    (∃ r', replay codec .default none (A ++ B) = .ok r') ↔ CrossDistinct A B := by
  obtain ⟨-, rfl⟩ := snapshotFromResult_ok_iff.1 hs
  constructor
  · rintro ⟨r', hr'⟩
    exact ((replay_append_iff hA hfree).1 hr').2
  · intro hcross
    exact ⟨r, (replay_append_iff hA hfree).2 ⟨hB, hcross⟩⟩

theorem sampleRest_accepted_iff :
    (∃ r', replay (sampleLedgerCodec []) .default none (sampleHead ++ sampleRest) = .ok r') ↔
      CrossDistinct sampleHead sampleRest := by
  have hfirst : ((replay (sampleLedgerCodec []) .default none sampleHead).toOption.any fun rA =>
      decide ((snapshotFromResult (sampleLedgerCodec []) rA).toOption.any (fun s =>
        decide ((replay (sampleLedgerCodec []) .default (some s) sampleRest).isOk = true)) = true)) =
      true := by
    decide +kernel
  obtain ⟨rA, hA, hsnapshot⟩ := exists_ok_of_any hfirst
  obtain ⟨s, hs, hok⟩ := exists_ok_of_any hsnapshot
  obtain ⟨r, hr⟩ := isOk_iff.1 hok
  refine incremental_replay_accepted_iff hA hs hr ?_
  unfold CollisionFree
  decide +kernel

/-- A second report of an execution after the snapshot is accepted, and refused by a full replay. -/
theorem repeated_execution_accepted_after_snapshot : ∃ rA s r,
    replay (sampleLedgerCodec []) .default none [sampleFillEvent 1 7 11] = .ok rA ∧
      snapshotFromResult (sampleLedgerCodec []) rA = .ok s ∧
      replay (sampleLedgerCodec []) .default (some s) [sampleFillEvent 2 8 11] = .ok r ∧
      replay (sampleLedgerCodec []) .default none ([sampleFillEvent 1 7 11] ++ [sampleFillEvent 2 8 11]) =
          .error (.replayError "invalid execution report batch") := by
  have hfirst : ((replay (sampleLedgerCodec []) .default none [sampleFillEvent 1 7 11]).toOption.any
      fun rA => decide ((snapshotFromResult (sampleLedgerCodec []) rA).toOption.any (fun s =>
        decide ((replay (sampleLedgerCodec []) .default (some s) [sampleFillEvent 2 8 11]).isOk = true)) =
          true)) = true := by
    decide +kernel
  obtain ⟨rA, hA, hsnapshot⟩ := exists_ok_of_any hfirst
  obtain ⟨s, hs, hok⟩ := exists_ok_of_any hsnapshot
  obtain ⟨r, hr⟩ := isOk_iff.1 hok
  refine ⟨rA, s, r, hA, hs, hr, ?_⟩
  decide +kernel

/-! ## Batch after batch -/

/-- A batch on the snapshot of what was replayed before. -/
def replayOnward (codec : ReplayCodec) (r : ReplayResult) (batch : List LedgerEvent) :
    Except LedgerFailure ReplayResult := do
  let snapshot ← snapshotFromResult codec r
  replay codec .default (some snapshot) batch

theorem crossDistinct_flatten {batches : List (List LedgerEvent)} :
    CrossDistinct batches.flatten B ↔ ∀ batch ∈ batches, CrossDistinct batch B := by
  constructor
  · intro h batch hbatch e he
    exact h e (List.mem_flatten_of_mem hbatch he)
  · intro h e he
    obtain ⟨batch, hbatch, he⟩ := List.mem_flatten.1 he
    exact h batch hbatch e he

theorem replay_reports {r : ReplayResult} (hfree : CollisionFree codec.toLedgerCodec events)
    (h : replay codec .default none events = .ok r) : ReportsDistinct events := by
  rw [replay_ok_iff, replayable_iff hfree] at h
  exact h.2.1.1

/-- Batches replayed one after the other give the result of a full replay, which succeeds exactly when no report of a
batch repeats one of another. -/
theorem batches_replay_eq_full {rA r : ReplayResult} {batches : List (List LedgerEvent)}
    (hA : replay codec .default none A = .ok rA) (hbatches : batches.foldlM (replayOnward codec) rA = .ok r)
    (hfree : CollisionFree codec.toLedgerCodec (A :: batches).flatten) :
    ((∃ r', replay codec .default none (A :: batches).flatten = .ok r') ↔ (A :: batches).Pairwise CrossDistinct) ∧
      ∀ r', replay codec .default none (A :: batches).flatten = .ok r' → r' = r := by
  induction batches using List.reverseRecOn generalizing r with
  | nil =>
    obtain rfl := Except.ok.inj hbatches
    have hsingle : [A].flatten = A := List.append_nil A
    rw [hsingle, hA]
    simp
  | append_singleton batches batch ih =>
    obtain ⟨rE, hE, hbatch⟩ := bind_ok_iff.1 ((foldlM_concat _ _ _ _).symm.trans hbatches)
    obtain ⟨_, hsnapshot, hbatch⟩ := bind_ok_iff.1 hbatch
    obtain ⟨-, rfl⟩ := snapshotFromResult_ok_iff.1 hsnapshot
    have hwhole : (A :: (batches ++ [batch])).flatten = (A :: batches).flatten ++ batch := by simp
    rw [hwhole] at hfree ⊢
    have hfreeE := hfree.subset fun e he => List.mem_append_left _ he
    obtain ⟨haccepted, hsame⟩ := ih hE hfreeE
    have hpairs : (A :: (batches ++ [batch])).Pairwise CrossDistinct ↔
        (A :: batches).Pairwise CrossDistinct ∧ CrossDistinct (A :: batches).flatten batch := by
      rw [← List.cons_append, List.pairwise_append, crossDistinct_flatten]
      simp
    have hparts {r' : ReplayResult} (hr' : replay codec .default none ((A :: batches).flatten ++ batch) = .ok r') :
        replay codec .default none (A :: batches).flatten = .ok rE ∧ CrossDistinct (A :: batches).flatten batch := by
      obtain ⟨hreports, -, hcross⟩ := reportsDistinct_append_iff.1 (replay_reports hfree hr')
      obtain ⟨rE', hrE'⟩ := haccepted.2 (List.pairwise_of_forall_mem_list fun a ha b hb e he e' he' =>
        hreports e (List.mem_flatten_of_mem ha he) e' (List.mem_flatten_of_mem hb he'))
      exact ⟨hsame rE' hrE' ▸ hrE', hcross⟩
    rw [hpairs, ← haccepted]
    refine ⟨⟨?_, ?_⟩, fun r' hr' => ?_⟩
    · rintro ⟨r', hr'⟩
      exact ⟨⟨rE, (hparts hr').1⟩, (hparts hr').2⟩
    · rintro ⟨⟨rE', hrE'⟩, hcross⟩
      obtain rfl := hsame rE' hrE'
      exact ⟨r, (replay_append_iff hrE' hfree).2 ⟨hbatch, hcross⟩⟩
    · have htail := ((replay_append_iff (hparts hr').1 hfree).1 hr').1
      exact Except.ok.inj (htail.symm.trans hbatch)

def sampleBatches : List (List LedgerEvent) :=
  [[sampleLedgerEvent 3 8 1 (.unread .orderEvent "working")],
    [sampleFillEvent 1 7 11, sampleLedgerEvent 4 7 1 (.unread .signalProposal "long")]]

theorem sampleBatches_replay : ∃ r, (∃ r', replay (sampleLedgerCodec []) .default none
      (sampleHead :: sampleBatches).flatten = .ok r') ∧
    ∀ r', replay (sampleLedgerCodec []) .default none (sampleHead :: sampleBatches).flatten = .ok r' → r' = r := by
  have hfirst : ((replay (sampleLedgerCodec []) .default none sampleHead).toOption.any fun rA =>
      decide ((sampleBatches.foldlM (replayOnward (sampleLedgerCodec [])) rA).isOk = true)) = true := by decide +kernel
  obtain ⟨rA, hA, hok⟩ := exists_ok_of_any hfirst
  obtain ⟨r, hr⟩ := isOk_iff.1 hok
  have hfull := batches_replay_eq_full hA hr (by unfold CollisionFree; decide +kernel)
  exact ⟨r, isOk_iff.1 (by decide +kernel), hfull.2⟩

end TradingAgent.EventLedger
