import TradingAgent.EventLedger.Incremental

/-! Degraded replays of any batches end as one replay of all events does. -/

namespace TradingAgent.EventLedger

open Outcome

structure Places (known : List StoredEvent) : Prop where
  keys : KeyDecides recordId known
  places : ∀ r ∈ known, ∀ r' ∈ known, r.streamId = r'.streamId → r.sequence = r'.sequence → r = r'
  registered : ∀ r ∈ known, r.eventType ∈ registeredEventTypes
  positive : ∀ r ∈ known, 0 < r.sequence
  fits : ∀ r ∈ known, FitsBigint r.sequence

structure Underway (known posted : List StoredEvent) (c : Course) : Prop where
  sound : c.Sound
  books : Books.Same c.books ((Books.opening none).post posted)
  mem : ∀ r ∈ posted, r ∈ known
  nodup : (posted.map StoredEvent.eventId).Nodup
  sequences : ∀ s, (Books.ofStream s posted).map StoredEvent.sequence =
    List.range' 1 (Books.ofStream s posted).length
  issues : ∀ i issue, c.issues.get? i = some issue → ∃ r ∈ known, r.eventId = i ∧
    ∃ wanted, 0 < wanted ∧ wanted < r.sequence ∧ issue = sequenceIssue wanted r

section Underway

variable {known posted : List StoredEvent} {c : Course} {r : StoredEvent}

theorem mem_ofStream {s : Uuid} {records : List StoredEvent} :
    r ∈ Books.ofStream s records ↔ r ∈ records ∧ r.streamId = s := by
  simp [Books.ofStream]

theorem underway_opening (known : List StoredEvent) : Underway known [] (Course.opening none) :=
  ⟨Course.sound_opening_none, ⟨rfl, fun _ => rfl, fun _ => rfl, fun _ => rfl⟩, by simp, List.nodup_nil,
    fun _ => rfl, fun i issue h => by cases h⟩

variable (h : Underway known posted c)

include h

theorem Underway.wanted (s : Uuid) : c.books.wanted s = (Books.ofStream s posted).length + 1 := by
  have hcount : c.books.countOf s = ((Books.opening none).post posted).countOf s := by
    unfold Books.countOf
    rw [h.books.heads]
  rw [h.sound.wanted, hcount, Books.countOf_post]
  show 0 + _ + 1 = _
  rw [Nat.zero_add]

variable (hp : Places known) (hr : r ∈ known)
include hp hr

theorem Underway.applied_iff : r.eventId ∈ c.books.applied.keys ↔ r ∈ posted := by
  rw [Dict.mem_keys_iff, Option.isSome_iff_exists]
  simp only [h.books.applied, Books.get?_applied_post _ h.nodup]
  constructor
  · rintro ⟨d, ⟨x, hx, hid, -⟩ | ⟨-, hd⟩⟩
    · rwa [← hp.keys x (h.mem x hx) r hr hid]
    · cases hd
  · intro hmem
    exact ⟨r.digest, .inl ⟨r, hmem, rfl, rfl⟩⟩

theorem Underway.posted_iff : r ∈ posted ↔ r.sequence ≤ (Books.ofStream r.streamId posted).length := by
  have hseqs := h.sequences r.streamId
  constructor
  · intro hmem
    have hin : r.sequence ∈ (Books.ofStream r.streamId posted).map StoredEvent.sequence :=
      List.mem_map_of_mem (mem_ofStream.2 ⟨hmem, rfl⟩)
    rw [hseqs, List.mem_range'_1] at hin
    omega
  · intro hle
    have hin : r.sequence ∈ (Books.ofStream r.streamId posted).map StoredEvent.sequence := by
      rw [hseqs, List.mem_range'_1]
      have := hp.positive r hr
      omega
    obtain ⟨x, hx, hseq⟩ := List.mem_map.1 hin
    obtain ⟨hmem, hstream⟩ := mem_ofStream.1 hx
    rwa [← hp.places x (h.mem x hmem) r hr hstream hseq]

theorem Underway.offer (hnew : r ∉ posted) : ∃ posted', Underway known posted' (c.offer r) ∧ posted' =
      if r.sequence = c.books.wanted r.streamId then posted ++ [r] else posted := by
  have hfresh : r.eventId ∉ c.books.applied.keys := fun hmem => hnew ((h.applied_iff hp hr).1 hmem)
  have hsound := h.sound.offer hfresh (hp.registered r hr)
  refine ⟨_, ?_, rfl⟩
  unfold Course.offer at hsound ⊢
  split_ifs at hsound ⊢ with hseq
  · refine ⟨hsound, ?_, ?_, ?_, fun s => ?_, fun i issue hi => ?_⟩
    · rw [Books.post_concat]
      exact h.books.push r
    · intro x hx
      rcases List.mem_append.1 hx with hx | hx
      · exact h.mem x hx
      · rwa [List.mem_singleton.1 hx]
    · rw [List.map_append, List.nodup_append]
      refine ⟨h.nodup, List.nodup_singleton _, fun i hi j hj heq => ?_⟩
      obtain ⟨x, hx, rfl⟩ := List.mem_map.1 hi
      rw [List.map_singleton, List.mem_singleton] at hj
      exact hnew (hp.keys x (h.mem x hx) r hr (heq.trans hj) ▸ hx)
    · rw [Books.ofStream_concat]
      split_ifs with hs
      · rw [h.wanted, hs] at hseq
        rw [List.map_append, h.sequences, List.length_append, List.map_singleton, List.length_singleton,
          List.range'_1_concat, hseq, Nat.add_comm 1]
      · exact h.sequences s
    · rw [Dict.get?_erase] at hi
      split_ifs at hi
      exact h.issues i issue hi
  · refine ⟨hsound, h.books, h.mem, h.nodup, h.sequences, fun i issue hi => ?_⟩
    rw [Dict.get?_set] at hi
    split_ifs at hi with hid
    · refine ⟨r, hr, hid, c.books.wanted r.streamId, ?_, ?_, (Option.some.inj hi).symm⟩
      · rw [h.wanted]
        exact Nat.succ_pos _
      · rw [h.wanted] at hseq ⊢
        have hlt := mt (h.posted_iff hp hr).2 hnew
        omega
    · exact h.issues i issue hi

omit hp hr

theorem Underway.congr {c' : Course} (hsame : Course.Same c' c) (hsound : c'.Sound) : Underway known posted c' :=
  ⟨hsound, hsame.books.trans h.books, h.mem, h.nodup, h.sequences,
    fun i issue hi => h.issues i issue (by rw [← hsame.issues, hi])⟩

end Underway

def Noted (c : Course) (r : StoredEvent) : Prop :=
  c.books.wanted r.streamId < r.sequence ∧
    c.issues.get? r.eventId = some (sequenceIssue (c.books.wanted r.streamId) r)

structure Settled (known posted : List StoredEvent) (c : Course) : Prop extends
    Underway known posted c where
  noted : ∀ r ∈ known, r ∉ posted → Noted c r

section Settled

variable {known posted posted' : List StoredEvent} {c c' : Course}

def Ascends (r x : StoredEvent) : Prop := r.streamId = x.streamId → r.sequence < x.sequence

variable {r x : StoredEvent}

variable (hp : Places known)
include hp

theorem Noted.offer (h : Noted c r) (hr : r ∈ known)
    (hx : x ∈ known) (hasc : Ascends r x) (hne : r ≠ x) : Noted (c.offer x) r := by
  have hid : x.eventId ≠ r.eventId := fun heq => hne (hp.keys x hx r hr heq).symm
  unfold Noted Course.offer at *
  split_ifs with hseq
  · by_cases hs : x.streamId = r.streamId
    · have hlt := hasc hs.symm
      rw [hseq, hs] at hlt
      exact absurd hlt h.1.not_gt
    · have hwanted : (c.books.push x).wanted r.streamId = c.books.wanted r.streamId := by
        rw [Course.wanted_push, if_neg hs]
      rw [hwanted, Dict.get?_erase, if_neg hid]
      exact h
  · rw [Dict.get?_set, if_neg hid]
    exact h

theorem Underway.noted_self (h : Underway known posted c)
    (hx : x ∈ known) (hnew : x ∉ posted) (hseq : x.sequence ≠ c.books.wanted x.streamId) : Noted (c.offer x) x := by
  unfold Noted Course.offer
  rw [if_neg hseq]
  refine ⟨?_, Dict.get?_set_self _ _ _⟩
  have hlt := mt (h.posted_iff hp hx).2 hnew
  rw [h.wanted] at hseq ⊢
  omega

/-- Offering the events of each stream in ascending order keeps what was posted and notes every gap that
is left. -/
theorem Underway.settle {records done : List StoredEvent}
    (h : Underway known posted c) (hmem : ∀ r ∈ records, r ∈ known ∧ r ∉ posted)
    (hnodup : records.Nodup) (hdone : ∀ r ∈ done, r ∈ known)
    (hnoted : ∀ r ∈ done, r ∉ posted → Noted c r) (hasc : ∀ r ∈ done, ∀ x ∈ records, Ascends r x ∧ r ≠ x)
    (hpair : records.Pairwise Ascends) :
    ∃ posted', Underway known posted' (c.offerAll records) ∧ (∀ r ∈ posted, r ∈ posted') ∧
      ∀ r ∈ done ++ records, r ∉ posted' → Noted (c.offerAll records) r := by
  induction records generalizing c posted done with
  | nil =>
    rw [List.append_nil]
    exact ⟨posted, h, fun _ hr => hr, hnoted⟩
  | cons x xs ih =>
    rw [List.nodup_cons] at hnodup
    rw [List.pairwise_cons] at hpair
    obtain ⟨hx, hnew⟩ := hmem x List.mem_cons_self
    obtain ⟨posted₁, h₁, hposted₁⟩ := h.offer hp hx hnew
    have hsub : ∀ r ∈ posted, r ∈ posted₁ := by
      intro r hr
      rw [hposted₁]
      split_ifs
      · exact List.mem_append_left _ hr
      · exact hr
    have hposted : ∀ r ∈ posted₁, r ≠ x → r ∈ posted := by
      intro r hr hne
      rw [hposted₁] at hr
      split_ifs at hr
      · exact (List.mem_append.1 hr).resolve_right fun hm => hne (List.mem_singleton.1 hm)
      · exact hr
    have hrest : ∀ r ∈ xs, r ∈ known ∧ r ∉ posted₁ := by
      intro r hr
      obtain ⟨hknown, hnot⟩ := hmem r (List.mem_cons_of_mem _ hr)
      exact ⟨hknown, fun hin => hnot (hposted r hin (ne_of_mem_of_not_mem hr hnodup.1))⟩
    have hnoted₁ : ∀ r ∈ done ++ [x], r ∉ posted₁ → Noted (c.offer x) r := by
      intro r hr hnot
      rcases List.mem_append.1 hr with hr | hr
      · obtain ⟨hr_asc, hne⟩ := hasc r hr x List.mem_cons_self
        exact (hnoted r hr fun hin => hnot (hsub r hin)).offer hp (hdone r hr) hx hr_asc hne
      · obtain rfl := List.mem_singleton.1 hr
        refine h.noted_self hp hx hnew fun hseq => hnot ?_
        rw [hposted₁, if_pos hseq]
        exact List.mem_append_right _ (List.mem_singleton_self _)
    obtain ⟨posted', h', hsub', hnoted'⟩ := @ih _ _ (done ++ [x]) h₁ hrest hnodup.2 (by
        intro r hr
        rcases List.mem_append.1 hr with hr | hr
        · exact hdone r hr
        · rwa [List.mem_singleton.1 hr])
      hnoted₁
      (by
        intro r hr y hy
        rcases List.mem_append.1 hr with hr | hr
        · exact hasc r hr y (List.mem_cons_of_mem _ hy)
        · rw [List.mem_singleton.1 hr]
          exact ⟨hpair.1 y hy, fun heq => hnodup.1 (heq ▸ hy)⟩)
      hpair.2
    refine ⟨posted', h', fun r hr => hsub' r (hsub r hr), fun r hr => ?_⟩
    rw [List.append_assoc, List.singleton_append] at hnoted'
    exact hnoted' r hr

theorem Settled.length_le (h : Settled known posted c) (h' : Underway known posted' c') (s : Uuid) :
    (Books.ofStream s posted').length ≤ (Books.ofStream s posted).length := by
  by_contra hlt
  -- The event after the settled run was posted in the longer one, so it is known and noted.
  have hin : (Books.ofStream s posted).length + 1 ∈ (Books.ofStream s posted').map StoredEvent.sequence := by
    rw [h'.sequences, List.mem_range'_1]
    omega
  obtain ⟨x, hx, hseq⟩ := List.mem_map.1 hin
  obtain ⟨hmem, rfl⟩ := mem_ofStream.1 hx
  have hknown := h'.mem x hmem
  have hnot : x ∉ posted := by
    rw [h.posted_iff hp hknown, hseq]
    omega
  have hnoted := (h.noted x hknown hnot).1
  rw [h.wanted, hseq] at hnoted
  exact lt_irrefl _ hnoted

theorem Settled.posted_subset (h : Settled known posted c)
    (h' : Underway known posted' c') (hr : r ∈ posted') : r ∈ posted := by
  have hknown := h'.mem r hr
  rw [h.posted_iff hp hknown]
  exact ((h'.posted_iff hp hknown).1 hr).trans (h.length_le hp h' r.streamId)

omit hp

theorem Underway.ofStream_eq (h : Underway known posted c) (h' : Underway known posted' c')
    (hperm : posted.Perm posted') (s : Uuid) : Books.ofStream s posted = Books.ofStream s posted' := by
  have hincreasing : ∀ {p : List StoredEvent} {c : Course}, Underway known p c →
      (Books.ofStream s p).Pairwise fun a b => a.sequence < b.sequence := by
    intro p c hu
    refine List.pairwise_map.1 ?_
    rw [hu.sequences]
    exact List.pairwise_lt_range' 1
  exact eq_of_perm_of_pairwise_lt (hperm.filter _) (hincreasing h) (hincreasing h')

theorem Settled.same (hp : Places known) (h : Settled known posted c) (h' : Settled known posted' c') :
    Course.Same c c' := by
  have hperm : posted.Perm posted' := by
    rw [List.perm_ext_iff_of_nodup h.nodup.of_map h'.nodup.of_map]
    exact fun r => ⟨h'.posted_subset hp h.toUnderway, h.posted_subset hp h'.toUnderway⟩
  have hbooks : Books.Same c.books c'.books :=
    (h.books.trans (Books.same_post _ hperm (h.ofStream_eq h'.toUnderway hperm) h.nodup)).trans
      h'.books.symm
  -- An issue of one is the noted gap of an event that neither has posted.
  have hissue : ∀ {p p' : List StoredEvent} {d d' : Course}, Settled known p d → Settled known p' d' →
      p.Perm p' → Books.Same d.books d'.books → ∀ i issue, d.issues.get? i = some issue →
      d'.issues.get? i = some issue := by
    intro p p' d d' hd hd' hpp hsame i issue hi
    obtain ⟨r, hr, rfl, -⟩ := hd.issues i issue hi
    have hnot : r ∉ p := by
      intro hin
      have hkey : r.eventId ∈ d.issues.keys := by
        rw [Dict.mem_keys_iff, hi]
        rfl
      exact hd.sound.issueSkipped _ hkey ((hd.applied_iff hp hr).2 hin)
    have hnoted := (hd.noted r hr hnot).2
    have hnoted' := (hd'.noted r hr fun hin => hnot (hpp.mem_iff.2 hin)).2
    rw [← hsame.wanted] at hnoted'
    rw [hnoted', ← hnoted, hi]
  refine ⟨hbooks, fun i => ?_⟩
  ext issue
  exact ⟨hissue h h' hperm hbooks i issue, hissue h' h hperm.symm hbooks.symm i issue⟩

end Settled

/-- No two events have one place in one stream. -/
def PlacesDistinct (S : List LedgerEvent) : Prop :=
  ∀ e ∈ S, ∀ e' ∈ S, e.streamId = e'.streamId → e.sequence = e'.sequence → e = e'

/-- Degraded replays, each from the snapshot of the last. -/
def replayChain (codec : ReplayCodec) (batches : List (List LedgerEvent)) :
    Except LedgerFailure (Option SnapshotRecord) :=
  batches.foldlM (fun snapshot batch => do
    let result ← replay codec .degraded snapshot batch
    let snapshot ← snapshotFromResult codec result
    .ok (some snapshot)) none

structure Deliverable (codec : ReplayCodec) (S : List LedgerEvent) : Prop where
  reports : ReportsDistinct S
  storable : ∀ e ∈ S, Storable codec.toLedgerCodec e
  keys : KeyDecides idOf S
  places : PlacesDistinct S
  free : CollisionFree codec.toLedgerCodec S

section Chain

variable {codec : ReplayCodec} {S A : List LedgerEvent} {initial : Option SnapshotRecord}
  {posted : List StoredEvent}

theorem Deliverable.known (h : Deliverable codec S) : Places (recordsOf codec S) := by
  refine ⟨keyDecides_records h.keys codec, fun r hr r' hr' hs hq => ?_, fun r hr => ?_, fun r hr => ?_, fun r hr => ?_⟩
  · obtain ⟨e, he, rfl⟩ := List.mem_map.1 hr
    obtain ⟨e', he', rfl⟩ := List.mem_map.1 hr'
    rw [h.places e he e' he' hs hq]
  · obtain ⟨e, -, rfl⟩ := List.mem_map.1 hr
    exact eventType_registered e.payload
  · obtain ⟨e, -, rfl⟩ := List.mem_map.1 hr
    exact e.valid.1
  · obtain ⟨e, he, rfl⟩ := List.mem_map.1 hr
    exact (h.storable e he).2

theorem recordsOf_subset (hA : ∀ e ∈ A, e ∈ S) {r : StoredEvent}
    (hr : r ∈ recordsOf codec A) : r ∈ recordsOf codec S := by
  obtain ⟨e, he, rfl⟩ := List.mem_map.1 hr
  exact List.mem_map_of_mem (hA e he)

variable (h : Deliverable codec S)
include h

theorem Deliverable.coherent (hu : Underway (recordsOf codec S) posted (Course.opening initial)) (hA : ∀ e ∈ A, e ∈ S) :
    Coherent (initialMaps initial) (recordsOf codec A) := by
  have hkeys := h.known.keys
  refine ⟨fun r hr d hd => ?_, fun r hr _ i hi => ?_, fun r hr r' hr' _ hid => ?_⟩
  · have happlied : (Course.opening initial).books.applied.get? r.eventId = some d := hd
    rw [hu.books.applied, Books.get?_applied_post _ hu.nodup] at happlied
    rcases happlied with ⟨x, hx, hid, rfl⟩ | ⟨-, hnone⟩
    · rw [hkeys x (hu.mem x hx) r (recordsOf_subset hA hr) hid]
    · cases hnone
  · obtain ⟨x, hx, hid, w, -, -, rfl⟩ := hu.issues r.eventId i hi
    show x.digest = r.digest
    rw [hkeys x hx r (recordsOf_subset hA hr) hid]
  · rw [hkeys r (recordsOf_subset hA hr) r' (recordsOf_subset hA hr') hid]

theorem Deliverable.ascends (hA : ∀ e ∈ A, e ∈ S)
    (initial : Option SnapshotRecord) : (canonicalRecords codec initial A).Pairwise Ascends := by
  have hsorted := sortBy_pairwise_le eventOrder
    (collected (initialMaps initial) (recordsOf codec A)).unique
  have hnodup : (canonicalRecords codec initial A).Nodup := (nodup_canonicalRecords codec initial A).of_map
  have hmem : ∀ r ∈ canonicalRecords codec initial A, r ∈ recordsOf codec S := fun r hr => by
    obtain ⟨⟨e, he, rfl⟩, -⟩ := mem_canonicalRecords hr
    exact List.mem_map_of_mem (hA e he)
  refine (hsorted.and hnodup).imp_of_mem fun {r x} hr hx hle hs => ?_
  refine lt_of_le_of_ne (sequence_le_of_eventOrder_le hs hle.1) fun heq => hle.2 ?_
  exact h.known.places r (hmem r hr) x (hmem x hx) hs heq

theorem Deliverable.course (hu : Underway (recordsOf codec S) posted (Course.opening initial)) (hA : ∀ e ∈ A, e ∈ S) :
    ∃ posted', Underway (recordsOf codec S) posted' (courseOf codec initial A) ∧
      ∀ r ∈ recordsOf codec A, r ∉ posted' → Noted (courseOf codec initial A) r := by
  have hkeysA : KeyDecides idOf A := h.keys.subset hA
  have hfresh : ∀ r ∈ recordsOf codec A, r ∉ posted → (initialMaps initial).applied.get? r.eventId = none := by
    intro r hr hnot
    rw [Dict.get?_eq_none_iff]
    exact fun hkey => hnot ((hu.applied_iff h.known (recordsOf_subset hA hr)).1 hkey)
  obtain ⟨posted', hu', hsub, hnoted⟩ := @Underway.settle _ _ _ h.known
    (canonicalRecords codec initial A) [] hu
    (fun r hr => by
      obtain ⟨hrecord, hnone⟩ := (mem_canonicalRecords_iff hkeysA).1 hr
      refine ⟨recordsOf_subset hA hrecord, fun hin => ?_⟩
      exact (Dict.get?_eq_none_iff _ _).1 hnone ((hu.applied_iff h.known (recordsOf_subset hA hrecord)).2 hin))
    (nodup_canonicalRecords codec initial A).of_map (by simp) (by simp) (by simp) (h.ascends hA initial)
  refine ⟨posted', hu', fun r hr hnot => hnoted r ?_ hnot⟩
  rw [List.nil_append, mem_canonicalRecords_iff hkeysA]
  exact ⟨hr, hfresh r hr fun hin => hnot (hsub r hin)⟩

variable {settled : List StoredEvent} {c : Course}

theorem Deliverable.replay_ok (hS : Settled (recordsOf codec S) settled c) (hcount : FitsBigint c.books.eventCount)
    (hv : ValidInitial codec initial)
    (hu : Underway (recordsOf codec S) posted (Course.opening initial)) (hA : ∀ e ∈ A, e ∈ S) :
    replay codec .degraded initial A = .ok ((courseOf codec initial A).result codec) := by
  obtain ⟨posted', hu', -⟩ := h.course hu hA
  rw [replay_ok_iff, replayable_iff (h.free.subset hA)]
  refine ⟨hv, ⟨h.reports.subset hA, fun e he => h.storable e (hA e he), h.coherent hu hA, nofun, ?_⟩, rfl⟩
  refine hu'.sound.result_fits codec ?_ fun i hi => ?_
  · -- What was posted is part of what a settled course has posted.
    have hsubset : posted' ⊆ settled := fun r hr => hS.posted_subset h.known hu' hr
    have hle := (List.subperm_of_subset hu'.nodup.of_map hsubset).length_le
    have heq : (courseOf codec initial A).books.eventCount = 0 + posted'.length := by
      rw [hu'.books.eventCount, Books.post_eventCount]
      rfl
    have heqS : c.books.eventCount = 0 + settled.length := by
      rw [hS.books.eventCount, Books.post_eventCount]
      rfl
    unfold FitsBigint at hcount ⊢
    omega
  · obtain ⟨e, he, rfl⟩ := List.mem_map.1 hi
    obtain ⟨r, hr, -, w, hpos, hlt, heq⟩ := hu'.issues e.1 e.2
      ((Dict.get?_eq_some_iff hu'.sound.issueNodup).2 he)
    rw [heq]
    have hfits := h.known.fits r hr
    refine ⟨⟨h.known.positive r hr, hfits⟩, hpos, ?_⟩
    show w ≤ postgresBigintMax
    unfold FitsBigint at hfits
    omega

omit h

theorem deliverable_of_replay {rS : ReplayResult} (hplaces : PlacesDistinct S)
    (hfree : CollisionFree codec.toLedgerCodec S) (hS : replay codec .degraded none S = .ok rS) :
    Deliverable codec S ∧ (courseOf codec none S).result codec = rS := by
  rw [replay_ok_iff, replayable_iff hfree] at hS
  obtain ⟨-, ⟨hreports, hstorable, hcoherent, -, -⟩, hr⟩ := hS
  exact ⟨⟨hreports, hstorable, hcoherent.keyDecides hfree, hplaces, hfree⟩, hr⟩

theorem Deliverable.chain (h : Deliverable codec S)
    (hS : Settled (recordsOf codec S) settled c) (hcount : FitsBigint c.books.eventCount)
    (batches : List (List LedgerEvent)) (hsub : ∀ A ∈ batches, ∀ e ∈ A, e ∈ S) :
    ∃ last, replayChain codec batches = .ok last ∧ ValidInitial codec last ∧
      ∃ posted, Underway (recordsOf codec S) posted (Course.opening last) := by
  induction batches using List.reverseRecOn with
  | nil => exact ⟨none, rfl, validInitial_none codec, [], underway_opening _⟩
  | append_singleton batches A ih =>
    obtain ⟨last, hchain, hv, posted, hu⟩ := ih fun B hB => hsub B (List.mem_append_left _ hB)
    have hA : ∀ e ∈ A, e ∈ S := hsub A (by simp)
    have hreplay := h.replay_ok hS hcount hv hu hA
    have hreduce := hreplay
    rw [replay_eq_reduceEvents] at hreduce
    have hv' := ValidInitial.of_result hreduce
    obtain ⟨posted', hu', -⟩ := h.course hu hA
    refine ⟨some ((courseOf codec last A).result codec), ?_, hv', posted',
      hu'.congr (Course.same_opening_result hu'.sound codec) hv'.sound⟩
    unfold replayChain at hchain ⊢
    rw [List.foldlM_append, hchain, ok_bind, List.foldlM_cons, hreplay, ok_bind, snapshot_of_result hreduce]
    rfl

/-- However its events are delivered in parts, the degraded replay of a set of events from the last
snapshot equals the replay from scratch. -/
theorem degraded_replay_converges {rS : ReplayResult} (hplaces : PlacesDistinct S)
    (hfree : CollisionFree codec.toLedgerCodec S) (hS : replay codec .degraded none S = .ok rS)
    (batches : List (List LedgerEvent)) (hsub : ∀ A ∈ batches, ∀ e ∈ A, e ∈ S) :
    ∃ last, replayChain codec batches = .ok last ∧ replay codec .degraded last S = .ok rS := by
  obtain ⟨h, rfl⟩ := deliverable_of_replay hplaces hfree hS
  have hall : ∀ e ∈ S, e ∈ S := fun _ he => he
  obtain ⟨settled, hu, hnoted⟩ := h.course (underway_opening _) hall
  have hsettled : Settled (recordsOf codec S) settled (courseOf codec none S) := ⟨hu, hnoted⟩
  have hcount : FitsBigint (courseOf codec none S).books.eventCount := by
    rw [replay_ok_iff] at hS
    exact hS.2.1.fits.1.1
  obtain ⟨last, hchain, hv, posted, hlast⟩ := h.chain hsettled hcount batches hsub
  refine ⟨last, hchain, ?_⟩
  rw [h.replay_ok hsettled hcount hv hlast hall]
  obtain ⟨posted', hu', hnoted'⟩ := h.course hlast hall
  have hsettled' : Settled (recordsOf codec S) posted' (courseOf codec last S) := ⟨hu', hnoted'⟩
  rw [(hsettled'.same h.known hsettled).result_eq hu'.sound hu.sound codec]

end Chain

theorem sampleGap_converges : ∃ last r,
    replay (sampleLedgerCodec []) .degraded none (sampleLate :: sampleGap) = .ok r ∧
      replayChain (sampleLedgerCodec []) [[sampleLate], sampleLate :: sampleGap.drop 1, []] = .ok last ∧
      replay (sampleLedgerCodec []) .degraded last (sampleLate :: sampleGap) = .ok r := by
  obtain ⟨r, hr⟩ := isOk_iff.1 (by decide +kernel :
    (replay (sampleLedgerCodec []) .degraded none (sampleLate :: sampleGap)).isOk = true)
  obtain ⟨last, hchain, hlast⟩ := degraded_replay_converges (by
      unfold PlacesDistinct
      decide +kernel)
    (by
      unfold CollisionFree
      decide +kernel) hr [[sampleLate], sampleLate :: sampleGap.drop 1, []] (by decide +kernel)
  exact ⟨last, r, hr, hchain, hlast⟩

end TradingAgent.EventLedger
