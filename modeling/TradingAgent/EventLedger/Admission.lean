import TradingAgent.EventLedger.Books
import TradingAgent.EventLedger.Batch

/-! When a batch is reduced: the checks of the reducer as a course through the ordered records. -/

namespace TradingAgent.EventLedger

open Outcome

structure Course where
  books : Books
  issues : Dict Uuid ReplayIssue

namespace Course

def opening (initial : Option SnapshotRecord) : Course :=
  ⟨Books.opening initial, (initialMaps initial).unresolved⟩

def offer (c : Course) (r : StoredEvent) : Course :=
  if r.sequence = c.books.wanted r.streamId then ⟨c.books.push r, c.issues.erase r.eventId⟩
  else ⟨c.books, c.issues.set r.eventId (sequenceIssue (c.books.wanted r.streamId) r)⟩

def offerAll (c : Course) (records : List StoredEvent) : Course := records.foldl offer c

def InOrder : Course → List StoredEvent → Prop
  | _, [] => True
  | c, r :: rs => r.sequence = c.books.wanted r.streamId ∧ (c.offer r).InOrder rs

def result (codec : ReplayCodec) (c : Course) : ReplayResult :=
  assembleResult codec c.books.state c.issues

end Course

structure Tracks (initial : Option SnapshotRecord) (acc : Admission) (c : Course) : Prop where
  books : c.books = (Books.opening initial).post acc.valid
  issues : c.issues = acc.unresolved
  nodup : acc.expected.keys.Nodup
  expected : ∀ s, acc.expected.get? s = (c.books.heads.get? s).map fun p => p.lastSequence + 1

section Loop

variable {initial : Option SnapshotRecord} {acc : Admission} {c : Course} {policy : ReducerPolicy}

theorem Tracks.opening (initial : Option SnapshotRecord) (h : StreamsDistinct initial) :
    Tracks initial ⟨(initialMaps initial).expected, (initialMaps initial).unresolved, []⟩ (.opening initial) := by
  refine ⟨rfl, rfl, ?_, fun s => ?_⟩
  · cases initial with
    | none => exact List.nodup_nil
    | some snapshot => exact Dict.nodup_keys_ofList _
  · cases initial with
    | none => rfl
    | some snapshot =>
      have hkeys : Dict.keys (snapshot.state.streams.map fun p => (p.streamId, p.lastSequence + 1)) =
          snapshot.state.streams.map StreamProjection.streamId := by
        simp [Dict.keys]
      have hdistinct : (snapshot.state.streams.map StreamProjection.streamId).Nodup := h
      show (Dict.ofList _).get? s = ((Dict.byKey StreamProjection.streamId snapshot.state.streams).get? s).map _
      rw [Dict.ofList_of_nodup (by rwa [hkeys]), Dict.get?_byKey hdistinct]
      ext n
      rw [Dict.get?_eq_some_iff (by rwa [hkeys]), List.mem_map, Option.map_eq_some_iff]
      constructor
      · rintro ⟨p, hp, heq⟩
        obtain ⟨hid, hn⟩ := Prod.mk.inj heq
        exact ⟨p, (lookupBy_eq_some_iff hdistinct).2 ⟨hp, hid⟩, hn⟩
      · rintro ⟨p, hp, hn⟩
        obtain ⟨hmem, hid⟩ := lookupBy_some hp
        exact ⟨p, hmem, by rw [hid, hn]⟩

variable (h : Tracks initial acc c)
include h

theorem Tracks.wanted (s : Uuid) : (acc.expected.get? s).getD 1 = c.books.wanted s := by
  rw [h.expected]
  unfold Books.wanted
  cases c.books.heads.get? s <;> rfl

variable {acc' : Admission}

theorem Tracks.step (r : StoredEvent) (hok : admitRecord policy acc r = .ok acc') :
    Tracks initial acc' (c.offer r) ∧ (policy = .default → r.sequence = c.books.wanted r.streamId) := by
  unfold admitRecord at hok
  rw [h.wanted] at hok
  unfold Course.offer
  by_cases hseq : r.sequence = c.books.wanted r.streamId
  · simp only [hseq, ne_eq, not_true_eq_false, if_false, Except.ok.injEq] at hok
    subst hok
    refine ⟨?_, fun _ => hseq⟩
    rw [if_pos hseq]
    refine ⟨?_, by rw [h.issues], Dict.nodup_keys_set _ _ _ h.nodup, fun s => ?_⟩
    · rw [Books.post_concat, ← h.books]
    · show _ = ((c.books.heads.set _ _).get? s).map _
      rw [Dict.get?_set, Dict.get?_set, h.expected]
      split_ifs
      · simp [hseq]
      · rfl
  · simp only [ne_eq, hseq, not_false_eq_true, if_true] at hok
    rw [if_neg hseq]
    cases policy with
    | default => cases hok
    | degraded =>
      obtain rfl := Except.ok.inj hok
      exact ⟨⟨h.books, by rw [h.issues], h.nodup, h.expected⟩, fun hp => by cases hp⟩

theorem Tracks.round_ok (r : StoredEvent) (hseq : policy = .default → r.sequence = c.books.wanted r.streamId) :
    ∃ acc', admitRecord policy acc r = .ok acc' := by
  unfold admitRecord
  rw [h.wanted]
  cases policy with
  | default => exact ⟨_, if_neg (not_not.2 (hseq rfl))⟩
  | degraded =>
    simp only
    split_ifs <;> exact ⟨_, rfl⟩

variable {records : List StoredEvent}

theorem Tracks.loop (hok : records.foldlM (admitRecord policy) acc = .ok acc') :
    Tracks initial acc' (c.offerAll records) ∧ (policy = .default → c.InOrder records) := by
  induction records generalizing acc c with
  | nil =>
    obtain rfl := Except.ok.inj hok
    exact ⟨h, fun _ => trivial⟩
  | cons r rs ih =>
    rw [List.foldlM_cons, bind_ok_iff] at hok
    obtain ⟨acc₁, hstep, hrest⟩ := hok
    obtain ⟨h₁, hseq⟩ := h.step r hstep
    obtain ⟨h', horder⟩ := ih h₁ hrest
    exact ⟨h', fun hp => ⟨hseq hp, horder hp⟩⟩

theorem Tracks.loop_ok (horder : policy = .default → c.InOrder records) :
    ∃ acc', records.foldlM (admitRecord policy) acc = .ok acc' := by
  induction records generalizing acc c with
  | nil => exact ⟨acc, rfl⟩
  | cons r rs ih =>
    obtain ⟨acc₁, hstep⟩ := h.round_ok r fun hp => (horder hp).1
    obtain ⟨acc', hrest⟩ := ih (h.step r hstep).1 fun hp => (horder hp).2
    exact ⟨acc', by rw [List.foldlM_cons, hstep, ok_bind, hrest]⟩

theorem Tracks.keys (s : Uuid) : s ∈ acc.expected.keys ↔ s ∈ ((Books.opening initial).post acc.valid).heads.keys := by
  rw [Dict.mem_keys_iff, h.expected, Dict.mem_keys_iff, ← h.books, Option.isSome_map]

end Loop

variable (codec : ReplayCodec)

/-- The snapshot, if any, is valid. -/
def ValidInitial (initial : Option SnapshotRecord) : Prop :=
  ∀ snapshot, initial = some snapshot → validateSnapshot codec snapshot = .ok snapshot

def recordsOf (events : List LedgerEvent) : List StoredEvent := events.map (recordOf codec.toLedgerCodec)

def canonicalRecords (initial : Option SnapshotRecord) (events : List LedgerEvent) : List StoredEvent :=
  sortBy eventOrder (collected (initialMaps initial) (recordsOf codec events)).unique

def courseOf (initial : Option SnapshotRecord) (events : List LedgerEvent) : Course :=
  (Course.opening initial).offerAll (canonicalRecords codec initial events)

def ReplayResult.Fits (r : ReplayResult) : Prop := r.state.Fits ∧ ∀ i ∈ r.issues, i.Fits

structure Replayable (policy : ReducerPolicy) (initial : Option SnapshotRecord)
    (events : List LedgerEvent) : Prop where
  reports : ∃ batch, validateExecutionReportEvents events = .ok batch
  storable : ∀ e ∈ events, Storable codec.toLedgerCodec e
  coherent : Coherent (initialMaps initial) (recordsOf codec events)
  inOrder : policy = .default → (Course.opening initial).InOrder (canonicalRecords codec initial events)
  fits : ((courseOf codec initial events).result codec).Fits

variable {codec} {policy : ReducerPolicy} {initial : Option SnapshotRecord} {events : List LedgerEvent}

theorem validateSnapshot_ok_iff {snapshot snapshot' : SnapshotRecord} :
    validateSnapshot codec snapshot = .ok snapshot' ↔ (snapshot.Fits ∧ validateSnapshotStructure snapshot = .ok () ∧
      (snapshot.canonicalStateJson = codec.stateJson snapshot.state snapshot.status snapshot.issues ∧
        snapshot.stateHash = eventDigest codec.toLedgerCodec
          (codec.stateJson snapshot.state snapshot.status snapshot.issues))) ∧ snapshot = snapshot' := by
  unfold validateSnapshot
  simp only [bind_ok_iff, require_ok_iff, exists_const, Except.ok.injEq]
  constructor
  · rintro ⟨hfits, _, hstructure, hjson, heq⟩
    exact ⟨⟨hfits, hstructure, hjson⟩, heq⟩
  · rintro ⟨⟨hfits, hstructure, hjson⟩, heq⟩
    exact ⟨hfits, (), hstructure, hjson, heq⟩

theorem ValidInitial.streamsDistinct (h : ValidInitial codec initial) : StreamsDistinct initial := by
  cases initial with
  | none => exact List.nodup_nil
  | some snapshot =>
    have hstructure := (validateSnapshot_ok_iff.1 (h snapshot rfl)).1.2.1
    unfold validateSnapshotStructure at hstructure
    simp only [bind_ok_iff, require_ok_iff, exists_const] at hstructure
    exact hstructure.2.2.2.2.2.2.2.2.1

theorem reduceEvents_of_valid (h : ValidInitial codec initial) : reduceEvents codec policy initial events =
    match validateExecutionReportEvents events with
    | .error _ => .error (.replayError "invalid execution report batch")
    | .ok _ => reduceBatch codec policy initial events := by
  unfold reduceEvents
  cases initial with
  | none => cases validateExecutionReportEvents events <;> rfl
  | some snapshot =>
    simp only [h snapshot rfl]
    cases validateExecutionReportEvents events <;> rfl

variable {r : ReplayResult}

theorem reduceBatch_ok_iff (h : StreamsDistinct initial) :
    reduceBatch codec policy initial events = .ok r ↔ (∀ e ∈ events, Storable codec.toLedgerCodec e) ∧
        Coherent (initialMaps initial) (recordsOf codec events) ∧
        (policy = .default → (Course.opening initial).InOrder (canonicalRecords codec initial events)) ∧
        ((courseOf codec initial events).result codec).Fits ∧ (courseOf codec initial events).result codec = r := by
  unfold reduceBatch
  simp only [bind_ok_iff, mapM_fromEnvelope_ok_iff, collect_ok_iff, require_ok_iff, exists_const, Except.ok.injEq]
  -- The state of the loop is the course that it tracks.
  have hresult : ∀ admission, Tracks initial admission (courseOf codec initial events) →
      assembleResult codec (assembleState initial (initialMaps initial) admission.expected admission.valid)
        admission.unresolved = (courseOf codec initial events).result codec := by
    intro admission htracks
    rw [assembleState_eq h htracks.nodup _ htracks.keys, ← htracks.books, ← htracks.issues]
    rfl
  constructor
  · rintro ⟨_, ⟨hstorable, rfl⟩, _, ⟨hcoherent, rfl⟩, admission, hloop, hfits, hr⟩
    obtain ⟨htracks, horder⟩ := (Tracks.opening initial h).loop hloop
    rw [hresult admission htracks] at hfits hr
    exact ⟨hstorable, hcoherent, horder, hfits, hr⟩
  · rintro ⟨hstorable, hcoherent, horder, hfits, hr⟩
    obtain ⟨admission, hloop⟩ := (Tracks.opening initial h).loop_ok horder
    have heq := hresult admission ((Tracks.opening initial h).loop hloop).1
    refine ⟨_, ⟨hstorable, rfl⟩, _, ⟨hcoherent, rfl⟩, admission, hloop, ?_⟩
    rw [heq]
    exact ⟨hfits, hr⟩

theorem validInitial_of_ok (h : reduceEvents codec policy initial events = .ok r) : ValidInitial codec initial := by
  rintro snapshot rfl
  unfold reduceEvents at h
  cases hv : validateSnapshot codec snapshot with
  | error e =>
    simp only [hv] at h
    cases h
  | ok snapshot' =>
    obtain rfl := (validateSnapshot_ok_iff.1 hv).2
    rfl

theorem reduceEvents_ok_iff {r : ReplayResult} :
    reduceEvents codec policy initial events = .ok r ↔ ValidInitial codec initial ∧
      Replayable codec policy initial events ∧ (courseOf codec initial events).result codec = r := by
  constructor
  · intro h
    have hvalid := validInitial_of_ok h
    rw [reduceEvents_of_valid hvalid] at h
    cases hreports : validateExecutionReportEvents events with
    | error e =>
      rw [hreports] at h
      cases h
    | ok batch =>
      rw [hreports] at h
      obtain ⟨hstorable, hcoherent, horder, hfits, hr⟩ :=
        (reduceBatch_ok_iff hvalid.streamsDistinct).1 h
      exact ⟨hvalid, ⟨⟨batch, hreports⟩, hstorable, hcoherent, horder, hfits⟩, hr⟩
  · rintro ⟨hvalid, ⟨⟨batch, hreports⟩, hstorable, hcoherent, horder, hfits⟩, hr⟩
    rw [reduceEvents_of_valid hvalid, hreports]
    exact (reduceBatch_ok_iff hvalid.streamsDistinct).2 ⟨hstorable, hcoherent, horder, hfits, hr⟩

theorem replay_eq_reduceEvents (policy : ReducerPolicy) (initial : Option SnapshotRecord) (events : List LedgerEvent) :
    replay codec policy initial events = reduceEvents codec policy initial events := by
  unfold replay
  cases initial with
  | none => rfl
  | some snapshot =>
    cases hv : validateSnapshot codec snapshot with
    | error e =>
      unfold reduceEvents
      simp only [hv]
      rfl
    | ok snapshot' =>
      obtain rfl := (validateSnapshot_ok_iff.1 hv).2
      simp only [hv]
      rfl

theorem replay_ok_iff : replay codec policy initial events = .ok r ↔ ValidInitial codec initial ∧
      Replayable codec policy initial events ∧ (courseOf codec initial events).result codec = r := by
  rw [replay_eq_reduceEvents, reduceEvents_ok_iff]

end TradingAgent.EventLedger
