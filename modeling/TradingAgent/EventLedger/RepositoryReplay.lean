import TradingAgent.EventLedger.RepositoryRuns
import TradingAgent.EventLedger.Incremental

/-! Whether the events of a repository can be replayed. -/

namespace TradingAgent.EventLedger

open Outcome

section Stored

variable {codec : RepositoryCodec} {history : List LedgerEntry} {ledger : InMemoryEventLedger}

variable (h : Accounts codec history ledger)
include h

theorem Accounts.canonicalRecords :
    canonicalRecords codec.toReplayCodec none (sortBy (storedOrder codec) (insertedEvents history)) =
      sortBy eventOrder ((insertedEvents history).map (stored codec)) := by
  have hperm := (sortBy_perm (storedOrder codec) (insertedEvents history)).map (stored codec)
  have hnodup : (((insertedEvents history).map (stored codec)).map recordId).Nodup := by
    rw [List.map_map]
    unfold insertedEvents
    rw [List.map_map]
    exact h.distinct
  have hsorted := ((hperm.map recordId).nodup_iff).2 hnodup
  unfold EventLedger.canonicalRecords collected freshRecords
  have hall : (recordsOf codec.toReplayCodec (sortBy (storedOrder codec) (insertedEvents history))).filter
      (fun r => ((initialMaps none).applied.get? r.eventId).isNone) =
      (sortBy (storedOrder codec) (insertedEvents history)).map (stored codec) :=
    List.filter_eq_self.2 fun _ _ => rfl
  rw [hall, firstsBy_of_nodup hsorted]
  refine sortBy_congr_perm hperm ?_
  refine List.Nodup.of_map (fun k : Uuid ×ₗ ℕ ×ₗ Uuid => (ofLex (ofLex k).2).2) ?_
  rw [List.map_map]
  exact hsorted

theorem Accounts.keyDecides : KeyDecides idOf (sortBy (storedOrder codec) (insertedEvents history)) := by
  intro e he e' he' hid
  rw [mem_sortBy] at he he'
  have hnodup : ((insertedEvents history).map idOf).Nodup := by
    unfold insertedEvents
    rw [List.map_map]
    exact h.distinct
  exact List.inj_on_of_nodup_map hnodup he he' hid

theorem Accounts.inOrder : (Course.opening none).InOrder (EventLedger.canonicalRecords codec.toReplayCodec none
      (sortBy (storedOrder codec) (insertedEvents history))) := by
  rw [Course.inOrder_iff]
  intro s
  have hsorted := ofStream_canonicalRecords_sorted codec.toReplayCodec none
    (sortBy (storedOrder codec) (insertedEvents history)) s
  have hperm : (Books.ofStream s (EventLedger.canonicalRecords codec.toReplayCodec none
      (sortBy (storedOrder codec) (insertedEvents history)))).Perm
      (((insertedEvents history).filter fun e => e.streamId = s).map (stored codec)) := by
    rw [h.canonicalRecords]
    have hfilter := (sortBy_perm eventOrder ((insertedEvents history).map (stored codec))).filter
      fun r => decide (r.streamId = s)
    rwa [List.filter_map] at hfilter
  have hseqs : (((insertedEvents history).filter fun e => e.streamId = s).map (stored codec)).map
      StoredEvent.sequence =
      List.range' 1 ((insertedEvents history).filter fun e => e.streamId = s).length := by
    rw [List.map_map]
    exact h.contiguous s
  have hlength := hperm.length_eq
  rw [List.length_map] at hlength
  rw [hlength]
  refine sorted_unique hsorted (range'_sorted _ _) ?_
  exact (hperm.map StoredEvent.sequence).trans (by rw [hseqs]; exact List.Perm.refl _)

theorem Accounts.storable (e : LedgerEvent) (he : e ∈ insertedEvents history) : Storable codec.toLedgerCodec e := by
  obtain ⟨p, hp, rfl⟩ := List.mem_map.1 he
  exact (h.admissible p hp).storable

theorem Accounts.no_issues : (courseOf codec.toReplayCodec none
      (sortBy (storedOrder codec) (insertedEvents history))).issues = [] :=
  Dict.eq_nil_of_get? (h.inOrder.issues fun _ => rfl)

theorem Accounts.eventCount : (courseOf codec.toReplayCodec none
      (sortBy (storedOrder codec) (insertedEvents history))).books.eventCount = (insertions history).length := by
  have hbooks : (courseOf codec.toReplayCodec none (sortBy (storedOrder codec) (insertedEvents history))).books =
      (Books.opening none).post _ := h.inOrder.books
  rw [hbooks, Books.post_eventCount, h.canonicalRecords, (sortBy_perm _ _).length_eq, List.length_map]
  unfold insertedEvents
  rw [List.length_map]
  exact Nat.zero_add _

end Stored

/-- A replay of the ledger is complete exactly when the execution reports have different identities and the
count fits. -/
theorem ledger_replays_iff (codec : RepositoryCodec) (hround : codec.RoundTrips) (calls : List LedgerCall) :
    (∃ events r, loadEvents codec (runCalls codec calls).1 = .ok events ∧
      replay codec.toReplayCodec .default none events = .ok r ∧ r.status = .complete ∧
      r.state.eventCount = (insertions (runCalls codec calls).2).length) ↔
      ReportsDistinct (insertedEvents (runCalls codec calls).2) ∧
        FitsBigint (insertions (runCalls codec calls).2).length := by
  have h := runCalls_accounts codec calls
  generalize (runCalls codec calls).1 = ledger at h ⊢
  generalize (runCalls codec calls).2 = history at h ⊢
  have hlength : (insertions history).length =
      (sortBy (storedOrder codec) (insertedEvents history)).length := by
    rw [(sortBy_perm _ _).length_eq]
    exact (List.length_map _).symm
  have hreports := validateExecutionReportEvents_ok_iff h.keyDecides
  constructor
  · rintro ⟨events, r, hload, hreplay, -, hcount⟩
    rw [h.loadEvents hround] at hload
    obtain rfl := Except.ok.inj hload
    obtain ⟨-, hreplayable, rfl⟩ := replay_ok_iff.1 hreplay
    refine ⟨(hreports.1 hreplayable.reports).subset fun e he => (mem_sortBy _ _ e).2 he, ?_⟩
    rw [← hcount]
    exact hreplayable.fits.1.1
  · rintro ⟨hdistinct, hfits⟩
    refine ⟨_, _, h.loadEvents hround, replay_ok_iff.2 ⟨validInitial_none _, ⟨?_, ?_, ?_, ?_, ?_⟩, rfl⟩,
      ?_, ?_⟩
    · exact hreports.2 (hdistinct.subset fun e he => (mem_sortBy _ _ e).1 he)
    · exact fun e he => h.storable e ((mem_sortBy _ _ e).1 he)
    · refine coherent_none_iff.2 fun r hr r' hr' hid => ?_
      rw [keyDecides_records h.keyDecides codec.toReplayCodec r hr r' hr' hid]
    · exact fun _ => h.inOrder
    · refine (courseOf_none_sound _ _).result_fits _ ?_ fun i hi => ?_
      · rw [h.eventCount]
        exact hfits
      · rw [h.no_issues] at hi
        cases hi
    · show (if sortBy issueOrder (courseOf _ none _).issues.values = [] then ReplayStatus.complete else _) = _
      rw [h.no_issues]
      rfl
    · exact h.eventCount

theorem sampleHead_replays : ∃ events r, loadEvents (sampleRepositoryCodec sampleHead)
        (runCalls (sampleRepositoryCodec sampleHead) (sampleHead.map sampleAppend)).1 = .ok events ∧
      replay (sampleRepositoryCodec sampleHead).toReplayCodec .default none events = .ok r ∧
      r.status = .complete ∧ r.state.eventCount =
        (insertions (runCalls (sampleRepositoryCodec sampleHead) (sampleHead.map sampleAppend)).2).length := by
  have hround : (sampleRepositoryCodec sampleHead).RoundTrips := sampleRepositoryCodec_roundTrips (by decide +kernel)
  have hinserted : insertedEvents (runCalls (sampleRepositoryCodec sampleHead)
      (sampleHead.map sampleAppend)).2 = sampleHead := by
    decide +kernel
  refine (ledger_replays_iff _ hround _).2 ⟨?_, by decide +kernel⟩
  rw [hinserted]
  intro e he e' he' hne r r' hr hr'
  rcases List.mem_pair.1 he with rfl | rfl <;> rcases List.mem_pair.1 he' with rfl | rfl
  · exact absurd rfl hne
  · cases hr'
  · cases hr
  · exact absurd rfl hne

/-- The ledger takes two reports of one execution and can be replayed no more. -/
theorem repeated_execution_stops_replay :
    ∃ events, loadEvents (sampleRepositoryCodec [sampleFillEvent 1 7 11, sampleFillEvent 2 8 11])
        (runCalls (sampleRepositoryCodec [sampleFillEvent 1 7 11, sampleFillEvent 2 8 11])
          ([sampleFillEvent 1 7 11, sampleFillEvent 2 8 11].map sampleAppend)).1 = .ok events ∧
      (insertions (runCalls (sampleRepositoryCodec [sampleFillEvent 1 7 11, sampleFillEvent 2 8 11])
        ([sampleFillEvent 1 7 11, sampleFillEvent 2 8 11].map sampleAppend)).2).length = 2 ∧
      replay (sampleRepositoryCodec [sampleFillEvent 1 7 11, sampleFillEvent 2 8 11]).toReplayCodec
        .default none events = .error (.replayError "invalid execution report batch") := by
  have hload : ((loadEvents (sampleRepositoryCodec [sampleFillEvent 1 7 11, sampleFillEvent 2 8 11])
      (runCalls (sampleRepositoryCodec [sampleFillEvent 1 7 11, sampleFillEvent 2 8 11])
        ([sampleFillEvent 1 7 11, sampleFillEvent 2 8 11].map sampleAppend)).1).toOption.any fun events =>
      decide (events = [sampleFillEvent 1 7 11, sampleFillEvent 2 8 11])) = true := by
    decide +kernel
  obtain ⟨events, hevents, rfl⟩ := exists_ok_of_any hload
  refine ⟨_, hevents, by decide +kernel, by decide +kernel⟩

end TradingAgent.EventLedger
