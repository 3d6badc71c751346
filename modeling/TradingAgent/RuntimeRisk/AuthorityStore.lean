import TradingAgent.EventLedger.RepositoryReplay
import TradingAgent.RuntimeRisk.HaltReplay

/-! The repository of the authority: its log of insertions. -/

namespace TradingAgent.RuntimeRisk

open Outcome Interaction EventLedger

/-- An event that a process inserted. -/
structure Insertion where
  process : ℕ
  event : LedgerEvent
  outbox : OutboxIntent

/-- The log of a repository. -/
structure AuthorityStore where
  ledger : InMemoryEventLedger
  log : List Insertion

def AuthorityStore.empty : AuthorityStore := ⟨.empty, []⟩

theorem log_prefix_rfl (s : AuthorityStore) : s.log <+: s.log := List.prefix_rfl

theorem log_prefix_trans {s t u : AuthorityStore} : s.log <+: t.log → t.log <+: u.log → s.log <+: u.log :=
  List.IsPrefix.trans

/-- How the ledger answers process `n`. -/
def serve (codec : AuthorityCodec) : Server AuthorityStore RepositoryReply
  | n, .append event outbox, store =>
    match (append codec.ledger event outbox).run store.ledger with
    | .ok outcome ledger =>
      (.ok outcome, ⟨ledger, if outcome.inserted then store.log ++ [⟨n, event, outbox⟩] else store.log⟩)
    | .error e ledger => (.error e, ⟨ledger, store.log⟩)
  | _, .loadEvents, store => (loadEvents codec.ledger store.ledger, store)

/-- The inserted events. -/
def eventsOf (log : List Insertion) : List LedgerEvent := log.map Insertion.event

def historyOf (log : List Insertion) : List LedgerEntry :=
  log.map fun i => (.append i.event i.outbox, .ok (.appended ⟨i.event.eventId, true⟩))

variable {codec : AuthorityCodec} {store : AuthorityStore} {n : ℕ} {event : LedgerEvent}
  {outbox : OutboxIntent} {log : List Insertion}

theorem eventsOf_append (log later : List Insertion) : eventsOf (log ++ later) = eventsOf log ++ eventsOf later :=
  List.map_append

theorem insertions_historyOf (log : List Insertion) :
    insertions (historyOf log) = log.map fun i => (i.event, i.outbox) := by
  unfold insertions historyOf
  rw [List.filterMap_map]
  exact congrFun List.filterMap_eq_map log

theorem insertedEvents_historyOf (log : List Insertion) : insertedEvents (historyOf log) = eventsOf log := by
  unfold insertedEvents eventsOf
  rw [insertions_historyOf, List.map_map]
  rfl

variable (codec) in
def Recorded (store : AuthorityStore) : Prop := Accounts codec.ledger (historyOf store.log) store.ledger

theorem recorded_empty : Recorded codec .empty := (runCalls_accounts codec.ledger [] :)

inductive AppendServed (codec : AuthorityCodec) (n : ℕ) (event : LedgerEvent) (outbox : OutboxIntent)
    (store : AuthorityStore) : Except LedgerFailure AppendOutcome × AuthorityStore → Prop
  | refused (e : LedgerFailure) : AppendServed codec n event outbox store (.error e, store)
  | repeated : AppendServed codec n event outbox store (.ok ⟨event.eventId, false⟩, store)
  | inserted (ledger : InMemoryEventLedger)
      (hnew : event.eventId ∉ (eventsOf store.log).map fun e => e.eventId)
      (hnext : event.sequence = (ofStream event.streamId (eventsOf store.log)).length + 1)
      (hrecorded : Recorded codec ⟨ledger, store.log ++ [⟨n, event, outbox⟩]⟩) :
      AppendServed codec n event outbox store
        (.ok ⟨event.eventId, true⟩, ⟨ledger, store.log ++ [⟨n, event, outbox⟩]⟩)

theorem serve_append (h : Recorded codec store) :
    AppendServed codec n event outbox store (serve codec n (.append event outbox) store) := by
  have hspec := @append_spec codec.ledger event outbox store.ledger
  unfold serve
  simp only
  generalize (append codec.ledger event outbox).run store.ledger = result at hspec
  cases hspec with
  | refused e => exact .refused e
  | repeated => exact .repeated
  | inserted hadmissible _ hnew hnext =>
    refine .inserted _ ?_ ?_ ?_
    · rw [h.keys, insertions_historyOf, List.map_map] at hnew
      unfold eventsOf
      rw [List.map_map]
      exact hnew
    · rw [h.nextSequence, insertedEvents_historyOf] at hnext
      exact hnext
    · have hinsert := h.insert hadmissible hnew hnext
      unfold Recorded historyOf
      rw [List.map_append]
      exact hinsert

def loadedEvents (codec : AuthorityCodec) (log : List Insertion) : List LedgerEvent :=
  sortBy (storedOrder codec.ledger) (eventsOf log)

theorem serve_load (hround : codec.ledger.RoundTrips) (h : Recorded codec store) :
    serve codec n .loadEvents store = (.ok (loadedEvents codec store.log), store) := by
  show (loadEvents codec.ledger store.ledger, store) = _
  rw [Accounts.loadEvents h hround, insertedEvents_historyOf]
  rfl

theorem mem_loadedEvents : event ∈ loadedEvents codec log ↔ event ∈ eventsOf log := mem_sortBy _ _ event

variable (h : Recorded codec store)
include h

theorem Recorded.storable (hevent : event ∈ eventsOf store.log) : codec.ledger.storable event = true := by
  rw [← insertedEvents_historyOf] at hevent
  exact (Accounts.storable h event hevent).1

theorem Recorded.distinct : ((eventsOf store.log).map (·.eventId)).Nodup := by
  have hdistinct := Accounts.distinct h
  rw [insertions_historyOf, List.map_map] at hdistinct
  unfold eventsOf
  rw [List.map_map]
  exact hdistinct

theorem Recorded.sequences (s : Uuid) : (ofStream s (eventsOf store.log)).map (·.sequence) =
      List.range' 1 (ofStream s (eventsOf store.log)).length := by
  have hcontiguous := Accounts.contiguous h s
  rw [insertedEvents_historyOf] at hcontiguous
  exact hcontiguous

theorem Recorded.ofStream_loadedEvents (s : Uuid) :
    ofStream s (loadedEvents codec store.log) = ofStream s (eventsOf store.log) := by
  have hnodup : ((eventsOf store.log).map (storedOrder codec.ledger)).Nodup := by
    refine List.Nodup.of_map (fun k : Uuid ×ₗ ℕ ×ₗ Uuid => (ofLex (ofLex k).2).2) ?_
    rw [List.map_map]
    exact h.distinct
  refine @eq_of_perm_of_pairwise_lt _ _ _ (storedOrder codec.ledger) _ _ ((sortBy_perm _ _).filter _)
    ((sortBy_pairwise_lt _ _ hnodup).filter _) ?_
  have hsorted : ((ofStream s (eventsOf store.log)).map (·.sequence)).Pairwise (· < ·) := by
    rw [h.sequences]
    exact List.pairwise_lt_range' 1
  refine (List.pairwise_map.1 hsorted).imp_of_mem fun {a b} ha hb hlt => ?_
  have hstream : a.streamId = b.streamId := by
    rw [of_decide_eq_true (List.mem_filter.1 ha).2, of_decide_eq_true (List.mem_filter.1 hb).2]
  exact Prod.Lex.toLex_lt_toLex.2 (.inr ⟨hstream, Prod.Lex.toLex_lt_toLex.2 (.inl hlt)⟩)

omit h

theorem Recorded.replay_ok_iff (hround : codec.ledger.RoundTrips) (h : Recorded codec store) {s : Uuid}
    {r : GlobalHaltReplay} : replayGlobalHaltAuthority codec (loadedEvents codec store.log) s = .ok r ↔
      streamReplay codec s (ofStream s (eventsOf store.log)) = .ok r := by
  rw [replayGlobalHaltAuthority_ok_iff hround fun event hevent => h.storable (mem_loadedEvents.1 hevent),
    h.ofStream_loadedEvents]

end TradingAgent.RuntimeRisk
