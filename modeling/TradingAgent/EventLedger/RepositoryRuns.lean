import TradingAgent.EventLedger.Repository
import TradingAgent.EventLedger.Snapshots
import TradingAgent.Lib.Sorting

/-! In every run of a repository each event is inserted once and kept. -/

namespace TradingAgent.EventLedger

open Outcome

variable {codec : RepositoryCodec}

/-! ## What a call can do -/

namespace InMemoryEventLedger

def streamRecords (ledger : InMemoryEventLedger) (streamId : Uuid) : List StoredEvent :=
  ledger.events.values.filter fun r => r.streamId = streamId

def nextSequence (ledger : InMemoryEventLedger) (streamId : Uuid) : ℕ :=
  ((ledger.streamRecords streamId).map StoredEvent.sequence).foldl max 0 + 1

def insert (ledger : InMemoryEventLedger) (record : StoredEvent) (digest : Sha256) (outbox : OutboxIntent) :
    InMemoryEventLedger :=
  { ledger with
    events := ledger.events.set record.eventId record
    appendIdempotency := ledger.appendIdempotency.set record.eventId digest
    outbox := ledger.outbox.set record.eventId outbox }

def publish (ledger : InMemoryEventLedger) (eventId : Uuid) : InMemoryEventLedger :=
  { ledger with
    publications := ledger.publications ++ [eventId]
    outbox := ledger.outbox.erase eventId }

def claim (ledger : InMemoryEventLedger) (consumer : String) (eventId : Uuid) : InMemoryEventLedger :=
  { ledger with inbox := ledger.inbox ++ [(consumer, eventId)] }

def keep (ledger : InMemoryEventLedger) (snapshot : SnapshotRecord) : InMemoryEventLedger :=
  { ledger with snapshots := ledger.snapshots.set snapshot.stateHash snapshot }

end InMemoryEventLedger

variable (codec) in
abbrev stored (event : LedgerEvent) : StoredEvent := recordOf codec.toLedgerCodec event

variable (codec) in
def requestOf (event : LedgerEvent) (outbox : OutboxIntent) : Sha256 :=
  appendRequestDigest codec (stored codec event) outbox

variable (codec) in
structure Admissible (event : LedgerEvent) (outbox : OutboxIntent) : Prop where
  storable : Storable codec.toLedgerCodec event
  intent : outbox.Valid codec
  reference : outbox.eventId = event.eventId

inductive Appends (codec : RepositoryCodec) (event : LedgerEvent) (outbox : OutboxIntent)
    (ledger : InMemoryEventLedger) :
    EStateM.Result LedgerFailure InMemoryEventLedger AppendOutcome → Prop
  | refused (e : LedgerFailure) : Appends codec event outbox ledger (.error e ledger)
  | repeated (h : Admissible codec event outbox)
      (hprior : ledger.appendIdempotency.get? event.eventId = some (requestOf codec event outbox)) :
      Appends codec event outbox ledger (.ok ⟨event.eventId, false⟩ ledger)
  | inserted (h : Admissible codec event outbox)
      (hprior : ledger.appendIdempotency.get? event.eventId = none)
      (hnew : event.eventId ∉ ledger.events.keys)
      (hnext : event.sequence = ledger.nextSequence event.streamId) :
      Appends codec event outbox ledger (.ok ⟨event.eventId, true⟩
        (ledger.insert (stored codec event) (requestOf codec event outbox) outbox))

theorem validateDeliveryOrder_run (record : StoredEvent) (ledger : InMemoryEventLedger) :
    (validateDeliveryOrder record).run ledger =
      if record.sequence = ledger.nextSequence record.streamId then .ok () ledger
      else .error (.deliveryOrder record.streamId (ledger.nextSequence record.streamId) record.sequence)
        ledger := by
  show EStateM.run (if record.sequence ≠ ledger.nextSequence record.streamId then throw _ else pure ())
    ledger = _
  by_cases h : record.sequence = ledger.nextSequence record.streamId
  · rw [if_neg (not_not.2 h), if_pos h]
    rfl
  · rw [if_pos h, if_neg h]
    rfl

variable {event : LedgerEvent} {outbox : OutboxIntent}

theorem append_run (h : Admissible codec event outbox)
    (ledger : InMemoryEventLedger) : (append codec event outbox).run ledger =
      match ledger.appendIdempotency.get? event.eventId with
      | some priorDigest =>
        if priorDigest = requestOf codec event outbox then .ok ⟨event.eventId, false⟩ ledger
        else .error (.eventConflictAbout "conflicting content for event_id" event.eventId) ledger
      | none =>
        if event.eventId ∈ ledger.events.keys then
          .error (.eventConflictAbout "conflicting content for event_id" event.eventId) ledger
        else if event.sequence = ledger.nextSequence event.streamId then
          .ok ⟨event.eventId, true⟩
            (ledger.insert (stored codec event) (requestOf codec event outbox) outbox)
        else .error (.deliveryOrder event.streamId (ledger.nextSequence event.streamId) event.sequence)
          ledger := by
  have hrecord := fromEnvelope_ok_iff.2 ⟨h.storable, rfl⟩
  unfold append
  rw [hrecord]
  have hreference : ¬ outbox.eventId ≠ (stored codec event).eventId := not_not.2 h.reference
  simp only [ofExcept, pure_bind]
  rw [if_neg (not_not.2 h.intent), if_neg hreference]
  simp only [EStateM.run_bind, EStateM.run_get]
  show EStateM.run (match ledger.appendIdempotency.get? event.eventId with
    | some priorDigest => _
    | none => _) ledger = _
  cases ledger.appendIdempotency.get? event.eventId with
  | some priorDigest =>
    show EStateM.run (if priorDigest = requestOf codec event outbox then pure _ else throw _) ledger = _
    simp only
    split_ifs <;> rfl
  | none =>
    show EStateM.run (if event.eventId ∈ ledger.events.keys then _ else _) ledger = _
    have horder : (validateDeliveryOrder (stored codec event)).run ledger =
        if event.sequence = ledger.nextSequence event.streamId then .ok () ledger
        else .error (.deliveryOrder event.streamId (ledger.nextSequence event.streamId) event.sequence)
          ledger := validateDeliveryOrder_run _ _
    simp only
    split_ifs with hmem hnext
    · rfl
    · rw [EStateM.run_bind, horder, if_pos hnext]
      rfl
    · rw [EStateM.run_bind, horder, if_neg hnext]

theorem append_spec (event : LedgerEvent) (outbox : OutboxIntent) (ledger : InMemoryEventLedger) :
    Appends codec event outbox ledger ((append codec event outbox).run ledger) := by
  by_cases h : Admissible codec event outbox
  · rw [append_run h]
    cases hprior : ledger.appendIdempotency.get? event.eventId with
    | some priorDigest =>
      simp only
      split_ifs with hd
      · rw [hd] at hprior
        exact .repeated h hprior
      · exact .refused _
    | none =>
      simp only
      split_ifs with hmem hnext
      · exact .refused _
      · exact .inserted h hprior hmem hnext
      · exact .refused _
  · unfold append
    cases hrecord : StoredEvent.fromEnvelope codec.toLedgerCodec event with
    | error e => exact .refused e
    | ok record =>
      obtain ⟨hstorable, rfl⟩ := fromEnvelope_ok_iff.1 hrecord
      simp only [ofExcept, pure_bind]
      by_cases hvalid : outbox.Valid codec
      · have hreference : outbox.eventId ≠ (stored codec event).eventId := fun hid =>
          h ⟨hstorable, hvalid, hid⟩
        rw [if_neg (not_not.2 hvalid), if_pos hreference]
        exact .refused _
      · rw [if_pos hvalid]
        exact .refused _

theorem acknowledgeOutbox_run (eventId : Uuid) (ledger : InMemoryEventLedger) : (acknowledgeOutbox eventId).run ledger =
      if eventId ∈ ledger.publications then .ok false ledger
      else if eventId ∈ ledger.outbox.keys then .ok true (ledger.publish eventId)
      else .error (.eventConflictAbout "has no pending outbox work" eventId) ledger := by
  show EStateM.run (if eventId ∈ ledger.publications then pure false
    else if eventId ∉ ledger.outbox.keys then _ else _) ledger = _
  by_cases hpublished : eventId ∈ ledger.publications
  · rw [if_pos hpublished, if_pos hpublished]
    rfl
  · rw [if_neg hpublished, if_neg hpublished]
    by_cases hpending : eventId ∈ ledger.outbox.keys
    · rw [if_neg (not_not.2 hpending), if_pos hpending]
      rfl
    · rw [if_pos hpending, if_neg hpending]
      rfl

theorem claimInbox_run (consumer : String) (eventId : Uuid) (ledger : InMemoryEventLedger) :
    (claimInbox consumer eventId).run ledger =
      if ¬ ConsumerValid consumer then
        .error (.replayError "consumer must be bounded non-empty text") ledger
      else if eventId ∉ ledger.events.keys then
        .error (.eventConflictAbout "does not exist in the ledger" eventId) ledger
      else if (consumer, eventId) ∈ ledger.inbox then .ok false ledger
      else .ok true (ledger.claim consumer eventId) := by
  by_cases hvalid : ConsumerValid consumer
  · unfold claimInbox
    rw [if_neg (not_not.2 hvalid), if_neg (not_not.2 hvalid)]
    show EStateM.run (if eventId ∉ ledger.events.keys then _ else
      if (consumer, eventId) ∈ ledger.inbox then _ else _) ledger = _
    split_ifs <;> rfl
  · unfold claimInbox
    rw [if_pos hvalid, if_pos hvalid]
    rfl

theorem saveSnapshot_run (snapshot : SnapshotRecord) (ledger : InMemoryEventLedger) :
    (∃ e, (saveSnapshot codec snapshot).run ledger = .error e ledger) ∨
      (saveSnapshot codec snapshot).run ledger = .ok () ledger ∨
      (saveSnapshot codec snapshot).run ledger = .ok () (ledger.keep snapshot) := by
  unfold saveSnapshot
  cases hvalid : validateSnapshot codec.toReplayCodec snapshot with
  | error e => exact .inl ⟨_, rfl⟩
  | ok snapshot' =>
    obtain rfl := (validateSnapshot_ok_iff.1 hvalid).2
    simp only [EStateM.run_bind, EStateM.run_get]
    cases ledger.snapshots.get? snapshot.stateHash with
    | none => exact .inr (.inr rfl)
    | some prior =>
      simp only
      split_ifs
      · exact .inr (.inl rfl)
      · exact .inl ⟨_, rfl⟩

/-! ## Histories -/

def LedgerEntry.insertion : LedgerEntry → Option (LedgerEvent × OutboxIntent)
  | (.append event outbox, .ok (.appended ⟨_, true⟩)) => some (event, outbox)
  | _ => none

/-- The event of an acknowledgement that returned `True`. -/
def LedgerEntry.acknowledgement : LedgerEntry → Option Uuid
  | (.acknowledgeOutbox eventId, .ok (.acknowledged true)) => some eventId
  | _ => none

/-- The claim of a call that returned `True`. -/
def LedgerEntry.claim : LedgerEntry → Option (String × Uuid)
  | (.claimInbox consumer eventId, .ok (.claimed true)) => some (consumer, eventId)
  | _ => none

/-- What was inserted, in order. -/
def insertions (history : List LedgerEntry) : List (LedgerEvent × OutboxIntent) :=
  history.filterMap LedgerEntry.insertion

def acknowledgements (history : List LedgerEntry) : List Uuid :=
  history.filterMap LedgerEntry.acknowledgement

def claims (history : List LedgerEntry) : List (String × Uuid) := history.filterMap LedgerEntry.claim

abbrev insertedId (p : LedgerEvent × OutboxIntent) : Uuid := p.1.eventId

def LedgerEntry.Quiet (entry : LedgerEntry) : Prop :=
  LedgerEntry.insertion entry = none ∧ LedgerEntry.acknowledgement entry = none ∧
    LedgerEntry.claim entry = none

inductive LedgerStep (codec : RepositoryCodec) (ledger : InMemoryEventLedger) :
    LedgerEntry → InMemoryEventLedger → Prop
  | quiet (entry : LedgerEntry) (h : LedgerEntry.Quiet entry) : LedgerStep codec ledger entry ledger
  | kept (snapshot : SnapshotRecord) :
      LedgerStep codec ledger (.saveSnapshot snapshot, .ok .saved) (ledger.keep snapshot)
  | inserted {event : LedgerEvent} {outbox : OutboxIntent} (h : Admissible codec event outbox)
      (hprior : ledger.appendIdempotency.get? event.eventId = none)
      (hnew : event.eventId ∉ ledger.events.keys)
      (hnext : event.sequence = ledger.nextSequence event.streamId) :
      LedgerStep codec ledger (.append event outbox, .ok (.appended ⟨event.eventId, true⟩))
        (ledger.insert (stored codec event) (requestOf codec event outbox) outbox)
  | published {eventId : Uuid} (hnew : eventId ∉ ledger.publications)
      (hpending : eventId ∈ ledger.outbox.keys) :
      LedgerStep codec ledger (.acknowledgeOutbox eventId, .ok (.acknowledged true))
        (ledger.publish eventId)
  | claimed {consumer : String} {eventId : Uuid} (hmem : eventId ∈ ledger.events.keys)
      (hnew : (consumer, eventId) ∉ ledger.inbox) :
      LedgerStep codec ledger (.claimInbox consumer eventId, .ok (.claimed true))
        (ledger.claim consumer eventId)

theorem quiet_error (call : LedgerCall) (e : LedgerFailure) : LedgerEntry.Quiet (call, .error e) := by
  cases call <;> exact ⟨rfl, rfl, rfl⟩

variable {α : Type}

theorem read_step (ledger : InMemoryEventLedger) (history : List LedgerEntry) (call : LedgerCall)
    (read : InMemoryEventLedger → Except LedgerFailure α) (reply : α → LedgerReply)
    (hcall : perform codec call = do reply <$> ofExcept (read (← get)))
    (hquiet : ∀ a, LedgerEntry.Quiet (call, .ok (reply a))) :
    ∃ entry ledger', performNext codec (ledger, history) call = (ledger', history ++ [entry]) ∧
      LedgerStep codec ledger entry ledger' := by
  unfold performNext
  rw [hcall]
  have hrun : EStateM.run (do reply <$> ofExcept (read (← get)) : LedgerM LedgerReply) ledger =
      EStateM.run (reply <$> ofExcept (read ledger)) ledger := rfl
  dsimp only
  rw [hrun]
  cases read ledger with
  | error e => exact ⟨_, _, rfl, .quiet _ (quiet_error call e)⟩
  | ok a => exact ⟨_, _, rfl, .quiet _ (hquiet a)⟩

theorem mapped_step {ledger : InMemoryEventLedger} (history : List LedgerEntry)
    {call : LedgerCall} {action : LedgerM α} {reply : α → LedgerReply}
    (hcall : perform codec call = reply <$> action) :
    performNext codec (ledger, history) call = match action.run ledger with
      | .ok a ledger' => (ledger', history ++ [(call, .ok (reply a))])
      | .error e ledger' => (ledger', history ++ [(call, .error e)]) := by
  have hrun : (perform codec call).run ledger = match action.run ledger with
      | .ok a ledger' => .ok (reply a) ledger'
      | .error e ledger' => .error e ledger' := by
    rw [hcall]
    show EStateM.map reply action ledger = _
    unfold EStateM.map EStateM.run
    cases action ledger <;> rfl
  unfold performNext
  rw [hrun]
  cases action.run ledger <;> rfl

theorem performNext_step (ledger : InMemoryEventLedger) (history : List LedgerEntry) (call : LedgerCall) :
    ∃ entry ledger', performNext codec (ledger, history) call = (ledger', history ++ [entry]) ∧
      LedgerStep codec ledger entry ledger' := by
  cases call with
  | append event outbox =>
    rw [mapped_step history rfl]
    have hspec := @append_spec codec event outbox ledger
    generalize (append codec event outbox).run ledger = result at hspec
    cases hspec with
    | refused e => exact ⟨_, _, rfl, .quiet _ (quiet_error _ e)⟩
    | repeated h hprior => exact ⟨_, _, rfl, .quiet _ ⟨rfl, rfl, rfl⟩⟩
    | inserted h hprior hnew hnext => exact ⟨_, _, rfl, .inserted h hprior hnew hnext⟩
  | loadEvents =>
    exact read_step ledger history .loadEvents (loadEvents codec) .loaded rfl fun _ => ⟨rfl, rfl, rfl⟩
  | loadStreamEvents streamId =>
    exact read_step ledger history (.loadStreamEvents streamId)
      (fun ledger => loadStreamEvents codec ledger streamId) .loaded rfl fun _ => ⟨rfl, rfl, rfl⟩
  | loadOutbox => exact ⟨_, _, rfl, .quiet _ ⟨rfl, rfl, rfl⟩⟩
  | acknowledgeOutbox eventId =>
    rw [mapped_step history rfl, acknowledgeOutbox_run]
    split_ifs with hpublished hpending
    · exact ⟨_, _, rfl, .quiet _ ⟨rfl, rfl, rfl⟩⟩
    · exact ⟨_, _, rfl, .published hpublished hpending⟩
    · exact ⟨_, _, rfl, .quiet _ (quiet_error _ _)⟩
  | claimInbox consumer eventId =>
    rw [mapped_step history rfl, claimInbox_run]
    by_cases hvalid : ConsumerValid consumer
    · rw [if_neg (not_not.2 hvalid)]
      by_cases hmem : eventId ∈ ledger.events.keys
      · rw [if_neg (not_not.2 hmem)]
        split_ifs with hclaimed
        · exact ⟨_, _, rfl, .quiet _ ⟨rfl, rfl, rfl⟩⟩
        · exact ⟨_, _, rfl, .claimed hmem hclaimed⟩
      · rw [if_pos hmem]
        exact ⟨_, _, rfl, .quiet _ (quiet_error _ _)⟩
    · rw [if_pos hvalid]
      exact ⟨_, _, rfl, .quiet _ (quiet_error _ _)⟩
  | saveSnapshot snapshot =>
    have hcall : perform codec (.saveSnapshot snapshot) =
        (fun _ => LedgerReply.saved) <$> saveSnapshot codec snapshot := rfl
    rw [mapped_step history hcall]
    rcases @saveSnapshot_run codec snapshot ledger with ⟨e, he⟩ | hsame | hkept
    · rw [he]
      exact ⟨_, _, rfl, .quiet _ (quiet_error _ e)⟩
    · rw [hsame]
      exact ⟨_, _, rfl, .quiet _ ⟨rfl, rfl, rfl⟩⟩
    · rw [hkept]
      exact ⟨_, _, rfl, .kept snapshot⟩
  | loadSnapshot stateHash =>
    exact read_step ledger history (.loadSnapshot stateHash)
      (fun ledger => loadSnapshot codec ledger stateHash) .snapshot rfl fun _ => ⟨rfl, rfl, rfl⟩

/-! ## The ledger is its history -/

def insertedEvents (history : List LedgerEntry) : List LedgerEvent := (insertions history).map Prod.fst

/-- All state of the ledger but its snapshots, in terms of its history. -/
structure Accounts (codec : RepositoryCodec) (history : List LedgerEntry) (ledger : InMemoryEventLedger) :
    Prop where
  events : ledger.events = (insertions history).map fun p => (insertedId p, stored codec p.1)
  receipts : ledger.appendIdempotency =
    (insertions history).map fun p => (insertedId p, requestOf codec p.1 p.2)
  outbox : ledger.outbox = ((insertions history).filter fun p => insertedId p ∉ acknowledgements history).map
    fun p => (insertedId p, p.2)
  publications : ledger.publications = acknowledgements history
  inbox : ledger.inbox = claims history
  admissible : ∀ p ∈ insertions history, Admissible codec p.1 p.2
  distinct : ((insertions history).map insertedId).Nodup
  contiguous : ∀ s, ((insertedEvents history).filter fun e => e.streamId = s).map
    (fun e => e.sequence) = List.range' 1 ((insertedEvents history).filter fun e => e.streamId = s).length
  acknowledged : (acknowledgements history).Nodup
  acknowledgedInserted : ∀ i ∈ acknowledgements history, i ∈ (insertions history).map insertedId
  claimed : (claims history).Nodup
  claimedInserted : ∀ c ∈ claims history, c.2 ∈ (insertions history).map insertedId

section Accounts

variable {history : List LedgerEntry} {ledger ledger' : InMemoryEventLedger} {entry : LedgerEntry}

theorem Accounts.keys (h : Accounts codec history ledger) :
    ledger.events.keys = (insertions history).map insertedId := by
  rw [h.events, Dict.keys, List.map_map]
  rfl

theorem Accounts.streamRecords (h : Accounts codec history ledger) (s : Uuid) : ledger.streamRecords s =
      ((insertedEvents history).filter fun e => e.streamId = s).map (stored codec) := by
  unfold InMemoryEventLedger.streamRecords insertedEvents
  rw [h.events, Dict.values, List.map_map, List.filter_map, List.filter_map, List.map_map]
  rfl

theorem foldl_max_range' (n : ℕ) : (List.range' 1 n).foldl max 0 = n := by
  induction n with
  | zero => rfl
  | succ n ih =>
    rw [List.range'_1_concat, List.foldl_append, ih, List.foldl_cons, List.foldl_nil]
    omega

variable (h : Accounts codec history ledger)
include h

theorem Accounts.nextSequence (s : Uuid) :
    ledger.nextSequence s = ((insertedEvents history).filter fun e => e.streamId = s).length + 1 := by
  unfold InMemoryEventLedger.nextSequence
  have hseqs : (((insertedEvents history).filter fun e => e.streamId = s).map (stored codec)).map
      StoredEvent.sequence = ((insertedEvents history).filter fun e => e.streamId = s).map
        (·.sequence) := by
    rw [List.map_map]
    rfl
  rw [h.streamRecords, hseqs, h.contiguous, foldl_max_range']

variable {i : Uuid}

theorem Accounts.pending_inserted (hi : i ∈ ledger.outbox.keys) :
    i ∈ (insertions history).map insertedId ∧ i ∉ acknowledgements history := by
  rw [h.outbox, Dict.keys, List.map_map] at hi
  obtain ⟨p, hp, rfl⟩ := List.mem_map.1 hi
  obtain ⟨hmem, hnot⟩ := List.mem_filter.1 hp
  exact ⟨List.mem_map_of_mem hmem, by simpa using hnot⟩

theorem Accounts.pending_iff (hi : i ∈ (insertions history).map insertedId) :
    i ∈ ledger.outbox.keys ↔ i ∉ acknowledgements history := by
  refine ⟨fun hmem => (h.pending_inserted hmem).2, fun hnot => ?_⟩
  obtain ⟨p, hp, rfl⟩ := List.mem_map.1 hi
  rw [h.outbox, Dict.keys, List.map_map]
  exact List.mem_map_of_mem (f := insertedId) (List.mem_filter.2 ⟨hp, by simpa using hnot⟩)

omit h

theorem insertions_concat (history : List LedgerEntry) (entry : LedgerEntry) :
    insertions (history ++ [entry]) = insertions history ++ (LedgerEntry.insertion entry).toList :=
  filterMap_concat _ _ _

theorem acknowledgements_concat (history : List LedgerEntry) (entry : LedgerEntry) :
    acknowledgements (history ++ [entry]) = acknowledgements history ++ (LedgerEntry.acknowledgement entry).toList :=
  filterMap_concat _ _ _

theorem claims_concat (history : List LedgerEntry) (entry : LedgerEntry) :
    claims (history ++ [entry]) = claims history ++ (LedgerEntry.claim entry).toList :=
  filterMap_concat _ _ _

variable (h : Accounts codec history ledger)
include h

theorem Accounts.quiet (hq : LedgerEntry.Quiet entry) : Accounts codec (history ++ [entry]) ledger := by
  obtain ⟨hi, ha, hc⟩ := hq
  constructor <;> simp only [insertedEvents, insertions_concat, acknowledgements_concat, claims_concat, hi, ha, hc,
    Option.toList_none, List.append_nil]
  · exact h.events
  · exact h.receipts
  · exact h.outbox
  · exact h.publications
  · exact h.inbox
  · exact h.admissible
  · exact h.distinct
  · exact h.contiguous
  · exact h.acknowledged
  · exact h.acknowledgedInserted
  · exact h.claimed
  · exact h.claimedInserted

theorem Accounts.keep (snapshot : SnapshotRecord) : Accounts codec history (ledger.keep snapshot) :=
  ⟨h.events, h.receipts, h.outbox, h.publications, h.inbox, h.admissible, h.distinct, h.contiguous,
    h.acknowledged, h.acknowledgedInserted, h.claimed, h.claimedInserted⟩

theorem Accounts.insert (hadmissible : Admissible codec event outbox) (hnew : event.eventId ∉ ledger.events.keys)
    (hnext : event.sequence = ledger.nextSequence event.streamId) :
    Accounts codec (history ++ [(.append event outbox, .ok (.appended ⟨event.eventId, true⟩))])
      (ledger.insert (stored codec event) (requestOf codec event outbox) outbox) := by
  have hfresh := hnew
  rw [h.keys] at hfresh
  have hunacknowledged : event.eventId ∉ acknowledgements history := fun hmem =>
    hfresh (h.acknowledgedInserted _ hmem)
  have hreceipts : event.eventId ∉ ledger.appendIdempotency.keys := by
    rw [h.receipts, Dict.keys, List.map_map]
    exact hfresh
  have hpending : event.eventId ∉ ledger.outbox.keys := fun hmem => hfresh (h.pending_inserted hmem).1
  constructor <;> simp only [insertedEvents, insertions_concat, acknowledgements_concat, claims_concat,
    LedgerEntry.insertion, LedgerEntry.acknowledgement, LedgerEntry.claim, Option.toList_none, Option.toList_some,
    List.append_nil, List.map_append, List.filter_append]
  · show ledger.events.set event.eventId (stored codec event) = _
    rw [Dict.set_of_notMem _ _ _ hnew, h.events]
    rfl
  · show ledger.appendIdempotency.set event.eventId _ = _
    rw [Dict.set_of_notMem _ _ _ hreceipts, h.receipts]
    rfl
  · show ledger.outbox.set event.eventId outbox = _
    rw [Dict.set_of_notMem _ _ _ hpending, h.outbox,
      List.filter_cons_of_pos (by simpa using hunacknowledged)]
    rfl
  · exact h.publications
  · exact h.inbox
  · intro p hp
    rcases List.mem_append.1 hp with hp | hp
    · exact h.admissible p hp
    · rw [List.mem_singleton.1 hp]
      exact hadmissible
  · refine List.nodup_append.2 ⟨h.distinct, List.nodup_singleton _, fun i hi j hj heq => hfresh ?_⟩
    rw [List.map_singleton, List.mem_singleton] at hj
    rw [heq, hj] at hi
    exact hi
  · intro s
    have hs := h.contiguous s
    unfold insertedEvents at hs
    rw [List.map_singleton]
    by_cases hstream : event.streamId = s
    · rw [h.nextSequence, hstream] at hnext
      unfold insertedEvents at hnext
      rw [List.filter_cons_of_pos (by simpa using hstream), List.filter_nil, hs, List.length_append,
        List.length_singleton, List.range'_1_concat, List.map_singleton, hnext, Nat.add_comm 1]
    · rw [List.filter_cons_of_neg (by simpa using hstream), List.filter_nil, List.map_nil,
        List.append_nil, List.append_nil]
      exact hs
  · exact h.acknowledged
  · exact fun i hi => List.mem_append_left _ (h.acknowledgedInserted i hi)
  · exact h.claimed
  · exact fun c hc => List.mem_append_left _ (h.claimedInserted c hc)

theorem Accounts.publish {eventId : Uuid} (hnew : eventId ∉ ledger.publications)
    (hpending : eventId ∈ ledger.outbox.keys) :
    Accounts codec (history ++ [(.acknowledgeOutbox eventId, .ok (.acknowledged true))]) (ledger.publish eventId) := by
  constructor <;> simp only [insertedEvents, insertions_concat, acknowledgements_concat, claims_concat,
    LedgerEntry.insertion, LedgerEntry.acknowledgement, LedgerEntry.claim, Option.toList_none, Option.toList_some,
    List.append_nil]
  · exact h.events
  · exact h.receipts
  · show Dict.erase ledger.outbox eventId = _
    unfold Dict.erase
    rw [h.outbox, List.filter_map, List.filter_filter]
    refine congrArg _ (List.filter_congr fun p _ => ?_)
    simp only [Function.comp_apply, List.mem_append, List.mem_singleton, not_or, Bool.decide_and, ne_eq]
    exact Bool.and_comm _ _
  · show ledger.publications ++ [eventId] = _
    rw [h.publications]
  · exact h.inbox
  · exact h.admissible
  · exact h.distinct
  · exact h.contiguous
  · refine List.nodup_append.2 ⟨h.acknowledged, List.nodup_singleton _, fun i hi j hj heq => hnew ?_⟩
    rw [h.publications, ← List.mem_singleton.1 hj, ← heq]
    exact hi
  · intro i hi
    rcases List.mem_append.1 hi with hi | hi
    · exact h.acknowledgedInserted i hi
    · rw [List.mem_singleton.1 hi]
      exact (h.pending_inserted hpending).1
  · exact h.claimed
  · exact h.claimedInserted

theorem Accounts.claim {consumer : String} {eventId : Uuid} (hmem : eventId ∈ ledger.events.keys)
    (hnew : (consumer, eventId) ∉ ledger.inbox) :
    Accounts codec (history ++ [(.claimInbox consumer eventId, .ok (.claimed true))])
      (ledger.claim consumer eventId) := by
  constructor <;> simp only [insertedEvents, insertions_concat, acknowledgements_concat, claims_concat,
    LedgerEntry.insertion, LedgerEntry.acknowledgement, LedgerEntry.claim, Option.toList_none, Option.toList_some,
    List.append_nil]
  · exact h.events
  · exact h.receipts
  · exact h.outbox
  · exact h.publications
  · show ledger.inbox ++ [(consumer, eventId)] = _
    rw [h.inbox]
  · exact h.admissible
  · exact h.distinct
  · exact h.contiguous
  · exact h.acknowledged
  · exact h.acknowledgedInserted
  · refine List.nodup_append.2 ⟨h.claimed, List.nodup_singleton _, fun i hi j hj heq => hnew ?_⟩
    rw [h.inbox, ← List.mem_singleton.1 hj, ← heq]
    exact hi
  · intro c hc
    rcases List.mem_append.1 hc with hc | hc
    · exact h.claimedInserted c hc
    · rw [List.mem_singleton.1 hc, ← h.keys]
      exact hmem

theorem Accounts.step (hstep : LedgerStep codec ledger entry ledger') :
    Accounts codec (history ++ [entry]) ledger' := by
  cases hstep with
  | quiet entry hq => exact h.quiet hq
  | kept snapshot => exact (h.keep snapshot).quiet ⟨rfl, rfl, rfl⟩
  | inserted hadmissible _ hnew hnext => exact h.insert hadmissible hnew hnext
  | published hnew hpending => exact h.publish hnew hpending
  | claimed hmem hnew => exact h.claim hmem hnew

end Accounts

theorem runCalls_accounts (codec : RepositoryCodec) (calls : List LedgerCall) :
    Accounts codec (runCalls codec calls).2 (runCalls codec calls).1 := by
  induction calls using List.reverseRecOn with
  | nil => constructor <;> simp [runCalls, InMemoryEventLedger.empty, insertions, acknowledgements, claims,
      insertedEvents]
  | append_singleton calls call ih =>
    obtain ⟨entry, ledger', hnext, hstep⟩ := @performNext_step codec
      (runCalls codec calls).1 (runCalls codec calls).2 call
    have hrun : runCalls codec (calls ++ [call]) = (ledger', (runCalls codec calls).2 ++ [entry]) := by
      rw [← hnext]
      unfold runCalls
      rw [List.foldl_append]
      rfl
    rw [hrun]
    exact ih.step hstep

/-! ## Reading the ledger -/

def storedOrder (codec : RepositoryCodec) (e : LedgerEvent) : Uuid ×ₗ ℕ ×ₗ Uuid :=
  eventOrder (stored codec e)

theorem Accounts.loadEvents {history : List LedgerEntry} {ledger : InMemoryEventLedger}
    (h : Accounts codec history ledger) (hround : codec.RoundTrips) :
    EventLedger.loadEvents codec ledger = .ok (sortBy (storedOrder codec) (insertedEvents history)) := by
  have hvalues : ledger.events.values = (insertedEvents history).map (stored codec) := by
    unfold insertedEvents
    rw [h.events, Dict.values, List.map_map, List.map_map]
    rfl
  unfold EventLedger.loadEvents
  rw [hvalues, sortBy_map, mapM_ok_iff]
  have hstorable : ∀ e ∈ sortBy (storedOrder codec) (insertedEvents history),
      readEvent codec (stored codec e) = .ok e := by
    intro e he
    rw [mem_sortBy] at he
    obtain ⟨p, hp, rfl⟩ := List.mem_map.1 he
    have hstorable := (h.admissible p hp).storable.1
    have hread : deserializeEvent codec.toLedgerCodec (stored codec p.1).canonicalJson = some p.1 :=
      deserializeEvent_of_serialize hround (serializeEvent_eq_some.2 ⟨hstorable, rfl⟩)
    unfold readEvent
    rw [hread]
  rw [List.forall₂_map_left_iff]
  exact List.forall₂_same.2 hstorable

/-! ## Append-only, exactly once -/

variable (codec) in
/-- The lengths of the parts of a request fit in eight bytes. -/
def Encodable (event : LedgerEvent) (outbox : OutboxIntent) : Prop :=
  ∀ part ∈ appendRequestParts (stored codec event) outbox, part.length < 256 ^ 8

variable (codec) in
/-- SHA-256 tells the bytes apart. -/
def HashesApart (x y : List UInt8) : Prop := codec.sha256Bytes x = codec.sha256Bytes y → x = y

/-- The bytes of a request determine its event and its intent. -/
theorem request_inj {event' : LedgerEvent} {outbox' : OutboxIntent} (hround : codec.RoundTrips)
    (h : Admissible codec event outbox) (h' : Admissible codec event' outbox') (hfits : Encodable codec event outbox)
    (hfits' : Encodable codec event' outbox')
    (hsame : appendRequestBytes (stored codec event) outbox = appendRequestBytes (stored codec event') outbox') :
    (event, outbox) = (event', outbox') := by
  have hparts : appendRequestParts (stored codec event) outbox = appendRequestParts (stored codec event') outbox' :=
    lengthPrefixed_inj (by simp [appendRequestParts]) hfits hfits' hsame
  simp only [appendRequestParts, List.cons.injEq, and_true] at hparts
  obtain ⟨-, -, -, -, hjson, htopic, hpayload⟩ := hparts
  obtain rfl : event = event' := by
    have hread := hround event h.storable.1
    rw [show codec.eventJson event = codec.eventJson event' from utf8_inj hjson, hround event' h'.storable.1] at hread
    exact (Option.some.inj hread).symm
  have hid : outbox.eventId = outbox'.eventId := h.reference.trans h'.reference.symm
  rw [OutboxIntent.ext hid (utf8_inj htopic) (utf8_inj hpayload)]

/-- What a history of calls leaves in the ledger. -/
structure ExactlyOnce (codec : RepositoryCodec) (history : List LedgerEntry)
    (ledger : InMemoryEventLedger) : Prop where
  /-- The sequences of a stream are `1, …, n` in the order of arrival. -/
  contiguous : ∀ s, (ledger.streamRecords s).map StoredEvent.sequence =
    List.range' 1 (ledger.streamRecords s).length
  /-- An append that raises changes nothing. -/
  atomic : ∀ event outbox e ledger', (append codec event outbox).run ledger = .error e ledger' →
    ledger' = ledger
  /-- The used identities are those of the inserted events. -/
  used : ledger.events.keys = (insertions history).map insertedId
  /-- The next event of a stream is inserted and stored, with its outbox intent. -/
  inserts : ∀ event outbox, Admissible codec event outbox → event.eventId ∉ ledger.events.keys →
    event.sequence = (ledger.streamRecords event.streamId).length + 1 → ∃ ledger',
      (append codec event outbox).run ledger = .ok ⟨event.eventId, true⟩ ledger' ∧
        ledger'.streamRecords event.streamId = ledger.streamRecords event.streamId ++ [stored codec event] ∧
        ledger'.events.get? event.eventId = some (stored codec event) ∧
        ledger'.outbox.get? event.eventId = some outbox
  /-- What was inserted is what is loaded, in canonical order. -/
  loads : codec.RoundTrips →
    loadEvents codec ledger = .ok (sortBy (storedOrder codec) (insertedEvents history))
  /-- An inserted pair can be appended again at any later time without effect. -/
  idempotent : ∀ p ∈ insertions history,
    (append codec p.1 p.2).run ledger = .ok ⟨p.1.eventId, false⟩ ledger
  /-- Any other content under a used identity raises. -/
  conflicting : ∀ p ∈ insertions history, ∀ event outbox, event.eventId = p.1.eventId →
    (event, outbox) ≠ p → codec.RoundTrips → Encodable codec event outbox → Encodable codec p.1 p.2 →
    HashesApart codec (appendRequestBytes (stored codec event) outbox) (appendRequestBytes (stored codec p.1) p.2) →
    ∃ e, (append codec event outbox).run ledger = .error e ledger
  /-- An inserted event is pending or published, and not both. -/
  pendingOrPublished : ∀ i ∈ (insertions history).map insertedId,
    (i ∈ ledger.outbox.keys ∧ i ∉ ledger.publications) ∨ (i ∉ ledger.outbox.keys ∧ i ∈ ledger.publications)
  /-- `acknowledge_outbox` returned `True` once for the published events and never for the others. -/
  acknowledgedOnce : ∀ i, (acknowledgements history).count i = if i ∈ ledger.publications then 1 else 0
  /-- The next acknowledgement of an inserted event returns `True` if it is pending, and publishes it. -/
  acknowledges : ∀ i ∈ (insertions history).map insertedId, ∃ ledger',
    (acknowledgeOutbox i).run ledger = .ok (decide (i ∈ ledger.outbox.keys)) ledger' ∧
      i ∈ ledger'.publications ∧ i ∉ ledger'.outbox.keys
  /-- `claim_inbox` returned `True` once for the claims in the inbox and never for the others. -/
  claimedOnce : ∀ c, (claims history).count c = if c ∈ ledger.inbox then 1 else 0
  /-- The next claim of a stored event returns `True` if it is the first, and is in the inbox then. -/
  claims : ∀ consumer, ConsumerValid consumer → ∀ i ∈ ledger.events.keys, ∃ ledger',
    (claimInbox consumer i).run ledger = .ok (decide ((consumer, i) ∉ ledger.inbox)) ledger' ∧
      (consumer, i) ∈ ledger'.inbox

section Rules

variable {history : List LedgerEntry} {ledger ledger' : InMemoryEventLedger} {p : LedgerEvent × OutboxIntent} {i : Uuid}

theorem append_atomic {e : LedgerFailure} (h : (append codec event outbox).run ledger = .error e ledger') :
    ledger' = ledger := by
  have hspec := @append_spec codec event outbox ledger
  rw [h] at hspec
  cases hspec with
  | refused e => rfl

theorem claimInbox_next {consumer : String} (hvalid : ConsumerValid consumer) (hi : i ∈ ledger.events.keys) :
    ∃ ledger', (claimInbox consumer i).run ledger = .ok (decide ((consumer, i) ∉ ledger.inbox)) ledger' ∧
      (consumer, i) ∈ ledger'.inbox := by
  rw [claimInbox_run, if_neg (not_not.2 hvalid), if_neg (not_not.2 hi)]
  by_cases hclaimed : (consumer, i) ∈ ledger.inbox
  · rw [if_pos hclaimed]
    exact ⟨ledger, by simp [hclaimed], hclaimed⟩
  · rw [if_neg hclaimed]
    exact ⟨ledger.claim consumer i, by simp [hclaimed], by simp [InMemoryEventLedger.claim]⟩

variable (h : Accounts codec history ledger)
include h

theorem Accounts.receipt (hp : p ∈ insertions history) :
    ledger.appendIdempotency.get? p.1.eventId = some (requestOf codec p.1 p.2) := by
  have hnodup : ledger.appendIdempotency.keys.Nodup := by
    rw [h.receipts, Dict.keys, List.map_map]
    exact h.distinct
  rw [Dict.get?_eq_some_iff hnodup, h.receipts]
  exact List.mem_map_of_mem (f := fun p => (insertedId p, requestOf codec p.1 p.2)) hp

theorem Accounts.append_next (hadmissible : Admissible codec event outbox) (hnew : event.eventId ∉ ledger.events.keys)
    (hnext : event.sequence = (ledger.streamRecords event.streamId).length + 1) :
    ∃ ledger', (append codec event outbox).run ledger = .ok ⟨event.eventId, true⟩ ledger' ∧
      ledger'.streamRecords event.streamId = ledger.streamRecords event.streamId ++ [stored codec event] ∧
      ledger'.events.get? event.eventId = some (stored codec event) ∧
      ledger'.outbox.get? event.eventId = some outbox := by
  have hprior : ledger.appendIdempotency.get? event.eventId = none := by
    rw [Dict.get?_eq_none_iff, h.receipts, Dict.keys, List.map_map]
    rwa [h.keys] at hnew
  have hsequence : event.sequence = ledger.nextSequence event.streamId := by
    rw [hnext, h.nextSequence, h.streamRecords, List.length_map]
  rw [append_run hadmissible, hprior]
  simp only [if_neg hnew, if_pos hsequence]
  refine ⟨_, rfl, ?_, Dict.get?_set_self _ event.eventId _, Dict.get?_set_self _ event.eventId _⟩
  show ((ledger.events.set event.eventId (stored codec event)).values.filter _) = _
  rw [Dict.set_of_notMem _ _ _ hnew, Dict.values, List.map_append, List.filter_append]
  exact congrArg _ (List.filter_cons_of_pos (decide_eq_true rfl))

theorem Accounts.append_conflicting (hp : p ∈ insertions history) (hid : event.eventId = p.1.eventId)
    (hne : (event, outbox) ≠ p) (hround : codec.RoundTrips) (hfits : Encodable codec event outbox)
    (hfits' : Encodable codec p.1 p.2)
    (happart : HashesApart codec (appendRequestBytes (stored codec event) outbox)
      (appendRequestBytes (stored codec p.1) p.2)) : ∃ e, (append codec event outbox).run ledger = .error e ledger := by
  have hprior := h.receipt hp
  rw [← hid] at hprior
  have hspec := @append_spec codec event outbox ledger
  generalize (append codec event outbox).run ledger = result at hspec
  cases hspec with
  | refused e => exact ⟨e, rfl⟩
  | repeated hadmissible hsame =>
    rw [hprior] at hsame
    have hbytes := happart (Option.some.inj hsame).symm
    exact absurd (request_inj hround hadmissible (h.admissible p hp) hfits hfits' hbytes) hne
  | inserted _ hnone =>
    rw [hprior] at hnone
    cases hnone

theorem Accounts.acknowledge_next (hi : i ∈ (insertions history).map insertedId) :
    ∃ ledger', (acknowledgeOutbox i).run ledger = .ok (decide (i ∈ ledger.outbox.keys)) ledger' ∧
      i ∈ ledger'.publications ∧ i ∉ ledger'.outbox.keys := by
  rw [acknowledgeOutbox_run]
  have hpending : i ∈ ledger.outbox.keys ↔ i ∉ ledger.publications := by rw [h.pending_iff hi, h.publications]
  by_cases hpublished : i ∈ ledger.publications
  · have hnot : i ∉ ledger.outbox.keys := fun hmem => hpending.1 hmem hpublished
    rw [if_pos hpublished]
    exact ⟨ledger, by simp [hnot], hpublished, hnot⟩
  · have hmem := hpending.2 hpublished
    rw [if_neg hpublished, if_pos hmem]
    refine ⟨ledger.publish i, by simp [hmem], by simp [InMemoryEventLedger.publish], ?_⟩
    show i ∉ (Dict.erase ledger.outbox i).keys
    rw [Dict.keys_erase]
    simp

end Rules

/-- After every run the ledger is append-only and delivers exactly once. -/
theorem ledger_keeps_exactly_once (codec : RepositoryCodec) (calls : List LedgerCall) :
    ExactlyOnce codec (runCalls codec calls).2 (runCalls codec calls).1 := by
  have h := runCalls_accounts codec calls
  generalize (runCalls codec calls).1 = ledger at h
  generalize (runCalls codec calls).2 = history at h
  constructor
  · intro s
    rw [h.streamRecords, List.map_map, List.length_map]
    exact h.contiguous s
  · exact fun event outbox e ledger' => append_atomic
  · exact h.keys
  · exact fun event outbox => h.append_next
  · exact h.loadEvents
  · intro p hp
    rw [append_run (h.admissible p hp), h.receipt hp]
    exact if_pos rfl
  · exact fun p hp event outbox => h.append_conflicting hp
  · intro i hi
    rw [h.pending_iff hi, h.publications]
    tauto
  · intro i
    rw [h.publications]
    exact h.acknowledged.count
  · exact fun i => h.acknowledge_next
  · intro c
    rw [h.inbox]
    exact h.claimed.count
  · exact fun consumer hvalid i => claimInbox_next hvalid

def sampleRepositoryCodec (events : List LedgerEvent) : RepositoryCodec where
  toReplayCodec := { sampleLedgerCodec events with storable := fun e => decide (e ∈ events) }
  sha256Bytes bytes := String.ofList (bytes.map fun b => Char.ofNat b.toNat)
  canonicalPayload text := text = "\x7b\x7d"

def sampleAppend (event : LedgerEvent) : LedgerCall :=
  .append event ⟨event.eventId, "orders", "\x7b\x7d"⟩

theorem sampleRepositoryCodec_roundTrips {events : List LedgerEvent}
    (h : ∀ e ∈ events, (sampleRepositoryCodec events).parse ((sampleRepositoryCodec events).eventJson e) = some e) :
    (sampleRepositoryCodec events).RoundTrips :=
  fun e he => h e (of_decide_eq_true he)

def samplePlaced : LedgerEvent := sampleLedgerEvent 1 7 0 (.unread .orderEvent "placed")

/-- An event under the identity of another one. -/
def sampleImpostor : LedgerEvent := sampleLedgerEvent 1 7 1 (.unread .orderEvent "placed")

/-- An event is appended too early, then twice, acknowledged twice and claimed twice. -/
def sampleLedgerCalls : List LedgerCall :=
  [sampleAppend sampleLate, sampleAppend samplePlaced, sampleAppend samplePlaced, .acknowledgeOutbox 1,
    .acknowledgeOutbox 1, sampleAppend samplePlaced, .claimInbox "mirror" 1, .claimInbox "mirror" 1]

theorem sample_ledger_keeps_exactly_once :
    let codec := sampleRepositoryCodec [samplePlaced, sampleImpostor, sampleLate]
    let run := runCalls codec sampleLedgerCalls
    ExactlyOnce codec run.2 run.1 ∧ (insertions run.2).map insertedId = [1] ∧ acknowledgements run.2 = [1] ∧
      claims run.2 = [("mirror", 1)] ∧
      (∃ e, (append codec sampleImpostor ⟨1, "orders", "\x7b\x7d"⟩).run run.1 = .error e run.1) ∧
      ∃ ledger, (append codec sampleLate ⟨2, "orders", "\x7b\x7d"⟩).run run.1 = .ok ⟨2, true⟩ ledger := by
  intro codec run
  have hround : codec.RoundTrips := sampleRepositoryCodec_roundTrips (by decide +kernel)
  have h := ledger_keeps_exactly_once codec sampleLedgerCalls
  have hinserted : (samplePlaced, ⟨1, "orders", "\x7b\x7d"⟩) ∈ insertions run.2 := by
    decide +kernel
  refine ⟨h, by decide +kernel, by decide +kernel, by decide +kernel, ?_, ?_⟩
  · refine h.conflicting _ hinserted sampleImpostor ⟨1, "orders", "\x7b\x7d"⟩ rfl (by decide +kernel) hround ?_ ?_ ?_
    · unfold Encodable
      decide +kernel
    · unfold Encodable
      decide +kernel
    · unfold HashesApart
      decide +kernel
  · have hadmissible : Admissible codec sampleLate ⟨2, "orders", "\x7b\x7d"⟩ :=
      ⟨by decide +kernel, by decide +kernel, rfl⟩
    obtain ⟨ledger, hrun, -⟩ := h.inserts sampleLate _ hadmissible (by decide +kernel) (by decide +kernel)
    exact ⟨ledger, hrun⟩

end TradingAgent.EventLedger
