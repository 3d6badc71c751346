import TradingAgent.PortfolioReducer.Exposure

/-! Snapshots and replays of portfolio events (`portfolio_reducer/replay.py`). -/

namespace TradingAgent.PortfolioReducer

open Outcome

def replaySchemaVersion : String := "portfolio-replay-v1"

def reducerVersion : String := "portfolio-reducer-v1"

/-- What a replay returns, and what a snapshot record stores. -/
@[ext] structure PortfolioReplayResult where
  schemaVersion : String
  reducerVersion : String
  state : PortfolioReplayState
  canonicalSnapshot : AccountPortfolioSnapshot
  cursor : List PortfolioStreamCursor
  prefixHistoryHash : String
  canonicalStateJson : String
  stateHash : String

abbrev PortfolioSnapshotRecord := PortfolioReplayResult

/-- Independent trusted commitment authorizing one snapshot record. -/
@[ext] structure PortfolioSnapshotAuthority where
  schemaVersion : String
  reducerVersion : String
  accountId : String
  streamId : Uuid
  cursorSequence : ℕ
  snapshotStateHash : String
  prefixHistoryHash : String

/-- The texts of the replay module that the ledger codec does not already fix. -/
structure ReplayCodec extends Codec where
  /-- Canonical JSON of `event_digest, event_id, event_type, previous, sequence`. -/
  historyJson : String → Uuid → String → String → ℕ → String
  /-- Canonical JSON of a state document; `none` when a string cannot be stored. -/
  documentJson : PortfolioReplayState → AccountPortfolioSnapshot → List PortfolioStreamCursor →
    String → String → String → Option String

variable (codec : ReplayCodec)

/-- `event_digest(serialize_event(event))` -/
def serializedDigest (event : PortfolioEvent) : Except Failure String :=
  match EventLedger.serializeEvent codec.toLedgerCodec event.toLedger with
  | some text => .ok (codec.sha256 text)
  | none => .error (.valueError "value cannot be represented by canonical PostgreSQL jsonb")

def canonicalEvent (event : LedgerEvent) : Except Failure PortfolioEvent :=
  match (EventLedger.serializeEvent codec.toLedgerCodec event).bind
    (EventLedger.deserializeEvent codec.toLedgerCodec) with
  | none => .error (.portfolioReplayError "portfolio event is not a canonical ledger envelope")
  | some canonical =>
    match canonical.payload with
    | .portfolio payload => .ok (canonical.withPayload payload)
    | _ =>
      .error (.portfolioReplayError "event payload is not supported by portfolio accounting")

def eventOrder (event : PortfolioEvent) : Uuid ×ₗ ℕ ×ₗ Uuid :=
  toLex (event.streamId, toLex (event.sequence, event.eventId))

def canonicalEvents (events : List LedgerEvent) : Except Failure (List PortfolioEvent) := do
  let canonical ← events.mapM (canonicalEvent codec)
  require (canonical = sortBy eventOrder canonical)
    (.portfolioReplayError "portfolio events must be supplied in canonical ordered sequence")
  .ok canonical

def extendHistoryHash (previous : String) (event : PortfolioEvent) : Except Failure String := do
  let digest ← serializedDigest codec event
  .ok (codec.sha256
    (codec.historyJson digest event.eventId event.payload.eventType previous event.sequence))

def canonicalStateDocument (state : PortfolioReplayState) (canonicalSnapshot : AccountPortfolioSnapshot)
    (cursor : List PortfolioStreamCursor) (prefixHistoryHash schemaVersion reducerVersion : String) :
    Except Failure String :=
  match codec.documentJson state canonicalSnapshot cursor prefixHistoryHash schemaVersion
    reducerVersion with
  | some text => .ok text
  | none => .error (.portfolioReplayError
      "portfolio replay state cannot be canonically represented")

/-! ## Validation of a state -/

/-- One round of the loop over the applied events: stream, bound and uniqueness of the sequence. -/
def checkAppliedEvent (cursor : PortfolioStreamCursor) (seen : List ℕ) (item : PortfolioAppliedEvent) :
    Except Failure (List ℕ) := do
  require (item.streamId = cursor.streamId)
    (.portfolioReplayError "snapshot applied event stream does not match cursor")
  require (item.sequence ≤ cursor.sequence)
    (.portfolioReplayError "snapshot applied event sequence exceeds cursor")
  require (item.sequence ∉ seen) (.portfolioReplayError "snapshot applied event sequence is duplicated")
  .ok (item.sequence :: seen)

def checkReconciliationAccount (state : PortfolioReplayState) : Except Failure Unit :=
  match state.reconciliation with
  | none => .ok ()
  | some reconciliation =>
    require (reconciliation.accountId = state.snapshot.accountId ∧
      reconciliation.snapshot.accountId = state.snapshot.accountId)
      (.portfolioReplayError "snapshot reconciliation account does not match portfolio account")

def identityEventTypes : List String :=
  ["PortfolioFillEntry", "PortfolioFundingEntry", "PortfolioReconciliationEntry"]

abbrev ExpectedIdentities := Dict (String × Uuid) PortfolioAppliedEvent

instance : LawfulBEq (String × Uuid) := inferInstance

def expectIdentity (expected : ExpectedIdentities) (item : PortfolioAppliedEvent) :
    Except Failure ExpectedIdentities :=
  if item.eventType ∈ identityEventTypes then
    match item.businessIdentityId with
    | none => .error (.portfolioReplayError "snapshot applied event business identity is incomplete")
    | some identityId => do
      require ((item.eventType, identityId) ∉ expected.keys)
        (.portfolioReplayError "snapshot applied events duplicate a business identity binding")
      .ok (expected.set (item.eventType, identityId) item)
  else do
    require (item.businessIdentityId = none)
      (.portfolioReplayError "snapshot business identity is unexpected for applied event type")
    .ok expected

def expectedOf (expected : ExpectedIdentities) (eventType : String) : Dict Uuid PortfolioAppliedEvent :=
  (expected.filter fun e => e.1.1 = eventType).map fun e => (e.1.2, e.2)

def checkIdentityIndex (expected : Dict Uuid PortfolioAppliedEvent)
    (identities : List PortfolioBusinessIdentity) (label : String) : Except Failure Unit := do
  let actual : Dict Uuid PortfolioBusinessIdentity :=
    Dict.byKey PortfolioBusinessIdentity.identityId identities
  require ((∀ k ∈ expected.keys, k ∈ actual.keys) ∧ ∀ k ∈ actual.keys, k ∈ expected.keys)
    (.portfolioReplayError ("snapshot " ++ label ++ " business identity index is incomplete"))
  require (∀ e ∈ expected, ∀ identity ∈ actual.get? e.1,
    identity.eventId = e.2.eventId ∧ identity.eventDigest = e.2.digest ∧
      identity.streamId = e.2.streamId ∧ identity.sequence = e.2.sequence)
    (.portfolioReplayError
      ("snapshot " ++ label ++ " business identity metadata does not match applied event"))

def checkIdentity (state : PortfolioReplayState) (cursor : PortfolioStreamCursor)
    (seen : List Uuid × List ℕ) (identity : PortfolioBusinessIdentity) :
    Except Failure (List Uuid × List ℕ) := do
  require (appliedDigest state.appliedEvents identity.eventId = some identity.eventDigest)
    (.portfolioReplayError "snapshot business identity is not bound to an applied event")
  require (identity.streamId = cursor.streamId)
    (.portfolioReplayError "snapshot business identity stream does not match cursor")
  require (identity.sequence ≤ cursor.sequence)
    (.portfolioReplayError "snapshot business identity sequence exceeds cursor")
  require (identity.eventId ∉ seen.1 ∧ identity.sequence ∉ seen.2)
    (.portfolioReplayError "snapshot business identity lineage is duplicated")
  .ok (identity.eventId :: seen.1, identity.sequence :: seen.2)

/-- `max(identities, key=sequence)`: the first of the greatest. -/
def latestIdentity (identities : List PortfolioBusinessIdentity) : Option PortfolioBusinessIdentity :=
  identities.foldl (fun best item =>
    match best with
    | none => some item
    | some current => if current.sequence < item.sequence then some item else some current) none

def checkReconciliationIdentity (state : PortfolioReplayState) : Except Failure Unit :=
  match state.reconciliation, latestIdentity state.reconciliationIdentities with
  | none, none => .ok ()
  | some reconciliation, some latest =>
    require (latest.payloadDigest = payloadDigest codec.toCodec (.reconciliation reconciliation))
      (.portfolioReplayError "snapshot reconciliation identity does not match state")
  | _, _ => .error (.portfolioReplayError "snapshot reconciliation identity is incomplete")

def checkEffectSource (state : PortfolioReplayState) (cursor : PortfolioStreamCursor)
    (effect : PortfolioExecutionEffect) : Except Failure Unit := do
  let source ← canonicalEvent codec effect.sourceEvent.toLedger
  require (source = effect.sourceEvent ∧ source.payload = .fill effect.entry)
    (.portfolioReplayError "snapshot effect source event is invalid")
  let sourceDigest ← serializedDigest codec source
  require (appliedDigest state.appliedEvents source.eventId = some sourceDigest)
    (.portfolioReplayError "snapshot effect is not bound to an applied event")
  require (source.streamId = cursor.streamId)
    (.portfolioReplayError "snapshot effect stream does not match cursor")
  require (source.sequence ≤ cursor.sequence)
    (.portfolioReplayError "snapshot effect source sequence exceeds cursor")
  let identities : Dict Uuid PortfolioBusinessIdentity :=
    Dict.byKey PortfolioBusinessIdentity.identityId state.executionIdentities
  let unbound := Failure.portfolioReplayError "snapshot effect is not bound to its execution identity"
  match identities.get? effect.executionId with
  | none => throw unbound
  | some identity =>
    require (identity.eventId = source.eventId ∧ identity.eventDigest = sourceDigest ∧
      identity.payloadDigest = payloadDigest codec.toCodec (.fill effect.entry) ∧
      identity.sequence = source.sequence) unbound

def checkEffectSequence (state : PortfolioReplayState) (effect : PortfolioExecutionEffect) :
    Except Failure Unit := do
  require (∀ latest ∈ latestIdentity state.reconciliationIdentities,
    latest.sequence < effect.sourceEvent.sequence ∧ latest.sequence < effect.logicalSequence)
    (.portfolioReplayError "snapshot effect predates the latest reconciliation")

def checkEffect (state : PortfolioReplayState) (cursor : PortfolioStreamCursor)
    (seen : List Uuid × List ℕ) (effect : PortfolioExecutionEffect) :
    Except Failure (List Uuid × List ℕ) := do
  require (effect.accountId = state.snapshot.accountId ∧
    effect.entry.accountId = state.snapshot.accountId)
    (.portfolioReplayError "snapshot effect account does not match portfolio account")
  require (effect.logicalSequence ≤ cursor.sequence)
    (.portfolioReplayError "snapshot effect sequence exceeds cursor")
  checkEffectSource codec state cursor effect
  checkEffectSequence state effect
  let source := effect.sourceEvent
  require (source.eventId ∉ seen.1 ∧ effect.logicalSequence ∉ seen.2)
    (.portfolioReplayError "snapshot effects have duplicate lineage")
  require (effect.entry.fill.status.IsNormal → effect.logicalSequence = source.sequence)
    (.portfolioReplayError "snapshot effect logical sequence does not match source")
  require (effect.entry.fill.status = .correction → effect.logicalSequence < source.sequence)
    (.portfolioReplayError "snapshot correction effect lineage is invalid")
  .ok (source.eventId :: seen.1, effect.logicalSequence :: seen.2)

structure LineageProgress where
  quantity : Decimal
  average : Option Price
  prior : List PortfolioExecutionEffect

def checkLineageEffect [DigitLimit] (progress : LineageProgress) (effect : PortfolioExecutionEffect) :
    Except Failure LineageProgress := do
  validateExecutionEffect effect progress.prior
  require (effect.quantityBefore.value = progress.quantity ∧ effect.averageBefore = progress.average)
    (.portfolioReplayError "snapshot effect lineage is not contiguous")
  let nextQuantity ← sum [progress.quantity, effect.quantityDelta.value]
    "snapshot effect lineage quantity"
  .ok ⟨nextQuantity, effect.averageAfter, progress.prior ++ [effect]⟩

def checkLineage [DigitLimit] (state : PortfolioReplayState) (key : PositionKey) : Except Failure Unit :=
  match lineage state.activeEffects key with
  | [] => .ok ()
  | first :: rest => do
    let final ← (first :: rest).foldlM checkLineageEffect
      ⟨first.quantityBefore.value, first.averageBefore, []⟩
    let mismatch := Failure.portfolioReplayError "snapshot effect lineage does not match current position"
    match findPosition state.snapshot.positions key with
    | none => throw mismatch
    | some position =>
      require (position.quantity.value = final.quantity ∧ position.averageEntryPrice = final.average)
        mismatch

def effectKeys (effects : List PortfolioExecutionEffect) : List PositionKey :=
  (Dict.ofList (effects.map fun e => (e.positionKey, ()))).keys

def validatedState [DigitLimit] (state : PortfolioReplayState) : Except Failure PortfolioReplayState :=
  match state.cursor with
  | [cursor] => do
    require (state.appliedEvents.length = cursor.sequence)
      (.portfolioReplayError "snapshot applied event count does not match cursor")
    let _ ← state.appliedEvents.foldlM (checkAppliedEvent cursor) []
    checkReconciliationAccount state
    let expected ← state.appliedEvents.foldlM expectIdentity []
    checkIdentityIndex (expectedOf expected "PortfolioFillEntry") state.executionIdentities "execution"
    checkIdentityIndex (expectedOf expected "PortfolioFundingEntry") state.fundingIdentities "funding"
    checkIdentityIndex (expectedOf expected "PortfolioReconciliationEntry")
      state.reconciliationIdentities "reconciliation"
    let _ ← (state.executionIdentities ++ state.fundingIdentities ++
      state.reconciliationIdentities).foldlM (checkIdentity state cursor) ([], [])
    checkReconciliationIdentity codec state
    let _ ← state.activeEffects.foldlM (checkEffect codec state cursor) ([], [])
    (effectKeys state.activeEffects).forM (checkLineage state)
    .ok state
  | _ => .error (.portfolioReplayError "snapshot cursor must contain exactly one portfolio stream")

/-! ## Documents -/

def validateDocument [DigitLimit] (document : PortfolioReplayResult) : Except Failure PortfolioReplayResult := do
  require (document.schemaVersion = replaySchemaVersion ∧ document.reducerVersion = reducerVersion)
    (.portfolioReplayError "snapshot uses unsupported replay or reducer version")
  let state ← validatedState codec document.state
  require (document.cursor = state.cursor)
    (.portfolioReplayError "snapshot cursor does not match replay state")
  require (document.canonicalSnapshot.accountId = state.snapshot.accountId)
    (.portfolioReplayError "snapshot canonical account does not match replay state")
  let expectedSnapshot ← rescue (deriveAccountSnapshot codec.toCodec state state.snapshot.observedAt)
    (.portfolioReplayError "snapshot canonical portfolio state is invalid")
  let expectedJson ← canonicalStateDocument codec state expectedSnapshot state.cursor
    document.prefixHistoryHash document.schemaVersion document.reducerVersion
  require (document.canonicalStateJson = expectedJson ∧ document.stateHash = codec.sha256 expectedJson)
    (.portfolioReplayError "snapshot state hash does not match canonical state")
  require (document.canonicalSnapshot = expectedSnapshot)
    (.portfolioReplayError "snapshot canonical portfolio state does not match replay state")
  .ok document

def result [DigitLimit] (state : PortfolioReplayState) (prefixHistoryHash : String) :
    Except Failure PortfolioReplayResult := do
  let state ← validatedState codec state
  let canonicalSnapshot ← deriveAccountSnapshot codec.toCodec state state.snapshot.observedAt
  let canonicalJson ← canonicalStateDocument codec state canonicalSnapshot state.cursor
    prefixHistoryHash replaySchemaVersion reducerVersion
  .ok
    { schemaVersion := replaySchemaVersion
      reducerVersion := reducerVersion
      state := state
      canonicalSnapshot := canonicalSnapshot
      cursor := state.cursor
      prefixHistoryHash := prefixHistoryHash
      canonicalStateJson := canonicalJson
      stateHash := codec.sha256 canonicalJson }

/-! ## Histories -/

/-- One round of the loop of `_validate_full_history`: the digests seen and the next sequence. -/
def checkHistoryEvent (accountId : String) (streamId : Uuid) (seen : Dict Uuid String × ℕ)
    (event : PortfolioEvent) : Except Failure (Dict Uuid String × ℕ) := do
  let digest ← serializedDigest codec event
  match seen.1.get? event.eventId with
  | some previous =>
    if previous ≠ digest then throw (.portfolioReplayError "conflicting event identity")
    else throw (.portfolioReplayError "duplicate event identity")
  | none => do
    require (event.streamId = streamId)
      (.portfolioReplayError "portfolio event stream does not match opening stream")
    require (event.sequence = seen.2)
      (.portfolioReplayError ("portfolio sequence expected " ++ toString seen.2 ++ ", got " ++
        toString event.sequence))
    require (event.payload.accountId = accountId)
      (.portfolioReplayError "portfolio event account does not match opening account")
    require (seen.2 > 1 → event.payload.isOpening = false)
      (.portfolioReplayError "portfolio opening may only appear once")
    .ok (seen.1.set event.eventId digest, seen.2 + 1)

def validateFullHistory (events : List PortfolioEvent) : Except Failure Unit :=
  match events with
  | [] => .error (.portfolioReplayError "portfolio event history requires an opening entry")
  | first :: rest => do
    require (first.payload.isOpening = true)
      (.portfolioReplayError "first portfolio event must be an opening entry")
    let _ ← (first :: rest).foldlM
      (checkHistoryEvent codec first.payload.accountId first.streamId) ([], 1)
    .ok ()

/-- One round of the loop of `_validate_tail`. -/
def checkTailEvent (state : PortfolioReplayState) (cursor : PortfolioStreamCursor)
    (seen : Dict Uuid String × ℕ) (event : PortfolioEvent) :
    Except Failure (Dict Uuid String × ℕ) := do
  let digest ← serializedDigest codec event
  let known := appliedDigest state.appliedEvents event.eventId
  require (known = none ∨ known = some digest) (.portfolioReplayError "conflicting event identity")
  require (event.streamId = cursor.streamId)
    (.portfolioReplayError "tail event stream does not match snapshot cursor")
  require (cursor.sequence < event.sequence)
    (.portfolioReplayError "tail event is not newer than snapshot cursor")
  require (known = none) (.portfolioReplayError "tail event duplicates snapshot history")
  match seen.1.get? event.eventId with
  | some previous =>
    if previous ≠ digest then throw (.portfolioReplayError "conflicting event identity")
    else throw (.portfolioReplayError "duplicate tail event identity")
  | none => do
    require (event.sequence = seen.2)
      (.portfolioReplayError ("tail sequence expected " ++ toString seen.2 ++ ", got " ++
        toString event.sequence))
    require (event.payload.accountId = state.snapshot.accountId)
      (.portfolioReplayError "tail event account does not match portfolio account")
    require (event.payload.isOpening = false)
      (.portfolioReplayError "portfolio opening may not appear in snapshot tail")
    .ok (seen.1.set event.eventId digest, seen.2 + 1)

def validateTail (events : List PortfolioEvent) (snapshot : PortfolioSnapshotRecord) :
    Except Failure Unit :=
  match snapshot.state.cursor with
  | [] => .error .attributeError
  | cursor :: _ => do
    let _ ← events.foldlM (checkTailEvent codec snapshot.state cursor) ([], cursor.sequence + 1)
    .ok ()

def validateAuthority (authority : PortfolioSnapshotAuthority) (snapshot : PortfolioSnapshotRecord) :
    Except Failure PortfolioSnapshotAuthority :=
  let mismatch := Failure.portfolioReplayError "snapshot authority does not match snapshot record"
  match snapshot.cursor with
  | [cursor] => do
    require (authority.schemaVersion = snapshot.schemaVersion ∧
      authority.reducerVersion = snapshot.reducerVersion ∧
      authority.accountId = snapshot.state.snapshot.accountId ∧
      authority.streamId = cursor.streamId ∧ authority.cursorSequence = cursor.sequence ∧
      authority.snapshotStateHash = snapshot.stateHash ∧
      authority.prefixHistoryHash = snapshot.prefixHistoryHash) mismatch
    .ok authority
  | _ => .error mismatch

/-! ## Replay -/

/-- One round of the tail loop: apply the event and extend the hash. -/
def replayEvent [DigitLimit] (progress : PortfolioReplayState × String) (event : PortfolioEvent) :
    Except Failure (PortfolioReplayState × String) := do
  let state ← applyPortfolioEvent codec.toCodec progress.1 event
  let prefixHistoryHash ← extendHistoryHash codec progress.2 event
  .ok (state, prefixHistoryHash)

/-- A `ValueError` that is not a `PortfolioReplayError` becomes "portfolio replay failed". -/
def replayFailure : Failure → Failure
  | .valueError _ => .portfolioReplayError "portfolio replay failed"
  | e => e

def replayFull [DigitLimit] (events : List LedgerEvent) : Except Failure PortfolioReplayResult := do
  let batch ← canonicalEvents codec events
  validateFullHistory codec batch
  Except.mapError replayFailure do
    let prefixHistoryHash ← batch.foldlM (extendHistoryHash codec) (codec.sha256 "")
    result codec (← reducePortfolioEvents codec.toCodec batch) prefixHistoryHash

/-- `replay_portfolio(events, snapshot=..., authority=...)` -/
def replayTail [DigitLimit] (events : List LedgerEvent) (snapshot : PortfolioSnapshotRecord)
    (authority : PortfolioSnapshotAuthority) : Except Failure PortfolioReplayResult := do
  let batch ← canonicalEvents codec events
  let validatedAuthority ← validateAuthority authority snapshot
  let validatedSnapshot ← validateDocument codec snapshot
  validateTail codec batch validatedSnapshot
  Except.mapError replayFailure do
    let replayed ← batch.foldlM (replayEvent codec)
      (validatedSnapshot.state, validatedAuthority.prefixHistoryHash)
    result codec replayed.1 replayed.2

/-- `replay_portfolio` -/
def replayPortfolio [DigitLimit] (events : List LedgerEvent) (snapshot : Option PortfolioSnapshotRecord)
    (authority : Option PortfolioSnapshotAuthority) : Except Failure PortfolioReplayResult :=
  match snapshot, authority with
  | none, none => replayFull codec events
  | some snapshot, some authority => replayTail codec events snapshot authority
  | _, _ => .error (.portfolioReplayError "snapshot and authority must be supplied together")

def snapshotFromPortfolioResult [DigitLimit] (result : PortfolioReplayResult) :
    Except Failure PortfolioSnapshotRecord := do
  let validated ← validateDocument codec result
  validateDocument codec validated

def snapshotAuthorityFromResult [DigitLimit] (result : PortfolioReplayResult) :
    Except Failure PortfolioSnapshotAuthority := do
  let validated ← validateDocument codec result
  match validated.cursor with
  | [] => throw .attributeError
  | cursor :: _ =>
    .ok
      { schemaVersion := validated.schemaVersion
        reducerVersion := validated.reducerVersion
        accountId := validated.state.snapshot.accountId
        streamId := cursor.streamId
        cursorSequence := cursor.sequence
        snapshotStateHash := validated.stateHash
        prefixHistoryHash := validated.prefixHistoryHash }

end TradingAgent.PortfolioReducer
