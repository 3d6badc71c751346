import TradingAgent.AlphaCampaign.Lifecycle

/-!
# Publication

`worker_commit_alpha_campaign` and `p3_publication_authorized` as the migrations 0020, 0021, 0023 and 0030 leave them,
and `append_domain_event` of 0008. A call is one transaction.
-/

namespace TradingAgent.AlphaCampaign

open Outcome ThreeValued CanonicalJson
open JobPlane (Raised isSha256 isHexChar notNull uniqueViolation Event)
open Jsonb (get getText path pathText text isKind isObjectOf hasKey wholeNumber octetLength buildObject)

/-- What a publication asks of the server besides: the default collation, and the hexadecimal `sha256` of the framed
arguments of an append. -/
structure Publisher extends Server where
  collates : String → String → Bool
  requestDigest : List String → String

/-! ## Rows -/

structure Head where
  (alphaId alphaVersion streamId : String)
  registrySequence : ℤ
  (registryEventSha256 registryEventText ledgerEventId : String)

def Head.updatedBy (row h : Head) : Head :=
  if h.alphaId = row.alphaId ∧ h.alphaVersion = row.alphaVersion then { row with streamId := h.streamId } else h

structure CommitRow where
  (jobId idempotencyKey semanticRequestDigest : String)
  resultJson : Json
  (resultText resultDigest publicationRequestText outputInventoryRefText outputAttemptId : String)

/-- A row of `domain_events`, with the digest of its append in `event_append_idempotency`. -/
structure LedgerEvent where
  (eventId streamId : String)
  sequence : ℤ
  (eventType canonicalEventText requestDigest : String)

structure Database where
  plane : Tables
  heads : List Head
  commits : List CommitRow
  ledger : List LedgerEvent

namespace Database

variable (db : Database)

def head? (alphaId alphaVersion : Option String) : Option Head :=
  db.heads.find? fun h => some h.alphaId = alphaId ∧ some h.alphaVersion = alphaVersion

def commit? (jobId : String) (idempotencyKey : Option String) : Option CommitRow :=
  db.commits.find? fun c => c.jobId = jobId ∧ some c.idempotencyKey = idempotencyKey

/-- `COALESCE(MAX(e.sequence), 0) + 1` of a stream. -/
def nextOfStream (streamId : String) : ℤ :=
  ((db.ledger.filter fun e => e.streamId = streamId).map (·.sequence)).foldr max 0 + 1

/-- `INSERT INTO p3_alpha_heads … ON CONFLICT (alpha_id, alpha_version) DO UPDATE` -/
def putHead (row : Head) : Except Raised Database := do
  require (1 ≤ row.registrySequence) (checkViolation "p3_alpha_heads_registry_sequence_check")
  require (isSha256 row.registryEventSha256 = true) (checkViolation "p3_alpha_heads_registry_event_sha256_check")
  match db.head? (some row.alphaId) (some row.alphaVersion) with
  | none => do
    require (∀ h ∈ db.heads, h.streamId ≠ row.streamId) (uniqueViolation "p3_alpha_heads_stream_id_key")
    require (∀ h ∈ db.heads, h.ledgerEventId ≠ row.ledgerEventId)
      (uniqueViolation "p3_alpha_heads_ledger_event_id_key")
    .ok { db with heads := db.heads ++ [row] }
  | some _ => do
    require (∀ h ∈ db.heads, h.ledgerEventId = row.ledgerEventId →
      h.alphaId = row.alphaId ∧ h.alphaVersion = row.alphaVersion)
      (uniqueViolation "p3_alpha_heads_ledger_event_id_key")
    .ok { db with heads := db.heads.map row.updatedBy }

end Database

/-! ## Formats -/

/-- `^[0-9a-f]{8}-[0-9a-f]{4}-5[0-9a-f]{3}-[89ab][0-9a-f]{3}-[0-9a-f]{12}$` -/
def isUuid5 (value : String) : Bool :=
  isUuid value && decide (value.toList[14]? = some '5') &&
    ((value.toList[19]?).any fun c => ['8', '9', 'a', 'b'].contains c)

def elements (value : Option Json) : List Json := (value.bind Json.items?).getD []

/-- `jsonb_array_length(value)` of an array or null. -/
def lengthOf (value : Option Json) : Option ℕ := (value.bind Json.items?).map List.length

/-- `text::jsonb` of a text that may be null. -/
def valueOf (text : Option String) : Except Raised (Option Json) :=
  match text with
  | none => .ok none
  | some t => (jsonbOf t).map some

/-- `text::bigint` of a text that may be null. -/
def bigintOf (text : Option String) : Except Raised (Option ℤ) :=
  match Jsonb.bigint text with
  | some value => .ok value
  | none => .error ⟨"invalid input syntax for type bigint", "22P02"⟩

/-- `public.canonical_domain_json_string` of a text that may be null. -/
def canonicalString (text : Option String) : Except Raised (Option String) :=
  match text with
  | none => .ok none
  | some t => (canonicalDomainJsonString t).map some

/-- `count(*) FROM jsonb_object_keys(value)` -/
def keyCount (value : Option Json) : Except Raised ℕ :=
  match value with
  | none => .ok 0
  | some v => match v.keys? with
    | some keys => .ok keys.length
    | none => .error ⟨"cannot call jsonb_object_keys on a non-object", "22023"⟩

/-! ## Entries -/

/-- `(entry->>'canonical_event_text')::jsonb` -/
def entryEvent (entry : Json) : Except Raised (Option Json) := valueOf (getText (some entry) "canonical_event_text")

/-- `(event#>>'{payload,registry_event_text}')::jsonb` -/
def eventRegistry (event : Option Json) : Except Raised (Option Json) :=
  valueOf (pathText event ["payload", "registry_event_text"])

def readEntry (entry : Json) : Except Raised (Option Json × Option Json) := do
  let event ← entryEvent entry
  let registry ← eventRegistry event
  .ok (event, registry)

def statesOf (documents : List (Option Json × Option Json)) : List Json :=
  documents.map fun d => (path d.2 ["record", "lifecycle_status"]).getD .null

def stageStates : String → List (List String)
  | "REGISTER" => [["IDEA", "CANDIDATE", "IDEA", "CANDIDATE", "IDEA", "CANDIDATE", "IDEA", "CANDIDATE"]]
  | "RESEARCH_DECISION" => [["RESEARCHED", "OOS_PASS"], ["RESEARCHED", "REJECTED"]]
  | "EXIT_DECISION" => [["QUALIFIED"], ["REJECTED"]]
  | _ => []

def expectedStage (workflowOperation : Option String) : Option String :=
  match workflowOperation with
  | some "p3-register-family-v1" => some "REGISTER"
  | some "p3-oos-a0-v1" | some "p3-oos-a1-v1" | some "p3-oos-a2-v1" | some "p3-oos-a3-v1" =>
    some "RESEARCH_DECISION"
  | some "p3-phase-exit-v1" => some "EXIT_DECISION"
  | _ => none

def decisionAgrees (record : Option Json) : Truth :=
  let status := getText record "lifecycle_status"
  let decision := getText record "qualification_decision"
  if status = some "IDEA" ∨ status = some "CANDIDATE" then
    allOf [eq decision (some "NOT_EVALUATED"), eq (get record "metrics_sha256") (some .null),
      eq (get record "robustness_sha256") (some .null)]
  else if status = some "OOS_PASS" ∨ status = some "QUALIFIED" then
    allOf [eq decision (some "PASS"), test isSha256 (getText record "metrics_sha256"),
      test isSha256 (getText record "robustness_sha256")]
  else if status = some "REJECTED" then eq decision (some "FAIL")
  else some true

def referenceAgrees (event : Option Json) (ref : Json) : Bool :=
  p3ValidRef (some ref) &&
    decide (getText (some ref) "content_sha256" = pathText event ["payload", "registry_event_sha256"]) &&
    decide (getText (some ref) "media_type" = some "application/json") &&
    decide (getText (some ref) "size_bytes" =
      (pathText event ["payload", "registry_event_text"]).map fun t => toString (octetLength t))

def inScope (payload request intent : Json) (documents : Option Json × Option Json) : Bool :=
  decide (holds (hasKey (get (some intent) "allowed_alpha_ids") (pathText documents.1 ["payload", "alpha_id"]))) &&
    decide (pathText documents.1 ["payload", "evidence_sha256"] =
      pathText (some request) ["evidence_ref", "content_sha256"]) &&
    decide (pathText documents.1 ["payload", "alpha_version"] = some "1.0.0") &&
    decide (pathText documents.2 ["record", "source_sha"] = pathText (some payload) ["expected_source", "commit_sha"])

variable (publisher : Publisher)

/-- `ORDER BY value->>'alpha_id'`, nulls last. -/
def collatesText (x y : Option String) : Bool :=
  match x, y with
  | some a, some b => publisher.collates a b
  | _, none => true
  | none, some _ => false

/-- `jsonb_agg(h->'alpha_id' ORDER BY h->>'alpha_id')` -/
def expectedIds (request : Json) : List Json :=
  ((elements (get (some request) "expected_heads")).insertionSort fun x y =>
    collatesText publisher (getText (some x) "alpha_id") (getText (some y) "alpha_id") = true).map fun h =>
      (get (some h) "alpha_id").getD .null

/-- The conditions of `p3_publication_authorized` on the request and the entries of its stage. -/
def publicationAgrees (payload request intent : Json) (stage : String)
    (documents : List (Option Json × Option Json)) : Truth :=
  let refs := elements (get (some request) "proposed_event_refs")
  allOf [
    eq (getText (some request) "stage") (some stage),
    some (documents.all fun d => decide (holds (decisionAgrees (d.2.bind fun r => get (some r) "record")))),
    some (p3ValidRef (get (some request) "evidence_ref")),
    eq (lengthOf (get (some request) "proposed_event_refs")) (some documents.length),
    some ((documents.zip refs).all fun d => referenceAgrees d.1.1 d.2),
    eq (if expectedIds publisher request = [] then none else some (.arr (expectedIds publisher request)))
      (get (some intent) "allowed_alpha_ids"),
    some ((elements (get (some request) "expected_heads")).all fun h =>
      decide (getText (some h) "version" = some "1.0.0")),
    some (documents.all fun d => inScope payload request intent d)]

/-- `job_plane.p3_publication_authorized`, with its two readings of the clock. -/
def p3PublicationAuthorized (payload : Json) (boundJob : String) (request : Json) (entries : List Json)
    (issuedBy expiresAfter : DateTime) (tables : Tables) : Except Raised Bool := do
  let authorized ← p3PayloadAuthorized publisher.toServer payload (some boundJob) issuedBy expiresAfter tables
  if authorized then
    match (authorizationSha payload).bind tables.operation? with
    | none => .ok false
    | some operation => do
      let intent ← jsonbOf operation.intentText
      match expectedStage (getText (some intent) "workflow_operation") with
      | none => .ok false
      | some stage => do
        let documents ← entries.mapM readEntry
        .ok (decide ((stageStates stage).any (fun states => statesOf documents == states.map Json.str) = true ∧
          holds (publicationAgrees publisher payload request intent stage documents)))
  else .ok false

/-! ## The domain ledger -/

/-- `public.append_domain_event`; a null argument never gets past the insertions. -/
def appendDomainEvent (eventId streamId : Option String) (sequence : Option ℤ)
    (eventType canonicalEventText topic payloadJson : Option String) (db : Database) : Except Raised Database := do
  let eventId ← notNull eventId (notNullViolation "event_id")
  let streamId ← notNull streamId (notNullViolation "stream_id")
  let sequence ← notNull sequence (notNullViolation "sequence")
  let eventType ← notNull eventType (notNullViolation "event_type")
  let eventText ← notNull canonicalEventText (notNullViolation "canonical_event_text")
  let topic ← notNull topic (notNullViolation "topic")
  let payloadText ← notNull payloadJson (notNullViolation "payload_text")
  let event ← jsonbOf eventText
  let canonicalEvent ← canonicalDomainJsonString eventText
  require (eventText = canonicalEvent) ⟨"event JSON is not canonically encoded", "23514"⟩
  let canonicalPayload ← canonicalDomainJsonString payloadText
  require (payloadText = canonicalPayload) ⟨"outbox payload JSON is not canonically encoded", "23514"⟩
  require (event.kind = .object ∧ getText (some event) "event_id" = some eventId ∧
      getText (some event) "stream_id" = some streamId ∧ getText (some event) "sequence" = some (toString sequence) ∧
      getText (some event) "event_type" = some eventType)
    ⟨"event envelope metadata does not match append arguments", "23514"⟩
  let digest := publisher.requestDigest
    [eventId, streamId, toString sequence, eventType, eventText, topic, payloadText]
  match db.ledger.find? fun e => e.eventId = eventId with
  | some e => do
    require (e.requestDigest = digest) ⟨"conflicting duplicate event", "23505"⟩
    .ok db
  | none => do
    require (sequence = db.nextOfStream streamId) ⟨"expected sequence for stream", "23514"⟩
    .ok { db with ledger := db.ledger ++ [⟨eventId, streamId, sequence, eventType, eventText, digest⟩] }

/-! ## The request -/

structure CommitArguments where
  (jobId attemptId workerId leaseToken requestText traceId : Option String)

def transportKeys : List String :=
  ["job_id", "attempt_id", "worker_id", "lease_token", "request", "entries", "output_inventory_ref"]

def outputCustody (transport : Json) : Truth :=
  allOf [isKind .object (some transport), isObjectOf (some transport) transportKeys,
    some (p3ValidRef (get (some transport) "output_inventory_ref")),
    eq (pathText (some transport) ["output_inventory_ref", "media_type"]) (some "application/json"),
    test (fun n => decide (1 ≤ n ∧ n ≤ 4194304)) (wholeNumber (pathText (some transport)
      ["output_inventory_ref", "size_bytes"]))]

def readTransport (p : CommitArguments) : Except Raised Json := do
  let unauthorized : Raised := ⟨"P3 commit authority rejected", "42501"⟩
  let rejected : Raised := ⟨"P3 commit transport rejected", "22023"⟩
  let text ← notNull p.requestText unauthorized
  require (octetLength text ≤ 1048576) unauthorized
  let transport ← jsonbOf text
  raiseUnless (outputCustody transport) ⟨"P3 output custody transport rejected", "22023"⟩
  let canonical ← canonicalDomainJsonString text
  require (text = canonical) rejected
  let keys ← keyCount (some transport)
  raiseIf (anyOf [some (decide (keys ≠ 7)),
    ne (getText (some transport) "job_id") p.jobId, ne (getText (some transport) "attempt_id") p.attemptId,
    ne (getText (some transport) "worker_id") p.workerId, ne (getText (some transport) "lease_token") p.leaseToken,
    not (isKind .array (get (some transport) "entries")),
    test (fun n => decide (n < 1 ∨ 8 < n)) (lengthOf (get (some transport) "entries"))]) rejected
  .ok transport

def headIdentity (head : Json) : Option String × Option String :=
  (getText (some head) "alpha_id", getText (some head) "version")

def readRequest (jobId : Option String) (transport : Json) : Except Raised Json := do
  let rejected : Raised := ⟨"P3 publication request rejected", "22023"⟩
  let keys ← keyCount (get (some transport) "request")
  require (keys = 9) rejected
  let request ← notNull (get (some transport) "request") rejected
  let heads := get (some request) "expected_heads"
  let refs := get (some request) "proposed_event_refs"
  let entries := lengthOf (get (some transport) "entries")
  let body ← canonicalDomainJson (request.without "digest")
  raiseIf (anyOf [
    ne (getText (some request) "schema_version") (some "p3-publication-request-v1"),
    ne (getText (some request) "job_id") jobId,
    not (test (["REGISTER", "RESEARCH_DECISION", "EXIT_DECISION"].contains ·) (getText (some request) "stage")),
    not (isKind .array heads), test (fun n => decide (n < 1 ∨ 4 < n)) (lengthOf heads),
    not (isKind .array refs), ne (lengthOf refs) entries,
    not (test isSha256 (getText (some request) "semantic_request_digest")),
    ne (getText (some request) "digest") (some (publisher.sha256 body))]) rejected
  raiseIf (and (eq (getText (some request) "stage") (some "REGISTER"))
      (or (ne (lengthOf heads) (some 4)) (ne entries (some 8))))
    ⟨"P3 registration batch must contain four IDEA/CANDIDATE pairs", "22023"⟩
  require ((elements heads).map headIdentity).Nodup ⟨"P3 expected heads contain duplicate identities", "22023"⟩
  .ok request

/-! ## Fences -/

/-- `result_json` with its output, as a call returns it. -/
def wrapper (result : Json) (outputInventoryRef : Option Json) (outputAttemptId : Option String) : Json :=
  buildObject [("result", some result), ("output_inventory_ref", outputInventoryRef),
    ("output_attempt_id", outputAttemptId.map Json.str)]

def storedResult (p : CommitArguments) (transport request : Json) (existing : CommitRow) : Except Raised Json := do
  let conflict : Raised := ⟨"E_IDEMPOTENCY_CONFLICT", "23505"⟩
  let requestText ← canonicalDomainJson request
  let outputText ← canonicalText (get (some transport) "output_inventory_ref")
  raiseIf (anyOf [
    ne (some existing.semanticRequestDigest) (getText (some request) "semantic_request_digest"),
    distinct (some existing.publicationRequestText) (some requestText),
    distinct (some existing.outputInventoryRefText) outputText,
    distinct (some existing.outputAttemptId) p.attemptId]) conflict
  let output ← jsonbOf existing.outputInventoryRefText
  .ok (wrapper existing.resultJson (some output) (some existing.outputAttemptId))

def commitAttempt (clock : Clock) (p : CommitArguments) (jobId : String) (job : Job) (tables : Tables) :
    Except Raised JobPlane.Attempt := do
  let stale : Raised := ⟨"E_STALE_FENCE", "P3D01"⟩
  require (job.state ≠ .cancelRequested) ⟨"CANCELLED_BEFORE_COMMIT", "P3D02"⟩
  raiseIf (anyOf [some (decide (job.state ≠ .running)), ne job.leaseOwner p.workerId, ne job.leaseToken p.leaseToken,
    leaseBy (clock.reading 0) job]) stale
  let attempt ← notNull (p.attemptId.bind fun attemptId => tables.attempt? attemptId jobId) stale
  raiseIf (anyOf [some (decide (attempt.outcome ≠ .running)), ne (some attempt.workerId) p.workerId,
    ne (some attempt.leaseToken) p.leaseToken, some (decide (attempt.leaseExpiresAt ≤ clock.reading 1)),
    some (decide (attempt.attemptNumber ≠ job.attemptCount))]) stale
  .ok attempt

def publicationSourced (clock : Clock) (jobId : String) (job : Job) (request : Json) (entries : List Json)
    (tables : Tables) : Except Raised Bool :=
  match (authorizationSha job.payload).bind tables.campaign? with
  | none => .ok false
  | some campaign => do
    let authorized ← p3PublicationAuthorized publisher job.payload jobId request entries (clock.reading 2)
      (clock.reading 3) tables
    let sourceText ← expectedSourceText job.payload
    .ok (authorized && decide (holds (allOf [
      eq (some campaign.operation) (getText (some job.payload) "operation"),
      eq (some campaign.sourceCommitSha) (pathText (some job.payload) ["expected_source", "commit_sha"]),
      eq (some campaign.sourceIdentityText) sourceText, some (decide (clock.reading 4 < campaign.expiresAt))])))

def publicationFence (clock : Clock) (first : ℕ) (jobId : String) (job : Job) (attempt : JobPlane.Attempt)
    (request : Json) (entries : List Json) (tables : Tables) : Except Raised Unit := do
  let expired : Raised := ⟨"P3 publication fence or operation expired", "P3D03"⟩
  raiseIf (leaseBy (clock.reading first) job) expired
  require (¬ attempt.leaseExpiresAt ≤ clock.reading (first + 1)) expired
  let authorized ← p3PublicationAuthorized publisher job.payload jobId request entries (clock.reading (first + 2))
    (clock.reading (first + 3)) tables
  require (authorized = true) expired

def headBefore (x y : Json) : Bool :=
  if (headIdentity x).1 = (headIdentity y).1 then collatesText publisher (headIdentity x).2 (headIdentity y).2
  else collatesText publisher (headIdentity x).1 (headIdentity y).1

def checkHead (db : Database) (expected : Json) : Except Raised Unit := do
  let invalid : Raised := ⟨"P3 expected head is invalid", "22023"⟩
  let keys ← keyCount (some expected)
  require (keys = 4) invalid
  raiseIf (anyOf [not (test isAlphaSlug (getText (some expected) "alpha_id")),
    not (test isVersion (getText (some expected) "version")), not (test isWhole (getText (some expected) "sequence"))])
    invalid
  let sequence ← bigintOf (getText (some expected) "sequence")
  raiseIf (or (distinct (eq sequence (some 0)) (eq (get (some expected) "event_digest") (some .null)))
    (and (ne (get (some expected) "event_digest") (some .null))
      (not (test isSha256 (getText (some expected) "event_digest"))))) invalid
  let head := db.head? (headIdentity expected).1 (headIdentity expected).2
  raiseIf (or (ne (some ((head.map (·.registrySequence)).getD 0)) sequence)
    (distinct (head.map (·.registryEventSha256)) (getText (some expected) "event_digest")))
    ⟨"E_STALE_HEAD", "40001"⟩

/-! ## Appending an entry -/

def identityFields : List String :=
  ["alpha_id", "version", "source_sha", "implementation_identity", "dataset_snapshot_sha256", "feature_set",
    "parameter_set_sha256", "training_start_at", "training_end_at", "validation_start_at", "validation_end_at",
    "oos_start_at", "oos_end_at", "universe", "cost_model_sha256", "baseline_id", "baseline_version", "lineage",
    "superseded_version"]

/-- `registry#>>'{record,lifecycle_status}'` -/
def statusText (registry : Option Json) : Option String := pathText registry ["record", "lifecycle_status"]

def transitionAllowed (previous next : Option String) : Truth :=
  match previous with
  | some "IDEA" => test (["CANDIDATE", "REJECTED", "RETIRED"].contains ·) next
  | some "CANDIDATE" => test (["RESEARCHED", "REJECTED", "RETIRED"].contains ·) next
  | some "RESEARCHED" => test (["OOS_PASS", "REJECTED", "RETIRED"].contains ·) next
  | some "OOS_PASS" => test (["QUALIFIED", "REJECTED", "RETIRED"].contains ·) next
  | some "QUALIFIED" => test (["PAPER_OBSERVED", "RETIRED"].contains ·) next
  | some "PAPER_OBSERVED" => eq next (some "RETIRED")
  | some "REJECTED" => eq next (some "RETIRED")
  | _ => some false

def stageStatuses : Option String → List String
  | some "REGISTER" => ["IDEA", "CANDIDATE"]
  | some "RESEARCH_DECISION" => ["RESEARCHED", "OOS_PASS", "REJECTED"]
  | some "EXIT_DECISION" => ["QUALIFIED", "REJECTED"]
  | _ => []

/-- An entry that was committed, with its head. -/
structure Committed where
  (event registry : Json)
  row : Head

def checkEntry (entry : Json) : Except Raised Unit := do
  let keys ← keyCount (some entry)
  raiseIf (anyOf [some (decide (keys ≠ 7)),
    ne (getText (some entry) "event_type") (some "AlphaRegistryTransitionRecordedV1"),
    ne (getText (some entry) "topic") (some "p3.alpha-registry"),
    not (test isUuid5 (getText (some entry) "event_id")), not (test isUuid5 (getText (some entry) "stream_id")),
    not (test isPositive (getText (some entry) "sequence")),
    test (fun text => decide (65536 < octetLength text)) (getText (some entry) "outbox_payload_text")])
    ⟨"P3 append entry rejected", "22023"⟩

def checkEvent (entry : Json) (event : Option Json) (sequence : Option ℤ) : Except Raised Unit := do
  let canonical ← canonicalString (getText (some entry) "canonical_event_text")
  let eventSequence ← bigintOf (getText event "sequence")
  raiseIf (anyOf [ne (getText (some entry) "canonical_event_text") canonical,
    ne (getText event "event_id") (getText (some entry) "event_id"),
    ne (getText event "stream_id") (getText (some entry) "stream_id"), ne eventSequence sequence,
    ne (getText event "event_type") (some "AlphaRegistryTransitionRecordedV1")])
    ⟨"P3 event envelope rejected", "22023"⟩
  let outbox ← valueOf (getText (some entry) "outbox_payload_text")
  let canonicalOutbox ← canonicalString (getText (some entry) "outbox_payload_text")
  raiseIf (or (ne (getText (some entry) "outbox_payload_text") canonicalOutbox)
    (ne (getText outbox "event_id") (getText (some entry) "event_id"))) ⟨"P3 outbox payload rejected", "22023"⟩

def checkRegistry (request : Json) (event registry : Option Json) (sequence : Option ℤ) : Except Raised Unit := do
  let canonical ← canonicalText registry
  let registrySequence ← bigintOf (getText registry "sequence")
  let sha := pathText event ["payload", "registry_event_sha256"]
  raiseIf (anyOf [ne sha (canonical.map publisher.sha256),
    ne (getText registry "schema_version") (some "alpha-registry-event-v1"), ne registrySequence sequence,
    distinct (getText registry "predecessor_sha256") (pathText event ["payload", "predecessor_sha256"]),
    ne (pathText registry ["record", "alpha_id"]) (pathText event ["payload", "alpha_id"]),
    ne (pathText registry ["record", "version"]) (pathText event ["payload", "alpha_version"]),
    ne (pathText registry ["record", "schema_version"]) (some "alpha-record-v1"),
    some (!(elements (get (some request) "proposed_event_refs")).any fun r =>
      decide (holds (and (eq (getText (some r) "content_sha256") sha)
        (eq (getText (some r) "locator") ((getText (some r) "content_sha256").map (· ++ ".blob"))))))])
    ⟨"P3 registry event rejected", "22023"⟩

def checkTransition (request : Json) (registry : Option Json) (sequence : Option ℤ) (db : Database) :
    Except Raised Unit := do
  let stage := getText (some request) "stage"
  match db.head? (pathText registry ["record", "alpha_id"]) (pathText registry ["record", "version"]) with
  | none =>
    raiseIf (anyOf [ne sequence (some 1), ne (get registry "predecessor_sha256") (some .null),
      ne (statusText registry) (some "IDEA"), ne stage (some "REGISTER")])
      ⟨"P3 initial registry transition rejected", "P3D04"⟩
  | some head => do
    let previous ← jsonbOf head.registryEventText
    let previousSequence ← bigintOf (getText (some previous) "sequence")
    let canonical ← canonicalDomainJson previous
    raiseIf (anyOf ([ne sequence (previousSequence.map (· + 1)),
      ne (getText registry "predecessor_sha256") (some (publisher.sha256 canonical))] ++
      identityFields.map fun field => distinct (path registry ["record", field]) (path (some previous) ["record", field])))
      ⟨"P3 registry predecessor or identity rejected", "P3D04"⟩
    raiseIf (not (transitionAllowed (statusText (some previous)) (statusText registry)))
      ⟨"P3 illegal registry transition", "P3D04"⟩

def checkStage (request : Json) (registry : Option Json) : Except Raised Unit :=
  let stage := getText (some request) "stage"
  raiseIf (anyOf (["REGISTER", "RESEARCH_DECISION", "EXIT_DECISION"].map fun s =>
    and (eq stage (some s)) (not (test ((stageStatuses (some s)).contains ·) (statusText registry)))))
    ⟨"P3 registry stage transition rejected", "P3D04"⟩

def headOf (entry : Json) (event : Option Json) (sequence : Option ℤ) : Except Raised Head := do
  let alphaId ← notNull (pathText event ["payload", "alpha_id"]) (notNullViolation "alpha_id")
  let alphaVersion ← notNull (pathText event ["payload", "alpha_version"]) (notNullViolation "alpha_version")
  let streamId ← notNull (getText (some entry) "stream_id") (notNullViolation "stream_id")
  let registrySequence ← notNull sequence (notNullViolation "registry_sequence")
  let sha ← notNull (pathText event ["payload", "registry_event_sha256"]) (notNullViolation "registry_event_sha256")
  let registryText ← notNull (pathText event ["payload", "registry_event_text"])
    (notNullViolation "registry_event_text")
  let eventId ← notNull (getText (some entry) "event_id") (notNullViolation "ledger_event_id")
  .ok ⟨alphaId, alphaVersion, streamId, registrySequence, sha, registryText, eventId⟩

def appendEntry (request entry : Json) (db : Database) : Except Raised (Committed × Database) := do
  checkEntry entry
  let sequence ← bigintOf (getText (some entry) "sequence")
  let event ← entryEvent entry
  checkEvent entry event sequence
  let registry ← eventRegistry event
  checkRegistry publisher request event registry sequence
  checkTransition publisher request registry sequence db
  checkStage request registry
  let appended ← appendDomainEvent publisher (getText (some entry) "event_id") (getText (some entry) "stream_id")
    sequence (getText (some entry) "event_type") (getText (some entry) "canonical_event_text")
    (getText (some entry) "topic") (getText (some entry) "outbox_payload_text") db
  let row ← headOf entry event sequence
  let written ← appended.putHead row
  let event ← notNull event (notNullViolation "canonical_event")
  let registry ← notNull registry (notNullViolation "registry_event_text")
  .ok (⟨event, registry, row⟩, written)

def appendEntries (request : Json) : List Json → Database → Except Raised (List Committed × Database)
  | [], db => .ok ([], db)
  | entry :: rest, db => do
    let (committed, appended) ← appendEntry publisher request entry db
    let (others, final) ← appendEntries request rest appended
    .ok (committed :: others, final)

/-! ## Committing -/

def alphaOutcome (request : Json) (last : Option Json) : String :=
  if getText (some request) "stage" = some "REGISTER" then "NOT_EVALUATED"
  else if pathText last ["record", "qualification_decision"] = some "PASS" then "PASS" else "FAIL"

def resultBody (jobId : String) (request : Json) (entries : List Json) (last : Option Json) : List (String × Option Json) :=
  [("schema_version", some (.str "p3-job-commit-result-v1")), ("job_id", some (.str jobId)),
    ("idempotency_key", get (some request) "idempotency_key"),
    ("semantic_request_digest", get (some request) "semantic_request_digest"),
    ("prepublication_ref", get (some request) "evidence_ref"),
    ("ledger_event_ids", some (.arr (entries.map fun entry => (get (some entry) "event_id").getD .null))),
    ("registry_event_refs", get (some request) "proposed_event_refs"),
    ("alpha_outcome", some (.str (alphaOutcome request last)))]

def requestKeys : List String :=
  ["schema_version", "idempotency_key", "semantic_request_digest", "stage", "evidence_ref", "expected_heads",
    "proposed_event_refs", "job_id", "digest"]

/-- `INSERT INTO public.p3_alpha_job_commits` -/
def insertCommit (row : CommitRow) (db : Database) : Except Raised Database := do
  require (isSha256 row.semanticRequestDigest = true ∧ isSha256 row.resultDigest = true)
    (checkViolation "p3_alpha_job_commits_check")
  let custody : Raised := checkViolation "p3_publication_custody"
  let request ← p3CheckedObject publisher.toServer (some row.publicationRequestText) "p3-publication-request-v1" requestKeys
  raiseUnless (allOf [eq (getText (some request) "job_id") (some row.jobId),
    eq (getText (some request) "idempotency_key") (some row.idempotencyKey),
    eq (getText (some request) "semantic_request_digest") (some row.semanticRequestDigest)]) custody
  require (1 ≤ row.outputAttemptId.length ∧ row.outputAttemptId.length ≤ 64) (checkViolation "p3_output_custody_bound")
  require (∀ c ∈ db.commits, ¬ (c.jobId = row.jobId ∧ c.idempotencyKey = row.idempotencyKey))
    (uniqueViolation "p3_alpha_job_commits_pkey")
  require (∀ c ∈ db.commits, c.resultDigest ≠ row.resultDigest) (uniqueViolation "p3_alpha_job_commits_result_digest_key")
  .ok { db with commits := db.commits ++ [row] }

def succeededJob (digest : String) (result : Json) (job : Job) : Job :=
  { job with
    state := .succeeded
    reasonCode := some "P3_COMMITTED"
    resultHash := some digest
    resultMetadata := result
    leaseOwner := none
    leaseToken := none
    leaseExpiresAt := none }

def committedEvent (now : DateTime) (digest jobId attemptId workerId traceId : String) (sequence : ℕ) : Event where
  eventId := "event_p3_" ++ String.ofList (digest.toList.take 55)
  jobId := jobId
  attemptId := some attemptId
  sequence := sequence
  fromState := some .running
  toState := .succeeded
  reasonCode := "P3_COMMITTED"
  actorType := .worker
  actorId := workerId
  traceId := traceId
  metadata := ⟨"\x7b\"result_digest\": \"" ++ digest ++ "\"\x7d"⟩
  createdAt := now

def settleJob (clock : Clock) (p : CommitArguments) (jobId attemptId digest : String) (result : Json)
    (tables : Tables) : Except Raised Tables := do
  let settled := (tables.updateJob jobId (succeededJob digest result)).updateAttempt attemptId jobId fun attempt =>
    { attempt with outcome := .succeeded, finishedAt := some (clock.reading 13) }
  let workerId ← notNull p.workerId (notNullViolation "actor_id")
  let traceId ← notNull p.traceId (notNullViolation "trace_id")
  settled.insertEvent (committedEvent clock.now digest jobId attemptId workerId traceId (settled.nextSequence jobId))

structure Published where
  jobId : String
  request : Json
  entries : List Committed
  result : Json
  database : Database

def publish (clock : Clock) (p : CommitArguments) (jobId : String) (job : Job) (attempt : JobPlane.Attempt)
    (transport request : Json) (db : Database) : Except Raised Published := do
  let entries := elements (get (some transport) "entries")
  let sourced ← publicationSourced publisher clock jobId job request entries db.plane
  require (sourced = true) ⟨"P3 source or operation publication authority rejected", "P3D03"⟩
  ((elements (get (some request) "expected_heads")).insertionSort fun x y => headBefore publisher x y = true).forM
    (checkHead db)
  publicationFence publisher clock 5 jobId job attempt request entries db.plane
  let (committed, appended) ← appendEntries publisher request entries db
  publicationFence publisher clock 9 jobId job attempt request entries db.plane
  let body := resultBody jobId request entries (committed.getLast?.map (·.registry))
  let bodyText ← canonicalDomainJson (buildObject body)
  let digest := publisher.sha256 bodyText
  let result := buildObject (body ++ [("digest", some (.str digest))])
  let resultText ← canonicalDomainJson result
  let idempotencyKey ← notNull (getText (some request) "idempotency_key") (notNullViolation "idempotency_key")
  let semanticDigest ← notNull (getText (some request) "semantic_request_digest")
    (notNullViolation "semantic_request_digest")
  let requestText ← canonicalDomainJson request
  let output ← notNull (get (some transport) "output_inventory_ref") (notNullViolation "output_inventory_ref_text")
  let outputText ← canonicalDomainJson output
  let row : CommitRow := ⟨jobId, idempotencyKey, semanticDigest, result, resultText, digest, requestText, outputText,
    attempt.attemptId⟩
  let recorded ← insertCommit publisher row appended
  let plane ← settleJob clock p jobId attempt.attemptId digest result recorded.plane
  let authorized ← p3PublicationAuthorized publisher job.payload jobId request entries (clock.reading 14)
    (clock.reading 15) plane
  require (authorized = true ∧ LeasesLive job attempt (clock.reading 16) (clock.reading 17))
    ⟨"P3 authority expired during publication", "P3D03"⟩
  .ok ⟨jobId, request, committed, wrapper result (some output) (some attempt.attemptId), { recorded with plane := plane }⟩

/-- What a call of `worker_commit_alpha_campaign` returns: a stored result, or that of a new publication. -/
inductive Reply
  | stored (result : Json)
  | published (publication : Published)

def workerCommitAlphaCampaign (session : Session) (clock : Clock) (p : CommitArguments) (db : Database) :
    Except Raised Reply := do
  require (session.user = .tradingJobWorker) ⟨"P3 commit authority rejected", "42501"⟩
  let transport ← readTransport p
  let request ← readRequest publisher p.jobId transport
  let stale : Raised := ⟨"E_STALE_FENCE", "P3D01"⟩
  let jobId ← notNull p.jobId stale
  let job ← notNull (db.plane.job? jobId) stale
  match db.commit? jobId (getText (some request) "idempotency_key") with
  | some existing => (storedResult p transport request existing).map .stored
  | none => do
    let attempt ← commitAttempt clock p jobId job db.plane
    (publish publisher clock p jobId job attempt transport request db).map .published

/-! ## Runs -/

def Tables.Committed (tables : Tables) (jobId : String) : Prop :=
  ∃ job ∈ tables.job? jobId, job.state = .succeeded ∧ job.reasonCode = some "P3_COMMITTED"

instance (tables : Tables) (jobId : String) : Decidable (tables.Committed jobId) :=
  inferInstanceAs (Decidable (∃ job ∈ tables.job? jobId, _))

def Tables.SameCommitted (tables other : Tables) : Prop :=
  ∀ jobId ∈ (tables.jobs ++ other.jobs).map Job.jobId, tables.Committed jobId ↔ other.Committed jobId

instance (tables other : Tables) : Decidable (tables.SameCommitted other) :=
  inferInstanceAs (Decidable (∀ jobId ∈ _, _))

/-- A call; `elsewhere` is whatever others do to the job plane, its authorizations and the domain ledger, short of
settling a job as a publication does. -/
inductive PublicationCall
  | commit (session : Session) (clock : Clock) (p : CommitArguments)
  | elsewhere (plane : Tables) (ledger : List LedgerEvent)

structure Run where
  published : List Published
  database : Database

def Run.advance (run : Run) : PublicationCall → Run
  | .commit session clock p =>
    match workerCommitAlphaCampaign publisher session clock p run.database with
    | .ok (.published x) => ⟨run.published ++ [x], x.database⟩
    | .ok (.stored _) => run
    | .error _ => run
  | .elsewhere plane ledger =>
    if plane.SameCommitted run.database.plane then
      { run with database := { run.database with plane := plane, ledger := ledger } }
    else run

/-- A database in which no publication was committed. -/
structure Opening where
  plane : Tables
  ledger : List LedgerEvent
  uncommitted : ∀ jobId, ¬ plane.Committed jobId

def Opening.database (start : Opening) : Database := ⟨start.plane, [], [], start.ledger⟩

def publishAll (start : Opening) (calls : List PublicationCall) : Run :=
  calls.foldl (Run.advance publisher) ⟨[], start.database⟩

end TradingAgent.AlphaCampaign
