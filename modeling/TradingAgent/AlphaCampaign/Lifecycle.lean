import TradingAgent.AlphaCampaign.Authority

/-!
# Jobs of the alpha campaign

Enqueueing a job, and the claim, the start and the recovery of a holdout job, as the migrations 0021, 0022, 0024, 0029
and 0031 leave these functions. Each call is one transaction.
-/

namespace TradingAgent.AlphaCampaign

open Outcome ThreeValued CanonicalJson
open JobPlane (Raised isRowId isIdentity isLeaseToken isSha256 given notNull Attempt Event Lease LeaseArguments
  RecoverArguments Observation RecoveryVerdict effectiveObservation recovers recoveredAttempt recoveredEvent
  retryEvent startedAttempt startedEvent retryAt EnqueueOutcome)
open Jsonb (get getText path pathText octetLength)

variable (server : Server)

/-! ## Enqueueing -/

structure EnqueueArguments where
  (jobId payloadText payloadFingerprint idempotencyKey actorId : Option String)
  priority : Option ℤ
  (traceId eventId : Option String)

def queuedJob (jobId : String) (payload : Json) (fingerprint idempotencyKey actorId : String) (priority : ℤ) : Job where
  jobId := jobId
  jobType := .alphaCampaign
  state := .queued
  payload := payload
  payloadFingerprint := fingerprint
  idempotencyKey := idempotencyKey
  actorId := actorId
  priority := priority
  attemptCount := 0
  maxAttempts := 1
  nextAttemptAt := none
  leaseOwner := none
  leaseToken := none
  leaseExpiresAt := none
  reasonCode := none
  resultHash := none
  resultMetadata := .obj []

def operationNames : List String := ["BASELINES", "REGISTER_FAMILY", "OOS", "HOLDOUT", "PARITY", "PHASE_EXIT"]

def enqueueAuthorized (clock : Clock) (payload : Json) (tables : Tables) : Except Raised Bool :=
  match (authorizationSha payload).bind tables.campaign? with
  | none => .ok false
  | some campaign => do
    let sourceText ← expectedSourceText payload
    let authorized ← p3PayloadAuthorized server payload none (clock.reading 0) (clock.reading 1) tables
    .ok (authorized && decide (holds (allOf [
      eq (some campaign.operation) (getText (some payload) "operation"),
      eq (some campaign.sourceCommitSha) (pathText (some payload) ["expected_source", "commit_sha"]),
      eq (some campaign.sourceIdentityText) sourceText,
      some (decide (clock.reading 2 < campaign.expiresAt))])))

def enqueueNamed (payload : Json) (actorId idempotencyKey : Option String) (tables : Tables) : Except Raised Bool :=
  match (authorizationSha payload).bind tables.operation? with
  | none => .ok false
  | some operation => do
    let review ← jsonbOf operation.reviewText
    let intent ← jsonbOf operation.intentText
    .ok (decide (holds (and (eq actorId (getText (some review) "operator_identity"))
      (eq idempotencyKey ((getText (some intent) "workflow_operation").map fun name =>
        "p3:" ++ name ++ ":" ++ operation.nonce)))))

def requireNamed (payload : Json) (actorId idempotencyKey : Option String) (tables : Tables) : Except Raised Unit :=
  if holds (ne (getText (some payload) "logical_trial_id") (some "p3-integration-fixture-v1")) then do
    let named ← enqueueNamed payload actorId idempotencyKey tables
    require (named = true) ⟨"P3 enqueue actor or nonce rejected", "22023"⟩
  else .ok ()

def bindEnqueued (clock : Clock) (payload : Json) (jobId : String) (tables : Tables) : Except Raised Tables := do
  let bound ← p3BindOperationJob payload jobId tables
  let authorized ← p3PayloadAuthorized server payload none (clock.reading 3) (clock.reading 4) bound
  require (authorized = true) ⟨"P3 enqueue authorization expired", "22023"⟩
  .ok bound

def apiEnqueueAlphaCampaign (session : Session) (clock : Clock) (p : EnqueueArguments) (tables : Tables) :
    Except Raised ((String × EnqueueOutcome) × Tables) := do
  let unauthorized : Raised := ⟨"P3 enqueue authority rejected", "42501"⟩
  let payloadRejected : Raised := ⟨"P3 enqueue payload rejected", "22023"⟩
  require (session.user = .tradingJobApi) unauthorized
  let payloadText ← notNull p.payloadText unauthorized
  require (octetLength payloadText ≤ 1048576) unauthorized
  let payload ← jsonbOf payloadText
  let canonical ← canonicalDomainJsonString payloadText
  require (payloadText = canonical) payloadRejected
  let keys ← notNull payload.keys? ⟨"cannot call jsonb_object_keys on a non-object", "22023"⟩
  require (keys.length = 6) payloadRejected
  raiseIf (anyOf [
    ne (getText (some payload) "schema_version") (some "p3-alpha-campaign-payload-v1"),
    not (test isSha256 (authorizationSha payload)),
    not (test isSha256 (pathText (some payload) ["manifest_ref", "content_sha256"])),
    not (test isCommitSha (pathText (some payload) ["expected_source", "commit_sha"])),
    not (test isSlug (getText (some payload) "logical_trial_id")),
    not (test (operationNames.contains ·) (getText (some payload) "operation"))]) payloadRejected
  let authorized ← enqueueAuthorized server clock payload tables
  require (authorized = true) payloadRejected
  let fingerprint := server.sha256 payloadText
  -- A null argument passes these checks; the tables refuse it below.
  raiseIf (anyOf [
    not (test isRowId p.jobId), not (test isRowId p.eventId), eq p.jobId p.eventId,
    ne p.payloadFingerprint (some fingerprint), not (test isIdentity p.idempotencyKey),
    not (test isIdentity p.actorId), test (fun n => decide (n < 0 ∨ 100 < n)) p.priority,
    not (test isIdentity p.traceId)]) ⟨"P3 enqueue input rejected", "22023"⟩
  requireNamed payload p.actorId p.idempotencyKey tables
  let jobId ← notNull p.jobId (notNullViolation "job_id")
  let idempotencyKey ← notNull p.idempotencyKey (notNullViolation "idempotency_key")
  let actorId ← notNull p.actorId (notNullViolation "actor_id")
  let priority ← notNull p.priority (notNullViolation "priority")
  match tables.jobs.find? fun job => job.jobType = .alphaCampaign ∧ job.idempotencyKey = idempotencyKey with
  | none => do
    let inserted ← tables.insertJob (queuedJob jobId payload fingerprint idempotencyKey actorId priority)
    let eventId ← notNull p.eventId (notNullViolation "event_id")
    let traceId ← notNull p.traceId (notNullViolation "trace_id")
    let recorded ← inserted.insertEvent (JobPlane.enqueuedEvent clock.now eventId jobId actorId traceId .operator)
    let bound ← bindEnqueued server clock payload jobId recorded
    .ok ((jobId, .enqueued), bound)
  | some existing => do
    require (existing.payloadFingerprint = fingerprint ∧ existing.actorId = actorId ∧ existing.priority = priority)
      ⟨"P3 enqueue idempotency conflict", "23505"⟩
    let bound ← bindEnqueued server clock payload existing.jobId tables
    .ok ((existing.jobId, .deduplicated), bound)

/-! ## Claiming a holdout job -/

def sessionRole (session : Session) (raised : Raised) : Except Raised Unit := require (session.restricted = true) raised

structure ClaimArguments where
  (attemptId workerId leaseToken : Option String)
  leaseSeconds : Option ℤ
  (traceId eventId expectedJobId : Option String)
  issuer : Issuer

structure ClaimedRow where
  jobId : String
  payload : Json
  (attemptNumber maxAttempts : ℕ)
  leaseExpiresAt : DateTime

def claimedJob (leaseExpiresAt : DateTime) (workerId leaseToken : String) (job : Job) : Job :=
  { job with
    state := .claimed
    attemptCount := job.attemptCount + 1
    leaseOwner := some workerId
    leaseToken := some leaseToken
    leaseExpiresAt := some leaseExpiresAt
    nextAttemptAt := none
    reasonCode := some "CLAIMED" }

def claimedAttempt (now leaseExpiresAt : DateTime) (attemptId workerId leaseToken : String) (job : Job) : Attempt where
  attemptId := attemptId
  jobId := job.jobId
  attemptNumber := job.attemptCount + 1
  workerId := workerId
  outcome := .claimed
  leaseToken := leaseToken
  leaseExpiresAt := leaseExpiresAt
  claimedAt := now
  startedAt := none
  heartbeatAt := none
  finishedAt := none
  childPid := none
  processGroupId := none
  processStartTicks := none
  commandFingerprint := none
  exitCode := none
  terminationReason := none
  errorCode := none
  errorMessage := none

def claimedEvent (now : DateTime) (eventId attemptId workerId traceId jobId : String) (sequence : ℕ) : Event where
  eventId := eventId
  jobId := jobId
  attemptId := some attemptId
  sequence := sequence
  fromState := some .queued
  toState := .claimed
  reasonCode := "CLAIMED"
  actorType := .worker
  actorId := workerId
  traceId := traceId
  metadata := .empty
  createdAt := now

def SessionClaimable (now : DateTime) (job : Job) : Prop :=
  job.state = .queued ∧ (job.nextAttemptAt.all fun at_ => decide (at_ ≤ now)) = true ∧ job.attemptCount = 0 ∧
    job.maxAttempts = 1

instance (now : DateTime) (job : Job) : Decidable (SessionClaimable now job) :=
  inferInstanceAs (Decidable (_ ∧ _ ∧ _ ∧ _))

def issuerAuthorized (clock : Clock) (first : ℕ) (issuer : Issuer) (job : Job) (tables : Tables) :
    Except Raised Bool :=
  p3SessionHoldoutAuthorized server job.payload job.jobId issuer (clock.reading first) (clock.reading (first + 1)) tables

/-- `job_plane.worker_claim_session_holdout`; `locked` says that another transaction holds the expected job. -/
def workerClaimSessionHoldout (locked : Bool) (session : Session) (clock : Clock) (p : ClaimArguments)
    (tables : Tables) : Except Raised (Option ClaimedRow × Tables) := do
  let rejected : Raised := ⟨"P3 claim rejected", "22023"⟩
  let required : Raised := ⟨"holdout claim identity required", "22023"⟩
  sessionRole session ⟨"holdout claim role rejected", "42501"⟩
  let attemptId ← notNull p.attemptId required
  let workerId ← notNull p.workerId required
  let leaseToken ← notNull p.leaseToken required
  let leaseSeconds ← notNull p.leaseSeconds required
  let traceId ← notNull p.traceId required
  let eventId ← notNull p.eventId required
  let expectedJobId ← given isRowId p.expectedJobId rejected
  p.issuer.check rejected
  require (session.user = .tradingJobWorker) rejected
  require (isRowId attemptId ∧ isIdentity workerId ∧ isLeaseToken leaseToken ∧ 1 ≤ leaseSeconds ∧
    leaseSeconds ≤ 3600 ∧ isIdentity traceId ∧ isRowId eventId) rejected
  match tables.job? expectedJobId with
  | none => .ok (none, tables)
  | some job => do
    let authorized ← issuerAuthorized server clock 0 p.issuer job tables
    if authorized = true ∧ SessionClaimable (clock.reading 2) job ∧ locked = false then
      let still ← issuerAuthorized server clock 3 p.issuer job tables
      if still then
        let now := clock.reading 5
        let nextSequence := tables.nextSequence job.jobId
        let leaseExpiresAt := now + TimeDelta.seconds leaseSeconds
        let updated := tables.updateJob job.jobId (claimedJob leaseExpiresAt workerId leaseToken)
        let attempted ← updated.insertAttempt (claimedAttempt now leaseExpiresAt attemptId workerId leaseToken job)
        let final ← attempted.insertEvent
          (claimedEvent clock.now eventId attemptId workerId traceId job.jobId nextSequence)
        let fresh ← issuerAuthorized server clock 6 p.issuer job final
        require (fresh = true) ⟨"holdout authority expired during claim", "22023"⟩
        .ok (some ⟨job.jobId, job.payload, job.attemptCount + 1, job.maxAttempts, leaseExpiresAt⟩, final)
      else .ok (none, tables)
    else .ok (none, tables)

/-! ## Leases -/

def lock (lease : Lease) (state : JobPlane.JobState) (outcome : JobPlane.AttemptOutcome) (stale : Job → Truth)
    (tables : Tables) : Option (Job × Attempt) :=
  match tables.job? lease.jobId with
  | none => none
  | some job =>
    if job.state = state ∧ job.leaseOwner = some lease.workerId ∧ job.leaseToken = some lease.leaseToken ∧
        ¬ holds (stale job) then
      match tables.attempt? lease.attemptId lease.jobId with
      | none => none
      | some attempt =>
        if attempt.attemptNumber = job.attemptCount ∧ attempt.outcome = outcome ∧ attempt.workerId = lease.workerId ∧
            attempt.leaseToken = lease.leaseToken then some (job, attempt)
        else none
    else none

/-- `lease_expires_at > instant` -/
def leaseAfter (instant : DateTime) (job : Job) : Truth :=
  relate (fun x y => decide (y < x)) job.leaseExpiresAt (some instant)

/-- `lease_expires_at <= instant` -/
def leaseBy (instant : DateTime) (job : Job) : Truth :=
  relate (fun x y => decide (x ≤ y)) job.leaseExpiresAt (some instant)

def LeasesLive (job : Job) (attempt : Attempt) (first second : DateTime) : Prop :=
  holds (leaseAfter first job) ∧ second < attempt.leaseExpiresAt

instance (job : Job) (attempt : Attempt) (first second : DateTime) : Decidable (LeasesLive job attempt first second) :=
  inferInstanceAs (Decidable (_ ∧ _))

/-! ## Starting a holdout job -/

structure StartArguments where
  lease : LeaseArguments
  (childPid processGroupId processStartTicks : Option ℤ)
  (commandFingerprint traceId eventId : Option String)
  issuer : Issuer

def startedJob (job : Job) : Job :=
  { job with
    state := .running
    reasonCode := some "STARTED" }

def privateHead (session : Session) (issuer : Issuer) : Except Raised Unit := do
  issuer.check ⟨"private workflow identity required", "22023"⟩
  sessionRole session ⟨"private lifecycle role rejected", "42501"⟩

def workerStartSessionHoldout (session : Session) (clock : Clock) (p : StartArguments) (tables : Tables) :
    Except Raised (Bool × Tables) := do
  let rejected : Raised := ⟨"worker start input rejected", "22023"⟩
  privateHead session p.issuer
  require (session.user = .tradingJobWorker) ⟨"worker start authority rejected", "42501"⟩
  let lease ← p.lease.check rejected
  let childPid ← notNull p.childPid rejected
  require (0 < childPid) rejected
  let processGroupId ← notNull p.processGroupId rejected
  require (0 < processGroupId) rejected
  let processStartTicks ← notNull p.processStartTicks rejected
  require (0 ≤ processStartTicks) rejected
  let commandFingerprint ← given isSha256 p.commandFingerprint rejected
  let traceId ← given isIdentity p.traceId rejected
  let eventId ← given isRowId p.eventId rejected
  match lock lease .claimed .claimed (leaseBy clock.now) tables with
  | none => .ok (false, tables)
  | some (job, attempt) => do
    let authorized ← issuerAuthorized server clock 0 p.issuer job tables
    let bound ← p3SessionHoldoutBound job.payload job.jobId p.issuer tables
    if authorized = true ∧ LeasesLive job attempt (clock.reading 2) (clock.reading 3) ∧ bound = true ∧
        LeasesLive job attempt (clock.reading 4) (clock.reading 5) ∧
        (∃ d ∈ tables.disclosures,
          d.jobId = lease.jobId ∧ d.attemptId = lease.attemptId ∧ d.workerId = lease.workerId) then
      let nextSequence := tables.nextSequence lease.jobId
      let updated := (tables.updateJob lease.jobId startedJob).updateAttempt lease.attemptId lease.jobId
        (startedAttempt clock.now childPid processGroupId processStartTicks commandFingerprint)
      let final ← updated.insertEvent (startedEvent clock.now eventId traceId lease nextSequence)
      let fresh ← issuerAuthorized server clock 6 p.issuer job final
      require (fresh = true ∧ LeasesLive job attempt (clock.reading 8) (clock.reading 9))
        ⟨"holdout authority expired during start", "22023"⟩
      .ok (true, final)
    else .ok (false, tables)

/-! ## Recovery -/

/-- The verdict on a locked job whose lease has expired; `retry` says whether the function may retry at all. -/
def recoveryVerdict (retry : Bool) (job : Job) (observation : Observation) : RecoveryVerdict :=
  if job.resultHash ≠ none ∨ job.resultMetadata ≠ .obj [] then
    ⟨"RESULT_RECONCILIATION_REQUIRED", .blocked, .blocked, false⟩
  else if holds (isFixture job.payload) ∧ observation = .absent then
    ⟨"P3_FIXTURE_CLEANUP_UNVERIFIED", .blocked, .blocked, false⟩
  else if observation = .stillRunning then ⟨"LEASE_EXPIRED_CHILD_STILL_RUNNING", .blocked, .blocked, false⟩
  else if observation = .identityMismatch then
    ⟨"LEASE_EXPIRED_CHILD_IDENTITY_MISMATCH", .blocked, .blocked, false⟩
  else if observation = .unverifiable then
    ⟨"LEASE_EXPIRED_CHILD_IDENTITY_UNVERIFIABLE", .blocked, .blocked, false⟩
  else if job.state ≠ .running then
    ⟨"LEASE_EXPIRED_BEFORE_RESULT_STATE_UNCERTAIN", .blocked, .blocked, false⟩
  else if retry = true ∧ job.attemptCount < job.maxAttempts then
    ⟨"LEASE_EXPIRED_CHILD_ABSENT", .failed, .interrupted, true⟩
  else ⟨"LEASE_EXPIRED_ATTEMPTS_EXHAUSTED", .failed, .interrupted, false⟩

def recoveredJob (verdict : RecoveryVerdict) (job : Job) : Job :=
  { job with
    state := verdict.targetState
    reasonCode := some verdict.reason
    leaseOwner := none
    leaseToken := none
    leaseExpiresAt := none }

def retriedJob (now : DateTime) (job : Job) : Job :=
  { job with
    state := .queued
    reasonCode := some "LEASE_EXPIRED_RETRY_SCHEDULED"
    nextAttemptAt := some (retryAt now)
    resultHash := none
    resultMetadata := .obj [] }

/-- The body that the two recovery functions share; `lane` is the check of the job's lane. -/
def recover (retry : Bool) (lane : Job → Except Raised Bool) (session : Session) (now : DateTime)
    (p : RecoverArguments) (tables : Tables) : Except Raised (String × Tables) := do
  let rejected : Raised := ⟨"worker recovery input rejected", "22023"⟩
  require (session.user = .tradingJobWorker) ⟨"worker recovery authority rejected", "42501"⟩
  let lease ← p.lease.check rejected
  require (p.expectedChildPid.all fun pid => decide (0 < pid)) rejected
  require (p.expectedProcessGroupId.all fun group => decide (0 < group)) rejected
  require (p.expectedProcessStartTicks.all fun ticks => decide (0 ≤ ticks)) rejected
  require (p.expectedCommandFingerprint.all isSha256) rejected
  let expectedState ← notNull p.expectedState rejected
  let expectedAttemptOutcome ← notNull p.expectedAttemptOutcome rejected
  let observation ← notNull p.observation rejected
  let traceId ← given isIdentity p.traceId rejected
  let recoveryId ← given (["lease-recovery", "worker-startup-recovery"].contains ·) p.recoveryId rejected
  let eventId ← given isRowId p.eventId rejected
  require (p.retryEventId.all isRowId) rejected
  require (p.retryEventId ≠ some eventId) rejected
  require (recovers expectedState expectedAttemptOutcome) rejected
  match lock lease expectedState expectedAttemptOutcome (leaseAfter now) tables with
  | none => .ok ("LEASE_RECOVERY_STALE", tables)
  | some (job, attempt) => do
    let matches_ ← lane job
    if matches_ then
      let verdict := recoveryVerdict retry job (effectiveObservation p observation attempt)
      require (¬ (verdict.retryJob = true ∧ p.retryEventId = none))
        ⟨"worker recovery retry identity rejected", "22023"⟩
      let nextSequence := tables.nextSequence lease.jobId
      let updated := (tables.updateAttempt lease.attemptId lease.jobId (recoveredAttempt now verdict)).updateJob
        lease.jobId (recoveredJob verdict)
      let recovered ← updated.insertEvent
        (recoveredEvent now eventId recoveryId traceId lease nextSequence expectedState verdict)
      if verdict.retryJob = true then
        let retryEventId ← notNull p.retryEventId rejected
        let queued := recovered.updateJob lease.jobId (retriedJob now)
        let final ← queued.insertEvent (retryEvent now retryEventId "LEASE_EXPIRED_RETRY_SCHEDULED" traceId .recovery
          recoveryId lease (nextSequence + 1) .failed)
        .ok ("LEASE_EXPIRED_RETRY_SCHEDULED", final)
      else .ok (verdict.reason, recovered)
    else .ok ("LEASE_RECOVERY_STALE", tables)

def workerRecoverSessionHoldout (session : Session) (clock : Clock) (p : RecoverArguments) (issuer : Issuer)
    (tables : Tables) : Except Raised (String × Tables) := do
  privateHead session issuer
  recover false (fun job => p3SessionHoldoutBound job.payload job.jobId issuer tables) session clock.now p tables

def workerRecoverExpiredAlphaCampaign (session : Session) (clock : Clock) (p : RecoverArguments)
    (fixtureOnly : Option Bool) (tables : Tables) : Except Raised (String × Tables) := do
  require (session.user = .tradingJobWorker) ⟨"worker recovery authority rejected", "42501"⟩
  let fixtureOnly ← notNull fixtureOnly ⟨"worker recovery input rejected", "22023"⟩
  recover true (fun job => .ok (p3WorkerLaneMatches job.payload (some fixtureOnly))) session clock.now p tables

end TradingAgent.AlphaCampaign
