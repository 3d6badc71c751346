import TradingAgent.JobPlane.Models
import TradingAgent.Lib.ThreeValued

/-!
# The functions of the job plane

The capabilities of `alembic/versions/0006_job_transition_database_authority.py`. Each is one transaction. A null
argument is `none`, and so is a text outside the enumeration an argument ranges over, which fails the same check. `now`
is `statement_timestamp()`.
-/

namespace TradingAgent.JobPlane

open Outcome ThreeValued

/-! ## Enqueueing -/

inductive EnqueueOutcome
  | enqueued
  | deduplicated

/-- The arguments of `api_enqueue_snapshot`; `scheduler_enqueue_snapshot` has no priority. -/
structure EnqueueArguments where
  jobId : Option String
  payload : Option Jsonb
  (payloadFingerprint idempotencyKey actorId traceId eventId : Option String)

def queuedJob (now : DateTime) (jobId idempotencyKey actorId : String) (actorType : ActorType) (priority : ℤ) :
    Job where
  jobId := jobId
  jobType := .snapshot
  state := .queued
  payload := snapshotPayload
  payloadFingerprint := snapshotPayloadFingerprint
  idempotencyKey := idempotencyKey
  actorType := actorType
  actorId := actorId
  priority := priority
  requestedAt := now
  updatedAt := now
  attemptCount := 0
  maxAttempts := 2
  nextAttemptAt := none
  leaseOwner := none
  leaseToken := none
  leaseExpiresAt := none
  cancelRequestedAt := none
  cancelActorType := none
  cancelActorId := none
  reasonCode := none
  resultHash := none
  resultMetadata := .empty
  errorCode := none
  errorMessage := none
  finishedAt := none

def enqueuedEvent (now : DateTime) (eventId jobId actorId traceId : String) (actorType : ActorType) : Event where
  eventId := eventId
  jobId := jobId
  attemptId := none
  sequence := 1
  fromState := none
  toState := .queued
  reasonCode := "ENQUEUED"
  actorType := actorType
  actorId := actorId
  traceId := traceId
  metadata := .empty
  createdAt := now

def insertOrDeduplicate (now : DateTime) (jobId idempotencyKey actorId traceId eventId : String)
    (actorType : ActorType) (priority : ℤ) (tables : Tables) : Except Raised ((String × EnqueueOutcome) × Tables) :=
  match tables.jobs.find? fun job => job.jobType = .snapshot ∧ job.idempotencyKey = idempotencyKey with
  | none => do
    let tables ← tables.insertJob (queuedJob now jobId idempotencyKey actorId actorType priority)
    let tables ← tables.insertEvent (enqueuedEvent now eventId jobId actorId traceId actorType)
    .ok ((jobId, .enqueued), tables)
  | some existing => do
    require (existing.payloadFingerprint = snapshotPayloadFingerprint ∧ existing.actorType = actorType ∧
      existing.actorId = actorId ∧ existing.priority = priority) ⟨"idempotency identity conflict", "23505"⟩
    .ok ((existing.jobId, .deduplicated), tables)

def apiEnqueueSnapshot (user : SessionUser) (now : DateTime) (p : EnqueueArguments) (priority : Option ℤ)
    (tables : Tables) : Except Raised ((String × EnqueueOutcome) × Tables) := do
  let rejected : Raised := ⟨"operator enqueue input rejected", "22023"⟩
  require (user = .tradingJobApi) ⟨"operator enqueue authority rejected", "42501"⟩
  let jobId ← given isRowId p.jobId rejected
  let eventId ← given isRowId p.eventId rejected
  require (jobId ≠ eventId) rejected
  require (p.payload = some snapshotPayload) rejected
  require (p.payloadFingerprint = some snapshotPayloadFingerprint) rejected
  let idempotencyKey ← given isIdentity p.idempotencyKey rejected
  require (isScheduleKey idempotencyKey = false) rejected
  let actorId ← given isIdentity p.actorId rejected
  let priority ← notNull priority rejected
  require (0 ≤ priority ∧ priority ≤ 100) rejected
  let traceId ← given isIdentity p.traceId rejected
  insertOrDeduplicate now jobId idempotencyKey actorId traceId eventId .operator priority tables

def schedulerEnqueueSnapshot (user : SessionUser) (now : DateTime) (p : EnqueueArguments) (tables : Tables) :
    Except Raised ((String × EnqueueOutcome) × Tables) := do
  let rejected : Raised := ⟨"scheduler enqueue input rejected", "22023"⟩
  require (user = .tradingJobScheduler) ⟨"scheduler enqueue authority rejected", "42501"⟩
  let jobId ← given isRowId p.jobId rejected
  let eventId ← given isRowId p.eventId rejected
  require (jobId ≠ eventId) rejected
  require (p.payload = some snapshotPayload) rejected
  require (p.payloadFingerprint = some snapshotPayloadFingerprint) rejected
  let idempotencyKey ← given isScheduleSlot p.idempotencyKey rejected
  let actorId ← given isIdentity p.actorId rejected
  let traceId ← given isIdentity p.traceId rejected
  insertOrDeduplicate now jobId idempotencyKey actorId traceId eventId .scheduler 0 tables

/-! ## Cancellation -/

structure CancelArguments where
  (jobId actorId traceId eventId : Option String)

def cancellationTarget : JobState → Option JobState
  | .queued => some .cancelled
  | .claimed => some .cancelRequested
  | .running => some .cancelRequested
  | _ => none

def cancelledJob (now : DateTime) (target : JobState) (actorId : String) (job : Job) : Job :=
  { job with
    state := target
    updatedAt := now
    reasonCode := some "CANCEL_REQUESTED"
    cancelRequestedAt := some now
    cancelActorType := some .operator
    cancelActorId := some actorId
    finishedAt := if target = .cancelled then some now else job.finishedAt }

def cancelEvent (now : DateTime) (eventId actorId traceId : String) (job : Job) (sequence : ℕ) (target : JobState) :
    Event where
  eventId := eventId
  jobId := job.jobId
  attemptId := none
  sequence := sequence
  fromState := some job.state
  toState := target
  reasonCode := "CANCEL_REQUESTED"
  actorType := .operator
  actorId := actorId
  traceId := traceId
  metadata := .empty
  createdAt := now

/-- `job_plane.api_cancel_snapshot`: the state and whether it changed, or no row. -/
def apiCancelSnapshot (user : SessionUser) (now : DateTime) (p : CancelArguments) (tables : Tables) :
    Except Raised (Option (JobState × Bool) × Tables) := do
  let rejected : Raised := ⟨"operator cancellation input rejected", "22023"⟩
  require (user = .tradingJobApi) ⟨"operator cancellation authority rejected", "42501"⟩
  let jobId ← given isRowId p.jobId rejected
  let actorId ← given isIdentity p.actorId rejected
  let traceId ← given isIdentity p.traceId rejected
  let eventId ← given isRowId p.eventId rejected
  match tables.job? jobId with
  | none => .ok (none, tables)
  | some job => do
    require (job.jobType = .snapshot) ⟨"operator cancellation target rejected", "22023"⟩
    match cancellationTarget job.state with
    | none => .ok (some (job.state, false), tables)
    | some target => do
      let nextSequence := tables.nextSequence job.jobId
      let updated := tables.updateJob job.jobId (cancelledJob now target actorId)
      let final ← updated.insertEvent (cancelEvent now eventId actorId traceId job nextSequence target)
      .ok (some (target, true), final)

/-! ## Claiming and starting -/

structure ClaimArguments where
  (attemptId workerId leaseToken : Option String)
  leaseSeconds : Option ℤ
  (traceId eventId : Option String)

structure ClaimedRow where
  jobId : String
  jobType : JobType
  payload : Jsonb
  (attemptNumber maxAttempts : ℕ)
  leaseExpiresAt : DateTime
  deriving DecidableEq

def Claimable (now : DateTime) (job : Job) : Prop :=
  job.state = .queued ∧ job.jobType = .snapshot ∧ (job.nextAttemptAt.all fun at_ => decide (at_ ≤ now)) = true ∧
    job.attemptCount < job.maxAttempts

instance (now : DateTime) (job : Job) : Decidable (Claimable now job) :=
  inferInstanceAs (Decidable (_ ∧ _ ∧ _ ∧ _))

/-- `ORDER BY priority DESC, requested_at ASC, job_id ASC` -/
def claimsBefore (x y : Job) : Bool :=
  decide (y.priority < x.priority ∨ x.priority = y.priority ∧
    (x.requestedAt < y.requestedAt ∨ x.requestedAt = y.requestedAt ∧ x.jobId ≤ y.jobId))

def selectedJob (locked : List String) (now : DateTime) (jobs : List Job) : Option Job :=
  ((jobs.filter fun job => decide (Claimable now job) && !locked.contains job.jobId).mergeSort claimsBefore).head?

def claimedJob (now leaseExpiresAt : DateTime) (workerId leaseToken : String) (job : Job) : Job :=
  { job with
    state := .claimed
    attemptCount := job.attemptCount + 1
    leaseOwner := some workerId
    leaseToken := some leaseToken
    leaseExpiresAt := some leaseExpiresAt
    nextAttemptAt := none
    reasonCode := some "CLAIMED"
    updatedAt := now }

def claimedAttempt (now leaseExpiresAt : DateTime) (attemptId workerId leaseToken : String) (job : Job) : Attempt where
  attemptId := attemptId
  jobId := job.jobId
  attemptNumber := job.attemptCount + 1
  workerId := workerId
  outcome := .claimed
  leaseToken := leaseToken
  leaseExpiresAt := leaseExpiresAt
  claimedAt := now
  startedAt := none
  heartbeatAt := none
  finishedAt := none
  childPid := none
  processGroupId := none
  processStartTicks := none
  commandFingerprint := none
  exitCode := none
  terminationReason := none
  errorCode := none
  errorMessage := none

def claimedEvent (now : DateTime) (eventId attemptId workerId traceId tokenSha256 : String) (job : Job)
    (sequence : ℕ) : Event where
  eventId := eventId
  jobId := job.jobId
  attemptId := some attemptId
  sequence := sequence
  fromState := some .queued
  toState := .claimed
  reasonCode := "CLAIMED"
  actorType := .worker
  actorId := workerId
  traceId := traceId
  metadata := ⟨"\x7b\"lease_token_sha256\": \"" ++ tokenSha256 ++ "\"\x7d"⟩
  createdAt := now

/-- `job_plane.worker_claim_snapshot`; `locked` are the jobs that other transactions hold. -/
def workerClaimSnapshot (sha256 : String → String) (locked : List String) (user : SessionUser) (now : DateTime)
    (p : ClaimArguments) (tables : Tables) : Except Raised (Option ClaimedRow × Tables) := do
  let rejected : Raised := ⟨"worker claim input rejected", "22023"⟩
  require (user = .tradingJobWorker) ⟨"worker claim authority rejected", "42501"⟩
  let attemptId ← given isRowId p.attemptId rejected
  let eventId ← given isRowId p.eventId rejected
  require (attemptId ≠ eventId) rejected
  let workerId ← given isIdentity p.workerId rejected
  let leaseToken ← given isLeaseToken p.leaseToken rejected
  let leaseSeconds ← notNull p.leaseSeconds rejected
  require (1 ≤ leaseSeconds ∧ leaseSeconds ≤ 3600) rejected
  let traceId ← given isIdentity p.traceId rejected
  match selectedJob locked now tables.jobs with
  | none => .ok (none, tables)
  | some job => do
    let nextSequence := tables.nextSequence job.jobId
    let leaseExpiresAt := now + TimeDelta.seconds leaseSeconds
    let updated := tables.updateJob job.jobId (claimedJob now leaseExpiresAt workerId leaseToken)
    let attempted ← updated.insertAttempt (claimedAttempt now leaseExpiresAt attemptId workerId leaseToken job)
    let final ← attempted.insertEvent
      (claimedEvent now eventId attemptId workerId traceId (sha256 leaseToken) job nextSequence)
    .ok (some ⟨job.jobId, job.jobType, job.payload, job.attemptCount + 1, job.maxAttempts, leaseExpiresAt⟩, final)

structure LeaseArguments where
  (jobId attemptId workerId leaseToken : Option String)

structure Lease where
  (jobId attemptId workerId leaseToken : String)

def LeaseArguments.check (p : LeaseArguments) (rejected : Raised) : Except Raised Lease := do
  let jobId ← given isRowId p.jobId rejected
  let attemptId ← given isRowId p.attemptId rejected
  let workerId ← given isIdentity p.workerId rejected
  let leaseToken ← given isLeaseToken p.leaseToken rejected
  .ok ⟨jobId, attemptId, workerId, leaseToken⟩

/-- The locked job is in one of the states and leased to the worker; `expired` compares its expiry. -/
def Lease.OwnsJob (lease : Lease) (states : List JobState) (expired : Truth) (job : Job) : Prop :=
  job.state ∈ states ∧ job.leaseOwner = some lease.workerId ∧ job.leaseToken = some lease.leaseToken ∧
    ¬ holds expired

instance (lease : Lease) (states : List JobState) (expired : Truth) (job : Job) :
    Decidable (lease.OwnsJob states expired job) := inferInstanceAs (Decidable (_ ∧ _ ∧ _ ∧ _))

def Lease.OwnsAttempt (lease : Lease) (outcome : AttemptOutcome) (job : Job) (attempt : Attempt) : Prop :=
  attempt.attemptNumber = job.attemptCount ∧ attempt.outcome = outcome ∧ attempt.workerId = lease.workerId ∧
    attempt.leaseToken = lease.leaseToken

instance (lease : Lease) (outcome : AttemptOutcome) (job : Job) (attempt : Attempt) :
    Decidable (lease.OwnsAttempt outcome job attempt) := inferInstanceAs (Decidable (_ ∧ _ ∧ _ ∧ _))

def Lease.lock (lease : Lease) (states : List JobState) (expired : Job → Truth) (outcome : AttemptOutcome)
    (tables : Tables) : Option (Job × Attempt) :=
  match tables.snapshotJob? lease.jobId with
  | none => none
  | some job =>
    if lease.OwnsJob states (expired job) job then
      match tables.attempt? lease.attemptId lease.jobId with
      | none => none
      | some attempt => if lease.OwnsAttempt outcome job attempt then some (job, attempt) else none
    else none

/-- `lease_expires_at <= statement_timestamp()` -/
def leaseExpired (now : DateTime) (job : Job) : Truth := relate (fun x y => decide (x ≤ y)) job.leaseExpiresAt (some now)

/-- `lease_expires_at > statement_timestamp()` -/
def leaseUnexpired (now : DateTime) (job : Job) : Truth :=
  relate (fun x y => decide (y < x)) job.leaseExpiresAt (some now)

structure StartArguments where
  lease : LeaseArguments
  (childPid processGroupId processStartTicks : Option ℤ)
  (commandFingerprint traceId eventId : Option String)

def startedJob (now : DateTime) (job : Job) : Job :=
  { job with
    state := .running
    reasonCode := some "STARTED"
    updatedAt := now }

def startedAttempt (now : DateTime) (childPid processGroupId processStartTicks : ℤ) (commandFingerprint : String)
    (attempt : Attempt) : Attempt :=
  { attempt with
    outcome := .running
    startedAt := some now
    heartbeatAt := some now
    childPid := some childPid
    processGroupId := some processGroupId
    processStartTicks := some processStartTicks
    commandFingerprint := some commandFingerprint }

def startedEvent (now : DateTime) (eventId traceId : String) (lease : Lease) (sequence : ℕ) : Event where
  eventId := eventId
  jobId := lease.jobId
  attemptId := some lease.attemptId
  sequence := sequence
  fromState := some .claimed
  toState := .running
  reasonCode := "STARTED"
  actorType := .worker
  actorId := lease.workerId
  traceId := traceId
  metadata := .empty
  createdAt := now

def workerStartSnapshot (user : SessionUser) (now : DateTime) (p : StartArguments) (tables : Tables) :
    Except Raised (Bool × Tables) := do
  let rejected : Raised := ⟨"worker start input rejected", "22023"⟩
  require (user = .tradingJobWorker) ⟨"worker start authority rejected", "42501"⟩
  let lease ← p.lease.check rejected
  let childPid ← notNull p.childPid rejected
  require (0 < childPid) rejected
  let processGroupId ← notNull p.processGroupId rejected
  require (0 < processGroupId) rejected
  let processStartTicks ← notNull p.processStartTicks rejected
  require (0 ≤ processStartTicks) rejected
  let commandFingerprint ← given isSha256 p.commandFingerprint rejected
  let traceId ← given isIdentity p.traceId rejected
  let eventId ← given isRowId p.eventId rejected
  match lease.lock [.claimed] (leaseExpired now) .claimed tables with
  | none => .ok (false, tables)
  | some _ => do
    let nextSequence := tables.nextSequence lease.jobId
    let updated := (tables.updateJob lease.jobId (startedJob now)).updateAttempt lease.attemptId lease.jobId
      (startedAttempt now childPid processGroupId processStartTicks commandFingerprint)
    let final ← updated.insertEvent (startedEvent now eventId traceId lease nextSequence)
    .ok (true, final)

/-- `p_phase` -/
inductive LeasePhase
  | preSpawn
  | running
  deriving DecidableEq

inductive WorkerControl
  | continue
  | cancel
  | stale
  deriving DecidableEq

/-- `CASE p_phase WHEN 'PRE_SPAWN' THEN 'CLAIMED' ELSE 'RUNNING' END`, of the job. -/
def LeasePhase.state : LeasePhase → JobState
  | .preSpawn => .claimed
  | .running => .running

/-- `expected_attempt_outcome` -/
def LeasePhase.outcome : LeasePhase → AttemptOutcome
  | .preSpawn => .claimed
  | .running => .running

def renewedJob (now renewedUntil : DateTime) (job : Job) : Job :=
  { job with
    leaseExpiresAt := some renewedUntil
    updatedAt := now }

def renewedAttempt (now renewedUntil : DateTime) (attempt : Attempt) : Attempt :=
  { attempt with
    leaseExpiresAt := renewedUntil
    heartbeatAt := some now }

def workerControlSnapshotLease (user : SessionUser) (now : DateTime) (p : LeaseArguments) (leaseSeconds : Option ℤ)
    (phase : Option LeasePhase) (tables : Tables) : Except Raised (WorkerControl × Tables) := do
  let rejected : Raised := ⟨"worker lease input rejected", "22023"⟩
  require (user = .tradingJobWorker) ⟨"worker lease authority rejected", "42501"⟩
  let lease ← p.check rejected
  let leaseSeconds ← notNull leaseSeconds rejected
  require (1 ≤ leaseSeconds ∧ leaseSeconds ≤ 3600) rejected
  let phase ← notNull phase rejected
  match lease.lock [phase.state, .cancelRequested] (leaseExpired now) phase.outcome tables with
  | none => .ok (.stale, tables)
  | some (job, _) =>
    let renewedUntil := now + TimeDelta.seconds leaseSeconds
    let updated := (tables.updateJob lease.jobId (renewedJob now renewedUntil)).updateAttempt lease.attemptId
      lease.jobId (renewedAttempt now renewedUntil)
    .ok (if job.state = .cancelRequested then .cancel else .continue, updated)

/-! ## Finalization -/

structure FinalizeArguments where
  lease : LeaseArguments
  expectedState : Option JobState
  expectedAttemptOutcome : Option AttemptOutcome
  finalState : Option JobState
  (reasonCode traceId eventId : Option String)
  exitCode : Option ℤ
  (terminationReason resultHash : Option String)
  resultMetadata : Option Jsonb
  (errorCode errorMessage : Option String)
  retry : Option Bool
  retryEventId : Option String
  eventMetadata : Option Jsonb

def AttemptOutcome.ofFinal : JobState → Option AttemptOutcome
  | .succeeded => some .succeeded
  | .failed => some .failed
  | .blocked => some .blocked
  | .timedOut => some .timedOut
  | .cancelled => some .cancelled
  | _ => none

/-- The states, outcomes and final states that a finalization may name. -/
def finalizes : JobState → AttemptOutcome → JobState → Bool
  | .claimed, .claimed, final => final == .blocked
  | .running, .running, final => [.succeeded, .failed, .blocked, .timedOut].contains final
  | .cancelRequested, .claimed, final => [.cancelled, .blocked].contains final
  | .cancelRequested, .running, final => [.cancelled, .blocked].contains final
  | _, _, _ => false

/-- `statement_timestamp() + interval '30 seconds'` -/
def retryAt (now : DateTime) : DateTime := now + TimeDelta.seconds 30

def retriedJob (now : DateTime) (reasonCode : String) (job : Job) : Job :=
  { job with
    state := .queued
    reasonCode := some reasonCode
    nextAttemptAt := some (retryAt now)
    finishedAt := none
    resultHash := none
    resultMetadata := .empty
    errorCode := none
    errorMessage := none
    cancelRequestedAt := none
    cancelActorType := none
    cancelActorId := none
    updatedAt := now }

def finalizedJob (now : DateTime) (p : FinalizeArguments) (finalState : JobState) (reasonCode : String)
    (resultMetadata : Jsonb) (job : Job) : Job :=
  { job with
    state := finalState
    reasonCode := some reasonCode
    resultHash := p.resultHash
    resultMetadata := resultMetadata
    errorCode := p.errorCode
    errorMessage := p.errorMessage
    finishedAt := some now
    updatedAt := now
    leaseOwner := none
    leaseToken := none
    leaseExpiresAt := none }

def finalizedAttempt (now : DateTime) (p : FinalizeArguments) (outcome : AttemptOutcome) (attempt : Attempt) :
    Attempt :=
  { attempt with
    outcome := outcome
    finishedAt := some now
    exitCode := p.exitCode
    terminationReason := p.terminationReason
    errorCode := p.errorCode
    errorMessage := p.errorMessage }

def finalizedEvent (now : DateTime) (eventId reasonCode traceId : String) (lease : Lease) (sequence : ℕ)
    (expectedState finalState : JobState) (metadata : Jsonb) : Event where
  eventId := eventId
  jobId := lease.jobId
  attemptId := some lease.attemptId
  sequence := sequence
  fromState := some expectedState
  toState := finalState
  reasonCode := reasonCode
  actorType := .worker
  actorId := lease.workerId
  traceId := traceId
  metadata := metadata
  createdAt := now

def retryEvent (now : DateTime) (eventId reasonCode traceId : String) (actorType : ActorType) (actorId : String)
    (lease : Lease) (sequence : ℕ) (finalState : JobState) : Event where
  eventId := eventId
  jobId := lease.jobId
  attemptId := some lease.attemptId
  sequence := sequence
  fromState := some finalState
  toState := .queued
  reasonCode := reasonCode
  actorType := actorType
  actorId := actorId
  traceId := traceId
  metadata := .empty
  createdAt := now

def workerFinalizeSnapshot (user : SessionUser) (now : DateTime) (p : FinalizeArguments) (tables : Tables) :
    Except Raised (Bool × Tables) := do
  let rejected : Raised := ⟨"worker finalization input rejected", "22023"⟩
  require (user = .tradingJobWorker) ⟨"worker finalization authority rejected", "42501"⟩
  let lease ← p.lease.check rejected
  let reasonCode ← given isReasonCode p.reasonCode rejected
  let traceId ← given isIdentity p.traceId rejected
  let eventId ← given isRowId p.eventId rejected
  require (p.resultHash.all isSha256) rejected
  let resultMetadata ← notNull p.resultMetadata rejected
  require resultMetadata.isObject rejected
  let eventMetadata ← notNull p.eventMetadata rejected
  require eventMetadata.isObject rejected
  let expectedState ← notNull p.expectedState rejected
  let expectedAttemptOutcome ← notNull p.expectedAttemptOutcome rejected
  let finalState ← notNull p.finalState rejected
  require (p.terminationReason.all fun reason => decide (reason.length ≤ 128)) rejected
  require (p.errorCode.all isReasonCode) rejected
  require (p.errorMessage.all fun message => decide (message.length ≤ 512)) rejected
  let retry ← notNull p.retry rejected
  require (p.retryEventId.all isRowId) rejected
  require (retry = true → p.retryEventId ≠ none ∧ p.retryEventId ≠ some eventId) rejected
  require (finalizes expectedState expectedAttemptOutcome finalState) rejected
  require (retry = true → finalState = .failed ∨ finalState = .timedOut) rejected
  match lease.lock [expectedState] (leaseExpired now) expectedAttemptOutcome tables with
  | none => .ok (false, tables)
  | some (job, _) => do
    require (¬ (retry = true ∧ job.maxAttempts ≤ job.attemptCount)) ⟨"worker retry policy rejected", "22023"⟩
    let nextSequence := tables.nextSequence lease.jobId
    let outcome ← notNull (AttemptOutcome.ofFinal finalState) ⟨"ck_job_attempts_outcome", "23514"⟩
    let updated := (tables.updateJob lease.jobId (finalizedJob now p finalState reasonCode resultMetadata)).updateAttempt
      lease.attemptId lease.jobId (finalizedAttempt now p outcome)
    let finalized ← updated.insertEvent
      (finalizedEvent now eventId reasonCode traceId lease nextSequence expectedState finalState eventMetadata)
    if retry = true then
      let retryEventId ← notNull p.retryEventId rejected
      let queued := finalized.updateJob lease.jobId (retriedJob now "PROCESS_RETRY_SCHEDULED")
      let final ← queued.insertEvent (retryEvent now retryEventId "PROCESS_RETRY_SCHEDULED" traceId .worker
        lease.workerId lease (nextSequence + 1) finalState)
      .ok (true, final)
    else .ok (true, finalized)

/-! ## Recovery -/

/-- `p_observation` -/
inductive Observation
  | absent
  | stillRunning
  | identityMismatch
  | unverifiable
  deriving DecidableEq

/-- The arguments of `worker_recover_expired_snapshot`; the expected lease stands under `lease`. -/
structure RecoverArguments where
  lease : LeaseArguments
  expectedState : Option JobState
  expectedAttemptOutcome : Option AttemptOutcome
  (expectedChildPid expectedProcessGroupId expectedProcessStartTicks : Option ℤ)
  expectedCommandFingerprint : Option String
  observation : Option Observation
  (traceId recoveryId eventId retryEventId : Option String)

def recovers : JobState → AttemptOutcome → Bool
  | .claimed, .claimed => true
  | .running, .running => true
  | .cancelRequested, .claimed => true
  | .cancelRequested, .running => true
  | _, _ => false

/-- `effective_observation`: only of a process whose recorded identity is complete and as expected. -/
def effectiveObservation (p : RecoverArguments) (observation : Observation) (attempt : Attempt) : Observation :=
  if attempt.childPid = none ∨ attempt.processGroupId = none ∨ attempt.processStartTicks = none ∨
      attempt.commandFingerprint = none ∨ attempt.childPid ≠ p.expectedChildPid ∨
      attempt.processGroupId ≠ p.expectedProcessGroupId ∨
      attempt.processStartTicks ≠ p.expectedProcessStartTicks ∨
      attempt.commandFingerprint ≠ p.expectedCommandFingerprint then .unverifiable
  else observation

structure RecoveryVerdict where
  reason : String
  targetState : JobState
  targetAttemptOutcome : AttemptOutcome
  retryJob : Bool

def recoveryVerdict (job : Job) (observation : Observation) : RecoveryVerdict :=
  if job.resultHash ≠ none ∨ job.resultMetadata ≠ .empty then
    ⟨"RESULT_RECONCILIATION_REQUIRED", .blocked, .blocked, false⟩
  else if observation = .stillRunning then ⟨"LEASE_EXPIRED_CHILD_STILL_RUNNING", .blocked, .blocked, false⟩
  else if observation = .identityMismatch then
    ⟨"LEASE_EXPIRED_CHILD_IDENTITY_MISMATCH", .blocked, .blocked, false⟩
  else if observation = .unverifiable then
    ⟨"LEASE_EXPIRED_CHILD_IDENTITY_UNVERIFIABLE", .blocked, .blocked, false⟩
  else if job.state ≠ .running then
    ⟨"LEASE_EXPIRED_BEFORE_RESULT_STATE_UNCERTAIN", .blocked, .blocked, false⟩
  else if job.attemptCount < job.maxAttempts then ⟨"LEASE_EXPIRED_CHILD_ABSENT", .failed, .interrupted, true⟩
  else ⟨"LEASE_EXPIRED_ATTEMPTS_EXHAUSTED", .failed, .interrupted, false⟩

def recoveredJob (now : DateTime) (verdict : RecoveryVerdict) (job : Job) : Job :=
  { job with
    state := verdict.targetState
    reasonCode := some verdict.reason
    finishedAt := some now
    updatedAt := now
    leaseOwner := none
    leaseToken := none
    leaseExpiresAt := none }

def recoveredAttempt (now : DateTime) (verdict : RecoveryVerdict) (attempt : Attempt) : Attempt :=
  { attempt with
    outcome := verdict.targetAttemptOutcome
    finishedAt := some now
    terminationReason := some verdict.reason }

def recoveredEvent (now : DateTime) (eventId recoveryId traceId : String) (lease : Lease) (sequence : ℕ)
    (expectedState : JobState) (verdict : RecoveryVerdict) : Event where
  eventId := eventId
  jobId := lease.jobId
  attemptId := some lease.attemptId
  sequence := sequence
  fromState := some expectedState
  toState := verdict.targetState
  reasonCode := verdict.reason
  actorType := .recovery
  actorId := recoveryId
  traceId := traceId
  metadata := .empty
  createdAt := now

def workerRecoverExpiredSnapshot (user : SessionUser) (now : DateTime) (p : RecoverArguments) (tables : Tables) :
    Except Raised (String × Tables) := do
  let rejected : Raised := ⟨"worker recovery input rejected", "22023"⟩
  require (user = .tradingJobWorker) ⟨"worker recovery authority rejected", "42501"⟩
  let lease ← p.lease.check rejected
  require (p.expectedChildPid.all fun pid => decide (0 < pid)) rejected
  require (p.expectedProcessGroupId.all fun group => decide (0 < group)) rejected
  require (p.expectedProcessStartTicks.all fun ticks => decide (0 ≤ ticks)) rejected
  require (p.expectedCommandFingerprint.all isSha256) rejected
  let expectedState ← notNull p.expectedState rejected
  let expectedAttemptOutcome ← notNull p.expectedAttemptOutcome rejected
  let observation ← notNull p.observation rejected
  let traceId ← given isIdentity p.traceId rejected
  let recoveryId ← given (["lease-recovery", "worker-startup-recovery"].contains ·) p.recoveryId rejected
  let eventId ← given isRowId p.eventId rejected
  require (p.retryEventId.all isRowId) rejected
  require (p.retryEventId ≠ some eventId) rejected
  require (recovers expectedState expectedAttemptOutcome) rejected
  match lease.lock [expectedState] (leaseUnexpired now) expectedAttemptOutcome tables with
  | none => .ok ("LEASE_RECOVERY_STALE", tables)
  | some (job, attempt) => do
    let verdict := recoveryVerdict job (effectiveObservation p observation attempt)
    require (¬ (verdict.retryJob = true ∧ p.retryEventId = none))
      ⟨"worker recovery retry identity rejected", "22023"⟩
    let nextSequence := tables.nextSequence lease.jobId
    let updated := (tables.updateAttempt lease.attemptId lease.jobId (recoveredAttempt now verdict)).updateJob
      lease.jobId (recoveredJob now verdict)
    let recovered ← updated.insertEvent
      (recoveredEvent now eventId recoveryId traceId lease nextSequence expectedState verdict)
    if verdict.retryJob = true then
      let retryEventId ← notNull p.retryEventId rejected
      let queued := recovered.updateJob lease.jobId (retriedJob now "LEASE_EXPIRED_RETRY_SCHEDULED")
      let final ← queued.insertEvent (retryEvent now retryEventId "LEASE_EXPIRED_RETRY_SCHEDULED" traceId .recovery
        recoveryId lease (nextSequence + 1) .failed)
      .ok ("LEASE_EXPIRED_RETRY_SCHEDULED", final)
    else .ok (verdict.reason, recovered)

/-! ## Calls -/

/-- A call of a database function. -/
inductive Call
  | apiEnqueue (user : SessionUser) (now : DateTime) (p : EnqueueArguments) (priority : Option ℤ)
  | schedulerEnqueue (user : SessionUser) (now : DateTime) (p : EnqueueArguments)
  | apiCancel (user : SessionUser) (now : DateTime) (p : CancelArguments)
  | workerClaim (locked : List String) (user : SessionUser) (now : DateTime) (p : ClaimArguments)
  | workerStart (user : SessionUser) (now : DateTime) (p : StartArguments)
  | workerControl (user : SessionUser) (now : DateTime) (p : LeaseArguments) (leaseSeconds : Option ℤ)
      (phase : Option LeasePhase)
  | workerFinalize (user : SessionUser) (now : DateTime) (p : FinalizeArguments)
  | workerRecover (user : SessionUser) (now : DateTime) (p : RecoverArguments)

def Call.commit (sha256 : String → String) (tables : Tables) : Call → Except Raised Tables
  | .apiEnqueue user now p priority => (apiEnqueueSnapshot user now p priority tables).map (·.2)
  | .schedulerEnqueue user now p => (schedulerEnqueueSnapshot user now p tables).map (·.2)
  | .apiCancel user now p => (apiCancelSnapshot user now p tables).map (·.2)
  | .workerClaim locked user now p => (workerClaimSnapshot sha256 locked user now p tables).map (·.2)
  | .workerStart user now p => (workerStartSnapshot user now p tables).map (·.2)
  | .workerControl user now p leaseSeconds phase =>
    (workerControlSnapshotLease user now p leaseSeconds phase tables).map (·.2)
  | .workerFinalize user now p => (workerFinalizeSnapshot user now p tables).map (·.2)
  | .workerRecover user now p => (workerRecoverExpiredSnapshot user now p tables).map (·.2)

/-- A call that raises changes nothing. -/
def execute (sha256 : String → String) (tables : Tables) (call : Call) : Tables :=
  match call.commit sha256 tables with
  | .ok after => after
  | .error _ => tables

def executeAll (sha256 : String → String) (tables : Tables) (calls : List Call) : Tables :=
  calls.foldl (execute sha256) tables

end TradingAgent.JobPlane
