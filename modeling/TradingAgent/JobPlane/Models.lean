import TradingAgent.Domain.Primitives
import TradingAgent.Lib.Calendar

/-!
# The tables of the job plane

The rows of `jobs`, `job_attempts` and `job_events` with their keys
(`alembic/versions/0004_durable_research_jobs.py`), and the text formats that the functions of `job_plane`
check. A check constraint that follows from these formats is not repeated.
-/

namespace TradingAgent.JobPlane

open Outcome

inductive JobState
  | queued
  | claimed
  | running
  | succeeded
  | failed
  | blocked
  | timedOut
  | cancelRequested
  | cancelled
  deriving DecidableEq

inductive AttemptOutcome
  | claimed
  | running
  | succeeded
  | failed
  | blocked
  | timedOut
  | cancelled
  | interrupted
  deriving DecidableEq

inductive JobType
  | snapshot
  | debate
  | replay
  | backtest
  deriving DecidableEq

inductive ActorType
  | operator
  | scheduler
  | worker
  | recovery
  | system
  deriving DecidableEq

inductive SessionUser
  | tradingJobApi
  | tradingJobWorker
  | tradingJobScheduler
  | other
  deriving DecidableEq

/-- A `jsonb` value, by the text it is printed as. -/
structure Jsonb where
  text : String
  deriving DecidableEq

def Jsonb.empty : Jsonb := ⟨"\x7b\x7d"⟩

/-- `jsonb_typeof(…) = 'object'` -/
def Jsonb.isObject (value : Jsonb) : Bool := value.text.toList.head? == some '\x7b'

/-- `jsonb_build_object('scope', 'default', 'requested_as_of', NULL)` -/
def snapshotPayload : Jsonb := ⟨"\x7b\"scope\": \"default\", \"requested_as_of\": null\x7d"⟩

/-- The fingerprint of `snapshotPayload` that the functions require. -/
def snapshotPayloadFingerprint : String := "dc993577d7fe81a0fc6b23e281e0b7e2a182d557143cfa312d21078271b4091a"

/-- `^[first][rest]{least,most}$` -/
def formatted (first rest : Char → Bool) (least most : ℕ) (text : String) : Bool :=
  match text.toList with
  | [] => false
  | c :: cs => first c && cs.all rest && decide (least ≤ cs.length) && decide (cs.length ≤ most)

def isNameChar (c : Char) : Bool := c.isAlphanum || c == '_' || c == '.' || c == ':' || c == '-'

/-- `^[A-Za-z0-9][A-Za-z0-9_.:-]{0,63}$` -/
def isRowId : String → Bool := formatted Char.isAlphanum isNameChar 0 63

/-- `^[A-Za-z0-9][A-Za-z0-9_.:-]{0,127}$` -/
def isIdentity : String → Bool := formatted Char.isAlphanum isNameChar 0 127

def isTokenChar (c : Char) : Bool := c.isAlphanum || c == '_' || c == '-'

/-- `^[A-Za-z0-9_-]{16,128}$` -/
def isLeaseToken : String → Bool := formatted isTokenChar isTokenChar 15 127

def isCodeChar (c : Char) : Bool := c.isUpper || c.isDigit || c == '_'

/-- `^[A-Z][A-Z0-9_]{0,127}$` -/
def isReasonCode : String → Bool := formatted Char.isUpper isCodeChar 0 127

def isHexChar (c : Char) : Bool := c.isDigit || decide ('a' ≤ c ∧ c ≤ 'f')

/-- `^[0-9a-f]{64}$` -/
def isSha256 : String → Bool := formatted isHexChar isHexChar 63 63

def digitsValue (digits : List Char) : ℕ := digits.foldl (fun n c => 10 * n + (c.toNat - '0'.toNat)) 0

/-- `^schedule:snapshot:YYYY-MM-DDTHH:MMZ$`, with a valid date. -/
def isScheduleSlot (key : String) : Bool :=
  match key.toList.drop 18 with
  | [y1, y2, y3, y4, '-', m1, m2, '-', d1, d2, 'T', h1, h2, ':', n1, n2, 'Z'] =>
    let year := digitsValue [y1, y2, y3, y4]
    let month := digitsValue [m1, m2]
    let day := digitsValue [d1, d2]
    decide (key.toList.take 18 = "schedule:snapshot:".toList)
      && [y1, y2, y3, y4, m1, m2, d1, d2, h1, h2, n1, n2].all Char.isDigit
      && decide (1 ≤ year) && decide (1 ≤ month ∧ month ≤ 12) && decide (1 ≤ day ∧ day ≤ Calendar.daysInMonth year month)
      && decide (digitsValue [h1, h2] ≤ 23) && decide (digitsValue [n1, n2] ≤ 59)
  | _ => false

def isScheduleKey (key : String) : Bool := decide (key.toList.take 9 = "schedule:".toList)

/-- A row of `jobs`. -/
structure Job where
  jobId : String
  jobType : JobType
  state : JobState
  payload : Jsonb
  (payloadFingerprint idempotencyKey : String)
  actorType : ActorType
  actorId : String
  priority : ℤ
  (requestedAt updatedAt : DateTime)
  (attemptCount maxAttempts : ℕ)
  nextAttemptAt : Option DateTime
  (leaseOwner leaseToken : Option String)
  (leaseExpiresAt cancelRequestedAt : Option DateTime)
  cancelActorType : Option ActorType
  (cancelActorId reasonCode resultHash : Option String)
  resultMetadata : Jsonb
  (errorCode errorMessage : Option String)
  finishedAt : Option DateTime
  deriving DecidableEq

/-- A row of `job_attempts`. -/
structure Attempt where
  (attemptId jobId : String)
  attemptNumber : ℕ
  workerId : String
  outcome : AttemptOutcome
  leaseToken : String
  (leaseExpiresAt claimedAt : DateTime)
  (startedAt heartbeatAt finishedAt : Option DateTime)
  (childPid processGroupId processStartTicks : Option ℤ)
  commandFingerprint : Option String
  exitCode : Option ℤ
  (terminationReason errorCode errorMessage : Option String)
  deriving DecidableEq

/-- A row of `job_events`. -/
structure Event where
  (eventId jobId : String)
  attemptId : Option String
  sequence : ℕ
  fromState : Option JobState
  toState : JobState
  reasonCode : String
  actorType : ActorType
  (actorId traceId : String)
  metadata : Jsonb
  createdAt : DateTime
  deriving DecidableEq

/-- The tables of the job plane. -/
structure Tables where
  jobs : List Job
  attempts : List Attempt
  events : List Event
  deriving DecidableEq

/-- A raised exception: its message, or the violated constraint, and its `ERRCODE`. -/
structure Raised where
  (message errcode : String)
  deriving DecidableEq

def uniqueViolation (constraint : String) : Raised := ⟨constraint, "23505"⟩

def foreignKeyViolation (constraint : String) : Raised := ⟨constraint, "23503"⟩

/-- The row must pass `p IS NOT NULL AND p ~ format`. -/
def given (format : String → Bool) (p : Option String) (raised : Raised) : Except Raised String :=
  match p with
  | some text => if format text then .ok text else .error raised
  | none => .error raised

variable {raised : Raised}

theorem given_ok_iff {format : String → Bool} {p : Option String} {text : String} :
    given format p raised = .ok text ↔ p = some text ∧ format text = true := by
  cases p with
  | none => simp [given]
  | some t =>
    simp only [given, Option.some.injEq]
    split_ifs with h
    · exact ⟨fun ht => by cases ht; exact ⟨rfl, h⟩, fun ht => by rw [ht.1]⟩
    · constructor
      · intro ht
        cases ht
      · rintro ⟨rfl, ht⟩
        exact absurd ht h

def notNull {α : Type} (p : Option α) (raised : Raised) : Except Raised α :=
  match p with
  | some a => .ok a
  | none => .error raised

theorem notNull_ok_iff {α : Type} {p : Option α} {a : α} : notNull p raised = .ok a ↔ p = some a := by
  cases p <;> simp [notNull]

namespace Tables

variable (tables : Tables)

def empty : Tables := ⟨[], [], []⟩

def job? (jobId : String) : Option Job := tables.jobs.find? fun job => job.jobId = jobId

/-- The job to lock, `WHERE job_id = … AND job_type = 'SNAPSHOT'`. -/
def snapshotJob? (jobId : String) : Option Job :=
  tables.jobs.find? fun job => job.jobId = jobId ∧ job.jobType = .snapshot

def attempt? (attemptId jobId : String) : Option Attempt :=
  tables.attempts.find? fun attempt => attempt.attemptId = attemptId ∧ attempt.jobId = jobId

/-- The rows of `job_attempts` for a job. -/
def attemptsOf (jobId : String) : List Attempt := tables.attempts.filter fun attempt => attempt.jobId = jobId

def eventsOf (jobId : String) : List Event := tables.events.filter fun event => event.jobId = jobId

/-- `coalesce(max(event_row.sequence), 0) + 1` -/
def nextSequence (jobId : String) : ℕ := ((tables.eventsOf jobId).map (·.sequence)).foldr max 0 + 1

def updateJob (jobId : String) (f : Job → Job) : Tables :=
  { tables with jobs := tables.jobs.map fun job => if job.jobId = jobId then f job else job }

def updateAttempt (attemptId jobId : String) (f : Attempt → Attempt) : Tables :=
  { tables with
    attempts := tables.attempts.map fun attempt =>
      if attempt.attemptId = attemptId ∧ attempt.jobId = jobId then f attempt else attempt }

def insertJob (job : Job) : Except Raised Tables := do
  require (tables.job? job.jobId = none) (uniqueViolation "jobs_pkey")
  .ok { tables with jobs := tables.jobs ++ [job] }

def insertAttempt (attempt : Attempt) : Except Raised Tables := do
  require (∀ other ∈ tables.attempts, other.attemptId ≠ attempt.attemptId) (uniqueViolation "job_attempts_pkey")
  require (∀ other ∈ tables.attempts,
      ¬ (other.jobId = attempt.jobId ∧ other.attemptNumber = attempt.attemptNumber))
    (uniqueViolation "uq_job_attempts_job_number")
  require (tables.job? attempt.jobId ≠ none) (foreignKeyViolation "job_attempts_job_id_fkey")
  .ok { tables with attempts := tables.attempts ++ [attempt] }

def insertEvent (event : Event) : Except Raised Tables := do
  require (∀ other ∈ tables.events, other.eventId ≠ event.eventId) (uniqueViolation "job_events_pkey")
  require (∀ other ∈ tables.events, ¬ (other.jobId = event.jobId ∧ other.sequence = event.sequence))
    (uniqueViolation "uq_job_events_job_sequence")
  require (tables.job? event.jobId ≠ none) (foreignKeyViolation "job_events_job_id_fkey")
  require (event.attemptId.all fun attemptId => (tables.attempt? attemptId event.jobId).isSome)
    (foreignKeyViolation "fk_job_events_job_attempt")
  .ok { tables with events := tables.events ++ [event] }

end Tables

end TradingAgent.JobPlane
