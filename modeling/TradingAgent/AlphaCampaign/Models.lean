import TradingAgent.JobPlane.Functions
import TradingAgent.EventLedger.CanonicalJson

/-!
# The tables of the alpha campaign authority

`jobs` as the owner of the P3 functions sees it, `job_attempts` and `job_events`, and the P3 tables with their
keys (`alembic/versions/0020_p3_alpha_campaign_authority.py` and its successors up to 0033).
-/

namespace TradingAgent.AlphaCampaign

open Outcome ThreeValued
open JobPlane (JobState Attempt Event Raised uniqueViolation foreignKeyViolation formatted)

/-- What the server computes: the hexadecimal `sha256` of a text, and `text::timestamptz`. -/
structure Server where
  sha256 : String → String
  timestamptz : String → Option DateTime

inductive SessionUser
  | tradingJobApi
  | tradingJobWorker
  | tradingP3Custodian
  | other
  deriving DecidableEq

/-- A session: its user, and whether its role is the restricted login that `pg_roles` must show. -/
structure Session where
  user : SessionUser
  restricted : Bool

/-- The clock in one call: `statement_timestamp()`, and the readings of `clock_timestamp()` by where the call
takes them. -/
structure Clock where
  now : DateTime
  reading : ℕ → DateTime

def isSlugChar (c : Char) : Bool := c.isLower || c.isDigit || c == '.' || c == '_' || c == '-'

/-- `^[a-z][a-z0-9._-]{0,127}$` -/
def isSlug : String → Bool := formatted Char.isLower isSlugChar 0 127

/-- `^[a-z][a-z0-9._-]{0,63}$` -/
def isAlphaSlug : String → Bool := formatted Char.isLower isSlugChar 0 63

/-- `^[0-9a-f]{40}$` -/
def isCommitSha : String → Bool := formatted JobPlane.isHexChar JobPlane.isHexChar 39 39

/-- `^[1-9][0-9]*$` -/
def isPositive (text : String) : Bool :=
  match text.toList with
  | [] => false
  | c :: cs => c.isDigit && c != '0' && cs.all Char.isDigit

/-- `^(0|[1-9][0-9]*)$` -/
def isWhole (text : String) : Bool := text.toList == ['0'] || isPositive text

/-- `[0-9]+` up to the next point. -/
def versionParts (cs : List Char) : List (List Char) :=
  cs.foldr (fun c parts => if c = '.' then [] :: parts else match parts with
    | part :: rest => (c :: part) :: rest
    | [] => [[c]]) [[]]

/-- `^[0-9]+\.[0-9]+\.[0-9]+$` -/
def isVersion (text : String) : Bool :=
  match versionParts text.toList with
  | [major, minor, patch] => [major, minor, patch].all fun part => !part.isEmpty && part.all Char.isDigit
  | _ => false

/-- `job_type`, of which the owner of the P3 functions sees one. -/
inductive JobType
  | alphaCampaign
  | other
  deriving DecidableEq

/-- A row of `jobs`. -/
structure Job where
  jobId : String
  jobType : JobType
  state : JobState
  payload : Json
  (payloadFingerprint idempotencyKey actorId : String)
  priority : ℤ
  (attemptCount maxAttempts : ℕ)
  nextAttemptAt : Option DateTime
  (leaseOwner leaseToken : Option String)
  leaseExpiresAt : Option DateTime
  (reasonCode resultHash : Option String)
  resultMetadata : Json

structure CampaignAuthorization where
  (requestDigest inputSetDigest sourceCommitSha sourceIdentityText operation : String)
  expiresAt : DateTime
  authorizationText : String

structure OperationAuthorization where
  (authorizationDigest intentText reviewText nonce : String)

structure Binding where
  (authorizationDigest jobId : String)
  deriving DecidableEq

structure Disclosure where
  (intentDigest intentSha256 authorizationDigest jobId attemptId workerId inputsDigest : String)
  (holdoutRequestText holdoutRequestSha256 researchInputSetSha256 holdoutInputSetSha256 epochId : String)
  (familyDigest sourceIdentityText policyDigest familyReviewSha256 primarySelectionSha256 : String)
  (custodyRecordSha256 primaryAlphaId primaryVersion primaryHeadSha256 holdoutCommitment : String)
  (plaintextBundleDigest accessPolicyDigest custodianIdentity researchIdentity traceId : String)
  disclosedAt : DateTime

structure Release where
  (holdoutCommitment requestSha256 requestText : String)
  releasedAt : DateTime

/-- The tables of the campaign. -/
structure Tables where
  jobs : List Job
  attempts : List Attempt
  events : List Event
  campaigns : List CampaignAuthorization
  operations : List OperationAuthorization
  bindings : List Binding
  disclosures : List Disclosure
  releases : List Release

def notNullViolation (column : String) : Raised := ⟨column, "23502"⟩

def checkViolation (constraint : String) : Raised := ⟨constraint, "23514"⟩

/-- `IF condition THEN RAISE EXCEPTION`, where an unknown condition raises nothing. -/
def raiseIf (condition : Truth) (raised : Raised) : Except Raised Unit := require (¬ holds condition) raised

/-- `IF condition IS NOT TRUE THEN RAISE EXCEPTION` -/
def raiseUnless (condition : Truth) (raised : Raised) : Except Raised Unit := require (holds condition) raised

@[simp] theorem raiseUnless_ok_iff {condition : Truth} {raised : Raised} {u : Unit} :
    raiseUnless condition raised = .ok u ↔ holds condition := require_ok_iff

namespace Tables

variable (tables : Tables)

/-- The alpha campaign job, `WHERE job_id = …`; the row policy hides every other job. -/
def job? (jobId : String) : Option Job :=
  tables.jobs.find? fun job => job.jobId = jobId ∧ job.jobType = .alphaCampaign

def anyJob? (jobId : String) : Option Job := tables.jobs.find? fun job => job.jobId = jobId

def attempt? (attemptId jobId : String) : Option Attempt :=
  tables.attempts.find? fun attempt => attempt.attemptId = attemptId ∧ attempt.jobId = jobId

def campaign? (digest : String) : Option CampaignAuthorization :=
  tables.campaigns.find? fun campaign => campaign.requestDigest = digest

def operation? (digest : String) : Option OperationAuthorization :=
  tables.operations.find? fun operation => operation.authorizationDigest = digest

def Bound (digest jobId : String) : Prop := ⟨digest, jobId⟩ ∈ tables.bindings

instance (digest jobId : String) : Decidable (tables.Bound digest jobId) := inferInstanceAs (Decidable (_ ∈ _))

/-- `coalesce(max(e.sequence), 0) + 1` -/
def nextSequence (jobId : String) : ℕ :=
  ((tables.events.filter fun event => event.jobId = jobId).map (·.sequence)).foldr max 0 + 1

def updateJob (jobId : String) (f : Job → Job) : Tables :=
  { tables with
    jobs := tables.jobs.map fun job => if job.jobId = jobId ∧ job.jobType = .alphaCampaign then f job else job }

def updateAttempt (attemptId jobId : String) (f : Attempt → Attempt) : Tables :=
  { tables with
    attempts := tables.attempts.map fun attempt =>
      if attempt.attemptId = attemptId ∧ attempt.jobId = jobId then f attempt else attempt }

def insertJob (job : Job) : Except Raised Tables := do
  require (tables.anyJob? job.jobId = none) (uniqueViolation "jobs_pkey")
  .ok { tables with jobs := tables.jobs ++ [job] }

def insertAttempt (attempt : Attempt) : Except Raised Tables := do
  require (∀ other ∈ tables.attempts, other.attemptId ≠ attempt.attemptId) (uniqueViolation "job_attempts_pkey")
  require (∀ other ∈ tables.attempts,
      ¬ (other.jobId = attempt.jobId ∧ other.attemptNumber = attempt.attemptNumber))
    (uniqueViolation "uq_job_attempts_job_number")
  require (tables.anyJob? attempt.jobId ≠ none) (foreignKeyViolation "job_attempts_job_id_fkey")
  .ok { tables with attempts := tables.attempts ++ [attempt] }

def insertEvent (event : Event) : Except Raised Tables := do
  require (∀ other ∈ tables.events, other.eventId ≠ event.eventId) (uniqueViolation "job_events_pkey")
  require (∀ other ∈ tables.events, ¬ (other.jobId = event.jobId ∧ other.sequence = event.sequence))
    (uniqueViolation "uq_job_events_job_sequence")
  require (tables.anyJob? event.jobId ≠ none) (foreignKeyViolation "job_events_job_id_fkey")
  require (event.attemptId.all fun attemptId => (tables.attempt? attemptId event.jobId).isSome)
    (foreignKeyViolation "fk_job_events_job_attempt")
  .ok { tables with events := tables.events ++ [event] }

end Tables

end TradingAgent.AlphaCampaign
