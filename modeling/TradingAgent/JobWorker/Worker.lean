import TradingAgent.JobPlane.Functions
import TradingAgent.Lib.Calls

/-!
# The job worker

`JobWorker.run_once` (`job_worker/worker.py`) in the plain snapshot profile, with the part of `ProcessRunner.run`
(`job_worker/process_runner.py`) that decides how a child ends. The worker asks its surroundings; its own state is
whether it has started the attempt.
-/

namespace TradingAgent.JobWorker

open Interaction Stateful JobPlane

structure ClaimedJob where
  jobId : String
  jobType : JobType
  payload : Jsonb
  attemptId : String
  attemptNumber : ℕ
  (workerId leaseToken : String)
  leaseExpiresAt : DateTime
  maxAttempts : ℕ

/-- `HeartbeatDecision`; a safety drift carries its reason, as a `HeartbeatInstruction` does. -/
inductive HeartbeatDecision
  | continue
  | cancel
  | safetyDrift (reasonCode : String)
  | staleLease

inductive TerminationReason
  | cancelled
  | safetyDrift
  | staleLease
  | timeout
  | outputDrainTruncated
  | processGroupCleanupUnproven
  deriving DecidableEq

def TerminationReason.code : TerminationReason → String
  | .cancelled => "CANCELLED"
  | .safetyDrift => "SAFETY_DRIFT"
  | .staleLease => "STALE_LEASE"
  | .timeout => "TIMEOUT"
  | .outputDrainTruncated => "OUTPUT_DRAIN_TRUNCATED"
  | .processGroupCleanupUnproven => "PROCESS_GROUP_CLEANUP_UNPROVEN"

structure ProcessOutcome where
  exitCode : Option ℤ
  terminationReason : Option TerminationReason
  safetyReasonCode : Option String

inductive WorkerError
  | blocked (reasonCode : String)
  | validationCancelled
  | validationStale
  | validationSafetyDrift (reasonCode : String)
  | resultValidation (reconciliationRequired : Bool)
  | raised

/-- How a preflight or the preparation of a spawn refuses: with a `WorkerBlockedError`, or otherwise. -/
inductive Refusal
  | blocked (reasonCode : String)
  | raised

def Refusal.error : Refusal → WorkerError
  | .blocked reasonCode => .blocked reasonCode
  | .raised => .raised

inductive Verdict
  | valid
  | invalid (reconciliationRequired : Bool)
  | raised

def Verdict.outcome : Verdict → Except WorkerError Unit
  | .valid => .ok ()
  | .invalid reconciliationRequired => .error (.resultValidation reconciliationRequired)
  | .raised => .error .raised

def isSafetyReasonCode (reasonCode : String) : Bool :=
  decide (reasonCode.toList.take 7 = "SAFETY_".toList) &&
    formatted isCodeChar isCodeChar 0 119 (String.ofList (reasonCode.toList.drop 7))

/-- `HeartbeatInstruction.safety_drift` -/
def sanitized (reasonCode : String) : String :=
  if isSafetyReasonCode reasonCode then reasonCode else "SAFETY_STATE_INVALID"

structure Finalization where
  expectedState : JobState
  expectedAttemptOutcome : AttemptOutcome
  finalState : JobState
  reasonCode : String
  retry : Bool

inductive WorkerStatus
  | idle
  | busy
  | unhealthy

/-- How the loop of the runner ends: cleanly, with pipes left open, or with members left alive. -/
inductive Drain
  | drained
  | truncated
  | unproven
  deriving DecidableEq

structure Poll where
  (failed leaderExited : Bool)

inductive Request
  | safetyPreflight
  | workerHeartbeat (status : WorkerStatus) (current : Option ClaimedJob)
  | claimNext
  | preSpawnControl (claimed : ClaimedJob)
  | heartbeatControl (claimed : ClaimedJob)
  | startAttempt (claimed : ClaimedJob)
  | finalize (claimed : ClaimedJob) (finalization : Finalization)
  | prepareSpawn (claimed : ClaimedJob)
  | popen
  | poll
  | timedOut
  | cleanupStep
  | drain
  | reap
  | validate (claimed : ClaimedJob) (exitCode : ℤ)
  | ingest (payload : Jsonb)

/-- What it gets: for `popen` the further turns of the loop, for `cleanupStep` whether the cleanup is uncertain,
for `reap` whether there were errors and the exit code, for `validate` the calls of `progress` first. -/
abbrev Answer : Request → Type
  | .safetyPreflight => Except Refusal Unit
  | .workerHeartbeat _ _ => Unit
  | .claimNext => Option ClaimedJob
  | .preSpawnControl _ => WorkerControl
  | .heartbeatControl _ => WorkerControl
  | .startAttempt _ => Bool
  | .finalize _ _ => Bool
  | .prepareSpawn _ => Except Refusal Unit
  | .popen => Option ℕ
  | .poll => Poll
  | .timedOut => Bool
  | .cleanupStep => Bool
  | .drain => Drain
  | .reap => Bool × Option ℤ
  | .validate _ _ => ℕ × Verdict
  | .ingest _ => Bool

/-- A part of the worker; its state is `started`. -/
abbrev Program := Stateful Answer Bool WorkerError

def safetyPreflight : Program Unit := do
  let answer : Except Refusal Unit ← ask Request.safetyPreflight
  check (answer.mapError Refusal.error)

/-- `try: … except WorkerBlockedError as exc` -/
def unlessBlocked {α : Type} (x : Program α) : Program (Except String α) :=
  handle (do
    let a ← x
    pure (.ok a)) fun
  | .blocked reasonCode => pure (.error reasonCode)
  | e => throw e

/-- The lease part of `heartbeat`, once the attempt has started. -/
def leaseControl (claimed : ClaimedJob) : Program HeartbeatDecision := do
  let control : WorkerControl ← ask (Request.heartbeatControl claimed)
  match control with
  | .cancel => pure .cancel
  | .stale => pure .staleLease
  | .continue => pure .continue

def heartbeat (claimed : ClaimedJob) : Program HeartbeatDecision := do
  match ← unlessBlocked safetyPreflight with
  | .error reasonCode => pure (.safetyDrift (sanitized reasonCode))
  | .ok () =>
    if (← read) = true then leaseControl claimed
    else if (← ask (.startAttempt claimed)) = true then
      update fun _ => true
      leaseControl claimed
    else
      let control : WorkerControl ← ask (Request.preSpawnControl claimed)
      match control with
      | .cancel => pure .cancel
      | _ => pure .staleLease

/-- The locals of the loop of `ProcessRunner.run`. -/
structure Supervision where
  reason : Option TerminationReason
  safetyReasonCode : Option String
  (cleanupProven cleanupActive : Bool)

namespace Supervision

def start : Supervision := ⟨none, none, true, false⟩

/-- `reason = reason or …` -/
def because (s : Supervision) (reason : TerminationReason) : Supervision :=
  { s with reason := some (s.reason.getD reason) }

/-- `cleanup_proven = False` -/
def unproven (s : Supervision) : Supervision :=
  { s.because .processGroupCleanupUnproven with cleanupProven := false }

def decide (s : Supervision) : HeartbeatDecision → Supervision
  | .continue => s
  | .cancel => s.because .cancelled
  | .staleLease => s.because .staleLease
  | .safetyDrift reasonCode =>
    if s.reason = none then { s.because .safetyDrift with safetyReasonCode := some reasonCode } else s

def ended (s : Supervision) : Drain → Supervision
  | .drained => s
  | .truncated => s.because .outputDrainTruncated
  | .unproven => s.unproven

def finalReason (s : Supervision) (faults : Bool) : Option TerminationReason :=
  if s.cleanupProven = false ∨ faults = true then some .processGroupCleanupUnproven else s.reason

end Supervision

/-- `_session_cleanup_step`, once the cleanup is active. -/
def cleanup (s : Supervision) : Program Supervision := do
  if s.cleanupActive = true then
    if (← ask .cleanupStep) = true then pure s.unproven else pure s
  else pure s

/-- One round of the loop of `ProcessRunner.run`. -/
def turn (claimed : ClaimedJob) (s : Supervision) : Program Supervision := do
  let poll : Poll ← ask Request.poll
  let s := if poll.failed = true then s.unproven else s
  let s := s.decide (← heartbeat claimed)
  let s := if (← ask .timedOut) = true then s.because .timeout else s
  cleanup { s with cleanupActive := s.cleanupActive || poll.leaderExited || s.reason.isSome }

def turns (claimed : ClaimedJob) : ℕ → Supervision → Program Supervision
  | 0, s => pure s
  | n + 1, s => do
    let s ← turn claimed s
    turns claimed n s

def run (claimed : ClaimedJob) : Program ProcessOutcome := do
  safetyPreflight
  let prepared : Except Refusal Unit ← ask (Request.prepareSpawn claimed)
  check (prepared.mapError Refusal.error)
  safetyPreflight
  let spawned : Option ℕ ← ask Request.popen
  let more ← check (spawned.elim (.error .raised) .ok)
  let s ← turns claimed more .start
  let s ← turn claimed s
  let drain : Drain ← ask Request.drain
  let s := s.ended drain
  let reaped : Bool × Option ℤ ← ask Request.reap
  pure ⟨reaped.2, s.finalReason reaped.1, s.safetyReasonCode⟩

/-- What a worker is built with: whether a payload carries market data, and whether there is an ingestor. -/
structure Worker where
  workerId : String
  marketData : Jsonb → Bool
  marketDataIngestor : Bool

def workerLeaseSeconds : ℤ := 600

/-- Finalize, and report the worker idle, or unhealthy when the finalization was refused. -/
def settle (claimed : ClaimedJob) (finalization : Finalization) : Program Bool := do
  let finalized ← ask (.finalize claimed finalization)
  let _ ← ask (.workerHeartbeat (if finalized = true then .idle else .unhealthy)
    (if finalized = true then none else some claimed))
  pure true

/-- `self._worker_heartbeat("UNHEALTHY", claimed); return True` -/
def abandon (claimed : ClaimedJob) : Program Bool := do
  let _ ← ask (.workerHeartbeat .unhealthy (some claimed))
  pure true

def blockClaimed (claimed : ClaimedJob) (reasonCode : String) : Program Bool :=
  settle claimed ⟨.claimed, .claimed, .blocked, reasonCode, false⟩

/-- The finalization of `_finalize_termination`. -/
def terminationOf (started : Bool) (reason : TerminationReason) (safetyReasonCode : Option String) : Finalization :=
  let expected : JobState := if started = true then .running else .claimed
  let attemptOutcome : AttemptOutcome := if started = true then .running else .claimed
  match reason with
  | .cancelled => ⟨.cancelRequested, attemptOutcome, .cancelled, "CANCELLED", false⟩
  | .timeout => ⟨.running, .running, .timedOut, "PROCESS_TIMEOUT", false⟩
  | .safetyDrift => ⟨expected, attemptOutcome, .blocked, safetyReasonCode.getD "SAFETY_DRIFT", false⟩
  | other => ⟨expected, attemptOutcome, .blocked, other.code, false⟩

def validationProgress (claimed : ClaimedJob) : Program Unit := do
  match ← unlessBlocked safetyPreflight with
  | .error reasonCode => throw (.validationSafetyDrift (sanitized reasonCode))
  | .ok () =>
    let control : WorkerControl ← ask (Request.heartbeatControl claimed)
    match control with
    | .cancel => throw .validationCancelled
    | .stale => throw .validationStale
    | .continue => pure ()

/-- Repeated calls of `progress`. -/
def progressTimes (claimed : ClaimedJob) : ℕ → Program Unit
  | 0 => pure ()
  | n + 1 => do
    validationProgress claimed
    progressTimes claimed n

def validation (worker : Worker) (claimed : ClaimedJob) (exitCode : Option ℤ) : Program Unit := do
  validationProgress claimed
  let verdict : ℕ × Verdict ← ask (Request.validate claimed (exitCode.getD (-1)))
  progressTimes claimed verdict.1
  check verdict.2.outcome
  if worker.marketData claimed.payload = true then
    validationProgress claimed
    if (← ask (.ingest claimed.payload)) = true then pure () else throw (.resultValidation false)
  validationProgress claimed

/-- The verdict of a validation, unless it raised something else than a `ResultValidationError`. -/
def judged (x : Program Unit) : Program (Except WorkerError Unit) :=
  handle (do
    x
    pure (.ok ())) fun
  | .blocked _ => throw .raised
  | .raised => throw .raised
  | e => pure (.error e)

def settleResult (claimed : ClaimedJob) : Except WorkerError Unit → Program Bool
  | .ok () => settle claimed ⟨.running, .running, .succeeded, "RESULT_VALIDATED", false⟩
  | .error .validationCancelled => settle claimed ⟨.cancelRequested, .running, .cancelled, "CANCELLED", false⟩
  | .error .validationStale => abandon claimed
  | .error (.validationSafetyDrift reasonCode) => settle claimed ⟨.running, .running, .blocked, reasonCode, false⟩
  | .error (.resultValidation true) =>
    settle claimed ⟨.running, .running, .blocked, "RESULT_RECONCILIATION_REQUIRED", false⟩
  | .error _ =>
    settle claimed ⟨.running, .running, .failed, "RESULT_VALIDATION_FAILED",
      decide (claimed.attemptNumber < claimed.maxAttempts)⟩

/-- The run of the child and what follows it. -/
def execution (worker : Worker) (claimed : ClaimedJob) : Program Bool := do
  match ← unlessBlocked (run claimed) with
  | .error reasonCode => blockClaimed claimed reasonCode
  | .ok outcome =>
    match outcome.terminationReason with
    | some .staleLease => abandon claimed
    | some reason => settle claimed (terminationOf (← read) reason outcome.safetyReasonCode)
    | none => settleResult claimed (← judged (validation worker claimed outcome.exitCode))

def work (worker : Worker) (claimed : ClaimedJob) : Program Bool := do
  match ← unlessBlocked safetyPreflight with
  | .error reasonCode => blockClaimed claimed reasonCode
  | .ok () =>
    let control : WorkerControl ← ask (Request.preSpawnControl claimed)
    match control with
    | .stale => abandon claimed
    | .cancel => settle claimed ⟨.cancelRequested, .claimed, .cancelled, "CANCELLED", false⟩
    | .continue =>
      if worker.marketData claimed.payload = true ∧ worker.marketDataIngestor = false then
        blockClaimed claimed "MARKET_DATA_INGESTOR_UNAVAILABLE"
      else execution worker claimed

/-- `JobWorker.run_once` -/
def runOnce (worker : Worker) : Program Bool := do
  safetyPreflight
  let _ ← ask (.workerHeartbeat .idle none)
  let claimed : Option ClaimedJob ← ask Request.claimNext
  match claimed with
  | none => do
    let _ ← ask (.workerHeartbeat .idle none)
    pure false
  | some claimed => do
    let _ ← ask (.workerHeartbeat .busy (some claimed))
    work worker claimed

end TradingAgent.JobWorker
