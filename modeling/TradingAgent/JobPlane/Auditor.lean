import TradingAgent.JobPlane.Models
import TradingAgent.Lib.ThreeValued

/-!
# The event-chain auditor

The transition policy of `job_contracts/transitions.py` and the query `EVENT_CHAIN_VIOLATIONS_SQL` of
`alembic/versions/0007_job_event_chain_authority.py`, which runs on the events of one job after another.
-/

namespace TradingAgent.JobPlane

open Outcome ThreeValued

def JobState.value : JobState → String
  | .queued => "QUEUED"
  | .claimed => "CLAIMED"
  | .running => "RUNNING"
  | .succeeded => "SUCCEEDED"
  | .failed => "FAILED"
  | .blocked => "BLOCKED"
  | .timedOut => "TIMED_OUT"
  | .cancelRequested => "CANCEL_REQUESTED"
  | .cancelled => "CANCELLED"

def ordinaryTransitions : List (JobState × JobState) :=
  [(.queued, .claimed), (.queued, .cancelled), (.claimed, .running), (.claimed, .cancelRequested),
    (.claimed, .blocked), (.running, .succeeded), (.running, .failed), (.running, .timedOut),
    (.running, .cancelRequested), (.running, .blocked), (.cancelRequested, .cancelled), (.cancelRequested, .blocked)]

def retryTransitions : List (JobState × JobState) := [(.failed, .queued), (.timedOut, .queued)]

def terminalStates : List JobState := [.succeeded, .failed, .blocked, .timedOut, .cancelled]

inductive TransitionDisposition
  | apply
  | noop

structure InvalidTransition where
  message : String

/-- `reason_code.startswith("CANCEL_")` -/
def isCancelReason (reasonCode : String) : Bool := decide (reasonCode.toList.take 7 = "CANCEL_".toList)

def validateTransition (current target : JobState) (reasonCode : String) (retryAllowed : Bool) (traceId : String) :
    Except InvalidTransition TransitionDisposition := do
  require (isReasonCode reasonCode) ⟨"transition requires a valid reason code"⟩
  require (isIdentity traceId) ⟨"transition requires a valid trace identity"⟩
  if current ∈ terminalStates ∧ current = target ∧ isCancelReason reasonCode = true then .ok .noop
  else if (current, target) ∈ ordinaryTransitions then .ok .apply
  else if (current, target) ∈ retryTransitions then
    if retryAllowed = true then .ok .apply
    else .error ⟨"transition requires fixed retry policy approval"⟩
  else .error ⟨"transition is not allowed: " ++ current.value ++ " -> " ++ target.value⟩

/-- `ORDER BY event_row.sequence, event_row.event_id COLLATE "C"` -/
def eventsBefore (x y : Event) : Bool :=
  decide (x.sequence < y.sequence ∨ x.sequence = y.sequence ∧ x.eventId ≤ y.eventId)

def lagged : Option Event → List Event → List (Option Event × Event)
  | _, [] => []
  | previous, event :: events => (previous, event) :: lagged (some event) events

/-- A row of `ordered_events`; `previous` gives its `lag` columns. -/
structure OrderedEvent where
  event : Event
  previous : Option Event
  (eventNumber sequenceCount reverseEventNumber : ℕ)

/-- `ordered_events`, of one job. No two events share an identity, so that the descending order is the reverse
of the ascending one. -/
def orderedEvents (events : List Event) : List OrderedEvent :=
  let partition := events.mergeSort eventsBefore
  (lagged none partition).zipIdx.map fun ((previous, event), i) =>
    ⟨event, previous, i + 1, partition.countP (fun other => decide (other.sequence = event.sequence)),
      partition.length - i⟩

/-- A row of `event_context`: an ordered event, its job and its attempt. -/
structure EventContext extends OrderedEvent where
  job : Job
  attempt : Option Attempt

def eventContext (job : Job) (attempts : List Attempt) (ordered : OrderedEvent) : EventContext where
  toOrderedEvent := ordered
  job := job
  attempt := attempts.find? fun attempt => ordered.event.attemptId = some attempt.attemptId

namespace EventContext

variable (row : EventContext)

def isRetry : Truth :=
  anyOf [and (eq row.event.fromState (some .failed)) (eq (some row.event.toState) (some .queued)),
    and (eq row.event.fromState (some .timedOut)) (eq (some row.event.toState) (some .queued))]

def attemptIsForged : Bool := row.event.attemptId.isSome && row.attempt.isNone

def sequenceStep : Option ℤ := row.previous.map fun previous => (row.event.sequence : ℤ) - previous.sequence

def previousToState : Option JobState := row.previous.map (·.toState)

def previousAttemptId : Option String := row.previous.bind (·.attemptId)

def retryCause : Bool :=
  decide (row.event.reasonCode = "PROCESS_RETRY_SCHEDULED" ∧ row.event.actorType = .worker ∨
    row.event.reasonCode = "LEASE_EXPIRED_RETRY_SCHEDULED" ∧ row.event.actorType = .recovery)

/-- `attempt_number < max_attempts` -/
def withinBudget : Truth :=
  relate (fun x y => decide (x < y)) (row.attempt.map (·.attemptNumber)) (some row.job.maxAttempts)

def isValidRetry : Truth :=
  allOf [row.isRetry, some row.retryCause, some (decide (row.event.metadata = .empty)),
    some (decide (row.previousToState = row.event.fromState)), eq row.sequenceStep (some 1),
    some row.event.attemptId.isSome, some row.previousAttemptId.isSome, eq row.event.attemptId row.previousAttemptId,
    some !row.attemptIsForged, row.withinBudget]

/-- `to_state IN ('SUCCEEDED', …)` -/
def isTerminal : Bool := terminalStates.contains row.event.toState

end EventContext

/-- `epoch_events`: each row with its `retry_epoch`, the running count of valid retries. -/
def epochEvents : ℕ → List EventContext → List (EventContext × ℕ)
  | _, [] => []
  | epoch, row :: rows =>
    let epoch := if holds row.isValidRetry then epoch + 1 else epoch
    (row, epoch) :: epochEvents epoch rows

def terminalCountInEpoch (rows : List (EventContext × ℕ)) (epoch : ℕ) : ℕ :=
  rows.countP fun row => row.1.isTerminal && decide (row.2 = epoch)

/-- The edges of `UNAPPROVED_EDGE`. -/
def approvedEdges : List (JobState × JobState) := ordinaryTransitions ++ retryTransitions

/-- `(from_state, to_state) IN (…)` -/
def edgeIn (edges : List (JobState × JobState)) (event : Event) : Truth :=
  anyOf (edges.map fun edge => and (eq event.fromState (some edge.1)) (eq (some event.toState) (some edge.2)))

/-- The codes of `violations` with their conditions on a classified row. -/
def conditions (row : EventContext) (terminalCount : ℕ) : List (String × Truth) :=
  let event := row.event
  let later : Truth := some (decide (1 < row.eventNumber))
  [("SEQUENCE_START", some (decide (row.eventNumber = 1 ∧ event.sequence ≠ 1))),
    ("SEQUENCE_GAP", and later (relate (fun x y => decide (y < x)) row.sequenceStep (some 1))),
    ("SEQUENCE_DUPLICATE", some (decide (1 < row.sequenceCount))),
    ("BOOTSTRAP_EDGE", some (decide (row.eventNumber = 1 ∧ (event.fromState ≠ none ∨ event.toState ≠ .queued)))),
    ("BOOTSTRAP_ATTEMPT", some (decide (row.eventNumber = 1 ∧ event.attemptId ≠ none))),
    ("LATER_NULL_FROM_STATE", and later (some (decide (event.fromState = none)))),
    ("DISCONNECTED_FROM_STATE", and later (some (decide (event.fromState ≠ row.previousToState)))),
    ("UNAPPROVED_EDGE", and later (not (edgeIn approvedEdges event))),
    ("FINAL_STATE_MISMATCH", some (decide (row.reverseEventNumber = 1 ∧ event.toState ≠ row.job.state))),
    ("CROSS_JOB_ATTEMPT", some row.attemptIsForged),
    ("RETRY_WRONG_ACTOR", and row.isRetry (some (decide
      (event.reasonCode = "PROCESS_RETRY_SCHEDULED" ∧ event.actorType ≠ .worker ∨
        event.reasonCode = "LEASE_EXPIRED_RETRY_SCHEDULED" ∧ event.actorType ≠ .recovery ∨
        event.actorType ≠ .worker ∧ event.actorType ≠ .recovery)))),
    ("RETRY_WRONG_REASON", and row.isRetry (some !row.retryCause)),
    ("RETRY_METADATA", and row.isRetry (some (decide (event.metadata ≠ .empty)))),
    ("RETRY_ATTEMPT_CHANGED", and row.isRetry (some (decide (event.attemptId = none ∨ row.previousAttemptId = none ∨
      event.attemptId ≠ row.previousAttemptId)))),
    ("RETRY_FORGED_ATTEMPT", and row.isRetry (some row.attemptIsForged)),
    ("RETRY_OVER_BUDGET", and row.isRetry (relate (fun x y => decide (y ≤ x)) (row.attempt.map (·.attemptNumber))
      (some row.job.maxAttempts))),
    ("RETRY_NOT_ADJACENT", and row.isRetry (some (decide (row.previousToState ≠ event.fromState ∨
      row.sequenceStep ≠ some 1)))),
    ("EVENT_AFTER_TERMINAL", and (anyOf (terminalStates.map fun state => eq row.previousToState (some state)))
      (not row.isValidRetry)),
    ("DUPLICATE_TERMINAL_IN_EPOCH", some (decide (row.isTerminal = true ∧ 1 < terminalCount)))]

structure Violation where
  (code jobId : String)
  eventId : Option String
  sequence : Option ℕ

/-- `retry_epoch` of the classified events of one job. -/
def classifiedEvents (job : Job) (attempts : List Attempt) (events : List Event) : List (EventContext × ℕ) :=
  epochEvents 0 ((orderedEvents events).map (eventContext job attempts))

def jobViolations (job : Job) (attempts : List Attempt) (events : List Event) : List Violation :=
  let rows := classifiedEvents job attempts events
  (if events = [] then [⟨"NO_HISTORY", job.jobId, none, none⟩] else []) ++ rows.flatMap fun row =>
    ((conditions row.1 (terminalCountInEpoch rows row.2)).filter fun condition => decide (holds condition.2)).map
      fun condition => ⟨condition.1, job.jobId, some row.1.event.eventId, some row.1.event.sequence⟩

/-- `EVENT_CHAIN_VIOLATIONS_SQL`, up to the order of its rows. -/
def eventChainViolations (tables : Tables) : List Violation :=
  tables.jobs.flatMap fun job => jobViolations job (tables.attemptsOf job.jobId) (tables.eventsOf job.jobId)

end TradingAgent.JobPlane
