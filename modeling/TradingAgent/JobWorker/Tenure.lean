import TradingAgent.JobPlane.Leases
import TradingAgent.JobWorker.Worker
import TradingAgent.Lib.Weakest

/-! A worker's call on a timeline, and the tenure of the job that it claimed. -/

namespace TradingAgent.JobWorker

open Interaction JobPlane ThreeValued

/-- An operator's cancellation with its result, or a request of the worker with its answer. -/
inductive Happening
  | cancel (now : DateTime) (p : CancelArguments) (result : Option (JobState × Bool))
  | request (i : Request) (r : Answer i)

def requests (timeline : List Happening) : Trace Answer :=
  timeline.filterMap fun
  | .request i r => some ⟨i, r⟩
  | _ => none

def ClaimedJob.lease (claimed : ClaimedJob) : LeaseArguments :=
  ⟨some claimed.jobId, some claimed.attemptId, some claimed.workerId, some claimed.leaseToken⟩

structure Carries (p : FinalizeArguments) (claimed : ClaimedJob) (finalization : Finalization) : Prop where
  lease : p.lease = claimed.lease
  expectedState : p.expectedState = some finalization.expectedState
  expectedAttemptOutcome : p.expectedAttemptOutcome = some finalization.expectedAttemptOutcome
  finalState : p.finalState = some finalization.finalState
  reasonCode : p.reasonCode = some finalization.reasonCode
  retry : p.retry = some finalization.retry

def Unexpired (claimed : ClaimedJob) (now : DateTime) (tables : Tables) : Prop :=
  ∀ job, tables.job? claimed.jobId = some job → ¬ holds (leaseExpired now job)

def Request.elsewhere : Request → Bool
  | .claimNext | .preSpawnControl _ | .heartbeatControl _ | .startAttempt _ | .finalize _ _ => false
  | _ => true

/-- How the worker's requests are answered: those to the job database by its functions on the tables, while the
lease has not expired, and those to the rest of its surroundings (`Request.elsewhere`) with anything. -/
inductive Serves (sha256 : String → String) (worker : Worker) (tables : Tables) :
    (i : Request) → Answer i → Tables → Prop
  | claimNext {now : DateTime} {locked : List String} {attemptId leaseToken traceId eventId : String}
      {row : Option ClaimedRow} {after : Tables}
      (h : workerClaimSnapshot sha256 locked .tradingJobWorker now ⟨some attemptId, some worker.workerId,
        some leaseToken, some workerLeaseSeconds, some traceId, some eventId⟩ tables = .ok (row, after)) :
      Serves sha256 worker tables .claimNext (row.map fun row => ⟨row.jobId, row.jobType, row.payload, attemptId,
        row.attemptNumber, worker.workerId, leaseToken, row.leaseExpiresAt, row.maxAttempts⟩) after
  | preSpawnControl {now : DateTime} {claimed : ClaimedJob} {control : WorkerControl} {after : Tables}
      (hunexpired : Unexpired claimed now tables)
      (h : workerControlSnapshotLease .tradingJobWorker now claimed.lease (some workerLeaseSeconds) (some .preSpawn)
        tables = .ok (control, after)) :
      Serves sha256 worker tables (.preSpawnControl claimed) control after
  | heartbeatControl {now : DateTime} {claimed : ClaimedJob} {control : WorkerControl} {after : Tables}
      (hunexpired : Unexpired claimed now tables)
      (h : workerControlSnapshotLease .tradingJobWorker now claimed.lease (some workerLeaseSeconds) (some .running)
        tables = .ok (control, after)) :
      Serves sha256 worker tables (.heartbeatControl claimed) control after
  | startAttempt {now : DateTime} {claimed : ClaimedJob} {p : StartArguments} {started : Bool} {after : Tables}
      (hunexpired : Unexpired claimed now tables) (hlease : p.lease = claimed.lease)
      (h : workerStartSnapshot .tradingJobWorker now p tables = .ok (started, after)) :
      Serves sha256 worker tables (.startAttempt claimed) started after
  | finalize {now : DateTime} {claimed : ClaimedJob} {finalization : Finalization} {p : FinalizeArguments}
      {finalized : Bool} {after : Tables} (hunexpired : Unexpired claimed now tables)
      (hcarries : Carries p claimed finalization)
      (h : workerFinalizeSnapshot .tradingJobWorker now p tables = .ok (finalized, after)) :
      Serves sha256 worker tables (.finalize claimed finalization) finalized after
  | elsewhere {i : Request} (r : Answer i) (h : i.elsewhere = true) : Serves sha256 worker tables i r tables

/-- The timeline plays on the tables: operators cancel, and the worker's requests are answered. -/
inductive Played (sha256 : String → String) (worker : Worker) : Tables → List Happening → Tables → Prop
  | done (tables : Tables) : Played sha256 worker tables [] tables
  | cancel {tables mid final : Tables} {now : DateTime} {p : CancelArguments} {result : Option (JobState × Bool)}
      {timeline : List Happening} (h : apiCancelSnapshot .tradingJobApi now p tables = .ok (result, mid))
      (rest : Played sha256 worker mid timeline final) :
      Played sha256 worker tables (.cancel now p result :: timeline) final
  | request {tables mid final : Tables} {i : Request} {r : Answer i} {timeline : List Happening}
      (h : Serves sha256 worker tables i r mid) (rest : Played sha256 worker mid timeline final) :
      Played sha256 worker tables (.request i r :: timeline) final

/-- What became of a cancellation: none, not read by a control call, read while nothing else ended the child, or
read later. -/
inductive Regard
  | quiet
  | pending
  | heeded
  | missed
  deriving DecidableEq

/-- At the finalizing call: whether a cancellation had been recorded, and whether none was or it was heeded. -/
structure Closing where
  (cancelled heeded : Bool)

/-- What an observer knows: the cancellation, whether preflight, child or checks failed, and how matters stood
at the end. -/
structure Watch where
  regard : Regard
  (faulted unproven : Bool)
  closing : Option Closing

namespace Watch

def start : Watch := ⟨.quiet, false, false, none⟩

def recorded (w : Watch) : Watch := if w.regard = .quiet then { w with regard := .pending } else w

def read (w : Watch) : Watch :=
  if w.regard = .pending then
    { w with regard := if w.faulted = true ∨ w.unproven = true then .missed else .heeded }
  else w

def faultIf (w : Watch) (b : Bool) : Watch := { w with faulted := w.faulted || b }

def unprovenIf (w : Watch) (b : Bool) : Watch := { w with unproven := w.unproven || b }

def close (w : Watch) : Watch :=
  { w with
    closing := some (w.closing.getD
      ⟨decide (w.regard ≠ .quiet), decide (w.regard = .quiet ∨ w.regard = .heeded ∧ w.unproven = false)⟩) }

def answer (w : Watch) : (i : Request) → Answer i → Watch
  | .claimNext, _ => .start
  | .safetyPreflight, r => w.faultIf (match r with | .ok _ => false | .error _ => true)
  | .timedOut, r => w.faultIf r
  | .poll, r => w.unprovenIf r.failed
  | .cleanupStep, r => w.unprovenIf r
  | .drain, r => w.unprovenIf (decide (r = .unproven))
  | .reap, r => w.unprovenIf r.1
  | .preSpawnControl _, _ => w.read
  | .heartbeatControl _, _ => w.read
  | .finalize _ _, _ => w.close
  | _, _ => w

def happen (jobId : String) (w : Watch) : Happening → Watch
  | .cancel _ p result => if p.jobId = some jobId ∧ result.any (·.2) = true then w.recorded else w
  | .request i r => w.answer i r

end Watch

def watched (jobId : String) (timeline : List Happening) : Watch := timeline.foldl (Watch.happen jobId) .start

structure Tenure where
  started : Bool
  watch : Watch
  settled : Option JobState

namespace Tenure

def state (v : Tenure) : JobState :=
  v.settled.getD (if v.watch.regard = .quiet then if v.started = true then .running else .claimed else .cancelRequested)

def outcome (v : Tenure) : AttemptOutcome := if v.started = true then .running else .claimed

def control (v : Tenure) (running : Bool) : WorkerControl :=
  if v.settled ≠ none ∨ v.started ≠ running then .stale
  else if v.watch.regard = .quiet then .continue
  else .cancel

def starts (v : Tenure) : Bool := decide (v.settled = none ∧ v.started = false ∧ v.watch.regard = .quiet)

def meets (v : Tenure) (finalization : Finalization) : Bool :=
  decide (v.settled = none ∧ finalization.expectedState = v.state ∧ finalization.expectedAttemptOutcome = v.outcome)

def cancelled (v : Tenure) : Tenure :=
  { v with
    watch := if (cancellationTarget v.state).isSome = true then v.watch.recorded else v.watch
    settled := v.settled.map fun state => (cancellationTarget state).getD state }

def replies (v : Tenure) : (i : Request) → Answer i → Prop
  | .preSpawnControl _, r => r = v.control false
  | .heartbeatControl _, r => r = v.control true
  | .startAttempt _, r => r = v.starts
  | .finalize _ finalization, r => r = v.meets finalization
  | _, _ => True

def after (v : Tenure) : (i : Request) → Answer i → Tenure
  | .startAttempt _, r => { v with started := v.started || r }
  | .finalize _ finalization, r =>
    { v with
      watch := v.watch.close
      settled := if r = true then some (if finalization.retry = true then .queued else finalization.finalState)
        else v.settled }
  | i, r => { v with watch := v.watch.answer i r }

end Tenure

def Request.concerns (claimed : ClaimedJob) : Request → Prop
  | .claimNext => False
  | .preSpawnControl other => other = claimed
  | .heartbeatControl other => other = claimed
  | .startAttempt other => other = claimed
  | .finalize other _ => other = claimed
  | _ => True

/-- The surroundings of a worker that has claimed the job: a cancellation may precede every answer. -/
def tenure (claimed : ClaimedJob) : Protocol Tenure Answer where
  asks _ i := i.concerns claimed
  answers v i r v' := ∃ u, (u = v ∨ u = v.cancelled) ∧ u.replies i r ∧ v' = u.after i r

end TradingAgent.JobWorker
