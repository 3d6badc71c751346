import TradingAgent.JobWorker.Tenure

/-! The tables follow the tenure of the claimed job. -/

namespace TradingAgent.JobWorker

open Outcome Interaction JobPlane ThreeValued

def Leases (claimed : ClaimedJob) (tables : Tables) (job : Job) (outcome : AttemptOutcome) : Prop :=
  job.leaseOwner = some claimed.workerId ∧ job.leaseToken = some claimed.leaseToken ∧
    ∃ attempt ∈ tables.attemptsOf claimed.jobId, attempt.attemptId = claimed.attemptId ∧
      attempt.workerId = claimed.workerId ∧ attempt.leaseToken = claimed.leaseToken ∧
      attempt.attemptNumber = job.attemptCount ∧ attempt.outcome = outcome

structure Holds (claimed : ClaimedJob) (tables : Tables) (v : Tenure) : Prop where
  inv : Inv Leased tables
  inactive : ∀ state, v.settled = some state → ¬ Active state
  job : ∃ job, tables.job? claimed.jobId = some job ∧ job.jobType = .snapshot ∧ job.state = v.state ∧
    (v.settled = none → Leases claimed tables job v.outcome)

section Locks

variable {claimed : ClaimedJob} {tables after : Tables} {job : Job} {outcome : AttemptOutcome}
  {jobId : String}

theorem snapshotJob?_of_job? (hkeyed : Keyed tables) (h : tables.job? jobId = some job)
    (htype : job.jobType = .snapshot) : tables.snapshotJob? jobId = some job := by
  obtain ⟨hmem, hid⟩ := Tables.job?_eq_some h
  cases hfind : tables.snapshotJob? jobId with
  | none =>
    have := List.find?_eq_none.1 hfind job hmem
    simp [hid, htype] at this
  | some other =>
    obtain ⟨hother, hotherid⟩ := Tables.snapshotJob?_eq_some hfind
    rw [List.inj_on_of_nodup_map hkeyed.jobs hother hmem (hotherid.trans hid.symm)]

theorem attempt?_of_mem (hkeyed : Keyed tables) {attempt : Attempt}
    (h : attempt ∈ tables.attemptsOf jobId) : tables.attempt? attempt.attemptId jobId = some attempt := by
  obtain ⟨hmem, hjob⟩ := Tables.mem_attemptsOf_iff.1 h
  cases hfind : tables.attempt? attempt.attemptId jobId with
  | none =>
    have := List.find?_eq_none.1 hfind attempt hmem
    simp [hjob] at this
  | some other =>
    obtain ⟨hother, hid⟩ := Tables.attempt?_eq_some hfind
    rw [List.inj_on_of_nodup_map hkeyed.attempts (Tables.mem_attemptsOf_iff.1 hother).1 hmem hid]

variable {lease : Lease} {rejected : Raised}

theorem lease_eq_of_check (h : claimed.lease.check rejected = .ok lease) :
    lease = ⟨claimed.jobId, claimed.attemptId, claimed.workerId, claimed.leaseToken⟩ := by
  have heq := LeaseArguments.eq_of_check h
  simp only [ClaimedJob.lease, LeaseArguments.mk.injEq, Option.some.injEq] at heq
  obtain ⟨hjob, hattempt, hworker, htoken⟩ := heq
  rw [hjob, hattempt, hworker, htoken]

theorem lock_isSome_iff (hkeyed : Keyed tables) (hjob : tables.job? claimed.jobId = some job)
    (htype : job.jobType = .snapshot) (hleases : Leases claimed tables job outcome) {expired : Job → Truth}
    (hunexpired : ¬ holds (expired job))
    (hlease : claimed.lease.check rejected = .ok lease) {states : List JobState} {expected : AttemptOutcome} :
    (lease.lock states expired expected tables).isSome = true ↔ job.state ∈ states ∧ outcome = expected := by
  obtain ⟨howner, htoken, attempt, hmem, hid, hworker, hattempttoken, hnumber, houtcome⟩ := hleases
  have hfound := attempt?_of_mem hkeyed hmem
  rw [hid] at hfound
  rw [lease_eq_of_check hlease]
  simp only [Lease.lock, snapshotJob?_of_job? hkeyed hjob htype, hfound, Lease.OwnsJob, Lease.OwnsAttempt, howner,
    htoken, hworker, hattempttoken, hnumber, houtcome, hunexpired, not_false_eq_true, and_true, true_and]
  by_cases hstate : job.state ∈ states
  · by_cases hexpected : outcome = expected <;> simp [hstate, hexpected]
  · simp [hstate]

end Locks

/-! ## Updates of the leased job -/

section

variable {claimed : ClaimedJob} {tables after : Tables} {job : Job} {outcome : AttemptOutcome}

theorem job?_congr (h : after.jobs = tables.jobs) (jobId : String) : after.job? jobId = tables.job? jobId := by
  rw [Tables.job?, h]
  rfl

theorem attemptsOf_congr (h : after.attempts = tables.attempts) (jobId : String) :
    after.attemptsOf jobId = tables.attemptsOf jobId := by
  rw [Tables.attemptsOf, h]
  rfl

theorem job?_updated {jobId : String} (hjob : tables.job? jobId = some job) (f : Job → Job)
    (hf : ∀ other, (f other).jobId = other.jobId) (hjobs : after.jobs = (tables.updateJob jobId f).jobs) :
    after.job? jobId = some (f job) := by
  rw [job?_congr hjobs, Tables.job?_updateJob_self f hf hjob]

theorem leases_updated (hleases : Leases claimed tables job outcome) (f : Job → Job) (g : Attempt → Attempt)
    (howner : (f job).leaseOwner = job.leaseOwner) (htoken : (f job).leaseToken = job.leaseToken)
    (hcount : (f job).attemptCount = job.attemptCount)
    (hg : ∀ attempt, (g attempt).attemptId = attempt.attemptId ∧ (g attempt).jobId = attempt.jobId ∧
      (g attempt).workerId = attempt.workerId ∧ (g attempt).leaseToken = attempt.leaseToken ∧
      (g attempt).attemptNumber = attempt.attemptNumber)
    {outcome' : AttemptOutcome} (houtcome : ∀ attempt, attempt.outcome = outcome → (g attempt).outcome = outcome')
    (hattempts : after.attempts = (tables.updateAttempt claimed.attemptId claimed.jobId g).attempts) :
    Leases claimed after (f job) outcome' := by
  obtain ⟨hown, htok, attempt, hmem, hid, hworker, hattempttoken, hnumber, hout⟩ := hleases
  obtain ⟨hgid, -, hgworker, hgtoken, hgnumber⟩ := hg attempt
  refine ⟨howner.trans hown, htoken.trans htok, g attempt, ?_, hgid.trans hid, hgworker.trans hworker,
    hgtoken.trans hattempttoken, hgnumber.trans (hnumber.trans hcount.symm), houtcome attempt hout⟩
  rw [attemptsOf_congr hattempts, Tables.attemptsOf_updateAttempt fun attempt => (hg attempt).2.1, if_pos rfl]
  exact List.mem_map.2 ⟨attempt, hmem, if_pos hid⟩

end

/-! ## The worker's transactions -/

section

variable {claimed : ClaimedJob} {tables after : Tables} {v : Tenure} {now : DateTime}
  {states : List JobState} {job : Job}

theorem Holds.not_settled_of_mem (h : Holds claimed tables v) (hstate : job.state = v.state)
    (hmem : job.state ∈ states) (hactive : ∀ state ∈ states, Active state) : v.settled = none := by
  by_contra hsettled
  obtain ⟨state, hsome⟩ := Option.ne_none_iff_exists'.1 hsettled
  refine h.inactive state hsome (hactive state ?_)
  rw [hstate, Tenure.state, hsome] at hmem
  exact hmem

variable {lease : Lease} {rejected : Raised} {expected : AttemptOutcome}

theorem Holds.lock_isSome_iff (h : Holds claimed tables v) (hunexpired : Unexpired claimed now tables)
    (hlease : claimed.lease.check rejected = .ok lease) (hactive : ∀ state ∈ states, Active state) :
    (lease.lock states (leaseExpired now) expected tables).isSome = true ↔
      v.settled = none ∧ v.state ∈ states ∧ v.outcome = expected := by
  obtain ⟨job, hjob, htype, hstate, hleases⟩ := h.job
  by_cases hsettled : v.settled = none
  · rw [JobWorker.lock_isSome_iff h.inv.keyed hjob htype (hleases hsettled) (hunexpired job hjob) hlease, hstate]
    simp [hsettled]
  · simp only [hsettled, false_and, iff_false]
    intro hsome
    obtain ⟨⟨found, attempt⟩, hlock⟩ := Option.isSome_iff_exists.1 hsome
    obtain ⟨hlocked, -⟩ := locked_of_lock hlock
    have hfound := Tables.job?_of_mem h.inv.jobs hlocked.mem
    rw [hlocked.jobId, lease_eq_of_check hlease] at hfound
    obtain rfl := Option.some.inj (hjob.symm.trans hfound)
    exact hsettled (h.not_settled_of_mem hstate hlocked.state hactive)

theorem Tenure.state_unsettled (h : v.settled = none) : v.state =
    if v.watch.regard = .quiet then if v.started = true then .running else .claimed else .cancelRequested := by
  rw [state, h, Option.getD_none]

theorem control_eq (running : Bool) : v.control running =
    if v.settled = none ∧ v.state ∈ [if running = true then JobState.running else .claimed, .cancelRequested] ∧
        v.outcome = (if running = true then AttemptOutcome.running else .claimed) then
      if v.state = .cancelRequested then .cancel else .continue
    else .stale := by
  obtain ⟨started, ⟨regard, faulted, unproven, closing⟩, settled⟩ := v
  cases settled <;> cases started <;> cases running <;> cases regard <;> rfl

theorem Holds.eq_of_lock (h : Holds claimed tables v)
    (hlease : claimed.lease.check rejected = .ok lease) {expired : Job → Truth} {attempt : Attempt}
    (hlock : lease.lock states expired expected tables = some (job, attempt)) :
    tables.job? claimed.jobId = some job ∧ job.jobType = .snapshot ∧ job.state = v.state ∧
      (v.settled = none → Leases claimed tables job v.outcome) := by
  obtain ⟨hlocked, -⟩ := locked_of_lock hlock
  obtain ⟨found, hjob, htype, hstate, hleases⟩ := h.job
  have hfound := Tables.job?_of_mem h.inv.jobs hlocked.mem
  rw [hlocked.jobId, lease_eq_of_check hlease] at hfound
  obtain rfl := Option.some.inj (hjob.symm.trans hfound)
  exact ⟨hjob, htype, hstate, hleases⟩

variable {v' : Tenure}

theorem Holds.congr (h : Holds claimed tables v) (hsettled : v'.settled = v.settled)
    (hstate : v'.state = v.state) (hstarted : v'.started = v.started) : Holds claimed tables v' := by
  obtain ⟨job, hjob, htype, hjobstate, hleases⟩ := h.job
  refine ⟨h.inv, by rw [hsettled]; exact h.inactive, job, hjob, htype, hjobstate.trans hstate.symm, ?_⟩
  rw [hsettled, Tenure.outcome, hstarted]
  exact hleases

@[simp] theorem Watch.read_regard_iff {w : Watch} : w.read.regard = .quiet ↔ w.regard = .quiet := by
  unfold Watch.read
  split_ifs with h
  · simp [h]
  · simp [h]
  · rfl

theorem Tenure.state_congr {v : Tenure} (hsettled : v'.settled = v.settled) (hstarted : v'.started = v.started)
    (hregard : v'.watch.regard = .quiet ↔ v.watch.regard = .quiet) : v'.state = v.state := by
  simp only [Tenure.state, hsettled, hstarted, hregard]

theorem Tenure.state_read : ({ v with watch := v.watch.read } : Tenure).state = v.state :=
  Tenure.state_congr rfl rfl Watch.read_regard_iff

theorem Holds.control (h : Holds claimed tables v) (hunexpired : Unexpired claimed now tables) {leaseSeconds : Option ℤ}
    {phase : LeasePhase} {control : WorkerControl}
    (hcall : workerControlSnapshotLease .tradingJobWorker now claimed.lease leaseSeconds (some phase) tables =
      .ok (control, after)) :
    control = v.control (decide (phase = .running)) ∧ Holds claimed after { v with watch := v.watch.read } := by
  have hinv := h.inv.advance lasting_leased (workerControlSnapshotLease_ok h.inv.keyed hcall).advance
  have hphase : (if decide (phase = .running) = true then JobState.running else .claimed) = phase.state ∧
      (if decide (phase = .running) = true then AttemptOutcome.running else .claimed) = phase.outcome := by
    cases phase <;> exact ⟨rfl, rfl⟩
  simp only [workerControlSnapshotLease, bind_ok_iff, require_ok_iff, exists_const, notNull_ok_iff,
    Option.some.injEq] at hcall
  obtain ⟨-, lease, hlease, seconds, -, -, _, rfl, hcall⟩ := hcall
  have hsome : (lease.lock [phase.state, .cancelRequested] (leaseExpired now) phase.outcome tables).isSome = true ↔ _ :=
    h.lock_isSome_iff hunexpired hlease (by cases phase <;> decide)
  rw [control_eq, hphase.1, hphase.2]
  split at hcall
  · rename_i hlock
    obtain ⟨rfl, rfl⟩ := Prod.mk.inj (Except.ok.inj hcall)
    rw [hlock] at hsome
    exact ⟨(if_neg (by simpa using hsome)).symm, h.congr rfl Tenure.state_read rfl⟩
  · rename_i job attempt hlock
    obtain ⟨rfl, rfl⟩ := Prod.mk.inj (Except.ok.inj hcall)
    rw [hlock] at hsome
    have hmet := hsome.1 rfl
    obtain ⟨hjob, htype, hstate, hleases⟩ := h.eq_of_lock hlease hlock
    obtain rfl := lease_eq_of_check hlease
    refine ⟨by rw [if_pos hmet, hstate], hinv, h.inactive, _, job?_updated hjob
      (renewedJob now (now + TimeDelta.seconds seconds)) (fun _ => rfl) rfl, htype,
      hstate.trans Tenure.state_read.symm, fun hsettled => ?_⟩
    exact leases_updated (hleases hsettled) (renewedJob now (now + TimeDelta.seconds seconds))
      (renewedAttempt now (now + TimeDelta.seconds seconds)) rfl rfl rfl (fun _ => ⟨rfl, rfl, rfl, rfl, rfl⟩)
      (fun _ hout => hout) rfl

theorem starts_iff : v.starts = true ↔ v.settled = none ∧ v.state ∈ [JobState.claimed] ∧ v.outcome = .claimed := by
  obtain ⟨started, ⟨regard, faulted, unproven, closing⟩, settled⟩ := v
  cases settled <;> cases started <;> cases regard <;> simp [Tenure.starts, Tenure.state, Tenure.outcome]

theorem Holds.start (h : Holds claimed tables v) (hunexpired : Unexpired claimed now tables) {p : StartArguments}
    (hlease : p.lease = claimed.lease) {started : Bool}
    (hcall : workerStartSnapshot .tradingJobWorker now p tables = .ok (started, after)) :
    started = v.starts ∧ Holds claimed after { v with started := v.started || started } := by
  have hinv := h.inv.advance lasting_leased (workerStartSnapshot_ok h.inv.keyed hcall).advance
  simp only [workerStartSnapshot, bind_ok_iff, require_ok_iff, exists_const, notNull_ok_iff] at hcall
  obtain ⟨-, lease, hcheck, childPid, -, -, groupId, -, -, ticks, -, -, fingerprint, -, traceId, -, eventId, -, hcall⟩ :=
    hcall
  rw [hlease] at hcheck
  have hsome : (lease.lock [.claimed] (leaseExpired now) .claimed tables).isSome = true ↔ _ :=
    h.lock_isSome_iff hunexpired hcheck (by decide)
  rw [← starts_iff] at hsome
  split at hcall
  · rename_i hlock
    obtain ⟨rfl, rfl⟩ := Prod.mk.inj (Except.ok.inj hcall)
    rw [hlock] at hsome
    have hstarts : v.starts = false := by simpa using hsome
    refine ⟨hstarts.symm, ?_⟩
    rwa [Bool.or_false]
  · rename_i locked hlock
    obtain ⟨job, attempt⟩ := locked
    rw [hlock] at hsome
    have hstarts : v.starts = true := hsome.1 rfl
    obtain ⟨hsettled, -, hregard⟩ := of_decide_eq_true hstarts
    obtain ⟨hjob, htype, hstate, hleases⟩ := h.eq_of_lock hcheck hlock
    obtain rfl := lease_eq_of_check hcheck
    simp only [bind_ok_iff, Except.ok.injEq, Prod.mk.injEq] at hcall
    obtain ⟨final, hevent, rfl, rfl⟩ := hcall
    have hjobs := congrArg Tables.jobs (Tables.insertEvent_ok hevent)
    have hattempts := congrArg Tables.attempts (Tables.insertEvent_ok hevent)
    refine ⟨hstarts.symm, hinv, h.inactive, _, job?_updated hjob (startedJob now) (fun _ => rfl) hjobs, htype, ?_,
      fun _ => ?_⟩
    · simp [Tenure.state, hsettled, hregard, startedJob]
    · refine leases_updated (hleases hsettled) (startedJob now) (startedAttempt now childPid groupId ticks fingerprint)
        rfl rfl rfl (fun _ => ⟨rfl, rfl, rfl, rfl, rfl⟩) (fun _ _ => ?_) hattempts
      simp [Tenure.outcome, startedAttempt]

variable {finalization : Finalization}

theorem meets_iff : v.meets finalization = true ↔
    v.settled = none ∧ v.state ∈ [finalization.expectedState] ∧ v.outcome = finalization.expectedAttemptOutcome := by
  rw [Tenure.meets, decide_eq_true_eq, List.mem_singleton, eq_comm (b := v.state), eq_comm (b := v.outcome)]

theorem Holds.finalize (h : Holds claimed tables v) (hunexpired : Unexpired claimed now tables) {p : FinalizeArguments}
    (hcarries : Carries p claimed finalization) {finalized : Bool}
    (hcall : workerFinalizeSnapshot .tradingJobWorker now p tables = .ok (finalized, after)) :
    finalized = v.meets finalization ∧ Holds claimed after (v.after (.finalize claimed finalization) finalized) := by
  have hinv := h.inv.advance lasting_leased (workerFinalizeSnapshot_ok h.inv.keyed hcall).advance
  obtain ⟨hlease, hexpected, hattempt, hfinalstate, -, hretry⟩ := hcarries
  simp only [workerFinalizeSnapshot, bind_ok_iff, require_ok_iff, exists_const, notNull_ok_iff, hexpected, hattempt,
    hfinalstate, hretry, Option.some.injEq] at hcall
  obtain ⟨-, lease, hcheck, reasonCode, -, traceId, -, eventId, -, -, metadata, -, -, eventMetadata, -, -, _, rfl, _, rfl,
    _, rfl, -, -, -, _, rfl, -, -, hfinal, -, hcall⟩ := hcall
  rw [hlease] at hcheck
  obtain ⟨hrecovers, hinactive⟩ := recovers_of_finalizes hfinal
  have hsome : (lease.lock [finalization.expectedState] (leaseExpired now) finalization.expectedAttemptOutcome
      tables).isSome = true ↔ _ :=
    h.lock_isSome_iff hunexpired hcheck (by simpa using (active_of_recovers hrecovers).1)
  rw [← meets_iff] at hsome
  split at hcall
  · rename_i hlock
    obtain ⟨rfl, rfl⟩ := Prod.mk.inj (Except.ok.inj hcall)
    rw [hlock] at hsome
    have hmeets : v.meets finalization = false := by simpa using hsome
    exact ⟨hmeets.symm, h.congr rfl (Tenure.state_congr rfl rfl Iff.rfl) rfl⟩
  · rename_i job attempt hlock
    rw [hlock] at hsome
    have hmeets : v.meets finalization = true := hsome.1 rfl
    obtain ⟨hjob, htype, hstate, hleases⟩ := h.eq_of_lock hcheck hlock
    obtain rfl := lease_eq_of_check hcheck
    simp only [bind_ok_iff, require_ok_iff, exists_const, notNull_ok_iff] at hcall
    obtain ⟨-, outcome, houtcome, finished, hevent, hcall⟩ := hcall
    have hjobs := congrArg Tables.jobs (Tables.insertEvent_ok hevent)
    have hfinished : finished.job? claimed.jobId = some (finalizedJob now p finalization.finalState reasonCode metadata
        job) := job?_updated hjob _ (fun _ => rfl) hjobs
    split at hcall
    · rename_i hagain
      simp only [bind_ok_iff, notNull_ok_iff, Except.ok.injEq, Prod.mk.injEq] at hcall
      obtain ⟨retryEventId, -, final, hretryEvent, rfl, rfl⟩ := hcall
      have hlast := congrArg Tables.jobs (Tables.insertEvent_ok hretryEvent)
      refine ⟨hmeets.symm, hinv, ?_, _, job?_updated hfinished (retriedJob now "PROCESS_RETRY_SCHEDULED") (fun _ => rfl)
        hlast, htype, ?_, fun hsettled => ?_⟩
      · intro state hsettled
        simp only [Tenure.after, hagain, if_true, Option.some.injEq] at hsettled
        rw [← hsettled]
        decide
      · simp [Tenure.state, Tenure.after, hagain, retriedJob]
      · simp [Tenure.after] at hsettled
    · rename_i hagain
      simp only [Except.ok.injEq, Prod.mk.injEq] at hcall
      obtain ⟨rfl, rfl⟩ := hcall
      refine ⟨hmeets.symm, hinv, ?_, _, hfinished, htype, ?_, fun hsettled => ?_⟩
      · intro state hsettled
        simp only [Tenure.after, hagain, if_true, Option.some.injEq] at hsettled
        rw [← hsettled]
        exact hinactive
      · simp [Tenure.state, Tenure.after, hagain, finalizedJob]
      · simp [Tenure.after] at hsettled

end

/-! ## Cancellations and claims -/

section

variable {claimed : ClaimedJob} {tables after : Tables} {v : Tenure} {now : DateTime}

theorem Holds.touched (h : Holds claimed tables v) {jobId : String} (hinv : Inv Leased after)
    (htouches : tables.Touches jobId after) (hne : claimed.jobId ≠ jobId) : Holds claimed after v := by
  obtain ⟨job, hjob, htype, hstate, hleases⟩ := h.job
  refine ⟨hinv, h.inactive, job, (htouches.job? _ hne).trans hjob, htype, hstate, fun hsettled => ?_⟩
  rw [Leases, htouches.attemptsOf _ hne]
  exact hleases hsettled

theorem Tenure.state_cancelled {target : JobState} (htarget : cancellationTarget v.state = some target) :
    v.cancelled.state = target := by
  cases hsettled : v.settled with
  | some st =>
    rw [Tenure.state, hsettled, Option.getD_some] at htarget
    rw [Tenure.state, Tenure.cancelled, hsettled, Option.map_some, htarget]
    rfl
  | none =>
    -- An unsettled job can be cancelled once, and then is to be.
    have hquiet : v.watch.regard = .quiet ∧ target = .cancelRequested := by
      rw [Tenure.state_unsettled hsettled] at htarget
      split_ifs at htarget with hregard hstarted
      · exact ⟨hregard, (Option.some.inj htarget).symm⟩
      · exact ⟨hregard, (Option.some.inj htarget).symm⟩
      · cases htarget
    have hpending : v.cancelled.watch.regard = .pending := by
      rw [Tenure.cancelled, htarget, Option.isSome_some, if_pos rfl, Watch.recorded, if_pos hquiet.1]
    have hunsettled : v.cancelled.settled = none := by
      rw [Tenure.cancelled, hsettled]
      rfl
    rw [Tenure.state_unsettled hunsettled, hpending, hquiet.2]
    rfl

theorem Holds.cancel (h : Holds claimed tables v) {p : CancelArguments} {result : Option (JobState × Bool)}
    (hcall : apiCancelSnapshot .tradingJobApi now p tables = .ok (result, after)) :
    Holds claimed after (if p.jobId = some claimed.jobId ∧ result.any (·.2) = true then v.cancelled else v) ∧
      (p.jobId = some claimed.jobId ∧ result.any (·.2) = true → (cancellationTarget v.state).isSome = true) := by
  have hinv := h.inv.advance lasting_leased (apiCancelSnapshot_ok h.inv.keyed hcall)
  simp only [apiCancelSnapshot, bind_ok_iff, require_ok_iff, exists_const, given_ok_iff] at hcall
  obtain ⟨-, jobId, ⟨hjobid, -⟩, actorId, -, traceId, -, eventId, -, hcall⟩ := hcall
  simp only [hjobid, Option.some.injEq]
  split at hcall
  · obtain ⟨rfl, rfl⟩ := Prod.mk.inj (Except.ok.inj hcall)
    simpa using h
  · rename_i found hfound
    simp only [bind_ok_iff, require_ok_iff, exists_const] at hcall
    obtain ⟨-, hcall⟩ := hcall
    split at hcall
    · obtain ⟨rfl, rfl⟩ := Prod.mk.inj (Except.ok.inj hcall)
      simpa using h
    · rename_i target htarget
      simp only [bind_ok_iff, Except.ok.injEq, Prod.mk.injEq] at hcall
      obtain ⟨final, hevent, rfl, rfl⟩ := hcall
      simp only [Option.any_some, and_true]
      obtain ⟨-, rfl⟩ := Tables.job?_eq_some hfound
      by_cases hmine : found.jobId = claimed.jobId
      · obtain ⟨job, hjob, htype, hstate, hleases⟩ := h.job
        rw [hmine, hjob] at hfound
        obtain rfl := Option.some.inj hfound
        rw [hmine] at hevent
        have htarget' := htarget
        rw [hstate] at htarget'
        rw [if_pos hmine, htarget']
        have hjobs := congrArg Tables.jobs (Tables.insertEvent_ok hevent)
        have hattempts := congrArg Tables.attempts (Tables.insertEvent_ok hevent)
        refine ⟨⟨hinv, ?_, _, job?_updated hjob (cancelledJob now target actorId) (fun _ => rfl) hjobs, htype,
          (Tenure.state_cancelled htarget').symm, ?_⟩, fun _ => rfl⟩
        · intro state hsettled
          obtain ⟨state', hsome, rfl⟩ := Option.map_eq_some_iff.1 hsettled
          have hidle := h.inactive state' hsome
          revert hidle
          cases state' <;> decide
        · intro hsettled
          have hunsettled : v.settled = none := Option.map_eq_none_iff.1 hsettled
          obtain ⟨howner, htoken, attempt, hmem, hattempt⟩ := hleases hunsettled
          refine ⟨howner, htoken, attempt, ?_, hattempt⟩
          rw [attemptsOf_congr hattempts]
          exact hmem
      · rw [if_neg hmine]
        have htouches : tables.Touches found.jobId final := by
          rw [Tables.insertEvent_ok hevent]
          exact (Tables.touches_updateJob (cancelledJob now target actorId) fun _ => rfl).trans
            (Tables.touches_appendEvent rfl)
        exact ⟨h.touched hinv htouches fun hsame => hmine hsame.symm, fun hsame => absurd hsame hmine⟩

theorem holds_claim {sha256 : String → String} {locked : List String} {attemptId workerId leaseToken traceId eventId :
    String} {leaseSeconds : ℤ} {row : ClaimedRow} (hinv : Inv Leased tables)
    (hcall : workerClaimSnapshot sha256 locked .tradingJobWorker now ⟨some attemptId, some workerId, some leaseToken,
      some leaseSeconds, some traceId, some eventId⟩ tables = .ok (some row, after)) :
    Holds ⟨row.jobId, row.jobType, row.payload, attemptId, row.attemptNumber, workerId, leaseToken, row.leaseExpiresAt,
      row.maxAttempts⟩ after ⟨false, .start, none⟩ := by
  have hinvafter := hinv.advance lasting_leased (workerClaimSnapshot_ok hinv.keyed hcall).1
  simp only [workerClaimSnapshot, bind_ok_iff, require_ok_iff, exists_const, given_ok_iff, notNull_ok_iff,
    Option.some.injEq] at hcall
  obtain ⟨-, _, ⟨rfl, -⟩, _, -, -, _, ⟨rfl, -⟩, _, ⟨rfl, -⟩, _, rfl, -, _, -, hcall⟩ := hcall
  split at hcall
  · cases hcall
  · rename_i job hselected
    obtain ⟨hmem, hclaimable⟩ := claimable_of_selected hselected
    simp only [bind_ok_iff, Except.ok.injEq, Prod.mk.injEq, Option.some.injEq] at hcall
    obtain ⟨attempted, hattempt, final, hevent, rfl, rfl⟩ := hcall
    obtain ⟨-, -, -, hattempted⟩ := Tables.insertAttempt_ok_iff.1 hattempt
    have hfinal := Tables.insertEvent_ok hevent
    have hjobs : final.jobs = (tables.updateJob job.jobId
        (claimedJob now (now + TimeDelta.seconds leaseSeconds) workerId leaseToken)).jobs := by
      rw [hfinal, hattempted]
    have hfound : final.job? job.jobId = some _ :=
      job?_updated (Tables.job?_of_mem hinv.jobs hmem)
        (claimedJob now (now + TimeDelta.seconds leaseSeconds) workerId leaseToken) (fun _ => rfl) hjobs
    refine ⟨hinvafter, by simp, _, hfound, hclaimable.2.1, rfl, fun _ => ?_⟩
    refine ⟨rfl, rfl, claimedAttempt now (now + TimeDelta.seconds leaseSeconds) attemptId workerId leaseToken job, ?_, rfl,
      rfl, rfl, rfl, rfl⟩
    rw [Tables.mem_attemptsOf_iff, hfinal, hattempted]
    exact ⟨List.mem_append_right _ (List.mem_singleton_self _), rfl⟩

end

/-! ## The simulation -/

variable {sha256 : String → String} {worker : Worker} {claimed : ClaimedJob} {tables final : Tables} {v : Tenure}

def CancelStep (claimed : ClaimedJob) (w w' : Tables × Watch) : Prop :=
  ∃ now p result, apiCancelSnapshot .tradingJobApi now p w.1 = .ok (result, w'.1) ∧
    w'.2 = w.2.happen claimed.jobId (.cancel now p result)

def Surroundings (sha256 : String → String) (worker : Worker) (claimed : ClaimedJob) :
    Steps (Tables × Watch) Answer :=
  fun w i r w' => ∃ u, Relation.ReflTransGen (CancelStep claimed) w u ∧ Serves sha256 worker u.1 i r w'.1 ∧
    w'.2 = u.2.answer i r

/-- A timeline is a run of the worker's requests in its surroundings, and cancellations after the last one. -/
theorem Played.along {timeline : List Happening} (h : Played sha256 worker tables timeline final) (watch : Watch) :
    ∃ u, Along (Surroundings sha256 worker claimed) (tables, watch) (requests timeline) u ∧
      Relation.ReflTransGen (CancelStep claimed) u (final, timeline.foldl (Watch.happen claimed.jobId) watch) := by
  induction h generalizing watch with
  | done tables => exact ⟨_, .nil _, .refl⟩
  | @cancel tables mid final now p result timeline hcall rest ih =>
    have hstep : CancelStep claimed (tables, watch) (mid, watch.happen claimed.jobId (.cancel now p result)) :=
      ⟨now, p, result, hcall, rfl⟩
    obtain ⟨u, halong, hcancels⟩ := ih (watch.happen claimed.jobId (.cancel now p result))
    have hrequests : requests (.cancel now p result :: timeline) = requests timeline := rfl
    rw [hrequests]
    generalize requests timeline = trace at halong ⊢
    cases halong with
    | nil => exact ⟨_, .nil _, .head hstep hcancels⟩
    | cons hanswer hrest =>
      obtain ⟨mid, hbefore, hserves⟩ := hanswer
      exact ⟨u, .cons ⟨mid, .head hstep hbefore, hserves⟩ hrest, hcancels⟩
  | @request tables mid final i r timeline hserves rest ih =>
    obtain ⟨u, halong, hcancels⟩ := ih (watch.answer i r)
    have hstep : Surroundings sha256 worker claimed (tables, watch) i r (mid, watch.answer i r) :=
      ⟨_, .refl, hserves, rfl⟩
    exact ⟨u, .cons hstep halong, hcancels⟩

/-- The tenure describes the tables and what was watched. -/
def Agrees (claimed : ClaimedJob) (w : Tables × Watch) (v : Tenure) : Prop := Holds claimed w.1 v ∧ w.2 = v.watch

theorem Tenure.cancelled_cancelled : v.cancelled.cancelled = v.cancelled := by
  obtain ⟨started, ⟨regard, faulted, unproven, closing⟩, settled⟩ := v
  cases settled with
  | none => cases regard <;> cases started <;> rfl
  | some st => cases st <;> cases regard <;> rfl

theorem Agrees.cancels {w u : Tables × Watch} (h : Agrees claimed w v)
    (hcancels : Relation.ReflTransGen (CancelStep claimed) w u) :
    ∃ v', (v' = v ∨ v' = v.cancelled) ∧ Agrees claimed u v' := by
  induction hcancels with
  | refl => exact ⟨v, .inl rfl, h⟩
  | @tail mid u _ hstep ih =>
    obtain ⟨v', hv', hagrees⟩ := ih
    obtain ⟨now, p, result, hcall, hwatch⟩ := hstep
    obtain ⟨hholds, htarget⟩ := hagrees.1.cancel hcall
    rw [Watch.happen, hagrees.2] at hwatch
    by_cases hmine : p.jobId = some claimed.jobId ∧ result.any (·.2) = true
    · rw [if_pos hmine] at hholds hwatch
      refine ⟨v'.cancelled, .inr ?_, hholds, ?_⟩
      · rcases hv' with rfl | rfl
        · rfl
        · exact Tenure.cancelled_cancelled
      · rw [hwatch, Tenure.cancelled, if_pos (htarget hmine)]
    · rw [if_neg hmine] at hholds hwatch
      exact ⟨v', hv', hholds, hwatch⟩

variable {i : Request}

theorem Watch.regard_answer (h : i.elsewhere = true) (w : Watch) (r : Answer i) : (w.answer i r).regard = w.regard := by
  cases i <;> first | rfl | cases h

theorem Tenure.after_elsewhere (h : i.elsewhere = true) (r : Answer i) :
    v.after i r = { v with watch := v.watch.answer i r } := by
  cases i <;> first | rfl | cases h

theorem holds_simulates : (tenure claimed).Simulates (Surroundings sha256 worker claimed) (Agrees claimed) := by
  rintro w v i r ⟨after, watch⟩ hagrees hasks ⟨⟨tables, before⟩, hcancels, hserves, hwatch⟩
  obtain ⟨v', hv', hholds, hbefore⟩ := hagrees.cancels hcancels
  simp only at hholds hbefore hserves hwatch
  subst hbefore hwatch
  suffices hstep : v'.replies i r ∧ Agrees claimed (after, v'.watch.answer i r) (v'.after i r) from
    ⟨v'.after i r, ⟨v', hv', hstep.1, rfl⟩, hstep.2⟩
  cases hserves with
  | claimNext => exact absurd hasks not_false
  | preSpawnControl hunexpired hcall | heartbeatControl hunexpired hcall =>
    obtain rfl : _ = claimed := hasks
    obtain ⟨hreply, hafter⟩ := hholds.control hunexpired hcall
    exact ⟨hreply, hafter, rfl⟩
  | startAttempt hunexpired hlease hcall =>
    obtain rfl : _ = claimed := hasks
    obtain ⟨hreply, hafter⟩ := hholds.start hunexpired hlease hcall
    exact ⟨hreply, hafter, rfl⟩
  | finalize hunexpired hcarries hcall =>
    obtain rfl : _ = claimed := hasks
    obtain ⟨hreply, hafter⟩ := hholds.finalize hunexpired hcarries hcall
    exact ⟨hreply, hafter, rfl⟩
  | elsewhere r helsewhere =>
    rw [Tenure.after_elsewhere helsewhere]
    refine ⟨?_, hholds.congr rfl (Tenure.state_congr rfl rfl ?_) rfl, rfl⟩
    · cases i <;> trivial
    · rw [Watch.regard_answer helsewhere]

end TradingAgent.JobWorker
