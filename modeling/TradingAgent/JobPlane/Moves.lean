import TradingAgent.JobPlane.Functions

/-! Every committed call is one of a few moves of a job's record. -/

namespace TradingAgent.JobPlane

open Outcome ThreeValued

structure Record where
  job : Job
  attempts : List Attempt
  events : List Event

def Job.lease (job : Job) : Option String × Option String × Option DateTime :=
  (job.leaseOwner, job.leaseToken, job.leaseExpiresAt)

namespace Tables

def record (tables : Tables) (job : Job) : Record :=
  ⟨job, tables.attemptsOf job.jobId, tables.eventsOf job.jobId⟩

/-! ## Frames -/

/-- Only rows of one job differ, no job is added or removed, and attempts keep distinct identities. -/
structure Touches (jobId : String) (tables after : Tables) : Prop where
  ids : after.jobs.map (·.jobId) = tables.jobs.map (·.jobId)
  attemptIds : (tables.attempts.map (·.attemptId)).Nodup → (after.attempts.map (·.attemptId)).Nodup
  job? : ∀ other ≠ jobId, after.job? other = tables.job? other
  attemptsOf : ∀ other ≠ jobId, after.attemptsOf other = tables.attemptsOf other
  eventsOf : ∀ other ≠ jobId, after.eventsOf other = tables.eventsOf other

variable {tables after final : Tables} {jobId attemptId : String}

theorem Touches.trans (h : Touches jobId tables after) (h' : Touches jobId after final) :
    Touches jobId tables final where
  ids := h'.ids.trans h.ids
  attemptIds := h'.attemptIds ∘ h.attemptIds
  job? other hne := (h'.job? other hne).trans (h.job? other hne)
  attemptsOf other hne := (h'.attemptsOf other hne).trans (h.attemptsOf other hne)
  eventsOf other hne := (h'.eventsOf other hne).trans (h.eventsOf other hne)

variable {job : Job}

theorem job?_eq_some (h : tables.job? jobId = some job) : job ∈ tables.jobs ∧ job.jobId = jobId := by
  refine ⟨List.mem_of_find?_eq_some h, ?_⟩
  simpa using List.find?_some h

theorem job?_of_mem (hnodup : (tables.jobs.map (·.jobId)).Nodup) (h : job ∈ tables.jobs) :
    tables.job? job.jobId = some job := by
  cases hfind : tables.job? job.jobId with
  | none =>
    have := List.find?_eq_none.1 hfind job h
    simp at this
  | some other =>
    obtain ⟨hmem, hid⟩ := job?_eq_some hfind
    rw [List.inj_on_of_nodup_map hnodup hmem h hid]

theorem snapshotJob?_eq_some (h : tables.snapshotJob? jobId = some job) : job ∈ tables.jobs ∧ job.jobId = jobId := by
  refine ⟨List.mem_of_find?_eq_some h, ?_⟩
  have := List.find?_some h
  simp only [decide_eq_true_eq] at this
  exact this.1

theorem attempt?_eq_some {attempt : Attempt} (h : tables.attempt? attemptId jobId = some attempt) :
    attempt ∈ tables.attemptsOf jobId ∧ attempt.attemptId = attemptId := by
  have hfound := List.find?_some h
  simp only [decide_eq_true_eq] at hfound
  exact ⟨List.mem_filter.2 ⟨List.mem_of_find?_eq_some h, by simpa using hfound.2⟩, hfound.1⟩

theorem mem_attemptsOf_iff {attempt : Attempt} :
    attempt ∈ tables.attemptsOf jobId ↔ attempt ∈ tables.attempts ∧ attempt.jobId = jobId := by
  simp [Tables.attemptsOf]

/-! ## Updates -/

section

variable {f : Job → Job} {g : Attempt → Attempt}

theorem job?_updateJob (hf : ∀ job, (f job).jobId = job.jobId) (other : String) :
    (tables.updateJob jobId f).job? other =
      if other = jobId then (tables.job? other).map f else tables.job? other := by
  have hid (job : Job) : (if job.jobId = jobId then f job else job).jobId = job.jobId := by
    split_ifs
    · exact hf job
    · rfl
  have hmap : (tables.updateJob jobId f).job? other =
      (tables.job? other).map fun job => if job.jobId = jobId then f job else job := by
    simp only [Tables.job?, updateJob, List.find?_map]
    congr 2
    funext job
    simp [Function.comp, hid]
  rw [hmap]
  cases hjob : tables.job? other with
  | none => simp
  | some job =>
    obtain rfl := (job?_eq_some hjob).2
    split_ifs with h <;> simp [h]

theorem job?_updateJob_self (f : Job → Job) (hf : ∀ job, (f job).jobId = job.jobId)
    (hjob : tables.job? jobId = some job) : (tables.updateJob jobId f).job? jobId = some (f job) := by
  rw [job?_updateJob hf, if_pos rfl, hjob]
  rfl

theorem touches_updateJob (f : Job → Job) (hf : ∀ job, (f job).jobId = job.jobId) :
    Touches jobId tables (tables.updateJob jobId f) where
  ids := by
    simp only [updateJob, List.map_map]
    refine List.map_congr_left fun job _ => ?_
    simp only [Function.comp]
    split_ifs
    · exact hf job
    · rfl
  attemptIds := id
  job? other hne := by rw [job?_updateJob hf, if_neg hne]
  attemptsOf _ _ := rfl
  eventsOf _ _ := rfl

theorem attemptsOf_updateAttempt (hg : ∀ attempt, (g attempt).jobId = attempt.jobId) (other : String) :
    (tables.updateAttempt attemptId jobId g).attemptsOf other =
      if other = jobId then
        (tables.attemptsOf other).map fun attempt => if attempt.attemptId = attemptId then g attempt else attempt
      else tables.attemptsOf other := by
  have hid (attempt : Attempt) :
      (if attempt.attemptId = attemptId ∧ attempt.jobId = jobId then g attempt else attempt).jobId =
        attempt.jobId := by
    split_ifs
    · exact hg attempt
    · rfl
  have hmap : (tables.updateAttempt attemptId jobId g).attemptsOf other = (tables.attemptsOf other).map fun attempt =>
        if attempt.attemptId = attemptId ∧ attempt.jobId = jobId then g attempt else attempt := by
    simp only [Tables.attemptsOf, updateAttempt, List.filter_map]
    congr 2
    funext attempt
    simp [Function.comp, hid]
  rw [hmap]
  split_ifs with h
  · refine List.map_congr_left fun attempt hattempt => ?_
    have := (mem_attemptsOf_iff.1 hattempt).2
    simp [this, h]
  · refine (List.map_congr_left fun attempt hattempt => ?_).trans (List.map_id _)
    have := (mem_attemptsOf_iff.1 hattempt).2
    simp [this, h]

theorem touches_updateAttempt (g : Attempt → Attempt) (hid : ∀ attempt, (g attempt).attemptId = attempt.attemptId)
    (hg : ∀ attempt, (g attempt).jobId = attempt.jobId) :
    Touches jobId tables (tables.updateAttempt attemptId jobId g) where
  ids := rfl
  attemptIds hnodup := by
    have hmap : (tables.updateAttempt attemptId jobId g).attempts.map (·.attemptId) =
        tables.attempts.map (·.attemptId) := by
      simp only [updateAttempt, List.map_map]
      refine List.map_congr_left fun attempt _ => ?_
      simp only [Function.comp]
      split_ifs
      · exact hid attempt
      · rfl
    rwa [hmap]
  job? _ _ := rfl
  attemptsOf other hne := by rw [attemptsOf_updateAttempt hg, if_neg hne]
  eventsOf _ _ := rfl

end

/-! ## Inserts -/

theorem insertEvent_ok_iff {event : Event} : tables.insertEvent event = .ok after ↔
      (∀ other ∈ tables.events, other.eventId ≠ event.eventId) ∧
        (∀ other ∈ tables.events, ¬ (other.jobId = event.jobId ∧ other.sequence = event.sequence)) ∧
        tables.job? event.jobId ≠ none ∧
        (event.attemptId.all fun attemptId => (tables.attempt? attemptId event.jobId).isSome) = true ∧
        after = { tables with events := tables.events ++ [event] } := by
  simp only [insertEvent, bind_ok_iff, require_ok_iff, exists_const, Except.ok.injEq]
  tauto

theorem insertEvent_ok {event : Event} (h : tables.insertEvent event = .ok after) :
    after = { tables with events := tables.events ++ [event] } := (insertEvent_ok_iff.1 h).2.2.2.2

theorem insertAttempt_ok_iff {attempt : Attempt} : tables.insertAttempt attempt = .ok after ↔
      (∀ other ∈ tables.attempts, other.attemptId ≠ attempt.attemptId) ∧ (∀ other ∈ tables.attempts,
          ¬ (other.jobId = attempt.jobId ∧ other.attemptNumber = attempt.attemptNumber)) ∧
        tables.job? attempt.jobId ≠ none ∧ after = { tables with attempts := tables.attempts ++ [attempt] } := by
  simp only [insertAttempt, bind_ok_iff, require_ok_iff, exists_const, Except.ok.injEq]
  tauto

section

variable {event : Event} {attempt : Attempt}

theorem eventsOf_append (other : String) :
    ({ tables with events := tables.events ++ [event] } : Tables).eventsOf other =
      if event.jobId = other then tables.eventsOf other ++ [event] else tables.eventsOf other := by
  simp only [Tables.eventsOf, List.filter_append, List.filter_singleton]
  split_ifs <;> simp_all

theorem attemptsOf_append (other : String) :
    ({ tables with attempts := tables.attempts ++ [attempt] } : Tables).attemptsOf other =
      if attempt.jobId = other then tables.attemptsOf other ++ [attempt] else tables.attemptsOf other := by
  simp only [Tables.attemptsOf, List.filter_append, List.filter_singleton]
  split_ifs <;> simp_all

theorem touches_appendEvent (h : event.jobId = jobId) :
    Touches jobId tables { tables with events := tables.events ++ [event] } where
  ids := rfl
  attemptIds := id
  job? _ _ := rfl
  attemptsOf _ _ := rfl
  eventsOf other hne := by rw [eventsOf_append, if_neg (h.trans_ne hne.symm)]

theorem touches_appendAttempt (h : attempt.jobId = jobId)
    (hfresh : ∀ other ∈ tables.attempts, other.attemptId ≠ attempt.attemptId) :
    Touches jobId tables { tables with attempts := tables.attempts ++ [attempt] } where
  ids := rfl
  attemptIds hnodup := by
    rw [List.map_append, List.map_singleton, List.nodup_append]
    refine ⟨hnodup, List.nodup_singleton _, ?_⟩
    rintro id hid _ hnew rfl
    obtain ⟨other, hother, rfl⟩ := List.mem_map.1 hid
    exact hfresh other hother (List.mem_singleton.1 hnew)
  job? _ _ := rfl
  attemptsOf other hne := by rw [attemptsOf_append, if_neg (h.trans_ne hne.symm)]
  eventsOf _ _ := rfl

end

end Tables

/-! ## Moves -/

def Active (state : JobState) : Prop := state = .claimed ∨ state = .running ∨ state = .cancelRequested

/-- The attempt has not ended. -/
def Live (outcome : AttemptOutcome) : Prop := outcome = .claimed ∨ outcome = .running

instance (state : JobState) : Decidable (Active state) := inferInstanceAs (Decidable (_ ∨ _ ∨ _))

instance (outcome : AttemptOutcome) : Decidable (Live outcome) := inferInstanceAs (Decidable (_ ∨ _))

def nextAfter (events : List Event) : ℕ := (events.map (·.sequence)).foldr max 0 + 1

structure Next (job : Job) (state : JobState) (events : List Event) (event : Event) : Prop where
  jobId : event.jobId = job.jobId
  sequence : event.sequence = nextAfter events
  fromState : event.fromState = some state
  reasonCode : isReasonCode event.reasonCode = true
  traceId : isIdentity event.traceId = true

structure Keeps (job moved : Job) : Prop where
  jobId : moved.jobId = job.jobId
  maxAttempts : moved.maxAttempts = job.maxAttempts

structure Revises (outcome : AttemptOutcome) (attempt revised : Attempt) : Prop where
  attemptId : revised.attemptId = attempt.attemptId
  jobId : revised.jobId = attempt.jobId
  attemptNumber : revised.attemptNumber = attempt.attemptNumber
  workerId : revised.workerId = attempt.workerId
  leaseToken : revised.leaseToken = attempt.leaseToken
  outcome : revised.outcome = outcome

def revise (revised : Attempt) (attempts : List Attempt) : List Attempt :=
  attempts.map fun attempt => if attempt.attemptId = revised.attemptId then revised else attempt

structure Current (r : Record) (outcome : AttemptOutcome) (attempt : Attempt) : Prop where
  mem : attempt ∈ r.attempts
  attemptNumber : attempt.attemptNumber = r.job.attemptCount
  outcome : attempt.outcome = outcome

def EndsAs (final : JobState) (outcome : AttemptOutcome) : Prop :=
  AttemptOutcome.ofFinal final = some outcome ∨ final = .failed ∧ outcome = .interrupted

inductive Move (r : Record) : Record → Prop
  | cancel {job : Job} {event : Event} {target : JobState} (htarget : cancellationTarget r.job.state = some target)
      (hkeeps : Keeps r.job job) (hstate : job.state = target) (hcount : job.attemptCount = r.job.attemptCount)
      (hlease : job.lease = r.job.lease) (hnext : Next r.job r.job.state r.events event)
      (hto : event.toState = target) (hattempt : event.attemptId = none) :
      Move r ⟨job, r.attempts, r.events ++ [event]⟩
  | claim {job : Job} {attempt : Attempt} {event : Event} (hqueued : r.job.state = .queued)
      (hbudget : r.job.attemptCount < r.job.maxAttempts) (hkeeps : Keeps r.job job) (hstate : job.state = .claimed)
      (hcount : job.attemptCount = r.job.attemptCount + 1)
      (hlease : job.lease = (some attempt.workerId, some attempt.leaseToken, some attempt.leaseExpiresAt))
      (hfresh : ∀ other ∈ r.attempts, other.attemptId ≠ attempt.attemptId)
      (hnumber : attempt.attemptNumber = r.job.attemptCount + 1) (houtcome : attempt.outcome = .claimed)
      (hnext : Next r.job .queued r.events event) (hto : event.toState = .claimed)
      (hattempt : event.attemptId = some attempt.attemptId) :
      Move r ⟨job, r.attempts ++ [attempt], r.events ++ [event]⟩
  | start {job : Job} {attempt revised : Attempt} {event : Event} (hclaimed : r.job.state = .claimed)
      (hcurrent : Current r .claimed attempt) (hrevises : Revises .running attempt revised) (hkeeps : Keeps r.job job)
      (hstate : job.state = .running) (hcount : job.attemptCount = r.job.attemptCount)
      (hlease : job.lease = r.job.lease) (hnext : Next r.job .claimed r.events event)
      (hto : event.toState = .running) (hattempt : event.attemptId = some attempt.attemptId) :
      Move r ⟨job, revise revised r.attempts, r.events ++ [event]⟩
  | renew {job : Job} {attempt revised : Attempt} {outcome : AttemptOutcome} {until_ : DateTime}
      (hactive : recovers r.job.state outcome = true) (hcurrent : Current r outcome attempt)
      (hrevises : Revises outcome attempt revised) (hkeeps : Keeps r.job job) (hstate : job.state = r.job.state)
      (hcount : job.attemptCount = r.job.attemptCount)
      (hlease : job.lease = (r.job.leaseOwner, r.job.leaseToken, some until_)) :
      Move r ⟨job, revise revised r.attempts, r.events⟩
  | finish {job : Job} {attempt revised : Attempt} {event : Event} {outcome ended : AttemptOutcome}
      {final : JobState} (hfinal : finalizes r.job.state outcome final = true) (hcurrent : Current r outcome attempt)
      (hended : EndsAs final ended) (hrevises : Revises ended attempt revised) (hkeeps : Keeps r.job job)
      (hstate : job.state = final)
      (hcount : job.attemptCount = r.job.attemptCount) (hlease : job.lease = (none, none, none))
      (hnext : Next r.job r.job.state r.events event) (hto : event.toState = final)
      (hattempt : event.attemptId = some attempt.attemptId) :
      Move r ⟨job, revise revised r.attempts, r.events ++ [event]⟩
  | retry {job : Job} {attempt revised : Attempt} {event again : Event} {ended : AttemptOutcome}
      {final : JobState} (hrunning : r.job.state = .running) (hfinal : final = .failed ∨ final = .timedOut)
      (hcurrent : Current r .running attempt) (hbudget : r.job.attemptCount < r.job.maxAttempts)
      (hended : EndsAs final ended) (hrevises : Revises ended attempt revised) (hkeeps : Keeps r.job job)
      (hstate : job.state = .queued)
      (hcount : job.attemptCount = r.job.attemptCount) (hlease : job.lease = (none, none, none))
      (hnext : Next r.job .running r.events event) (hto : event.toState = final)
      (hattempt : event.attemptId = some attempt.attemptId)
      (hagain : Next r.job final (r.events ++ [event]) again) (hqueued : again.toState = .queued)
      (hsame : again.attemptId = some attempt.attemptId) (hmetadata : again.metadata = .empty)
      (hreason : again.reasonCode = "PROCESS_RETRY_SCHEDULED" ∧ again.actorType = .worker ∨
        again.reasonCode = "LEASE_EXPIRED_RETRY_SCHEDULED" ∧ again.actorType = .recovery) :
      Move r ⟨job, revise revised r.attempts, r.events ++ [event] ++ [again]⟩

structure Changed (tables : Tables) (job : Job) (moved : Record) (after : Tables) : Prop where
  touches : tables.Touches job.jobId after
  job? : after.job? job.jobId = some moved.job
  attemptsOf : after.attemptsOf job.jobId = moved.attempts
  eventsOf : after.eventsOf job.jobId = moved.events

inductive Advance (tables after : Tables) : Prop
  | same (h : after = tables)
  | enqueue {now : DateTime} {jobId key actorId traceId eventId : String} {actorType : ActorType} {priority : ℤ}
      (hnew : tables.job? jobId = none) (htrace : isIdentity traceId = true)
      (hafter : after = { tables with
        jobs := tables.jobs ++ [queuedJob now jobId key actorId actorType priority]
        events := tables.events ++ [enqueuedEvent now eventId jobId actorId traceId actorType] })
  | move {job : Job} {moved : Record} (hmem : job ∈ tables.jobs) (hchanged : Changed tables job moved after)
      (hmove : Move (tables.record job) moved)

section

variable {state final : JobState} {outcome ended : AttemptOutcome}

theorem active_of_recovers (h : recovers state outcome = true) : Active state ∧ Live outcome := by
  revert h
  cases state <;> cases outcome <;> decide

theorem recovers_of_finalizes (h : finalizes state outcome final = true) :
    recovers state outcome = true ∧ ¬ Active final := by
  revert h
  cases state <;> cases outcome <;> cases final <;> decide

theorem not_live_of_endsAs (h : EndsAs final ended) : ¬ Live ended := by
  rcases h with h | ⟨-, rfl⟩
  · revert h
    cases final <;> cases ended <;> decide
  · decide

end

/-! ## Locks -/

structure Keyed (tables : Tables) : Prop where
  jobs : (tables.jobs.map (·.jobId)).Nodup
  attempts : (tables.attempts.map (·.attemptId)).Nodup

theorem Keyed.attemptsOf {tables : Tables} (h : Keyed tables) (jobId : String) :
    ((tables.attemptsOf jobId).map (·.attemptId)).Nodup :=
  h.attempts.sublist (List.filter_sublist.map _)

variable {p : LeaseArguments}

theorem LeaseArguments.check_ok_iff {rejected : Raised} {lease : Lease} : p.check rejected = .ok lease ↔
      (p.jobId = some lease.jobId ∧ isRowId lease.jobId = true) ∧
        (p.attemptId = some lease.attemptId ∧ isRowId lease.attemptId = true) ∧
        (p.workerId = some lease.workerId ∧ isIdentity lease.workerId = true) ∧
        p.leaseToken = some lease.leaseToken ∧ isLeaseToken lease.leaseToken = true := by
  simp only [LeaseArguments.check, bind_ok_iff, given_ok_iff, Except.ok.injEq]
  constructor
  · rintro ⟨jobId, hjob, attemptId, hattempt, workerId, hworker, leaseToken, htoken, rfl⟩
    exact ⟨hjob, hattempt, hworker, htoken⟩
  · rintro ⟨hjob, hattempt, hworker, htoken⟩
    exact ⟨_, hjob, _, hattempt, _, hworker, _, htoken, rfl⟩

structure Locked (tables : Tables) (lease : Lease) (states : List JobState) (outcome : AttemptOutcome) (job : Job)
    (attempt : Attempt) : Prop where
  mem : job ∈ tables.jobs
  jobId : job.jobId = lease.jobId
  state : job.state ∈ states
  leaseOwner : job.leaseOwner = some lease.workerId
  leaseToken : job.leaseToken = some lease.leaseToken
  attemptId : attempt.attemptId = lease.attemptId
  workerId : attempt.workerId = lease.workerId
  attemptToken : attempt.leaseToken = lease.leaseToken
  current : Current (tables.record job) outcome attempt

variable {outcome : AttemptOutcome} {states : List JobState}

theorem locked_of_lock {tables : Tables} {lease : Lease} {expired : Job → Truth} {job : Job} {attempt : Attempt}
    (h : lease.lock states expired outcome tables = some (job, attempt)) :
    Locked tables lease states outcome job attempt ∧ ¬ holds (expired job) := by
  unfold Lease.lock at h
  split at h
  · cases h
  · rename_i found hjob
    split_ifs at h with howns
    split at h
    · cases h
    · rename_i held hattempt
      split_ifs at h with hattemptowns
      obtain ⟨rfl, rfl⟩ := Prod.mk.inj (Option.some.inj h)
      obtain ⟨hmem, hid⟩ := Tables.snapshotJob?_eq_some hjob
      obtain ⟨hmemattempt, hattemptid⟩ := Tables.attempt?_eq_some hattempt
      obtain ⟨hstate, howner, htoken, hexpired⟩ := howns
      obtain ⟨hnumber, houtcome, hworker, hattempttoken⟩ := hattemptowns
      refine ⟨⟨hmem, hid, hstate, howner, htoken, hattemptid, hworker, hattempttoken, ?_, hnumber, houtcome⟩, hexpired⟩
      rw [Tables.record, hid]
      exact hmemattempt

variable {tables after final : Tables} {user : SessionUser} {now : DateTime} {job : Job} {moved : Record}

namespace Changed

theorem refl (hkeyed : Keyed tables) (hmem : job ∈ tables.jobs) : Changed tables job (tables.record job) tables where
  touches := ⟨rfl, id, fun _ _ => rfl, fun _ _ => rfl, fun _ _ => rfl⟩
  job? := Tables.job?_of_mem hkeyed.jobs hmem
  attemptsOf := rfl
  eventsOf := rfl

variable (h : Changed tables job moved after)
include h

theorem updateJob (f : Job → Job) (hf : ∀ other, (f other).jobId = other.jobId) :
    Changed tables job { moved with job := f moved.job } (after.updateJob job.jobId f) where
  touches := h.touches.trans (Tables.touches_updateJob f hf)
  job? := Tables.job?_updateJob_self f hf h.job?
  attemptsOf := h.attemptsOf
  eventsOf := h.eventsOf

variable {attempt : Attempt}

theorem updateAttempt (hnodup : (moved.attempts.map (·.attemptId)).Nodup)
    (hmem : attempt ∈ moved.attempts) (g : Attempt → Attempt)
    (hid : ∀ other, (g other).attemptId = other.attemptId) (hg : ∀ other, (g other).jobId = other.jobId) :
    Changed tables job { moved with attempts := revise (g attempt) moved.attempts }
      (after.updateAttempt attempt.attemptId job.jobId g) where
  touches := h.touches.trans (Tables.touches_updateAttempt g hid hg)
  job? := h.job?
  attemptsOf := by
    rw [Tables.attemptsOf_updateAttempt hg, if_pos rfl, h.attemptsOf, revise]
    refine List.map_congr_left fun other hother => ?_
    rw [hid]
    split_ifs with hsame
    · rw [List.inj_on_of_nodup_map hnodup hother hmem hsame]
    · rfl
  eventsOf := h.eventsOf

theorem insertAttempt (hinsert : after.insertAttempt attempt = .ok final) (hjob : attempt.jobId = job.jobId) :
    Changed tables job { moved with attempts := moved.attempts ++ [attempt] } final := by
  obtain ⟨hfresh, -, -, rfl⟩ := Tables.insertAttempt_ok_iff.1 hinsert
  refine ⟨h.touches.trans (Tables.touches_appendAttempt hjob hfresh), h.job?, ?_, h.eventsOf⟩
  rw [Tables.attemptsOf_append, if_pos hjob, h.attemptsOf]

theorem insertEvent {event : Event} (hinsert : after.insertEvent event = .ok final) (hjob : event.jobId = job.jobId) :
    Changed tables job { moved with events := moved.events ++ [event] } final := by
  obtain rfl := (Tables.insertEvent_ok_iff.1 hinsert).2.2.2.2
  refine ⟨h.touches.trans (Tables.touches_appendEvent hjob), h.job?, h.attemptsOf, ?_⟩
  rw [Tables.eventsOf_append, if_pos hjob, h.eventsOf]

end Changed

theorem isReasonCode_cancelRequested : isReasonCode "CANCEL_REQUESTED" = true := by decide

theorem isReasonCode_claimed : isReasonCode "CLAIMED" = true := by decide

theorem isReasonCode_started : isReasonCode "STARTED" = true := by decide

theorem isReasonCode_processRetry : isReasonCode "PROCESS_RETRY_SCHEDULED" = true := by decide

theorem isReasonCode_leaseRetry : isReasonCode "LEASE_EXPIRED_RETRY_SCHEDULED" = true := by decide

variable {result : String × EnqueueOutcome}

theorem insertOrDeduplicate_ok {jobId key actorId traceId eventId : String} {actorType : ActorType} {priority : ℤ}
    (htrace : isIdentity traceId = true)
    (h : insertOrDeduplicate now jobId key actorId traceId eventId actorType priority tables = .ok (result, after)) :
    Advance tables after := by
  unfold insertOrDeduplicate at h
  split at h
  · simp only [bind_ok_iff, Except.ok.injEq, Prod.mk.injEq] at h
    obtain ⟨inserted, hinsert, final, hevent, -, rfl⟩ := h
    simp only [Tables.insertJob, bind_ok_iff, require_ok_iff, exists_const, Except.ok.injEq] at hinsert
    obtain ⟨hnew, rfl⟩ := hinsert
    exact .enqueue hnew htrace (Tables.insertEvent_ok_iff.1 hevent).2.2.2.2
  · simp only [bind_ok_iff, require_ok_iff, exists_const, Except.ok.injEq, Prod.mk.injEq] at h
    exact .same h.2.2.symm

theorem apiEnqueueSnapshot_ok {p : EnqueueArguments} {priority : Option ℤ}
    (h : apiEnqueueSnapshot user now p priority tables = .ok (result, after)) : Advance tables after := by
  simp only [apiEnqueueSnapshot, bind_ok_iff, require_ok_iff, exists_const, given_ok_iff] at h
  obtain ⟨-, jobId, -, eventId, -, -, -, -, key, -, -, actorId, -, priority, -, -, traceId, ⟨-, htrace⟩, h⟩ := h
  exact insertOrDeduplicate_ok htrace h

theorem schedulerEnqueueSnapshot_ok {p : EnqueueArguments}
    (h : schedulerEnqueueSnapshot user now p tables = .ok (result, after)) : Advance tables after := by
  simp only [schedulerEnqueueSnapshot, bind_ok_iff, require_ok_iff, exists_const, given_ok_iff] at h
  obtain ⟨-, jobId, -, eventId, -, -, -, -, key, -, actorId, -, traceId, ⟨-, htrace⟩, h⟩ := h
  exact insertOrDeduplicate_ok htrace h

theorem apiCancelSnapshot_ok (hkeyed : Keyed tables) {p : CancelArguments} {result : Option (JobState × Bool)}
    (h : apiCancelSnapshot user now p tables = .ok (result, after)) : Advance tables after := by
  simp only [apiCancelSnapshot, bind_ok_iff, require_ok_iff, exists_const, given_ok_iff] at h
  obtain ⟨-, jobId, -, actorId, -, traceId, ⟨-, htrace⟩, eventId, -, h⟩ := h
  split at h
  · cases h
    exact .same rfl
  · rename_i job hjob
    obtain ⟨hmem, rfl⟩ := Tables.job?_eq_some hjob
    simp only [bind_ok_iff, require_ok_iff, exists_const] at h
    obtain ⟨-, h⟩ := h
    split at h
    · cases h
      exact .same rfl
    · rename_i target htarget
      simp only [bind_ok_iff, Except.ok.injEq, Prod.mk.injEq] at h
      obtain ⟨final, hevent, -, rfl⟩ := h
      have hchanged := ((Changed.refl hkeyed hmem).updateJob (cancelledJob now target actorId) fun _ => rfl).insertEvent
        hevent rfl
      refine .move hmem hchanged ?_
      exact .cancel htarget ⟨rfl, rfl⟩ rfl rfl rfl ⟨rfl, rfl, rfl, isReasonCode_cancelRequested, htrace⟩ rfl rfl

variable {sha256 : String → String}

theorem claimable_of_selected {locked : List String} (h : selectedJob locked now tables.jobs = some job) :
    job ∈ tables.jobs ∧ Claimable now job := by
  have hmem := List.mem_of_mem_head? h
  rw [List.mem_mergeSort, List.mem_filter, Bool.and_eq_true, decide_eq_true_eq] at hmem
  exact ⟨hmem.1, hmem.2.1⟩

theorem workerClaimSnapshot_ok (hkeyed : Keyed tables) {locked : List String}
    {p : ClaimArguments} {result : Option ClaimedRow}
    (h : workerClaimSnapshot sha256 locked user now p tables = .ok (result, after)) :
    Advance tables after ∧ (after = tables ∨ ∀ other ∈ tables.attempts, some other.attemptId ≠ p.attemptId) := by
  simp only [workerClaimSnapshot, bind_ok_iff, require_ok_iff, exists_const, given_ok_iff] at h
  obtain ⟨-, attemptId, ⟨hid, -⟩, eventId, -, -, workerId, -, leaseToken, -, seconds, -, -, traceId, ⟨-, htrace⟩, h⟩ := h
  split at h
  · cases h
    exact ⟨.same rfl, .inl rfl⟩
  · rename_i job hselected
    obtain ⟨hmem, hclaimable⟩ := claimable_of_selected hselected
    simp only [bind_ok_iff, Except.ok.injEq, Prod.mk.injEq] at h
    obtain ⟨attempted, hattempt, final, hevent, -, rfl⟩ := h
    have hchanged := (((Changed.refl hkeyed hmem).updateJob
      (claimedJob now (now + TimeDelta.seconds seconds) workerId leaseToken) fun _ => rfl).insertAttempt hattempt
      rfl).insertEvent hevent rfl
    have hfresh := (Tables.insertAttempt_ok_iff.1 hattempt).1
    refine ⟨.move hmem hchanged ?_, .inr fun other hother => ?_⟩
    · exact .claim hclaimable.1 hclaimable.2.2.2 ⟨rfl, rfl⟩ rfl rfl rfl
        (fun other hother => hfresh other (Tables.mem_attemptsOf_iff.1 hother).1) rfl rfl
        ⟨rfl, rfl, rfl, isReasonCode_claimed, htrace⟩ rfl rfl
    · rw [hid]
      exact fun hsame => hfresh other hother (Option.some.inj hsame)

theorem Locked.changed {lease : Lease} {attempt : Attempt}
    (hlocked : Locked tables lease states outcome job attempt) (hkeyed : Keyed tables)
    (f : Job → Job) (g : Attempt → Attempt) (hf : ∀ other, (f other).jobId = other.jobId)
    (hid : ∀ other, (g other).attemptId = other.attemptId) (hg : ∀ other, (g other).jobId = other.jobId) :
    Changed tables job ⟨f job, revise (g attempt) (tables.record job).attempts, (tables.record job).events⟩
      ((tables.updateJob lease.jobId f).updateAttempt lease.attemptId lease.jobId g) := by
  rw [← hlocked.jobId, ← hlocked.attemptId]
  exact ((Changed.refl hkeyed hlocked.mem).updateJob f hf).updateAttempt (hkeyed.attemptsOf job.jobId)
    hlocked.current.mem g hid hg

theorem Locked.next {lease : Lease} {states : List JobState} {outcome : AttemptOutcome} {attempt : Attempt}
    (hlocked : Locked tables lease states outcome job attempt) {state : JobState} {event : Event}
    (hjob : event.jobId = lease.jobId) (hsequence : event.sequence = tables.nextSequence lease.jobId)
    (hfrom : event.fromState = some state) (hreason : isReasonCode event.reasonCode = true)
    (htrace : isIdentity event.traceId = true) : Next job state (tables.record job).events event := by
  refine ⟨hjob.trans hlocked.jobId.symm, hsequence.trans ?_, hfrom, hreason, htrace⟩
  exact congrArg tables.nextSequence hlocked.jobId.symm

/-- What a worker's call does: nothing, or a move of the job whose attempt it locked. A call that `ends` leaves
that attempt ended. -/
inductive WorkerEffect (tables after : Tables) (p : LeaseArguments) (expired : Job → Truth) (ends : Bool) : Prop
  | same (h : after = tables)
  | takes {rejected : Raised} {lease : Lease} {states : List JobState} {outcome : AttemptOutcome} {job : Job}
      {attempt : Attempt} {moved : Record} (hcheck : p.check rejected = .ok lease)
      (hlock : lease.lock states expired outcome tables = some (job, attempt)) (hlive : Live outcome)
      (hchanged : Changed tables job moved after) (hmove : Move (tables.record job) moved)
      (hended : ends = true → ∃ ended ∈ moved.attempts, ended.attemptId = attempt.attemptId ∧ ¬ Live ended.outcome)

theorem WorkerEffect.advance {expired : Job → Truth} {ends : Bool} (h : WorkerEffect tables after p expired ends) :
    Advance tables after := by
  cases h with
  | same h => exact .same h
  | takes _ hlock _ hchanged hmove => exact .move (locked_of_lock hlock).1.mem hchanged hmove

theorem Locked.ends {lease : Lease} {attempt revised : Attempt} {ended : AttemptOutcome} {final : JobState}
    (hlocked : Locked tables lease states outcome job attempt) (hrevises : Revises ended attempt revised)
    (hended : EndsAs final ended) :
    ∃ ended ∈ revise revised (tables.record job).attempts, ended.attemptId = attempt.attemptId ∧ ¬ Live ended.outcome := by
  refine ⟨revised, List.mem_map.2 ⟨attempt, hlocked.current.mem, if_pos hrevises.attemptId.symm⟩, hrevises.attemptId, ?_⟩
  rw [hrevises.outcome]
  exact not_live_of_endsAs hended

theorem workerStartSnapshot_ok (hkeyed : Keyed tables) {p : StartArguments} {result : Bool}
    (h : workerStartSnapshot user now p tables = .ok (result, after)) :
    WorkerEffect tables after p.lease (leaseExpired now) false := by
  simp only [workerStartSnapshot, bind_ok_iff, require_ok_iff, exists_const, given_ok_iff] at h
  obtain ⟨-, lease, hcheck, childPid, -, -, groupId, -, -, ticks, -, -, fingerprint, -, traceId, ⟨-, htrace⟩, eventId, -,
    h⟩ := h
  split at h
  · cases h
    exact .same rfl
  · rename_i locked hlock
    obtain ⟨job, attempt⟩ := locked
    obtain ⟨hlocked, -⟩ := locked_of_lock hlock
    simp only [bind_ok_iff, Except.ok.injEq, Prod.mk.injEq] at h
    obtain ⟨final, hevent, -, rfl⟩ := h
    have hclaimed : job.state = .claimed := List.mem_singleton.1 hlocked.state
    have hchanged := (hlocked.changed hkeyed (startedJob now)
      (startedAttempt now childPid groupId ticks fingerprint) (fun _ => rfl) (fun _ => rfl) fun _ => rfl).insertEvent
      hevent hlocked.jobId.symm
    refine .takes hcheck hlock (by decide) hchanged ?_ (by simp)
    exact .start hclaimed hlocked.current ⟨rfl, rfl, rfl, rfl, rfl, rfl⟩ ⟨rfl, rfl⟩ rfl rfl rfl
      (hlocked.next rfl rfl rfl isReasonCode_started htrace) rfl (congrArg some hlocked.attemptId.symm)

theorem workerControlSnapshotLease_ok (hkeyed : Keyed tables) {leaseSeconds : Option ℤ}
    {phase : Option LeasePhase} {result : WorkerControl}
    (h : workerControlSnapshotLease user now p leaseSeconds phase tables = .ok (result, after)) :
    WorkerEffect tables after p (leaseExpired now) false := by
  simp only [workerControlSnapshotLease, bind_ok_iff, require_ok_iff, exists_const] at h
  obtain ⟨-, lease, hcheck, seconds, -, -, phase, -, h⟩ := h
  split at h
  · cases h
    exact .same rfl
  · rename_i job attempt hlock
    obtain ⟨hlocked, -⟩ := locked_of_lock hlock
    obtain ⟨-, rfl⟩ := Prod.mk.inj (Except.ok.inj h)
    have hactive : recovers job.state phase.outcome = true := by
      rcases List.mem_cons.1 hlocked.state with hstate | hstate
      · rw [hstate]
        cases phase <;> rfl
      · rw [List.mem_singleton.1 hstate]
        cases phase <;> rfl
    refine .takes hcheck hlock (active_of_recovers hactive).2 (hlocked.changed hkeyed
      (renewedJob now (now + TimeDelta.seconds seconds)) (renewedAttempt now (now + TimeDelta.seconds seconds))
      (fun _ => rfl) (fun _ => rfl) fun _ => rfl) ?_ (by simp)
    exact .renew hactive hlocked.current ⟨rfl, rfl, rfl, rfl, rfl, hlocked.current.outcome⟩ ⟨rfl, rfl⟩ rfl rfl rfl

theorem foldr_max_concat (xs : List ℕ) (x : ℕ) : (xs ++ [x]).foldr max 0 = max (xs.foldr max 0) x := by
  induction xs with
  | nil => simp
  | cons y ys ih => rw [List.cons_append, List.foldr_cons, List.foldr_cons, ih, max_assoc]

theorem nextAfter_concat {events : List Event} {event : Event} (h : event.sequence = nextAfter events) :
    nextAfter (events ++ [event]) = nextAfter events + 1 := by
  rw [nextAfter, List.map_append, List.map_singleton, foldr_max_concat, h]
  unfold nextAfter
  omega

variable {state : JobState}

theorem finalizes_running {final : JobState} (hretry : final = .failed ∨ final = .timedOut)
    (h : finalizes state outcome final = true) : state = .running ∧ outcome = .running := by
  rcases hretry with rfl | rfl <;> revert h <;> cases state <;> cases outcome <;> decide

theorem workerFinalizeSnapshot_ok (hkeyed : Keyed tables) {p : FinalizeArguments} {result : Bool}
    (h : workerFinalizeSnapshot user now p tables = .ok (result, after)) :
    WorkerEffect tables after p.lease (leaseExpired now) true := by
  simp only [workerFinalizeSnapshot, bind_ok_iff, require_ok_iff, exists_const, given_ok_iff] at h
  obtain ⟨-, lease, hcheck, reasonCode, ⟨-, hreason⟩, traceId, ⟨-, htrace⟩, eventId, -, -, resultMetadata, -, -,
    eventMetadata, -, -, expectedState, -, expectedOutcome, -, finalState, -, -, -, -, retry, -, -, -, hfinal, hretry,
    h⟩ := h
  split at h
  · cases h
    exact .same rfl
  · rename_i job attempt hlock
    obtain ⟨hlocked, -⟩ := locked_of_lock hlock
    have hstate : job.state = expectedState := List.mem_singleton.1 hlocked.state
    subst hstate
    simp only [bind_ok_iff, require_ok_iff, exists_const, notNull_ok_iff] at h
    obtain ⟨hbudget, outcome, houtcome, finalized, hevent, h⟩ := h
    have hchanged := (hlocked.changed hkeyed (finalizedJob now p finalState reasonCode resultMetadata)
      (finalizedAttempt now p outcome) (fun _ => rfl) (fun _ => rfl) fun _ => rfl).insertEvent hevent
      hlocked.jobId.symm
    have hrevises : Revises outcome attempt (finalizedAttempt now p outcome attempt) := ⟨rfl, rfl, rfl, rfl, rfl, rfl⟩
    have hlive := (active_of_recovers (recovers_of_finalizes hfinal).1).2
    split at h
    · rename_i hagain
      simp only [bind_ok_iff, notNull_ok_iff, Except.ok.injEq, Prod.mk.injEq] at h
      obtain ⟨retryEventId, -, final, hretryEvent, -, rfl⟩ := h
      obtain ⟨hrunning, rfl⟩ := finalizes_running (hretry hagain) hfinal
      rw [← hlocked.jobId] at hretryEvent
      refine .takes hcheck hlock hlive ((hchanged.updateJob (retriedJob now "PROCESS_RETRY_SCHEDULED")
        fun _ => rfl).insertEvent hretryEvent hlocked.jobId.symm) ?_ fun _ => hlocked.ends hrevises (.inl houtcome)
      rw [hrunning]
      refine .retry hrunning (hretry hagain) hlocked.current ?_ (.inl houtcome) hrevises ⟨rfl, rfl⟩ rfl rfl rfl
        (hlocked.next rfl rfl rfl hreason htrace) rfl (congrArg some hlocked.attemptId.symm)
        ⟨hlocked.jobId.symm, ?_, rfl, isReasonCode_processRetry, htrace⟩ rfl (congrArg some hlocked.attemptId.symm) rfl
        (.inl ⟨rfl, rfl⟩)
      · have := hbudget
        push Not at this
        exact this hagain
      · exact (nextAfter_concat (congrArg tables.nextSequence hlocked.jobId.symm)).symm
    · simp only [Except.ok.injEq, Prod.mk.injEq] at h
      obtain ⟨-, rfl⟩ := h
      refine .takes hcheck hlock hlive hchanged ?_ fun _ => hlocked.ends hrevises (.inl houtcome)
      exact .finish hfinal hlocked.current (.inl houtcome) hrevises ⟨rfl, rfl⟩ rfl rfl rfl
        (hlocked.next rfl rfl rfl hreason htrace) rfl (congrArg some hlocked.attemptId.symm)

theorem recoveryVerdict_cases (job : Job) (observation : Observation) :
    isReasonCode (recoveryVerdict job observation).reason = true ∧
      ((recoveryVerdict job observation).targetState = .blocked ∧
          (recoveryVerdict job observation).targetAttemptOutcome = .blocked ∧
          (recoveryVerdict job observation).retryJob = false ∨
        job.state = .running ∧ (recoveryVerdict job observation).targetState = .failed ∧
          (recoveryVerdict job observation).targetAttemptOutcome = .interrupted ∧
          ((recoveryVerdict job observation).retryJob = true → job.attemptCount < job.maxAttempts)) := by
  unfold recoveryVerdict
  split_ifs with hresult hstill hmismatch hunverifiable hstate hbudget
  · exact ⟨by decide, .inl ⟨rfl, rfl, rfl⟩⟩
  · exact ⟨by decide, .inl ⟨rfl, rfl, rfl⟩⟩
  · exact ⟨by decide, .inl ⟨rfl, rfl, rfl⟩⟩
  · exact ⟨by decide, .inl ⟨rfl, rfl, rfl⟩⟩
  · exact ⟨by decide, .inl ⟨rfl, rfl, rfl⟩⟩
  · exact ⟨by decide, .inr ⟨not_not.1 hstate, rfl, rfl, fun _ => hbudget⟩⟩
  · exact ⟨by decide, .inr ⟨not_not.1 hstate, rfl, rfl, fun h => by cases h⟩⟩

theorem recovers_running (hstate : state = .running) (h : recovers state outcome = true) : outcome = .running := by
  subst hstate
  revert h
  cases outcome <;> decide

theorem finalizes_blocked (h : recovers state outcome = true) : finalizes state outcome .blocked = true := by
  revert h
  cases state <;> cases outcome <;> decide

theorem workerRecoverExpiredSnapshot_ok (hkeyed : Keyed tables) {p : RecoverArguments} {result : String}
    (h : workerRecoverExpiredSnapshot user now p tables = .ok (result, after)) :
    WorkerEffect tables after p.lease (leaseUnexpired now) true := by
  simp only [workerRecoverExpiredSnapshot, bind_ok_iff, require_ok_iff, exists_const, given_ok_iff] at h
  obtain ⟨-, lease, hcheck, -, -, -, -, expectedState, -, expectedOutcome, -, observation, -, traceId, ⟨-, htrace⟩,
    recoveryId, -, eventId, -, -, -, hrecovers, h⟩ := h
  split at h
  · cases h
    exact .same rfl
  · rename_i job attempt hlock
    obtain ⟨hlocked, -⟩ := locked_of_lock hlock
    have hstate : job.state = expectedState := List.mem_singleton.1 hlocked.state
    subst hstate
    obtain ⟨hreason, hverdict⟩ := recoveryVerdict_cases job (effectiveObservation p observation attempt)
    generalize recoveryVerdict job (effectiveObservation p observation attempt) = verdict at h hreason hverdict
    simp only [bind_ok_iff, require_ok_iff, exists_const] at h
    obtain ⟨-, recovered, hevent, h⟩ := h
    have hchanged := (hlocked.changed hkeyed (recoveredJob now verdict) (recoveredAttempt now verdict) (fun _ => rfl)
      (fun _ => rfl) fun _ => rfl).insertEvent hevent hlocked.jobId.symm
    have hrevises : Revises verdict.targetAttemptOutcome attempt (recoveredAttempt now verdict attempt) :=
      ⟨rfl, rfl, rfl, rfl, rfl, rfl⟩
    have hlive := (active_of_recovers hrecovers).2
    split at h
    · rename_i hagain
      simp only [bind_ok_iff, notNull_ok_iff, Except.ok.injEq, Prod.mk.injEq] at h
      obtain ⟨retryEventId, -, final, hretryEvent, -, rfl⟩ := h
      rcases hverdict with ⟨-, -, hno⟩ | ⟨hrunning, htarget, hended, hbudget⟩
      · rw [hno] at hagain
        cases hagain
      rw [← hlocked.jobId] at hretryEvent
      refine .takes hcheck hlock hlive ((hchanged.updateJob (retriedJob now "LEASE_EXPIRED_RETRY_SCHEDULED")
        fun _ => rfl).insertEvent hretryEvent hlocked.jobId.symm) ?_ fun _ => hlocked.ends hrevises (.inr ⟨htarget, hended⟩)
      have hcurrent := hlocked.current
      rw [recovers_running hrunning hrecovers] at hcurrent
      refine .retry hrunning (.inl htarget) hcurrent (hbudget hagain) (.inr ⟨htarget, hended⟩) hrevises ⟨rfl, rfl⟩ rfl rfl
        rfl (hlocked.next rfl rfl (congrArg some hrunning) hreason htrace) rfl (congrArg some hlocked.attemptId.symm)
        ⟨hlocked.jobId.symm, ?_, congrArg some htarget.symm, isReasonCode_leaseRetry, htrace⟩ rfl
        (congrArg some hlocked.attemptId.symm) rfl (.inr ⟨rfl, rfl⟩)
      exact (nextAfter_concat (congrArg tables.nextSequence hlocked.jobId.symm)).symm
    · simp only [Except.ok.injEq, Prod.mk.injEq] at h
      obtain ⟨-, rfl⟩ := h
      have hfinal : finalizes job.state expectedOutcome verdict.targetState = true := by
        rcases hverdict with ⟨htarget, -⟩ | ⟨hrunning, htarget, -⟩
        · rw [htarget]
          exact finalizes_blocked hrecovers
        · rw [htarget, hrunning, recovers_running hrunning hrecovers]
          rfl
      have hends : EndsAs verdict.targetState verdict.targetAttemptOutcome := by
        rcases hverdict with ⟨htarget, hended, -⟩ | ⟨-, htarget, hended, -⟩
        · rw [htarget, hended]
          exact .inl rfl
        · exact .inr ⟨htarget, hended⟩
      refine .takes hcheck hlock hlive hchanged ?_ fun _ => hlocked.ends hrevises hends
      exact .finish hfinal hlocked.current hends hrevises ⟨rfl, rfl⟩ rfl rfl rfl
        (hlocked.next rfl rfl rfl hreason htrace) rfl (congrArg some hlocked.attemptId.symm)

theorem exists_result {α : Type} {x : Except Raised (α × Tables)} (h : x.map (·.2) = .ok after) :
    ∃ result, x = .ok (result, after) := by
  cases x with
  | error e => cases h
  | ok r => exact ⟨r.1, congrArg Except.ok (Prod.ext rfl (Except.ok.inj h))⟩

theorem advance_of_commit (hkeyed : Keyed tables) {call : Call}
    (h : call.commit sha256 tables = .ok after) : Advance tables after := by
  cases call with
  | apiEnqueue user now p priority =>
    obtain ⟨_, h⟩ := exists_result h
    exact apiEnqueueSnapshot_ok h
  | schedulerEnqueue user now p =>
    obtain ⟨_, h⟩ := exists_result h
    exact schedulerEnqueueSnapshot_ok h
  | apiCancel user now p =>
    obtain ⟨_, h⟩ := exists_result h
    exact apiCancelSnapshot_ok hkeyed h
  | workerClaim locked user now p =>
    obtain ⟨_, h⟩ := exists_result h
    exact (workerClaimSnapshot_ok hkeyed h).1
  | workerStart user now p =>
    obtain ⟨_, h⟩ := exists_result h
    exact (workerStartSnapshot_ok hkeyed h).advance
  | workerControl user now p leaseSeconds phase =>
    obtain ⟨_, h⟩ := exists_result h
    exact (workerControlSnapshotLease_ok hkeyed h).advance
  | workerFinalize user now p =>
    obtain ⟨_, h⟩ := exists_result h
    exact (workerFinalizeSnapshot_ok hkeyed h).advance
  | workerRecover user now p =>
    obtain ⟨_, h⟩ := exists_result h
    exact (workerRecoverExpiredSnapshot_ok hkeyed h).advance

end TradingAgent.JobPlane
