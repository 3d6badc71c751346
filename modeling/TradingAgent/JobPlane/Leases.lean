import TradingAgent.JobPlane.Runs

/-! Only the holder of a live lease moves a job. -/

namespace TradingAgent.JobPlane

open Outcome ThreeValued

/-- The attempt is the current one and holds the lease. -/
structure LeasedTo (job : Job) (attempt : Attempt) : Prop where
  attemptNumber : attempt.attemptNumber = job.attemptCount
  outcome : recovers job.state attempt.outcome = true
  leaseOwner : job.leaseOwner = some attempt.workerId
  leaseToken : job.leaseToken = some attempt.leaseToken
  leaseExpiresAt : job.leaseExpiresAt ≠ none

/-- A cancellation is pending or was the end. -/
def CancelStands (r : Record) : Prop :=
  r.job.state = .cancelRequested ∨ ∃ attempt ∈ r.attempts, attempt.attemptNumber = r.job.attemptCount ∧
    (r.job.state = .cancelled ∧ attempt.outcome = .cancelled ∨ r.job.state = .blocked ∧ attempt.outcome = .blocked)

structure Leased (r : Record) : Prop where
  numbers : r.attempts.map (·.attemptNumber) = List.range' 1 r.job.attemptCount
  budget : r.job.attemptCount ≤ r.job.maxAttempts
  held : Active r.job.state → ∃ earlier attempt, r.attempts = earlier ++ [attempt] ∧ LeasedTo r.job attempt ∧
    ∀ other ∈ earlier, ¬ Live other.outcome
  idle : ¬ Active r.job.state → r.job.lease = (none, none, none) ∧ ∀ attempt ∈ r.attempts, ¬ Live attempt.outcome
  cancelled : (∃ event ∈ r.events, event.toState = .cancelRequested) → CancelStands r

section Moves

variable {r moved : Record} {job : Job} {attempt revised : Attempt} {outcome : AttemptOutcome}
  {state : JobState}

theorem lease_eq_iff {owner token : Option String} {expiry : Option DateTime} : job.lease = (owner, token, expiry) ↔
      job.leaseOwner = owner ∧ job.leaseToken = token ∧ job.leaseExpiresAt = expiry := by
  simp [Job.lease]

theorem Leased.last (h : Leased r) (hcurrent : Current r outcome attempt) (hactive : Active r.job.state) :
    ∃ earlier, r.attempts = earlier ++ [attempt] ∧ LeasedTo r.job attempt ∧
      ∀ other ∈ earlier, ¬ Live other.outcome := by
  obtain ⟨earlier, last, heq, hleased, hearlier⟩ := h.held hactive
  have hnodup : (r.attempts.map (·.attemptNumber)).Nodup := by
    rw [h.numbers]
    exact List.nodup_range'
  have hlast : last ∈ r.attempts := by
    rw [heq]
    exact List.mem_append_right _ (List.mem_singleton_self _)
  obtain rfl := List.inj_on_of_nodup_map hnodup hcurrent.mem hlast
    (hcurrent.attemptNumber.trans hleased.attemptNumber.symm)
  exact ⟨earlier, heq, hleased, hearlier⟩

theorem revise_concat {earlier : List Attempt} (hid : revised.attemptId = attempt.attemptId)
    (hdistinct : ((earlier ++ [attempt]).map (·.attemptId)).Nodup) :
    revise revised (earlier ++ [attempt]) = earlier ++ [revised] := by
  rw [List.map_append, List.map_singleton, List.nodup_append] at hdistinct
  rw [revise, List.map_append, List.map_singleton, if_pos hid.symm]
  refine congrArg (· ++ [revised]) ((List.map_congr_left fun other hother => if_neg ?_).trans (List.map_id _))
  intro hsame
  exact hdistinct.2.2 _ (List.mem_map_of_mem hother) _ (List.mem_singleton_self _) (hsame.trans hid)

theorem numbers_revise (h : Leased r) (hcurrent : Current r outcome attempt) {outcome' : AttemptOutcome}
    (hrevises : Revises outcome' attempt revised) (hactive : Active r.job.state) (hdistinct : r.Distinct) :
    ∃ earlier, revise revised r.attempts = earlier ++ [revised] ∧ (∀ other ∈ earlier, ¬ Live other.outcome) ∧
      LeasedTo r.job attempt ∧
      (revise revised r.attempts).map (·.attemptNumber) = List.range' 1 r.job.attemptCount := by
  obtain ⟨earlier, heq, hleased, hearlier⟩ := h.last hcurrent hactive
  have hrevise : revise revised r.attempts = earlier ++ [revised] := by
    rw [heq]
    exact revise_concat hrevises.attemptId (by rw [← heq]; exact hdistinct)
  refine ⟨earlier, hrevise, hearlier, hleased, ?_⟩
  rw [hrevise, ← h.numbers, heq, List.map_append, List.map_append, List.map_singleton, List.map_singleton,
    hrevises.attemptNumber]

/-- A state without a recorded cancellation has none among its events. -/
theorem Leased.not_cancelled (h : Leased r) (hstate : r.job.state = .queued ∨ r.job.state = .claimed ∨
    r.job.state = .running) : ¬ ∃ event ∈ r.events, event.toState = .cancelRequested := by
  intro hevent
  rcases h.cancelled hevent with hcancel | ⟨-, -, -, ⟨hcancel, -⟩ | ⟨hcancel, -⟩⟩ <;>
    rcases hstate with hstate | hstate | hstate <;> rw [hcancel] at hstate <;> cases hstate

theorem not_cancelled_append {events : List Event} {event : Event}
    (h : ¬ ∃ event ∈ events, event.toState = .cancelRequested) (hevent : event.toState ≠ .cancelRequested) :
    ¬ ∃ other ∈ events ++ [event], other.toState = .cancelRequested := by
  rintro ⟨other, hother, hto⟩
  rcases List.mem_append.1 hother with hother | hother
  · exact h ⟨other, hother, hto⟩
  · obtain rfl := List.mem_singleton.1 hother
    exact hevent hto

section

variable {job : Job} {outcome' : AttemptOutcome} {events : List Event} (h : Leased r) (hdistinct : r.Distinct)
  (hwas : Active r.job.state) (hcurrent : Current r outcome attempt) (hrevises : Revises outcome' attempt revised)
  (hkeeps : Keeps r.job job) (hcount : job.attemptCount = r.job.attemptCount)
  (hcancelled : (∃ event ∈ events, event.toState = .cancelRequested) →
    CancelStands ⟨job, revise revised r.attempts, events⟩)

include h hdistinct hwas hcurrent hrevises hkeeps hcount hcancelled

theorem Leased.continued {expiry : Option DateTime} (hrecovers : recovers job.state outcome' = true)
    (hlease : job.lease = (r.job.leaseOwner, r.job.leaseToken, expiry))
    (hexpiry : r.job.leaseExpiresAt ≠ none → expiry ≠ none) : Leased ⟨job, revise revised r.attempts, events⟩ := by
  obtain ⟨earlier, heq, hearlier, hleased, hnumbers⟩ := numbers_revise h hcurrent hrevises hwas hdistinct
  obtain ⟨howner, htoken, hexpires⟩ := lease_eq_iff.1 hlease
  refine ⟨hcount ▸ hnumbers, hkeeps.maxAttempts ▸ hcount ▸ h.budget, fun _ => ⟨earlier, revised, heq, ⟨?_, ?_, ?_,
    ?_, ?_⟩, hearlier⟩, fun hnot => absurd (active_of_recovers hrecovers).1 hnot, hcancelled⟩
  · rw [hrevises.attemptNumber, hcount, hleased.attemptNumber]
  · rwa [hrevises.outcome]
  · rw [howner, hleased.leaseOwner, hrevises.workerId]
  · rw [htoken, hleased.leaseToken, hrevises.leaseToken]
  · rw [hexpires]
    exact hexpiry hleased.leaseExpiresAt

theorem Leased.ended {final : JobState} (hended : EndsAs final outcome') (hinactive : ¬ Active job.state)
    (hlease : job.lease = (none, none, none)) : Leased ⟨job, revise revised r.attempts, events⟩ := by
  obtain ⟨earlier, heq, hearlier, hleased, hnumbers⟩ := numbers_revise h hcurrent hrevises hwas hdistinct
  refine ⟨hcount ▸ hnumbers, hkeeps.maxAttempts ▸ hcount ▸ h.budget, fun hactive => absurd hactive hinactive,
    fun _ => ⟨hlease, ?_⟩, hcancelled⟩
  rw [heq]
  intro other hother
  rcases List.mem_append.1 hother with hother | hother
  · exact hearlier other hother
  · rw [List.mem_singleton.1 hother, hrevises.outcome]
    exact not_live_of_endsAs hended

end

theorem Move.leased (hdistinct : r.Distinct) (h : Leased r) (hmove : Move r moved) : Leased moved := by
  cases hmove with
  | @cancel job event target htarget hkeeps hstate hcount hlease hnext hto hattempt =>
    have hlive : r.job.state = .queued ∨ r.job.state = .claimed ∨ r.job.state = .running := by
      revert htarget
      cases r.job.state <;> simp [cancellationTarget]
    refine ⟨hcount ▸ h.numbers, hkeeps.maxAttempts ▸ hcount ▸ h.budget, fun hactive => ?_, fun hidle => ?_,
      fun hevent => ?_⟩
    · rw [hstate] at hactive
      have hrequested : target = .cancelRequested ∧ Active r.job.state := by
        revert htarget hactive
        cases r.job.state <;> cases target <;> decide
      obtain ⟨earlier, attempt, heq, hleased, hearlier⟩ := h.held hrequested.2
      obtain ⟨howner, htoken, hexpiry⟩ := lease_eq_iff.1 hlease
      refine ⟨earlier, attempt, heq, ⟨hleased.attemptNumber.trans hcount.symm, ?_, howner ▸ hleased.leaseOwner,
        htoken ▸ hleased.leaseToken, hexpiry ▸ hleased.leaseExpiresAt⟩, hearlier⟩
      rw [hstate, hrequested.1]
      have := active_of_recovers hleased.outcome
      rcases this.2 with houtcome | houtcome <;> rw [houtcome] <;> rfl
    · rw [hstate] at hidle
      have hqueued : ¬ Active r.job.state := by
        revert htarget hidle
        cases r.job.state <;> cases target <;> decide
      rw [hlease]
      exact h.idle hqueued
    · by_cases hrequested : target = .cancelRequested
      · exact .inl (hstate.trans hrequested)
      · refine absurd hevent (not_cancelled_append (h.not_cancelled hlive) ?_)
        rwa [hto]
  | @claim job attempt event hqueued hbudget hkeeps hstate hcount hlease hfresh hnumber houtcome hnext hto hattempt =>
    have hidle := h.idle (by rw [hqueued]; decide)
    obtain ⟨howner, htoken, hexpiry⟩ := lease_eq_iff.1 hlease
    refine ⟨?_, ?_, fun _ => ⟨r.attempts, attempt, rfl, ⟨hnumber.trans hcount.symm, ?_, howner, htoken, ?_⟩, hidle.2⟩,
      fun hnot => ?_, fun hevent => ?_⟩
    · rw [List.map_append, h.numbers, List.map_singleton, hnumber, hcount, List.range'_concat, Nat.one_mul,
        Nat.add_comm]
    · rw [hcount, hkeeps.maxAttempts]
      exact hbudget
    · rw [hstate, houtcome]
      rfl
    · rw [hexpiry]
      exact Option.some_ne_none _
    · rw [hstate] at hnot
      exact absurd (by decide) hnot
    · refine absurd hevent (not_cancelled_append (h.not_cancelled (.inl hqueued)) ?_)
      rw [hto]
      decide
  | @start job attempt revised event hclaimed hcurrent hrevises hkeeps hstate hcount hlease hnext hto hattempt =>
    refine h.continued hdistinct (by rw [hclaimed]; decide) hcurrent hrevises hkeeps hcount (fun hevent => ?_)
      (by rw [hstate]; rfl) hlease id
    refine absurd hevent (not_cancelled_append (h.not_cancelled (.inr (.inl hclaimed))) ?_)
    rw [hto]
    decide
  | @renew job attempt revised outcome until_ hactive hcurrent hrevises hkeeps hstate hcount hlease =>
    have hwas := (active_of_recovers hactive).1
    refine h.continued hdistinct hwas hcurrent hrevises hkeeps hcount (fun hevent => ?_) (by rwa [hstate]) hlease
      fun _ => Option.some_ne_none _
    rcases h.cancelled hevent with hcancel | ⟨-, -, -, ⟨hcancel, -⟩ | ⟨hcancel, -⟩⟩
    · exact .inl (hstate.trans hcancel)
    · rw [hcancel] at hwas
      exact absurd hwas (by decide)
    · rw [hcancel] at hwas
      exact absurd hwas (by decide)
  | @finish job attempt revised event outcome ended final hfinal hcurrent hended hrevises hkeeps hstate hcount hlease
      hnext hto hattempt =>
    obtain ⟨hrecovers, hinactive⟩ := recovers_of_finalizes hfinal
    have hwas := (active_of_recovers hrecovers).1
    refine h.ended hdistinct hwas hcurrent hrevises hkeeps hcount (fun hevent => ?_) hended (by rwa [hstate]) hlease
    obtain ⟨earlier, heq, -, hleased, -⟩ := numbers_revise h hcurrent hrevises hwas hdistinct
    refine .inr ⟨revised, by rw [heq]; exact List.mem_append_right _ (List.mem_singleton_self _), ?_, ?_⟩
    · rw [hrevises.attemptNumber, hcount, hleased.attemptNumber]
    · have hcancelled : r.job.state = .cancelRequested := by
        by_contra hne
        have hbefore : r.job.state = .queued ∨ r.job.state = .claimed ∨ r.job.state = .running := by
          rcases hwas with hwas | hwas | hwas
          · exact .inr (.inl hwas)
          · exact .inr (.inr hwas)
          · exact absurd hwas hne
        refine not_cancelled_append (h.not_cancelled hbefore) ?_ hevent
        rintro hto'
        rw [← hto, hto'] at hinactive
        exact hinactive (by decide)
      have hends : final = .cancelled ∧ ended = .cancelled ∨ final = .blocked ∧ ended = .blocked := by
        rw [hcancelled] at hfinal
        rcases hended with hended | ⟨rfl, -⟩
        · revert hfinal hended
          cases outcome <;> cases final <;> cases ended <;> decide
        · cases outcome <;> cases hfinal
      rw [hstate, hrevises.outcome]
      exact hends
  | @retry job attempt revised event again ended final hrunning hfinal hcurrent hbudget hended hrevises hkeeps hstate
      hcount hlease hnext hto hattempt hagain hqueued hsame hmetadata hreason =>
    refine h.ended hdistinct (by rw [hrunning]; decide) hcurrent hrevises hkeeps hcount (fun hevent => ?_) hended
      (by rw [hstate]; decide) hlease
    refine absurd hevent (not_cancelled_append (not_cancelled_append (h.not_cancelled (.inr (.inr hrunning))) ?_) ?_)
    · rw [hto]
      rcases hfinal with rfl | rfl <;> decide
    · rw [hqueued]
      decide

end Moves

theorem lasting_leased : Lasting Leased where
  new _ _ _ _ _ _ _ _ _ := by
    refine ⟨rfl, Nat.zero_le _, fun hactive => ?_, fun _ => ⟨rfl, by simp⟩, fun hevent => ?_⟩
    · exact absurd (show Active .queued from hactive) (by decide)
    · obtain ⟨event, hmem, hto⟩ := hevent
      rw [List.mem_singleton.1 hmem] at hto
      cases hto
  move _ _ hdistinct h hmove := hmove.leased hdistinct h

structure LeaseClaim where
  lease : LeaseArguments
  now : DateTime
  recovery : Bool

/-- The lease that a start, a renewal, a finalization or a recovery names. -/
def Call.leaseClaim : Call → Option LeaseClaim
  | .workerStart _ now p => some ⟨p.lease, now, false⟩
  | .workerControl _ now p _ _ => some ⟨p, now, false⟩
  | .workerFinalize _ now p => some ⟨p.lease, now, false⟩
  | .workerRecover _ now p => some ⟨p.lease, now, true⟩
  | _ => none

def Call.attemptId : Call → Option String
  | .workerClaim _ _ _ p => p.attemptId
  | call => call.leaseClaim.bind fun claim => claim.lease.attemptId

/-- The claim names the current live attempt of a job with its worker and token, at the right side of its
expiry. -/
def LeaseClaim.Entitled (claim : LeaseClaim) (tables : Tables) : Prop :=
  ∃ job ∈ tables.jobs, ∃ attempt ∈ tables.attemptsOf job.jobId, ∃ expiry,
    claim.lease = ⟨some job.jobId, some attempt.attemptId, some attempt.workerId, some attempt.leaseToken⟩ ∧
      attempt.attemptNumber = job.attemptCount ∧ Live attempt.outcome ∧ job.leaseExpiresAt = some expiry ∧
      if claim.recovery = true then expiry ≤ claim.now else claim.now < expiry

section Effects

variable {sha256 : String → String} {tables after : Tables} {user : SessionUser} {now : DateTime}
  {rejected : Raised} {lease : Lease}

theorem LeaseArguments.eq_of_check {p : LeaseArguments} (h : p.check rejected = .ok lease) :
    p = ⟨some lease.jobId, some lease.attemptId, some lease.workerId, some lease.leaseToken⟩ := by
  obtain ⟨⟨hjob, -⟩, ⟨hattempt, -⟩, ⟨hworker, -⟩, htoken, -⟩ := check_ok_iff.1 h
  cases p
  simp_all

variable {claim : LeaseClaim} {job : Job}

theorem WorkerEffect.entitled {expired : Job → Truth} {ends : Bool}
    (h : WorkerEffect tables after claim.lease expired ends) (hinv : Inv Leased tables)
    (hexpired : ∀ {job expiry}, job.leaseExpiresAt = some expiry → ¬ holds (expired job) →
      if claim.recovery = true then expiry ≤ claim.now else claim.now < expiry) :
    after = tables ∨ claim.Entitled tables := by
  cases h with
  | same h => exact .inl h
  | @takes _ _ _ _ job attempt _ hcheck hlock hlive =>
    obtain ⟨hlocked, hnot⟩ := locked_of_lock hlock
    have hleased := hinv.records job hlocked.mem
    have hactive : Active job.state := by
      by_contra hidle
      have hlease := (hleased.idle hidle).1
      have hnone := (lease_eq_iff.1 hlease).1
      exact absurd (hlocked.leaseOwner.symm.trans hnone) (Option.some_ne_none _)
    obtain ⟨earlier, -, hto, -⟩ := hleased.last hlocked.current hactive
    obtain ⟨expiry, hexpiry⟩ := Option.ne_none_iff_exists'.1 hto.leaseExpiresAt
    refine .inr ⟨job, hlocked.mem, attempt, hlocked.current.mem, expiry, ?_, hlocked.current.attemptNumber, ?_, hexpiry,
      hexpired hexpiry hnot⟩
    · rw [LeaseArguments.eq_of_check hcheck, hlocked.jobId, hlocked.attemptId, hlocked.workerId, hlocked.attemptToken]
    · rw [hlocked.current.outcome]
      exact hlive

variable {expiry : DateTime}

theorem not_expired (h : job.leaseExpiresAt = some expiry) (hnot : ¬ holds (leaseExpired now job)) : now < expiry := by
  rw [leaseExpired, h] at hnot
  simpa [relate] using hnot

theorem expired_of_not_unexpired (h : job.leaseExpiresAt = some expiry)
    (hnot : ¬ holds (leaseUnexpired now job)) : expiry ≤ now := by
  rw [leaseUnexpired, h] at hnot
  simpa [relate] using hnot

variable {call : Call}

theorem entitled_of_commit (hinv : Inv Leased tables) (h : call.commit sha256 tables = .ok after)
    (hclaim : call.leaseClaim = some claim) : after = tables ∨ claim.Entitled tables := by
  cases call with
  | apiEnqueue | schedulerEnqueue | apiCancel | workerClaim => cases hclaim
  | workerStart user now p =>
    obtain rfl := Option.some.inj hclaim
    obtain ⟨result, h⟩ := exists_result h
    exact (workerStartSnapshot_ok hinv.keyed h).entitled hinv not_expired
  | workerControl user now p leaseSeconds phase =>
    obtain rfl := Option.some.inj hclaim
    obtain ⟨result, h⟩ := exists_result h
    exact (workerControlSnapshotLease_ok hinv.keyed h).entitled hinv not_expired
  | workerFinalize user now p =>
    obtain rfl := Option.some.inj hclaim
    obtain ⟨result, h⟩ := exists_result h
    exact (workerFinalizeSnapshot_ok hinv.keyed h).entitled hinv not_expired
  | workerRecover user now p =>
    obtain rfl := Option.some.inj hclaim
    obtain ⟨result, h⟩ := exists_result h
    exact (workerRecoverExpiredSnapshot_ok hinv.keyed h).entitled hinv expired_of_not_unexpired

theorem entitled_of_execute (hinv : Inv Leased tables)
    (hclaim : call.leaseClaim = some claim) (heffect : execute sha256 tables call ≠ tables) : claim.Entitled tables := by
  unfold execute at heffect
  split at heffect
  · rename_i after hcommit
    exact (entitled_of_commit hinv hcommit hclaim).resolve_left heffect
  · exact absurd rfl heffect

end Effects

section Ended

variable {sha256 : String → String} {tables after : Tables} {r moved : Record} {job : Job} {attempt : Attempt}

theorem mem_revise {revised current : Attempt} (hcurrent : current ∈ r.attempts)
    (hrevised : revised.attemptId = current.attemptId) (hlive : Live current.outcome) (hdistinct : r.Distinct)
    (hmem : attempt ∈ r.attempts) (hended : ¬ Live attempt.outcome) : attempt ∈ revise revised r.attempts := by
  refine List.mem_map.2 ⟨attempt, hmem, if_neg fun hsame => ?_⟩
  obtain rfl := List.inj_on_of_nodup_map hdistinct hmem hcurrent (hsame.trans hrevised)
  exact hended hlive

theorem Move.keeps_ended (hdistinct : r.Distinct) (hmove : Move r moved) (hmem : attempt ∈ r.attempts)
    (hended : ¬ Live attempt.outcome) : attempt ∈ moved.attempts := by
  cases hmove with
  | cancel => exact hmem
  | claim => exact List.mem_append_left _ hmem
  | start _ hcurrent hrevises =>
    exact mem_revise hcurrent.mem hrevises.attemptId (.inl hcurrent.outcome) hdistinct hmem hended
  | renew hactive hcurrent hrevises =>
    refine mem_revise hcurrent.mem hrevises.attemptId ?_ hdistinct hmem hended
    rw [hcurrent.outcome]
    exact (active_of_recovers hactive).2
  | finish hfinal hcurrent _ hrevises =>
    refine mem_revise hcurrent.mem hrevises.attemptId ?_ hdistinct hmem hended
    rw [hcurrent.outcome]
    exact (active_of_recovers (recovers_of_finalizes hfinal).1).2
  | retry _ _ hcurrent _ _ hrevises =>
    exact mem_revise hcurrent.mem hrevises.attemptId (.inr hcurrent.outcome) hdistinct hmem hended

theorem Advance.keeps_ended (hkeyed : Keyed tables) (hadvance : Advance tables after)
    (hmem : attempt ∈ tables.attempts) (hended : ¬ Live attempt.outcome) : attempt ∈ after.attempts := by
  cases hadvance with
  | same h => rwa [h]
  | enqueue _ _ hafter => rwa [hafter]
  | @move job moved hjob hchanged hmove =>
    by_cases hmine : attempt.jobId = job.jobId
    · have hdistinct : (tables.record job).Distinct := hkeyed.attemptsOf job.jobId
      have hkept := hmove.keeps_ended hdistinct (Tables.mem_attemptsOf_iff.2 ⟨hmem, hmine⟩) hended
      rw [← hchanged.attemptsOf] at hkept
      exact (Tables.mem_attemptsOf_iff.1 hkept).1
    · have hkept := Tables.mem_attemptsOf_iff.2 ⟨hmem, rfl⟩
      rw [← hchanged.touches.attemptsOf _ hmine] at hkept
      exact (Tables.mem_attemptsOf_iff.1 hkept).1

theorem ended_kept (hinv : Inv Leased tables) (calls : List Call) (hmem : attempt ∈ tables.attempts)
    (hended : ¬ Live attempt.outcome) : attempt ∈ (executeAll sha256 tables calls).attempts := by
  induction calls generalizing tables with
  | nil => exact hmem
  | cons call calls ih =>
    exact ih (hinv.execute lasting_leased call)
      ((advance_execute hinv.keyed call).keeps_ended hinv.keyed hmem hended)

theorem execute_ended (hinv : Inv Leased tables) {call : Call} (hmem : attempt ∈ tables.attempts)
    (hended : ¬ Live attempt.outcome) (hnames : call.attemptId = some attempt.attemptId) :
    execute sha256 tables call = tables := by
  by_contra heffect
  have hentitled {claim : LeaseClaim} (hclaim : call.leaseClaim = some claim)
      (hid : claim.lease.attemptId = some attempt.attemptId) : False := by
    obtain ⟨job, -, current, hcurrent, expiry, hlease, -, hlive, -⟩ := entitled_of_execute hinv hclaim heffect
    rw [hlease] at hid
    obtain rfl := List.inj_on_of_nodup_map hinv.attempts (Tables.mem_attemptsOf_iff.1 hcurrent).1 hmem
      (Option.some.inj hid)
    exact hended hlive
  cases call with
  | apiEnqueue | schedulerEnqueue | apiCancel => cases hnames
  | workerClaim locked user now p =>
    unfold execute at heffect
    split at heffect
    · rename_i after hcommit
      obtain ⟨result, h⟩ := exists_result hcommit
      exact (workerClaimSnapshot_ok hinv.keyed h).2.elim heffect fun hfresh => hfresh attempt hmem hnames.symm
    · exact heffect rfl
  | workerStart | workerControl | workerFinalize | workerRecover => exact hentitled rfl hnames

end Ended

/-- The call ends attempts. -/
def Call.settles : Call → Bool
  | .workerFinalize _ _ _ | .workerRecover _ _ _ => true
  | _ => false

section

variable {sha256 : String → String} {tables after : Tables} {user : SessionUser} {now : DateTime}

theorem WorkerEffect.ended {p : LeaseArguments} {expired : Job → Truth} (h : WorkerEffect tables after p expired true) :
    after = tables ∨ ∃ ended ∈ after.attempts, p.attemptId = some ended.attemptId ∧ ¬ Live ended.outcome := by
  cases h with
  | same h => exact .inl h
  | takes hcheck hlock _ hchanged _ hended =>
    obtain ⟨ended, hmem, hid, hlive⟩ := hended rfl
    rw [← hchanged.attemptsOf] at hmem
    refine .inr ⟨ended, (Tables.mem_attemptsOf_iff.1 hmem).1, ?_, hlive⟩
    rw [LeaseArguments.eq_of_check hcheck, hid, (locked_of_lock hlock).1.attemptId]

theorem ended_of_settles {call : Call} (hkeyed : Keyed tables) (hsettles : call.settles = true)
    (heffect : execute sha256 tables call ≠ tables) :
    ∃ ended ∈ (execute sha256 tables call).attempts, call.attemptId = some ended.attemptId ∧ ¬ Live ended.outcome := by
  unfold execute at heffect ⊢
  split at heffect
  · rename_i after hcommit
    cases call with
    | apiEnqueue | schedulerEnqueue | apiCancel | workerClaim | workerStart | workerControl => cases hsettles
    | workerFinalize user now p =>
      obtain ⟨result, h⟩ := exists_result hcommit
      exact (workerFinalizeSnapshot_ok hkeyed h).ended.resolve_left heffect
    | workerRecover user now p =>
      obtain ⟨result, h⟩ := exists_result hcommit
      exact (workerRecoverExpiredSnapshot_ok hkeyed h).ended.resolve_left heffect
  · exact absurd rfl heffect

end

/-- An active job has one live attempt, which holds the lease. -/
structure Fenced (job : Job) (attempts : List Attempt) : Prop where
  active : Active job.state → ∃ attempt ∈ attempts, Live attempt.outcome ∧
    attempt.attemptNumber = job.attemptCount ∧ job.leaseOwner = some attempt.workerId ∧
    job.leaseToken = some attempt.leaseToken ∧ job.leaseExpiresAt ≠ none ∧
    ∀ other ∈ attempts, Live other.outcome → other = attempt
  idle : ¬ Active job.state → job.leaseOwner = none ∧ job.leaseToken = none ∧ job.leaseExpiresAt = none ∧
    ∀ attempt ∈ attempts, ¬ Live attempt.outcome
  numbers : attempts.map (·.attemptNumber) = List.range' 1 job.attemptCount
  count : attempts.length = job.attemptCount
  budget : job.attemptCount ≤ job.maxAttempts

theorem Leased.fenced {r : Record} (h : Leased r) : Fenced r.job r.attempts where
  active hactive := by
    obtain ⟨earlier, attempt, heq, hleased, hearlier⟩ := h.held hactive
    rw [heq]
    refine ⟨attempt, List.mem_append_right _ (List.mem_singleton_self _), (active_of_recovers hleased.outcome).2,
      hleased.attemptNumber, hleased.leaseOwner, hleased.leaseToken, hleased.leaseExpiresAt, fun other hother hlive => ?_⟩
    rcases List.mem_append.1 hother with hother | hother
    · exact absurd hlive (hearlier other hother)
    · exact List.mem_singleton.1 hother
  idle hidle := by
    obtain ⟨hlease, hended⟩ := h.idle hidle
    obtain ⟨howner, htoken, hexpiry⟩ := lease_eq_iff.1 hlease
    exact ⟨howner, htoken, hexpiry, hended⟩
  numbers := h.numbers
  count := by
    rw [← List.length_map (f := (·.attemptNumber)), h.numbers, List.length_range']
  budget := h.budget

/-- Over every run: an active job is leased to its one live attempt, only the worker under that lease takes
effect, and ended attempts stay as they are. -/
theorem job_leases_fence_stale_workers (sha256 : String → String) (calls more : List Call) (call : Call) :
    (∀ job ∈ (executeAll sha256 .empty calls).jobs,
      Fenced job ((executeAll sha256 .empty calls).attemptsOf job.jobId)) ∧
    (∀ claim, call.leaseClaim = some claim →
      execute sha256 (executeAll sha256 .empty calls) call ≠ executeAll sha256 .empty calls →
        claim.Entitled (executeAll sha256 .empty calls)) ∧
    (call.settles = true → execute sha256 (executeAll sha256 .empty calls) call ≠ executeAll sha256 .empty calls →
      ∃ ended ∈ (execute sha256 (executeAll sha256 .empty calls) call).attempts,
        call.attemptId = some ended.attemptId ∧ ¬ Live ended.outcome) ∧
    (∀ ended ∈ (executeAll sha256 .empty calls).attempts, ¬ Live ended.outcome →
      ended ∈ (executeAll sha256 .empty (calls ++ more)).attempts ∧
      (∀ later ∈ (executeAll sha256 .empty (calls ++ more)).attempts,
        later.attemptId = ended.attemptId → later = ended) ∧
      (call.attemptId = some ended.attemptId →
        execute sha256 (executeAll sha256 .empty (calls ++ more)) call = executeAll sha256 .empty (calls ++ more))) ∧
    ∀ job ∈ (executeAll sha256 .empty calls).jobs,
      (∃ event ∈ (executeAll sha256 .empty calls).eventsOf job.jobId, event.toState = .cancelRequested) →
        CancelStands ((executeAll sha256 .empty calls).record job) := by
  have hinv (calls : List Call) : Inv Leased (executeAll sha256 .empty calls) :=
    (inv_empty Leased).executeAll lasting_leased calls
  refine ⟨fun job hjob => ((hinv calls).records job hjob).fenced,
    fun claim hclaim heffect => entitled_of_execute (hinv calls) hclaim heffect, ended_of_settles (hinv calls).keyed,
    fun ended hmem hended => ?_, fun job hjob => ((hinv calls).records job hjob).cancelled⟩
  have hkept : ended ∈ (executeAll sha256 .empty (calls ++ more)).attempts := by
    rw [executeAll, List.foldl_append]
    exact ended_kept (hinv calls) more hmem hended
  refine ⟨hkept, fun later hlater hid => ?_, execute_ended (hinv _) hkept hended⟩
  exact List.inj_on_of_nodup_map (hinv _).attempts hlater hkept hid

end TradingAgent.JobPlane
