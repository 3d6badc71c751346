import TradingAgent.JobPlane.Auditor
import TradingAgent.JobPlane.Runs

/-! The events of a job follow the policy and tell its attempts. -/

namespace TradingAgent.JobPlane

open Outcome ThreeValued

structure Bootstraps (event : Event) : Prop where
  sequence : event.sequence = 1
  fromState : event.fromState = none
  toState : event.toState = .queued
  attemptId : event.attemptId = none

structure Retries (maxAttempts : ℕ) (attempts : List Attempt) (previous event : Event) : Prop where
  edge : (previous.toState, event.toState) ∈ retryTransitions
  attempt : ∃ attempt ∈ attempts, event.attemptId = some attempt.attemptId ∧
    previous.attemptId = some attempt.attemptId ∧ attempt.attemptNumber < maxAttempts
  metadata : event.metadata = .empty
  cause : event.reasonCode = "PROCESS_RETRY_SCHEDULED" ∧ event.actorType = .worker ∨
    event.reasonCode = "LEASE_EXPIRED_RETRY_SCHEDULED" ∧ event.actorType = .recovery

structure Connects (maxAttempts : ℕ) (attempts : List Attempt) (previous event : Event) : Prop where
  fromState : event.fromState = some previous.toState
  attempt : ∀ attemptId, event.attemptId = some attemptId → ∃ attempt ∈ attempts, attempt.attemptId = attemptId
  edge : (previous.toState, event.toState) ∈ ordinaryTransitions ∨ Retries maxAttempts attempts previous event

/-- One event may come after the other. -/
structure Follows (maxAttempts : ℕ) (attempts : List Attempt) (previous event : Event) : Prop
    extends Connects maxAttempts attempts previous event where
  sequence : event.sequence = previous.sequence + 1
  reasonCode : isReasonCode event.reasonCode = true
  traceId : isIdentity event.traceId = true

inductive History (maxAttempts : ℕ) (attempts : List Attempt) : List Event → Event → Prop
  | enqueued {event : Event} (h : Bootstraps event) : History maxAttempts attempts [event] event
  | next {events : List Event} {last event : Event} (h : History maxAttempts attempts events last)
      (hfollows : Follows maxAttempts attempts last event) : History maxAttempts attempts (events ++ [event]) event

def Extends (attempts attempts' : List Attempt) : Prop :=
  ∀ attempt ∈ attempts, ∃ attempt' ∈ attempts', attempt'.attemptId = attempt.attemptId ∧
    attempt'.attemptNumber = attempt.attemptNumber

section Extending

variable {attempts attempts' : List Attempt} {maxAttempts : ℕ}

theorem extends_refl (attempts : List Attempt) : Extends attempts attempts := fun attempt h => ⟨attempt, h, rfl, rfl⟩

theorem extends_append (attempts : List Attempt) (attempt : Attempt) : Extends attempts (attempts ++ [attempt]) :=
  fun other h => ⟨other, List.mem_append_left _ h, rfl, rfl⟩

theorem extends_revise {outcome : AttemptOutcome} {attempt revised : Attempt} (hmem : attempt ∈ attempts)
    (hrevises : Revises outcome attempt revised) (hdistinct : (attempts.map (·.attemptId)).Nodup) :
    Extends attempts (revise revised attempts) := by
  intro other hother
  refine ⟨_, List.mem_map_of_mem hother, ?_⟩
  split_ifs with h
  · rw [hrevises.attemptId] at h
    obtain rfl := List.inj_on_of_nodup_map hdistinct hother hmem h
    exact ⟨hrevises.attemptId, hrevises.attemptNumber⟩
  · exact ⟨rfl, rfl⟩

theorem Follows.extend (hextends : Extends attempts attempts') {previous event : Event}
    (h : Follows maxAttempts attempts previous event) : Follows maxAttempts attempts' previous event where
  sequence := h.sequence
  fromState := h.fromState
  reasonCode := h.reasonCode
  traceId := h.traceId
  attempt attemptId hid := by
    obtain ⟨attempt, hmem, rfl⟩ := h.attempt attemptId hid
    obtain ⟨attempt', hmem', heq, -⟩ := hextends attempt hmem
    exact ⟨attempt', hmem', heq⟩
  edge := by
    refine h.edge.imp id fun hretries => ⟨hretries.edge, ?_, hretries.metadata, hretries.cause⟩
    obtain ⟨attempt, hmem, hevent, hprevious, hbudget⟩ := hretries.attempt
    obtain ⟨attempt', hmem', hid, hnumber⟩ := hextends attempt hmem
    exact ⟨attempt', hmem', hid ▸ hevent, hid ▸ hprevious, hnumber ▸ hbudget⟩

variable {events : List Event} {last : Event}

theorem History.extend (hextends : Extends attempts attempts')
    (h : History maxAttempts attempts events last) : History maxAttempts attempts' events last := by
  induction h with
  | enqueued h => exact .enqueued h
  | next _ hfollows ih => exact .next ih (hfollows.extend hextends)

theorem History.sequences (h : History maxAttempts attempts events last) :
    events.map (·.sequence) = List.range' 1 events.length ∧ last.sequence = events.length := by
  induction h with
  | enqueued h => simp [h.sequence]
  | @next events last event _ hfollows ih =>
    obtain ⟨hmap, hlast⟩ := ih
    have hsequence : event.sequence = events.length + 1 := by rw [hfollows.sequence, hlast]
    refine ⟨?_, by simp [hsequence]⟩
    rw [List.map_append, hmap, List.length_append, List.length_singleton, List.range'_concat, List.map_singleton,
      hsequence, Nat.one_mul, Nat.add_comm]

theorem foldr_max_range' (n : ℕ) : (List.range' 1 n).foldr max 0 = n := by
  induction n with
  | zero => rfl
  | succ n ih =>
    rw [List.range'_concat, foldr_max_concat, ih]
    omega

theorem History.nextAfter_eq (h : History maxAttempts attempts events last) : nextAfter events = last.sequence + 1 := by
  obtain ⟨hmap, hlast⟩ := h.sequences
  rw [nextAfter, hmap, foldr_max_range', hlast]

end Extending

def Chained (r : Record) : Prop :=
  ∃ last, History r.job.maxAttempts r.attempts r.events last ∧ last.toState = r.job.state

section Chaining

variable {r : Record} {attempts' : List Attempt} {last event : Event} {state : JobState}

theorem History.follow (h : History r.job.maxAttempts r.attempts r.events last) (hextends : Extends r.attempts attempts')
    (hnext : Next r.job state r.events event) (hstate : last.toState = state)
    (hattempt : ∀ attemptId, event.attemptId = some attemptId → ∃ attempt ∈ attempts', attempt.attemptId = attemptId)
    (hedge : (last.toState, event.toState) ∈ ordinaryTransitions) :
    History r.job.maxAttempts attempts' (r.events ++ [event]) event := by
  refine .next (h.extend hextends) ⟨⟨?_, hattempt, .inl hedge⟩, ?_, hnext.reasonCode, hnext.traceId⟩
  · rw [hnext.fromState, hstate]
  · rw [hnext.sequence, h.nextAfter_eq]

theorem mem_ordinary_of_cancellation {state target : JobState} (h : cancellationTarget state = some target) :
    (state, target) ∈ ordinaryTransitions := by
  revert h
  cases state <;> cases target <;> decide

variable {outcome : AttemptOutcome}

theorem mem_ordinary_of_finalizes {state final : JobState}
    (h : finalizes state outcome final = true) : (state, final) ∈ ordinaryTransitions := by
  revert h
  cases state <;> cases outcome <;> cases final <;> decide

theorem attempt_revised {attempt revised : Attempt} {attempts : List Attempt}
    (hmem : attempt ∈ attempts) (hrevises : Revises outcome attempt revised)
    (hattempt : event.attemptId = some attempt.attemptId) (attemptId : String)
    (h : event.attemptId = some attemptId) : ∃ other ∈ revise revised attempts, other.attemptId = attemptId := by
  rw [hattempt] at h
  obtain rfl := Option.some.inj h
  refine ⟨revised, List.mem_map.2 ⟨attempt, hmem, if_pos hrevises.attemptId.symm⟩, hrevises.attemptId⟩

theorem Move.chained {moved : Record} (hdistinct : r.Distinct) (h : Chained r) (hmove : Move r moved) :
    Chained moved := by
  obtain ⟨last, hhistory, hlast⟩ := h
  cases hmove with
  | @cancel job event target htarget hkeeps hstate hcount hlease hnext hto hattempt =>
    refine ⟨event, ?_, hto.trans hstate.symm⟩
    rw [hkeeps.maxAttempts]
    refine hhistory.follow (extends_refl _) hnext hlast (fun id hid => ?_) ?_
    · rw [hattempt] at hid
      cases hid
    · rw [hlast, hto]
      exact mem_ordinary_of_cancellation htarget
  | @claim job attempt event hqueued hbudget hkeeps hstate hcount hlease hfresh hnumber houtcome hnext hto hattempt =>
    refine ⟨event, ?_, hto.trans hstate.symm⟩
    rw [hkeeps.maxAttempts]
    refine hhistory.follow (extends_append _ _) hnext (hlast.trans hqueued) (fun id hid => ?_) ?_
    · rw [hattempt] at hid
      exact ⟨attempt, List.mem_append_right _ (List.mem_singleton_self _), Option.some.inj hid⟩
    · rw [hlast, hqueued, hto]
      decide
  | @start job attempt revised event hclaimed hcurrent hrevises hkeeps hstate hcount hlease hnext hto hattempt =>
    refine ⟨event, ?_, hto.trans hstate.symm⟩
    rw [hkeeps.maxAttempts]
    refine hhistory.follow (extends_revise hcurrent.mem hrevises hdistinct) hnext (hlast.trans hclaimed)
      (attempt_revised hcurrent.mem hrevises hattempt) ?_
    rw [hlast, hclaimed, hto]
    decide
  | @renew job attempt revised outcome until_ hactive hcurrent hrevises hkeeps hstate =>
    refine ⟨last, ?_, hlast.trans hstate.symm⟩
    rw [hkeeps.maxAttempts]
    exact hhistory.extend (extends_revise hcurrent.mem hrevises hdistinct)
  | @finish job attempt revised event outcome ended final hfinal hcurrent hended hrevises hkeeps hstate hcount hlease
      hnext hto hattempt =>
    refine ⟨event, ?_, hto.trans hstate.symm⟩
    rw [hkeeps.maxAttempts]
    refine hhistory.follow (extends_revise hcurrent.mem hrevises hdistinct) hnext hlast
      (attempt_revised hcurrent.mem hrevises hattempt) ?_
    rw [hlast, hto]
    exact mem_ordinary_of_finalizes hfinal
  | @retry job attempt revised event again ended final hrunning hfinal hcurrent hbudget hended hrevises hkeeps hstate
      hcount hlease hnext hto hattempt hagain hqueued hsame hmetadata hreason =>
    have hextends := extends_revise hcurrent.mem hrevises hdistinct
    have hended := hhistory.follow hextends hnext (hlast.trans hrunning)
      (attempt_revised hcurrent.mem hrevises hattempt) (by
        rw [hlast, hrunning, hto]
        rcases hfinal with rfl | rfl <;> decide)
    refine ⟨again, ?_, hqueued.trans hstate.symm⟩
    rw [hkeeps.maxAttempts]
    refine .next hended ⟨⟨?_, attempt_revised hcurrent.mem hrevises hsame,
      .inr ⟨?_, ⟨revised, ?_, ?_, ?_, ?_⟩, hmetadata, hreason⟩⟩, ?_, hagain.reasonCode, hagain.traceId⟩
    · rw [hagain.fromState, hto]
    · rw [hto, hqueued]
      rcases hfinal with rfl | rfl <;> decide
    · exact List.mem_map.2 ⟨attempt, hcurrent.mem, if_pos hrevises.attemptId.symm⟩
    · rw [hsame, hrevises.attemptId]
    · rw [hattempt, hrevises.attemptId]
    · rw [hrevises.attemptNumber, hcurrent.attemptNumber]
      exact hbudget
    · rw [hagain.sequence, hended.nextAfter_eq]

end Chaining

theorem lasting_chained : Lasting Chained where
  new _ _ _ _ _ _ _ _ _ :=
    ⟨_, .enqueued ⟨rfl, rfl, rfl, rfl⟩, rfl⟩
  move _ _ hdistinct h hmove := hmove.chained hdistinct h

/-! ## What the events tell -/

/-- The state in which an attempt stands. An attempt interrupted by a recovery has failed. -/
def AttemptOutcome.standing : AttemptOutcome → JobState
  | .claimed => .claimed
  | .running => .running
  | .succeeded => .succeeded
  | .failed | .interrupted => .failed
  | .blocked => .blocked
  | .timedOut => .timedOut
  | .cancelled => .cancelled

structure AttemptTale where
  attemptNumber : ℕ
  attemptId : String
  state : JobState
  deriving DecidableEq

def Attempt.tale (attempt : Attempt) : AttemptTale :=
  ⟨attempt.attemptNumber, attempt.attemptId, attempt.outcome.standing⟩

/-- The attempts of a job, told from its events alone: a claim begins one, and another event that names it moves it, but
for the event that queues the job again. -/
def tell (tales : List AttemptTale) (event : Event) : List AttemptTale :=
  match event.attemptId, event.toState with
  | none, _ | _, .queued => tales
  | some attemptId, .claimed => tales ++ [⟨tales.length + 1, attemptId, .claimed⟩]
  | some attemptId, state =>
    tales.map fun tale => if tale.attemptId = attemptId then { tale with state := state } else tale

structure Told (r : Record) : Prop where
  attempts : r.attempts.map Attempt.tale = r.events.foldl tell []
  count : r.job.attemptCount = r.attempts.length

section Telling

variable {r moved : Record} {attempt revised : Attempt} {outcome ended : AttemptOutcome} {event : Event}

theorem standing_of_endsAs {final : JobState} (h : EndsAs final ended) :
    ended.standing = final ∧ final ≠ .queued ∧ final ≠ .claimed := by
  revert h
  cases final <;> cases ended <;> simp [EndsAs, AttemptOutcome.ofFinal, AttemptOutcome.standing]

/-- A revised attempt is told by an event that names it and the state it is in. -/
theorem tale_revise (hdistinct : r.Distinct) (hmem : attempt ∈ r.attempts) (hrevises : Revises outcome attempt revised) :
    (revise revised r.attempts).map Attempt.tale = (r.attempts.map Attempt.tale).map fun tale =>
      if tale.attemptId = attempt.attemptId then { tale with state := outcome.standing } else tale := by
  rw [revise, List.map_map, List.map_map]
  refine List.map_congr_left fun other hother => ?_
  show Attempt.tale (if other.attemptId = revised.attemptId then revised else other) =
    if other.attemptId = attempt.attemptId then _ else _
  rw [hrevises.attemptId]
  split_ifs with hid
  · obtain rfl := List.inj_on_of_nodup_map hdistinct hother hmem hid
    simp only [Attempt.tale, hrevises.attemptNumber, hrevises.attemptId, hrevises.outcome]
  · rfl

theorem Told.revise (h : Told r) (hdistinct : r.Distinct) (hmem : attempt ∈ r.attempts)
    (hrevises : Revises outcome attempt revised) (hattempt : event.attemptId = some attempt.attemptId)
    (hto : event.toState = outcome.standing) (hqueued : event.toState ≠ .queued) (hclaimed : event.toState ≠ .claimed) :
    (revise revised r.attempts).map Attempt.tale = (r.events ++ [event]).foldl tell [] := by
  rw [tale_revise hdistinct hmem hrevises, h.attempts, List.foldl_append, ← hto]
  show _ = tell _ event
  unfold tell
  rw [hattempt]
  cases hstate : event.toState <;> first | rfl | exact absurd hstate hqueued | exact absurd hstate hclaimed

theorem Move.told (hdistinct : r.Distinct) (h : Told r) (hmove : Move r moved) : Told moved := by
  have hlength (revised : Attempt) : (revise revised r.attempts).length = r.attempts.length := List.length_map _
  cases hmove with
  | @cancel job event target htarget hkeeps hstate hcount hlease hnext hto hattempt =>
    refine ⟨?_, hcount.trans h.count⟩
    rw [h.attempts, List.foldl_append]
    simp [tell, hattempt]
  | @claim job attempt event hqueued hbudget hkeeps hstate hcount hlease hfresh hnumber houtcome hnext hto hattempt =>
    refine ⟨?_, by rw [hcount, h.count, List.length_append, List.length_singleton]⟩
    have hlast : (r.events.foldl tell []).length = r.job.attemptCount := by
      rw [← h.attempts, List.length_map, h.count]
    rw [List.map_append, h.attempts, List.foldl_append]
    simp [tell, hattempt, hto, hlast, Attempt.tale, hnumber, houtcome, AttemptOutcome.standing]
  | @start job attempt revised event hclaimed hcurrent hrevises hkeeps hstate hcount hlease hnext hto hattempt =>
    exact ⟨h.revise hdistinct hcurrent.mem hrevises hattempt hto (by simp [hto]) (by simp [hto]),
      hcount.trans (h.count.trans (hlength _).symm)⟩
  | @renew job attempt revised outcome until_ hactive hcurrent hrevises hkeeps hstate hcount =>
    refine ⟨?_, hcount.trans (h.count.trans (hlength _).symm)⟩
    rw [tale_revise hdistinct hcurrent.mem hrevises, ← h.attempts]
    refine (List.map_congr_left fun tale htale => ?_).trans (List.map_id _)
    obtain ⟨other, hother, rfl⟩ := List.mem_map.1 htale
    split_ifs with hid
    · obtain rfl := List.inj_on_of_nodup_map hdistinct hother hcurrent.mem hid
      rw [← hcurrent.outcome]
      rfl
    · rfl
  | @finish job attempt revised event outcome ended final hfinal hcurrent hended hrevises hkeeps hstate hcount hlease
      hnext hto hattempt =>
    obtain ⟨hstanding, hqueued, hclaimed⟩ := standing_of_endsAs hended
    exact ⟨h.revise hdistinct hcurrent.mem hrevises hattempt (hto.trans hstanding.symm) (hto ▸ hqueued) (hto ▸ hclaimed),
      hcount.trans (h.count.trans (hlength _).symm)⟩
  | @retry job attempt revised event again ended final hrunning hfinal hcurrent hbudget hended hrevises hkeeps hstate
      hcount hlease hnext hto hattempt hagain hqueued =>
    obtain ⟨hstanding, hnot, hclaimed⟩ := standing_of_endsAs hended
    refine ⟨?_, hcount.trans (h.count.trans (hlength _).symm)⟩
    rw [h.revise hdistinct hcurrent.mem hrevises hattempt (hto.trans hstanding.symm) (hto ▸ hnot) (hto ▸ hclaimed),
      List.foldl_append]
    cases hagain : again.attemptId <;> simp [tell, hagain, hqueued]

theorem lasting_told : Lasting Told where
  new _ _ _ _ _ _ _ _ _ := ⟨rfl, rfl⟩
  move _ _ hdistinct h hmove := hmove.told hdistinct h

end Telling

/-- Over every run the events of a job alone tell how many attempts it had, which they were and where each of them
stands. -/
theorem events_tell_attempts (sha256 : String → String) (calls : List Call) :
    (∀ job ∈ (executeAll sha256 .empty calls).jobs,
      ((executeAll sha256 .empty calls).attemptsOf job.jobId).map Attempt.tale =
        ((executeAll sha256 .empty calls).eventsOf job.jobId).foldl tell []) ∧
      ∀ job ∈ (executeAll sha256 .empty calls).jobs,
        job.attemptCount = (((executeAll sha256 .empty calls).eventsOf job.jobId).foldl tell []).length := by
  have hinv : Inv Told (executeAll sha256 .empty calls) := (inv_empty Told).executeAll lasting_told calls
  refine ⟨fun job hjob => (hinv.records job hjob).attempts, fun job hjob => ?_⟩
  obtain ⟨hattempts, hcount⟩ := hinv.records job hjob
  exact (hcount.trans (List.length_map _).symm).trans (congrArg List.length hattempts)

end TradingAgent.JobPlane
