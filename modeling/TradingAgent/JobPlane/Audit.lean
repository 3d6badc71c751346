import TradingAgent.JobPlane.History

/-! The auditor of event chains is exact, and every run passes it. -/

namespace TradingAgent.JobPlane

open Outcome ThreeValued

variable {maxAttempts : ℕ} {attempts : List Attempt} {events : List Event} {last : Event} {job : Job}

/-- The events are numbered, begin as queued, follow the policy and end in the job's state. -/
structure PolicyRun (job : Job) (attempts : List Attempt) (events : List Event) : Prop where
  nonempty : events ≠ []
  sequences : events.map (·.sequence) = List.range' 1 events.length
  first : ∀ event ∈ events.head?, event.fromState = none ∧ event.toState = .queued ∧ event.attemptId = none
  steps : events.IsChain (Connects job.maxAttempts attempts)
  last : ∀ event ∈ events.getLast?, event.toState = job.state

variable (h : History maxAttempts attempts events last)
include h

theorem History.ne_nil : events ≠ [] := by
  cases h <;> simp

theorem History.getLast? : events.getLast? = some last := by
  cases h <;> simp

theorem History.steps : events.IsChain (Follows maxAttempts attempts) ∧ ∀ event ∈ events.head?, Bootstraps event := by
  induction h with
  | enqueued h =>
    refine ⟨List.isChain_singleton _, ?_⟩
    rintro event hevent
    obtain rfl := Option.some.inj hevent
    exact h
  | @next events last event hhistory hfollows ih =>
    obtain ⟨hchain, hhead⟩ := ih
    refine ⟨List.isChain_append.2 ⟨hchain, List.isChain_singleton _, ?_⟩, ?_⟩
    · rw [hhistory.getLast?]
      rintro _ hlast _ hevent
      obtain rfl := Option.some.inj hlast
      obtain rfl := Option.some.inj hevent
      exact hfollows
    · rwa [List.head?_append_of_ne_nil _ hhistory.ne_nil]

omit h

theorem History.policyRun (h : History job.maxAttempts attempts events last) (hstate : last.toState = job.state) :
    PolicyRun job attempts events where
  nonempty := h.ne_nil
  sequences := h.sequences.1
  first event hevent := ⟨(h.steps.2 event hevent).fromState, (h.steps.2 event hevent).toState,
    (h.steps.2 event hevent).attemptId⟩
  steps := h.steps.1.imp fun _ _ hfollows => hfollows.toConnects
  last event hevent := by
    rw [h.getLast?] at hevent
    rwa [← Option.some.inj hevent]

theorem History.mergeSort_eq (h : History maxAttempts attempts events last) :
    events.mergeSort eventsBefore = events := by
  refine List.mergeSort_of_pairwise ?_
  have hsequences : (events.map (·.sequence)).Pairwise (· < ·) := by
    rw [h.sequences.1]
    exact List.pairwise_lt_range'
  refine (List.pairwise_map.1 hsequences).imp fun hlt => ?_
  exact decide_eq_true (.inl hlt)

/-! ## The windows of a run -/

theorem lagged_eq (previous : Option Event) (events : List Event) :
    lagged previous events = (previous :: events.map some).zip events := by
  induction events generalizing previous with
  | nil => rfl
  | cons event events ih =>
    rw [lagged, ih]
    rfl

/-- What the policy asks of an event and its `lag`. -/
def Linked (maxAttempts : ℕ) (attempts : List Attempt) (previous : Option Event) (event : Event) : Prop :=
  previous = none ∧ Bootstraps event ∨ ∃ before, previous = some before ∧
    event.sequence = before.sequence + 1 ∧ Connects maxAttempts attempts before event

variable {i : ℕ} {previous : Option Event} {event : Event}

theorem mem_zipIdx_lagged : ((previous, event), i) ∈ (lagged none events).zipIdx ↔ events[i]? = some event ∧
      (i = 0 ∧ previous = none ∨ ∃ j before, i = j + 1 ∧ events[j]? = some before ∧ previous = some before) := by
  rw [List.mk_mem_zipIdx_iff_getElem?, lagged_eq, List.getElem?_zip_eq_some, and_comm]
  refine and_congr_right fun _ => ?_
  cases i with
  | zero => simp [eq_comm]
  | succ j => simp [eq_comm]

theorem sequence_eq_of_range (hsequences : events.map (·.sequence) = List.range' 1 events.length)
    (hevent : events[i]? = some event) : event.sequence = i + 1 := by
  obtain ⟨hlt, rfl⟩ := List.getElem?_eq_some_iff.1 hevent
  have hmap : (events.map (·.sequence))[i]? = some events[i].sequence := by simp [hlt]
  rw [hsequences, List.getElem?_range' hlt] at hmap
  have := Option.some.inj hmap
  omega

theorem PolicyRun.linked (h : PolicyRun job attempts events)
    (hitem : ((previous, event), i) ∈ (lagged none events).zipIdx) :
    Linked job.maxAttempts attempts previous event := by
  obtain ⟨hevent, ⟨rfl, rfl⟩ | ⟨j, before, rfl, hbefore, rfl⟩⟩ := mem_zipIdx_lagged.1 hitem
  · obtain ⟨hfrom, hto, hattempt⟩ := h.first event (by rwa [List.head?_eq_getElem?])
    exact .inl ⟨rfl, sequence_eq_of_range h.sequences hevent, hfrom, hto, hattempt⟩
  · refine .inr ⟨before, rfl, ?_, ?_⟩
    · rw [sequence_eq_of_range h.sequences hevent, sequence_eq_of_range h.sequences hbefore]
    · obtain ⟨hlt, rfl⟩ := List.getElem?_eq_some_iff.1 hevent
      obtain ⟨_, rfl⟩ := List.getElem?_eq_some_iff.1 hbefore
      exact List.isChain_iff_getElem.1 h.steps j hlt

theorem policyRun_of_linked (hnonempty : events ≠ []) (hlinked : ∀ previous event i,
      ((previous, event), i) ∈ (lagged none events).zipIdx → Linked job.maxAttempts attempts previous event ∧
        (i + 1 = events.length → event.toState = job.state)) : PolicyRun job attempts events := by
  have hstep (j : ℕ) (before event : Event) (hbefore : events[j]? = some before)
      (hevent : events[j + 1]? = some event) :
      event.sequence = before.sequence + 1 ∧ Connects job.maxAttempts attempts before event := by
    have hitem := mem_zipIdx_lagged.2 ⟨hevent, .inr ⟨j, before, rfl, hbefore, rfl⟩⟩
    rcases (hlinked _ _ _ hitem).1 with ⟨hnone, -⟩ | ⟨_, hsome, hlinked⟩
    · cases hnone
    · obtain rfl := Option.some.inj hsome
      exact hlinked
  have hfirst (event : Event) (hevent : events[0]? = some event) : Bootstraps event := by
    rcases (hlinked none event 0 (mem_zipIdx_lagged.2 ⟨hevent, .inl ⟨rfl, rfl⟩⟩)).1 with ⟨-, h⟩ | ⟨_, hsome, -⟩
    · exact h
    · cases hsome
  have hsequence (j : ℕ) (hlt : j < events.length) : events[j].sequence = j + 1 := by
    induction j with
    | zero => exact (hfirst _ (List.getElem?_eq_getElem hlt)).sequence
    | succ j ih =>
      rw [(hstep j _ _ (List.getElem?_eq_getElem (Nat.lt_of_succ_lt hlt)) (List.getElem?_eq_getElem hlt)).1, ih]
  refine ⟨hnonempty, ?_, fun event hevent => ?_, ?_, fun event hevent => ?_⟩
  · refine List.ext_getElem (by simp) fun j hmap _ => ?_
    rw [List.length_map] at hmap
    simp [hsequence j hmap, Nat.add_comm]
  · rw [List.head?_eq_getElem?] at hevent
    exact ⟨(hfirst event hevent).fromState, (hfirst event hevent).toState, (hfirst event hevent).attemptId⟩
  · refine List.isChain_iff_getElem.2 fun j hlt => ?_
    exact (hstep j _ _ (List.getElem?_eq_getElem (Nat.lt_of_succ_lt hlt)) (List.getElem?_eq_getElem hlt)).2
  · rw [List.getLast?_eq_getElem?] at hevent
    have hlength := List.length_pos_iff.2 hnonempty
    have hitem : ∃ previous, ((previous, event), events.length - 1) ∈ (lagged none events).zipIdx := by
      by_cases hone : events.length - 1 = 0
      · exact ⟨none, mem_zipIdx_lagged.2 ⟨hevent, .inl ⟨hone, rfl⟩⟩⟩
      · have hlt : events.length - 2 < events.length := by omega
        exact ⟨_, mem_zipIdx_lagged.2 ⟨hevent, .inr ⟨_, _, by omega, List.getElem?_eq_getElem hlt, rfl⟩⟩⟩
    obtain ⟨previous, hitem⟩ := hitem
    exact (hlinked previous event _ hitem).2 (by omega)

theorem countP_sequence_le (hsequences : events.map (·.sequence) = List.range' 1 events.length) (event : Event) :
    events.countP (fun other => decide (other.sequence = event.sequence)) ≤ 1 := by
  have hnodup : (events.map (·.sequence)).Nodup := by
    rw [hsequences]
    exact List.nodup_range'
  have hcount := List.nodup_iff_count_le_one.1 hnodup event.sequence
  rw [List.count, List.countP_map] at hcount
  refine le_trans (le_of_eq ?_) hcount
  refine List.countP_congr fun other _ => ?_
  simp

theorem pairwise_mergeSort_eventsBefore (events : List Event) :
    (events.mergeSort eventsBefore).Pairwise fun x y => eventsBefore x y = true := by
  refine List.pairwise_mergeSort (fun x y z hxy hyz => ?_) (fun x y => ?_) events
  · rw [eventsBefore, decide_eq_true_eq] at hxy hyz ⊢
    rcases hxy with hxy | ⟨hxy, hid⟩ <;> rcases hyz with hyz | ⟨hyz, hid'⟩
    · exact .inl (hxy.trans hyz)
    · exact .inl (hyz ▸ hxy)
    · exact .inl (hxy ▸ hyz)
    · exact .inr ⟨hxy.trans hyz, hid.trans hid'⟩
  · rw [Bool.or_eq_true, eventsBefore, eventsBefore, decide_eq_true_eq, decide_eq_true_eq]
    rcases lt_trichotomy x.sequence y.sequence with hlt | heq | hgt
    · exact .inl (.inl hlt)
    · exact (le_total x.eventId y.eventId).imp (fun h => .inr ⟨heq, h⟩) fun h => .inr ⟨heq.symm, h⟩
    · exact .inr (.inl hgt)

theorem lag_sorted {before : Event}
    (hitem : ((some before, event), i) ∈ (lagged none (events.mergeSort eventsBefore)).zipIdx) :
    before.sequence ≤ event.sequence ∧ (before.sequence = event.sequence →
      1 < (events.mergeSort eventsBefore).countP fun other => decide (other.sequence = event.sequence)) := by
  have hpairwise := pairwise_mergeSort_eventsBefore events
  generalize events.mergeSort eventsBefore = sorted at hitem hpairwise
  obtain ⟨hevent, ⟨-, hnone⟩ | ⟨j, _, rfl, hbefore, hsome⟩⟩ := mem_zipIdx_lagged.1 hitem
  · cases hnone
  obtain rfl := Option.some.inj hsome
  obtain ⟨hlt, rfl⟩ := List.getElem?_eq_some_iff.1 hevent
  obtain ⟨hlt', rfl⟩ := List.getElem?_eq_some_iff.1 hbefore
  refine ⟨?_, fun hsame => ?_⟩
  · have hle := List.pairwise_iff_getElem.1 hpairwise j (j + 1) hlt' hlt (Nat.lt_succ_self j)
    rw [eventsBefore, decide_eq_true_eq] at hle
    omega
  · -- The two neighbours have the same sequence.
    have hsublist := List.drop_sublist j sorted
    rw [List.drop_eq_getElem_cons hlt', List.drop_eq_getElem_cons hlt] at hsublist
    refine lt_of_lt_of_le ?_ hsublist.countP_le
    rw [List.countP_cons_of_pos (by simpa using hsame), List.countP_cons_of_pos (by simp)]
    omega

/-! ## Rows of a run -/

structure RowOf (job : Job) (attempts : List Attempt) (row : EventContext) : Prop where
  attempt : row.attempt = attempts.find? fun attempt => row.event.attemptId = some attempt.attemptId
  numbered : row.eventNumber = 1 ∧ row.previous = none ∨ 1 < row.eventNumber ∧ ∃ before, row.previous = some before
  job_eq : row.job = job

structure Placed (job : Job) (attempts : List Attempt) (row : EventContext) : Prop extends RowOf job attempts row where
  linked : Linked job.maxAttempts attempts row.previous row.event
  sequenceCount : row.sequenceCount ≤ 1
  final : row.reverseEventNumber = 1 → row.event.toState = job.state

variable {edge : JobState × JobState}

theorem not_retry_of_ordinary (h : edge ∈ ordinaryTransitions) : edge ∉ retryTransitions := by
  revert edge
  decide

theorem not_terminal_of_ordinary (h : edge ∈ ordinaryTransitions) : edge.1 ∉ terminalStates := by
  revert edge
  decide

variable {state : JobState}

theorem edgeIn_approvedEdges {event : Event} (hfrom : event.fromState = some state) :
    edgeIn approvedEdges event = some (decide ((state, event.toState) ∈ approvedEdges)) := by
  rw [edgeIn, hfrom]
  generalize event.toState = target
  cases state <;> cases target <;> rfl

theorem isRetry_eq {row : EventContext} (hfrom : row.event.fromState = some state) :
    row.isRetry = some (decide ((state, row.event.toState) ∈ retryTransitions)) := by
  rw [EventContext.isRetry, hfrom]
  generalize row.event.toState = target
  cases state <;> cases target <;> rfl

section Placing

variable {attempts : List Attempt} {job : Job} {row : EventContext} {previous : Event}

theorem attemptIsForged_eq_false_iff (hattempt : row.attempt = attempts.find? fun attempt =>
    row.event.attemptId = some attempt.attemptId) : row.attemptIsForged = false ↔
      ∀ attemptId, row.event.attemptId = some attemptId → ∃ attempt ∈ attempts, attempt.attemptId = attemptId := by
  rw [EventContext.attemptIsForged, hattempt]
  cases hid : row.event.attemptId with
  | none => simp
  | some attemptId =>
    rw [Option.isSome_some, Bool.true_and, Option.isNone_eq_false_iff, List.find?_isSome]
    simp only [Option.some.injEq, decide_eq_true_eq, forall_eq']
    exact exists_congr fun _ => and_congr_right' eq_comm

variable (hdistinct : (attempts.map (·.attemptId)).Nodup)
include hdistinct

theorem attempt_eq (hattempt : row.attempt = attempts.find? fun attempt =>
    row.event.attemptId = some attempt.attemptId) {attempt : Attempt} (hmem : attempt ∈ attempts)
    (hid : row.event.attemptId = some attempt.attemptId) : row.attempt = some attempt := by
  rw [hattempt]
  cases hfind : attempts.find? fun other => decide (row.event.attemptId = some other.attemptId) with
  | none =>
    have := List.find?_eq_none.1 hfind attempt hmem
    simp [hid] at this
  | some other =>
    have hother := List.find?_some hfind
    rw [decide_eq_true_eq, hid] at hother
    rw [List.inj_on_of_nodup_map hdistinct (List.mem_of_find?_eq_some hfind) hmem (Option.some.inj hother).symm]

theorem isValidRetry_of_retries (hplaced : Placed job attempts row)
    (hprevious : row.previous = some previous) (hsequence : row.event.sequence = previous.sequence + 1)
    (hfollows : Connects job.maxAttempts attempts previous row.event)
    (hretries : Retries job.maxAttempts attempts previous row.event) : holds row.isValidRetry := by
  obtain ⟨attempt, hmem, hid, hpreviousid, hbudget⟩ := hretries.attempt
  have hattempt := attempt_eq hdistinct hplaced.attempt hmem hid
  rw [EventContext.isValidRetry, holds_allOf_iff]
  simp only [List.forall_mem_cons, List.not_mem_nil, false_imp_iff, implies_true, and_true]
  refine ⟨?_, ?_, ?_, ?_, ?_, ?_, ?_, ?_, ?_, ?_⟩
  · rw [isRetry_eq hfollows.fromState, holds_some_iff, decide_eq_true_eq]
    exact hretries.edge
  · rw [holds_some_iff, EventContext.retryCause, decide_eq_true_eq]
    exact hretries.cause
  · rw [holds_some_iff, decide_eq_true_eq]
    exact hretries.metadata
  · rw [holds_some_iff, decide_eq_true_eq, EventContext.previousToState, hprevious, hfollows.fromState]
    rfl
  · rw [EventContext.sequenceStep, hprevious, hsequence]
    simp
  · rw [hid]
    rfl
  · rw [EventContext.previousAttemptId, hprevious, Option.bind_some, hpreviousid]
    rfl
  · rw [EventContext.previousAttemptId, hprevious, Option.bind_some, hpreviousid, hid]
    simp
  · rw [(attemptIsForged_eq_false_iff hplaced.attempt).2 hfollows.attempt]
    rfl
  · rw [EventContext.withinBudget, hattempt, hplaced.job_eq]
    simpa [relate] using hbudget

theorem isValidRetry_of_terminal (hplaced : Placed job attempts row)
    (hprevious : row.previous = some previous) (hterminal : previous.toState ∈ terminalStates) :
    holds row.isValidRetry := by
  rcases hplaced.linked with ⟨hnone, -⟩ | ⟨found, hfound, hsequence, hfollows⟩
  · rw [hprevious] at hnone
    cases hnone
  · obtain rfl := Option.some.inj (hprevious.symm.trans hfound)
    rcases hfollows.edge with hordinary | hretries
    · exact absurd hterminal (not_terminal_of_ordinary hordinary)
    · exact isValidRetry_of_retries hdistinct hplaced hprevious hsequence hfollows hretries

omit hdistinct

theorem not_holds_and {x y : Truth} (h : ¬ holds x) : ¬ holds (ThreeValued.and x y) :=
  fun hand => h (holds_and_iff.1 hand).1

theorem not_holds_of_bootstraps (hplaced : Placed job attempts row) (hnumber : row.eventNumber = 1)
    (hprevious : row.previous = none) (hfirst : Bootstraps row.event) (count : ℕ) :
    ∀ condition ∈ conditions row count, ¬ holds condition.2 := by
  have hretry : ¬ holds row.isRetry := by
    rw [EventContext.isRetry, hfirst.fromState, holds_anyOf_iff]
    simp [holds_and_iff]
  have hlater : ¬ holds (some (decide (1 < row.eventNumber))) := by simp [hnumber]
  have hforged : row.attemptIsForged = false := by rw [EventContext.attemptIsForged, hfirst.attemptId]; rfl
  have hstate : row.previousToState = none := by rw [EventContext.previousToState, hprevious]; rfl
  have hterminal : row.isTerminal = false := by rw [EventContext.isTerminal, hfirst.toState]; rfl
  have hfinal (hlast : row.reverseEventNumber = 1) : row.event.toState = row.job.state := by
    rw [hplaced.job_eq, hplaced.final hlast]
  have hafter : ¬ holds (anyOf (terminalStates.map fun state => eq row.previousToState (some state))) := by
    rw [hstate, holds_anyOf_iff]
    simp
  simp only [conditions, List.forall_mem_cons]
  exact ⟨by simp [hfirst.sequence], not_holds_and hlater, by simpa using hplaced.sequenceCount,
    by simp [hfirst.fromState, hfirst.toState], by simp [hfirst.attemptId], not_holds_and hlater, not_holds_and hlater,
    not_holds_and hlater, by simpa using hfinal, by simp [hforged], not_holds_and hretry, not_holds_and hretry,
    not_holds_and hretry, not_holds_and hretry, not_holds_and hretry, not_holds_and hretry, not_holds_and hretry,
    not_holds_and hafter, by simp [hterminal], by simp⟩

theorem not_holds_of_follows (hdistinct : (attempts.map (·.attemptId)).Nodup) (hplaced : Placed job attempts row)
    (hnumber : 1 < row.eventNumber) (hprevious : row.previous = some previous)
    (hsequence : row.event.sequence = previous.sequence + 1)
    (hfollows : Connects job.maxAttempts attempts previous row.event) {count : ℕ}
    (hcount : row.isTerminal = true → count ≤ 1) : ∀ condition ∈ conditions row count, ¬ holds condition.2 := by
  have hstep : row.sequenceStep = some 1 := by
    rw [EventContext.sequenceStep, hprevious, hsequence]
    simp
  have hstate : row.previousToState = row.event.fromState := by
    rw [EventContext.previousToState, hprevious, hfollows.fromState]
    rfl
  have hforged := (attemptIsForged_eq_false_iff hplaced.attempt).2 hfollows.attempt
  have hfinal (hlast : row.reverseEventNumber = 1) : row.event.toState = row.job.state := by
    rw [hplaced.job_eq, hplaced.final hlast]
  have hretries (h : holds row.isRetry) : Retries job.maxAttempts attempts previous row.event := by
    rw [isRetry_eq hfollows.fromState, holds_some_iff, decide_eq_true_eq] at h
    exact hfollows.edge.resolve_left fun hordinary => not_retry_of_ordinary hordinary h
  have hedge : ¬ holds (ThreeValued.not (edgeIn approvedEdges row.event)) := by
    have happroved : (previous.toState, row.event.toState) ∈ approvedEdges :=
      List.mem_append.2 (hfollows.edge.imp id (·.edge))
    rw [edgeIn_approvedEdges hfollows.fromState, decide_eq_true happroved]
    decide
  have hcause (h : holds row.isRetry) : row.retryCause = true := by
    rw [EventContext.retryCause, decide_eq_true_eq]
    exact (hretries h).cause
  have hactor : ¬ holds (ThreeValued.and row.isRetry (some (decide
      (row.event.reasonCode = "PROCESS_RETRY_SCHEDULED" ∧ row.event.actorType ≠ .worker ∨
        row.event.reasonCode = "LEASE_EXPIRED_RETRY_SCHEDULED" ∧ row.event.actorType ≠ .recovery ∨
        row.event.actorType ≠ .worker ∧ row.event.actorType ≠ .recovery)))) := by
    rw [holds_and_iff, holds_some_iff, decide_eq_true_eq]
    rintro ⟨h, hwrong⟩
    rcases (hretries h).cause with ⟨hreason, hactor⟩ | ⟨hreason, hactor⟩ <;> simp [hreason, hactor] at hwrong
  have hattempt : ¬ holds (ThreeValued.and row.isRetry (some (decide (row.event.attemptId = none ∨
      row.previousAttemptId = none ∨ row.event.attemptId ≠ row.previousAttemptId)))) := by
    rw [holds_and_iff, holds_some_iff, decide_eq_true_eq]
    rintro ⟨h, hwrong⟩
    obtain ⟨attempt, -, hid, hpreviousid, -⟩ := (hretries h).attempt
    simp [EventContext.previousAttemptId, hprevious, hid, hpreviousid] at hwrong
  have hbudget : ¬ holds (ThreeValued.and row.isRetry (relate (fun x y => decide (y ≤ x))
      (row.attempt.map (·.attemptNumber)) (some row.job.maxAttempts))) := by
    rw [holds_and_iff]
    rintro ⟨h, hwrong⟩
    obtain ⟨attempt, hmem, hid, -, hlt⟩ := (hretries h).attempt
    rw [attempt_eq hdistinct hplaced.attempt hmem hid, hplaced.job_eq] at hwrong
    have : job.maxAttempts ≤ attempt.attemptNumber := by simpa [relate] using hwrong
    omega
  have hafter : ¬ holds (ThreeValued.and (anyOf (terminalStates.map fun state => eq row.previousToState (some state)))
      (ThreeValued.not row.isValidRetry)) := by
    rw [holds_and_iff, holds_anyOf_iff]
    rintro ⟨⟨_, hmem, hterminal⟩, hinvalid⟩
    obtain ⟨state, hstates, rfl⟩ := List.mem_map.1 hmem
    rw [hstate, hfollows.fromState, eq_some_some, holds_some_iff, decide_eq_true_eq] at hterminal
    subst hterminal
    have hvalid := isValidRetry_of_terminal hdistinct hplaced hprevious hstates
    rw [holds] at hvalid
    rw [hvalid] at hinvalid
    exact absurd hinvalid (by decide)
  simp only [conditions, List.forall_mem_cons]
  refine ⟨by simp; omega, ?_, by simpa using hplaced.sequenceCount, by simp; omega, by simp; omega,
    by simp [holds_and_iff, hfollows.fromState], by simp [holds_and_iff, hstate], fun h => hedge (holds_and_iff.1 h).2,
    by simpa using hfinal, by simp [hforged], hactor, ?_, ?_, hattempt, by simp [holds_and_iff, hforged], hbudget, ?_,
    hafter, by simpa using hcount, by simp⟩
  · simp [holds_and_iff, hstep, relate]
  · rw [holds_and_iff]
    rintro ⟨h, hwrong⟩
    simp [hcause h] at hwrong
  · rw [holds_and_iff]
    rintro ⟨h, hwrong⟩
    simp [(hretries h).metadata] at hwrong
  · simp [holds_and_iff, hstep, hstate]

theorem linked_of_quiet (hdistinct : (attempts.map (·.attemptId)).Nodup) (hrow : RowOf job attempts row) {count : ℕ}
    (hquiet : ∀ condition ∈ conditions row count, ¬ holds condition.2)
    (hsorted : ∀ before, row.previous = some before → before.sequence ≤ row.event.sequence ∧
      (before.sequence = row.event.sequence → 1 < row.sequenceCount)) :
    Linked job.maxAttempts attempts row.previous row.event ∧
      (row.reverseEventNumber = 1 → row.event.toState = job.state) := by
  simp only [conditions, List.forall_mem_cons, holds_some_iff, holds_and_iff, decide_eq_true_eq] at hquiet
  obtain ⟨hstart, hgap, hduplicate, hbootstrap, hunassigned, -, hdisconnected, hedge, hfinal, hforged, -, hreason,
    hmetadata, hchanged, -, hbudget, -⟩ := hquiet
  rw [hrow.job_eq] at hfinal hbudget
  rw [Bool.not_eq_true, attemptIsForged_eq_false_iff hrow.attempt] at hforged
  refine ⟨?_, fun hlast => not_not.1 fun hne => hfinal ⟨hlast, hne⟩⟩
  rcases hrow.numbered with ⟨hone, hprevious⟩ | ⟨hlater, before, hprevious⟩
  · refine .inl ⟨hprevious, ?_⟩
    simp only [hone, true_and, not_or, not_not] at hstart hbootstrap hunassigned
    exact ⟨hstart, hbootstrap.1, hbootstrap.2, hunassigned⟩
  · obtain ⟨hle, hsame⟩ := hsorted before hprevious
    simp only [hlater, true_and, not_not] at hgap hdisconnected hedge
    have hfrom : row.event.fromState = some before.toState := by
      rw [hdisconnected, EventContext.previousToState, hprevious]
      rfl
    rw [edgeIn_approvedEdges hfrom] at hedge
    refine .inr ⟨before, hprevious, ?_, hfrom, hforged, ?_⟩
    · simp [EventContext.sequenceStep, hprevious, relate] at hgap
      omega
    · have happroved : (before.toState, row.event.toState) ∈ approvedEdges := by
        by_contra h
        exact hedge (by rw [decide_eq_false h]; rfl)
      refine (List.mem_append.1 happroved).imp id fun hretry => ?_
      have hholds : holds row.isRetry := by rw [isRetry_eq hfrom, decide_eq_true hretry, holds_some_iff]
      simp only [hholds, true_and, not_not, not_or] at hreason hmetadata hchanged hbudget
      obtain ⟨attemptId, hid⟩ := Option.ne_none_iff_exists'.1 hchanged.1
      obtain ⟨attempt, hmem, rfl⟩ := hforged attemptId hid
      have hpreviousid : before.attemptId = some attempt.attemptId := by
        rw [← hid, hchanged.2.2, EventContext.previousAttemptId, hprevious]
        rfl
      refine ⟨hretry, ⟨attempt, hmem, hid, hpreviousid, ?_⟩, hmetadata, ?_⟩
      · rw [attempt_eq hdistinct hrow.attempt hmem hid] at hbudget
        simpa [relate] using hbudget
      · rw [Bool.not_eq_true', Bool.not_eq_false, EventContext.retryCause, decide_eq_true_eq] at hreason
        exact hreason

end Placing

/-! ## Epochs -/

def InOrder : Option Event → List EventContext → Prop
  | _, [] => True
  | previous, row :: rows =>
    (∀ event, previous = some event → event.toState ∈ terminalStates → holds row.isValidRetry) ∧
      InOrder (some row.event) rows

variable {rows : List EventContext}

theorem mem_of_mem_epochEvents {epoch : ℕ} {item : EventContext × ℕ}
    (h : item ∈ epochEvents epoch rows) : item.1 ∈ rows ∧ epoch ≤ item.2 := by
  induction rows generalizing epoch with
  | nil => cases h
  | cons row rows ih =>
    rw [epochEvents] at h
    rcases List.mem_cons.1 h with rfl | h
    · refine ⟨List.mem_cons_self, ?_⟩
      dsimp only
      split_ifs <;> omega
    · obtain ⟨hmem, hle⟩ := ih h
      refine ⟨List.mem_cons_of_mem _ hmem, le_trans ?_ hle⟩
      split_ifs <;> omega

theorem terminalCountInEpoch_cons (item : EventContext × ℕ) (items : List (EventContext × ℕ)) (epoch : ℕ) :
    terminalCountInEpoch (item :: items) epoch =
      terminalCountInEpoch items epoch + if item.1.isTerminal = true ∧ item.2 = epoch then 1 else 0 := by
  rw [terminalCountInEpoch, List.countP_cons]
  simp [terminalCountInEpoch]

theorem InOrder.terminalCount {previous : Option Event} (h : InOrder previous rows)
    (epoch : ℕ) : (∀ other, terminalCountInEpoch (epochEvents epoch rows) other ≤ 1) ∧
      ((∃ event, previous = some event ∧ event.toState ∈ terminalStates) →
        terminalCountInEpoch (epochEvents epoch rows) epoch = 0) := by
  induction rows generalizing previous epoch with
  | nil => exact ⟨fun _ => by simp [epochEvents, terminalCountInEpoch], fun _ => rfl⟩
  | cons row rows ih =>
    obtain ⟨hvalid, hrest⟩ := h
    rw [epochEvents]
    generalize hnow : (if holds row.isValidRetry then epoch + 1 else epoch) = now
    obtain ⟨hle, hzero⟩ := ih hrest now
    refine ⟨fun other => ?_, ?_⟩
    · rw [terminalCountInEpoch_cons]
      split_ifs with hterminal
      · obtain ⟨hterminal, rfl⟩ := hterminal
        have hmem : row.event.toState ∈ terminalStates := List.contains_iff_mem.1 hterminal
        rw [hzero ⟨row.event, rfl, hmem⟩]
      · exact hle other
    · rintro ⟨event, hprevious, hterminal⟩
      rw [if_pos (hvalid event hprevious hterminal)] at hnow
      subst hnow
      refine List.countP_eq_zero.2 fun item hitem => ?_
      have hepoch : epoch < item.2 := by
        rcases List.mem_cons.1 hitem with rfl | hitem
        · exact Nat.lt_succ_self epoch
        · exact (mem_of_mem_epochEvents hitem).2
      simp [hepoch.ne']

theorem inOrder_lagged {f : (Option Event × Event) × ℕ → EventContext} (hevent : ∀ item, (f item).event = item.1.2)
    {previous : Option Event} {events : List Event} {k : ℕ}
    (hvalid : ∀ item ∈ (lagged previous events).zipIdx k, ∀ event, item.1.1 = some event →
      event.toState ∈ terminalStates → holds (f item).isValidRetry) :
    InOrder previous (((lagged previous events).zipIdx k).map f) := by
  induction events generalizing previous k with
  | nil => trivial
  | cons event events ih =>
    rw [lagged, List.zipIdx_cons, List.map_cons]
    refine ⟨fun other hother hterminal => ?_, ?_⟩
    · exact hvalid _ (by rw [lagged, List.zipIdx_cons]; exact List.mem_cons_self) other hother hterminal
    · rw [hevent]
      refine ih fun item hitem => hvalid item ?_
      rw [lagged, List.zipIdx_cons]
      exact List.mem_cons_of_mem _ hitem

theorem exists_mem_epochEvents {row : EventContext} (hrow : row ∈ rows) (epoch : ℕ) :
    ∃ later, (row, later) ∈ epochEvents epoch rows := by
  induction rows generalizing epoch with
  | nil => cases hrow
  | cons first rows ih =>
    rw [epochEvents]
    rcases List.mem_cons.1 hrow with rfl | hrow
    · exact ⟨_, List.mem_cons_self⟩
    · obtain ⟨later, hmem⟩ := ih hrow _
      exact ⟨later, List.mem_cons_of_mem _ hmem⟩

/-! ## The verdict -/

section

theorem mem_rows {row : EventContext} (hrow : row ∈ (orderedEvents events).map (eventContext job attempts)) :
    RowOf job attempts row ∧ ∃ i, ((row.previous, row.event), i) ∈ (lagged none (events.mergeSort eventsBefore)).zipIdx ∧
      row.sequenceCount = (events.mergeSort eventsBefore).countP
        (fun other => decide (other.sequence = row.event.sequence)) ∧
      row.reverseEventNumber = (events.mergeSort eventsBefore).length - i := by
  obtain ⟨ordered, hordered, rfl⟩ := List.mem_map.1 hrow
  obtain ⟨item, hitem, rfl⟩ := List.mem_map.1 hordered
  refine ⟨⟨rfl, ?_, rfl⟩, item.2, hitem, rfl, rfl⟩
  rcases (mem_zipIdx_lagged.1 hitem).2 with ⟨hzero, hnone⟩ | ⟨j, before, hsucc, -, hsome⟩
  · exact .inl ⟨congrArg (· + 1) hzero, hnone⟩
  · exact .inr ⟨by simp [eventContext, hsucc], before, hsome⟩

theorem PolicyRun.placed (h : PolicyRun job attempts (events.mergeSort eventsBefore)) {row : EventContext}
    (hrow : row ∈ (orderedEvents events).map (eventContext job attempts)) : Placed job attempts row := by
  obtain ⟨hof, i, hitem, hcount, hreverse⟩ := mem_rows hrow
  refine ⟨hof, h.linked hitem, ?_, fun hfinal => h.last _ ?_⟩
  · rw [hcount]
    exact countP_sequence_le h.sequences _
  · have hevent := (mem_zipIdx_lagged.1 hitem).1
    rw [hreverse] at hfinal
    rwa [List.getLast?_eq_getElem?, show (events.mergeSort eventsBefore).length - 1 = i by omega]

theorem jobViolations_eq_nil_iff (hdistinct : (attempts.map (·.attemptId)).Nodup) :
    jobViolations job attempts events = [] ↔ PolicyRun job attempts (events.mergeSort eventsBefore) := by
  rw [jobViolations, List.append_eq_nil_iff, List.flatMap_eq_nil_iff]
  simp only [List.map_eq_nil_iff, List.filter_eq_nil_iff, decide_eq_true_eq]
  constructor
  · rintro ⟨hnonempty, hquiet⟩
    refine policyRun_of_linked (fun hnil => ?_) fun previous event i hitem => ?_
    · have hlength := congrArg List.length hnil
      rw [List.length_mergeSort, List.length_nil, List.length_eq_zero_iff] at hlength
      rw [if_pos hlength] at hnonempty
      cases hnonempty
    · obtain ⟨row, hrow, rfl, rfl, hcount, hreverse⟩ : ∃ row ∈ (orderedEvents events).map (eventContext job attempts),
          row.previous = previous ∧ row.event = event ∧ row.sequenceCount = (events.mergeSort eventsBefore).countP
            (fun other => decide (other.sequence = event.sequence)) ∧
          row.reverseEventNumber = (events.mergeSort eventsBefore).length - i :=
        ⟨_, List.mem_map_of_mem (List.mem_map_of_mem hitem), rfl, rfl, rfl, rfl⟩
      obtain ⟨epoch, hmem⟩ := exists_mem_epochEvents hrow 0
      obtain ⟨hlinked, hfinal⟩ := linked_of_quiet hdistinct (mem_rows hrow).1 (hquiet _ hmem) fun before hbefore =>
        hcount ▸ lag_sorted (hbefore ▸ hitem)
      exact ⟨hlinked, fun hlast => hfinal (by omega)⟩
  · intro h
    have horder : InOrder none ((orderedEvents events).map (eventContext job attempts)) := by
      rw [orderedEvents, List.map_map]
      refine inOrder_lagged (fun _ => rfl) fun item hitem event hprevious hterminal => ?_
      refine isValidRetry_of_terminal hdistinct (h.placed ?_) hprevious hterminal
      rw [orderedEvents, List.map_map]
      exact List.mem_map_of_mem hitem
    refine ⟨if_neg fun hnil => h.nonempty (by rw [hnil, List.mergeSort_nil]), fun item hitem => ?_⟩
    obtain ⟨hmem, -⟩ := mem_of_mem_epochEvents hitem
    have hrow := h.placed hmem
    have hcount := (horder.terminalCount 0).1 item.2
    rcases hrow.linked with ⟨hprevious, hbootstraps⟩ | ⟨before, hprevious, hsequence, hconnects⟩
    · have hnumber : item.1.eventNumber = 1 := by
        rcases hrow.numbered with ⟨hone, -⟩ | ⟨-, _, hsome⟩
        · exact hone
        · cases hsome.symm.trans hprevious
      exact not_holds_of_bootstraps hrow hnumber hprevious hbootstraps _
    · have hnumber : 1 < item.1.eventNumber := by
        rcases hrow.numbered with ⟨-, hnone⟩ | ⟨hlater, -⟩
        · cases hnone.symm.trans hprevious
        · exact hlater
      exact not_holds_of_follows hdistinct hrow hnumber hprevious hsequence hconnects fun _ => hcount

end

/-- The auditor is exact. -/
theorem audit_exact (tables : Tables) (hkeys : (tables.attempts.map (·.attemptId)).Nodup) :
    eventChainViolations tables = [] ↔ ∀ job ∈ tables.jobs,
      PolicyRun job (tables.attemptsOf job.jobId) ((tables.eventsOf job.jobId).mergeSort eventsBefore) := by
  rw [eventChainViolations, List.flatMap_eq_nil_iff]
  refine forall₂_congr fun job _ => jobViolations_eq_nil_iff ?_
  exact hkeys.sublist (List.filter_sublist.map _)

/-- A job is enqueued, claimed by a worker and cancelled by an operator. -/
def auditedCalls : List Call :=
  [.apiEnqueue .tradingJobApi 0 ⟨some "job-1", some snapshotPayload, some snapshotPayloadFingerprint, some "key-1",
      some "operator-1", some "trace-1", some "event-1"⟩ (some 0),
    .workerClaim [] .tradingJobWorker 1 ⟨some "attempt-1", some "worker-1", some "lease-token-0001", some 600,
      some "trace-1", some "event-2"⟩,
    .apiCancel .tradingJobApi 2 ⟨some "job-1", some "operator-1", some "trace-2", some "event-3"⟩]

theorem cancelled_job_passes : let tables := executeAll id .empty auditedCalls
    eventChainViolations tables = [] ∧ tables.events.length = 3 ∧ tables.attempts.length = 1 := by
  intro tables
  have hinv : Inv Chained tables := (inv_empty Chained).executeAll lasting_chained auditedCalls
  refine ⟨(audit_exact tables (by decide +kernel)).2 fun job hjob => ?_, by decide +kernel, by decide +kernel⟩
  obtain ⟨last, hhistory, hstate⟩ := hinv.records job hjob
  exact hhistory.mergeSort_eq.symm ▸ hhistory.policyRun hstate

/-! ## Every run passes the audit -/

/-- The event may follow the one before it by the policy; a retry needs budget and the same attempt. -/
structure AdmittedStep (job : Job) (attempts : List Attempt) (previous event : Event) : Prop where
  connected : event.fromState = some previous.toState
  admitted : ∃ retryAllowed, validateTransition previous.toState event.toState event.reasonCode retryAllowed
      event.traceId = .ok .apply ∧
    (retryAllowed = true → ∃ attempt ∈ attempts, event.attemptId = some attempt.attemptId ∧
      previous.attemptId = some attempt.attemptId ∧ attempt.attemptNumber < job.maxAttempts)
  terminal : previous.toState ∈ terminalStates → validateTransition previous.toState event.toState event.reasonCode
    false event.traceId = .error ⟨"transition requires fixed retry policy approval"⟩

/-- The history of a job is complete, connected, admitted, and ends in the job's state. -/
structure AdmittedHistory (job : Job) (attempts : List Attempt) (events : List Event) : Prop where
  nonempty : events ≠ []
  sequences : events.map (·.sequence) = List.range' 1 events.length
  first : ∀ event ∈ events.head?, event.fromState = none ∧ event.toState = .queued
  steps : events.IsChain (AdmittedStep job attempts)
  last : ∀ event ∈ events.getLast?, event.toState = job.state

section

variable {previous event : Event}

theorem Follows.admitted (h : Follows job.maxAttempts attempts previous event) :
    AdmittedStep job attempts previous event := by
  have hnoop {edge : JobState × JobState} (hedge : edge ∈ ordinaryTransitions ++ retryTransitions) :
      edge.1 ≠ edge.2 := by
    revert edge
    decide
  have hmem : (previous.toState, event.toState) ∈ ordinaryTransitions ++ retryTransitions :=
    List.mem_append.2 (h.edge.imp id (·.edge))
  have hvalidate (retryAllowed : Bool) : validateTransition previous.toState event.toState event.reasonCode retryAllowed
      event.traceId = if (previous.toState, event.toState) ∈ ordinaryTransitions then .ok .apply
        else if (previous.toState, event.toState) ∈ retryTransitions then
          if retryAllowed = true then .ok .apply
          else .error ⟨"transition requires fixed retry policy approval"⟩
        else .error ⟨"transition is not allowed: " ++ previous.toState.value ++ " -> " ++ event.toState.value⟩ := by
    rw [validateTransition, require_of _ h.reasonCode, ok_bind, require_of _ h.traceId, ok_bind,
      if_neg fun hterminal => hnoop hmem hterminal.2.1]
  refine ⟨h.fromState, ?_, fun hterminal => ?_⟩
  · rcases h.edge with hordinary | hretries
    · exact ⟨false, by rw [hvalidate, if_pos hordinary], by simp⟩
    · refine ⟨true, ?_, fun _ => hretries.attempt⟩
      rw [hvalidate, if_neg fun hordinary => not_retry_of_ordinary hordinary hretries.edge, if_pos hretries.edge,
        if_pos rfl]
  · rcases h.edge with hordinary | hretries
    · exact absurd hterminal (not_terminal_of_ordinary hordinary)
    · rw [hvalidate, if_neg fun hordinary => not_retry_of_ordinary hordinary hretries.edge, if_pos hretries.edge]
      rfl

theorem Chained.admitted {r : Record} (h : Chained r) : AdmittedHistory r.job r.attempts r.events := by
  obtain ⟨last, hhistory, hstate⟩ := h
  have hrun := hhistory.policyRun hstate
  exact ⟨hrun.nonempty, hrun.sequences, fun event hevent => ⟨(hrun.first event hevent).1, (hrun.first event hevent).2.1⟩,
    hhistory.steps.1.imp fun _ _ hfollows => hfollows.admitted, hrun.last⟩

end

/-- Whatever is called in whatever order, the auditor finds no violation and every history is admitted. -/
theorem job_plane_passes_its_audit (sha256 : String → String) (calls : List Call) :
    eventChainViolations (executeAll sha256 .empty calls) = [] ∧
      ∀ job ∈ (executeAll sha256 .empty calls).jobs,
        AdmittedHistory job ((executeAll sha256 .empty calls).attemptsOf job.jobId)
          ((executeAll sha256 .empty calls).eventsOf job.jobId) := by
  have hinv : Inv Chained (executeAll sha256 .empty calls) := (inv_empty Chained).executeAll lasting_chained calls
  refine ⟨List.flatMap_eq_nil_iff.2 fun job hjob => ?_, fun job hjob => ?_⟩
  · obtain ⟨last, hhistory, hstate⟩ := hinv.records job hjob
    refine (jobViolations_eq_nil_iff (hinv.distinct job)).2 ?_
    exact hhistory.mergeSort_eq.symm ▸ hhistory.policyRun hstate
  · exact (hinv.records job hjob).admitted

end TradingAgent.JobPlane
