import TradingAgent.JobWorker.TenureSteps

/-! When the worker settles the job that it claimed. -/

namespace TradingAgent.JobWorker

open Interaction Stateful JobPlane

section Rules

variable {claimed : ClaimedJob} {v : Tenure} {started : Bool} {α : Type}

def Stable (I : Tenure → Prop) : Prop := ∀ v, I v → I v.cancelled

variable {I : Tenure → Prop}

theorem wp_ask_bind (hstable : Stable I) (hv : I v) {i : Request} {f : Answer i → Program α}
    {Post : Except WorkerError α → Bool → Tenure → Prop}
    (h : ∀ u, I u → ∀ r, u.replies i r → Wp (tenure claimed) (f r) started Post (u.after i r))
    (hasks : i.concerns claimed := by first | trivial | rfl) :
    Wp (tenure claimed) (ask i >>= f) started Post v := by
  rw [wp_bind_iff]
  refine ⟨hasks, ?_⟩
  rintro r _ ⟨u, hu, hreplies, rfl⟩
  refine h u ?_ r hreplies
  rcases hu with rfl | rfl
  · exact hv
  · exact hstable v hv

/-! ## Finalizations -/

structure Open (v : Tenure) (started : Bool) : Prop where
  settled : v.settled = none
  closing : v.watch.closing = none
  started : v.started = started

theorem watch_cancelled (v : Tenure) : v.cancelled.watch = v.watch ∨
    v.watch.regard = .quiet ∧ v.cancelled.watch = { v.watch with regard := .pending } := by
  simp only [Tenure.cancelled, Watch.recorded]
  split_ifs with h h'
  · exact .inr ⟨h', rfl⟩
  · exact .inl rfl
  · exact .inl rfl

theorem closing_cancelled (v : Tenure) : v.cancelled.watch.closing = v.watch.closing := by
  rcases watch_cancelled v with h | ⟨-, h⟩ <;> rw [h]

theorem watch_cancelled_of_heeded (h : v.watch.regard = .heeded) : v.cancelled.watch = v.watch := by
  rcases watch_cancelled v with hsame | ⟨hquiet, -⟩
  · exact hsame
  · rw [h] at hquiet
    cases hquiet

theorem heeded_of_cancelled (h : v.cancelled.watch.regard = .heeded) :
    v.watch.regard = .heeded ∧ v.cancelled.watch = v.watch := by
  rcases watch_cancelled v with hsame | ⟨-, hpending⟩
  · rw [hsame] at h
    exact ⟨h, hsame⟩
  · rw [hpending] at h
    cases h

theorem Open.cancelled (h : Open v started) : Open v.cancelled started where
  settled := by
    rw [Tenure.cancelled, h.settled]
    rfl
  closing := (closing_cancelled v).trans h.closing
  started := h.started

def Left (v : Tenure) : Prop :=
  ∃ closing, v.watch.closing = some closing ∧ (closing.heeded = false → v.settled = none) ∧
    (closing.heeded = true → ∃ state, v.settled = some state ∧ (closing.cancelled = true → state = .cancelled))

theorem stable_left : Stable Left := by
  rintro v ⟨closing, hclosing, hunheeded, hheeded⟩
  refine ⟨closing, (closing_cancelled v).trans hclosing, fun h => ?_, fun h => ?_⟩
  · rw [Tenure.cancelled, hunheeded h]
    rfl
  · obtain ⟨state, hstate, hcancelled⟩ := hheeded h
    refine ⟨(cancellationTarget state).getD state, by rw [Tenure.cancelled, hstate]; rfl, fun hc => ?_⟩
    rw [hcancelled hc]
    rfl

def Leaves : Except WorkerError Bool → Bool → Tenure → Prop
  | .ok _, _, v => Left v
  | .error _, _, _ => True

theorem wp_report {status : WorkerStatus} {current : Option ClaimedJob} (h : Left v) :
    Wp (tenure claimed) (do
      let _ ← ask (.workerHeartbeat status current)
      pure true : Program Bool) started Leaves v := by
  exact wp_ask_bind stable_left h fun u hu r _ => hu

variable {finalization : Finalization}

/-- A finalization that takes effect exactly when it should leaves the job settled, or as it has to stay. -/
theorem wp_settle (hstable : Stable I) (hv : I v) (hopen : ∀ u, I u → Open u started)
    (hmeets : ∀ u, I u → (u.meets finalization = true ↔
      u.watch.regard = .quiet ∨ u.watch.regard = .heeded ∧ u.watch.unproven = false))
    (hcancelled : ∀ u, I u → u.meets finalization = true → u.watch.regard ≠ .quiet →
      finalization.finalState = .cancelled ∧ finalization.retry = false) :
    Wp (tenure claimed) (settle claimed finalization) started Leaves v := by
  rw [settle]
  refine wp_ask_bind hstable hv fun u hu r hreplies => ?_
  obtain rfl : r = u.meets finalization := hreplies
  refine wp_report ⟨_, rfl, fun hheeded => ?_, fun hheeded => ?_⟩
  · rw [(hopen u hu).closing, Option.getD_none, decide_eq_false_iff_not, ← hmeets u hu] at hheeded
    simp only [Tenure.after, if_neg hheeded]
    exact (hopen u hu).settled
  · rw [(hopen u hu).closing, Option.getD_none, decide_eq_true_eq, ← hmeets u hu] at hheeded
    refine ⟨_, if_pos hheeded, fun hc => ?_⟩
    rw [(hopen u hu).closing, Option.getD_none, decide_eq_true_eq] at hc
    obtain ⟨hfinal, hretry⟩ := hcancelled u hu hheeded hc
    rw [hfinal, hretry]
    rfl

def activeState (started : Bool) : JobState := if started = true then .running else .claimed

def activeOutcome (started : Bool) : AttemptOutcome := if started = true then .running else .claimed

variable (h : Open v started)
include h

theorem meets_active_iff (hstate : finalization.expectedState = activeState started)
    (houtcome : finalization.expectedAttemptOutcome = activeOutcome started) :
    v.meets finalization = true ↔ v.watch.regard = .quiet := by
  rw [meets_iff, h.settled, Tenure.state_unsettled h.settled, Tenure.outcome, h.started, hstate, houtcome, activeState,
    activeOutcome]
  cases started <;> by_cases hquiet : v.watch.regard = .quiet <;> simp [hquiet]

theorem meets_cancelled_iff (hstate : finalization.expectedState = .cancelRequested)
    (houtcome : finalization.expectedAttemptOutcome = activeOutcome started) :
    v.meets finalization = true ↔ v.watch.regard ≠ .quiet := by
  rw [meets_iff, h.settled, Tenure.state_unsettled h.settled, Tenure.outcome, h.started, hstate, houtcome, activeOutcome]
  cases started <;> by_cases hquiet : v.watch.regard = .quiet <;> simp [hquiet]

theorem wp_settle_active (hunheeded : v.watch.regard = .heeded → v.watch.unproven = true)
    (hstate : finalization.expectedState = activeState started)
    (houtcome : finalization.expectedAttemptOutcome = activeOutcome started) :
    Wp (tenure claimed) (settle claimed finalization) started Leaves v := by
  have hstable : Stable fun u => Open u started ∧ (u.watch.regard = .heeded → u.watch.unproven = true) := by
    rintro u ⟨hopen, hu⟩
    refine ⟨hopen.cancelled, fun hheeded => ?_⟩
    obtain ⟨hregard, hsame⟩ := heeded_of_cancelled hheeded
    rw [hsame]
    exact hu hregard
  refine wp_settle hstable ⟨h, hunheeded⟩ (fun u hu => hu.1) (fun u hu => ?_) fun u hu hmeets hne => ?_
  · rw [meets_active_iff hu.1 hstate houtcome]
    constructor
    · exact .inl
    · rintro (hquiet | ⟨hheeded, hproven⟩)
      · exact hquiet
      · rw [hu.2 hheeded] at hproven
        cases hproven
  · exact absurd ((meets_active_iff hu.1 hstate houtcome).1 hmeets) hne

theorem wp_settle_cancelled (hheeded : v.watch.regard = .heeded) (hproven : v.watch.unproven = false) :
    Wp (tenure claimed) (settle claimed ⟨.cancelRequested, activeOutcome started, .cancelled, "CANCELLED", false⟩) started
      Leaves v := by
  have hstable : Stable fun u => Open u started ∧ u.watch.regard = .heeded ∧ u.watch.unproven = false := by
    rintro u ⟨hopen, hu, hproven⟩
    rw [watch_cancelled_of_heeded hu]
    exact ⟨hopen.cancelled, hu, hproven⟩
  refine wp_settle hstable ⟨h, hheeded, hproven⟩ (fun u hu => hu.1) (fun u hu => ?_) fun _ _ _ _ => ⟨rfl, rfl⟩
  rw [meets_cancelled_iff hu.1 rfl rfl, hu.2.1, hu.2.2]
  decide

end Rules

/-! ## The runner -/

section

variable {claimed : ClaimedJob} {v : Tenure} {started : Bool} {s s' : Supervision}

structure Calm (v : Tenure) : Prop where
  regard : v.watch.regard = .quiet ∨ v.watch.regard = .pending
  faulted : v.watch.faulted = false
  unproven : v.watch.unproven = false

structure Troubled (reason : TerminationReason) (started : Bool) (v : Tenure) : Prop where
  not_cancelled : reason ≠ .cancelled
  not_stale : reason ≠ .staleLease
  timeout : reason = .timeout → started = true
  unheeded : v.watch.regard ≠ .heeded

structure Accounted (s : Supervision) (started : Bool) (v : Tenure) : Prop where
  opened : Open v started
  proven : s.cleanupProven = !v.watch.unproven
  calm : s.reason = none → Calm v
  reason : ∀ reason, s.reason = some reason →
    reason = .cancelled ∧ v.watch.regard = .heeded ∨ Troubled reason started v

structure Supervised (s : Supervision) (started : Bool) (v : Tenure) : Prop extends Accounted s started v where
  seen : s.reason = none ∨ s.reason = some .cancelled ∨ v.watch.faulted = true ∨ v.watch.unproven = true

theorem Calm.cancelled (h : Calm v) : Calm v.cancelled := by
  rcases watch_cancelled v with hsame | ⟨-, hpending⟩
  · exact ⟨hsame ▸ h.regard, hsame ▸ h.faulted, hsame ▸ h.unproven⟩
  · refine ⟨.inr ?_, ?_, ?_⟩ <;> rw [hpending]
    · exact h.faulted
    · exact h.unproven

theorem Calm.read (h : Calm v) (hregard : v.watch.regard ≠ .quiet) :
    v.watch.read = { v.watch with regard := .heeded } := by
  simp [Watch.read, h.regard.resolve_left hregard, h.faulted, h.unproven]

theorem Calm.unheeded (h : Calm v) : v.watch.regard ≠ .heeded := by
  rcases h.regard with h | h <;> rw [h] <;> decide

variable {reason : TerminationReason}

theorem Troubled.cancelled (h : Troubled reason started v) : Troubled reason started v.cancelled :=
  ⟨h.not_cancelled, h.not_stale, h.timeout, fun hheeded => h.unheeded (heeded_of_cancelled hheeded).1⟩

theorem flags_cancelled (v : Tenure) :
    v.cancelled.watch.faulted = v.watch.faulted ∧ v.cancelled.watch.unproven = v.watch.unproven := by
  rcases watch_cancelled v with hsame | ⟨-, hpending⟩
  · rw [hsame]
    exact ⟨rfl, rfl⟩
  · rw [hpending]
    exact ⟨rfl, rfl⟩

theorem Accounted.cancelled (h : Accounted s started v) : Accounted s started v.cancelled := by
  refine ⟨h.opened.cancelled, h.proven.trans (by rw [(flags_cancelled v).2]), fun hnone => (h.calm hnone).cancelled,
    fun reason hreason => ?_⟩
  rcases h.reason reason hreason with ⟨hcancelled, hheeded⟩ | htroubled
  · refine .inl ⟨hcancelled, ?_⟩
    rw [watch_cancelled_of_heeded hheeded]
    exact hheeded
  · exact .inr htroubled.cancelled

theorem Supervised.cancelled (h : Supervised s started v) : Supervised s started v.cancelled := by
  refine ⟨h.toAccounted.cancelled, ?_⟩
  rw [(flags_cancelled v).1, (flags_cancelled v).2]
  exact h.seen

theorem Accounted.trouble (h : Accounted s started v) {watch : Watch}
    (hreason : s'.reason = some (s.reason.getD reason)) (hproven : s'.cleanupProven = !watch.unproven)
    (hnot : reason ≠ .cancelled ∧ reason ≠ .staleLease)
    (htimeout : s.reason = none → reason = .timeout → started = true)
    (hregard : watch.regard = v.watch.regard) (hclosing : watch.closing = v.watch.closing) :
    Accounted s' started { v with watch := watch } := by
  refine ⟨⟨h.opened.settled, hclosing.trans h.opened.closing, h.opened.started⟩, hproven, fun hnone => ?_,
    fun reason' hreason' => ?_⟩
  · rw [hreason] at hnone
    cases hnone
  · rw [hreason] at hreason'
    obtain rfl := Option.some.inj hreason'
    cases hold : s.reason with
    | none => exact .inr ⟨hnot.1, hnot.2, htimeout hold, hregard.trans_ne (h.calm hold).unheeded⟩
    | some old =>
      rcases h.reason old hold with ⟨hcancelled, hheeded⟩ | htroubled
      · exact .inl ⟨hcancelled, hregard.trans hheeded⟩
      · exact .inr ⟨htroubled.not_cancelled, htroubled.not_stale, htroubled.timeout, hregard.trans_ne htroubled.unheeded⟩

variable (h : Supervised s started v)
include h

theorem Supervised.unproven : Supervised s.unproven started { v with watch := v.watch.unprovenIf true } :=
  ⟨h.trouble rfl (by simp [Supervision.unproven, Watch.unprovenIf]) (by decide) (fun _ h => by cases h) rfl rfl,
    .inr (.inr (.inr (by simp [Watch.unprovenIf])))⟩

theorem Supervised.drifts (reasonCode : String) :
    Supervised (s.decide (.safetyDrift reasonCode)) started { v with watch := v.watch.faultIf true } := by
  have hreason : (s.decide (.safetyDrift reasonCode)).reason = some (s.reason.getD .safetyDrift) := by
    rw [Supervision.decide]
    split_ifs with hnone
    · rfl
    · obtain ⟨reason, hreason⟩ := Option.ne_none_iff_exists'.1 hnone
      rw [hreason]
      rfl
  refine ⟨h.trouble hreason ?_ (by decide) (fun _ h => by cases h) rfl rfl, .inr (.inr (.inl (by simp [Watch.faultIf])))⟩
  rw [Supervision.decide]
  split_ifs <;> exact h.proven

theorem Supervised.times_out (hstarted : s.reason = none → started = true) :
    Supervised (s.because .timeout) started { v with watch := v.watch.faultIf true } :=
  ⟨h.trouble rfl h.proven (by decide) (fun hnone _ => hstarted hnone) rfl rfl,
    .inr (.inr (.inl (by simp [Watch.faultIf])))⟩

theorem Supervised.reads (hregard : v.watch.regard ≠ .quiet) :
    Supervised (s.because .cancelled) started { v with watch := v.watch.read } := by
  have hopen : Open { v with watch := v.watch.read } started := by
    refine ⟨h.opened.settled, ?_, h.opened.started⟩
    simp only [Watch.read]
    split_ifs <;> exact h.opened.closing
  have hflags : v.watch.read.unproven = v.watch.unproven ∧ v.watch.read.faulted = v.watch.faulted := by
    simp only [Watch.read]
    split_ifs <;> exact ⟨rfl, rfl⟩
  refine ⟨⟨hopen, h.proven.trans (by rw [hflags.1]), fun hnone => (Option.some_ne_none _ hnone).elim,
    fun reason hreason => ?_⟩, ?_⟩
  · obtain rfl := Option.some.inj hreason
    cases hold : s.reason with
    | none =>
      obtain ⟨hpending, hfaulted, hunproven⟩ := h.calm hold
      have hpending := hpending.resolve_left hregard
      refine .inl ⟨rfl, ?_⟩
      simp [Watch.read, hpending, hfaulted, hunproven]
    | some old =>
      rcases h.reason old hold with ⟨hcancelled, hheeded⟩ | htroubled
      · exact .inl ⟨hcancelled, by simp [Watch.read, hheeded]⟩
      · refine .inr ⟨htroubled.not_cancelled, htroubled.not_stale, htroubled.timeout, ?_⟩
        have hwhy : v.watch.faulted = true ∨ v.watch.unproven = true := by
          refine (h.seen.resolve_left (by simp [hold])).resolve_left fun hcancelled => ?_
          exact htroubled.not_cancelled (Option.some.inj (hold.symm.trans hcancelled))
        rw [Watch.read, if_pos hwhy]
        split_ifs
        · simp
        · exact htroubled.unheeded
  · rw [hflags.1, hflags.2]
    rcases h.seen with hnone | hcancelled | hflag
    · exact .inr (.inl (by simp [Supervision.because, hnone]))
    · exact .inr (.inl (by simp [Supervision.because, hcancelled]))
    · exact .inr (.inr hflag)

omit h

theorem Tenure.read_of_quiet (h : v.watch.regard = .quiet) : ({ v with watch := v.watch.read } : Tenure) = v := by
  rw [Watch.read, h, if_neg (by decide)]

theorem Tenure.control_of_open (h : Open v started) :
    v.control started = if v.watch.regard = .quiet then .continue else .cancel := by
  rw [Tenure.control, h.settled, h.started]
  simp

def Beats (s : Supervision) : Except WorkerError HeartbeatDecision → Bool → Tenure → Prop
  | .ok decision, started, v =>
    Supervised (s.decide decision) started v ∧ (started = true ∨ decision ≠ .continue)
  | .error e, _, _ => e = .raised

theorem stable_supervised (s : Supervision) (started : Bool) : Stable (Supervised s started) :=
  fun _ h => h.cancelled

theorem wp_leaseControl (h : Supervised s true v) : Wp (tenure claimed) (leaseControl claimed) true (Beats s) v := by
  rw [leaseControl]
  refine wp_ask_bind (stable_supervised s true) h fun u hu r hreplies => ?_
  obtain rfl : r = u.control true := hreplies
  rw [Tenure.control_of_open hu.opened]
  by_cases hquiet : u.watch.regard = .quiet
  · rw [if_pos hquiet]
    refine ⟨?_, .inl rfl⟩
    have hsame : u.after (.heartbeatControl claimed) .continue = u := Tenure.read_of_quiet hquiet
    rw [hsame]
    exact hu
  · rw [if_neg hquiet]
    exact ⟨hu.reads hquiet, .inl rfl⟩

variable {I : Tenure → Prop}

theorem wp_safetyPreflight (hstable : Stable I) (hv : I v) {Post : Except WorkerError Unit → Bool → Tenure → Prop}
    (hok : ∀ u, I u → Post (.ok ()) started { u with watch := u.watch.faultIf false })
    (hrefused : ∀ u refusal, I u →
      Post (.error (Refusal.error refusal)) started { u with watch := u.watch.faultIf true }) :
    Wp (tenure claimed) safetyPreflight started Post v := by
  rw [safetyPreflight]
  refine wp_ask_bind hstable hv fun u hu r _ => ?_
  rcases r with refusal | _
  · exact hrefused u refusal hu
  · exact hok u hu

theorem wp_unlessBlocked_safetyPreflight (hstable : Stable I) (hv : I v)
    {Post : Except WorkerError (Except String Unit) → Bool → Tenure → Prop}
    (hok : ∀ u, I u → Post (.ok (.ok ())) started { u with watch := u.watch.faultIf false })
    (hblocked : ∀ u reasonCode, I u →
      Post (.ok (.error reasonCode)) started { u with watch := u.watch.faultIf true })
    (hraised : ∀ u, Post (.error .raised) started u) :
    Wp (tenure claimed) (unlessBlocked safetyPreflight) started Post v := by
  rw [unlessBlocked, wp_handle_iff, wp_bind_iff]
  refine wp_safetyPreflight hstable hv hok fun u refusal hu => ?_
  cases refusal with
  | blocked reasonCode => exact hblocked u reasonCode hu
  | raised => exact hraised _

theorem faultIf_false (v : Tenure) : ({ v with watch := v.watch.faultIf false } : Tenure) = v := by
  rw [Watch.faultIf, Bool.or_false]

theorem unprovenIf_false (v : Tenure) : ({ v with watch := v.watch.unprovenIf false } : Tenure) = v := by
  rw [Watch.unprovenIf, Bool.or_false]

theorem wp_heartbeat (h : Supervised s started v) : Wp (tenure claimed) (heartbeat claimed) started (Beats s) v := by
  rw [heartbeat, wp_bind_iff]
  refine wp_unlessBlocked_safetyPreflight (stable_supervised s started) h (fun u hu => ?_) (fun u reasonCode hu => ?_)
    fun u => rfl
  · rw [faultIf_false, continue_ok, wp_bind_iff, wp_read_iff, continue_ok]
    cases started with
    | true => exact wp_leaseControl hu
    | false =>
      rw [if_neg (by decide)]
      refine wp_ask_bind (stable_supervised s false) hu fun w hw r hreplies => ?_
      obtain rfl : r = w.starts := hreplies
      by_cases hquiet : w.watch.regard = .quiet
      · have hstarts : w.starts = true := decide_eq_true ⟨hw.opened.settled, hw.opened.started, hquiet⟩
        rw [hstarts, if_pos rfl, wp_bind_iff, wp_update_iff, continue_ok]
        have hopen : Open (w.after (.startAttempt claimed) true) true :=
          ⟨hw.opened.settled, hw.opened.closing, by simp [Tenure.after]⟩
        refine wp_leaseControl ⟨⟨hopen, hw.proven, fun hnone => ?_, fun reason hreason => ?_⟩, hw.seen⟩
        · exact ⟨(hw.calm hnone).regard, (hw.calm hnone).faulted, (hw.calm hnone).unproven⟩
        · refine (hw.reason reason hreason).imp id fun htroubled => ?_
          exact ⟨htroubled.not_cancelled, htroubled.not_stale, fun _ => rfl, htroubled.unheeded⟩
      · have hstarts : w.starts = false := decide_eq_false fun h => hquiet h.2.2
        have hsame : w.after (.startAttempt claimed) false = w := by
          simp [Tenure.after]
        rw [hstarts, if_neg Bool.false_ne_true, wp_bind_iff, hsame]
        have hstable : Stable fun u => Supervised s false u ∧ u.watch.regard ≠ .quiet := by
          rintro u ⟨hu, hne⟩
          refine ⟨hu.cancelled, ?_⟩
          rcases watch_cancelled u with hsame | ⟨hquiet, -⟩
          · rwa [hsame]
          · exact absurd hquiet hne
        refine wp_ask_bind hstable ⟨hw, hquiet⟩ fun x hx r hreplies => ?_
        obtain rfl : r = x.control false := hreplies
        rw [Tenure.control_of_open hx.1.opened, if_neg hx.2]
        exact ⟨hx.1.reads hx.2, .inr (by simp)⟩
  · exact ⟨hu.drifts (sanitized reasonCode), .inr (by simp)⟩

def Turns : Except WorkerError Supervision → Bool → Tenure → Prop
  | .ok s, started, v => Supervised s started v ∧ (started = true ∨ s.reason ≠ none)
  | .error e, _, _ => e = .raised

theorem decide_ne_none {decision : HeartbeatDecision} (h : decision ≠ .continue) : (s.decide decision).reason ≠ none := by
  cases decision with
  | «continue» => exact absurd rfl h
  | cancel => exact Option.some_ne_none _
  | staleLease => exact Option.some_ne_none _
  | safetyDrift reasonCode =>
    rw [Supervision.decide]
    split_ifs with hnone
    · exact Option.some_ne_none _
    · exact hnone

theorem Supervised.active (h : Supervised s started v) (active : Bool) :
    Supervised { s with cleanupActive := active } started v := ⟨⟨h.opened, h.proven, h.calm, h.reason⟩, h.seen⟩

theorem wp_cleanup (h : Supervised s started v) (hstill : started = true ∨ s.reason ≠ none) :
    Wp (tenure claimed) (cleanup s) started Turns v := by
  unfold cleanup
  split_ifs
  · refine wp_ask_bind (stable_supervised s started) h fun u hu uncertain _ => ?_
    have hafter : u.after .cleanupStep uncertain = { u with watch := u.watch.unprovenIf uncertain } := rfl
    rw [hafter]
    cases uncertain with
    | false =>
      rw [unprovenIf_false, if_neg Bool.false_ne_true]
      exact ⟨hu, hstill⟩
    | true => exact ⟨hu.unproven, .inr (Option.some_ne_none _)⟩
  · exact ⟨h, hstill⟩

theorem wp_turn (h : Supervised s started v) : Wp (tenure claimed) (turn claimed s) started Turns v := by
  rw [turn]
  refine wp_ask_bind (stable_supervised s started) h fun u hu poll _ => ?_
  -- The checks before the heartbeat may fail.
  have hpolled : Supervised (if poll.failed = true then s.unproven else s) started (u.after .poll poll) := by
    have hafter : u.after .poll poll = { u with watch := u.watch.unprovenIf poll.failed } := rfl
    rw [hafter]
    cases poll.failed with
    | false =>
      rw [unprovenIf_false]
      exact hu
    | true => exact hu.unproven
  rw [wp_bind_iff]
  refine (wp_heartbeat hpolled).mono fun outcome started w hbeats => ?_
  rcases outcome with e | decision
  · exact hbeats
  obtain ⟨hw, hstarted⟩ := hbeats
  refine wp_ask_bind (stable_supervised _ started) hw fun x hx timedOut _ => ?_
  -- Without a reason the attempt has started, so that a timeout finds it running.
  generalize (if poll.failed = true then s.unproven else s) = polled at hx hstarted ⊢
  have hrunning : (polled.decide decision).reason = none → started = true :=
    fun hnone => hstarted.resolve_right fun hne => decide_ne_none hne hnone
  obtain ⟨timed, htimed, hstill, hsupervised⟩ : ∃ timed, timed =
      (if timedOut = true then (polled.decide decision).because .timeout else polled.decide decision) ∧
        (started = true ∨ timed.reason ≠ none) ∧ Supervised timed started (x.after .timedOut timedOut) := by
    refine ⟨_, rfl, ?_, ?_⟩
    · cases timedOut with
      | false => exact or_iff_not_imp_right.2 fun h => hrunning (not_not.1 h)
      | true => exact .inr (Option.some_ne_none _)
    · have hafter : x.after .timedOut timedOut = { x with watch := x.watch.faultIf timedOut } := rfl
      rw [hafter]
      cases timedOut with
      | false =>
        rw [faultIf_false]
        exact hx
      | true => exact hx.times_out hrunning
  simp only [← htimed]
  exact wp_cleanup (hsupervised.active _) hstill

theorem wp_turns (n : ℕ) (h : Supervised s started v) : Wp (tenure claimed) (turns claimed n s) started
    (fun outcome started v => match outcome with
      | .ok s => Supervised s started v
      | .error e => e = .raised) v := by
  induction n generalizing s started v with
  | zero => exact h
  | succ n ih =>
    rw [turns, wp_bind_iff]
    refine (wp_turn h).mono fun outcome started w hturn => ?_
    rcases outcome with e | s'
    · exact hturn
    · exact ih hturn.1

def Ran : Except WorkerError ProcessOutcome → Bool → Tenure → Prop
  | .ok outcome, started, v =>
    Open v started ∧ (outcome.terminationReason = none → Calm v ∧ started = true) ∧
      ∀ reason, outcome.terminationReason = some reason →
        reason = .cancelled ∧ v.watch.regard = .heeded ∧ v.watch.unproven = false ∨
          reason ≠ .cancelled ∧ reason ≠ .staleLease ∧ (reason = .timeout → started = true) ∧
            (v.watch.regard = .heeded → v.watch.unproven = true)
  | .error (.blocked _), started, v => started = false ∧ Open v false ∧ v.watch.regard ≠ .heeded
  | .error _, _, _ => True

theorem Supervised.ended (h : Supervised s started v) (hstarted : started = true ∨ s.reason ≠ none) (drain : Drain) :
    Accounted (s.ended drain) started { v with watch := v.watch.unprovenIf (decide (drain = .unproven)) } ∧
      (started = true ∨ (s.ended drain).reason ≠ none) := by
  cases drain with
  | drained =>
    refine ⟨?_, hstarted⟩
    rw [decide_eq_false (by decide), unprovenIf_false]
    exact h.toAccounted
  | truncated =>
    refine ⟨?_, .inr (Option.some_ne_none _)⟩
    rw [decide_eq_false (by decide), unprovenIf_false]
    exact h.toAccounted.trouble rfl h.proven (by decide) (fun _ h => by cases h) rfl rfl
  | unproven => exact ⟨h.unproven.toAccounted, .inr (Option.some_ne_none _)⟩

theorem Accounted.ran (h : Accounted s started v) (hstarted : started = true ∨ s.reason ≠ none) (faults : Bool)
    (exitCode : Option ℤ) : Ran (.ok ⟨exitCode, s.finalReason faults, s.safetyReasonCode⟩) started
      { v with watch := v.watch.unprovenIf faults } := by
  refine ⟨⟨h.opened.settled, h.opened.closing, h.opened.started⟩, fun hnone => ?_, fun reason hreason => ?_⟩
  · simp only [Supervision.finalReason] at hnone
    split_ifs at hnone with hfaults
    obtain ⟨-, hfaults⟩ := not_or.1 hfaults
    have hcalm := h.calm hnone
    exact ⟨⟨hcalm.regard, hcalm.faulted, by simpa [Watch.unprovenIf, hfaults] using hcalm.unproven⟩,
      hstarted.resolve_right (not_not.2 hnone)⟩
  · simp only [Supervision.finalReason] at hreason
    split_ifs at hreason with hfaults
    · obtain rfl := Option.some.inj hreason
      refine .inr ⟨by decide, by decide, (fun h => by cases h), fun _ => ?_⟩
      rcases hfaults with hunproven | hfaults
      · rw [h.proven, Bool.not_eq_false'] at hunproven
        simp [Watch.unprovenIf, hunproven]
      · simp [Watch.unprovenIf, hfaults]
    · obtain ⟨hproven, hfaults⟩ := not_or.1 hfaults
      have hunproven : v.watch.unproven = false := by
        rwa [h.proven, Bool.not_eq_false', Bool.not_eq_true] at hproven
      rcases h.reason reason hreason with ⟨hcancelled, hheeded⟩ | htroubled
      · exact .inl ⟨hcancelled, hheeded, by simpa [Watch.unprovenIf, hunproven] using hfaults⟩
      · exact .inr ⟨htroubled.not_cancelled, htroubled.not_stale, htroubled.timeout,
          fun hheeded => absurd hheeded htroubled.unheeded⟩

/-- The job was claimed and nothing has happened since. -/
structure Fresh (v : Tenure) : Prop extends Open v false, Calm v

theorem stable_fresh : Stable Fresh := fun _ h => ⟨h.toOpen.cancelled, h.toCalm.cancelled⟩

theorem ran_of_refused (h : Fresh v) (refusal : Refusal) (faulted : Bool) :
    Ran (.error refusal.error) false { v with watch := v.watch.faultIf faulted } := by
  cases refusal with
  | blocked reasonCode => exact ⟨rfl, ⟨h.settled, h.closing, h.started⟩, h.toCalm.unheeded⟩
  | raised => trivial

theorem wp_run (h : Fresh v) : Wp (tenure claimed) (run claimed) false Ran v := by
  rw [run, wp_bind_iff]
  refine wp_safetyPreflight stable_fresh h (fun u hu => ?_) fun u refusal hu => ran_of_refused hu refusal true
  rw [faultIf_false, continue_ok]
  refine wp_ask_bind stable_fresh hu fun w hw prepared _ => ?_
  rw [wp_bind_iff, wp_check_iff]
  have hafter : w.after (.prepareSpawn claimed) prepared = w := rfl
  rw [hafter]
  rcases prepared with refusal | _
  · have hran := ran_of_refused hw refusal false
    rwa [faultIf_false] at hran
  rw [Except.mapError, continue_ok, wp_bind_iff]
  refine wp_safetyPreflight stable_fresh hw (fun x hx => ?_) fun x refusal hx => ran_of_refused hx refusal true
  rw [faultIf_false, continue_ok]
  refine wp_ask_bind stable_fresh hx fun y hy spawned _ => ?_
  rw [wp_bind_iff, wp_check_iff]
  rcases spawned with _ | more
  · trivial
  rw [Option.elim, continue_ok, wp_bind_iff]
  have hstart : Supervised .start false (y.after .popen (some more)) :=
    ⟨⟨hy.toOpen, by rw [show (y.after .popen (some more)).watch = y.watch from rfl, hy.unproven]; rfl,
      fun _ => hy.toCalm, fun reason hreason => by cases hreason⟩, .inl rfl⟩
  refine (wp_turns more hstart).mono fun outcome started z hz => ?_
  rcases outcome with e | s
  · rw [hz]
    trivial
  rw [continue_ok, wp_bind_iff]
  refine (wp_turn hz).mono fun outcome started z hz => ?_
  rcases outcome with e | s
  · have he : e = .raised := hz
    rw [he]
    trivial
  obtain ⟨hsupervised, hstarted⟩ := hz
  refine wp_ask_bind (stable_supervised s started) hsupervised fun a ha drain _ => ?_
  obtain ⟨hended, hstarted⟩ := ha.ended hstarted drain
  refine wp_ask_bind (fun _ h => h.cancelled) hended fun b hb reaped _ => ?_
  exact hb.ran hstarted reaped.1 reaped.2

end

/-! ## The validation -/

section

variable {worker : Worker} {claimed : ClaimedJob} {v : Tenure}

structure Steady (v : Tenure) : Prop extends Open v true, Calm v

theorem stable_steady : Stable Steady := fun _ h => ⟨h.toOpen.cancelled, h.toCalm.cancelled⟩

def Validated : Except WorkerError Unit → Bool → Tenure → Prop
  | .ok (), started, v => started = true ∧ Steady v
  | .error .validationCancelled, started, v =>
    started = true ∧ Open v true ∧ v.watch.regard = .heeded ∧ v.watch.unproven = false
  | .error .validationStale, _, _ => False
  | .error (.validationSafetyDrift _), started, v => started = true ∧ Open v true ∧ v.watch.regard ≠ .heeded
  | .error (.resultValidation _), started, v => started = true ∧ Open v true ∧ v.watch.regard ≠ .heeded
  | .error _, _, _ => True

theorem wp_validationProgress (h : Steady v) : Wp (tenure claimed) (validationProgress claimed) true Validated v := by
  rw [validationProgress, wp_bind_iff]
  refine wp_unlessBlocked_safetyPreflight stable_steady h (fun u hu => ?_) (fun u reasonCode hu => ?_) fun u => trivial
  · rw [faultIf_false, continue_ok]
    refine wp_ask_bind stable_steady hu fun w hw r hreplies => ?_
    obtain rfl : r = w.control true := hreplies
    rw [Tenure.control_of_open hw.toOpen]
    by_cases hquiet : w.watch.regard = .quiet
    · have hsame : w.after (.heartbeatControl claimed) .continue = w := Tenure.read_of_quiet hquiet
      rw [if_pos hquiet, hsame]
      exact ⟨rfl, hw⟩
    · rw [if_neg hquiet]
      have hafter : w.after (.heartbeatControl claimed) .cancel = { w with watch := w.watch.read } := rfl
      rw [hafter, hw.toCalm.read hquiet]
      exact ⟨rfl, ⟨hw.settled, hw.closing, hw.started⟩, rfl, hw.unproven⟩
  · exact ⟨rfl, ⟨hu.settled, hu.closing, hu.started⟩, hu.toCalm.unheeded⟩

variable {x : Program Unit}

theorem wp_validated {f : Unit → Program Unit} (hx : Wp (tenure claimed) x true Validated v)
    (hf : ∀ u, Steady u → Wp (tenure claimed) (f ()) true Validated u) :
    Wp (tenure claimed) (x >>= f) true Validated v := by
  rw [wp_bind_iff]
  refine hx.mono fun outcome started u hu => ?_
  rcases outcome with e | _
  · exact hu
  · obtain ⟨rfl, hsteady⟩ := hu
    exact hf u hsteady

theorem wp_progressTimes (n : ℕ) (h : Steady v) : Wp (tenure claimed) (progressTimes claimed n) true Validated v := by
  induction n generalizing v with
  | zero => exact ⟨rfl, h⟩
  | succ n ih => exact wp_validated (wp_validationProgress h) fun u hu => ih hu

theorem wp_validation (h : Steady v) (exitCode : Option ℤ) :
    Wp (tenure claimed) (validation worker claimed exitCode) true Validated v := by
  refine wp_validated (wp_validationProgress h) fun u hu => ?_
  refine wp_ask_bind stable_steady hu fun w hw verdict _ => ?_
  refine wp_validated (wp_progressTimes verdict.1 hw) fun x hx => ?_
  refine wp_validated ?_ fun y hy => ?_
  · cases verdict.2 with
    | valid => exact ⟨rfl, hx⟩
    | invalid reconciliationRequired => exact ⟨rfl, hx.toOpen, hx.toCalm.unheeded⟩
    | raised => trivial
  split_ifs
  · refine wp_validated (wp_validationProgress hy) fun z hz => ?_
    refine wp_ask_bind stable_steady hz fun a ha ingested _ => ?_
    cases ingested with
    | false => exact ⟨rfl, ha.toOpen, ha.toCalm.unheeded⟩
    | true => exact wp_validationProgress ha
  · exact wp_validationProgress hy

structure Judged (verdict : Except WorkerError Unit) (started : Bool) (v : Tenure) : Prop where
  validated : Validated verdict started v
  not_raised : verdict ≠ .error .raised
  not_blocked : ∀ reasonCode, verdict ≠ .error (.blocked reasonCode)

theorem wp_judged (hx : Wp (tenure claimed) x true Validated v) : Wp (tenure claimed) (judged x) true
      (fun outcome started u => ∀ verdict, outcome = .ok verdict → Judged verdict started u) v := by
  rw [judged, wp_handle_iff, wp_bind_iff]
  refine hx.mono fun outcome started u hu => ?_
  rcases outcome with e | _
  · cases e with
    | blocked | raised => exact fun verdict h => nomatch h
    | validationCancelled | validationStale | validationSafetyDrift | resultValidation =>
      rintro verdict h
      obtain rfl := Except.ok.inj h
      exact ⟨hu, by simp, by simp⟩
  · rintro verdict h
    obtain rfl := Except.ok.inj h
    exact ⟨hu, by simp, by simp⟩

end

/-! ## The worker -/

section

variable {worker : Worker} {claimed : ClaimedJob} {v : Tenure} {started : Bool}

theorem wp_settleResult {verdict : Except WorkerError Unit} (h : Judged verdict started v) :
    Wp (tenure claimed) (settleResult claimed verdict) started Leaves v := by
  obtain ⟨h, hraised, hblocked⟩ := h
  rcases verdict with e | _
  · cases e with
    | validationCancelled =>
      obtain ⟨rfl, hopen, hheeded, hproven⟩ := h
      exact wp_settle_cancelled hopen hheeded hproven
    | validationStale => exact h.elim
    | validationSafetyDrift reasonCode =>
      obtain ⟨rfl, hopen, hunheeded⟩ := h
      exact wp_settle_active hopen (fun hheeded => absurd hheeded hunheeded) rfl rfl
    | resultValidation reconciliationRequired =>
      obtain ⟨rfl, hopen, hunheeded⟩ := h
      cases reconciliationRequired <;>
        exact wp_settle_active hopen (fun hheeded => absurd hheeded hunheeded) rfl rfl
    | blocked reasonCode => exact absurd rfl (hblocked reasonCode)
    | raised => exact absurd rfl hraised
  · obtain ⟨rfl, hsteady⟩ := h
    exact wp_settle_active hsteady.toOpen (fun hheeded => absurd hheeded hsteady.toCalm.unheeded) rfl rfl

theorem wp_terminate {outcome : ProcessOutcome} (h : Ran (.ok outcome) started v) {reason : TerminationReason}
    (hreason : outcome.terminationReason = some reason) :
    Wp (tenure claimed) (settle claimed (terminationOf started reason outcome.safetyReasonCode)) started Leaves v := by
  obtain ⟨hopen, -, hreasons⟩ := h
  rcases hreasons reason hreason with ⟨rfl, hheeded, hproven⟩ | ⟨hcancelled, -, htimeout, hunheeded⟩
  · exact wp_settle_cancelled hopen hheeded hproven
  · cases reason with
    | cancelled => exact absurd rfl hcancelled
    | timeout =>
      rw [htimeout rfl] at hopen ⊢
      exact wp_settle_active hopen hunheeded rfl rfl
    | safetyDrift | staleLease | outputDrainTruncated | processGroupCleanupUnproven =>
      exact wp_settle_active hopen hunheeded rfl rfl

theorem wp_execution (h : Fresh v) : Wp (tenure claimed) (execution worker claimed) false Leaves v := by
  rw [execution, wp_bind_iff, unlessBlocked, wp_handle_iff, wp_bind_iff]
  refine (wp_run h).mono fun outcome started u hran => ?_
  rcases outcome with e | outcome
  · cases e with
    | blocked reasonCode =>
      obtain ⟨rfl, hopen, hunheeded⟩ := hran
      exact wp_settle_active hopen (fun hheeded => absurd hheeded hunheeded) rfl rfl
    | raised | validationCancelled | validationStale | validationSafetyDrift | resultValidation => trivial
  · rw [continue_ok, wp_pure_iff, recover_ok, continue_ok]
    obtain ⟨exitCode, terminationReason, safetyReasonCode⟩ := outcome
    cases terminationReason with
    | none =>
      obtain ⟨hopen, hnone, -⟩ := hran
      obtain ⟨hcalm, rfl⟩ := hnone rfl
      dsimp only
      rw [wp_bind_iff]
      refine (wp_judged (wp_validation ⟨hopen, hcalm⟩ exitCode)).mono fun verdict started w hw => ?_
      rcases verdict with e | verdict
      · trivial
      · exact wp_settleResult (hw verdict rfl)
    | some reason =>
      cases reason with
      | staleLease =>
        rcases hran.2.2 _ rfl with ⟨h, -⟩ | ⟨-, hstale, -⟩
        · cases h
        · exact absurd rfl hstale
      | cancelled | safetyDrift | timeout | outputDrainTruncated | processGroupCleanupUnproven =>
        exact wp_terminate hran rfl

theorem wp_work (h : Fresh v) : Wp (tenure claimed) (work worker claimed) false Leaves v := by
  rw [work, wp_bind_iff]
  refine wp_unlessBlocked_safetyPreflight stable_fresh h (fun u hu => ?_) (fun u reasonCode hu => ?_) fun u => trivial
  · rw [faultIf_false, continue_ok]
    refine wp_ask_bind stable_fresh hu fun w hw r hreplies => ?_
    obtain rfl : r = w.control false := hreplies
    rw [Tenure.control_of_open hw.toOpen]
    by_cases hquiet : w.watch.regard = .quiet
    · have hsame : w.after (.preSpawnControl claimed) .continue = w := Tenure.read_of_quiet hquiet
      rw [if_pos hquiet, hsame]
      simp only
      split_ifs
      · exact wp_settle_active hw.toOpen (fun hheeded => absurd hheeded hw.toCalm.unheeded) rfl rfl
      · exact wp_execution hw
    · have hafter : w.after (.preSpawnControl claimed) .cancel = { w with watch := w.watch.read } := rfl
      rw [if_neg hquiet, hafter, hw.toCalm.read hquiet]
      have hopen : Open { w with watch := { w.watch with regard := .heeded } } false :=
        ⟨hw.settled, hw.closing, hw.started⟩
      exact wp_settle_cancelled hopen rfl hw.unproven
  · have hopen : Open { u with watch := u.watch.faultIf true } false := ⟨hu.settled, hu.closing, hu.started⟩
    exact wp_settle_active hopen (fun hheeded => absurd hheeded hu.toCalm.unheeded) rfl rfl

end

/-! ## Whole calls -/

/-- A cancellation of the job had been recorded before the worker's finalizing call. -/
def CancelledFirst (claimed : ClaimedJob) (timeline : List Happening) : Prop :=
  ∃ closing, (watched claimed.jobId timeline).closing = some closing ∧ closing.cancelled = true

/-- No cancellation of the job had been recorded before the finalizing call, or one was heeded. -/
def Heeds (claimed : ClaimedJob) (timeline : List Happening) : Prop :=
  ∃ closing, (watched claimed.jobId timeline).closing = some closing ∧ closing.heeded = true

/-- The job is no longer leased, and not as if a cancellation recorded in time had not been. -/
def Settles (claimed : ClaimedJob) (timeline : List Happening) (final : Tables) : Prop :=
  ∃ job, final.job? claimed.jobId = some job ∧ ¬ Active job.state ∧
    (CancelledFirst claimed timeline → job.state = .cancelled ∨ job.state = .blocked)

section

variable {sha256 : String → String} {worker : Worker} {claimed : ClaimedJob} {tables final : Tables}
  {w : Tables × Watch}

theorem inv_cancels {u : Tables × Watch} (hinv : Inv Leased w.1)
    (hcancels : Relation.ReflTransGen (CancelStep claimed) w u) : Inv Leased u.1 := by
  induction hcancels with
  | refl => exact hinv
  | tail _ hstep ih =>
    obtain ⟨now, p, result, hcall, -⟩ := hstep
    exact ih.advance lasting_leased (apiCancelSnapshot_ok ih.keyed hcall)

variable {w' : Tables × Watch}

theorem inv_elsewhere {i : Request} {r : Answer i} (hinv : Inv Leased w.1)
    (helsewhere : i.elsewhere = true) (h : Surroundings sha256 worker claimed w i r w') : Inv Leased w'.1 := by
  obtain ⟨u, hcancels, hserves, -⟩ := h
  have hsame : w'.1 = u.1 := by
    obtain ⟨after, watch⟩ := w'
    cases hserves with
    | elsewhere => rfl
    | claimNext | preSpawnControl | heartbeatControl | startAttempt | finalize => cases helsewhere
  rw [hsame]
  exact inv_cancels hinv hcancels

theorem agrees_claim (hinv : Inv Leased w.1) (h : Surroundings sha256 worker claimed w .claimNext (some claimed) w') :
    Agrees claimed w' ⟨false, .start, none⟩ := by
  obtain ⟨⟨before, watch⟩, hcancels, hserves, hwatch⟩ := h
  obtain ⟨after, watch'⟩ := w'
  refine ⟨?_, hwatch⟩
  have hinv' := inv_cancels hinv hcancels
  generalize hanswer : (some claimed : Answer .claimNext) = answer at hserves
  cases hserves with
  | @claimNext now locked attemptId leaseToken traceId eventId row after hcall =>
    obtain ⟨row, rfl, rfl⟩ := Option.map_eq_some_iff.1 hanswer.symm
    exact holds_claim hinv' hcall
  | elsewhere _ helsewhere => cases helsewhere

end

section Runs

variable {sha256 : String → String} {worker : Worker} {claimed : ClaimedJob} {tables final : Tables}
  {trace : Trace Answer}

theorem runs_safetyPreflight {s s' : Bool} {outcome : Except WorkerError Unit}
    (h : Runs safetyPreflight s trace outcome s') : ∃ r, trace = [⟨.safetyPreflight, r⟩] ∧ s' = s := by
  rw [safetyPreflight, runs_ask_bind_iff] at h
  obtain ⟨r, rest, h, rfl⟩ := h
  obtain ⟨rfl, -, rfl⟩ := runs_check_iff.1 h
  exact ⟨r, rfl, rfl⟩

variable {started : Bool}

theorem runs_runOnce (h : Runs (runOnce worker) false trace (.ok true) started) :
    ∃ r claimed rest, trace = ⟨.safetyPreflight, r⟩ :: ⟨.workerHeartbeat .idle none, ()⟩ ::
        ⟨.claimNext, some claimed⟩ :: ⟨.workerHeartbeat .busy (some claimed), ()⟩ :: rest ∧
      Runs (work worker claimed) false rest (.ok true) started := by
  rw [runOnce, runs_bind_iff] at h
  obtain ⟨e, -, h⟩ | ⟨_, mid, first, rest, hpreflight, h, rfl⟩ := h
  · cases h
  obtain ⟨r, rfl, rfl⟩ := runs_safetyPreflight hpreflight
  rw [runs_ask_bind_iff] at h
  obtain ⟨_, rest, h, rfl⟩ := h
  rw [runs_ask_bind_iff] at h
  obtain ⟨row, rest, h, rfl⟩ := h
  cases row with
  | none =>
    dsimp only at h
    rw [runs_ask_bind_iff] at h
    obtain ⟨_, rest, h, rfl⟩ := h
    cases (runs_pure_iff.1 h).2.1
  | some claimed =>
    dsimp only at h
    rw [runs_ask_bind_iff] at h
    obtain ⟨_, rest, h, rfl⟩ := h
    exact ⟨r, claimed, rest, rfl, h⟩

theorem Wp.sound_along {x : Program Bool} {v : Tenure} {w w' : Tables × Watch}
    (hwp : Wp (tenure claimed) x false Leaves v) (hagrees : Agrees claimed w v)
    (hrun : Runs x false trace (.ok true) started)
    (halong : Along (Surroundings sha256 worker claimed) w trace w') : ∃ v', Left v' ∧ Agrees claimed w' v' :=
  hwp.sound holds_simulates hagrees hrun halong

variable {timeline : List Happening}

theorem mem_of_requests {i : Request} {r : Answer i} (h : ⟨i, r⟩ ∈ requests timeline) :
    Happening.request i r ∈ timeline := by
  obtain ⟨happening, hmem, hsome⟩ := List.mem_filterMap.1 h
  cases happening with
  | cancel => cases hsome
  | request i' r' =>
    obtain ⟨rfl, hr⟩ := Sigma.mk.inj (Option.some.inj hsome)
    rw [eq_of_heq hr] at hmem
    exact hmem

theorem left_of_runs (hinv : Inv Leased tables) (hplayed : Played sha256 worker tables timeline final)
    (hrun : Runs (runOnce worker) false (requests timeline) (.ok true) started) :
    ∃ claimed, Happening.request .claimNext (some claimed) ∈ timeline ∧
      ∃ v, Left v ∧ Agrees claimed (final, watched claimed.jobId timeline) v := by
  obtain ⟨r, claimed, rest, htrace, hwork⟩ := runs_runOnce hrun
  refine ⟨claimed, mem_of_requests (by rw [htrace]; simp), ?_⟩
  obtain ⟨u, halong, hcancels⟩ : ∃ u, Along (Surroundings sha256 worker claimed) (tables, .start) (requests timeline) u ∧
      _ := hplayed.along .start
  rw [htrace] at halong
  cases halong with | cons hpreflight halong => cases halong with | cons hidle halong => cases halong with
  | cons hclaim halong => cases halong with | cons hbusy halong =>
  have hagrees := agrees_claim (inv_elsewhere (inv_elsewhere hinv rfl hpreflight) rfl hidle) hclaim
  have hasks : (tenure claimed).asks ⟨false, .start, none⟩ (.workerHeartbeat .busy (some claimed)) := trivial
  obtain ⟨v, hv, hagrees⟩ := holds_simulates _ _ _ _ _ hagrees hasks hbusy
  have hfresh : Fresh v := by
    obtain ⟨x, hx, -, rfl⟩ := hv
    have hstart : Fresh ⟨false, .start, none⟩ := ⟨⟨rfl, rfl, rfl⟩, .inl rfl, rfl, rfl⟩
    have hcancelled := stable_fresh _ hstart
    rcases hx with rfl | rfl
    · exact hstart
    · exact hcancelled
  obtain ⟨v', hleft, hagrees⟩ := Wp.sound_along (wp_work hfresh) hagrees hwork halong
  obtain ⟨v'', hv'', hagrees⟩ := hagrees.cancels hcancels
  refine ⟨v'', ?_, hagrees⟩
  rcases hv'' with rfl | rfl
  · exact hleft
  · exact stable_left _ hleft

/-- A worker that returns has settled its job exactly when it heeded a cancellation recorded in time. -/
theorem worker_settles_iff (calls : List Call) {timeline : List Happening} {started : Bool}
    (hplayed : Played sha256 worker (executeAll sha256 .empty calls) timeline final)
    (hrun : Runs (runOnce worker) false (requests timeline) (.ok true) started) :
    ∃ claimed, Happening.request .claimNext (some claimed) ∈ timeline ∧
      (Settles claimed timeline final ↔ Heeds claimed timeline) := by
  have hinv : Inv Leased (executeAll sha256 .empty calls) := (inv_empty Leased).executeAll lasting_leased calls
  obtain ⟨claimed, hclaim, v, ⟨closing, hclosing, hunheeded, hheeded⟩, hholds, hwatch⟩ := left_of_runs hinv hplayed hrun
  refine ⟨claimed, hclaim, ?_⟩
  obtain ⟨job, hjob, -, hstate, -⟩ := hholds.job
  have hwatched : (watched claimed.jobId timeline).closing = some closing := by
    rw [show watched claimed.jobId timeline = v.watch from hwatch, hclosing]
  have hclosing {closing' : Closing} (h : (watched claimed.jobId timeline).closing = some closing') :
      closing' = closing := Option.some.inj (h.symm.trans hwatched)
  constructor
  · rintro ⟨job', hjob', hinactive, -⟩
    obtain rfl := Option.some.inj (hjob.symm.trans hjob')
    refine ⟨closing, hwatched, ?_⟩
    by_contra hnot
    refine hinactive ?_
    rw [hstate, Tenure.state_unsettled (hunheeded (Bool.eq_false_iff.2 hnot))]
    split_ifs <;> decide
  · rintro ⟨_, hsome, htrue⟩
    obtain rfl := hclosing hsome
    obtain ⟨state, hsettled, hcancelled⟩ := hheeded htrue
    have hsame : job.state = state := by
      rw [hstate, Tenure.state, hsettled]
      rfl
    refine ⟨job, hjob, ?_, ?_⟩
    · rw [hsame]
      exact hholds.inactive state hsettled
    · rintro ⟨_, hsome, hfirst⟩
      obtain rfl := hclosing hsome
      exact .inl (hsame.trans (hcancelled hfirst))

end Runs

section Samples

def sampleWorker : Worker := ⟨"worker-1", fun _ => false, false⟩

def sampleClaim : ClaimedJob :=
  ⟨"job-1", .snapshot, snapshotPayload, "attempt-1", 1, "worker-1", "lease-token-0001", TimeDelta.seconds 600, 2⟩

def sampleCancel : CancelArguments := ⟨some "job-1", some "operator-1", some "trace-2", some "event-3"⟩

def sampleBlock : Finalization := ⟨.claimed, .claimed, .blocked, "SAFETY_STATE_STALE", false⟩

def sampleCancellation : Finalization := ⟨.cancelRequested, .claimed, .cancelled, "CANCELLED", false⟩

def sampleFinalize (finalization : Finalization) : FinalizeArguments where
  lease := sampleClaim.lease
  expectedState := some finalization.expectedState
  expectedAttemptOutcome := some finalization.expectedAttemptOutcome
  finalState := some finalization.finalState
  reasonCode := some finalization.reasonCode
  traceId := some "trace-1"
  eventId := some "event-4"
  exitCode := none
  terminationReason := none
  resultHash := none
  resultMetadata := some .empty
  errorCode := some finalization.reasonCode
  errorMessage := none
  retry := some finalization.retry
  retryEventId := none
  eventMetadata := some .empty

def sampleCalls : List Call :=
  [.apiEnqueue .tradingJobApi 0 ⟨some "job-1", some snapshotPayload, some snapshotPayloadFingerprint, some "key-1",
      some "operator-1", some "trace-1", some "event-1"⟩ (some 0),
    .workerClaim [] .tradingJobWorker 0 ⟨some "attempt-1", some "worker-1", some "lease-token-0001",
      some workerLeaseSeconds, some "trace-1", some "event-2"⟩,
    .apiCancel .tradingJobApi 1 sampleCancel,
    .workerControl .tradingJobWorker 2 sampleClaim.lease (some workerLeaseSeconds) (some .preSpawn),
    .workerFinalize .tradingJobWorker 3 (sampleFinalize sampleCancellation)]

def sampleTables (n : ℕ) : Tables := executeAll id .empty (sampleCalls.take n)

def strandedTimeline : List Happening :=
  [.request .safetyPreflight (.ok ()), .request (.workerHeartbeat .idle none) (),
    .request .claimNext (some sampleClaim), .request (.workerHeartbeat .busy (some sampleClaim)) (),
    .cancel 1 sampleCancel (some (.cancelRequested, true)),
    .request .safetyPreflight (.error (.blocked "SAFETY_STATE_STALE")),
    .request (.finalize sampleClaim sampleBlock) false,
    .request (.workerHeartbeat .unhealthy (some sampleClaim)) ()]

def heededTimeline : List Happening :=
  [.request .safetyPreflight (.ok ()), .request (.workerHeartbeat .idle none) (),
    .request .claimNext (some sampleClaim), .request (.workerHeartbeat .busy (some sampleClaim)) (),
    .cancel 1 sampleCancel (some (.cancelRequested, true)), .request .safetyPreflight (.ok ()),
    .request (.preSpawnControl sampleClaim) .cancel, .request (.finalize sampleClaim sampleCancellation) true,
    .request (.workerHeartbeat .idle none) ()]

theorem runs_stranded : Runs (runOnce sampleWorker) false (requests strandedTimeline) (.ok true) false :=
  .call _ (.call _ (.call _ (.call _ (.call _ (.call _ (.call _ (.ret _)))))))

theorem runs_heeded : Runs (runOnce sampleWorker) false (requests heededTimeline) (.ok true) false :=
  .call _ (.call _ (.call _ (.call _ (.call _ (.call _ (.call _ (.call _ (.ret _))))))))

theorem unexpired_sample {n : ℕ} {now : DateTime}
    (h : ∀ job ∈ (sampleTables n).jobs, ¬ ThreeValued.holds (leaseExpired now job)) :
    Unexpired sampleClaim now (sampleTables n) := fun job hjob => h job (Tables.job?_eq_some hjob).1

theorem played_claim {timeline : List Happening} {final : Tables}
    (h : Played id sampleWorker (sampleTables 3) timeline final) : Played id sampleWorker (sampleTables 1)
      (.request .safetyPreflight (.ok ()) :: .request (.workerHeartbeat .idle none) () ::
        .request .claimNext (some sampleClaim) :: .request (.workerHeartbeat .busy (some sampleClaim)) () ::
        .cancel 1 sampleCancel (some (.cancelRequested, true)) :: timeline) final := by
  refine .request (.elsewhere _ rfl) (.request (.elsewhere _ rfl) ?_)
  have hclaim : workerClaimSnapshot id [] .tradingJobWorker 0 ⟨some "attempt-1", some sampleWorker.workerId,
      some "lease-token-0001", some workerLeaseSeconds, some "trace-1", some "event-2"⟩ (sampleTables 1) =
      .ok (some ⟨"job-1", .snapshot, snapshotPayload, 1, 2, TimeDelta.seconds 600⟩, sampleTables 2) := by
    decide +kernel
  have hcancel : apiCancelSnapshot .tradingJobApi 1 sampleCancel (sampleTables 2) =
      .ok (some (.cancelRequested, true), sampleTables 3) := by
    decide +kernel
  exact .request (.claimNext hclaim) (.request (.elsewhere _ rfl) (.cancel hcancel h))

theorem played_stranded : Played id sampleWorker (sampleTables 1) strandedTimeline (sampleTables 3) := by
  have hfinalize : workerFinalizeSnapshot .tradingJobWorker 3 (sampleFinalize sampleBlock) (sampleTables 3) =
      .ok (false, sampleTables 3) := by
    decide +kernel
  have hunexpired : Unexpired sampleClaim 3 (sampleTables 3) := unexpired_sample (by decide +kernel)
  refine played_claim (.request (.elsewhere _ rfl) (.request (.finalize hunexpired ?_ hfinalize)
    (.request (.elsewhere _ rfl) (.done _))))
  exact ⟨rfl, rfl, rfl, rfl, rfl, rfl⟩

theorem played_heeded : Played id sampleWorker (sampleTables 1) heededTimeline (sampleTables 5) := by
  have hcontrol : workerControlSnapshotLease .tradingJobWorker 2 sampleClaim.lease (some workerLeaseSeconds)
      (some .preSpawn) (sampleTables 3) = .ok (.cancel, sampleTables 4) := by
    decide +kernel
  have hfinalize : workerFinalizeSnapshot .tradingJobWorker 3 (sampleFinalize sampleCancellation) (sampleTables 4) =
      .ok (true, sampleTables 5) := by
    decide +kernel
  have hunexpired : Unexpired sampleClaim 2 (sampleTables 3) := unexpired_sample (by decide +kernel)
  have hstill : Unexpired sampleClaim 3 (sampleTables 4) := unexpired_sample (by decide +kernel)
  refine played_claim (.request (.elsewhere _ rfl) (.request (.preSpawnControl hunexpired hcontrol)
    (.request (.finalize hstill ?_ hfinalize) (.request (.elsewhere _ rfl) (.done _)))))
  exact ⟨rfl, rfl, rfl, rfl, rfl, rfl⟩

end Samples

theorem worker_settles_heeded : ∃ claimed, Happening.request .claimNext (some claimed) ∈ heededTimeline ∧
    (Settles claimed heededTimeline (sampleTables 5) ↔ Heeds claimed heededTimeline) :=
  worker_settles_iff (sampleCalls.take 1) played_heeded runs_heeded

/-- A cancellation recorded before a preflight blocks leaves the job to be cancelled, with nobody working on it. -/
theorem worker_strands_job : ∃ timeline final started,
    Played id sampleWorker (executeAll id .empty (sampleCalls.take 1)) timeline final ∧
      Runs (runOnce sampleWorker) false (requests timeline) (.ok true) started ∧
      Happening.request .claimNext (some sampleClaim) ∈ timeline ∧ ¬ Settles sampleClaim timeline final := by
  refine ⟨strandedTimeline, sampleTables 3, false, played_stranded, runs_stranded,
    List.mem_cons_of_mem _ (List.mem_cons_of_mem _ (List.mem_cons_self ..)), ?_⟩
  rintro ⟨job, hjob, hinactive, -⟩
  have hactive : ((sampleTables 3).job? sampleClaim.jobId).map (·.state) = some .cancelRequested := by
    decide +kernel
  rw [hjob] at hactive
  have hstate : job.state = .cancelRequested := Option.some.inj hactive
  rw [hstate] at hinactive
  exact hinactive (by decide)

end TradingAgent.JobWorker
