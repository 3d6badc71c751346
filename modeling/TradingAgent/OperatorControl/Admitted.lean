import TradingAgent.OperatorControl.RunTruth
import TradingAgent.OperatorControl.SourceReaders

/-! Which admitted commands are carried out. -/

namespace TradingAgent.OperatorControl

open Outcome Transaction Transaction.Tx
open SafetySources (parseSentinel parseKillSwitch)
open SecurityMaster (Sha256Text)
open Nautilus (instantText)

variable (sha256 : ByteArray → Sha256Text) (call : ExecuteCall) (w : World) (plan : OperatorMutationPlan)

/-- The policy admits a call with the plan; its key is unused, its evidence does not change, the files are absent or
readable, and nothing else interferes. -/
structure Admitted : Prop where
  undisturbed : call.Undisturbed
  decided : (call.acceptedAt : ℤ) ≤ call.decidedAt ∧ (call.decidedAt : ℤ) ≤ call.appliedAt
  evidence : call.fresh = call.safety
  unused : load sha256 w.root (call.key sha256) = .ok noRecords
  unburied : w.root.tombstones (call.key sha256) = none
  mode : ∃ raw, readPrivateFile maxModeBytes w.root.mode = .ok raw
  killSwitch : ∃ raw, readPrivateFile maxKillSwitchBytes w.root.killSwitch = .ok raw
  plan : ∃ safety, safetyFor call = .ok safety ∧
    decideCall sha256 call call.actor (readState sha256 w.root) call.acceptedAt safety = .ok plan

/-- The state shows what the command asked for. -/
def Shows (state : OperatorSourceState) : OperatorCommand → Prop
  | .setRequestedMode desired => modeValue state.requestedMode = desired.value
  | .activateKillSwitch _ => state.killSwitchState = .active
  | .clearKillSwitch => state.killSwitchState = .inactive

/-- The execution returns a receipt with the outcome of the plan, the records are read back, and the state shows
it. -/
structure CarriedOut : Prop where
  valid : IntentValid (makeIntent sha256 call plan)
  sentinel : ∀ raw, plan.desiredKillSwitchBytes = some raw → raw.size ≤ maxKillSwitchBytes ∧
    ∃ reason : Reason, call.request.command = .activateKillSwitch reason ∧
      parseSentinel raw = some (call.acceptedAt, reason.1)
  returned : ∃ writes applied receipt, execute sha256 call w = (writes, .ok ⟨receipt, false⟩) ∧
    receipt.outcomeCode = plan.outcomeCode ∧
    load sha256 (last w writes).root (call.key sha256) =
      .ok ⟨some (makeIntent sha256 call plan), some applied, some receipt⟩ ∧
    Shows (readState sha256 (last w writes).root) call.request.command

/-- An active switch is not activated, and the evidence for a clearing is less than six seconds old when it is read
again. -/
def Feasible : Prop :=
  match call.request.command with
  | .setRequestedMode _ => True
  | .activateKillSwitch _ => (readState sha256 w.root).killSwitchState ≠ .active
  | .clearKillSwitch => ∀ evidence, call.safety = .ok evidence →
    (call.decidedAt : ℤ) - evidence.observedAt < safetyEvidenceMaxAge

variable {sha256 call w plan} {intent : CommandIntent} {raw : ByteArray} {found : Option ByteArray} {reason : Reason}

theorem killSwitch_of_read {root : DataRoot} (h : readPrivateFile maxKillSwitchBytes root.killSwitch = .ok found) :
    (readState sha256 root).killSwitchState = (parseKillSwitch found).1 ∧
      (readState sha256 root).killSwitchFileSha256 = found.map sha256 := by
  simp [readState, sourcePayload, h]

theorem readPrivateFile_activation (acceptedAt : Instant) (reason : Reason) :
    readPrivateFile maxKillSwitchBytes (.regular (sentinelBytes (instantText acceptedAt) reason)) =
      .ok (some (sentinelBytes (instantText acceptedAt) reason)) :=
  if_neg (not_lt.2 (size_activation acceptedAt reason))

theorem activateKillSwitch_ok (htype : intent.commandType = .setKillSwitch)
    (hdesired : intent.desiredState = .killSwitchActive) (hbinds : BindsSentinel sha256 intent raw)
    (hfile : intent.desiredFileSha256 = some (sha256 raw))
    (hprior : (readState sha256 w.root).stateSha256 = intent.priorStateSha256)
    (habsent : readPrivateFile maxKillSwitchBytes w.root.killSwitch = .ok none) (hsize : raw.size ≤ maxKillSwitchBytes) :
    activateKillSwitch sha256 intent raw w = ([w.operated intent.idempotencyKeySha256 (.createKillSwitch raw)],
      .ok (readState sha256 (w.operated intent.idempotencyKeySha256 (.createKillSwitch raw)).root)) := by
  have hstate : (readState sha256 w.root).killSwitchState = .inactive := (killSwitch_of_read habsent).1
  have htarget : checkTarget sha256 maxKillSwitchBytes w.root.killSwitch raw none = .ok () := by
    unfold checkTarget
    rw [require_of _ hsize, habsent]
    rfl
  unfold activateKillSwitch
  rw [bind_readRoot (f := fun root => .ok (readState sha256 root)) rfl,
    bind_check ⟨htype, hdesired, hbinds, hfile, hprior, hstate⟩,
    bind_readRoot (f := fun root => checkTarget sha256 maxKillSwitchBytes root.killSwitch raw none) htarget]
  rfl

theorem clearKillSwitch_ok (htype : intent.commandType = .setKillSwitch)
    (hdesired : intent.desiredState = .killSwitchInactive) (hfile : intent.desiredFileSha256 = some (sha256 raw))
    (hprior : (readState sha256 w.root).stateSha256 = intent.priorStateSha256)
    (hfound : readPrivateFile maxKillSwitchBytes w.root.killSwitch = .ok (some raw))
    (hactive : (readState sha256 w.root).killSwitchState = .active)
    (hunburied : w.root.tombstones intent.idempotencyKeySha256 = none) : clearKillSwitch sha256 intent w =
      ([w.operated intent.idempotencyKeySha256 (.buryKillSwitch raw)],
        .ok (readState sha256 (w.operated intent.idempotencyKeySha256 (.buryKillSwitch raw)).root, sha256 raw)) := by
  have hdigest : (readState sha256 w.root).killSwitchFileSha256 = some (sha256 raw) := (killSwitch_of_read hfound).2
  have hrename : checkRename sha256 w.root intent.idempotencyKeySha256 (sha256 raw) = .ok raw := by
    unfold checkRename
    exact bind_ok_iff.2 ⟨_, hfound, bind_ok_iff.2 ⟨(), require_ok_iff.2 rfl,
      bind_ok_iff.2 ⟨(), require_ok_iff.2 hunburied, rfl⟩⟩⟩
  unfold clearKillSwitch
  rw [bind_readRoot (f := fun root => .ok (readState sha256 root)) rfl]
  simp only [hdigest]
  rw [bind_check ⟨htype, hdesired, hprior, hactive, hfile⟩,
    bind_readRoot (f := fun root => checkRename sha256 root intent.idempotencyKeySha256 (sha256 raw)) hrename]
  rfl

/-- Only the age of the evidence depends on the reading of the clock. -/
theorem decideClearing_again {current : OperatorSourceState} {acceptedAt later : Instant}
    {evidence : OperatorSafetyEvidence}
    (h : decideClearing sha256 call.actor call.request current acceptedAt (some evidence) = .ok plan)
    (hsafe : ClearsSafely evidence later) :
    decideClearing sha256 call.actor call.request current later (some evidence) = .ok plan := by
  unfold decideClearing at h ⊢
  simp only [bind_ok_iff, require_ok_iff, exists_const] at h ⊢
  obtain ⟨hcli, hrequired, u, hexpected, hknown, hactive, hdigest, -, hplan⟩ := h
  exact ⟨hcli, hrequired, u, hexpected, hknown, hactive, hdigest, hsafe, hplan⟩

section

variable (h : Admitted sha256 call w plan)
include h

/-- Where the intent is valid and its change succeeds, the command is carried out. -/
theorem Admitted.carriedOut {writes : List World} {resulting : OperatorSourceState} {kind : ApplicationKind}
    {tombstone : Option Sha256Text} (hvalid : IntentValid (makeIntent sha256 call plan))
    (hsentinel : ∀ raw, plan.desiredKillSwitchBytes = some raw → raw.size ≤ maxKillSwitchBytes ∧
      ∃ reason : Reason, call.request.command = .activateKillSwitch reason ∧
        parseSentinel raw = some (call.acceptedAt, reason.1))
    (hrecheck : recheckSafety sha256 call (makeIntent sha256 call plan) (readState sha256 w.root) = .ok ())
    (hprior : plan.priorStateSha256 = (readState sha256 w.root).stateSha256)
    (hmutate : mutate sha256 (makeIntent sha256 call plan) plan (readState sha256 w.root)
      (w.journaled sha256 call plan) = (writes, .ok (resulting, kind, tombstone)))
    (hkept : load sha256 (last (w.journaled sha256 call plan) writes).root (call.key sha256) =
      load sha256 (w.journaled sha256 call plan).root (call.key sha256))
    (hallowed : kind ∈ allowedKinds (makeIntent sha256 call plan).desiredState)
    (hburied : tombstone ≠ none ↔ (makeIntent sha256 call plan).desiredState = .killSwitchInactive)
    (hcode : expectedCode (makeIntent sha256 call plan) kind = some plan.outcomeCode)
    (hshows : Shows (readState sha256 (last (w.journaled sha256 call plan) writes).root) call.request.command) :
    CarriedOut sha256 call w plan := by
  obtain ⟨safety, hsafety, hplan⟩ := h.plan
  obtain ⟨hstored, hexecute⟩ := execute_started h.undisturbed h.unused hsafety hplan hvalid
  obtain ⟨applied, rfl, hfinal, happly⟩ := apply_ok (w := w.journaled sha256 call plan) h.undisturbed hrecheck
    hprior.symm hmutate (hkept.trans hstored) h.undisturbed.applied hallowed hburied false
  rw [happly] at hexecute
  have hlast : ∀ a b : World, last w (w.journaled sha256 call plan :: (writes ++ [a, b])) = b :=
    fun a b => last_append w (w.journaled sha256 call plan :: writes) [a, b]
  refine ⟨hvalid, hsentinel, _, applied, _, hexecute, ?_, ?_, ?_⟩
  · obtain ⟨_, _, _, _, hrelations⟩ := load_ok_iff.1 hfinal
    obtain ⟨_, _, hreceipt⟩ := ((validateRelations_ok_iff.1 hrelations).2.2 _ rfl).2 applied rfl
    exact Option.some.inj ((hreceipt _ rfl).2.2.symm.trans hcode)
  · rw [hlast]
    exact hfinal
  · rw [hlast]
    exact hshows

theorem Admitted.carriedOut_mode {desired : RequestedMode} (hcommand : call.request.command = .setRequestedMode desired) :
    CarriedOut sha256 call w plan := by
  obtain ⟨safety, -, hplan⟩ := h.plan
  obtain ⟨found, hfound⟩ := h.mode
  rw [decideCall_ok_iff, decideOperatorCommand, hcommand] at hplan
  have htype : (makeIntent sha256 call plan).commandType = .setRequestedMode :=
    congrArg OperatorCommand.commandType hcommand
  have hdesired : (makeIntent sha256 call plan).desiredState = .paper := congrArg journalDesiredState hcommand
  have hburied : (none : Option Sha256Text) ≠ none ↔ (makeIntent sha256 call plan).desiredState = .killSwitchInactive := by
    simp [hdesired]
  obtain ⟨-, rfl, ⟨hpaper, ⟨digest, hdigest⟩, rfl⟩ | ⟨-, heq⟩⟩ := decideMode_ok hplan
  · refine h.carriedOut ⟨.inl ⟨htype, hdesired, rfl, rfl⟩, ?_⟩ (fun _ hraw => by cases hraw) rfl rfl rfl rfl
      (by rw [hdesired]; decide) hburied (by unfold expectedCode; rw [hdesired]; rfl) ?_
    · show Option.orElse _ _ ≠ none
      rw [hdigest]
      exact Option.some_ne_none _
    · rw [hcommand]
      exact congrArg modeValue hpaper
  · have hset := applyMode_ok (w := w.journaled sha256 call plan) htype hdesired
      (congrArg OperatorMutationPlan.desiredFileSha256 heq) (congrArg OperatorMutationPlan.priorStateSha256 heq).symm hfound
    subst heq
    refine h.carriedOut ⟨.inl ⟨htype, hdesired, rfl, rfl⟩, Option.some_ne_none _⟩ (fun _ hraw => by cases hraw) rfl rfl
      (bind_of_ok hset) rfl (by rw [hdesired]; decide) hburied (by unfold expectedCode; rw [hdesired]; rfl) ?_
    rw [hcommand]
    rfl

theorem Admitted.carriedOut_activation (hcommand : call.request.command = .activateKillSwitch reason)
    (hfeasible : (readState sha256 w.root).killSwitchState ≠ .active) : CarriedOut sha256 call w plan := by
  obtain ⟨safety, -, hplan⟩ := h.plan
  obtain ⟨found, hfound⟩ := h.killSwitch
  rw [decideCall_ok_iff, decideOperatorCommand, hcommand] at hplan
  obtain ⟨hactive, -⟩ | ⟨hinactive, heq⟩ := decideActivation_ok hplan
  · exact absurd hactive hfeasible
  obtain rfl : found = none := by
    cases found with
    | none => rfl
    | some raw =>
      rw [(killSwitch_of_read hfound).1] at hinactive
      exact absurd hinactive (never_inactive raw).1
  have htype : (makeIntent sha256 call plan).commandType = .setKillSwitch :=
    congrArg OperatorCommand.commandType hcommand
  have hdesired : (makeIntent sha256 call plan).desiredState = .killSwitchActive :=
    congrArg journalDesiredState hcommand
  have hparse := parseSentinel_activation call.acceptedAt reason
  have hset := activateKillSwitch_ok (w := w.journaled sha256 call plan) htype hdesired
    ⟨_, _, hparse, rfl, congrArg OperatorMutationPlan.reasonSha256 heq⟩
    (congrArg OperatorMutationPlan.desiredFileSha256 heq) (congrArg OperatorMutationPlan.priorStateSha256 heq).symm
    hfound (size_activation call.acceptedAt reason)
  subst heq
  refine h.carriedOut ⟨.inr (.inl ⟨htype, hdesired, Option.some_ne_none _, rfl⟩), Option.some_ne_none _⟩ ?_ rfl rfl
    (bind_of_ok hset) rfl (by rw [hdesired]; decide) (by simp [hdesired]) (by unfold expectedCode; rw [hdesired]; rfl) ?_
  · rintro raw ⟨⟩
    exact ⟨size_activation call.acceptedAt reason, reason, hcommand, hparse⟩
  · generalize hraw : sentinelBytes (instantText call.acceptedAt) reason = raw
    have hread := readPrivateFile_activation call.acceptedAt reason
    rw [hraw] at hread
    have hstate := (@killSwitch_of_read sha256 _ { w.root with killSwitch := .regular raw } hread).1
    rw [← hraw, parseKillSwitch_activation, hraw] at hstate
    rw [hcommand]
    exact hstate

variable (hclear : call.request.command = .clearKillSwitch)
include hclear

theorem Admitted.clearing : ∃ raw evidence, readPrivateFile maxKillSwitchBytes w.root.killSwitch = .ok (some raw) ∧
    call.safety = .ok evidence ∧ ClearsSafely evidence call.acceptedAt ∧
    decideClearing sha256 call.actor call.request (readState sha256 w.root) call.acceptedAt (some evidence) = .ok plan := by
  obtain ⟨safety, hsafety, hplan⟩ := h.plan
  obtain ⟨found, hfound⟩ := h.killSwitch
  rw [decideCall_ok_iff, decideOperatorCommand, hclear] at hplan
  obtain ⟨-, -, hactive, -, evidence, rfl, hsafe, -⟩ := decideClearing_ok hplan
  rw [(killSwitch_of_read hfound).1] at hactive
  unfold safetyFor at hsafety
  rw [hclear] at hsafety
  cases found with
  | none => cases hactive
  | some raw =>
    cases hread : call.safety with
    | error e =>
      rw [hread] at hsafety
      cases hsafety
    | ok found =>
      rw [hread] at hsafety
      cases hsafety
      exact ⟨raw, evidence, hfound, rfl, hsafe, hplan⟩

/-- The second look at the evidence finds the plan of the first, unless the evidence has grown old. -/
theorem Admitted.recheckSafety_ok_iff : Feasible sha256 call w ↔
    recheckSafety sha256 call (makeIntent sha256 call plan) (readState sha256 w.root) = .ok () := by
  obtain ⟨raw, evidence, -, hsafety, hsafe, hplan⟩ := h.clearing hclear
  have hfeasible : Feasible sha256 call w ↔ ClearsSafely evidence call.decidedAt := by
    have hclock := h.decided.1
    unfold Feasible
    rw [hclear]
    simp only [hsafety, Except.ok.injEq, forall_eq']
    unfold ClearsSafely at hsafe ⊢
    constructor
    · intro hage
      exact ⟨by omega, hage, hsafe.2.2⟩
    · exact (·.2.1)
  obtain ⟨-, -, -, -, _, hevidence, -, heq⟩ := decideClearing_ok hplan
  cases hevidence
  have hsome : (makeIntent sha256 call plan).safetyEvidenceSha256 = some evidence.evidenceSha256 :=
    congrArg OperatorMutationPlan.safetyEvidenceSha256 heq
  rw [hfeasible]
  constructor
  · intro hagain
    unfold recheckSafety
    rw [hsome]
    refine bind_ok_iff.2 ⟨evidence, h.evidence.trans hsafety, bind_ok_iff.2 ⟨(), require_ok_iff.2 rfl,
      bind_ok_iff.2 ⟨plan, decideCall_ok_iff.2 ?_, require_ok_iff.2 ⟨rfl, rfl, rfl, rfl, rfl, rfl⟩⟩⟩⟩
    rw [decideOperatorCommand, hclear]
    exact decideClearing_again hplan hagain
  · intro hrecheck
    obtain ⟨-, -, fresh, hfresh, -, hagain⟩ := recheckSafety_ok hrecheck (by rw [hsome]; exact Option.some_ne_none _)
    cases hfresh.symm.trans (h.evidence.trans hsafety)
    exact hagain

theorem Admitted.carriedOut_clearing (hfeasible : Feasible sha256 call w) : CarriedOut sha256 call w plan := by
  have hrecheck := (h.recheckSafety_ok_iff hclear).1 hfeasible
  obtain ⟨raw, evidence, hfound, -, -, hplan⟩ := h.clearing hclear
  obtain ⟨-, hexpected, hactive, -, _, hevidence, -, heq⟩ := decideClearing_ok hplan
  cases hevidence
  have htype : (makeIntent sha256 call plan).commandType = .setKillSwitch := congrArg OperatorCommand.commandType hclear
  have hdesired : (makeIntent sha256 call plan).desiredState = .killSwitchInactive := congrArg journalDesiredState hclear
  have hfile : (makeIntent sha256 call plan).desiredFileSha256 = some (sha256 raw) := by
    show plan.desiredFileSha256 = _
    rw [heq]
    show Option.orElse _ _ = _
    rw [(killSwitch_of_read hfound).2]
    rfl
  have hset := clearKillSwitch_ok (w := w.journaled sha256 call plan) htype hdesired hfile
    (congrArg OperatorMutationPlan.priorStateSha256 heq).symm hfound hactive h.unburied
  subst heq
  refine h.carriedOut ⟨.inr (.inr ⟨htype, hdesired, rfl, Option.some_ne_none _, ?_⟩), ?_⟩ (fun _ hraw => by cases hraw)
    hrecheck rfl (bind_of_ok hset) rfl (by rw [hdesired]; decide) (by simp [hdesired])
    (by unfold expectedCode; rw [hdesired]; rfl) ?_
  · exact fun hnone => Option.some_ne_none _ (hexpected.symm.trans hnone)
  · rw [hfile]
    exact Option.some_ne_none _
  · rw [hclear]
    rfl

theorem Admitted.feasible_of_carriedOut (hcarried : CarriedOut sha256 call w plan) : Feasible sha256 call w := by
  obtain ⟨safety, hsafety, hplan⟩ := h.plan
  obtain ⟨writes, applied, receipt, hresult, -⟩ := hcarried.returned
  obtain ⟨-, hexecute⟩ := execute_started h.undisturbed h.unused hsafety hplan hcarried.valid
  have happly := mapError_ok_iff.1 (congrArg Prod.snd (hexecute.symm.trans hresult))
  obtain ⟨current, hcurrent, happly⟩ := returns_bind_iff.1 happly
  cases hcurrent
  obtain ⟨_, hrecheck, -⟩ := returns_bind_iff.1 happly
  exact (h.recheckSafety_ok_iff hclear).2 hrecheck

omit hclear

/-- The plan for an active switch names no reason, and the journal takes no activation without one. -/
theorem Admitted.activation_refused (hcommand : call.request.command = .activateKillSwitch reason)
    (hactive : (readState sha256 w.root).killSwitchState = .active) :
    (execute sha256 call w).2 = .error (.journal "command journal intent is unsafe") ∧
      ¬ CarriedOut sha256 call w plan := by
  obtain ⟨safety, hsafety, hplan⟩ := h.plan
  have hreason : plan.reasonSha256 = none := by
    rw [decideCall_ok_iff, decideOperatorCommand, hcommand] at hplan
    obtain ⟨-, -, rfl⟩ | ⟨hinactive, -⟩ := decideActivation_ok hplan
    · rfl
    · cases hactive.symm.trans hinactive
  have hinvalid : ¬ IntentValid (makeIntent sha256 call plan) := by
    rintro ⟨⟨htype, -⟩ | ⟨-, -, hsome, -⟩ | ⟨-, hdesired, -⟩, -⟩
    · cases htype.symm.trans (congrArg OperatorCommand.commandType hcommand)
    · exact hsome hreason
    · cases hdesired.symm.trans (congrArg journalDesiredState hcommand)
  have hcreate : (createIntent sha256 (makeIntent sha256 call plan) w).2 =
      .error (.journal "command journal intent is unsafe") := by
    unfold createIntent
    rw [bind_check (digestValid_makeIntent call plan)]
    exact congrArg Prod.snd (bind_read_error (f := fun _ : World => validateIntent (makeIntent sha256 call plan))
      (if_neg hinvalid))
  refine ⟨?_, fun hcarried => hinvalid hcarried.valid⟩
  rw [execute_begun h.undisturbed h.unused hsafety hplan]
  unfold Tx.mapError
  rw [bind_apply_error hcreate]
  rfl

end

/-- What the policy admits is carried out, apart from activating an active switch and clearing one on aged
evidence. -/
theorem admitted_carried_out_iff (h : Admitted sha256 call w plan) :
    CarriedOut sha256 call w plan ↔ Feasible sha256 call w := by
  cases hcommand : call.request.command with
  | setRequestedMode desired =>
    refine ⟨fun _ => ?_, fun _ => h.carriedOut_mode hcommand⟩
    unfold Feasible
    rw [hcommand]
    trivial
  | activateKillSwitch reason =>
    have hfeasible : Feasible sha256 call w ↔ (readState sha256 w.root).killSwitchState ≠ .active := by
      unfold Feasible
      rw [hcommand]
    rw [hfeasible]
    exact ⟨fun hcarried hactive => (h.activation_refused hcommand hactive).2 hcarried, h.carriedOut_activation hcommand⟩
  | clearKillSwitch => exact ⟨h.feasible_of_carriedOut hcommand, h.carriedOut_clearing hcommand⟩

def stoppedRoot : DataRoot := { sampleRoot with
  killSwitch := .regular (sentinelBytes (instantText sampleInstant) plainReason) }

/-- An operator of the command line activates the kill switch. -/
def stopCall : ExecuteCall := { paperCall oneKey (atSecond 1) with
  request := { (paperCall oneKey (atSecond 1)).request with command := .activateKillSwitch plainReason } }

/-- The policy answers that the switch is active already, and the journal refuses the intent. -/
theorem active_switch_not_activated : ∃ plan, Admitted sampleSha256 stopCall (World.first stoppedRoot) plan ∧
    plan.outcomeCode = .killSwitchAlreadyActive ∧
    (execute sampleSha256 stopCall (World.first stoppedRoot)).2 =
      .error (.journal "command journal intent is unsafe") ∧
    ¬ CarriedOut sampleSha256 stopCall (World.first stoppedRoot) plan := by
  have huntouched : Untouched stoppedRoot := fun _ => ⟨rfl, rfl, rfl, rfl⟩
  have hread := readPrivateFile_activation sampleInstant plainReason
  obtain ⟨hstate, hdigest⟩ := @killSwitch_of_read sampleSha256 _ stoppedRoot hread
  rw [parseKillSwitch_activation] at hstate
  simp only at hstate
  have hplan : decideCall sampleSha256 stopCall stopCall.actor (readState sampleSha256 stoppedRoot) stopCall.acceptedAt
      none = .ok (makePlan sampleSha256 stopCall.actor stopCall.request (readState sampleSha256 stoppedRoot) .noChange
        .killSwitchAlreadyActive none none none none (readState sampleSha256 stoppedRoot).killSwitchFileSha256) := by
    rw [decideCall_ok_iff]
    show decideActivation _ _ _ _ _ _ = _
    unfold decideActivation
    refine bind_ok_iff.2 ⟨(), checkExpected_ok_iff.2 (.inl rfl), bind_ok_iff.2 ⟨(), require_ok_iff.2 ?_, ?_⟩⟩
    · exact fun hunknown => by cases hstate.symm.trans hunknown
    · rw [if_pos hstate]
      exact bind_ok_iff.2 ⟨(), require_ok_iff.2 (by rw [hdigest]; exact Option.some_ne_none _), rfl⟩
  have hadmitted : Admitted sampleSha256 stopCall (World.first stoppedRoot) _ :=
    ⟨⟨fun _ => rfl, le_refl _, le_refl _⟩, ⟨le_refl _, le_refl _⟩, rfl, huntouched.load _, rfl, ⟨_, rfl⟩, ⟨_, hread⟩,
      none, rfl, hplan⟩
  exact ⟨_, hadmitted, rfl, hadmitted.activation_refused rfl hstate⟩

/-! ## A clearing -/

theorem killSwitch_changed {root : DataRoot} {log : List LogEntry} (h : Follows root log)
    (hchanged : (replay root log).killSwitch ≠ root.killSwitch) :
    ∃ entry ∈ log, entry.before.killSwitch = root.killSwitch ∧ entry.after.killSwitch ≠ root.killSwitch := by
  induction log generalizing root with
  | nil => exact absurd rfl hchanged
  | cons entry rest ih =>
    obtain ⟨rfl, hrest⟩ := h
    by_cases hsame : (entry.operation.apply entry.key entry.before).killSwitch = entry.before.killSwitch
    · obtain ⟨found, hfound, hbefore, hafter⟩ := ih hrest (by rw [hsame]; exact hchanged)
      rw [hsame] at hbefore hafter
      exact ⟨found, List.mem_cons_of_mem _ hfound, hbefore, hafter⟩
    · exact ⟨entry, List.mem_cons_self, rfl, hsame⟩

def clearingEvidence : OperatorSafetyEvidence :=
  ⟨.paper, .paper, some false, some false, .active, atSecond 2, blankDigest⟩

/-- An operator of the command line clears the switch of the state with the digest. -/
def clearingCall (expected : Sha256Text) : ExecuteCall := { paperCall otherKey (atSecond 2) with
  request := { (paperCall otherKey (atSecond 2)).request with
    expectedStateSha256 := some expected, command := .clearKillSwitch }
  safety := .ok clearingEvidence
  fresh := .ok clearingEvidence }

theorem decideCall_clearingCall {state : OperatorSourceState} (hactive : state.killSwitchState = .active)
    (hdigest : state.killSwitchFileSha256 ≠ none) : ∃ plan, decideCall sha256 (clearingCall state.stateSha256)
      (clearingCall state.stateSha256).actor state (clearingCall state.stateSha256).acceptedAt (some clearingEvidence) =
        .ok plan := by
  have hsafe : ClearsSafely clearingEvidence (atSecond 2) := by decide +kernel
  have hknown : state.killSwitchState ≠ .unknown := fun hunknown => by cases hactive.symm.trans hunknown
  let call := clearingCall state.stateSha256
  obtain ⟨plan, hplan⟩ : ∃ plan, decideClearing sha256 call.actor call.request state call.acceptedAt
      (some clearingEvidence) = .ok plan := by
    unfold decideClearing
    exact ⟨_, bind_ok_iff.2 ⟨(), require_ok_iff.2 rfl, bind_ok_iff.2 ⟨(), require_ok_iff.2 (Option.some_ne_none _),
      bind_ok_iff.2 ⟨(), checkExpected_ok_iff.2 (.inr rfl), bind_ok_iff.2 ⟨(), require_ok_iff.2 hknown,
        bind_ok_iff.2 ⟨(), require_ok_iff.2 hactive, bind_ok_iff.2 ⟨(), require_ok_iff.2 hdigest,
          bind_ok_iff.2 ⟨(), require_ok_iff.2 hsafe, rfl⟩⟩⟩⟩⟩⟩⟩⟩
  exact ⟨_, decideCall_ok_iff.2 hplan⟩

theorem feasible_clearingCall (expected : Sha256Text) : Feasible sha256 (clearingCall expected) w := by
  rintro evidence ⟨⟩
  show ((atSecond 2 : Instant) : ℤ) - (atSecond 2 : Instant) < safetyEvidenceMaxAge
  decide +kernel

theorem killSwitch_stoppedRoot : (readState sha256 stoppedRoot).killSwitchState = .active ∧
    (readState sha256 stoppedRoot).killSwitchFileSha256 ≠ none := by
  obtain ⟨hstate, hdigest⟩ :=
    @killSwitch_of_read sha256 _ stoppedRoot (readPrivateFile_activation sampleInstant plainReason)
  rw [parseKillSwitch_activation] at hstate
  exact ⟨hstate, by rw [hdigest]; exact Option.some_ne_none _⟩

theorem untouched_stoppedRoot : Untouched stoppedRoot := fun _ => ⟨rfl, rfl, rfl, rfl⟩

theorem admitted_clearingCall (sha256 : ByteArray → Sha256Text) :
    ∃ plan, Admitted sha256 (clearingCall (readState sha256 stoppedRoot).stateSha256) (World.first stoppedRoot) plan := by
  obtain ⟨plan, hplan⟩ := @decideCall_clearingCall sha256 _ killSwitch_stoppedRoot.1 killSwitch_stoppedRoot.2
  exact ⟨plan, ⟨fun _ => rfl, le_refl _, le_refl _⟩, ⟨le_refl _, le_refl _⟩, rfl, untouched_stoppedRoot.load _, rfl,
    ⟨_, rfl⟩, ⟨_, readPrivateFile_activation sampleInstant plainReason⟩, some clearingEvidence, rfl, hplan⟩

theorem clearing_carried_out : ∃ call plan, call.request.command = .clearKillSwitch ∧
    CarriedOut sampleSha256 call (World.first stoppedRoot) plan := by
  obtain ⟨plan, hadmitted⟩ := admitted_clearingCall sampleSha256
  exact ⟨_, plan, rfl, (admitted_carried_out_iff hadmitted).2 (feasible_clearingCall _)⟩

theorem run_singleton (call : ExecuteCall) : run sha256 w [(call, none)] = last w (execute sha256 call w).1 := rfl

theorem sample_run_clears_with_authority : ∃ call, let calls := [(call, none)]
    ∃ entry ∈ (run sampleSha256 (World.first stoppedRoot) calls).log, ∃ raw,
      entry.before.killSwitch = .regular raw ∧ entry.after.killSwitch = .absent ∧
        entry.after.tombstones entry.key = some raw ∧
        ClearAuthorized sampleSha256 (fun call => ∃ crash, (call, crash) ∈ calls) entry.key entry.before := by
  generalize sampleSha256 = sha256
  obtain ⟨plan, hadmitted⟩ := admitted_clearingCall sha256
  generalize hcall : clearingCall (readState sha256 stoppedRoot).stateSha256 = call at hadmitted
  refine ⟨call, ?_⟩
  intro calls
  obtain ⟨⟨hfollows, hreplayed⟩, -, -, hentries⟩ := runs_clear_with_authority sha256 stoppedRoot untouched_stoppedRoot calls
  have hclear : call.request.command = .clearKillSwitch := by rw [← hcall]; rfl
  obtain ⟨writes, applied, receipt, hexecute, -, -, hshows⟩ :=
    (hadmitted.carriedOut_clearing hclear (hcall ▸ feasible_clearingCall _)).returned
  have hrun : run sha256 (World.first stoppedRoot) calls = last (World.first stoppedRoot) writes := by
    rw [run_singleton, hexecute]
  rw [hclear, ← hrun, hreplayed] at hshows
  have hchanged : (replay stoppedRoot (run sha256 (World.first stoppedRoot) calls).log).killSwitch ≠
      stoppedRoot.killSwitch := by
    intro hsame
    have hread := readPrivateFile_activation sampleInstant plainReason
    rw [show SafetySources.SourceFile.regular _ = stoppedRoot.killSwitch from rfl, ← hsame] at hread
    have hactive := (@killSwitch_of_read sha256 _ _ hread).1
    rw [parseKillSwitch_activation] at hactive
    cases hactive.symm.trans hshows
  obtain ⟨entry, hentry, hbefore, hafter⟩ := killSwitch_changed hfollows hchanged
  obtain ⟨raw, hraw, habsent, -, hburied, hauthorized⟩ := (hentries entry hentry).2.1
    (by rw [hbefore]; exact SafetySources.SourceFile.noConfusion) (by rwa [hbefore])
  exact ⟨entry, hentry, raw, hraw, habsent, hburied, hauthorized⟩

end TradingAgent.OperatorControl
