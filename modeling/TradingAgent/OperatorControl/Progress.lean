import TradingAgent.OperatorControl.Executions

/-! Executions that nothing disturbs, from the start or from a crash. -/

namespace TradingAgent.OperatorControl

open Outcome Transaction Transaction.Tx
open SecurityMaster (Sha256Text)

variable {sha256 : ByteArray → Sha256Text} {w : World} {key : Sha256Text} {call : ExecuteCall} {intent : CommandIntent}
  {applied : CommandApplied}

/-- The authority of a call lasts, and its clock does not go back. -/
structure ExecuteCall.Undisturbed (call : ExecuteCall) : Prop where
  authority : ∀ recheck, call.authority recheck = .ok ()
  applied : (call.acceptedAt : ℤ) ≤ call.appliedAt
  completed : (call.appliedAt : ℤ) ≤ call.completedAt

variable {α : Type}

theorem recordSound_of_digest {kind : RecordKind α} {model : α} (h : DigestValid sha256 kind model)
    (hbound : kind.codec.bound < maxJournalBytes) : RecordSound sha256 kind model :=
  ⟨h, (utf8ByteSize_text_le kind model).trans hbound⟩

theorem bind_readRoot {β : Type} {f : DataRoot → Except Raised α} {g : α → Action β} {a : α} (h : f w.root = .ok a) :
    (readRoot f >>= g) w = g a w := bind_read_ok h

theorem createIntent_ok (hsound : RecordSound sha256 intentKind intent) (hvalid : IntentValid intent)
    (hnone : w.root.intents intent.idempotencyKeySha256 = none) : createIntent sha256 intent w =
      ([w.operated intent.idempotencyKeySha256 (.createIntent (intentKind.text intent))], .ok ()) := by
  have hcheck : checkCreate intentKind intent (w.root.intents intent.idempotencyKeySha256) = .ok () :=
    checkCreate_ok_iff.2 ⟨hsound.2, hnone⟩
  have hvalidated : validateIntent intent = .ok () := require_ok_iff.2 hvalid
  unfold createIntent
  rw [bind_check hsound.1, bind_lift_ok hvalidated,
    bind_readRoot (f := fun root => checkCreate intentKind intent (root.intents intent.idempotencyKeySha256)) hcheck]
  rfl

theorem createApplied_ok (hsound : RecordSound sha256 appliedKind applied) (hnone : w.root.applied key = none) :
    createApplied sha256 key applied w = ([w.operated key (.createApplied (appliedKind.text applied))], .ok ()) := by
  have hcheck : checkCreate appliedKind applied (w.root.applied key) = .ok () :=
    checkCreate_ok_iff.2 ⟨hsound.2, hnone⟩
  unfold createApplied
  rw [bind_check hsound.1, bind_readRoot (f := fun root => checkCreate appliedKind applied (root.applied key)) hcheck]
  rfl

theorem createReceipt_ok {receipt : CommandReceipt} (hsound : RecordSound sha256 receiptKind receipt)
    (hnone : w.root.receipts receipt.idempotencyKeySha256 = none) : createReceipt sha256 receipt w =
      ([w.operated receipt.idempotencyKeySha256 (.createReceipt (receiptKind.text receipt))], .ok ()) := by
  have hcheck : checkCreate receiptKind receipt (w.root.receipts receipt.idempotencyKeySha256) = .ok () :=
    checkCreate_ok_iff.2 ⟨hsound.2, hnone⟩
  unfold createReceipt
  rw [bind_check hsound.1,
    bind_readRoot (f := fun root => checkCreate receiptKind receipt (root.receipts receipt.idempotencyKeySha256)) hcheck]
  rfl

theorem finish_ok (hcall : call.Undisturbed) (hload : load sha256 w.root key = .ok ⟨some intent, some applied, none⟩)
    (htimed : (intent.acceptedAt : ℤ) ≤ applied.appliedAt) (hclock : (applied.appliedAt : ℤ) ≤ call.completedAt)
    (deduplicated : Bool) : let receipt := makeReceipt sha256 call intent applied
    let w' := w.operated key (.createReceipt (receiptKind.text receipt))
    load sha256 w'.root key = .ok ⟨some intent, some applied, some receipt⟩ ∧
      finish sha256 call key intent applied deduplicated w = ([w'], .ok ⟨receipt, deduplicated⟩) := by
  intro receipt w'
  obtain ⟨_, _, ⟨hreceipt, _⟩, hpath, hrelations⟩ := load_ok_iff.1 hload
  obtain ⟨_, hfits, _⟩ := ((validateRelations_ok_iff.1 hrelations).2.2 intent rfl).2 applied rfl
  have hkey : receipt.idempotencyKeySha256 = key := hpath.1 intent rfl
  have hsound : RecordSound sha256 receiptKind receipt :=
    recordSound_of_digest (digestValid_makeReceipt call intent applied) (by decide)
  have hmirrors : ReceiptMirrors intent applied receipt :=
    ⟨rfl, rfl, rfl, rfl, rfl, rfl, rfl, rfl, rfl, rfl, rfl, rfl, rfl, rfl, rfl, rfl, htimed, hclock⟩
  have hstored : load sha256 w'.root key = .ok ⟨some intent, some applied, some receipt⟩ :=
    load_createReceipt hload hsound hmirrors rfl (expectedCode_eq hfits)
  have hcreate := createReceipt_ok (w := w) hsound (by rw [hkey]; exact hreceipt)
  rw [hkey] at hcreate
  refine ⟨hstored, ?_⟩
  unfold finish
  rw [bind_check hclock, bind_lift_ok (hcall.authority .receipt), bind_of_ok hcreate, last_singleton,
    bind_readRoot (f := fun root => load sha256 root key) hstored]
  rfl

/-- The world after an application and its receipt were recorded. -/
def World.settled (sha256 : ByteArray → Sha256Text) (w : World) (call : ExecuteCall) (key : Sha256Text)
    (intent : CommandIntent) (applied : CommandApplied) : World :=
  (w.operated key (.createApplied (appliedKind.text applied))).operated key
    (.createReceipt (receiptKind.text (makeReceipt sha256 call intent applied)))

variable {kind : ApplicationKind} {tombstone : Option Sha256Text}

theorem settle_ok (hcall : call.Undisturbed) (hload : load sha256 w.root key = .ok ⟨some intent, none, none⟩)
    (hclock : (intent.acceptedAt : ℤ) ≤ call.appliedAt) (resulting : Sha256Text)
    (hallowed : kind ∈ allowedKinds intent.desiredState)
    (hburied : tombstone ≠ none ↔ intent.desiredState = .killSwitchInactive) (deduplicated : Bool) :
    ∃ applied, applied.applicationKind = kind ∧ load sha256 (w.settled sha256 call key intent applied).root key =
        .ok ⟨some intent, some applied, some (makeReceipt sha256 call intent applied)⟩ ∧ (do
      let applied ← lift (makeApplied sha256 call intent resulting kind tombstone)
      lift (call.authority .applied)
      createApplied sha256 key applied
      finish sha256 call key intent applied deduplicated) w =
      ([w.operated key (.createApplied (appliedKind.text applied)), w.settled sha256 call key intent applied],
        .ok ⟨makeReceipt sha256 call intent applied, deduplicated⟩) := by
  obtain ⟨_, happlied, _⟩ := pending_files hload
  obtain ⟨applied, hmake⟩ : ∃ applied, makeApplied sha256 call intent resulting kind tombstone = .ok applied := by
    unfold makeApplied
    exact ⟨_, bind_ok_iff.2 ⟨(), require_ok_iff.2 hclock, rfl⟩⟩
  obtain ⟨hsame, hkind, htombstone, happliedAt, _, hdigest⟩ := makeApplied_ok hmake
  have hsound : RecordSound sha256 appliedKind applied := recordSound_of_digest hdigest (by decide)
  have hfits : AppliedFits intent applied := by
    unfold AppliedFits
    rw [hkind, htombstone]
    exact ⟨hallowed, hburied⟩
  have hstored := load_createApplied hload hsound hsame hfits
  obtain ⟨hfinal, hfinish⟩ := finish_ok (w := w.operated key (.createApplied (appliedKind.text applied))) hcall hstored
    (by rw [happliedAt]; exact hclock) (by rw [happliedAt]; exact hcall.completed) deduplicated
  refine ⟨applied, hkind, hfinal, ?_⟩
  rw [bind_lift_ok hmake, bind_lift_ok (hcall.authority .applied), bind_of_ok (createApplied_ok hsound happlied),
    last_singleton, hfinish]
  rfl

theorem execute_of_locked {writes : List World} {result : CommandExecutionResult}
    (hentry : call.authority .entry = .ok ()) (h : executeLocked sha256 call w = (writes, .ok result)) :
    execute sha256 call w = (writes, .ok result) := by
  unfold execute
  rw [bind_lift_ok hentry]
  unfold Tx.mapError
  rw [h]
  rfl

theorem execute_recovered (hcall : call.Undisturbed)
    (hload : load sha256 w.root (call.key sha256) = .ok ⟨some intent, none, none⟩)
    (hrequest : intent.requestSha256 = requestSha256 sha256 call.actor call.request)
    (htombstone : w.root.tombstones (call.key sha256) = none)
    (hrecovered : classifyRecovery intent (readState sha256 w.root) none = .ok (.recovered kind))
    (hclock : (intent.acceptedAt : ℤ) ≤ call.appliedAt) :
    ∃ applied, applied.applicationKind = kind ∧ execute sha256 call w =
      ([w.operated (call.key sha256) (.createApplied (appliedKind.text applied)),
        w.settled sha256 call (call.key sha256) intent applied],
        .ok ⟨makeReceipt sha256 call intent applied, true⟩) := by
  have hfound : tombstoneSha256 sha256 w.root (call.key sha256) = .ok none := by
    unfold tombstoneSha256
    rw [htombstone]
    rfl
  have hkind : kind ∈ allowedKinds intent.desiredState ∧ intent.desiredState ≠ .killSwitchInactive ∧
      kind ≠ .recoveredKillSwitchClear := by
    rcases classifyRecovery_recovered hrecovered with ⟨_, _, hne⟩ | ⟨_, _, ⟨hdesired, rfl, _⟩ | ⟨hdesired, rfl, _⟩⟩
    · exact absurd rfl hne
    · rw [hdesired]
      decide
    · rw [hdesired]
      decide
  obtain ⟨hallowed, hdesired, hclear⟩ := hkind
  have hburied : (none : Option Sha256Text) ≠ none ↔ intent.desiredState = .killSwitchInactive := by simp [hdesired]
  obtain ⟨applied, happlied, -, hsettled⟩ :=
    settle_ok hcall hload hclock (readState sha256 w.root).stateSha256 hallowed hburied true
  refine ⟨applied, happlied, execute_of_locked (hcall.authority .entry) ?_⟩
  unfold executeLocked
  rw [bind_readRoot (f := fun root => load sha256 root (call.key sha256)) hload]
  show (check _ _ >>= fun _ => resume sha256 call (call.key sha256) intent ⟨some intent, none, none⟩) w = _
  rw [bind_check hrequest]
  show resumePending sha256 call (call.key sha256) intent w = _
  unfold resumePending
  rw [bind_readRoot (f := fun root => .ok (readState sha256 root)) rfl,
    bind_readRoot (f := fun root => tombstoneSha256 sha256 root (call.key sha256)) hfound, bind_lift_ok hrecovered]
  simp only [if_neg hclear]
  exact hsettled

section

variable {plan : OperatorMutationPlan}

theorem apply_ok {writes : List World} {resulting : OperatorSourceState} (hcall : call.Undisturbed)
    (hrecheck : recheckSafety sha256 call intent (readState sha256 w.root) = .ok ())
    (hprior : (readState sha256 w.root).stateSha256 = intent.priorStateSha256)
    (hmutate : mutate sha256 intent plan (readState sha256 w.root) w = (writes, .ok (resulting, kind, tombstone)))
    (hload : load sha256 (last w writes).root key = .ok ⟨some intent, none, none⟩)
    (hclock : (intent.acceptedAt : ℤ) ≤ call.appliedAt) (hallowed : kind ∈ allowedKinds intent.desiredState)
    (hburied : tombstone ≠ none ↔ intent.desiredState = .killSwitchInactive) (deduplicated : Bool) :
    ∃ applied, applied.applicationKind = kind ∧
      load sha256 ((last w writes).settled sha256 call key intent applied).root key =
        .ok ⟨some intent, some applied, some (makeReceipt sha256 call intent applied)⟩ ∧
      apply sha256 call key intent plan deduplicated w =
        (writes ++ [(last w writes).operated key (.createApplied (appliedKind.text applied)),
          (last w writes).settled sha256 call key intent applied],
          .ok ⟨makeReceipt sha256 call intent applied, deduplicated⟩) := by
  obtain ⟨applied, happlied, hfinal, hsettled⟩ :=
    settle_ok hcall hload hclock resulting.stateSha256 hallowed hburied deduplicated
  refine ⟨applied, happlied, hfinal, ?_⟩
  unfold apply
  rw [bind_readRoot (f := fun root => .ok (readState sha256 root)) rfl, bind_lift_ok hrecheck, bind_check hprior,
    bind_lift_ok (hcall.authority .mutation), bind_of_ok hmutate]
  simp only
  rw [hsettled]

/-- The world after the intent of a call was recorded. -/
def World.journaled (sha256 : ByteArray → Sha256Text) (w : World) (call : ExecuteCall) (plan : OperatorMutationPlan) :
    World :=
  w.operated (call.key sha256) (.createIntent (intentKind.text (makeIntent sha256 call plan)))

section

variable {safety : Option OperatorSafetyEvidence} (hcall : call.Undisturbed)
  (hload : load sha256 w.root (call.key sha256) = .ok noRecords) (hsafety : safetyFor call = .ok safety)
  (hplan : decideCall sha256 call call.actor (readState sha256 w.root) call.acceptedAt safety = .ok plan)
include hcall hload hsafety hplan

/-- The first execution of a key journals the intent and goes on with its application. -/
theorem execute_begun : execute sha256 call w = ((createIntent sha256 (makeIntent sha256 call plan) >>= fun _ =>
    apply sha256 call (call.key sha256) (makeIntent sha256 call plan) plan false).mapError lockError) w := by
  unfold execute
  rw [bind_lift_ok (hcall.authority .entry)]
  unfold Tx.mapError executeLocked
  rw [bind_readRoot (f := fun root => load sha256 root (call.key sha256)) hload]
  simp only [noRecords, start]
  rw [bind_readRoot (f := fun root => .ok (readState sha256 root)) rfl, bind_lift_ok hsafety, bind_lift_ok hplan,
    bind_lift_ok (hcall.authority .intent)]

theorem execute_started (hvalid : IntentValid (makeIntent sha256 call plan)) : let key := call.key sha256
    let intent := makeIntent sha256 call plan
    let w₁ := w.journaled sha256 call plan
    let applied := apply sha256 call key intent plan false w₁
    load sha256 w₁.root key = .ok ⟨some intent, none, none⟩ ∧
      execute sha256 call w = (w₁ :: applied.1, applied.2.mapError lockError) := by
  intro key intent w₁ applied
  obtain ⟨⟨hintents, _⟩, _⟩ := load_ok_iff.1 hload
  have hsound : RecordSound sha256 intentKind intent :=
    recordSound_of_digest (digestValid_makeIntent call _) (by decide)
  refine ⟨load_createIntent hload hsound hvalid rfl, ?_⟩
  rw [execute_begun hcall hload hsafety hplan]
  unfold Tx.mapError
  rw [bind_of_ok (createIntent_ok hsound hvalid hintents)]
  rfl

end

end

theorem applyMode_ok {found : Option ByteArray} (htype : intent.commandType = .setRequestedMode)
    (hdesired : intent.desiredState = .paper) (hfile : intent.desiredFileSha256 = some (sha256 paperBytes))
    (hprior : (readState sha256 w.root).stateSha256 = intent.priorStateSha256)
    (hmode : readPrivateFile maxModeBytes w.root.mode = .ok found) :
    applyMode sha256 intent w = ([w.operated intent.idempotencyKeySha256 .setMode],
      .ok (readState sha256 (w.operated intent.idempotencyKeySha256 .setMode).root)) := by
  have hdigest : (readState sha256 w.root).modeFileSha256 = found.map sha256 := by
    simp [readState, sourcePayload, hmode]
  have htarget : checkTarget sha256 maxModeBytes w.root.mode paperBytes (readState sha256 w.root).modeFileSha256 =
      .ok () := by
    unfold checkTarget
    have hsize : paperBytes.size ≤ maxModeBytes := by decide
    refine bind_ok_iff.2 ⟨(), require_ok_iff.2 hsize, bind_ok_iff.2 ⟨found, hmode, ?_⟩⟩
    rw [hdigest]
    cases found with
    | none => rfl
    | some raw => exact require_ok_iff.2 rfl
  unfold applyMode
  rw [bind_readRoot (f := fun root => .ok (readState sha256 root)) rfl, bind_check ⟨htype, hdesired, hfile, hprior⟩,
    bind_readRoot (f := fun root => checkTarget sha256 maxModeBytes root.mode paperBytes _) htarget]
  rfl

/-- The first `SET_REQUESTED_MODE` to `PAPER` of a key, from the command line, where the mode is another one. -/
structure FirstPaper (sha256 : ByteArray → Sha256Text) (call : ExecuteCall) (w : World) : Prop where
  undisturbed : call.Undisturbed
  command : call.request.command = .setRequestedMode .paper
  cli : call.actor.interface = .cli
  expected : call.request.expectedStateSha256 = none
  fresh : load sha256 w.root (call.key sha256) = .ok noRecords
  mode : (readState sha256 w.root).requestedMode ≠ .paper
  readable : ∃ found, readPrivateFile maxModeBytes w.root.mode = .ok found

def paperPlan (sha256 : ByteArray → Sha256Text) (call : ExecuteCall) (current : OperatorSourceState) :
    OperatorMutationPlan :=
  makePlan sha256 call.actor call.request current .writeMode .modeSetPaper none none (some paperBytes) none none

theorem FirstPaper.plan (h : FirstPaper sha256 call w) : decideCall sha256 call call.actor (readState sha256 w.root)
    call.acceptedAt none = .ok (paperPlan sha256 call (readState sha256 w.root)) := by
  rw [decideCall_ok_iff]
  unfold decideOperatorCommand
  rw [h.command]
  simp only [decideMode, h.cli, checkExpected, h.expected]
  rw [if_neg h.mode]
  rfl

theorem execute_firstPaper (h : FirstPaper sha256 call w) : let key := call.key sha256
    let intent := makeIntent sha256 call (paperPlan sha256 call (readState sha256 w.root))
    let w₁ := w.operated key (.createIntent (intentKind.text intent))
    let w₂ := w₁.operated key .setMode
    ∃ applied, applied.applicationKind = .modeReplaced ∧ load sha256 w₁.root key = .ok ⟨some intent, none, none⟩ ∧
      execute sha256 call w = ([w₁, w₂, w₂.operated key (.createApplied (appliedKind.text applied)),
        w₂.settled sha256 call key intent applied], .ok ⟨makeReceipt sha256 call intent applied, false⟩) := by
  intro key intent w₁ w₂
  obtain ⟨found, hfound⟩ := h.readable
  have htype : intent.commandType = .setRequestedMode := by
    show call.request.command.commandType = _
    rw [h.command]
    rfl
  have hdesired : intent.desiredState = .paper := by
    show journalDesiredState call.request.command = _
    rw [h.command]
    rfl
  have hvalid : IntentValid intent := ⟨.inl ⟨htype, hdesired, rfl, rfl⟩, Option.some_ne_none _⟩
  have hsafety : safetyFor call = .ok none := by
    unfold safetyFor
    rw [h.command]
  obtain ⟨hstored, hexecute⟩ := execute_started h.undisturbed h.fresh hsafety h.plan hvalid
  have hset : applyMode sha256 intent w₁ = ([w₂], .ok (readState sha256 w₂.root)) :=
    applyMode_ok htype hdesired rfl rfl hfound
  have hmutate : mutate sha256 intent (paperPlan sha256 call (readState sha256 w.root)) (readState sha256 w₁.root) w₁ =
      ([w₂], .ok (readState sha256 w₂.root, .modeReplaced, none)) := by
    show (applyMode sha256 intent >>= fun resulting =>
      (pure (resulting, ApplicationKind.modeReplaced, none) : Action (_ × _ × Option Sha256Text))) w₁ = _
    rw [bind_of_ok hset]
    rfl
  obtain ⟨applied, happlied, -, happly⟩ := apply_ok h.undisturbed rfl rfl hmutate hstored h.undisturbed.applied
    (by rw [hdesired]; decide) (by simp [hdesired]) false
  refine ⟨applied, happlied, hstored, hexecute.trans ?_⟩
  exact congrArg (fun r : List World × Except Raised CommandExecutionResult => (w₁ :: r.1, r.2.mapError lockError)) happly

end TradingAgent.OperatorControl
