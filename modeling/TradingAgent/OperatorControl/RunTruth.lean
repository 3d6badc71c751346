import TradingAgent.OperatorControl.Progress
import TradingAgent.OperatorControl.Runs

/-! When the records of a run tell what was changed. -/

namespace TradingAgent.OperatorControl

open Outcome Transaction Transaction.Tx
open SecurityMaster (Sha256Text)

variable {sha256 : ByteArray → Sha256Text} {made : ExecuteCall → Prop} {root : DataRoot} {w : World} {key : Sha256Text}
  {calls : List (ExecuteCall × Option ℕ)}

/-- The receipt names the one change that was made, or none. -/
structure TellsTruth (receipt : CommandReceipt) (changes : List FileOperation) : Prop where
  unchanged : receipt.outcome = .noChange ↔ changes = []
  changed : receipt.outcome ≠ .noChange → ∃ operation, changes = [operation] ∧ Names receipt.desiredState operation

theorem outcomeOf_eq_noChange_iff {kind : ApplicationKind} : outcomeOf kind = .noChange ↔ kind = .noChange := by
  cases kind <;> decide

variable {snapshot : JournalSnapshot} {changes : List FileOperation}

theorem tellsTruth_of_load {receipt : CommandReceipt}
    (h : load sha256 root key = .ok snapshot) (hreceipt : snapshot.receipt = some receipt)
    (htells : Tells snapshot changes) : TellsTruth receipt changes := by
  obtain ⟨_, _, _, _, hrelations⟩ := load_ok_iff.1 h
  obtain ⟨hfirst, hsecond, hvalid⟩ := validateRelations_ok_iff.1 hrelations
  cases happlied : snapshot.applied with
  | none =>
    rw [hsecond happlied] at hreceipt
    cases hreceipt
  | some applied =>
    cases hintent : snapshot.intent with
    | none =>
      rw [hfirst hintent] at happlied
      cases happlied
    | some intent =>
      obtain ⟨_, _, hmirror⟩ := (hvalid intent hintent).2 applied happlied
      obtain ⟨⟨_, _, _, _, _, _, hdesired, _⟩, houtcome, _⟩ := hmirror receipt hreceipt
      unfold Tells at htells
      rw [hintent, happlied] at htells
      simp only at htells
      by_cases hkind : applied.applicationKind = .noChange
      · rw [if_pos hkind] at htells
        rw [hkind] at houtcome
        exact ⟨by simp [houtcome, htells, outcomeOf], fun hne => absurd houtcome hne⟩
      · rw [if_neg hkind] at htells
        have hne : receipt.outcome ≠ .noChange := by
          rw [houtcome, Ne, outcomeOf_eq_noChange_iff]
          exact hkind
        obtain ⟨operation, rfl, hnames⟩ := htells
        refine ⟨by simp [hne], fun _ => ⟨operation, rfl, ?_⟩⟩
        rw [hdesired]
        exact hnames

theorem length_changes_le_one (htells : Tells snapshot changes) : changes.length ≤ 1 := by
  unfold Tells at htells
  split at htells
  · simp [htells]
  · rcases htells with rfl | ⟨operation, rfl, _⟩
    · simp
    · simp
  · split_ifs at htells
    · simp [htells]
    · obtain ⟨operation, rfl, _⟩ := htells
      simp

/-- Where retries are decided, every key changes at most one file once, and all its calls return the same true
receipt. -/
theorem decided_runs_tell_truth (sha256 : ByteArray → Sha256Text) (root : DataRoot) (huntouched : Untouched root)
    (calls : List (ExecuteCall × Option ℕ)) (hdecided : DecidedRun sha256 (World.first root) calls) :
    let w := run sha256 (World.first root) calls
    (∀ key, (w.changesOf key).length ≤ 1) ∧
      (∀ a ∈ answers sha256 (World.first root) calls, ∀ b ∈ answers sha256 (World.first root) calls,
        a.1 = b.1 → a.2.receipt = b.2.receipt) ∧
      ∀ a ∈ answers sha256 (World.first root) calls, TellsTruth a.2.receipt (w.changesOf a.1) := by
  intro w
  have hmade : ∀ c ∈ calls, True := fun _ _ => trivial
  have hstart : Sound sha256 (fun _ => True) root (World.first root) := huntouched.sound
  have hkept : Kept sha256 (fun _ => True) root True (World.first root) w :=
    kept_run hstart (fun _ => huntouched.truthful) hmade fun _ => hdecided
  have hanswered := answered_run (P := True) hstart (fun _ => huntouched.truthful) hmade fun _ => hdecided
  have htruthful := hkept.truthful trivial
  refine ⟨fun key => ?_, fun a ha b hb hkey => ?_, fun a ha => ?_⟩
  · obtain ⟨snapshot, hload⟩ := hkept.sound.readable key
    exact length_changes_le_one (htruthful key snapshot hload)
  · obtain ⟨_, hload, hreceipt⟩ := hanswered a ha
    obtain ⟨_, hload', hreceipt'⟩ := hanswered b hb
    rw [hkey] at hload
    cases hload.symm.trans hload'
    exact Option.some.inj (hreceipt.symm.trans hreceipt')
  · obtain ⟨snapshot, hload, hreceipt⟩ := hanswered a ha
    exact tellsTruth_of_load hload hreceipt (htruthful a.1 snapshot hload)

theorem load_operated {operation : FileOperation} {other : Sha256Text} (hne : other ≠ key) :
    load sha256 (w.operated key operation).root other = load sha256 w.root other := load_other hne

variable {other : ExecuteCall}

theorem FirstPaper.after {call : ExecuteCall} {text : String} (h : FirstPaper sha256 call w)
    (hne : call.key sha256 ≠ other.key sha256) :
    FirstPaper sha256 call (w.operated (other.key sha256) (.createIntent text)) :=
  { h with fresh := (load_operated hne).trans h.fresh }

variable {one retry : ExecuteCall}

theorem decided_after_change (hone : FirstPaper sha256 one w) (hkey : retry.key sha256 = one.key sha256)
    (hstates : (readState sha256 { w.root with mode := .regular paperBytes }).stateSha256 ≠
      (readState sha256 w.root).stateSha256) : Decided sha256 retry ((execute sha256 one).left w (some 2)) := by
  obtain ⟨_, _, hload, hexecute⟩ := execute_firstPaper hone
  generalize hintent : makeIntent sha256 one (paperPlan sha256 one (readState sha256 w.root)) = intent at hload hexecute
  generalize htext : intentKind.text intent = text at hload hexecute
  have hleft : (execute sha256 one).left w (some 2) =
      (w.operated (one.key sha256) (.createIntent text)).operated (one.key sha256) .setMode := by
    unfold Tx.left
    rw [hexecute]
    rfl
  intro found hfound _
  rw [hleft, hkey] at hfound ⊢
  cases hload.symm.trans hfound
  constructor
  · intro _
    rw [← hintent]
    exact hstates
  · intro hnone
    rw [changesOf_operated, if_pos ⟨rfl, rfl⟩] at hnone
    simp at hnone

/-- Where a call crashes before it sets the mode and another key sets it, the retry claims the change. -/
theorem lost_change_claimed (hone : FirstPaper sha256 one w)
    (hother : FirstPaper sha256 other w) (hkeys : one.key sha256 ≠ other.key sha256)
    (hstates : (readState sha256 { w.root with mode := .regular paperBytes }).stateSha256 ≠
      (readState sha256 w.root).stateSha256)
    (hretry : retry.Undisturbed) (hkey : retry.key sha256 = one.key sha256)
    (hsame : requestSha256 sha256 one.actor one.request = requestSha256 sha256 retry.actor retry.request)
    (hclock : (one.acceptedAt : ℤ) ≤ retry.appliedAt) (hfree : w.root.tombstones (one.key sha256) = none) :
    ∃ result, (one.key sha256, result) ∈ answers sha256 w [(one, some 1), (other, some 2), (retry, none)] ∧
      result.receipt.outcome = .recoveredApplied ∧
      (run sha256 w [(one, some 1), (other, some 2), (retry, none)]).changesOf (one.key sha256) =
        w.changesOf (one.key sha256) := by
  obtain ⟨_, _, hload, hexecute⟩ := execute_firstPaper hone
  generalize hintent : makeIntent sha256 one (paperPlan sha256 one (readState sha256 w.root)) = intent at hload hexecute
  generalize htext : intentKind.text intent = text at hload hexecute
  have hleft : (execute sha256 one).left w (some 1) = w.operated (one.key sha256) (.createIntent text) := by
    unfold Tx.left
    rw [hexecute]
    rfl
  -- the other key sets the mode
  have hafter : FirstPaper sha256 other (w.operated (one.key sha256) (.createIntent text)) := hother.after hkeys.symm
  obtain ⟨_, _, _, hexecute'⟩ := execute_firstPaper hafter
  generalize makeIntent sha256 other _ = intent' at hexecute'
  generalize intentKind.text intent' = text' at hexecute'
  generalize hw : ((w.operated (one.key sha256) (.createIntent text)).operated (other.key sha256)
    (.createIntent text')).operated (other.key sha256) .setMode = t at hexecute'
  have hleft' : (execute sha256 other).left (w.operated (one.key sha256) (.createIntent text)) (some 2) = t := by
    unfold Tx.left
    rw [hexecute']
    rfl
  -- the retry finds its intent and the mode that it desires
  have hpending : load sha256 t.root (retry.key sha256) = .ok ⟨some intent, none, none⟩ := by
    rw [← hw, hkey]
    exact (load_operated hkeys).trans ((load_operated hkeys).trans hload)
  have hstate : readState sha256 t.root = readState sha256 { w.root with mode := .regular paperBytes } := by
    rw [← hw]
    rfl
  have hrecovered : classifyRecovery intent (readState sha256 t.root) none =
      .ok (.recovered .recoveredModeReplacement) := by
    have hdesired : intent.desiredState = .paper := by
      rw [← hintent]
      show journalDesiredState one.request.command = _
      rw [hone.command]
      rfl
    have hprior : intent.priorStateSha256 = (readState sha256 w.root).stateSha256 := by
      rw [← hintent]
      rfl
    have hfile : (readState sha256 t.root).modeFileSha256 = intent.desiredFileSha256 := by
      rw [hstate, ← hintent]
      rfl
    unfold classifyRecovery
    rw [if_neg (by rw [hdesired]; decide), if_neg (by decide), if_neg (by rw [hstate, hprior]; exact hstates),
      if_pos ⟨hdesired, hfile⟩]
  have hrequest : intent.requestSha256 = requestSha256 sha256 retry.actor retry.request := by
    rw [← hintent]
    exact hsame
  have haccepted : (intent.acceptedAt : ℤ) ≤ retry.appliedAt := by
    rw [← hintent]
    exact hclock
  have hnone : t.root.tombstones (retry.key sha256) = none := by
    rw [← hw, hkey]
    exact hfree
  obtain ⟨applied, hkind, hresult⟩ := execute_recovered hretry hpending hrequest hnone hrecovered haccepted
  refine ⟨⟨makeReceipt sha256 retry intent applied, true⟩, ?_, ?_, ?_⟩
  · unfold answers answers answers answers
    rw [hleft, hleft', hresult, hkey]
    simp
  · show outcomeOf applied.applicationKind = _
    rw [hkind]
    rfl
  · show (((execute sha256 retry).left ((execute sha256 other).left ((execute sha256 one).left w (some 1)) (some 2))
      none).changesOf (one.key sha256)) = _
    rw [hleft, hleft']
    unfold Tx.left
    rw [hresult, ← hw]
    simp [last, World.settled, changesOf_operated, FileOperation.changesSource, hkeys.symm]

theorem digestJson_sample {value : Json} (h : value.Printable) :
    digestJson sampleSha256 value = sizeDigest (Json.dumps value).length :=
  congrArg sizeDigest (Json.utf8ByteSize_of_graphic (Json.graphic_dumps value h))

def modeJson (mode digest : String) : Json := .obj [
  ("kill_switch_activated_at", .null), ("kill_switch_file_sha256", .null), ("kill_switch_reason", .null),
  ("kill_switch_state", .str "INACTIVE"), ("mode_file_sha256", .str digest), ("requested_mode", .str mode),
  ("schema_version", .str "operator-source-state-v1")]

theorem printable_modeJson {mode digest : String} (hmode : Json.PrintableText mode) (hdigest : Json.PrintableText digest) :
    (modeJson mode digest).Printable := by
  simp only [modeJson, Json.Printable, Json.PrintableMembers, hmode, hdigest, true_and, and_true]
  decide +kernel

theorem stateSha256_of_payload {mode : JobWorker.SafetyMode} {digest : Sha256Text}
    (h : sourcePayload sha256 root = ⟨mode, .inactive, none, none, some digest, none⟩) :
    (readState sha256 root).stateSha256 = digestJson sha256 (modeJson (modeValue mode) digest.1) := by
  unfold readState
  simp only [h]
  rfl

theorem sample_states_differ : (readState sampleSha256 { sampleRoot with mode := .regular paperBytes }).stateSha256 ≠
    (readState sampleSha256 sampleRoot).stateSha256 := by
  have hpaper : sourcePayload sampleSha256 { sampleRoot with mode := .regular paperBytes } =
      ⟨.paper, .inactive, none, none, some (sizeDigest 6), none⟩ := by decide +kernel
  have hdryrun : sourcePayload sampleSha256 sampleRoot =
      ⟨.dryrun, .inactive, none, none, some (sizeDigest 7), none⟩ := by decide +kernel
  rw [stateSha256_of_payload hpaper, stateSha256_of_payload hdryrun,
    digestJson_sample (printable_modeJson (by decide +kernel) (by decide +kernel)),
    digestJson_sample (printable_modeJson (by decide +kernel) (by decide +kernel))]
  decide +kernel

theorem undisturbed_paperCall (key : Identity) (now : Instant) : (paperCall key now).Undisturbed :=
  ⟨fun _ => rfl, le_refl _, le_refl _⟩

theorem firstPaper_sample (key : Identity) (now : Instant) :
    FirstPaper sampleSha256 (paperCall key now) (World.first sampleRoot) where
  undisturbed := undisturbed_paperCall key now
  command := rfl
  cli := rfl
  expected := rfl
  fresh := untouched_sampleRoot.load _
  mode := by
    have hmode : (readState sampleSha256 sampleRoot).requestedMode = .dryrun := by decide +kernel
    show (readState sampleSha256 sampleRoot).requestedMode ≠ .paper
    rw [hmode]
    decide
  readable := ⟨_, rfl⟩

theorem decided_sample_run : let calls := [(paperCall oneKey (atSecond 1), some 2), (paperCall oneKey (atSecond 3), none)]
    let w := run sampleSha256 (World.first sampleRoot) calls
    (∀ key, (w.changesOf key).length ≤ 1) ∧ (∀ a ∈ answers sampleSha256 (World.first sampleRoot) calls,
        ∀ b ∈ answers sampleSha256 (World.first sampleRoot) calls, a.1 = b.1 → a.2.receipt = b.2.receipt) ∧
      ∀ a ∈ answers sampleSha256 (World.first sampleRoot) calls, TellsTruth a.2.receipt (w.changesOf a.1) := by
  refine decided_runs_tell_truth sampleSha256 sampleRoot untouched_sampleRoot _ ⟨?_, ?_, trivial⟩
  · intro intent hload
    rw [World.first, untouched_sampleRoot.load] at hload
    cases hload
  · exact decided_after_change (firstPaper_sample oneKey (atSecond 1)) rfl sample_states_differ

/-- One key crashes before it sets the mode, another sets it, and the retry of the first claims the change. -/
theorem other_change_claimed :
    let calls := [(paperCall oneKey (atSecond 1), some 1), (paperCall otherKey (atSecond 2), some 2),
      (paperCall oneKey (atSecond 3), none)]
    ∃ a ∈ answers sampleSha256 (World.first sampleRoot) calls, a.2.receipt.outcome = .recoveredApplied ∧
      (run sampleSha256 (World.first sampleRoot) calls).changesOf a.1 = [] ∧
      ¬ TellsTruth a.2.receipt ((run sampleSha256 (World.first sampleRoot) calls).changesOf a.1) := by
  intro calls
  have hkeys : (paperCall oneKey (atSecond 1)).key sampleSha256 ≠ (paperCall otherKey (atSecond 2)).key sampleSha256 := by
    decide +kernel
  obtain ⟨result, hanswer, houtcome, hchanges⟩ := lost_change_claimed (firstPaper_sample oneKey (atSecond 1))
    (firstPaper_sample otherKey (atSecond 2)) hkeys sample_states_differ (undisturbed_paperCall oneKey (atSecond 3)) rfl rfl
    (by decide) rfl
  refine ⟨_, hanswer, houtcome, hchanges, fun htruth => ?_⟩
  have hnoChange := htruth.unchanged.2 hchanges
  rw [houtcome] at hnoChange
  cases hnoChange

/-! ## Answered commands -/

/-- What a call of an answered key gets. -/
def answerAgain (sha256 : ByteArray → Sha256Text) (call : ExecuteCall) (receipt : CommandReceipt) :
    Except Raised CommandExecutionResult := do
  call.authority .entry
  require (receipt.requestSha256 = requestSha256 sha256 call.actor call.request)
    (.rejected ⟨"IDEMPOTENCY_CONFLICT", 409⟩)
  (call.authority .replay).mapError lockError
  .ok ⟨receipt, true⟩

theorem execute_answered (h : Answered sha256 (call.key sha256) result w) :
    execute sha256 call w = ([], answerAgain sha256 call result.receipt) := by
  obtain ⟨⟨intent, applied, receipt⟩, hload, hreceipt⟩ := h
  obtain ⟨-, -, -, -, hrelations⟩ := load_ok_iff.1 hload
  obtain ⟨hfirst, hsecond, hfits⟩ := validateRelations_ok_iff.1 hrelations
  cases applied with
  | none => cases (hsecond rfl).symm.trans hreceipt
  | some applied =>
  cases intent with
  | none => cases hfirst rfl
  | some intent =>
  obtain rfl : receipt = some result.receipt := hreceipt
  have hsame : result.receipt.requestSha256 = intent.requestSha256 := by
    obtain ⟨-, -, hmirrors⟩ := (hfits intent rfl).2 applied rfl
    exact (hmirrors _ rfl).1.2.2.2.1
  have hlocked : executeLocked sha256 call w =
      (check (intent.requestSha256 = requestSha256 sha256 call.actor call.request)
        (.rejected ⟨"IDEMPOTENCY_CONFLICT", 409⟩) >>= fun _ => (lift (call.authority .replay) >>= fun _ =>
          pure ⟨result.receipt, true⟩ : Action CommandExecutionResult)) w :=
    bind_read_ok (f := fun w : World => load sha256 w.root (call.key sha256)) hload
  unfold execute answerAgain
  cases hentry : call.authority .entry with
  | error raised => rfl
  | ok u =>
    show ((executeLocked sha256 call w).1, (executeLocked sha256 call w).2.mapError lockError) = _
    rw [hlocked, hsame]
    by_cases hrequest : intent.requestSha256 = requestSha256 sha256 call.actor call.request
    · rw [bind_check hrequest, ok_bind, require_of _ hrequest]
      cases call.authority .replay <;> rfl
    · rw [bind_apply_error (e := .rejected ⟨"IDEMPOTENCY_CONFLICT", 409⟩) (if_neg hrequest)]
      simp [require, hrequest]
      rfl

/-- Once a call of its key was answered, a later call of the key writes nothing: the same request is given the receipt
again, and another is a conflict. -/
theorem answered_commands_are_settled (sha256 : ByteArray → Sha256Text) (root : DataRoot) (huntouched : Untouched root)
    (calls more : List (ExecuteCall × Option ℕ)) (call : ExecuteCall) :
    ∀ a ∈ answers sha256 (World.first root) calls, call.key sha256 = a.1 →
      execute sha256 call (run sha256 (World.first root) (calls ++ more)) =
        ([], answerAgain sha256 call a.2.receipt) := by
  intro a ha hkey
  have hkept (calls : List (ExecuteCall × Option ℕ)) {w : World} (h : Sound sha256 (fun _ => True) root w) :
      Kept sha256 (fun _ => True) root False w (run sha256 w calls) :=
    kept_run h False.elim (fun _ _ => trivial) False.elim
  have hsound : Sound sha256 (fun _ => True) root (World.first root) := huntouched.sound
  have hanswered := answered_run hsound False.elim (fun _ _ => trivial) False.elim a ha
  have hmore := hkept more (hkept calls hsound).sound
  have hrun : run sha256 (World.first root) (calls ++ more) = run sha256 (run sha256 (World.first root) calls) more :=
    List.foldl_append ..
  rw [hrun]
  exact execute_answered (hkey ▸ hanswered.kept hmore.keeps hmore.sound)

theorem FirstPaper.answered (h : FirstPaper sha256 call w) (rest : List (ExecuteCall × Option ℕ)) :
    ∃ a ∈ answers sha256 w ((call, none) :: rest), a.1 = call.key sha256 := by
  obtain ⟨applied, -, -, hexecute⟩ := execute_firstPaper h
  simp only [answers, hexecute]
  exact ⟨_, List.mem_cons_self .., rfl⟩

theorem sample_answer_settled : let calls := [(paperCall oneKey (atSecond 1), none)]
    let more := [(paperCall otherKey (atSecond 2), some 1)]
    ∃ a ∈ answers sampleSha256 (World.first sampleRoot) calls,
      execute sampleSha256 (paperCall oneKey (atSecond 3)) (run sampleSha256 (World.first sampleRoot) (calls ++ more)) =
        ([], answerAgain sampleSha256 (paperCall oneKey (atSecond 3)) a.2.receipt) := by
  intro calls more
  obtain ⟨a, ha, hkey⟩ := (firstPaper_sample oneKey (atSecond 1)).answered []
  exact ⟨a, ha, answered_commands_are_settled sampleSha256 sampleRoot untouched_sampleRoot calls more
    (paperCall oneKey (atSecond 3)) a ha hkey.symm⟩

end TradingAgent.OperatorControl
