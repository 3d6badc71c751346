import TradingAgent.Domain.RuntimeHalt
import TradingAgent.Nautilus.PaperEngine
import TradingAgent.Nautilus.PaperRestore

/-!
# Restart classification of a paper session

`reconcile_nautilus_paper` (`paper_runtime/nautilus_reconciliation.py`) with its evidence and decisions. The
classifier relates the target cursor to the number of accepted commands, which counts inspections as well.
-/

namespace TradingAgent.Nautilus

open Outcome PaperSessionJournal PaperRun

/-! ## Evidence and decisions -/

/-- `P1_REAL_BACKTEST_POLICY.closure_sha256` -/
def p1ClosureSha256 : Sha256Hex :=
  ⟨"5863b3c96c9bf31c8c6239cfedb9617b2f7418fff3cd7c697028b15392bf2155", by decide +kernel⟩

inductive NautilusChildState
  | absent
  | running
  | gone
  deriving DecidableEq

inductive NautilusRecoveryDisposition
  | startNew
  | keepRunning
  | alreadyStopped
  | resumeExactPrefix
  | exitOnly
  | reconciliationRequired
  deriving DecidableEq

inductive NautilusRecoveryReason
  | noChildNoCheckpoint
  | childRunningCurrent
  | cleanStopDurable
  | durablePrefixMatch
  | killSwitchEngaged
  | engineMigrationRequired
  | authorityDrift
  | checkpointMissing
  | checkpointAheadOfLedger
  | ledgerAheadOfCheckpoint
  | eventPrefixDrift
  | portfolioDrift
  | targetCursorDrift
  | finalObservationDrift
  | childIdentityDrift
  | childOutcomeUncertain
  | safetyAuthorityUnknown

variable (P : PaperProtocol)

/-- `NautilusRecoveryEvidence`, under the hash `checkpoint_sha256` -/
structure NautilusRecoveryEvidence (checkpointSha256 : PaperSessionCheckpoint P → Sha256Hex) where
  sessionId : Uuid
  (engineVersion expectedEngineVersion : String)
  (closureDigest expectedClosureDigest : Sha256Hex)
  (sourceCommit expectedSourceCommit : SourceCommit)
  (configDigest expectedConfigDigest : Sha256Hex)
  childState : NautilusChildState
  currentChildIdentity : Option Sha256Hex
  checkpoint : Option (NautilusCheckpointRecord P)
  ledgerLastSequence : ℕ
  (ledgerLastEventDigest ledgerEventPrefixSha256 portfolioStateHash : Sha256Hex)
  (targetScheduleCursor expectedTargetScheduleCursor : ℕ)
  finalEngineObservationSha256 : Sha256Hex
  childOutcomeProven : Bool
  killSwitchState : CanonicalKillSwitchState
  commit_length : sourceCommit.text.toList.length = 40 ∧ expectedSourceCommit.text.toList.length = 40
  identity_of_running : childState = .running ↔ currentChildIdentity.isSome
  checkpoint_valid : ∀ record ∈ checkpoint, record.checkpoint.sessionId = sessionId ∧
    record.checkpointSha256 = checkpointSha256 record.checkpoint ∧
    (record.eventBatchSha256.isNone ↔ record.parityReceiptSha256.isNone)

def NautilusRecoveryDisposition.Resumes (disposition : NautilusRecoveryDisposition) : Prop :=
  disposition ∈ [startNew, keepRunning, resumeExactPrefix]

instance (disposition : NautilusRecoveryDisposition) : Decidable disposition.Resumes :=
  inferInstanceAs (Decidable (_ ∈ _))

/-- `NautilusRecoveryDecision`; its `reason_codes` are one reason, and `network_query_allowed` is false. -/
structure NautilusRecoveryDecision where
  disposition : NautilusRecoveryDisposition
  reasonCode : NautilusRecoveryReason
  (allowsAutomaticResume allowsNewOpeningTargets requiresOperatorReconciliation : Bool)
  resume_consistent : allowsAutomaticResume = decide disposition.Resumes
  opening_consistent : allowsNewOpeningTargets = decide disposition.Resumes
  blocked_consistent : requiresOperatorReconciliation = decide (disposition = .reconciliationRequired)

namespace NautilusRecoveryDecision

def blocked (reason : NautilusRecoveryReason) : NautilusRecoveryDecision where
  disposition := .reconciliationRequired
  reasonCode := reason
  allowsAutomaticResume := false
  allowsNewOpeningTargets := false
  requiresOperatorReconciliation := true
  resume_consistent := rfl
  opening_consistent := rfl
  blocked_consistent := rfl

def accepted (disposition : NautilusRecoveryDisposition) (reason : NautilusRecoveryReason)
    (h : disposition ≠ .reconciliationRequired := by decide) : NautilusRecoveryDecision where
  disposition := disposition
  reasonCode := reason
  allowsAutomaticResume := decide disposition.Resumes
  allowsNewOpeningTargets := decide disposition.Resumes
  requiresOperatorReconciliation := false
  resume_consistent := rfl
  opening_consistent := rfl
  blocked_consistent := by simp [h]

end NautilusRecoveryDecision

/-! ## The classifier -/

section

variable {P} {checkpointSha256 : PaperSessionCheckpoint P → Sha256Hex}
  (e : NautilusRecoveryEvidence P checkpointSha256)

def NautilusRecoveryEvidence.Empty : Prop :=
  e.childState = .absent ∧ e.ledgerLastSequence = 0 ∧ e.ledgerLastEventDigest = zeroDigest ∧
    e.ledgerEventPrefixSha256 = zeroDigest ∧ e.portfolioStateHash = zeroDigest ∧ e.targetScheduleCursor = 0 ∧
    e.expectedTargetScheduleCursor = 0 ∧ e.finalEngineObservationSha256 = zeroDigest

instance : Decidable e.Empty := inferInstanceAs (Decidable (_ ∧ _ ∧ _ ∧ _ ∧ _ ∧ _ ∧ _ ∧ _))

def terminalOffset (checkpoint : PaperSessionCheckpoint P) : ℕ := if checkpoint.state = .stopping then 2 else 1

/-- The part of `reconcile_nautilus_paper` after the drift checks against a checkpoint. -/
def resumeDecision (record : NautilusCheckpointRecord P) : NautilusRecoveryDecision :=
  if e.killSwitchState = .active then .accepted .exitOnly .killSwitchEngaged
  else if e.childState = .running then .accepted .keepRunning .childRunningCurrent
  else if e.childState = .gone ∧ record.checkpoint.state = .stopping ∧
      record.checkpoint.lastCommandType = .stopPaperEngine ∧ record.eventBatchSha256 ≠ none ∧
      e.childOutcomeProven = true then .accepted .alreadyStopped .cleanStopDurable
  else if e.childOutcomeProven = false then .blocked .childOutcomeUncertain
  else if e.childState = .gone then .accepted .resumeExactPrefix .durablePrefixMatch
  else .blocked .childOutcomeUncertain

/-- The part of `reconcile_nautilus_paper` with a checkpoint. -/
def checkpointDecision (record : NautilusCheckpointRecord P) : NautilusRecoveryDecision :=
  let checkpoint := record.checkpoint
  if checkpoint.closureDigest ≠ e.expectedClosureDigest then .blocked .authorityDrift
  else if e.ledgerLastSequence < checkpoint.lastEmittedEvent then .blocked .checkpointAheadOfLedger
  else if checkpoint.lastEmittedEvent < e.ledgerLastSequence then .blocked .ledgerAheadOfCheckpoint
  else if e.ledgerLastEventDigest ≠ checkpoint.lastEventDigest ∨
      e.ledgerEventPrefixSha256 ≠ checkpoint.eventPrefixSha256 then .blocked .eventPrefixDrift
  else if e.portfolioStateHash ≠ checkpoint.portfolioStateHash then .blocked .portfolioDrift
  else if e.targetScheduleCursor ≠ e.expectedTargetScheduleCursor ∨
      (e.targetScheduleCursor : ℤ) ≠ checkpoint.lastAcceptedCommand - terminalOffset checkpoint then
    .blocked .targetCursorDrift
  else if e.finalEngineObservationSha256 ≠ checkpoint.semanticStateHash then .blocked .finalObservationDrift
  else if e.childState = .running ∧ e.currentChildIdentity ≠ some checkpoint.childIdentity then
    .blocked .childIdentityDrift
  else resumeDecision e record

def reconcileNautilusPaper : NautilusRecoveryDecision :=
  if e.engineVersion ≠ e.expectedEngineVersion then
    .blocked (if e.engineVersion = "1.227.0" then .engineMigrationRequired else .authorityDrift)
  else if e.expectedEngineVersion ≠ p1EngineVersion ∨ e.expectedClosureDigest ≠ p1ClosureSha256 ∨
      e.closureDigest ≠ e.expectedClosureDigest ∨ e.sourceCommit ≠ e.expectedSourceCommit ∨
      e.configDigest ≠ e.expectedConfigDigest then .blocked .authorityDrift
  else if e.killSwitchState = .unknown then .blocked .safetyAuthorityUnknown
  else
    match e.checkpoint with
    | none =>
      if e.Empty ∧ e.killSwitchState = .inactive then .accepted .startNew .noChildNoCheckpoint
      else .blocked .checkpointMissing
    | some record => checkpointDecision e record

end

/-! ## The state of a live session -/

section

variable {P : PaperProtocol} {run next : PaperRun P} {input : PaperInput P}

def StopLogged (run : PaperRun P) : Prop :=
  ∃ frame ∈ loggedCommands run.log, frame.command.commandType = .stopPaperEngine

/-- Nothing but an accepted stop leads to the state `STOPPING`. -/
structure StopsByCommand (run : PaperRun P) : Prop where
  state : run.journal.state = .stopping → StopLogged run
  expected : ∀ id command, run.journal.requests.get? id = some command →
    command.expectedAckState = .stopping → StopLogged run

theorem StopsByCommand.command {frame : PaperCommandFrame P} {state : PaperSessionState} (sha256 : Sha256Hex)
    (h : StopsByCommand run) (hstate : run.journal.validateCommandState frame.command = .ok state) :
    StopsByCommand ⟨run.journal.recordCommand P sha256 frame state, run.log ++ [.command frame]⟩ := by
  have hstop (hstopping : state = .stopping) :
      ∃ f ∈ loggedCommands run.log ++ [frame], f.command.commandType = .stopPaperEngine := by
    have hold (hsame : run.journal.state = .stopping) :
        ∃ f ∈ loggedCommands run.log ++ [frame], f.command.commandType = .stopPaperEngine := by
      obtain ⟨f, hf, htype⟩ := h.state hsame
      exact ⟨f, List.mem_append_left _ hf, htype⟩
    cases hcommand : frame.command with
    | startPaperEngine artifacts =>
      simp only [hcommand, validateCommandState, bind_ok_iff, Except.ok.injEq] at hstate
      obtain ⟨-, -, rfl⟩ := hstate
      exact absurd hstopping (by decide)
    | submitTargetPortfolio portfolio =>
      simp only [hcommand, validateCommandState, bind_ok_iff, Except.ok.injEq] at hstate
      obtain ⟨-, -, rfl⟩ := hstate
      exact hold hstopping
    | stopPaperEngine target => exact ⟨frame, by simp, by rw [hcommand]; rfl⟩
    | inspectEngineRun target =>
      simp only [hcommand, validateCommandState, bind_ok_iff, Except.ok.injEq] at hstate
      obtain ⟨-, -, rfl⟩ := hstate
      exact hold hstopping
    | requestExecutionReconciliation =>
      simp only [hcommand, validateCommandState, Except.ok.injEq] at hstate
      exact hold (hstate.trans hstopping)
  constructor
  · intro hstopping
    simpa [StopLogged] using hstop hstopping
  · intro id command hget hexpected
    simp only [recordCommand, Dict.get?_set] at hget
    split_ifs at hget with heq
    · obtain rfl := Option.some.inj hget
      simp only [PaperSessionJournal.expectedAckState] at hexpected
      split_ifs at hexpected
      simpa [StopLogged] using hstop hexpected
    · obtain ⟨f, hf, htype⟩ := h.expected id command hget hexpected
      exact ⟨f, by simp [hf], htype⟩

theorem StopsByCommand.moves (h : StopsByCommand run) (hmove : Moves run input next) : StopsByCommand next := by
  cases hmove with
  | idle => exact h
  | reconcile =>
    constructor
    · intro hstopping
      simp [withState] at hstopping
    · exact h.expected
  | command raw frame state hidentity hterminal hacked hsequence hstate => exact h.command raw.sha256 hstate
  | event frame =>
    constructor
    · intro hstopping
      simpa [StopLogged] using h.state hstopping
    · intro id command hget hexpected
      simpa [StopLogged] using h.expected id command hget hexpected
  | acknowledgement raw frame id command hcommand hmatch hsequence hstate =>
    constructor
    · intro hstopping
      obtain ⟨-, ⟨hsame, -⟩ | ⟨hsame | hfailed | hrecon, -⟩⟩ := acknowledgedState_ok hstate
      · simpa [StopLogged] using h.expected id command hcommand (hsame.symm.trans hstopping)
      · simpa [StopLogged] using h.expected id command hcommand (hsame.symm.trans hstopping)
      · exact absurd (hfailed.symm.trans hstopping) (by decide)
      · exact absurd (hrecon.symm.trans hstopping) (by decide)
    · intro id command hget hexpected
      simpa [StopLogged] using h.expected id command hget hexpected
  | stop =>
    constructor
    · intro hstopping
      simp [withState] at hstopping
    · exact h.expected

theorem stopsByCommand_run (sessionId ownerId : Uuid) (inputs : List (PaperInput P)) :
    StopsByCommand ((fresh P sessionId ownerId).run inputs) := by
  induction inputs using List.reverseRecOn with
  | nil =>
    constructor
    · intro h
      simp [PaperRun.run, fresh] at h
    · intro id command h
      simp [PaperRun.run, fresh] at h
  | append_singleton inputs input ih =>
    rw [run_concat]
    exact ih.moves (step_moves _ input)

theorem stopping_iff {sessionId ownerId : Uuid} {inputs : List (PaperInput P)}
    (hlive : ¬ ((fresh P sessionId ownerId).run inputs).journal.state.Terminal) :
    ((fresh P sessionId ownerId).run inputs).journal.state = .stopping ↔
      StopLogged ((fresh P sessionId ownerId).run inputs) := by
  constructor
  · exact (stopsByCommand_run sessionId ownerId inputs).state
  · rintro ⟨frame, hframe, htype⟩
    exact ((sound_run sessionId ownerId inputs).stop_state frame hframe htype).resolve_right hlive

end

/-! ## Faithful evidence -/

section

variable {P : PaperProtocol} {E : NativeEngine} {checkpointSha256 : PaperSessionCheckpoint P → Sha256Hex}
  {e : NautilusRecoveryEvidence P checkpointSha256} {c : PaperSessionCheckpoint P} {processed : ℕ}

structure NautilusRecoveryEvidence.Current (e : NautilusRecoveryEvidence P checkpointSha256) : Prop where
  version : e.engineVersion = e.expectedEngineVersion ∧ e.expectedEngineVersion = p1EngineVersion
  closure : e.closureDigest = e.expectedClosureDigest ∧ e.expectedClosureDigest = p1ClosureSha256
  commit : e.sourceCommit = e.expectedSourceCommit
  config : e.configDigest = e.expectedConfigDigest

/-- The evidence agrees with a checkpoint and with the number of target portfolios processed. -/
structure NautilusRecoveryEvidence.Faithful (e : NautilusRecoveryEvidence P checkpointSha256)
    (c : PaperSessionCheckpoint P) (processed : ℕ) : Prop extends e.Current where
  checkpoint : e.checkpoint.map NautilusCheckpointRecord.checkpoint = some c
  ledger : e.ledgerLastSequence = c.lastEmittedEvent ∧ e.ledgerLastEventDigest = c.lastEventDigest ∧
    e.ledgerEventPrefixSha256 = c.eventPrefixSha256
  portfolio : e.portfolioStateHash = c.portfolioStateHash
  observation : e.finalEngineObservationSha256 = c.semanticStateHash
  cursors : e.targetScheduleCursor = processed ∧ e.expectedTargetScheduleCursor = processed
  child : e.childState = .gone ∧ e.childOutcomeProven = true ∨
    e.childState = .running ∧ e.currentChildIdentity = some c.childIdentity
  known : e.killSwitchState ≠ .unknown

/-- No faithful evidence calls for a reconciliation. -/
def NeverBlocked (checkpointSha256 : PaperSessionCheckpoint P → Sha256Hex) (c : PaperSessionCheckpoint P)
    (processed : ℕ) : Prop :=
  ∀ e : NautilusRecoveryEvidence P checkpointSha256, e.Faithful c processed →
    (reconcileNautilusPaper e).disposition ≠ .reconciliationRequired

/-- Evidence that resumes by itself is current, has an inactive kill switch, and is faithful to the checkpoint
or shows that nothing exists yet. -/
def ResumesSafely (checkpointSha256 : PaperSessionCheckpoint P → Sha256Hex) (c : PaperSessionCheckpoint P)
    (processed : ℕ) : Prop :=
  ∀ e : NautilusRecoveryEvidence P checkpointSha256, (∀ record ∈ e.checkpoint, record.checkpoint = c) →
    (reconcileNautilusPaper e).allowsAutomaticResume = true → e.Current ∧ e.killSwitchState = .inactive ∧
      (e.checkpoint = none ∧ e.Empty ∨ e.Faithful c processed)

def CursorMatches (c : PaperSessionCheckpoint P) (cursor : ℕ) : Prop :=
  (cursor : ℤ) = c.lastAcceptedCommand - terminalOffset c

theorem current_of_resumes (h : (reconcileNautilusPaper e).allowsAutomaticResume = true) :
    e.Current ∧ e.killSwitchState ≠ .unknown ∧ (e.checkpoint = none ∧ e.Empty ∧ e.killSwitchState = .inactive ∨
        ∃ record, e.checkpoint = some record ∧ (checkpointDecision e record).allowsAutomaticResume = true) := by
  have hnot (reason : NautilusRecoveryReason) :
      (NautilusRecoveryDecision.blocked reason).allowsAutomaticResume ≠ true := by
    simp [NautilusRecoveryDecision.blocked]
  unfold reconcileNautilusPaper at h
  by_cases hversion : e.engineVersion = e.expectedEngineVersion
  swap
  · rw [if_pos hversion] at h
    exact absurd h (hnot _)
  rw [if_neg (not_not.2 hversion)] at h
  split at h
  · exact absurd h (hnot _)
  rename_i hdrift
  push Not at hdrift
  obtain ⟨hexpected, hpolicy, hclosure, hcommit, hconfig⟩ := hdrift
  split at h
  · exact absurd h (hnot _)
  rename_i hknown
  refine ⟨⟨⟨hversion, hexpected⟩, ⟨hclosure, hpolicy⟩, hcommit, hconfig⟩, hknown, ?_⟩
  cases hrecord : e.checkpoint with
  | none =>
    rw [hrecord] at h
    dsimp only at h
    split_ifs at h with hempty
    · exact .inl ⟨rfl, hempty⟩
    · exact absurd h (hnot _)
  | some record =>
    rw [hrecord] at h
    exact .inr ⟨record, rfl, h⟩

theorem faithful_of_resumes {record : NautilusCheckpointRecord P} (hcurrent : e.Current)
    (hknown : e.killSwitchState ≠ .unknown) (hrecord : e.checkpoint = some record)
    (h : (checkpointDecision e record).allowsAutomaticResume = true) :
    e.killSwitchState = .inactive ∧ CursorMatches record.checkpoint e.targetScheduleCursor ∧
      e.Faithful record.checkpoint e.targetScheduleCursor := by
  unfold checkpointDecision at h
  dsimp only at h
  split_ifs at h with hclosure hahead hbehind hdigests hportfolio hcursor hobservation hidentity
  iterate 8
    · exact absurd h (by decide)
  push Not at hdigests hcursor
  obtain ⟨hinactive, hchild⟩ : e.killSwitchState = .inactive ∧ (e.childState = .running ∨
      e.childState = .gone ∧ e.childOutcomeProven = true) := by
    unfold resumeDecision at h
    split_ifs at h with hactive hrunning hstopped hunproven hgone
    · exact absurd h (by decide)
    · refine ⟨?_, .inl hrunning⟩
      cases hkill : e.killSwitchState <;> simp_all
    · exact absurd h (by decide)
    · exact absurd h (by decide)
    · refine ⟨?_, .inr ⟨hgone, by simpa using hunproven⟩⟩
      cases hkill : e.killSwitchState <;> simp_all
    · exact absurd h (by decide)
  refine ⟨hinactive, hcursor.2, ?_⟩
  exact {
    toCurrent := hcurrent
    checkpoint := by rw [hrecord]; rfl
    ledger := ⟨by omega, hdigests⟩
    portfolio := not_not.1 hportfolio
    observation := not_not.1 hobservation
    cursors := ⟨rfl, hcursor.1.symm⟩
    child := by
      rcases hchild with hrunning | hgone
      · exact .inr ⟨hrunning, by simpa [hrunning] using hidentity⟩
      · exact .inl hgone
    known := hknown }

theorem not_blocked_iff (h : e.Faithful c processed) (hclosure : c.closureDigest = p1ClosureSha256) :
    (reconcileNautilusPaper e).disposition ≠ .reconciliationRequired ↔ CursorMatches c processed := by
  obtain ⟨record, hrecord, rfl⟩ := Option.map_eq_some_iff.1 h.checkpoint
  have hreconcile : reconcileNautilusPaper e = checkpointDecision e record := by
    unfold reconcileNautilusPaper
    rw [if_neg (not_not.2 h.version.1), if_neg, if_neg h.known, hrecord]
    push Not
    exact ⟨h.version.2, h.closure.2, h.closure.1, h.commit, h.config⟩
  have hresume : (resumeDecision e record).disposition ≠ .reconciliationRequired := by
    unfold resumeDecision
    split_ifs with hactive hrunning hstopped hunproven hgone
    · decide
    · decide
    · decide
    · rcases h.child with ⟨-, hproven⟩ | ⟨hrunning', -⟩
      · simp [hproven] at hunproven
      · exact absurd hrunning' hrunning
    · decide
    · rcases h.child with ⟨hgone', -⟩ | ⟨hrunning', -⟩
      · exact absurd hgone' hgone
      · exact absurd hrunning' hrunning
  have hidentity : ¬ (e.childState = .running ∧ e.currentChildIdentity ≠ some record.checkpoint.childIdentity) := by
    rintro ⟨hrunning, hother⟩
    rcases h.child with ⟨hgone, -⟩ | ⟨-, hsame⟩
    · exact absurd (hgone.symm.trans hrunning) (by decide)
    · exact hother hsame
  rw [hreconcile, checkpointDecision, if_neg (by rw [hclosure, h.closure.2]; simp),
    if_neg (by rw [h.ledger.1]; exact lt_irrefl _),
    if_neg (by rw [h.ledger.1]; exact lt_irrefl _),
    if_neg (by rw [h.ledger.2.1, h.ledger.2.2]; simp), if_neg (not_not.2 h.portfolio)]
  by_cases hcursor : CursorMatches record.checkpoint processed
  · rw [if_neg, if_neg (not_not.2 h.observation), if_neg hidentity]
    · exact iff_of_true hresume hcursor
    · rw [h.cursors.1, h.cursors.2]
      simpa [CursorMatches] using hcursor
  · rw [if_pos]
    · exact iff_of_false (by simp [NautilusRecoveryDecision.blocked]) hcursor
    · rw [h.cursors.1]
      exact .inr hcursor

def faithfulEvidence (checkpointSha256 : PaperSessionCheckpoint P → Sha256Hex) (c : PaperSessionCheckpoint P)
    (processed : ℕ) (commit : SourceCommit) (hcommit : commit.text.toList.length = 40) :
    NautilusRecoveryEvidence P checkpointSha256 where
  sessionId := c.sessionId
  engineVersion := p1EngineVersion
  expectedEngineVersion := p1EngineVersion
  closureDigest := p1ClosureSha256
  expectedClosureDigest := p1ClosureSha256
  sourceCommit := commit
  expectedSourceCommit := commit
  configDigest := zeroDigest
  expectedConfigDigest := zeroDigest
  childState := .gone
  currentChildIdentity := none
  checkpoint := some { checkpoint := c, checkpointSha256 := checkpointSha256 c }
  ledgerLastSequence := c.lastEmittedEvent
  ledgerLastEventDigest := c.lastEventDigest
  ledgerEventPrefixSha256 := c.eventPrefixSha256
  portfolioStateHash := c.portfolioStateHash
  targetScheduleCursor := processed
  expectedTargetScheduleCursor := processed
  finalEngineObservationSha256 := c.semanticStateHash
  childOutcomeProven := true
  killSwitchState := .inactive
  commit_length := ⟨hcommit, hcommit⟩
  identity_of_running := by simp
  checkpoint_valid := by simp

theorem faithful_faithfulEvidence (checkpointSha256 : PaperSessionCheckpoint P → Sha256Hex)
    (commit : SourceCommit) (hcommit : commit.text.toList.length = 40) :
    (faithfulEvidence checkpointSha256 c processed commit hcommit).Faithful c processed where
  version := ⟨rfl, rfl⟩
  closure := ⟨rfl, rfl⟩
  commit := rfl
  config := rfl
  checkpoint := rfl
  ledger := ⟨rfl, rfl, rfl⟩
  portfolio := rfl
  observation := rfl
  cursors := ⟨rfl, rfl⟩
  child := .inl ⟨rfl, rfl⟩
  known := by simp [faithfulEvidence]

end

/-! ## Live sessions -/

section

variable {P : PaperProtocol} {E : NativeEngine} {run : PaperRun P} {loop : PaperCommandLoop E}
  {c : PaperSessionCheckpoint P}

theorem closureDigest_checkpoint {j j' : PaperSessionJournal} {authority : CheckpointAuthority}
    (h : j.checkpoint P authority = some (c, j')) : c.closureDigest = authority.closureDigest := by
  simp only [PaperSessionJournal.checkpoint, Option.bind_eq_bind, Option.bind_eq_some_iff] at h
  obtain ⟨last, hlast, h⟩ := h
  split_ifs at h
  obtain ⟨rfl, -⟩ := Prod.mk.inj (Option.some.inj h)
  rfl

/-- A reachable, acknowledged, non-terminal session, whose child has executed the accepted commands, and its
checkpoint under the current closure. -/
structure Live (run : PaperRun P) (loop : PaperCommandLoop E) (c : PaperSessionCheckpoint P) : Prop where
  reached : ∃ sessionId ownerId inputs, run = (fresh P sessionId ownerId).run inputs
  executed : ({} : PaperCommandLoop E).acceptAll (loggedCommands run.log) = .ok loop
  acknowledged : run.journal.lastAcknowledgedCommand = run.journal.lastAcceptedCommand
  not_terminal : ¬ run.journal.state.Terminal
  checkpoint : ∃ authority journal, run.journal.checkpoint P authority = some (c, journal)
  closure : c.closureDigest = p1ClosureSha256

theorem Live.cursorMatches_iff (h : Live run loop c) :
    CursorMatches c loop.processed ↔ countCommands .inspectEngineRun (loggedCommands run.log) =
      PaperCommandLoop.exitTargets E (loggedCommands run.log) := by
  obtain ⟨sessionId, ownerId, inputs, rfl⟩ := h.reached
  obtain ⟨authority, journal, hcheckpoint⟩ := h.checkpoint
  have hcounted := PaperCommandLoop.counted h.executed
  have hlength := (sound_run sessionId ownerId inputs).length_commands
  have hstate := stopping_iff h.not_terminal
  rw [StopLogged, ← hcounted.stopping] at hstate
  obtain ⟨-, -, hpos, -, -, -, hcstate, hcaccepted, -⟩ := checkpoint_eq_some hcheckpoint
  have hstarted : loop.state ≠ .created := by
    intro hcreated
    have hnone := (hcounted.created hcreated).1
    rw [hnone] at hlength
    simp only [List.length_nil] at hlength
    omega
  have hcount := hcounted.length hstarted
  have hprocessed := hcounted.processed
  rw [CursorMatches, terminalOffset, hcstate, hcaccepted]
  by_cases hstopping : loop.state = .stopping
  · rw [if_pos (hstate.2 hstopping)]
    rw [if_pos hstopping] at hcount
    omega
  · rw [if_neg (mt hstate.1 hstopping)]
    rw [if_neg hstopping] at hcount
    omega

/-- The classifier is right exactly when as many inspections were accepted as the stop settled targets by itself. -/
theorem recovery_follows_targets_iff (checkpointSha256 : PaperSessionCheckpoint P → Sha256Hex)
    (h : Live run loop c) :
    (NeverBlocked checkpointSha256 c loop.processed ∧ ResumesSafely checkpointSha256 c loop.processed) ↔
      countCommands .inspectEngineRun (loggedCommands run.log) =
        PaperCommandLoop.exitTargets E (loggedCommands run.log) := by
  rw [← h.cursorMatches_iff]
  constructor
  · rintro ⟨hnever, -⟩
    have hfaithful : (faithfulEvidence checkpointSha256 c loop.processed sampleCommit
        (by decide +kernel)).Faithful c loop.processed := faithful_faithfulEvidence _ _ _
    exact (not_blocked_iff hfaithful h.closure).1 (hnever _ hfaithful)
  · intro hcursor
    refine ⟨fun e he => (not_blocked_iff he h.closure).2 hcursor, fun e he hresumes => ?_⟩
    obtain ⟨hcurrent, hknown, ⟨hnone, hempty, hinactive⟩ | ⟨record, hrecord, hresumes⟩⟩ :=
      current_of_resumes hresumes
    · exact ⟨hcurrent, hinactive, .inl ⟨hnone, hempty⟩⟩
    · obtain rfl := he record hrecord
      obtain ⟨hinactive, hmatches, hfaithful⟩ := faithful_of_resumes hcurrent hknown hrecord hresumes
      have hsame : e.targetScheduleCursor = loop.processed := by
        unfold CursorMatches at hmatches hcursor
        omega
      exact ⟨hcurrent, hinactive, .inr (hsame ▸ hfaithful)⟩

end

/-! ## Two sessions -/

def sampleEngine : NativeEngine where
  engineRunId := 1
  causationId := 2
  artifacts := ""
  targets := [⟨"t", "", false⟩]
  ids_nodup := by decide
  State := Bool
  Datum := Unit
  data := [()]
  created := false
  feed _ _ := true
  processed done := done.toNat
  completed done := done
  exposed done := done
  finishExitOnly _ := .error (.valueError "exit-only completion is invalid")
  finish done := .ok done
  processed_created := rfl
  processed_feed := by decide
  processed_rest := by
    rintro s data rfl
    induction data with
    | nil => rfl
    | cons d data ih => exact ih
  processed_exitOnly := by simp
  completed_exitOnly := by simp
  processed_finish := by
    rintro s s' h
    rw [Except.ok.inj h]

def currentAuthority : CheckpointAuthority := ⟨zeroDigest, zeroDigest, p1ClosureSha256, zeroDigest⟩

/-- The loop of the child and the checkpoint after the given inputs. -/
def standing (inputs : List (PaperInput sampleProtocol)) :
    Option (PaperCommandLoop sampleEngine × PaperSessionCheckpoint sampleProtocol) := do
  let run := (fresh sampleProtocol 1 2).run inputs
  let loop ← (({} : PaperCommandLoop sampleEngine).acceptAll (loggedCommands run.log)).toOption
  let (c, _) ← run.journal.checkpoint sampleProtocol currentAuthority
  if run.journal.lastAcknowledgedCommand = run.journal.lastAcceptedCommand ∧ ¬ run.journal.state.Terminal then
    some (loop, c)
  else none

theorem live_of_standing {inputs : List (PaperInput sampleProtocol)} {loop : PaperCommandLoop sampleEngine}
    {c : PaperSessionCheckpoint sampleProtocol} (h : standing inputs = some (loop, c)) :
    Live ((fresh sampleProtocol 1 2).run inputs) loop c := by
  simp only [standing, Option.bind_eq_bind, Option.bind_eq_some_iff] at h
  obtain ⟨loop', hloop, ⟨c', j⟩, hcheckpoint, h⟩ := h
  split_ifs at h with hstate
  obtain ⟨rfl, rfl⟩ := Prod.mk.inj (Option.some.inj h)
  refine ⟨⟨1, 2, inputs, rfl⟩, ?_, hstate.1, hstate.2, ⟨currentAuthority, j, hcheckpoint⟩, ?_⟩
  · revert hloop
    cases ({} : PaperCommandLoop sampleEngine).acceptAll
        (loggedCommands ((fresh sampleProtocol 1 2).run inputs).log) with
    | error e => simp [Except.toOption]
    | ok loop => simp [Except.toOption]
  · rw [closureDigest_checkpoint hcheckpoint]
    rfl

def submittedSession : List (PaperInput sampleProtocol) :=
  [sampleCommand 0 (.startPaperEngine ""), sampleAck 0 .running, sampleEvent 1 2 sampleStart,
    sampleCommand 1 (.submitTargetPortfolio ""), sampleAck 1 .running]

/-- Without inspections the classifier is right. -/
theorem submitted_session_recovers : ∃ loop c, standing submittedSession = some (loop, c) ∧
    loop.processed = 1 ∧ NeverBlocked (fun _ => zeroDigest) c loop.processed ∧
      ResumesSafely (fun _ => zeroDigest) c loop.processed := by
  have hrun : ((standing submittedSession).any fun s => decide (s.1.processed = 1)) = true := by
    decide +kernel
  obtain ⟨⟨loop, c⟩, hsome, hprocessed⟩ := (Option.any_eq_true _ _).1 hrun
  exact ⟨loop, c, hsome, of_decide_eq_true hprocessed,
    (recovery_follows_targets_iff _ (live_of_standing hsome)).2 (by decide +kernel)⟩

def inspectedSession : List (PaperInput sampleProtocol) :=
  submittedSession ++ [sampleCommand 2 (.inspectEngineRun 1), sampleAck 2 .running]

theorem inspected_session_is_blocked :
    ¬ ∀ (P : PaperProtocol) (E : NativeEngine) (run : PaperRun P) (loop : PaperCommandLoop E)
      (c : PaperSessionCheckpoint P) (checkpointSha256 : PaperSessionCheckpoint P → Sha256Hex),
      Live run loop c → NeverBlocked checkpointSha256 c loop.processed ∧
        ResumesSafely checkpointSha256 c loop.processed := by
  intro hclaim
  have hrun : ((standing inspectedSession).any fun s =>
      decide ((reconcileNautilusPaper (faithfulEvidence (fun _ => zeroDigest) s.2 s.1.processed sampleCommit
        (by decide +kernel))).disposition = .reconciliationRequired)) = true := by decide +kernel
  obtain ⟨⟨loop, c⟩, hsome, hblocked⟩ := (Option.any_eq_true _ _).1 hrun
  exact (hclaim _ _ _ loop c (fun _ => zeroDigest) (live_of_standing hsome)).1 _
    (faithful_faithfulEvidence _ _ _) (of_decide_eq_true hblocked)

end TradingAgent.Nautilus
