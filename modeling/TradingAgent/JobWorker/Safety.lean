import TradingAgent.Domain.RuntimeHalt

/-!
# Safety evidence

The safety snapshot of a worker and the checks before a spawn (`job_worker/safety.py` and
`job_worker/safety_state.py`).
-/

namespace TradingAgent.JobWorker

open Outcome

inductive SafetyMode
  | paper
  | dryrun
  | live
  | unknown
  deriving DecidableEq

structure SafetySnapshot where
  (requestedMode effectiveMode : SafetyMode)
  (liveExecutionEnabled liveTradingApproved : Option Bool)
  killSwitchState : CanonicalKillSwitchState

/-- `SafetyEvidence`: a snapshot and its validity window. Nothing reads the digest. -/
structure SafetyEvidence extends SafetySnapshot where
  (generatedAt expiresAt : DateTime)

structure SafetyBlockedError where
  (reason message : String)

def snapshotTtlSeconds : ℤ := 6

def assertSafe (snapshot : SafetySnapshot) : Except SafetyBlockedError Unit := do
  require (snapshot.requestedMode ≠ .unknown)
    ⟨"SAFETY_REQUESTED_MODE_UNKNOWN", "requested mode evidence is missing or unknown"⟩
  require (snapshot.requestedMode = .paper) ⟨"SAFETY_REQUESTED_MODE_NOT_PAPER", "requested mode is not paper"⟩
  require (snapshot.effectiveMode ≠ .unknown) ⟨"SAFETY_EFFECTIVE_MODE_UNKNOWN", "effective mode is unknown"⟩
  require (snapshot.effectiveMode = .paper) ⟨"SAFETY_EFFECTIVE_MODE_NOT_PAPER", "effective mode is not paper"⟩
  require (snapshot.liveExecutionEnabled ≠ none)
    ⟨"SAFETY_LIVE_EXECUTION_GATE_UNKNOWN", "execution gate evidence is missing or unknown"⟩
  require (snapshot.liveExecutionEnabled ≠ some true)
    ⟨"SAFETY_LIVE_EXECUTION_GATE_ENABLED", "execution gate is enabled"⟩
  require (snapshot.liveTradingApproved ≠ none)
    ⟨"SAFETY_LIVE_APPROVAL_GATE_UNKNOWN", "approval gate evidence is missing or unknown"⟩
  require (snapshot.liveTradingApproved ≠ some true)
    ⟨"SAFETY_LIVE_APPROVAL_GATE_ENABLED", "approval gate is enabled"⟩
  require (snapshot.killSwitchState ≠ .unknown)
    ⟨"SAFETY_KILL_SWITCH_UNKNOWN", "kill switch evidence is missing or unknown"⟩
  require (snapshot.killSwitchState = .inactive) ⟨"SAFETY_KILL_SWITCH_ACTIVE", "kill switch is active"⟩

def validateCurrentSafetyEvidence (evidence : SafetyEvidence) (now : DateTime) :
    Except SafetyBlockedError SafetyEvidence := do
  require (evidence.expiresAt - evidence.generatedAt = TimeDelta.seconds snapshotTtlSeconds)
    ⟨"SAFETY_STATE_WINDOW_INVALID", "safety evidence validity window is invalid"⟩
  require (evidence.generatedAt ≤ now) ⟨"SAFETY_STATE_FROM_FUTURE", "safety evidence is from the future"⟩
  require (now < evidence.expiresAt) ⟨"SAFETY_STATE_STALE", "safety evidence is stale"⟩
  assertSafe evidence.toSafetySnapshot
  .ok evidence

/-- Evidence that permits paper trading now: complete, explicit, and inside its window. -/
structure SafetyEvidence.Current (evidence : SafetyEvidence) (now : DateTime) : Prop where
  window : evidence.generatedAt ≤ now ∧ now < evidence.expiresAt ∧
    evidence.expiresAt - evidence.generatedAt = TimeDelta.seconds snapshotTtlSeconds
  paper : evidence.requestedMode = .paper ∧ evidence.effectiveMode = .paper
  gates_closed : evidence.liveExecutionEnabled = some false ∧ evidence.liveTradingApproved = some false
  kill_switch : evidence.killSwitchState = .inactive

theorem assertSafe_ok_iff {snapshot : SafetySnapshot} {u : Unit} : assertSafe snapshot = .ok u ↔
      (snapshot.requestedMode = .paper ∧ snapshot.effectiveMode = .paper) ∧
        (snapshot.liveExecutionEnabled = some false ∧ snapshot.liveTradingApproved = some false) ∧
        snapshot.killSwitchState = .inactive := by
  have hgate (gate : Option Bool) : gate = some false ↔ gate ≠ none ∧ gate ≠ some true := by
    rcases gate with _ | _ | _ <;> simp
  simp only [assertSafe, bind_ok_iff, require_ok_iff, exists_const, hgate]
  constructor
  · rintro ⟨-, hrequested, -, heffective, hexecution, henabled, happroval, happroved, -, hkill⟩
    exact ⟨⟨hrequested, heffective⟩, ⟨⟨hexecution, henabled⟩, happroval, happroved⟩, hkill⟩
  · rintro ⟨⟨hrequested, heffective⟩, ⟨⟨hexecution, henabled⟩, happroval, happroved⟩, hkill⟩
    exact ⟨by simp [hrequested], hrequested, by simp [heffective], heffective, hexecution, henabled, happroval,
      happroved, by simp [hkill], hkill⟩

theorem validateCurrentSafetyEvidence_ok_iff {evidence validated : SafetyEvidence} {now : DateTime} :
    validateCurrentSafetyEvidence evidence now = .ok validated ↔ evidence.Current now ∧ validated = evidence := by
  simp only [validateCurrentSafetyEvidence, bind_ok_iff, require_ok_iff, exists_const, assertSafe_ok_iff,
    Except.ok.injEq]
  constructor
  · rintro ⟨hwindow, hfrom, huntil, ⟨hpaper, hgates, hkill⟩, rfl⟩
    exact ⟨⟨⟨hfrom, huntil, hwindow⟩, hpaper, hgates, hkill⟩, rfl⟩
  · rintro ⟨⟨⟨hfrom, huntil, hwindow⟩, hpaper, hgates, hkill⟩, rfl⟩
    exact ⟨hwindow, hfrom, huntil, ⟨hpaper, hgates, hkill⟩, rfl⟩

end TradingAgent.JobWorker
