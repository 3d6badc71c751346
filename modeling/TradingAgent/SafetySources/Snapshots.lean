import TradingAgent.Lib.Interaction
import TradingAgent.SafetySources.Readers
import TradingAgent.SecurityMaster.Texts

/-!
# Safety snapshots

`SafetyStateExporter.export_once` (`safety_state_exporter/exporter.py`) and `SafetyStateClient.snapshot`
(`job_worker/safety_state.py`) as programs over the shared files and the clock, one request for every read, reading of
the clock, write and replacement. A recheck of the authority that raises ends a program where it stands.
-/

namespace TradingAgent.SafetySources

open Interaction Outcome
open JobWorker (SafetyMode SafetySnapshot SafetyEvidence SafetyBlockedError assertSafe snapshotTtlSeconds)
open JobPlane (isHexChar isSha256)
open Nautilus (parseUtc instantOf instantText)

/-- The snapshot that an exporter publishes; its schema version is 1. -/
structure SnapshotDocument where
  (exporterCommit generatedAt expiresAt : String)
  (requestedMode effectiveMode : SafetyMode)
  (liveExecutionEnabled liveTradingApproved : Option Bool)
  killSwitchState : CanonicalKillSwitchState
  sourceFingerprint : String
  deriving DecidableEq

/-- `value.replace(microsecond=0)` -/
def wholeSecond (t : Instant) : Instant :=
  ⟨(t : ℤ) - t % Instant.second, by
    obtain ⟨t, hlow, hhigh⟩ := t
    unfold Representable Instant.second
    simp only
    omega⟩

def timestamp (value : Instant) : String := instantText (wholeSecond value)

def parseTimestamp (raw : String) : Option Instant := if raw.length = 20 then (parseUtc raw).map instantOf else none

namespace Exporter

structure Config where
  (exporterCommit sourceFingerprint : String)
  (liveExecutionEnabled liveTradingApproved : Option Bool)

def effectiveMode (requested : SafetyMode) (executionEnabled tradingApproved : Option Bool)
    (killSwitch : CanonicalKillSwitchState) : SafetyMode :=
  if requested = .unknown then .unknown
  else if requested ≠ .live then requested
  else if executionEnabled = none ∨ tradingApproved = none ∨ killSwitch = .unknown then .unknown
  else if executionEnabled = some true ∧ tradingApproved = some true ∧ killSwitch = .inactive then .live
  else .paper

/-- The snapshot of what was read; nothing where the expiry is no `datetime`. -/
def document (config : Config) (requested : SafetyMode) (killSwitch : CanonicalKillSwitchState) (generated : Instant) :
    Option SnapshotDocument :=
  (generated.add? (snapshotTtlSeconds * Instant.second)).map fun expires =>
    { exporterCommit := config.exporterCommit
      generatedAt := timestamp generated
      expiresAt := timestamp expires
      requestedMode := requested
      effectiveMode := effectiveMode requested config.liveExecutionEnabled config.liveTradingApproved killSwitch
      liveExecutionEnabled := config.liveExecutionEnabled
      liveTradingApproved := config.liveTradingApproved
      killSwitchState := killSwitch
      sourceFingerprint := config.sourceFingerprint }

end Exporter

namespace Client

structure Config where
  (expectedExporterCommit expectedSourceFingerprint : String)

/-- `(?:[0-9a-f]{40}|[0-9a-f]{64})` -/
def isCommit (text : String) : Bool := decide (text.length = 40 ∨ text.length = 64) && text.toList.all isHexChar

def invalid : SafetyBlockedError := ⟨"SAFETY_STATE_INVALID", "safety-state snapshot schema is invalid"⟩

def orInvalid {α : Type} : Option α → Except SafetyBlockedError α
  | none => .error invalid
  | some a => .ok a

/-- The checks of `evidence` before it reads the clock. -/
def readDocument (config : Config) (document : SnapshotDocument) : Except SafetyBlockedError SafetyEvidence := do
  require (isCommit document.exporterCommit = true) invalid
  require (isSha256 document.sourceFingerprint = true) invalid
  require (document.liveExecutionEnabled ≠ none) invalid
  require (document.liveTradingApproved ≠ none) invalid
  let generated ← orInvalid (parseTimestamp document.generatedAt)
  let expires ← orInvalid (parseTimestamp document.expiresAt)
  require (document.exporterCommit = config.expectedExporterCommit)
    ⟨"SAFETY_STATE_EXPORTER_COMMIT_MISMATCH", "safety-state exporter commit does not match authority"⟩
  require (document.sourceFingerprint = config.expectedSourceFingerprint)
    ⟨"SAFETY_STATE_SOURCE_MISMATCH", "safety-state source does not match the canonical allowlist"⟩
  require ((expires : ℤ) - generated = snapshotTtlSeconds * Instant.second)
    ⟨"SAFETY_STATE_WINDOW_INVALID", "safety-state validity window is invalid"⟩
  .ok ⟨⟨document.requestedMode, document.effectiveMode, document.liveExecutionEnabled, document.liveTradingApproved,
    document.killSwitchState⟩, generated, expires⟩

/-- The checks of `evidence` against the clock. -/
def checkWindow (evidence : SafetyEvidence) (now : Instant) : Except SafetyBlockedError Unit := do
  require (evidence.generatedAt ≤ now) ⟨"SAFETY_STATE_FROM_FUTURE", "safety-state snapshot is from the future"⟩
  require ((now : ℤ) < evidence.expiresAt) ⟨"SAFETY_STATE_STALE", "safety-state snapshot is stale"⟩

end Client

inductive Change
  | mode (file : SourceFile)
  | killSwitch (file : SourceFile)
  | clock (now : Instant)

/-- One indivisible step of a program. A temporary file has a name of its own, so only its content is carried on. -/
inductive Request
  | readMode
  | readKillSwitch
  | stamp (sourcesReadAt : Instant)
  | writeTemporary (document : SnapshotDocument)
  | replace (document : SnapshotDocument)
  | readSnapshot
  | now
  | change (change : Change)

/-- The answer to a request. The reading of the clock beside the mode is carried to the stamp for the record only. -/
abbrev Answer : Request → Type
  | .readMode => SourceFile × Instant
  | .readKillSwitch => SourceFile
  | .stamp _ => Instant
  | .now => Instant
  | .writeTemporary _ => Unit
  | .replace _ => Unit
  | .readSnapshot => Option SnapshotDocument
  | .change _ => Unit

/-- How a program ends: an export, a snapshot call with the reading of the clock that it checked, or changes. -/
inductive Ending
  | exported
  | overflowed
  | snapshot (result : Except SafetyBlockedError (SafetyEvidence × Instant))
  | changed

def ask (r : Request) : Prog Answer (Answer r) := Prog.request r

def exportOnce (config : Exporter.Config) : Prog Answer Ending := do
  let (mode, sourcesReadAt) ← ask .readMode
  let requested := Exporter.mode (Exporter.readPrivateSource mode)
  let killSwitch := Exporter.killSwitch (Exporter.readPrivateSource (← ask .readKillSwitch))
  let generated ← ask (.stamp sourcesReadAt)
  match Exporter.document config requested killSwitch generated with
  | none => pure .overflowed
  | some document =>
    ask (.writeTemporary document)
    ask (.replace document)
    pure .exported

/-- `SafetyStateClient.snapshot`; it returns the reading of the clock that it checked beside the evidence. -/
def snapshotCall (config : Client.Config) : Prog Answer Ending := do
  match ← ask .readSnapshot with
  | none => pure (.snapshot (.error ⟨"SAFETY_STATE_MISSING", "safety-state snapshot is missing"⟩))
  | some raw =>
    match Client.readDocument config raw with
    | .error e => pure (.snapshot (.error e))
    | .ok evidence =>
      let now ← ask .now
      match Client.checkWindow evidence now with
      | .error e => pure (.snapshot (.error e))
      | .ok () =>
        match ← ask .readSnapshot with
        | none => pure (.snapshot (.error ⟨"SAFETY_STATE_MISSING", "safety-state snapshot is missing"⟩))
        | some current =>
          if current ≠ raw then
            pure (.snapshot (.error
              ⟨"SAFETY_STATE_CHANGED", "safety-state snapshot changed during validation"⟩))
          else pure (.snapshot ((assertSafe evidence.toSafetySnapshot).map fun _ => (evidence, now)))

def performChanges : List Change → Prog Answer Ending
  | [] => pure .changed
  | change :: rest => do
    ask (.change change)
    performChanges rest

theorem length_timestamp (t : Instant) : (timestamp t).length = 20 := by
  have htime := Nautilus.timeOfDay_eq (wholeSecond t)
  have hzero : (Nautilus.utcOf (wholeSecond t)).microsecond = 0 := by
    show Nautilus.timeOfDay (wholeSecond t) % 1000000 = 0
    unfold wholeSecond Instant.second Nautilus.dayMicroseconds at *
    simp only at *
    omega
  rw [timestamp, instantText, Nautilus.serializeUtc, ← String.length_toList, String.toList_ofList, Nautilus.utcChars,
    Nautilus.secondChars, if_pos hzero]
  simp

theorem parseTimestamp_timestamp (t : Instant) : parseTimestamp (timestamp t) = some (wholeSecond t) := by
  rw [parseTimestamp, if_pos (length_timestamp t), timestamp, instantText, Nautilus.parseUtc_serializeUtc,
    Option.map_some, Nautilus.instantOf_utcOf]

end TradingAgent.SafetySources
