import TradingAgent.JobWorker.Safety
import TradingAgent.Lib.PyText
import TradingAgent.Nautilus.Instants
import TradingAgent.SafetySources.IsoFormat

/-!
# Readers of the safety sources

The source files `.mode` and `.kill_switch` as the operator's state store (`operator_control/state_store.py`), the
exporter (`safety_state_exporter/exporter.py`) and the provider of the workers (`job_worker/safety.py`,
`packages/safety_evidence.py`) read them.
-/

namespace TradingAgent.SafetySources

open JobWorker (SafetyMode)
open Nautilus (parseUtc instantOf)
open PyText

instance decidableEqBytes : DecidableEq ByteArray := ByteArray.decEq

/-- A source file; `irregular` where its metadata are not those of a private regular file. -/
inductive SourceFile
  | absent
  | irregular
  | regular (raw : ByteArray)
  deriving DecidableEq

def decode (raw : ByteArray) : Option (List Char) := (String.fromUTF8? raw).map String.toList

/-- The member of the mode enumerations with the name; no member is as good as `UNKNOWN`. -/
def modeNamed (name : List Char) : SafetyMode :=
  if name = "PAPER".toList then .paper
  else if name = "DRYRUN".toList then .dryrun
  else if name = "LIVE".toList then .live
  else .unknown

/-- The one line of a sentinel, `activated_at: reason`, that the lenient readers accept. -/
def isSentinelLine (line : List Char) : Bool :=
  match partition ": ".toList line with
  | none => false
  | some (activatedAt, reason) =>
    decide (strip reason ≠ []) && isIsoFormat (activatedAt.flatMap fun c => if c = 'Z' then "+00:00".toList else [c])

def sentinelState (text : List Char) : CanonicalKillSwitchState :=
  match splitLines (strip text) with
  | [line] => if isSentinelLine line then .active else .unknown
  | _ => .unknown

namespace Exporter

def maxSourceBytes : ℕ := 4096

def readPrivateSource : SourceFile → Option ByteArray
  | .absent => none
  | .irregular => some ByteArray.empty
  | .regular raw => if maxSourceBytes < raw.size then some ByteArray.empty else some raw

def mode (raw : Option ByteArray) : SafetyMode :=
  match raw with
  | none => .unknown
  | some raw =>
    if raw = ByteArray.empty then .unknown
    else match decode raw with
      | none => .unknown
      | some text => modeNamed (upper (strip text))

def killSwitch (raw : Option ByteArray) : CanonicalKillSwitchState :=
  match raw with
  | none => .inactive
  | some raw =>
    if raw = ByteArray.empty then .unknown
    else match decode raw with
      | none => .unknown
      | some text => sentinelState text

end Exporter

def resolveKillSwitch : SourceFile → CanonicalKillSwitchState
  | .absent => .inactive
  | .irregular => .unknown
  | .regular raw =>
    match decode raw with
    | none => .unknown
    | some text => sentinelState (universalNewlines text)

def requestedMode : SourceFile → SafetyMode
  | .regular raw =>
    match decode raw with
    | none => .unknown
    | some text => modeNamed (upper (strip (universalNewlines text)))
  | _ => .unknown

def encode (text : List Char) : ByteArray := (String.ofList text).toUTF8

/-- `_parse_mode`, without the digest. -/
def parseMode (raw : Option ByteArray) : SafetyMode :=
  match raw with
  | none => .unknown
  | some raw =>
    if raw = "paper\n".toUTF8 then .paper
    else if raw = "dryrun\n".toUTF8 then .dryrun
    else if raw = "live\n".toUTF8 then .live
    else .unknown

/-- The activation instant and the reason of a sentinel that `_parse_kill_switch` accepts. -/
def parseSentinel (raw : ByteArray) : Option (Instant × String) :=
  (decode raw).bind fun text =>
    if text.getLast? ≠ some '\n' ∨ text.count '\n' ≠ 1 ∨ '\r' ∈ text then none
    else (partition ": ".toList text.dropLast).bind fun (timestamp, reason) =>
      if ¬ (1 ≤ reason.length ∧ reason.length ≤ 256) ∨ strip reason ≠ reason then none
      else (parseUtc (String.ofList timestamp)).map fun activatedAt =>
        (instantOf activatedAt, String.ofList reason)

/-- `_parse_kill_switch`, without the digest. -/
def parseKillSwitch (raw : Option ByteArray) : CanonicalKillSwitchState × Option Instant × Option String :=
  match raw with
  | none => (.inactive, none, none)
  | some raw =>
    match parseSentinel raw with
    | none => (.unknown, none, none)
    | some (activatedAt, reason) => (.active, some activatedAt, some reason)

end TradingAgent.SafetySources
