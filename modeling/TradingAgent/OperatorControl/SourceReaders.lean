import TradingAgent.OperatorControl.SourceAgreement

/-! Two readers of the kill switch disagree on reasons that hide a line. -/

namespace TradingAgent.OperatorControl

open SafetySources
open JobWorker (SafetyMode)
open SecurityMaster (Sha256Text)
open Nautilus (instantText utcOf)

/-- Where the state store reads a sentinel as active the others do, and a present sentinel is inactive for none. -/
structure ReadAlike (raw : ByteArray) : Prop where
  active : (parseKillSwitch (some raw)).1 = .active →
    Exporter.killSwitch (Exporter.readPrivateSource (.regular raw)) = .active ∧
      resolveKillSwitch (.regular raw) = .active
  never_inactive : (parseKillSwitch (some raw)).1 ≠ .inactive ∧
    Exporter.killSwitch (Exporter.readPrivateSource (.regular raw)) ≠ .inactive ∧
    resolveKillSwitch (.regular raw) ≠ .inactive

theorem sentinelState_ne_inactive (text : List Char) : sentinelState text ≠ .inactive := by
  unfold sentinelState
  split
  · split_ifs <;> decide
  · decide

theorem exporter_ne_inactive (raw : ByteArray) : Exporter.killSwitch (some raw) ≠ .inactive := by
  unfold Exporter.killSwitch
  simp only
  split_ifs
  · decide
  · split
    · decide
    · exact sentinelState_ne_inactive _

theorem never_inactive (raw : ByteArray) : (parseKillSwitch (some raw)).1 ≠ .inactive ∧
    Exporter.killSwitch (Exporter.readPrivateSource (.regular raw)) ≠ .inactive ∧
    resolveKillSwitch (.regular raw) ≠ .inactive := by
  refine ⟨?_, ?_, ?_⟩
  · unfold parseKillSwitch
    simp only
    split
    · decide
    · exact CanonicalKillSwitchState.noConfusion
  · unfold Exporter.readPrivateSource
    simp only
    split_ifs <;> exact exporter_ne_inactive _
  · unfold resolveKillSwitch
    simp only
    split
    · decide
    · exact sentinelState_ne_inactive _

variable {raw : ByteArray}

theorem parseKillSwitch_active_iff : (parseKillSwitch (some raw)).1 = .active ↔
    ∃ t timestamp reason, Spells raw t timestamp reason := by
  unfold parseKillSwitch
  simp only
  constructor
  · intro h
    split at h
    · cases h
    · rename_i activatedAt reason hparse
      obtain ⟨t, timestamp, hspells, -⟩ := parseSentinel_eq_some_iff.1 hparse
      exact ⟨t, timestamp, reason, hspells⟩
  · rintro ⟨t, timestamp, reason, hspells⟩
    rw [parseSentinel_eq_some_iff.2 ⟨t, timestamp, hspells, rfl⟩]

theorem readAlike_iff (hsize : raw.size ≤ 1024) :
    ReadAlike raw ↔ ∀ t timestamp reason, Spells raw t timestamp reason → ¬ HidesLine reason := by
  constructor
  · rintro ⟨hactive, -⟩ t timestamp reason hspells hhides
    have hexporter := (hactive (parseKillSwitch_active_iff.2 ⟨t, timestamp, reason, hspells⟩)).1
    rw [hspells.exporter_eq hsize, if_pos hhides] at hexporter
    cases hexporter
  · intro h
    refine ⟨fun hactive => ?_, never_inactive raw⟩
    obtain ⟨t, timestamp, reason, hspells⟩ := parseKillSwitch_active_iff.1 hactive
    have hno := h t timestamp reason hspells
    rw [hspells.exporter_eq hsize, hspells.resolve_eq, if_neg hno]
    exact ⟨rfl, rfl⟩

theorem spells_activation (acceptedAt : Instant) (reason : Reason) :
    Spells (sentinelBytes (instantText acceptedAt) reason) (utcOf acceptedAt) (instantText acceptedAt) reason where
  bytes := rfl
  timestamp := Nautilus.parseUtc_serializeUtc _
  length := ⟨reason.2.2.1, reason.2.2.2.1⟩
  stripped := reason.2.1
  one_line := reason.2.2.2.2.2

theorem size_activation (acceptedAt : Instant) (reason : Reason) :
    (sentinelBytes (instantText acceptedAt) reason).size ≤ 1024 := by
  have hreason := reason.2.2.2.2.1
  have hlength := Nautilus.length_instantText acceptedAt
  have hgraphic := Json.utf8ByteSize_of_graphic (SecurityMaster.printable_instantText acceptedAt)
  rw [String.ofList_toList, String.length_toList] at hgraphic
  unfold maxKillSwitchReasonBytes at hreason
  show (instantText acceptedAt ++ ": " ++ reason.1 ++ "\n").utf8ByteSize ≤ 1024
  simp only [String.utf8ByteSize_append]
  have hcolon : ": ".utf8ByteSize = 2 := by decide
  have hnewline : "\n".utf8ByteSize = 1 := by decide
  omega

theorem parseSentinel_activation (acceptedAt : Instant) (reason : Reason) :
    parseSentinel (sentinelBytes (instantText acceptedAt) reason) = some (acceptedAt, reason.1) :=
  parseSentinel_eq_some_iff.2 ⟨_, _, spells_activation acceptedAt reason, (Nautilus.instantOf_utcOf _).symm⟩

theorem parseKillSwitch_activation (acceptedAt : Instant) (reason : Reason) :
    parseKillSwitch (some (sentinelBytes (instantText acceptedAt) reason)) =
      (.active, some acceptedAt, some reason.1) := by
  unfold parseKillSwitch
  simp only
  rw [parseSentinel_activation]

theorem desiredKillSwitchBytes_eq {sha256 : ByteArray → Sha256Text} {actor : OperatorActor}
    {request : SubmitOperatorCommand} {current : OperatorSourceState} {acceptedAt : Instant}
    {safety : Option OperatorSafetyEvidence} {plan : OperatorMutationPlan} {reason : Reason} {planned : ByteArray}
    (hcommand : request.command = .activateKillSwitch reason)
    (h : decideOperatorCommand sha256 actor request current acceptedAt safety = .ok plan)
    (hplanned : plan.desiredKillSwitchBytes = some planned) :
    planned = sentinelBytes (instantText acceptedAt) reason := by
  rw [decideOperatorCommand, hcommand] at h
  obtain ⟨-, -, rfl⟩ | ⟨-, rfl⟩ := decideActivation_ok h
  · cases hplanned
  · exact (Option.some.inj hplanned).symm

theorem mode_read_alike (h : parseMode (some raw) ≠ .unknown) :
    Exporter.mode (Exporter.readPrivateSource (.regular raw)) = parseMode (some raw) ∧
      requestedMode (.regular raw) = parseMode (some raw) := by
  have hread : ∀ (text : String) (mode : SafetyMode), text.toUTF8.size ≤ 4096 → text.toUTF8 ≠ ByteArray.empty →
      modeNamed (PyText.upper (PyText.strip text.toList)) = mode →
      modeNamed (PyText.upper (PyText.strip (PyText.universalNewlines text.toList))) = mode →
      Exporter.mode (Exporter.readPrivateSource (.regular text.toUTF8)) = mode ∧
        requestedMode (.regular text.toUTF8) = mode := by
    intro text mode hsize hne hmode hmode'
    constructor
    · rw [Exporter.readPrivateSource, if_neg (by unfold Exporter.maxSourceBytes; omega), Exporter.mode]
      simp only [if_neg hne, decode_toUTF8]
      exact hmode
    · rw [requestedMode, decode_toUTF8]
      exact hmode'
  unfold parseMode at h ⊢
  simp only at h ⊢
  split_ifs with hpaper hdryrun hlive
  · subst hpaper
    exact hread "paper\n" .paper (by decide) (by decide) (by decide +kernel) (by decide +kernel)
  · subst hdryrun
    exact hread "dryrun\n" .dryrun (by decide) (by decide) (by decide +kernel) (by decide +kernel)
  · subst hlive
    exact hread "live\n" .live (by decide) (by decide) (by decide +kernel) (by decide +kernel)
  · rw [if_neg hpaper, if_neg hdryrun, if_neg hlive] at h
    exact absurd rfl h

/-- The readers of the source files agree, on every file and on every planned sentinel, exactly where no reason
hides a line. -/
theorem source_readers_agree_iff (sha256 : ByteArray → Sha256Text) (raw modeRaw : ByteArray)
    (hsize : raw.size ≤ 1024) :
    (ReadAlike raw ↔ ∀ t timestamp reason, Spells raw t timestamp reason → ¬ HidesLine reason) ∧
      (∀ actor request current acceptedAt safety plan (reason : Reason) planned,
        request.command = .activateKillSwitch reason →
        decideOperatorCommand sha256 actor request current acceptedAt safety = .ok plan →
        plan.desiredKillSwitchBytes = some planned →
        planned.size ≤ 1024 ∧ parseKillSwitch (some planned) = (.active, some acceptedAt, some reason.1) ∧
          (Exporter.killSwitch (Exporter.readPrivateSource (.regular planned)) = .active ∧
            resolveKillSwitch (.regular planned) = .active ↔ ¬ HidesLine reason)) ∧
      (parseMode (some modeRaw) ≠ .unknown →
        Exporter.mode (Exporter.readPrivateSource (.regular modeRaw)) = parseMode (some modeRaw) ∧
          requestedMode (.regular modeRaw) = parseMode (some modeRaw)) := by
  refine ⟨readAlike_iff hsize, ?_, mode_read_alike⟩
  intro actor request current acceptedAt safety plan reason planned hcommand hplan hplanned
  obtain rfl := desiredKillSwitchBytes_eq hcommand hplan hplanned
  have hspells := spells_activation acceptedAt reason
  refine ⟨size_activation acceptedAt reason, parseKillSwitch_activation acceptedAt reason, ?_⟩
  · rw [hspells.exporter_eq (size_activation acceptedAt reason), hspells.resolve_eq]
    split_ifs with hhides <;> simp [hhides]

def plainReason : Reason := ⟨"drill", by decide +kernel⟩

def hiddenReason : Reason := ⟨"drill\x0bday", by decide +kernel⟩

def sampleInstant : Instant := ⟨0, representable_zero⟩

theorem source_readers_agree_plain : (sentinelBytes (instantText sampleInstant) plainReason).size ≤ 1024 ∧
      (ReadAlike (sentinelBytes (instantText sampleInstant) plainReason) ↔
        ∀ t timestamp reason, Spells (sentinelBytes (instantText sampleInstant) plainReason) t timestamp reason →
          ¬ HidesLine reason) :=
  ⟨size_activation sampleInstant plainReason,
    (source_readers_agree_iff (fun _ => ⟨String.ofList (List.replicate 64 '0'), by decide⟩) _
      ByteArray.empty (size_activation sampleInstant plainReason)).1⟩

/-- The sentinel that the activation plans is active for the state store and unknown for the others. -/
theorem hidden_line_splits_readers :
    ReasonAdmitted "drill\x0bday" ∧ (sentinelBytes (instantText sampleInstant) "drill\x0bday").size ≤ 1024 ∧
      parseKillSwitch (some (sentinelBytes (instantText sampleInstant) "drill\x0bday")) =
        (.active, some sampleInstant, some "drill\x0bday") ∧
      Exporter.killSwitch (Exporter.readPrivateSource
        (.regular (sentinelBytes (instantText sampleInstant) "drill\x0bday"))) = .unknown ∧
      resolveKillSwitch (.regular (sentinelBytes (instantText sampleInstant) "drill\x0bday")) = .unknown ∧
      ¬ ReadAlike (sentinelBytes (instantText sampleInstant) "drill\x0bday") := by
  have hspells := spells_activation sampleInstant hiddenReason
  have hsize := size_activation sampleInstant hiddenReason
  have hhides : HidesLine hiddenReason.1 := by decide +kernel
  refine ⟨hiddenReason.2, hsize, parseKillSwitch_activation sampleInstant hiddenReason, ?_, ?_, ?_⟩
  · exact (hspells.exporter_eq hsize).trans (if_pos hhides)
  · exact hspells.resolve_eq.trans (if_pos hhides)
  · intro halike
    exact (readAlike_iff hsize).1 halike _ _ _ hspells hhides

end TradingAgent.OperatorControl
