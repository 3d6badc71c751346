import TradingAgent.SafetySources.Snapshots

/-! When an exported snapshot is as fresh as it says. -/

namespace TradingAgent.SafetySources

open Interaction Outcome
open JobWorker (SafetyMode SafetySnapshot SafetyEvidence SafetyBlockedError assertSafe assertSafe_ok_iff
  snapshotTtlSeconds)
open JobPlane (isSha256)

/-! ## The world -/

/-- The sources at a reading of the clock. -/
structure Moment where
  clock : Instant
  (mode killSwitch : SourceFile)

/-- The readings of the clock when an export read its first source and when it read the clock. -/
structure Stamp where
  (sourcesReadAt stampedAt : Instant)

/-- The files and the clock, with the moments and the stamps so far. -/
structure World extends Moment where
  snapshot : Option SnapshotDocument
  moments : List Moment
  stamps : List Stamp

def World.initial (moment : Moment) : World :=
  { moment with
    snapshot := none
    moments := [moment]
    stamps := [] }

def Moment.change (moment : Moment) : Change → Moment
  | .mode file => { moment with mode := file }
  | .killSwitch file => { moment with killSwitch := file }
  | .clock now => if moment.clock ≤ now then { moment with clock := now } else moment

def serve : Server World Answer
  | _, .readMode, w => ((w.mode, w.clock), w)
  | _, .readKillSwitch, w => (w.killSwitch, w)
  | _, .stamp sourcesReadAt, w => (w.clock, { w with stamps := w.stamps ++ [⟨sourcesReadAt, w.clock⟩] })
  | _, .writeTemporary _, w => ((), w)
  | _, .replace document, w => ((), { w with snapshot := some document })
  | _, .readSnapshot, w => (w.snapshot, w)
  | _, .now, w => (w.clock, w)
  | _, .change change, w =>
    ((), { w with
      toMoment := w.toMoment.change change
      moments := w.moments ++ [w.toMoment.change change] })

/-- A process: an export, a snapshot call, or another process that changes the sources while time passes. -/
inductive Process
  | exporter (config : Exporter.Config)
  | client (config : Client.Config)
  | others (changes : List Change)

def Process.program : Process → Prog Answer Ending
  | .exporter config => exportOnce config
  | .client config => snapshotCall config
  | .others changes => performChanges changes

def runProcesses (moment : Moment) (processes : List Process) (schedule : List ℕ) : Pool World Answer Ending :=
  Pool.run serve ⟨.initial moment, processes.map Process.program⟩ schedule

/-- The sources were read in the second of the stamp or later. -/
def Stamp.Prompt (stamp : Stamp) : Prop := (wholeSecond stamp.stampedAt : ℤ) ≤ stamp.sourcesReadAt

/-- The switch was absent and the mode read as `PAPER` less than six seconds before the reading. -/
def FreshAt (moments : List Moment) (now : Instant) : Prop :=
  (∃ m ∈ moments, m.killSwitch = .absent ∧ (now : ℤ) - snapshotTtlSeconds * Instant.second < m.clock) ∧
    ∃ m ∈ moments, Exporter.mode (Exporter.readPrivateSource m.mode) = .paper ∧
      (now : ℤ) - snapshotTtlSeconds * Instant.second < m.clock

/-! ## What a snapshot says -/

def BacksMode (moments : List Moment) (since : ℤ) (requested : SafetyMode) : Prop :=
  requested = .paper →
    ∃ m ∈ moments, Exporter.mode (Exporter.readPrivateSource m.mode) = .paper ∧ since ≤ (m.clock : ℤ)

def BacksSwitch (moments : List Moment) (since : ℤ) (killSwitch : CanonicalKillSwitchState) : Prop :=
  killSwitch = .inactive → ∃ m ∈ moments, m.killSwitch = .absent ∧ since ≤ (m.clock : ℤ)

/-- The document expires in time, and the sources held what it says. -/
def Backed (moments : List Moment) (document : SnapshotDocument) : Prop :=
  ∃ generated expires : Instant, document.generatedAt = timestamp generated ∧ document.expiresAt = timestamp expires ∧
    (expires : ℤ) = generated + snapshotTtlSeconds * Instant.second ∧
    BacksMode moments (wholeSecond generated) document.requestedMode ∧
    BacksSwitch moments (wholeSecond generated) document.killSwitchState

variable {moments moments' : List Moment} {since since' : ℤ}

theorem BacksMode.mono {requested : SafetyMode}
    (h : BacksMode moments since requested) (hsub : moments ⊆ moments') (hle : since' ≤ since) :
    BacksMode moments' since' requested := by
  intro hpaper
  obtain ⟨m, hm, hmode, hclock⟩ := h hpaper
  exact ⟨m, hsub hm, hmode, hle.trans hclock⟩

theorem BacksSwitch.mono {killSwitch : CanonicalKillSwitchState}
    (h : BacksSwitch moments since killSwitch) (hsub : moments ⊆ moments') (hle : since' ≤ since) :
    BacksSwitch moments' since' killSwitch := by
  intro hinactive
  obtain ⟨m, hm, habsent, hclock⟩ := h hinactive
  exact ⟨m, hsub hm, habsent, hle.trans hclock⟩

variable {document : SnapshotDocument}

theorem Backed.mono (h : Backed moments document) (hsub : moments ⊆ moments') : Backed moments' document := by
  obtain ⟨generated, expires, hgenerated, hexpires, hwindow, hmode, hswitch⟩ := h
  exact ⟨generated, expires, hgenerated, hexpires, hwindow, hmode.mono hsub le_rfl, hswitch.mono hsub le_rfl⟩

theorem killSwitch_inactive {file : SourceFile}
    (h : Exporter.killSwitch (Exporter.readPrivateSource file) = .inactive) : file = .absent := by
  have hpresent : ∀ raw, Exporter.killSwitch (some raw) ≠ .inactive := by
    intro raw
    unfold Exporter.killSwitch sentinelState
    simp only
    split_ifs
    · exact CanonicalKillSwitchState.noConfusion
    · split
      · exact CanonicalKillSwitchState.noConfusion
      · split
        · split_ifs <;> exact CanonicalKillSwitchState.noConfusion
        · exact CanonicalKillSwitchState.noConfusion
  cases file with
  | absent => rfl
  | irregular => exact absurd h (hpresent _)
  | regular raw =>
    rw [Exporter.readPrivateSource] at h
    split_ifs at h <;> exact absurd h (hpresent _)

/-! ## The discipline of the processes -/

def World.Prompt (w : World) : Prop := ∀ stamp ∈ w.stamps, stamp.Prompt

structure Kept (w : World) : Prop where
  present : w.toMoment ∈ w.moments
  published : w.Prompt → ∀ document ∈ w.snapshot, Backed w.moments document

/-- Moments and stamps are remembered, and the clock does not run back. -/
structure Later (w w' : World) : Prop where
  moments : w.moments ⊆ w'.moments
  stamps : w.stamps ⊆ w'.stamps
  clock : (w.clock : ℤ) ≤ w'.clock

def discipline : Discipline World where
  Inv := Kept
  le := Later
  refl _ := ⟨List.Subset.refl _, List.Subset.refl _, le_rfl⟩
  trans h h' := ⟨List.Subset.trans h.moments h'.moments, List.Subset.trans h.stamps h'.stamps, h.clock.trans h'.clock⟩

theorem Later.prompt {w w' : World} (h : Later w w') (hprompt : w'.Prompt) : w.Prompt :=
  fun stamp hstamp => hprompt stamp (h.stamps hstamp)

theorem clock_le_change (moment : Moment) (change : Change) : (moment.clock : ℤ) ≤ (moment.change change).clock := by
  cases change with
  | mode file => exact le_rfl
  | killSwitch file => exact le_rfl
  | clock now =>
    simp only [Moment.change]
    split_ifs with hle
    · exact hle
    · exact le_rfl

def Ending.Fresh (ending : Ending) (w : World) : Prop :=
  w.Prompt → ∀ evidence now, ending = .snapshot (.ok (evidence, now)) → FreshAt w.moments now

variable {n : ℕ} {w : World}

theorem later_refl (w : World) : Later w w := discipline.refl w

theorem performChanges_keeps (changes : List Change) :
    Keeps serve discipline n Ending.Fresh (performChanges changes) w := by
  induction changes generalizing w with
  | nil => exact keeps_ret fun _ _ _ h => Ending.noConfusion h
  | cons change rest ih =>
    intro t _ hkept
    refine ⟨⟨?_, List.Subset.refl _, clock_le_change _ _⟩, ⟨?_, ?_⟩, ih⟩
    · exact List.subset_append_left _ _
    · exact List.mem_append_right _ (List.mem_singleton_self _)
    · intro hprompt document hdocument
      exact (hkept.published hprompt document hdocument).mono (List.subset_append_left _ _)

theorem exportOnce_keeps (config : Exporter.Config) : Keeps serve discipline n Ending.Fresh (exportOnce config) w := by
  intro t1 _ hkept1
  refine ⟨later_refl t1, hkept1, ?_⟩
  intro t2 h12 hkept2
  refine ⟨later_refl t2, hkept2, ?_⟩
  intro t3 h23 hkept3
  refine ⟨⟨List.Subset.refl _, List.subset_append_left _ _, le_rfl⟩,
    ⟨hkept3.present, fun hprompt => hkept3.published fun stamp hstamp => hprompt stamp (List.mem_append_left _ hstamp)⟩,
    ?_⟩
  dsimp only [serve, Prog.bind]
  cases hdocument : Exporter.document config (Exporter.mode (Exporter.readPrivateSource t1.mode))
    (Exporter.killSwitch (Exporter.readPrivateSource t2.killSwitch)) t3.clock with
  | none => exact keeps_ret fun _ _ _ h => Ending.noConfusion h
  | some document =>
    -- the stamp of this export is on record, so a later world of prompt exports has it among them
    have hbacked : ∀ {u : World}, Later { t3 with stamps := t3.stamps ++ [⟨t1.clock, t3.clock⟩] } u → u.Prompt →
        Backed u.moments document := by
      intro u hu hprompt
      have hstamp : (wholeSecond t3.clock : ℤ) ≤ t1.clock := hprompt ⟨t1.clock, t3.clock⟩ (hu.stamps (by simp))
      obtain ⟨expires, hexpires, rfl⟩ := Option.map_eq_some_iff.1 hdocument
      refine ⟨t3.clock, expires, rfl, rfl, Instant.add?_eq_some_iff.1 hexpires, ?_, ?_⟩
      · intro hpaper
        exact ⟨t1.toMoment, hu.moments (h23.moments (h12.moments hkept1.present)), hpaper, hstamp⟩
      · intro hinactive
        exact ⟨t2.toMoment, hu.moments (h23.moments hkept2.present), killSwitch_inactive hinactive,
          hstamp.trans h12.clock⟩
    intro t4 h34 hkept4
    refine ⟨later_refl t4, hkept4, ?_⟩
    intro t5 h45 hkept5
    refine ⟨⟨List.Subset.refl _, List.Subset.refl _, le_rfl⟩, ⟨hkept5.present, ?_⟩,
      keeps_ret fun _ _ _ h => Ending.noConfusion h⟩
    intro hprompt document' hdocument'
    obtain rfl := Option.some.inj hdocument'
    exact @hbacked t5 (discipline.trans h34 h45) hprompt

theorem stamp_of_readDocument {config : Client.Config} {evidence : SafetyEvidence}
    {generated : Instant} (h : Client.readDocument config document = .ok evidence)
    (hgenerated : document.generatedAt = timestamp generated) :
    evidence.expiresAt = wholeSecond generated + snapshotTtlSeconds * Instant.second ∧
      evidence.requestedMode = document.requestedMode ∧ evidence.killSwitchState = document.killSwitchState := by
  have horInvalid : ∀ {x : Option Instant} {t : Instant}, Client.orInvalid x = .ok t ↔ x = some t := by
    rintro (_ | u) t <;> simp [Client.orInvalid]
  unfold Client.readDocument at h
  simp only [bind_ok_iff, require_ok_iff, exists_const, horInvalid, hgenerated, parseTimestamp_timestamp,
    Option.some.injEq] at h
  obtain ⟨-, -, -, -, u, rfl, expires, -, -, -, hwindow, h⟩ := h
  obtain rfl := Except.ok.inj h
  exact ⟨sub_eq_iff_eq_add'.1 hwindow, rfl, rfl⟩

theorem snapshotCall_keeps (config : Client.Config) :
    Keeps serve discipline n Ending.Fresh (snapshotCall config) w := by
  have hother : ∀ {u : World} {e : SafetyBlockedError},
      Keeps serve discipline n Ending.Fresh (pure (.snapshot (.error e))) u :=
    keeps_ret fun _ _ _ h => by cases h
  intro t1 _ hkept1
  refine ⟨later_refl t1, hkept1, ?_⟩
  dsimp only [serve, Prog.bind]
  cases hsnapshot : t1.snapshot with
  | none => exact hother
  | some raw =>
    simp only
    cases hread : Client.readDocument config raw with
    | error e => exact hother
    | ok evidence =>
      intro t2 h12 hkept2
      refine ⟨later_refl t2, hkept2, ?_⟩
      dsimp only [serve, Prog.bind]
      cases hwindow : Client.checkWindow evidence t2.clock with
      | error e => exact hother
      | ok u =>
        intro t3 h23 hkept3
        refine ⟨later_refl t3, hkept3, ?_⟩
        dsimp only [serve, Prog.bind]
        cases t3.snapshot with
        | none => exact hother
        | some current =>
          simp only
          split_ifs with hsame
          · exact hother
          · refine keeps_ret fun hprompt evidence' now h => ?_
            cases hsafe : assertSafe evidence.toSafetySnapshot with
            | error e =>
              rw [hsafe] at h
              cases h
            | ok u =>
              rw [hsafe] at h
              obtain ⟨rfl, rfl⟩ := Prod.mk.inj (Except.ok.inj (Ending.snapshot.inj h))
              have h13 := discipline.trans h12 h23
              obtain ⟨generated, expires, hgenerated, -, -, hmode, hswitch⟩ :=
                hkept1.published (h13.prompt hprompt) raw hsnapshot
              obtain ⟨hexpires, hrequested, hkill⟩ := stamp_of_readDocument hread hgenerated
              obtain ⟨⟨hpaper, -⟩, -, hinactive⟩ := assertSafe_ok_iff.1 hsafe
              have huntil : (t2.clock : ℤ) - snapshotTtlSeconds * Instant.second < wholeSecond generated := by
                obtain ⟨-, -, hstale⟩ := bind_ok_iff.1 hwindow
                rw [require_ok_iff, hexpires] at hstale
                omega
              obtain ⟨m, hm, habsent, hclock⟩ := hswitch (hkill ▸ hinactive)
              obtain ⟨m', hm', hmode', hclock'⟩ := hmode (hrequested ▸ hpaper)
              exact ⟨⟨m, h13.moments hm, habsent, huntil.trans_le hclock⟩,
                m', h13.moments hm', hmode', huntil.trans_le hclock'⟩

theorem program_keeps (process : Process) : Keeps serve discipline n Ending.Fresh process.program w := by
  cases process with
  | exporter config => exact exportOnce_keeps config
  | client config => exact snapshotCall_keeps config
  | others changes => exact performChanges_keeps changes

/-- Where each export reads the clock in the second of its first read, returned evidence is as young as its
window says. -/
theorem evidence_is_fresh (moment : Moment) (processes : List Process) (schedule : List ℕ)
    (hprompt : ∀ stamp ∈ (runProcesses moment processes schedule).store.stamps, stamp.Prompt) (client : ℕ)
    (evidence : SafetyEvidence) (now : Instant)
    (hreturned : (runProcesses moment processes schedule).procs[client]? =
      some (.ret (.snapshot (.ok (evidence, now))))) :
    FreshAt (runProcesses moment processes schedule).store.moments now := by
  have hinitial : Kept (World.initial moment) := ⟨List.mem_singleton_self _, fun _ _ h => by cases h⟩
  have hprograms : ∀ n p, (processes.map Process.program)[n]? = some p →
      Keeps serve discipline n Ending.Fresh p (World.initial moment) := by
    intro n p hp
    rw [List.getElem?_map] at hp
    obtain ⟨process, -, rfl⟩ := Option.map_eq_some_iff.1 hp
    exact program_keeps process
  obtain ⟨-, -, hends⟩ := Pool.run_keeps hinitial hprograms schedule
  obtain ⟨t, hlater, hfresh⟩ := hends client _ hreturned
  obtain ⟨⟨m, hm, habsent, hclock⟩, m', hm', hmode, hclock'⟩ :=
    hfresh (hlater.prompt hprompt) evidence now rfl
  exact ⟨⟨m, hlater.moments hm, habsent, hclock⟩, m', hlater.moments hm', hmode, hclock'⟩

/-! ## Runs on fixed inputs -/

def returned : Prog Answer Ending → Option (SafetyEvidence × Instant)
  | .ret (.snapshot (.ok result)) => some result
  | _ => none

theorem eq_of_returned {p : Prog Answer Ending} {result : SafetyEvidence × Instant} (h : returned p = some result) :
    p = .ret (.snapshot (.ok result)) := by
  unfold returned at h
  split at h
  · rw [Option.some.inj h]
  · cases h

def sampleMoment : Moment := ⟨⟨0, representable_zero⟩, .regular "paper\n".toUTF8, .absent⟩

def sampleReading : Instant := ⟨105999999, by decide⟩

def sampleProcesses (changes : List Change) : List Process :=
  [.exporter ⟨String.ofList (List.replicate 40 'a'), String.ofList (List.replicate 64 'b'), some false, some false⟩,
    .client ⟨String.ofList (List.replicate 40 'a'), String.ofList (List.replicate 64 'b')⟩, .others changes]

theorem prompt_export_is_fresh :
    FreshAt (runProcesses sampleMoment (sampleProcesses []) [0, 0, 0, 0, 0, 1, 1, 1]).store.moments
      ⟨0, representable_zero⟩ := by
  have hreturned : ((runProcesses sampleMoment (sampleProcesses []) [0, 0, 0, 0, 0, 1, 1, 1]).procs[1]?.bind
      returned).map Prod.snd = some ⟨0, representable_zero⟩ := by
    decide +kernel
  obtain ⟨⟨evidence, now⟩, hresult, rfl⟩ := Option.map_eq_some_iff.1 hreturned
  obtain ⟨p, hp, hresult⟩ := Option.bind_eq_some_iff.1 hresult
  rw [eq_of_returned hresult] at hp
  refine evidence_is_fresh sampleMoment (sampleProcesses []) [0, 0, 0, 0, 0, 1, 1, 1] ?_ 1 evidence _ hp
  unfold Stamp.Prompt
  decide +kernel

/-- The switch is activated before an export reads the clock, a hundred seconds late; its evidence is as good as
new. -/
theorem late_stamp_hides_switch : ∃ evidence now, (runProcesses sampleMoment
        (sampleProcesses [.killSwitch (.regular "1970-01-01T00:00:00Z: drill\n".toUTF8), .clock ⟨100000000, by decide⟩,
          .clock sampleReading]) [0, 0, 2, 2, 0, 0, 0, 2, 1, 1, 1]).procs[1]? =
        some (.ret (.snapshot (.ok (evidence, now)))) ∧
      ¬ FreshAt (runProcesses sampleMoment
        (sampleProcesses [.killSwitch (.regular "1970-01-01T00:00:00Z: drill\n".toUTF8), .clock ⟨100000000, by decide⟩,
          .clock sampleReading]) [0, 0, 2, 2, 0, 0, 0, 2, 1, 1, 1]).store.moments now := by
  have hreturned : (((runProcesses sampleMoment
      (sampleProcesses [.killSwitch (.regular "1970-01-01T00:00:00Z: drill\n".toUTF8), .clock ⟨100000000, by decide⟩,
        .clock sampleReading]) [0, 0, 2, 2, 0, 0, 0, 2, 1, 1, 1]).procs[1]?.bind returned).map Prod.snd) =
      some sampleReading := by
    decide +kernel
  have hmoments : ∀ m ∈ (runProcesses sampleMoment
      (sampleProcesses [.killSwitch (.regular "1970-01-01T00:00:00Z: drill\n".toUTF8), .clock ⟨100000000, by decide⟩,
        .clock sampleReading]) [0, 0, 2, 2, 0, 0, 0, 2, 1, 1, 1]).store.moments,
      m.killSwitch = .absent → (m.clock : ℤ) ≤ 0 := by
    decide +kernel
  obtain ⟨⟨evidence, now⟩, hresult, hnow⟩ := Option.map_eq_some_iff.1 hreturned
  obtain ⟨p, hp, hresult⟩ := Option.bind_eq_some_iff.1 hresult
  rw [eq_of_returned hresult] at hp
  refine ⟨evidence, now, hp, ?_⟩
  rintro ⟨⟨m, hm, habsent, hclock⟩, -⟩
  have hzero := hmoments m hm habsent
  have hreading : (now : ℤ) = 105999999 := congrArg Subtype.val hnow
  unfold snapshotTtlSeconds Instant.second at hclock
  omega

end TradingAgent.SafetySources
