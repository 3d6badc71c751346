import TradingAgent.OperatorControl.Executions

/-! Runs of executions with crashes anywhere. -/

namespace TradingAgent.OperatorControl

open Outcome Transaction Transaction.Tx
open SecurityMaster (Sha256Text)

/-- No command was journaled. -/
def Untouched (root : DataRoot) : Prop :=
  ∀ key, root.tombstones key = none ∧ root.intents key = none ∧ root.applied key = none ∧ root.receipts key = none

def World.first (root : DataRoot) : World := ⟨root, []⟩

variable (sha256 : ByteArray → Sha256Text)

/-- Every retry of the run has no more to do than what its key has not done. -/
def DecidedRun (w : World) : List (ExecuteCall × Option ℕ) → Prop
  | [] => True
  | c :: rest => Decided sha256 c.1 w ∧ DecidedRun ((execute sha256 c.1).left w c.2) rest

/-- The results that the calls returned. -/
def answers (w : World) : List (ExecuteCall × Option ℕ) → List (Sha256Text × CommandExecutionResult)
  | [] => []
  | c :: rest =>
    let answered := match c.2, (execute sha256 c.1 w).2 with
      | none, .ok result => [(c.1.key sha256, result)]
      | _, _ => []
    answered ++ answers ((execute sha256 c.1).left w c.2) rest

variable {sha256} {made : ExecuteCall → Prop} {root : DataRoot} {P : Prop} {w : World} {key : Sha256Text}
  {calls : List (ExecuteCall × Option ℕ)} {result : CommandExecutionResult}

theorem Untouched.load (h : Untouched root) (key : Sha256Text) : OperatorControl.load sha256 root key = .ok noRecords := by
  obtain ⟨_, hintents, happlied, hreceipts⟩ := h key
  refine load_ok_iff.2 ⟨⟨hintents, ?_⟩, ⟨happlied, ?_⟩, ⟨hreceipts, ?_⟩, ⟨?_, ?_⟩, rfl⟩ <;> exact fun _ h => nomatch h

theorem Untouched.sound (h : Untouched root) : Sound sha256 made root (World.first root) where
  readable key := ⟨_, h.load key⟩
  timed key intent applied receipt hload := by
    rw [World.first, h.load key] at hload
    cases hload
  legal entry hentry := by cases hentry
  follows := trivial
  replayed := rfl
  buried key raw := by simp [World.first, World.changesOf, (h key).1]
  recorded key := by simp [World.first, World.recordsOf, existing, h key]

theorem Untouched.truthful (h : Untouched root) : Truthful sha256 (World.first root) := by
  intro key snapshot hload
  rw [World.first, h.load key] at hload
  cases hload
  rfl

theorem Keeps.trans {u v : World} (h : Keeps w u) (h' : Keeps u v) : Keeps w v := fun key text htext =>
  h' key text (h key text htext)

theorem kept_left {call : ExecuteCall} (h : Sound sha256 made root w) (htruthful : P → Truthful sha256 w)
    (hmade : made call) (hdecided : P → Decided sha256 call w) (crash : Option ℕ) :
    Kept sha256 made root P w ((execute sha256 call).left w crash) :=
  have hstart : Kept sha256 made root P w w := ⟨h, htruthful, fun _ _ htext => htext⟩
  (upholds_execute hstart hmade hdecided).left hstart crash

theorem kept_run (h : Sound sha256 made root w) (htruthful : P → Truthful sha256 w) (hmade : ∀ c ∈ calls, made c.1)
    (hdecided : P → DecidedRun sha256 w calls) : Kept sha256 made root P w (run sha256 w calls) := by
  induction calls generalizing w with
  | nil => exact ⟨h, htruthful, fun _ _ htext => htext⟩
  | cons c rest ih =>
    have hstep := kept_left h htruthful (hmade c (by simp)) (fun hp => (hdecided hp).1) c.2
    have hrest := ih hstep.sound hstep.truthful (fun d hd => hmade d (by simp [hd])) fun hp => (hdecided hp).2
    exact ⟨hrest.sound, hrest.truthful, hstep.keeps.trans hrest.keeps⟩

theorem Answered.kept {t : World} (h : Answered sha256 key result w) (hkeeps : Keeps w t)
    (hsound : Sound sha256 made root t) : Answered sha256 key result t := by
  obtain ⟨snapshot, hload, hreceipt⟩ := h
  obtain ⟨_, _, ⟨hfile, hvalid⟩, _⟩ := load_ok_iff.1 hload
  rw [hreceipt] at hfile hvalid
  obtain ⟨later, hlater⟩ := hsound.readable key
  obtain ⟨_, _, hrecord, _⟩ := load_ok_iff.1 hlater
  have hsame : loadRecord sha256 receiptKind (t.root.receipts key) = .ok (some result.receipt) :=
    loadRecord_ok_iff.2 ⟨hkeeps key _ hfile, hvalid⟩
  have hkept : loadRecord sha256 receiptKind (t.root.receipts key) = .ok later.receipt := loadRecord_ok_iff.2 hrecord
  exact ⟨later, hlater, Except.ok.inj (hkept.symm.trans hsame)⟩

theorem answered_run (h : Sound sha256 made root w) (htruthful : P → Truthful sha256 w) (hmade : ∀ c ∈ calls, made c.1)
    (hdecided : P → DecidedRun sha256 w calls) :
    ∀ a ∈ answers sha256 w calls, Answered sha256 a.1 a.2 (run sha256 w calls) := by
  induction calls generalizing w with
  | nil => exact fun a ha => nomatch ha
  | cons c rest ih =>
    intro a ha
    have hstep := kept_left h htruthful (hmade c (by simp)) (fun hp => (hdecided hp).1) c.2
    have hmade' : ∀ d ∈ rest, made d.1 := fun d hd => hmade d (by simp [hd])
    have hdecided' := fun hp => (hdecided hp).2
    rcases List.mem_append.1 ha with hnow | hlater
    · -- the call ended
      have hstart : Kept sha256 made root P w w := ⟨h, htruthful, fun _ _ htext => htext⟩
      obtain ⟨call, crash⟩ := c
      cases crash with
      | some k => cases hnow
      | none =>
        cases hresult : (execute sha256 call w).2 with
        | error e =>
          simp only [hresult] at hnow
          cases hnow
        | ok result =>
          simp only [hresult, List.mem_singleton] at hnow
          subst hnow
          have hanswered := (upholds_execute hstart (hmade _ (by simp)) fun hp => (hdecided hp).1).2 result hresult
          have hrest := kept_run hstep.sound hstep.truthful hmade' hdecided'
          exact Answered.kept hanswered hrest.keeps hrest.sound
    · exact ih hstep.sound hstep.truthful hmade' hdecided' a hlater

def LogEntry.after (entry : LogEntry) : DataRoot := entry.operation.apply entry.key entry.before

theorem mode_after (entry : LogEntry) (hchanged : entry.after.mode ≠ entry.before.mode) :
    entry.after.mode = .regular paperBytes := by
  unfold LogEntry.after at hchanged ⊢
  cases hoperation : entry.operation with
  | setMode => rfl
  | createIntent text | createApplied text | createReceipt text =>
    simp [hoperation, FileOperation.apply] at hchanged
  | createKillSwitch raw | buryKillSwitch raw => simp [hoperation, FileOperation.apply] at hchanged

variable {entry : LogEntry}

theorem killSwitch_after (hlegal : Legal sha256 made entry)
    (hpresent : entry.before.killSwitch ≠ .absent) (hchanged : entry.after.killSwitch ≠ entry.before.killSwitch) :
    ∃ raw, entry.before.killSwitch = .regular raw ∧ entry.after.killSwitch = .absent ∧
      entry.before.tombstones entry.key = none ∧ entry.after.tombstones entry.key = some raw ∧
      ClearAuthorized sha256 made entry.key entry.before := by
  obtain ⟨key, operation, before⟩ := entry
  unfold LogEntry.after at hchanged ⊢
  cases operation with
  | buryKillSwitch raw =>
    obtain ⟨hfile, hfree, hauthorized⟩ := hlegal
    exact ⟨raw, hfile, rfl, hfree, by simp [FileOperation.apply], hauthorized⟩
  | createKillSwitch raw => exact absurd hlegal hpresent
  | setMode => exact absurd rfl hchanged
  | createIntent text => exact absurd rfl hchanged
  | createApplied text => exact absurd rfl hchanged
  | createReceipt text => exact absurd rfl hchanged

theorem tombstones_after (hlegal : Legal sha256 made entry) {other : Sha256Text} {raw : ByteArray}
    (h : entry.before.tombstones other = some raw) : entry.after.tombstones other = some raw := by
  obtain ⟨key, operation, before⟩ := entry
  unfold LogEntry.after
  cases operation with
  | buryKillSwitch raw' =>
    obtain ⟨_, hfree, _⟩ := hlegal
    have hne : other ≠ key := by
      rintro rfl
      rw [hfree] at h
      cases h
    simpa [FileOperation.apply, Function.update_of_ne hne] using h
  | createKillSwitch raw' => exact h
  | setMode => exact h
  | createIntent text => exact h
  | createApplied text => exact h
  | createReceipt text => exact h

theorem existing_prefix_of_load {snapshot : JournalSnapshot} (h : load sha256 root key = .ok snapshot) :
    existing root key <+: [.intent, .applied, .receipt] := by
  obtain ⟨⟨hintents, _⟩, ⟨happlied, _⟩, ⟨hreceipts, _⟩, _, hrelations⟩ := load_ok_iff.1 h
  obtain ⟨hfirst, hsecond, _⟩ := validateRelations_ok_iff.1 hrelations
  unfold existing
  rw [hintents, happlied, hreceipts]
  cases hintent : snapshot.intent with
  | none => simp [hfirst hintent, hsecond (hfirst hintent)]
  | some intent =>
    cases happlied : snapshot.applied with
    | none => simp [hsecond happlied]
    | some applied => cases snapshot.receipt <;> simp

/-- In every run with crashes journals stay readable, a sentinel goes only with authority and to a tombstone,
and every key gets its records in order and once. -/
theorem runs_clear_with_authority (sha256 : ByteArray → Sha256Text) (root : DataRoot) (huntouched : Untouched root)
    (calls : List (ExecuteCall × Option ℕ)) :
    let w := run sha256 (World.first root) calls
    (Follows root w.log ∧ w.root = replay root w.log) ∧
      (∀ key, ∃ snapshot, load sha256 w.root key = .ok snapshot) ∧
      (∀ key, w.recordsOf key <+: [.intent, .applied, .receipt]) ∧
      ∀ entry ∈ w.log, (entry.after.mode ≠ entry.before.mode → entry.after.mode = .regular paperBytes) ∧
        (entry.before.killSwitch ≠ .absent → entry.after.killSwitch ≠ entry.before.killSwitch →
          ∃ raw, entry.before.killSwitch = .regular raw ∧ entry.after.killSwitch = .absent ∧
            entry.before.tombstones entry.key = none ∧ entry.after.tombstones entry.key = some raw ∧
            ClearAuthorized sha256 (fun call => ∃ crash, (call, crash) ∈ calls) entry.key entry.before) ∧
        ∀ key raw, entry.before.tombstones key = some raw → entry.after.tombstones key = some raw := by
  intro w
  have hmade : ∀ c ∈ calls, ∃ crash, (c.1, crash) ∈ calls := fun c hc => ⟨c.2, hc⟩
  have hsound : Sound sha256 (fun call => ∃ crash, (call, crash) ∈ calls) root w :=
    (kept_run (P := False) huntouched.sound False.elim hmade False.elim).sound
  refine ⟨⟨hsound.follows, hsound.replayed⟩, hsound.readable, fun key => ?_, fun entry hentry => ?_⟩
  · obtain ⟨snapshot, hload⟩ := hsound.readable key
    rw [hsound.recorded key]
    exact existing_prefix_of_load hload
  · have hlegal := hsound.legal entry hentry
    exact ⟨mode_after entry, killSwitch_after hlegal, fun key raw => tombstones_after hlegal⟩

def sizeDigest (n : ℕ) : Sha256Text :=
  let text := String.ofList ((Nat.toDigits 16 n).leftpad 64 '0')
  if h : JobPlane.isSha256 text = true then ⟨text, h⟩ else blankDigest

def sampleSha256 (bytes : ByteArray) : Sha256Text := sizeDigest bytes.size

/-- A data root in the mode `DRYRUN`. -/
def sampleRoot : DataRoot where
  mode := .regular "dryrun\n".toUTF8
  killSwitch := .absent
  tombstones _ := none
  intents _ := none
  applied _ := none
  receipts _ := none

theorem untouched_sampleRoot : Untouched sampleRoot := fun _ => ⟨rfl, rfl, rfl, rfl⟩

/-- An operator of the command line sets the mode to `PAPER`. -/
def paperCall (key : Identity) (now : Instant) : ExecuteCall where
  actor := ⟨⟨"operator", by decide +kernel⟩, .cli⟩
  request := ⟨⟨"cmd_00000000000000000000000000000000", by decide +kernel⟩, key, ⟨"drill", by decide +kernel⟩, none,
    .setRequestedMode .paper⟩
  authority _ := .ok ()
  acceptedAt := now
  decidedAt := now
  appliedAt := now
  completedAt := now
  safety := .error .other
  fresh := .error .other

def oneKey : Identity := ⟨"one", by decide +kernel⟩

def otherKey : Identity := ⟨"other", by decide +kernel⟩

def atSecond (n : Fin 86400) : Instant := ⟨1000000 * n, by unfold Representable; omega⟩

end TradingAgent.OperatorControl
