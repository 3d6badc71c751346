import TradingAgent.OperatorControl.JournalReads

/-! The invariant of the data root, through every part of an execution. -/

namespace TradingAgent.OperatorControl

open Outcome Transaction Transaction.Tx
open SecurityMaster (Sha256Text)

/-! ## Histories -/

def FileOperation.changesSource : FileOperation → Bool
  | .setMode | .createKillSwitch _ | .buryKillSwitch _ => true
  | _ => false

/-- The changes of source files under a key. -/
def World.changesOf (w : World) (key : Sha256Text) : List FileOperation :=
  (w.log.filter fun entry => decide (entry.key = key) && entry.operation.changesSource).map LogEntry.operation

inductive RecordFile
  | intent
  | applied
  | receipt

def FileOperation.record : FileOperation → Option RecordFile
  | .createIntent _ => some .intent
  | .createApplied _ => some .applied
  | .createReceipt _ => some .receipt
  | _ => none

/-- The records made under a key. -/
def World.recordsOf (w : World) (key : Sha256Text) : List RecordFile :=
  (w.log.filter fun entry => decide (entry.key = key)).filterMap fun entry => entry.operation.record

def existing (root : DataRoot) (key : Sha256Text) : List RecordFile :=
  ((root.intents key).map fun _ => .intent).toList ++ ((root.applied key).map fun _ => .applied).toList ++
    ((root.receipts key).map fun _ => .receipt).toList

def Names (desired : JournalDesiredState) : FileOperation → Prop
  | .setMode => desired = .paper
  | .createKillSwitch _ => desired = .killSwitchActive
  | .buryKillSwitch _ => desired = .killSwitchInactive
  | _ => False

def replay (root : DataRoot) (log : List LogEntry) : DataRoot :=
  log.foldl (fun root entry => entry.operation.apply entry.key root) root

/-- Each operation of the history finds the files that the operations before it left. -/
def Follows (root : DataRoot) : List LogEntry → Prop
  | [] => True
  | entry :: rest => entry.before = root ∧ Follows (entry.operation.apply entry.key root) rest

theorem follows_append {xs ys : List LogEntry} {root : DataRoot} :
    Follows root (xs ++ ys) ↔ Follows root xs ∧ Follows (replay root xs) ys := by
  induction xs generalizing root with
  | nil => simp [Follows, replay]
  | cons entry rest ih =>
    rw [List.cons_append, Follows, Follows, ih, and_assoc]
    rfl

variable (sha256 : ByteArray → Sha256Text)

/-- A clearing authorized by an intent of a command-line actor that expects the present state, with the evidence
of a call. -/
def ClearAuthorized (made : ExecuteCall → Prop) (key : Sha256Text) (root : DataRoot) : Prop :=
  ∃ intent call evidence, load sha256 root key = .ok ⟨some intent, none, none⟩ ∧ intent.actor.interface = .cli ∧
    intent.expectedStateSha256 = some (readState sha256 root).stateSha256 ∧
    made call ∧ call.key sha256 = key ∧ call.fresh = .ok evidence ∧
    intent.safetyEvidenceSha256 = some evidence.evidenceSha256 ∧ ClearsSafely evidence call.decidedAt

def Legal (made : ExecuteCall → Prop) (entry : LogEntry) : Prop :=
  match entry.operation with
  | .createIntent _ => entry.before.intents entry.key = none ∧ entry.before.applied entry.key = none ∧
      entry.before.receipts entry.key = none
  | .createApplied _ => entry.before.intents entry.key ≠ none ∧ entry.before.applied entry.key = none ∧
      entry.before.receipts entry.key = none
  | .createReceipt _ => entry.before.applied entry.key ≠ none ∧ entry.before.receipts entry.key = none
  | .setMode => True
  | .createKillSwitch _ => entry.before.killSwitch = .absent
  | .buryKillSwitch raw => entry.before.killSwitch = .regular raw ∧ entry.before.tombstones entry.key = none ∧
      ClearAuthorized sha256 made entry.key entry.before

/-- The journal is readable, its history legal, and the files are what the history made of them. -/
structure Sound (made : ExecuteCall → Prop) (root : DataRoot) (w : World) : Prop where
  readable : ∀ key, ∃ snapshot, load sha256 w.root key = .ok snapshot
  timed : ∀ key intent applied receipt, load sha256 w.root key = .ok ⟨some intent, some applied, receipt⟩ →
    (intent.acceptedAt : ℤ) ≤ applied.appliedAt
  legal : ∀ entry ∈ w.log, Legal sha256 made entry
  follows : Follows root w.log
  replayed : w.root = replay root w.log
  buried : ∀ key raw, w.root.tombstones key = some raw ↔ .buryKillSwitch raw ∈ w.changesOf key
  recorded : ∀ key, w.recordsOf key = existing w.root key

def Tells (snapshot : JournalSnapshot) (changes : List FileOperation) : Prop :=
  match snapshot.intent, snapshot.applied with
  | none, _ => changes = []
  | some intent, none => changes = [] ∨ ∃ operation, changes = [operation] ∧ Names intent.desiredState operation
  | some intent, some applied =>
    if applied.applicationKind = .noChange then changes = []
    else ∃ operation, changes = [operation] ∧ Names intent.desiredState operation

/-- The records of every key tell what it changed. -/
def Truthful (w : World) : Prop :=
  ∀ key snapshot, load sha256 w.root key = .ok snapshot → Tells snapshot (w.changesOf key)

def Keeps (w t : World) : Prop := ∀ key text, w.root.receipts key = some text → t.root.receipts key = some text

/-- The invariant: what holds always, and what holds under the condition; of the world before the call only that its
receipts are kept. -/
structure Kept (made : ExecuteCall → Prop) (root : DataRoot) (P : Prop) (w₀ w : World) : Prop where
  sound : Sound sha256 made root w
  truthful : P → Truthful sha256 w
  keeps : Keeps w₀ w

variable {sha256} {made : ExecuteCall → Prop} {root : DataRoot} {P : Prop} {w₀ w : World} {key : Sha256Text}
  {operation : FileOperation}

theorem changesOf_operated (w : World) (key other : Sha256Text) (operation : FileOperation) :
    (w.operated key operation).changesOf other =
      w.changesOf other ++ if key = other ∧ operation.changesSource = true then [operation] else [] := by
  unfold World.changesOf World.operated
  rw [List.filter_append, List.map_append]
  congr 1
  by_cases h : key = other ∧ operation.changesSource = true
  · rw [if_pos h, List.filter_cons_of_pos (by simp [h])]
    rfl
  · rw [if_neg h, List.filter_cons_of_neg (by simpa using h)]
    rfl

theorem recordsOf_operated (w : World) (key other : Sha256Text) (operation : FileOperation) :
    (w.operated key operation).recordsOf other =
      w.recordsOf other ++ if key = other then operation.record.toList else [] := by
  unfold World.recordsOf World.operated
  rw [List.filter_append, List.filterMap_append]
  congr 1
  by_cases h : key = other
  · rw [if_pos h, List.filter_cons_of_pos (by simpa using h), List.filter_nil]
    cases operation <;> rfl
  · rw [if_neg h, List.filter_cons_of_neg (by simpa using h), List.filter_nil]
    rfl

theorem existing_operated {before : DataRoot} (hlegal : Legal sha256 made ⟨key, operation, before⟩) (other : Sha256Text) :
    existing (operation.apply key before) other =
      existing before other ++ if key = other then operation.record.toList else [] := by
  by_cases hne : key = other
  · subst hne
    cases operation with
    | createIntent text =>
      obtain ⟨hintents, happlied, hreceipts⟩ := hlegal
      simp only at hintents happlied hreceipts
      simp [existing, FileOperation.apply, FileOperation.record, hintents, happlied, hreceipts]
    | createApplied text =>
      obtain ⟨_, happlied, hreceipts⟩ := hlegal
      simp only at happlied hreceipts
      simp [existing, FileOperation.apply, FileOperation.record, happlied, hreceipts]
    | createReceipt text =>
      obtain ⟨_, hreceipts⟩ := hlegal
      simp only at hreceipts
      simp [existing, FileOperation.apply, FileOperation.record, hreceipts]
    | setMode | createKillSwitch | buryKillSwitch =>
      simp [existing, FileOperation.apply, FileOperation.record]
  · rw [if_neg hne, List.append_nil]
    have hother : other ≠ key := fun heq => hne heq.symm
    cases operation <;> simp [existing, FileOperation.apply, Function.update_of_ne hother]

theorem Sound.operated (h : Sound sha256 made root w) (hlegal : Legal sha256 made ⟨key, operation, w.root⟩)
    (hload : ∃ snapshot, load sha256 (operation.apply key w.root) key = .ok snapshot)
    (htimed : ∀ intent applied receipt, load sha256 (operation.apply key w.root) key =
      .ok ⟨some intent, some applied, receipt⟩ → (intent.acceptedAt : ℤ) ≤ applied.appliedAt) :
    Sound sha256 made root (w.operated key operation) where
  readable other := by
    by_cases hne : other = key
    · rw [hne]
      exact hload
    · rw [World.operated, load_other hne]
      exact h.readable other
  timed other intent applied receipt hother := by
    by_cases hne : other = key
    · subst hne
      exact htimed intent applied receipt hother
    · rw [World.operated, load_other hne] at hother
      exact h.timed other intent applied receipt hother
  legal entry hentry := by
    rcases List.mem_append.1 hentry with hold | hnew
    · exact h.legal entry hold
    · rw [List.mem_singleton.1 hnew]
      exact hlegal
  follows := follows_append.2 ⟨h.follows, h.replayed, trivial⟩
  replayed := by
    unfold replay World.operated
    rw [List.foldl_append]
    exact congrArg (operation.apply key) h.replayed
  buried other raw := by
    rw [changesOf_operated]
    have hold := h.buried other raw
    cases operation with
    | buryKillSwitch raw' =>
      by_cases hne : key = other
      · -- before, the key had no tombstone and had buried nothing
        subst hne
        rw [hlegal.2.1] at hold
        have hnone : .buryKillSwitch raw ∉ w.changesOf key := fun hmem => nomatch hold.2 hmem
        simp [World.operated, FileOperation.apply, FileOperation.changesSource, hnone, eq_comm]
      · simp only [World.operated, FileOperation.apply, hne, false_and, if_false, List.append_nil]
        rw [Function.update_of_ne (fun heq => hne heq.symm)]
        exact hold
    | createIntent text | createApplied text =>
      simpa [World.operated, FileOperation.apply, FileOperation.changesSource] using hold
    | createReceipt text => simpa [World.operated, FileOperation.apply, FileOperation.changesSource] using hold
    | setMode | createKillSwitch =>
      refine hold.trans ?_
      split_ifs <;> simp
  recorded other := by
    rw [recordsOf_operated, h.recorded other]
    exact (existing_operated hlegal other).symm

theorem Truthful.operated (h : Truthful sha256 w)
    (htells : ∀ snapshot, load sha256 (operation.apply key w.root) key = .ok snapshot →
      Tells snapshot ((w.operated key operation).changesOf key)) : Truthful sha256 (w.operated key operation) := by
  intro other snapshot hload
  by_cases hne : other = key
  · subst hne
    exact htells snapshot hload
  · rw [World.operated, load_other hne] at hload
    rw [changesOf_operated, if_neg (fun heq => hne heq.1.symm), List.append_nil]
    exact h other snapshot hload

theorem Keeps.operated (h : Keeps w₀ w) (hnew : ∀ text, operation = .createReceipt text → w.root.receipts key = none) :
    Keeps w₀ (w.operated key operation) := by
  intro other text htext
  have hkept := h other text htext
  cases operation with
  | createReceipt new =>
    by_cases hne : other = key
    · subst hne
      rw [hnew new rfl] at hkept
      cases hkept
    · simpa [World.operated, FileOperation.apply, Function.update_of_ne hne] using hkept
  | createIntent text => exact hkept
  | createApplied text => exact hkept
  | setMode => exact hkept
  | createKillSwitch raw => exact hkept
  | buryKillSwitch raw => exact hkept

theorem Kept.operated {snapshot : JournalSnapshot} (h : Kept sha256 made root P w₀ w)
    (hload : load sha256 (operation.apply key w.root) key = .ok snapshot)
    (hlegal : Legal sha256 made ⟨key, operation, w.root⟩)
    (htimed : ∀ intent ∈ snapshot.intent, ∀ applied ∈ snapshot.applied, (intent.acceptedAt : ℤ) ≤ applied.appliedAt)
    (htells : P → Tells snapshot ((w.operated key operation).changesOf key))
    (hnew : ∀ text, operation = .createReceipt text → w.root.receipts key = none) :
    Kept sha256 made root P w₀ (w.operated key operation) where
  sound := h.sound.operated hlegal ⟨snapshot, hload⟩ fun intent applied receipt hother => by
    rw [hload] at hother
    cases hother
    exact htimed intent rfl applied rfl
  truthful hp := (h.truthful hp).operated fun other hother => by
    rw [hload] at hother
    cases hother
    exact htells hp
  keeps := h.keeps.operated hnew

variable {u : Unit}

theorem checkCreate_ok_iff {α : Type} {kind : RecordKind α} {model : α} {existing : Option String} :
    checkCreate kind model existing = .ok u ↔ (kind.text model).utf8ByteSize ≤ maxJournalBytes ∧ existing = none := by
  unfold checkCreate
  simp [bind_ok_iff]

variable {call : ExecuteCall} {intent : CommandIntent} {applied : CommandApplied}

theorem pending_files {root : DataRoot} (h : load sha256 root key = .ok ⟨some intent, none, none⟩) :
    root.intents key ≠ none ∧ root.applied key = none ∧ root.receipts key = none ∧ intent.idempotencyKeySha256 = key ∧
      IntentValid intent := by
  obtain ⟨⟨hintent, _⟩, ⟨happlied, _⟩, ⟨hreceipt, _⟩, hpath, hrelations⟩ := load_ok_iff.1 h
  refine ⟨by rw [hintent]; simp, happlied, hreceipt, hpath.1 intent rfl, ?_⟩
  exact ((validateRelations_ok_iff.1 hrelations).2.2 intent rfl).1

theorem expectedCode_eq (hfits : AppliedFits intent applied) :
    expectedCode intent applied.applicationKind = some (outcomeCode intent applied) := by
  have hallowed := hfits.1
  unfold expectedCode outcomeCode
  by_cases hkind : applied.applicationKind = .noChange
  · rw [hkind] at hallowed
    cases hdesired : intent.desiredState with
    | paper => simp [hkind]
    | killSwitchActive => simp [hkind]
    | killSwitchInactive =>
      rw [hdesired] at hallowed
      simp [allowedKinds] at hallowed
  · simp only [hkind, if_false]
    cases intent.desiredState <;> rfl

def Answered (sha256 : ByteArray → Sha256Text) (key : Sha256Text) (result : CommandExecutionResult) (w : World) : Prop :=
  ∃ snapshot, load sha256 w.root key = .ok snapshot ∧ snapshot.receipt = some result.receipt

/-! ## The parts of an execution -/

theorem upholds_finish (h : Kept sha256 made root P w₀ w)
    (hload : load sha256 w.root key = .ok ⟨some intent, some applied, none⟩) (deduplicated : Bool) :
    Upholds (Kept sha256 made root P w₀) (Answered sha256 key) (finish sha256 call key intent applied deduplicated) w := by
  obtain ⟨_, ⟨happlied, _⟩, ⟨hreceipt, _⟩, hpath, hrelations⟩ := load_ok_iff.1 hload
  obtain ⟨_, hfits⟩ := (validateRelations_ok_iff.1 hrelations).2.2 intent rfl
  obtain ⟨_, hfits, _⟩ := hfits applied rfl
  have hkey : intent.idempotencyKeySha256 = key := hpath.1 intent rfl
  have htimed := h.sound.timed key intent applied none hload
  unfold finish
  refine upholds_check_bind fun hclock => upholds_lift_bind fun _ _ => ?_
  have hmirrors : ReceiptMirrors intent applied (makeReceipt sha256 call intent applied) :=
    ⟨rfl, rfl, rfl, rfl, rfl, rfl, rfl, rfl, rfl, rfl, rfl, rfl, rfl, rfl, rfl, rfl, htimed, hclock⟩
  refine Upholds.bind (Q := fun _ t => load sha256 t.root key =
    .ok ⟨some intent, some applied, some (makeReceipt sha256 call intent applied)⟩) ?_ ?_
  · unfold createReceipt
    refine upholds_check_bind fun _ => upholds_read_bind fun _ hcreate => ?_
    have hsound : RecordSound sha256 receiptKind (makeReceipt sha256 call intent applied) :=
      ⟨digestValid_makeReceipt call intent applied, (checkCreate_ok_iff.1 hcreate).1⟩
    have hstored := load_createReceipt hload hsound hmirrors rfl (expectedCode_eq hfits)
    show Upholds _ _ (operate intent.idempotencyKeySha256 _) w
    rw [hkey]
    refine upholds_write (h.operated hstored ?_ ?_ ?_ ?_) hstored
    · exact ⟨by rw [happlied]; simp, hreceipt⟩
    · intro i hi a ha
      cases hi
      cases ha
      exact htimed
    · intro hp
      rw [changesOf_operated, if_neg (by simp [FileOperation.changesSource]), List.append_nil]
      have htells : Tells ⟨some intent, some applied, none⟩ (w.changesOf key) := h.truthful hp key _ hload
      exact htells
    · exact fun _ _ => hreceipt
  · intro _ t hstored
    refine upholds_read_bind fun snapshot hsnapshot => ?_
    cases hfinal : snapshot.receipt with
    | none => exact upholds_raise
    | some receipt => exact upholds_pure ⟨snapshot, hsnapshot, hfinal⟩

theorem IntentValid.safety_iff (h : IntentValid intent) :
    intent.safetyEvidenceSha256 ≠ none ↔ intent.desiredState = .killSwitchInactive := by
  rcases h.1 with hmode | hactivate | hclear
  · simp [hmode.2.1, hmode.2.2.2]
  · simp [hactivate.2.1, hactivate.2.2.2]
  · simp [hclear.2.1, hclear.2.2.2.1]

/-- An application of the kind fits the intent and what the key has changed. -/
structure Settles (P : Prop) (intent : CommandIntent) (kind : ApplicationKind) (tombstone : Option Sha256Text)
    (changes : List FileOperation) : Prop where
  allowed : kind ∈ allowedKinds intent.desiredState
  buried : tombstone ≠ none ↔ intent.desiredState = .killSwitchInactive
  tells : P → if kind = .noChange then changes = []
    else ∃ operation, changes = [operation] ∧ Names intent.desiredState operation

theorem upholds_settle (h : Kept sha256 made root P w₀ w)
    (hload : load sha256 w.root key = .ok ⟨some intent, none, none⟩) {resulting : Sha256Text} {kind : ApplicationKind}
    {tombstone : Option Sha256Text} (hsettles : Settles P intent kind tombstone (w.changesOf key)) (deduplicated : Bool) :
    Upholds (Kept sha256 made root P w₀) (Answered sha256 key) (do
      let applied ← lift (makeApplied sha256 call intent resulting kind tombstone)
      lift (call.authority .applied)
      createApplied sha256 key applied
      finish sha256 call key intent applied deduplicated) w := by
  obtain ⟨hintents, happlied, hreceipt, hkey, _⟩ := pending_files hload
  refine upholds_lift_bind fun applied hmake => ?_
  obtain ⟨hsame, hkind, htombstone, happliedAt, hclock, _⟩ := makeApplied_ok hmake
  have htimed : (intent.acceptedAt : ℤ) ≤ applied.appliedAt := by
    rw [happliedAt]
    exact hclock
  refine upholds_lift_bind fun _ _ => ?_
  refine Upholds.bind (Q := fun _ t => Kept sha256 made root P w₀ t ∧
    load sha256 t.root key = .ok ⟨some intent, some applied, none⟩) ?_ fun _ t ht => upholds_finish ht.1 ht.2 _
  unfold createApplied
  refine upholds_check_bind fun hdigest => upholds_read_bind fun _ hcreate => ?_
  have hsize := (checkCreate_ok_iff.1 hcreate).1
  have hfits : AppliedFits intent applied := by
    unfold AppliedFits
    rw [hkind, htombstone]
    exact ⟨hsettles.allowed, hsettles.buried⟩
  have hstored := load_createApplied hload ⟨hdigest, hsize⟩ hsame hfits
  have hkept : Kept sha256 made root P w₀ (w.operated key (.createApplied (appliedKind.text applied))) := by
    refine h.operated hstored ⟨hintents, happlied, hreceipt⟩ ?_ ?_ (fun _ hop => by cases hop)
    · intro i hi a ha
      cases hi
      cases ha
      exact htimed
    · intro hp
      rw [changesOf_operated, if_neg (by simp [FileOperation.changesSource]), List.append_nil]
      have htells := hsettles.tells hp
      rw [← hkind] at htells
      exact htells
  exact upholds_write hkept ⟨hkept, hstored⟩

/-! ## Changes -/

variable {actor : OperatorActor} {plan : OperatorMutationPlan} {current : OperatorSourceState} {acceptedAt : Instant}
    {request : SubmitOperatorCommand}

theorem clearing_of_safety {evidence : OperatorSafetyEvidence}
    (h : decideOperatorCommand sha256 actor request current acceptedAt (some evidence) = .ok plan)
    (hsafety : plan.safetyEvidenceSha256 ≠ none) :
    actor.interface = .cli ∧ plan.expectedStateSha256 = some current.stateSha256 ∧ ClearsSafely evidence acceptedAt ∧
      plan.safetyEvidenceSha256 = some evidence.evidenceSha256 := by
  unfold decideOperatorCommand at h
  cases hcommand : request.command with
  | setRequestedMode desired =>
    rw [hcommand] at h
    obtain ⟨_, _, ⟨_, _, rfl⟩ | ⟨_, rfl⟩⟩ := decideMode_ok h
    · exact absurd rfl hsafety
    · exact absurd rfl hsafety
  | activateKillSwitch reason =>
    rw [hcommand] at h
    obtain ⟨_, _, rfl⟩ | ⟨_, rfl⟩ := decideActivation_ok h
    · exact absurd rfl hsafety
    · exact absurd rfl hsafety
  | clearKillSwitch =>
    rw [hcommand] at h
    obtain ⟨hcli, hexpected, _, _, found, hfound, hclears, rfl⟩ := decideClearing_ok h
    cases hfound
    exact ⟨hcli, hexpected, hclears, rfl⟩

variable {safety : Option OperatorSafetyEvidence}

theorem safety_of_noChange (h : decideOperatorCommand sha256 actor request current acceptedAt safety = .ok plan)
    (hoperation : plan.operation = .noChange) : plan.safetyEvidenceSha256 = none := by
  unfold decideOperatorCommand at h
  cases hcommand : request.command with
  | setRequestedMode desired =>
    rw [hcommand] at h
    obtain ⟨_, _, ⟨_, _, rfl⟩ | ⟨_, rfl⟩⟩ := decideMode_ok h
    · rfl
    · rfl
  | activateKillSwitch reason =>
    rw [hcommand] at h
    obtain ⟨_, _, rfl⟩ | ⟨_, rfl⟩ := decideActivation_ok h
    · rfl
    · rfl
  | clearKillSwitch =>
    rw [hcommand] at h
    obtain ⟨_, _, _, _, _, _, _, rfl⟩ := decideClearing_ok h
    cases hoperation

theorem decideCall_ok_iff : decideCall sha256 call actor current acceptedAt safety = .ok plan ↔
      decideOperatorCommand sha256 actor call.request current acceptedAt safety = .ok plan := mapError_ok_iff

theorem recheckSafety_ok (h : recheckSafety sha256 call intent current = .ok u)
    (hsafety : intent.safetyEvidenceSha256 ≠ none) : intent.actor.interface = .cli ∧
      intent.expectedStateSha256 = some current.stateSha256 ∧ ∃ evidence, call.fresh = .ok evidence ∧
        intent.safetyEvidenceSha256 = some evidence.evidenceSha256 ∧ ClearsSafely evidence call.decidedAt := by
  unfold recheckSafety requireSamePlan at h
  split at h
  · next hnone => exact absurd hnone hsafety
  · next digest hdigest =>
    simp only [bind_ok_iff, require_ok_iff, decideCall_ok_iff] at h
    obtain ⟨evidence, hfresh, _, hsame, plan, hplan, hplanSame⟩ := h
    have hplanSafety : plan.safetyEvidenceSha256 ≠ none := by
      rw [hplanSame.2.2.2.1, hdigest]
      simp
    obtain ⟨hcli, hexpected, hclears, hevidence⟩ := clearing_of_safety hplan hplanSafety
    rw [← hplanSame.2.2.1, ← hplanSame.2.2.2.1]
    exact ⟨hcli, hexpected, evidence, hfresh, hevidence, hclears⟩

theorem Kept.changed (h : Kept sha256 made root P w₀ w) (operation : FileOperation)
    (hload : load sha256 w.root key = .ok ⟨some intent, none, none⟩)
    (hsource : operation.changesSource = true) (hnames : Names intent.desiredState operation)
    (hlegal : Legal sha256 made ⟨key, operation, w.root⟩) (hnone : P → w.changesOf key = []) :
    Kept sha256 made root P w₀ (w.operated key operation) ∧
      load sha256 (w.operated key operation).root key = .ok ⟨some intent, none, none⟩ ∧
      (P → ∃ op, (w.operated key operation).changesOf key = [op] ∧ Names intent.desiredState op) := by
  have hsame : load sha256 (operation.apply key w.root) key = .ok ⟨some intent, none, none⟩ := by
    cases operation with
    | createIntent text => cases hsource
    | createApplied text => cases hsource
    | createReceipt text => cases hsource
    | setMode => exact hload
    | createKillSwitch raw => exact hload
    | buryKillSwitch raw => exact hload
  have hchanges : P → ∃ op, (w.operated key operation).changesOf key = [op] ∧ Names intent.desiredState op := by
    intro hp
    refine ⟨operation, ?_, hnames⟩
    rw [changesOf_operated, if_pos ⟨rfl, hsource⟩, hnone hp]
    rfl
  refine ⟨h.operated hsame hlegal ?_ (fun hp => .inr (hchanges hp)) ?_, hsame, hchanges⟩
  · intro i _ a ha
    cases ha
  · intro text hop
    rw [hop] at hsource
    cases hsource

theorem absent_of_checkTarget {maxBytes : ℕ} {file : SafetySources.SourceFile} {value : ByteArray}
    (h : checkTarget sha256 maxBytes file value none = .ok u) : file = .absent := by
  unfold checkTarget at h
  simp only [bind_ok_iff, require_ok_iff] at h
  obtain ⟨_, _, existing, hread, rfl⟩ := h
  cases file with
  | absent => rfl
  | irregular => cases hread
  | regular raw =>
    simp only [readPrivateFile] at hread
    split_ifs at hread
    cases hread

theorem checkRename_ok {root : DataRoot} {expected : Sha256Text} {raw : ByteArray}
    (h : checkRename sha256 root key expected = .ok raw) :
    root.killSwitch = .regular raw ∧ root.tombstones key = none := by
  unfold checkRename at h
  simp only [bind_ok_iff] at h
  obtain ⟨found, hread, h⟩ := h
  cases found with
  | none => cases h
  | some source =>
    simp only [bind_ok_iff, require_ok_iff, Except.ok.injEq] at h
    obtain ⟨_, _, _, hfree, rfl⟩ := h
    refine ⟨?_, hfree⟩
    cases hfile : root.killSwitch with
    | absent =>
      rw [hfile] at hread
      cases hread
    | irregular =>
      rw [hfile] at hread
      cases hread
    | regular other =>
      rw [hfile] at hread
      simp only [readPrivateFile] at hread
      split_ifs at hread
      cases hread
      rfl

variable {accepted : OperatorSourceState} {at' : Instant}

theorem upholds_mutate (h : Kept sha256 made root P w₀ w)
    (hload : load sha256 w.root key = .ok ⟨some intent, none, none⟩)
    (hplan : decideOperatorCommand sha256 actor call.request accepted at' safety = .ok plan)
    (hsame : SamePlan intent plan) (hmade : made call) (hcall : call.key sha256 = key)
    (hrecheck : recheckSafety sha256 call intent (readState sha256 w.root) = .ok ())
    (hnone : P → w.changesOf key = []) (current : OperatorSourceState) :
    Upholds (Kept sha256 made root P w₀) (fun result t => Kept sha256 made root P w₀ t ∧
        load sha256 t.root key = .ok ⟨some intent, none, none⟩ ∧
        Settles P intent result.2.1 result.2.2 (t.changesOf key)) (mutate sha256 intent plan current) w := by
  obtain ⟨_, _, _, hkey, hvalid⟩ := pending_files hload
  subst hkey
  unfold mutate
  cases hoperation : plan.operation with
  | noChange =>
    have hsafety : intent.safetyEvidenceSha256 = none := by
      rw [← hsame.2.2.2.1]
      exact safety_of_noChange hplan hoperation
    have hdesired : intent.desiredState ≠ .killSwitchInactive := fun hinactive => hvalid.safety_iff.2 hinactive hsafety
    refine upholds_pure ⟨h, hload, ?_, by simp [hdesired], fun hp => by simpa using hnone hp⟩
    cases hstate : intent.desiredState with
    | paper => simp [allowedKinds]
    | killSwitchActive => simp [allowedKinds]
    | killSwitchInactive => exact absurd hstate hdesired
  | writeMode =>
    unfold applyMode
    refine Upholds.bind (Q := fun _ t => Kept sha256 made root P w₀ t ∧
      load sha256 t.root intent.idempotencyKeySha256 = .ok ⟨some intent, none, none⟩ ∧
      Settles P intent .modeReplaced none (t.changesOf intent.idempotencyKeySha256)) ?_ fun _ _ ht => upholds_pure ht
    refine upholds_read_bind fun _ _ => upholds_check_bind fun hbinds => upholds_read_bind fun _ _ => ?_
    have hdesired := hbinds.2.1
    obtain ⟨hkept, hpending, hchanges⟩ := h.changed .setMode hload rfl hdesired trivial hnone
    refine upholds_write_bind hkept (upholds_read fun _ _ =>
      ⟨hkept, hpending, ?_, by simp [hdesired], fun hp => by simpa using hchanges hp⟩)
    rw [hdesired]
    decide
  | writeKillSwitch =>
    cases hraw : plan.desiredKillSwitchBytes with
    | none => exact upholds_raise
    | some raw =>
      unfold activateKillSwitch
      refine Upholds.bind (Q := fun _ t => Kept sha256 made root P w₀ t ∧
        load sha256 t.root intent.idempotencyKeySha256 = .ok ⟨some intent, none, none⟩ ∧
        Settles P intent .killSwitchCreated none (t.changesOf intent.idempotencyKeySha256)) ?_
        fun _ _ ht => upholds_pure ht
      refine upholds_read_bind fun _ _ => upholds_check_bind fun hbinds => upholds_read_bind fun _ htarget => ?_
      have hdesired := hbinds.2.1
      obtain ⟨hkept, hpending, hchanges⟩ :=
        h.changed (.createKillSwitch raw) hload rfl hdesired (absent_of_checkTarget htarget) hnone
      refine upholds_write_bind hkept (upholds_read fun _ _ =>
      ⟨hkept, hpending, ?_, by simp [hdesired], fun hp => by simpa using hchanges hp⟩)
      rw [hdesired]
      decide
  | clearKillSwitch =>
    unfold clearKillSwitch
    refine Upholds.bind (Q := fun result t => Kept sha256 made root P w₀ t ∧
      load sha256 t.root intent.idempotencyKeySha256 = .ok ⟨some intent, none, none⟩ ∧
      Settles P intent .killSwitchClearedToTombstone (some result.2) (t.changesOf intent.idempotencyKeySha256)) ?_
      fun _ _ ht => upholds_pure ht
    refine upholds_read_bind fun state hstate => ?_
    obtain rfl := Except.ok.inj hstate
    cases hdigest : (readState sha256 w.root).killSwitchFileSha256 with
    | none => exact upholds_raise
    | some digest =>
      refine upholds_check_bind fun hbinds => upholds_read_bind fun raw hrename => ?_
      have hdesired := hbinds.2.1
      obtain ⟨hfile, hfree⟩ := checkRename_ok hrename
      obtain ⟨hcli, hexpected, evidence, hfresh, hevidence, hclears⟩ :=
        recheckSafety_ok hrecheck (hvalid.safety_iff.2 hdesired)
      have hauthorized : ClearAuthorized sha256 made intent.idempotencyKeySha256 w.root :=
        ⟨intent, call, evidence, hload, hcli, hexpected, hmade, hcall, hfresh, hevidence, hclears⟩
      obtain ⟨hkept, hpending, hchanges⟩ :=
        h.changed (.buryKillSwitch raw) hload rfl hdesired ⟨hfile, hfree, hauthorized⟩ hnone
      refine upholds_write_bind hkept (upholds_read_bind fun _ _ => ?_)
      refine upholds_pure ⟨hkept, hpending, ?_, by simp [hdesired], fun hp => by simpa using hchanges hp⟩
      rw [hdesired]
      decide

/-! ## Executions -/

theorem upholds_apply (h : Kept sha256 made root P w₀ w)
    (hload : load sha256 w.root key = .ok ⟨some intent, none, none⟩)
    (hplan : decideOperatorCommand sha256 actor call.request accepted at' safety = .ok plan)
    (hsame : SamePlan intent plan) (hmade : made call) (hcall : call.key sha256 = key)
    (hnone : P → w.changesOf key = []) (deduplicated : Bool) :
    Upholds (Kept sha256 made root P w₀) (Answered sha256 key) (apply sha256 call key intent plan deduplicated) w := by
  unfold apply
  refine upholds_read_bind fun state hstate => ?_
  obtain rfl := Except.ok.inj hstate
  refine upholds_lift_bind fun _ hrecheck => upholds_check_bind fun _ => upholds_lift_bind fun _ _ => ?_
  refine (upholds_mutate h hload hplan hsame hmade hcall hrecheck hnone _).bind ?_
  rintro ⟨resulting, kind, tombstone⟩ t ⟨hkept, hpending, hsettles⟩
  exact upholds_settle hkept hpending hsettles _

end TradingAgent.OperatorControl
