import TradingAgent.OperatorControl.ServiceSteps

/-! What an execution writes, whether its key is new or not. -/

namespace TradingAgent.OperatorControl

open Outcome Transaction Transaction.Tx
open SecurityMaster (Sha256Text)

/-- The retry of a pending key has no more to do than what the key has not done. -/
def Decided (sha256 : ByteArray → Sha256Text) (call : ExecuteCall) (w : World) : Prop :=
  ∀ intent, load sha256 w.root (call.key sha256) = .ok ⟨some intent, none, none⟩ →
    intent.desiredState ≠ .killSwitchInactive →
    (w.changesOf (call.key sha256) ≠ [] → (readState sha256 w.root).stateSha256 ≠ intent.priorStateSha256) ∧
    (w.changesOf (call.key sha256) = [] → (readState sha256 w.root).stateSha256 = intent.priorStateSha256 ∨
      (match intent.desiredState with
        | .paper => (readState sha256 w.root).modeFileSha256
        | _ => (readState sha256 w.root).killSwitchFileSha256) ≠ intent.desiredFileSha256)

variable {sha256 : ByteArray → Sha256Text} {made : ExecuteCall → Prop} {root : DataRoot} {P : Prop} {w₀ w : World}
  {key : Sha256Text} {call : ExecuteCall} {intent : CommandIntent}
  {tombstone : Option Sha256Text} {current : OperatorSourceState} {kind : ApplicationKind}

/-- A recovery takes a clearing as done by its tombstone, and another change by the desired file in another state. -/
theorem classifyRecovery_recovered (h : classifyRecovery intent current tombstone = .ok (.recovered kind)) :
    (intent.desiredState = .killSwitchInactive ∧ kind = .recoveredKillSwitchClear ∧ tombstone ≠ none) ∨
    (tombstone = none ∧ current.stateSha256 ≠ intent.priorStateSha256 ∧
      (intent.desiredState = .paper ∧ kind = .recoveredModeReplacement ∧
          current.modeFileSha256 = intent.desiredFileSha256 ∨
        intent.desiredState = .killSwitchActive ∧ kind = .recoveredKillSwitchCreate ∧
          current.killSwitchFileSha256 = intent.desiredFileSha256)) := by
  unfold classifyRecovery at h
  split_ifs at h with hclear htombstone hdesired hprior hother hsame hmode hkill
  · cases h
    exact .inl ⟨hclear, rfl, htombstone⟩
  · cases h
  · cases h
  · cases h
    exact .inr ⟨not_not.1 hother, hsame, .inl ⟨hmode.1, rfl, hmode.2⟩⟩
  · cases h
    exact .inr ⟨not_not.1 hother, hsame, .inr ⟨hkill.1, rfl, hkill.2⟩⟩

theorem classifyRecovery_retry (h : classifyRecovery intent current tombstone = .ok .retry) :
    tombstone = none ∧ current.stateSha256 = intent.priorStateSha256 := by
  unfold classifyRecovery at h
  split_ifs at h with hclear htombstone hdesired hprior hother hsame hmode hkill
  · cases h
  · exact ⟨not_not.1 htombstone, hprior⟩
  · exact ⟨not_not.1 hother, hsame⟩
  · cases h
  · cases h

theorem tombstoneSha256_eq_none_iff {root : DataRoot}
    (h : tombstoneSha256 sha256 root key = .ok tombstone) : tombstone = none ↔ root.tombstones key = none := by
  unfold tombstoneSha256 at h
  simp only [bind_ok_iff, Except.ok.injEq] at h
  obtain ⟨found, hread, rfl⟩ := h
  cases htomb : root.tombstones key with
  | none =>
    rw [htomb] at hread
    cases hread
    simp
  | some raw =>
    rw [htomb] at hread
    simp only [readPrivateFile] at hread
    split_ifs at hread
    cases hread
    simp

variable (h : Kept sha256 made root P w₀ w)
include h

variable (hload : load sha256 w.root key = .ok ⟨some intent, none, none⟩)
include hload

variable (hcall : call.key sha256 = key) (hdecided : P → Decided sha256 call w)
  (htombstone : tombstoneSha256 sha256 w.root key = .ok tombstone)
include hcall hdecided htombstone

theorem settles_recovered
    (hrecovered : classifyRecovery intent (readState sha256 w.root) tombstone = .ok (.recovered kind)) :
    Settles P intent kind (if kind = .recoveredKillSwitchClear then tombstone else none) (w.changesOf key) := by
  subst hcall
  rcases classifyRecovery_recovered hrecovered with ⟨hdesired, rfl, hsome⟩ | ⟨_, hprior, hchange⟩
  · refine ⟨by rw [hdesired]; decide, by simpa [hdesired] using hsome, fun hp => ?_⟩
    -- the tombstone of the key shows that the key has changed a file
    obtain ⟨raw, hraw⟩ := Option.ne_none_iff_exists'.1
      (fun hnone => hsome ((tombstoneSha256_eq_none_iff htombstone).2 hnone))
    have hburied := (h.sound.buried _ raw).1 hraw
    have htells : Tells ⟨some intent, none, none⟩ (w.changesOf (call.key sha256)) := h.truthful hp _ _ hload
    rw [if_neg (by decide)]
    refine htells.resolve_left fun hnone => ?_
    rw [hnone] at hburied
    cases hburied
  · have hactive : intent.desiredState ≠ .killSwitchInactive := by
      rcases hchange with ⟨hdesired, _⟩ | ⟨hdesired, _⟩
      · rw [hdesired]
        decide
      · rw [hdesired]
        decide
    have hsettled : P → ∃ operation, w.changesOf (call.key sha256) = [operation] ∧ Names intent.desiredState operation := by
      intro hp
      have htells : Tells ⟨some intent, none, none⟩ (w.changesOf (call.key sha256)) := h.truthful hp _ _ hload
      refine htells.resolve_left fun hnone => ?_
      rcases (hdecided hp intent hload hactive).2 hnone with hsame | hfile
      · exact hprior hsame
      · rcases hchange with ⟨hdesired, _, hmode⟩ | ⟨hdesired, _, hkill⟩
        · rw [hdesired] at hfile
          exact hfile hmode
        · rw [hdesired] at hfile
          exact hfile hkill
    rcases hchange with ⟨hdesired, rfl, _⟩ | ⟨hdesired, rfl, _⟩
    · exact ⟨by rw [hdesired]; decide, by simp [hdesired], hsettled⟩
    · exact ⟨by rw [hdesired]; decide, by simp [hdesired], hsettled⟩

theorem changesOf_retry (hretry : classifyRecovery intent (readState sha256 w.root) tombstone = .ok .retry) (hp : P) :
    w.changesOf key = [] := by
  subst hcall
  obtain ⟨hnone, hprior⟩ := classifyRecovery_retry hretry
  by_contra hchanged
  by_cases hdesired : intent.desiredState = .killSwitchInactive
  · have htells : Tells ⟨some intent, none, none⟩ (w.changesOf (call.key sha256)) := h.truthful hp _ _ hload
    obtain ⟨operation, hone, hnames⟩ := htells.resolve_left hchanged
    rw [hdesired] at hnames
    cases operation with
    | buryKillSwitch raw =>
      have hburied := (h.sound.buried (call.key sha256) raw).2 (by rw [hone]; simp)
      rw [(tombstoneSha256_eq_none_iff htombstone).1 hnone] at hburied
      cases hburied
    | setMode => cases hnames
    | createKillSwitch raw => cases hnames
    | createIntent text => cases hnames
    | createApplied text => cases hnames
    | createReceipt text => cases hnames
  · exact (hdecided hp intent hload hdesired).1 hchanged hprior

omit hcall hdecided htombstone

theorem upholds_resumePending (hmade : made call) (hcall : call.key sha256 = key)
    (hdecided : P → Decided sha256 call w) :
    Upholds (Kept sha256 made root P w₀) (Answered sha256 key) (resumePending sha256 call key intent) w := by
  unfold resumePending
  refine upholds_read_bind fun state hstate => ?_
  obtain rfl := Except.ok.inj hstate
  refine upholds_read_bind fun tombstone htombstone => upholds_lift_bind fun disposition hdisposition => ?_
  cases disposition with
  | recovered kind =>
    exact upholds_settle h hload (settles_recovered h hload hcall hdecided htombstone hdisposition) true
  | retry =>
    have hnone := changesOf_retry h hload hcall hdecided htombstone hdisposition
    refine upholds_lift_bind fun safety _ => upholds_lift_bind fun plan hplan => upholds_lift_bind fun _ hsame => ?_
    exact upholds_apply h hload (decideCall_ok_iff.1 hplan) (require_ok_iff.1 hsame) hmade hcall hnone true

omit hload

theorem upholds_resume {snapshot : JournalSnapshot} (hload : load sha256 w.root key = .ok snapshot)
    (hintent : snapshot.intent = some intent) (hmade : made call) (hcall : call.key sha256 = key)
    (hdecided : P → Decided sha256 call w) :
    Upholds (Kept sha256 made root P w₀) (Answered sha256 key) (resume sha256 call key intent snapshot) w := by
  obtain ⟨found, applied, receipt⟩ := snapshot
  obtain rfl : found = some intent := hintent
  unfold resume
  cases receipt with
  | some receipt =>
    exact upholds_lift_bind fun _ _ => upholds_pure ⟨_, hload, rfl⟩
  | none =>
    cases applied with
    | some applied => exact upholds_finish h hload true
    | none => exact upholds_resumePending h hload hmade hcall hdecided

theorem upholds_start (hload : load sha256 w.root key = .ok noRecords) (hmade : made call)
    (hcall : call.key sha256 = key) :
    Upholds (Kept sha256 made root P w₀) (Answered sha256 key) (start sha256 call key) w := by
  unfold start
  refine upholds_read_bind fun state _ => upholds_lift_bind fun safety _ => upholds_lift_bind fun plan hplan => ?_
  refine upholds_lift_bind fun _ _ => ?_
  refine Upholds.bind (Q := fun _ t => Kept sha256 made root P w₀ t ∧
    load sha256 t.root key = .ok ⟨some (makeIntent sha256 call plan), none, none⟩ ∧ (P → t.changesOf key = [])) ?_
    fun _ t ht => upholds_apply ht.1 ht.2.1 (decideCall_ok_iff.1 hplan) ⟨rfl, rfl, rfl, rfl, rfl, rfl⟩ hmade hcall ht.2.2
      false
  unfold createIntent
  refine upholds_check_bind fun hdigest => upholds_lift_bind fun _ hvalid => upholds_read_bind fun _ hcreate => ?_
  have hkey : (makeIntent sha256 call plan).idempotencyKeySha256 = key := hcall
  have hsound : RecordSound sha256 intentKind (makeIntent sha256 call plan) :=
    ⟨hdigest, (checkCreate_ok_iff.1 hcreate).1⟩
  have hstored := load_createIntent hload hsound (require_ok_iff.1 hvalid) hkey
  obtain ⟨⟨hintents, _⟩, ⟨happlied, _⟩, ⟨hreceipts, _⟩, _⟩ := load_ok_iff.1 hload
  have hsame : (w.operated key (.createIntent (intentKind.text (makeIntent sha256 call plan)))).changesOf key =
      w.changesOf key := by
    rw [changesOf_operated, if_neg (by simp [FileOperation.changesSource]), List.append_nil]
  have hnone : P → w.changesOf key = [] := fun hp => h.truthful hp key _ hload
  rw [hkey]
  have hkept : Kept sha256 made root P w₀
      (w.operated key (.createIntent (intentKind.text (makeIntent sha256 call plan)))) := by
    refine h.operated hstored ⟨hintents, happlied, hreceipts⟩ (fun _ _ _ ha => by cases ha) (fun hp => ?_)
      (fun _ hop => by cases hop)
    exact .inl (hsame.trans (hnone hp))
  exact upholds_write hkept ⟨hkept, hstored, fun hp => hsame.trans (hnone hp)⟩

/-- An execution keeps the invariant with every operation, and its result is the receipt of the journal. -/
theorem upholds_execute (hmade : made call) (hdecided : P → Decided sha256 call w) :
    Upholds (Kept sha256 made root P w₀) (Answered sha256 (call.key sha256)) (execute sha256 call) w := by
  unfold execute
  refine upholds_lift_bind fun _ _ => upholds_mapError ?_
  unfold executeLocked
  refine upholds_read_bind fun snapshot hload => ?_
  cases hintent : snapshot.intent with
  | some intent =>
    exact upholds_check_bind fun _ => upholds_resume h hload hintent hmade rfl hdecided
  | none =>
    obtain ⟨_, _, _, _, hrelations⟩ := load_ok_iff.1 hload
    obtain ⟨hfirst, hsecond, _⟩ := validateRelations_ok_iff.1 hrelations
    have happlied := hfirst hintent
    have hreceipt := hsecond happlied
    obtain ⟨found, applied, receipt⟩ := snapshot
    cases hintent
    cases happlied
    cases hreceipt
    exact upholds_start h hload hmade rfl

end TradingAgent.OperatorControl
