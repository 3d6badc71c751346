import TradingAgent.OperatorControl.Service

/-! Journal records are read back as they were written. -/

namespace TradingAgent.OperatorControl

open Outcome
open SecurityMaster (Sha256Text)

variable {sha256 : ByteArray → Sha256Text} {α : Type} {kind : RecordKind α} {root : DataRoot} {key : Sha256Text}
  (sha256) in
def RecordSound (kind : RecordKind α) (model : α) : Prop :=
  DigestValid sha256 kind model ∧ (kind.text model).utf8ByteSize ≤ maxJournalBytes

theorem toList_text (kind : RecordKind α) (model : α) :
    (kind.text model).toList = Json.dumps (kind.codec.encode model) ++ ['\n'] := by
  unfold RecordKind.text Codec.text
  rw [String.toList_append, String.toList_ofList]
  rfl

theorem newline_notMem (kind : RecordKind α) (model : α) : '\n' ∉ Json.dumps (kind.codec.encode model) := by
  intro h
  have := Json.graphic_dumps _ (kind.codec.printable model) _ h
  revert this
  decide

theorem parseRecord_ok_iff {raw : String} {model : α} :
    parseRecord sha256 kind raw = .ok model ↔ raw = kind.text model ∧ RecordSound sha256 kind model := by
  unfold parseRecord
  simp only [bind_ok_iff, require_ok_iff]
  constructor
  · rintro ⟨_, hsize, _, _, h⟩
    split at h
    · cases h
    · simp only [bind_ok_iff, require_ok_iff, Except.ok.injEq] at h
      obtain ⟨_, hdigest, _, htext, rfl⟩ := h
      exact ⟨htext.symm, hdigest, by rw [htext]; exact hsize⟩
  · rintro ⟨rfl, hdigest, hsize⟩
    have hparse : kind.codec.parse (String.ofList (kind.text model).toList.dropLast) = some model := by
      rw [kind.codec.parse_eq_some_iff, toList_text, List.dropLast_concat]
      rfl
    refine ⟨(), hsize, (), ⟨?_, ?_⟩, ?_⟩
    · rw [toList_text, List.getLast?_concat]
    · rw [toList_text, List.count_append, List.count_eq_zero_of_not_mem (newline_notMem kind model)]
      rfl
    · rw [hparse]
      simp [require_of _ hdigest, require_of]

theorem loadRecord_ok_iff {record : Option String} {model : Option α} : loadRecord sha256 kind record = .ok model ↔
      record = model.map kind.text ∧ ∀ m ∈ model, RecordSound sha256 kind m := by
  cases record with
  | none =>
    cases model with
    | none => simp [loadRecord]
    | some m => simp [loadRecord]
  | some raw =>
    unfold loadRecord
    cases model with
    | none =>
      simp only [Option.map_none, reduceCtorEq, false_and, iff_false]
      intro h
      cases hparse : parseRecord sha256 kind raw with
      | error e =>
        rw [hparse] at h
        cases h
      | ok m =>
        rw [hparse] at h
        cases h
    | some m =>
      have hmap : (parseRecord sha256 kind raw).map some = .ok (some m) ↔ parseRecord sha256 kind raw = .ok m := by
        cases parseRecord sha256 kind raw with
        | error e => simp [Except.map]
        | ok a => simp [Except.map]
      rw [hmap, parseRecord_ok_iff]
      simp

variable {snapshot : JournalSnapshot}

theorem load_ok_iff : load sha256 root key = .ok snapshot ↔
    (root.intents key = snapshot.intent.map intentKind.text ∧ ∀ m ∈ snapshot.intent, RecordSound sha256 intentKind m) ∧
    (root.applied key = snapshot.applied.map appliedKind.text ∧
      ∀ m ∈ snapshot.applied, RecordSound sha256 appliedKind m) ∧
    (root.receipts key = snapshot.receipt.map receiptKind.text ∧
      ∀ m ∈ snapshot.receipt, RecordSound sha256 receiptKind m) ∧
    PathSafe key snapshot ∧ validateRelations snapshot = .ok () := by
  unfold load
  simp only [bind_ok_iff, require_ok_iff, loadRecord_ok_iff, Except.ok.injEq]
  constructor
  · rintro ⟨intent, hintent, applied, happlied, receipt, hreceipt, _, hpath, _, hrelations, rfl⟩
    exact ⟨hintent, happlied, hreceipt, hpath, hrelations⟩
  · rintro ⟨hintent, happlied, hreceipt, hpath, hrelations⟩
    exact ⟨_, hintent, _, happlied, _, hreceipt, (), hpath, (), hrelations, rfl⟩

theorem validateRelations_ok_iff : validateRelations snapshot = .ok () ↔
    (snapshot.intent = none → snapshot.applied = none) ∧ (snapshot.applied = none → snapshot.receipt = none) ∧
    ∀ intent ∈ snapshot.intent, IntentValid intent ∧ ∀ applied ∈ snapshot.applied,
      applied.intentSha256 = intent.intentSha256 ∧ AppliedFits intent applied ∧
      ∀ receipt ∈ snapshot.receipt, ReceiptMirrors intent applied receipt ∧
        receipt.outcome = outcomeOf applied.applicationKind ∧
        expectedCode intent applied.applicationKind = some receipt.outcomeCode := by
  obtain ⟨intent, applied, receipt⟩ := snapshot
  unfold validateRelations validateIntent
  cases intent with
  | none =>
    cases applied with
    | none => simp [bind_ok_iff]
    | some a => simp [bind_ok_iff]
  | some i =>
    cases applied with
    | none => simp [bind_ok_iff, and_comm]
    | some a =>
      cases receipt with
      | none => simp [bind_ok_iff]
      | some r => simp [bind_ok_iff]

theorem encode_intent_without (i : CommandIntent) (digest : Sha256Text) :
    (Documents.intent.encode { i with intentSha256 := digest }).without "intent_sha256" =
      (Documents.intent.encode i).without "intent_sha256" := by
  have hencode : ∀ j : CommandIntent, Documents.intent.encode j = .obj (Documents.intentFields.encode
      (j.acceptedAt, j.actor, j.commandId, j.commandType, j.correlationId, j.desiredFileSha256, j.desiredState,
      j.expectedStateSha256, j.idempotencyKeySha256, j.intentSha256, j.priorStateSha256, j.reasonSha256,
      j.requestSha256, j.safetyEvidenceSha256, (), ())) := fun _ => rfl
  rw [hencode, hencode]
  simp [Json.without, Documents.intentFields, Fields.cons, Fields.nil]

theorem encode_applied_without (a : CommandApplied) (digest : Sha256Text) :
    (Documents.applied.encode { a with appliedSha256 := digest }).without "applied_sha256" =
      (Documents.applied.encode a).without "applied_sha256" := by
  have hencode : ∀ b : CommandApplied, Documents.applied.encode b = .obj (Documents.appliedFields.encode
      (b.applicationKind, b.appliedAt, b.appliedSha256, b.intentSha256, b.resultingStateSha256, (),
      b.tombstoneSha256, ())) := fun _ => rfl
  rw [hencode, hencode]
  simp [Json.without, Documents.appliedFields, Fields.cons, Fields.nil]

theorem encode_receipt_without (r : CommandReceipt) (digest : Sha256Text) :
    (Documents.receipt.encode { r with receiptSha256 := digest }).without "receipt_sha256" =
      (Documents.receipt.encode r).without "receipt_sha256" := by
  have hencode : ∀ r : CommandReceipt, Documents.receipt.encode r = .obj (Documents.receiptFields.encode
      (r.acceptedAt, r.actor, r.appliedAt, r.appliedSha256, r.commandId, r.commandType, r.completedAt,
      r.correlationId, r.desiredState, r.expectedStateSha256, r.idempotencyKeySha256, r.intentSha256, r.outcome,
      r.outcomeCode, r.priorStateSha256, r.reasonSha256, r.receiptSha256, r.requestSha256, r.resultingStateSha256,
      r.safetyEvidenceSha256, (), ())) := fun _ => rfl
  rw [hencode, hencode]
  simp [Json.without, Documents.receiptFields, Fields.cons, Fields.nil]

theorem digestValid_makeReceipt (call : ExecuteCall) (intent : CommandIntent) (applied : CommandApplied) :
    DigestValid sha256 receiptKind (makeReceipt sha256 call intent applied) :=
  congrArg (digestJson sha256) (encode_receipt_without _ _).symm

theorem digestValid_makeIntent (call : ExecuteCall) (plan : OperatorMutationPlan) :
    DigestValid sha256 intentKind (makeIntent sha256 call plan) :=
  congrArg (digestJson sha256) (encode_intent_without _ _).symm

variable {intent : CommandIntent} {applied : CommandApplied}

theorem makeApplied_ok {call : ExecuteCall} {resulting : Sha256Text}
    {kind : ApplicationKind} {tombstone : Option Sha256Text}
    (h : makeApplied sha256 call intent resulting kind tombstone = .ok applied) :
    applied.intentSha256 = intent.intentSha256 ∧ applied.applicationKind = kind ∧ applied.tombstoneSha256 = tombstone ∧
      applied.appliedAt = call.appliedAt ∧ (intent.acceptedAt : ℤ) ≤ call.appliedAt ∧
      DigestValid sha256 appliedKind applied := by
  unfold makeApplied at h
  simp only [bind_ok_iff, require_ok_iff, Except.ok.injEq] at h
  obtain ⟨_, hclock, rfl⟩ := h
  exact ⟨rfl, rfl, rfl, rfl, hclock, congrArg (digestJson sha256) (encode_applied_without _ _).symm⟩

theorem utf8ByteSize_text_le (kind : RecordKind α) (model : α) :
    (kind.text model).utf8ByteSize ≤ kind.codec.bound + 1 := by
  unfold RecordKind.text Codec.text
  rw [String.utf8ByteSize_append, Json.utf8ByteSize_of_graphic (Json.graphic_dumps _ (kind.codec.printable model))]
  have hlength := kind.codec.length_le model
  have hnewline : "\n".utf8ByteSize = 1 := by decide
  omega

def noRecords : JournalSnapshot := ⟨none, none, none⟩

theorem load_other {operation : FileOperation} {other : Sha256Text} (hne : other ≠ key) :
    load sha256 (operation.apply key root) other = load sha256 root other := by
  unfold load
  cases operation with
  | createIntent text | createApplied text | createReceipt text =>
    simp [FileOperation.apply, Function.update_of_ne hne]
  | setMode => rfl
  | createKillSwitch raw => rfl
  | buryKillSwitch raw => rfl

theorem load_createIntent (h : load sha256 root key = .ok noRecords)
    (hsound : RecordSound sha256 intentKind intent) (hvalid : IntentValid intent)
    (hkey : intent.idempotencyKeySha256 = key) :
    load sha256 ((FileOperation.createIntent (intentKind.text intent)).apply key root) key =
      .ok ⟨some intent, none, none⟩ := by
  obtain ⟨_, happlied, hreceipt, _, _⟩ := load_ok_iff.1 h
  refine load_ok_iff.2 ⟨⟨?_, by simpa using hsound⟩, happlied, hreceipt, ?_, ?_⟩
  · simp [FileOperation.apply]
  · simp [PathSafe, hkey]
  · rw [validateRelations_ok_iff]
    simp [hvalid]

theorem load_createApplied
    (h : load sha256 root key = .ok ⟨some intent, none, none⟩) (hsound : RecordSound sha256 appliedKind applied)
    (hsame : applied.intentSha256 = intent.intentSha256) (hfits : AppliedFits intent applied) :
    load sha256 ((FileOperation.createApplied (appliedKind.text applied)).apply key root) key =
      .ok ⟨some intent, some applied, none⟩ := by
  obtain ⟨hintent, _, hreceipt, hpath, hrelations⟩ := load_ok_iff.1 h
  rw [validateRelations_ok_iff] at hrelations
  refine load_ok_iff.2 ⟨hintent, ⟨?_, by simpa using hsound⟩, hreceipt, hpath, ?_⟩
  · simp [FileOperation.apply]
  · rw [validateRelations_ok_iff]
    simp [hsame, hfits, (hrelations.2.2 intent rfl).1]

theorem load_createReceipt {receipt : CommandReceipt}
    (h : load sha256 root key = .ok ⟨some intent, some applied, none⟩) (hsound : RecordSound sha256 receiptKind receipt)
    (hmirrors : ReceiptMirrors intent applied receipt) (houtcome : receipt.outcome = outcomeOf applied.applicationKind)
    (hcode : expectedCode intent applied.applicationKind = some receipt.outcomeCode) :
    load sha256 ((FileOperation.createReceipt (receiptKind.text receipt)).apply key root) key =
      .ok ⟨some intent, some applied, some receipt⟩ := by
  obtain ⟨hintent, happlied, _, hpath, hrelations⟩ := load_ok_iff.1 h
  rw [validateRelations_ok_iff] at hrelations
  obtain ⟨hvalid, hfits⟩ := hrelations.2.2 intent rfl
  obtain ⟨hsame, hfits, _⟩ := hfits applied rfl
  refine load_ok_iff.2 ⟨hintent, happlied, ⟨?_, by simpa using hsound⟩, ?_, ?_⟩
  · simp [FileOperation.apply]
  · refine ⟨hpath.1, fun r hr => ?_⟩
    cases hr
    rw [hmirrors.2.1]
    exact hpath.1 intent rfl
  · rw [validateRelations_ok_iff]
    simp [hvalid, hsame, hfits, hmirrors, houtcome, hcode]

end TradingAgent.OperatorControl
