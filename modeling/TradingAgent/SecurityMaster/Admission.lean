import TradingAgent.SecurityMaster.RevisionAgreement

/-! The database accepts what the model accepts, apart from lineage. -/

namespace TradingAgent.SecurityMaster

open Outcome

namespace RevisionDocument

variable (r : RevisionDocument)

/-- The validators of the model without the ones that the checks of a row repeat. -/
structure ValidAlone : Prop where
  named : r.schemaVersion = some ()
  evidence_valid : ∀ e ∈ r.evidence.1, e.Valid
  interval : ∀ t ∈ r.effectiveTo, r.effectiveFrom < t
  sorted : r.EvidenceSorted
  known : r.KnowsEvidence
  payload_fits : r.PayloadFits
  retraction : r.operation = .retract → r.revisionOrdinal.1 ≠ 1
  action_open : r.operation = .assert → r.subjectKind = .corporateAction → r.effectiveTo = none

/-- The database accepts a null schema, and separate words that it takes for the beginning of harmless words. -/
def Slips : Prop :=
  r.schemaVersion = none ∨
    ∃ e ∈ r.evidence.1, e.reference.locator.SplitWord ∧ ¬ e.reference.locator.Refused

instance : Decidable r.Slips := inferInstanceAs (Decidable (_ ∨ _))

variable {r}

theorem accepted_iff (h : ¬ r.Slips) : r.Accepted ↔ r.ValidAlone := by
  rw [Slips, not_or] at h
  have hsensitive : ∀ e ∈ r.evidence.1, e.reference.locator.Sensitive ↔ e.reference.locator.Refused := by
    intro e he
    rw [LocatorDocument.sensitive_iff]
    refine or_iff_left_of_imp fun hsplit => ?_
    by_contra hrefused
    exact h.2 ⟨e, he, hsplit, hrefused⟩
  constructor
  · intro ha
    refine ⟨?_, fun e he => ?_, ha.interval, ha.sorted, ha.known, ha.payload_fits, ha.retraction, ha.action_open⟩
    · cases hv : r.schemaVersion with
      | none => exact absurd hv h.1
      | some u => rfl
    · obtain ⟨hrefused, htimes⟩ := ha.evidence e he
      exact ⟨fun hs => hrefused ((hsensitive e he).1 hs), htimes⟩
  · intro hv
    refine ⟨fun e he => ?_, hv.interval, hv.sorted, hv.known, hv.payload_fits, hv.retraction, hv.action_open⟩
    obtain ⟨hs, htimes⟩ := hv.evidence_valid e he
    exact ⟨fun hrefused => hs ((hsensitive e he).2 hrefused), htimes⟩

end RevisionDocument

namespace Validation

/-- The row passes the `CHECK` constraints of `security_master_revisions`, also on the interval of a corporate
action. -/
def Checked.RowChecks (c : Checked) : Prop :=
  (c.supersedesRevisionId = none ∧ c.revisionOrdinal = 1 ∧ c.operation = "ASSERT" ∨
      c.supersedesRevisionId ≠ none ∧ 1 < c.revisionOrdinal) ∧
    (c.subjectKind = "CORPORATE_ACTION" → c.effectiveTo = none)

theorem operation_value_eq_assert_iff {o : Operation} : o.value = "ASSERT" ↔ o = .assert := by
  cases o <;> decide

theorem kind_value_eq_action_iff {k : IdentityKind} : k.value = "CORPORATE_ACTION" ↔ k = .corporateAction := by
  cases k <;> decide

end Validation

open Validation

theorem RevisionDocument.valid_iff {r : RevisionDocument} : r.Valid ↔ r.ValidAlone ∧ (checkedOf r).RowChecks := by
  have hrange := r.revisionOrdinal.2.1
  have hnone : (checkedOf r).supersedesRevisionId = none ↔ r.supersedesRevisionId = none := Option.map_eq_none_iff
  have hassert : (checkedOf r).operation = "ASSERT" ↔ r.operation = .assert := operation_value_eq_assert_iff
  have haction : (checkedOf r).subjectKind = "CORPORATE_ACTION" ↔ r.subjectKind = .corporateAction :=
    kind_value_eq_action_iff
  rw [Checked.RowChecks, haction, hassert, ne_eq, hnone]
  show r.Valid ↔ r.ValidAlone ∧ (r.supersedesRevisionId = none ∧ r.revisionOrdinal.1 = 1 ∧ r.operation = .assert ∨
    ¬ r.supersedesRevisionId = none ∧ 1 < r.revisionOrdinal.1) ∧
      (r.subjectKind = .corporateAction → r.effectiveTo = none)
  constructor
  · intro h
    refine ⟨⟨h.named, h.evidence_valid, h.interval, h.sorted, h.known, h.payload_fits, fun ho hone => ?_,
      fun _ => h.action_open⟩, ?_, h.action_open⟩
    · rw [(h.root hone).2] at ho
      cases ho
    · by_cases hone : r.revisionOrdinal.1 = 1
      · exact .inl ⟨(h.root hone).1, hone, (h.root hone).2⟩
      · exact .inr ⟨h.successor hone, by omega⟩
  · rintro ⟨h, hlineage, hopen⟩
    refine ⟨h.named, h.evidence_valid, h.interval, fun hone => ?_, fun hne => ?_, h.sorted, h.known, h.payload_fits,
      hopen⟩
    · rcases hlineage with ⟨hnone, -, ho⟩ | ⟨-, hlt⟩
      · exact ⟨hnone, ho⟩
      · omega
    · rcases hlineage with ⟨-, hone, -⟩ | ⟨hsome, -⟩
      · exact absurd hone hne
      · exact hsome

theorem text_injective {r s : RevisionDocument} (h : Documents.revision.text r = Documents.revision.text s) : r = s := by
  have hr := (Documents.revision.parse_eq_some_iff (a := r)).2 rfl
  rw [h, Documents.revision.parse_eq_some_iff.2 rfl] at hr
  exact (Option.some.inj hr).symm

/-- Apart from the two slips, the validation accepts the canonical texts of the documents that the model accepts. -/
theorem validate_agrees {text : String} (h : ∀ r, text = Documents.revision.text r → ¬ r.Slips) :
    ((∃ c, validate text = .ok c) ↔ ∃ r, text = Documents.revision.text r ∧ r.ValidAlone) ∧
      ((∃ c, validate text = .ok c ∧ c.RowChecks) ↔
        ∃ r : SecurityMasterRevision, text = Documents.revision.text r.1) := by
  simp only [validate_ok_iff]
  constructor
  · constructor
    · rintro ⟨_, r, rfl, haccepted, -⟩
      exact ⟨r, rfl, (RevisionDocument.accepted_iff (h r rfl)).1 haccepted⟩
    · rintro ⟨r, rfl, hvalid⟩
      exact ⟨_, r, rfl, (RevisionDocument.accepted_iff (h r rfl)).2 hvalid, rfl⟩
  · constructor
    · rintro ⟨_, ⟨r, rfl, haccepted, rfl⟩, hrow⟩
      exact ⟨⟨r, RevisionDocument.valid_iff.2 ⟨(RevisionDocument.accepted_iff (h r rfl)).1 haccepted, hrow⟩⟩, rfl⟩
    · rintro ⟨⟨r, hvalid⟩, rfl⟩
      obtain ⟨halone, hrow⟩ := RevisionDocument.valid_iff.1 hvalid
      exact ⟨_, ⟨r, rfl, (RevisionDocument.accepted_iff (h r rfl)).2 halone, rfl⟩, hrow⟩

def sampleRevision : RevisionDocument where
  schemaVersion := some ()
  revisionId := ⟨"00000000-0000-4000-8000-000000000001", by decide +kernel⟩
  factId := ⟨"00000000-0000-4000-8000-000000000002", by decide +kernel⟩
  subjectId := ⟨"00000000-0000-4000-8000-000000000003", by decide +kernel⟩
  subjectKind := .issuer
  revisionOrdinal := ⟨1, by decide⟩
  operation := .assert
  effectiveFrom := ⟨0, representable_zero⟩
  effectiveTo := none
  knownAt := ⟨0, representable_zero⟩
  supersedesRevisionId := none
  evidence := ⟨[{
    reference := {
      evidenceId := ⟨"00000000-0000-4000-8000-000000000004", by decide +kernel⟩
      source := .filing
      locator := ⟨.https, ⟨"example", by decide +kernel⟩, ⟨[⟨"filings", by decide +kernel⟩], by decide⟩⟩
      observedAt := ⟨0, representable_zero⟩
      schemaVersion := ⟨"v1", by decide +kernel⟩ }
    fetchedAt := ⟨0, representable_zero⟩
    knownAt := ⟨0, representable_zero⟩
    contentSha256 := ⟨"0000000000000000000000000000000000000000000000000000000000000000", by decide +kernel⟩
    mediaType := .json
    sourceRevision := ⟨"r1", by decide +kernel⟩
    normalizationVersion := ⟨"n1", by decide +kernel⟩ }], by decide⟩
  payload := some (.issuer ⟨⟨"00000000-0000-4000-8000-000000000003", by decide +kernel⟩,
    ⟨"Issuer", by decide +kernel⟩, ⟨"US", by decide +kernel⟩⟩)

theorem sampleRevision_not_slips : ¬ sampleRevision.Slips := by decide +kernel

theorem sampleRevision_accepted (ordinal : {n : ℕ // 1 ≤ n ∧ n ≤ 4096}) :
    RevisionDocument.Accepted { sampleRevision with revisionOrdinal := ordinal } := by
  have hevidence : ∀ e ∈ sampleRevision.evidence.1, ¬ e.reference.locator.Refused ∧
      e.reference.observedAt ≤ e.fetchedAt ∧ e.fetchedAt ≤ e.knownAt := by decide +kernel
  have hsorted : sampleRevision.EvidenceSorted := by decide +kernel
  have hknown : sampleRevision.KnowsEvidence := by decide +kernel
  have hfits : sampleRevision.PayloadFits := ⟨rfl, rfl⟩
  exact ⟨hevidence, fun _ h => absurd h (by simp [sampleRevision]), hsorted, hknown, hfits,
    fun h => Operation.noConfusion h, fun _ _ => rfl⟩

theorem validate_agrees_sample : ((∃ c, validate (Documents.revision.text sampleRevision) = .ok c) ↔
        ∃ r, Documents.revision.text sampleRevision = Documents.revision.text r ∧ r.ValidAlone) ∧
      ((∃ c, validate (Documents.revision.text sampleRevision) = .ok c ∧ c.RowChecks) ↔
        ∃ r : SecurityMasterRevision, Documents.revision.text sampleRevision = Documents.revision.text r.1) :=
  validate_agrees fun _ hr => text_injective hr ▸ sampleRevision_not_slips

/-- A second revision without a predecessor is accepted by the validation, and by no model. -/
theorem orphan_accepted : ¬ ∀ text, (∃ c, validate text = .ok c) ↔
    ∃ r : SecurityMasterRevision, text = Documents.revision.text r.1 := by
  intro h
  have haccepted := sampleRevision_accepted ⟨2, by decide⟩
  obtain ⟨⟨r, hvalid⟩, hr⟩ := (h _).1 ⟨_, validate_ok_iff.2 ⟨_, rfl, haccepted, rfl⟩⟩
  obtain rfl := text_injective hr
  exact hvalid.successor (by decide) rfl

end TradingAgent.SecurityMaster
