import TradingAgent.SecurityMaster.EvidenceAgreement

/-! Revision documents as the database and as the model checks them. -/

namespace TradingAgent.SecurityMaster

open Outcome ThreeValued Json DigitText
open JobPlane (Raised)
open AlphaCampaign (isUuid)
open CanonicalJson (jsonbOf canonicalDomainJsonString canonicalDomainJson_ok_iff jsonbOf_ok_iff)
open Jsonb (get getText typeOf)
open Nautilus (instantText)

structure RevisionDocument.Accepted (r : RevisionDocument) : Prop where
  evidence : ∀ e ∈ r.evidence.1, ¬ e.reference.locator.Refused ∧ e.reference.observedAt ≤ e.fetchedAt ∧
    e.fetchedAt ≤ e.knownAt
  interval : ∀ t ∈ r.effectiveTo, r.effectiveFrom < t
  sorted : r.EvidenceSorted
  known : r.KnowsEvidence
  payload_fits : r.PayloadFits
  retraction : r.operation = .retract → r.revisionOrdinal.1 ≠ 1
  action_open : r.operation = .assert → r.subjectKind = .corporateAction → r.effectiveTo = none

namespace Validation

variable {members : List (String × Json)}

/-! ## Payloads -/

def payloadKeys (payload : Option Payload) : PayloadKeys := (payload.map keysOf).getD ⟨none, none, none, none⟩

/-- The member `payload`. -/
def payloadJson (payload : Option Payload) : Json := (payload.map Documents.payload.encode).getD .null

theorem checkPayload_ok_iff {subjectId : String} {k : IdentityKind} {o : Operation} {ordinal : ℕ}
    {effectiveTo : Option Instant} {payload : Json} {keys : PayloadKeys} (h : payload.Storable) :
    checkPayload subjectId k.value o.value ordinal effectiveTo (some payload) = .ok keys ↔
      (o = .retract → ordinal ≠ 1) ∧ (o = .assert → k = .corporateAction → effectiveTo = none) ∧
        ∃ p : Option Payload, payload = payloadJson p ∧ keys = payloadKeys p ∧ match o, p with
          | .retract, none => True
          | .assert, some p => p.kind = k ∧ p.identity.1 = subjectId
          | _, _ => False := by
  unfold checkPayload
  cases o with
  | retract =>
    rw [if_pos (show Operation.retract.value = "RETRACT" from rfl), bind_ok_iff]
    simp only [require_ok_iff, not_holds_or_iff, not_holds_unlike_iff, kind_eq_null_iff, holds_some_iff,
      decide_eq_true_eq]
    constructor
    · rintro ⟨_, ⟨rfl, hordinal⟩, hresult⟩
      exact ⟨fun _ => hordinal, fun ho => (Operation.noConfusion ho), none, rfl, (Except.ok.inj hresult).symm, trivial⟩
    · rintro ⟨hordinal, -, p, rfl, rfl, hp⟩
      cases p with
      | none => exact ⟨(), ⟨rfl, hordinal trivial⟩, rfl⟩
      | some p => exact hp.elim
  | assert =>
    rw [if_neg (by decide), bind_ok_iff]
    simp only [require_ok_iff, not_holds_unlike_iff, kind_eq_object_iff, bind_ok_iff]
    constructor
    · rintro ⟨_, ⟨members, rfl⟩, keys', hkeys, _, hidentity, hresult⟩
      obtain ⟨hopen, p, hkind, hp, rfl⟩ := (checkKind_ok_iff h.1).1 hkeys
      refine ⟨fun ho => Operation.noConfusion ho, fun _ => hopen, some p, hp, (Except.ok.inj hresult).symm, hkind, ?_⟩
      exact Option.some.inj hidentity
    · rintro ⟨-, hopen, p, rfl, rfl, hp⟩
      cases p with
      | none => exact hp.elim
      | some p =>
        obtain ⟨members, hmembers, -⟩ := Documents.payload_shaped p
        have hsorted : (obj members).Storable := hmembers ▸ Documents.payload.storable p
        refine ⟨(), ⟨members, hmembers⟩, keysOf p, ?_, (), congrArg some hp.2, rfl⟩
        show checkKind k.value effectiveTo (some (Documents.payload.encode p)) = _
        rw [hmembers]
        exact (checkKind_ok_iff hsorted.1).2 ⟨hopen trivial, p, hp.1, hmembers.symm, rfl⟩

/-! ## Scalars -/

variable {v : Json}

theorem exists_spelled (h : holds (allOf [Jsonb.isKind .string (some v), test p (some v >>= Jsonb.text)])) :
    ∃ s, v = str s ∧ p s = true := by
  rw [holds_allOf_iff] at h
  simp only [List.forall_mem_cons] at h
  obtain ⟨hkind, hmatch, -⟩ := h
  obtain ⟨_, hv, hkind⟩ := Jsonb.holds_isKind_iff.1 hkind
  obtain rfl := Option.some.inj hv
  obtain ⟨s, rfl⟩ := kind_eq_string_iff.1 hkind
  obtain ⟨_, hs, hmatch⟩ := holds_test_iff.1 hmatch
  obtain rfl := Option.some.inj hs
  exact ⟨s, rfl, hmatch⟩

theorem readEffectiveTo_ok_iff (h : member? "effective_to" members = some v) {t : Option Instant} :
    readEffectiveTo (some (obj members)) = .ok t ↔ v = t.elim .null fun t => str (instantText t) := by
  unfold readEffectiveTo textOf getText
  rw [get_obj, h]
  constructor
  · intro hok
    simp only at hok
    split_ifs at hok with hnull hstring
    · obtain rfl := Except.ok.inj hok
      obtain ⟨_, hv, hkind⟩ := Jsonb.holds_isKind_iff.1 hnull
      rw [Option.some.inj hv]
      exact kind_eq_null_iff.1 hkind
    · obtain ⟨s, rfl, hmatch⟩ := exists_spelled hstring
      cases hcast : castTimestamp s with
      | error e =>
        rw [show (((some (str s)).bind Jsonb.text).getD "") = s from rfl, hcast] at hok
        cases hok
      | ok u =>
        rw [show (((some (str s)).bind Jsonb.text).getD "") = s from rfl, hcast] at hok
        obtain rfl := Except.ok.inj hok
        rw [eq_instantText_of_cast hmatch hcast]
        rfl
  · rintro rfl
    cases t with
    | none => rfl
    | some t =>
      have hmatch := isTimestamp_instantText t
      have hcast := castTimestamp_instantText t
      simp [Jsonb.isKind, typeOf, kind, allOf, ThreeValued.and, test, hmatch, hcast, holds, Except.map]

theorem readPredecessor_ok_iff (h : member? "supersedes_revision_id" members = some v) {u : Option String} :
    readPredecessor (some (obj members)) = .ok u ↔
      ∃ id : Option UuidText, v = id.elim .null (fun id => str id.1) ∧ u = id.map Subtype.val := by
  unfold readPredecessor getText
  rw [get_obj, h]
  constructor
  · intro hok
    simp only at hok
    split_ifs at hok with hnull hstring
    · obtain rfl := Except.ok.inj hok
      obtain ⟨_, hv, hkind⟩ := Jsonb.holds_isKind_iff.1 hnull
      exact ⟨none, by rw [Option.some.inj hv]; exact kind_eq_null_iff.1 hkind, rfl⟩
    · obtain ⟨s, rfl, hmatch⟩ := exists_spelled hstring
      exact ⟨some ⟨s, hmatch⟩, rfl, (Except.ok.inj hok).symm⟩
  · rintro ⟨id, rfl, rfl⟩
    cases id with
    | none => rfl
    | some id =>
      simp [Jsonb.isKind, typeOf, kind, allOf, ThreeValued.and, test, id.2, holds]

theorem ne_of_isDigit {c d : Char} (hc : c.isDigit = true) (hd : d.isDigit = false) : c ≠ d := by
  rintro rfl
  rw [hc] at hd
  cases hd

theorem schema_cases (hwhole : v.integral = true)
    (h : ¬ holds (ne (Jsonb.text v) (some "security-master-revision-v1"))) :
    ∃ schema : Option Unit, v = schema.elim .null fun _ => str "security-master-revision-v1" := by
  have htext : ∀ cs : List Char, cs.head? ≠ some 's' →
      some (String.ofList cs) ≠ some "security-master-revision-v1" := by
    intro cs hcs heq
    rw [Option.some.injEq, ← String.toList_inj, String.toList_ofList] at heq
    rw [heq] at hcs
    exact hcs rfl
  have hne : ∀ {s : String}, Jsonb.text v = some s → some s = some "security-master-revision-v1" := by
    intro s hs
    by_contra hne
    exact h (holds_ne_iff.2 ⟨s, _, hs, rfl, fun heq => hne (congrArg some heq)⟩)
  cases v with
  | null => exact ⟨none, rfl⟩
  | str s => exact ⟨some (), by rw [Option.some.inj (hne rfl)]; rfl⟩
  | bool b => cases b <;> exact absurd (hne rfl) (htext _ (by simp [Jsonb.display]))
  | arr items => exact absurd (hne rfl) (htext _ (by simp [Jsonb.display]))
  | obj members => exact absurd (hne rfl) (htext _ (by simp [Jsonb.display]))
  | num n scale =>
    obtain rfl : scale = 0 := by simpa [integral] using hwhole
    refine absurd (hne rfl) (htext _ ?_)
    rw [Jsonb.display, numberText_zero]
    obtain ⟨c, cs, hcons, hc⟩ := naturalText_eq_cons n.natAbs
    split_ifs
    · simp
    · rw [hcons]
      simpa using ne_of_isDigit hc (by decide)

theorem ordinal_of_text (hwhole : v.integral = true) (hkind : v.kind = .number)
    (h : ¬ holds (unmatched isOrdinal (Jsonb.text v))) :
    v = num (readDigits ((Jsonb.text v).getD "").toList) 0 := by
  obtain ⟨n, scale, rfl⟩ := kind_eq_number_iff.1 hkind
  obtain rfl : scale = 0 := by simpa [integral] using hwhole
  have htext : Jsonb.text (num n 0) = some (String.ofList (numberText n 0)) := rfl
  have hmatch : isOrdinal (String.ofList (numberText n 0)) = true := by
    cases hcase : isOrdinal (String.ofList (numberText n 0)) with
    | true => rfl
    | false => exact absurd (holds_not_test_iff.2 ⟨_, htext, hcase⟩) h
  rw [htext, Option.getD_some, String.toList_ofList, numberText_zero]
  split_ifs with hsign
  · rw [isOrdinal, JobPlane.formatted, String.toList_ofList, numberText_zero, if_pos hsign] at hmatch
    cases hmatch
  · rw [List.nil_append, readDigits_naturalText, Int.natAbs_of_nonneg (by omega)]

theorem isOrdinal_naturalText {n : ℕ} (h : 1 ≤ n ∧ n ≤ 4096) : isOrdinal (String.ofList (naturalText n)) = true := by
  obtain ⟨c, cs, hcons, hc⟩ := naturalText_eq_cons n
  have hlength := length_naturalText_le (show 0 < 4 by decide) (show n < 10 ^ 4 by omega)
  have hdigits : ∀ d ∈ cs, d.isDigit = true := by
    intro d hd
    exact isDigit_of_mem_naturalText (hcons ▸ List.mem_cons_of_mem c hd)
  have hzero : c ≠ '0' := by
    rintro rfl
    have hone := head_naturalText (n := n) (by rw [hcons]; rfl)
    rw [hcons, List.length_cons] at hone
    obtain rfl : cs = [] := List.length_eq_zero_iff.1 (by omega)
    have hread := readDigits_naturalText n
    rw [hcons] at hread
    have : readDigits ['0'] = 0 := by decide
    omega
  rw [hcons, List.length_cons] at hlength
  rw [isOrdinal, JobPlane.formatted, String.toList_ofList, hcons]
  have hle : cs.length ≤ 3 := by omega
  have hne : (c != '0') = true := bne_iff_ne.2 hzero
  simp only [hc, hne, List.all_eq_true.2 hdigits, hle, Nat.zero_le, decide_true, Bool.and_self]

/-! ## The shape of a revision -/

variable {key : String}

theorem exists_text_of_member (hkey : key ∈ members.map Prod.fst)
    (hkind : ¬ holds (unlike .string (get (some (obj members)) key))) : ∃ s, member? key members = some (str s) := by
  obtain ⟨v, hv⟩ := member?_eq_some_of_mem_keys hkey
  obtain ⟨s, rfl⟩ := kind_eq_string_iff.1 ((not_holds_unlike_member_iff hv).1 hkind)
  exact ⟨s, hv⟩

variable {s : String}

theorem not_holds_unmatched_iff {pattern : String → Bool} (h : member? key members = some (str s)) :
    ¬ holds (unmatched pattern (getText (some (obj members)) key)) ↔ pattern s = true := by
  rw [unmatched, holds_not_test_iff, getText, get_obj, h]
  simp

theorem textOf_of_member (h : member? key members = some (str s)) : textOf (some (obj members)) key = s := by
  rw [textOf, getText, get_obj, h]
  rfl

structure Shape (members : List (String × Json)) (schema : Option Unit) (revisionId factId subjectId : UuidText)
    (subjectKind operation effectiveFrom knownAt : String) (ordinal : ℕ) (evidence : List Json) : Prop where
  keys : members.map Prod.fst = Documents.revisionFields.keys
  schema_version : member? "schema_version" members =
    some (schema.elim .null fun _ => str "security-master-revision-v1")
  revision_id : member? "revision_id" members = some (str revisionId.1)
  fact_id : member? "fact_id" members = some (str factId.1)
  subject_id : member? "subject_id" members = some (str subjectId.1)
  subject_kind : member? "subject_kind" members = some (str subjectKind)
  operation_member : member? "operation" members = some (str operation)
  effective_from : member? "effective_from" members = some (str effectiveFrom)
  known_at : member? "known_at" members = some (str knownAt)
  revision_ordinal : member? "revision_ordinal" members = some (num ordinal 0)
  evidence_member : member? "evidence" members = some (arr evidence)
  isOrdinal_text : isOrdinal (String.ofList (naturalText ordinal)) = true
  isTimestamp_from : isTimestamp effectiveFrom = true
  isTimestamp_known : isTimestamp knownAt = true

theorem integral_member (h : integralMembers members = true)
    (hv : member? key members = some v) : v.integral = true := by
  induction members with
  | nil => cases hv
  | cons m rest ih =>
    obtain ⟨k, w⟩ := m
    rw [integralMembers, Bool.and_eq_true] at h
    rw [member?] at hv
    split_ifs at hv
    · rw [← Option.some.inj hv]
      exact h.1
    · exact ih h.2 hv

theorem text_ordinal (n : ℕ) : Jsonb.text (num n 0) = some (String.ofList (naturalText n)) := by
  show some (String.ofList (numberText n 0)) = _
  rw [numberText_zero, if_neg (by omega)]
  rfl

theorem checkShape_ok_iff (h : (members.map Prod.fst).Pairwise (· < ·)) (hwhole : integralMembers members = true)
    {u : Unit} : checkShape (some (obj members)) = .ok u ↔
      ∃ schema revisionId factId subjectId subjectKind operation effectiveFrom knownAt ordinal evidence,
        Shape members schema revisionId factId subjectId subjectKind operation effectiveFrom knownAt ordinal
          evidence := by
  unfold checkShape
  rw [bind_ok_iff]
  simp only [require_ok_iff, not_holds_anyOf_iff]
  constructor
  · rintro ⟨_, hcheck, hspelled⟩
    obtain ⟨hkeys, -, hothers⟩ :=
      (checkObject_ok_iff Documents.revisionFields.keys h (by decide) (by decide) (by decide)).1 hcheck
    simp only [List.forall_mem_cons] at hothers hspelled
    obtain ⟨hschema, hrevision, hfact, hsubject, hkind, hordinal, hoperation, hfrom, hknown, hevidence, -⟩ := hothers
    obtain ⟨hrevision', hfact', hsubject', hordinal', hfrom', hknown', -⟩ := hspelled
    have hmem : ∀ key ∈ Documents.revisionFields.keys, key ∈ members.map Prod.fst := fun key hkey => hkeys ▸ hkey
    obtain ⟨r, hr⟩ := exists_text_of_member (hmem "revision_id" (by decide)) hrevision
    obtain ⟨f, hf⟩ := exists_text_of_member (hmem "fact_id" (by decide)) hfact
    obtain ⟨s, hs⟩ := exists_text_of_member (hmem "subject_id" (by decide)) hsubject
    obtain ⟨k, hk⟩ := exists_text_of_member (hmem "subject_kind" (by decide)) hkind
    obtain ⟨o, ho⟩ := exists_text_of_member (hmem "operation" (by decide)) hoperation
    obtain ⟨ef, hef⟩ := exists_text_of_member (hmem "effective_from" (by decide)) hfrom
    obtain ⟨ka, hka⟩ := exists_text_of_member (hmem "known_at" (by decide)) hknown
    obtain ⟨v, hv⟩ := member?_eq_some_of_mem_keys (hmem "schema_version" (by decide))
    obtain ⟨n, hn⟩ := member?_eq_some_of_mem_keys (hmem "revision_ordinal" (by decide))
    obtain ⟨e, he⟩ := member?_eq_some_of_mem_keys (hmem "evidence" (by decide))
    obtain ⟨items, rfl⟩ := kind_eq_array_iff.1 ((not_holds_unlike_member_iff he).1 hevidence)
    have hschema : ¬ holds (ne (Jsonb.text v) (some "security-master-revision-v1")) := by
      rwa [getText, get_obj, hv] at hschema
    obtain ⟨schema, rfl⟩ := schema_cases (integral_member hwhole hv) hschema
    have hordinal' : ¬ holds (unmatched isOrdinal (Jsonb.text n)) := by
      rwa [getText, get_obj, hn] at hordinal'
    have hn' := ordinal_of_text (integral_member hwhole hn) ((not_holds_unlike_member_iff hn).1 hordinal) hordinal'
    generalize readDigits ((Jsonb.text n).getD "").toList = ordinal at hn'
    subst hn'
    refine ⟨schema, ⟨r, (not_holds_unmatched_iff hr).1 hrevision'⟩, ⟨f, (not_holds_unmatched_iff hf).1 hfact'⟩,
      ⟨s, (not_holds_unmatched_iff hs).1 hsubject'⟩, k, o, ef, ka, ordinal, items,
      ⟨hkeys, hv, hr, hf, hs, hk, ho, hef, hka, hn, he, ?_, (not_holds_unmatched_iff hef).1 hfrom',
        (not_holds_unmatched_iff hka).1 hknown'⟩⟩
    rw [text_ordinal, unmatched, holds_not_test_iff] at hordinal'
    simpa using hordinal'
  · rintro ⟨schema, r, f, s, k, o, ef, ka, ordinal, items, hshape⟩
    refine ⟨(), (checkObject_ok_iff Documents.revisionFields.keys h (by decide) (by decide) (by decide)).2
      ⟨hshape.keys, List.forall_mem_nil _, ?_⟩, ?_⟩
    · simp only [List.forall_mem_cons]
      refine ⟨?_, (not_holds_unlike_member_iff hshape.revision_id).2 rfl,
        (not_holds_unlike_member_iff hshape.fact_id).2 rfl, (not_holds_unlike_member_iff hshape.subject_id).2 rfl,
        (not_holds_unlike_member_iff hshape.subject_kind).2 rfl,
        (not_holds_unlike_member_iff hshape.revision_ordinal).2 rfl,
        (not_holds_unlike_member_iff hshape.operation_member).2 rfl,
        (not_holds_unlike_member_iff hshape.effective_from).2 rfl,
        (not_holds_unlike_member_iff hshape.known_at).2 rfl,
        (not_holds_unlike_member_iff hshape.evidence_member).2 rfl, List.forall_mem_nil _⟩
      rw [getText, get_obj, hshape.schema_version]
      cases schema with
      | none => exact not_holds_none
      | some _ =>
        rw [holds_ne_iff]
        rintro ⟨a, b, ha, hb, hne⟩
        exact hne ((Option.some.inj ha).symm.trans (Option.some.inj hb))
    · simp only [List.forall_mem_cons]
      refine ⟨(not_holds_unmatched_iff hshape.revision_id).2 r.2, (not_holds_unmatched_iff hshape.fact_id).2 f.2,
        (not_holds_unmatched_iff hshape.subject_id).2 s.2, ?_,
        (not_holds_unmatched_iff hshape.effective_from).2 hshape.isTimestamp_from,
        (not_holds_unmatched_iff hshape.known_at).2 hshape.isTimestamp_known, List.forall_mem_nil _⟩
      rw [getText, get_obj, hshape.revision_ordinal, Option.bind_some, text_ordinal, unmatched, holds_not_test_iff]
      simp [hshape.isOrdinal_text]

/-! ## Revisions -/

def checkedOf (r : RevisionDocument) : Checked where
  payload := some (payloadJson r.payload)
  revisionId := r.revisionId.1
  factId := r.factId.1
  subjectId := r.subjectId.1
  subjectKind := r.subjectKind.value
  revisionOrdinal := r.revisionOrdinal.1
  operation := r.operation.value
  effectiveFrom := r.effectiveFrom
  effectiveTo := r.effectiveTo
  knownAt := r.knownAt
  supersedesRevisionId := r.supersedesRevisionId.map Subtype.val
  lookupProvider := (payloadKeys r.payload).lookupProvider
  lookupSymbol := (payloadKeys r.payload).lookupSymbol
  relatedSecurityId := (payloadKeys r.payload).relatedSecurityId

def revisionMembers (r : RevisionDocument) : List (String × Json) :=
  [("effective_from", str (instantText r.effectiveFrom)),
    ("effective_to", r.effectiveTo.elim .null fun t => str (instantText t)),
    ("evidence", arr (r.evidence.1.map Documents.evidence.encode)), ("fact_id", str r.factId.1),
    ("known_at", str (instantText r.knownAt)), ("operation", str r.operation.value),
    ("payload", payloadJson r.payload), ("revision_id", str r.revisionId.1),
    ("revision_ordinal", num r.revisionOrdinal.1 0),
    ("schema_version", r.schemaVersion.elim .null fun _ => str "security-master-revision-v1"),
    ("subject_id", str r.subjectId.1), ("subject_kind", str r.subjectKind.value),
    ("supersedes_revision_id", r.supersedesRevisionId.elim .null fun id => str id.1)]

theorem encode_revision (r : RevisionDocument) : Documents.revision.encode r = obj (revisionMembers r) := by
  obtain ⟨schema, _, _, _, _, _, _, _, effectiveTo, _, predecessor, _, payload⟩ := r
  cases schema <;> cases effectiveTo <;> cases predecessor <;> cases payload <;> rfl

theorem storable_item {items : List Json} (h : (obj members).Storable)
    (hitems : member? key members = some (arr items)) : ∀ x ∈ items, x.Storable :=
  storableItems_iff.1 (h.field hitems)

variable {c : Checked}

theorem exists_of_checkRevision (h : (obj members).Storable) (hwhole : (obj members).integral = true)
    (hok : checkRevision (obj members) = .ok c) :
    ∃ r, obj members = Documents.revision.encode r ∧ r.Accepted ∧ c = checkedOf r := by
  unfold checkRevision at hok
  simp only [bind_ok_iff, require_ok_iff] at hok
  obtain ⟨_, hshape, effectiveFrom, hfrom, knownAt, hknown, effectiveTo, hto, predecessor, hpredecessor, _,
    ⟨hkind, hoperation, hordinal, hinterval⟩, _, hcount, seen, hseen, _, hmax, keys, hpayload, hresult⟩ := hok
  obtain ⟨schema, r, f, s, k, o, ef, ka, ordinal, items, hshape⟩ := (checkShape_ok_iff h.1 hwhole).1 hshape
  have htexts : textOf (some (obj members)) "subject_kind" = k ∧ textOf (some (obj members)) "operation" = o ∧
      textOf (some (obj members)) "subject_id" = s.1 :=
    ⟨textOf_of_member hshape.subject_kind, textOf_of_member hshape.operation_member, textOf_of_member hshape.subject_id⟩
  have hnumber : readDigits (textOf (some (obj members)) "revision_ordinal").toList = ordinal := by
    rw [textOf, getText, get_obj, hshape.revision_ordinal, Option.bind_some, text_ordinal, Option.getD_some,
      String.toList_ofList, readDigits_naturalText]
  have hitems : itemsOf (some (obj members)) "evidence" = items := by
    rw [itemsOf, get_obj, hshape.evidence_member]
    rfl
  rw [htexts.1, exists_identityKind_iff] at hkind
  rw [htexts.2.1, exists_operation_iff] at hoperation
  rw [hnumber] at hordinal
  rw [hitems] at hcount hseen
  obtain ⟨kind, rfl⟩ := hkind
  obtain ⟨operation, rfl⟩ := hoperation
  rw [htexts.1, htexts.2.1, htexts.2.2, hnumber] at hpayload hresult
  rw [textOf_of_member hshape.revision_id, textOf_of_member hshape.fact_id] at hresult
  obtain rfl := exists_instant_of_cast hshape.effective_from hshape.isTimestamp_from hfrom
  obtain rfl := exists_instant_of_cast hshape.known_at hshape.isTimestamp_known hknown
  obtain ⟨tv, htv⟩ := member?_eq_some_of_mem_keys
    (show "effective_to" ∈ members.map Prod.fst by rw [hshape.keys]; decide)
  obtain rfl := (readEffectiveTo_ok_iff htv).1 hto
  obtain ⟨sv, hsv⟩ := member?_eq_some_of_mem_keys
    (show "supersedes_revision_id" ∈ members.map Prod.fst by rw [hshape.keys]; decide)
  obtain ⟨id, rfl, rfl⟩ := (readPredecessor_ok_iff hsv).1 hpredecessor
  obtain ⟨pv, hpv⟩ := member?_eq_some_of_mem_keys (show "payload" ∈ members.map Prod.fst by rw [hshape.keys]; decide)
  rw [get_obj, hpv] at hpayload hresult
  obtain ⟨hretract, hopen, p, rfl, rfl, hfits⟩ := (checkPayload_ok_iff (h.field hpv)).1 hpayload
  obtain ⟨es, rfl, hadmits, -, hsorted, rfl⟩ :=
    (foldlM_checkEvidence_ok_iff (storable_item h hshape.evidence_member)).1 hseen
  rw [List.length_map] at hcount
  obtain ⟨⟨-, hlatest⟩, hreached⟩ := (maxEvidenceKnownAt_foldl es ⟨none, none⟩).1 hmax.symm
  have hmembers := eq_of_member? [("effective_from", str (instantText effectiveFrom)),
    ("effective_to", effectiveTo.elim .null fun t => str (instantText t)),
    ("evidence", arr (es.map Documents.evidence.encode)), ("fact_id", str f.1),
    ("known_at", str (instantText knownAt)), ("operation", str operation.value), ("payload", payloadJson p),
    ("revision_id", str r.1), ("revision_ordinal", num ordinal 0),
    ("schema_version", schema.elim .null fun _ => str "security-master-revision-v1"), ("subject_id", str s.1),
    ("subject_kind", str kind.value), ("supersedes_revision_id", id.elim .null fun id => str id.1)]
    hshape.keys rfl (by decide) (by
      simp only [List.forall_mem_cons]
      exact ⟨hshape.effective_from, htv, hshape.evidence_member, hshape.fact_id, hshape.known_at,
        hshape.operation_member, hpv, hshape.revision_id, hshape.revision_ordinal, hshape.schema_version,
        hshape.subject_id, hshape.subject_kind, hsv, List.forall_mem_nil _⟩)
  refine ⟨⟨schema, r, f, s, kind, ⟨ordinal, hordinal⟩, operation, effectiveFrom, effectiveTo, knownAt, id,
    ⟨es, hcount⟩, p⟩, by rw [encode_revision, hmembers]; rfl, ?_, (Except.ok.inj hresult).symm⟩
  refine ⟨fun e he => ⟨(hadmits e he).not_refused, (hadmits e he).observed, (hadmits e he).fetched⟩, hinterval,
    hsorted, ⟨hlatest, hreached.resolve_left (by simp)⟩, ?_, hretract, hopen⟩
  unfold RevisionDocument.PayloadFits
  cases operation <;> cases p <;> first | exact hfits | exact ⟨hfits.1, Subtype.ext hfits.2⟩

theorem checkRevision_encode (r : RevisionDocument) (haccepted : r.Accepted) :
    checkRevision (Documents.revision.encode r) = .ok (checkedOf r) := by
  have h := Documents.revision.storable r
  have hwhole := Documents.revision.integral r
  rw [encode_revision] at h hwhole ⊢
  unfold checkRevision
  simp only [bind_ok_iff, require_ok_iff]
  have hshape : Shape (revisionMembers r) r.schemaVersion r.revisionId r.factId r.subjectId r.subjectKind.value
      r.operation.value
      (instantText r.effectiveFrom) (instantText r.knownAt) r.revisionOrdinal.1
      (r.evidence.1.map Documents.evidence.encode) :=
    ⟨rfl, rfl, rfl, rfl, rfl, rfl, rfl, rfl, rfl, rfl, rfl, isOrdinal_naturalText r.revisionOrdinal.2,
      isTimestamp_instantText _, isTimestamp_instantText _⟩
  have hnumber : readDigits (textOf (some (obj (revisionMembers r))) "revision_ordinal").toList = r.revisionOrdinal.1 := by
    rw [textOf, getText, get_obj, hshape.revision_ordinal, Option.bind_some, text_ordinal, Option.getD_some,
      String.toList_ofList, readDigits_naturalText]
  have hpayload : (obj (revisionMembers r)).field? "payload" = some (payloadJson r.payload) := rfl
  have hitems : itemsOf (some (obj (revisionMembers r))) "evidence" = r.evidence.1.map Documents.evidence.encode := by
    rw [itemsOf, get_obj, hshape.evidence_member]
    rfl
  refine ⟨(), (checkShape_ok_iff h.1 hwhole).2 ⟨_, _, _, _, _, _, _, _, _, _, hshape⟩, r.effectiveFrom,
    castTimestamp_instantText _, r.knownAt, castTimestamp_instantText _, r.effectiveTo,
    (readEffectiveTo_ok_iff rfl).2 rfl, r.supersedesRevisionId.map Subtype.val,
    (readPredecessor_ok_iff rfl).2 ⟨r.supersedesRevisionId, rfl, rfl⟩, (), ?_, (), ?_,
    r.evidence.1.foldl Seen.next ⟨none, none⟩, ?_, (), ?_, payloadKeys r.payload, ?_, ?_⟩
  · rw [hnumber]
    exact ⟨exists_identityKind_iff.2 ⟨r.subjectKind, rfl⟩, exists_operation_iff.2 ⟨r.operation, rfl⟩,
      r.revisionOrdinal.2, haccepted.interval⟩
  · rw [hitems, List.length_map]
    exact r.evidence.2
  · rw [hitems]
    refine (foldlM_checkEvidence_ok_iff (storable_item h hshape.evidence_member)).2 ⟨r.evidence.1, rfl,
      fun e he => ?_, fun _ hp => absurd hp (by simp), haccepted.sorted, rfl⟩
    obtain ⟨hrefused, hof, hfk⟩ := haccepted.evidence e he
    exact ⟨hrefused, hof, hfk, haccepted.known.1 e he⟩
  · exact ((maxEvidenceKnownAt_foldl _ _).2 ⟨⟨fun _ hl => absurd hl (by simp), haccepted.known.1⟩,
      .inr haccepted.known.2⟩).symm
  · rw [hnumber]
    refine (checkPayload_ok_iff (Storable.field h hpayload)).2
      ⟨haccepted.retraction, haccepted.action_open, r.payload, rfl, rfl, ?_⟩
    have hfits := haccepted.payload_fits
    unfold RevisionDocument.PayloadFits at hfits
    cases ho : r.operation <;> cases hp : r.payload <;> rw [ho, hp] at hfits <;>
      first | exact hfits | exact ⟨hfits.1, congrArg Subtype.val hfits.2⟩
  · rw [hnumber]
    rfl

/-! ## Texts -/

theorem octetLength_text_le (r : RevisionDocument) : Jsonb.octetLength (Documents.revision.text r) ≤ 1048576 := by
  have hbound : Documents.revision.bound ≤ 1048576 := by decide
  rw [Jsonb.octetLength, Codec.text, utf8ByteSize_of_graphic (graphic_dumps _ (Documents.revision.printable r))]
  exact (Documents.revision.length_le r).trans hbound

theorem validate_ok_iff {text : String} : validate text = .ok c ↔
    ∃ r, text = Documents.revision.text r ∧ r.Accepted ∧ c = checkedOf r := by
  unfold validate readRevision
  simp only [bind_ok_iff, require_ok_iff, rescue_ok_iff]
  constructor
  · rintro ⟨value, ⟨_, hsize, value', hvalue, canonical, hcanonical, _, hencoding, hresult⟩, hcheck⟩
    obtain rfl := Except.ok.inj hresult
    rw [not_holds_or_iff, not_holds_unlike_iff, holds_distinct_iff, not_not, Option.some.injEq] at hencoding
    obtain ⟨rfl, hobject⟩ := hencoding
    obtain ⟨v, hread, hwhole, htext⟩ := CanonicalJson.isCanonical_of hcanonical
    rw [jsonbOf_ok_iff, hread, Option.some.injEq] at hvalue
    subst hvalue
    have hstorable := storable_read hread
    obtain ⟨members, rfl⟩ := kind_eq_object_iff.1 hobject
    obtain ⟨r, hr, haccepted, rfl⟩ := exists_of_checkRevision hstorable hwhole hcheck
    exact ⟨r, by rw [htext, hr, Codec.text_eq_canonical], haccepted, rfl⟩
  · rintro ⟨r, rfl, haccepted, rfl⟩
    have htext := Documents.revision.text_eq_canonical r
    have hcanonical := CanonicalJson.canonicalDomainJsonString_canonical (Documents.revision.storable r)
      (Documents.revision.integral r)
    rw [← htext] at hcanonical
    refine ⟨Documents.revision.encode r, ⟨(), octetLength_text_le r, Documents.revision.encode r, ?_,
      Documents.revision.text r, hcanonical, (), ?_, rfl⟩, checkRevision_encode r haccepted⟩
    · rw [jsonbOf_ok_iff, Jsonb.ofText, Documents.revision.read_text]
    · rw [not_holds_or_iff, not_holds_unlike_iff, holds_distinct_iff, not_not, encode_revision]
      exact ⟨rfl, rfl⟩

end Validation

end TradingAgent.SecurityMaster
