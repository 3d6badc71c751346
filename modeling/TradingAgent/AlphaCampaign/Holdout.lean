import TradingAgent.AlphaCampaign.Lifecycle

/-!
# Disclosure and release of the holdout

`job_plane.worker_consume_p3_holdout` (`0026_p3_holdout_disclosure.py`), `job_plane.custodian_claim_p3_release` and
`job_plane.custodian_read_p3_release` (`0027_p3_custodian_release.py`), and the runs of all calls that touch their
tables.
-/

namespace TradingAgent.AlphaCampaign

open Outcome ThreeValued CanonicalJson
open JobPlane (Raised isRowId isIdentity isLeaseToken isSha256 given notNull Attempt Event uniqueViolation
  foreignKeyViolation RecoverArguments)
open Jsonb (get getText path pathText isKind wholeNumber octetLength)

variable (server : Server)

/-! ## The six documents -/

/-- The six documents of a consumption. -/
structure Documents (α : Type) where
  (holdoutRequest researchInputSet holdoutInputSet familyReview primarySelection custodyRecord : α)

def Documents.list {α : Type} (d : Documents α) : List α :=
  [d.holdoutRequest, d.researchInputSet, d.holdoutInputSet, d.familyReview, d.primarySelection, d.custodyRecord]

def inputKeys : List String :=
  ["schema_version", "source", "epoch_id", "policy_digest", "family_digest", "dataset_evidence_ref",
    "fold_manifest_ref", "pit_proof_ref", "environment_ref", "cost_model", "regime_threshold_ref",
    "integration_receipt_ref", "digest"]

def readDocuments (texts : Documents (Option String)) : Except Raised (Documents Json) := do
  let q ← p3CheckedObject server texts.holdoutRequest "p3-holdout-request-v1"
    ["schema_version", "source", "primary_selection_ref", "policy_digest", "holdout_input_set_ref",
      "custody_record_ref", "review_ref", "issued_at", "expires_at", "logical_trial_id", "authority", "digest"]
  let ri ← p3CheckedObject server texts.researchInputSet "p3-input-set-v1" inputKeys
  let hi ← p3CheckedObject server texts.holdoutInputSet "p3-input-set-v1" inputKeys
  let f ← p3CheckedObject server texts.familyReview "p3-family-review-v1"
    ["schema_version", "input_set_ref", "candidate_report_refs", "trial_outcome_refs", "review_ref",
      "complete_disclosure", "digest"]
  let p ← p3CheckedObject server texts.primarySelection "p3-primary-selection-v1"
    ["schema_version", "family_review_ref", "selection_policy_digest", "primary_alpha_id", "primary_version",
      "primary_candidate_head_ref", "outcome", "digest"]
  let c ← p3CheckedObject server texts.custodyRecord "p3-custody-record-v1"
    ["schema_version", "holdout_commitment", "ciphertext_ref", "plaintext_bundle_digest", "custodian_identity",
      "research_identity", "custodian_attestation_ref", "access_policy_digest", "classification", "digest"]
  .ok ⟨q, ri, hi, f, p, c⟩

def refersTo (reference : Option Json) (raw : Option String) : Truth :=
  allOf [some (p3ValidRef reference), eq (getText reference "media_type") (some "application/json"),
    eq (wholeNumber (getText reference "size_bytes")) (raw.map octetLength),
    eq (getText reference "content_sha256") (raw.map server.sha256)]

/-- The references of the loop over `binding`, each with its document. -/
def documentReferences (auth intent : Json) (d : Documents Json) (texts : Documents (Option String)) :
    List (Option Json × Option String) :=
  [(get (some auth) "input_set_ref", texts.researchInputSet),
    (get (some intent) "input_set_ref", texts.researchInputSet),
    (get (some d.familyReview) "input_set_ref", texts.researchInputSet),
    (path (some intent) ["body", "holdout_input_set_ref"], texts.holdoutInputSet),
    (get (some d.holdoutRequest) "holdout_input_set_ref", texts.holdoutInputSet),
    (get (some d.primarySelection) "family_review_ref", texts.familyReview),
    (path (some intent) ["body", "primary_selection_ref"], texts.primarySelection),
    (get (some d.holdoutRequest) "primary_selection_ref", texts.primarySelection),
    (path (some intent) ["body", "custody_record_ref"], texts.custodyRecord),
    (get (some d.holdoutRequest) "custody_record_ref", texts.custodyRecord)]

def isDigestField (value : Json) (key : String) : Truth :=
  and (isKind .string (get (some value) key)) (test isSha256 (getText (some value) key))

def isSlugField (value : Json) (key : String) : Truth :=
  and (isKind .string (get (some value) key)) (test isSlug (getText (some value) key))

/-- The documents agree with each other, with the job and with the accepted operation. -/
def metadataCloses (payload auth intent : Json) (d : Documents Json) : Truth :=
  let q := some d.holdoutRequest
  let ri := some d.researchInputSet
  let hi := some d.holdoutInputSet
  let p := some d.primarySelection
  let c := some d.custodyRecord
  allOf [
    eq (get q "source") (get (some payload) "expected_source"), eq (get q "source") (get ri "source"),
    eq (get ri "source") (get hi "source"),
    eq (get ri "epoch_id") (get hi "epoch_id"), isSlugField d.researchInputSet "epoch_id",
    eq (get ri "family_digest") (get hi "family_digest"), isDigestField d.researchInputSet "family_digest",
    eq (get q "policy_digest") (path (some intent) ["body", "policy_digest"]),
    eq (get q "policy_digest") (get ri "policy_digest"), eq (get ri "policy_digest") (get hi "policy_digest"),
    eq (get q "policy_digest") (get p "selection_policy_digest"),
    eq (get ri "environment_ref") (get hi "environment_ref"),
    eq (get hi "environment_ref") (path (some intent) ["body", "environment_ref"]),
    eq (get ri "cost_model") (get hi "cost_model"),
    eq (get ri "regime_threshold_ref") (get hi "regime_threshold_ref"),
    eq (get ri "integration_receipt_ref") (get hi "integration_receipt_ref"),
    eq (get hi "dataset_evidence_ref") (path (some intent) ["body", "holdout_dataset_ref"]),
    eq (get (some d.familyReview) "complete_disclosure") (some (.bool true)),
    eq (getText p "outcome") (some "SELECTED"),
    isKind .string (get p "primary_alpha_id"),
    eq (get p "primary_alpha_id") (path (some intent) ["allowed_alpha_ids", "0"]),
    isKind .string (get p "primary_version"), test isVersion (getText p "primary_version"),
    some (p3ValidRef (get p "primary_candidate_head_ref")),
    eq (getText c "classification") (some "HISTORICAL_ACCESS_CONTROLLED_NOT_INFORMATIONALLY_BLIND"),
    isSlugField d.custodyRecord "custodian_identity", isSlugField d.custodyRecord "research_identity",
    ne (get c "custodian_identity") (get c "research_identity"),
    isDigestField d.custodyRecord "holdout_commitment", isDigestField d.custodyRecord "plaintext_bundle_digest",
    isDigestField d.custodyRecord "access_policy_digest",
    eq (get q "review_ref") (get (some auth) "review_ref"), eq (get q "issued_at") (get (some auth) "issued_at"),
    eq (get q "expires_at") (get (some auth) "expires_at"),
    eq (getText q "logical_trial_id") (some "p3-holdout-primary-v1"),
    eq (get q "authority") (get (some auth) "authority")]

/-- `SELECT value FROM jsonb_each(value) WHERE right(key,4)='_ref'` -/
def refMembers : Json → List Json
  | .obj members => (members.filter fun m => m.1.toList.reverse.take 4 == ['f', 'e', 'r', '_']).map Prod.snd
  | _ => []

def boundedItems (value : Option Json) (least most : ℕ) : Option (List Json) :=
  (value.bind Json.items?).filter fun items => decide (least ≤ items.length ∧ items.length ≤ most)

/-- Every reference of the documents is valid, and the lists of the family review have their lengths. -/
def checkReferences (d : Documents Json) : Except Raised Unit := do
  let reference : Raised := ⟨"P3 holdout metadata reference rejected", "22023"⟩
  let shape : Raised := ⟨"P3 holdout family disclosure shape rejected", "22023"⟩
  require (∀ ref ∈ refMembers d.researchInputSet ++ refMembers d.holdoutInputSet ++ refMembers d.custodyRecord,
    p3ValidRef (some ref) = true) reference
  require (p3ValidRef (get (some d.familyReview) "review_ref") = true) reference
  let reports ← notNull (boundedItems (get (some d.familyReview) "candidate_report_refs") 4 4) shape
  let outcomes ← notNull (boundedItems (get (some d.familyReview) "trial_outcome_refs") 1 256) shape
  require (∀ ref ∈ reports ++ outcomes, p3ValidRef (some ref) = true) ⟨"P3 holdout family reference rejected", "22023"⟩

/-- `encode(sha256(convert_to(public.canonical_domain_json(jsonb_build_array(…)),'UTF8')),'hex')`. -/
def inputsText (d : Documents Json) : Except Raised String := canonicalDomainJson (.arr d.list)

/-! ## Consuming the holdout -/

structure ConsumeArguments where
  (jobId attemptId workerId leaseToken : Option String)
  texts : Documents (Option String)
  traceId : Option String

structure Consumer where
  (jobId attemptId workerId leaseToken traceId : String)

def ConsumeArguments.check (p : ConsumeArguments) : Except Raised Consumer := do
  let identity : Raised := ⟨"P3 holdout disclosure identity rejected", "22023"⟩
  let claim : Raised := ⟨"P3 holdout disclosure claim rejected", "22023"⟩
  let jobId ← given isRowId p.jobId identity
  let attemptId ← given isRowId p.attemptId identity
  let workerId ← given isIdentity p.workerId claim
  let leaseToken ← given isLeaseToken p.leaseToken claim
  let traceId ← given isIdentity p.traceId claim
  .ok ⟨jobId, attemptId, workerId, leaseToken, traceId⟩

def ClaimedBy (job : Job) (attempt : Attempt) (workerId leaseToken : String) (first second : DateTime) : Prop :=
  job.state = .claimed ∧ attempt.outcome = .claimed ∧
    getText (some job.payload) "operation" = some "HOLDOUT" ∧
    getText (some job.payload) "logical_trial_id" = some "p3-holdout-primary-v1" ∧
    job.attemptCount = attempt.attemptNumber ∧ job.leaseOwner = some workerId ∧ attempt.workerId = workerId ∧
    job.leaseToken = some leaseToken ∧ attempt.leaseToken = leaseToken ∧ LeasesLive job attempt first second

instance (job : Job) (attempt : Attempt) (workerId leaseToken : String) (first second : DateTime) :
    Decidable (ClaimedBy job attempt workerId leaseToken first second) :=
  inferInstanceAs (Decidable (_ ∧ _ ∧ _ ∧ _ ∧ _ ∧ _ ∧ _ ∧ _ ∧ _ ∧ _))

def boundOperation (jobId : String) (payload : Json) (tables : Tables) : Except Raised (Json × Json) := do
  let missing : Raised := ⟨"P3 holdout accepted job binding missing", "22023"⟩
  let digest ← notNull (authorizationSha payload) missing
  require (tables.Bound digest jobId) missing
  let operation ← notNull (tables.operation? digest) missing
  let campaign ← notNull (tables.campaign? digest) missing
  let auth ← jsonbOf campaign.authorizationText
  let intent ← jsonbOf operation.intentText
  .ok (auth, intent)

def column (value : Option String) (name : String) : Except Raised String := notNull value (notNullViolation name)

def disclosureOf (consumer : Consumer) (payload auth intent : Json) (d : Documents Json) (requestText : String)
    (inputsSha : String) (checkedAt : DateTime) : Except Raised Disclosure := do
  let q := some d.holdoutRequest
  let ri := some d.researchInputSet
  let p := some d.primarySelection
  let c := some d.custodyRecord
  let intentDigest ← column (getText (some intent) "digest") "intent_digest"
  let intentSha256 ← column (pathText (some payload) ["manifest_ref", "content_sha256"]) "intent_sha256"
  let authorizationDigest ← column (authorizationSha payload) "authorization_digest"
  let researchInputSet ← column (pathText (some auth) ["input_set_ref", "content_sha256"]) "research_input_set_sha256"
  let holdoutInputSet ← column (pathText q ["holdout_input_set_ref", "content_sha256"]) "holdout_input_set_sha256"
  let epochId ← column (getText ri "epoch_id") "epoch_id"
  let familyDigest ← column (getText ri "family_digest") "family_digest"
  let source ← notNull (get q "source") (notNullViolation "source_identity_text")
  let sourceIdentityText ← canonicalDomainJson source
  let policyDigest ← column (getText q "policy_digest") "policy_digest"
  let familyReview ← column (pathText p ["family_review_ref", "content_sha256"]) "family_review_sha256"
  let primarySelection ← column (pathText q ["primary_selection_ref", "content_sha256"]) "primary_selection_sha256"
  let custodyRecord ← column (pathText q ["custody_record_ref", "content_sha256"]) "custody_record_sha256"
  let primaryAlphaId ← column (getText p "primary_alpha_id") "primary_alpha_id"
  let primaryVersion ← column (getText p "primary_version") "primary_version"
  let primaryHead ← column (pathText p ["primary_candidate_head_ref", "content_sha256"]) "primary_head_sha256"
  let holdoutCommitment ← column (getText c "holdout_commitment") "holdout_commitment"
  let plaintextBundleDigest ← column (getText c "plaintext_bundle_digest") "plaintext_bundle_digest"
  let accessPolicyDigest ← column (getText c "access_policy_digest") "access_policy_digest"
  let custodianIdentity ← column (getText c "custodian_identity") "custodian_identity"
  let researchIdentity ← column (getText c "research_identity") "research_identity"
  .ok {
    intentDigest := intentDigest
    intentSha256 := intentSha256
    authorizationDigest := authorizationDigest
    jobId := consumer.jobId
    attemptId := consumer.attemptId
    workerId := consumer.workerId
    inputsDigest := inputsSha
    holdoutRequestText := requestText
    holdoutRequestSha256 := server.sha256 requestText
    researchInputSetSha256 := researchInputSet
    holdoutInputSetSha256 := holdoutInputSet
    epochId := epochId
    familyDigest := familyDigest
    sourceIdentityText := sourceIdentityText
    policyDigest := policyDigest
    familyReviewSha256 := familyReview
    primarySelectionSha256 := primarySelection
    custodyRecordSha256 := custodyRecord
    primaryAlphaId := primaryAlphaId
    primaryVersion := primaryVersion
    primaryHeadSha256 := primaryHead
    holdoutCommitment := holdoutCommitment
    plaintextBundleDigest := plaintextBundleDigest
    accessPolicyDigest := accessPolicyDigest
    custodianIdentity := custodianIdentity
    researchIdentity := researchIdentity
    traceId := consumer.traceId
    disclosedAt := checkedAt }

def Disclosure.digests (d : Disclosure) : List String :=
  [d.intentDigest, d.intentSha256, d.authorizationDigest, d.inputsDigest, d.holdoutRequestSha256,
    d.researchInputSetSha256, d.holdoutInputSetSha256, d.familyDigest, d.policyDigest, d.familyReviewSha256,
    d.primarySelectionSha256, d.custodyRecordSha256, d.primaryHeadSha256, d.holdoutCommitment,
    d.plaintextBundleDigest, d.accessPolicyDigest]

def Disclosure.keys (d : Disclosure) : List (List String) :=
  [[d.intentDigest], [d.intentSha256], [d.authorizationDigest], [d.jobId], [d.attemptId], [d.holdoutRequestSha256],
    [d.holdoutInputSetSha256], [d.primarySelectionSha256], [d.custodyRecordSha256], [d.holdoutCommitment],
    [d.plaintextBundleDigest], [d.epochId, d.familyDigest]]

def Disclosure.conflicts (x y : Disclosure) : Bool := (x.keys.zip y.keys).any fun k => decide (k.1 = k.2)

def Disclosure.Checked (d : Disclosure) : Prop :=
  (∀ digest ∈ d.digests, isSha256 digest = true) ∧ d.custodianIdentity ≠ d.researchIdentity ∧
    isSlug d.epochId = true ∧ isAlphaSlug d.primaryAlphaId = true ∧ isVersion d.primaryVersion = true ∧
    isSlug d.custodianIdentity = true ∧ isSlug d.researchIdentity = true

instance (d : Disclosure) : Decidable d.Checked := inferInstanceAs (Decidable (_ ∧ _ ∧ _ ∧ _ ∧ _ ∧ _ ∧ _))

/-- `INSERT … ON CONFLICT DO NOTHING` -/
def Tables.insertDisclosure (tables : Tables) (d : Disclosure) : Except Raised Tables := do
  require d.Checked (checkViolation "p3_holdout_disclosures")
  .ok (if tables.disclosures.any d.conflicts then tables else { tables with disclosures := tables.disclosures ++ [d] })

/-- The row that `worker_consume_p3_holdout` returns. -/
structure DisclosedRow where
  (authorizationDigest intentDigest holdoutRequestSha256 : String)
  disclosedAt : DateTime

def Disclosure.row (d : Disclosure) : DisclosedRow :=
  ⟨d.authorizationDigest, d.intentDigest, d.holdoutRequestSha256, d.disclosedAt⟩

def Disclosure.ReadBack (made d : Disclosure) : Prop :=
  d.jobId = made.jobId ∧ d.attemptId = made.attemptId ∧ d.workerId = made.workerId ∧
    d.inputsDigest = made.inputsDigest ∧ d.holdoutRequestText = made.holdoutRequestText ∧ d.traceId = made.traceId ∧
    d.authorizationDigest = made.authorizationDigest ∧ d.intentDigest = made.intentDigest

instance (made d : Disclosure) : Decidable (made.ReadBack d) :=
  inferInstanceAs (Decidable (_ ∧ _ ∧ _ ∧ _ ∧ _ ∧ _ ∧ _ ∧ _))

/-- The checks of `worker_consume_p3_holdout` and the row it inserts, with the job and the attempt it locks. -/
def prepareDisclosure (session : Session) (clock : Clock) (p : ConsumeArguments) (tables : Tables) :
    Except Raised (Job × Attempt × Disclosure) := do
  let fence : Raised := ⟨"P3 holdout disclosure fence rejected", "22023"⟩
  require (session.user = .tradingJobWorker) ⟨"P3 holdout disclosure worker rejected", "42501"⟩
  let consumer ← p.check
  let d ← readDocuments server p.texts
  let job ← notNull (tables.job? consumer.jobId) ⟨"P3 holdout job missing", "22023"⟩
  let attempt ← notNull (tables.attempt? consumer.attemptId consumer.jobId) fence
  require (ClaimedBy job attempt consumer.workerId consumer.leaseToken (clock.reading 0) (clock.reading 1)) fence
  let authorized ← p3PayloadAuthorized server job.payload none (clock.reading 2) (clock.reading 3) tables
  require (authorized = true) fence
  let (auth, intent) ← boundOperation consumer.jobId job.payload tables
  require (∀ binding ∈ documentReferences auth intent d p.texts, holds (refersTo server binding.1 binding.2))
    ⟨"P3 holdout referenced bytes differ", "22023"⟩
  raiseUnless (metadataCloses job.payload auth intent d) ⟨"P3 holdout metadata closure rejected", "22023"⟩
  checkReferences d
  let requestText ← notNull p.texts.holdoutRequest (notNullViolation "holdout_request_text")
  let inputs ← inputsText d
  let made ← disclosureOf server consumer job.payload auth intent d requestText (server.sha256 inputs)
    (clock.reading 4)
  .ok (job, attempt, made)

def workerConsumeP3Holdout (session : Session) (clock : Clock) (p : ConsumeArguments) (tables : Tables) :
    Except Raised (List DisclosedRow × Tables) := do
  let expired : Raised := ⟨"P3 holdout disclosure expired while waiting", "22023"⟩
  let (job, attempt, made) ← prepareDisclosure server session clock p tables
  let inserted ← tables.insertDisclosure made
  raiseIf (leaseBy (clock.reading 5) job) expired
  require (¬ attempt.leaseExpiresAt ≤ clock.reading 6) expired
  let still ← p3PayloadAuthorized server job.payload none (clock.reading 7) (clock.reading 8) inserted
  require (still = true) expired
  let rows := inserted.disclosures.filter fun d => made.ReadBack d
  require (rows ≠ []) ⟨"P3 holdout disclosure already consumed", "23505"⟩
  .ok (rows.map Disclosure.row, inserted)

/-! ## Releasing the holdout -/

def releaseKeys : List String :=
  ["attempt_id", "authorization_digest", "custodian_identity", "custodian_uid", "custody_record_ref",
    "holdout_commitment", "holdout_request_sha256", "intent_digest", "job_id", "plaintext_bundle_digest",
    "research_identity", "research_uid", "row_inventory_digest", "schema_version", "source", "worker_id"]

def disclosureAgrees (payload : Json) (d : Disclosure) (q : Json) (sourceText : Option String)
    (request : Option Json) : Truth :=
  allOf [
    eq (some d.workerId) (getText (some q) "worker_id"),
    eq (some d.authorizationDigest) (getText (some q) "authorization_digest"),
    eq (some d.authorizationDigest) (authorizationSha payload),
    eq (some d.intentDigest) (getText (some q) "intent_digest"),
    eq (some d.intentSha256) (pathText (some payload) ["manifest_ref", "content_sha256"]),
    eq (some d.holdoutRequestSha256) (getText (some q) "holdout_request_sha256"),
    some (p3ValidRef (get (some q) "custody_record_ref")),
    eq (get (some q) "custody_record_ref") (get request "custody_record_ref"),
    eq (some d.custodyRecordSha256) (pathText (some q) ["custody_record_ref", "content_sha256"]),
    eq (some d.holdoutCommitment) (getText (some q) "holdout_commitment"),
    eq (some d.plaintextBundleDigest) (getText (some q) "plaintext_bundle_digest"),
    eq (some d.sourceIdentityText) sourceText,
    eq (some d.custodianIdentity) (getText (some q) "custodian_identity"),
    eq (some d.researchIdentity) (getText (some q) "research_identity"),
    isKind .number (get (some q) "custodian_uid"), isKind .number (get (some q) "research_uid"),
    test isPositive (getText (some q) "custodian_uid"), test isPositive (getText (some q) "research_uid"),
    ne (get (some q) "custodian_uid") (get (some q) "research_uid"),
    isKind .string (get (some q) "row_inventory_digest"), test isSha256 (getText (some q) "row_inventory_digest")]

/-- What the fence of the custodian functions locks. -/
structure Fenced where
  requestText : String
  job : Job
  attempt : Attempt
  disclosure : Disclosure

def releaseFence (session : Session) (clock : Clock) (request : Option String) (tables : Tables) :
    Except Raised Fenced := do
  let bytes : Raised := ⟨"invalid release request bytes", "22023"⟩
  let current : Raised := ⟨"release current claim rejected", "22023"⟩
  let committed : Raised := ⟨"release committed disclosure differs", "22023"⟩
  require (session.user = .tradingP3Custodian ∧ session.restricted = true) ⟨"custodian identity rejected", "42501"⟩
  let requestText ← notNull request bytes
  require (1 ≤ octetLength requestText ∧ octetLength requestText ≤ 65536) bytes
  let canonical ← canonicalDomainJsonString requestText
  require (requestText = canonical) bytes
  let q ← jsonbOf requestText
  raiseUnless (allOf [isKind .object (some q),
    eq (getText (some q) "schema_version") (some "p3-holdout-release-request-v1"),
    some (decide (q.keys? = some releaseKeys))]) ⟨"invalid release request shape", "22023"⟩
  let job ← notNull ((getText (some q) "job_id").bind tables.job?) ⟨"release job missing", "22023"⟩
  let attempt ← notNull ((getText (some q) "attempt_id").bind fun id => tables.attempt? id job.jobId) current
  let workerId ← notNull (getText (some q) "worker_id") current
  require (ClaimedBy job attempt workerId attempt.leaseToken (clock.reading 0) (clock.reading 1)) current
  raiseUnless (eq (get (some q) "source") (get (some job.payload) "expected_source")) current
  let authorized ← p3PayloadAuthorized server job.payload none (clock.reading 2) (clock.reading 3) tables
  require (authorized = true) current
  let d ← notNull (tables.disclosures.find? fun d => d.jobId = job.jobId ∧ d.attemptId = attempt.attemptId) committed
  let sourceText ← canonicalText (get (some q) "source")
  raiseUnless (disclosureAgrees job.payload d q sourceText (Jsonb.ofText d.holdoutRequestText)) committed
  .ok ⟨requestText, job, attempt, d⟩

def releaseTail (clock : Clock) (fenced : Fenced) (tables : Tables) : Except Raised Unit := do
  let expired : Raised := ⟨"release expired while waiting", "22023"⟩
  raiseIf (leaseBy (clock.reading 5) fenced.job) expired
  require (¬ fenced.attempt.leaseExpiresAt ≤ clock.reading 6) expired
  let still ← p3PayloadAuthorized server fenced.job.payload none (clock.reading 7) (clock.reading 8) tables
  require (still = true) expired

structure ReleasedRow where
  requestSha256 : String
  releasedAt : DateTime

/-- `INSERT INTO public.p3_custodian_releases` -/
def Tables.insertRelease (tables : Tables) (r : Release) : Except Raised Tables := do
  require (isSha256 r.requestSha256 = true) (checkViolation "p3_custodian_releases_request_sha256_check")
  require (∀ other ∈ tables.releases, other.holdoutCommitment ≠ r.holdoutCommitment)
    (uniqueViolation "p3_custodian_releases_pkey")
  require (∀ other ∈ tables.releases, other.requestSha256 ≠ r.requestSha256)
    (uniqueViolation "p3_custodian_releases_request_sha256_key")
  .ok { tables with releases := tables.releases ++ [r] }

def custodianClaimP3Release (session : Session) (clock : Clock) (request : Option String) (tables : Tables) :
    Except Raised (ReleasedRow × Tables) := do
  let fenced ← releaseFence server session clock request tables
  let requestSha := server.sha256 fenced.requestText
  let stamp := clock.reading 4
  let released ← tables.insertRelease ⟨fenced.disclosure.holdoutCommitment, requestSha, fenced.requestText, stamp⟩
  releaseTail server clock fenced released
  .ok (⟨requestSha, stamp⟩, released)

def custodianReadP3Release (session : Session) (clock : Clock) (request : Option String) (tables : Tables) :
    Except Raised ReleasedRow := do
  let fenced ← releaseFence server session clock request tables
  let requestSha := server.sha256 fenced.requestText
  let release ← notNull (tables.releases.find? fun r => r.holdoutCommitment = fenced.disclosure.holdoutCommitment ∧
    r.requestSha256 = requestSha ∧ r.requestText = fenced.requestText)
    ⟨"release committed readback missing", "22023"⟩
  releaseTail server clock fenced tables
  .ok ⟨requestSha, release.releasedAt⟩

/-! ## Calls -/

/-- `INSERT … ON CONFLICT DO NOTHING` of an accepted authorization and its operation. -/
def Tables.accept (tables : Tables) (campaign : CampaignAuthorization) (operation : OperationAuthorization) : Tables :=
  { tables with
    campaigns := if (tables.campaign? campaign.requestDigest).isSome then tables.campaigns
      else tables.campaigns ++ [campaign]
    operations := if (tables.operations.any fun other =>
        other.authorizationDigest == operation.authorizationDigest || other.nonce == operation.nonce) then
        tables.operations
      else tables.operations ++ [operation] }

/-- A call; `accept` is the acceptance of any authorization, `elsewhere` whatever the other functions of the job
plane do to jobs, attempts and events. -/
inductive Call
  | enqueue (session : Session) (clock : Clock) (p : EnqueueArguments)
  | claim (locked : Bool) (session : Session) (clock : Clock) (p : ClaimArguments)
  | consume (session : Session) (clock : Clock) (p : ConsumeArguments)
  | start (session : Session) (clock : Clock) (p : StartArguments)
  | claimRelease (session : Session) (clock : Clock) (request : Option String)
  | readRelease (session : Session) (clock : Clock) (request : Option String)
  | recoverSession (session : Session) (clock : Clock) (p : RecoverArguments) (issuer : Issuer)
  | recoverExpired (session : Session) (clock : Clock) (p : RecoverArguments) (fixtureOnly : Option Bool)
  | accept (campaign : CampaignAuthorization) (operation : OperationAuthorization)
  | elsewhere (jobs : List Job) (attempts : List Attempt) (events : List Event)

def Call.commit (tables : Tables) : Call → Except Raised Tables
  | .enqueue session clock p => (apiEnqueueAlphaCampaign server session clock p tables).map (·.2)
  | .claim locked session clock p => (workerClaimSessionHoldout server locked session clock p tables).map (·.2)
  | .consume session clock p => (workerConsumeP3Holdout server session clock p tables).map (·.2)
  | .start session clock p => (workerStartSessionHoldout server session clock p tables).map (·.2)
  | .claimRelease session clock request => (custodianClaimP3Release server session clock request tables).map (·.2)
  | .readRelease session clock request => (custodianReadP3Release server session clock request tables).map fun _ => tables
  | .recoverSession session clock p issuer => (workerRecoverSessionHoldout session clock p issuer tables).map (·.2)
  | .recoverExpired session clock p fixtureOnly =>
    (workerRecoverExpiredAlphaCampaign session clock p fixtureOnly tables).map (·.2)
  | .accept campaign operation => .ok (tables.accept campaign operation)
  | .elsewhere jobs attempts events => .ok { tables with jobs := jobs, attempts := attempts, events := events }

/-- A call that raises changes nothing. -/
def execute (tables : Tables) (call : Call) : Tables :=
  match call.commit server tables with
  | .ok after => after
  | .error _ => tables

def executeAll (tables : Tables) (calls : List Call) : Tables := calls.foldl (execute server) tables

def Tables.opening (jobs : List Job) (attempts : List Attempt) (events : List Event)
    (campaigns : List CampaignAuthorization) (operations : List OperationAuthorization) : Tables where
  jobs := jobs
  attempts := attempts
  events := events
  campaigns := campaigns
  operations := operations
  bindings := []
  disclosures := []
  releases := []

end TradingAgent.AlphaCampaign
