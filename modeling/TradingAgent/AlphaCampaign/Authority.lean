import TradingAgent.AlphaCampaign.Models

/-!
# Operation authority

The checks that the P3 functions share (`0021_p3_operation_authority.py` and its successors 0022, 0029 and 0031).
-/

namespace TradingAgent.AlphaCampaign

open Outcome ThreeValued CanonicalJson
open JobPlane (Raised isSha256 notNull uniqueViolation foreignKeyViolation)
open Jsonb (get getText path pathText isKind isObjectOf hasKeys wholeNumber octetLength)

variable (server : Server)

def p3ValidRef (ref : Option Json) : Bool :=
  decide (holds (allOf [
    isKind .object ref,
    isObjectOf ref ["content_sha256", "size_bytes", "media_type", "locator"],
    isKind .string (get ref "content_sha256"), test isSha256 (getText ref "content_sha256"),
    isKind .number (get ref "size_bytes"), test isWhole (getText ref "size_bytes"),
    test (fun n => decide (n ≤ 1099511627776)) (wholeNumber (getText ref "size_bytes")),
    isKind .string (get ref "media_type"),
    test (fun text => decide (1 ≤ text.length ∧ text.length ≤ 128)) (getText ref "media_type"),
    eq (getText ref "locator") ((getText ref "content_sha256").map (· ++ ".blob"))]))

def memberCount (value : Json) : ℕ := (value.keys?.getD []).length

def p3CheckedObject (raw : Option String) (schemaName : String) (keys : List String) : Except Raised Json := do
  let sizeRejected : Raised := ⟨"P3 object size rejected", "22023"⟩
  let rejected : Raised := ⟨"P3 canonical object rejected", "22023"⟩
  let raw ← notNull raw sizeRejected
  require (1 ≤ octetLength raw ∧ octetLength raw ≤ 65536) sizeRejected
  let value ← jsonbOf raw
  raiseUnless (allOf [isKind .object (some value), hasKeys (some value) keys,
    some (decide (memberCount value = keys.length)), eq (getText (some value) "schema_version") (some schemaName)])
    rejected
  let canonical ← canonicalDomainJsonString raw
  require (raw = canonical) rejected
  raiseUnless (and (isKind .string (get (some value) "digest")) (test isSha256 (getText (some value) "digest"))) rejected
  let body ← canonicalDomainJson (value.without "digest")
  raiseUnless (eq (getText (some value) "digest") (some (server.sha256 body))) rejected
  .ok value

def isFixture (payload : Json) : Truth :=
  and (eq (getText (some payload) "logical_trial_id") (some "p3-integration-fixture-v1"))
    (eq (getText (some payload) "operation") (some "PARITY"))

/-- `payload #>> '{authorization_ref,content_sha256}'` -/
def authorizationSha (payload : Json) : Option String :=
  pathText (some payload) ["authorization_ref", "content_sha256"]

/-- `public.canonical_domain_json` of a value that may be null. -/
def canonicalText (value : Option Json) : Except Raised (Option String) :=
  match value with
  | none => .ok none
  | some v => (canonicalDomainJson v).map some

/-- `public.canonical_domain_json(payload->'expected_source')` -/
def expectedSourceText (payload : Json) : Except Raised (Option String) :=
  canonicalText (get (some payload) "expected_source")

/-- `text::timestamptz` of a text that may be null. -/
def instantOf (text : Option String) : Except Raised (Option DateTime) :=
  match text with
  | none => .ok none
  | some t => match server.timestamptz t with
    | some instant => .ok (some instant)
    | none => .error ⟨"invalid input syntax for type timestamp with time zone", "22007"⟩

/-- The conditions on an accepted authorization and its operation, read at two instants. -/
def authorizes (payload : Json) (boundJob : Option String) (issuedBy expiresAfter : DateTime) (tables : Tables)
    (campaign : CampaignAuthorization) (operation : OperationAuthorization) : Except Raised Bool := do
  let sourceText ← expectedSourceText payload
  let intent ← jsonbOf operation.intentText
  let authorization ← jsonbOf campaign.authorizationText
  let issuedAt ← instantOf server (getText (some authorization) "issued_at")
  .ok (decide (holds (allOf [
    some (p3ValidRef (get (some payload) "authorization_ref")),
    eq (wholeNumber (pathText (some payload) ["authorization_ref", "size_bytes"]))
      (some (octetLength campaign.authorizationText)),
    some (p3ValidRef (get (some payload) "manifest_ref")),
    eq (pathText (some payload) ["manifest_ref", "content_sha256"]) (some (server.sha256 operation.intentText)),
    eq (wholeNumber (pathText (some payload) ["manifest_ref", "size_bytes"]))
      (some (octetLength operation.intentText)),
    eq (some campaign.inputSetDigest) (pathText (some intent) ["input_set_ref", "content_sha256"]),
    eq (getText (some payload) "logical_trial_id") (getText (some intent) "workflow_operation"),
    eq (getText (some payload) "operation") (some campaign.operation),
    eq (some campaign.sourceIdentityText) sourceText,
    relate (fun x y => decide (x ≤ y)) issuedAt (some issuedBy),
    some (decide (expiresAfter < campaign.expiresAt)),
    some (boundJob.all fun jobId => decide (campaign.operation ≠ "HOLDOUT" ∧
      tables.Bound operation.authorizationDigest jobId))])))

/-- `job_plane.p3_payload_authorized`, with its two readings of the clock. -/
def p3PayloadAuthorized (payload : Json) (boundJob : Option String) (issuedBy expiresAfter : DateTime)
    (tables : Tables) : Except Raised Bool :=
  match authorizationSha payload with
  | none => .ok false
  | some digest =>
    match tables.campaign? digest with
    | none => .ok false
    | some campaign =>
      if holds (isFixture payload) then do
        let sourceText ← expectedSourceText payload
        .ok (decide (holds (allOf [
          eq (some campaign.inputSetDigest) (pathText (some payload) ["manifest_ref", "content_sha256"]),
          some (decide (campaign.operation = "PARITY")),
          eq (some campaign.sourceIdentityText) sourceText,
          some (decide (expiresAfter < campaign.expiresAt))])))
      else
        match tables.operation? digest with
        | none => .ok false
        | some operation => authorizes server payload boundJob issuedBy expiresAfter tables campaign operation

def p3BindOperationJob (payload : Json) (boundJob : String) (tables : Tables) : Except Raised Tables :=
  if holds (isFixture payload) then .ok tables
  else do
    let digest ← notNull (authorizationSha payload) (notNullViolation "authorization_digest")
    let conflict := tables.bindings.any fun b => b.authorizationDigest == digest || b.jobId == boundJob
    require (conflict = true ∨ (tables.operation? digest).isSome)
      (foreignKeyViolation "p3_operation_job_bindings_authorization_digest_fkey")
    let bound := if conflict then tables else { tables with bindings := tables.bindings ++ [⟨digest, boundJob⟩] }
    require (bound.Bound digest boundJob) ⟨"P3 authorization already belongs to another job", "23505"⟩
    .ok bound

def p3WorkerLaneMatches (payload : Json) (fixtureOnly : Option Bool) : Bool :=
  match fixtureOnly with
  | none => false
  | some fixtureOnly =>
    let lane := (getText (some payload) "operation", getText (some payload) "logical_trial_id")
    if fixtureOnly then decide (lane = (some "PARITY", some "p3-integration-fixture-v1"))
    else [("BASELINES", "p3-baselines-v1"), ("REGISTER_FAMILY", "p3-register-family-v1"), ("OOS", "p3-oos-a0-v1"),
      ("OOS", "p3-oos-a1-v1"), ("OOS", "p3-oos-a2-v1"), ("OOS", "p3-oos-a3-v1"), ("OOS", "p3-select-primary-v1"),
      ("PARITY", "p3-native-parity-v1"), ("PHASE_EXIT", "p3-phase-exit-v1")].any fun allowed =>
        decide (lane = (some allowed.1, some allowed.2))

/-- Who a session call says it runs for: a workflow run and its attempt, or a local identity by its text. -/
inductive Issuer
  | workflow (runId runAttempt : Option ℤ)
  | here (identity : Option String)

/-- `^[0-9a-f]{8}-[0-9a-f]{4}-[0-9a-f]{4}-[0-9a-f]{4}-[0-9a-f]{12}$` -/
def isUuid (text : String) : Bool :=
  decide (text.toList.length = 36) &&
    (text.toList.zipIdx.all fun (c, n) => if n = 8 ∨ n = 13 ∨ n = 18 ∨ n = 23 then c == '-' else JobPlane.isHexChar c)

/-- `isUuid`, of version 4. -/
def isUuid4 (text : String) : Bool :=
  isUuid text && decide (text.toList[14]? = some '4') && ((text.toList[19]?).any fun c => ['8', '9', 'a', 'b'].contains c)

def p3ValidLocalIdentity (i : Json) : Bool :=
  decide (holds (allOf [
    isKind .object (some i),
    isObjectOf (some i) ["issuer_kind", "issuer_identity", "run_id", "attempt", "host_id", "boot_id"],
    eq (getText (some i) "issuer_kind") (some "LOCAL"),
    isKind .string (get (some i) "issuer_identity"), test isSlug (getText (some i) "issuer_identity"),
    isKind .string (get (some i) "run_id"), test isUuid4 (getText (some i) "run_id"),
    isKind .number (get (some i) "attempt"), test isPositive (getText (some i) "attempt"),
    isKind .string (get (some i) "host_id"), test isSha256 (getText (some i) "host_id"),
    isKind .string (get (some i) "boot_id"), test isUuid (getText (some i) "boot_id")]))

def Issuer.check (raised : Raised) : Issuer → Except Raised Unit
  | .workflow runId runAttempt => do
    let runId ← notNull runId raised
    require (0 < runId) raised
    let runAttempt ← notNull runAttempt raised
    require (0 < runAttempt) raised
  | .here none => .error raised
  | .here (some identity) => do
    let value ← jsonbOf identity
    require (p3ValidLocalIdentity value = true) raised
    let canonical ← canonicalDomainJson value
    require (canonical = identity) raised

def Issuer.issued (authorization : Json) : Issuer → Except Raised Bool
  | .workflow runId runAttempt =>
    .ok (decide (holds (and (eq (getText (some authorization) "issuer_run_id") (runId.map toString))
      (eq (getText (some authorization) "issuer_attempt") (runAttempt.map toString)))))
  | .here none => .ok false
  | .here (some identity) => do
    let value ← jsonbOf identity
    let canonical ← canonicalDomainJson value
    .ok (p3ValidLocalIdentity value && decide (canonical = identity) && decide (holds (and
      (eq (getText (some authorization) "schema_version") (some "p3-local-run-authorization-v1"))
      (eq (get (some authorization) "identity") (some value)))))

def p3SessionHoldoutBound (payload : Json) (boundJob : String) (issuer : Issuer) (tables : Tables) :
    Except Raised Bool :=
  if holds (and (eq (getText (some payload) "operation") (some "HOLDOUT"))
      (eq (getText (some payload) "logical_trial_id") (some "p3-holdout-primary-v1"))) then
    match authorizationSha payload with
    | none => .ok false
    | some digest =>
      if tables.Bound digest boundJob then
        match tables.campaign? digest with
        | none => .ok false
        | some campaign => do
          let authorization ← jsonbOf campaign.authorizationText
          issuer.issued authorization
      else .ok false
  else .ok false

def p3SessionHoldoutAuthorized (payload : Json) (boundJob : String) (issuer : Issuer) (issuedBy expiresAfter : DateTime)
    (tables : Tables) : Except Raised Bool := do
  let bound ← p3SessionHoldoutBound payload boundJob issuer tables
  if bound then p3PayloadAuthorized server payload none issuedBy expiresAfter tables else .ok false

end TradingAgent.AlphaCampaign
