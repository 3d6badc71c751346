import TradingAgent.SecurityMaster.Documents

/-!
# Validation of appended revisions

What `append_security_master_revision` of the migration 0019 checks before it reads a table. A check raises where
its condition is true; an unknown condition passes.
-/

namespace TradingAgent.SecurityMaster.Validation

open Outcome ThreeValued CanonicalJson
open JobPlane (Raised isSha256)
open AlphaCampaign (isUuid)
open Jsonb (get getText typeOf octetLength)
open Nautilus (takeDigits takeChar UtcDateTime instantOf)

/-- The error `P2S04`. -/
def invalid (message : String) : Raised := ⟨message, "P2S04"⟩

def conversion : Raised := invalid "canonical revision scalar conversion is invalid"

/-! ## Timestamps -/

/-- The fraction and the final `Z` of a timestamp, in microseconds. -/
def readMicroseconds (cs : List Char) : Option ℕ :=
  match cs with
  | ['Z'] => some 0
  | '.' :: rest => do
    let (n, cs) ← takeDigits 6 rest
    if cs = ['Z'] then some n else none
  | _ => none

/-- The year, month, day, hour, minute, second and microsecond of a text that matches `v_timestamp_pattern`. -/
def timestampFields (text : String) : Option (ℕ × ℕ × ℕ × ℕ × ℕ × ℕ × ℕ) := do
  let (year, cs) ← takeDigits 4 text.toList
  let cs ← takeChar '-' cs
  let (month, cs) ← takeDigits 2 cs
  let cs ← takeChar '-' cs
  let (day, cs) ← takeDigits 2 cs
  let cs ← takeChar 'T' cs
  let (hour, cs) ← takeDigits 2 cs
  let cs ← takeChar ':' cs
  let (minute, cs) ← takeDigits 2 cs
  let cs ← takeChar ':' cs
  let (second, cs) ← takeDigits 2 cs
  let microsecond ← readMicroseconds cs
  if hour < 24 ∧ minute < 60 ∧ second < 60 then some (year, month, day, hour, minute, second, microsecond) else none

/-- The text matches `v_timestamp_pattern` and not `\.000000Z$`. -/
def isTimestamp (text : String) : Bool :=
  (timestampFields text).isSome && !decide (".000000Z".toList <:+ text.toList)

/-- `text::timestamptz`, of a text that matches `v_timestamp_pattern`. -/
def timestamptz (text : String) : Option Instant :=
  (timestampFields text).bind fun (year, month, day, hour, minute, second, microsecond) =>
    (UtcDateTime.of? year month day hour minute second microsecond).map instantOf

def castTimestamp (text : String) : Except Raised Instant :=
  match timestamptz text with
  | some t => .ok t
  | none => .error conversion

/-! ## Objects of text fields -/

/-- `jsonb_object_keys(value)` -/
def objectKeys (value : Option Json) : Except Raised (List String) :=
  match value with
  | none => .ok []
  | some (.obj members) => .ok (members.map Prod.fst)
  | some (.arr _) => .error ⟨"cannot call jsonb_object_keys on an array", "22023"⟩
  | some _ => .error ⟨"cannot call jsonb_object_keys on a scalar", "22023"⟩

/-- `v_total <> n OR v_valid <> n`, of the `n` names. -/
def otherKeys (keys names : List String) : Truth :=
  some (decide (keys.length ≠ names.length ∨ (keys.filter (· ∈ names)).length ≠ names.length))

/-- `jsonb_typeof(value) <> kind` -/
def unlike (kind : Json.Kind) (value : Option Json) : Truth := ne (typeOf value) (some kind)

/-- `text !~ pattern`, also `text NOT IN (…)` -/
def unmatched (pattern : String → Bool) (text : Option String) : Truth := ThreeValued.not (test pattern text)

def wrongText (value : Option Json) (key : String) (pattern : String → Bool) : Truth :=
  ThreeValued.or (unlike .string (get value key)) (unmatched pattern (getText value key))

def checkObject (value : Option Json) (names : List String) (fields : List (String × (String → Bool)))
    (others : List Truth) (raised : Raised) : Except Raised Unit := do
  let keys ← objectKeys value
  require (¬ holds (anyOf (otherKeys keys names :: fields.map (fun f => wrongText value f.1 f.2) ++ others))) raised

/-- `value ->> key` of a field that is a string. -/
def textOf (value : Option Json) (key : String) : String := (getText value key).getD ""

/-- `value -> key` of a field that is an array. -/
def itemsOf (value : Option Json) (key : String) : List Json := ((get value key).bind Json.items?).getD []

/-! ## Locators -/

/-- `regexp_replace(lower(text), '[^a-z0-9]', '', 'g')` -/
def normalized (text : String) : List Char := (text.toList.map Char.toLower).filter isLowerOrDigit

/-- The words that `strpos` looks for. -/
def forbiddenWords : List String :=
  ["credential", "apikey", "password", "accountid", "accountnumber", "accountrouting", "routingnumber", "ordertype",
    "executioninstruction", "executiontext", "brokeraccount", "apisecret", "clientsecret", "apitoken", "accesstoken",
    "authtoken", "bearertoken", "sessiontoken", "routing", "execution", "execute"]

/-- The words that `strpos` looks for after a replacement, with what is replaced. -/
def replacedWords : List (String × String) :=
  [("token", "tokeniz"), ("secret", "secretar"), ("account", "accounting")]

def refused (candidate : List Char) : Bool :=
  (forbiddenWords.any fun word => TextSearch.contains word.toList candidate) ||
    replacedWords.any fun (word, replaced) =>
      TextSearch.contains word.toList (TextSearch.replaceAll replaced.toList ['#'] candidate)

/-- `v_locator_candidates` -/
def locatorCandidates (authority : String) (path : List String) : List (List Char) :=
  let paths := path.map normalized
  (normalized authority :: paths) ++ [normalized authority ++ paths.flatten, paths.flatten]

/-- The checks of `v_locator`. -/
def checkLocator (locator : Option Json) : Except Raised Unit := do
  let raised := invalid "canonical revision evidence locator is invalid"
  let pathRaised := invalid "canonical revision evidence locator path is invalid"
  checkObject locator ["kind", "authority", "path"]
    [("kind", fun s => decide (s ∈ ["https", "dataset", "document", "block"])), ("authority", isAuthority)]
    [unlike .array (get locator "path")] raised
  let path := itemsOf locator "path"
  require (1 ≤ path.length ∧ path.length ≤ 16) raised
  require (∀ item ∈ path, item.kind = .string) pathRaised
  let components := path.filterMap Jsonb.text
  require (∀ component ∈ components, isPathSegment component = true) pathRaised
  require (∀ candidate ∈ locatorCandidates (textOf locator "authority") components, refused candidate = false)
    pathRaised

/-! ## Evidence -/

structure Seen where
  previousEvidenceId : Option String
  maxEvidenceKnownAt : Option Instant

def checkEvidence (knownAt : Instant) (seen : Seen) (evidence : Json) : Except Raised Seen := do
  require (evidence.kind = .object) (invalid "canonical revision evidence is invalid")
  let reference := get (some evidence) "reference"
  checkObject (some evidence) ["schema_version", "reference", "fetched_at", "known_at", "content_sha256",
      "media_type", "source_revision", "normalization_version"]
    [("schema_version", fun s => decide (s = "security-master-evidence-v1")), ("fetched_at", isTimestamp),
      ("known_at", isTimestamp), ("content_sha256", isSha256), ("source_revision", isVersion),
      ("normalization_version", isVersion), ("media_type", fun s => decide (s ∈ ["application/json",
        "application/pdf", "text/csv", "text/html", "text/plain"]))]
    [unlike .object reference] (invalid "canonical revision evidence descriptor is invalid")
  let locator := get reference "locator"
  checkObject reference ["evidence_id", "source", "locator", "observed_at", "schema_version"]
    [("evidence_id", isUuid),
      ("source", fun s => decide (s ∈ ["market_data", "news", "filing", "on_chain", "research"])),
      ("observed_at", isTimestamp), ("schema_version", isVersion)]
    [unlike .object locator] (invalid "canonical revision evidence reference is invalid")
  checkLocator locator
  let evidenceId := textOf reference "evidence_id"
  require (∀ previous ∈ seen.previousEvidenceId, previous < evidenceId)
    (invalid "canonical revision evidence must be unique and sorted")
  let observedAt ← castTimestamp (textOf reference "observed_at")
  let fetchedAt ← castTimestamp (textOf (some evidence) "fetched_at")
  let evidenceKnownAt ← castTimestamp (textOf (some evidence) "known_at")
  require (observedAt ≤ fetchedAt ∧ fetchedAt ≤ evidenceKnownAt ∧ evidenceKnownAt ≤ knownAt)
    (invalid "canonical revision evidence time is invalid")
  .ok ⟨some evidenceId, some (seen.maxEvidenceKnownAt.elim evidenceKnownAt fun latest => max latest evidenceKnownAt)⟩

/-! ## Payloads -/

structure PayloadKeys where
  (payloadIdentity lookupProvider lookupSymbol relatedSecurityId : Option String)

def checkIssuer (payload : Option Json) : Except Raised PayloadKeys := do
  checkObject payload ["issuer_id", "legal_name", "jurisdiction"]
    [("issuer_id", isUuid), ("legal_name", isPlainText 256), ("jurisdiction", isToken)] []
    (invalid "ISSUER payload is invalid")
  .ok ⟨getText payload "issuer_id", none, none, none⟩

def checkAsset (payload : Option Json) : Except Raised PayloadKeys := do
  checkObject payload ["asset_id", "code", "asset_kind", "issuer_id"]
    [("asset_id", isUuid), ("issuer_id", isUuid), ("code", isToken),
      ("asset_kind", fun s => decide (s ∈ ["FIAT", "CRYPTO", "EQUITY"]))] []
    (invalid "ASSET payload is invalid")
  .ok ⟨getText payload "asset_id", none, none, none⟩

def checkSecurity (payload : Option Json) : Except Raised PayloadKeys := do
  checkObject payload ["security_id", "product_type", "primary_asset_id"]
    [("security_id", isUuid), ("primary_asset_id", isUuid),
      ("product_type", fun s => decide (s ∈ ["crypto_spot", "equity"]))] []
    (invalid "SECURITY payload is invalid")
  .ok ⟨getText payload "security_id", none, none, none⟩

def checkVenue (payload : Option Json) : Except Raised PayloadKeys := do
  checkObject payload ["venue_id", "code", "mic", "timezone"]
    [("venue_id", isUuid), ("code", isToken), ("mic", isMic), ("timezone", isTimezone)] []
    (invalid "VENUE payload is invalid")
  .ok ⟨getText payload "venue_id", none, none, none⟩

/-- `(payload ->> low)::numeric > (payload ->> high)::numeric` -/
def exceeds (payload : Option Json) (low high : String) : Truth :=
  relate (fun x y => decide (Nautilus.readUnsigned y.toList < Nautilus.readUnsigned x.toList)) (getText payload low)
    (getText payload high)

def checkListing (payload : Option Json) : Except Raised PayloadKeys := do
  checkObject payload ["listing_id", "security_id", "venue_id", "quote_asset_id", "session_calendar", "tick_size",
      "size_increment", "minimum_quantity", "maximum_quantity", "minimum_notional", "maximum_notional"]
    [("listing_id", isUuid), ("security_id", isUuid), ("venue_id", isUuid), ("quote_asset_id", isUuid),
      ("session_calendar", isToken), ("tick_size", isPositiveDecimal), ("size_increment", isPositiveDecimal),
      ("minimum_quantity", isPositiveDecimal), ("maximum_quantity", isPositiveDecimal),
      ("minimum_notional", isPositiveDecimal), ("maximum_notional", isPositiveDecimal)]
    [exceeds payload "minimum_quantity" "maximum_quantity", exceeds payload "minimum_notional" "maximum_notional"]
    (invalid "LISTING payload is invalid")
  .ok ⟨getText payload "listing_id", none, none, none⟩

def checkSymbolMapping (payload : Option Json) : Except Raised PayloadKeys := do
  checkObject payload ["mapping_id", "provider", "raw_symbol", "canonical_symbol", "listing_id"]
    [("mapping_id", isUuid), ("listing_id", isUuid), ("provider", isToken), ("canonical_symbol", isToken),
      ("raw_symbol", isPlainText 128)] []
    (invalid "SYMBOL_MAPPING payload is invalid")
  .ok ⟨getText payload "mapping_id", getText payload "provider", getText payload "raw_symbol", none⟩

def checkSplit (payload : Option Json) : Except Raised Unit :=
  checkObject payload ["action_id", "security_id", "action_type", "new_units", "old_units"]
    [("new_units", isPositiveDecimal), ("old_units", isPositiveDecimal)] [] (invalid "SPLIT payload is invalid")

def checkCashDividend (payload : Option Json) : Except Raised Unit :=
  checkObject payload ["action_id", "security_id", "action_type", "amount", "currency_asset_id"]
    [("amount", isPositiveDecimal), ("currency_asset_id", isUuid)] [] (invalid "CASH_DIVIDEND payload is invalid")

def checkSymbolChange (payload : Option Json) : Except Raised Unit :=
  checkObject payload ["action_id", "security_id", "action_type", "old_mapping_id", "new_mapping_id"]
    [("old_mapping_id", isUuid), ("new_mapping_id", isUuid)]
    [eq (getText payload "old_mapping_id") (getText payload "new_mapping_id")]
    (invalid "SYMBOL_CHANGE payload is invalid")

def checkDelisting (payload : Option Json) : Except Raised Unit :=
  checkObject payload ["action_id", "security_id", "action_type", "listing_id"] [("listing_id", isUuid)] []
    (invalid "DELISTING payload is invalid")

def checkAction (payload : Option Json) : Except Raised Unit :=
  if holds (eq (getText payload "action_type") (some "SPLIT")) then checkSplit payload
  else if holds (eq (getText payload "action_type") (some "CASH_DIVIDEND")) then checkCashDividend payload
  else if holds (eq (getText payload "action_type") (some "SYMBOL_CHANGE")) then checkSymbolChange payload
  else checkDelisting payload

def checkCorporateAction (effectiveTo : Option Instant) (payload : Option Json) : Except Raised PayloadKeys := do
  require (¬ holds (anyOf [some effectiveTo.isSome, wrongText payload "action_id" isUuid,
    wrongText payload "security_id" isUuid, wrongText payload "action_type" fun s =>
      decide (s ∈ ["SPLIT", "CASH_DIVIDEND", "SYMBOL_CHANGE", "DELISTING"])]))
    (invalid "CORPORATE_ACTION payload is invalid")
  checkAction payload
  .ok ⟨getText payload "action_id", none, none, getText payload "security_id"⟩

def checkKind (subjectKind : String) (effectiveTo : Option Instant) (payload : Option Json) :
    Except Raised PayloadKeys :=
  if subjectKind = "ISSUER" then checkIssuer payload
  else if subjectKind = "ASSET" then checkAsset payload
  else if subjectKind = "SECURITY" then checkSecurity payload
  else if subjectKind = "VENUE" then checkVenue payload
  else if subjectKind = "LISTING" then checkListing payload
  else if subjectKind = "SYMBOL_MAPPING" then checkSymbolMapping payload
  else checkCorporateAction effectiveTo payload

/-- The checks of `v_payload`. -/
def checkPayload (subjectId subjectKind operation : String) (revisionOrdinal : ℕ) (effectiveTo : Option Instant)
    (payload : Option Json) : Except Raised PayloadKeys :=
  if operation = "RETRACT" then do
    require (¬ holds (ThreeValued.or (unlike .null payload) (some (decide (revisionOrdinal = 1)))))
      (invalid "RETRACT revision shape is invalid")
    .ok ⟨none, none, none, none⟩
  else do
    require (¬ holds (unlike .object payload)) (invalid "ASSERT payload is invalid")
    let keys ← checkKind subjectKind effectiveTo payload
    require (keys.payloadIdentity = some subjectId) (invalid "payload subject identity is invalid")
    .ok keys

/-! ## Revisions -/

structure Checked where
  payload : Option Json
  (revisionId factId subjectId subjectKind : String)
  revisionOrdinal : ℕ
  operation : String
  effectiveFrom : Instant
  effectiveTo : Option Instant
  knownAt : Instant
  (supersedesRevisionId lookupProvider lookupSymbol relatedSecurityId : Option String)

def readRevision (text : String) : Except Raised Json := do
  require (octetLength text ≤ 1048576) (invalid "canonical revision exceeds the supported bound")
  let revision ← rescue (jsonbOf text) (invalid "canonical revision JSON is invalid")
  let canonical ← canonicalDomainJsonString text
  require (¬ holds (ThreeValued.or (distinct (some text) (some canonical)) (unlike .object (some revision))))
    (invalid "canonical revision encoding is invalid")
  .ok revision

/-- `^[1-9][0-9]{0,3}$` -/
def isOrdinal (text : String) : Bool :=
  JobPlane.formatted (fun c => c.isDigit && c != '0') Char.isDigit 0 3 text

/-- The keys of a revision and the types and spellings of its scalars. -/
def checkShape (revision : Option Json) : Except Raised Unit := do
  checkObject revision ["schema_version", "revision_id", "fact_id", "subject_id", "subject_kind",
      "revision_ordinal", "operation", "effective_from", "effective_to", "known_at", "supersedes_revision_id",
      "evidence", "payload"] []
    [ne (getText revision "schema_version") (some "security-master-revision-v1"),
      unlike .string (get revision "revision_id"), unlike .string (get revision "fact_id"),
      unlike .string (get revision "subject_id"), unlike .string (get revision "subject_kind"),
      unlike .number (get revision "revision_ordinal"), unlike .string (get revision "operation"),
      unlike .string (get revision "effective_from"), unlike .string (get revision "known_at"),
      unlike .array (get revision "evidence")]
    (invalid "canonical revision shape is invalid")
  require (¬ holds (anyOf [unmatched isUuid (getText revision "revision_id"),
      unmatched isUuid (getText revision "fact_id"), unmatched isUuid (getText revision "subject_id"),
      unmatched isOrdinal (getText revision "revision_ordinal"),
      unmatched isTimestamp (getText revision "effective_from"), unmatched isTimestamp (getText revision "known_at")]))
    (invalid "canonical revision scalar spelling is invalid")

/-- `v_effective_to` -/
def readEffectiveTo (revision : Option Json) : Except Raised (Option Instant) :=
  let value := get revision "effective_to"
  if holds (Jsonb.isKind .null value) then .ok none
  else if holds (allOf [Jsonb.isKind .string value, test isTimestamp (getText revision "effective_to")]) then
    (castTimestamp (textOf revision "effective_to")).map some
  else .error (invalid "canonical revision effective_to is invalid")

/-- `v_supersedes_revision_id` -/
def readPredecessor (revision : Option Json) : Except Raised (Option String) :=
  let value := get revision "supersedes_revision_id"
  if holds (Jsonb.isKind .null value) then .ok none
  else if holds (allOf [Jsonb.isKind .string value, test isUuid (getText revision "supersedes_revision_id")]) then
    .ok (getText revision "supersedes_revision_id")
  else .error (invalid "canonical revision predecessor is invalid")

def checkRevision (value : Json) : Except Raised Checked := do
  let revision := some value
  checkShape revision
  let subjectId := textOf revision "subject_id"
  let subjectKind := textOf revision "subject_kind"
  let revisionOrdinal := DigitText.readDigits (textOf revision "revision_ordinal").toList
  let operation := textOf revision "operation"
  let effectiveFrom ← castTimestamp (textOf revision "effective_from")
  let knownAt ← castTimestamp (textOf revision "known_at")
  let effectiveTo ← readEffectiveTo revision
  let supersedesRevisionId ← readPredecessor revision
  require (subjectKind ∈ ["ISSUER", "ASSET", "SECURITY", "VENUE", "LISTING", "SYMBOL_MAPPING", "CORPORATE_ACTION"] ∧
      operation ∈ ["ASSERT", "RETRACT"] ∧ (1 ≤ revisionOrdinal ∧ revisionOrdinal ≤ 4096) ∧
      ∀ t ∈ effectiveTo, effectiveFrom < t)
    (invalid "canonical revision domain scalar is invalid")
  let evidence := itemsOf revision "evidence"
  require (1 ≤ evidence.length ∧ evidence.length ≤ 16) (invalid "canonical revision evidence count is invalid")
  let seen ← evidence.foldlM (checkEvidence knownAt) ⟨none, none⟩
  require (some knownAt = seen.maxEvidenceKnownAt) (invalid "revision known_at must equal maximum evidence known_at")
  let payload := get revision "payload"
  let keys ← checkPayload subjectId subjectKind operation revisionOrdinal effectiveTo payload
  .ok ⟨payload, textOf revision "revision_id", textOf revision "fact_id", subjectId, subjectKind, revisionOrdinal,
    operation, effectiveFrom, effectiveTo, knownAt, supersedesRevisionId, keys.lookupProvider, keys.lookupSymbol,
    keys.relatedSecurityId⟩

def validate (text : String) : Except Raised Checked := do
  let revision ← readRevision text
  checkRevision revision

end TradingAgent.SecurityMaster.Validation
