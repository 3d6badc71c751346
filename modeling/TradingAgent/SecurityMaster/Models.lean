import TradingAgent.Lib.TextSearch
import TradingAgent.SecurityMaster.Texts

/-!
# Security-master revisions

The revision models of `security_master/models.py` and the evidence locators of `domain/signals.py`. A
`RevisionDocument` has the members and the spellings of a revision; a `SecurityMasterRevision` also passes the
validators.
-/

namespace TradingAgent.SecurityMaster

open JobPlane (isSha256)
open AlphaCampaign (isUuid)

/-- A `UUID`, by its canonical text. -/
abbrev UuidText : Type := {s : String // isUuid s = true}

abbrev Token : Type := {s : String // isToken s = true}

abbrev Version : Type := {s : String // isVersion s = true}

/-- `Sha256Hex` -/
abbrev Sha256Text : Type := {s : String // isSha256 s = true}

/-- A text that `_text` admits. -/
abbrev PlainText (n : ℕ) : Type := {s : String // isPlainText n s = true}

abbrev PositiveDecimalText : Type := {s : String // isPositiveDecimal s = true}

def PositiveDecimalText.value (d : PositiveDecimalText) : Decimal := Nautilus.readUnsigned d.1.toList

/-- `SecurityMasterIdentityKind` -/
inductive IdentityKind
  | issuer
  | asset
  | security
  | venue
  | listing
  | symbolMapping
  | corporateAction
  deriving DecidableEq

def IdentityKind.value : IdentityKind → String
  | issuer => "ISSUER"
  | asset => "ASSET"
  | security => "SECURITY"
  | venue => "VENUE"
  | listing => "LISTING"
  | symbolMapping => "SYMBOL_MAPPING"
  | corporateAction => "CORPORATE_ACTION"

/-- `SecurityMasterOperation` -/
inductive Operation
  | assert
  | retract
  deriving DecidableEq

def Operation.value : Operation → String
  | assert => "ASSERT"
  | retract => "RETRACT"

inductive AssetKind
  | fiat
  | crypto
  | equity
  deriving DecidableEq

def AssetKind.value : AssetKind → String
  | fiat => "FIAT"
  | crypto => "CRYPTO"
  | equity => "EQUITY"

inductive EvidenceSource
  | marketData
  | news
  | filing
  | onChain
  | research
  deriving DecidableEq

def EvidenceSource.value : EvidenceSource → String
  | marketData => "market_data"
  | news => "news"
  | filing => "filing"
  | onChain => "on_chain"
  | research => "research"

inductive EvidenceLocatorKind
  | https
  | dataset
  | document
  | block
  deriving DecidableEq

def EvidenceLocatorKind.value : EvidenceLocatorKind → String
  | https => "https"
  | dataset => "dataset"
  | document => "document"
  | block => "block"

inductive MediaType
  | json
  | pdf
  | csv
  | html
  | plain
  deriving DecidableEq

def MediaType.value : MediaType → String
  | json => "application/json"
  | pdf => "application/pdf"
  | csv => "text/csv"
  | html => "text/html"
  | plain => "text/plain"

/-- The members of an `EvidenceLocator`. -/
structure LocatorDocument where
  kind : EvidenceLocatorKind
  authority : {s : String // isAuthority s = true}
  path : {segments : List {s : String // isPathSegment s = true} // 1 ≤ segments.length ∧ segments.length ≤ 16}

/-- The members of an `EvidenceReference`. -/
structure ReferenceDocument where
  evidenceId : UuidText
  source : EvidenceSource
  locator : LocatorDocument
  observedAt : Instant
  schemaVersion : Version

/-- The members of a `SecurityMasterEvidenceV1`. -/
structure EvidenceDocument where
  reference : ReferenceDocument
  (fetchedAt knownAt : Instant)
  contentSha256 : Sha256Text
  mediaType : MediaType
  (sourceRevision normalizationVersion : Version)

/-- `_SENSITIVE_EVIDENCE_WORDS` -/
def sensitiveWords : List String :=
  ["credential", "credentials", "secret", "token", "password", "account", "routing", "execution", "execute"]

/-- `_SENSITIVE_EVIDENCE_COMPOUNDS` -/
def sensitiveCompounds : List String :=
  ["credential", "apikey", "password", "accountid", "accountnumber", "accountrouting", "routingnumber", "ordertype",
    "executioninstruction", "executiontext", "brokeraccount", "apisecret", "clientsecret", "apitoken", "accesstoken",
    "authtoken", "bearertoken", "sessiontoken"]

/-- `_SENSITIVE_EVIDENCE_EMBEDDED_PATTERNS`: a word and what must not follow it. -/
def embeddedPatterns : List (String × String) :=
  [("token", "iz"), ("secret", "ar"), ("account", "ing"), ("routing", ""), ("execution", ""), ("execute", "")]

/-- `re.search` of an embedded pattern. -/
def embeds (candidate : List Char) (pattern : String × String) : Bool :=
  if pattern.2 = "" then TextSearch.contains pattern.1.toList candidate
  else TextSearch.foundUnless pattern.1.toList pattern.2.toList candidate

namespace LocatorDocument

variable (l : LocatorDocument)

/-- `component.lower()` of the authority and the path. -/
def components : List (List Char) :=
  (l.authority.1 :: l.path.1.map Subtype.val).map fun s => s.toList.map Char.toLower

def words : List (List Char) := (l.components.flatMap (TextSearch.words isLowerOrDigit)).filter (· ≠ [])

def normalized : List (List Char) := l.components.map fun cs => cs.filter isLowerOrDigit

def candidates : List (List Char) := l.normalized ++ [l.normalized.flatten, l.normalized.tail.flatten]

/-- `_reject_sensitive_terms` raises. -/
def Sensitive : Prop :=
  (∃ word ∈ l.words, word ∈ sensitiveWords.map String.toList) ∨
    ∃ candidate ∈ l.candidates, candidate ∈ sensitiveWords.map String.toList ∨
      (∃ term ∈ sensitiveCompounds, TextSearch.contains term.toList candidate = true) ∨
      ∃ pattern ∈ embeddedPatterns, embeds candidate pattern = true

end LocatorDocument

/-- The validators of `SecurityMasterEvidenceV1` and its parts. -/
def EvidenceDocument.Valid (e : EvidenceDocument) : Prop :=
  ¬ e.reference.locator.Sensitive ∧ e.reference.observedAt ≤ e.fetchedAt ∧ e.fetchedAt ≤ e.knownAt

structure IssuerPayload where
  issuerId : UuidText
  legalName : PlainText 256
  jurisdiction : Token

structure AssetPayload where
  assetId : UuidText
  code : Token
  assetKind : AssetKind
  issuerId : UuidText

structure SecurityPayload where
  securityId : UuidText
  productType : ProductType
  primaryAssetId : UuidText

structure VenuePayload where
  venueId : UuidText
  code : Token
  mic : {s : String // isMic s = true}
  timezone : {s : String // isTimezone s = true}

structure ListingPayload where
  (listingId securityId venueId quoteAssetId : UuidText)
  sessionCalendar : Token
  (tickSize sizeIncrement minimumQuantity maximumQuantity minimumNotional : PositiveDecimalText)
  maximumNotional : PositiveDecimalText
  quantity_bounds : minimumQuantity.value ≤ maximumQuantity.value
  notional_bounds : minimumNotional.value ≤ maximumNotional.value

structure SymbolMappingPayload where
  mappingId : UuidText
  provider : Token
  rawSymbol : PlainText 128
  canonicalSymbol : Token
  listingId : UuidText

structure SplitPayload where
  (actionId securityId : UuidText)
  (newUnits oldUnits : PositiveDecimalText)

structure CashDividendPayload where
  (actionId securityId : UuidText)
  amount : PositiveDecimalText
  currencyAssetId : UuidText

structure SymbolChangePayload where
  (actionId securityId oldMappingId newMappingId : UuidText)
  distinct : oldMappingId ≠ newMappingId

structure DelistingPayload where
  (actionId securityId listingId : UuidText)

/-- `SecurityMasterPayloadV1` -/
inductive Payload
  | issuer (payload : IssuerPayload)
  | asset (payload : AssetPayload)
  | security (payload : SecurityPayload)
  | venue (payload : VenuePayload)
  | listing (payload : ListingPayload)
  | symbolMapping (payload : SymbolMappingPayload)
  | split (payload : SplitPayload)
  | cashDividend (payload : CashDividendPayload)
  | symbolChange (payload : SymbolChangePayload)
  | delisting (payload : DelistingPayload)

namespace Payload

/-- `_PAYLOAD_KIND` -/
def kind : Payload → IdentityKind
  | issuer _ => .issuer
  | asset _ => .asset
  | security _ => .security
  | venue _ => .venue
  | listing _ => .listing
  | symbolMapping _ => .symbolMapping
  | split _ | cashDividend _ | symbolChange _ | delisting _ => .corporateAction

/-- `getattr(payload, _PAYLOAD_ID_FIELD[kind])` -/
def identity : Payload → UuidText
  | issuer p => p.issuerId
  | asset p => p.assetId
  | security p => p.securityId
  | venue p => p.venueId
  | listing p => p.listingId
  | symbolMapping p => p.mappingId
  | split p => p.actionId
  | cashDividend p => p.actionId
  | symbolChange p => p.actionId
  | delisting p => p.actionId

def securityId? : Payload → Option UuidText
  | split p => some p.securityId
  | cashDividend p => some p.securityId
  | symbolChange p => some p.securityId
  | delisting p => some p.securityId
  | _ => none

def symbol? : Payload → Option (Token × PlainText 128)
  | symbolMapping p => some (p.provider, p.rawSymbol)
  | _ => none

end Payload

/-- The members of a `SecurityMasterRevisionV1`; `schemaVersion` tells that the schema is named, not null. -/
structure RevisionDocument where
  schemaVersion : Option Unit
  (revisionId factId subjectId : UuidText)
  subjectKind : IdentityKind
  revisionOrdinal : {n : ℕ // 1 ≤ n ∧ n ≤ 4096}
  operation : Operation
  effectiveFrom : Instant
  effectiveTo : Option Instant
  knownAt : Instant
  supersedesRevisionId : Option UuidText
  evidence : {items : List EvidenceDocument // 1 ≤ items.length ∧ items.length ≤ 16}
  payload : Option Payload

namespace RevisionDocument

variable (r : RevisionDocument)

/-- `known_at` is the latest `known_at` of the evidence. -/
def KnowsEvidence : Prop :=
  (∀ e ∈ r.evidence.1, e.knownAt ≤ r.knownAt) ∧ ∃ e ∈ r.evidence.1, e.knownAt = r.knownAt

instance : Decidable r.KnowsEvidence := inferInstanceAs (Decidable (_ ∧ _))

/-- The evidence has distinct identifiers and stands in their order. -/
def EvidenceSorted : Prop := r.evidence.1.Pairwise fun a b => a.reference.evidenceId.1 < b.reference.evidenceId.1

instance : Decidable r.EvidenceSorted := inferInstanceAs (Decidable (List.Pairwise _ _))

def PayloadFits : Prop :=
  match r.operation, r.payload with
  | .retract, none => True
  | .assert, some p => p.kind = r.subjectKind ∧ p.identity = r.subjectId
  | _, _ => False

/-- The validators of `SecurityMasterRevisionV1` and its parts, in the spelling that they leave behind. -/
structure Valid : Prop where
  named : r.schemaVersion = some ()
  evidence_valid : ∀ e ∈ r.evidence.1, e.Valid
  interval : ∀ t ∈ r.effectiveTo, r.effectiveFrom < t
  root : r.revisionOrdinal.1 = 1 → r.supersedesRevisionId = none ∧ r.operation = .assert
  successor : r.revisionOrdinal.1 ≠ 1 → r.supersedesRevisionId ≠ none
  sorted : r.EvidenceSorted
  known : r.KnowsEvidence
  payload_fits : r.PayloadFits
  action_open : r.subjectKind = .corporateAction → r.effectiveTo = none

end RevisionDocument

abbrev SecurityMasterRevision : Type := {r : RevisionDocument // r.Valid}

end TradingAgent.SecurityMaster
