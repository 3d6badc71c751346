import TradingAgent.SecurityMaster.Models

/-!
# Revision documents

The JSON documents of the revision models, member by member in key order. `revision.text` is
`canonical_revision_bytes`.
-/

namespace TradingAgent.SecurityMaster.Documents

/-! ## Scalars -/

def uuid : Codec UuidText := Codec.matching _ 36 fun _ => printable_of_isUuid

def token : Codec Token := Codec.matching _ 64 fun _ => printable_of_isToken

def version : Codec Version := Codec.matching _ 64 fun _ => printable_of_isVersion

def sha256 : Codec Sha256Text := Codec.matching _ 64 fun _ => printable_of_isSha256

def plainText (n : ℕ) : Codec (PlainText n) := Codec.matching _ n fun _ => printable_of_isPlainText

def positiveDecimal : Codec PositiveDecimalText := Codec.matching _ 128 fun _ => printable_of_isPositiveDecimal

/-- `CanonicalUtcDateTime` -/
def instant : Codec Instant :=
  Codec.ofText Nautilus.instantText Nautilus.parseInstant 27 (fun _ => Nautilus.parseInstant_eq_some_iff.2 rfl)
    (fun h => Nautilus.parseInstant_eq_some_iff.1 h) printable_instantText Nautilus.length_instantText

def identityKind : Codec IdentityKind :=
  Codec.enum [.issuer, .asset, .security, .venue, .listing, .symbolMapping, .corporateAction] IdentityKind.value 16
    (by intro a; cases a <;> decide) (by decide) (by decide)

def operation : Codec Operation :=
  Codec.enum [.assert, .retract] Operation.value 7 (by intro a; cases a <;> decide) (by decide) (by decide)

def assetKind : Codec AssetKind :=
  Codec.enum [.fiat, .crypto, .equity] AssetKind.value 6 (by intro a; cases a <;> decide) (by decide) (by decide)

def productType : Codec ProductType :=
  Codec.enum [.cryptoSpot, .equity] ProductType.value 11 (by intro a; cases a <;> decide) (by decide) (by decide)

def evidenceSource : Codec EvidenceSource :=
  Codec.enum [.marketData, .news, .filing, .onChain, .research] EvidenceSource.value 11
    (by intro a; cases a <;> decide) (by decide) (by decide)

def locatorKind : Codec EvidenceLocatorKind :=
  Codec.enum [.https, .dataset, .document, .block] EvidenceLocatorKind.value 8
    (by intro a; cases a <;> decide) (by decide) (by decide)

def mediaType : Codec MediaType :=
  Codec.enum [.json, .pdf, .csv, .html, .plain] MediaType.value 16 (by intro a; cases a <;> decide)
    (by decide) (by decide)

/-! ## Evidence -/

/-- `EvidenceLocator` -/
def locatorFields : Fields ({s : String // isAuthority s = true} × EvidenceLocatorKind ×
    {segments : List {s : String // isPathSegment s = true} // 1 ≤ segments.length ∧ segments.length ≤ 16} × Unit) :=
  .cons "authority" (by decide) (Codec.matching _ 128 fun _ => printable_of_isAuthority) <|
  .cons "kind" (by decide) locatorKind <|
  .cons "path" (by decide) ((Codec.matching _ 64 fun _ => printable_of_isPathSegment).list 1 16) .nil

def locator : Codec LocatorDocument :=
  (locatorFields.object (by decide)).refine (fun (a, k, p, ()) => some ⟨k, a, p⟩)
    (fun l => (l.authority, l.kind, l.path, ())) (fun _ => rfl) (by rintro _ _ ⟨⟩; rfl)

/-- `EvidenceReference` -/
def referenceFields : Fields (UuidText × LocatorDocument × Instant × Version × EvidenceSource × Unit) :=
  .cons "evidence_id" (by decide) uuid <|
  .cons "locator" (by decide) locator <|
  .cons "observed_at" (by decide) instant <|
  .cons "schema_version" (by decide) version <|
  .cons "source" (by decide) evidenceSource .nil

def reference : Codec ReferenceDocument :=
  (referenceFields.object (by decide)).refine (fun (i, l, o, v, s, ()) => some ⟨i, s, l, o, v⟩)
    (fun r => (r.evidenceId, r.locator, r.observedAt, r.schemaVersion, r.source, ())) (fun _ => rfl)
    (by rintro _ _ ⟨⟩; rfl)

/-- `SecurityMasterEvidenceV1` -/
def evidenceFields : Fields (Sha256Text × Instant × Instant × MediaType × Version × ReferenceDocument × Unit ×
    Version × Unit) :=
  .cons "content_sha256" (by decide) sha256 <|
  .cons "fetched_at" (by decide) instant <|
  .cons "known_at" (by decide) instant <|
  .cons "media_type" (by decide) mediaType <|
  .cons "normalization_version" (by decide) version <|
  .cons "reference" (by decide) reference <|
  .cons "schema_version" (by decide) (Codec.literal "security-master-evidence-v1" (by decide)) <|
  .cons "source_revision" (by decide) version .nil

def evidence : Codec EvidenceDocument :=
  (evidenceFields.object (by decide)).refine (fun (c, f, k, m, n, r, (), s, ()) => some ⟨r, f, k, c, m, s, n⟩)
    (fun e => (e.contentSha256, e.fetchedAt, e.knownAt, e.mediaType, e.normalizationVersion, e.reference, (),
      e.sourceRevision, ())) (fun _ => rfl) (by rintro _ _ ⟨⟩; rfl)

/-! ## Payloads -/

def issuerFields : Fields (UuidText × Token × PlainText 256 × Unit) :=
  .cons "issuer_id" (by decide) uuid <|
  .cons "jurisdiction" (by decide) token <|
  .cons "legal_name" (by decide) (plainText 256) .nil

def issuer : Codec IssuerPayload :=
  (issuerFields.object (by decide)).refine (fun (i, j, l, ()) => some ⟨i, l, j⟩)
    (fun p => (p.issuerId, p.jurisdiction, p.legalName, ())) (fun _ => rfl) (by rintro _ _ ⟨⟩; rfl)

def assetFields : Fields (UuidText × AssetKind × Token × UuidText × Unit) :=
  .cons "asset_id" (by decide) uuid <|
  .cons "asset_kind" (by decide) assetKind <|
  .cons "code" (by decide) token <|
  .cons "issuer_id" (by decide) uuid .nil

def asset : Codec AssetPayload :=
  (assetFields.object (by decide)).refine (fun (a, k, c, i, ()) => some ⟨a, c, k, i⟩)
    (fun p => (p.assetId, p.assetKind, p.code, p.issuerId, ())) (fun _ => rfl) (by rintro _ _ ⟨⟩; rfl)

def securityFields : Fields (UuidText × ProductType × UuidText × Unit) :=
  .cons "primary_asset_id" (by decide) uuid <|
  .cons "product_type" (by decide) productType <|
  .cons "security_id" (by decide) uuid .nil

def security : Codec SecurityPayload :=
  (securityFields.object (by decide)).refine (fun (a, t, s, ()) => some ⟨s, t, a⟩)
    (fun p => (p.primaryAssetId, p.productType, p.securityId, ())) (fun _ => rfl) (by rintro _ _ ⟨⟩; rfl)

def venueFields : Fields (Token × {s : String // isMic s = true} × {s : String // isTimezone s = true} × UuidText ×
    Unit) :=
  .cons "code" (by decide) token <|
  .cons "mic" (by decide) (Codec.matching _ 4 fun _ => printable_of_isMic) <|
  .cons "timezone" (by decide) (Codec.matching _ 64 fun _ => printable_of_isTimezone) <|
  .cons "venue_id" (by decide) uuid .nil

def venue : Codec VenuePayload :=
  (venueFields.object (by decide)).refine (fun (c, m, t, v, ()) => some ⟨v, c, m, t⟩)
    (fun p => (p.code, p.mic, p.timezone, p.venueId, ())) (fun _ => rfl) (by rintro _ _ ⟨⟩; rfl)

def listingFields : Fields (UuidText × PositiveDecimalText × PositiveDecimalText × PositiveDecimalText ×
    PositiveDecimalText × UuidText × UuidText × Token × PositiveDecimalText × PositiveDecimalText × UuidText × Unit) :=
  .cons "listing_id" (by decide) uuid <|
  .cons "maximum_notional" (by decide) positiveDecimal <|
  .cons "maximum_quantity" (by decide) positiveDecimal <|
  .cons "minimum_notional" (by decide) positiveDecimal <|
  .cons "minimum_quantity" (by decide) positiveDecimal <|
  .cons "quote_asset_id" (by decide) uuid <|
  .cons "security_id" (by decide) uuid <|
  .cons "session_calendar" (by decide) token <|
  .cons "size_increment" (by decide) positiveDecimal <|
  .cons "tick_size" (by decide) positiveDecimal <|
  .cons "venue_id" (by decide) uuid .nil

def listing : Codec ListingPayload :=
  (listingFields.object (by decide)).refine (fun (l, maxN, maxQ, minN, minQ, q, s, c, z, t, v, ()) =>
      if h : minQ.value ≤ maxQ.value ∧ minN.value ≤ maxN.value then
        some ⟨l, s, v, q, c, t, z, minQ, maxQ, minN, maxN, h.1, h.2⟩
      else none)
    (fun p => (p.listingId, p.maximumNotional, p.maximumQuantity, p.minimumNotional, p.minimumQuantity,
      p.quoteAssetId, p.securityId, p.sessionCalendar, p.sizeIncrement, p.tickSize, p.venueId, ()))
    (fun p => dif_pos ⟨p.quantity_bounds, p.notional_bounds⟩)
    (by
      rintro ⟨l, maxN, maxQ, minN, minQ, q, s, c, z, t, v, ⟨⟩⟩ p h
      simp only at h
      split_ifs at h
      cases h
      rfl)

def mappingFields : Fields (Token × UuidText × UuidText × Token × PlainText 128 × Unit) :=
  .cons "canonical_symbol" (by decide) token <|
  .cons "listing_id" (by decide) uuid <|
  .cons "mapping_id" (by decide) uuid <|
  .cons "provider" (by decide) token <|
  .cons "raw_symbol" (by decide) (plainText 128) .nil

def mapping : Codec SymbolMappingPayload :=
  (mappingFields.object (by decide)).refine (fun (c, l, m, p, r, ()) => some ⟨m, p, r, c, l⟩)
    (fun p => (p.canonicalSymbol, p.listingId, p.mappingId, p.provider, p.rawSymbol, ())) (fun _ => rfl)
    (by rintro _ _ ⟨⟩; rfl)

def splitFields : Fields (UuidText × Unit × PositiveDecimalText × PositiveDecimalText × UuidText × Unit) :=
  .cons "action_id" (by decide) uuid <|
  .cons "action_type" (by decide) (Codec.literal "SPLIT" (by decide)) <|
  .cons "new_units" (by decide) positiveDecimal <|
  .cons "old_units" (by decide) positiveDecimal <|
  .cons "security_id" (by decide) uuid .nil

def split : Codec SplitPayload :=
  (splitFields.object (by decide)).refine (fun (a, (), n, o, s, ()) => some ⟨a, s, n, o⟩)
    (fun p => (p.actionId, (), p.newUnits, p.oldUnits, p.securityId, ())) (fun _ => rfl) (by rintro _ _ ⟨⟩; rfl)

def dividendFields : Fields (UuidText × Unit × PositiveDecimalText × UuidText × UuidText × Unit) :=
  .cons "action_id" (by decide) uuid <|
  .cons "action_type" (by decide) (Codec.literal "CASH_DIVIDEND" (by decide)) <|
  .cons "amount" (by decide) positiveDecimal <|
  .cons "currency_asset_id" (by decide) uuid <|
  .cons "security_id" (by decide) uuid .nil

def dividend : Codec CashDividendPayload :=
  (dividendFields.object (by decide)).refine (fun (a, (), m, c, s, ()) => some ⟨a, s, m, c⟩)
    (fun p => (p.actionId, (), p.amount, p.currencyAssetId, p.securityId, ())) (fun _ => rfl)
    (by rintro _ _ ⟨⟩; rfl)

def symbolChangeFields : Fields (UuidText × Unit × UuidText × UuidText × UuidText × Unit) :=
  .cons "action_id" (by decide) uuid <|
  .cons "action_type" (by decide) (Codec.literal "SYMBOL_CHANGE" (by decide)) <|
  .cons "new_mapping_id" (by decide) uuid <|
  .cons "old_mapping_id" (by decide) uuid <|
  .cons "security_id" (by decide) uuid .nil

def symbolChange : Codec SymbolChangePayload :=
  (symbolChangeFields.object (by decide)).refine
    (fun (a, (), n, o, s, ()) => if h : o ≠ n then some ⟨a, s, o, n, h⟩ else none)
    (fun p => (p.actionId, (), p.newMappingId, p.oldMappingId, p.securityId, ())) (fun p => dif_pos p.distinct)
    (by
      rintro ⟨a, ⟨⟩, n, o, s, ⟨⟩⟩ p h
      simp only at h
      split_ifs at h
      cases h
      rfl)

def delistingFields : Fields (UuidText × Unit × UuidText × UuidText × Unit) :=
  .cons "action_id" (by decide) uuid <|
  .cons "action_type" (by decide) (Codec.literal "DELISTING" (by decide)) <|
  .cons "listing_id" (by decide) uuid <|
  .cons "security_id" (by decide) uuid .nil

def delisting : Codec DelistingPayload :=
  (delistingFields.object (by decide)).refine (fun (a, (), l, s, ()) => some ⟨a, s, l⟩)
    (fun p => (p.actionId, (), p.listingId, p.securityId, ())) (fun _ => rfl) (by rintro _ _ ⟨⟩; rfl)

/-! ### The union of the payloads

The payloads are told apart by their members. -/

theorem issuer_shaped : issuer.Shaped [issuerFields.keys] :=
  (Codec.shaped_object issuerFields (by decide)).of_encode fun _ => rfl

theorem asset_shaped : asset.Shaped [assetFields.keys] :=
  (Codec.shaped_object assetFields (by decide)).of_encode fun _ => rfl

theorem security_shaped : security.Shaped [securityFields.keys] :=
  (Codec.shaped_object securityFields (by decide)).of_encode fun _ => rfl

theorem venue_shaped : venue.Shaped [venueFields.keys] :=
  (Codec.shaped_object venueFields (by decide)).of_encode fun _ => rfl

theorem listing_shaped : listing.Shaped [listingFields.keys] :=
  (Codec.shaped_object listingFields (by decide)).of_encode fun _ => rfl

theorem mapping_shaped : mapping.Shaped [mappingFields.keys] :=
  (Codec.shaped_object mappingFields (by decide)).of_encode fun _ => rfl

theorem split_shaped : split.Shaped [splitFields.keys] :=
  (Codec.shaped_object splitFields (by decide)).of_encode fun _ => rfl

theorem dividend_shaped : dividend.Shaped [dividendFields.keys] :=
  (Codec.shaped_object dividendFields (by decide)).of_encode fun _ => rfl

theorem symbolChange_shaped : symbolChange.Shaped [symbolChangeFields.keys] :=
  (Codec.shaped_object symbolChangeFields (by decide)).of_encode fun _ => rfl

theorem delisting_shaped : delisting.Shaped [delistingFields.keys] :=
  (Codec.shaped_object delistingFields (by decide)).of_encode fun _ => rfl

def fromSymbolChange : Codec (SymbolChangePayload ⊕ DelistingPayload) :=
  symbolChange.sum delisting (symbolChange_shaped.decode_eq_none delisting_shaped (by decide))

theorem fromSymbolChange_shaped : fromSymbolChange.Shaped [symbolChangeFields.keys, delistingFields.keys] :=
  symbolChange_shaped.sum delisting_shaped _

def fromDividend : Codec (CashDividendPayload ⊕ SymbolChangePayload ⊕ DelistingPayload) :=
  dividend.sum fromSymbolChange (dividend_shaped.decode_eq_none fromSymbolChange_shaped (by decide))

theorem fromDividend_shaped :
    fromDividend.Shaped [dividendFields.keys, symbolChangeFields.keys, delistingFields.keys] :=
  dividend_shaped.sum fromSymbolChange_shaped _

def fromSplit : Codec (SplitPayload ⊕ CashDividendPayload ⊕ SymbolChangePayload ⊕ DelistingPayload) :=
  split.sum fromDividend (split_shaped.decode_eq_none fromDividend_shaped (by decide))

theorem fromSplit_shaped : fromSplit.Shaped
    [splitFields.keys, dividendFields.keys, symbolChangeFields.keys, delistingFields.keys] :=
  split_shaped.sum fromDividend_shaped _

def fromMapping : Codec (SymbolMappingPayload ⊕ SplitPayload ⊕ CashDividendPayload ⊕ SymbolChangePayload ⊕
    DelistingPayload) :=
  mapping.sum fromSplit (mapping_shaped.decode_eq_none fromSplit_shaped (by decide))

theorem fromMapping_shaped : fromMapping.Shaped [mappingFields.keys, splitFields.keys, dividendFields.keys,
    symbolChangeFields.keys, delistingFields.keys] :=
  mapping_shaped.sum fromSplit_shaped _

def fromListing : Codec (ListingPayload ⊕ SymbolMappingPayload ⊕ SplitPayload ⊕ CashDividendPayload ⊕
    SymbolChangePayload ⊕ DelistingPayload) :=
  listing.sum fromMapping (listing_shaped.decode_eq_none fromMapping_shaped (by decide))

theorem fromListing_shaped : fromListing.Shaped [listingFields.keys, mappingFields.keys, splitFields.keys,
    dividendFields.keys, symbolChangeFields.keys, delistingFields.keys] :=
  listing_shaped.sum fromMapping_shaped _

def fromVenue : Codec (VenuePayload ⊕ ListingPayload ⊕ SymbolMappingPayload ⊕ SplitPayload ⊕ CashDividendPayload ⊕
    SymbolChangePayload ⊕ DelistingPayload) :=
  venue.sum fromListing (venue_shaped.decode_eq_none fromListing_shaped (by decide))

theorem fromVenue_shaped : fromVenue.Shaped [venueFields.keys, listingFields.keys, mappingFields.keys,
    splitFields.keys, dividendFields.keys, symbolChangeFields.keys, delistingFields.keys] :=
  venue_shaped.sum fromListing_shaped _

def fromSecurity : Codec (SecurityPayload ⊕ VenuePayload ⊕ ListingPayload ⊕ SymbolMappingPayload ⊕ SplitPayload ⊕
    CashDividendPayload ⊕ SymbolChangePayload ⊕ DelistingPayload) :=
  security.sum fromVenue (security_shaped.decode_eq_none fromVenue_shaped (by decide))

theorem fromSecurity_shaped : fromSecurity.Shaped [securityFields.keys, venueFields.keys, listingFields.keys,
    mappingFields.keys, splitFields.keys, dividendFields.keys, symbolChangeFields.keys, delistingFields.keys] :=
  security_shaped.sum fromVenue_shaped _

def fromAsset : Codec (AssetPayload ⊕ SecurityPayload ⊕ VenuePayload ⊕ ListingPayload ⊕ SymbolMappingPayload ⊕
    SplitPayload ⊕ CashDividendPayload ⊕ SymbolChangePayload ⊕ DelistingPayload) :=
  asset.sum fromSecurity (asset_shaped.decode_eq_none fromSecurity_shaped (by decide))

theorem fromAsset_shaped : fromAsset.Shaped [assetFields.keys, securityFields.keys, venueFields.keys,
    listingFields.keys, mappingFields.keys, splitFields.keys, dividendFields.keys, symbolChangeFields.keys,
    delistingFields.keys] :=
  asset_shaped.sum fromSecurity_shaped _

def fromIssuer : Codec (IssuerPayload ⊕ AssetPayload ⊕ SecurityPayload ⊕ VenuePayload ⊕ ListingPayload ⊕
    SymbolMappingPayload ⊕ SplitPayload ⊕ CashDividendPayload ⊕ SymbolChangePayload ⊕ DelistingPayload) :=
  issuer.sum fromAsset (issuer_shaped.decode_eq_none fromAsset_shaped (by decide))

theorem fromIssuer_shaped : fromIssuer.Shaped [issuerFields.keys, assetFields.keys, securityFields.keys,
    venueFields.keys, listingFields.keys, mappingFields.keys, splitFields.keys, dividendFields.keys,
    symbolChangeFields.keys, delistingFields.keys] :=
  issuer_shaped.sum fromAsset_shaped _

def ofPayload : Payload → IssuerPayload ⊕ AssetPayload ⊕ SecurityPayload ⊕ VenuePayload ⊕ ListingPayload ⊕
    SymbolMappingPayload ⊕ SplitPayload ⊕ CashDividendPayload ⊕ SymbolChangePayload ⊕ DelistingPayload
  | .issuer p => .inl p
  | .asset p => .inr (.inl p)
  | .security p => .inr (.inr (.inl p))
  | .venue p => .inr (.inr (.inr (.inl p)))
  | .listing p => .inr (.inr (.inr (.inr (.inl p))))
  | .symbolMapping p => .inr (.inr (.inr (.inr (.inr (.inl p)))))
  | .split p => .inr (.inr (.inr (.inr (.inr (.inr (.inl p))))))
  | .cashDividend p => .inr (.inr (.inr (.inr (.inr (.inr (.inr (.inl p)))))))
  | .symbolChange p => .inr (.inr (.inr (.inr (.inr (.inr (.inr (.inr (.inl p))))))))
  | .delisting p => .inr (.inr (.inr (.inr (.inr (.inr (.inr (.inr (.inr p))))))))

def toPayload : IssuerPayload ⊕ AssetPayload ⊕ SecurityPayload ⊕ VenuePayload ⊕ ListingPayload ⊕
    SymbolMappingPayload ⊕ SplitPayload ⊕ CashDividendPayload ⊕ SymbolChangePayload ⊕ DelistingPayload → Payload
  | .inl p => .issuer p
  | .inr (.inl p) => .asset p
  | .inr (.inr (.inl p)) => .security p
  | .inr (.inr (.inr (.inl p))) => .venue p
  | .inr (.inr (.inr (.inr (.inl p)))) => .listing p
  | .inr (.inr (.inr (.inr (.inr (.inl p))))) => .symbolMapping p
  | .inr (.inr (.inr (.inr (.inr (.inr (.inl p)))))) => .split p
  | .inr (.inr (.inr (.inr (.inr (.inr (.inr (.inl p))))))) => .cashDividend p
  | .inr (.inr (.inr (.inr (.inr (.inr (.inr (.inr (.inl p)))))))) => .symbolChange p
  | .inr (.inr (.inr (.inr (.inr (.inr (.inr (.inr (.inr p)))))))) => .delisting p

theorem toPayload_ofPayload (p : Payload) : toPayload (ofPayload p) = p := by cases p <;> rfl

theorem ofPayload_toPayload : ∀ x, ofPayload (toPayload x) = x
  | .inl _ => rfl
  | .inr (.inl _) => rfl
  | .inr (.inr (.inl _)) => rfl
  | .inr (.inr (.inr (.inl _))) => rfl
  | .inr (.inr (.inr (.inr (.inl _)))) => rfl
  | .inr (.inr (.inr (.inr (.inr (.inl _))))) => rfl
  | .inr (.inr (.inr (.inr (.inr (.inr (.inl _)))))) => rfl
  | .inr (.inr (.inr (.inr (.inr (.inr (.inr (.inl _))))))) => rfl
  | .inr (.inr (.inr (.inr (.inr (.inr (.inr (.inr (.inl _)))))))) => rfl
  | .inr (.inr (.inr (.inr (.inr (.inr (.inr (.inr (.inr _)))))))) => rfl

/-- `SecurityMasterPayloadV1` -/
def payload : Codec Payload :=
  fromIssuer.refine (fun x => some (toPayload x)) ofPayload (fun p => by rw [toPayload_ofPayload])
    (fun {a b} h => by rw [← Option.some.inj h, ofPayload_toPayload])

theorem payload_shaped : payload.Shaped [issuerFields.keys, assetFields.keys, securityFields.keys, venueFields.keys,
    listingFields.keys, mappingFields.keys, splitFields.keys, dividendFields.keys, symbolChangeFields.keys,
    delistingFields.keys] :=
  fromIssuer_shaped.of_encode fun _ => rfl

/-! ## Revisions -/

/-- `SecurityMasterRevisionV1` -/
def revisionFields : Fields (Instant × Option Instant ×
    {items : List EvidenceDocument // 1 ≤ items.length ∧ items.length ≤ 16} × UuidText × Instant × Operation ×
    Option Payload × UuidText × {n : ℕ // 1 ≤ n ∧ n ≤ 4096} × Option Unit × UuidText × IdentityKind ×
    Option UuidText × Unit) :=
  .cons "effective_from" (by decide) instant <|
  .cons "effective_to" (by decide) (instant.nullable fun _ => Json.noConfusion) <|
  .cons "evidence" (by decide) (evidence.list 1 16) <|
  .cons "fact_id" (by decide) uuid <|
  .cons "known_at" (by decide) instant <|
  .cons "operation" (by decide) operation <|
  .cons "payload" (by decide) (payload.nullable payload_shaped.ne_null) <|
  .cons "revision_id" (by decide) uuid <|
  .cons "revision_ordinal" (by decide) (Codec.range 1 4096 4 (by decide)) <|
  .cons "schema_version" (by decide)
    ((Codec.literal "security-master-revision-v1" (by decide)).nullable fun _ => Json.noConfusion) <|
  .cons "subject_id" (by decide) uuid <|
  .cons "subject_kind" (by decide) identityKind <|
  .cons "supersedes_revision_id" (by decide) (uuid.nullable fun _ => Json.noConfusion) .nil

def revision : Codec RevisionDocument :=
  (revisionFields.object (by decide)).refine
    (fun (ef, et, e, f, k, o, p, r, n, v, s, sk, sup, ()) => some ⟨v, r, f, s, sk, n, o, ef, et, k, sup, e, p⟩)
    (fun r => (r.effectiveFrom, r.effectiveTo, r.evidence, r.factId, r.knownAt, r.operation, r.payload, r.revisionId,
      r.revisionOrdinal, r.schemaVersion, r.subjectId, r.subjectKind, r.supersedesRevisionId, ()))
    (fun _ => rfl) (by rintro _ _ ⟨⟩; rfl)

end TradingAgent.SecurityMaster.Documents
