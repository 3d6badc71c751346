import TradingAgent.SecurityMaster.LocatorAgreement

/-! Evidence as the database and as the model checks it. -/

namespace TradingAgent.SecurityMaster

open Outcome ThreeValued Json DigitText
open JobPlane (Raised)
open AlphaCampaign (isUuid)
open Jsonb (get getText typeOf)
open Nautilus (instantText takeDigits takeChar utcOf serializeUtc utcChars instantOf UtcDateTime)

namespace Validation

def fractionOf (microsecond : ℕ) : List Char :=
  if microsecond = 0 then ['Z'] else '.' :: (fixedDigits 6 microsecond ++ ['Z'])

theorem readMicroseconds_fractionOf {n : ℕ} (h : n < 1000000) : readMicroseconds (fractionOf n) = some n := by
  unfold fractionOf
  split_ifs with hzero
  · rw [hzero]
    rfl
  · rw [readMicroseconds, Nautilus.takeDigits_fixedDigits (by omega)]
    rfl

theorem readMicroseconds_eq_some {cs : List Char} {n : ℕ} (h : readMicroseconds cs = some n) :
    n < 1000000 ∧ (cs = fractionOf n ∨ cs = ".000000Z".toList) := by
  unfold readMicroseconds at h
  split at h
  · obtain rfl := Option.some.inj h
    exact ⟨by decide, .inl rfl⟩
  · rename_i rest
    obtain ⟨⟨m, cs⟩, htake, h⟩ := Option.bind_eq_some_iff.1 h
    simp only [Option.ite_none_right_eq_some, Option.some.injEq] at h
    obtain ⟨rfl, rfl⟩ := h
    obtain ⟨hrest, hlt⟩ := Nautilus.takeDigits_eq_some htake
    refine ⟨hlt, ?_⟩
    by_cases hzero : m = 0
    · right
      rw [hrest, hzero]
      decide +kernel
    · left
      rw [fractionOf, if_neg hzero, hrest]
  · cases h

theorem timestampFields_instantText (t : Instant) : timestampFields (instantText t) =
    some ((utcOf t).year, (utcOf t).month, (utcOf t).day, (utcOf t).hour, (utcOf t).minute, (utcOf t).second,
      (utcOf t).microsecond) := by
  obtain ⟨hy, hm, hd, hh, hn, hs, hu⟩ := (utcOf t).valid_bounds
  have hfraction := readMicroseconds_fractionOf hu
  unfold fractionOf at hfraction
  unfold timestampFields instantText serializeUtc
  rw [String.toList_ofList, utcChars, Nautilus.secondChars, Nautilus.takeDigits_fixedDigits (by omega)]
  simp only [Option.bind_eq_bind, Option.bind_some, Nautilus.takeChar_cons]
  rw [Nautilus.takeDigits_fixedDigits (by omega)]
  simp only [Option.bind_some, Nautilus.takeChar_cons]
  rw [Nautilus.takeDigits_fixedDigits (by omega)]
  simp only [Option.bind_some, Nautilus.takeChar_cons]
  rw [Nautilus.takeDigits_fixedDigits (by omega)]
  simp only [Option.bind_some, Nautilus.takeChar_cons]
  rw [Nautilus.takeDigits_fixedDigits (by omega)]
  simp only [Option.bind_some, Nautilus.takeChar_cons]
  rw [Nautilus.takeDigits_fixedDigits (by omega)]
  simp only [Option.bind_some, hfraction]
  rw [if_pos ⟨hh, hn, hs⟩]

variable {t : Instant} {text : String}

theorem eq_instantText (h : isTimestamp text = true) (ht : timestamptz text = some t) : text = instantText t := by
  rw [isTimestamp, Bool.and_eq_true, Bool.not_eq_true', decide_eq_false_iff_not] at h
  obtain ⟨-, hzero⟩ := h
  obtain ⟨⟨year, month, day, hour, minute, second, microsecond⟩, hfields, ht⟩ := Option.bind_eq_some_iff.1 ht
  obtain ⟨u, hu, rfl⟩ := Option.map_eq_some_iff.1 ht
  unfold timestampFields at hfields
  simp only [Option.bind_eq_bind, Option.bind_eq_some_iff, Prod.exists, Option.ite_none_right_eq_some,
    Option.some.injEq, Prod.mk.injEq] at hfields
  obtain ⟨year', c1, h1, c2, h2, month', c3, h3, c4, h4, day', c5, h5, c6, h6, hour', c7, h7, c8, h8, minute', c9, h9,
    c10, h10, second', c11, h11, microsecond', hmicro, -, rfl, rfl, rfl, rfl, rfl, rfl, rfl⟩ := hfields
  unfold UtcDateTime.of? at hu
  split_ifs at hu with hvalid
  obtain rfl := Option.some.inj hu
  obtain ⟨-, hfraction⟩ := readMicroseconds_eq_some hmicro
  have htext : text.toList = fixedDigits 4 year' ++ '-' :: (fixedDigits 2 month' ++ '-' :: (fixedDigits 2 day' ++
      'T' :: (fixedDigits 2 hour' ++ ':' :: (fixedDigits 2 minute' ++ ':' :: (fixedDigits 2 second' ++ c11))))) := by
    rw [(Nautilus.takeDigits_eq_some h1).1, Nautilus.takeChar_eq_some h2, (Nautilus.takeDigits_eq_some h3).1,
      Nautilus.takeChar_eq_some h4, (Nautilus.takeDigits_eq_some h5).1, Nautilus.takeChar_eq_some h6,
      (Nautilus.takeDigits_eq_some h7).1, Nautilus.takeChar_eq_some h8, (Nautilus.takeDigits_eq_some h9).1,
      Nautilus.takeChar_eq_some h10, (Nautilus.takeDigits_eq_some h11).1]
  rcases hfraction with rfl | rfl
  · rw [← String.toList_inj, htext, instantText, Nautilus.utcOf_instantOf, serializeUtc, String.toList_ofList]
    rfl
  · refine absurd ?_ hzero
    rw [htext]
    simp only [← List.cons_append, ← List.append_assoc]
    exact List.suffix_append _ _

theorem timestamptz_instantText (t : Instant) : timestamptz (instantText t) = some t := by
  have hof : UtcDateTime.of? (utcOf t).year (utcOf t).month (utcOf t).day (utcOf t).hour (utcOf t).minute
      (utcOf t).second (utcOf t).microsecond = some (utcOf t) := dif_pos (utcOf t).valid
  rw [timestamptz, timestampFields_instantText, Option.bind_some]
  show (UtcDateTime.of? _ _ _ _ _ _ _).map instantOf = some t
  rw [hof, Option.map_some, Nautilus.instantOf_utcOf]

theorem isTimestamp_instantText (t : Instant) : isTimestamp (instantText t) = true := by
  rw [isTimestamp, timestampFields_instantText, Bool.and_eq_true, Bool.not_eq_true', decide_eq_false_iff_not]
  refine ⟨rfl, ?_⟩
  intro hsuffix
  have hlt : (utcOf t).microsecond < 10 ^ 6 := (utcOf t).valid_bounds.2.2.2.2.2.2
  have htail : fractionOf (utcOf t).microsecond <:+ (instantText t).toList := by
    rw [instantText, serializeUtc, String.toList_ofList, utcChars, Nautilus.secondChars]
    simp only [← List.cons_append, ← List.append_assoc]
    exact List.suffix_append _ _
  unfold fractionOf at htail
  split_ifs at htail with hzero
  · -- without a fraction there is no point in the text
    have hdot : '.' ∈ (instantText t).toList := hsuffix.subset (by decide +kernel)
    rw [instantText, serializeUtc, String.toList_ofList, utcChars, Nautilus.secondChars, if_pos hzero] at hdot
    simp only [List.mem_append, List.mem_cons, List.not_mem_nil, or_false] at hdot
    have hdigit : ∀ k n, '.' ∉ fixedDigits k n := fun k n h => absurd (isDigit_of_mem_fixedDigits h) (by decide)
    simp [hdigit] at hdot
  · have hequal : ".000000Z".toList = '.' :: (fixedDigits 6 (utcOf t).microsecond ++ ['Z']) := by
      refine (List.suffix_of_suffix_length_le hsuffix htail ?_).eq_of_length ?_ <;>
        simp [length_fixedDigits]
    have hzeros : ".000000Z".toList = '.' :: (fixedDigits 6 0 ++ ['Z']) := by decide +kernel
    rw [hzeros, List.cons.injEq, List.append_cancel_right_eq] at hequal
    have hread := congrArg readDigits hequal.2
    rw [readDigits_fixedDigits_of_lt (by decide), readDigits_fixedDigits_of_lt hlt] at hread
    exact hzero hread.symm

theorem castTimestamp_instantText (t : Instant) : castTimestamp (instantText t) = .ok t := by
  rw [castTimestamp, timestamptz_instantText]

theorem eq_instantText_of_cast (h : isTimestamp text = true)
    (ht : castTimestamp text = .ok t) : text = instantText t := by
  unfold castTimestamp at ht
  split at ht
  · rename_i u hu
    rw [eq_instantText h hu, Except.ok.inj ht]
  · cases ht

variable {s : String}

theorem exists_locatorKind_iff :
    s ∈ ["https", "dataset", "document", "block"] ↔ ∃ k : EvidenceLocatorKind, s = k.value :=
  mem_names_iff [.https, .dataset, .document, .block] (by intro k; cases k <;> decide) rfl

theorem filterMap_text_segments (segments : List {s : String // isPathSegment s = true}) :
    (segments.map fun s => str s.1).filterMap Jsonb.text = segments.map Subtype.val := by
  rw [List.filterMap_map]
  show segments.filterMap (fun s => some s.1) = _
  rw [List.filterMap_eq_map']

variable {items : List Json}

theorem exists_segments (hkind : ∀ item ∈ items, item.kind = .string)
    (hmatch : ∀ component ∈ items.filterMap Jsonb.text, isPathSegment component = true) :
    ∃ segments : List {s : String // isPathSegment s = true}, items = segments.map fun s => str s.1 := by
  induction items with
  | nil => exact ⟨[], rfl⟩
  | cons item rest ih =>
    rw [List.forall_mem_cons] at hkind
    obtain ⟨s, rfl⟩ := kind_eq_string_iff.1 hkind.1
    rw [List.filterMap_cons_some (Jsonb.text_str s), List.forall_mem_cons] at hmatch
    obtain ⟨segments, rfl⟩ := ih hkind.2 hmatch.2
    exact ⟨⟨s, hmatch.1⟩ :: segments, rfl⟩

variable {members : List (String × Json)} {key : String}

theorem not_holds_unlike_member_iff {kind : Kind} {v : Json} (h : member? key members = some v) :
    ¬ holds (unlike kind (get (some (obj members)) key)) ↔ v.kind = kind := by
  rw [get_obj, h, not_holds_unlike_iff]

theorem checkLocator_ok_iff (h : (members.map Prod.fst).Pairwise (· < ·)) {u : Unit} :
    checkLocator (some (obj members)) = .ok u ↔ ∃ l, obj members = Documents.locator.encode l ∧ ¬ l.Refused := by
  unfold checkLocator
  simp only [bind_ok_iff, require_ok_iff]
  constructor
  · rintro ⟨_, hcheck, _, hlength, _, hkind, _, hmatch, hrefused⟩
    obtain ⟨hkeys, hfields, hpath⟩ :=
      (checkObject_ok_iff Documents.locatorFields.keys h (by decide) (by decide) (by decide)).1 hcheck
    simp only [List.forall_mem_cons, decide_eq_true_eq, exists_locatorKind_iff] at hfields hpath
    obtain ⟨⟨k, hk, ⟨kind, rfl⟩⟩, ⟨a, ha, ha'⟩, -⟩ := hfields
    obtain ⟨path, hp⟩ := member?_eq_some_of_mem_keys (show "path" ∈ members.map Prod.fst by rw [hkeys]; decide)
    obtain ⟨items, rfl⟩ := kind_eq_array_iff.1 ((not_holds_unlike_member_iff hp).1 hpath.1)
    have hitems : itemsOf (some (obj members)) "path" = items := by
      rw [itemsOf, get_obj, hp]
      rfl
    rw [hitems] at hlength hkind hmatch hrefused
    obtain ⟨segments, rfl⟩ := exists_segments hkind hmatch
    rw [List.length_map] at hlength
    obtain rfl := eq_of_member? [("authority", str a), ("kind", str kind.value),
      ("path", arr (segments.map fun s => str s.1))] hkeys rfl (by decide) (by simp [ha, hk, hp])
    refine ⟨⟨kind, ⟨a, ha'⟩, ⟨segments, hlength⟩⟩, rfl, ?_⟩
    rintro ⟨candidate, hcandidate, htrue⟩
    rw [filterMap_text_segments] at hrefused
    rw [hrefused candidate hcandidate] at htrue
    cases htrue
  · rintro ⟨l, hl, hrefused⟩
    obtain rfl := Json.obj.inj hl
    have hitems : itemsOf (some (Documents.locator.encode l)) "path" = l.path.1.map fun s => str s.1 := rfl
    refine ⟨(), (checkObject_ok_iff Documents.locatorFields.keys h (by decide) (by decide) (by decide)).2
      ⟨rfl, ?_, ?_⟩, (), ?_, (), ?_, (), ?_, ?_⟩
    · simp only [List.forall_mem_cons, decide_eq_true_eq, exists_locatorKind_iff]
      exact ⟨⟨_, rfl, l.kind, rfl⟩, ⟨_, rfl, l.authority.2⟩, List.forall_mem_nil _⟩
    · simp only [List.forall_mem_cons]
      exact ⟨(not_holds_unlike_iff).2 rfl, List.forall_mem_nil _⟩
    · show 1 ≤ (l.path.1.map fun s => str s.1).length ∧ (l.path.1.map fun s => str s.1).length ≤ 16
      rw [List.length_map]
      exact l.path.2
    · show ∀ item ∈ l.path.1.map fun s => str s.1, item.kind = .string
      rw [List.forall_mem_map]
      exact fun _ _ => rfl
    · show ∀ c ∈ (l.path.1.map fun s => str s.1).filterMap Jsonb.text, isPathSegment c = true
      rw [filterMap_text_segments, List.forall_mem_map]
      exact fun s _ => s.2
    · show ∀ c ∈ locatorCandidates l.authority.1 ((l.path.1.map fun s => str s.1).filterMap Jsonb.text),
        refused c = false
      rw [filterMap_text_segments]
      intro candidate hcandidate
      rw [← Bool.not_eq_true]
      exact fun htrue => hrefused ⟨candidate, hcandidate, htrue⟩

theorem exists_mediaType_iff : s ∈ ["application/json", "application/pdf", "text/csv", "text/html", "text/plain"] ↔
      ∃ m : MediaType, s = m.value :=
  mem_names_iff [.json, .pdf, .csv, .html, .plain] (by intro m; cases m <;> decide) rfl

theorem exists_evidenceSource_iff :
    s ∈ ["market_data", "news", "filing", "on_chain", "research"] ↔ ∃ k : EvidenceSource, s = k.value :=
  mem_names_iff [.marketData, .news, .filing, .onChain, .research] (by intro k; cases k <;> decide) rfl

def Seen.next (seen : Seen) (e : EvidenceDocument) : Seen :=
  ⟨some e.reference.evidenceId.1, some (seen.maxEvidenceKnownAt.elim e.knownAt fun latest => max latest e.knownAt)⟩

/-- The evidence is admissible and known in time. -/
structure Admits (knownAt : Instant) (e : EvidenceDocument) : Prop where
  not_refused : ¬ e.reference.locator.Refused
  observed : e.reference.observedAt ≤ e.fetchedAt
  fetched : e.fetchedAt ≤ e.knownAt
  known : e.knownAt ≤ knownAt

theorem exists_instant_of_cast (hs : member? key members = some (str s))
    (hmatch : isTimestamp s = true) (ht : castTimestamp (textOf (some (obj members)) key) = .ok t) :
    s = instantText t := by
  rw [textOf, getText, get_obj, hs] at ht
  exact eq_instantText_of_cast hmatch ht

theorem pairwise_of_storable {members : List (String × Json)} (h : (obj members).Storable) :
    (members.map Prod.fst).Pairwise (· < ·) := h.1

variable {knownAt : Instant} {seen seen' : Seen}

theorem checkEvidence_ok_iff {item : Json} (h : item.Storable) :
    checkEvidence knownAt seen item = .ok seen' ↔ ∃ e, item = Documents.evidence.encode e ∧ Admits knownAt e ∧
      (∀ previous ∈ seen.previousEvidenceId, previous < e.reference.evidenceId.1) ∧ seen' = seen.next e := by
  unfold checkEvidence
  simp only [bind_ok_iff, require_ok_iff]
  constructor
  · rintro ⟨_, hkind, _, hdescriptor, _, hreference, _, hlocator, _, hsorted, observedAt, hobserved, fetchedAt,
      hfetched, evidenceKnownAt, hknown, _, ⟨hof, hfk, hkk⟩, hresult⟩
    obtain ⟨members, rfl⟩ := kind_eq_object_iff.1 hkind
    obtain ⟨hkeys, hfields, hothers⟩ := (checkObject_ok_iff Documents.evidenceFields.keys (pairwise_of_storable h)
      (by decide) (by decide) (by decide)).1 hdescriptor
    simp only [List.forall_mem_cons, decide_eq_true_eq, exists_mediaType_iff] at hfields hothers
    obtain ⟨⟨_, hversion, rfl⟩, ⟨f, hf, hf'⟩, ⟨k, hk, hk'⟩, ⟨c, hc, hc'⟩, ⟨v, hv, hv'⟩, ⟨n, hn, hn'⟩,
      ⟨_, hm, ⟨m, rfl⟩⟩, -⟩ := hfields
    obtain ⟨reference, hr⟩ := member?_eq_some_of_mem_keys (show "reference" ∈ members.map Prod.fst by rw [hkeys]; decide)
    have hstorable : reference.Storable := h.field hr
    obtain ⟨rmembers, rfl⟩ := kind_eq_object_iff.1 ((not_holds_unlike_member_iff hr).1 hothers.1)
    rw [get_obj, hr] at hreference hlocator hsorted hobserved hresult
    obtain ⟨hrkeys, hrfields, hrothers⟩ := (checkObject_ok_iff Documents.referenceFields.keys
      (pairwise_of_storable hstorable) (by decide) (by decide) (by decide)).1 hreference
    simp only [List.forall_mem_cons, decide_eq_true_eq, exists_evidenceSource_iff] at hrfields hrothers
    obtain ⟨⟨i, hi, hi'⟩, ⟨_, hs, ⟨source, rfl⟩⟩, ⟨o, ho, ho'⟩, ⟨w, hw, hw'⟩, -⟩ := hrfields
    obtain ⟨locator, hl⟩ := member?_eq_some_of_mem_keys (show "locator" ∈ rmembers.map Prod.fst by rw [hrkeys]; decide)
    obtain ⟨lmembers, rfl⟩ := kind_eq_object_iff.1 ((not_holds_unlike_member_iff hl).1 hrothers.1)
    rw [get_obj, hl] at hlocator
    obtain ⟨l, hl', hrefused⟩ := (checkLocator_ok_iff (pairwise_of_storable (hstorable.field hl))).1 hlocator
    obtain rfl := exists_instant_of_cast ho ho' hobserved
    obtain rfl := exists_instant_of_cast hf hf' hfetched
    obtain rfl := exists_instant_of_cast hk hk' hknown
    rw [hl'] at hl
    obtain rfl := eq_of_member? [("evidence_id", str i), ("locator", Documents.locator.encode l),
      ("observed_at", str (instantText observedAt)), ("schema_version", str w), ("source", str source.value)]
      hrkeys rfl (by decide) (by simp [hi, hl, ho, hw, hs])
    obtain rfl := eq_of_member? [("content_sha256", str c), ("fetched_at", str (instantText fetchedAt)),
      ("known_at", str (instantText evidenceKnownAt)), ("media_type", str m.value), ("normalization_version", str n),
      ("reference", obj _), ("schema_version", str "security-master-evidence-v1"), ("source_revision", str v)]
      hkeys rfl (by decide) (by simp only [List.forall_mem_cons]; exact ⟨hc, hf, hk, hm, hn, hr, hversion, hv, List.forall_mem_nil _⟩)
    refine ⟨⟨⟨⟨i, hi'⟩, source, l, observedAt, ⟨w, hw'⟩⟩, fetchedAt, evidenceKnownAt, ⟨c, hc'⟩, m, ⟨v, hv'⟩, ⟨n, hn'⟩⟩,
      rfl, ⟨hrefused, hof, hfk, hkk⟩, hsorted, (Except.ok.inj hresult).symm⟩
  · rintro ⟨e, rfl, hadmits, hsorted, rfl⟩
    have hreference : (Documents.reference.encode e.reference).Storable := Documents.reference.storable _
    have hlocator : (Documents.locator.encode e.reference.locator).Storable := Documents.locator.storable _
    refine ⟨(), rfl, (), (checkObject_ok_iff Documents.evidenceFields.keys (pairwise_of_storable h) (by decide)
      (by decide) (by decide)).2 ⟨rfl, ?_, ?_⟩, (), (checkObject_ok_iff Documents.referenceFields.keys
      (pairwise_of_storable hreference) (by decide) (by decide) (by decide)).2 ⟨rfl, ?_, ?_⟩, (),
      (checkLocator_ok_iff (pairwise_of_storable hlocator)).2 ⟨e.reference.locator, rfl, hadmits.not_refused⟩, (),
      hsorted, e.reference.observedAt, castTimestamp_instantText _, e.fetchedAt, castTimestamp_instantText _,
      e.knownAt, castTimestamp_instantText _, (), ⟨hadmits.observed, hadmits.fetched, hadmits.known⟩, rfl⟩
    · simp only [List.forall_mem_cons, decide_eq_true_eq, exists_mediaType_iff]
      exact ⟨⟨_, rfl, rfl⟩, ⟨_, rfl, isTimestamp_instantText _⟩, ⟨_, rfl, isTimestamp_instantText _⟩,
        ⟨_, rfl, e.contentSha256.2⟩, ⟨_, rfl, e.sourceRevision.2⟩, ⟨_, rfl, e.normalizationVersion.2⟩,
        ⟨_, rfl, e.mediaType, rfl⟩, List.forall_mem_nil _⟩
    · simp only [List.forall_mem_cons]
      exact ⟨not_holds_unlike_iff.2 rfl, List.forall_mem_nil _⟩
    · simp only [List.forall_mem_cons, decide_eq_true_eq, exists_evidenceSource_iff]
      exact ⟨⟨_, rfl, e.reference.evidenceId.2⟩, ⟨_, rfl, e.reference.source, rfl⟩,
        ⟨_, rfl, isTimestamp_instantText _⟩, ⟨_, rfl, e.reference.schemaVersion.2⟩, List.forall_mem_nil _⟩
    · simp only [List.forall_mem_cons]
      exact ⟨not_holds_unlike_iff.2 rfl, List.forall_mem_nil _⟩

theorem foldlM_checkEvidence_ok_iff (h : ∀ x ∈ items, x.Storable) : items.foldlM (checkEvidence knownAt) seen = .ok seen' ↔
      ∃ es : List EvidenceDocument, items = es.map Documents.evidence.encode ∧ (∀ e ∈ es, Admits knownAt e) ∧
        (∀ previous ∈ seen.previousEvidenceId, ∀ e ∈ es, previous < e.reference.evidenceId.1) ∧
        (es.Pairwise fun a b => a.reference.evidenceId.1 < b.reference.evidenceId.1) ∧
        seen' = es.foldl Seen.next seen := by
  induction items generalizing seen with
  | nil =>
    rw [List.foldlM_nil, pure_eq_ok, Except.ok.injEq]
    constructor
    · rintro rfl
      exact ⟨[], rfl, List.forall_mem_nil _, fun _ _ => List.forall_mem_nil _, List.Pairwise.nil, rfl⟩
    · rintro ⟨es, hes, -, -, -, rfl⟩
      obtain rfl := List.map_eq_nil_iff.1 hes.symm
      rfl
  | cons item rest ih =>
    rw [List.forall_mem_cons] at h
    rw [List.foldlM_cons, bind_ok_iff]
    simp only [checkEvidence_ok_iff h.1, ih h.2]
    constructor
    · rintro ⟨_, ⟨e, rfl, hadmits, hprevious, rfl⟩, es, rfl, hall, hnext, hsorted, rfl⟩
      have hfirst := hnext e.reference.evidenceId.1 rfl
      refine ⟨e :: es, rfl, List.forall_mem_cons.2 ⟨hadmits, hall⟩, fun previous hp => ?_,
        List.pairwise_cons.2 ⟨hfirst, hsorted⟩, rfl⟩
      refine List.forall_mem_cons.2 ⟨hprevious previous hp, fun f hf => ?_⟩
      exact String.lt_trans (hprevious previous hp) (hfirst f hf)
    · rintro ⟨es, hes, hall, hprevious, hsorted, rfl⟩
      cases es with
      | nil => cases hes
      | cons e es =>
        rw [List.map_cons, List.cons.injEq] at hes
        rw [List.forall_mem_cons] at hall
        rw [List.pairwise_cons] at hsorted
        refine ⟨seen.next e, ⟨e, hes.1, hall.1, fun p hp => hprevious p hp e List.mem_cons_self, rfl⟩, es, hes.2,
          hall.2, ?_, hsorted.2, rfl⟩
        rintro previous hp
        rw [← Option.some.inj hp]
        exact hsorted.1

theorem maxEvidenceKnownAt_foldl (es : List EvidenceDocument) (seen : Seen) :
    (es.foldl Seen.next seen).maxEvidenceKnownAt = some t ↔
      ((∀ latest ∈ seen.maxEvidenceKnownAt, latest ≤ t) ∧ ∀ e ∈ es, e.knownAt ≤ t) ∧
        (seen.maxEvidenceKnownAt = some t ∨ ∃ e ∈ es, e.knownAt = t) := by
  induction es generalizing seen with
  | nil =>
    cases hlatest : seen.maxEvidenceKnownAt <;> simp [hlatest]
    rintro rfl
    exact le_rfl
  | cons e es ih =>
    rw [List.foldl_cons, ih, Seen.next, List.forall_mem_cons]
    cases hlatest : seen.maxEvidenceKnownAt with
    | none => simp
    | some latest =>
      simp only [Option.elim_some, Option.mem_some_iff, forall_eq', sup_le_iff, Option.some.injEq, List.mem_cons,
        exists_eq_or_imp]
      constructor
      · rintro ⟨⟨⟨hl, he⟩, hes⟩, hmax | h⟩
        · rcases max_choice latest e.knownAt with heq | heq
          · exact ⟨⟨hl, he, hes⟩, .inl (heq ▸ hmax)⟩
          · exact ⟨⟨hl, he, hes⟩, .inr (.inl (heq ▸ hmax))⟩
        · exact ⟨⟨hl, he, hes⟩, .inr (.inr h)⟩
      · rintro ⟨⟨hl, he, hes⟩, rfl | rfl | h⟩
        · exact ⟨⟨⟨hl, he⟩, hes⟩, .inl (max_eq_left he)⟩
        · exact ⟨⟨⟨hl, he⟩, hes⟩, .inl (max_eq_right hl)⟩
        · exact ⟨⟨⟨hl, he⟩, hes⟩, .inr h⟩

end Validation

end TradingAgent.SecurityMaster
