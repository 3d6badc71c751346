import TradingAgent.SecurityMaster.Validation

/-! Payloads as the database and as the model checks them. -/

namespace TradingAgent.SecurityMaster.Validation

open Outcome ThreeValued Json
open JobPlane (Raised)
open AlphaCampaign (isUuid)
open Jsonb (get getText typeOf)

/-! ## Objects of text fields -/

variable {names : List String}

theorem otherKeys_iff {keys sorted : List String} (hkeys : keys.Pairwise (· < ·))
    (hsorted : sorted.Pairwise (· < ·)) (hperm : sorted.Perm names) :
    ¬ holds (otherKeys keys names) ↔ keys = sorted := by
  have hlt : ∀ {xs : List String}, xs.Pairwise (· < ·) → xs.Nodup := by
    intro xs h
    refine h.imp ?_
    rintro a b hab rfl
    exact String.lt_irrefl a hab
  rw [otherKeys, holds_some_iff, decide_eq_true_eq, not_or, not_not, not_not]
  constructor
  · rintro ⟨htotal, hvalid⟩
    have hall : ∀ key ∈ keys, decide (key ∈ names) = true := by
      rw [← List.length_filter_eq_length_iff, hvalid, htotal]
    have hsubset : keys.Subperm names :=
      List.subperm_of_subset (hlt hkeys) fun key hkey => of_decide_eq_true (hall key hkey)
    have hsame : keys.Perm sorted := (hsubset.perm_of_length_le (by omega)).trans hperm.symm
    exact hsame.eq_of_pairwise (fun a b _ _ hab hba => absurd hab (String.lt_asymm hba)) hkeys hsorted
  · rintro rfl
    refine ⟨hperm.length_eq, ?_⟩
    rw [List.filter_eq_self.2 fun key hkey => decide_eq_true (hperm.subset hkey), hperm.length_eq]

theorem get_obj (members : List (String × Json)) (key : String) : get (some (obj members)) key = member? key members :=
  rfl

theorem not_holds_unlike_iff {kind : Kind} {value : Json} : ¬ holds (unlike kind (some value)) ↔ value.kind = kind := by
  rw [unlike, typeOf, Option.map_some, holds_ne_iff]
  simp

variable {key : String} {pattern : String → Bool} {v : Json}

theorem not_holds_wrongText_iff {value : Option Json}
    (h : get value key = some v) : ¬ holds (wrongText value key pattern) ↔ ∃ s, v = str s ∧ pattern s = true := by
  rw [wrongText, not_holds_or_iff, h, not_holds_unlike_iff, kind_eq_string_iff, unmatched, getText, h,
    Option.bind_some, holds_not_test_iff]
  constructor
  · rintro ⟨⟨s, rfl⟩, hmatch⟩
    refine ⟨s, rfl, ?_⟩
    cases hs : pattern s with
    | true => rfl
    | false => exact absurd ⟨s, rfl, hs⟩ hmatch
  · rintro ⟨s, rfl, hs⟩
    refine ⟨⟨s, rfl⟩, ?_⟩
    rintro ⟨t, ht, hfalse⟩
    rw [← Option.some.inj ht, hs] at hfalse
    cases hfalse

theorem not_holds_wrongText_obj {members : List (String × Json)} (h : member? key members = some v) :
    ¬ holds (wrongText (some (obj members)) key pattern) ↔ ∃ s, v = str s ∧ pattern s = true :=
  not_holds_wrongText_iff h

variable {u : Unit}

theorem checkObject_ok_iff {members : List (String × Json)} (sorted : List String)
    {fields : List (String × (String → Bool))} {others : List Truth} {raised : Raised}
    (hmembers : (members.map Prod.fst).Pairwise (· < ·)) (hsorted : sorted.Pairwise (· < ·))
    (hperm : sorted.Perm names) (hfields : ∀ f ∈ fields, f.1 ∈ sorted) :
    checkObject (some (obj members)) names fields others raised = .ok u ↔ members.map Prod.fst = sorted ∧
        (∀ f ∈ fields, ∃ s, member? f.1 members = some (str s) ∧ f.2 s = true) ∧ ∀ c ∈ others, ¬ holds c := by
  unfold checkObject objectKeys
  rw [ok_bind, require_ok_iff, not_holds_anyOf_iff, List.cons_append, List.forall_mem_cons,
    otherKeys_iff hmembers hsorted hperm, List.forall_mem_append, List.forall_mem_map]
  refine and_congr_right fun hkeys => and_congr_left' (forall₂_congr fun f hf => ?_)
  have hkey : f.1 ∈ members.map Prod.fst := by
    rw [hkeys]
    exact hfields f hf
  obtain ⟨v, hv⟩ := member?_eq_some_of_mem_keys hkey
  have hget : get (some (obj members)) f.1 = some v := hv
  rw [not_holds_wrongText_iff hget, hv]
  simp only [Option.some.injEq]

/-! ## Names of enumerations -/

variable {s : String} {α β : Type}

theorem mem_names_iff {names : List String} {name : α → String} (all : List α) (complete : ∀ a, a ∈ all)
    (hnames : names = all.map name) : s ∈ names ↔ ∃ a, s = name a := by
  rw [hnames, List.mem_map]
  constructor
  · rintro ⟨a, -, rfl⟩
    exact ⟨a, rfl⟩
  · rintro ⟨a, rfl⟩
    exact ⟨a, complete a, rfl⟩

theorem exists_identityKind_iff :
    s ∈ ["ISSUER", "ASSET", "SECURITY", "VENUE", "LISTING", "SYMBOL_MAPPING", "CORPORATE_ACTION"] ↔
      ∃ k : IdentityKind, s = k.value :=
  mem_names_iff [.issuer, .asset, .security, .venue, .listing, .symbolMapping, .corporateAction]
    (by intro k; cases k <;> decide) rfl

theorem exists_operation_iff : s ∈ ["ASSERT", "RETRACT"] ↔ ∃ o : Operation, s = o.value :=
  mem_names_iff [.assert, .retract] (by intro o; cases o <;> decide) rfl

/-! ## Records of text fields -/

/-- The codec spells the strings of the pattern. -/
def Spells (c : Codec α) (pattern : String → Bool) : Prop :=
  ∀ v, (∃ a, v = c.encode a) ↔ ∃ s, v = str s ∧ pattern s = true

theorem spells_matching {n : ℕ} {h : ∀ s, pattern s = true → PrintableText s ∧ s.length ≤ n} :
    Spells (Codec.matching pattern n h) pattern := by
  intro v
  constructor
  · rintro ⟨a, rfl⟩
    exact ⟨a.1, rfl, a.2⟩
  · rintro ⟨s, rfl, hs⟩
    exact ⟨⟨s, hs⟩, rfl⟩

theorem spells_enum {all : List α} {name : α → String} {n : ℕ} {complete : ∀ a, a ∈ all}
    {injective : ∀ a ∈ all, ∀ b ∈ all, name a = name b → a = b}
    {printable : ∀ a ∈ all, PrintableText (name a) ∧ (name a).length ≤ n} (hnames : names = all.map name) :
    Spells (Codec.enum all name n complete injective printable) fun s => decide (s ∈ names) := by
  intro v
  simp only [decide_eq_true_eq, mem_names_iff all complete hnames]
  constructor
  · rintro ⟨a, rfl⟩
    exact ⟨name a, rfl, a, rfl⟩
  · rintro ⟨_, rfl, a, rfl⟩
    exact ⟨a, rfl⟩

theorem spells_literal {text : String} {h : PrintableText text} :
    Spells (Codec.literal text h) fun s => decide (s = text) := by
  intro v
  simp only [decide_eq_true_eq]
  constructor
  · rintro ⟨_, rfl⟩
    exact ⟨text, rfl, rfl⟩
  · rintro ⟨_, rfl, rfl⟩
    exact ⟨(), rfl⟩

variable {members : List (String × Json)}

def HasText (members : List (String × Json)) (test : String × (String → Bool)) : Prop :=
  ∃ s, member? test.1 members = some (str s) ∧ test.2 s = true

/-- The record is spelled by the members that match the patterns. -/
def Reads (f : Fields α) (tests : List (String × (String → Bool))) : Prop :=
  f.keys = tests.map Prod.fst ∧ ∀ members, (members.map Prod.fst).Nodup →
    ((∃ a, members = f.encode a) ↔ members.map Prod.fst = f.keys ∧ ∀ test ∈ tests, HasText members test)

theorem Reads.nil : Reads Fields.nil [] := by
  refine ⟨rfl, fun members _ => ?_⟩
  constructor
  · rintro ⟨_, rfl⟩
    exact ⟨rfl, List.forall_mem_nil _⟩
  · rintro ⟨hkeys, -⟩
    exact ⟨(), List.map_eq_nil_iff.1 hkeys⟩

theorem Reads.cons {c : Codec α} {f : Fields β} {tests : List (String × (String → Bool))} {hkey : PrintableText key}
    (hc : Spells c pattern) (hf : Reads f tests) : Reads (Fields.cons key hkey c f) ((key, pattern) :: tests) := by
  refine ⟨congrArg (key :: ·) hf.1, fun members hnodup => ?_⟩
  have hrest : ∀ {v : Json} {rest : List (String × Json)}, key ∉ rest.map Prod.fst → rest.map Prod.fst = f.keys →
      ((∀ test ∈ tests, HasText ((key, v) :: rest) test) ↔ ∀ test ∈ tests, HasText rest test) := by
    intro v rest hnot hkeys
    refine forall₂_congr fun test htest => ?_
    have hne : key ≠ test.1 := by
      rintro rfl
      rw [hkeys, hf.1] at hnot
      exact hnot (List.mem_map_of_mem htest)
    rw [HasText, HasText, member?, if_neg hne]
  constructor
  · rintro ⟨⟨a, b⟩, rfl⟩
    obtain ⟨s, hs, hmatch⟩ := (hc _).1 ⟨a, rfl⟩
    have hkeys := f.keys_encode b
    have hnot := (List.nodup_cons.1 hnodup).1
    refine ⟨congrArg (key :: ·) hkeys, List.forall_mem_cons.2 ⟨⟨s, ?_, hmatch⟩, (hrest hnot hkeys).2 ?_⟩⟩
    · exact (if_pos rfl).trans (congrArg some hs)
    · exact ((hf.2 _ (List.nodup_cons.1 hnodup).2).1 ⟨b, rfl⟩).2
  · rintro ⟨hkeys, htests⟩
    cases members with
    | nil => cases hkeys
    | cons m rest =>
      obtain ⟨k, v⟩ := m
      obtain ⟨hkey, hrestKeys⟩ := List.cons.inj hkeys
      obtain rfl : k = key := hkey
      obtain ⟨hnot, hnodup⟩ := List.nodup_cons.1 hnodup
      rw [List.forall_mem_cons, hrest hnot hrestKeys] at htests
      obtain ⟨⟨s, hs, hmatch⟩, htests⟩ := htests
      obtain ⟨a, ha⟩ := (hc v).2 ⟨s, Option.some.inj ((if_pos rfl).symm.trans hs), hmatch⟩
      obtain ⟨b, rfl⟩ := (hf.2 rest hnodup).2 ⟨hrestKeys, htests⟩
      exact ⟨(a, b), by rw [ha]; rfl⟩

/-- The check of an object accepts the spellings of a codec, where the other conditions say which records it spells. -/
theorem checkObject_encode_iff {c : Codec β} {f : Fields α} {forget : β → α} {tests : List (String × (String → Bool))}
    {fields : List (String × (String → Bool))} {others : List Truth} {raised : Raised} (hreads : Reads f tests)
    (h : (members.map Prod.fst).Pairwise (· < ·))
    (hothers : ∀ a, members = f.encode a → ((∀ o ∈ others, ¬ holds o) ↔ ∃ b, forget b = a))
    (htests : (∀ t ∈ fields, HasText members t) ↔ ∀ t ∈ tests, HasText members t := by
      simp only [List.forall_mem_cons]; tauto)
    (hencode : ∀ b, c.encode b = obj (f.encode (forget b)) := by exact fun _ => rfl)
    (hsorted : f.keys.Pairwise (· < ·) := by decide) (hperm : f.keys.Perm names := by decide)
    (hfields : ∀ t ∈ fields, t.1 ∈ f.keys := by decide) :
    checkObject (some (obj members)) names fields others raised = .ok u ↔ ∃ b, obj members = c.encode b := by
  have hnodup : (members.map Prod.fst).Nodup := by
    refine h.imp ?_
    rintro a b hab rfl
    exact String.lt_irrefl a hab
  rw [checkObject_ok_iff f.keys h hsorted hperm hfields, ← and_assoc]
  change (_ ∧ ∀ t ∈ fields, HasText members t) ∧ _ ↔ _
  rw [htests, ← hreads.2 members hnodup]
  simp only [hencode, Json.obj.injEq]
  constructor
  · rintro ⟨⟨a, ha⟩, hall⟩
    obtain ⟨b, rfl⟩ := (hothers a ha).1 hall
    exact ⟨b, ha⟩
  · rintro ⟨b, hb⟩
    exact ⟨⟨_, hb⟩, (hothers _ hb).2 ⟨b, rfl⟩⟩

/-! ## The payload models -/

def keysOf (p : Payload) : PayloadKeys :=
  ⟨some p.identity.1, p.symbol?.map fun s => s.1.1, p.symbol?.map fun s => s.2.1, p.securityId?.map Subtype.val⟩

variable {keys : PayloadKeys}

theorem keyed_ok_iff {check : Except Raised Unit} {result : PayloadKeys} {c : Codec β} {payload : β → Payload}
    (hcheck : check = .ok () ↔ ∃ b, obj members = c.encode b)
    (hresult : ∀ b, obj members = c.encode b → result = keysOf (payload b) := by
      intro _ hb; obtain rfl := Json.obj.inj hb; rfl) :
    (do check; .ok result) = (.ok keys : Except Raised PayloadKeys) ↔
      ∃ b, obj members = c.encode b ∧ keys = keysOf (payload b) := by
  constructor
  · intro hok
    obtain ⟨_, hok, hkeys⟩ := bind_ok_iff.1 hok
    obtain ⟨b, hb⟩ := hcheck.1 hok
    exact ⟨b, hb, (Except.ok.inj hkeys).symm.trans (hresult b hb)⟩
  · rintro ⟨b, hb, rfl⟩
    exact bind_ok_iff.2 ⟨(), hcheck.2 ⟨b, hb⟩, congrArg Except.ok (hresult b hb)⟩

variable (h : (members.map Prod.fst).Pairwise (· < ·))
include h

theorem checkIssuer_ok_iff : checkIssuer (some (obj members)) = .ok keys ↔
      ∃ p, obj members = Documents.issuer.encode p ∧ keys = keysOf (.issuer p) :=
  keyed_ok_iff <| checkObject_encode_iff (f := Documents.issuerFields)
    (.cons spells_matching <| .cons spells_matching <| .cons spells_matching .nil) h
    fun ⟨i, j, l, ⟨⟩⟩ _ => iff_of_true (List.forall_mem_nil _) ⟨⟨i, l, j⟩, rfl⟩

theorem checkAsset_ok_iff : checkAsset (some (obj members)) = .ok keys ↔
      ∃ p, obj members = Documents.asset.encode p ∧ keys = keysOf (.asset p) :=
  keyed_ok_iff <| checkObject_encode_iff (f := Documents.assetFields)
    (.cons spells_matching <| .cons (spells_enum (show ["FIAT", "CRYPTO", "EQUITY"] = _ from rfl)) <|
      .cons spells_matching <| .cons spells_matching .nil) h
    fun ⟨a, k, c, i, ⟨⟩⟩ _ => iff_of_true (List.forall_mem_nil _) ⟨⟨a, c, k, i⟩, rfl⟩

theorem checkSecurity_ok_iff : checkSecurity (some (obj members)) = .ok keys ↔
      ∃ p, obj members = Documents.security.encode p ∧ keys = keysOf (.security p) :=
  keyed_ok_iff <| checkObject_encode_iff (f := Documents.securityFields)
    (.cons spells_matching <| .cons (spells_enum (show ["crypto_spot", "equity"] = _ from rfl)) <| .cons
      spells_matching .nil) h
    fun ⟨a, t, s, ⟨⟩⟩ _ => iff_of_true (List.forall_mem_nil _) ⟨⟨s, t, a⟩, rfl⟩

theorem checkVenue_ok_iff : checkVenue (some (obj members)) = .ok keys ↔
      ∃ p, obj members = Documents.venue.encode p ∧ keys = keysOf (.venue p) :=
  keyed_ok_iff <| checkObject_encode_iff (f := Documents.venueFields)
    (.cons spells_matching <| .cons spells_matching <| .cons spells_matching <|
      .cons spells_matching .nil) h
    fun ⟨c, m, t, v, ⟨⟩⟩ _ => iff_of_true (List.forall_mem_nil _) ⟨⟨v, c, m, t⟩, rfl⟩

omit h

theorem not_holds_exceeds_iff {low high : String} {x y : String} (hx : member? low members = some (str x))
    (hy : member? high members = some (str y)) : ¬ holds (exceeds (some (obj members)) low high) ↔
      Nautilus.readUnsigned x.toList ≤ Nautilus.readUnsigned y.toList := by
  rw [exceeds, getText, get_obj, hx, getText, get_obj, hy]
  simp [relate]

theorem checkListing_ok_iff (h : (members.map Prod.fst).Pairwise (· < ·)) :
    checkListing (some (obj members)) = .ok keys ↔
      ∃ p, obj members = Documents.listing.encode p ∧ keys = keysOf (.listing p) := by
  refine keyed_ok_iff <| checkObject_encode_iff (f := Documents.listingFields)
    (.cons spells_matching <| .cons spells_matching <| .cons spells_matching <| .cons spells_matching <|
      .cons spells_matching <| .cons spells_matching <| .cons spells_matching <| .cons spells_matching <|
      .cons spells_matching <| .cons spells_matching <| .cons spells_matching .nil) h ?_
  rintro ⟨l, maxN, maxQ, minN, minQ, q, s, c, z, t, v, ⟨⟩⟩ rfl
  rw [List.forall_mem_cons, List.forall_mem_singleton, not_holds_exceeds_iff rfl rfl, not_holds_exceeds_iff rfl rfl]
  constructor
  · rintro ⟨hquantity, hnotional⟩
    exact ⟨⟨l, s, v, q, c, t, z, minQ, maxQ, minN, maxN, hquantity, hnotional⟩, rfl⟩
  · rintro ⟨p, hp⟩
    cases hp
    exact ⟨p.quantity_bounds, p.notional_bounds⟩

theorem checkSymbolMapping_ok_iff (h : (members.map Prod.fst).Pairwise (· < ·)) :
    checkSymbolMapping (some (obj members)) = .ok keys ↔
      ∃ p, obj members = Documents.mapping.encode p ∧ keys = keysOf (.symbolMapping p) :=
  keyed_ok_iff <| checkObject_encode_iff (f := Documents.mappingFields)
    (.cons spells_matching <| .cons spells_matching <| .cons spells_matching <| .cons spells_matching <|
      .cons spells_matching .nil) h
    fun ⟨c, l, m, p, r, ⟨⟩⟩ _ => iff_of_true (List.forall_mem_nil _) ⟨⟨m, p, r, c, l⟩, rfl⟩

/-! ### Corporate actions -/

structure ActionFields (members : List (String × Json)) (action security type : String) : Prop where
  action_id : member? "action_id" members = some (str action)
  security_id : member? "security_id" members = some (str security)
  action_type : member? "action_type" members = some (str type)
  isUuid_action : isUuid action = true
  isUuid_security : isUuid security = true

variable {a type : String}

theorem ActionFields.hasText (h : ActionFields members a s type) : HasText members ("action_id", isUuid) ∧
    HasText members ("security_id", isUuid) ∧ HasText members ("action_type", fun s => decide (s = type)) :=
  ⟨⟨a, h.action_id, h.isUuid_action⟩, ⟨s, h.security_id, h.isUuid_security⟩, ⟨type, h.action_type, decide_eq_true rfl⟩⟩

include h

theorem checkSplit_ok_iff (hfields : ActionFields members a s "SPLIT") :
    checkSplit (some (obj members)) = .ok u ↔ ∃ p, obj members = Documents.split.encode p := by
  have htexts := hfields.hasText
  exact checkObject_encode_iff (f := Documents.splitFields)
    (.cons spells_matching <| .cons spells_literal <| .cons spells_matching <| .cons spells_matching <|
      .cons spells_matching .nil) h
    fun ⟨a, ⟨⟩, n, o, s, ⟨⟩⟩ _ => iff_of_true (List.forall_mem_nil _) ⟨⟨a, s, n, o⟩, rfl⟩

theorem checkCashDividend_ok_iff (hfields : ActionFields members a s "CASH_DIVIDEND") :
    checkCashDividend (some (obj members)) = .ok u ↔ ∃ p, obj members = Documents.dividend.encode p := by
  have htexts := hfields.hasText
  exact checkObject_encode_iff (f := Documents.dividendFields)
    (.cons spells_matching <| .cons spells_literal <| .cons spells_matching <| .cons spells_matching <|
      .cons spells_matching .nil) h
    fun ⟨a, ⟨⟩, m, c, s, ⟨⟩⟩ _ => iff_of_true (List.forall_mem_nil _) ⟨⟨a, s, m, c⟩, rfl⟩

theorem checkSymbolChange_ok_iff (hfields : ActionFields members a s "SYMBOL_CHANGE") :
    checkSymbolChange (some (obj members)) = .ok u ↔ ∃ p, obj members = Documents.symbolChange.encode p := by
  have htexts := hfields.hasText
  refine checkObject_encode_iff (f := Documents.symbolChangeFields)
    (.cons spells_matching <| .cons spells_literal <| .cons spells_matching <| .cons spells_matching <|
      .cons spells_matching .nil) h ?_
  rintro ⟨a, ⟨⟩, n, o, s, ⟨⟩⟩ rfl
  rw [List.forall_mem_singleton, holds_eq_iff]
  constructor
  · intro hne
    refine ⟨⟨a, s, o, n, ?_⟩, rfl⟩
    rintro rfl
    exact hne ⟨o.1, rfl, rfl⟩
  · rintro ⟨p, hp⟩ ⟨x, hx, hy⟩
    cases hp
    exact p.distinct (Subtype.ext ((Option.some.inj hx).trans (Option.some.inj hy).symm))

theorem checkDelisting_ok_iff (hfields : ActionFields members a s "DELISTING") :
    checkDelisting (some (obj members)) = .ok u ↔ ∃ p, obj members = Documents.delisting.encode p := by
  have htexts := hfields.hasText
  exact checkObject_encode_iff (f := Documents.delistingFields)
    (.cons spells_matching <| .cons spells_literal <| .cons spells_matching <| .cons spells_matching .nil) h
    fun ⟨a, ⟨⟩, l, s, ⟨⟩⟩ _ => iff_of_true (List.forall_mem_nil _) ⟨⟨a, s, l⟩, rfl⟩

omit h

def actionType : Payload → Option String
  | .split _ => some "SPLIT"
  | .cashDividend _ => some "CASH_DIVIDEND"
  | .symbolChange _ => some "SYMBOL_CHANGE"
  | .delisting _ => some "DELISTING"
  | _ => none

theorem exists_action_iff {c : Codec α} (payload : α → Payload)
    (htype : ∀ p, actionType p = some type ↔ ∃ x, p = payload x := by rintro ⟨⟩ <;> simp [actionType])
    (hencode : ∀ x, Documents.payload.encode (payload x) = c.encode x := by exact fun _ => rfl) :
    (∃ x, obj members = c.encode x) ↔ ∃ p, actionType p = some type ∧ obj members = Documents.payload.encode p := by
  simp only [htype]
  constructor
  · rintro ⟨x, hx⟩
    exact ⟨payload x, ⟨x, rfl⟩, hx.trans (hencode x).symm⟩
  · rintro ⟨_, ⟨x, rfl⟩, hx⟩
    exact ⟨x, hx.trans (hencode x)⟩

theorem checkAction_ok_iff (h : (members.map Prod.fst).Pairwise (· < ·))
    (hfields : ActionFields members a s type)
    (htype : type ∈ ["SPLIT", "CASH_DIVIDEND", "SYMBOL_CHANGE", "DELISTING"]) :
    checkAction (some (obj members)) = .ok u ↔
      ∃ p, actionType p = some type ∧ obj members = Documents.payload.encode p := by
  have heq : ∀ name, holds (eq (getText (some (obj members)) "action_type") (some name)) ↔ type = name := by
    intro name
    rw [getText, get_obj, hfields.action_type]
    simp
  unfold checkAction
  simp only [heq]
  simp only [List.mem_cons, List.not_mem_nil, or_false] at htype
  rcases htype with rfl | rfl | rfl | rfl
  · rw [if_pos rfl]
    exact (checkSplit_ok_iff h hfields).trans (exists_action_iff .split)
  · rw [if_neg (by decide), if_pos rfl]
    exact (checkCashDividend_ok_iff h hfields).trans (exists_action_iff .cashDividend)
  · rw [if_neg (by decide), if_neg (by decide), if_pos rfl]
    exact (checkSymbolChange_ok_iff h hfields).trans (exists_action_iff .symbolChange)
  · rw [if_neg (by decide), if_neg (by decide), if_neg (by decide)]
    exact (checkDelisting_ok_iff h hfields).trans (exists_action_iff .delisting)

variable {p : Payload}

theorem actionFields_encode (hkind : p.kind = .corporateAction)
    (hp : obj members = Documents.payload.encode p) : ∃ a s type, ActionFields members a s type ∧
      type ∈ ["SPLIT", "CASH_DIVIDEND", "SYMBOL_CHANGE", "DELISTING"] ∧ actionType p = some type ∧
      keysOf p = ⟨some a, none, none, some s⟩ := by
  cases p <;> cases hkind <;> obtain rfl := Json.obj.inj hp
  · rename_i p
    exact ⟨_, _, "SPLIT", ⟨rfl, rfl, rfl, p.actionId.2, p.securityId.2⟩, by decide, rfl, rfl⟩
  · rename_i p
    exact ⟨_, _, "CASH_DIVIDEND", ⟨rfl, rfl, rfl, p.actionId.2, p.securityId.2⟩, by decide, rfl, rfl⟩
  · rename_i p
    exact ⟨_, _, "SYMBOL_CHANGE", ⟨rfl, rfl, rfl, p.actionId.2, p.securityId.2⟩, by decide, rfl, rfl⟩
  · rename_i p
    exact ⟨_, _, "DELISTING", ⟨rfl, rfl, rfl, p.actionId.2, p.securityId.2⟩, by decide, rfl, rfl⟩

theorem kind_of_actionType (h : actionType p = some type) : p.kind = .corporateAction := by
  cases p <;> first | rfl | cases h

theorem keys_of_checkAction (h : (members.map Prod.fst).Pairwise (· < ·))
    (hok : checkAction (some (obj members)) = .ok u) :
    ∀ key ∈ ["action_id", "action_type", "security_id"], key ∈ members.map Prod.fst := by
  unfold checkAction at hok
  split_ifs at hok
  · rw [((checkObject_ok_iff Documents.splitFields.keys h (by decide) (by decide) (by decide)).1 hok).1]
    decide
  · rw [((checkObject_ok_iff Documents.dividendFields.keys h (by decide) (by decide) (by decide)).1 hok).1]
    decide
  · rw [((checkObject_ok_iff Documents.symbolChangeFields.keys h (by decide) (by decide) (by decide)).1 hok).1]
    decide
  · rw [((checkObject_ok_iff Documents.delistingFields.keys h (by decide) (by decide) (by decide)).1 hok).1]
    decide

variable {effectiveTo : Option Instant}

theorem checkCorporateAction_ok_iff (h : (members.map Prod.fst).Pairwise (· < ·)) :
    checkCorporateAction effectiveTo (some (obj members)) = .ok keys ↔ effectiveTo = none ∧
      ∃ p, p.kind = .corporateAction ∧ obj members = Documents.payload.encode p ∧ keys = keysOf p := by
  unfold checkCorporateAction
  simp only [bind_ok_iff, require_ok_iff, not_holds_anyOf_iff, List.forall_mem_cons]
  constructor
  · rintro ⟨_, ⟨hopen, haction, hsecurity, htype, -⟩, _, hcheck, hresult⟩
    have hkeys := keys_of_checkAction h hcheck
    obtain ⟨a, ha⟩ := member?_eq_some_of_mem_keys (hkeys "action_id" (by decide))
    obtain ⟨s, hs⟩ := member?_eq_some_of_mem_keys (hkeys "security_id" (by decide))
    obtain ⟨t, ht⟩ := member?_eq_some_of_mem_keys (hkeys "action_type" (by decide))
    obtain ⟨a, rfl, ha'⟩ := (not_holds_wrongText_obj ha).1 haction
    obtain ⟨s, rfl, hs'⟩ := (not_holds_wrongText_obj hs).1 hsecurity
    obtain ⟨t, rfl, ht'⟩ := (not_holds_wrongText_obj ht).1 htype
    obtain ⟨p, hp, hencode⟩ := (checkAction_ok_iff h ⟨ha, hs, ht, ha', hs'⟩ (of_decide_eq_true ht')).1 hcheck
    refine ⟨by simpa using hopen, p, kind_of_actionType hp, hencode, ?_⟩
    obtain ⟨a', s', _, hfields', -, -, hkeysOf⟩ := actionFields_encode (kind_of_actionType hp) hencode
    rw [hkeysOf, ← Except.ok.inj hresult, getText, get_obj, hfields'.action_id, getText, get_obj, hfields'.security_id]
    rfl
  · rintro ⟨rfl, p, hkind, hp, rfl⟩
    obtain ⟨a, s, type, hfields, htype, hactionType, hkeysOf⟩ := actionFields_encode hkind hp
    refine ⟨(), ⟨by simp, ?_, ?_, ?_, List.forall_mem_nil _⟩, (), (checkAction_ok_iff h hfields htype).2
      ⟨p, hactionType, hp⟩, ?_⟩
    · exact (not_holds_wrongText_obj hfields.action_id).2
        ⟨a, rfl, hfields.isUuid_action⟩
    · exact (not_holds_wrongText_obj hfields.security_id).2
        ⟨s, rfl, hfields.isUuid_security⟩
    · exact (not_holds_wrongText_obj hfields.action_type).2
        ⟨type, rfl, decide_eq_true htype⟩
    · rw [hkeysOf, getText, get_obj, hfields.action_id, getText, get_obj, hfields.security_id]
      rfl

/-! ### The union of the payloads -/

theorem exists_payload_iff {k : IdentityKind} {c : Codec α} {payload : α → Payload}
    (hne : k ≠ .corporateAction := by decide)
    (hkind : ∀ p, p.kind = k ↔ ∃ x, p = payload x := by rintro ⟨⟩ <;> simp [Payload.kind])
    (hencode : ∀ x, Documents.payload.encode (payload x) = c.encode x := by exact fun _ => rfl) :
    (∃ x, obj members = c.encode x ∧ keys = keysOf (payload x)) ↔ (k = .corporateAction → effectiveTo = none) ∧
      ∃ p, p.kind = k ∧ obj members = Documents.payload.encode p ∧ keys = keysOf p := by
  rw [and_iff_right fun heq => absurd heq hne]
  constructor
  · rintro ⟨x, hx, rfl⟩
    exact ⟨payload x, (hkind _).2 ⟨x, rfl⟩, hx.trans (hencode x).symm, rfl⟩
  · rintro ⟨p, hp, hx, rfl⟩
    obtain ⟨x, rfl⟩ := (hkind p).1 hp
    exact ⟨x, hx.trans (hencode x), rfl⟩

theorem checkKind_ok_iff {k : IdentityKind} (h : (members.map Prod.fst).Pairwise (· < ·)) :
    checkKind k.value effectiveTo (some (obj members)) = .ok keys ↔ (k = .corporateAction → effectiveTo = none) ∧
        ∃ p, p.kind = k ∧ obj members = Documents.payload.encode p ∧ keys = keysOf p := by
  cases k with
  | issuer => exact (checkIssuer_ok_iff h).trans exists_payload_iff
  | asset => exact (checkAsset_ok_iff h).trans exists_payload_iff
  | security => exact (checkSecurity_ok_iff h).trans exists_payload_iff
  | venue => exact (checkVenue_ok_iff h).trans exists_payload_iff
  | listing => exact (checkListing_ok_iff h).trans exists_payload_iff
  | symbolMapping => exact (checkSymbolMapping_ok_iff h).trans exists_payload_iff
  | corporateAction =>
    show checkCorporateAction effectiveTo _ = _ ↔ _
    rw [checkCorporateAction_ok_iff h]
    exact and_congr_left' (by simp)

end TradingAgent.SecurityMaster.Validation
