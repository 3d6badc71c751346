import TradingAgent.JobPlane.Models
import TradingAgent.Lib.Jsonb

/-!
# Canonical domain JSON

`public.canonical_domain_json` and `public.canonical_domain_json_string`
(`alembic/versions/0008_trading_domain_ledger.py`). A text that equals its canonical text is the text of one
value (`eq_of_isCanonical`).
-/

namespace TradingAgent.CanonicalJson

open Outcome JobPlane

def fractional : Raised := ⟨"fractional JSON numbers are not canonical domain values", "22023"⟩

def canonicalDomainJson (value : Json) : Except Raised String :=
  if value.integral then .ok (String.ofList value.canonical) else .error fractional

/-- What the scan of a JSON text is inside of. -/
inductive Scan
  | between
  | string
  | escape
  | number

def endsNumber (c : Char) : Bool := Json.isSpace c || c == ',' || c == '\x7d' || c == ']'

def spellsFraction : Scan → List Char → Bool
  | _, [] => false
  | .string, c :: cs =>
    if c = '\\' then spellsFraction .escape cs
    else if c = '"' then spellsFraction .between cs
    else spellsFraction .string cs
  | .escape, _ :: cs => spellsFraction .string cs
  | .number, c :: cs =>
    if endsNumber c then spellsFraction .between cs
    else c == '.' || c == 'e' || c == 'E' || spellsFraction .number cs
  | .between, c :: cs =>
    if c = '"' then spellsFraction .string cs
    else if c = '-' ∨ c.isDigit then spellsFraction .number cs
    else spellsFraction .between cs

/-- `text::jsonb` -/
def jsonbOf (text : String) : Except Raised Json :=
  match Jsonb.ofText text with
  | some value => .ok value
  | none => .error ⟨"invalid input syntax for type json", "22P02"⟩

def canonicalDomainJsonString (text : String) : Except Raised String := do
  require (spellsFraction .between text.toList = false) fractional
  let value ← jsonbOf text
  canonicalDomainJson value

def IsCanonical (text : String) (value : Json) : Prop :=
  Jsonb.ofText text = some value ∧ value.integral = true ∧ text = String.ofList value.canonical

variable {text : String} {value : Json}

theorem jsonbOf_ok_iff : jsonbOf text = .ok value ↔ Jsonb.ofText text = some value := by
  unfold jsonbOf
  split
  · rename_i v hv
    rw [hv, Option.some.injEq, Except.ok.injEq]
  · rename_i hv
    simp [hv]

theorem canonicalDomainJson_ok_iff :
    canonicalDomainJson value = .ok text ↔ value.integral = true ∧ text = String.ofList value.canonical := by
  unfold canonicalDomainJson
  split_ifs with h
  · simp [h, eq_comm]
  · simp [h]

theorem isCanonical_of (h : canonicalDomainJsonString text = .ok text) : ∃ value, IsCanonical text value := by
  unfold canonicalDomainJsonString at h
  obtain ⟨-, -, h⟩ := bind_ok_iff.1 h
  obtain ⟨value, hvalue, h⟩ := bind_ok_iff.1 h
  rw [canonicalDomainJson_ok_iff] at h
  exact ⟨value, jsonbOf_ok_iff.1 hvalue, h⟩

theorem IsCanonical.storable (h : IsCanonical text value) : value.Storable :=
  Json.storable_read h.1

theorem IsCanonical.text_eq {other : String} (h : IsCanonical text value)
    (hother : IsCanonical other value) : text = other := by rw [h.2.2, hother.2.2]

open Json DigitText

theorem spellsFraction_hexDigits (n : ℕ) (rest : List Char) :
    spellsFraction .string (hexDigits n ++ rest) = spellsFraction .string rest := by
  have hdigit : ∀ d < 16, ∀ cs : List Char, spellsFraction .string (hexDigit d :: cs) = spellsFraction .string cs := by
    intro d hd cs
    interval_cases d <;> rfl
  unfold hexDigits
  simp only [List.cons_append, List.nil_append]
  rw [hdigit _ (Nat.mod_lt _ (by decide)), hdigit _ (Nat.mod_lt _ (by decide)), hdigit _ (Nat.mod_lt _ (by decide)),
    hdigit _ (Nat.mod_lt _ (by decide))]

theorem spellsFraction_unitEscape (n : ℕ) (rest : List Char) :
    spellsFraction .string (unitEscape n ++ rest) = spellsFraction .string rest := by
  rw [unitEscape, List.cons_append, List.cons_append, spellsFraction, if_pos rfl, spellsFraction,
    spellsFraction_hexDigits]

theorem spellsFraction_canonicalChar (c : Char) (rest : List Char) :
    spellsFraction .string (canonicalChar c ++ rest) = spellsFraction .string rest := by
  unfold canonicalChar
  split_ifs with hquote hslash
  any_goals rfl
  · exact spellsFraction_unitEscape _ _
  · rw [List.append_assoc, spellsFraction_unitEscape, spellsFraction_unitEscape]
  · have hslash' : c ≠ '\\' := fun h => hslash (by rw [h]; rfl)
    have hquote' : c ≠ '"' := fun h => hquote (by rw [h]; rfl)
    rw [List.cons_append, List.nil_append, spellsFraction, if_neg hslash', if_neg hquote']

theorem spellsFraction_canonicalString (s rest : List Char) :
    spellsFraction .between (canonicalString s ++ rest) = spellsFraction .between rest := by
  have hflat : ∀ cs : List Char, spellsFraction .string (cs.flatMap canonicalChar ++ '"' :: rest) =
      spellsFraction .between rest := by
    intro cs
    induction cs with
    | nil => rfl
    | cons c cs ih => rw [List.flatMap_cons, List.append_assoc, spellsFraction_canonicalChar, ih]
  rw [canonicalString, List.cons_append, spellsFraction, if_pos rfl, List.append_assoc, List.singleton_append, hflat]

variable {rest : List Char}

theorem spellsFraction_number {ds : List Char} (hds : ∀ c ∈ ds, c.isDigit = true) (hrest : Follows rest) :
    spellsFraction .number (ds ++ rest) = spellsFraction .between rest := by
  induction ds with
  | nil =>
    cases rest with
    | nil => rfl
    | cons c cs => rcases hrest c rfl with rfl | rfl | rfl <;> rfl
  | cons d ds ih =>
    rw [List.forall_mem_cons] at hds
    have hne : ∀ c : Char, c.isDigit = false → d ≠ c := by
      rintro c hc rfl
      rw [hds.1] at hc
      cases hc
    have hends : endsNumber d = false := by
      simp [endsNumber, isSpace, hne ' ' (by decide), hne '\t' (by decide), hne '\n' (by decide),
        hne '\r' (by decide), hne ',' (by decide), hne '\x7d' (by decide), hne ']' (by decide)]
    rw [List.cons_append, spellsFraction, hends, if_neg (by decide), ih hds.2]
    simp [hne '.' (by decide), hne 'e' (by decide), hne 'E' (by decide)]

theorem spellsFraction_numberText (n : ℤ) (hrest : Follows rest) :
    spellsFraction .between (numberText n 0 ++ rest) = spellsFraction .between rest := by
  have hdigits : ∀ c ∈ naturalText n.natAbs, c.isDigit = true := fun c hc => isDigit_of_mem_naturalText hc
  rw [numberText_zero]
  split_ifs with hsign
  · show spellsFraction .between ('-' :: (naturalText n.natAbs ++ rest)) = _
    rw [spellsFraction, if_neg (by decide), if_pos (.inl rfl), spellsFraction_number hdigits hrest]
  · obtain ⟨c, cs, hcons, hc⟩ := naturalText_eq_cons n.natAbs
    rw [hcons] at hdigits ⊢
    have hquote : c ≠ '"' := by
      rintro rfl
      exact absurd hc (by decide)
    rw [List.nil_append, List.cons_append, spellsFraction, if_neg hquote, if_pos (.inr hc),
      spellsFraction_number (fun d hd => hdigits d (List.mem_cons_of_mem _ hd)) hrest]

mutual

theorem spellsFraction_canonical : ∀ (value : Json) {rest : List Char}, value.integral = true → Follows rest →
    spellsFraction .between (canonical value ++ rest) = spellsFraction .between rest
  | .null, _, _, _ => rfl
  | .bool true, _, _, _ => rfl
  | .bool false, _, _, _ => rfl
  | .num n scale, rest, hwhole, hrest => by
    obtain rfl : scale = 0 := by simpa [integral] using hwhole
    exact spellsFraction_numberText n hrest
  | .str s, rest, _, _ => spellsFraction_canonicalString s.toList rest
  | .arr items, rest, hwhole, _ => by
    rw [canonical, List.cons_append]
    exact spellsFraction_canonicalItems items hwhole
  | .obj members, rest, hwhole, _ => by
    rw [canonical, List.cons_append]
    exact spellsFraction_canonicalMembers members hwhole

theorem spellsFraction_canonicalItems : ∀ (items : List Json) {rest : List Char}, integralItems items = true →
    spellsFraction .between (canonicalItems items ++ rest) = spellsFraction .between rest
  | [], _, _ => rfl
  | value :: rest, tail, hwhole => by
    rw [integralItems, Bool.and_eq_true] at hwhole
    rw [canonicalItems_cons, List.append_assoc]
    split_ifs
    · rw [List.singleton_append, spellsFraction_canonical value hwhole.1 (follows_bracket _)]
      rfl
    · rw [List.cons_append, spellsFraction_canonical value hwhole.1 (follows_comma _)]
      exact spellsFraction_canonicalItems rest hwhole.2

theorem spellsFraction_canonicalMembers : ∀ (members : List (String × Json)) {rest : List Char},
    integralMembers members = true →
      spellsFraction .between (canonicalMembers members ++ rest) = spellsFraction .between rest
  | [], _, _ => rfl
  | (key, value) :: rest, tail, hwhole => by
    rw [integralMembers, Bool.and_eq_true] at hwhole
    rw [canonicalMembers_cons, List.append_assoc, spellsFraction_canonicalString, List.cons_append, List.append_assoc]
    show spellsFraction .between (canonical value ++ _) = _
    split_ifs
    · rw [List.singleton_append, spellsFraction_canonical value hwhole.1 (follows_brace _)]
      rfl
    · rw [List.cons_append, spellsFraction_canonical value hwhole.1 (follows_comma _)]
      exact spellsFraction_canonicalMembers rest hwhole.2

end

theorem canonicalDomainJsonString_canonical (h : value.Storable) (hwhole : value.integral = true) :
    canonicalDomainJsonString (String.ofList value.canonical) = .ok (String.ofList value.canonical) := by
  have hspells : spellsFraction .between (String.ofList value.canonical).toList = false := by
    have hscan := spellsFraction_canonical value hwhole follows_nil
    rw [List.append_nil] at hscan
    rw [String.toList_ofList, hscan]
    rfl
  have hread : jsonbOf (String.ofList value.canonical) = .ok value := by
    rw [jsonbOf_ok_iff, Jsonb.ofText, String.toList_ofList, read_canonical h hwhole]
  rw [canonicalDomainJsonString, require_of _ hspells, ok_bind, hread, ok_bind]
  exact canonicalDomainJson_ok_iff.2 ⟨hwhole, rfl⟩

end TradingAgent.CanonicalJson
