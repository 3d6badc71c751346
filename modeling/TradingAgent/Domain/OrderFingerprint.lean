import TradingAgent.Domain.OrderLifecycle
import TradingAgent.Lib.JsonText
import TradingAgent.Nautilus.Instants

/-!
# Fingerprints of order observations

`_event_fingerprint` takes SHA-256 of the canonical JSON of an observation. That text tells any two observations of
one order under one event id apart.
-/

namespace TradingAgent

open DigitText

def OrderStatus.value : OrderStatus → String
  | .initialized => "INITIALIZED"
  | .submitted => "SUBMITTED"
  | .accepted => "ACCEPTED"
  | .pendingUpdate => "PENDING_UPDATE"
  | .pendingCancel => "PENDING_CANCEL"
  | .triggered => "TRIGGERED"
  | .partiallyFilled => "PARTIALLY_FILLED"
  | .filled => "FILLED"
  | .canceled => "CANCELED"
  | .expired => "EXPIRED"
  | .rejected => "REJECTED"
  | .denied => "DENIED"

def OrderCancelResolution.value : OrderCancelResolution → String
  | .rejected => "REJECTED"

/-- The material of `_event_fingerprint`, with its keys sorted. -/
def OrderEventMaterial.json (e : OrderEventMaterial) : Json :=
  .obj [("cancel_resolution", e.cancelResolution.elim .null fun r => .str r.value),
    ("event_id", .str (uuidText e.eventId)),
    ("occurred_at", .str (Nautilus.isoMicroseconds (Nautilus.utcOf e.occurredAt))),
    ("order_id", .str (uuidText e.orderId)),
    ("reason", e.reason.elim .null fun r => .str r.1),
    ("schema_version", .str "2.0"),
    ("sequence", .num e.sequence 0),
    ("target_status", .str e.targetStatus.value)]

def OrderEventMaterial.text (e : OrderEventMaterial) : String := String.ofList e.json.canonical

/-- `_event_fingerprint`, with `sha256` for `hashlib.sha256`. -/
def eventFingerprint (sha256 : String → Sha256) (e : OrderEventMaterial) : Sha256 := sha256 e.text

/-! ## The text can be read back -/

theorem storableText_append {s t : String} (hs : Json.StorableText s) (ht : Json.StorableText t) :
    Json.StorableText (s ++ t) := by
  intro c hc
  rw [String.toList_append, List.mem_append] at hc
  exact hc.elim (hs c) (ht c)

theorem storableText_of_all {s : String} (h : (s.toList.all fun c => c.toNat != 0) = true) : Json.StorableText s :=
  fun c hc => bne_iff_ne.1 (List.all_eq_true.1 h c hc)

theorem uuidDigit_toNat (n : ℕ) : (uuidDigit n).toNat ≠ 0 := by
  have hall : ∀ c ∈ "0123456789abcdef".toList, c.toNat ≠ 0 := storableText_of_all (by decide)
  unfold uuidDigit
  rw [List.getD_eq_getElem?_getD]
  cases h : "0123456789abcdef".toList[n]? with
  | none => decide
  | some c => exact hall c (List.mem_of_getElem? h)

theorem storableText_uuidText (id : Uuid) : Json.StorableText (uuidText id) := by
  have hdigits : ∀ c ∈ (List.range 32).map fun i => uuidDigit (id / 16 ^ (31 - i) % 16), c.toNat ≠ 0 := by
    intro c hc
    obtain ⟨i, -, rfl⟩ := List.mem_map.1 hc
    exact uuidDigit_toNat _
  unfold uuidText
  generalize (List.range 32).map (fun i => uuidDigit (id / 16 ^ (31 - i) % 16)) = digits at hdigits
  have hpart (start count : ℕ) : Json.StorableText (String.ofList ((digits.drop start).take count)) :=
    Json.storableText_ofList fun c hc => hdigits c (List.mem_of_mem_drop (List.mem_of_mem_take hc))
  have hdash (t : String) (start count : ℕ) (ht : Json.StorableText t) :
      Json.StorableText (t ++ "-" ++ String.ofList ((digits.drop start).take count)) :=
    storableText_append (storableText_append ht (storableText_of_all (by decide))) (hpart start count)
  exact hdash _ _ _ (hdash _ _ _ (hdash _ _ _ (hdash _ _ _ (hpart _ _))))

theorem storableText_isoMicroseconds (t : Nautilus.UtcDateTime) : Json.StorableText (Nautilus.isoMicroseconds t) := by
  have hdigit (k n : ℕ) : ∀ c ∈ fixedDigits k n, c.toNat ≠ 0 := by
    intro c hc hzero
    have hdigit := isDigit_of_mem_fixedDigits hc
    rw [Char.ext (show c.val = (Char.ofNat 0).val from UInt32.toNat_inj.1 hzero)] at hdigit
    exact absurd hdigit (by decide)
  refine Json.storableText_ofList ?_
  simp only [Nautilus.secondChars, List.forall_mem_append, List.forall_mem_cons, List.not_mem_nil, false_implies,
    implies_true, and_true]
  exact ⟨hdigit _ _, by decide, hdigit _ _, by decide, hdigit _ _, by decide, hdigit _ _, by decide, hdigit _ _,
    by decide, hdigit _ _, by decide, hdigit _ _, by decide⟩

theorem storableText_reason (reason : CanonicalReason) : Json.StorableText reason.1 := by
  obtain ⟨text, h⟩ := reason
  intro c hc hzero
  obtain rfl : c = Char.ofNat 0 := Char.ext (UInt32.toNat_inj.1 hzero)
  unfold isCanonicalReason at h
  change _ ∈ text.toList at hc
  cases hchars : text.toList with
  | nil => simp [hchars] at hc
  | cons first rest =>
    rw [hchars] at h hc
    simp only [Bool.and_eq_true, List.all_eq_true] at h
    rcases List.mem_cons.1 hc with rfl | hc
    · exact absurd h.1.1 (by decide)
    · exact absurd (h.2 _ hc) (by decide)

theorem OrderStatus.storable_value (s : OrderStatus) : Json.StorableText s.value := by
  refine storableText_of_all ?_
  cases s <;> decide

theorem OrderStatus.value_injective {s t : OrderStatus} (h : s.value = t.value) : s = t := by
  revert h
  cases s <;> cases t <;> decide

variable {e e' : OrderEventMaterial}

theorem OrderEventMaterial.Valid.storable (h : e.Valid) : e.json.Storable := by
  have hkey (s : String) (hs : s.toList.all (fun c => c.toNat ≠ 0) = true) : Json.StorableText s := by
    simpa [Json.StorableText] using hs
  have hsorted : ["cancel_resolution", "event_id", "occurred_at", "order_id", "reason", "schema_version", "sequence",
      "target_status"].Pairwise (· < ·) := by decide
  refine ⟨hsorted, hkey _ (by decide), ?_, hkey _ (by decide), storableText_uuidText _, hkey _ (by decide),
    storableText_isoMicroseconds _, hkey _ (by decide), storableText_uuidText _, hkey _ (by decide), ?_,
    hkey _ (by decide), hkey _ (by decide), hkey _ (by decide), ?_, hkey _ (by decide), e.targetStatus.storable_value,
    trivial⟩
  · cases e.cancelResolution with
    | none => trivial
    | some r =>
      cases r
      exact hkey _ (by decide)
  · cases e.reason with
    | none => trivial
    | some reason => exact storableText_reason reason
  · intro _
    rw [Int.natAbs_natCast]
    exact h.2.1.trans (by decide)

theorem OrderEventMaterial.integral_json (e : OrderEventMaterial) : e.json.integral = true := by
  obtain ⟨_, _, _, _, _, reason, resolution⟩ := e
  cases reason <;> cases resolution <;> rfl

/-- Only the two identifiers are not read back: they have no bound here, and their texts have 32 digits. -/
theorem OrderEventMaterial.text_inj (h : e.Valid) (h' : e'.Valid) (hevent : e.eventId = e'.eventId)
    (horder : e.orderId = e'.orderId) (htext : e.text = e'.text) : e = e' := by
  have hjson := Json.canonical_inj h.storable e.integral_json h'.storable e'.integral_json (String.ofList_inj.1 htext)
  simp only [json, Json.obj.injEq, List.cons.injEq, Prod.mk.injEq, true_and, and_true, Json.str.injEq,
    Json.num.injEq, Nat.cast_inj] at hjson
  obtain ⟨hresolution, -, htime, -, hreason, hsequence, hstatus⟩ := hjson
  refine OrderEventMaterial.ext hevent horder hsequence (OrderStatus.value_injective hstatus) ?_ ?_ ?_
  · have hread := congrArg Nautilus.parseUtc htime
    rw [Nautilus.parseUtc_isoMicroseconds, Nautilus.parseUtc_isoMicroseconds, Option.some.injEq] at hread
    rw [← Nautilus.instantOf_utcOf e.occurredAt, hread, Nautilus.instantOf_utcOf]
  · cases hr : e.reason <;> cases hr' : e'.reason <;> simp_all [Subtype.ext_iff]
  · cases hr : e.cancelResolution <;> cases hr' : e'.cancelResolution <;> simp_all

/-- Texts of the run that SHA-256 maps to one digest are equal. -/
def FingerprintsDiffer (sha256 : String → Sha256) (events : List OrderEvent) : Prop :=
  Set.InjOn sha256 {text | ∃ event ∈ events, event.text = text}

theorem distinguishes_eventFingerprint {sha256 : String → Sha256} {orderId : Uuid} {events : List OrderEvent}
    (horder : ∀ event ∈ events, event.orderId = orderId) (h : FingerprintsDiffer sha256 events) :
    Distinguishes (eventFingerprint sha256) (· ∈ events) := by
  intro a b ha hb hid hsame
  exact OrderEvent.ext_iff.2 (OrderEventMaterial.ext_iff.1 (OrderEventMaterial.text_inj a.valid b.valid hid
    ((horder a ha).trans (horder b hb).symm) (h ⟨a, ha, rfl⟩ ⟨b, hb, rfl⟩ hsame)))

end TradingAgent
