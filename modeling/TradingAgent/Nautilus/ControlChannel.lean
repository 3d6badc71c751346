import TradingAgent.Lib.Bytes
import TradingAgent.Lib.Outcome

/-!
# Frames of the paper control channel

`frame_payload`, `iter_payloads` and `read_payload` of `runtime_v1/control_channel.py`. The two readers take a
stream apart alike where no read ends inside a header (`control_framing_iff`).
-/

namespace TradingAgent.Nautilus.ControlChannel

open Outcome

def maxFrameBytes : ℕ := 65536

def maxFrames : ℕ := 4096

def headerBytes : ℕ := 4

def truncated : String := "paper control stream is truncated or oversized"

def frame (payload : List UInt8) : List UInt8 := toBytesBig headerBytes payload.length ++ payload

def framePayload (payload : List UInt8) : Except String (List UInt8) :=
  if payload = [] ∨ maxFrameBytes < payload.length then .error "paper frame exceeds maximum size"
  else .ok (frame payload)

/-- The loop of `iter_payloads` from a cursor on, with room for so many payloads. -/
def iterFrom (stream : List UInt8) : ℕ → ℕ → Except String (List (List UInt8))
  | 0, cursor => if cursor < stream.length then .error truncated else .ok []
  | room + 1, cursor =>
    if cursor < stream.length then
      if stream.length - cursor < headerBytes then .error truncated
      else
        let size := fromBytesBig ((stream.drop cursor).take headerBytes)
        let cursor := cursor + headerBytes
        if size = 0 ∨ maxFrameBytes < size ∨ stream.length - cursor < size then .error truncated
        else do
          let payloads ← iterFrom stream room (cursor + size)
          .ok ((stream.drop cursor).take size :: payloads)
    else .ok []

def iterPayloads (stream : List UInt8) : Except String (List (List UInt8)) := iterFrom stream maxFrames 0

abbrev ByteSource := List (UInt8 × Bool)

def ByteSource.bytes (source : ByteSource) : List UInt8 := source.map Prod.fst

/-- `stream.read(n)` -/
def readChunk : ℕ → ByteSource → List UInt8 × ByteSource
  | 0, source => ([], source)
  | _, [] => ([], [])
  | n + 1, (byte, ends) :: source =>
    if ends then ([byte], source) else (byte :: (readChunk n source).1, (readChunk n source).2)

/-- The loop of `read_payload` over the chunks of a body. -/
def readBody (remaining : ℕ) (source : ByteSource) : Except String (List UInt8 × ByteSource) :=
  if remaining = 0 then .ok ([], source)
  else if _h : (readChunk remaining source).1 = [] then .error truncated
  else do
    let (chunks, rest) ← readBody (remaining - (readChunk remaining source).1.length) (readChunk remaining source).2
    .ok ((readChunk remaining source).1 ++ chunks, rest)
termination_by remaining
decreasing_by
  have := List.length_pos_iff.2 _h
  omega

def readPayload (source : ByteSource) : Except String (Option (List UInt8) × ByteSource) :=
  let (header, source) := readChunk headerBytes source
  if header = [] then .ok (none, source)
  else if header.length ≠ headerBytes then .error truncated
  else
    let size := fromBytesBig header
    if size = 0 ∨ maxFrameBytes < size then .error truncated
    else do
      let (payload, source) ← readBody size source
      .ok (some payload, source)

/-- What `read_payload` gives until the end of the stream: the payloads, or the error that it raises before. -/
inductive Reads : ByteSource → Except String (List (List UInt8)) → Prop
  | ended {source rest : ByteSource} (h : readPayload source = .ok (none, rest)) : Reads source (.ok [])
  | raised {source : ByteSource} {e : String} (h : readPayload source = .error e) : Reads source (.error e)
  | payload {source rest : ByteSource} {payload : List UInt8} {outcome : Except String (List (List UInt8))}
      (h : readPayload source = .ok (some payload, rest)) (hrest : Reads rest outcome) :
      Reads source (outcome.map (payload :: ·))

/-- Every header is read whole. -/
def HeadersWhole : List (List UInt8) → ByteSource → Prop
  | [], _ => True
  | payload :: payloads, source => (readChunk headerBytes source).1.length = headerBytes ∧
      HeadersWhole payloads (source.drop (headerBytes + payload.length))

/-! ## Frames -/

/-- The payload fits one frame. -/
def Frameable (payload : List UInt8) : Prop := 0 < payload.length ∧ payload.length ≤ maxFrameBytes

def Broken (bytes : List UInt8) : Prop :=
  bytes ≠ [] ∧ (bytes.length < headerBytes ∨ fromBytesBig (bytes.take headerBytes) = 0 ∨
    maxFrameBytes < fromBytesBig (bytes.take headerBytes) ∨
    bytes.length - headerBytes < fromBytesBig (bytes.take headerBytes))

variable {payload : List UInt8} {payloads others : List (List UInt8)} {stream bytes rest : List UInt8}

theorem framePayload_of (h : Frameable payload) : framePayload payload = .ok (frame payload) := by
  refine if_neg (not_or.2 ⟨fun hnil => ?_, not_lt.2 h.2⟩)
  rw [hnil] at h
  exact absurd h.1 (lt_irrefl 0)

@[simp] theorem length_frame : (frame payload).length = headerBytes + payload.length := by
  simp [frame]

theorem frame_append_ne_nil : frame payload ++ rest ≠ [] := by
  intro h
  have := congrArg List.length h
  simp [headerBytes] at this

theorem Frameable.size_eq (h : Frameable payload) :
    fromBytesBig ((frame payload ++ rest).take headerBytes) = payload.length := by
  rw [frame, List.append_assoc, List.take_left' (length_toBytesBig _ _)]
  exact fromBytesBig_toBytesBig (lt_of_le_of_lt h.2 (by decide))

theorem Frameable.not_broken (h : Frameable payload) : ¬ Broken (frame payload ++ rest) := by
  have hpos := h.1
  have hle := h.2
  rintro ⟨-, hbroken⟩
  rw [h.size_eq, List.length_append, length_frame] at hbroken
  omega

theorem exists_frame (hne : bytes ≠ []) (hbroken : ¬ Broken bytes) :
    ∃ payload, Frameable payload ∧ payload = (bytes.drop headerBytes).take (fromBytesBig (bytes.take headerBytes)) ∧
      bytes = frame payload ++ bytes.drop (headerBytes + payload.length) := by
  rw [Broken, not_and] at hbroken
  have hwhole := hbroken hne
  push Not at hwhole
  obtain ⟨hheader, hpos, hle, hlength⟩ := hwhole
  have hpayload : ((bytes.drop headerBytes).take (fromBytesBig (bytes.take headerBytes))).length =
      fromBytesBig (bytes.take headerBytes) := by
    rw [List.length_take, List.length_drop]
    omega
  have hbytes := toBytesBig_fromBytesBig (bytes.take headerBytes)
  rw [List.length_take_of_le hheader] at hbytes
  refine ⟨_, ⟨by omega, by omega⟩, rfl, ?_⟩
  rw [frame, hpayload, hbytes, List.append_assoc, ← List.drop_drop, List.take_append_drop, List.take_append_drop]

theorem frames_prefix (hpayloads : ∀ payload ∈ payloads, Frameable payload) (hothers : ∀ other ∈ others, Frameable other)
    (h : payloads.flatMap frame = others.flatMap frame ++ rest) (hrest : rest = [] ∨ Broken rest ∨
      payloads.length ≤ others.length) : payloads = others ∧ rest = [] := by
  induction others generalizing payloads with
  | nil =>
    cases payloads with
    | nil => exact ⟨rfl, h.symm⟩
    | cons payload payloads =>
      rw [List.flatMap_cons, List.flatMap_nil, List.nil_append] at h
      rw [List.forall_mem_cons] at hpayloads
      rcases hrest with rfl | hbroken | hlength
      · exact absurd h frame_append_ne_nil
      · exact absurd (h ▸ hbroken) hpayloads.1.not_broken
      · exact absurd hlength (Nat.not_succ_le_zero _)
  | cons other others ih =>
    cases payloads with
    | nil =>
      rw [List.flatMap_cons, List.append_assoc] at h
      exact absurd h.symm frame_append_ne_nil
    | cons payload payloads =>
      rw [List.forall_mem_cons] at hpayloads hothers
      rw [List.flatMap_cons, List.flatMap_cons, List.append_assoc] at h
      have hlength : payload.length = other.length := by rw [← hpayloads.1.size_eq, h, hothers.1.size_eq]
      obtain ⟨hframe, htail⟩ := List.append_inj h (by rw [length_frame, length_frame, hlength])
      obtain ⟨heq, hnil⟩ := ih hpayloads.2 hothers.2 htail (hrest.imp_right (Or.imp_right Nat.le_of_succ_le_succ))
      exact ⟨by rw [heq, (List.append_inj hframe (by simp)).2], hnil⟩

/-! ## Iterating -/

/-- The payloads are those of the bytes up to the rest, where the bytes end or break off. -/
structure Parsed (bytes : List UInt8) (payloads : List (List UInt8)) (rest : List UInt8) : Prop where
  frameable : ∀ payload ∈ payloads, Frameable payload
  bytes_eq : bytes = payloads.flatMap frame ++ rest

theorem Parsed.cons (hpayload : Frameable payload) (h : Parsed bytes payloads rest) :
    Parsed (frame payload ++ bytes) (payload :: payloads) rest :=
  ⟨List.forall_mem_cons.2 ⟨hpayload, h.frameable⟩, by rw [h.bytes_eq, List.flatMap_cons, List.append_assoc]⟩

theorem iterFrom_spec (stream : List UInt8) (room cursor : ℕ) : ∃ payloads rest,
    Parsed (stream.drop cursor) payloads rest ∧
      (rest = [] ∧ payloads.length ≤ room ∧ iterFrom stream room cursor = .ok payloads ∨
        (payloads.length = room ∧ rest ≠ [] ∨ Broken rest) ∧ iterFrom stream room cursor = .error truncated) := by
  induction room generalizing cursor with
  | zero =>
    refine ⟨[], stream.drop cursor, ⟨by simp, rfl⟩, ?_⟩
    rw [iterFrom]
    by_cases hend : cursor < stream.length
    · exact .inr ⟨.inl ⟨rfl, List.drop_eq_nil_iff.not.2 (by omega)⟩, if_pos hend⟩
    · exact .inl ⟨List.drop_eq_nil_iff.2 (by omega), le_rfl, if_neg hend⟩
  | succ room ih =>
    rw [iterFrom]
    by_cases hend : cursor < stream.length
    swap
    · exact ⟨[], stream.drop cursor, ⟨by simp, rfl⟩,
        .inl ⟨List.drop_eq_nil_iff.2 (by omega), Nat.zero_le _, if_neg hend⟩⟩
    rw [if_pos hend]
    by_cases hbroken : Broken (stream.drop cursor)
    · refine ⟨[], stream.drop cursor, ⟨by simp, rfl⟩, .inr ⟨.inr hbroken, ?_⟩⟩
      obtain ⟨-, hwrong⟩ := hbroken
      rw [List.length_drop, Nat.sub_sub] at hwrong
      by_cases hshort : stream.length - cursor < headerBytes
      · rw [if_pos hshort]
      · rw [if_neg hshort, if_pos (hwrong.resolve_left hshort)]
    · obtain ⟨payload, hframeable, hpayload, hbytes⟩ :=
        exists_frame (List.drop_eq_nil_iff.not.2 (by omega)) hbroken
      have hsize : fromBytesBig ((stream.drop cursor).take headerBytes) = payload.length := by
        rw [hbytes, hframeable.size_eq]
      have hlength := congrArg List.length hbytes
      rw [List.length_append, length_frame, List.length_drop] at hlength
      obtain ⟨hpos, hle⟩ := hframeable
      obtain ⟨payloads, rest, hparsed, hend⟩ := ih (cursor + headerBytes + payload.length)
      rw [hsize, List.drop_drop] at hpayload
      rw [List.drop_drop, ← Nat.add_assoc] at hbytes
      rw [hsize, if_neg (by omega), if_neg (by omega), ← hpayload, hbytes]
      refine ⟨payload :: payloads, rest, hparsed.cons ⟨hpos, hle⟩, ?_⟩
      rcases hend with ⟨hrest, hroom, heq⟩ | ⟨hwrong, heq⟩ <;> rw [heq]
      · exact .inl ⟨hrest, Nat.succ_le_succ hroom, rfl⟩
      · exact .inr ⟨hwrong.imp_left fun h => ⟨congrArg (· + 1) h.1, h.2⟩, rfl⟩

theorem iterPayloads_frames (hframeable : ∀ payload ∈ payloads, Frameable payload) (hroom : payloads.length ≤ maxFrames) :
    iterPayloads (payloads.flatMap frame) = .ok payloads := by
  obtain ⟨others, rest, hparsed, hend⟩ := iterFrom_spec (payloads.flatMap frame) maxFrames 0
  have hagree := frames_prefix hframeable hparsed.frameable hparsed.bytes_eq
  rcases hend with ⟨hrest, -, heq⟩ | ⟨⟨hlength, hne⟩ | hbroken, -⟩
  · exact heq.trans (congrArg _ (hagree (.inl hrest)).1.symm)
  · exact absurd (hagree (.inr (.inr (hlength ▸ hroom)))).2 hne
  · exact absurd (hagree (.inr (.inl hbroken))).2 hbroken.1

theorem iterPayloads_ok (h : iterPayloads stream = .ok payloads) :
    (∀ payload ∈ payloads, Frameable payload) ∧ stream = payloads.flatMap frame ∧ payloads.length ≤ maxFrames := by
  obtain ⟨others, rest, hparsed, ⟨rfl, hroom, heq⟩ | ⟨-, heq⟩⟩ := iterFrom_spec stream maxFrames 0
  · obtain rfl := Except.ok.inj (heq.symm.trans h)
    exact ⟨hparsed.frameable, hparsed.bytes_eq.trans (List.append_nil _), hroom⟩
  · cases heq.symm.trans h

/-! ## Reading -/

variable {source : ByteSource}

theorem readChunk_spec (n : ℕ) (source : ByteSource) : ∃ k ≤ n, k ≤ source.length ∧
    (0 < n → source ≠ [] → 0 < k) ∧ readChunk n source = (ByteSource.bytes (source.take k), source.drop k) := by
  induction n generalizing source with
  | zero => exact ⟨0, le_rfl, Nat.zero_le _, fun h => absurd h (lt_irrefl 0), rfl⟩
  | succ n ih =>
    match source with
    | [] => exact ⟨0, Nat.zero_le _, le_rfl, fun _ h => absurd rfl h, rfl⟩
    | (byte, true) :: source => exact ⟨1, by omega, by simp, fun _ _ => Nat.one_pos, rfl⟩
    | (byte, false) :: source =>
      obtain ⟨k, hle, hlength, -, heq⟩ := ih source
      refine ⟨k + 1, by omega, by simpa using hlength, fun _ _ => Nat.succ_pos k, ?_⟩
      rw [readChunk, heq]
      rfl

theorem length_bytes (source : ByteSource) : source.bytes.length = source.length := List.length_map _

theorem length_bytes_take {k : ℕ} (h : k ≤ source.length) : (ByteSource.bytes (source.take k)).length = k := by
  rw [length_bytes, List.length_take_of_le h]

theorem readBody_eq (n : ℕ) (source : ByteSource) : readBody n source =
    if source.length < n then .error truncated else .ok (ByteSource.bytes (source.take n), source.drop n) := by
  induction n using Nat.strong_induction_on generalizing source with
  | _ n ih =>
    rw [readBody]
    by_cases hn : n = 0
    · simp [hn, ByteSource.bytes]
    obtain ⟨k, hle, hlength, hpos, heq⟩ := readChunk_spec n source
    rw [if_neg hn, heq]
    by_cases hsource : source = []
    · subst hsource
      exact (dif_pos (by simp [ByteSource.bytes])).trans (if_pos (Nat.pos_of_ne_zero hn)).symm
    have hk := hpos (Nat.pos_of_ne_zero hn) hsource
    have hbytes := length_bytes_take hlength
    dsimp only
    rw [dif_neg fun hnil => hk.ne' (hbytes.symm.trans (congrArg List.length hnil))]
    rw [hbytes, ih (n - k) (by omega), List.length_drop]
    by_cases hshort : source.length < n
    · rw [if_pos (by omega), if_pos hshort]
      rfl
    · rw [if_neg (by omega), if_neg hshort, ok_bind]
      dsimp only
      rw [List.drop_drop, ByteSource.bytes, ByteSource.bytes, ByteSource.bytes, ← List.map_append, ← List.take_add,
        show k + (n - k) = n by omega]

theorem bytes_take (n : ℕ) : ByteSource.bytes (source.take n) = source.bytes.take n := List.map_take

theorem readChunk_header (hne : source.bytes ≠ []) : (readChunk headerBytes source).1 ≠ [] ∧
    ((readChunk headerBytes source).1.length = headerBytes → headerBytes ≤ source.bytes.length ∧
      readChunk headerBytes source = (source.bytes.take headerBytes, source.drop headerBytes)) := by
  obtain ⟨k, -, hlength, hpos, heq⟩ := readChunk_spec headerBytes source
  have hbytes := length_bytes_take hlength
  have hk := hpos (by decide) fun hnil => hne (by rw [hnil]; rfl)
  rw [heq]
  refine ⟨fun hnil => hk.ne' (hbytes.symm.trans (congrArg List.length hnil)), fun hwhole => ?_⟩
  obtain rfl : k = headerBytes := hbytes.symm.trans hwhole
  rw [bytes_take, length_bytes]
  exact ⟨hlength, rfl⟩

theorem readPayload_whole (hpayload : Frameable payload) (hbytes : source.bytes = frame payload ++ rest)
    (hwhole : (readChunk headerBytes source).1.length = headerBytes) :
    readPayload source = .ok (some payload, source.drop (headerBytes + payload.length)) := by
  obtain ⟨hne, hheader⟩ := @readChunk_header source (hbytes ▸ frame_append_ne_nil)
  have hlength := congrArg List.length hbytes
  rw [length_bytes, List.length_append, length_frame] at hlength
  rw [readPayload]
  dsimp only
  rw [if_neg hne, if_neg (not_not.2 hwhole), (hheader hwhole).2]
  dsimp only
  rw [hbytes, hpayload.size_eq, if_neg (not_or.2 ⟨hpayload.1.ne', not_lt.2 hpayload.2⟩), readBody_eq, List.length_drop,
    if_neg (by omega), ok_bind]
  dsimp only
  rw [bytes_take, show ByteSource.bytes (source.drop headerBytes) = source.bytes.drop headerBytes from List.map_drop,
    hbytes, frame, List.append_assoc, List.drop_left' (length_toBytesBig _ _), List.take_left' rfl, List.drop_drop]

theorem readPayload_error (hne : source.bytes ≠ [])
    (h : (readChunk headerBytes source).1.length ≠ headerBytes ∨ Broken source.bytes) :
    readPayload source = .error truncated := by
  obtain ⟨hnonempty, hheader⟩ := readChunk_header hne
  rw [readPayload]
  dsimp only
  rw [if_neg hnonempty]
  by_cases hwhole : (readChunk headerBytes source).1.length = headerBytes
  · obtain ⟨-, hbroken⟩ := h.resolve_left (not_not.2 hwhole)
    obtain ⟨hle, heq⟩ := hheader hwhole
    rw [if_neg (not_not.2 hwhole), heq]
    dsimp only
    rw [readBody_eq, List.length_drop, ← length_bytes]
    rcases hbroken with hshort | hzero | hlong | hbody
    · exact absurd hshort (not_lt.2 hle)
    · exact if_pos (.inl hzero)
    · exact if_pos (.inr hlong)
    · rw [if_pos hbody, error_bind, ite_self]
  · exact if_pos hwhole

theorem reads_unique {x y : Except String (List (List UInt8))} (hx : Reads source x) (hy : Reads source y) : x = y := by
  induction hx generalizing y with
  | ended h | raised h => cases hy <;> simp_all
  | payload h _ ih =>
    cases hy with
    | ended h' | raised h' => simp_all
    | payload h' hrest =>
      rw [h] at h'
      cases h'
      rw [ih hrest]

theorem reads_frames (hparsed : Parsed source.bytes payloads rest) :
    (HeadersWhole payloads source → rest = [] → Reads source (.ok payloads)) ∧
      (¬ HeadersWhole payloads source ∨ Broken rest → Reads source (.error truncated)) := by
  induction payloads generalizing source with
  | nil =>
    have hbytes : source.bytes = rest := hparsed.bytes_eq
    refine ⟨fun _ hnil => ?_, fun hwrong => .raised ?_⟩
    · rw [hnil] at hbytes
      obtain rfl : source = [] := List.map_eq_nil_iff.1 hbytes
      exact .ended rfl
    · have hbroken := hwrong.resolve_left (not_not.2 trivial)
      exact readPayload_error (hbytes ▸ hbroken.1) (.inr (hbytes ▸ hbroken))
  | cons payload payloads ih =>
    obtain ⟨hframeable, hbytes⟩ := hparsed
    rw [List.forall_mem_cons] at hframeable
    rw [List.flatMap_cons, List.append_assoc] at hbytes
    by_cases hwhole : (readChunk headerBytes source).1.length = headerBytes
    · have hread := readPayload_whole hframeable.1 hbytes hwhole
      have htail : Parsed (ByteSource.bytes (source.drop (headerBytes + payload.length))) payloads rest :=
        ⟨hframeable.2, by rw [ByteSource.bytes, List.map_drop, ← ByteSource.bytes, hbytes, List.drop_left' length_frame]⟩
      obtain ⟨hok, herror⟩ := ih htail
      exact ⟨fun h hnil => .payload hread (hok h.2 hnil),
        fun h => .payload hread (herror (h.imp_left fun hnot hheaders => hnot ⟨hwhole, hheaders⟩))⟩
    · exact ⟨fun h => absurd h.1 hwhole,
        fun _ => .raised (readPayload_error (hbytes ▸ frame_append_ne_nil) (.inl hwhole))⟩

/-! ## The readers -/

def Oversized (bytes : List UInt8) : Prop :=
  ∃ payloads rest, Parsed bytes payloads rest ∧ payloads.length = maxFrames ∧ rest ≠ []

/-- Framing is undone by `iter_payloads` alone, and `read_payload` agrees with it on the bytes of the source. -/
structure Framing (source : ByteSource) : Prop where
  iterates : ∀ payloads : List (List UInt8), payloads.length ≤ maxFrames → (∀ payload ∈ payloads, Frameable payload) →
    (∀ payload ∈ payloads, framePayload payload = .ok (frame payload)) ∧
      iterPayloads (payloads.flatMap frame) = .ok payloads
  iterated : ∀ stream payloads, iterPayloads stream = .ok payloads →
    (∀ payload ∈ payloads, framePayload payload = .ok (frame payload)) ∧ stream = payloads.flatMap frame
  reads : ∀ payloads, iterPayloads source.bytes = .ok payloads → Reads source (.ok payloads)
  raises : ∀ e, iterPayloads source.bytes = .error e → ¬ Oversized source.bytes → ∃ e', Reads source (.error e')

theorem control_framing_iff (source : ByteSource) : Framing source ↔ ∀ payloads : List (List UInt8),
    payloads.length ≤ maxFrames → (∀ payload ∈ payloads, Frameable payload) →
      source.bytes = payloads.flatMap frame → HeadersWhole payloads source := by
  have hwritten {payloads : List (List UInt8)} (h : ∀ payload ∈ payloads, Frameable payload) :
      ∀ payload ∈ payloads, framePayload payload = .ok (frame payload) := fun payload hp => framePayload_of (h payload hp)
  constructor
  · intro h payloads hroom hframeable hbytes
    by_contra hcut
    have hok := h.reads payloads (hbytes ▸ iterPayloads_frames hframeable hroom)
    have hparsed : Parsed source.bytes payloads [] := ⟨hframeable, by rw [hbytes, List.append_nil]⟩
    cases reads_unique hok ((reads_frames hparsed).2 (.inl hcut))
  · intro hwhole
    refine ⟨fun payloads hroom hframeable => ⟨hwritten hframeable, iterPayloads_frames hframeable hroom⟩,
      fun stream payloads h => ?_, fun payloads h => ?_, fun e h hsize => ?_⟩
    · obtain ⟨hframeable, hbytes, -⟩ := iterPayloads_ok h
      exact ⟨hwritten hframeable, hbytes⟩
    · obtain ⟨hframeable, hbytes, hroom⟩ := iterPayloads_ok h
      have hparsed : Parsed source.bytes payloads [] := ⟨hframeable, by rw [hbytes, List.append_nil]⟩
      exact (reads_frames hparsed).1 (hwhole payloads hroom hframeable hbytes) rfl
    · obtain ⟨payloads, rest, hparsed, ⟨-, -, heq⟩ | ⟨hwrong, -⟩⟩ := iterFrom_spec source.bytes maxFrames 0
      · cases heq.symm.trans h
      · have hbroken := hwrong.resolve_left fun hmany => hsize ⟨payloads, rest, hparsed, hmany⟩
        exact ⟨_, (reads_frames hparsed).2 (.inr hbroken)⟩

/-- The first read ends inside the header of a frame of one byte. -/
theorem cut_header_raises : ¬ Framing [(0, false), (0, true), (0, false), (1, false), (7, false)] := by
  intro h
  have hframeable : ∀ payload ∈ [[7]], Frameable payload := by simp [Frameable, maxFrameBytes]
  have hbytes : ByteSource.bytes [(0, false), (0, true), (0, false), (1, false), (7, false)] = [[7]].flatMap frame := rfl
  cases reads_unique (h.reads _ (hbytes ▸ iterPayloads_frames hframeable (by decide))) (.raised rfl)

end TradingAgent.Nautilus.ControlChannel
