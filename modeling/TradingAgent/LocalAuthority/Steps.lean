import TradingAgent.LocalAuthority.Admission

/-! What each transaction of the authority store writes. -/

namespace TradingAgent.LocalAuthority

open Outcome Transaction Transaction.Tx

variable {host : Host} {store store' : Store} {w w' : World}

/-! ## Readers -/

theorem error_of_require {p : Prop} [Decidable p] {e e' : Raised} (h : require p e = .error e') : ¬ p ∧ e = e' := by
  unfold require at h
  split_ifs at h with hp
  exact ⟨hp, Except.error.inj h⟩

variable {α : Type}

theorem read_ok_iff {entry : Entry α} {a : α} : entry.read = .ok a ↔ entry = .file a := by
  cases entry with
  | absent => simp [Entry.read]
  | unreadable raised => simp [Entry.read]
  | file content => simp [Entry.read]

theorem protectedBytes_ok_iff {path : String} {entry : Entry ByteArray} {raw : ByteArray} :
    protectedBytes path entry = .ok raw ↔ entry = .file raw ∧ raw.size ≤ maxBundleBytes := by
  unfold protectedBytes
  simp only [bind_ok_iff, read_ok_iff, require_ok_iff, Except.ok.injEq]
  constructor
  · rintro ⟨bytes, hfile, _, hsize, rfl⟩
    exact ⟨hfile, hsize⟩
  · rintro ⟨hfile, hsize⟩
    exact ⟨raw, hfile, (), hsize, rfl⟩

variable {generation : ℤ}

theorem storedGeneration_bounds (h : storedGeneration store = .ok generation) :
    0 ≤ generation ∧ generation ≤ maxGeneration := by
  unfold storedGeneration at h
  split at h
  · cases h
    exact ⟨le_refl 0, by decide⟩
  · cases h
  · simp only [bind_ok_iff, require_ok_iff, Except.ok.injEq] at h
    obtain ⟨_, hbounds, rfl⟩ := h
    exact hbounds

theorem storedGeneration_file (hfile : store.generation = .file generation)
    (h : 0 ≤ generation ∧ generation ≤ maxGeneration) : storedGeneration store = .ok generation := by
  unfold storedGeneration
  rw [hfile]
  simp [Entry.read, require_of _ h]

theorem eq_of_storedGeneration {current : ℤ} (hfile : store.generation = .file generation)
    (h : storedGeneration store = .ok current) : generation = current := by
  unfold storedGeneration at h
  rw [hfile] at h
  simp only [Entry.read, bind_ok_iff, Except.ok.injEq] at h
  obtain ⟨_, _, rfl⟩ := h
  rfl

theorem storedGeneration_congr (h : store'.generation = store.generation) :
    storedGeneration store' = storedGeneration store := by
  unfold storedGeneration
  rw [h]

theorem storeDigest_congr (h : store'.approvals = store.approvals) (gates : List String) :
    storeDigest host store' gates = storeDigest host store gates := by
  unfold storeDigest digestGate
  rw [h]

variable {gates : List String} {now : ℤ} {snap : Snapshot}

theorem snapshot_ok_iff : snapshot host store gates now = .ok snap ↔ ∃ readings generation,
      (sortBy id gates).mapM (readGate host store now) = .ok readings ∧ storedGeneration store = .ok generation ∧
        snap = ⟨generation, host.issuer, readings.map Prod.fst, readings.map Prod.snd, host.digest (.obj
          [("approvals", pairsJson (readings.map Prod.fst)), ("receipts", pairsJson (readings.map Prod.snd))])⟩ := by
  unfold snapshot
  simp only [bind_ok_iff, Except.ok.injEq]
  constructor
  · rintro ⟨readings, hreadings, generation, hgeneration, rfl⟩
    exact ⟨readings, generation, hreadings, hgeneration, rfl⟩
  · rintro ⟨readings, generation, hreadings, hgeneration, rfl⟩
    exact ⟨readings, hreadings, generation, hgeneration, rfl⟩

theorem snapshot_generation
    (h : snapshot host store gates now = .ok snap) : storedGeneration store = .ok snap.generation := by
  obtain ⟨readings, generation, _, hgeneration, rfl⟩ := snapshot_ok_iff.1 h
  exact hgeneration

theorem requireNoBypassingWriter_ok {record : Attestation}
    (h : requireNoBypassingWriter host store gates = .ok record) :
    store.attestation = .file record ∧ storedGeneration store = .ok record.generation := by
  unfold requireNoBypassingWriter at h
  simp only [bind_ok_iff, require_ok_iff, Except.ok.injEq] at h
  obtain ⟨attestation, hread, _, _, generation, hgeneration, _, hcurrent, _, _, _, _, rfl⟩ := h
  refine ⟨?_, by rw [hcurrent]; exact hgeneration⟩
  unfold readAttestation at hread
  split at hread
  · cases hread
  · cases hread
  · cases hread
  · next found hfound =>
    cases hread
    exact read_ok_iff.1 hfound

theorem consumedGeneration_congr (h : store'.consumed = store.consumed) :
    consumedGeneration host store' = consumedGeneration host store := by
  unfold consumedGeneration
  rw [h]

theorem consumedGeneration_file {value : Consumption} (hfile : store.consumed = .file value)
    (hissuer : value.schemaVersion = protocolVersion ∧ value.issuer = host.issuer)
    (hbounds : 0 ≤ value.generation ∧ value.generation ≤ maxGeneration) :
    consumedGeneration host store = .ok value.generation := by
  unfold consumedGeneration
  rw [hfile]
  simp [Entry.read, require_of _ hissuer, require_of _ hbounds]

variable {validated : Snapshot} {proposal : Proposal} {deadline : ℤ}

theorem prepared_ok {call : AdmitCall} (h : prepared host store call = .ok (validated, proposal, deadline)) :
    (∃ record, requireNoBypassingWriter host store call.gates = .ok record) ∧
      snapshot host store call.gates call.started = .ok validated ∧
      call.prepare store.approvals validated = .ok proposal ∧
      (∀ name ∈ bundleMembers, name ∈ proposal.bundle.keys) ∧ deadlineNs host proposal.expiresAt = .ok deadline := by
  unfold prepared at h
  simp only [bind_ok_iff, require_ok_iff, Except.ok.injEq, Prod.mk.injEq] at h
  obtain ⟨_, _, record, hrecord, validated', hsnapshot, proposal', hprepare, _, hmembers, _, _, _, _, _, _, _, _,
    deadline', hdeadline, _, _, rfl, rfl, rfl⟩ := h
  exact ⟨⟨record, hrecord⟩, hsnapshot, hprepare, hmembers.2, hdeadline⟩

/-! ## Transactions -/

def World.advanced (w : World) (generation : ℤ) : World where
  store := { w.store with generation := .file generation }
  log := w.log ++ [.advanced generation]

def World.publish (w : World) (f : Store → Store) : World := { w with store := f w.store }

variable {β : Type}

variable (f : Store → Except Raised α) {g : α → Action β}
include f

theorem bind_readStore_ok {a : α} (h : f w.store = .ok a) : (readStore f >>= g) w = g a w := bind_read_ok h

variable {raised : Raised}

theorem bind_readStore_error
    (h : f w.store = .error raised) : (readStore f >>= g) w = ([], .error raised) := bind_read_error h

omit f

variable {following : ℤ}

theorem advance_ok_iff : (advance w).2 = .ok following ↔
    ∃ current, storedGeneration w.store = .ok current ∧ current < maxGeneration ∧ following = current + 1 := by
  unfold advance readStore
  simp only [returns_bind_iff, read_apply, check_apply, require_ok_iff, write_apply, pure_apply, Except.ok.injEq]
  constructor
  · rintro ⟨current, hcurrent, _, hless, _, _, rfl⟩
    exact ⟨current, hcurrent, hless, rfl⟩
  · rintro ⟨current, hcurrent, hless, rfl⟩
    exact ⟨current, hcurrent, (), hless, (), trivial, rfl⟩

theorem advance_writes (h : (advance w).2 = .ok following) : (advance w).1 = [w.advanced following] := by
  obtain ⟨current, hcurrent, hless, rfl⟩ := advance_ok_iff.1 h
  unfold advance readStore
  rw [bind_apply_ok hcurrent]
  have hcheck : (check (current < maxGeneration) (.held "authority generation would overflow") : Action Unit) w =
      ([], .ok ()) := by
    rw [check_apply, require_of _ hless]
  simp only [read_apply, last_nil, List.nil_append]
  rw [bind_apply_ok (congrArg Prod.snd hcheck), hcheck]
  rfl

theorem advance_writes_error (h : (advance w).2 = .error raised) : (advance w).1 = [] := by
  unfold advance readStore at h ⊢
  rcases raises_bind_iff.1 h with hread | ⟨current, hcurrent, hrest⟩
  · rw [bind_apply_error hread]
    rfl
  · rw [bind_apply_ok hcurrent]
    rcases raises_bind_iff.1 hrest with hcheck | ⟨_, _, hwrite⟩
    · rw [bind_apply_error hcheck]
      rfl
    · cases hwrite

variable {Inv : World → Prop}

theorem upholds_advance {Q : ℤ → World → Prop}
    (h : ∀ current, storedGeneration w.store = .ok current → current < maxGeneration →
      Inv (w.advanced (current + 1)) ∧ Q (current + 1) (w.advanced (current + 1))) : Upholds Inv Q advance w := by
  cases hresult : (advance w).2 with
  | error raised =>
    constructor
    · rw [advance_writes_error hresult]
      intro t ht
      cases ht
    · intro following hfollowing
      rw [hresult] at hfollowing
      cases hfollowing
  | ok following =>
    obtain ⟨current, hcurrent, hless, rfl⟩ := advance_ok_iff.1 hresult
    obtain ⟨hinv, hpost⟩ := h current hcurrent hless
    have hwrites := advance_writes hresult
    constructor
    · rw [hwrites]
      intro t ht
      rw [List.mem_singleton.1 ht]
      exact hinv
    · intro following hfollowing
      rw [hresult] at hfollowing
      cases hfollowing
      rw [hwrites]
      exact hpost

theorem upholds_advance_bind {Q : α → World → Prop} {f : ℤ → Action α}
    (h : ∀ current, storedGeneration w.store = .ok current → current < maxGeneration →
      Inv (w.advanced (current + 1)) ∧ Upholds Inv Q (f (current + 1)) (w.advanced (current + 1))) :
    Upholds Inv Q (advance >>= f) w :=
  (upholds_advance (Q := fun generation t => Upholds Inv Q (f generation) t) h).bind fun _ _ hrest => hrest

/-! ## Writers -/

/-- Approvals may have been published since the generation of `w` was advanced. -/
structure Replacing (w : World) (generation : ℤ) (t : World) : Prop where
  stored : t.store.generation = .file generation
  commit : t.store.commit = w.store.commit
  consumed : t.store.consumed = w.store.consumed
  log : t.log = w.log ++ [.advanced generation]

variable {t : World}

theorem upholds_publishApprovals (payloads : List (String × ByteArray)) (h : Replacing w generation t) :
    Upholds (Replacing w generation) (fun _ => Replacing w generation) (publishApprovals payloads) t := by
  induction payloads generalizing t with
  | nil => exact upholds_pure h
  | cons p rest ih =>
    obtain ⟨gate, payload⟩ := p
    have hpublished : Replacing w generation (t.publish fun store =>
        { store with approvals := Function.update store.approvals gate (.file payload) }) :=
      ⟨h.stored, h.commit, h.consumed, h.log⟩
    exact upholds_write_bind hpublished (ih hpublished)

theorem upholds_replaceApprovals (payloads : Dict String ByteArray) (gates : List String) :
    Upholds (fun t => ∃ current, storedGeneration w.store = .ok current ∧ current < maxGeneration ∧
      Replacing w (current + 1) t) (fun _ _ => True) (replaceApprovals host payloads gates) w := by
  refine upholds_check_bind fun _ => upholds_check_bind fun _ => upholds_read_bind fun _ _ => ?_
  refine upholds_advance_bind fun current hcurrent hless => ?_
  have hstart : Replacing w (current + 1) (w.advanced (current + 1)) := ⟨rfl, rfl, rfl, rfl⟩
  have hkeep : ∀ t, Replacing w (current + 1) t → ∃ current, storedGeneration w.store = .ok current ∧
      current < maxGeneration ∧ Replacing w (current + 1) t := fun t ht => ⟨current, hcurrent, hless, ht⟩
  refine ⟨hkeep _ hstart, ((upholds_publishApprovals (sortBy Prod.fst payloads) hstart).weaken hkeep).bind ?_⟩
  intro _ t ht
  refine Upholds.bind (Q := fun _ _ => True) ?_ fun _ _ _ => upholds_pure trivial
  refine upholds_read_bind fun digest _ => upholds_write_bind ?_ (upholds_pure trivial)
  exact hkeep _ ⟨ht.stored, ht.commit, ht.consumed, ht.log⟩

/-! ## Admission -/

/-- An admission of `w` has advanced the generation, and may have staged its bundle. -/
structure Advanced (w : World) (generation : ℤ) (t : World) : Prop where
  stored : t.store.generation = .file generation
  approvals : t.store.approvals = w.store.approvals
  attestation : t.store.attestation = w.store.attestation
  commit : t.store.commit = w.store.commit
  consumed : t.store.consumed = w.store.consumed
  log : t.log = w.log ++ [.advanced generation]

/-- An admission of `w` has published its record. -/
structure Committed (w : World) (generation : ℤ) (admission : Admission) (t : World) : Prop where
  stored : t.store.generation = .file generation
  approvals : t.store.approvals = w.store.approvals
  attestation : t.store.attestation = w.store.attestation
  commit : t.store.commit = .file admission.record
  consumed : t.store.consumed = w.store.consumed
  log : t.log = w.log ++ [.advanced generation, .committed admission]

theorem advanced_advanced (w : World) (generation : ℤ) : Advanced w generation (w.advanced generation) :=
  ⟨rfl, rfl, rfl, rfl, rfl, rfl⟩

theorem upholds_makeStaging (h : Advanced w generation t) (name : String) :
    Upholds (Advanced w generation) (fun _ => Advanced w generation) (makeStaging name) t := by
  have hmade : Advanced w generation
      (t.publish fun store => { store with staging := store.staging.set name fun _ => .absent }) :=
    ⟨h.stored, h.approvals, h.attestation, h.commit, h.consumed, h.log⟩
  exact upholds_read_bind fun _ _ => upholds_write hmade hmade

theorem upholds_stageMembers (bundle : Dict String ByteArray) (directory : String)
    (names : List String) (manifest : Dict String String) (h : Advanced w generation t) :
    Upholds (Advanced w generation) (fun _ => Advanced w generation)
      (stageMembers host bundle directory names manifest) t := by
  induction names generalizing manifest t with
  | nil => exact upholds_pure h
  | cons name rest ih =>
    unfold stageMembers
    cases hpayload : bundle.get? name with
    | none => exact upholds_raise
    | some payload =>
      have hstaged : Advanced w generation (t.publish fun store => store.stage directory name payload) :=
        ⟨h.stored, h.approvals, h.attestation, h.commit, h.consumed, h.log⟩
      exact upholds_check_bind fun _ => upholds_write_bind hstaged (ih _ hstaged)

def Records (host : Host) (w : World) (call : AdmitCall) (validated : Snapshot) (proposal : Proposal) (deadline : ℤ)
    (generation : ℤ) (record : CommitRecord) : Prop :=
  ∃ snap token manifest, snapshot host (w.advanced generation).store call.gates call.now = .ok snap ∧
    snap.approvals = validated.approvals ∧
    record = commitRecord host call proposal snap generation token (call.monotonic + (deadline - call.now)) manifest

theorem upholds_commit (host : Host) (w : World) (call : AdmitCall) (approvals : String → Entry ByteArray)
    (validated : Snapshot) (proposal : Proposal) (deadline : ℤ) :
    Upholds (fun t => ∃ current, storedGeneration w.store = .ok current ∧ current < maxGeneration ∧
        (Advanced w (current + 1) t ∨ ∃ record, Records host w call validated proposal deadline (current + 1) record ∧
          Committed w (current + 1) ⟨record, call, approvals⟩ t))
      (fun record t => ∃ current, storedGeneration w.store = .ok current ∧ current < maxGeneration ∧
        Records host w call validated proposal deadline (current + 1) record ∧
        Committed w (current + 1) ⟨record, call, approvals⟩ t)
      (commit host call approvals validated proposal deadline) w := by
  unfold commit
  refine upholds_advance_bind fun current hcurrent hless => ?_
  refine ⟨⟨current, hcurrent, hless, .inl (advanced_advanced w _)⟩, ?_⟩
  · refine upholds_read_bind fun snap hsnap => upholds_check_bind fun hsame => upholds_lift_bind fun token _ => ?_
    have hkeep : ∀ t, Advanced w (current + 1) t → ∃ current, storedGeneration w.store = .ok current ∧
        current < maxGeneration ∧ (Advanced w (current + 1) t ∨ ∃ record,
          Records host w call validated proposal deadline (current + 1) record ∧
          Committed w (current + 1) ⟨record, call, approvals⟩ t) :=
      fun t ht => ⟨current, hcurrent, hless, .inl ht⟩
    refine ((upholds_makeStaging (advanced_advanced w _) _).weaken hkeep).bind ?_
    intro _ t ht
    refine ((upholds_stageMembers _ _ _ _ ht).weaken hkeep).bind ?_
    intro manifest t ht
    refine upholds_check_bind fun _ => ?_
    have hrecords : Records host w call validated proposal deadline (current + 1)
        (commitRecord host call proposal snap (current + 1) token (call.monotonic + (deadline - call.now)) manifest) :=
      ⟨snap, token, manifest, hsnap, (Prod.mk.inj hsame).1, rfl⟩
    have hlog : t.log ++ [.committed ⟨commitRecord host call proposal snap (current + 1) token
        (call.monotonic + (deadline - call.now)) manifest, call, approvals⟩] =
        w.log ++ [.advanced (current + 1), .committed ⟨commitRecord host call proposal snap (current + 1) token
          (call.monotonic + (deadline - call.now)) manifest, call, approvals⟩] := by
      rw [ht.log, List.append_assoc, List.singleton_append]
    exact upholds_write_bind ⟨current, hcurrent, hless, .inr
        ⟨_, hrecords, ht.stored, ht.approvals, ht.attestation, rfl, ht.consumed, hlog⟩⟩
      (upholds_pure
        ⟨current, hcurrent, hless, hrecords, ht.stored, ht.approvals, ht.attestation, rfl, ht.consumed, hlog⟩)

theorem admit_unprepared {call : AdmitCall} (h : prepared host w.store call = .error raised) :
    admitIntent host call w = ([], .error raised) := by
  unfold admitIntent
  rw [bind_readStore_ok (fun store => .ok store.approvals) rfl,
    bind_readStore_error (fun store => prepared host store call) h]

theorem admit_prepared {call : AdmitCall} (h : prepared host w.store call = .ok (validated, proposal, deadline)) :
    admitIntent host call w = ((commit host call w.store.approvals validated proposal deadline >>= fun record =>
      attest host call.gates >>= fun _ => pure record : Action CommitRecord)) w := by
  unfold admitIntent
  rw [bind_readStore_ok (fun store => .ok store.approvals) rfl,
    bind_readStore_ok (fun store => prepared host store call) h]

def World.attested (w : World) (record : Attestation) : World :=
  w.publish fun store => { store with attestation := .file record }

theorem upholds_attest {Q : Attestation → World → Prop} (gates : List String)
    (h : ∀ record, Inv (w.attested record) ∧ Q record (w.attested record)) : Upholds Inv Q (attest host gates) w := by
  refine upholds_read_bind fun generation _ => upholds_read_bind fun digest _ => ?_
  exact upholds_write_bind (h ⟨protocolVersion, host.issuer, generation, digest⟩).1 (upholds_pure (h _).2)

/-- What admitting has done: the commit, or the commit and then an attestation record. -/
def Admitted (w : World) (generation : ℤ) (admission : Admission) (t : World) : Prop :=
  Committed w generation admission t ∨ ∃ u record, Committed w generation admission u ∧ t = u.attested record

/-- What `admitIntent` has done when it has written something: a world after its advance or after its commit. -/
theorem upholds_admitIntent (call : AdmitCall)
    (hready : prepared host w.store call = .ok (validated, proposal, deadline)) :
    Upholds (fun t => ∃ current, storedGeneration w.store = .ok current ∧ current < maxGeneration ∧
        (Advanced w (current + 1) t ∨ ∃ record, Records host w call validated proposal deadline (current + 1) record ∧
          Admitted w (current + 1) ⟨record, call, w.store.approvals⟩ t))
      (fun record t => ∃ current, storedGeneration w.store = .ok current ∧ current < maxGeneration ∧
        Records host w call validated proposal deadline (current + 1) record ∧
        Admitted w (current + 1) ⟨record, call, w.store.approvals⟩ t) (admitIntent host call) w := by
  refine Upholds.congr (Upholds.bind (Upholds.weaken
    (upholds_commit host w call w.store.approvals validated proposal deadline) ?_) ?_) (admit_prepared hready)
  · rintro t ⟨current, hcurrent, hless, hadvanced | ⟨record, hrecords, hcommitted⟩⟩
    · exact ⟨current, hcurrent, hless, .inl hadvanced⟩
    · exact ⟨current, hcurrent, hless, .inr ⟨record, hrecords, .inl hcommitted⟩⟩
  · rintro record t ⟨current, hcurrent, hless, hrecords, hcommitted⟩
    refine (upholds_attest (Q := fun _ u => Admitted w (current + 1) ⟨record, call, w.store.approvals⟩ u)
      call.gates fun attestation => ?_).bind fun _ u hu => upholds_pure ⟨current, hcurrent, hless, hrecords, hu⟩
    have hadmitted : Admitted w (current + 1) ⟨record, call, w.store.approvals⟩ (t.attested attestation) :=
      .inr ⟨t, attestation, hcommitted, rfl⟩
    exact ⟨⟨current, hcurrent, hless, .inr ⟨record, hrecords, hadmitted⟩⟩, hadmitted⟩

theorem Admitted.consumed {admission : Admission} (h : Admitted w generation admission t) :
    t.store.consumed = w.store.consumed := by
  rcases h with h | ⟨u, record, h, rfl⟩
  · exact h.consumed
  · exact h.consumed

/-! ## Effects -/

variable {call : ConsumeCall} {record : CommitRecord}

theorem runEffect_returns_iff :
    (runEffect call record w).2 = .ok () ↔ ∀ effect, call.apply = some effect → effect record = .ok () := by
  unfold runEffect
  cases call.apply with
  | none => simp
  | some effect =>
    constructor
    · intro h other hother
      cases hother
      obtain ⟨_, _, hrun⟩ := returns_bind_iff.1 h
      exact hrun
    · intro h
      exact returns_bind_iff.2 ⟨(), rfl, h effect rfl⟩

theorem consume_returns_iff : (consume host call w).2 = .ok record ↔ consumable host w.store call = .ok record ∧
      ∀ effect, call.apply = some effect → effect record = .ok () := by
  constructor
  · intro h
    obtain ⟨found, hfound, hrest⟩ := returns_bind_iff.1 h
    obtain ⟨_, _, hrest⟩ := returns_bind_iff.1 hrest
    obtain ⟨_, hrun, hpure⟩ := returns_bind_iff.1 hrest
    have hsame : found = record := Except.ok.inj hpure
    subst hsame
    exact ⟨hfound, runEffect_returns_iff.1 hrun⟩
  · rintro ⟨hfound, heffect⟩
    refine returns_bind_iff.2 ⟨record, hfound, returns_bind_iff.2 ⟨(), rfl, ?_⟩⟩
    exact returns_bind_iff.2 ⟨(), runEffect_returns_iff.2 heffect, rfl⟩

theorem consumable_generation {store : Store}
    (h : consumable host store call = .ok record) : storedGeneration store = .ok record.generation := by
  unfold consumable at h
  simp only [bind_ok_iff, require_ok_iff, Except.ok.injEq] at h
  obtain ⟨_, _, found, _, _, _, _, _, _, _, _, _, _, _, _, _, _, _, _, _, snap, hsnap, _, hgeneration, _, _, _, _, _, _,
    _, _, _, _, rfl⟩ := h
  rw [← hgeneration]
  exact snapshot_generation hsnap

def World.spent (w : World) (consumption : Consumption) : World :=
  w.publish fun store => { store with consumed := .file consumption }

def World.ran (w : World) (call : ConsumeCall) (record : CommitRecord) : World :=
  { w with log := w.log ++ [.ran ⟨call, record, w.store.approvals⟩] }

theorem consume_unconsumable (h : consumable host w.store call = .error raised) :
    consume host call w = ([], .error raised) :=
  bind_readStore_error (fun store => consumable host store call) h

theorem runEffect_writes (call : ConsumeCall) (record : CommitRecord) :
    (runEffect call record w).1 = if call.apply.isSome then [w.ran call record] else [] := by
  unfold runEffect
  cases call.apply with
  | none => rfl
  | some effect => rfl

theorem consume_writes (h : consumable host w.store call = .ok record) :
    (consume host call w).1 = w.spent (consumptionOf host call record) ::
      if call.apply.isSome then [(w.spent (consumptionOf host call record)).ran call record] else [] := by
  have hstep : consume host call w = ((publish fun store =>
      { store with consumed := .file (consumptionOf host call record) }) >>= fun _ =>
        runEffect call record >>= fun _ => (pure record : Action CommitRecord)) w :=
    bind_readStore_ok (fun store => consumable host store call) h
  rw [hstep, publish, bind_write, writes_bind_pure, runEffect_writes]
  rfl

end TradingAgent.LocalAuthority
