import TradingAgent.LocalAuthority.Steps

/-! Which refused admissions leave the store usable. -/

namespace TradingAgent.LocalAuthority

open Outcome Transaction Transaction.Tx

variable (host : Host)

def after {α : Type} (x : Action α) (w : World) : World := last w (x w).1

/-- The `admitIntent` call succeeds, and its admission can be consumed. -/
def Usable (w : World) (call : AdmitCall) : Prop :=
  ∃ record, (admitIntent host call w).2 = .ok record ∧
    ∃ consumption, (consume host consumption (after (admitIntent host call) w)).2 = .ok record

def ApprovalExpired (store : Store) (now : ℤ) (gate : String) : Prop :=
  ∃ raw approval expiresAt, store.approvals gate = .file raw ∧ host.loads raw = .ok approval ∧
    dictGet approval "expires_at" = .ok expiresAt ∧ checkExpiry host gate now expiresAt ≠ .ok ()

/-- A refusal after the advance of the generation: a member too large, an approval that expires, or the deadline. -/
def LateRefusal (store : Store) (call : AdmitCall) : Prop :=
  ∃ validated proposal deadline, prepared host store call = .ok (validated, proposal, deadline) ∧
    ((∃ name ∈ bundleMembers, ∃ payload, proposal.bundle.get? name = some payload ∧ maxBundleBytes < payload.size) ∨
      (∃ gate ∈ call.gates, ApprovalExpired host store call.now gate) ∨ deadline ≤ call.staged)

variable {host} {w v : World}

/-! ## Stores that differ in what was consumed -/

def AgreeButConsumed (w v : World) : Prop := v.store = { w.store with consumed := v.store.consumed }

variable {f : Store → Store}

theorem agreeButConsumed_publish (hf : ∀ store consumed, f { store with consumed := consumed } =
    { f store with consumed := consumed }) (h : AgreeButConsumed w v) :
    AgreeButConsumed (w.publish f) (v.publish f) := by
  have hfields : f v.store = { f w.store with consumed := v.store.consumed } := by
    nth_rewrite 1 [h]
    exact hf _ _
  show f v.store = { f w.store with consumed := (f v.store).consumed }
  rw [hfields]

variable {α : Type}

theorem simulates_readStore {f : Store → Except Raised α}
    (hf : ∀ store consumed, f { store with consumed := consumed } = f store) :
    Simulates AgreeButConsumed (readStore f) := by
  refine simulates_read fun s t hst => ?_
  show f t.store = f s.store
  rw [hst]
  exact hf _ _

theorem simulates_publish (hf : ∀ store consumed, f { store with consumed := consumed } =
    { f store with consumed := consumed }) : Simulates AgreeButConsumed (publish f) :=
  simulates_write fun _ _ hst => agreeButConsumed_publish hf hst

theorem simulates_advance : Simulates AgreeButConsumed advance := by
  refine (simulates_readStore fun _ _ => rfl).bind fun current => ?_
  refine (simulates_check _ _).bind fun _ => ?_
  refine (simulates_write fun s t hst => ?_).bind fun _ => simulates_pure _
  exact agreeButConsumed_publish (f := fun store => { store with generation := .file (current + 1) })
    (fun _ _ => rfl) hst

theorem simulates_attest (gates : List String) : Simulates AgreeButConsumed (attest host gates) := by
  refine (simulates_readStore fun _ _ => rfl).bind fun generation => ?_
  refine (simulates_readStore fun _ _ => rfl).bind fun digest => ?_
  exact (simulates_publish fun _ _ => rfl).bind fun _ => simulates_pure _

theorem simulates_stageMembers (bundle : Dict String ByteArray) (directory : String) (names : List String)
    (manifest : Dict String String) :
    Simulates AgreeButConsumed (stageMembers host bundle directory names manifest) := by
  induction names generalizing manifest with
  | nil => exact simulates_pure _
  | cons name rest ih =>
    unfold stageMembers
    cases bundle.get? name with
    | none => exact simulates_raise _
    | some payload =>
      refine (simulates_check _ _).bind fun _ => ?_
      exact (simulates_publish fun _ _ => rfl).bind fun _ => ih _

theorem simulates_commit (call : AdmitCall) (approvals : String → Entry ByteArray) (validated : Snapshot)
    (proposal : Proposal) (deadline : ℤ) :
    Simulates AgreeButConsumed (commit host call approvals validated proposal deadline) := by
  refine simulates_advance.bind fun generation => ?_
  refine (simulates_readStore fun _ _ => rfl).bind fun snap => ?_
  refine (simulates_check _ _).bind fun _ => ?_
  refine (simulates_lift _).bind fun token => ?_
  refine Simulates.bind ?_ fun _ => ?_
  · refine (simulates_readStore fun _ _ => rfl).bind fun _ => ?_
    exact simulates_publish fun _ _ => rfl
  refine (simulates_stageMembers _ _ _ _).bind fun manifest => ?_
  refine (simulates_check _ _).bind fun _ => ?_
  refine (simulates_write fun s t hst => ?_).bind fun _ => simulates_pure _
  exact agreeButConsumed_publish (f := fun store => { store with commit := .file (commitRecord host call proposal snap
    generation token (call.monotonic + (deadline - call.now)) manifest) }) (fun _ _ => rfl) hst

theorem simulates_admitIntent (call : AdmitCall) : Simulates AgreeButConsumed (admitIntent host call) := by
  refine (simulates_readStore fun _ _ => rfl).bind fun approvals => ?_
  refine (simulates_readStore fun _ _ => rfl).bind fun ready => ?_
  refine (simulates_commit _ _ _ _ _).bind fun record => ?_
  exact (simulates_attest _).bind fun _ => simulates_pure _

variable {spent : ℤ}

theorem consumable_of_agree {call : ConsumeCall} {record : CommitRecord} (h : AgreeButConsumed w v)
    (hrecord : consumable host w.store call = .ok record) (hspent : consumedGeneration host v.store = .ok spent)
    (hless : spent < record.generation) : consumable host v.store call = .ok record := by
  have hagree : v.store = { w.store with consumed := v.store.consumed } := h
  unfold consumable at hrecord ⊢
  simp only [bind_ok_iff, require_ok_iff, Except.ok.injEq] at hrecord ⊢
  obtain ⟨_, haction, found, hfound, _, hstate, _, hpath, _, hname, _, hsame, _, hboot, attested, hattested, _, _, _, _,
    snap, hsnap, _, hgeneration, _, hdigest, deadline, hdeadline, _, hnow, _, hmonotonic, _, hmembers, rfl⟩ := hrecord
  rw [hagree] at hspent ⊢
  exact ⟨(), haction, found, hfound, (), hstate, (), hpath, (), hname, (), hsame, (), hboot, attested, hattested,
    spent, hspent, (), hless, snap, hsnap, (), hgeneration, (), hdigest, deadline, hdeadline, (), hnow, (), hmonotonic, (),
    hmembers, rfl⟩

/-! ## Refusals after the advance -/

variable {store : Store} {started : ℤ}

theorem readGate_again {gate : String} {now : ℤ} {a : (String × String) × (String × String)}
    (h : readGate host store started gate = .ok a) :
    readGate host store now gate = .ok a ∨ ApprovalExpired host store now gate := by
  unfold readGate at h ⊢
  simp only [bind_ok_iff, require_ok_iff] at h ⊢
  obtain ⟨raw, hraw, approval, hloads, revoked, hrevoked, _, hfalse, expiresAt, hexpires, _, _, rest⟩ := h
  by_cases hcheck : checkExpiry host gate now expiresAt = .ok ()
  · exact .inl ⟨raw, hraw, approval, hloads, revoked, hrevoked, (), hfalse, expiresAt, hexpires, (), hcheck, rest⟩
  · exact .inr ⟨raw, approval, expiresAt, (protectedBytes_ok_iff.1 hraw).1, hloads, hexpires, hcheck⟩

variable {gates : List String}

theorem readGates_again (now : ℤ)
    {readings : List ((String × String) × (String × String))} (h : gates.mapM (readGate host store started) = .ok readings) :
    gates.mapM (readGate host store now) = .ok readings ∨ ∃ gate ∈ gates, ApprovalExpired host store now gate := by
  by_cases hexpired : ∃ gate ∈ gates, ApprovalExpired host store now gate
  · exact .inr hexpired
  · refine .inl (mapM_ok_iff.2 ?_)
    have hall := mapM_ok_iff.1 h
    clear h
    induction hall with
    | nil => exact .nil
    | @cons gate a gates readings hgate _ ih =>
      have hthis := (readGate_again hgate).resolve_right fun he => hexpired ⟨gate, List.mem_cons_self, he⟩
      exact .cons hthis (ih fun ⟨other, hmem, he⟩ => hexpired ⟨other, List.mem_cons_of_mem _ hmem, he⟩)

variable {generation : ℤ} {validated : Snapshot}

theorem snapshot_again (now : ℤ)
    (h : snapshot host store gates started = .ok validated) (hbounds : 0 ≤ generation ∧ generation ≤ maxGeneration) :
    (∃ snap, snapshot host { store with generation := .file generation } gates now = .ok snap ∧
      snap.approvals = validated.approvals ∧ snap.receipts = validated.receipts) ∨
    ∃ gate ∈ gates, ApprovalExpired host store now gate := by
  obtain ⟨readings, _, hreadings, _, rfl⟩ := snapshot_ok_iff.1 h
  rcases readGates_again now hreadings with hagain | ⟨gate, hmem, hexpired⟩
  · refine .inl ⟨_, snapshot_ok_iff.2 ⟨readings, generation, hagain, storedGeneration_file rfl hbounds, rfl⟩, rfl, rfl⟩
  · exact .inr ⟨gate, (mem_sortBy _ _ _).1 hmem, hexpired⟩

theorem admissionToken_not_held (call : AdmitCall) (proposal : Proposal) (snap : Snapshot) (monotonicDeadlineNs : ℤ)
    (message : String) : admissionToken host call proposal snap monotonicDeadlineNs ≠ .error (.held message) := by
  intro h
  unfold admissionToken at h
  cases hrequire : require (proposal.identity.integral = true ∧ proposal.source.integral = true) Raised.other with
  | error raised =>
    rw [hrequire] at h
    cases h
    exact Raised.noConfusion (error_of_require hrequire).2
  | ok u =>
    rw [hrequire] at h
    cases h

theorem makeStaging_not_held (name message : String) : (makeStaging name w).2 ≠ .error (.held message) := by
  intro h
  rcases raises_bind_iff.1 h with hread | ⟨_, _, hwrite⟩
  · exact Raised.noConfusion (error_of_require hread).2
  · cases hwrite

variable {message : String}

theorem stageMembers_held {bundle : Dict String ByteArray} {directory : String} {names : List String}
    {manifest : Dict String String} (h : (stageMembers host bundle directory names manifest w).2 = .error (.held message)) :
    ∃ name ∈ names, ∃ payload, bundle.get? name = some payload ∧ maxBundleBytes < payload.size := by
  induction names generalizing manifest w with
  | nil => cases h
  | cons name rest ih =>
    unfold stageMembers at h
    cases hpayload : bundle.get? name with
    | none =>
      rw [hpayload] at h
      cases h
    | some payload =>
      rw [hpayload] at h
      rcases raises_bind_iff.1 h with hcheck | ⟨_, hcheck, hrest⟩
      · exact ⟨name, List.mem_cons_self, payload, hpayload, not_le.1 (error_of_require hcheck).1⟩
      · rcases raises_bind_iff.1 hrest with hpublish | ⟨_, _, htail⟩
        · cases hpublish
        · obtain ⟨other, hmem, hlarge⟩ := ih htail
          exact ⟨other, List.mem_cons_of_mem _ hmem, hlarge⟩

variable {call : AdmitCall} {following deadline : ℤ} {proposal : Proposal}

theorem commit_held {approvals : String → Entry ByteArray} (hadvance : (advance w).2 = .ok following)
    (hvalidated : snapshot host w.store call.gates call.started = .ok validated)
    (h : (commit host call approvals validated proposal deadline w).2 = .error (.held message)) :
    (∃ name ∈ bundleMembers, ∃ payload, proposal.bundle.get? name = some payload ∧ maxBundleBytes < payload.size) ∨
      (∃ gate ∈ call.gates, ApprovalExpired host w.store call.now gate) ∨ deadline ≤ call.staged := by
  rcases raises_bind_iff.1 h with hfailed | ⟨generation, hgeneration, hrest⟩
  · rw [hadvance] at hfailed
    cases hfailed
  rw [advance_writes hgeneration] at hrest
  have hbounds : 0 ≤ generation ∧ generation ≤ maxGeneration := by
    obtain ⟨current, hcurrent, hless, rfl⟩ := advance_ok_iff.1 hgeneration
    have := storedGeneration_bounds hcurrent
    omega
  rcases snapshot_again call.now hvalidated hbounds with ⟨snap, hsnap, happrovals, hreceipts⟩ | hexpired
  swap
  · exact .inr (.inl hexpired)
  rcases raises_bind_iff.1 hrest with hfailed | ⟨snap', hsnap', hrest⟩
  · cases hsnap.symm.trans hfailed
  have hsame : snap' = snap := Except.ok.inj (hsnap'.symm.trans hsnap)
  subst hsame
  rcases raises_bind_iff.1 hrest with hfailed | ⟨_, _, hrest⟩
  · exact absurd (by rw [happrovals, hreceipts]) (error_of_require hfailed).1
  rcases raises_bind_iff.1 hrest with hfailed | ⟨token, _, hrest⟩
  · exact absurd hfailed (admissionToken_not_held _ _ _ _ _)
  rcases raises_bind_iff.1 hrest with hfailed | ⟨_, _, hrest⟩
  · exact absurd hfailed (makeStaging_not_held _ _)
  rcases raises_bind_iff.1 hrest with hfailed | ⟨manifest, _, hrest⟩
  · exact .inl (stageMembers_held hfailed)
  rcases raises_bind_iff.1 hrest with hfailed | ⟨_, _, hrest⟩
  · exact .inr (.inr (not_lt.1 (error_of_require hfailed).1))
  · rcases raises_bind_iff.1 hrest with hfailed | ⟨_, _, hfailed⟩
    · cases hfailed
    · cases hfailed

theorem attest_ok {digest : String} {t : World}
    (hdigest : storeDigest host w.store gates = .ok digest) (happrovals : t.store.approvals = w.store.approvals)
    (hgeneration : storedGeneration t.store = .ok generation) : ∃ record, (attest host gates t).2 = .ok record := by
  have hdigest' : storeDigest host t.store gates = .ok digest := by rw [storeDigest_congr happrovals, hdigest]
  refine ⟨⟨protocolVersion, host.issuer, generation, digest⟩, returns_bind_iff.2 ⟨generation, hgeneration, ?_⟩⟩
  exact returns_bind_iff.2 ⟨digest, hdigest', returns_bind_iff.2 ⟨(), rfl, rfl⟩⟩

variable {raised : Raised}

theorem commit_raised (hready : prepared host w.store call = .ok (validated, proposal, deadline))
    (h : (admitIntent host call w).2 = .error raised) :
    (commit host call w.store.approvals validated proposal deadline w).2 = .error raised ∧
      after (admitIntent host call) w = after (commit host call w.store.approvals validated proposal deadline) w := by
  obtain ⟨⟨attested, hattested⟩, _⟩ := prepared_ok hready
  unfold after
  rw [admit_prepared hready] at h ⊢
  rcases raises_bind_iff.1 h with hfailed | ⟨record, hrecord, hrest⟩
  · exact ⟨hfailed, last_bind_error hfailed⟩
  · -- a record that was published is attested
    exfalso
    obtain ⟨current, hcurrent, hless, _, hcommitted⟩ :=
      (upholds_commit host w call w.store.approvals validated proposal deadline).2 record hrecord
    have hbounds := storedGeneration_bounds hcurrent
    have hdigest : ∃ digest, storeDigest host w.store call.gates = .ok digest := by
      unfold requireNoBypassingWriter at hattested
      simp only [bind_ok_iff] at hattested
      obtain ⟨_, _, _, _, _, _, _, _, digest, hdigest, _⟩ := hattested
      exact ⟨digest, hdigest⟩
    obtain ⟨digest, hdigest⟩ := hdigest
    obtain ⟨_, hattest⟩ := attest_ok hdigest hcommitted.approvals
      (storedGeneration_file hcommitted.stored ⟨by omega, by omega⟩)
    rcases raises_bind_iff.1 hrest with hfailed | ⟨_, _, hfailed⟩
    · cases hattest.symm.trans hfailed
    · cases hfailed

variable {ready : Snapshot × Proposal × ℤ}

variable (hadvance : (advance w).2 = .ok following) (hready : prepared host w.store call = .ok ready)
include hadvance hready

theorem lateRefusal_of_held
    (h : (admitIntent host call w).2 = .error (.held message)) : LateRefusal host w.store call := by
  obtain ⟨validated, proposal, deadline⟩ := ready
  obtain ⟨_, hvalidated, _⟩ := prepared_ok hready
  exact ⟨validated, proposal, deadline, hready, commit_held hadvance hvalidated (commit_raised hready h).1⟩

theorem stale_of_raised (h : (admitIntent host call w).2 = .error raised) :
    (after (admitIntent host call) w).store.generation = .file following ∧
      (after (admitIntent host call) w).store.attestation = w.store.attestation := by
  obtain ⟨validated, proposal, deadline⟩ := ready
  rw [(commit_raised hready h).2]
  have hne : (commit host call w.store.approvals validated proposal deadline w).1 ≠ [] := by
    unfold commit
    rw [bind_apply_ok hadvance, advance_writes hadvance]
    simp
  obtain ⟨current, hcurrent, hless, hstate⟩ :=
    (upholds_commit host w call w.store.approvals validated proposal deadline).1 _ (last_mem_of_ne_nil w hne)
  obtain ⟨current', hcurrent', _, rfl⟩ := advance_ok_iff.1 hadvance
  have hsame : current = current' := Except.ok.inj (hcurrent.symm.trans hcurrent')
  subst hsame
  rcases hstate with hadvanced | ⟨record, _, hcommitted⟩
  · exact ⟨hadvanced.stored, hadvanced.attestation⟩
  · exact ⟨hcommitted.stored, hcommitted.attestation⟩

omit hadvance hready

theorem not_usable_of_stale {attested : Attestation}
    (hattestation : w.store.attestation = .file attested) (hgeneration : w.store.generation = .file generation)
    (hstale : attested.generation ≠ generation) : ¬ Usable host w call := by
  rintro ⟨record, hrecord, _⟩
  cases hready : prepared host w.store call with
  | error raised =>
    rw [admit_unprepared hready] at hrecord
    cases hrecord
  | ok ready =>
    obtain ⟨⟨found, hfound⟩, _⟩ := prepared_ok hready
    obtain ⟨hfile, hstored⟩ := requireNoBypassingWriter_ok hfound
    have hsame : attested = found := Entry.file.inj (hattestation.symm.trans hfile)
    subst hsame
    exact hstale (eq_of_storedGeneration hgeneration hstored).symm

/-! ## Refused consumptions -/

theorem usable_of_agree {current : ℤ} (h : AgreeButConsumed w v) (husable : Usable host w call)
    (hcurrent : storedGeneration w.store = .ok current) (hspent : consumedGeneration host v.store = .ok spent)
    (hle : spent ≤ current) : Usable host v call := by
  obtain ⟨record, hrecord, consumption, hconsumed⟩ := husable
  have hrecord' : (admitIntent host call v).2 = .ok record := ((simulates_admitIntent call) w v h).1.trans hrecord
  have hafter : AgreeButConsumed (after (admitIntent host call) w) (after (admitIntent host call) v) :=
    (simulates_admitIntent call).last h
  obtain ⟨hconsumable, heffect⟩ := consume_returns_iff.1 hconsumed
  cases hready : prepared host v.store call with
  | error raised =>
    rw [admit_unprepared hready] at hrecord'
    cases hrecord'
  | ok ready =>
    obtain ⟨validated, proposal, deadline⟩ := ready
    obtain ⟨current', hcurrent', _, ⟨_, _, _, _, _, hgeneration⟩, hadmitted⟩ :=
      (upholds_admitIntent call hready).2 record hrecord'
    have hsame : current = current' := by
      rw [h] at hcurrent'
      exact Except.ok.inj (hcurrent.symm.trans hcurrent')
    have hless : spent < record.generation := by
      rw [hgeneration]
      show spent < current' + 1
      omega
    have hspent' : consumedGeneration host (after (admitIntent host call) v).store = .ok spent :=
      (consumedGeneration_congr hadmitted.consumed).trans hspent
    exact ⟨record, hrecord', consumption, consume_returns_iff.2
      ⟨consumable_of_agree hafter hconsumable hspent' hless, heffect⟩⟩

theorem usable_after_consume (consumption : ConsumeCall) (h : Usable host w call) :
    Usable host (after (consume host consumption) w) call := by
  unfold after
  cases hconsumable : consumable host w.store consumption with
  | error raised =>
    rw [consume_unconsumable hconsumable]
    exact h
  | ok record =>
    have hcurrent := consumable_generation hconsumable
    have hspent : consumedGeneration host (w.spent (consumptionOf host consumption record)).store =
        .ok record.generation :=
      @consumedGeneration_file host _ (consumptionOf host consumption record) rfl ⟨rfl, rfl⟩
        (storedGeneration_bounds hcurrent)
    rw [consume_writes hconsumable]
    split_ifs
    · exact usable_of_agree rfl h hcurrent hspent (le_refl _)
    · exact usable_of_agree rfl h hcurrent hspent (le_refl _)

theorem advance_of_usable (h : Usable host w call) : ∃ following, (advance w).2 = .ok following := by
  obtain ⟨record, hrecord, _⟩ := h
  cases hready : prepared host w.store call with
  | error raised =>
    rw [admit_unprepared hready] at hrecord
    cases hrecord
  | ok ready =>
    obtain ⟨validated, proposal, deadline⟩ := ready
    obtain ⟨current, hcurrent, hless, _⟩ := (upholds_admitIntent call hready).2 record hrecord
    exact ⟨current + 1, advance_ok_iff.2 ⟨current, hcurrent, hless, rfl⟩⟩

/-- The call is an `admitIntent` or a `consume`. -/
def Call.Admits : Call → Prop
  | .admitIntent _ | .consume _ => True
  | _ => False

theorem after_discard (x : Action α) : after (x >>= fun _ => (pure () : Action Unit)) w = after x w :=
  congrArg (last w) (writes_bind_pure x (fun _ => ()) w)

theorem raised_of_discard {x : Action α}
    (h : ((x >>= fun _ => (pure () : Action Unit)) w).2 = .error raised) : (x w).2 = .error raised := by
  rcases raises_bind_iff.1 h with hraised | ⟨_, _, hpure⟩
  · exact hraised
  · cases hpure

/-- A refused `admitIntent` or `consume` leaves a usable store usable unless it is an `admitIntent` refused late. -/
theorem refusal_keeps_store_usable_iff (host : Host) (w : World) :
    (∀ (proper : AdmitCall) (refused : Call) (message : String), Usable host w proper → refused.Admits →
      (perform host refused w).2 = .error (.held message) →
        (Usable host (after (perform host refused) w) proper ↔
          ∀ call, refused = .admitIntent call → ¬ LateRefusal host w.store call)) ∧
    ∀ payloads gates raised, (replaceApprovals host payloads gates w).2 = .error raised →
      (replaceApprovals host payloads gates w).1 = [] → after (replaceApprovals host payloads gates) w = w := by
  constructor
  · intro proper refused message husable hadmits hheld
    cases refused with
    | replaceApprovals payloads gates => exact hadmits.elim
    | enrol gates => exact hadmits.elim
    | recover => exact hadmits.elim
    | consume consumption =>
      rw [show after (perform host (.consume consumption)) w = _ from after_discard (consume host consumption)]
      exact iff_of_true (usable_after_consume consumption husable) fun call hcall => by cases hcall
    | admitIntent call =>
      rw [show after (perform host (.admitIntent call)) w = _ from after_discard (admitIntent host call)]
      have hraised : (admitIntent host call w).2 = .error (.held message) := raised_of_discard hheld
      cases hready : prepared host w.store call with
      | error raised =>
        have hunchanged : after (admitIntent host call) w = w := by
          unfold after
          rw [admit_unprepared hready]
          rfl
        rw [hunchanged]
        refine iff_of_true husable fun other hother hlate => ?_
        cases hother
        obtain ⟨validated, proposal, deadline, hready', _⟩ := hlate
        cases hready.symm.trans hready'
      | ok ready =>
        -- the proper call gets past its advance, so the refused one did too
        obtain ⟨following, hadvance⟩ := advance_of_usable husable
        have hlate := lateRefusal_of_held hadvance hready hraised
        obtain ⟨hgeneration, hattestation⟩ := stale_of_raised hadvance hready hraised
        obtain ⟨⟨attested, hattested⟩, _⟩ := prepared_ok hready
        obtain ⟨hfile, hstored⟩ := requireNoBypassingWriter_ok hattested
        obtain ⟨current, hcurrent, _, rfl⟩ := advance_ok_iff.1 hadvance
        have hsame : attested.generation = current := Except.ok.inj (hstored.symm.trans hcurrent)
        refine iff_of_false (not_usable_of_stale (hattestation.trans hfile) hgeneration (by omega)) fun h => ?_
        exact h call rfl hlate
  · intro payloads gates raised _ hwrites
    unfold after
    rw [hwrites]
    rfl

/-! ## An admission whose bundle is staged too slowly -/

def sampleHost : Host where
  issuer := "local"
  path := "/etc/local"
  sha256 bytes := String.ofList (DigitText.fixedDigits 2 (bytes.data.toList.foldl (fun n byte => n * 257 + byte.toNat) 0))
  loads _ := .ok (.obj [("revoked", .bool false)])
  strOf _ := ""
  timestampNs _ := some 10000000000

def sampleStore : Store :=
  let store : Store := {
    generation := .file 1
    approvals := Function.update (fun _ => .absent) "PRE_P3_READY" (.file "\x7b\"revoked\":false\x7d".toUTF8)
    attestation := .absent
    commit := .absent
    consumed := .absent
    staging := [] }
  let digest := (storeDigest sampleHost store ["PRE_P3_READY"]).toOption.getD ""
  { store with attestation := .file ⟨protocolVersion, "local", 1, digest⟩ }

def sampleCall (staged : ℤ) : AdmitCall where
  action := "ISSUE_RUNTIME_PROFILE"
  gate := "PRE_P3_READY"
  gates := ["PRE_P3_READY"]
  proposalIdentity := .obj [("boot_id", .str "boot")]
  proposalSource := .obj []
  prepare _ _ := .ok ⟨.obj [("boot_id", .str "boot")], .obj [], "1970-01-01T00:00:10Z",
    bundleMembers.map fun name => (name, ByteArray.empty)⟩
  bootId := "boot"
  started := 0
  now := 0
  monotonic := 0
  staged := staged

def sampleConsumption : ConsumeCall where
  action := "ISSUE_RUNTIME_PROFILE"
  gate := "PRE_P3_READY"
  identity := .obj [("boot_id", .str "boot")]
  source := .obj []
  gates := ["PRE_P3_READY"]
  apply := none
  bootId := "boot"
  now := 1
  monotonic := 1

def sampleWorld : World := ⟨sampleStore, []⟩

theorem usable_of_toOption (consumption : ConsumeCall) (hadmitted : (admitIntent host call w).2.isOk = true)
    (h : (consume host consumption (after (admitIntent host call) w)).2.toOption = (admitIntent host call w).2.toOption) :
    Usable host w call := by
  obtain ⟨record, hrecord⟩ := isOk_iff.1 hadmitted
  refine ⟨record, hrecord, consumption, ?_⟩
  rw [hrecord] at h
  cases hresult : (consume host consumption (after (admitIntent host call) w)).2 with
  | error raised =>
    rw [hresult] at h
    cases h
  | ok found =>
    rw [hresult] at h
    exact congrArg Except.ok (Option.some.inj h)

theorem sampleCall_usable : Usable sampleHost sampleWorld (sampleCall 0) :=
  usable_of_toOption sampleConsumption (by decide +kernel) (by decide +kernel)

/-- An admission for another boot is refused early, and the store stays usable. -/
theorem foreign_boot_keeps_store_usable :
    Usable sampleHost (after (perform sampleHost (.admitIntent { sampleCall 0 with bootId := "other" })) sampleWorld)
      (sampleCall 0) := by
  refine ((refusal_keeps_store_usable_iff sampleHost sampleWorld).1 (sampleCall 0)
    (.admitIntent { sampleCall 0 with bootId := "other" }) "admission is for a different boot" sampleCall_usable trivial
    (by decide +kernel)).2 ?_
  rintro call hcall ⟨validated, proposal, deadline, hready, _⟩
  cases hcall
  have hrefused : (prepared sampleHost sampleWorld.store { sampleCall 0 with bootId := "other" }).isOk = false := by
    decide +kernel
  rw [hready] at hrefused
  cases hrefused

theorem slow_staging_refused : (perform sampleHost (.admitIntent (sampleCall 10000000000)) sampleWorld).2 =
    .error (.held "admission deadline passed while the bundle was staged") := by
  decide +kernel

/-- After the bundle of one admission was staged too slowly, the store admits nothing more. -/
theorem slow_staging_locks_store : Usable sampleHost sampleWorld (sampleCall 0) ∧
    (∃ message, (perform sampleHost (.admitIntent (sampleCall 10000000000)) sampleWorld).2 = .error (.held message)) ∧
      ¬ Usable sampleHost (after (perform sampleHost (.admitIntent (sampleCall 10000000000))) sampleWorld)
        (sampleCall 0) := by
  refine ⟨sampleCall_usable, ⟨_, slow_staging_refused⟩, ?_⟩
  rintro ⟨record, hrecord, _⟩
  have hrefused : (admitIntent sampleHost (sampleCall 0)
      (after (perform sampleHost (.admitIntent (sampleCall 10000000000))) sampleWorld)).2.isOk = false := by
    decide +kernel
  rw [hrecord] at hrefused
  cases hrefused

end TradingAgent.LocalAuthority
