import TradingAgent.LocalAuthority.Refusals
import TradingAgent.Lib.JsonStrings

/-! Every effect belongs to an admission that still stands. -/

namespace TradingAgent.LocalAuthority

open Outcome Transaction Transaction.Tx

variable (host : Host)

/-- The approval of a gate is neither revoked nor expired at a reading of the clock. -/
def Stands (approvals : String → Entry ByteArray) (now : ℤ) (gate : String) : Prop :=
  ∃ raw approval expiresAt, approvals gate = .file raw ∧ host.loads raw = .ok approval ∧
    dictGet approval "revoked" = .ok (some (.bool false)) ∧ dictGet approval "expires_at" = .ok expiresAt ∧
      checkExpiry host gate now expiresAt = .ok ()

/-- The admission was committed for what its call asked, as its `prepare` returned it for the approvals it saw. -/
structure Admission.Prepared (admission : Admission) : Prop where
  action : admission.record.action = admission.call.action
  gate : admission.record.gate = admission.call.gate
  proposal : ∃ validated proposal, admission.call.prepare admission.approvals validated = .ok proposal ∧
    admission.record.identity = proposal.identity ∧ admission.record.source = proposal.source ∧
      admission.record.expiresAt = proposal.expiresAt
  snapshot : ∃ snap : Snapshot, admission.record.snapshotDigest = snap.digest host ∧
    snap.approvals.map Prod.fst = sortBy id admission.call.gates

structure Effect.BelongsTo (effect : Effect) (admission : Admission) : Prop where
  record : effect.record = admission.record
  action : admission.record.action = effect.call.action
  gate : admission.record.gate = effect.call.gate
  identity : admission.record.identity = effect.call.identity
  source : admission.record.source = effect.call.source
  boot : admission.record.bootId = effect.call.bootId
  gates : effect.call.gates.Perm admission.call.gates
  approvals : effect.approvals = admission.approvals
  standing : ∀ gate ∈ admission.call.gates, Stands host effect.approvals effect.call.now gate
  wallClock : ∃ deadline, deadlineNs host admission.record.expiresAt = .ok deadline ∧ effect.call.now < deadline
  monotonic : effect.call.monotonic < admission.record.monotonicDeadlineNs

/-- The events change no approval and commit nothing: no generation was advanced, and no record published. -/
def Undisturbed (events : List Event) : Prop :=
  ∀ event ∈ events, (∀ generation, event ≠ .advanced generation) ∧ ∀ admission, event ≠ .committed admission

/-- The effect belongs to an admission among the events before it, and nothing disturbed that admission since. -/
def Backed (before : List Event) (effect : Effect) : Prop :=
  ∃ earlier admission later, before = earlier ++ .committed admission :: later ∧ Undisturbed later ∧
    admission.Prepared host ∧ effect.BelongsTo host admission

/-- The generation that was admitted. -/
def Event.admitted? : Event → Option ℤ
  | .committed admission => some admission.record.generation
  | _ => none

/-- The generation whose effect ran. -/
def Event.effected? : Event → Option ℤ
  | .ran effect => some effect.record.generation
  | _ => none

/-- The call forms the snapshot: `admitIntent` once it has advanced the generation, `consume` at once. -/
def Taken (w : World) : Call → Snapshot → Prop
  | .admitIntent call, snap => ∃ current, storedGeneration w.store = .ok current ∧
      snapshot host (w.advanced (current + 1)).store call.gates call.now = .ok snap
  | .consume call, snap => snapshot host w.store call.gates call.now = .ok snap
  | _, _ => False

/-- What the calls of a run hash to compare snapshots. -/
def snapshotTexts (w : World) (calls : List (Call × Option ℕ)) : Set ByteArray :=
  {bytes | ∃ before call after snap, calls = before ++ call :: after ∧ Taken host (run host w before) call.1 snap ∧
    canonicalBytes snap.toJson = bytes}

/-- The invariant of a run; `texts` are the texts of the snapshots that it forms. -/
structure Sound (texts : Set ByteArray) (w : World) : Prop where
  published : ∀ record, w.store.commit = .file record → ∃ admission, .committed admission ∈ w.log ∧
    admission.record = record
  prepared : ∀ admission, .committed admission ∈ w.log → admission.Prepared host
  taken : ∀ admission, .committed admission ∈ w.log → ∃ snap : Snapshot,
    admission.record.snapshotDigest = snap.digest host ∧ snap.approvals.map Prod.fst = sortBy id admission.call.gates ∧
      canonicalBytes snap.toJson ∈ texts
  bounded : ∀ admission, .committed admission ∈ w.log → ∃ current, storedGeneration w.store = .ok current ∧
    admission.record.generation ≤ current
  current : ∀ admission, .committed admission ∈ w.log →
    storedGeneration w.store = .ok admission.record.generation → w.store.approvals = admission.approvals ∧
      ∃ earlier later, w.log = earlier ++ .committed admission :: later ∧ Undisturbed later
  spent : ∀ effect, .ran effect ∈ w.log → ∃ spent, consumedGeneration host w.store = .ok spent ∧
    effect.record.generation ≤ spent
  backed : ∀ before effect, before ++ [.ran effect] <+: w.log → Backed host before effect
  admissions : (w.log.filterMap Event.admitted?).Nodup
  effects : (w.log.filterMap Event.effected?).Nodup

/-- No admission was committed. -/
structure Fresh (w : World) : Prop where
  log : w.log = []
  commit : ∀ record, w.store.commit ≠ .file record

variable {host} {texts : Set ByteArray} {w t : World}

theorem Fresh.sound (h : Fresh w) : Sound host texts w where
  published record hrecord := absurd hrecord (h.commit record)
  prepared admission hadmission := by
    rw [h.log] at hadmission
    cases hadmission
  taken admission hadmission := by
    rw [h.log] at hadmission
    cases hadmission
  bounded admission hadmission := by
    rw [h.log] at hadmission
    cases hadmission
  current admission hadmission := by
    rw [h.log] at hadmission
    cases hadmission
  spent effect heffect := by
    rw [h.log] at heffect
    cases heffect
  backed before effect hprefix := by
    rw [h.log, List.prefix_nil] at hprefix
    exact absurd hprefix (by simp)
  admissions := by rw [h.log]; exact List.nodup_nil
  effects := by rw [h.log]; exact List.nodup_nil

variable {store : Store} {now : ℤ} {gates : List String}

theorem mapM_readGate_gates
    {readings : List ((String × String) × (String × String))} (h : gates.mapM (readGate host store now) = .ok readings) :
    (readings.map Prod.fst).map Prod.fst = gates := by
  have hall := mapM_ok_iff.1 h
  clear h
  induction hall with
  | nil => rfl
  | @cons gate reading gates readings hgate _ ih =>
    have hname : reading.1.1 = gate := by
      unfold readGate at hgate
      simp only [bind_ok_iff, require_ok_iff, Except.ok.injEq] at hgate
      obtain ⟨_, _, _, _, _, _, _, _, _, _, _, _, _, _, _, _, rfl⟩ := hgate
      rfl
    rw [List.map_cons, List.map_cons, hname, ih]

variable {snap : Snapshot}

theorem snapshot_gates
    (h : snapshot host store gates now = .ok snap) : snap.approvals.map Prod.fst = sortBy id gates := by
  obtain ⟨readings, generation, hreadings, _, rfl⟩ := snapshot_ok_iff.1 h
  exact mapM_readGate_gates hreadings

/-! ## Writes -/

theorem Sound.congr (h : Sound host texts w) (hgeneration : t.store.generation = w.store.generation)
    (happrovals : t.store.approvals = w.store.approvals) (hcommit : t.store.commit = w.store.commit)
    (hconsumed : t.store.consumed = w.store.consumed) (hlog : t.log = w.log) : Sound host texts t where
  published := by rw [hcommit, hlog]; exact h.published
  prepared := by rw [hlog]; exact h.prepared
  taken := by rw [hlog]; exact h.taken
  bounded := by rw [hlog, storedGeneration_congr hgeneration]; exact h.bounded
  current := by rw [hlog, storedGeneration_congr hgeneration, happrovals]; exact h.current
  spent := by rw [hlog, consumedGeneration_congr hconsumed]; exact h.spent
  backed := by rw [hlog]; exact h.backed
  admissions := by rw [hlog]; exact h.admissions
  effects := by rw [hlog]; exact h.effects

theorem backed_concat {event : Event} {log before : List Event} {effect : Effect}
    (hevent : ∀ effect, event ≠ .ran effect) (h : before ++ [.ran effect] <+: log ++ [event]) :
    before ++ [.ran effect] <+: log := by
  rcases List.prefix_concat_iff.1 h with heq | hprefix
  · obtain ⟨_, hlast⟩ := List.append_inj' heq rfl
    exact absurd (List.cons.inj hlast).1.symm (hevent effect)
  · exact hprefix

theorem mem_of_concat {event last : Event} {log : List Event} (h : event ∈ log ++ [last]) (hne : event ≠ last) :
    event ∈ log :=
  (List.mem_append.1 h).resolve_right fun hlast => hne (List.mem_singleton.1 hlast)

variable {current : ℤ}

variable (h : Sound host texts w)
include h

theorem Sound.advanced (hcurrent : storedGeneration w.store = .ok current)
    (hless : current < maxGeneration) (hgeneration : t.store.generation = .file (current + 1))
    (hcommit : t.store.commit = w.store.commit) (hconsumed : t.store.consumed = w.store.consumed)
    (hlog : t.log = w.log ++ [.advanced (current + 1)]) : Sound host texts t := by
  have hbounds := storedGeneration_bounds hcurrent
  have hstored : storedGeneration t.store = .ok (current + 1) :=
    storedGeneration_file hgeneration ⟨by omega, by omega⟩
  have hmem : ∀ admission, .committed admission ∈ t.log → .committed admission ∈ w.log := by
    intro admission hadmission
    rw [hlog] at hadmission
    exact mem_of_concat hadmission Event.noConfusion
  have hbelow : ∀ admission, .committed admission ∈ t.log → admission.record.generation ≤ current := by
    intro admission hadmission
    obtain ⟨found, hfound, hle⟩ := h.bounded admission (hmem admission hadmission)
    rw [Except.ok.inj (hcurrent.symm.trans hfound)]
    exact hle
  constructor
  · intro record hrecord
    obtain ⟨admission, hadmission, hsame⟩ := h.published record (hcommit ▸ hrecord)
    exact ⟨admission, by rw [hlog]; exact List.mem_append_left _ hadmission, hsame⟩
  · exact fun admission hadmission => h.prepared admission (hmem admission hadmission)
  · exact fun admission hadmission => h.taken admission (hmem admission hadmission)
  · intro admission hadmission
    have := hbelow admission hadmission
    exact ⟨current + 1, hstored, by omega⟩
  · intro admission hadmission hsame
    have hle := hbelow admission hadmission
    have := Except.ok.inj (hstored.symm.trans hsame)
    omega
  · intro effect heffect
    rw [hlog] at heffect
    rw [consumedGeneration_congr hconsumed]
    exact h.spent effect (mem_of_concat heffect Event.noConfusion)
  · intro before effect hprefix
    rw [hlog] at hprefix
    exact h.backed before effect (backed_concat (fun _ => Event.noConfusion) hprefix)
  · rw [hlog, List.filterMap_append]
    exact (List.append_nil _).symm ▸ h.admissions
  · rw [hlog, List.filterMap_append]
    exact (List.append_nil _).symm ▸ h.effects

theorem Sound.committed {admission : Admission} (hprepared : admission.Prepared host)
    (htaken : ∃ snap : Snapshot, admission.record.snapshotDigest = snap.digest host ∧
      snap.approvals.map Prod.fst = sortBy id admission.call.gates ∧ canonicalBytes snap.toJson ∈ texts)
    (hstored : storedGeneration w.store = .ok admission.record.generation)
    (hbelow : ∀ other, .committed other ∈ w.log → other.record.generation < admission.record.generation)
    (happrovals : w.store.approvals = admission.approvals) (hgeneration : t.store.generation = w.store.generation)
    (hsame : t.store.approvals = w.store.approvals) (hcommit : t.store.commit = .file admission.record)
    (hconsumed : t.store.consumed = w.store.consumed) (hlog : t.log = w.log ++ [.committed admission]) :
    Sound host texts t := by
  have hmem : ∀ other, .committed other ∈ t.log → .committed other ∈ w.log ∨ other = admission := by
    intro other hother
    rw [hlog, List.mem_append] at hother
    rcases hother with hold | hnew
    · exact .inl hold
    · cases List.mem_singleton.1 hnew
      exact .inr rfl
  have hstored' : storedGeneration t.store = .ok admission.record.generation := by
    rw [storedGeneration_congr hgeneration, hstored]
  constructor
  · intro record hrecord
    rw [hcommit] at hrecord
    refine ⟨admission, ?_, Entry.file.inj hrecord⟩
    rw [hlog]
    exact List.mem_append_right _ (List.mem_singleton.2 rfl)
  · intro other hother
    rcases hmem other hother with hold | rfl
    · exact h.prepared other hold
    · exact hprepared
  · intro other hother
    rcases hmem other hother with hold | rfl
    · exact h.taken other hold
    · exact htaken
  · intro other hother
    refine ⟨admission.record.generation, hstored', ?_⟩
    rcases hmem other hother with hold | rfl
    · exact (hbelow other hold).le
    · exact le_refl _
  · intro other hother hcurrent
    have heq := Except.ok.inj (hstored'.symm.trans hcurrent)
    rcases hmem other hother with hold | rfl
    · have := hbelow other hold
      omega
    · exact ⟨hsame.trans happrovals, w.log, [], hlog, fun event hevent => by cases hevent⟩
  · intro effect heffect
    rw [hlog] at heffect
    rw [consumedGeneration_congr hconsumed]
    exact h.spent effect (mem_of_concat heffect Event.noConfusion)
  · intro before effect hprefix
    rw [hlog] at hprefix
    exact h.backed before effect (backed_concat (fun _ => Event.noConfusion) hprefix)
  · rw [hlog, List.filterMap_append]
    refine List.Nodup.append h.admissions (List.nodup_singleton _) ?_
    intro generation hold hnew
    obtain ⟨event, hevent, hgen⟩ := List.mem_filterMap.1 hold
    cases event with
    | advanced g => cases hgen
    | ran effect => cases hgen
    | committed other =>
      have hthis := hbelow other hevent
      rw [List.mem_singleton.1 hnew] at hgen
      have := Option.some.inj hgen
      omega
  · rw [hlog, List.filterMap_append]
    exact (List.append_nil _).symm ▸ h.effects

theorem Sound.spend {value : Consumption} {spent : ℤ}
    (hissuer : value.schemaVersion = protocolVersion ∧ value.issuer = host.issuer)
    (hbounds : 0 ≤ value.generation ∧ value.generation ≤ maxGeneration)
    (hspent : consumedGeneration host w.store = .ok spent) (hless : spent < value.generation) :
    Sound host texts (w.spent value) := by
  refine { h with spent := fun effect heffect => ⟨value.generation, ?_, ?_⟩ }
  · exact consumedGeneration_file rfl hissuer hbounds
  · obtain ⟨found, hfound, hle⟩ := h.spent effect heffect
    have := Except.ok.inj (hspent.symm.trans hfound)
    omega

variable {call : ConsumeCall} {record : CommitRecord}

theorem Sound.run (hspent : consumedGeneration host w.store = .ok record.generation)
    (hbelow : ∀ effect, .ran effect ∈ w.log → effect.record.generation < record.generation)
    (hbacked : Backed host w.log ⟨call, record, w.store.approvals⟩) : Sound host texts (w.ran call record) := by
  have hmem : ∀ admission, .committed admission ∈ (w.ran call record).log → .committed admission ∈ w.log := by
    intro admission hadmission
    exact mem_of_concat hadmission Event.noConfusion
  constructor
  · intro found hfound
    obtain ⟨admission, hadmission, hsame⟩ := h.published found hfound
    exact ⟨admission, List.mem_append_left _ hadmission, hsame⟩
  · exact fun admission hadmission => h.prepared admission (hmem admission hadmission)
  · exact fun admission hadmission => h.taken admission (hmem admission hadmission)
  · exact fun admission hadmission => h.bounded admission (hmem admission hadmission)
  · intro admission hadmission hcurrent
    obtain ⟨happrovals, earlier, later, hlog, hundisturbed⟩ := h.current admission (hmem admission hadmission) hcurrent
    refine ⟨happrovals, earlier, later ++ [.ran ⟨call, record, w.store.approvals⟩], ?_, ?_⟩
    · show w.log ++ [.ran ⟨call, record, w.store.approvals⟩] = _
      rw [hlog]
      simp
    · intro event hevent
      rcases List.mem_append.1 hevent with hold | hnew
      · exact hundisturbed event hold
      · rw [List.mem_singleton.1 hnew]
        exact ⟨fun _ => Event.noConfusion, fun _ => Event.noConfusion⟩
  · intro effect heffect
    refine ⟨record.generation, hspent, ?_⟩
    rcases List.mem_append.1 heffect with hold | hnew
    · exact (hbelow effect hold).le
    · cases List.mem_singleton.1 hnew
      exact le_refl _
  · intro before effect hprefix
    rcases List.prefix_concat_iff.1 hprefix with heq | hold
    · obtain ⟨hbefore, hlast⟩ := List.append_inj' heq rfl
      cases (List.cons.inj hlast).1
      rw [hbefore]
      exact hbacked
    · exact h.backed before effect hold
  · show (List.filterMap _ (w.log ++ _)).Nodup
    rw [List.filterMap_append]
    exact (List.append_nil _).symm ▸ h.admissions
  · show (List.filterMap _ (w.log ++ _)).Nodup
    rw [List.filterMap_append]
    refine List.Nodup.append h.effects (List.nodup_singleton _) ?_
    intro generation hold hnew
    obtain ⟨event, hevent, hgen⟩ := List.mem_filterMap.1 hold
    cases event with
    | advanced g => cases hgen
    | committed admission => cases hgen
    | ran effect =>
      have hless := hbelow effect hevent
      rw [List.mem_singleton.1 hnew] at hgen
      have heq : effect.record.generation = record.generation := Option.some.inj hgen
      omega

/-! ## Transactions -/

theorem sound_admitIntent (call : AdmitCall)
    (htexts : ∀ snap, Taken host w (.admitIntent call) snap → canonicalBytes snap.toJson ∈ texts) :
    Upholds (Sound host texts) (fun _ _ => True) (admitIntent host call) w := by
  cases hready : prepared host w.store call with
  | error raised =>
    exact Upholds.congr upholds_raise (admit_unprepared hready)
  | ok ready =>
    obtain ⟨validated, proposal, deadline⟩ := ready
    refine Upholds.mono (Upholds.weaken (upholds_admitIntent call hready) ?_) fun _ _ _ => trivial
    rintro t ⟨current, hcurrent, hless, hadvanced | ⟨record, hrecords, hadmitted⟩⟩
    · exact h.advanced hcurrent hless hadvanced.stored hadvanced.commit hadvanced.consumed hadvanced.log
    · have hbounds := storedGeneration_bounds hcurrent
      have hstep : Sound host texts (w.advanced (current + 1)) := h.advanced hcurrent hless rfl rfl rfl rfl
      have hstored : storedGeneration (w.advanced (current + 1)).store = .ok (current + 1) :=
        storedGeneration_file rfl ⟨by omega, by omega⟩
      have hprepared : Admission.Prepared host ⟨record, call, w.store.approvals⟩ := by
        obtain ⟨snap, token, manifest, hsnap, _, rfl⟩ := hrecords
        obtain ⟨_, _, hprepare, _⟩ := prepared_ok hready
        refine ⟨rfl, rfl, ⟨validated, proposal, hprepare, rfl, rfl, rfl⟩, snap, rfl, ?_⟩
        exact snapshot_gates hsnap
      have htaken : ∃ snap : Snapshot, record.snapshotDigest = snap.digest host ∧
          snap.approvals.map Prod.fst = sortBy id call.gates ∧ canonicalBytes snap.toJson ∈ texts := by
        obtain ⟨snap, token, manifest, hsnap, _, rfl⟩ := hrecords
        exact ⟨snap, rfl, snapshot_gates hsnap, htexts snap ⟨current, hcurrent, hsnap⟩⟩
      have hgeneration : record.generation = current + 1 := by
        obtain ⟨snap, token, manifest, _, _, rfl⟩ := hrecords
        rfl
      have hcommitted : ∀ u, Committed w (current + 1) ⟨record, call, w.store.approvals⟩ u → Sound host texts u := by
        intro u hu
        refine hstep.committed hprepared htaken ?_ ?_ rfl hu.stored hu.approvals hu.commit hu.consumed ?_
        · show _ = Except.ok record.generation
          rw [hgeneration, hstored]
        · intro other hother
          obtain ⟨found, hfound, hle⟩ := h.bounded other (by
            rcases List.mem_append.1 hother with hold | hnew
            · exact hold
            · cases List.mem_singleton.1 hnew)
          have := Except.ok.inj (hcurrent.symm.trans hfound)
          show other.record.generation < record.generation
          omega
        · rw [hu.log]
          show _ = (w.log ++ [.advanced (current + 1)]) ++ _
          rw [List.append_assoc, List.singleton_append]
      rcases hadmitted with hu | ⟨u, attestation, hu, rfl⟩
      · exact hcommitted t hu
      · exact (hcommitted u hu).congr rfl rfl rfl rfl rfl

theorem sound_attest (gates : List String) : Upholds (Sound host texts) (fun _ _ => True) (attest host gates) w :=
  upholds_attest gates fun _ => ⟨h.congr rfl rfl rfl rfl rfl, trivial⟩

theorem sound_replaceApprovals (payloads : Dict String ByteArray) (gates : List String) :
    Upholds (Sound host texts) (fun _ _ => True) (replaceApprovals host payloads gates) w := by
  refine (upholds_replaceApprovals payloads gates).weaken ?_
  rintro t ⟨current, hcurrent, hless, ht⟩
  exact h.advanced hcurrent hless ht.stored ht.commit ht.consumed ht.log

omit h

/-! ## Consumptions -/

theorem stands_of_readGate {gate : String} {reading : (String × String) × (String × String)}
    (h : readGate host store now gate = .ok reading) : Stands host store.approvals now gate := by
  unfold readGate at h
  simp only [bind_ok_iff, require_ok_iff] at h
  obtain ⟨raw, hraw, approval, hloads, revoked, hrevoked, _, rfl, expiresAt, hexpires, _, hcheck, _⟩ := h
  exact ⟨raw, approval, expiresAt, (protectedBytes_ok_iff.1 hraw).1, hloads, hrevoked, hexpires, hcheck⟩

variable {α : Type}

theorem ok_of_mem_mapM {β : Type} {f : α → Except Raised β} {xs : List α} {ys : List β} (h : xs.mapM f = .ok ys)
    {x : α} (hx : x ∈ xs) : ∃ y, f x = .ok y := by
  have hall := mapM_ok_iff.1 h
  clear h
  induction hall with
  | nil => cases hx
  | @cons a b as bs hab _ ih =>
    rcases List.mem_cons.1 hx with rfl | hmem
    · exact ⟨b, hab⟩
    · exact ih hmem

theorem stands_of_snapshot
    (h : snapshot host store gates now = .ok snap) : ∀ gate ∈ gates, Stands host store.approvals now gate := by
  obtain ⟨readings, _, hreadings, _, _⟩ := snapshot_ok_iff.1 h
  intro gate hgate
  obtain ⟨reading, hreading⟩ := ok_of_mem_mapM hreadings ((mem_sortBy _ _ _).2 hgate)
  exact stands_of_readGate hreading

theorem textual_pairsJson (pairs : List (String × String)) : (pairsJson pairs).Textual := by
  unfold pairsJson
  induction pairs with
  | nil => trivial
  | cons p rest ih => exact ⟨⟨trivial, trivial, trivial⟩, ih⟩

theorem pairsJson_inj {xs ys : List (String × String)} (h : pairsJson xs = pairsJson ys) : xs = ys := by
  refine List.map_injective_iff.2 ?_ (Json.arr.inj h)
  rintro ⟨a, b⟩ ⟨c, d⟩ heq
  simpa using heq

theorem approvals_of_digest (hsha : Set.InjOn host.sha256 texts) {snap' : Snapshot}
    (hmem : canonicalBytes snap.toJson ∈ texts) (hmem' : canonicalBytes snap'.toJson ∈ texts)
    (h : snap.digest host = snap'.digest host) : snap.approvals = snap'.approvals := by
  have hbytes : canonicalBytes snap.toJson = canonicalBytes snap'.toJson := hsha hmem hmem' h
  have htexts : Json.dumps snap.toJson = Json.dumps snap'.toJson :=
    String.ofList_injective (String.toByteArray_inj.1 hbytes)
  have hmembers : ∀ s : Snapshot, ∃ rest, Json.dumps s.toJson =
      '\x7b' :: (Json.dumpsString "approvals".toList ++ ':' :: (Json.dumps (pairsJson s.approvals) ++ rest)) := by
    intro s
    refine ⟨',' :: Json.dumpsMembers [("generation", .num s.generation 0), ("issuer", .str s.issuer),
      ("prerequisite_digest", .str s.prerequisiteDigest), ("receipts", pairsJson s.receipts)], ?_⟩
    rw [Snapshot.toJson, Json.dumps, Json.dumpsMembers]
    · simp
    · simp
  obtain ⟨rest, hrest⟩ := hmembers snap
  obtain ⟨rest', hrest'⟩ := hmembers snap'
  rw [hrest, hrest'] at htexts
  have htail := (List.cons.inj (List.append_cancel_left (List.cons.inj htexts).2)).2
  exact pairsJson_inj (Json.dumps_append_inj _ _ (textual_pairsJson _) (textual_pairsJson _) _ _ htail).1

theorem consumable_ok (h : consumable host store call = .ok record) :
    store.commit = .file record ∧ (record.action = call.action ∧ record.gate = call.gate) ∧
      (record.identity = call.identity ∧ record.source = call.source) ∧ record.bootId = call.bootId ∧
      (∃ spent, consumedGeneration host store = .ok spent ∧ spent < record.generation) ∧
      (∃ snap, snapshot host store call.gates call.now = .ok snap ∧ snap.generation = record.generation ∧
        snap.digest host = record.snapshotDigest) ∧
      (∃ deadline, deadlineNs host record.expiresAt = .ok deadline ∧ call.now < deadline) ∧
      call.monotonic < record.monotonicDeadlineNs := by
  unfold consumable at h
  simp only [bind_ok_iff, require_ok_iff, Except.ok.injEq] at h
  obtain ⟨_, _, found, hfound, _, _, _, _, _, haction, _, hsame, _, hboot, _, _, spent, hspent, _, hless, snap, hsnap, _,
    hgeneration, _, hdigest, deadline, hdeadline, _, hnow, _, hmonotonic, _, _, rfl⟩ := h
  refine ⟨?_, haction, hsame, hboot, ⟨spent, hspent, hless⟩, ⟨snap, hsnap, hgeneration, hdigest⟩,
    ⟨deadline, hdeadline, hnow⟩, hmonotonic⟩
  unfold readCommit at hfound
  split at hfound
  · cases hfound
  · cases hfound
  · next record hread =>
    simp only [bind_ok_iff, require_ok_iff, Except.ok.injEq] at hfound
    obtain ⟨_, _, rfl⟩ := hfound
    exact read_ok_iff.1 hread

theorem backed_of_consumable (hsha : Set.InjOn host.sha256 texts) (h : Sound host texts w)
    (htexts : ∀ snap, Taken host w (.consume call) snap → canonicalBytes snap.toJson ∈ texts)
    (hconsumable : consumable host w.store call = .ok record) :
    Backed host w.log ⟨call, record, w.store.approvals⟩ := by
  obtain ⟨hcommit, haction, hsame, hboot, _, ⟨snap, hsnap, hgeneration, hdigest⟩, hdeadline, hmonotonic⟩ :=
    consumable_ok hconsumable
  obtain ⟨admission, hadmission, rfl⟩ := h.published record hcommit
  have hstored : storedGeneration w.store = .ok admission.record.generation := consumable_generation hconsumable
  obtain ⟨happrovals, earlier, later, hlog, hundisturbed⟩ := h.current admission hadmission hstored
  have hprepared := h.prepared admission hadmission
  obtain ⟨snap', hdigest', hgates', hmem'⟩ := h.taken admission hadmission
  have hsorted : sortBy id call.gates = sortBy id admission.call.gates := by
    rw [← hgates', ← snapshot_gates hsnap, approvals_of_digest hsha (htexts snap hsnap) hmem' (hdigest.trans hdigest')]
  have hperm : call.gates.Perm admission.call.gates :=
    (sortBy_perm id call.gates).symm.trans (hsorted ▸ sortBy_perm id admission.call.gates)
  refine ⟨earlier, admission, later, hlog, hundisturbed, hprepared, ?_⟩
  refine ⟨rfl, haction.1, haction.2, hsame.1, hsame.2, hboot, hperm, happrovals, ?_, hdeadline, hmonotonic⟩
  intro gate hgate
  exact stands_of_snapshot hsnap gate (hperm.mem_iff.2 hgate)

theorem sound_consume (hsha : Set.InjOn host.sha256 texts) (h : Sound host texts w) (call : ConsumeCall)
    (htexts : ∀ snap, Taken host w (.consume call) snap → canonicalBytes snap.toJson ∈ texts) :
    Upholds (Sound host texts) (fun _ _ => True) (consume host call) w := by
  refine ⟨fun t ht => ?_, fun _ _ => trivial⟩
  cases hconsumable : consumable host w.store call with
  | error raised =>
    rw [consume_unconsumable hconsumable] at ht
    cases ht
  | ok record =>
    obtain ⟨_, _, _, _, ⟨spent, hspent, hless⟩, _⟩ := consumable_ok hconsumable
    have hbounds := storedGeneration_bounds (consumable_generation hconsumable)
    have hsound : Sound host texts (w.spent (consumptionOf host call record)) := h.spend ⟨rfl, rfl⟩ hbounds hspent hless
    have hran : Sound host texts ((w.spent (consumptionOf host call record)).ran call record) := by
      have hbacked := backed_of_consumable hsha h htexts hconsumable
      refine hsound.run (@consumedGeneration_file host _ (consumptionOf host call record) rfl ⟨rfl, rfl⟩ hbounds) ?_
        hbacked
      intro effect heffect
      obtain ⟨found, hfound, hle⟩ := h.spent effect heffect
      have := Except.ok.inj (hspent.symm.trans hfound)
      omega
    rw [consume_writes hconsumable] at ht
    rcases List.mem_cons.1 ht with rfl | hrest
    · exact hsound
    · split_ifs at hrest
      · rw [List.mem_singleton.1 hrest]
        exact hran
      · cases hrest

/-! ## Runs -/

theorem upholds_discard {Inv : World → Prop} {x : Action α} (h : Upholds Inv (fun _ _ => True) x w) :
    Upholds Inv (fun _ _ => True) (x >>= fun _ => (pure () : Action Unit)) w :=
  h.bind fun _ _ _ => upholds_pure trivial

theorem sound_perform (hsha : Set.InjOn host.sha256 texts) (h : Sound host texts w) (call : Call)
    (htexts : ∀ snap, Taken host w call snap → canonicalBytes snap.toJson ∈ texts) :
    Upholds (Sound host texts) (fun _ _ => True) (perform host call) w := by
  cases call with
  | replaceApprovals payloads gates => exact upholds_discard (sound_replaceApprovals h payloads gates)
  | enrol gates => exact upholds_discard (sound_attest h gates)
  | admitIntent call => exact upholds_discard (sound_admitIntent h call htexts)
  | consume call => exact upholds_discard (sound_consume hsha h call htexts)
  | recover => exact upholds_discard (upholds_read fun _ _ => trivial)

theorem sound_run (hsha : Set.InjOn host.sha256 texts) (h : Sound host texts w) (calls : List (Call × Option ℕ))
    (htexts : snapshotTexts host w calls ⊆ texts) : Sound host texts (run host w calls) := by
  induction calls generalizing w with
  | nil => exact h
  | cons c rest ih =>
    have hhead : ∀ snap, Taken host w c.1 snap → canonicalBytes snap.toJson ∈ texts := fun snap hsnap =>
      htexts ⟨[], c, rest, snap, rfl, hsnap, rfl⟩
    refine ih ((sound_perform hsha h c.1 hhead).left h c.2) ?_
    rintro bytes ⟨before, call, after, snap, rfl, hsnap, hbytes⟩
    exact htexts ⟨c :: before, call, after, snap, rfl, hsnap, hbytes⟩

/-! ## Generations -/

/-- The stored generation is at least this one. -/
def NotBelow (generation : ℤ) (w : World) : Prop :=
  ∃ current, storedGeneration w.store = .ok current ∧ generation ≤ current

variable {generation : ℤ}

variable (hstored : storedGeneration w.store = .ok generation)
include hstored

theorem notBelow_of_advanced (hcurrent : storedGeneration w.store = .ok current)
    (hless : current < maxGeneration) (ht : t.store.generation = .file (current + 1)) : NotBelow generation t := by
  have hbounds := storedGeneration_bounds hcurrent
  have hsame := Except.ok.inj (hstored.symm.trans hcurrent)
  exact ⟨current + 1, storedGeneration_file ht ⟨by omega, by omega⟩, by omega⟩

theorem notBelow_perform (call : Call) : Upholds (NotBelow generation) (fun _ _ => True) (perform host call) w := by
  have hstart : NotBelow generation w := ⟨generation, hstored, le_refl _⟩
  cases call with
  | replaceApprovals payloads gates =>
    refine upholds_discard ((upholds_replaceApprovals payloads gates).weaken ?_)
    rintro t ⟨current, hcurrent, hless, ht⟩
    exact notBelow_of_advanced hstored hcurrent hless ht.stored
  | enrol gates => exact upholds_discard (upholds_attest gates fun _ => ⟨hstart, trivial⟩)
  | admitIntent call =>
    refine upholds_discard ?_
    cases hready : prepared host w.store call with
    | error raised => exact Upholds.congr upholds_raise (admit_unprepared hready)
    | ok ready =>
      obtain ⟨validated, proposal, deadline⟩ := ready
      refine Upholds.mono (Upholds.weaken (upholds_admitIntent call hready) ?_) fun _ _ _ => trivial
      rintro t ⟨current, hcurrent, hless, hadvanced | ⟨record, _, hadmitted | ⟨u, attestation, hu, rfl⟩⟩⟩
      · exact notBelow_of_advanced hstored hcurrent hless hadvanced.stored
      · exact notBelow_of_advanced hstored hcurrent hless hadmitted.stored
      · exact notBelow_of_advanced hstored hcurrent hless hu.stored
  | consume call =>
    refine upholds_discard ⟨fun t ht => ?_, fun _ _ => trivial⟩
    cases hconsumable : consumable host w.store call with
    | error raised =>
      rw [consume_unconsumable hconsumable] at ht
      cases ht
    | ok record =>
      rw [consume_writes hconsumable] at ht
      rcases List.mem_cons.1 ht with rfl | hrest
      · exact hstart
      · split_ifs at hrest
        · rw [List.mem_singleton.1 hrest]
          exact hstart
        · cases hrest
  | recover => exact upholds_discard (upholds_read fun _ _ => trivial)

theorem notBelow_run (calls : List (Call × Option ℕ)) : NotBelow generation (run host w calls) := by
  induction calls generalizing w generation with
  | nil => exact ⟨generation, hstored, le_refl _⟩
  | cons c rest ih =>
    obtain ⟨current, hcurrent, hle⟩ := (notBelow_perform hstored c.1).left ⟨generation, hstored, le_refl _⟩ c.2
    obtain ⟨last, hlast, hle'⟩ := ih hcurrent
    exact ⟨last, hlast, by omega⟩

omit hstored

/-! ## The effects of a store -/

/-- In every run, with crashes anywhere, each effect belongs to one admission that still stands, no generation
is shared or has its effect run twice, and the stored generation never decreases. -/
theorem effects_belong_to_standing_admissions (host : Host) (w : World) (hfresh : Fresh w)
    (calls : List (Call × Option ℕ)) (hsha : Set.InjOn host.sha256 (snapshotTexts host w calls)) :
    (∀ before effect after, (run host w calls).log = before ++ .ran effect :: after → Backed host before effect) ∧
    ((run host w calls).log.filterMap Event.admitted?).Nodup ∧
    ((run host w calls).log.filterMap Event.effected?).Nodup ∧
    ∀ later generation, storedGeneration (run host w calls).store = .ok generation →
      NotBelow generation (run host w (calls ++ later)) := by
  have hsound : Sound host (snapshotTexts host w calls) (run host w calls) :=
    sound_run hsha hfresh.sound calls subset_rfl
  refine ⟨?_, hsound.admissions, hsound.effects, ?_⟩
  · intro before effect after hlog
    refine hsound.backed before effect ⟨after, ?_⟩
    rw [hlog, List.append_assoc, List.singleton_append]
  · intro later generation hstored
    unfold run
    rw [List.foldl_append]
    exact notBelow_run hstored later

/-- A digest without collisions: the bytes as characters. -/
def spellBytes (bytes : ByteArray) : String := String.ofList (bytes.data.toList.map fun byte => Char.ofNat byte.toNat)

theorem spellBytes_injective : Function.Injective spellBytes := by
  intro x y h
  have hchars : Function.Injective fun byte : UInt8 => Char.ofNat byte.toNat := by
    intro a b hab
    have hvalid : ∀ c : UInt8, (Char.ofNat c.toNat).toNat = c.toNat := fun c =>
      Json.toNat_ofNat (.inl (by have := c.toNat_lt; omega))
    have hnat : a.toNat = b.toNat := by
      rw [← hvalid a, ← hvalid b]
      exact congrArg Char.toNat hab
    exact UInt8.toNat_inj.1 hnat
  have hlists := List.map_injective_iff.2 hchars (String.ofList_injective h)
  exact ByteArray.ext (Array.toList_inj.1 hlists)

theorem effects_of_sample_run : let host := { sampleHost with sha256 := spellBytes }
    let calls := [(.enrol ["PRE_P3_READY"], none), (.admitIntent (sampleCall 0), some 6), (.enrol ["PRE_P3_READY"], none),
      (.consume { sampleConsumption with apply := some fun _ => .ok () }, none)]
    ∀ before effect after, (run host sampleWorld calls).log = before ++ .ran effect :: after →
      Backed host before effect := by
  intro host calls
  have hfresh : Fresh sampleWorld := by
    refine ⟨rfl, fun record hrecord => ?_⟩
    have habsent : (Entry.absent : Entry CommitRecord) = .file record := hrecord
    cases habsent
  exact (effects_belong_to_standing_admissions host sampleWorld hfresh calls spellBytes_injective.injOn).1

end TradingAgent.LocalAuthority
