import TradingAgent.AlphaCampaign.Lifecycles
import TradingAgent.Lib.AppendOnly

/-! Whatever is called, lifecycles stay legal and a repeated publication is answered as before. -/

namespace TradingAgent.AlphaCampaign

open Outcome ThreeValued CanonicalJson AppendOnly
open JobPlane (Raised Attempt notNull_ok_iff)
open Jsonb (get getText path pathText)

variable {publisher : Publisher} {db after : Database}

/-! ## Calls -/

structure Reads (publisher : Publisher) (session : Session) (p : CommitArguments) (db : Database)
    (transport request : Json) (jobId : String) (job : Job) : Prop where
  user : session.user = .tradingJobWorker
  transported : readTransport p = .ok transport
  requested : readRequest publisher p.jobId transport = .ok request
  named : p.jobId = some jobId
  found : db.plane.job? jobId = some job

variable {p : CommitArguments} {session : Session} {clock : Clock} {reply : Reply}

theorem reply_cases (h : workerCommitAlphaCampaign publisher session clock p db = .ok reply) :
    ∃ transport request jobId job, Reads publisher session p db transport request jobId job ∧
      ((∃ existing result, db.commit? jobId (getText (some request) "idempotency_key") = some existing ∧
          storedResult p transport request existing = .ok result ∧ reply = .stored result) ∨
        ∃ attempt x, commitAttempt clock p jobId job db.plane = .ok attempt ∧
          publish publisher clock p jobId job attempt transport request db = .ok x ∧ reply = .published x) := by
  unfold workerCommitAlphaCampaign at h
  obtain ⟨_, huser, h⟩ := bind_ok_iff.1 h
  obtain ⟨transport, htransport, h⟩ := bind_ok_iff.1 h
  obtain ⟨request, hrequest, h⟩ := bind_ok_iff.1 h
  obtain ⟨jobId, hid, h⟩ := bind_ok_iff.1 h
  obtain ⟨job, hjob, h⟩ := bind_ok_iff.1 h
  refine ⟨transport, request, jobId, job, ⟨require_ok_iff.1 huser, htransport, hrequest, notNull_ok_iff.1 hid,
    notNull_ok_iff.1 hjob⟩, ?_⟩
  split at h
  · rename_i existing hexisting
    cases hresult : storedResult p transport request existing with
    | error e =>
      rw [hresult] at h
      cases h
    | ok result =>
      rw [hresult] at h
      exact .inl ⟨existing, result, hexisting, hresult, (Except.ok.inj h).symm⟩
  · obtain ⟨attempt, hattempt, h⟩ := bind_ok_iff.1 h
    cases hpublish : publish publisher clock p jobId job attempt transport request db with
    | error e =>
      rw [hpublish] at h
      cases h
    | ok x =>
      rw [hpublish] at h
      exact .inr ⟨attempt, x, hattempt, hpublish, (Except.ok.inj h).symm⟩

variable {jobId : String} {job : Job} {tables : Tables} {attempt : Attempt}

theorem attempt_of (h : commitAttempt clock p jobId job tables = .ok attempt) :
    job.state = .running ∧ p.attemptId = some attempt.attemptId := by
  unfold commitAttempt at h
  obtain ⟨_, -, h⟩ := bind_ok_iff.1 h
  obtain ⟨_, hjob, h⟩ := bind_ok_iff.1 h
  obtain ⟨found, hfound, h⟩ := bind_ok_iff.1 h
  obtain ⟨_, -, h⟩ := bind_ok_iff.1 h
  obtain rfl := Except.ok.inj h
  rw [raiseIf_ok_iff, not_holds_anyOf_iff] at hjob
  have hrunning := hjob (some (decide (job.state ≠ .running))) (by simp)
  rw [notNull_ok_iff, Option.bind_eq_some_iff] at hfound
  obtain ⟨attemptId, hid, hfound⟩ := hfound
  have hsame := List.find?_some hfound
  rw [decide_eq_true_iff] at hsame
  exact ⟨by simpa using hrunning, by rw [hid, hsame.1]⟩

variable {transport request : Json}

theorem heads_of_register {jobId : Option String}
    (h : readRequest publisher jobId transport = .ok request) (hstage : getText (some request) "stage" = some "REGISTER")
    (hheads : elements (get (some request) "expected_heads") ≠ []) :
    (elements (get (some request) "expected_heads")).length = 4 := by
  unfold readRequest at h
  obtain ⟨_, -, h⟩ := bind_ok_iff.1 h
  obtain ⟨_, -, h⟩ := bind_ok_iff.1 h
  obtain ⟨found, -, h⟩ := bind_ok_iff.1 h
  obtain ⟨_, -, h⟩ := bind_ok_iff.1 h
  obtain ⟨_, -, h⟩ := bind_ok_iff.1 h
  obtain ⟨_, hfour, h⟩ := bind_ok_iff.1 h
  obtain ⟨_, -, h⟩ := bind_ok_iff.1 h
  obtain rfl := Except.ok.inj h
  rw [raiseIf_ok_iff, hstage, holds_and_iff, holds_or_iff] at hfour
  unfold elements lengthOf at *
  cases hitems : (get (some found) "expected_heads").bind Json.items? with
  | none =>
    rw [hitems] at hheads
    exact absurd rfl hheads
  | some items =>
    rw [hitems] at hfour
    exact eq_of_not_ne fun hne => hfour ⟨by simp, .inl hne⟩

/-! ## The invariant of a run -/

def Run.log (run : Run) : List Committed := run.published.flatMap (·.entries)

/-- A registration opens four alphas, those of its family. -/
def Published.Registers (x : Published) : Prop :=
  x.stage = some "REGISTER" → x.family.length = 4 ∧ ((openedIds x.entries).map some).Perm x.family ∧
    ∀ c ∈ x.entries, c.row.alphaId ∈ openedIds x.entries

structure Run.Sound (run : Run) : Prop where
  mirrors : Mirrors run.log run.database
  lawful : Lawful run.log
  decided : ∀ c ∈ run.log, c.Decided
  registers : ∀ x ∈ run.published, x.Registers
  disjoint : run.published.Pairwise fun x y => List.Disjoint (openedIds x.entries) (openedIds y.entries)
  jobs : run.database.commits.map (·.jobId) = run.published.map (·.jobId)
  once : (run.database.commits.map (·.jobId)).Nodup
  committed : ∀ jobId, (∃ row ∈ run.database.commits, row.jobId = jobId) ↔ run.database.plane.Committed jobId

theorem lawful_nil : Lawful [] := by
  intro alphaId
  exact ⟨⟨[], rfl, .inl rfl⟩, fun c hc => absurd hc List.not_mem_nil⟩

theorem sound_opening (start : Opening) : Run.Sound ⟨[], start.database⟩ where
  mirrors := ⟨by simp [Run.log], by simp [Run.log], fun _ => rfl, List.nodup_nil, by simp [Opening.database]⟩
  lawful := lawful_nil
  decided := by simp [Run.log]
  registers := by simp
  disjoint := List.Pairwise.nil
  jobs := rfl
  once := List.nodup_nil
  committed := fun jobId => ⟨fun ⟨_, hrow, _⟩ => absurd hrow List.not_mem_nil,
    fun h => absurd h (start.uncommitted jobId)⟩

theorem Mirrors.elsewhere {log : List Committed} (h : Mirrors log db) (hheads : after.heads = db.heads) :
    Mirrors log after := by
  have hhead (alphaId alphaVersion : Option String) : after.head? alphaId alphaVersion = db.head? alphaId alphaVersion := by
    rw [Database.head?, Database.head?, hheads]
  exact ⟨h.versions, h.parsed, fun alphaId => (hhead _ _).trans (h.heads alphaId), hheads ▸ h.keys, hheads ▸ h.known⟩

theorem committed_iff_of_same {other : Tables} (h : tables.SameCommitted other) (jobId : String) :
    tables.Committed jobId ↔ other.Committed jobId := by
  by_cases hmem : jobId ∈ (tables.jobs ++ other.jobs).map Job.jobId
  · exact h jobId hmem
  · -- A job that neither plane has is committed in neither.
    have hnone {t : Tables} (ht : t.jobs ⊆ tables.jobs ++ other.jobs) : ¬ t.Committed jobId := by
      rintro ⟨job, hfound, -⟩
      have hsame := List.find?_some (Option.mem_def.1 hfound)
      rw [decide_eq_true_iff] at hsame
      exact hmem (List.mem_map.2 ⟨job, ht (List.mem_of_find?_eq_some (Option.mem_def.1 hfound)), hsame.1⟩)
    exact iff_of_false (hnone (List.subset_append_left _ _)) (hnone (List.subset_append_right _ _))

variable {run : Run}

theorem Run.Sound.elsewhere (h : run.Sound) {plane : Tables} {ledger : List LedgerEvent}
    (hsame : plane.SameCommitted run.database.plane) :
    Run.Sound { run with database := { run.database with plane := plane, ledger := ledger } } where
  mirrors := h.mirrors.elsewhere rfl
  lawful := h.lawful
  decided := h.decided
  registers := h.registers
  disjoint := h.disjoint
  jobs := h.jobs
  once := h.once
  committed := fun jobId => (h.committed jobId).trans (committed_iff_of_same hsame jobId).symm

theorem lawful_of_sanctioned {entries : List Json} {cs log : List Committed}
    (happends : AppendsAll publisher request entries db cs after) (hentries : SanctionedEntries request cs)
    (hmirrors : Mirrors log db) (hlawful : Lawful log) :
    Lawful (log ++ cs) ∧ (∀ alphaId ∈ openedIds cs, entriesOf alphaId log = []) ∧
      (getText (some request) "stage" = some "REGISTER" → (openedIds cs).Nodup ∧ (openedIds cs).length = 4 ∧
        ∀ c ∈ cs, c.row.alphaId ∈ openedIds cs) := by
  obtain ⟨stage, states, hstage, hstates, hmap⟩ := hentries.staged
  rcases stageStates_cases hstates with ⟨-, rfl⟩ | ⟨hregister, hidea⟩
  · obtain ⟨hall, hnodup, hlength, hfresh, hmem⟩ :=
      happends.lawful_pairs hmirrors hentries.versions hlawful hmap
    exact ⟨hall, hfresh, fun _ => ⟨hnodup, hlength, hmem⟩⟩
  · have hstatus (c : Committed) (hc : c ∈ cs) : ∃ status, c.status = some status ∧ status ≠ "IDEA" := by
      have hmem : c.status ∈ states.map some := hmap ▸ List.mem_map_of_mem hc
      obtain ⟨status, hmem, hs⟩ := List.mem_map.1 hmem
      exact ⟨status, hs.symm, fun heq => hidea (heq ▸ hmem)⟩
    have hopened : openedIds cs = [] := by
      rw [openedIds, List.map_eq_nil_iff, List.filter_eq_nil_iff]
      intro c hc
      obtain ⟨status, hs, hne⟩ := hstatus c hc
      simpa [hs] using hne
    refine ⟨happends.lawful_next hmirrors hentries.versions hlawful hstatus, by simp [hopened], fun heq => ?_⟩
    exact absurd (Option.some.inj (hstage.symm.trans heq)) hregister

variable {x : Published}

theorem registers_of {jobId : Option String} (hrequest : readRequest publisher jobId transport = .ok x.request)
    (hentries : SanctionedEntries x.request x.entries)
    (hopened : getText (some x.request) "stage" = some "REGISTER" → (openedIds x.entries).Nodup ∧
      (openedIds x.entries).length = 4 ∧ ∀ c ∈ x.entries, c.row.alphaId ∈ openedIds x.entries) : x.Registers := by
  intro hstage
  obtain ⟨hnodup, hlength, hmem⟩ := hopened hstage
  obtain ⟨ids, hne, hallowed, hperm⟩ := hentries.allowed
  have hheads : elements (get (some x.request) "expected_heads") ≠ [] := by
    intro hempty
    rw [hempty] at hperm
    exact hne hperm.eq_nil
  have hfour := heads_of_register hrequest hstage hheads
  -- Four different identities among four expected ones are all of them.
  have hsubset : (openedIds x.entries).map Json.str ⊆ ids := by
    intro value hvalue
    obtain ⟨alphaId, hid, rfl⟩ := List.mem_map.1 hvalue
    obtain ⟨c, hc, rfl⟩ := List.mem_map.1 hid
    exact hallowed c (List.mem_of_mem_filter hc)
  have hids : ((openedIds x.entries).map Json.str).Perm ids := by
    refine (List.subperm_of_subset (hnodup.map fun a b h => Json.str.inj h) hsubset).perm_of_length_le ?_
    rw [hperm.length_eq, List.length_map, List.length_map, hfour, hlength]
  refine ⟨by rw [Published.family, List.length_map, hfour], ?_, hmem⟩
  have htexts := (hids.trans hperm).map Jsonb.text
  rw [List.map_map, List.map_map] at htexts
  refine htexts.trans (.of_eq (List.map_congr_left fun h _ => ?_))
  rw [Function.comp_apply, getText]
  cases get (some h) "alpha_id" <;> rfl

theorem Run.Sound.publish (h : run.Sound)
    (hreply : workerCommitAlphaCampaign publisher session clock p run.database = .ok (.published x)) :
    Run.Sound ⟨run.published ++ [x], x.database⟩ := by
  obtain ⟨transport, request, jobId, job, hreads, hcases⟩ := reply_cases hreply
  rcases hcases with ⟨_, _, -, -, hstored⟩ | ⟨attempt, x', hattempt, hpublish, hx⟩
  · cases hstored
  obtain rfl := Reply.published.inj hx
  obtain ⟨mid, row, hpublishes⟩ := publishes_of hpublish
  obtain ⟨stage, intent, documents, hsanctioned⟩ := hpublishes.sanctioned
  have hentries := sanctionedEntries_of hsanctioned hpublishes.appends
  have hmirrors := hpublishes.appends.mirrors h.mirrors hentries.versions
  obtain ⟨hlawful, hfresh, hopened⟩ := lawful_of_sanctioned hpublishes.appends hentries h.mirrors h.lawful
  have hlog : Run.log ⟨run.published ++ [x], x.database⟩ = run.log ++ x.entries := by simp [Run.log]
  have hnone : ¬ run.database.plane.Committed jobId := by
    rintro ⟨other, hother, hstate, -⟩
    rw [Option.mem_def, hreads.found, Option.some.injEq] at hother
    rw [← hother, (attempt_of hattempt).1] at hstate
    cases hstate
  have hnew (other : CommitRow) (hmem : other ∈ run.database.commits) : other.jobId ≠ jobId := fun hid =>
    hnone ((h.committed jobId).1 ⟨other, hmem, hid⟩)
  refine ⟨?_, ?_, ?_, ?_, ?_, ?_, ?_, fun other => ?_⟩
  · rw [hlog]
    exact hmirrors.elsewhere hpublishes.kept.1
  · rw [hlog]
    exact hlawful
  · intro c hc
    rw [hlog, List.mem_append] at hc
    exact hc.elim (h.decided c) (hentries.decided c)
  · intro y hy
    rcases List.mem_append.1 hy with hy | hy
    · exact h.registers y hy
    · obtain rfl := List.mem_singleton.1 hy
      have hrequest := hpublishes.request_eq
      rw [← hrequest] at hentries hopened
      exact registers_of (hrequest ▸ hreads.requested) hentries hopened
  · refine List.pairwise_append.2 ⟨h.disjoint, List.pairwise_singleton _ _, fun y hy y' hy' => ?_⟩
    obtain rfl := List.mem_singleton.1 hy'
    intro alphaId hold hnew'
    -- An alpha that was opened before has an entry in the log.
    obtain ⟨c, hc, rfl⟩ := List.mem_map.1 hold
    have hempty := List.filter_eq_nil_iff.1 (hfresh _ hnew') c
      (List.mem_flatMap.2 ⟨y, hy, List.mem_of_mem_filter hc⟩)
    exact hempty (by simp)
  · rw [hpublishes.commits, List.map_append, List.map_append, h.jobs, List.map_singleton, List.map_singleton,
      hpublishes.rowJob, hpublishes.jobId_eq]
  · rw [hpublishes.commits, List.map_append]
    refine h.once.append (List.nodup_singleton _) (List.disjoint_singleton.2 fun hmem => ?_)
    obtain ⟨other, hother, hid⟩ := List.mem_map.1 hmem
    exact hnew other hother (hid.trans hpublishes.rowJob)
  · rw [committed_settleJob hpublishes.settled (by rw [hreads.found]; rfl), hpublishes.commits, ← h.committed]
    constructor
    · rintro ⟨r, hr, rfl⟩
      rcases List.mem_append.1 hr with hr | hr
      · exact .inr ⟨r, hr, rfl⟩
      · rw [List.mem_singleton.1 hr]
        exact .inl hpublishes.rowJob
    · rintro (rfl | ⟨r, hr, rfl⟩)
      · exact ⟨row, List.mem_append_right _ (List.mem_singleton_self _), hpublishes.rowJob⟩
      · exact ⟨r, List.mem_append_left _ hr, rfl⟩

theorem Run.Sound.advance (h : run.Sound) (call : PublicationCall) : (run.advance publisher call).Sound := by
  cases call with
  | commit session clock p =>
    rw [Run.advance]
    split
    · rename_i x hreply
      exact h.publish hreply
    · exact h
    · exact h
  | elsewhere plane ledger =>
    rw [Run.advance]
    split_ifs with hsame
    · exact h.elsewhere hsame
    · exact h

theorem sound_publishAll (start : Opening) (calls : List PublicationCall) : (publishAll publisher start calls).Sound := by
  rw [publishAll]
  generalize (⟨[], start.database⟩ : Run) = run, sound_opening start = h
  induction calls generalizing run with
  | nil => exact h
  | cons call calls ih => exact ih _ (h.advance call)

/-! ## Repeated calls -/

theorem appends_commits : Appends (fun run : Run => run.database.commits) (Run.advance publisher) fun _ _ => True := by
  intro run call
  cases call with
  | commit session clock p =>
    simp only [Run.advance]
    split
    · rename_i x hreply
      obtain ⟨transport, request, jobId, job, -, hcases⟩ := reply_cases hreply
      rcases hcases with ⟨_, _, -, -, hstored⟩ | ⟨attempt, x', -, hpublish, hx⟩
      · cases hstored
      obtain rfl := (Reply.published.inj hx).symm
      obtain ⟨mid, row, hpublishes⟩ := publishes_of hpublish
      exact .inr ⟨row, trivial, hpublishes.commits⟩
    · exact .inl rfl
    · exact .inl rfl
  | elsewhere plane ledger =>
    simp only [Run.advance]
    split_ifs <;> exact .inl rfl

def Reply.result : Reply → Json
  | .stored result => result
  | .published x => x.result

structure Recalls (publisher : Publisher) (session : Session) (p : CommitArguments) (row : CommitRow) (result : Json) :
    Prop where
  user : session.user = .tradingJobWorker
  documents : ∃ transport request, readTransport p = .ok transport ∧ readRequest publisher p.jobId transport = .ok request ∧
    getText (some request) "idempotency_key" = some row.idempotencyKey ∧ storedResult p transport request row = .ok result
  named : p.jobId = some row.jobId

theorem jsonbOf_output {output : Json} {text : String}
    (htransport : readTransport p = .ok transport) (houtput : get (some transport) "output_inventory_ref" = some output)
    (htext : canonicalDomainJson output = .ok text) : jsonbOf text = .ok output := by
  unfold readTransport at htransport
  obtain ⟨_, -, htransport⟩ := bind_ok_iff.1 htransport
  obtain ⟨_, -, htransport⟩ := bind_ok_iff.1 htransport
  obtain ⟨value, hvalue, htransport⟩ := bind_ok_iff.1 htransport
  iterate 5 obtain ⟨_, -, htransport⟩ := bind_ok_iff.1 htransport
  obtain rfl := Except.ok.inj htransport
  have hstorable : value.Storable := Json.storable_read (jsonbOf_ok_iff.1 hvalue)
  obtain ⟨hwhole, rfl⟩ := canonicalDomainJson_ok_iff.1 htext
  rw [jsonbOf_ok_iff, Jsonb.ofText, String.toList_ofList]
  exact Json.read_canonical (hstorable.field houtput) hwhole

variable {row : CommitRow}

theorem recalls_of_published {mid : Database} (hreads : Reads publisher session p db transport request jobId job)
    (hattempt : p.attemptId = some attempt.attemptId)
    (hpublishes : Publishes publisher clock p jobId job attempt transport request db mid row x) :
    Recalls publisher session p row x.result := by
  obtain ⟨output, houtput, htext, hresult⟩ := hpublishes.rowOutput
  refine ⟨hreads.user, ⟨transport, request, hreads.transported, hreads.requested, hpublishes.rowKey, ?_⟩,
    hpublishes.rowJob ▸ hreads.named⟩
  unfold storedResult
  rw [hpublishes.rowRequest, ok_bind, houtput, canonicalText, htext]
  simp only [Except.map, ok_bind, hpublishes.rowSemantic, hattempt, ← hpublishes.rowAttempt]
  have hfree : ¬ holds (anyOf [ne (some row.semanticRequestDigest) (some row.semanticRequestDigest),
      distinct (some row.publicationRequestText) (some row.publicationRequestText),
      distinct (some row.outputInventoryRefText) (some row.outputInventoryRefText),
      distinct (some row.outputAttemptId) (some row.outputAttemptId)]) := by
    rw [not_holds_anyOf_iff]
    simp [holds_ne_iff]
  rw [(raiseIf_ok_iff (u := ())).2 hfree, ok_bind, jsonbOf_output hreads.transported houtput htext, ok_bind, hresult]

theorem recalls_of_reply (h : workerCommitAlphaCampaign publisher session clock p run.database = .ok reply) :
    ∃ row ∈ (run.advance publisher (.commit session clock p)).database.commits,
      Recalls publisher session p row reply.result := by
  rw [Run.advance, h]
  obtain ⟨transport, request, jobId, job, hreads, hcases⟩ := reply_cases h
  rcases hcases with ⟨existing, result, hfound, hresult, rfl⟩ | ⟨attempt, x, hattempt, hpublish, rfl⟩
  · have hsame := List.find?_some hfound
    rw [decide_eq_true_iff] at hsame
    exact ⟨existing, List.mem_of_find?_eq_some hfound, hreads.user, ⟨transport, request, hreads.transported,
      hreads.requested, hsame.2.symm, hresult⟩, hsame.1 ▸ hreads.named⟩
  · obtain ⟨mid, row, hpublishes⟩ := publishes_of hpublish
    refine ⟨row, ?_, recalls_of_published hreads (attempt_of hattempt).2 hpublishes⟩
    simp only [hpublishes.commits]
    exact List.mem_append_right _ (List.mem_singleton_self _)

theorem stored_again (hsound : run.Sound)
    {result : Json} (hrow : row ∈ run.database.commits) (h : Recalls publisher session p row result) (clock : Clock) :
    workerCommitAlphaCampaign publisher session clock p run.database = .ok (.stored result) := by
  obtain ⟨transport, request, htransport, hrequest, hkey, hresult⟩ := h.documents
  obtain ⟨job, hjob, -⟩ := (hsound.committed row.jobId).1 ⟨row, hrow, rfl⟩
  have hfound : run.database.commit? row.jobId (getText (some request) "idempotency_key") = some row := by
    rw [hkey]
    cases hfind : run.database.commit? row.jobId (some row.idempotencyKey) with
    | none =>
      have hfree := List.find?_eq_none.1 hfind row hrow
      simp at hfree
    | some other =>
      have hsame := List.find?_some hfind
      rw [decide_eq_true_iff] at hsame
      rw [List.inj_on_of_nodup_map hsound.once (List.mem_of_find?_eq_some hfind) hrow hsame.1]
  unfold workerCommitAlphaCampaign
  rw [h.user, require_of _ rfl, ok_bind, htransport, ok_bind, hrequest, ok_bind, h.named]
  simp only [JobPlane.notNull, ok_bind, Option.mem_def.1 hjob, hfound, hresult]
  rfl

/-! ## Published lifecycles -/

/-- Over every run the entries of an alpha form one legal lifecycle, registered once, a job is committed once, a
repeated call returns its result again, and a raising call changes nothing. -/
theorem alpha_lifecycles_legal (publisher : Publisher) (start : Opening) (calls : List PublicationCall) :
    let run := publishAll publisher start calls
    ((∀ alphaId, LegalHistory (entriesOf alphaId run.log)) ∧ (∀ c ∈ run.log, c.Decided) ∧
      ∀ c ∈ run.log, c.row.alphaVersion = "1.0.0" ∧ jsonbOf c.row.registryEventText = .ok c.registry) ∧
    ((∀ x ∈ run.published, x.Registers) ∧ run.published.Pairwise fun x y =>
      x.stage = some "REGISTER" → y.stage = some "REGISTER" → List.Disjoint x.family y.family) ∧
    ((∀ alphaId, run.database.head? (some alphaId) (some "1.0.0") = lastHead (entriesOf alphaId run.log)) ∧
      (run.database.heads.map Head.key).Nodup ∧ ∀ key ∈ run.database.heads.map Head.key, key.2 = "1.0.0") ∧
    ((run.database.commits.map (·.jobId)).Nodup ∧
      run.database.commits.map (·.jobId) = run.published.map (·.jobId) ∧
      ∀ jobId, (∃ row ∈ run.database.commits, row.jobId = jobId) ↔ run.database.plane.Committed jobId) ∧
    (∀ before session clock p rest reply, calls = before ++ .commit session clock p :: rest →
      workerCommitAlphaCampaign publisher session clock p (publishAll publisher start before).database = .ok reply →
      ∀ clock', workerCommitAlphaCampaign publisher session clock' p run.database = .ok (.stored reply.result) ∧
        run.advance publisher (.commit session clock' p) = run) ∧
    ∀ session clock p raised, workerCommitAlphaCampaign publisher session clock p run.database = .error raised →
      run.advance publisher (.commit session clock p) = run := by
  intro run
  have hsound : run.Sound := sound_publishAll start calls
  refine ⟨⟨hsound.lawful, hsound.decided, fun c hc => ⟨hsound.mirrors.versions c hc, hsound.mirrors.parsed c hc⟩⟩,
    ⟨hsound.registers, ?_⟩, ⟨hsound.mirrors.heads, hsound.mirrors.keys, hsound.mirrors.known⟩,
    ⟨hsound.once, hsound.jobs, hsound.committed⟩, ?_, ?_⟩
  · refine hsound.disjoint.imp_of_mem fun {x y} hx hy hdisjoint hregister hregister' => ?_
    have hfamily := (hsound.registers x hx hregister).2.1
    have hfamily' := (hsound.registers y hy hregister').2.1
    intro id hid hid'
    obtain ⟨alphaId, hopened, rfl⟩ := List.mem_map.1 (hfamily.mem_iff.2 hid)
    obtain ⟨alphaId', hopened', heq⟩ := List.mem_map.1 (hfamily'.mem_iff.2 hid')
    exact hdisjoint hopened (Option.some.inj heq ▸ hopened')
  · rintro before session clock p rest reply rfl hreply clock'
    obtain ⟨row, hrow, hrecalls⟩ := recalls_of_reply hreply
    have hfinal : row ∈ run.database.commits := by
      have hrun : run = rest.foldl (Run.advance publisher)
          ((publishAll publisher start before).advance publisher (.commit session clock p)) := by
        simp [run, publishAll]
      rw [hrun]
      exact (appends_commits.grows _ rest).subset hrow
    have hagain := stored_again hsound hfinal hrecalls clock'
    exact ⟨hagain, by rw [Run.advance, hagain]⟩
  · intro session clock p raised hraised
    rw [Run.advance, hraised]

end TradingAgent.AlphaCampaign
