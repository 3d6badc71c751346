import TradingAgent.AlphaCampaign.HoldoutSteps

/-! A holdout release is made at most once, for a disclosure that its custodian consumed. -/

namespace TradingAgent.AlphaCampaign

open Outcome ThreeValued CanonicalJson AppendOnly
open JobPlane (Raised Attempt notNull_ok_iff)
open Jsonb (get getText)

variable {server : Server} {tables after : Tables}

theorem p3CheckedObject_spec (raw : Option String) (schemaName : String) (keys : List String) :
    Yields (fun value => ∃ text, raw = some text ∧ IsCanonical text value)
      (p3CheckedObject server raw schemaName keys) := by
  unfold p3CheckedObject
  refine .bind fun text htext => .bind fun _ _ => .bind fun parsed hparsed => .bind fun _ _ => ?_
  refine .bind fun canonical hcanonical => .bind fun _ hsame => .bind fun _ _ => .bind fun _ _ => ?_
  refine .bind fun _ _ => yields_ok ?_
  rw [require_ok_iff] at hsame
  obtain rfl := hsame
  obtain ⟨value, hvalue⟩ := isCanonical_of hcanonical
  obtain rfl := Option.some.inj (hvalue.1.symm.trans (jsonbOf_ok_iff.1 hparsed))
  exact ⟨text, notNull_ok_iff.1 htext, hvalue⟩

structure Readable (texts : Documents (Option String)) (d : Documents Json) : Prop where
  holdoutRequest : ∃ text, texts.holdoutRequest = some text ∧ IsCanonical text d.holdoutRequest
  researchInputSet : ∃ text, texts.researchInputSet = some text ∧ IsCanonical text d.researchInputSet
  holdoutInputSet : ∃ text, texts.holdoutInputSet = some text ∧ IsCanonical text d.holdoutInputSet
  familyReview : ∃ text, texts.familyReview = some text ∧ IsCanonical text d.familyReview
  primarySelection : ∃ text, texts.primarySelection = some text ∧ IsCanonical text d.primarySelection
  custodyRecord : ∃ text, texts.custodyRecord = some text ∧ IsCanonical text d.custodyRecord

theorem readable_of (texts : Documents (Option String)) : Yields (Readable texts) (readDocuments server texts) := by
  unfold readDocuments
  refine .bind fun q hq => .bind fun ri hri => .bind fun hi hhi => .bind fun f hf => .bind fun p hp => ?_
  refine .bind fun c hc => yields_ok ?_
  exact ⟨p3CheckedObject_spec _ _ _ q hq, p3CheckedObject_spec _ _ _ ri hri, p3CheckedObject_spec _ _ _ hi hhi,
    p3CheckedObject_spec _ _ _ f hf, p3CheckedObject_spec _ _ _ p hp, p3CheckedObject_spec _ _ _ c hc⟩

theorem text_unique {x y : Option String} {value : Json} (hx : ∃ text, x = some text ∧ IsCanonical text value)
    (hy : ∃ text, y = some text ∧ IsCanonical text value) : x = y := by
  obtain ⟨text, rfl, htext⟩ := hx
  obtain ⟨other, rfl, hother⟩ := hy
  rw [htext.text_eq hother]

variable {texts texts' : Documents (Option String)} {d : Documents Json}

theorem Readable.texts_eq (h : Readable texts d) (h' : Readable texts' d) : texts = texts' := by
  cases texts
  cases texts'
  rw [Documents.mk.injEq]
  exact ⟨text_unique h.holdoutRequest h'.holdoutRequest, text_unique h.researchInputSet h'.researchInputSet,
    text_unique h.holdoutInputSet h'.holdoutInputSet, text_unique h.familyReview h'.familyReview,
    text_unique h.primarySelection h'.primarySelection, text_unique h.custodyRecord h'.custodyRecord⟩

theorem Readable.storable (h : Readable texts d) : (Json.arr d.list).Storable := by
  have hdocument {x : Option String} {value : Json} (hx : ∃ text, x = some text ∧ IsCanonical text value) :
      value.Storable := by
    obtain ⟨_, -, hcanonical⟩ := hx
    exact hcanonical.storable
  rw [Json.Storable, Json.storableItems_iff]
  simp only [Documents.list, List.forall_mem_cons, List.not_mem_nil, false_implies, implies_true, and_true]
  exact ⟨hdocument h.holdoutRequest, hdocument h.researchInputSet, hdocument h.holdoutInputSet,
    hdocument h.familyReview, hdocument h.primarySelection, hdocument h.custodyRecord⟩

variable {inputs : String}

theorem documents_eq {d' : Documents Json}
    (hd : Readable texts d) (hd' : Readable texts' d') (h : inputsText d = .ok inputs)
    (h' : inputsText d' = .ok inputs) : d = d' := by
  obtain ⟨hwhole, htext⟩ := canonicalDomainJson_ok_iff.1 h
  obtain ⟨hwhole', htext'⟩ := canonicalDomainJson_ok_iff.1 h'
  have hlist := Json.arr.inj (Json.canonical_inj hd.storable hwhole hd'.storable hwhole'
    (String.ofList_inj.1 (htext.symm.trans htext')))
  cases d
  cases d'
  simpa [Documents.list] using hlist

def digestedTexts (server : Server) (calls : List Call) : List String :=
  calls.filterMap fun
    | .consume _ _ p => ((readDocuments server p.texts).bind inputsText).toOption
    | _ => none

/-- Documents of the run with one digest are equal. -/
def NoCollision (server : Server) (calls : List Call) : Prop :=
  ∀ x ∈ digestedTexts server calls, ∀ y ∈ digestedTexts server calls, server.sha256 x = server.sha256 y → x = y

variable {before rest : List Call} {session : Session} {clock : Clock} {p : ConsumeArguments}

theorem mem_digestedTexts {calls : List Call} (hcalls : calls = before ++ .consume session clock p :: rest)
    (hd : readDocuments server p.texts = .ok d) (hinputs : inputsText d = .ok inputs) :
    inputs ∈ digestedTexts server calls := by
  rw [digestedTexts, List.mem_filterMap]
  refine ⟨.consume session clock p, ?_, ?_⟩
  · rw [hcalls]
    exact List.mem_append_right _ List.mem_cons_self
  · simp only [hd, hinputs, Except.bind, Except.toOption]

/-- A consumption of the run prepared the disclosure from the texts. -/
def MadeFrom (server : Server) (start : Tables) (calls : List Call) (texts : Documents (Option String))
    (d : Disclosure) : Prop :=
  ∃ before session clock p rest job attempt, calls = before ++ .consume session clock p :: rest ∧ p.texts = texts ∧
    prepareDisclosure server session clock p (executeAll server start before) = .ok (job, attempt, d)

/-- The call names the lease of the disclosure and is answered with its row. -/
structure ConsumedBy (p : ConsumeArguments) (d : Disclosure) (rows : List DisclosedRow) : Prop where
  jobId : p.jobId = some d.jobId
  attemptId : p.attemptId = some d.attemptId
  workerId : p.workerId = some d.workerId
  requestText : p.texts.holdoutRequest = some d.holdoutRequestText
  rows : rows = [d.row]

/-- The epoch and family that the documents name. -/
def scopeOf (server : Server) (texts : Documents (Option String)) : Option (String × String) :=
  (readDocuments server texts).toOption.bind fun d =>
    (getText (some d.researchInputSet) "epoch_id").bind fun epochId =>
      (getText (some d.researchInputSet) "family_digest").map fun familyDigest => (epochId, familyDigest)

/-- The release is of the disclosure, whose worker held the claimed job at the time. -/
structure ReleasedUnder (server : Server) (clock : Clock) (tables : Tables) (r : Release) (d : Disclosure) (job : Job)
    (attempt : Attempt) : Prop where
  disclosed : d ∈ tables.disclosures
  commitment : d.holdoutCommitment = r.holdoutCommitment
  stamped : r.releasedAt = clock.reading 4
  ofJob : job ∈ tables.jobs ∧ job.jobId = d.jobId
  ofAttempt : attempt ∈ tables.attempts ∧ attempt.attemptId = d.attemptId ∧ attempt.jobId = d.jobId
  claimed : job.state = .claimed ∧ attempt.outcome = .claimed ∧ attempt.attemptNumber = job.attemptCount
  holder : job.leaseOwner = some d.workerId ∧ attempt.workerId = d.workerId ∧ job.leaseToken = some attempt.leaseToken
  -- The leases are compared with the clock before the release and after it.
  jobLease : ∃ expiry, job.leaseExpiresAt = some expiry ∧ clock.reading 0 < expiry ∧ clock.reading 5 < expiry ∧
    (r.releasedAt ≤ clock.reading 5 → r.releasedAt < expiry)
  attemptLease : clock.reading 1 < attempt.leaseExpiresAt ∧ clock.reading 6 < attempt.leaseExpiresAt ∧
    (r.releasedAt ≤ clock.reading 6 → r.releasedAt < attempt.leaseExpiresAt)
  authorized : p3PayloadAuthorized server job.payload none (clock.reading 2) (clock.reading 3) tables = .ok true

variable {job : Job} {instant : DateTime}

theorem leaseAfter_iff :
    holds (leaseAfter instant job) ↔ ∃ expiry, job.leaseExpiresAt = some expiry ∧ instant < expiry := by
  rw [leaseAfter, holds_relate_iff]
  simp

theorem lt_of_not_leaseBy {expiry : DateTime} (hexpiry : job.leaseExpiresAt = some expiry)
    (h : ¬ holds (leaseBy instant job)) : instant < expiry := by
  rw [leaseBy, holds_relate_iff] at h
  simp only [not_exists, not_and, decide_eq_true_eq, not_le] at h
  exact h expiry instant hexpiry rfl

variable {r : Release}

theorem releasedUnder_of {request : Option String} {row : ReleasedRow}
    {fenced : Fenced} (h : Releases server session clock request tables row after fenced r) :
    ReleasedUnder server clock tables r fenced.disclosure fenced.job fenced.attempt := by
  have hfence := releaseFence_spec session clock request fenced h.fence
  obtain ⟨hjobLive, hattemptLive, -⟩ := releaseTail_spec clock fenced () h.tail
  obtain ⟨hstate, houtcome, -, -, hnumber, howner, hworker, htoken, -, hlive, hattempt⟩ := hfence.claimed
  obtain ⟨expiry, hexpiry, hbefore⟩ := leaseAfter_iff.1 hlive
  have hafter := lt_of_not_leaseBy hexpiry hjobLive
  exact {
    disclosed := hfence.disclosed
    commitment := h.commitment.symm
    stamped := h.releasedAt
    ofJob := Tables.job?_eq_some hfence.lockedJob
    ofAttempt := Tables.attempt?_eq_some hfence.lockedAttempt
    claimed := ⟨hstate, houtcome, hnumber.symm⟩
    holder := ⟨howner, hworker, htoken⟩
    jobLease := ⟨expiry, hexpiry, hbefore, hafter, fun hle => lt_of_le_of_lt hle hafter⟩
    attemptLease := ⟨hattempt, hattemptLive, fun hle => lt_of_le_of_lt hle hattemptLive⟩
    authorized := hfence.authorized }

/-- The commitment whose disclosure the fence of a custodian's claim locks. -/
def commitmentOf (server : Server) (session : Session) (clock : Clock) (request : Option String) (tables : Tables) :
    Option String :=
  (releaseFence server session clock request tables).toOption.map (·.disclosure.holdoutCommitment)

/-- The row that a claim which returns leaves: the first one of its commitment. -/
structure LeftBy (server : Server) (session : Session) (clock : Clock) (request : Option String) (tables : Tables)
    (row : ReleasedRow) (after : Tables) (r : Release) : Prop where
  committed : commitmentOf server session clock request tables = some r.holdoutCommitment
  fresh : FreshRelease tables.releases r
  stored : after.releases = tables.releases ++ [r]
  row : row = ⟨r.requestSha256, r.releasedAt⟩
  text : request = some r.requestText
  under : ∃ d job attempt, ReleasedUnder server clock tables r d job attempt

section Run

variable {jobs : List Job} {attempts : List Attempt} {events : List JobPlane.Event}
  {campaigns : List CampaignAuthorization} {operations : List OperationAuthorization} {calls : List Call}

theorem disclosures_pairwise (calls : List Call) :
    (executeAll server (.opening jobs attempts events campaigns operations) calls).disclosures.Pairwise
      fun other d => d.conflicts other = false := by
  have hpairwise : Appends Tables.disclosures (execute server) fun rows d => ∀ other ∈ rows, d.conflicts other = false :=
    appends_disclosures
  exact hpairwise.pairwise .nil calls

theorem disclosures_nodup {κ : Type} (key : Disclosure → κ)
    (hkey : ∀ d other : Disclosure, d.conflicts other = false → key other ≠ key d) (calls : List Call) :
    ((executeAll server (.opening jobs attempts events campaigns operations) calls).disclosures.map key).Nodup := by
  rw [List.Nodup, List.pairwise_map]
  exact (disclosures_pairwise calls).imp fun {other d} h => hkey d other h

theorem disclosure_job_nodup (calls : List Call) :
    ((executeAll server (.opening jobs attempts events campaigns operations) calls).disclosures.map (·.jobId)).Nodup :=
  disclosures_nodup _ (fun _ _ h => (Disclosure.conflicts_eq_false_iff.1 h).2.2.2.1.symm) calls

theorem disclosure_scope_nodup (calls : List Call) :
    ((executeAll server (.opening jobs attempts events campaigns operations) calls).disclosures.map
      fun d => (d.epochId, d.familyDigest)).Nodup := by
  refine disclosures_nodup _ (fun d other h hsame => ?_) calls
  obtain ⟨hepoch, hfamily⟩ := Prod.mk.inj hsame
  exact (Disclosure.conflicts_eq_false_iff.1 h).2.2.2.2.2.2.2.2.2.2.2 hepoch.symm hfamily.symm

theorem disclosure_commitment_nodup (calls : List Call) :
    ((executeAll server (.opening jobs attempts events campaigns operations) calls).disclosures.map
      (·.holdoutCommitment)).Nodup :=
  disclosures_nodup _ (fun _ _ h => (Disclosure.conflicts_eq_false_iff.1 h).2.2.2.2.2.2.2.2.2.1.symm) calls

theorem disclosure_plaintext_nodup (calls : List Call) :
    ((executeAll server (.opening jobs attempts events campaigns operations) calls).disclosures.map
      (·.plaintextBundleDigest)).Nodup :=
  disclosures_nodup _ (fun _ _ h => (Disclosure.conflicts_eq_false_iff.1 h).2.2.2.2.2.2.2.2.2.2.1.symm) calls

theorem binding_authorization_nodup (calls : List Call) :
    ((executeAll server (.opening jobs attempts events campaigns operations) calls).bindings.map
      (·.authorizationDigest)).Nodup :=
  (appends_bindings.mono fun _ _ h other hother => (h other hother).1).nodup rfl calls

theorem binding_job_nodup (calls : List Call) :
    ((executeAll server (.opening jobs attempts events campaigns operations) calls).bindings.map (·.jobId)).Nodup :=
  (appends_bindings.mono fun _ _ h other hother => (h other hother).2).nodup rfl calls

theorem release_commitment_nodup (calls : List Call) :
    ((executeAll server (.opening jobs attempts events campaigns operations) calls).releases.map
      (·.holdoutCommitment)).Nodup :=
  (appends_releases.mono fun _ _ h other hother => (h other hother).1).nodup rfl calls

theorem executeAll_concat (start : Tables) (before : List Call) (call : Call) :
    executeAll server start (before ++ [call]) = execute server (executeAll server start before) call := by
  rw [executeAll, List.foldl_append]
  rfl

variable {start : Tables}

theorem mem_disclosures_of_prefix {d : Disclosure} (h : d ∈ (executeAll server start before).disclosures) :
    d ∈ (executeAll server start (before ++ rest)).disclosures :=
  (appends_disclosures.prefix_append start before rest).subset h

theorem disclosure_origin {d : Disclosure}
    (h : d ∈ (executeAll server (.opening jobs attempts events campaigns operations) calls).disclosures) :
    ∃ texts, MadeFrom server (.opening jobs attempts events campaigns operations) calls texts d := by
  rcases appends_disclosures.origin h with h | ⟨before, call, rest, hcalls, -, happend⟩
  · cases h
  · obtain ⟨session, clock, p, rows, rfl, hconsumes⟩ := consumes_of_disclosed happend
    obtain ⟨job, attempt, hprepared⟩ := hconsumes.prepared
    exact ⟨p.texts, before, session, clock, p, rest, job, attempt, hcalls, rfl, hprepared⟩

theorem filter_eq_singleton {α : Type} {p : α → Bool} {xs : List α} {x : α} (hx : x ∈ xs) (hpx : p x = true)
    (hnodup : xs.Nodup) (hunique : ∀ y ∈ xs, p y = true → y = x) : xs.filter p = [x] := by
  refine List.perm_singleton.1 ((List.perm_ext_iff_of_nodup (hnodup.filter p) (List.nodup_singleton x)).2 fun y => ?_)
  rw [List.mem_filter, List.mem_singleton]
  exact ⟨fun hy => hunique y hy.1 hy.2, fun hy => hy ▸ ⟨hx, hpx⟩⟩

variable {made : Disclosure} {rows : List DisclosedRow}

theorem consumedBy_of_returns (hnodup : (after.disclosures.map (·.jobId)).Nodup)
    (h : Consumes server session clock p (executeAll server start before) made rows after) :
    ∃ d ∈ after.disclosures, ConsumedBy p d rows ∧ made.ReadBack d := by
  obtain ⟨job, attempt, hprepared⟩ := h.prepared
  have hprepared := prepareDisclosure_spec session clock p _ hprepared
  obtain ⟨d, hd, hread⟩ := h.found
  have hunique : after.disclosures.filter (fun d => made.ReadBack d) = [d] := by
    refine filter_eq_singleton hd (by simpa using hread) (List.Nodup.of_map _ hnodup) fun other hother hsame => ?_
    have hsame : made.ReadBack other := by simpa using hsame
    exact List.inj_on_of_nodup_map hnodup hother hd (hsame.1.trans hread.1.symm)
  refine ⟨d, hd, ?_, hread⟩
  exact {
    jobId := by rw [hprepared.jobId, hread.1]
    attemptId := by rw [hprepared.attemptId, hread.2.1]
    workerId := by rw [hprepared.workerId, hread.2.2.1]
    requestText := by rw [hprepared.requestText, hread.2.2.2.2.1]
    rows := by rw [h.rows, hunique]; rfl }

theorem texts_eq_of_digest {before' rest' : List Call} {session' : Session} {clock' : Clock}
    {p' : ConsumeArguments} {start' : Tables} {job' : Job} {attempt attempt' : Attempt}
    {made' : Disclosure} (hcollision : NoCollision server calls)
    (hcalls : calls = before ++ .consume session clock p :: rest)
    (hcalls' : calls = before' ++ .consume session' clock' p' :: rest')
    (h : prepareDisclosure server session clock p start = .ok (job, attempt, made))
    (h' : prepareDisclosure server session' clock' p' start' = .ok (job', attempt', made'))
    (hdigest : made.inputsDigest = made'.inputsDigest) : p.texts = p'.texts := by
  obtain ⟨d, inputs, hd, hinputs, hsha, -⟩ := (prepareDisclosure_spec session clock p _ h).documents
  obtain ⟨d', inputs', hd', hinputs', hsha', -⟩ := (prepareDisclosure_spec session' clock' p' _ h').documents
  have hsame : inputs = inputs' := hcollision inputs (mem_digestedTexts hcalls hd hinputs) inputs'
    (mem_digestedTexts hcalls' hd' hinputs') (hsha.symm.trans (hdigest.trans hsha'))
  have hreadable := readable_of p.texts d hd
  have hreadable' := readable_of p'.texts d' hd'
  obtain rfl := documents_eq hreadable hreadable' hinputs (hsame ▸ hinputs')
  exact hreadable.texts_eq hreadable'

theorem MadeFrom.scope {d : Disclosure}
    (h : MadeFrom server start calls texts d) : scopeOf server texts = some (d.epochId, d.familyDigest) := by
  obtain ⟨before, session, clock, p, rest, job, attempt, -, rfl, hprepared⟩ := h
  obtain ⟨documents, inputs, hd, -, -, hepoch, hfamily⟩ :=
    (prepareDisclosure_spec session clock p _ hprepared).documents
  have hdocuments : (readDocuments server p.texts).toOption = some documents := by rw [hd]; rfl
  rw [scopeOf, hdocuments, Option.bind_some, hepoch, Option.bind_some, hfamily, Option.map_some]

theorem consumption_of_run {after : Tables} (hcalls : calls = before ++ .consume session clock p :: rest)
    (h : workerConsumeP3Holdout server session clock p
      (executeAll server (.opening jobs attempts events campaigns operations) before) = .ok (rows, after)) :
    ∃ d ∈ (executeAll server (.opening jobs attempts events campaigns operations) calls).disclosures,
      ConsumedBy p d rows ∧ (NoCollision server calls →
        MadeFrom server (.opening jobs attempts events campaigns operations) calls p.texts d) := by
  obtain ⟨made, hconsumes⟩ := consume_spec session clock p _ h
  have hafter : after =
      executeAll server (.opening jobs attempts events campaigns operations) (before ++ [.consume session clock p]) := by
    rw [executeAll_concat, execute, Call.commit, h]
    rfl
  obtain ⟨d, hd, hby, hread⟩ := consumedBy_of_returns (by rw [hafter]; exact disclosure_job_nodup _) hconsumes
  have hfinal : d ∈ (executeAll server (.opening jobs attempts events campaigns operations) calls).disclosures := by
    rw [hcalls, List.append_cons]
    rw [hafter] at hd
    exact mem_disclosures_of_prefix hd
  refine ⟨d, hfinal, hby, fun hcollision => ?_⟩
  obtain ⟨texts, before', session', clock', p', rest', job', attempt', hcalls', rfl, hprepared'⟩ :=
    disclosure_origin hfinal
  obtain ⟨job, attempt, hprepared⟩ := hconsumes.prepared
  have htexts := texts_eq_of_digest hcollision hcalls hcalls' hprepared hprepared' hread.2.2.2.1.symm
  exact ⟨before', session', clock', p', rest', job', attempt', hcalls', htexts.symm, hprepared'⟩

theorem release_origin
    (h : r ∈ (executeAll server (.opening jobs attempts events campaigns operations) calls).releases) :
    ∃ before session clock request rest d job attempt, calls = before ++ .claimRelease session clock request :: rest ∧
      ReleasedUnder server clock (executeAll server (.opening jobs attempts events campaigns operations) before) r d
        job attempt := by
  rcases appends_releases.origin h with h | ⟨before, call, rest, hcalls, -, happend⟩
  · cases h
  · obtain ⟨session, clock, request, row, fenced, rfl, hreleases⟩ := releases_of_released happend
    exact ⟨before, session, clock, request, rest, _, _, _, hcalls, releasedUnder_of hreleases⟩

theorem leftBy_of_returns {request : Option String} {row : ReleasedRow}
    (hcalls : calls = before ++ .claimRelease session clock request :: rest)
    (h : custodianClaimP3Release server session clock request (executeAll server start before) = .ok (row, after)) :
    after = executeAll server start (before ++ [.claimRelease session clock request]) ∧
      ∃ r ∈ (executeAll server start calls).releases,
        LeftBy server session clock request (executeAll server start before) row after r := by
  have hafter : after = executeAll server start (before ++ [.claimRelease session clock request]) := by
    rw [executeAll_concat, execute, Call.commit, h]
    rfl
  obtain ⟨fenced, r, hreleases⟩ := claimRelease_spec session clock request _ h
  have hstored : after.releases = (executeAll server start before).releases ++ [r] := by
    rw [show after = _ from hreleases.appended]
  have hlater : after.releases <+: (executeAll server start calls).releases := by
    have hsplit : calls = before ++ [.claimRelease session clock request] ++ rest := by
      rw [hcalls, List.append_assoc]
      rfl
    rw [hafter, hsplit]
    exact appends_releases.prefix_append start _ rest
  refine ⟨hafter, r, hlater.subset (by rw [hstored]; simp), ?_⟩
  exact {
    committed := by rw [commitmentOf, hreleases.fence, hreleases.commitment]; rfl
    fresh := hreleases.fresh
    stored := hstored
    row := hreleases.row
    text := by rw [hreleases.text]; exact releaseFence_text session clock request fenced hreleases.fence
    under := ⟨_, _, _, releasedUnder_of hreleases⟩ }

/-- After a claim has returned, no later one returns for the same commitment. -/
theorem length_le_of_same_commitment {before' rest' : List Call} {session' : Session} {clock' : Clock}
    {request request' : Option String} {row row' : ReleasedRow} {after' : Tables}
    (hcalls : calls = before ++ .claimRelease session clock request :: rest)
    (hcalls' : calls = before' ++ .claimRelease session' clock' request' :: rest')
    (h : custodianClaimP3Release server session clock request (executeAll server start before) = .ok (row, after))
    (h' : custodianClaimP3Release server session' clock' request' (executeAll server start before') = .ok (row', after'))
    (hsame : commitmentOf server session clock request (executeAll server start before) =
      commitmentOf server session' clock' request' (executeAll server start before')) :
    before'.length ≤ before.length := by
  by_contra! hlater
  obtain ⟨hafter, r, -, hclaimed⟩ := leftBy_of_returns hcalls h
  obtain ⟨-, r', -, hclaimed'⟩ := leftBy_of_returns hcalls' h'
  have hprefix : before ++ [.claimRelease session clock request] <+: before' := by
    refine List.prefix_of_prefix_length_le ?_ ⟨_, hcalls'.symm⟩ ?_
    · exact ⟨rest, by rw [hcalls, List.append_assoc]; rfl⟩
    · rw [List.length_append, List.length_singleton]
      exact hlater
  obtain ⟨between, rfl⟩ := hprefix
  have hkept : r ∈ (executeAll server start (before ++ [.claimRelease session clock request] ++ between)).releases := by
    refine (appends_releases.prefix_append start _ between).subset ?_
    change r ∈ (executeAll server start (before ++ [.claimRelease session clock request])).releases
    rw [← hafter, hclaimed.stored]
    simp
  refine (hclaimed'.fresh r hkept).1 ?_
  exact Option.some.inj (hclaimed.committed.symm.trans (hsame.trans hclaimed'.committed))

theorem disclosure_bound {d : Disclosure}
    (h : d ∈ (executeAll server (.opening jobs attempts events campaigns operations) calls).disclosures) :
    (executeAll server (.opening jobs attempts events campaigns operations) calls).Bound d.authorizationDigest
      d.jobId := by
  obtain ⟨_, before, session, clock, p, rest, job, attempt, rfl, -, hprepared⟩ := disclosure_origin h
  exact (appends_bindings.prefix_append _ before _).subset (prepareDisclosure_spec session clock p _ hprepared).bound

end Run

/-- Over every run from tables where nothing is bound yet: binding, disclosure and release happen once, for the
documents of their row and under the claim of its worker; a claim that returns leaves its row, and no other claim
returns for that commitment. -/
theorem holdout_released_at_most_once (server : Server) (jobs : List Job) (attempts : List Attempt)
    (events : List JobPlane.Event) (campaigns : List CampaignAuthorization) (operations : List OperationAuthorization)
    (calls : List Call) :
    let start := Tables.opening jobs attempts events campaigns operations
    let final := executeAll server start calls
    ((final.bindings.map (·.authorizationDigest)).Nodup ∧ (final.bindings.map (·.jobId)).Nodup) ∧
    ((final.disclosures.map fun d => (d.epochId, d.familyDigest)).Nodup ∧
      (final.disclosures.map (·.holdoutCommitment)).Nodup ∧ (final.disclosures.map (·.plaintextBundleDigest)).Nodup ∧
      ∀ d ∈ final.disclosures, final.Bound d.authorizationDigest d.jobId) ∧
    (final.releases.map (·.holdoutCommitment)).Nodup ∧
    (∀ before session clock p rest rows after, calls = before ++ .consume session clock p :: rest →
      workerConsumeP3Holdout server session clock p (executeAll server start before) = .ok (rows, after) →
      ∃ d ∈ final.disclosures, ConsumedBy p d rows ∧
        (NoCollision server calls → MadeFrom server start calls p.texts d)) ∧
    (NoCollision server calls →
      ∀ before session clock p rest rows after before' session' clock' p' rest' rows' after',
        calls = before ++ .consume session clock p :: rest →
        calls = before' ++ .consume session' clock' p' :: rest' →
        workerConsumeP3Holdout server session clock p (executeAll server start before) = .ok (rows, after) →
        workerConsumeP3Holdout server session' clock' p' (executeAll server start before') = .ok (rows', after') →
        scopeOf server p.texts = scopeOf server p'.texts → p.jobId = p'.jobId) ∧
    (∀ r ∈ final.releases, ∃ before session clock request rest d job attempt,
      calls = before ++ .claimRelease session clock request :: rest ∧
      ReleasedUnder server clock (executeAll server start before) r d job attempt) ∧
    (∀ before session clock request rest row after, calls = before ++ .claimRelease session clock request :: rest →
      custodianClaimP3Release server session clock request (executeAll server start before) = .ok (row, after) →
      ∃ r ∈ final.releases, LeftBy server session clock request (executeAll server start before) row after r) ∧
    (∀ before session clock request rest row after before' session' clock' request' rest' row' after',
      calls = before ++ .claimRelease session clock request :: rest →
      calls = before' ++ .claimRelease session' clock' request' :: rest' →
      custodianClaimP3Release server session clock request (executeAll server start before) = .ok (row, after) →
      custodianClaimP3Release server session' clock' request' (executeAll server start before') = .ok (row', after') →
      commitmentOf server session clock request (executeAll server start before) =
        commitmentOf server session' clock' request' (executeAll server start before') →
      before.length = before'.length) ∧
    (∀ before session clock request rest row, calls = before ++ .readRelease session clock request :: rest →
      custodianReadP3Release server session clock request (executeAll server start before) = .ok row →
      ∃ r ∈ final.releases, row = ⟨r.requestSha256, r.releasedAt⟩ ∧ request = some r.requestText) := by
  intro start final
  refine ⟨⟨binding_authorization_nodup calls, binding_job_nodup calls⟩, ⟨disclosure_scope_nodup calls,
    disclosure_commitment_nodup calls, disclosure_plaintext_nodup calls, fun d => disclosure_bound⟩,
    release_commitment_nodup calls, ?_, ?_, fun r => release_origin, ?_, ?_, ?_⟩
  · intro before session clock p rest rows after hcalls hreturns
    exact consumption_of_run hcalls hreturns
  · intro hcollision before session clock p rest rows after before' session' clock' p' rest' rows' after' hcalls hcalls'
      hreturns hreturns' hscope
    obtain ⟨d, hd, hby, hmade⟩ := consumption_of_run hcalls hreturns
    obtain ⟨d', hd', hby', hmade'⟩ := consumption_of_run hcalls' hreturns'
    rw [(hmade hcollision).scope, (hmade' hcollision).scope, Option.some.injEq] at hscope
    have hsame : d = d' := List.inj_on_of_nodup_map (disclosure_scope_nodup calls) hd hd' hscope
    rw [hby.jobId, hby'.jobId, hsame]
  · intro before session clock request rest row after hcalls hreturns
    exact (leftBy_of_returns hcalls hreturns).2
  · intro before session clock request rest row after before' session' clock' request' rest' row' after' hcalls hcalls'
      hreturns hreturns' hsame
    exact le_antisymm (length_le_of_same_commitment hcalls' hcalls hreturns' hreturns hsame.symm)
      (length_le_of_same_commitment hcalls hcalls' hreturns hreturns' hsame)
  · rintro before session clock request rest row rfl hreturns
    obtain ⟨r, hr, hrow⟩ := readRelease_spec session clock request row hreturns
    exact ⟨r, (appends_releases.prefix_append start before _).subset hr, hrow⟩

end TradingAgent.AlphaCampaign
