import TradingAgent.AlphaCampaign.Holdout
import TradingAgent.Lib.AppendOnly

/-! What each call on holdouts changes, and what it leaves alone. -/

namespace TradingAgent.AlphaCampaign

open Outcome ThreeValued CanonicalJson AppendOnly
open JobPlane (Raised Attempt given_ok_iff notNull notNull_ok_iff)
open Jsonb (get getText)

variable {server : Server} {tables after : Tables}

/-! ## Calls that leave the tables alone -/

structure Tables.SameRecords (tables after : Tables) : Prop where
  bindings : after.bindings = tables.bindings
  disclosures : after.disclosures = tables.disclosures
  releases : after.releases = tables.releases

namespace Tables.SameRecords

theorem refl (tables : Tables) : tables.SameRecords tables := ⟨rfl, rfl, rfl⟩

theorem trans {final : Tables} (h : tables.SameRecords after) (h' : after.SameRecords final) : tables.SameRecords final :=
  ⟨h'.bindings.trans h.bindings, h'.disclosures.trans h.disclosures, h'.releases.trans h.releases⟩

theorem updateJob (jobId : String) (f : Job → Job) : tables.SameRecords (tables.updateJob jobId f) := ⟨rfl, rfl, rfl⟩

theorem updateAttempt (attemptId jobId : String) (f : Attempt → Attempt) :
    tables.SameRecords (tables.updateAttempt attemptId jobId f) := ⟨rfl, rfl, rfl⟩

theorem insertJob {job : Job} (h : tables.insertJob job = .ok after) : tables.SameRecords after := by
  unfold Tables.insertJob at h
  obtain ⟨-, -, h⟩ := bind_ok_iff.1 h
  cases h
  exact ⟨rfl, rfl, rfl⟩

theorem insertAttempt {attempt : Attempt} (h : tables.insertAttempt attempt = .ok after) :
    tables.SameRecords after := by
  unfold Tables.insertAttempt at h
  obtain ⟨-, -, h⟩ := bind_ok_iff.1 h
  obtain ⟨-, -, h⟩ := bind_ok_iff.1 h
  obtain ⟨-, -, h⟩ := bind_ok_iff.1 h
  cases h
  exact ⟨rfl, rfl, rfl⟩

theorem insertEvent {event : JobPlane.Event} (h : tables.insertEvent event = .ok after) : tables.SameRecords after := by
  unfold Tables.insertEvent at h
  obtain ⟨-, -, h⟩ := bind_ok_iff.1 h
  obtain ⟨-, -, h⟩ := bind_ok_iff.1 h
  obtain ⟨-, -, h⟩ := bind_ok_iff.1 h
  obtain ⟨-, -, h⟩ := bind_ok_iff.1 h
  cases h
  exact ⟨rfl, rfl, rfl⟩

end Tables.SameRecords

open Tables (SameRecords)

variable {β : Type}

theorem yields_same (b : β) :
    Yields (fun r : β × Tables => tables.SameRecords r.2) (.ok (b, tables) : Except Raised (β × Tables)) :=
  yields_ok (SameRecords.refl tables)

theorem sameRecords_claim (locked : Bool) (session : Session) (clock : Clock) (p : ClaimArguments) :
    Yields (fun r => tables.SameRecords r.2) (workerClaimSessionHoldout server locked session clock p tables) := by
  unfold workerClaimSessionHoldout
  iterate 11 refine .bind fun _ _ => ?_
  split
  · exact yields_same _
  · refine .bind fun _ _ => .ite (fun _ => .bind fun still _ => .ite (fun _ => ?_) fun _ => yields_same _)
      fun _ => yields_same _
    refine .bind fun attempted hattempt => .bind fun final hevent => .bind fun _ _ => .bind fun _ _ => yields_ok ?_
    exact (SameRecords.updateJob _ _).trans ((SameRecords.insertAttempt hattempt).trans (SameRecords.insertEvent hevent))

theorem sameRecords_start (session : Session) (clock : Clock) (p : StartArguments) :
    Yields (fun r => tables.SameRecords r.2) (workerStartSessionHoldout server session clock p tables) := by
  unfold workerStartSessionHoldout
  iterate 12 refine .bind fun _ _ => ?_
  split
  · exact yields_same _
  · refine .bind fun _ _ => .bind fun _ _ => .ite (fun _ => ?_) fun _ => yields_same _
    refine .bind fun final hevent => .bind fun _ _ => .bind fun _ _ => yields_ok ?_
    exact ((SameRecords.updateJob _ _).trans (.updateAttempt _ _ _)).trans (SameRecords.insertEvent hevent)

theorem sameRecords_recover (retry : Bool) (lane : Job → Except Raised Bool) (session : Session) (now : DateTime)
    (p : JobPlane.RecoverArguments) :
    Yields (fun r => tables.SameRecords r.2) (recover retry lane session now p tables) := by
  unfold recover
  iterate 15 refine .bind fun _ _ => ?_
  split
  · exact yields_same _
  · refine .bind fun _ _ => .ite (fun _ => .bind fun _ _ => .bind fun recovered hrecovered => ?_)
      fun _ => yields_same _
    have hsame : tables.SameRecords recovered :=
      ((SameRecords.updateAttempt _ _ _).trans (.updateJob _ _)).trans (SameRecords.insertEvent hrecovered)
    refine .ite (fun _ => .bind fun _ _ => .bind fun final hevent => yields_ok ?_) fun _ => yields_ok hsame
    exact hsame.trans ((SameRecords.updateJob _ _).trans (SameRecords.insertEvent hevent))

/-! ## Bindings -/

def FreshBinding (bindings : List Binding) (b : Binding) : Prop :=
  ∀ other ∈ bindings, other.authorizationDigest ≠ b.authorizationDigest ∧ other.jobId ≠ b.jobId

structure BindsOnce (tables after : Tables) : Prop where
  bindings : after.bindings = tables.bindings ∨
    ∃ b, FreshBinding tables.bindings b ∧ after.bindings = tables.bindings ++ [b]
  disclosures : after.disclosures = tables.disclosures
  releases : after.releases = tables.releases

theorem bindsOnce_bind (payload : Json) (boundJob : String) :
    Yields (BindsOnce tables) (p3BindOperationJob payload boundJob tables) := by
  unfold p3BindOperationJob
  refine .ite (fun _ => yields_ok ⟨.inl rfl, rfl, rfl⟩) fun _ => .bind fun digest _ => .bind fun _ _ => ?_
  refine .bind fun _ _ => yields_ok ?_
  cases hconflict : tables.bindings.any fun b => b.authorizationDigest == digest || b.jobId == boundJob with
  | true => exact ⟨.inl rfl, rfl, rfl⟩
  | false =>
    refine ⟨.inr ⟨⟨digest, boundJob⟩, fun other hother => ?_, rfl⟩, rfl, rfl⟩
    have hfree := List.any_eq_false.1 hconflict other hother
    simpa using hfree

theorem bindsOnce_bindEnqueued (clock : Clock) (payload : Json) (jobId : String) :
    Yields (BindsOnce tables) (bindEnqueued server clock payload jobId tables) := by
  unfold bindEnqueued
  exact .bind fun bound hbound => .bind fun _ _ => .bind fun _ _ => yields_ok (bindsOnce_bind _ _ _ hbound)

theorem bindsOnce_enqueue (session : Session) (clock : Clock) (p : EnqueueArguments) :
    Yields (fun r => BindsOnce tables r.2) (apiEnqueueAlphaCampaign server session clock p tables) := by
  have hinsert (payload : Json) (jobId : String) {after : Tables} (hafter : tables.SameRecords after) :
      Yields (BindsOnce tables) (bindEnqueued server clock payload jobId after) := by
    refine (bindsOnce_bindEnqueued clock payload jobId).mono fun final h => ⟨?_, ?_, ?_⟩
    · rw [← hafter.bindings]
      exact h.bindings
    · rw [h.disclosures, hafter.disclosures]
    · rw [h.releases, hafter.releases]
  unfold apiEnqueueAlphaCampaign
  iterate 17 refine .bind fun _ _ => ?_
  split
  · refine .bind fun inserted hinserted => .bind fun _ _ => .bind fun _ _ => .bind fun recorded hrecorded => ?_
    have hsame := (SameRecords.insertJob hinserted).trans (SameRecords.insertEvent hrecorded)
    exact .bind fun bound hbound => yields_ok (hinsert _ _ hsame _ hbound)
  · exact .bind fun _ _ => .bind fun bound hbound => yields_ok (hinsert _ _ (.refl _) _ hbound)

/-! ## Disclosures -/

def FreshDisclosure (disclosures : List Disclosure) (d : Disclosure) : Prop :=
  ∀ other ∈ disclosures, d.conflicts other = false

theorem Disclosure.conflicts_eq_false_iff {x y : Disclosure} : x.conflicts y = false ↔
    x.intentDigest ≠ y.intentDigest ∧ x.intentSha256 ≠ y.intentSha256 ∧ x.authorizationDigest ≠ y.authorizationDigest ∧
    x.jobId ≠ y.jobId ∧ x.attemptId ≠ y.attemptId ∧ x.holdoutRequestSha256 ≠ y.holdoutRequestSha256 ∧
    x.holdoutInputSetSha256 ≠ y.holdoutInputSetSha256 ∧ x.primarySelectionSha256 ≠ y.primarySelectionSha256 ∧
    x.custodyRecordSha256 ≠ y.custodyRecordSha256 ∧ x.holdoutCommitment ≠ y.holdoutCommitment ∧
    x.plaintextBundleDigest ≠ y.plaintextBundleDigest ∧ (x.epochId = y.epochId → x.familyDigest ≠ y.familyDigest) := by
  simp only [Disclosure.conflicts, Disclosure.keys, List.zip_cons_cons, List.zip_nil_left, List.any_cons, List.any_nil,
    Bool.or_false, Bool.or_eq_false_iff, decide_eq_false_iff_not, List.cons.injEq, and_true, not_and]

structure DisclosureOf (server : Server) (consumer : Consumer) (payload : Json) (d : Documents Json) (requestText : String)
    (inputsSha : String) (made : Disclosure) : Prop where
  jobId : made.jobId = consumer.jobId
  attemptId : made.attemptId = consumer.attemptId
  workerId : made.workerId = consumer.workerId
  traceId : made.traceId = consumer.traceId
  authorization : authorizationSha payload = some made.authorizationDigest
  requestText : made.holdoutRequestText = requestText
  inputsDigest : made.inputsDigest = inputsSha
  epochId : getText (some d.researchInputSet) "epoch_id" = some made.epochId
  familyDigest : getText (some d.researchInputSet) "family_digest" = some made.familyDigest

theorem disclosureOf_spec (consumer : Consumer) (payload auth intent : Json) (d : Documents Json)
    (requestText inputsSha : String) (checkedAt : DateTime) :
    Yields (DisclosureOf server consumer payload d requestText inputsSha)
      (disclosureOf server consumer payload auth intent d requestText inputsSha checkedAt) := by
  unfold disclosureOf column
  refine .bind fun _ _ => .bind fun _ _ => .bind fun authorization hauthorization => ?_
  refine .bind fun _ _ => .bind fun _ _ => .bind fun epochId hepoch => .bind fun familyDigest hfamily => ?_
  iterate 14 refine .bind fun _ _ => ?_
  exact yields_ok ⟨rfl, rfl, rfl, rfl, notNull_ok_iff.1 hauthorization, rfl, rfl, notNull_ok_iff.1 hepoch,
    notNull_ok_iff.1 hfamily⟩

structure Prepared (server : Server) (clock : Clock) (p : ConsumeArguments) (tables : Tables) (job : Job)
    (attempt : Attempt) (made : Disclosure) : Prop where
  jobId : p.jobId = some made.jobId
  attemptId : p.attemptId = some made.attemptId
  workerId : p.workerId = some made.workerId
  traceId : p.traceId = some made.traceId
  requestText : p.texts.holdoutRequest = some made.holdoutRequestText
  lockedJob : tables.job? made.jobId = some job
  lockedAttempt : tables.attempt? made.attemptId made.jobId = some attempt
  claimed : ∃ leaseToken, p.leaseToken = some leaseToken ∧
    ClaimedBy job attempt made.workerId leaseToken (clock.reading 0) (clock.reading 1)
  bound : tables.Bound made.authorizationDigest made.jobId
  documents : ∃ d inputs, readDocuments server p.texts = .ok d ∧ inputsText d = .ok inputs ∧
    made.inputsDigest = server.sha256 inputs ∧ getText (some d.researchInputSet) "epoch_id" = some made.epochId ∧
    getText (some d.researchInputSet) "family_digest" = some made.familyDigest

theorem check_spec (p : ConsumeArguments) :
    Yields (fun consumer => p.jobId = some consumer.jobId ∧ p.attemptId = some consumer.attemptId ∧
      p.workerId = some consumer.workerId ∧ p.leaseToken = some consumer.leaseToken ∧
      p.traceId = some consumer.traceId) p.check := by
  unfold ConsumeArguments.check
  refine .bind fun _ hjob => .bind fun _ hattempt => .bind fun _ hworker => .bind fun _ htoken => ?_
  exact .bind fun _ htrace => yields_ok ⟨(given_ok_iff.1 hjob).1, (given_ok_iff.1 hattempt).1,
    (given_ok_iff.1 hworker).1, (given_ok_iff.1 htoken).1, (given_ok_iff.1 htrace).1⟩

theorem boundOperation_spec (jobId : String) (payload : Json) :
    Yields (fun _ => ∃ digest, authorizationSha payload = some digest ∧ tables.Bound digest jobId)
      (boundOperation jobId payload tables) := by
  unfold boundOperation
  refine .bind fun digest hdigest => .bind fun _ hbound => .bind fun _ _ => .bind fun _ _ => ?_
  exact .bind fun _ _ => .bind fun _ _ => yields_ok ⟨digest, notNull_ok_iff.1 hdigest, require_ok_iff.1 hbound⟩

theorem prepareDisclosure_spec (session : Session) (clock : Clock) (p : ConsumeArguments) :
    Yields (fun r => Prepared server clock p tables r.1 r.2.1 r.2.2)
      (prepareDisclosure server session clock p tables) := by
  unfold prepareDisclosure
  refine .bind fun _ _ => .bind fun consumer hconsumer => .bind fun d hd => .bind fun job hjob => ?_
  refine .bind fun attempt hattempt => .bind fun _ hclaimed => .bind fun _ _ => .bind fun _ _ => ?_
  refine .bind fun operation hoperation => .bind fun _ _ => .bind fun _ _ => .bind fun _ _ => ?_
  refine .bind fun requestText hrequest => .bind fun inputs hinputs => .bind fun made hmade => yields_ok ?_
  obtain ⟨hjobId, hattemptId, hworkerId, htoken, htrace⟩ := check_spec p consumer hconsumer
  have hof := disclosureOf_spec _ _ _ _ _ _ _ _ made hmade
  obtain ⟨digest, hdigest, hbound⟩ := boundOperation_spec _ _ operation hoperation
  obtain rfl := Option.some.inj (hdigest.symm.trans hof.authorization)
  rw [notNull_ok_iff] at hjob hattempt hrequest
  rw [require_ok_iff] at hclaimed
  exact {
    jobId := by rw [hof.jobId, hjobId]
    attemptId := by rw [hof.attemptId, hattemptId]
    workerId := by rw [hof.workerId, hworkerId]
    traceId := by rw [hof.traceId, htrace]
    requestText := by rw [hof.requestText, hrequest]
    lockedJob := by rw [hof.jobId, hjob]
    lockedAttempt := by rw [hof.attemptId, hof.jobId, hattempt]
    claimed := ⟨consumer.leaseToken, htoken, by rw [hof.workerId]; exact hclaimed⟩
    bound := by rw [hof.jobId]; exact hbound
    documents := ⟨d, inputs, hd, hinputs, hof.inputsDigest, hof.epochId, hof.familyDigest⟩ }

/-- What a consumption did: it disclosed anew, or found what it had disclosed. -/
structure Consumes (server : Server) (session : Session) (clock : Clock) (p : ConsumeArguments) (tables : Tables)
    (made : Disclosure) (rows : List DisclosedRow) (after : Tables) : Prop where
  prepared : ∃ job attempt, prepareDisclosure server session clock p tables = .ok (job, attempt, made)
  disclosures : after.disclosures = tables.disclosures ∨
    FreshDisclosure tables.disclosures made ∧ after.disclosures = tables.disclosures ++ [made]
  bindings : after.bindings = tables.bindings
  releases : after.releases = tables.releases
  rows : rows = (after.disclosures.filter fun d => made.ReadBack d).map Disclosure.row
  found : ∃ d ∈ after.disclosures, made.ReadBack d

theorem consume_spec (session : Session) (clock : Clock) (p : ConsumeArguments) :
    Yields (fun r => ∃ made, Consumes server session clock p tables made r.1 r.2)
      (workerConsumeP3Holdout server session clock p tables) := by
  unfold workerConsumeP3Holdout
  refine .bind fun prepared hprepared => .bind fun inserted hinserted => .bind fun _ _ => .bind fun _ _ => ?_
  refine .bind fun _ _ => .bind fun _ _ => .bind fun _ hfound => yields_ok ⟨prepared.2.2, ?_⟩
  unfold Tables.insertDisclosure at hinserted
  obtain ⟨-, -, hinserted⟩ := bind_ok_iff.1 hinserted
  obtain rfl := Except.ok.inj hinserted
  rw [require_ok_iff, ne_eq, List.filter_eq_nil_iff] at hfound
  push Not at hfound
  refine ⟨⟨prepared.1, prepared.2.1, hprepared⟩, ?_, ?_, ?_, rfl, ?_⟩
  · cases hconflict : tables.disclosures.any prepared.2.2.conflicts with
    | true => exact .inl rfl
    | false => exact .inr ⟨fun other hother => by simpa using List.any_eq_false.1 hconflict other hother, rfl⟩
  · split_ifs <;> rfl
  · split_ifs <;> rfl
  · obtain ⟨d, hd, hread⟩ := hfound
    exact ⟨d, hd, by simpa using hread⟩

/-! ## Releases -/

def FreshRelease (releases : List Release) (r : Release) : Prop :=
  ∀ other ∈ releases, other.holdoutCommitment ≠ r.holdoutCommitment ∧ other.requestSha256 ≠ r.requestSha256

structure FencedBy (server : Server) (clock : Clock) (tables : Tables) (fenced : Fenced) : Prop where
  lockedJob : tables.job? fenced.disclosure.jobId = some fenced.job
  lockedAttempt : tables.attempt? fenced.disclosure.attemptId fenced.disclosure.jobId = some fenced.attempt
  disclosed : fenced.disclosure ∈ tables.disclosures
  claimed : ClaimedBy fenced.job fenced.attempt fenced.disclosure.workerId fenced.attempt.leaseToken (clock.reading 0)
    (clock.reading 1)
  authorized : p3PayloadAuthorized server fenced.job.payload none (clock.reading 2) (clock.reading 3) tables = .ok true

variable {jobId : String}

theorem Tables.job?_eq_some {job : Job} (h : tables.job? jobId = some job) : job ∈ tables.jobs ∧ job.jobId = jobId := by
  refine ⟨List.mem_of_find?_eq_some h, ?_⟩
  have := List.find?_some h
  simp only [decide_eq_true_eq] at this
  exact this.1

theorem Tables.attempt?_eq_some {attemptId : String} {attempt : Attempt}
    (h : tables.attempt? attemptId jobId = some attempt) :
    attempt ∈ tables.attempts ∧ attempt.attemptId = attemptId ∧ attempt.jobId = jobId := by
  refine ⟨List.mem_of_find?_eq_some h, ?_⟩
  have := List.find?_some h
  simp only [decide_eq_true_eq] at this
  exact this

variable {d : Disclosure}

theorem disclosureAgrees_worker {payload q : Json} {sourceText : Option String} {request : Option Json}
    (h : holds (disclosureAgrees payload d q sourceText request)) : getText (some q) "worker_id" = some d.workerId := by
  have hworker := holds_allOf_iff.1 h _ List.mem_cons_self
  obtain ⟨workerId, hsame, hq⟩ := holds_eq_iff.1 hworker
  rw [hq, ← hsame]

theorem releaseFence_spec (session : Session) (clock : Clock) (request : Option String) :
    Yields (FencedBy server clock tables) (releaseFence server session clock request tables) := by
  unfold releaseFence
  iterate 6 refine .bind fun _ _ => ?_
  refine .bind fun _ _ => .bind fun job hjob => .bind fun attempt hattempt => .bind fun workerId hworker => ?_
  refine .bind fun _ hclaimed => .bind fun _ _ => .bind fun authorized hauthorized => .bind fun _ hyes => ?_
  refine .bind fun d hd => .bind fun _ _ => .bind fun _ hagrees => yields_ok ?_
  rw [notNull_ok_iff, Option.bind_eq_some_iff] at hjob hattempt
  obtain ⟨jobId, -, hjob⟩ := hjob
  obtain ⟨attemptId, -, hattempt⟩ := hattempt
  rw [notNull_ok_iff] at hworker hd
  rw [require_ok_iff] at hclaimed hyes
  have hfound := List.find?_some hd
  simp only [decide_eq_true_eq] at hfound
  obtain rfl := (Tables.job?_eq_some hjob).2
  obtain ⟨-, rfl, -⟩ := Tables.attempt?_eq_some hattempt
  obtain rfl := Option.some.inj (hworker.symm.trans (disclosureAgrees_worker (raiseUnless_ok_iff.1 hagrees)))
  refine ⟨?_, ?_, List.mem_of_find?_eq_some hd, hclaimed, hyes ▸ hauthorized⟩
  · rw [hfound.1]
    exact hjob
  · rw [hfound.1, hfound.2]
    exact hattempt

theorem releaseTail_spec (clock : Clock) (fenced : Fenced) :
    Yields (fun _ => ¬ holds (leaseBy (clock.reading 5) fenced.job) ∧ clock.reading 6 < fenced.attempt.leaseExpiresAt ∧
        p3PayloadAuthorized server fenced.job.payload none (clock.reading 7) (clock.reading 8) tables = .ok true)
      (releaseTail server clock fenced tables) := by
  unfold releaseTail
  refine .bind fun _ hjob => .bind fun _ hattempt => .bind fun authorized hauthorized => ?_
  intro _ hyes
  rw [require_ok_iff] at hattempt hyes
  exact ⟨require_ok_iff.1 hjob, not_le.1 hattempt, hyes ▸ hauthorized⟩

structure Releases (server : Server) (session : Session) (clock : Clock) (request : Option String) (tables : Tables)
    (row : ReleasedRow) (after : Tables) (fenced : Fenced) (r : Release) : Prop where
  fence : releaseFence server session clock request tables = .ok fenced
  commitment : r.holdoutCommitment = fenced.disclosure.holdoutCommitment
  releasedAt : r.releasedAt = clock.reading 4
  row : row = ⟨r.requestSha256, r.releasedAt⟩
  text : r.requestText = fenced.requestText
  fresh : FreshRelease tables.releases r
  appended : after = { tables with releases := tables.releases ++ [r] }
  tail : releaseTail server clock fenced after = .ok ()

theorem claimRelease_spec (session : Session) (clock : Clock) (request : Option String) :
    Yields (fun result => ∃ fenced r, Releases server session clock request tables result.1 result.2 fenced r)
      (custodianClaimP3Release server session clock request tables) := by
  unfold custodianClaimP3Release
  refine .bind fun fenced hfence => .bind fun released hreleased => .bind fun _ htail => yields_ok ?_
  unfold Tables.insertRelease at hreleased
  obtain ⟨-, -, hreleased⟩ := bind_ok_iff.1 hreleased
  obtain ⟨_, hcommitment, hreleased⟩ := bind_ok_iff.1 hreleased
  obtain ⟨_, hrequest, hreleased⟩ := bind_ok_iff.1 hreleased
  rw [require_ok_iff] at hcommitment hrequest
  refine ⟨fenced, ⟨fenced.disclosure.holdoutCommitment, server.sha256 fenced.requestText, fenced.requestText,
    clock.reading 4⟩, hfence, rfl, rfl, rfl, rfl, ?_, (Except.ok.inj hreleased).symm, htail⟩
  exact fun other hother => ⟨hcommitment other hother, hrequest other hother⟩

theorem releaseFence_text (session : Session) (clock : Clock) (request : Option String) :
    Yields (fun fenced => request = some fenced.requestText) (releaseFence server session clock request tables) := by
  unfold releaseFence
  refine .bind fun _ _ => .bind fun text htext => ?_
  rw [notNull_ok_iff] at htext
  suffices Yields (fun fenced : Fenced => fenced.requestText = text) _ from this.mono fun _ h => h ▸ htext
  iterate 15 refine .bind fun _ _ => ?_
  exact yields_ok rfl

theorem readRelease_spec (session : Session) (clock : Clock) (request : Option String) :
    Yields (fun row => ∃ r ∈ tables.releases, row = ⟨r.requestSha256, r.releasedAt⟩ ∧ request = some r.requestText)
      (custodianReadP3Release server session clock request tables) := by
  unfold custodianReadP3Release
  refine .bind fun fenced hfence => .bind fun r hr => .bind fun _ _ => yields_ok ?_
  rw [notNull_ok_iff] at hr
  have hfound := List.find?_some hr
  simp only [decide_eq_true_eq] at hfound
  refine ⟨r, List.mem_of_find?_eq_some hr, by rw [hfound.2.1], ?_⟩
  rw [hfound.2.2]
  exact releaseFence_text session clock request fenced hfence

/-! ## Calls -/

theorem Tables.SameRecords.bindsOnce (h : tables.SameRecords after) : BindsOnce tables after :=
  ⟨.inl h.bindings, h.disclosures, h.releases⟩

/-- What a call does that returns: it may bind a job, or consume the holdout, or claim its release. -/
inductive Effect (server : Server) (tables : Tables) : Call → Tables → Prop
  | binds {call : Call} {after : Tables} (h : BindsOnce tables after) : Effect server tables call after
  | consumes {session : Session} {clock : Clock} {p : ConsumeArguments} {made : Disclosure} {rows : List DisclosedRow}
      {after : Tables} (returns : workerConsumeP3Holdout server session clock p tables = .ok (rows, after))
      (h : Consumes server session clock p tables made rows after) :
    Effect server tables (.consume session clock p) after
  | releases {session : Session} {clock : Clock} {request : Option String} {row : ReleasedRow} {after : Tables}
      {fenced : Fenced} {r : Release} (h : Releases server session clock request tables row after fenced r) :
    Effect server tables (.claimRelease session clock request) after

variable {call : Call}

theorem effect_of_sameRecords {x : Except Raised (β × Tables)}
    (h : Yields (fun r => tables.SameRecords r.2) x) : Yields (Effect server tables call) (x.map (·.2)) :=
  Yields.map (h.mono fun _ hsame => .binds hsame.bindsOnce)

theorem effect_commit (call : Call) : Yields (Effect server tables call) (call.commit server tables) := by
  cases call with
  | enqueue session clock p => exact Yields.map ((bindsOnce_enqueue session clock p).mono fun _ h => .binds h)
  | claim locked session clock p => exact effect_of_sameRecords (sameRecords_claim locked session clock p)
  | consume session clock p =>
    refine Yields.map fun result hresult => ?_
    obtain ⟨made, h⟩ := consume_spec session clock p result hresult
    exact .consumes hresult h
  | start session clock p => exact effect_of_sameRecords (sameRecords_start session clock p)
  | claimRelease session clock request =>
    refine Yields.map fun result hresult => ?_
    obtain ⟨fenced, r, h⟩ := claimRelease_spec session clock request result hresult
    exact .releases h
  | readRelease session clock request =>
    exact Yields.map fun _ _ => .binds (Tables.SameRecords.refl tables).bindsOnce
  | recoverSession session clock p issuer =>
    refine effect_of_sameRecords ?_
    unfold workerRecoverSessionHoldout
    exact .bind fun _ _ => sameRecords_recover _ _ _ _ _
  | recoverExpired session clock p fixtureOnly =>
    refine effect_of_sameRecords ?_
    unfold workerRecoverExpiredAlphaCampaign
    exact .bind fun _ _ => .bind fun _ _ => sameRecords_recover _ _ _ _ _
  | accept campaign operation => exact yields_ok (.binds ⟨.inl rfl, rfl, rfl⟩)
  | elsewhere jobs attempts events => exact yields_ok (.binds ⟨.inl rfl, rfl, rfl⟩)

theorem effect_execute (server : Server) (tables : Tables) (call : Call) :
    Effect server tables call (execute server tables call) := by
  unfold execute
  split
  · rename_i after hcommit
    exact effect_commit call after hcommit
  · exact .binds (Tables.SameRecords.refl tables).bindsOnce

theorem appends_bindings : Appends Tables.bindings (execute server) FreshBinding := by
  intro tables call
  cases effect_execute server tables call with
  | binds h => exact h.bindings
  | consumes _ h => exact .inl h.bindings
  | releases h => exact .inl (by rw [h.appended])

theorem appends_disclosures : Appends Tables.disclosures (execute server) FreshDisclosure := by
  intro tables call
  cases effect_execute server tables call with
  | binds h => exact .inl h.disclosures
  | @consumes _ _ _ made _ _ _ h => exact h.disclosures.imp id fun hnew => ⟨made, hnew⟩
  | releases h => exact .inl (by rw [h.appended])

theorem appends_releases : Appends Tables.releases (execute server) FreshRelease := by
  intro tables call
  cases effect_execute server tables call with
  | binds h => exact .inl h.releases
  | consumes _ h => exact .inl h.releases
  | @releases _ _ _ _ _ _ r h => exact .inr ⟨r, h.fresh, by rw [h.appended]⟩

theorem ne_append_singleton {α : Type} (xs : List α) (x : α) : xs ≠ xs ++ [x] :=
  fun h => by simpa using congrArg List.length h

theorem consumes_of_disclosed (h : (execute server tables call).disclosures = tables.disclosures ++ [d]) :
    ∃ session clock p rows, call = .consume session clock p ∧
      Consumes server session clock p tables d rows (execute server tables call) := by
  cases effect_execute server tables call with
  | binds hbinds => exact absurd (hbinds.disclosures.symm.trans h) (ne_append_singleton _ _)
  | consumes _ hconsumes =>
    rcases hconsumes.disclosures with hsame | ⟨-, hnew⟩
    · exact absurd (hsame.symm.trans h) (ne_append_singleton _ _)
    · obtain rfl := List.singleton_inj.1 (List.append_cancel_left (hnew.symm.trans h))
      exact ⟨_, _, _, _, rfl, hconsumes⟩
  | releases hreleases =>
    rw [hreleases.appended] at h
    exact absurd h (ne_append_singleton _ _)

theorem releases_of_released {r : Release} (h : (execute server tables call).releases = tables.releases ++ [r]) :
    ∃ session clock request row fenced, call = .claimRelease session clock request ∧
      Releases server session clock request tables row (execute server tables call) fenced r := by
  cases effect_execute server tables call with
  | binds hbinds => exact absurd (hbinds.releases.symm.trans h) (ne_append_singleton _ _)
  | consumes _ hconsumes => exact absurd (hconsumes.releases.symm.trans h) (ne_append_singleton _ _)
  | releases hreleases =>
    have hnew := h
    rw [hreleases.appended] at hnew
    obtain rfl := List.singleton_inj.1 (List.append_cancel_left hnew)
    exact ⟨_, _, _, _, _, rfl, hreleases⟩

end TradingAgent.AlphaCampaign
