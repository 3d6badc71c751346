import TradingAgent.AlphaCampaign.AlphaRegistry

/-! What one publication checks and appends. -/

namespace TradingAgent.AlphaCampaign

open Outcome ThreeValued CanonicalJson
open JobPlane (Raised isSha256 notNull notNull_ok_iff Attempt)
open Jsonb (get getText path pathText)

variable {publisher : Publisher} {db after : Database}

@[simp] theorem raiseIf_ok_iff {condition : Truth} {raised : Raised} {u : Unit} :
    raiseIf condition raised = .ok u ↔ ¬ holds condition := require_ok_iff

theorem eq_of_not_ne {α : Type} [DecidableEq α] {a b : α} (h : ¬ holds (ne (some a) (some b))) : a = b := by
  by_contra hne
  exact h (holds_ne_iff.2 ⟨a, b, rfl, rfl, hne⟩)

theorem valueOf_ok_some {text : Option String} {value : Json} (h : valueOf text = .ok (some value)) :
    ∃ t, text = some t ∧ jsonbOf t = .ok value := by
  cases text with
  | none => cases h
  | some t =>
    rw [valueOf] at h
    cases hvalue : jsonbOf t with
    | error e =>
      rw [hvalue] at h
      cases h
    | ok v =>
      rw [hvalue] at h
      cases h
      exact ⟨t, rfl, hvalue⟩

/-! ## Heads -/

def Head.Keyed (h : Head) (alphaId alphaVersion : Option String) : Prop :=
  some h.alphaId = alphaId ∧ some h.alphaVersion = alphaVersion

instance (h : Head) (alphaId alphaVersion : Option String) : Decidable (h.Keyed alphaId alphaVersion) :=
  inferInstanceAs (Decidable (_ ∧ _))

theorem Database.head?_eq (db : Database) (alphaId alphaVersion : Option String) :
    db.head? alphaId alphaVersion = db.heads.find? fun h => h.Keyed alphaId alphaVersion := rfl

section Heads

variable {h : Head} {alphaId alphaVersion : Option String}

theorem keyed_of_head?
    (hfound : db.head? alphaId alphaVersion = some h) : h ∈ db.heads ∧ h.Keyed alphaId alphaVersion := by
  rw [Database.head?_eq] at hfound
  exact ⟨List.mem_of_find?_eq_some hfound, by simpa using List.find?_some hfound⟩

variable {row : Head}

theorem putHead_cases (h : db.putHead row = .ok after) :
    (db.head? (some row.alphaId) (some row.alphaVersion) = none ∧ (∀ other ∈ db.heads, other.streamId ≠ row.streamId) ∧
      after = { db with heads := db.heads ++ [row] }) ∨
    ((∃ old, db.head? (some row.alphaId) (some row.alphaVersion) = some old) ∧
      after = { db with heads := db.heads.map row.updatedBy }) := by
  unfold Database.putHead at h
  obtain ⟨-, -, h⟩ := bind_ok_iff.1 h
  obtain ⟨-, -, h⟩ := bind_ok_iff.1 h
  split at h
  · rename_i hnone
    obtain ⟨_, hstream, h⟩ := bind_ok_iff.1 h
    obtain ⟨-, -, h⟩ := bind_ok_iff.1 h
    exact .inl ⟨hnone, require_ok_iff.1 hstream, (Except.ok.inj h).symm⟩
  · rename_i old hold
    obtain ⟨-, -, h⟩ := bind_ok_iff.1 h
    exact .inr ⟨⟨old, hold⟩, (Except.ok.inj h).symm⟩

theorem Head.updatedBy_of_keyed (hkey : h.Keyed (some row.alphaId) (some row.alphaVersion)) :
    row.updatedBy h = { row with streamId := h.streamId } :=
  if_pos ⟨Option.some.inj hkey.1, Option.some.inj hkey.2⟩

theorem Head.updatedBy_of_not_keyed (hkey : ¬ h.Keyed (some row.alphaId) (some row.alphaVersion)) :
    row.updatedBy h = h :=
  if_neg fun hsame => hkey ⟨congrArg some hsame.1, congrArg some hsame.2⟩

def Head.key (h : Head) : String × String := (h.alphaId, h.alphaVersion)

@[simp] theorem Head.key_updatedBy (row h : Head) : (row.updatedBy h).key = h.key := by
  by_cases hkey : h.Keyed (some row.alphaId) (some row.alphaVersion)
  · rw [Head.updatedBy_of_keyed hkey]
    exact Prod.ext (Option.some.inj hkey.1).symm (Option.some.inj hkey.2).symm
  · rw [Head.updatedBy_of_not_keyed hkey]

theorem Head.keyed_iff : h.Keyed alphaId alphaVersion ↔ some h.key.1 = alphaId ∧ some h.key.2 = alphaVersion := Iff.rfl

def Head.over (row : Head) (previous : Option Head) : Head :=
  { row with streamId := (previous.map (·.streamId)).getD row.streamId }

theorem head?_putHead (h : db.putHead row = .ok after) (alphaId alphaVersion : Option String) :
    after.head? alphaId alphaVersion =
      if row.Keyed alphaId alphaVersion then some (row.over (db.head? alphaId alphaVersion))
      else db.head? alphaId alphaVersion := by
  rcases putHead_cases h with ⟨hnone, -, rfl⟩ | ⟨⟨old, hold⟩, rfl⟩
  · rw [Database.head?_eq, List.find?_append, ← Database.head?_eq]
    split_ifs with hkey
    · obtain ⟨rfl, rfl⟩ := hkey
      rw [hnone]
      simp [Head.Keyed, Head.over]
    · simp [hkey]
  · -- A head keeps its key, so the search finds the head that it found before.
    have hfind : (fun h : Head => decide (h.Keyed alphaId alphaVersion)) ∘ row.updatedBy =
        fun h => decide (h.Keyed alphaId alphaVersion) := by
      funext h
      simp only [Function.comp_apply, Head.keyed_iff, Head.key_updatedBy]
    rw [Database.head?_eq, List.find?_map, hfind, ← Database.head?_eq]
    split_ifs with hkey
    · obtain ⟨rfl, rfl⟩ := hkey
      rw [hold, Option.map_some, Head.updatedBy_of_keyed (keyed_of_head? hold).2]
      rfl
    · cases hfound : db.head? alphaId alphaVersion with
      | none => rfl
      | some found =>
        obtain ⟨-, hid, hversion⟩ := keyed_of_head? hfound
        rw [Option.map_some, Head.updatedBy_of_not_keyed]
        rintro ⟨hrowId, hrowVersion⟩
        exact hkey ⟨hrowId.symm.trans hid, hrowVersion.symm.trans hversion⟩

theorem keys_putHead (h : db.putHead row = .ok after) : after.heads.map Head.key = db.heads.map Head.key ∨
      row.key ∉ db.heads.map Head.key ∧ after.heads.map Head.key = db.heads.map Head.key ++ [row.key] := by
  rcases putHead_cases h with ⟨hnone, -, rfl⟩ | ⟨-, rfl⟩
  · refine .inr ⟨fun hmem => ?_, List.map_append⟩
    obtain ⟨other, hother, hkey⟩ := List.mem_map.1 hmem
    refine absurd ?_ (List.find?_eq_none.1 hnone other hother)
    rw [decide_eq_true_iff]
    exact ⟨congrArg (some ·.1) hkey, congrArg (some ·.2) hkey⟩
  · refine .inl ?_
    rw [List.map_map]
    exact List.map_congr_left fun other _ => Head.key_updatedBy row other

theorem nodup_keys_putHead (h : db.putHead row = .ok after) (hkeys : (db.heads.map Head.key).Nodup) :
    (after.heads.map Head.key).Nodup := by
  rcases keys_putHead h with hsame | ⟨hfresh, happend⟩
  · rwa [hsame]
  · rw [happend]
    exact hkeys.append (List.nodup_singleton _) (List.disjoint_singleton.2 hfresh)

/-! ## Entries -/

end Heads

variable {sequence : Option ℤ}

theorem ledger_appendDomainEvent {eventId streamId eventType eventText topic payloadText : Option String}
    (h : appendDomainEvent publisher eventId streamId sequence eventType eventText topic
      payloadText db = .ok after) : ∃ ledger, after = { db with ledger := ledger } := by
  unfold appendDomainEvent at h
  iterate 13 obtain ⟨_, -, h⟩ := bind_ok_iff.1 h
  split at h
  · obtain ⟨-, -, h⟩ := bind_ok_iff.1 h
    exact ⟨db.ledger, (Except.ok.inj h).symm⟩
  · obtain ⟨-, -, h⟩ := bind_ok_iff.1 h
    exact ⟨_, (Except.ok.inj h).symm⟩

structure Appended (publisher : Publisher) (request entry : Json) (db : Database) (c : Committed) (after : Database) :
    Prop where
  checked : checkEntry entry = .ok ()
  sequence : bigintOf (getText (some entry) "sequence") = .ok (some c.row.registrySequence)
  event : entryEvent entry = .ok (some c.event)
  enveloped : checkEvent entry (some c.event) (some c.row.registrySequence) = .ok ()
  registry : eventRegistry (some c.event) = .ok (some c.registry)
  registered : checkRegistry publisher request (some c.event) (some c.registry) (some c.row.registrySequence) = .ok ()
  transition : checkTransition publisher request (some c.registry) (some c.row.registrySequence) db = .ok ()
  staged : checkStage request (some c.registry) = .ok ()
  row : headOf entry (some c.event) (some c.row.registrySequence) = .ok c.row
  written : ∃ ledger, appendDomainEvent publisher (getText (some entry) "event_id") (getText (some entry) "stream_id")
    (some c.row.registrySequence) (getText (some entry) "event_type") (getText (some entry) "canonical_event_text")
    (getText (some entry) "topic") (getText (some entry) "outbox_payload_text") db =
      .ok { db with ledger := ledger } ∧ { db with ledger := ledger }.putHead c.row = .ok after

theorem sequence_headOf {entry : Json} {event : Option Json}
    (h : headOf entry event sequence = .ok row) : sequence = some row.registrySequence := by
  unfold headOf at h
  obtain ⟨_, -, h⟩ := bind_ok_iff.1 h
  obtain ⟨_, -, h⟩ := bind_ok_iff.1 h
  obtain ⟨_, -, h⟩ := bind_ok_iff.1 h
  obtain ⟨_, hsequence, h⟩ := bind_ok_iff.1 h
  iterate 3 obtain ⟨_, -, h⟩ := bind_ok_iff.1 h
  obtain rfl := Except.ok.inj h
  exact notNull_ok_iff.1 hsequence

theorem appended_of {request entry : Json} {c : Committed}
    (h : appendEntry publisher request entry db = .ok (c, after)) : Appended publisher request entry db c after := by
  unfold appendEntry at h
  obtain ⟨_, hchecked, h⟩ := bind_ok_iff.1 h
  obtain ⟨sequence, hsequence, h⟩ := bind_ok_iff.1 h
  obtain ⟨event, hevent, h⟩ := bind_ok_iff.1 h
  obtain ⟨_, henveloped, h⟩ := bind_ok_iff.1 h
  obtain ⟨registry, hregistry, h⟩ := bind_ok_iff.1 h
  obtain ⟨_, hregistered, h⟩ := bind_ok_iff.1 h
  obtain ⟨_, htransition, h⟩ := bind_ok_iff.1 h
  obtain ⟨_, hstaged, h⟩ := bind_ok_iff.1 h
  obtain ⟨appended, happended, h⟩ := bind_ok_iff.1 h
  obtain ⟨row, hrow, h⟩ := bind_ok_iff.1 h
  obtain ⟨written, hwritten, h⟩ := bind_ok_iff.1 h
  obtain ⟨event', hevent', h⟩ := bind_ok_iff.1 h
  obtain ⟨registry', hregistry', h⟩ := bind_ok_iff.1 h
  cases h
  obtain rfl := notNull_ok_iff.1 hevent'
  obtain rfl := notNull_ok_iff.1 hregistry'
  obtain rfl := sequence_headOf hrow
  obtain ⟨ledger, rfl⟩ := ledger_appendDomainEvent happended
  exact ⟨hchecked, hsequence, hevent, henveloped, hregistry, hregistered, htransition, hstaged, hrow,
    ledger, happended, hwritten⟩

namespace Appended

variable {request entry : Json} {c : Committed}

variable (h : Appended publisher request entry db c after)
include h

theorem row_fields : pathText (some c.event) ["payload", "alpha_id"] = some c.row.alphaId ∧
      pathText (some c.event) ["payload", "alpha_version"] = some c.row.alphaVersion ∧
      getText (some entry) "stream_id" = some c.row.streamId ∧
      pathText (some c.event) ["payload", "registry_event_sha256"] = some c.row.registryEventSha256 ∧
      pathText (some c.event) ["payload", "registry_event_text"] = some c.row.registryEventText ∧
      getText (some entry) "event_id" = some c.row.ledgerEventId := by
  have hrow := h.row
  unfold headOf at hrow
  obtain ⟨alphaId, hid, hrow⟩ := bind_ok_iff.1 hrow
  obtain ⟨alphaVersion, hversion, hrow⟩ := bind_ok_iff.1 hrow
  obtain ⟨streamId, hstream, hrow⟩ := bind_ok_iff.1 hrow
  obtain ⟨sequence, -, hrow⟩ := bind_ok_iff.1 hrow
  obtain ⟨sha, hsha, hrow⟩ := bind_ok_iff.1 hrow
  obtain ⟨text, htext, hrow⟩ := bind_ok_iff.1 hrow
  obtain ⟨eventId, heventId, hrow⟩ := bind_ok_iff.1 hrow
  rw [← Except.ok.inj hrow]
  exact ⟨notNull_ok_iff.1 hid, notNull_ok_iff.1 hversion, notNull_ok_iff.1 hstream, notNull_ok_iff.1 hsha,
    notNull_ok_iff.1 htext, notNull_ok_iff.1 heventId⟩

theorem parsed : jsonbOf c.row.registryEventText = .ok c.registry := by
  obtain ⟨text, htext, hvalue⟩ := valueOf_ok_some h.registry
  rw [h.row_fields.2.2.2.2.1] at htext
  rwa [Option.some.inj htext]

theorem head? (alphaId alphaVersion : Option String) : after.head? alphaId alphaVersion =
      if c.row.Keyed alphaId alphaVersion then some (c.row.over (db.head? alphaId alphaVersion))
      else db.head? alphaId alphaVersion := by
  obtain ⟨ledger, -, hput⟩ := h.written
  exact head?_putHead hput alphaId alphaVersion

theorem nodup_keys (hkeys : (db.heads.map Head.key).Nodup) : (after.heads.map Head.key).Nodup := by
  obtain ⟨ledger, -, hput⟩ := h.written
  exact nodup_keys_putHead hput hkeys

theorem keys {key : String × String}
    (hkey : key ∈ after.heads.map Head.key) : key = c.row.key ∨ key ∈ db.heads.map Head.key := by
  obtain ⟨ledger, -, hput⟩ := h.written
  rcases keys_putHead hput with hsame | ⟨-, happend⟩
  · exact .inr (hsame ▸ hkey)
  · rw [happend, List.mem_append, List.mem_singleton] at hkey
    exact hkey.symm

theorem frame : after.plane = db.plane ∧ after.commits = db.commits := by
  obtain ⟨ledger, -, hput⟩ := h.written
  rcases putHead_cases hput with ⟨-, -, rfl⟩ | ⟨-, rfl⟩
  · exact ⟨rfl, rfl⟩
  · exact ⟨rfl, rfl⟩

theorem alphaId_eq {alphaId : String}
    (hid : pathText (some c.registry) ["record", "alpha_id"] = some alphaId) : alphaId = c.row.alphaId := by
  have hregistered := h.registered
  unfold checkRegistry at hregistered
  obtain ⟨_, -, hregistered⟩ := bind_ok_iff.1 hregistered
  obtain ⟨_, -, hregistered⟩ := bind_ok_iff.1 hregistered
  rw [raiseIf_ok_iff, not_holds_anyOf_iff] at hregistered
  have hsame := hregistered (ne (pathText (some c.registry) ["record", "alpha_id"])
    (pathText (some c.event) ["payload", "alpha_id"])) (by simp)
  rw [hid, h.row_fields.1] at hsame
  exact eq_of_not_ne hsame

theorem transition_cases :
    (db.head? (pathText (some c.registry) ["record", "alpha_id"]) (pathText (some c.registry) ["record", "version"]) =
        none ∧
      ¬ holds (ne (statusText (some c.registry)) (some "IDEA")) ∧
      ¬ holds (ne (getText (some request) "stage") (some "REGISTER"))) ∨
    ∃ head previous,
      db.head? (pathText (some c.registry) ["record", "alpha_id"]) (pathText (some c.registry) ["record", "version"]) =
        some head ∧
      jsonbOf head.registryEventText = .ok previous ∧
      (∀ field ∈ identityFields, path (some c.registry) ["record", field] = path (some previous) ["record", field]) ∧
      ¬ holds (not (transitionAllowed (statusText (some previous)) (statusText (some c.registry)))) := by
  have htransition := h.transition
  unfold checkTransition at htransition
  split at htransition
  · rename_i hnone
    rw [raiseIf_ok_iff, not_holds_anyOf_iff] at htransition
    exact .inl ⟨hnone, htransition _ (by simp), htransition _ (by simp)⟩
  · rename_i head hhead
    obtain ⟨previous, hprevious, htransition⟩ := bind_ok_iff.1 htransition
    obtain ⟨_, -, htransition⟩ := bind_ok_iff.1 htransition
    obtain ⟨_, -, htransition⟩ := bind_ok_iff.1 htransition
    obtain ⟨_, hidentity, htransition⟩ := bind_ok_iff.1 htransition
    rw [raiseIf_ok_iff, not_holds_anyOf_iff] at hidentity
    rw [raiseIf_ok_iff] at htransition
    refine .inr ⟨head, previous, hhead, hprevious, fun field hfield => ?_, htransition⟩
    have hsame := hidentity _ (List.mem_append_right _ (List.mem_map_of_mem hfield))
    by_contra hne
    exact hsame (holds_distinct_iff.2 hne)

end Appended

inductive AppendsAll (publisher : Publisher) (request : Json) :
    List Json → Database → List Committed → Database → Prop
  | nil (db : Database) : AppendsAll publisher request [] db [] db
  | cons {entry : Json} {rest : List Json} {db mid after : Database} {c : Committed} {cs : List Committed}
      (head : Appended publisher request entry db c mid) (tail : AppendsAll publisher request rest mid cs after) :
      AppendsAll publisher request (entry :: rest) db (c :: cs) after

theorem appendsAll_of {request : Json} {entries : List Json} {cs : List Committed}
    (h : appendEntries publisher request entries db = .ok (cs, after)) :
    AppendsAll publisher request entries db cs after := by
  induction entries generalizing db cs with
  | nil =>
    cases h
    exact .nil _
  | cons entry rest ih =>
    obtain ⟨⟨c, mid⟩, hhead, h⟩ := bind_ok_iff.1 h
    obtain ⟨⟨others, final⟩, htail, h⟩ := bind_ok_iff.1 h
    cases h
    exact .cons (appended_of hhead) (ih htail)

namespace AppendsAll

variable {request : Json} {entries : List Json} {cs : List Committed}

theorem frame (h : AppendsAll publisher request entries db cs after) :
    after.plane = db.plane ∧ after.commits = db.commits := by
  induction h with
  | nil => exact ⟨rfl, rfl⟩
  | cons head _ ih => exact ⟨ih.1.trans head.frame.1, ih.2.trans head.frame.2⟩

theorem documents (h : AppendsAll publisher request entries db cs after) :
    entries.mapM readEntry = .ok (cs.map fun c => (some c.event, some c.registry)) := by
  induction h with
  | nil => rfl
  | cons head _ ih =>
    rw [List.mapM_cons, readEntry, head.event, ok_bind, head.registry, ok_bind, ih]
    rfl

end AppendsAll

/-! ## The authority of a publication -/

/-- What `p3_publication_authorized` has found true. -/
structure Sanctioned (publisher : Publisher) (payload request : Json) (entries : List Json) (tables : Tables)
    (stage : String) (intent : Json) (documents : List (Option Json × Option Json)) : Prop where
  accepted : ∃ operation, (authorizationSha payload).bind tables.operation? = some operation ∧
    jsonbOf operation.intentText = .ok intent
  staged : expectedStage (getText (some intent) "workflow_operation") = some stage
  read : entries.mapM readEntry = .ok documents
  states : ∃ states ∈ stageStates stage, statesOf documents = states.map .str
  agrees : holds (publicationAgrees publisher payload request intent stage documents)

theorem sanctioned_of {payload request : Json} {boundJob : String} {entries : List Json}
    {issuedBy expiresAfter : DateTime} {tables : Tables}
    (h : p3PublicationAuthorized publisher payload boundJob request entries issuedBy expiresAfter tables = .ok true) :
    ∃ stage intent documents, Sanctioned publisher payload request entries tables stage intent documents := by
  unfold p3PublicationAuthorized at h
  obtain ⟨authorized, -, h⟩ := bind_ok_iff.1 h
  split at h
  · split at h
    · cases h
    · rename_i operation hoperation
      obtain ⟨intent, hintent, h⟩ := bind_ok_iff.1 h
      split at h
      · cases h
      · rename_i stage hstage
        obtain ⟨documents, hdocuments, h⟩ := bind_ok_iff.1 h
        obtain ⟨hstates, hagrees⟩ := decide_eq_true_iff.1 (Except.ok.inj h)
        rw [List.any_eq_true] at hstates
        obtain ⟨states, hmem, hsame⟩ := hstates
        exact ⟨stage, intent, documents, ⟨operation, hoperation, hintent⟩, hstage, hdocuments,
          ⟨states, hmem, by simpa using hsame⟩, hagrees⟩
  · cases h

/-! ## Jobs -/

namespace Tables

variable {tables settled : Tables}

theorem job?_updateJob (jobId other : String) (f : Job → Job) (hid : ∀ job, (f job).jobId = job.jobId)
    (htype : ∀ job, (f job).jobType = job.jobType) :
    (tables.updateJob jobId f).job? other =
      (tables.job? other).map fun job => if other = jobId then f job else job := by
  unfold updateJob job?
  rw [List.find?_map]
  have hkeep : (fun job : Job => decide (job.jobId = other ∧ job.jobType = .alphaCampaign)) ∘
      (fun job => if job.jobId = jobId ∧ job.jobType = .alphaCampaign then f job else job) =
      fun job => decide (job.jobId = other ∧ job.jobType = .alphaCampaign) := by
    funext job
    simp only [Function.comp_apply]
    split_ifs
    · rw [hid, htype]
    · rfl
  rw [hkeep]
  cases hfound : tables.jobs.find? fun job => decide (job.jobId = other ∧ job.jobType = .alphaCampaign) with
  | none => rfl
  | some job =>
    have hjob := List.find?_some hfound
    rw [decide_eq_true_iff] at hjob
    simp [hjob.1, hjob.2]

theorem jobs_insertEvent {event : JobPlane.Event} (h : tables.insertEvent event = .ok settled) :
    settled.jobs = tables.jobs := by
  unfold Tables.insertEvent at h
  iterate 4 obtain ⟨-, -, h⟩ := bind_ok_iff.1 h
  rw [← Except.ok.inj h]

end Tables

variable {clock : Clock} {jobId : String} {p : CommitArguments}

theorem committed_settleJob {attemptId digest : String} {result : Json}
    {tables settled : Tables} (h : settleJob clock p jobId attemptId digest result tables = .ok settled)
    (hjob : (tables.job? jobId).isSome) (other : String) :
    settled.Committed other ↔ other = jobId ∨ tables.Committed other := by
  unfold settleJob at h
  obtain ⟨_, -, h⟩ := bind_ok_iff.1 h
  obtain ⟨_, -, h⟩ := bind_ok_iff.1 h
  have hfind : settled.job? other = (tables.job? other).map fun job =>
      if other = jobId then succeededJob digest result job else job := by
    rw [← Tables.job?_updateJob jobId other (succeededJob digest result) (fun _ => rfl) fun _ => rfl]
    rw [Tables.job?, Tables.jobs_insertEvent h]
    rfl
  rw [Tables.Committed, Tables.Committed, hfind]
  by_cases hsame : other = jobId
  · obtain ⟨job, hfound⟩ := Option.isSome_iff_exists.1 hjob
    subst hsame
    rw [hfound]
    simp [succeededJob]
  · simp [hsame]

/-! ## Publications -/

/-- What a publication has checked and changed, with the tables after its entries and the row of its commit. -/
structure Publishes (publisher : Publisher) (clock : Clock) (p : CommitArguments) (jobId : String) (job : Job)
    (attempt : Attempt) (transport request : Json) (db mid : Database) (row : CommitRow) (x : Published) : Prop where
  jobId_eq : x.jobId = jobId
  request_eq : x.request = request
  sanctioned : ∃ stage intent documents, Sanctioned publisher job.payload request
    (elements (get (some transport) "entries")) db.plane stage intent documents
  appends : AppendsAll publisher request (elements (get (some transport) "entries")) db x.entries mid
  kept : x.database.heads = mid.heads ∧ x.database.ledger = mid.ledger
  commits : x.database.commits = db.commits ++ [row]
  rowJob : row.jobId = jobId
  rowKey : getText (some request) "idempotency_key" = some row.idempotencyKey
  rowSemantic : getText (some request) "semantic_request_digest" = some row.semanticRequestDigest
  rowRequest : canonicalDomainJson request = .ok row.publicationRequestText
  rowOutput : ∃ output, get (some transport) "output_inventory_ref" = some output ∧
    canonicalDomainJson output = .ok row.outputInventoryRefText ∧
    x.result = wrapper row.resultJson (some output) (some row.outputAttemptId)
  rowAttempt : row.outputAttemptId = attempt.attemptId
  settled : settleJob clock p jobId attempt.attemptId row.resultDigest row.resultJson db.plane = .ok x.database.plane

theorem insertCommit_ok {row : CommitRow} (h : insertCommit publisher row db = .ok after) :
    after = { db with commits := db.commits ++ [row] } := by
  unfold insertCommit at h
  iterate 6 obtain ⟨_, -, h⟩ := bind_ok_iff.1 h
  exact (Except.ok.inj h).symm

variable {job : Job} {attempt : Attempt}

theorem sanctioned_of_fence {first : ℕ} {request : Json} {entries : List Json} {tables : Tables}
    (h : publicationFence publisher clock first jobId job attempt request entries tables = .ok ()) :
    ∃ stage intent documents, Sanctioned publisher job.payload request entries tables stage intent documents := by
  unfold publicationFence at h
  obtain ⟨_, -, h⟩ := bind_ok_iff.1 h
  obtain ⟨_, -, h⟩ := bind_ok_iff.1 h
  obtain ⟨authorized, hauthorized, h⟩ := bind_ok_iff.1 h
  obtain rfl := require_ok_iff.1 h
  exact sanctioned_of hauthorized

theorem publishes_of {transport request : Json} {x : Published}
    (h : publish publisher clock p jobId job attempt transport request db = .ok x) :
    ∃ mid row, Publishes publisher clock p jobId job attempt transport request db mid row x := by
  unfold publish at h
  obtain ⟨_, -, h⟩ := bind_ok_iff.1 h
  obtain ⟨_, -, h⟩ := bind_ok_iff.1 h
  obtain ⟨_, -, h⟩ := bind_ok_iff.1 h
  obtain ⟨_, hfence, h⟩ := bind_ok_iff.1 h
  obtain ⟨⟨committed, appended⟩, happended, h⟩ := bind_ok_iff.1 h
  obtain ⟨_, -, h⟩ := bind_ok_iff.1 h
  obtain ⟨bodyText, -, h⟩ := bind_ok_iff.1 h
  obtain ⟨resultText, -, h⟩ := bind_ok_iff.1 h
  obtain ⟨idempotencyKey, hkey, h⟩ := bind_ok_iff.1 h
  obtain ⟨semanticDigest, hsemantic, h⟩ := bind_ok_iff.1 h
  obtain ⟨requestText, hrequest, h⟩ := bind_ok_iff.1 h
  obtain ⟨output, houtput, h⟩ := bind_ok_iff.1 h
  obtain ⟨outputText, houtputText, h⟩ := bind_ok_iff.1 h
  obtain ⟨recorded, hrecorded, h⟩ := bind_ok_iff.1 h
  obtain ⟨plane, hplane, h⟩ := bind_ok_iff.1 h
  obtain ⟨_, -, h⟩ := bind_ok_iff.1 h
  obtain ⟨_, -, h⟩ := bind_ok_iff.1 h
  obtain rfl := insertCommit_ok hrecorded
  obtain rfl := Except.ok.inj h
  have happends := appendsAll_of happended
  refine ⟨appended, ⟨jobId, idempotencyKey, semanticDigest, _, resultText, publisher.sha256 bodyText, requestText,
    outputText, attempt.attemptId⟩, rfl, rfl, sanctioned_of_fence hfence, happends, ⟨rfl, rfl⟩, ?_, rfl,
    notNull_ok_iff.1 hkey, notNull_ok_iff.1 hsemantic, hrequest, ⟨output, notNull_ok_iff.1 houtput, houtputText, rfl⟩,
    rfl, ?_⟩
  · exact congrArg (· ++ _) happends.frame.2
  · rw [← happends.frame.1]
    exact hplane

end TradingAgent.AlphaCampaign
