import TradingAgent.AlphaCampaign.PublicationSteps

/-! Lawful lifecycle histories, and the entries that a publication appends to them. -/

namespace TradingAgent.AlphaCampaign

open Outcome ThreeValued CanonicalJson
open JobPlane (isSha256)
open Jsonb (get getText path pathText)
open AlphaLifecycleStatus (LegalPath)

variable {publisher : Publisher} {db mid after : Database} {request entry : Json} {c : Committed}

/-! ## Histories -/

/-- The entries of one alpha. -/
def entriesOf (alphaId : String) (log : List Committed) : List Committed :=
  log.filter fun c => c.row.alphaId = alphaId

def Committed.status (c : Committed) : Option String := statusText (some c.registry)

def Committed.field (name : String) (c : Committed) : Option Json := path (some c.registry) ["record", name]

/-- The statuses follow the lifecycle, and no field of the identity changes. -/
def LegalHistory (es : List Committed) : Prop :=
  (∃ statuses, es.map Committed.status = statuses.map (fun s => some s.value) ∧ LegalPath statuses) ∧
    ∀ c ∈ es, ∀ c' ∈ es, ∀ name ∈ identityFields, c.field name = c'.field name

/-- The head after the entries. -/
def lastHead (es : List Committed) : Option Head :=
  es.getLast?.map fun last => { last.row with streamId := (es.head?.getD last).row.streamId }

@[simp] theorem entriesOf_append (alphaId : String) (log rest : List Committed) :
    entriesOf alphaId (log ++ rest) = entriesOf alphaId log ++ entriesOf alphaId rest := List.filter_append ..

theorem entriesOf_self (c : Committed) : entriesOf c.row.alphaId [c] = [c] := by simp [entriesOf]

variable {alphaId : String}

theorem entriesOf_other (h : c.row.alphaId ≠ alphaId) : entriesOf alphaId [c] = [] := by
  simp [entriesOf, h]

theorem lastHead_concat (es : List Committed) (c : Committed) :
    lastHead (es ++ [c]) = some (c.row.over (lastHead es)) := by
  rcases es with _ | ⟨e, es⟩
  · rfl
  · obtain ⟨last, hlast⟩ := Option.isSome_iff_exists.1 (List.getLast?_isSome.2 (List.cons_ne_nil e es))
    rw [lastHead, lastHead, List.getLast?_concat, hlast]
    rfl

/-! ## Heads -/

structure Mirrors (log : List Committed) (db : Database) : Prop where
  versions : ∀ c ∈ log, c.row.alphaVersion = "1.0.0"
  parsed : ∀ c ∈ log, jsonbOf c.row.registryEventText = .ok c.registry
  heads : ∀ alphaId, db.head? (some alphaId) (some "1.0.0") = lastHead (entriesOf alphaId log)
  keys : (db.heads.map Head.key).Nodup
  known : ∀ key ∈ db.heads.map Head.key, key.2 = "1.0.0"

namespace Mirrors

variable {log : List Committed}

theorem head_cases (h : Mirrors log db) {alphaId alphaVersion : Option String} {head : Head} {previous : Json}
    (hhead : db.head? alphaId alphaVersion = some head) (hprevious : jsonbOf head.registryEventText = .ok previous) :
    alphaId = some head.alphaId ∧ alphaVersion = some "1.0.0" ∧ ∃ last,
      (entriesOf head.alphaId log).getLast? = some last ∧ previous = last.registry := by
  obtain ⟨hmem, hid, hversion⟩ := keyed_of_head? hhead
  have hknown : head.alphaVersion = "1.0.0" := h.known _ (List.mem_map_of_mem hmem)
  rw [← hid, ← hversion, hknown, h.heads, lastHead, Option.map_eq_some_iff] at hhead
  obtain ⟨last, hlast, hrow⟩ := hhead
  have htext : head.registryEventText = last.row.registryEventText := by rw [← hrow]
  have hlog : last ∈ log := List.mem_of_mem_filter (List.mem_of_getLast? hlast)
  rw [htext, h.parsed last hlog] at hprevious
  exact ⟨hid.symm, by rw [← hversion, hknown], last, hlast, (Except.ok.inj hprevious).symm⟩

theorem append (h : Mirrors log db) (happended : Appended publisher request entry db c after)
    (hversion : c.row.alphaVersion = "1.0.0") : Mirrors (log ++ [c]) after := by
  refine ⟨?_, ?_, fun alphaId => ?_, happended.nodup_keys h.keys, fun key hkey => ?_⟩
  · intro e he
    rcases List.mem_append.1 he with he | he
    · exact h.versions e he
    · rwa [List.mem_singleton.1 he]
  · intro e he
    rcases List.mem_append.1 he with he | he
    · exact h.parsed e he
    · rw [List.mem_singleton.1 he]
      exact happended.parsed
  · rw [happended.head?, h.heads, entriesOf_append]
    by_cases hid : c.row.alphaId = alphaId
    · subst hid
      rw [if_pos ⟨rfl, congrArg some hversion⟩, entriesOf_self, lastHead_concat]
    · rw [if_neg fun hkey => hid (Option.some.inj hkey.1), entriesOf_other hid, List.append_nil]
  · rcases happended.keys hkey with rfl | hkey
    · exact hversion
    · exact h.known key hkey

theorem entries_eq_nil (h : Mirrors log db)
    (hnone : db.head? (some alphaId) (some "1.0.0") = none) : entriesOf alphaId log = [] := by
  rw [h.heads, lastHead, Option.map_eq_none_iff] at hnone
  exact List.getLast?_eq_none_iff.1 hnone

end Mirrors

/-! ## Legal histories -/

variable {es : List Committed} {last : Committed}

theorem LegalHistory.last_ne_idea (h : LegalHistory es)
    (hlast : es.getLast? = some last) : last.status ≠ some "IDEA" := by
  obtain ⟨statuses, hmap, hpath⟩ := h.1
  intro hidea
  refine hpath.last_ne_idea ?_
  have hmapped := congrArg List.getLast? hmap
  rw [List.getLast?_map, List.getLast?_map, hlast, Option.map_some, hidea] at hmapped
  obtain ⟨s, hs, hvalue⟩ := Option.map_eq_some_iff.1 hmapped.symm
  rw [hs, Option.some.injEq]
  exact AlphaLifecycleStatus.value_injective (Option.some.inj hvalue)

theorem LegalHistory.concat (h : LegalHistory es)
    (hlast : es.getLast? = some last) {before next : AlphaLifecycleStatus} (hbefore : last.status = some before.value)
    (hnext : c.status = some next.value) (hallowed : next ∈ before.transitions)
    (hidentity : ∀ name ∈ identityFields, c.field name = last.field name) : LegalHistory (es ++ [c]) := by
  obtain ⟨⟨statuses, hmap, hpath⟩, hsame⟩ := h
  have hmapped := congrArg List.getLast? hmap
  rw [List.getLast?_map, List.getLast?_map, hlast, Option.map_some, hbefore] at hmapped
  obtain ⟨s, hs, hvalue⟩ := Option.map_eq_some_iff.1 hmapped.symm
  obtain rfl := AlphaLifecycleStatus.value_injective (Option.some.inj hvalue)
  refine ⟨⟨statuses ++ [next], ?_, hpath.concat hs hallowed⟩, ?_⟩
  · rw [List.map_append, List.map_append, hmap, List.map_singleton, hnext]
    rfl
  · have hmem : last ∈ es := List.mem_of_getLast? hlast
    have hfirst (e : Committed) (he : e ∈ es ++ [c]) (name : String) (hname : name ∈ identityFields) :
        e.field name = last.field name := by
      rcases List.mem_append.1 he with he | he
      · exact hsame e he last hmem name hname
      · obtain rfl := List.mem_singleton.1 he
        exact hidentity name hname
    intro e he e' he' name hname
    rw [hfirst e he name hname, hfirst e' he' name hname]

/-! ## Entries -/

def Lawful (log : List Committed) : Prop := ∀ alphaId, LegalHistory (entriesOf alphaId log)

theorem Lawful.append {log : List Committed} (h : Lawful log) (alphaId : String)
    (hes : ∀ e ∈ es, e.row.alphaId = alphaId) (hlegal : LegalHistory (entriesOf alphaId log ++ es)) :
    Lawful (log ++ es) := by
  intro other
  rw [entriesOf_append]
  by_cases hid : alphaId = other
  · have hall : entriesOf other es = es := List.filter_eq_self.2 fun e he => by simp [hes e he, hid]
    rwa [hall, ← hid]
  · have hnone : entriesOf other es = [] := List.filter_eq_nil_iff.2 fun e he => by simp [hes e he, hid]
    rw [hnone, List.append_nil]
    exact h other

theorem pathText_field (name : String) (c : Committed) :
    pathText (some c.registry) ["record", name] = (c.field name).bind Jsonb.text := rfl

theorem Appended.follows (h : Appended publisher request entry db c after) {log : List Committed}
    (hmirrors : Mirrors log db) {status : String} (hstatus : c.status = some status) (hidea : status ≠ "IDEA") :
    ∃ last, (entriesOf c.row.alphaId log).getLast? = some last ∧
      (c.field "alpha_id").bind Jsonb.text = some c.row.alphaId ∧
      (c.field "version").bind Jsonb.text = some "1.0.0" ∧
      (∀ name ∈ identityFields, c.field name = last.field name) ∧
      ∃ before next : AlphaLifecycleStatus, last.status = some before.value ∧ status = next.value ∧
        next ∈ before.transitions := by
  rcases h.transition_cases with ⟨-, hinitial, -⟩ | ⟨head, previous, hhead, hprevious, hidentity, hallowed⟩
  · exact absurd (eq_of_not_ne (hstatus ▸ hinitial)) hidea
  · obtain ⟨hid, hversion, last, hlast, rfl⟩ := hmirrors.head_cases hhead hprevious
    rw [h.alphaId_eq hid] at hlast
    refine ⟨last, hlast, by rw [← h.alphaId_eq hid, ← hid, pathText_field], ?_, hidentity, ?_⟩
    · rw [← hversion, pathText_field]
    · rw [← Committed.status, ← Committed.status, hstatus] at hallowed
      exact transition_of_allowed hallowed

theorem Lawful.next {log : List Committed} (h : Lawful log) (hmirrors : Mirrors log db)
    (happended : Appended publisher request entry db c after) {status : String} (hstatus : c.status = some status)
    (hidea : status ≠ "IDEA") : Lawful (log ++ [c]) := by
  obtain ⟨last, hlast, -, -, hidentity, before, next, hbefore, rfl, hallowed⟩ :=
    happended.follows hmirrors hstatus hidea
  exact h.append c.row.alphaId (by simp) ((h c.row.alphaId).concat hlast hbefore hstatus hallowed hidentity)

theorem Lawful.pair {log : List Committed} (h : Lawful log) (hmirrors : Mirrors log db) {entry' : Json}
    {first second : Committed} (hfirst : Appended publisher request entry db first mid)
    (hsecond : Appended publisher request entry' mid second after) (hversion : first.row.alphaVersion = "1.0.0")
    (hidea : first.status = some "IDEA") (hcandidate : second.status = some "CANDIDATE") :
    entriesOf first.row.alphaId log = [] ∧ second.row.alphaId = first.row.alphaId ∧
      Lawful (log ++ [first, second]) := by
  obtain ⟨last, hlast, hid, hnamed, hidentity, before, next, hbefore, hnext, hallowed⟩ :=
    hsecond.follows (hmirrors.append hfirst hversion) hcandidate (by decide)
  obtain rfl : next = .candidate := AlphaLifecycleStatus.value_injective hnext.symm
  obtain rfl : before = .idea := by
    cases before <;> first | rfl | exact absurd hallowed (by decide)
  -- Only the entry just appended can be a head at `IDEA`.
  have hsame : first.row.alphaId = second.row.alphaId := by
    by_contra hne
    rw [entriesOf_append, entriesOf_other hne, List.append_nil] at hlast
    exact (h second.row.alphaId).last_ne_idea hlast hbefore
  rw [entriesOf_append, ← hsame, entriesOf_self, List.getLast?_concat, Option.some.injEq] at hlast
  subst hlast
  -- So its record names its alpha, and it cannot have followed a head.
  have hfirstId : pathText (some first.registry) ["record", "alpha_id"] = some first.row.alphaId := by
    rw [pathText_field, ← hidentity _ (by decide), hid, hsame]
  have hfirstVersion : pathText (some first.registry) ["record", "version"] = some "1.0.0" := by
    rw [pathText_field, ← hidentity _ (by decide), hnamed]
  have hnone : entriesOf first.row.alphaId log = [] := by
    rcases hfirst.transition_cases with ⟨hnone, -, -⟩ | ⟨head, previous, -, -, -, hallowed'⟩
    · rw [hfirstId, hfirstVersion] at hnone
      exact hmirrors.entries_eq_nil hnone
    · rw [← Committed.status, hidea] at hallowed'
      obtain ⟨before, next, -, hnext', htransition⟩ := transition_of_allowed hallowed'
      obtain rfl : next = .idea := AlphaLifecycleStatus.value_injective hnext'.symm
      exact absurd htransition (AlphaLifecycleStatus.idea_notMem_transitions before)
  refine ⟨hnone, hsame.symm, h.append first.row.alphaId (by simp [hsame]) ?_⟩
  rw [hnone, List.nil_append]
  refine ⟨⟨[.idea, .candidate], by simp [hidea, hcandidate, AlphaLifecycleStatus.value],
    AlphaLifecycleStatus.legalPath_opening⟩, ?_⟩
  have hall (e : Committed) (he : e ∈ [first, second]) (name : String) (hname : name ∈ identityFields) :
      e.field name = first.field name := by
    rcases List.mem_pair.1 he with rfl | rfl
    · rfl
    · exact hidentity name hname
  intro e he e' he' name hname
  rw [hall e he name hname, hall e' he' name hname]

/-! ## Batches -/

def openedIds (cs : List Committed) : List String :=
  (cs.filter fun c => c.status = some "IDEA").map (·.row.alphaId)

variable {cs : List Committed} {entries : List Json}

variable (h : AppendsAll publisher request entries db cs after)
include h

variable {log : List Committed} (hmirrors : Mirrors log db)
include hmirrors

variable (hversions : ∀ c ∈ cs, c.row.alphaVersion = "1.0.0")
include hversions

theorem AppendsAll.mirrors : Mirrors (log ++ cs) after := by
  induction h generalizing log with
  | nil => rwa [List.append_nil]
  | cons head _ ih =>
    rw [List.append_cons]
    exact ih (hmirrors.append head (hversions _ (by simp))) fun c hc => hversions c (List.mem_cons_of_mem _ hc)

theorem AppendsAll.lawful_next (hlawful : Lawful log)
    (hstatus : ∀ c ∈ cs, ∃ status, c.status = some status ∧ status ≠ "IDEA") : Lawful (log ++ cs) := by
  induction h generalizing log with
  | nil => rwa [List.append_nil]
  | cons head _ ih =>
    obtain ⟨status, hs, hidea⟩ := hstatus _ List.mem_cons_self
    rw [List.append_cons]
    exact ih (hmirrors.append head (hversions _ (by simp))) (fun c hc => hversions c (List.mem_cons_of_mem _ hc))
      (hlawful.next hmirrors head hs hidea) fun c hc => hstatus c (List.mem_cons_of_mem _ hc)

/-- The statuses of a registration of `n` alphas. -/
def pairStatuses : ℕ → List String
  | 0 => []
  | n + 1 => "IDEA" :: "CANDIDATE" :: pairStatuses n

theorem AppendsAll.lawful_pairs {n : ℕ} (hlawful : Lawful log)
    (hstatus : cs.map Committed.status = (pairStatuses n).map some) :
    Lawful (log ++ cs) ∧ (openedIds cs).Nodup ∧ (openedIds cs).length = n ∧
      (∀ alphaId ∈ openedIds cs, entriesOf alphaId log = []) ∧ ∀ c ∈ cs, c.row.alphaId ∈ openedIds cs := by
  induction n generalizing entries cs log db with
  | zero =>
    obtain rfl : cs = [] := List.map_eq_nil_iff.1 hstatus
    simpa [openedIds] using hlawful
  | succ n ih =>
    rcases h with _ | @⟨_, _, _, mid, _, first, _, head, tail⟩
    · simp [pairStatuses] at hstatus
    rcases tail with _ | @⟨_, _, _, mid', _, second, cs, head', tail⟩
    · simp [pairStatuses] at hstatus
    rw [pairStatuses, List.map_cons, List.map_cons, List.map_cons, List.map_cons, List.cons.injEq, List.cons.injEq]
      at hstatus
    obtain ⟨hidea, hcandidate, hrest⟩ := hstatus
    have hfirst := hversions first (by simp)
    have hsecond := hversions second (by simp)
    have hmirrors' := (hmirrors.append head hfirst).append head' hsecond
    obtain ⟨hnone, hsame, hlawful'⟩ := hlawful.pair hmirrors head head' hfirst hidea hcandidate
    rw [List.append_assoc] at hmirrors'
    obtain ⟨hall, hnodup, hlength, hfresh, hmem⟩ := ih tail hmirrors'
      (fun c hc => hversions c (by simp [hc])) hlawful' hrest
    have hopened : openedIds (first :: second :: cs) = first.row.alphaId :: openedIds cs := by
      simp [openedIds, hidea, hcandidate]
    rw [hopened]
    refine ⟨?_, List.nodup_cons.2 ⟨fun hmem' => ?_, hnodup⟩, by rw [List.length_cons, hlength], ?_, ?_⟩
    · simpa using hall
    · have hempty := hfresh _ hmem'
      rw [entriesOf_append] at hempty
      simp [entriesOf] at hempty
    · intro alphaId hid
      rcases List.mem_cons.1 hid with rfl | hid
      · exact hnone
      · exact (List.append_eq_nil_iff.1 ((entriesOf_append ..).symm.trans (hfresh alphaId hid))).1
    · intro c hc
      rcases List.mem_cons.1 hc with rfl | hc
      · exact List.mem_cons_self
      · rcases List.mem_cons.1 hc with rfl | hc
        · rw [hsame]
          exact List.mem_cons_self
        · exact List.mem_cons_of_mem _ (hmem c hc)

omit hversions

omit hmirrors

omit h

/-! ## Publications -/

def Published.stage (x : Published) : Option String := getText (some x.request) "stage"

def Published.family (x : Published) : List (Option String) :=
  (elements (get (some x.request) "expected_heads")).map fun h => getText (some h) "alpha_id"

def Committed.record (c : Committed) : Option Json := get (some c.registry) "record"

/-- The record carries the decision of its status, with the digests that a passing decision rests on. -/
structure Committed.Decided (c : Committed) : Prop where
  passed : c.status = some "OOS_PASS" ∨ c.status = some "QUALIFIED" →
    getText c.record "qualification_decision" = some "PASS" ∧
      (∃ metrics, getText c.record "metrics_sha256" = some metrics ∧ isSha256 metrics = true) ∧
      ∃ robustness, getText c.record "robustness_sha256" = some robustness ∧ isSha256 robustness = true
  failed : c.status = some "REJECTED" → getText c.record "qualification_decision" = some "FAIL"

theorem step?_eq_field? {step : String} (h : Json.position? step = none) (value : Json) :
    value.step? step = value.field? step := by
  cases value <;> simp [Json.step?, Json.field?, h]

theorem Committed.status_eq (c : Committed) : c.status = getText c.record "lifecycle_status" := by
  have hpath : path (some c.registry) ["record", "lifecycle_status"] = get c.record "lifecycle_status" := by
    rw [path, Option.bind_some, Json.path?, step?_eq_field? (by decide), Committed.record, Jsonb.get_some]
    cases c.registry.field? "record" with
    | none => rfl
    | some v =>
      rw [Option.bind_some, Json.path?, step?_eq_field? (by decide), Jsonb.get_some]
      cases v.field? "lifecycle_status" <;> rfl
  rw [Committed.status, statusText, pathText, hpath, getText]

theorem decided_of {c : Committed} (h : holds (decisionAgrees c.record)) : c.Decided := by
  unfold decisionAgrees at h
  simp only [← c.status_eq] at h
  refine ⟨fun hstatus => ?_, fun hstatus => ?_⟩
  · rw [if_neg (by rcases hstatus with hstatus | hstatus <;> simp [hstatus]), if_pos hstatus, holds_allOf_iff] at h
    have hdecision := h _ (List.mem_cons_self ..)
    have hmetrics := h (test isSha256 (getText c.record "metrics_sha256")) (by simp)
    have hrobustness := h (test isSha256 (getText c.record "robustness_sha256")) (by simp)
    obtain ⟨decision, hread, hpass⟩ := holds_eq_iff.1 hdecision
    exact ⟨hread.trans hpass.symm, holds_test_iff.1 hmetrics, holds_test_iff.1 hrobustness⟩
  · rw [if_neg (by simp [hstatus]), if_neg (by simp [hstatus]), if_pos hstatus] at h
    obtain ⟨decision, hread, hfail⟩ := holds_eq_iff.1 h
    exact hread.trans hfail.symm

variable {states : List String}

theorem statuses_of_states (h : statesOf (cs.map fun c => (some c.event, some c.registry)) = states.map .str) :
    cs.map Committed.status = states.map some := by
  have htext (v : Option Json) : Jsonb.text (v.getD .null) = v.bind Jsonb.text := by cases v <;> rfl
  have hmapped := congrArg (List.map Jsonb.text) h
  rw [statesOf, List.map_map, List.map_map, List.map_map] at hmapped
  calc cs.map Committed.status
      = cs.map (Jsonb.text ∘ fun c => (c.field "lifecycle_status").getD .null) :=
        List.map_congr_left fun c _ => (htext _).symm
    _ = states.map some := hmapped

theorem stageStates_cases {stage : String} (h : states ∈ stageStates stage) :
    (stage = "REGISTER" ∧ states = pairStatuses 4) ∨ (stage ≠ "REGISTER" ∧ "IDEA" ∉ states) := by
  unfold stageStates at h
  split at h
  · exact .inl ⟨rfl, List.mem_singleton.1 h⟩
  · refine .inr ⟨by decide, ?_⟩
    rcases List.mem_pair.1 h with rfl | rfl <;> decide
  · refine .inr ⟨by decide, ?_⟩
    rcases List.mem_pair.1 h with rfl | rfl <;> decide
  · cases h

structure SanctionedEntries (request : Json) (cs : List Committed) : Prop where
  versions : ∀ c ∈ cs, c.row.alphaVersion = "1.0.0"
  decided : ∀ c ∈ cs, c.Decided
  staged : ∃ stage states, getText (some request) "stage" = some stage ∧ states ∈ stageStates stage ∧
    cs.map Committed.status = states.map some
  allowed : ∃ ids, ids ≠ [] ∧ (∀ c ∈ cs, Json.str c.row.alphaId ∈ ids) ∧
    ids.Perm ((elements (get (some request) "expected_heads")).map fun h => (get (some h) "alpha_id").getD .null)

theorem AppendsAll.fields (h : AppendsAll publisher request entries db cs after) {c : Committed} (hc : c ∈ cs) :
    pathText (some c.event) ["payload", "alpha_id"] = some c.row.alphaId ∧
      pathText (some c.event) ["payload", "alpha_version"] = some c.row.alphaVersion := by
  induction h with
  | nil => cases hc
  | cons head _ ih =>
    rcases List.mem_cons.1 hc with rfl | hc
    · exact ⟨head.row_fields.1, head.row_fields.2.1⟩
    · exact ih hc

theorem sanctionedEntries_of {payload intent : Json} {tables : Tables} {stage : String}
    {documents : List (Option Json × Option Json)}
    (h : Sanctioned publisher payload request entries tables stage intent documents)
    (happends : AppendsAll publisher request entries db cs after) : SanctionedEntries request cs := by
  obtain rfl : documents = cs.map fun c => (some c.event, some c.registry) :=
    Except.ok.inj (h.read.symm.trans happends.documents)
  have hagrees := h.agrees
  rw [publicationAgrees, holds_allOf_iff] at hagrees
  have hstage := hagrees (eq (getText (some request) "stage") (some stage)) (by simp)
  have hdecisions := hagrees (some ((cs.map fun c => (some c.event, some c.registry)).all fun d =>
    decide (holds (decisionAgrees (d.2.bind fun r => get (some r) "record"))))) (by simp)
  have hids := hagrees (eq (if expectedIds publisher request = [] then none
    else some (.arr (expectedIds publisher request))) (get (some intent) "allowed_alpha_ids")) (by simp)
  have hscope := hagrees (some ((cs.map fun c => (some c.event, some c.registry)).all fun d =>
    inScope payload request intent d)) (by simp)
  rw [holds_some_iff, List.all_eq_true] at hdecisions hscope
  have hentry (c : Committed) (hc : c ∈ cs) := hscope _ (List.mem_map_of_mem hc)
  obtain ⟨ids, hids, hallowed⟩ := holds_eq_iff.1 hids
  split_ifs at hids with hempty
  obtain rfl := Option.some.inj hids
  refine ⟨fun c hc => ?_, fun c hc => ?_, ?_, expectedIds publisher request, hempty, fun c hc => ?_, ?_⟩
  · have hversion := hentry c hc
    simp only [inScope, Bool.and_eq_true, decide_eq_true_eq, (happends.fields hc).2] at hversion
    exact Option.some.inj hversion.1.2
  · have hdecision := hdecisions _ (List.mem_map_of_mem hc)
    rw [decide_eq_true_iff] at hdecision
    exact decided_of hdecision
  · obtain ⟨states, hmem, hstates⟩ := h.states
    obtain ⟨s, hs, hs'⟩ := holds_eq_iff.1 hstage
    exact ⟨stage, states, hs.trans hs'.symm, hmem, statuses_of_states hstates⟩
  · have hkey := hentry c hc
    simp only [inScope, Bool.and_eq_true, decide_eq_true_eq, (happends.fields hc).1, hallowed] at hkey
    simpa [Jsonb.hasKey] using hkey.1.1.1
  · exact (List.perm_insertionSort _ _).map _

end TradingAgent.AlphaCampaign
