import TradingAgent.JobPlane.Moves

/-! What holds of a new record and survives every move holds in every run. -/

namespace TradingAgent.JobPlane

variable {sha256 : String → String} {tables after : Tables}

def Record.Distinct (r : Record) : Prop := (r.attempts.map (·.attemptId)).Nodup

/-- Keys are distinct, no row belongs to a missing job, and every job's record satisfies `P`. -/
structure Inv (P : Record → Prop) (tables : Tables) : Prop where
  jobs : (tables.jobs.map (·.jobId)).Nodup
  orphans : ∀ jobId, tables.job? jobId = none → tables.attemptsOf jobId = [] ∧ tables.eventsOf jobId = []
  attempts : (tables.attempts.map (·.attemptId)).Nodup
  records : ∀ job ∈ tables.jobs, P (tables.record job)

structure Lasting (P : Record → Prop) : Prop where
  new : ∀ now jobId key actorId traceId eventId actorType priority, isIdentity traceId = true →
    P ⟨queuedJob now jobId key actorId actorType priority, [],
      [enqueuedEvent now eventId jobId actorId traceId actorType]⟩
  move : ∀ r moved, r.Distinct → P r → Move r moved → P moved

variable {P : Record → Prop}

theorem Inv.keyed (h : Inv P tables) : Keyed tables := ⟨h.jobs, h.attempts⟩

theorem Inv.distinct (h : Inv P tables) (job : Job) : (tables.record job).Distinct :=
  h.keyed.attemptsOf job.jobId

variable {jobId : String}

theorem job?_eq_none_iff : tables.job? jobId = none ↔ jobId ∉ tables.jobs.map (·.jobId) := by
  rw [Tables.job?, List.find?_eq_none]
  simp only [decide_eq_true_eq, List.mem_map, not_exists, not_and]

theorem Inv.enqueue (hlasting : Lasting P) (h : Inv P tables) {now : DateTime}
    {key actorId traceId eventId : String} {actorType : ActorType} {priority : ℤ}
    (hnew : tables.job? jobId = none) (htrace : isIdentity traceId = true) :
    Inv P { tables with
      jobs := tables.jobs ++ [queuedJob now jobId key actorId actorType priority]
      events := tables.events ++ [enqueuedEvent now eventId jobId actorId traceId actorType] } := by
  have hevents (other : String) (hne : other ≠ jobId) : ({ tables with
        jobs := tables.jobs ++ [queuedJob now jobId key actorId actorType priority]
        events := tables.events ++ [enqueuedEvent now eventId jobId actorId traceId actorType] } : Tables).eventsOf
          other = tables.eventsOf other :=
    (Tables.eventsOf_append other).trans (if_neg fun h => hne h.symm)
  have hmine : ({ tables with
        jobs := tables.jobs ++ [queuedJob now jobId key actorId actorType priority]
        events := tables.events ++ [enqueuedEvent now eventId jobId actorId traceId actorType] } : Tables).eventsOf
          jobId = [enqueuedEvent now eventId jobId actorId traceId actorType] := by
    refine (Tables.eventsOf_append jobId).trans ((if_pos rfl).trans ?_)
    rw [(h.orphans jobId hnew).2]
    rfl
  have hother {job : Job} (hjob : job ∈ tables.jobs) : job.jobId ≠ jobId := by
    rintro rfl
    exact job?_eq_none_iff.1 hnew (List.mem_map_of_mem hjob)
  refine ⟨?_, fun other hnone => ?_, h.attempts, fun job hjob => ?_⟩
  · rw [List.map_append, List.map_singleton, List.nodup_append]
    refine ⟨h.jobs, List.nodup_singleton _, ?_⟩
    rintro id hid _ hsame rfl
    obtain rfl := List.mem_singleton.1 hsame
    exact job?_eq_none_iff.1 hnew hid
  · rw [job?_eq_none_iff, List.map_append, List.mem_append, not_or] at hnone
    obtain ⟨hold, hne⟩ := hnone
    have hne : other ≠ jobId := fun h => hne (List.mem_singleton.2 h)
    rw [hevents other hne]
    exact h.orphans other (job?_eq_none_iff.2 hold)
  · rcases List.mem_append.1 hjob with hjob | hjob
    · rw [Tables.record, hevents job.jobId (hother hjob)]
      exact h.records job hjob
    · obtain rfl := List.mem_singleton.1 hjob
      have hattempts : tables.attemptsOf jobId = [] := (h.orphans jobId hnew).1
      have hrecord := hlasting.new now jobId key actorId traceId eventId actorType priority htrace
      rw [← hmine, ← hattempts] at hrecord
      exact hrecord

theorem Changed.record {job other : Job} {moved : Record} (h : Changed tables job moved after)
    (hnodup : (tables.jobs.map (·.jobId)).Nodup) (hother : other ∈ after.jobs) :
    other.jobId = job.jobId ∧ after.record other = moved ∨
      other.jobId ≠ job.jobId ∧ other ∈ tables.jobs ∧ after.record other = tables.record other := by
  have hafter : after.job? other.jobId = some other := Tables.job?_of_mem (by rwa [h.touches.ids]) hother
  by_cases hid : other.jobId = job.jobId
  · refine .inl ⟨hid, ?_⟩
    rw [hid, h.job?] at hafter
    obtain rfl := Option.some.inj hafter
    rw [Tables.record, hid, h.attemptsOf, h.eventsOf]
  · refine .inr ⟨hid, ?_, ?_⟩
    · rw [h.touches.job? _ hid] at hafter
      exact (Tables.job?_eq_some hafter).1
    · rw [Tables.record, h.touches.attemptsOf _ hid, h.touches.eventsOf _ hid]
      rfl

theorem Inv.advance (hlasting : Lasting P) (h : Inv P tables) (hadvance : Advance tables after) : Inv P after := by
  cases hadvance with
  | same hsame => rwa [hsame]
  | enqueue hnew htrace hafter =>
    rw [hafter]
    exact h.enqueue hlasting hnew htrace
  | @move job moved hmem hchanged hmove =>
    have hdistinct := h.distinct job
    have hrecord {other : Job} (hother : other ∈ after.jobs) := hchanged.record h.jobs hother
    refine ⟨by rw [hchanged.touches.ids]; exact h.jobs, fun other hnone => ?_,
      hchanged.touches.attemptIds h.attempts, fun other hother => ?_⟩
    · rw [job?_eq_none_iff, hchanged.touches.ids, ← job?_eq_none_iff] at hnone
      have hne : other ≠ job.jobId := by
        rintro rfl
        rw [Tables.job?_of_mem h.jobs hmem] at hnone
        cases hnone
      rw [hchanged.touches.attemptsOf _ hne, hchanged.touches.eventsOf _ hne]
      exact h.orphans other hnone
    · rcases hrecord hother with ⟨-, heq⟩ | ⟨-, hold, heq⟩ <;> rw [heq]
      · exact hlasting.move _ _ hdistinct (h.records job hmem) hmove
      · exact h.records other hold

theorem inv_empty (P : Record → Prop) : Inv P .empty where
  jobs := List.nodup_nil
  orphans _ _ := ⟨rfl, rfl⟩
  attempts := List.nodup_nil
  records _ h := by cases h

theorem advance_execute (hkeyed : Keyed tables) (call : Call) : Advance tables (execute sha256 tables call) := by
  unfold execute
  split
  · rename_i after hcommit
    exact advance_of_commit hkeyed hcommit
  · exact .same rfl

theorem Inv.execute (hlasting : Lasting P) (h : Inv P tables) (call : Call) :
    Inv P (execute sha256 tables call) := h.advance hlasting (advance_execute h.keyed call)

theorem Inv.executeAll (hlasting : Lasting P) (h : Inv P tables) (calls : List Call) :
    Inv P (executeAll sha256 tables calls) := by
  induction calls generalizing tables with
  | nil => exact h
  | cons call calls ih => exact ih (h.execute hlasting call)

end TradingAgent.JobPlane
