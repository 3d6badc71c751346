import TradingAgent.Nautilus.ProjectedStream

/-!
# The simulation time of a projected run

`project_event_stream` (`nautilus/runtime_v1/event_projector.py`) stamps the events of a target with its scheduled time
and the fills with the time of the bar.
-/

namespace TradingAgent.Nautilus

open Outcome

/-- A target, as `_schedule` reads it. -/
structure StrategyTarget where
  targetId : String
  sourceSignalIds : List String
  effectiveAt : UtcDateTime
  targetWeight : Decimal

structure SubmittedOrderFact where
  clientOrderId : String
  side : OrderSide
  quantity : Decimal

structure FilledOrderFact where
  tradeId : String
  side : OrderSide
  quantity : Decimal
  price : Decimal
  commission : Decimal
  tsEvent : UtcDateTime

structure CollectedExecution where
  targetId : String
  sourceSignalIds : List String
  effectiveAt : UtcDateTime
  plannedQuantity : Decimal
  order : Option SubmittedOrderFact
  fills : List FilledOrderFact

/-- The document that `_event` makes, before `validate_document`, which only refuses. -/
def projectedEvent (eventType : String) (sequence : ℕ) (simulationTime : UtcDateTime) (values : Document) : Document :=
  [("schema_version", .str p1EventSchema), ("sequence", .int sequence),
    ("simulation_time", .str (serializeUtc simulationTime)), ("event_type", .str eventType)] ++ values

def targetEvents (execution : CollectedExecution) (schedule : Dict String StrategyTarget) (sequence : ℕ) :
    Except Failure (List Document) := do
  let time := execution.effectiveAt
  let id := Value.str execution.targetId
  let signals := Value.list execution.sourceSignalIds
  match schedule.get? execution.targetId with
  | none => .error (.valueError "P1 native target does not match schedule authority")
  | some scheduled => do
    require (scheduled.sourceSignalIds = execution.sourceSignalIds ∧ scheduled.effectiveAt = time)
      (.valueError "P1 native target does not match schedule authority")
    let accepted := [projectedEvent "TargetAccepted" sequence time
        [("origin", .str "CONTROL_PLANE"), ("native_type", .null), ("target_id", id), ("source_signal_ids", signals),
          ("target_weight", decimalValue scheduled.targetWeight)],
      projectedEvent "TargetQuantityPlanned" (sequence + 1) time
        [("origin", .str "CONTROL_PLANE"), ("native_type", .null), ("target_id", id),
          ("quantity", decimalValue execution.plannedQuantity)]]
    match execution.order with
    | none => .ok accepted
    | some order => do
      require (execution.fills ≠ []) (.valueError "P1 native order is missing its fill")
      .ok (accepted ++ projectedEvent "OrderSubmitted" (sequence + 2) time
        [("origin", .str "CONTROL_PLANE"), ("native_type", .str "Order"), ("client_order_id", id),
          ("native_order_id", .str order.clientOrderId), ("target_id", id), ("source_signal_ids", signals),
          ("side", .str (sideText order.side)), ("quantity", decimalValue order.quantity),
          ("order_type", .str "MARKET")] ::
        (execution.fills.zipIdx (sequence + 3)).map fun (fill, n) => projectedEvent "Fill" n fill.tsEvent
          [("origin", .str "NAUTILUS_CALLBACK"), ("native_type", .str "OrderFilled"), ("client_order_id", id),
            ("native_fill_id", .str fill.tradeId), ("side", .str (sideText fill.side)),
            ("quantity", decimalValue fill.quantity), ("price", decimalValue fill.price),
            ("fee", decimalValue fill.commission), ("fee_currency", .str "USDT")])

structure RunValues where
  started : Document
  position : Document
  account : Document
  completed : Document

/-- The events of `project_event_stream`. -/
def projectedEvents (run : RunValues) (startTime lastTime : UtcDateTime) (schedule : Dict String StrategyTarget)
    (executions : List CollectedExecution) : Except Failure (List Document) := do
  let events ← executions.foldlM (fun events execution => do
    let added ← targetEvents execution schedule (events.length + 2)
    .ok (events ++ added)) [projectedEvent "RunStarted" 2 startTime run.started]
  let n := events.length + 2
  .ok (events ++ [projectedEvent "PositionObserved" n lastTime run.position,
    projectedEvent "AccountObserved" (n + 1) lastTime run.account,
    projectedEvent "RunCompleted" (n + 2) lastTime run.completed])

/-- No event is refused for its time after the one before it. -/
def NeverRegresses (events : List Document) : Prop :=
  events.IsChain fun earlier later => regressed (later.text "simulation_time") (earlier.text "simulation_time") = false

def CollectedExecution.times (execution : CollectedExecution) : List UtcDateTime :=
  [execution.effectiveAt, execution.effectiveAt] ++
    if execution.order.isSome then execution.effectiveAt :: execution.fills.map FilledOrderFact.tsEvent else []

def HasTimes (events : List Document) (times : List UtcDateTime) : Prop :=
  events.map (·.text "simulation_time") = times.map serializeUtc

theorem text_projectedEvent (eventType : String) (n : ℕ) (t : UtcDateTime) (values : Document) :
    (projectedEvent eventType n t values).text "simulation_time" = serializeUtc t := rfl

theorem neverRegresses_iff {events : List Document} {times : List UtcDateTime} (h : HasTimes events times) :
    NeverRegresses events ↔ times.IsChain fun t u => ¬ u < t := by
  have htexts : NeverRegresses events ↔
      (events.map (·.text "simulation_time")).IsChain fun a b => regressed b a = false := by
    rw [List.isChain_map]
    rfl
  rw [htexts, h, List.isChain_map]
  simp only [regressed_serializeUtc, decide_eq_false_iff_not]

/-- The execution has the signals and the time of its target. -/
def Bound (schedule : Dict String StrategyTarget) (execution : CollectedExecution) : Prop :=
  (∃ scheduled, schedule.get? execution.targetId = some scheduled ∧
    scheduled.sourceSignalIds = execution.sourceSignalIds ∧ scheduled.effectiveAt = execution.effectiveAt) ∧
  (execution.order.isSome → execution.fills ≠ [])

variable {schedule : Dict String StrategyTarget}

theorem targetEvents_ok {execution : CollectedExecution} (h : Bound schedule execution) (n : ℕ) :
    ∃ events, targetEvents execution schedule n = .ok events ∧ HasTimes events execution.times := by
  obtain ⟨⟨scheduled, hget, hbound⟩, hfills⟩ := h
  unfold targetEvents CollectedExecution.times HasTimes
  simp only [hget, require, if_pos hbound, ok_bind]
  cases horder : execution.order with
  | none => exact ⟨_, rfl, rfl⟩
  | some order =>
    rw [horder] at hfills
    rw [if_pos (hfills rfl)]
    refine ⟨_, rfl, ?_⟩
    have hfills : (execution.fills.zipIdx (n + 3)).map (fun pair => serializeUtc pair.1.tsEvent) =
        execution.fills.map fun fill => serializeUtc fill.tsEvent := by
      conv_rhs => rw [← List.zipIdx_map_fst (n + 3) execution.fills, List.map_map]
      rfl
    simp [text_projectedEvent, Function.comp_def, hfills]

theorem projectedEvents_ok (run : RunValues) (startTime lastTime : UtcDateTime)
    {executions : List CollectedExecution} (h : ∀ execution ∈ executions, Bound schedule execution) :
    ∃ events, projectedEvents run startTime lastTime schedule executions = .ok events ∧
      HasTimes events (startTime :: (executions.flatMap CollectedExecution.times ++ [lastTime, lastTime, lastTime])) := by
  have hrun : ∀ before times, HasTimes before times → ∃ events, executions.foldlM (fun events execution => do
      let added ← targetEvents execution schedule (events.length + 2)
      .ok (events ++ added)) before = (.ok events : Except Failure _) ∧
        HasTimes events (times ++ executions.flatMap CollectedExecution.times) := by
    induction executions with
    | nil =>
      intro before times hbefore
      exact ⟨before, rfl, by simpa using hbefore⟩
    | cons execution executions ih =>
      intro before times hbefore
      obtain ⟨added, hadded, htimes⟩ := targetEvents_ok (h execution List.mem_cons_self) (before.length + 2)
      obtain ⟨events, hevents, hresult⟩ := ih (fun e he => h e (List.mem_cons_of_mem _ he)) (before ++ added)
        (times ++ execution.times) (by
          unfold HasTimes at *
          rw [List.map_append, List.map_append, hbefore, htimes])
      refine ⟨events, ?_, by simpa using hresult⟩
      rw [List.foldlM_cons, hadded]
      exact hevents
  obtain ⟨events, hevents, htimes⟩ := hrun [projectedEvent "RunStarted" 2 startTime run.started] [startTime] rfl
  refine ⟨_, by rw [projectedEvents, hevents, ok_bind], ?_⟩
  unfold HasTimes at *
  rw [List.map_append, htimes]
  simp [text_projectedEvent]

/-- A target of the schedule and what the strategy did with it at a bar. -/
structure BarExecution where
  target : StrategyTarget
  plannedQuantity : Decimal
  order : Option SubmittedOrderFact
  fills : List FilledOrderFact
  bar : UtcDateTime

namespace BarExecution

def execution (e : BarExecution) : CollectedExecution :=
  ⟨e.target.targetId, e.target.sourceSignalIds, e.target.effectiveAt, e.plannedQuantity, e.order, e.fills⟩

structure Executed (lastTime : UtcDateTime) (e : BarExecution) : Prop where
  not_before : ¬ e.bar < e.target.effectiveAt
  filled : e.order.isSome → e.fills ≠ []
  filled_at_bar : ∀ fill ∈ e.fills, fill.tsEvent = e.bar
  last : ¬ lastTime < e.bar

/-- After an order, the next target takes effect no earlier than the bar that filled it. -/
def AwaitsFill (e f : BarExecution) : Prop := e.order.isSome → ¬ f.target.effectiveAt < e.bar

instance (e f : BarExecution) : Decidable (AwaitsFill e f) := inferInstanceAs (Decidable (_ → _))

def lastEventTime (e : BarExecution) : UtcDateTime := if e.order.isSome then e.bar else e.target.effectiveAt

theorem chain_fills {bar : UtcDateTime} {fills : List FilledOrderFact} (h : ∀ fill ∈ fills, fill.tsEvent = bar)
    (rest : List UtcDateTime) : (bar :: (fills.map FilledOrderFact.tsEvent ++ rest)).IsChain (fun t u => ¬ u < t) ↔
      (bar :: rest).IsChain fun t u => ¬ u < t := by
  induction fills with
  | nil => rfl
  | cons fill fills ih =>
    rw [List.map_cons, h fill List.mem_cons_self, List.cons_append, List.isChain_cons_cons,
      ih fun f hf => h f (List.mem_cons_of_mem _ hf)]
    exact and_iff_right (Nat.lt_irrefl _)

variable {lastTime before : UtcDateTime}

theorem chain_times {e : BarExecution} (h : e.Executed lastTime) (rest : List UtcDateTime) :
    (before :: (e.execution.times ++ rest)).IsChain (fun t u => ¬ u < t) ↔
      ¬ e.target.effectiveAt < before ∧ (e.lastEventTime :: rest).IsChain fun t u => ¬ u < t := by
  have hself : ∀ t : UtcDateTime, ¬ t < t := fun t => Nat.lt_irrefl _
  obtain ⟨hbar, hfilled, hfills, -⟩ := h
  unfold CollectedExecution.times lastEventTime execution
  by_cases horder : e.order.isSome
  · cases hlist : e.fills with
    | nil => exact absurd hlist (hfilled horder)
    | cons fill fills =>
      rw [hlist] at hfills
      have hrest := chain_fills (fun f hf => hfills f (List.mem_cons_of_mem _ hf)) rest
      simp [horder, hfills fill List.mem_cons_self, hself, hbar, hrest]
  · simp [horder, hself]

variable {executions : List BarExecution}

/-- The times of a run never regress exactly when every target awaits the fill of the target before it. -/
theorem chain_run (hincreasing : executions.Pairwise fun e f => e.target.effectiveAt < f.target.effectiveAt)
    (h : ∀ e ∈ executions, e.Executed lastTime) (hbefore : ¬ lastTime < before) :
    (before :: ((executions.map execution).flatMap CollectedExecution.times ++
      [lastTime, lastTime, lastTime])).IsChain (fun t u => ¬ u < t) ↔
      (∀ e ∈ executions.head?, ¬ e.target.effectiveAt < before) ∧ executions.IsChain AwaitsFill := by
  induction executions generalizing before with
  | nil =>
    have hself : ¬ lastTime < lastTime := Nat.lt_irrefl _
    simp [hbefore, hself]
  | cons e executions ih =>
    rw [List.forall_mem_cons] at h
    have hlast : ¬ lastTime < e.lastEventTime := by
      unfold lastEventTime
      split_ifs
      · exact h.1.last
      · exact fun hlt => h.1.not_before (Nat.lt_of_le_of_lt (Nat.le_of_not_lt h.1.last) hlt)
    rw [List.map_cons, List.flatMap_cons, List.append_assoc, chain_times h.1, ih hincreasing.of_cons h.2 hlast]
    cases executions with
    | nil => simp
    | cons f executions =>
      have hlt : ¬ f.target.effectiveAt < e.target.effectiveAt :=
        Nat.lt_asymm ((List.pairwise_cons.1 hincreasing).1 f List.mem_cons_self)
      have hawaits : AwaitsFill e f ↔ ¬ f.target.effectiveAt < e.lastEventTime := by
        unfold AwaitsFill lastEventTime
        split_ifs with horder <;> simp [horder, hlt]
      simp [hawaits]

end BarExecution

/-- The executions of a schedule that the loader accepts. -/
structure ExecutedInOrder (startTime endTime lastTime : UtcDateTime) (executions : List BarExecution) : Prop where
  nonempty : executions ≠ []
  distinct : (executions.map fun e => e.target.targetId).Nodup
  increasing : executions.Pairwise fun e f => e.target.effectiveAt < f.target.effectiveAt
  in_window : ∀ e ∈ executions, ¬ e.target.effectiveAt < startTime ∧ ¬ endTime < e.target.effectiveAt
  bars : executions.Pairwise fun e f => e.bar < f.bar
  executed : ∀ e ∈ executions, e.Executed lastTime

variable {startTime endTime lastTime : UtcDateTime} {executions : List BarExecution}

def scheduleOf (executions : List BarExecution) : Dict String StrategyTarget :=
  executions.map fun e => (e.target.targetId, e.target)

variable (h : ExecutedInOrder startTime endTime lastTime executions)
include h

theorem ExecutedInOrder.bound :
    ∀ execution ∈ executions.map BarExecution.execution, Bound (scheduleOf executions) execution := by
  intro _ hexecution
  obtain ⟨e, he, rfl⟩ := List.mem_map.1 hexecution
  have hkeys : (scheduleOf executions).keys.Nodup := by
    simpa [scheduleOf, Dict.keys, Function.comp_def] using h.distinct
  exact ⟨⟨e.target, (Dict.get?_eq_some_iff hkeys).2 (List.mem_map_of_mem he), rfl, rfl⟩, (h.executed e he).filled⟩

theorem ExecutedInOrder.neverRegresses_iff
    (run : RunValues) : ∃ events, projectedEvents run startTime lastTime (scheduleOf executions)
      (executions.map BarExecution.execution) = .ok events ∧
        (NeverRegresses events ↔ executions.IsChain BarExecution.AwaitsFill) := by
  obtain ⟨events, hevents, htimes⟩ := projectedEvents_ok run startTime lastTime h.bound
  obtain ⟨first, hfirst⟩ := List.exists_mem_of_ne_nil _ h.nonempty
  have hlast : ¬ lastTime < startTime := Nat.not_lt_of_le
    ((Nat.le_of_not_lt (h.in_window first hfirst).1).trans
      ((Nat.le_of_not_lt (h.executed first hfirst).not_before).trans (Nat.le_of_not_lt (h.executed first hfirst).last)))
  refine ⟨events, hevents, ?_⟩
  rw [Nautilus.neverRegresses_iff htimes, BarExecution.chain_run h.increasing h.executed hlast]
  exact and_iff_right fun e he => (h.in_window e (List.mem_of_mem_head? he)).1

omit h

/-- The projection accepts its own times exactly when every target takes effect after the fill before it. -/
theorem simulation_time_ordered_iff (run : RunValues)
    (h : ExecutedInOrder startTime endTime lastTime executions) :
    ∃ events, projectedEvents run startTime lastTime (scheduleOf executions)
      (executions.map BarExecution.execution) = .ok events ∧
        (NeverRegresses events ↔ executions.IsChain BarExecution.AwaitsFill) :=
  h.neverRegresses_iff run

def minuteTime (minute second : ℕ) (h : minute < 60 ∧ second < 60) : UtcDateTime :=
  ⟨2026, 1, 1, 10, minute, second, 0, by simp [isCalendar, Calendar.daysInMonth, Calendar.monthLength, h]⟩

def sampleExecution (id : String) (effective : ℕ) (side : OrderSide) (bar : ℕ) (h : effective < 60 ∧ bar < 60) :
    BarExecution where
  target := ⟨id, ["signal"], minuteTime 0 effective ⟨by decide, h.1⟩, if side = .buy then 1 else 0⟩
  plannedQuantity := 1
  order := some ⟨"O-" ++ id, side, 1⟩
  fills := [⟨"T-" ++ id, side, 1, .scaled 100 0, 0, minuteTime bar 0 ⟨h.2, by decide⟩⟩]
  bar := minuteTime bar 0 ⟨h.2, by decide⟩

def sampleExecutions : List BarExecution :=
  [sampleExecution "target-1" 10 .buy 1 (by decide), sampleExecution "target-2" 20 .sell 2 (by decide)]

theorem sampleExecutions_in_order : ExecutedInOrder (minuteTime 0 0 (by decide)) (minuteTime 2 0 (by decide))
    (minuteTime 2 0 (by decide)) sampleExecutions where
  nonempty := List.cons_ne_nil _ _
  distinct := by decide
  increasing := by decide
  in_window := by decide
  bars := by decide
  executed := List.forall_mem_cons.2 ⟨⟨by decide, by decide, by decide, by decide⟩,
    List.forall_mem_singleton.2 ⟨by decide, by decide, by decide, by decide⟩⟩

theorem simulation_time_regresses : ExecutedInOrder (minuteTime 0 0 (by decide)) (minuteTime 2 0 (by decide))
    (minuteTime 2 0 (by decide)) sampleExecutions ∧
      ∃ events, projectedEvents ⟨[], [], [], []⟩ (minuteTime 0 0 (by decide)) (minuteTime 2 0 (by decide))
        (scheduleOf sampleExecutions) (sampleExecutions.map BarExecution.execution) = .ok events ∧
          ¬ NeverRegresses events := by
  obtain ⟨events, hevents, hiff⟩ := sampleExecutions_in_order.neverRegresses_iff ⟨[], [], [], []⟩
  refine ⟨sampleExecutions_in_order, events, hevents, hiff.not.2 ?_⟩
  decide

theorem sample_simulation_time_ordered :
    ∃ events, projectedEvents ⟨[], [], [], []⟩ (minuteTime 0 0 (by decide)) (minuteTime 2 0 (by decide))
      (scheduleOf sampleExecutions) (sampleExecutions.map BarExecution.execution) = .ok events ∧
        (NeverRegresses events ↔ sampleExecutions.IsChain BarExecution.AwaitsFill) :=
  simulation_time_ordered_iff ⟨[], [], [], []⟩ sampleExecutions_in_order

end TradingAgent.Nautilus
