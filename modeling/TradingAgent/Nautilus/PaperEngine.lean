import TradingAgent.Nautilus.Paper

/-!
# The native session of a paper child

`PaperEngineSession` (`nautilus/runtime_v1/paper_session.py`) and the command dispatch of `PaperCommandLoop`
(`paper_runner.py`). The engine with its strategy is a parameter. A command that raises disposes the session and ends
the loop, so it has no successor here.
-/

namespace TradingAgent.Nautilus

open Outcome

/-- A target of the sealed schedule: its portfolio enters by its canonical text. -/
structure ScheduledTarget where
  (targetId portfolio : String)
  /-- the target has one position, of weight `"0"` -/
  exits : Bool

/-- What a paper session uses of the inputs, the engine and its strategy, which works its targets one after the
other. -/
structure NativeEngine where
  (engineRunId causationId : Uuid)
  /-- the artifacts that a start command has to name, as canonical text -/
  artifacts : String
  targets : List ScheduledTarget
  ids_nodup : (targets.map ScheduledTarget.targetId).Nodup
  State : Type
  Datum : Type
  data : List Datum
  created : State
  /-- `add_data`, `run`, `clear_data` -/
  feed : State → Datum → State
  processed : State → ℕ
  /-- the strategy is `COMPLETED` -/
  completed : State → Bool
  /-- `positions_open() or orders_open()` -/
  exposed : State → Bool
  finishExitOnly : State → Except Failure State
  /-- `engine.end()` and the checks of `_snapshot` -/
  finish : State → Except Failure State
  processed_created : processed created = 0
  processed_feed : ∀ s d, processed s ≤ processed (feed s d) ∧ processed (feed s d) ≤ processed s + 1
  processed_rest : ∀ s (data : List Datum), completed s = true → processed (data.foldl feed s) = processed s
  processed_exitOnly : ∀ s s', finishExitOnly s = .ok s' → processed s' = processed s
  completed_exitOnly : ∀ s s', finishExitOnly s = .ok s' → completed s' = true
  processed_finish : ∀ s s', finish s = .ok s' → processed s' = processed s

variable {P : PaperProtocol} {E : NativeEngine}

def NativeEngine.processedTargetIds (E : NativeEngine) (s : E.State) : List String :=
  (E.targets.map ScheduledTarget.targetId).take (E.processed s)

variable (E) in
structure PaperEngineSession where
  engine : E.State
  cursor : ℕ := 0
  lastCommandSequence : ℕ := 0
  stopped : Bool := false

namespace PaperEngineSession

variable (session : PaperEngineSession E)

def replayUntil (targetId : String) (failure : Failure) :
    List E.Datum → E.State → ℕ → Except Failure (E.State × ℕ)
  | data, engine, cursor =>
    if targetId ∈ E.processedTargetIds engine then .ok (engine, cursor)
    else
      match data with
      | [] => .error failure
      | datum :: rest => replayUntil targetId failure rest (E.feed engine datum) (cursor + 1)

def start (sequence : ℕ) : Except Failure (PaperEngineSession E) := do
  require (session.stopped = false ∧ session.lastCommandSequence = 0 ∧ sequence = 1)
    (.valueError "paper native start authority is invalid")
  .ok { session with lastCommandSequence := sequence }

def submitTarget (portfolio : String) (sequence : ℕ) :
    Except Failure (ScheduledTarget × PaperEngineSession E) := do
  require (session.stopped = false ∧ sequence = session.lastCommandSequence + 1)
    (.valueError "paper native command sequence is invalid")
  match E.targets[E.processed session.engine]? with
  | none => .error (.valueError "paper target command is invalid")
  | some expected => do
    require (portfolio = expected.portfolio)
      (.valueError "paper target command does not match sealed schedule")
    let (engine, cursor) ← replayUntil expected.targetId
      (.valueError "paper market replay ended before target completion")
      (E.data.drop session.cursor) session.engine session.cursor
    .ok (expected, { session with engine := engine, cursor := cursor, lastCommandSequence := sequence })

def inspect (sequence : ℕ) : Except Failure (PaperEngineSession E) := do
  require (session.stopped = false ∧ sequence = session.lastCommandSequence + 1)
    (.valueError "paper native inspect sequence is invalid")
  .ok { session with lastCommandSequence := sequence }

def settleExitTargets : Except Failure (PaperEngineSession E) := do
  require (E.processed session.engine ≠ 0) (.valueError "paper stop requires an accepted target")
  if E.completed session.engine then .ok session
  else if E.exposed session.engine = false then do
    let engine ← E.finishExitOnly session.engine
    .ok { session with engine := engine }
  else
    match E.targets[E.processed session.engine]? with
    | none => .error (.valueError "paper stop cannot settle exposure")
    | some next => do
      require (next.exits = true) (.valueError "paper stop cannot create exposure")
      let (engine, cursor) ← replayUntil next.targetId
        (.valueError "paper market replay ended before exit settlement")
        (E.data.drop session.cursor) session.engine session.cursor
      require (E.exposed engine = false) (.valueError "paper stop did not settle exposure")
      let engine ← E.finishExitOnly engine
      .ok { session with engine := engine, cursor := cursor }

def stop (sequence : ℕ) : Except Failure (PaperEngineSession E) := do
  require (session.stopped = false ∧ sequence = session.lastCommandSequence + 1)
    (.valueError "paper native stop authority is invalid")
  let settled ← session.settleExitTargets
  let engine ← E.finish ((E.data.drop settled.cursor).foldl E.feed settled.engine)
  .ok { engine := engine, cursor := E.data.length, lastCommandSequence := sequence, stopped := true }

end PaperEngineSession

variable (E) in
/-- `PaperCommandLoop`: its session, the targets it was given, its last sequence and its state. -/
structure PaperCommandLoop where
  session : Option (PaperEngineSession E) := none
  targets : List String := []
  lastSequence : ℕ := 0
  state : PaperSessionState := .created

namespace PaperCommandLoop

variable (loop : PaperCommandLoop E)

def activeSession : Except Failure (PaperEngineSession E) :=
  match loop.session with
  | none => .error (.valueError "paper native session is unavailable")
  | some session => .ok session

def advance (session : PaperEngineSession E) (sequence : ℕ) (state : PaperSessionState) : PaperCommandLoop E :=
  { loop with session := some session, lastSequence := sequence, state := state }

/-- What `accept` does with a command in the state `RUNNING`. -/
def acceptRunning (frame : PaperCommandFrame P) : Except Failure (PaperCommandLoop E) := do
  let session ← loop.activeSession
  match frame.command with
  | .submitTargetPortfolio portfolio => do
    let (target, session) ← session.submitTarget portfolio frame.commandSequence
    require (target.targetId ∉ loop.targets) (.valueError "paper target command is duplicated")
    .ok ({ loop with targets := target.targetId :: loop.targets }.advance session frame.commandSequence .running)
  | .inspectEngineRun target => do
    require (target = frame.sessionId) (.valueError "paper inspect command targets another session")
    let session ← session.inspect frame.commandSequence
    .ok (loop.advance session frame.commandSequence .running)
  | .stopPaperEngine target => do
    require (target = frame.sessionId) (.valueError "paper stop command targets another session")
    let session ← session.stop frame.commandSequence
    .ok (loop.advance session frame.commandSequence .stopping)
  | _ => .error (.valueError "paper command is unsupported in native session")

def accept (frame : PaperCommandFrame P) : Except Failure (PaperCommandLoop E) := do
  require (frame.sessionId = E.engineRunId ∧ frame.ownerId = E.causationId)
    (.valueError "paper command identity is not input-bound")
  require (frame.commandSequence = loop.lastSequence + 1 ∧ (loop.state = .created ∨ loop.state = .running))
    (.valueError "paper command sequence or state is invalid")
  if loop.state = .created then do
    require (frame.command = .startPaperEngine E.artifacts)
      (.valueError "paper start command does not match sealed inputs")
    let session ← ({ engine := E.created } : PaperEngineSession E).start frame.commandSequence
    .ok (loop.advance session frame.commandSequence .running)
  else loop.acceptRunning frame

def acceptAll (loop : PaperCommandLoop E) (frames : List (PaperCommandFrame P)) :
    Except Failure (PaperCommandLoop E) :=
  frames.foldlM accept loop

end PaperCommandLoop

namespace PaperEngineSession

variable {session session' : PaperEngineSession E} {target : ScheduledTarget}

theorem mem_processedTargetIds {n : ℕ} (h : E.targets[n]? = some target)
    (s : E.State) : target.targetId ∈ E.processedTargetIds s ↔ n < E.processed s := by
  obtain ⟨hn, rfl⟩ := List.getElem?_eq_some_iff.1 h
  have hlen : n < (E.targets.map ScheduledTarget.targetId).length := by simpa using hn
  have hid : (E.targets.map ScheduledTarget.targetId)[n] = E.targets[n].targetId := by simp
  rw [NativeEngine.processedTargetIds, List.mem_take_iff_getElem]
  constructor
  · rintro ⟨i, hi, heq⟩
    rw [← hid] at heq
    have := (E.ids_nodup.getElem_inj_iff).1 heq
    omega
  · intro hlt
    exact ⟨n, by omega, hid⟩

theorem processed_replayUntil {n : ℕ} {failure : Failure}
    (htarget : E.targets[n]? = some target) {data : List E.Datum} {engine engine' : E.State}
    {cursor cursor' : ℕ} (hle : E.processed engine ≤ n + 1)
    (h : replayUntil target.targetId failure data engine cursor = .ok (engine', cursor')) :
    E.processed engine' = n + 1 := by
  induction data generalizing engine cursor with
  | nil =>
    rw [replayUntil] at h
    split_ifs at h with hmem
    obtain ⟨rfl, -⟩ := Prod.mk.inj (Except.ok.inj h)
    have := (mem_processedTargetIds htarget engine).1 hmem
    omega
  | cons datum rest ih =>
    rw [replayUntil] at h
    split_ifs at h with hmem
    · obtain ⟨rfl, -⟩ := Prod.mk.inj (Except.ok.inj h)
      have := (mem_processedTargetIds htarget engine).1 hmem
      omega
    · have hnot := mt (mem_processedTargetIds htarget engine).2 hmem
      have hfeed := E.processed_feed engine datum
      exact ih (by omega) h

variable {sequence : ℕ}

theorem start_ok (h : session.start sequence = .ok session') : session'.engine = session.engine := by
  simp only [start, bind_ok_iff, require_ok_iff, exists_const, Except.ok.injEq] at h
  obtain ⟨-, rfl⟩ := h
  rfl

theorem submitTarget_ok {portfolio : String} (h : session.submitTarget portfolio sequence = .ok (target, session')) :
    E.processed session'.engine = E.processed session.engine + 1 := by
  simp only [submitTarget, bind_ok_iff, require_ok_iff, exists_const] at h
  obtain ⟨-, h⟩ := h
  split at h
  · exact absurd h (by simp)
  · rename_i expected hexpected
    simp only [bind_ok_iff, require_ok_iff, exists_const, Except.ok.injEq, Prod.mk.injEq] at h
    obtain ⟨-, ⟨engine, cursor⟩, hreplay, rfl, rfl⟩ := h
    exact processed_replayUntil hexpected (Nat.le_succ _) hreplay

theorem inspect_ok (h : session.inspect sequence = .ok session') : session'.engine = session.engine := by
  simp only [inspect, bind_ok_iff, require_ok_iff, exists_const, Except.ok.injEq] at h
  obtain ⟨-, rfl⟩ := h
  rfl

/-- A stop has to settle one more target: the strategy has not completed and there is exposure. -/
def Unsettled (session : PaperEngineSession E) : Prop :=
  E.completed session.engine = false ∧ E.exposed session.engine = true

instance (session : PaperEngineSession E) : Decidable session.Unsettled := inferInstanceAs (Decidable (_ ∧ _))

theorem settleExitTargets_ok (h : session.settleExitTargets = .ok session') : E.completed session'.engine = true ∧
      E.processed session'.engine = E.processed session.engine + if session.Unsettled then 1 else 0 := by
  simp only [settleExitTargets, bind_ok_iff, require_ok_iff, exists_const] at h
  obtain ⟨-, h⟩ := h
  split_ifs at h with hcompleted hexposed
  · obtain rfl := Except.ok.inj h
    rw [if_neg fun hunsettled => absurd hcompleted (by simp [hunsettled.1])]
    exact ⟨hcompleted, rfl⟩
  · simp only [bind_ok_iff, Except.ok.injEq] at h
    obtain ⟨engine, hfinish, rfl⟩ := h
    rw [if_neg fun hunsettled => absurd hexposed (by simp [hunsettled.2])]
    exact ⟨E.completed_exitOnly _ _ hfinish, E.processed_exitOnly _ _ hfinish⟩
  · split at h
    · exact absurd h (by simp)
    · rename_i target htarget
      simp only [bind_ok_iff, require_ok_iff, exists_const, Except.ok.injEq] at h
      obtain ⟨-, ⟨engine, cursor⟩, hreplay, -, finished, hfinish, rfl⟩ := h
      rw [if_pos ⟨by simpa using hcompleted, by simpa using hexposed⟩]
      refine ⟨E.completed_exitOnly _ _ hfinish, ?_⟩
      exact (E.processed_exitOnly _ _ hfinish).trans
        (processed_replayUntil htarget (Nat.le_succ _) hreplay)

theorem stop_ok (h : session.stop sequence = .ok session') :
    E.processed session'.engine = E.processed session.engine + if session.Unsettled then 1 else 0 := by
  simp only [stop, bind_ok_iff, require_ok_iff, exists_const, Except.ok.injEq] at h
  obtain ⟨-, settled, hsettle, engine, hfinish, rfl⟩ := h
  obtain ⟨hcompleted, hprocessed⟩ := settleExitTargets_ok hsettle
  exact (E.processed_finish _ _ hfinish).trans ((E.processed_rest _ _ hcompleted).trans hprocessed)

end PaperEngineSession

def countCommands (name : PaperCommandName) (frames : List (PaperCommandFrame P)) : ℕ :=
  frames.countP fun frame => frame.command.commandType = name

namespace PaperCommandLoop

variable {loop loop' : PaperCommandLoop E} {frame : PaperCommandFrame P} {frames : List (PaperCommandFrame P)}

/-- How many commands the engine has processed. -/
def processed (loop : PaperCommandLoop E) : ℕ := loop.session.elim 0 fun session => E.processed session.engine

def SettlesTarget (loop : PaperCommandLoop E) (command : PaperCommand) : Prop :=
  command.commandType = .stopPaperEngine ∧ ∃ session ∈ loop.session, session.Unsettled

instance (loop : PaperCommandLoop E) (command : PaperCommand) : Decidable (loop.SettlesTarget command) :=
  inferInstanceAs (Decidable (_ ∧ _))

variable (E) in
def exitTargets (frames : List (PaperCommandFrame P)) : ℕ :=
  match frames.getLast?, ({} : PaperCommandLoop E).acceptAll frames.dropLast with
  | some frame, .ok loop => if loop.SettlesTarget frame.command then 1 else 0
  | _, _ => 0

theorem exitTargets_concat (h : ({} : PaperCommandLoop E).acceptAll frames = .ok loop) :
    exitTargets E (frames ++ [frame]) = if loop.SettlesTarget frame.command then 1 else 0 := by
  simp [exitTargets, h]

theorem acceptAll_concat : ({} : PaperCommandLoop E).acceptAll (frames ++ [frame]) = .ok loop' ↔
      ∃ loop, ({} : PaperCommandLoop E).acceptAll frames = .ok loop ∧ loop.accept frame = .ok loop' := by
  simp [acceptAll, List.foldlM_append, bind_ok_iff]

structure Counted (frames : List (PaperCommandFrame P)) (loop : PaperCommandLoop E) : Prop where
  created : loop.state = .created → frames = [] ∧ loop.processed = 0
  length : loop.state ≠ .created → frames.length = 1 + countCommands .submitTargetPortfolio frames +
    countCommands .inspectEngineRun frames + if loop.state = .stopping then 1 else 0
  processed : loop.processed = countCommands .submitTargetPortfolio frames + exitTargets E frames
  stopping : loop.state = .stopping ↔ ∃ frame ∈ frames, frame.command.commandType = .stopPaperEngine
  running : loop.state = .running → exitTargets E frames = 0

end PaperCommandLoop

namespace PaperCommandLoop

variable {loop loop' : PaperCommandLoop E} {frame : PaperCommandFrame P} {frames : List (PaperCommandFrame P)}

inductive Accepts (loop : PaperCommandLoop E) (frame : PaperCommandFrame P) (loop' : PaperCommandLoop E) : Prop
  | start (hcreated : loop.state = .created) (hname : frame.command.commandType = .startPaperEngine)
    (hstate : loop'.state = .running) (hprocessed : loop'.processed = 0)
  | submit (hrunning : loop.state = .running) (hname : frame.command.commandType = .submitTargetPortfolio)
    (hstate : loop'.state = .running) (hprocessed : loop'.processed = loop.processed + 1)
  | inspect (hrunning : loop.state = .running) (hname : frame.command.commandType = .inspectEngineRun)
    (hstate : loop'.state = .running) (hprocessed : loop'.processed = loop.processed)
  | stop (hrunning : loop.state = .running) (hname : frame.command.commandType = .stopPaperEngine)
    (hstate : loop'.state = .stopping)
    (hprocessed : loop'.processed = loop.processed + if loop.SettlesTarget frame.command then 1 else 0)

theorem accept_cases (h : loop.accept frame = .ok loop') : loop.Accepts frame loop' := by
  simp only [accept, bind_ok_iff, require_ok_iff, exists_const] at h
  obtain ⟨-, ⟨-, hstate⟩, h⟩ := h
  split_ifs at h with hcreated
  · simp only [bind_ok_iff, require_ok_iff, exists_const, Except.ok.injEq] at h
    obtain ⟨hcommand, session, hstart, rfl⟩ := h
    refine .start hcreated (by rw [hcommand]; rfl) rfl ?_
    change E.processed session.engine = 0
    rw [PaperEngineSession.start_ok hstart, E.processed_created]
  · have hrunning := hstate.resolve_left hcreated
    simp only [acceptRunning, activeSession, bind_ok_iff] at h
    obtain ⟨session, hsession, h⟩ := h
    have hactive : loop.session = some session := by
      cases hopt : loop.session with
      | none => simp [hopt] at hsession
      | some s => simpa [hopt] using hsession
    have hold : loop.processed = E.processed session.engine := by simp [processed, hactive]
    cases hcommand : frame.command with
    | startPaperEngine artifacts => simp [hcommand] at h
    | requestExecutionReconciliation => simp [hcommand] at h
    | submitTargetPortfolio portfolio =>
      simp only [hcommand, bind_ok_iff, require_ok_iff, exists_const, Except.ok.injEq] at h
      obtain ⟨⟨target, session'⟩, hsubmit, -, rfl⟩ := h
      refine .submit hrunning (by rw [hcommand]; rfl) rfl ?_
      rw [hold]
      exact PaperEngineSession.submitTarget_ok hsubmit
    | inspectEngineRun target =>
      simp only [hcommand, bind_ok_iff, require_ok_iff, exists_const, Except.ok.injEq] at h
      obtain ⟨-, session', hinspect, rfl⟩ := h
      refine .inspect hrunning (by rw [hcommand]; rfl) rfl ?_
      rw [hold]
      exact congrArg E.processed (PaperEngineSession.inspect_ok hinspect)
    | stopPaperEngine target =>
      simp only [hcommand, bind_ok_iff, require_ok_iff, exists_const, Except.ok.injEq] at h
      obtain ⟨-, session', hstop, rfl⟩ := h
      refine .stop hrunning (by rw [hcommand]; rfl) rfl ?_
      have hsettles : loop.SettlesTarget frame.command ↔ session.Unsettled := by
        simp [SettlesTarget, hcommand, PaperCommand.commandType, hactive]
      simp only [hsettles, hold]
      exact PaperEngineSession.stop_ok hstop

theorem countCommands_concat (name : PaperCommandName) : countCommands name (frames ++ [frame]) =
      countCommands name frames + if frame.command.commandType = name then 1 else 0 := by
  simp [countCommands, List.countP_append, List.countP_singleton]

theorem not_settlesTarget (h : frame.command.commandType ≠ .stopPaperEngine) :
    ¬ loop.SettlesTarget frame.command := fun hsettles => h hsettles.1

theorem counted_fresh : Counted ([] : List (PaperCommandFrame P)) ({} : PaperCommandLoop E) where
  created _ := ⟨rfl, rfl⟩
  length h := absurd rfl h
  processed := rfl
  stopping := by simp
  running _ := rfl

theorem Counted.accept (h : Counted frames loop)
    (hall : ({} : PaperCommandLoop E).acceptAll frames = .ok loop) (haccept : loop.accept frame = .ok loop') :
    Counted (frames ++ [frame]) loop' := by
  have hexits : exitTargets E (frames ++ [frame]) = _ := exitTargets_concat hall
  have hno (hrunning : loop.state = .running) :
      ¬ ∃ frame ∈ frames, frame.command.commandType = .stopPaperEngine := by
    rw [← h.stopping, hrunning]
    decide
  cases accept_cases haccept with
  | start hcreated hname hstate hprocessed =>
    obtain ⟨rfl, -⟩ := h.created hcreated
    rw [if_neg (not_settlesTarget (by simp [hname]))] at hexits
    constructor
    · intro hcreated'
      simp [hstate] at hcreated'
    · intro _
      simp [hname, hstate, countCommands]
    · rw [hprocessed, hexits]
      simp [hname, countCommands]
    · simp [hstate, hname]
    · exact fun _ => hexits
  | submit hrunning hname hstate hprocessed | inspect hrunning hname hstate hprocessed =>
    have hlength := h.length (by simp [hrunning])
    have hcount := h.processed
    rw [h.running hrunning] at hcount
    rw [if_neg (not_settlesTarget (by simp [hname]))] at hexits
    simp only [hrunning, reduceCtorEq, if_false] at hlength
    constructor
    · intro hcreated'
      simp [hstate] at hcreated'
    · intro _
      simp [countCommands_concat, hname, hstate]
      omega
    · simp [hprocessed, hexits, countCommands_concat, hname]
      omega
    · simpa [hstate, hname] using hno hrunning
    · exact fun _ => hexits
  | stop hrunning hname hstate hprocessed =>
    have hlength := h.length (by simp [hrunning])
    have hcount := h.processed
    rw [h.running hrunning] at hcount
    simp only [hrunning, reduceCtorEq, if_false] at hlength
    constructor
    · intro hcreated'
      simp [hstate] at hcreated'
    · intro _
      simp [countCommands_concat, hname, hstate]
      omega
    · simp only [hprocessed, hexits, countCommands_concat, hname, reduceCtorEq, if_false]
      omega
    · simp [hstate, hname]
    · intro hrunning'
      simp [hstate] at hrunning'

theorem counted (h : ({} : PaperCommandLoop E).acceptAll frames = .ok loop) : Counted frames loop := by
  induction frames using List.reverseRecOn generalizing loop with
  | nil =>
    obtain rfl := Except.ok.inj h
    exact counted_fresh
  | append_singleton frames frame ih =>
    obtain ⟨before, hbefore, haccept⟩ := acceptAll_concat.1 h
    exact (ih hbefore).accept hbefore haccept

end PaperCommandLoop

end TradingAgent.Nautilus
