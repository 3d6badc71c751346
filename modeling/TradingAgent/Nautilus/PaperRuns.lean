import TradingAgent.Nautilus.Paper

/-! The invariant of a paper session, over any inputs. -/

namespace TradingAgent.Nautilus

open Outcome PaperSessionJournal

variable {P : PaperProtocol}

namespace PaperSessionJournal

variable {j j' : PaperSessionJournal}

theorem acceptCommand_ok {raw : ReceivedCommand P} {frame : PaperCommandFrame P}
    (h : j.acceptCommand raw = .ok (frame, j')) :
    (∃ id, raw.requestId = .ok id ∧ j.checkNewRequest id raw.sha256 = .ok ()) ∧ raw.frame = .ok frame ∧
      j.Identity frame.sessionId frame.ownerId ∧ ¬ j.state.Terminal ∧
      j.lastAcknowledgedCommand = j.lastAcceptedCommand ∧ frame.commandSequence = j.lastAcceptedCommand + 1 ∧
      ∃ state, j.validateCommandState frame.command = .ok state ∧ j' = j.recordCommand P raw.sha256 frame state := by
  simp only [acceptCommand, bind_ok_iff, mapError_ok_iff, require_ok_iff, exists_const] at h
  obtain ⟨id, hid, u, hnew, f, hf, hidentity, hterminal, hacked, hsequence, state, hstate, hres⟩ := h
  obtain ⟨rfl, rfl⟩ := Prod.mk.inj (Except.ok.inj hres)
  exact ⟨⟨id, hid, hnew⟩, hf, hidentity, hterminal, hacked, hsequence, state, hstate, rfl⟩

theorem recordEvent_ok {raw : Except Failure (PaperEventFrame P)} {frame : PaperEventFrame P}
    (h : j.recordEvent raw = .ok (frame, j')) :
    raw = .ok frame ∧ j.Identity frame.sessionId frame.ownerId ∧ j.state ≠ .created ∧ ¬ j.state.Terminal ∧
      ∃ request, j.requests.get? frame.requestId = some request ∧ frame.eventSequence = j.expectedEvent ∧
        (j.lastEmittedEvent = 0 ↔ frame.event.runStarted?.isSome) ∧
        j.EventAllowed request.commandType frame.event ∧ j' = j.appendEvent frame := by
  simp only [recordEvent, bind_ok_iff, mapError_ok_iff, require_ok_iff, exists_const] at h
  obtain ⟨f, hf, hidentity, hcreated, hterminal, h⟩ := h
  split at h
  · cases h
  · rename_i request hrequest
    simp only [bind_ok_iff, require_ok_iff, exists_const] at h
    obtain ⟨hsequence, hfirst, hlater, hallowed, hres⟩ := h
    obtain ⟨rfl, rfl⟩ := Prod.mk.inj (Except.ok.inj hres)
    refine ⟨hf, hidentity, hcreated, hterminal, request, hrequest, hsequence, ⟨hfirst, fun h => ?_⟩, hallowed, rfl⟩
    by_contra hne
    exact hlater hne h

theorem recordAck_ok {raw : Received (PaperCommandAcknowledgement P)}
    {acknowledgement : PaperCommandAcknowledgement P} (h : j.recordAck raw = .ok (acknowledgement, j')) :
    raw.frame = .ok acknowledgement ∧ j.Identity acknowledgement.sessionId acknowledgement.ownerId ∧
      ∃ command, j.requests.get? acknowledgement.requestId = some command ∧
        command.sequence = acknowledgement.commandSequence ∧
        command.digest = acknowledgement.commandDigest ∧
        acknowledgement.commandSequence = j.lastAcknowledgedCommand + 1 ∧
        ∃ state, j.acknowledgedState command acknowledgement = .ok state ∧ j' = { j with
            state := state
            lastAcknowledgedCommand := acknowledgement.commandSequence
            lastAcknowledgementSha256 := raw.sha256 } := by
  simp only [recordAck, bind_ok_iff, mapError_ok_iff, require_ok_iff, exists_const] at h
  obtain ⟨a, ha, hidentity, h⟩ := h
  split at h
  · cases h
  · rename_i command hcommand
    simp only [bind_ok_iff, mapError_ok_iff, require_ok_iff, exists_const] at h
    obtain ⟨hmatch, -, hsequence, state, hstate, hres⟩ := h
    obtain ⟨rfl, rfl⟩ := Prod.mk.inj (Except.ok.inj hres)
    exact ⟨ha, hidentity, command, hcommand, hmatch.1, hmatch.2, hsequence, state, hstate, rfl⟩

theorem endOfInput_ok {u : Unit} (h : j.endOfInput P = .ok (u, j')) :
    0 < j.lastAcceptedCommand ∧ j.StopAcknowledged (P.requestId j.sessionId j.lastAcceptedCommand) ∧
      validateEventStream P.codec j.events = .ok j.events ∧ j' = j.withState .stopped := by
  simp only [endOfInput, paperRequestId, bind_ok_iff, mapError_ok_iff, require_ok_iff, exists_const,
    Except.ok.injEq] at h
  obtain ⟨id, ⟨hpos, rfl⟩, hstop, events, hevents, hres⟩ := h
  obtain ⟨-, rfl⟩ := Prod.mk.inj hres
  refine ⟨hpos, hstop, ?_, rfl⟩
  rw [hevents, validateEventStream_eq hevents]

/-- A failed call leaves the journal as it was, or asks for reconciliation under the given condition. -/
def Disturbs (j : PaperSessionJournal) (gap : Prop) (e : Failure × PaperSessionJournal) : Prop :=
  ¬ (e.2 = j ∨ gap ∧ e.2 = j.withState .reconciliationRequired)

variable {gap : Prop}

theorem not_disturbs_self (e : Failure) : ¬ j.Disturbs gap (e, j) := fun h => h (.inl rfl)

theorem not_disturbs_gap (h : gap) (e : Failure) :
    ¬ j.Disturbs gap (e, j.withState .reconciliationRequired) := fun h' => h' (.inr ⟨h, rfl⟩)

theorem acceptCommand_avoids (raw : ReceivedCommand P) :
    Avoids (j.Disturbs (¬ j.state.Terminal)) (j.acceptCommand raw) := by
  unfold acceptCommand
  refine (avoids_mapError fun e => not_disturbs_self e).bind fun id _ => ?_
  refine (avoids_mapError fun e => not_disturbs_self e).bind fun _ _ => ?_
  refine (avoids_mapError fun e => not_disturbs_self e).bind fun frame _ => ?_
  refine (avoids_require (not_disturbs_self _)).bind fun _ _ => ?_
  refine (avoids_require (not_disturbs_self _)).bind fun _ hterminal => ?_
  refine (avoids_require (not_disturbs_self _)).bind fun _ _ => ?_
  refine (avoids_require (not_disturbs_gap (require_ok_iff.1 hterminal) _)).bind fun _ _ => ?_
  refine (avoids_mapError fun e => not_disturbs_self e).bind fun state _ => ?_
  exact avoids_ok _

theorem recordEvent_avoids (raw : Except Failure (PaperEventFrame P)) :
    Avoids (j.Disturbs (¬ j.state.Terminal)) (j.recordEvent raw) := by
  unfold recordEvent
  refine (avoids_mapError fun e => not_disturbs_self e).bind fun frame _ => ?_
  refine (avoids_require (not_disturbs_self _)).bind fun _ _ => ?_
  refine (avoids_require (not_disturbs_self _)).bind fun _ _ => ?_
  refine (avoids_require (not_disturbs_self _)).bind fun _ hterminal => ?_
  have hgap := require_ok_iff.1 hterminal
  split
  · exact avoids_error (not_disturbs_self _)
  · refine (avoids_require (not_disturbs_gap hgap _)).bind fun _ _ => ?_
    refine (avoids_require (not_disturbs_gap hgap _)).bind fun _ _ => ?_
    refine (avoids_require (not_disturbs_gap hgap _)).bind fun _ _ => ?_
    refine (avoids_require (not_disturbs_gap hgap _)).bind fun _ _ => ?_
    exact avoids_ok _

def AckGap (j : PaperSessionJournal) : Prop :=
  ∃ id command, j.requests.get? id = some command ∧ j.lastAcknowledgedCommand + 1 < command.sequence

theorem recordAck_avoids (raw : Received (PaperCommandAcknowledgement P)) :
    Avoids (j.Disturbs j.AckGap) (j.recordAck raw) := by
  unfold recordAck
  refine (avoids_mapError fun e => not_disturbs_self e).bind fun acknowledgement _ => ?_
  refine (avoids_require (not_disturbs_self _)).bind fun _ _ => ?_
  split
  · exact avoids_error (not_disturbs_self _)
  · rename_i command hcommand
    refine (avoids_require (not_disturbs_self _)).bind fun _ hmatch => ?_
    refine (avoids_require (not_disturbs_self _)).bind fun _ hlater => ?_
    rw [avoids_bind_iff]
    constructor
    · intro e he hbad
      have hmatch := (require_ok_iff.1 hmatch).1
      have hlater := require_ok_iff.1 hlater
      unfold require at he
      split_ifs at he with hgap
      obtain rfl := Except.error.inj he
      exact hbad (.inr ⟨⟨_, command, hcommand, by omega⟩, rfl⟩)
    · intro _ _
      refine (avoids_mapError fun e => not_disturbs_self e).bind fun state _ => ?_
      exact avoids_ok _

theorem endOfInput_avoids : Avoids (j.Disturbs (¬ j.state.Terminal)) (j.endOfInput P) := by
  unfold endOfInput
  refine (avoids_mapError fun e => not_disturbs_self e).bind fun id _ => ?_
  rw [avoids_bind_iff]
  constructor
  · split_ifs with hterminal
    · exact avoids_require (not_disturbs_self _)
    · exact avoids_require (not_disturbs_gap hterminal _)
  · intro _ hstop
    have hgap : ¬ j.state.Terminal := by
      rw [(require_ok_iff.1 hstop).1]
      decide
    refine (avoids_mapError fun e => not_disturbs_gap hgap _).bind fun events _ => ?_
    exact avoids_ok _

theorem journal_cases {α : Type} {x : Attempt (α × PaperSessionJournal)} (h : Avoids (j.Disturbs gap) x) :
    (∃ a j', x = .ok (a, j')) ∨ (∃ e, x = .error (e, j)) ∨
      (gap ∧ ∃ e, x = .error (e, j.withState .reconciliationRequired)) := by
  cases x with
  | ok r => exact .inl ⟨r.1, r.2, rfl⟩
  | error e =>
    rcases not_not.1 (h e rfl) with he | ⟨hgap, he⟩
    · exact .inr (.inl ⟨e.1, by rw [← he]⟩)
    · exact .inr (.inr ⟨hgap, e.1, by rw [← he]⟩)

end PaperSessionJournal

variable (P) in
/-- What a session can receive. -/
inductive PaperInput
  | command (raw : ReceivedCommand P)
  | event (raw : Except Failure (PaperEventFrame P))
  | acknowledgement (raw : Received (PaperCommandAcknowledgement P))
  | endOfInput

variable (P) in
inductive LogEntry
  | command (frame : PaperCommandFrame P)
  | event (frame : PaperEventFrame P)
  | acknowledgement (frame : PaperCommandAcknowledgement P)

variable (P) in
/-- A journal and what was logged. -/
structure PaperRun where
  journal : PaperSessionJournal
  log : List (LogEntry P) := []

namespace PaperRun

def keep {α : Type} (run : PaperRun P) (entry : α → List (LogEntry P)) :
    Attempt (α × PaperSessionJournal) → PaperRun P
  | .ok (a, j) => ⟨j, run.log ++ entry a⟩
  | .error (_, j) => ⟨j, run.log⟩

def step (run : PaperRun P) : PaperInput P → PaperRun P
  | .command raw => run.keep (fun frame => [.command frame]) (run.journal.acceptCommand raw)
  | .event raw => run.keep (fun frame => [.event frame]) (run.journal.recordEvent raw)
  | .acknowledgement raw => run.keep (fun frame => [.acknowledgement frame]) (run.journal.recordAck raw)
  | .endOfInput => run.keep (fun _ => []) (run.journal.endOfInput P)

def run (start : PaperRun P) (inputs : List (PaperInput P)) : PaperRun P := inputs.foldl step start

variable (P) in
/-- A new session. -/
def fresh (sessionId ownerId : Uuid) : PaperRun P := ⟨{ sessionId := sessionId, ownerId := ownerId }, []⟩

/-- The commands that the journal accepted, in order. -/
def loggedCommands (log : List (LogEntry P)) : List (PaperCommandFrame P) :=
  log.filterMap fun entry =>
    match entry with
    | .command frame => some frame
    | _ => none

def loggedEvents (log : List (LogEntry P)) : List P1Event :=
  log.filterMap fun entry =>
    match entry with
    | .event frame => some frame.event
    | _ => none

def loggedAcknowledgements (log : List (LogEntry P)) : List (PaperCommandAcknowledgement P) :=
  log.filterMap fun entry =>
    match entry with
    | .acknowledgement frame => some frame
    | _ => none

theorem run_concat (start : PaperRun P) (inputs : List (PaperInput P)) (input : PaperInput P) :
    start.run (inputs ++ [input]) = (start.run inputs).step input := by
  simp [run]

theorem run_append (start : PaperRun P) (inputs more : List (PaperInput P)) :
    start.run (inputs ++ more) = (start.run inputs).run more := by
  simp [run]

structure Sound (run : PaperRun P) : Prop where
  commands_eq : (loggedCommands run.log).map PaperCommandFrame.commandSequence =
    List.range' 1 run.journal.lastAcceptedCommand
  acknowledgements_eq : (loggedAcknowledgements run.log).map PaperCommandAcknowledgement.commandSequence =
    List.range' 1 run.journal.lastAcknowledgedCommand
  events_eq : run.journal.events = loggedEvents run.log
  acknowledged_le : run.journal.lastAcknowledgedCommand ≤ run.journal.lastAcceptedCommand
  accepted_le : run.journal.lastAcceptedCommand ≤ run.journal.lastAcknowledgedCommand + 1
  requests_known : ∀ id command, run.journal.requests.get? id = some command →
    command.sequence ≤ run.journal.lastAcceptedCommand ∧ ¬ command.expectedAckState.Terminal
  last_known : ∀ frame ∈ (loggedCommands run.log).getLast?,
    (run.journal.requests.get? (P.requestId run.journal.sessionId run.journal.lastAcceptedCommand)).map
      AcceptedCommand.commandType = some frame.command.commandType
  stop_known : ∀ id command, run.journal.requests.get? id = some command →
    command.commandType = .stopPaperEngine → ∃ frame ∈ loggedCommands run.log, frame.command.commandType = .stopPaperEngine
  stop_state : ∀ frame ∈ loggedCommands run.log, frame.command.commandType = .stopPaperEngine →
    run.journal.state = .stopping ∨ run.journal.state.Terminal
  stopped : run.journal.state = .stopped → 0 < run.journal.lastAcceptedCommand ∧
    run.journal.lastAcknowledgedCommand = run.journal.lastAcceptedCommand ∧
    (run.journal.requests.get? (P.requestId run.journal.sessionId run.journal.lastAcceptedCommand)).map
      AcceptedCommand.commandType = some .stopPaperEngine ∧
    validateEventStream P.codec run.journal.events = .ok run.journal.events

inductive Moves (run : PaperRun P) : PaperInput P → PaperRun P → Prop
  | idle (input : PaperInput P) : Moves run input run
  | reconcile (input : PaperInput P) (h : ¬ run.journal.state.Terminal ∨ run.journal.AckGap) :
    Moves run input ⟨run.journal.withState .reconciliationRequired, run.log⟩
  | command (raw : ReceivedCommand P) (frame : PaperCommandFrame P) (state : PaperSessionState)
    (hidentity : run.journal.Identity frame.sessionId frame.ownerId) (hterminal : ¬ run.journal.state.Terminal)
    (hacked : run.journal.lastAcknowledgedCommand = run.journal.lastAcceptedCommand)
    (hsequence : frame.commandSequence = run.journal.lastAcceptedCommand + 1)
    (hstate : run.journal.validateCommandState frame.command = .ok state) :
    Moves run (.command raw) ⟨run.journal.recordCommand P raw.sha256 frame state, run.log ++ [.command frame]⟩
  | event (frame : PaperEventFrame P) (request : AcceptedCommand) (hterminal : ¬ run.journal.state.Terminal)
    (hrequest : run.journal.requests.get? frame.requestId = some request)
    (hallowed : run.journal.EventAllowed request.commandType frame.event) :
    Moves run (.event (.ok frame)) ⟨run.journal.appendEvent frame, run.log ++ [.event frame]⟩
  | acknowledgement (raw : Received (PaperCommandAcknowledgement P))
    (frame : PaperCommandAcknowledgement P) (id : Uuid) (command : AcceptedCommand)
    (hcommand : run.journal.requests.get? id = some command)
    (hmatch : command.sequence = frame.commandSequence)
    (hsequence : frame.commandSequence = run.journal.lastAcknowledgedCommand + 1)
    (hstate : run.journal.acknowledgedState command frame = .ok frame.state) :
    Moves run (.acknowledgement raw) ⟨{ run.journal with
        state := frame.state
        lastAcknowledgedCommand := frame.commandSequence
        lastAcknowledgementSha256 := raw.sha256 }, run.log ++ [.acknowledgement frame]⟩
  | stop (hpos : 0 < run.journal.lastAcceptedCommand)
    (hstop : run.journal.StopAcknowledged
      (P.requestId run.journal.sessionId run.journal.lastAcceptedCommand))
    (hstream : validateEventStream P.codec run.journal.events = .ok run.journal.events) :
    Moves run .endOfInput ⟨run.journal.withState .stopped, run.log⟩

end PaperRun

variable {state : PaperSessionState}

theorem PaperSessionJournal.acknowledgedState_ok {j : PaperSessionJournal} {command : AcceptedCommand}
    {acknowledgement : PaperCommandAcknowledgement P} (h : j.acknowledgedState command acknowledgement = .ok state) :
    state = acknowledgement.state ∧ (state = command.expectedAckState ∧ state = j.state ∨
        (state = command.expectedAckState ∨ state = .failed ∨ state = .reconciliationRequired) ∧
          state ∈ j.state.transitions) := by
  unfold acknowledgedState at h
  split_ifs at h with haccepted hsame
  · simp only [bind_ok_iff, require_ok_iff, exists_const, Except.ok.injEq] at h
    obtain ⟨hexpected, rfl⟩ := h
    exact ⟨hsame.symm, .inl ⟨hsame ▸ hexpected, rfl⟩⟩
  · simp only [transition, bind_ok_iff, require_ok_iff, exists_const, Except.ok.injEq] at h
    obtain ⟨hexpected, hmem, rfl⟩ := h
    exact ⟨rfl, .inr ⟨.inl hexpected, hmem⟩⟩
  · simp only [transition, bind_ok_iff, require_ok_iff, exists_const, Except.ok.injEq] at h
    obtain ⟨hfailed, hmem, rfl⟩ := h
    exact ⟨rfl, .inr ⟨.inr hfailed, hmem⟩⟩

theorem PaperSessionJournal.acknowledgedState_accepted {j : PaperSessionJournal} {command : AcceptedCommand}
    {acknowledgement : PaperCommandAcknowledgement P}
    (h : j.acknowledgedState command acknowledgement = .ok state) (haccepted : acknowledgement.accepted = true) :
    acknowledgement.state = command.expectedAckState := by
  rw [acknowledgedState, if_pos haccepted, bind_ok_iff] at h
  obtain ⟨_, hexpected, -⟩ := h
  exact require_ok_iff.1 hexpected

namespace PaperRun

variable {run next : PaperRun P} {input : PaperInput P}

theorem keep_cases {α : Type} {x : Attempt (α × PaperSessionJournal)} {gap : Prop}
    {entry : α → List (LogEntry P)} (h : Avoids (run.journal.Disturbs gap) x) :
    (∃ a j', x = .ok (a, j') ∧ run.keep entry x = ⟨j', run.log ++ entry a⟩) ∨ run.keep entry x = run ∨
      gap ∧ run.keep entry x = ⟨run.journal.withState .reconciliationRequired, run.log⟩ := by
  rcases journal_cases h with ⟨a, j', rfl⟩ | ⟨e, rfl⟩ | ⟨hgap, e, rfl⟩
  · exact .inl ⟨a, j', rfl, rfl⟩
  · exact .inr (.inl rfl)
  · exact .inr (.inr ⟨hgap, rfl⟩)

theorem step_moves (run : PaperRun P) (input : PaperInput P) : Moves run input (run.step input) := by
  cases input with
  | command raw =>
    rcases keep_cases (acceptCommand_avoids (j := run.journal) raw) with
      ⟨frame, j', hok, hkeep⟩ | hkeep | ⟨hgap, hkeep⟩
    · obtain ⟨-, -, hidentity, hterminal, hacked, hsequence, state, hstate, rfl⟩ := acceptCommand_ok hok
      rw [step, hkeep]
      exact .command raw frame state hidentity hterminal hacked hsequence hstate
    · rw [step, hkeep]
      exact .idle _
    · rw [step, hkeep]
      exact .reconcile _ (.inl hgap)
  | event raw =>
    rcases keep_cases (recordEvent_avoids (j := run.journal) raw) with
      ⟨frame, j', hok, hkeep⟩ | hkeep | ⟨hgap, hkeep⟩
    · obtain ⟨rfl, -, -, hterminal, request, hrequest, -, -, hallowed, rfl⟩ := recordEvent_ok hok
      rw [step, hkeep]
      exact .event frame request hterminal hrequest hallowed
    · rw [step, hkeep]
      exact .idle _
    · rw [step, hkeep]
      exact .reconcile _ (.inl hgap)
  | acknowledgement raw =>
    rcases keep_cases (recordAck_avoids (j := run.journal) raw) with
      ⟨frame, j', hok, hkeep⟩ | hkeep | ⟨hgap, hkeep⟩
    · obtain ⟨-, -, command, hcommand, hmatch, -, hsequence, state, hstate, rfl⟩ := recordAck_ok hok
      obtain rfl := (acknowledgedState_ok hstate).1
      rw [step, hkeep]
      exact .acknowledgement raw frame _ command hcommand hmatch hsequence hstate
    · rw [step, hkeep]
      exact .idle _
    · rw [step, hkeep]
      exact .reconcile _ (.inr hgap)
  | endOfInput =>
    rcases keep_cases (endOfInput_avoids (P := P) (j := run.journal)) with
      ⟨u, j', hok, hkeep⟩ | hkeep | ⟨hgap, hkeep⟩
    · obtain ⟨hpos, hstop, hstream, rfl⟩ := endOfInput_ok hok
      rw [step, hkeep, List.append_nil]
      exact .stop hpos hstop hstream
    · rw [step, hkeep]
      exact .idle _
    · rw [step, hkeep]
      exact .reconcile _ (.inl hgap)

end PaperRun

theorem PaperSessionJournal.validateCommandState_ok {j : PaperSessionJournal} {command : PaperCommand}
    (h : j.validateCommandState command = .ok state) (hterminal : ¬ j.state.Terminal) :
    ¬ state.Terminal ∧ (j.state = .stopping → state = .stopping) ∧
      (command.commandType = .stopPaperEngine → state = .stopping) := by
  cases command with
  | startPaperEngine artifacts =>
    simp only [validateCommandState, bind_ok_iff, require_ok_iff, exists_const, Except.ok.injEq] at h
    obtain ⟨hcreated, rfl⟩ := h
    exact ⟨by decide, fun hs => absurd (hcreated.symm.trans hs) (by decide),
      fun hs => absurd hs (by simp [PaperCommand.commandType])⟩
  | submitTargetPortfolio portfolio =>
    simp only [validateCommandState, bind_ok_iff, require_ok_iff, exists_const, Except.ok.injEq] at h
    obtain ⟨-, rfl⟩ := h
    exact ⟨hterminal, id, fun hs => absurd hs (by simp [PaperCommand.commandType])⟩
  | stopPaperEngine target =>
    simp only [validateCommandState, bind_ok_iff, require_ok_iff, exists_const, Except.ok.injEq] at h
    obtain ⟨-, -, rfl⟩ := h
    exact ⟨by decide, fun _ => rfl, fun _ => rfl⟩
  | inspectEngineRun target =>
    simp only [validateCommandState, bind_ok_iff, require_ok_iff, exists_const, Except.ok.injEq] at h
    obtain ⟨-, rfl⟩ := h
    exact ⟨hterminal, id, fun hs => absurd hs (by simp [PaperCommand.commandType])⟩
  | requestExecutionReconciliation =>
    obtain rfl := Except.ok.inj h
    exact ⟨hterminal, id, fun hs => absurd hs (by simp [PaperCommand.commandType])⟩

theorem PaperSessionState.terminal_stopped : PaperSessionState.stopped.Terminal := by decide

theorem PaperSessionState.terminal_reconciliationRequired :
    PaperSessionState.reconciliationRequired.Terminal := by decide

theorem PaperSessionState.Terminal.not_mem_transitions {next : PaperSessionState} (h : state.Terminal) :
    next ∉ state.transitions := by
  cases state <;> first | exact absurd h (by decide) | simp [PaperSessionState.transitions]

theorem PaperSessionState.terminal_of_mem_transitions_stopping {next : PaperSessionState}
    (h : next ∈ PaperSessionState.stopping.transitions) : next.Terminal := by
  cases next <;> first | decide | exact absurd h (by decide)

namespace PaperRun

variable {run next : PaperRun P} {input : PaperInput P}

section

variable (log : List (LogEntry P))

@[simp] theorem loggedCommands_command (frame : PaperCommandFrame P) :
    loggedCommands (log ++ [.command frame]) = loggedCommands log ++ [frame] := by
  simp [loggedCommands]

@[simp] theorem loggedCommands_event (frame : PaperEventFrame P) :
    loggedCommands (log ++ [.event frame]) = loggedCommands log := by
  simp [loggedCommands]

@[simp] theorem loggedCommands_acknowledgement (frame : PaperCommandAcknowledgement P) :
    loggedCommands (log ++ [.acknowledgement frame]) = loggedCommands log := by
  simp [loggedCommands]

@[simp] theorem loggedEvents_command (frame : PaperCommandFrame P) :
    loggedEvents (log ++ [.command frame]) = loggedEvents log := by
  simp [loggedEvents]

@[simp] theorem loggedEvents_event (frame : PaperEventFrame P) :
    loggedEvents (log ++ [.event frame]) = loggedEvents log ++ [frame.event] := by
  simp [loggedEvents]

@[simp] theorem loggedEvents_acknowledgement (frame : PaperCommandAcknowledgement P) :
    loggedEvents (log ++ [.acknowledgement frame]) = loggedEvents log := by
  simp [loggedEvents]

@[simp] theorem loggedAcknowledgements_command (frame : PaperCommandFrame P) :
    loggedAcknowledgements (log ++ [.command frame]) = loggedAcknowledgements log := by
  simp [loggedAcknowledgements]

@[simp] theorem loggedAcknowledgements_event (frame : PaperEventFrame P) :
    loggedAcknowledgements (log ++ [.event frame]) = loggedAcknowledgements log := by
  simp [loggedAcknowledgements]

@[simp] theorem loggedAcknowledgements_acknowledgement (frame : PaperCommandAcknowledgement P) :
    loggedAcknowledgements (log ++ [.acknowledgement frame]) = loggedAcknowledgements log ++ [frame] := by
  simp [loggedAcknowledgements]

end

theorem sound_fresh (sessionId ownerId : Uuid) : Sound (fresh P sessionId ownerId) where
  commands_eq := rfl
  acknowledgements_eq := rfl
  events_eq := rfl
  acknowledged_le := le_rfl
  accepted_le := Nat.zero_le _
  requests_known := by
    intro id command h
    simp [fresh] at h
  last_known := by
    intro frame h
    simp [fresh, loggedCommands] at h
  stop_known := by
    intro id command h
    simp [fresh] at h
  stop_state := by
    intro frame h
    simp [fresh, loggedCommands] at h
  stopped := by
    intro h
    cases h

variable (h : Sound run)
include h

theorem Sound.not_ackGap : ¬ run.journal.AckGap := by
  rintro ⟨id, command, hcommand, hgap⟩
  have h1 := (h.requests_known id command hcommand).1
  have h2 := h.accepted_le
  omega

theorem Sound.reconcile : Sound ⟨run.journal.withState .reconciliationRequired, run.log⟩ where
  commands_eq := h.commands_eq
  acknowledgements_eq := h.acknowledgements_eq
  events_eq := h.events_eq
  acknowledged_le := h.acknowledged_le
  accepted_le := h.accepted_le
  requests_known := h.requests_known
  last_known := h.last_known
  stop_known := h.stop_known
  stop_state := fun _ _ _ => .inr PaperSessionState.terminal_reconciliationRequired
  stopped := by
    intro hs
    cases hs

theorem Sound.command {frame : PaperCommandFrame P} (sha256 : Sha256Hex)
    (hidentity : run.journal.Identity frame.sessionId frame.ownerId) (hterminal : ¬ run.journal.state.Terminal)
    (hacked : run.journal.lastAcknowledgedCommand = run.journal.lastAcceptedCommand)
    (hsequence : frame.commandSequence = run.journal.lastAcceptedCommand + 1)
    (hstate : run.journal.validateCommandState frame.command = .ok state) :
    Sound ⟨run.journal.recordCommand P sha256 frame state, run.log ++ [.command frame]⟩ := by
  obtain ⟨hnot, hstays, hstops⟩ := validateCommandState_ok hstate hterminal
  have hid : frame.requestId = P.requestId run.journal.sessionId frame.commandSequence := by
    rw [frame.request_matches, hidentity.1]
  constructor
  · simp only [loggedCommands_command, List.map_append, List.map_cons, List.map_nil, h.commands_eq,
      recordCommand, hsequence]
    rw [List.range'_concat]
    simp [add_comm]
  · rw [loggedAcknowledgements_command]
    exact h.acknowledgements_eq
  · rw [loggedEvents_command]
    exact h.events_eq
  · simp only [recordCommand]
    omega
  · simp only [recordCommand]
    omega
  · intro id command hcommand
    simp only [recordCommand, Dict.get?_set] at hcommand ⊢
    split_ifs at hcommand with heq
    · obtain rfl := Option.some.inj hcommand
      refine ⟨le_rfl, ?_⟩
      simp only [expectedAckState]
      split_ifs
      · decide
      · exact hnot
    · obtain ⟨hle, hexpected⟩ := h.requests_known id command hcommand
      exact ⟨by omega, hexpected⟩
  · intro last hlast
    simp only [loggedCommands_command, List.getLast?_append, List.getLast?_singleton, Option.some_or,
      Option.mem_def, Option.some.injEq] at hlast
    subst hlast
    simp only [recordCommand, ← hid, Dict.get?_set_self, Option.map_some]
  · intro id command hcommand htype
    simp only [recordCommand, Dict.get?_set] at hcommand
    simp only [loggedCommands_command]
    split_ifs at hcommand with heq
    · obtain rfl := Option.some.inj hcommand
      exact ⟨frame, by simp, htype⟩
    · obtain ⟨known, hknown, hstop⟩ := h.stop_known id command hcommand htype
      exact ⟨known, List.mem_append_left _ hknown, hstop⟩
  · intro known hknown htype
    simp only [loggedCommands_command, List.mem_append, List.mem_singleton] at hknown
    rcases hknown with hknown | rfl
    · left
      exact hstays ((h.stop_state known hknown htype).resolve_right hterminal)
    · left
      exact hstops htype
  · intro hs
    exact absurd (show state.Terminal by rw [show state = .stopped from hs]; decide) hnot

theorem Sound.event {frame : PaperEventFrame P} (hterminal : ¬ run.journal.state.Terminal) :
    Sound ⟨run.journal.appendEvent frame, run.log ++ [.event frame]⟩ where
  commands_eq := by
    rw [loggedCommands_event]
    exact h.commands_eq
  acknowledgements_eq := by
    rw [loggedAcknowledgements_event]
    exact h.acknowledgements_eq
  events_eq := by
    simp only [loggedEvents_event, appendEvent]
    rw [h.events_eq]
  acknowledged_le := h.acknowledged_le
  accepted_le := h.accepted_le
  requests_known := h.requests_known
  last_known := by
    rw [loggedCommands_event]
    exact h.last_known
  stop_known := by
    rw [loggedCommands_event]
    exact h.stop_known
  stop_state := by
    rw [loggedCommands_event]
    exact h.stop_state
  stopped := fun hs => absurd (show run.journal.state.Terminal by
    rw [show run.journal.state = .stopped from hs]; decide) hterminal

theorem Sound.acknowledgement {frame : PaperCommandAcknowledgement P} {id : Uuid}
    {command : AcceptedCommand} (sha256 : Sha256Hex)
    (hcommand : run.journal.requests.get? id = some command)
    (hmatch : command.sequence = frame.commandSequence)
    (hsequence : frame.commandSequence = run.journal.lastAcknowledgedCommand + 1)
    (hstate : run.journal.acknowledgedState command frame = .ok frame.state) :
    ¬ run.journal.state.Terminal ∧ Sound ⟨{ run.journal with
        state := frame.state
        lastAcknowledgedCommand := frame.commandSequence
        lastAcknowledgementSha256 := sha256 }, run.log ++ [.acknowledgement frame]⟩ := by
  obtain ⟨hle, hexpected⟩ := h.requests_known id command hcommand
  obtain ⟨-, hverdict⟩ := acknowledgedState_ok hstate
  have hterminal : ¬ run.journal.state.Terminal := by
    intro ht
    rcases hverdict with ⟨he, hs⟩ | ⟨-, hmem⟩
    · exact hexpected (he ▸ hs ▸ ht)
    · exact ht.not_mem_transitions hmem
  refine ⟨hterminal, ?_⟩
  constructor
  · simpa only [loggedCommands_acknowledgement] using h.commands_eq
  · simp only [loggedAcknowledgements_acknowledgement, List.map_append, List.map_cons, List.map_nil,
      h.acknowledgements_eq, hsequence]
    rw [List.range'_concat]
    simp [add_comm]
  · simpa only [loggedEvents_acknowledgement] using h.events_eq
  · simp only
    omega
  · have := h.acknowledged_le
    have := h.accepted_le
    simp only
    omega
  · exact h.requests_known
  · simpa only [loggedCommands_acknowledgement] using h.last_known
  · simpa only [loggedCommands_acknowledgement] using h.stop_known
  · intro known hknown htype
    simp only [loggedCommands_acknowledgement] at hknown
    have hstopping := (h.stop_state known hknown htype).resolve_right hterminal
    rcases hverdict with ⟨-, hs⟩ | ⟨-, hmem⟩
    · left
      exact hs.trans hstopping
    · right
      rw [hstopping] at hmem
      exact PaperSessionState.terminal_of_mem_transitions_stopping hmem
  · intro hs
    have hs : frame.state = .stopped := hs
    rcases hverdict with ⟨he, -⟩ | ⟨he | he | he, -⟩
    · exact absurd (show command.expectedAckState.Terminal by rw [← he, hs]; decide) hexpected
    · exact absurd (show command.expectedAckState.Terminal by rw [← he, hs]; decide) hexpected
    · exact absurd (hs.symm.trans he) (by decide)
    · exact absurd (hs.symm.trans he) (by decide)

theorem Sound.stop (hpos : 0 < run.journal.lastAcceptedCommand)
    (hstop : run.journal.StopAcknowledged (P.requestId run.journal.sessionId run.journal.lastAcceptedCommand))
    (hstream : validateEventStream P.codec run.journal.events = .ok run.journal.events) :
    Sound ⟨run.journal.withState .stopped, run.log⟩ where
  commands_eq := h.commands_eq
  acknowledgements_eq := h.acknowledgements_eq
  events_eq := h.events_eq
  acknowledged_le := h.acknowledged_le
  accepted_le := h.accepted_le
  requests_known := h.requests_known
  last_known := h.last_known
  stop_known := h.stop_known
  stop_state := fun _ _ _ => .inr PaperSessionState.terminal_stopped
  stopped := fun _ => ⟨hpos, hstop.2.2, hstop.2.1, hstream⟩

theorem Sound.moves (hmove : Moves run input next) : Sound next := by
  cases hmove with
  | idle => exact h
  | reconcile => exact h.reconcile
  | command raw frame state hidentity hterminal hacked hsequence hstate =>
    exact h.command raw.sha256 hidentity hterminal hacked hsequence hstate
  | event frame request hterminal => exact h.event hterminal
  | acknowledgement raw frame id command hcommand hmatch hsequence hstate =>
    exact (h.acknowledgement raw.sha256 hcommand hmatch hsequence hstate).2
  | stop hpos hstop hstream => exact h.stop hpos hstop hstream

omit h

theorem sound_run (sessionId ownerId : Uuid) (inputs : List (PaperInput P)) :
    Sound ((fresh P sessionId ownerId).run inputs) := by
  induction inputs using List.reverseRecOn with
  | nil => exact sound_fresh sessionId ownerId
  | append_singleton inputs input ih =>
    rw [run_concat]
    exact ih.moves (step_moves _ input)

theorem Sound.terminal_moves (h : Sound run) (hterminal : run.journal.state.Terminal)
    (hmove : Moves run input next) : next = run := by
  cases hmove with
  | idle => rfl
  | reconcile input hgap => exact absurd hterminal (hgap.resolve_right h.not_ackGap)
  | command raw frame state hidentity hnot => exact absurd hterminal hnot
  | event frame request hnot => exact absurd hterminal hnot
  | acknowledgement raw frame id command hcommand hmatch hsequence hstate =>
    exact absurd hterminal (h.acknowledgement raw.sha256 hcommand hmatch hsequence hstate).1
  | stop hpos hstop =>
    rw [hstop.1] at hterminal
    exact absurd hterminal (by decide)

theorem Sound.terminal_run (h : Sound run) (hterminal : run.journal.state.Terminal)
    (inputs : List (PaperInput P)) : run.run inputs = run := by
  induction inputs using List.reverseRecOn with
  | nil => rfl
  | append_singleton inputs input ih =>
    rw [run_concat, ih]
    exact h.terminal_moves hterminal (step_moves run input)

/-- A command (`true`) or an acknowledgement, by its number. -/
def turn? : LogEntry P → Option (ℕ × Bool)
  | .command frame => some (frame.commandSequence, true)
  | .acknowledgement frame => some (frame.commandSequence, false)
  | .event _ => none

/-- The commands up to a number, each acknowledged before the next. -/
def exchanges (acknowledged : ℕ) : List (ℕ × Bool) :=
  (List.range' 1 acknowledged).flatMap fun n => [(n, true), (n, false)]

/-- Commands and acknowledgements take turns. -/
def Alternates (run : PaperRun P) : Prop :=
  run.log.filterMap turn? = exchanges run.journal.lastAcknowledgedCommand ++
    if run.journal.lastAcceptedCommand = run.journal.lastAcknowledgedCommand then []
    else [(run.journal.lastAcceptedCommand, true)]

theorem Sound.alternates (h : Sound run) (ha : Alternates run) (hmove : Moves run input next) : Alternates next := by
  unfold Alternates at *
  cases hmove with
  | idle | reconcile | stop => exact ha
  | event frame =>
    rw [List.filterMap_append]
    exact (List.append_nil _).trans ha
  | command raw frame state _ _ hacked hsequence =>
    have hnew : frame.commandSequence ≠ run.journal.lastAcknowledgedCommand := by omega
    rw [if_pos hacked.symm, List.append_nil] at ha
    rw [List.filterMap_append, ha]
    exact congrArg _ (if_neg hnew).symm
  | acknowledgement raw frame id command hcommand hmatch hsequence =>
    have hle := (h.requests_known id command hcommand).1
    have hone := h.accepted_le
    have hlast : run.journal.lastAcceptedCommand = frame.commandSequence := by omega
    rw [hlast, if_neg (by omega)] at ha
    rw [List.filterMap_append, ha]
    show _ = exchanges frame.commandSequence ++ if run.journal.lastAcceptedCommand = frame.commandSequence then _ else _
    rw [if_pos hlast, List.append_nil, hsequence, exchanges, exchanges, List.range'_concat, List.flatMap_append]
    simp [turn?, hsequence, add_comm]

/-- Whatever arrives in whatever order, the accepted commands are numbered from one on, and each is acknowledged before
the next is accepted. -/
theorem conversation_alternates (sessionId ownerId : Uuid) (inputs : List (PaperInput P)) :
    Alternates ((fresh P sessionId ownerId).run inputs) := by
  induction inputs using List.reverseRecOn with
  | nil => rfl
  | append_singleton inputs input ih =>
    rw [run_concat]
    exact (sound_run sessionId ownerId inputs).alternates ih (step_moves _ input)

end PaperRun

end TradingAgent.Nautilus
