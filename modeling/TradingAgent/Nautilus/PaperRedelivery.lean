import TradingAgent.Nautilus.PaperRestore

/-! Which redelivered requests a restored session recognizes. -/

namespace TradingAgent.Nautilus

open Outcome PaperSessionJournal PaperRun

variable {P : PaperProtocol} {sessionId ownerId : Uuid} {j k : PaperSessionJournal}
  {commands : List (ReceivedCommand P)}

def acceptedAfter (j : PaperSessionJournal) (commands : List (ReceivedCommand P)) :
    PaperInput P → List (ReceivedCommand P)
  | .command raw => if (j.acceptCommand raw).isOk then commands ++ [raw] else commands
  | _ => commands

variable (P) in
/-- The journals of a session with the commands it has accepted, through any calls and any restarts. -/
inductive Interrupted (sessionId ownerId : Uuid) : PaperSessionJournal → List (ReceivedCommand P) → Prop
  | start : Interrupted sessionId ownerId { sessionId := sessionId, ownerId := ownerId } []
  | call {j : PaperSessionJournal} {commands : List (ReceivedCommand P)} (h : Interrupted sessionId ownerId j commands)
      (input : PaperInput P) :
      Interrupted sessionId ownerId (PaperRun.step ⟨j, []⟩ input).journal (acceptedAfter j commands input)
  | restart {j j' k : PaperSessionJournal} {commands : List (ReceivedCommand P)}
      {authority : CheckpointAuthority} {C : PaperSessionCheckpoint P} (h : Interrupted sessionId ownerId j commands)
      (hcheckpoint : j.checkpoint P authority = some (C, j'))
      (hrestore : restore P C sessionId ownerId authority j.events = .ok k) :
      Interrupted sessionId ownerId k commands

def Delivered (j : PaperSessionJournal) (raw : ReceivedCommand P) : Prop :=
  ∃ frame, raw.frame = .ok frame ∧ j.Identity frame.sessionId frame.ownerId ∧
    frame.commandSequence ≤ j.lastAcceptedCommand

variable {raw : ReceivedCommand P}

theorem Delivered.of_le (h : Delivered j raw) (hsession : k.sessionId = j.sessionId)
    (howner : k.ownerId = j.ownerId) (hle : j.lastAcceptedCommand ≤ k.lastAcceptedCommand) : Delivered k raw := by
  obtain ⟨frame, hframe, hidentity, hsequence⟩ := h
  refine ⟨frame, hframe, ?_, hsequence.trans hle⟩
  unfold Identity
  rw [hsession, howner]
  exact hidentity

theorem step_le (j : PaperSessionJournal) (input : PaperInput P) :
    (PaperRun.step ⟨j, []⟩ input).journal.sessionId = j.sessionId ∧
      (PaperRun.step ⟨j, []⟩ input).journal.ownerId = j.ownerId ∧
      j.lastAcceptedCommand ≤ (PaperRun.step ⟨j, []⟩ input).journal.lastAcceptedCommand := by
  have hmoves := step_moves (⟨j, []⟩ : PaperRun P) input
  generalize PaperRun.step ⟨j, []⟩ input = next at hmoves
  cases hmoves with
  | idle => exact ⟨rfl, rfl, le_rfl⟩
  | reconcile => exact ⟨rfl, rfl, le_rfl⟩
  | command raw frame state _ _ _ hsequence =>
    refine ⟨rfl, rfl, ?_⟩
    show j.lastAcceptedCommand ≤ frame.commandSequence
    rw [hsequence]
    exact Nat.le_succ _
  | event => exact ⟨rfl, rfl, le_rfl⟩
  | acknowledgement => exact ⟨rfl, rfl, le_rfl⟩
  | stop => exact ⟨rfl, rfl, le_rfl⟩

theorem delivered_of_accepted (h : (j.acceptCommand raw).isOk = true) :
    Delivered (PaperRun.step ⟨j, []⟩ (.command raw)).journal raw := by
  obtain ⟨⟨frame, j'⟩, hok⟩ := isOk_iff.1 h
  obtain ⟨-, hframe, hidentity, -, -, -, state, -, rfl⟩ := acceptCommand_ok hok
  unfold PaperRun.step
  dsimp only
  rw [hok]
  exact ⟨frame, hframe, hidentity, le_rfl⟩

theorem Interrupted.delivered (h : Interrupted P sessionId ownerId j commands) : ∀ raw ∈ commands, Delivered j raw := by
  induction h with
  | start => simp
  | @call j commands h input ih =>
    obtain ⟨hsession, howner, hle⟩ := step_le j input
    intro raw hraw
    cases input with
    | command received =>
      unfold acceptedAfter at hraw
      dsimp only at hraw
      split_ifs at hraw with haccepted
      · rcases List.mem_append.1 hraw with hold | hnew
        · exact (ih raw hold).of_le hsession howner hle
        · rw [List.mem_singleton.1 hnew]
          exact delivered_of_accepted haccepted
      · exact (ih raw hraw).of_le hsession howner hle
    | event => exact (ih raw hraw).of_le hsession howner hle
    | acknowledgement => exact (ih raw hraw).of_le hsession howner hle
    | endOfInput => exact (ih raw hraw).of_le hsession howner hle
  | restart h hcheckpoint hrestore ih =>
    obtain ⟨last, -, -, -, hsession, howner, -, haccepted, -⟩ := checkpoint_eq_some hcheckpoint
    obtain ⟨hsession', howner', hsame, hsame', -, haccepted', -⟩ := restore_ok hrestore
    intro raw hraw
    refine (ih raw hraw).of_le ?_ ?_ ?_
    · rw [hsame, hsession', hsession]
    · rw [hsame', howner', howner]
    · rw [haccepted', haccepted]

/-- The journal still knows the request, takes no commands any more, or waits for an acknowledgement. -/
def Shields (j : PaperSessionJournal) (requestId : Uuid) : Prop :=
  requestId ∈ j.requests.keys ∨ j.state.Terminal ∨ j.lastAcknowledgedCommand ≠ j.lastAcceptedCommand

theorem acceptCommand_delivered {frame : PaperCommandFrame P} (hframe : raw.frame = .ok frame)
    (hidentity : j.Identity frame.sessionId frame.ownerId) (hle : frame.commandSequence ≤ j.lastAcceptedCommand) :
    (Shields j frame.requestId → ∃ e, j.acceptCommand raw = .error (e, j)) ∧ (¬ Shields j frame.requestId →
        ∃ e, j.acceptCommand raw = .error (e, j.withState .reconciliationRequired)) := by
  have hid := raw.requestId_of_frame frame hframe
  unfold acceptCommand Shields
  rw [hid, hframe]
  by_cases hknown : frame.requestId ∈ j.requests.keys
  · obtain ⟨known, hget⟩ := Option.isSome_iff_exists.1 ((Dict.mem_keys_iff _ _).1 hknown)
    refine ⟨fun _ => ?_, fun hnot => absurd (.inl hknown) hnot⟩
    have hrefused : ∃ e, j.checkNewRequest (some frame.requestId) raw.sha256 = .error e := by
      unfold checkNewRequest
      rw [Option.bind_some, hget]
      dsimp only
      split_ifs
      · exact ⟨_, rfl⟩
      · exact ⟨_, rfl⟩
    obtain ⟨e, he⟩ := hrefused
    exact ⟨e, by simp [Except.mapError, he]⟩
  · have hnew : j.checkNewRequest (some frame.requestId) raw.sha256 = .ok () := by
      unfold checkNewRequest
      rw [Option.bind_some, (Dict.get?_eq_none_iff _ _).2 hknown]
    have hgap : frame.commandSequence ≠ j.lastAcceptedCommand + 1 := by omega
    simp only [Except.mapError, ok_bind, hnew, require, if_pos hidentity, if_neg hgap]
    by_cases hterminal : j.state.Terminal
    · simp [hterminal, hknown]
    · by_cases hacked : j.lastAcknowledgedCommand = j.lastAcceptedCommand
      · simp [hterminal, hacked, hknown]
      · simp [hterminal, hacked, hknown]

/-- A command that arrives again is refused, and it leaves the journal as it was exactly when the journal
shields against it. -/
theorem redelivery_harmless_iff (sessionId ownerId : Uuid) (j : PaperSessionJournal)
    (commands : List (ReceivedCommand P)) (h : Interrupted P sessionId ownerId j commands)
    (raw : ReceivedCommand P) (hraw : raw ∈ commands) :
    ∃ frame, raw.frame = .ok frame ∧
      ((∃ e, j.acceptCommand raw = .error (e, j)) ↔ Shields j frame.requestId) := by
  obtain ⟨frame, hframe, hidentity, hle⟩ := h.delivered raw hraw
  obtain ⟨hharmless, hharmful⟩ := acceptCommand_delivered hframe hidentity hle
  refine ⟨frame, hframe, fun hunchanged => ?_, hharmless⟩
  by_contra hnot
  obtain ⟨e, he⟩ := hunchanged
  obtain ⟨e', he'⟩ := hharmful hnot
  have hsame := congrArg Prod.snd (Except.error.inj (he.symm.trans he'))
  have hstate : j.state = .reconciliationRequired := congrArg PaperSessionJournal.state hsame
  refine hnot (.inr (.inl ?_))
  rw [hstate]
  exact PaperSessionState.terminal_reconciliationRequired

def acknowledgedSession : List (PaperInput sampleProtocol) :=
  [.command (sampleBytes 0 (.startPaperEngine "")), sampleAck 0 .running,
    .command (sampleBytes 1 (.submitTargetPortfolio "")), sampleAck 1 .running]

def journalAfter (inputs : List (PaperInput sampleProtocol)) : PaperSessionJournal :=
  ((fresh sampleProtocol 1 2).run inputs).journal

theorem interrupted_acknowledged : Interrupted sampleProtocol 1 2 (journalAfter acknowledgedSession)
    [sampleBytes 0 (.startPaperEngine ""), sampleBytes 1 (.submitTargetPortfolio "")] :=
  .call (.call (.call (.call .start (.command (sampleBytes 0 (.startPaperEngine "")))) (sampleAck 0 .running))
    (.command (sampleBytes 1 (.submitTargetPortfolio "")))) (sampleAck 1 .running)

/-- Before the restart the start command is known and arrives again without harm. -/
theorem known_start_is_harmless : ∃ frame, (sampleBytes 0 (.startPaperEngine "")).frame = .ok frame ∧
    ((∃ e, (journalAfter acknowledgedSession).acceptCommand (sampleBytes 0 (.startPaperEngine "")) =
        .error (e, journalAfter acknowledgedSession)) ↔
      Shields (journalAfter acknowledgedSession) frame.requestId) :=
  redelivery_harmless_iff 1 2 _ _ interrupted_acknowledged _ List.mem_cons_self

theorem forgotten_start_strands : ¬ ∀ (P : PaperProtocol) (sessionId ownerId : Uuid) (j : PaperSessionJournal)
    (commands : List (ReceivedCommand P)), Interrupted P sessionId ownerId j commands →
      ∀ raw ∈ commands, ∃ e, j.acceptCommand raw = .error (e, j) := by
  intro h
  have hrun : ((restored acknowledgedSession).any fun r =>
      ((r.2.2.acceptCommand (sampleBytes 0 (.startPaperEngine ""))).toOption.isNone &&
        decide (r.2.2.state = .running)) &&
      (match r.2.2.acceptCommand (sampleBytes 0 (.startPaperEngine "")) with
        | .error e => decide (e.2.state = .reconciliationRequired)
        | .ok _ => false)) = true := by decide +kernel
  obtain ⟨⟨C, j, k⟩, hsome, hrun⟩ := (Option.any_eq_true _ _).1 hrun
  obtain ⟨hcheckpoint, hrestore⟩ := restored_eq_some hsome
  obtain ⟨-, -, -, hj, -⟩ := checkpoint_eq_some hcheckpoint
  have hevents : j.events = (journalAfter acknowledgedSession).events := by
    rw [hj]
    rfl
  rw [hevents] at hrestore
  obtain ⟨e, he⟩ := h sampleProtocol 1 2 k _ (.restart interrupted_acknowledged hcheckpoint hrestore)
    (sampleBytes 0 (.startPaperEngine "")) List.mem_cons_self
  obtain ⟨hbefore, hafter⟩ := Bool.and_eq_true_iff.1 hrun
  rw [he] at hafter
  have hstate := of_decide_eq_true (Bool.and_eq_true_iff.1 hbefore).2
  rw [of_decide_eq_true hafter] at hstate
  cases hstate

end TradingAgent.Nautilus
