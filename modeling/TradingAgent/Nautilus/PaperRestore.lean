import TradingAgent.Nautilus.PaperStop

/-! A restored session against the session that was not interrupted. -/

namespace TradingAgent.Nautilus

open Outcome PaperSessionJournal PaperRun

variable (P : PaperProtocol)

/-- What a session keeps of its journal. -/
@[ext] structure PaperSessionCheckpoint where
  (sessionId ownerId : Uuid)
  state : PaperSessionState
  lastAcceptedCommand : ℕ
  lastRequestId : Uuid
  lastCommandType : PaperCommandName
  (lastCommandFrameSha256 lastCommandDigest : Sha256Hex)
  lastEmittedEvent : ℕ
  (lastEventDigest eventPrefixSha256 : Sha256Hex)
  lastAcknowledgedCommand : ℕ
  (lastAcknowledgementSha256 semanticStateHash childIdentity closureDigest portfolioStateHash : Sha256Hex)
  accepted_pos : 0 < lastAcceptedCommand
  request_matches : lastRequestId = P.requestId sessionId lastAcceptedCommand
  acknowledged_le : lastAcknowledgedCommand ≤ lastAcceptedCommand
  accepted_le : lastAcceptedCommand - lastAcknowledgedCommand ≤ 1

/-- The authority that a checkpoint is bound to, beside session and owner. -/
structure CheckpointAuthority where
  (semanticStateHash childIdentity closureDigest portfolioStateHash : Sha256Hex)
  deriving DecidableEq

def eventPrefixSha256 (events : List P1Event) : Sha256Hex :=
  if events = [] then zeroDigest
  else P.codec.documentsDigest (events.map fun event => canonicalDocument event.document)

namespace PaperSessionJournal

/-- `checkpoint`; `none` when it raises: there is no command yet, or the model refuses the prefixes. -/
def checkpoint (j : PaperSessionJournal) (authority : CheckpointAuthority) :
    Option (PaperSessionCheckpoint P × PaperSessionJournal) := do
  let last ← j.requests.get? (P.requestId j.sessionId j.lastAcceptedCommand)
  if h : 0 < j.lastAcceptedCommand ∧ j.lastAcknowledgedCommand ≤ j.lastAcceptedCommand ∧
      j.lastAcceptedCommand - j.lastAcknowledgedCommand ≤ 1 then
    some (
      { sessionId := j.sessionId
        ownerId := j.ownerId
        state := j.state
        lastAcceptedCommand := j.lastAcceptedCommand
        lastRequestId := P.requestId j.sessionId j.lastAcceptedCommand
        lastCommandType := last.commandType
        lastCommandFrameSha256 := last.frameSha256
        lastCommandDigest := j.lastCommandDigest
        lastEmittedEvent := j.lastEmittedEvent
        lastEventDigest := j.lastEventDigest
        eventPrefixSha256 := eventPrefixSha256 P j.events
        lastAcknowledgedCommand := j.lastAcknowledgedCommand
        lastAcknowledgementSha256 := j.lastAcknowledgementSha256
        semanticStateHash := authority.semanticStateHash
        childIdentity := authority.childIdentity
        closureDigest := authority.closureDigest
        portfolioStateHash := authority.portfolioStateHash
        accepted_pos := h.1
        request_matches := rfl
        acknowledged_le := h.2.1
        accepted_le := h.2.2 },
      { j with semanticStateHash := authority.semanticStateHash })
  else none

end PaperSessionJournal

def EventsMatch (checkpoint : PaperSessionCheckpoint P) (events : List P1Event) : Prop :=
  events.length = checkpoint.lastEmittedEvent - 1 ∧ events ≠ [] ∧
    (events.head?.bind P1Event.runStarted?).isSome ∧
    (∀ numbered ∈ events.zipIdx 2, numbered.1.sequence = numbered.2) ∧
    (∀ event ∈ events.tail, event.runStarted? = none) ∧
    (∀ pair ∈ events.zip events.tail, ¬ pair.2.simulationTime < pair.1.simulationTime) ∧
    events.getLast?.map (eventDigest P.codec) = some checkpoint.lastEventDigest ∧
    eventPrefixSha256 P events = checkpoint.eventPrefixSha256

instance (checkpoint : PaperSessionCheckpoint P) (events : List P1Event) :
    Decidable (EventsMatch P checkpoint events) :=
  inferInstanceAs (Decidable (_ ∧ _ ∧ _ ∧ _ ∧ _ ∧ _ ∧ _ ∧ _))

def validateRestoredEventPrefix (checkpoint : PaperSessionCheckpoint P) (events : List P1Event) :
    Except Failure Unit := do
  if checkpoint.lastEmittedEvent = 0 then
    require (events = [] ∧ checkpoint.lastEventDigest = zeroDigest ∧
        checkpoint.eventPrefixSha256 = zeroDigest)
      (.valueError "paper checkpoint event prefix does not match")
  else
    require (EventsMatch P checkpoint events) (.valueError "paper checkpoint event prefix does not match")
    if events.any fun event => event.runCompleted?.isSome then
      require (events.dropLast.all fun event => event.runCompleted?.isNone)
        (.valueError "paper checkpoint event prefix does not match")
      let _ ← validateEventStream P.codec events
    else .ok ()

/-- The accepted command that `restore` rebuilds from a checkpoint. -/
def PaperSessionCheckpoint.lastCommand (checkpoint : PaperSessionCheckpoint P) : AcceptedCommand where
  frameSha256 := checkpoint.lastCommandFrameSha256
  sequence := checkpoint.lastAcceptedCommand
  digest := checkpoint.lastCommandDigest
  commandType := checkpoint.lastCommandType
  expectedAckState := expectedAckState checkpoint.lastCommandType checkpoint.state

/-- `PaperSessionJournal.restore` -/
def restore (checkpoint : PaperSessionCheckpoint P) (sessionId ownerId : Uuid)
    (authority : CheckpointAuthority) (events : List P1Event) : Except Failure PaperSessionJournal := do
  require (sessionId = checkpoint.sessionId ∧ ownerId = checkpoint.ownerId ∧
      authority = ⟨checkpoint.semanticStateHash, checkpoint.childIdentity, checkpoint.closureDigest,
        checkpoint.portfolioStateHash⟩)
    (.valueError "paper checkpoint authority does not match")
  validateRestoredEventPrefix P checkpoint events
  .ok
    { sessionId := sessionId
      ownerId := ownerId
      state := checkpoint.state
      lastAcceptedCommand := checkpoint.lastAcceptedCommand
      lastCommandDigest := checkpoint.lastCommandDigest
      lastEmittedEvent := checkpoint.lastEmittedEvent
      lastEventDigest := checkpoint.lastEventDigest
      lastAcknowledgedCommand := checkpoint.lastAcknowledgedCommand
      lastAcknowledgementSha256 := checkpoint.lastAcknowledgementSha256
      semanticStateHash := checkpoint.semanticStateHash
      requests := Dict.set [] checkpoint.lastRequestId (checkpoint.lastCommand P)
      events := events }

/-! ## The last accepted command -/

variable {P}

structure Tracked (j : PaperSessionJournal) : Prop where
  ids : ∀ id command, j.requests.get? id = some command →
    ∃ n, 0 < n ∧ n ≤ j.lastAcceptedCommand ∧ id = P.requestId j.sessionId n
  last : 0 < j.lastAcceptedCommand → ∃ command,
    j.requests.get? (P.requestId j.sessionId j.lastAcceptedCommand) = some command ∧
      command.sequence = j.lastAcceptedCommand ∧ command.digest = j.lastCommandDigest ∧
      (command.commandType = .startPaperEngine → command.expectedAckState = .running) ∧
      (j.lastAcknowledgedCommand < j.lastAcceptedCommand →
        command.expectedAckState = expectedAckState command.commandType j.state ∨
          j.state = .reconciliationRequired)

namespace Tracked

variable {run next : PaperRun P} {input : PaperInput P}

theorem command {frame : PaperCommandFrame P} {state : PaperSessionState} (h : Tracked (P := P) run.journal)
    (sha256 : Sha256Hex) (hidentity : run.journal.Identity frame.sessionId frame.ownerId)
    (hsequence : frame.commandSequence = run.journal.lastAcceptedCommand + 1) :
    Tracked (P := P) (run.journal.recordCommand P sha256 frame state) where
  ids := by
    intro id command hcommand
    simp only [recordCommand, Dict.get?_set] at hcommand ⊢
    split_ifs at hcommand with heq
    · exact ⟨frame.commandSequence, frame.positive, le_rfl, by rw [← heq, frame.request_matches, hidentity.1]⟩
    · obtain ⟨n, hpos, hle, hid⟩ := h.ids id command hcommand
      exact ⟨n, hpos, by omega, hid⟩
  last := by
    intro _
    have hid : P.requestId run.journal.sessionId frame.commandSequence = frame.requestId := by
      rw [frame.request_matches, hidentity.1]
    simp only [recordCommand, hid, Dict.get?_set_self, Option.some.injEq]
    exact ⟨_, rfl, rfl, rfl, fun hstart => if_pos hstart, fun _ => .inl rfl⟩

/-- A move that only replaces the state by `RECONCILIATION_REQUIRED`, or has no unacknowledged command after
it. -/
theorem of_frame {j j' : PaperSessionJournal} (h : Tracked (P := P) j) (hrequests : j'.requests = j.requests)
    (hsession : j'.sessionId = j.sessionId) (haccepted : j'.lastAcceptedCommand = j.lastAcceptedCommand)
    (hdigest : j'.lastCommandDigest = j.lastCommandDigest)
    (hstate : j'.lastAcknowledgedCommand < j'.lastAcceptedCommand → j.lastAcknowledgedCommand < j.lastAcceptedCommand ∧
        (j'.state = j.state ∨ j'.state = .reconciliationRequired)) : Tracked (P := P) j' where
  ids := by
    rw [hrequests, hsession, haccepted]
    exact h.ids
  last := by
    rw [hrequests, hsession, haccepted, hdigest]
    intro hpos
    obtain ⟨command, hcommand, hsequence, hdigest, hstart, hexpected⟩ := h.last hpos
    refine ⟨command, hcommand, hsequence, hdigest, hstart, fun hunacked => ?_⟩
    obtain ⟨hunacked, hsame | hrecon⟩ := hstate (by rw [haccepted]; exact hunacked)
    · rw [hsame]
      exact hexpected hunacked
    · exact .inr hrecon

theorem moves (h : Tracked (P := P) run.journal) (hsound : Sound run) (hmove : Moves run input next) :
    Tracked (P := P) next.journal := by
  cases hmove with
  | idle => exact h
  | reconcile => exact h.of_frame rfl rfl rfl rfl fun hlt => ⟨hlt, .inr rfl⟩
  | command raw frame state hidentity hterminal hacked hsequence =>
    exact h.command raw.sha256 hidentity hsequence
  | event frame => exact h.of_frame rfl rfl rfl rfl fun hlt => ⟨hlt, .inl rfl⟩
  | acknowledgement raw frame id command hcommand hmatch hsequence =>
    refine h.of_frame rfl rfl rfl rfl fun hlt => ?_
    have hle := hsound.accepted_le
    simp only at hlt
    omega
  | stop hpos hstop =>
    refine h.of_frame rfl rfl rfl rfl fun hlt => ?_
    have hacked := hstop.2.2
    simp only [withState] at hlt
    omega

end Tracked

theorem tracked_run (sessionId ownerId : Uuid) (inputs : List (PaperInput P)) :
    Tracked (P := P) ((fresh P sessionId ownerId).run inputs).journal := by
  induction inputs using List.reverseRecOn with
  | nil =>
    constructor
    · intro id command h
      simp [PaperRun.run, fresh] at h
    · intro h
      simp [PaperRun.run, fresh] at h
  | append_singleton inputs input ih =>
    rw [run_concat]
    exact ih.moves (sound_run sessionId ownerId inputs) (step_moves _ input)

/-! ## Simulation -/

def accept (j : PaperSessionJournal) (input : PaperInput P) : Option PaperSessionJournal :=
  match input with
  | .command raw => (j.acceptCommand raw).toOption.map Prod.snd
  | .event raw => (j.recordEvent raw).toOption.map Prod.snd
  | .acknowledgement raw => (j.recordAck raw).toOption.map Prod.snd
  | .endOfInput => (j.endOfInput P).toOption.map Prod.snd

def acceptAll (j : PaperSessionJournal) (inputs : List (PaperInput P)) : Option PaperSessionJournal :=
  inputs.foldlM accept j

/-- The journals agree but for the requests they remember. -/
structure Agrees (j k : PaperSessionJournal) : Prop where
  state : j.state = k.state
  accepted : j.lastAcceptedCommand = k.lastAcceptedCommand
  acknowledged : j.lastAcknowledgedCommand = k.lastAcknowledgedCommand
  emitted : j.lastEmittedEvent = k.lastEmittedEvent
  events : j.events = k.events

/-- Every request of the restored journal `k` is one of the original `j`, up to the state while it is not
acknowledged. -/
structure Simulates (j k : PaperSessionJournal) : Prop extends Agrees j k where
  session : j.sessionId = k.sessionId
  owner : j.ownerId = k.ownerId
  requests : ∀ id command, k.requests.get? id = some command → ∃ original,
    j.requests.get? id = some original ∧ original.sequence = command.sequence ∧
      original.digest = command.digest ∧ original.commandType = command.commandType ∧
      (k.lastAcknowledgedCommand < command.sequence → original.expectedAckState = command.expectedAckState)
  ids : ∀ id command, j.requests.get? id = some command →
    ∃ n, 0 < n ∧ n ≤ j.lastAcceptedCommand ∧ id = P.requestId j.sessionId n

variable (P) in
/-- Request identifiers of a session differ. -/
def RequestIdsDistinct (sessionId : Uuid) (bound : ℕ) : Prop :=
  ∀ m n, 0 < m → m < n → n ≤ bound → P.requestId sessionId m ≠ P.requestId sessionId n

namespace Simulates

variable {j k k' : PaperSessionJournal}

variable (h : Simulates (P := P) j k)
include h

theorem validateCommandState_eq (command : PaperCommand) :
    j.validateCommandState command = k.validateCommandState command := by
  unfold validateCommandState
  rw [h.state, h.session]

variable {frame : PaperCommandFrame P}

theorem checkNewRequest_ok (sha256 : Sha256Hex) (hids : RequestIdsDistinct P j.sessionId (j.lastAcceptedCommand + 1))
    (hsession : frame.sessionId = j.sessionId) (hsequence : frame.commandSequence = j.lastAcceptedCommand + 1) :
    j.checkNewRequest (some frame.requestId) sha256 = .ok () := by
  unfold checkNewRequest
  cases hknown : (some frame.requestId).bind j.requests.get? with
  | none => rfl
  | some command =>
    obtain ⟨n, hpos, hle, hid⟩ := h.ids frame.requestId command hknown
    rw [frame.request_matches, hsession, hsequence] at hid
    exact absurd hid.symm (hids n _ hpos (by omega) le_rfl)

theorem acceptCommand {raw : ReceivedCommand P} (hids : RequestIdsDistinct P j.sessionId (j.lastAcceptedCommand + 1))
    (hok : k.acceptCommand raw = .ok (frame, k')) :
    ∃ j', j.acceptCommand raw = .ok (frame, j') ∧ Simulates (P := P) j' k' := by
  obtain ⟨-, hframe, hidentity, hterminal, hacked, hsequence, state, hstate, rfl⟩ := acceptCommand_ok hok
  have hidentity' : j.Identity frame.sessionId frame.ownerId := by
    rw [Identity, h.session, h.owner]
    exact hidentity
  have hsequence' : frame.commandSequence = j.lastAcceptedCommand + 1 := by rw [h.accepted, hsequence]
  refine ⟨j.recordCommand P raw.sha256 frame state, ?_, ?_⟩
  · simp only [PaperSessionJournal.acceptCommand, bind_ok_iff, mapError_ok_iff, require_ok_iff, exists_const]
    exact ⟨some frame.requestId, raw.requestId_of_frame frame hframe, (),
      h.checkNewRequest_ok raw.sha256 hids hidentity'.1 hsequence', frame, hframe, hidentity',
      by rw [h.state]; exact hterminal, by rw [h.acknowledged, h.accepted]; exact hacked, hsequence', state,
      by rw [h.validateCommandState_eq]; exact hstate, rfl⟩
  · refine ⟨⟨rfl, rfl, h.acknowledged, h.emitted, h.events⟩, h.session, h.owner, ?_, ?_⟩
    · intro id command hcommand
      simp only [recordCommand, Dict.get?_set] at hcommand ⊢
      split_ifs at hcommand ⊢ with heq
      · exact ⟨command, hcommand, rfl, rfl, rfl, fun _ => rfl⟩
      · exact h.requests id command hcommand
    · intro id command hcommand
      simp only [recordCommand, Dict.get?_set] at hcommand ⊢
      split_ifs at hcommand with heq
      · exact ⟨frame.commandSequence, frame.positive, le_rfl, by
          rw [← heq, frame.request_matches, hidentity'.1]⟩
      · obtain ⟨n, hpos, hle, hid⟩ := h.ids id command hcommand
        exact ⟨n, hpos, by omega, hid⟩

theorem recordEvent {raw : Except Failure (PaperEventFrame P)} {frame : PaperEventFrame P}
    (hok : k.recordEvent raw = .ok (frame, k')) :
    ∃ j', j.recordEvent raw = .ok (frame, j') ∧ Simulates (P := P) j' k' := by
  obtain ⟨rfl, hidentity, hcreated, hterminal, request, hrequest, hsequence, hfirst, hallowed, rfl⟩ :=
    recordEvent_ok hok
  obtain ⟨original, horiginal, -, -, htype, -⟩ := h.requests _ request hrequest
  refine ⟨j.appendEvent frame, ?_, ?_⟩
  · simp only [PaperSessionJournal.recordEvent, bind_ok_iff, mapError_ok_iff, require_ok_iff, exists_const]
    refine ⟨frame, rfl, ?_, ?_, ?_, ?_⟩
    · rw [Identity, h.session, h.owner]
      exact hidentity
    · rw [h.state]
      exact hcreated
    · rw [h.state]
      exact hterminal
    · rw [horiginal]
      simp only [bind_ok_iff, require_ok_iff, exists_const, expectedEvent, EventAllowed, h.emitted, h.events, htype]
      exact ⟨hsequence, hfirst.1, fun hne hstart => hne (hfirst.2 hstart), hallowed, trivial⟩
  · refine ⟨⟨h.state, h.accepted, h.acknowledged, rfl, ?_⟩, h.session, h.owner, h.requests, h.ids⟩
    simp only [appendEvent, h.events]

theorem recordAck {raw : Received (PaperCommandAcknowledgement P)} {frame : PaperCommandAcknowledgement P}
    (hok : k.recordAck raw = .ok (frame, k')) : ∃ j', j.recordAck raw = .ok (frame, j') ∧ Simulates (P := P) j' k' := by
  obtain ⟨hframe, hidentity, command, hcommand, hmatch, hdigest, hsequence, state, hstate, rfl⟩ :=
    recordAck_ok hok
  obtain ⟨original, horiginal, hseq, hdig, htype, hexpected⟩ := h.requests _ command hcommand
  have hexpected : original.expectedAckState = command.expectedAckState := hexpected (by omega)
  refine ⟨{ j with
    state := state
    lastAcknowledgedCommand := frame.commandSequence
    lastAcknowledgementSha256 := raw.sha256 }, ?_, ?_⟩
  · simp only [PaperSessionJournal.recordAck, bind_ok_iff, mapError_ok_iff, require_ok_iff, exists_const]
    refine ⟨frame, hframe, ?_, ?_⟩
    · rw [Identity, h.session, h.owner]
      exact hidentity
    · rw [horiginal]
      simp only [bind_ok_iff, mapError_ok_iff, require_ok_iff, exists_const, h.acknowledged]
      refine ⟨⟨hseq.trans hmatch, hdig.trans hdigest⟩, by omega, hsequence, state, ?_, rfl⟩
      rw [← hstate]
      unfold acknowledgedState transition
      rw [hexpected, h.state]
  · refine ⟨⟨rfl, h.accepted, rfl, h.emitted, h.events⟩, h.session, h.owner, ?_, h.ids⟩
    intro id other hother
    obtain ⟨original, horiginal, hseq, hdig, htype, hexpected⟩ := h.requests id other hother
    refine ⟨original, horiginal, hseq, hdig, htype, fun hlt => hexpected ?_⟩
    simp only at hlt
    omega

theorem endOfInput {u : Unit} (hok : k.endOfInput P = .ok (u, k')) :
    ∃ j', j.endOfInput P = .ok (u, j') ∧ Simulates (P := P) j' k' := by
  obtain ⟨hpos, hstop, hstream, rfl⟩ := endOfInput_ok hok
  obtain ⟨command, hcommand, htype⟩ := Option.map_eq_some_iff.1 hstop.2.1
  obtain ⟨original, horiginal, -, -, htype', -⟩ := h.requests _ command hcommand
  refine ⟨j.withState .stopped, ?_, ?_⟩
  · simp only [PaperSessionJournal.endOfInput, paperRequestId, bind_ok_iff, mapError_ok_iff, require_ok_iff,
      exists_const, Except.ok.injEq]
    refine ⟨_, ⟨by rw [h.accepted]; exact hpos, rfl⟩, ⟨?_, ?_, ?_⟩, j.events, ?_, trivial⟩
    · rw [h.state]
      exact hstop.1
    · rw [h.session, h.accepted, horiginal, Option.map_some, htype', htype]
    · rw [h.acknowledged, h.accepted]
      exact hstop.2.2
    · rw [h.events]
      exact hstream
  · exact ⟨⟨rfl, h.accepted, h.acknowledged, h.emitted, h.events⟩, h.session, h.owner, h.requests, h.ids⟩

end Simulates

section Accept

variable {j j' k k' : PaperSessionJournal} {input : PaperInput P}

theorem toOption_map_snd {α : Type} {x : Attempt (α × PaperSessionJournal)} :
    x.toOption.map Prod.snd = some j ↔ ∃ a, x = .ok (a, j) := by
  cases x with
  | error e => simp [Except.toOption]
  | ok r =>
    obtain ⟨a, k⟩ := r
    simp [Except.toOption]

theorem accept_bounds (h : accept j input = some j') :
    j'.sessionId = j.sessionId ∧ j'.lastAcceptedCommand ≤ j.lastAcceptedCommand + 1 := by
  cases input with
  | command raw =>
    obtain ⟨frame, hok⟩ := toOption_map_snd.1 h
    obtain ⟨-, -, -, -, -, hsequence, state, -, rfl⟩ := acceptCommand_ok hok
    exact ⟨rfl, hsequence.le⟩
  | event raw =>
    obtain ⟨frame, hok⟩ := toOption_map_snd.1 h
    obtain ⟨-, -, -, -, request, -, -, -, -, rfl⟩ := recordEvent_ok hok
    exact ⟨rfl, Nat.le_succ _⟩
  | acknowledgement raw =>
    obtain ⟨frame, hok⟩ := toOption_map_snd.1 h
    obtain ⟨-, -, command, -, -, -, -, state, -, rfl⟩ := recordAck_ok hok
    exact ⟨rfl, Nat.le_succ _⟩
  | endOfInput =>
    obtain ⟨u, hok⟩ := toOption_map_snd.1 h
    obtain ⟨-, -, -, rfl⟩ := endOfInput_ok hok
    exact ⟨rfl, Nat.le_succ _⟩

theorem Simulates.accept (h : Simulates (P := P) j k)
    (hids : RequestIdsDistinct P j.sessionId (j.lastAcceptedCommand + 1))
    (hok : TradingAgent.Nautilus.accept k input = some k') :
    ∃ j', TradingAgent.Nautilus.accept j input = some j' ∧ Simulates (P := P) j' k' := by
  cases input with
  | command raw =>
    obtain ⟨frame, hok⟩ := toOption_map_snd.1 hok
    obtain ⟨j', hj', hsim⟩ := h.acceptCommand hids hok
    exact ⟨j', toOption_map_snd.2 ⟨frame, hj'⟩, hsim⟩
  | event raw =>
    obtain ⟨frame, hok⟩ := toOption_map_snd.1 hok
    obtain ⟨j', hj', hsim⟩ := h.recordEvent hok
    exact ⟨j', toOption_map_snd.2 ⟨frame, hj'⟩, hsim⟩
  | acknowledgement raw =>
    obtain ⟨frame, hok⟩ := toOption_map_snd.1 hok
    obtain ⟨j', hj', hsim⟩ := h.recordAck hok
    exact ⟨j', toOption_map_snd.2 ⟨frame, hj'⟩, hsim⟩
  | endOfInput =>
    obtain ⟨u, hok⟩ := toOption_map_snd.1 hok
    obtain ⟨j', hj', hsim⟩ := h.endOfInput hok
    exact ⟨j', toOption_map_snd.2 ⟨u, hj'⟩, hsim⟩

theorem Simulates.acceptAll {inputs : List (PaperInput P)} (h : Simulates (P := P) j k)
    (hids : RequestIdsDistinct P j.sessionId (j.lastAcceptedCommand + inputs.length))
    (hok : TradingAgent.Nautilus.acceptAll k inputs = some k') :
    ∃ j', TradingAgent.Nautilus.acceptAll j inputs = some j' ∧ Simulates (P := P) j' k' := by
  induction inputs generalizing j k with
  | nil =>
    obtain rfl := Option.some.inj hok
    exact ⟨j, rfl, h⟩
  | cons input rest ih =>
    simp only [TradingAgent.Nautilus.acceptAll, List.foldlM_cons, Option.bind_eq_bind, Option.bind_eq_some_iff] at hok ⊢
    obtain ⟨k1, hk1, hok⟩ := hok
    rw [List.length_cons] at hids
    obtain ⟨j1, hj1, hsim⟩ := h.accept (fun m n hm hlt hn => hids m n hm hlt (by omega)) hk1
    obtain ⟨hsession, hbound⟩ := accept_bounds hj1
    obtain ⟨j2, hj2, hsim2⟩ := ih hsim
      (by rw [hsession]; exact fun m n hm hlt hn => hids m n hm hlt (by omega)) hok
    exact ⟨j2, ⟨j1, hj1, hj2⟩, hsim2⟩

end Accept

/-! ## Restoring -/

section

variable {authority : CheckpointAuthority} {C : PaperSessionCheckpoint P} {j k : PaperSessionJournal}

theorem checkpoint_eq_some {j' : PaperSessionJournal} (h : j.checkpoint P authority = some (C, j')) :
    ∃ last, j.requests.get? (P.requestId j.sessionId j.lastAcceptedCommand) = some last ∧
      0 < j.lastAcceptedCommand ∧ j' = { j with semanticStateHash := authority.semanticStateHash } ∧
      C.sessionId = j.sessionId ∧ C.ownerId = j.ownerId ∧ C.state = j.state ∧
      C.lastAcceptedCommand = j.lastAcceptedCommand ∧
      C.lastRequestId = P.requestId j.sessionId j.lastAcceptedCommand ∧
      C.lastCommandType = last.commandType ∧ C.lastCommandDigest = j.lastCommandDigest ∧
      C.lastEmittedEvent = j.lastEmittedEvent ∧ C.lastAcknowledgedCommand = j.lastAcknowledgedCommand := by
  simp only [checkpoint, Option.bind_eq_bind, Option.bind_eq_some_iff] at h
  obtain ⟨last, hlast, h⟩ := h
  split_ifs at h with hpos
  obtain ⟨rfl, rfl⟩ := Prod.mk.inj (Option.some.inj h)
  exact ⟨last, hlast, hpos.1, rfl, rfl, rfl, rfl, rfl, rfl, rfl, rfl, rfl, rfl⟩

theorem restore_ok {sessionId ownerId : Uuid} {events : List P1Event}
    (h : restore P C sessionId ownerId authority events = .ok k) :
    sessionId = C.sessionId ∧ ownerId = C.ownerId ∧ k.sessionId = sessionId ∧ k.ownerId = ownerId ∧
      k.state = C.state ∧ k.lastAcceptedCommand = C.lastAcceptedCommand ∧
      k.lastEmittedEvent = C.lastEmittedEvent ∧ k.lastAcknowledgedCommand = C.lastAcknowledgedCommand ∧
      k.events = events ∧ k.requests = Dict.set [] C.lastRequestId (C.lastCommand P) := by
  simp only [restore, bind_ok_iff, require_ok_iff, exists_const, Except.ok.injEq] at h
  obtain ⟨hauthority, _, _, rfl⟩ := h
  exact ⟨hauthority.1, hauthority.2.1, rfl, rfl, rfl, rfl, rfl, rfl, rfl, rfl⟩

end

/-- Taken after the session asked for reconciliation, with an unacknowledged command other than `StartPaperEngine`. -/
def Stranded (C : PaperSessionCheckpoint P) : Prop :=
  C.lastAcknowledgedCommand < C.lastAcceptedCommand ∧ C.state = .reconciliationRequired ∧
    C.lastCommandType ≠ .startPaperEngine

instance (C : PaperSessionCheckpoint P) : Decidable (Stranded C) := inferInstanceAs (Decidable (_ ∧ _ ∧ _))

section Main

variable {sessionId ownerId : Uuid} {calls : List (PaperInput P)} {authority : CheckpointAuthority}
  {sessionId' ownerId' : Uuid} {authority' : CheckpointAuthority} {C : PaperSessionCheckpoint P}
  {j k : PaperSessionJournal}

theorem simulates_restore
    (hcheckpoint : ((fresh P sessionId ownerId).run calls).journal.checkpoint P authority = some (C, j))
    (hrestore : restore P C sessionId' ownerId' authority' j.events = .ok k) (hnot : ¬ Stranded C) :
    Simulates (P := P) j k := by
  have htracked := tracked_run (P := P) sessionId ownerId calls
  obtain ⟨last, hlast, hpos, rfl, hsession, howner, hstate, haccepted, hid, htype, hdigest, hemitted,
    hacked⟩ := checkpoint_eq_some hcheckpoint
  obtain ⟨rfl, rfl, hks, hko, hkstate, hkaccepted, hkemitted, hkacked, hkevents, hkrequests⟩ :=
    restore_ok hrestore
  obtain ⟨command, hcommand, hseq, hdig, hstart, hexpected⟩ := htracked.last hpos
  obtain rfl : last = command := Option.some.inj (hlast.symm.trans hcommand)
  refine ⟨⟨(hkstate.trans hstate).symm, (hkaccepted.trans haccepted).symm, (hkacked.trans hacked).symm,
    (hkemitted.trans hemitted).symm, hkevents.symm⟩, (hks.trans hsession).symm, (hko.trans howner).symm, ?_,
    htracked.ids⟩
  intro id found hfound
  rw [hkrequests, Dict.get?_set] at hfound
  split_ifs at hfound with heq
  · obtain rfl := Option.some.inj hfound
    subst heq
    refine ⟨last, by rw [hid]; exact hlast, hseq.trans haccepted.symm, hdig.trans hdigest.symm, htype.symm,
      fun hunacked => ?_⟩
    rw [hkacked, hacked] at hunacked
    have hunacked : C.lastAcknowledgedCommand < C.lastAcceptedCommand := by rw [hacked]; exact hunacked
    change last.expectedAckState = expectedAckState C.lastCommandType C.state
    by_cases hs : last.commandType = .startPaperEngine
    · rw [hstart hs, expectedAckState, if_pos (htype.trans hs)]
    · rcases hexpected (by rw [hacked, haccepted] at hunacked; exact hunacked) with he | he
      · rw [he, htype, hstate]
      · exact absurd ⟨hunacked, hstate.trans he, by rw [htype]; exact hs⟩ hnot
  · simp at hfound

def strandedFrame (C : PaperSessionCheckpoint P) : PaperCommandAcknowledgement P where
  sessionId := C.sessionId
  ownerId := C.ownerId
  requestId := C.lastRequestId
  commandSequence := C.lastAcceptedCommand
  commandDigest := C.lastCommandDigest
  state := .reconciliationRequired
  accepted := true
  reasonCode := "ACCEPTED"
  positive := C.accepted_pos
  request_matches := C.request_matches
  coherent_verdict := accepted_coherent

def strandedAck (C : PaperSessionCheckpoint P) : PaperInput P :=
  .acknowledgement { sha256 := zeroDigest, frame := .ok (strandedFrame C) }

theorem accept_strandedAck_expected {j' : PaperSessionJournal} (h : accept j (strandedAck C) = some j') :
    ∃ command, j.requests.get? C.lastRequestId = some command ∧ command.expectedAckState = .reconciliationRequired := by
  obtain ⟨frame, hok⟩ := toOption_map_snd.1 h
  obtain ⟨hframe, -, command, hcommand, -, -, -, state, hstate, -⟩ := recordAck_ok hok
  obtain rfl := Except.ok.inj hframe
  exact ⟨command, hcommand, (acknowledgedState_accepted hstate rfl).symm⟩

theorem accept_strandedAck_restored {events : List P1Event}
    (hrestore : restore P C sessionId ownerId authority events = .ok k) (h : Stranded C) :
    ∃ k', accept k (strandedAck C) = some k' := by
  obtain ⟨hunacked, hstate, hstart⟩ := h
  obtain ⟨rfl, rfl, hks, hko, hkstate, hkaccepted, hkemitted, hkacked, hkevents, hkrequests⟩ :=
    restore_ok hrestore
  have hle := C.accepted_le
  have hrequest : k.requests.get? C.lastRequestId = some (C.lastCommand P) := by
    rw [hkrequests]
    exact Dict.get?_set_self _ _ _
  have hverdict : k.acknowledgedState (C.lastCommand P) (strandedFrame C) = .ok .reconciliationRequired := by
    simp [acknowledgedState, strandedFrame, PaperSessionCheckpoint.lastCommand, expectedAckState, hstart,
      hstate, hkstate.trans hstate, require]
  refine ⟨{ k with
    state := .reconciliationRequired
    lastAcknowledgedCommand := C.lastAcceptedCommand
    lastAcknowledgementSha256 := zeroDigest }, toOption_map_snd.2 ⟨strandedFrame C, ?_⟩⟩
  simp only [PaperSessionJournal.recordAck, bind_ok_iff, mapError_ok_iff, require_ok_iff, exists_const]
  refine ⟨strandedFrame C, rfl, ⟨hks.symm, hko.symm⟩, ?_⟩
  simp only [strandedFrame] at hrequest ⊢
  rw [hrequest]
  simp only [bind_ok_iff, mapError_ok_iff, require_ok_iff, exists_const, hkacked]
  exact ⟨(), require_ok_iff.2 ⟨rfl, rfl⟩, hunacked, by omega, .reconciliationRequired, hverdict, rfl⟩

/-- A restored session accepts nothing that the original one would refuse, exactly when the checkpoint is not
stranded. -/
theorem restore_never_widens
    (hcheckpoint : ((fresh P sessionId ownerId).run calls).journal.checkpoint P authority = some (C, j))
    (hrestore : restore P C sessionId' ownerId' authority' j.events = .ok k) :
    (¬ Stranded C → ∀ (inputs : List (PaperInput P)) k',
      RequestIdsDistinct P j.sessionId (j.lastAcceptedCommand + inputs.length) →
        acceptAll k inputs = some k' → ∃ j', acceptAll j inputs = some j' ∧ Agrees j' k') ∧
      (Stranded C → ∃ (input : PaperInput P) (k' : PaperSessionJournal),
        accept k input = some k' ∧ accept j input = none) := by
  refine ⟨fun hnot inputs k' hids hok => ?_, fun h => ?_⟩
  · obtain ⟨j', hj', hsim'⟩ := (simulates_restore hcheckpoint hrestore hnot).acceptAll hids hok
    exact ⟨j', hj', hsim'.toAgrees⟩
  · obtain ⟨k', hk'⟩ := accept_strandedAck_restored hrestore h
    refine ⟨strandedAck C, k', hk', ?_⟩
    cases hj : accept j (strandedAck C) with
    | none => rfl
    | some j' =>
      have hsound := sound_run (P := P) sessionId ownerId calls
      obtain ⟨last, -, -, rfl, -⟩ := checkpoint_eq_some hcheckpoint
      obtain ⟨command, hcommand, hexpected⟩ := accept_strandedAck_expected hj
      have := (hsound.requests_known _ command hcommand).2
      rw [hexpected] at this
      exact absurd PaperSessionState.terminal_reconciliationRequired this

end Main

/-! ## Two checkpoints -/

def sampleAuthority : CheckpointAuthority := ⟨zeroDigest, zeroDigest, zeroDigest, zeroDigest⟩

def restored (inputs : List (PaperInput sampleProtocol)) :
    Option (PaperSessionCheckpoint sampleProtocol × PaperSessionJournal × PaperSessionJournal) := do
  let (C, j) ← ((fresh sampleProtocol 1 2).run inputs).journal.checkpoint sampleProtocol sampleAuthority
  let k ← (restore sampleProtocol C 1 2 sampleAuthority j.events).toOption
  some (C, j, k)

theorem restored_eq_some {inputs : List (PaperInput sampleProtocol)} {C : PaperSessionCheckpoint sampleProtocol}
    {j k : PaperSessionJournal} (h : restored inputs = some (C, j, k)) :
    ((fresh sampleProtocol 1 2).run inputs).journal.checkpoint sampleProtocol sampleAuthority = some (C, j) ∧
      restore sampleProtocol C 1 2 sampleAuthority j.events = .ok k := by
  simp only [restored, Option.bind_eq_bind, Option.bind_eq_some_iff, Option.some.injEq, Prod.mk.injEq] at h
  obtain ⟨⟨C', j'⟩, hcheckpoint, k', hrestore, rfl, rfl, rfl⟩ := h
  refine ⟨hcheckpoint, ?_⟩
  cases hk : restore sampleProtocol C' 1 2 sampleAuthority j'.events with
  | error e =>
    rw [hk] at hrestore
    cases hrestore
  | ok k'' =>
    rw [hk] at hrestore
    exact congrArg Except.ok (Option.some.inj hrestore)

def runningSession : List (PaperInput sampleProtocol) :=
  [sampleCommand 0 (.startPaperEngine ""), sampleAck 0 .running, sampleEvent 1 2 sampleStart,
    sampleCommand 1 (.submitTargetPortfolio "")]

def runningInputs : List (PaperInput sampleProtocol) :=
  [sampleAck 1 .running, sampleEvent 2 3 (sampleTarget "t" 0), sampleCommand 2 (.stopPaperEngine 1)]

theorem requestIdsDistinct_sample (sessionId : Uuid) (bound : ℕ) :
    RequestIdsDistinct sampleProtocol sessionId bound := by
  intro m n _ hlt _ heq
  exact hlt.ne (Nat.add_left_cancel (n := sessionId * 1000) heq)

/-- After the restart the target is acknowledged and the session told to stop, as in the original journal. -/
theorem running_session_restores : ∃ C j k k', restored runningSession = some (C, j, k) ∧ ¬ Stranded C ∧
    acceptAll k runningInputs = some k' ∧ k'.state = .stopping ∧
    ∃ j', acceptAll j runningInputs = some j' ∧ Agrees j' k' := by
  have hrun : ((restored runningSession).any fun r => !decide (Stranded r.1) &&
      (acceptAll r.2.2 runningInputs).any fun k' => k'.state = .stopping) = true := by decide +kernel
  obtain ⟨⟨C, j, k⟩, hsome, hrun⟩ := (Option.any_eq_true _ _).1 hrun
  simp only [Bool.and_eq_true, Bool.not_eq_true', decide_eq_false_iff_not] at hrun
  obtain ⟨k', hk', hstate⟩ := (Option.any_eq_true _ _).1 hrun.2
  obtain ⟨hcheckpoint, hrestore⟩ := restored_eq_some hsome
  exact ⟨C, j, k, k', hsome, hrun.1, hk', of_decide_eq_true hstate,
    (restore_never_widens hcheckpoint hrestore).1 hrun.1 runningInputs k' (requestIdsDistinct_sample _ _) hk'⟩

def strandedSession : List (PaperInput sampleProtocol) :=
  runningSession ++ [sampleEvent 2 5 (sampleTarget "t" 0)]

/-- Restored from there, the journal accepts an acknowledgement in `RECONCILIATION_REQUIRED` that the original
one refuses. -/
theorem stranded_session_widens : ∃ C j k, restored strandedSession = some (C, j, k) ∧
    (acceptAll k [sampleAck 1 .reconciliationRequired]).isSome = true ∧
    acceptAll j [sampleAck 1 .reconciliationRequired] = none := by
  have hrun : ((restored strandedSession).any fun r =>
      (acceptAll r.2.2 [sampleAck 1 .reconciliationRequired]).isSome &&
        (acceptAll r.2.1 [sampleAck 1 .reconciliationRequired]).isNone) = true := by decide +kernel
  obtain ⟨⟨C, j, k⟩, hsome, hrun⟩ := (Option.any_eq_true _ _).1 hrun
  obtain ⟨hk, hj⟩ := Bool.and_eq_true_iff.1 hrun
  exact ⟨C, j, k, hsome, hk, Option.isNone_iff_eq_none.1 hj⟩

/-! ## Checkpoint custody -/

variable (P)

instance : DecidableEq (PaperSessionCheckpoint P) := fun _ _ => decidable_of_iff' _ PaperSessionCheckpoint.ext_iff

/-- The last checkpoint of a session in this process. -/
structure NautilusCheckpointRecord where
  checkpoint : PaperSessionCheckpoint P
  checkpointSha256 : Sha256Hex
  eventBatchSha256 : Option Sha256Hex := none
  parityReceiptSha256 : Option Sha256Hex := none
  deriving DecidableEq

abbrev NautilusCheckpointStore := Dict Uuid (NautilusCheckpointRecord P)

/-- What `_durable_result` has of the event batch receipt and the parity receipt. -/
structure DurableReceipts where
  engineRunId : Uuid
  batchSha256 : Sha256Hex
  parityEngineRunId : Uuid
  parityBatchSha256 : Sha256Hex
  /-- SHA-256 of the parity receipt -/
  paritySha256 : Sha256Hex

namespace NautilusCheckpointStore

variable {P} (store : NautilusCheckpointStore P)

def load (sessionId : Uuid) : Option (NautilusCheckpointRecord P) := store.get? sessionId

def observed (sessionId : Uuid) : Sha256Hex :=
  ((store.load sessionId).map NautilusCheckpointRecord.checkpointSha256).getD zeroDigest

def Continues (before checkpoint : PaperSessionCheckpoint P) : Prop :=
  checkpoint.sessionId = before.sessionId ∧ checkpoint.ownerId = before.ownerId ∧
    checkpoint.childIdentity = before.childIdentity ∧ checkpoint.closureDigest = before.closureDigest ∧
    checkpoint.lastAcceptedCommand = before.lastAcceptedCommand + 1 ∧
    checkpoint.lastAcknowledgedCommand = checkpoint.lastAcceptedCommand ∧
    before.lastEmittedEvent ≤ checkpoint.lastEmittedEvent

instance (before checkpoint : PaperSessionCheckpoint P) : Decidable (Continues before checkpoint) :=
  inferInstanceAs (Decidable (_ ∧ _ ∧ _ ∧ _ ∧ _ ∧ _ ∧ _))

def advance (checkpointSha256 : PaperSessionCheckpoint P → Sha256Hex) (checkpoint : PaperSessionCheckpoint P)
    (expectedPriorSha256 : Sha256Hex) :
    Except Failure (NautilusCheckpointRecord P × NautilusCheckpointStore P) := do
  require (expectedPriorSha256 = store.observed checkpoint.sessionId)
    (.valueError "paper checkpoint authority changed")
  require (∀ prior ∈ store.load checkpoint.sessionId, Continues prior.checkpoint checkpoint)
    (.valueError "paper checkpoint continuity is invalid")
  let record := { checkpoint := checkpoint, checkpointSha256 := checkpointSha256 checkpoint }
  .ok (record, store.set checkpoint.sessionId record)

def bindDurableResult (checkpointSha : Sha256Hex) (receipts : DurableReceipts) :
    Except Failure (NautilusCheckpointRecord P × NautilusCheckpointStore P) :=
  match store.load receipts.engineRunId with
  | none => .error (.valueError "paper durable result does not match checkpoint")
  | some record => do
    require (record.checkpointSha256 = checkpointSha ∧ record.checkpoint.state = .stopping ∧
        receipts.batchSha256 = receipts.parityBatchSha256 ∧
        receipts.engineRunId = receipts.parityEngineRunId)
      (.valueError "paper durable result does not match checkpoint")
    let updated := { record with
      eventBatchSha256 := some receipts.batchSha256
      parityReceiptSha256 := some receipts.paritySha256 }
    .ok (updated, store.set receipts.engineRunId updated)

end NautilusCheckpointStore

end TradingAgent.Nautilus
