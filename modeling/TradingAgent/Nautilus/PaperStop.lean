import Mathlib.Algebra.BigOperators.Ring.Finset
import TradingAgent.Nautilus.PaperRuns

/-! Which stopped sessions are flat. -/

namespace TradingAgent.Nautilus

open Outcome PaperSessionJournal PaperRun

variable {P : PaperProtocol}

/-! ## What a flat stop is -/

/-- The event increases a position. -/
def Opens (event : P1Event) : Prop :=
  match event.body with
  | .fill fill => fill.side = .buy
  | .orderSubmitted order => order.side = .buy
  | .targetAccepted target => 0 < target.targetWeight
  | _ => False

/-- The filled quantity of a side, exactly. -/
def filledOn (side : OrderSide) (events : List P1Event) : ℚ :=
  (((events.filterMap P1Event.fill?).filter fun fill => fill.side = side).map
    fun fill => (fill.quantity : ℚ)).sum

/-- What a flat stop is. -/
structure StoppedFlat (run : PaperRun P) : Prop where
  commands : (loggedCommands run.log).map PaperCommandFrame.commandSequence =
    List.range' 1 (loggedCommands run.log).length
  acknowledged : (loggedAcknowledgements run.log).map PaperCommandAcknowledgement.commandSequence =
    List.range' 1 (loggedCommands run.log).length
  stop_last : (loggedCommands run.log).getLast?.map (fun frame => frame.command.commandType) =
    some .stopPaperEngine
  stream : validateEventStream P.codec (loggedEvents run.log) = .ok (loggedEvents run.log)
  balanced : filledOn .buy (loggedEvents run.log) = filledOn .sell (loggedEvents run.log)
  flat : ∀ event ∈ loggedEvents run.log, ∀ completion ∈ event.runCompleted?, completion.finalPosition = 0
  exit_only : ∀ before frame after, run.log = before ++ .event frame :: after →
    (∃ stop ∈ loggedCommands before, stop.command.commandType = .stopPaperEngine) → ¬ Opens frame.event

/-! ## Exact sums -/

def exactSigned (fill : Fill) : ℚ :=
  match fill.side with
  | .buy => fill.quantity
  | .sell => -fill.quantity

/-- Neither the running sums of the fills nor the negated quantities need more than 28 digits. -/
def ExactFills (events : List P1Event) : Prop :=
  (∀ fill ∈ events.filterMap P1Event.fill?, fill.side = .sell → FitsDigits contextPrecision fill.quantity) ∧
    ∀ n, FitsDigits contextPrecision (((events.filterMap P1Event.fill?).take n).map exactSigned).sum

/-- The last observed position is flat. -/
def LastFlat (events : List P1Event) : Prop :=
  ∀ position ∈ (events.filterMap P1Event.positionObserved?).getLast?, position.quantity = 0

instance (events : List P1Event) : Decidable (LastFlat events) :=
  inferInstanceAs (Decidable (∀ position ∈ (events.filterMap P1Event.positionObserved?).getLast?, _))

variable {events : List P1Event}

theorem exactFills_of_integers {quantities : List ℤ}
    (hfills : (events.filterMap P1Event.fill?).map exactSigned = quantities.map fun q : ℤ => (q : ℚ))
    (hsingle : ∀ q ∈ quantities, |q| < 10 ^ contextPrecision)
    (hsum : ∀ n ≤ quantities.length, |(quantities.take n).sum| < 10 ^ contextPrecision) : ExactFills events := by
  have hfits {q : ℤ} (h : |q| < 10 ^ contextPrecision) : FitsDigits contextPrecision (q : ℚ) := ⟨q, 0, h, by simp⟩
  constructor
  · intro fill hfill hside
    have hmem : -(fill.quantity : ℚ) ∈ quantities.map fun q : ℤ => (q : ℚ) := by
      rw [← hfills]
      exact List.mem_map.2 ⟨fill, hfill, by simp [exactSigned, hside]⟩
    obtain ⟨q, hq, hquantity⟩ := List.mem_map.1 hmem
    have hneg := (hfits (hsingle q hq)).neg
    rwa [hquantity, neg_neg] at hneg
  · intro n
    have htake : ((events.filterMap P1Event.fill?).take n).map exactSigned =
        (quantities.take (min n quantities.length)).map fun q : ℤ => (q : ℚ) := by
      rw [← List.take_eq_take_min, List.map_take, List.map_take, hfills]
    rw [htake, ← Int.cast_list_sum]
    exact hfits (hsum _ (min_le_right _ _))

theorem decimalSum_concat (items : List ℚ) (item : ℚ) :
    decimalSum (items ++ [item]) = roundDigits contextPrecision (decimalSum items + item) := by
  simp [decimalSum]

theorem decimalSum_eq_sum {items : List ℚ} (h : ∀ n, FitsDigits contextPrecision (items.take n).sum) :
    decimalSum items = items.sum := by
  induction items using List.reverseRecOn with
  | nil => rfl
  | append_singleton items item ih =>
    have hitems : decimalSum items = items.sum := by
      apply ih
      intro n
      have := h (min n items.length)
      rwa [List.take_append_of_le_length (min_le_right _ _), ← List.take_eq_take_min] at this
    have hall := h (items ++ [item]).length
    rw [List.take_length, List.sum_append, List.sum_singleton] at hall
    rw [decimalSum_concat, hitems, roundDigits_eq_self hall, List.sum_append, List.sum_singleton]

theorem signedQuantity_eq {fill : Fill} (h : fill.side = .sell → FitsDigits contextPrecision fill.quantity) :
    signedQuantity fill = exactSigned fill := by
  unfold signedQuantity exactSigned
  cases hside : fill.side with
  | buy => rfl
  | sell => exact roundDigits_eq_self (h hside).neg

theorem sum_exactSigned (fills : List Fill) : (fills.map exactSigned).sum =
      ((fills.filter fun fill => fill.side = .buy).map fun fill => (fill.quantity : ℚ)).sum -
        ((fills.filter fun fill => fill.side = .sell).map fun fill => (fill.quantity : ℚ)).sum := by
  induction fills with
  | nil => simp
  | cons fill fills ih =>
    cases hside : fill.side <;> simp [hside, exactSigned, ih] <;> ring

theorem openQuantity_eq (h : ExactFills events) :
    openQuantity events = filledOn .buy events - filledOn .sell events := by
  have hmap : (events.filterMap P1Event.fill?).map signedQuantity = (events.filterMap P1Event.fill?).map exactSigned :=
    List.map_congr_left fun fill hfill => signedQuantity_eq (h.1 fill hfill)
  unfold openQuantity filledOn
  rw [hmap, decimalSum_eq_sum, sum_exactSigned]
  intro n
  rw [← List.map_take]
  exact h.2 n

/-! ## Careful runs -/

/-- The step avoids what the journal does not check: events of another command after the stop, sums beyond 28
digits, and a position that is not flat. -/
def CarefulStep (j : PaperSessionJournal) : PaperInput P → Prop
  | .event (.ok frame) =>
    (j.state = .stopping → (j.requests.get? frame.requestId).map AcceptedCommand.commandType =
        some .stopPaperEngine) ∧
      (frame.event.runCompleted?.isSome → ExactFills j.events ∧ LastFlat j.events)
  | _ => True

/-- Every step of the run is careful. -/
def Careful (run : PaperRun P) : List (PaperInput P) → Prop
  | [] => True
  | input :: rest => CarefulStep run.journal input ∧ Careful (run.step input) rest

theorem append_singleton_eq_append_cons {α : Type} {xs before after : List α} {x y : α} :
    xs ++ [x] = before ++ y :: after ↔
      after = [] ∧ before = xs ∧ y = x ∨ ∃ rest, after = rest ++ [x] ∧ xs = before ++ y :: rest := by
  constructor
  · intro h
    rcases List.eq_nil_or_concat after with rfl | ⟨rest, z, rfl⟩
    · obtain ⟨h1, h2⟩ := List.append_inj' h rfl
      exact .inl ⟨rfl, h1.symm, (List.cons.inj h2).1.symm⟩
    · rw [List.concat_eq_append, ← List.cons_append, ← List.append_assoc] at h
      obtain ⟨h1, h2⟩ := List.append_inj' h rfl
      exact .inr ⟨rest, by rw [List.concat_eq_append, (List.cons.inj h2).1], h1⟩
  · rintro (⟨rfl, rfl, rfl⟩ | ⟨rest, rfl, rfl⟩)
    · rfl
    · simp

structure ExitOnly (run : PaperRun P) : Prop where
  after_stop : ∀ before frame after, run.log = before ++ .event frame :: after →
    (∃ stop ∈ loggedCommands before, stop.command.commandType = .stopPaperEngine) → ¬ Opens frame.event
  completed : ∀ before event after, run.journal.events = before ++ event :: after →
    event.runCompleted?.isSome → openQuantity before = 0 ∧ ExactFills before ∧ LastFlat before

theorem not_opens_of_allowed {event : P1Event} (h : StopEventAllowed events event) : ¬ Opens event := by
  unfold StopEventAllowed at h
  unfold Opens
  cases hbody : event.body with
  | targetAccepted target =>
    rw [hbody] at h
    simp only at h ⊢
    rw [h]
    exact lt_irrefl _
  | orderSubmitted order =>
    rw [hbody] at h
    simp only [h.2.1]
    decide
  | fill fill =>
    rw [hbody] at h
    obtain ⟨quantity, -, hside, -⟩ := h
    simp only [hside]
    decide
  | _ => simp

variable {j : PaperSessionJournal}

theorem stop_of_completion_allowed {commandType : PaperCommandName}
    {event : P1Event} (h : j.EventAllowed commandType event) (hcompleted : event.runCompleted?.isSome) :
    openQuantity j.events = 0 := by
  unfold P1Event.runCompleted? at hcompleted
  unfold EventAllowed at h
  cases hbody : event.body with
  | runCompleted completion =>
    split_ifs at h
    · simp only [StopEventAllowed, hbody] at h
      exact h.1
    · simp only [CausedBy, hbody] at h
  | _ => simp [hbody] at hcompleted

namespace ExitOnly

variable {run next : PaperRun P} {input : PaperInput P}

theorem append_entry {entry : LogEntry P} (h : ExitOnly run)
    (hentry : ∀ frame, entry ≠ .event frame) (hevents : j.events = run.journal.events) :
    ExitOnly ⟨j, run.log ++ [entry]⟩ where
  after_stop := by
    intro before frame after hlog hstop
    rcases append_singleton_eq_append_cons.1 hlog with ⟨-, -, hframe⟩ | ⟨rest, -, hlog⟩
    · exact absurd hframe.symm (hentry frame)
    · exact h.after_stop before frame rest hlog hstop
  completed := by
    intro before event after hsplit
    rw [hevents] at hsplit
    exact h.completed before event after hsplit

theorem event {frame : PaperEventFrame P} {request : AcceptedCommand} (h : ExitOnly run) (hsound : Sound run)
    (hcareful : CarefulStep run.journal (.event (.ok frame) : PaperInput P)) (hterminal : ¬ run.journal.state.Terminal)
    (hrequest : run.journal.requests.get? frame.requestId = some request)
    (hallowed : run.journal.EventAllowed request.commandType frame.event) :
    ExitOnly ⟨run.journal.appendEvent frame, run.log ++ [.event frame]⟩ where
  after_stop := by
    intro before late after hlog hstop
    rcases append_singleton_eq_append_cons.1 hlog with ⟨-, rfl, hlate⟩ | ⟨rest, -, hlog⟩
    · obtain rfl := LogEntry.event.inj hlate
      obtain ⟨stop, hmem, htype⟩ := hstop
      have hstopping := (hsound.stop_state stop hmem htype).resolve_right hterminal
      have hstop := hcareful.1 hstopping
      rw [hrequest, Option.map_some, Option.some.injEq] at hstop
      rw [EventAllowed, if_pos hstop] at hallowed
      exact not_opens_of_allowed hallowed
    · exact h.after_stop before late rest hlog hstop
  completed := by
    intro before event after hsplit hcompleted
    rcases append_singleton_eq_append_cons.1 hsplit with ⟨-, rfl, rfl⟩ | ⟨rest, -, hsplit⟩
    · obtain ⟨hexact, hflat⟩ := hcareful.2 hcompleted
      exact ⟨stop_of_completion_allowed hallowed hcompleted, hexact, hflat⟩
    · exact h.completed before event rest hsplit hcompleted

theorem moves (h : ExitOnly run) (hsound : Sound run) (hcareful : CarefulStep run.journal input)
    (hmove : Moves run input next) : ExitOnly next := by
  cases hmove with
  | idle => exact h
  | reconcile => exact ⟨h.after_stop, h.completed⟩
  | stop => exact ⟨h.after_stop, h.completed⟩
  | command raw frame state => exact h.append_entry (fun _ => by simp) rfl
  | acknowledgement raw frame id command => exact h.append_entry (fun _ => by simp) rfl
  | event frame request hterminal hrequest hallowed =>
    exact h.event hsound hcareful hterminal hrequest hallowed

end ExitOnly

theorem exitOnly_fresh (sessionId ownerId : Uuid) : ExitOnly (fresh P sessionId ownerId) where
  after_stop := by
    intro before frame after hlog
    simp [fresh] at hlog
  completed := by
    intro before event after hevents
    simp [fresh] at hevents

theorem exitOnly_run {run : PaperRun P} {inputs : List (PaperInput P)} (h : ExitOnly run)
    (hsound : Sound run) (hcareful : Careful run inputs) : ExitOnly (run.run inputs) := by
  induction inputs generalizing run with
  | nil => exact h
  | cons input rest ih =>
    have hmove := step_moves run input
    exact ih (h.moves hsound hcareful.1 hmove) (hsound.moves hmove) hcareful.2

/-! ## Stopped sessions -/

section

variable {run : PaperRun P}

theorem PaperRun.Sound.length_commands (h : Sound run) :
    (loggedCommands run.log).length = run.journal.lastAcceptedCommand := by
  have := congrArg List.length h.commands_eq
  simpa using this

theorem PaperRun.Sound.stop_last (h : Sound run) (hstopped : run.journal.state = .stopped) :
    (loggedCommands run.log).getLast?.map (·.command.commandType) = some .stopPaperEngine := by
  obtain ⟨hpos, -, htype, -⟩ := h.stopped hstopped
  cases hlast : (loggedCommands run.log).getLast? with
  | none =>
    rw [List.getLast?_eq_none_iff] at hlast
    have := h.length_commands
    rw [hlast] at this
    simp at this
    omega
  | some frame =>
    have := h.last_known frame hlast
    rw [htype, Option.some.injEq] at this
    rw [Option.map_some, ← this]

theorem filledOn_append_completion (side : OrderSide) {before : List P1Event} {event : P1Event}
    (h : event.runCompleted?.isSome) : filledOn side (before ++ [event]) = filledOn side before := by
  have hfill : event.fill? = none := by
    unfold P1Event.runCompleted? at h
    unfold P1Event.fill?
    cases hbody : event.body <;> simp_all
  simp [filledOn, hfill]

theorem completion_last {codec : EngineCodec} (h : validateEventStream codec events = .ok events) :
    ∃ before event completion, events = before ++ [event] ∧ event.runCompleted? = some completion ∧
      (∀ other ∈ before, other.runCompleted? = none) ∧
      ∃ position ∈ (events.filterMap P1Event.positionObserved?).getLast?,
        completion.finalPosition = position.quantity := by
  obtain ⟨-, -, first, start, completion, state, -, -, hlast, -, hcount, hpass, hchecks⟩ :=
    validateEventStream_ok h
  obtain ⟨event, hevent, hcompletion⟩ := Option.bind_eq_some_iff.1 hlast
  obtain ⟨before, rfl⟩ := List.getLast?_eq_some_iff.1 hevent
  refine ⟨before, event, completion, rfl, hcompletion, ?_, ?_⟩
  · rw [List.countP_append, List.countP_singleton, hcompletion] at hcount
    have hzero : before.countP (·.runCompleted?.isSome) = 0 := by simpa using hcount
    intro other hother
    have := List.countP_eq_zero.1 hzero other hother
    simpa using this
  · simp only [validateCompletion, bind_ok_iff, require_ok_iff, exists_const] at hchecks
    obtain ⟨-, -, -, -, -, -, ⟨position, hposition, account, -, hfinal, -⟩, -⟩ := hchecks
    have hfold := (StreamState.foldlM_observes hpass).lastPosition
    rw [Option.or_none] at hfold
    exact ⟨position, hfold ▸ hposition, hfinal⟩

/-- Every careful session that reached `STOPPED` is flat, and no session leaves a terminal state. -/
theorem careful_stop_is_flat (sessionId ownerId : Uuid) (inputs : List (PaperInput P)) :
    (((fresh P sessionId ownerId).run inputs).journal.state.Terminal → ∀ more,
      (fresh P sessionId ownerId).run (inputs ++ more) = (fresh P sessionId ownerId).run inputs) ∧
      (Careful (fresh P sessionId ownerId) inputs →
        ((fresh P sessionId ownerId).run inputs).journal.state = .stopped →
          StoppedFlat ((fresh P sessionId ownerId).run inputs)) := by
  have hsound := sound_run (P := P) sessionId ownerId inputs
  refine ⟨fun hterminal more => ?_, fun hcareful hstopped => ?_⟩
  · rw [run_append]
    exact hsound.terminal_run hterminal more
  · have hexit := exitOnly_run (exitOnly_fresh sessionId ownerId) (sound_fresh sessionId ownerId) hcareful
    obtain ⟨-, hacked, -, hstream⟩ := hsound.stopped hstopped
    obtain ⟨before, event, completion, hsplit, hcompletion, honly, position, hposition, hfinal⟩ :=
      completion_last hstream
    have hcompleted : event.runCompleted?.isSome := by rw [hcompletion]; rfl
    obtain ⟨hopen, hexact, hflat⟩ := hexit.completed before event [] hsplit hcompleted
    rw [openQuantity_eq hexact, sub_eq_zero] at hopen
    have hevents := hsound.events_eq
    constructor
    · rw [hsound.length_commands]
      exact hsound.commands_eq
    · rw [hsound.length_commands, hsound.acknowledgements_eq, hacked]
    · exact hsound.stop_last hstopped
    · rw [← hevents]
      exact hstream
    · rw [← hevents, hsplit, filledOn_append_completion _ hcompleted, filledOn_append_completion _ hcompleted]
      exact hopen
    · intro other hother found hfound
      rw [← hevents, hsplit, List.mem_append, List.mem_singleton] at hother
      rcases hother with hother | rfl
      · rw [honly other hother] at hfound
        cases hfound
      · obtain rfl : completion = found := Option.some.inj (hcompletion.symm.trans hfound)
        have hnone : other.positionObserved? = none := by
          unfold P1Event.runCompleted? at hcompletion
          unfold P1Event.positionObserved?
          cases hbody : other.body <;> simp_all
        rw [hfinal]
        apply hflat position
        rw [hsplit, List.filterMap_append, List.filterMap_cons, hnone] at hposition
        simpa using hposition
    · exact hexit.after_stop

end

/-! ## Two sessions -/

def sampleProtocol : PaperProtocol where
  codec := ⟨fun _ => zeroDigest, fun _ => zeroDigest⟩
  commandDigest _ := zeroDigest
  requestId sessionId n := sessionId * 1000 + n

def sampleBytes (n : ℕ) (command : PaperCommand) : ReceivedCommand sampleProtocol where
  sha256 := zeroDigest
  frame := .ok
    { sessionId := 1
      ownerId := 2
      requestId := 1000 + (n + 1)
      commandSequence := n + 1
      commandDigest := zeroDigest
      command := command
      positive := Nat.succ_pos n
      request_matches := rfl
      digest_matches := rfl }
  requestId := .ok (some (1000 + (n + 1)))
  requestId_of_frame := by
    rintro f hf
    obtain rfl := Except.ok.inj hf
    rfl

def sampleCommand (n : ℕ) (command : PaperCommand) : PaperInput sampleProtocol := .command (sampleBytes n command)

theorem accepted_coherent : true = decide ("ACCEPTED" = "ACCEPTED") := by decide

def sampleAck (n : ℕ) (state : PaperSessionState) : PaperInput sampleProtocol :=
  .acknowledgement
    { sha256 := zeroDigest
      frame := .ok
        { sessionId := 1
          ownerId := 2
          requestId := 1000 + (n + 1)
          commandSequence := n + 1
          commandDigest := zeroDigest
          state := state
          accepted := true
          reasonCode := "ACCEPTED"
          positive := Nat.succ_pos n
          request_matches := rfl
          coherent_verdict := accepted_coherent } }

theorem sampleTime_valid : isCalendar 2026 8 30 0 0 0 0 = true := by decide

def sampleTime : UtcDateTime := ⟨2026, 8, 30, 0, 0, 0, 0, sampleTime_valid⟩

def sampleEvent (request n : ℕ) (body : P1Body) : PaperInput sampleProtocol :=
  if hn : 0 < n ∧ n ≤ maxCount then .event (.ok
    { sessionId := 1
      ownerId := 2
      requestId := 1000 + request
      eventSequence := n
      eventDigest := zeroDigest
      event := ⟨n, sampleTime, body, hn⟩
      sequence_matches := rfl
      digest_matches := rfl })
  else .endOfInput

def sampleCommit : SourceCommit := ⟨"0000000000000000000000000000000000000000", by decide +kernel⟩

def sampleStart : P1Body := .runStarted ⟨sampleCommit, zeroDigest, zeroDigest, zeroDigest, zeroDigest⟩

def sampleAccount : P1Body := .accountObserved ⟨1000, 0, 0, 0, by decide +kernel⟩

theorem isIdentifier_s : isIdentifier "s" = true := by decide +kernel

def sampleIdentifier (text : String) : Identifier :=
  if h : isIdentifier text = true then ⟨text, h⟩ else ⟨"s", isIdentifier_s⟩

theorem sampleSignals_valid : SignalsValid [sampleIdentifier "s"] := by decide +kernel

theorem one_positive : (0 : Decimal) < 1 := by decide +kernel

theorem one_nonnegative : (0 : Decimal) ≤ 1 := by decide +kernel

/-- The target `t` with the signal `s`. -/
def sampleTarget (text : String) (weight : Decimal) : P1Body :=
  if hw : 0 ≤ weight ∧ weight ≤ 1 then
    .targetAccepted ⟨sampleIdentifier text, [sampleIdentifier "s"], weight, sampleSignals_valid, hw⟩
  else sampleStart

def sampleCompletion (targets orders fills : ℕ) (position : Decimal) : P1Body :=
  if h : (targets ≤ maxCount ∧ orders ≤ maxCount ∧ fills ≤ maxCount) ∧
      0 ≤ (1000 : Decimal) ∧ 0 ≤ position ∧ 0 ≤ (0 : Decimal) then
    .runCompleted ⟨sampleCommit, zeroDigest, targets, orders, fills, 1000, position, 0, 0, 0, zeroDigest, h.1, h.2⟩
  else sampleStart

/-- The session buys one, sells it again and is then stopped. -/
def flatSession : List (PaperInput sampleProtocol) :=
  [sampleCommand 0 (.startPaperEngine ""), sampleAck 0 .running, sampleEvent 1 2 sampleStart,
    sampleCommand 1 (.submitTargetPortfolio ""), sampleAck 1 .running, sampleEvent 2 3 (sampleTarget "t" 1),
    sampleEvent 2 4 (.targetQuantityPlanned ⟨sampleIdentifier "t", 1, one_nonnegative⟩),
    sampleEvent 2 5 (.orderSubmitted ⟨sampleIdentifier "t", sampleIdentifier "n", sampleIdentifier "t",
      [sampleIdentifier "s"], .buy, 1, sampleSignals_valid, one_positive⟩),
    sampleEvent 2 6 (.fill ⟨sampleIdentifier "t", sampleIdentifier "f", .buy, 1, 100, 0, by decide +kernel⟩),
    sampleCommand 2 (.submitTargetPortfolio ""), sampleAck 2 .running, sampleEvent 3 7 (sampleTarget "u" 0),
    sampleEvent 3 8 (.targetQuantityPlanned ⟨sampleIdentifier "u", 1, one_nonnegative⟩),
    sampleEvent 3 9 (.orderSubmitted ⟨sampleIdentifier "u", sampleIdentifier "o", sampleIdentifier "u",
      [sampleIdentifier "s"], .sell, 1, sampleSignals_valid, one_positive⟩),
    sampleEvent 3 10 (.fill ⟨sampleIdentifier "u", sampleIdentifier "g", .sell, 1, 100, 0, by decide +kernel⟩),
    sampleEvent 3 11 (.positionObserved ⟨0, 0, 0, 0, by decide +kernel⟩), sampleEvent 3 12 sampleAccount,
    sampleCommand 3 (.stopPaperEngine 1), sampleAck 3 .stopping, sampleEvent 4 13 (sampleCompletion 2 2 2 0),
    .endOfInput]

theorem flatSession_careful : Careful (fresh sampleProtocol 1 2) flatSession := by
  refine ⟨trivial, trivial, ?_, trivial, trivial, ?_, ?_, ?_, ?_, trivial, trivial, ?_, ?_, ?_, ?_, ?_, ?_, trivial,
    trivial, ⟨by decide +kernel, fun _ => ⟨?_, by decide +kernel⟩⟩, trivial, trivial⟩
  case refine_12 =>
    exact @exactFills_of_integers _ [1, -1] (by decide +kernel) (by decide +kernel) (by decide +kernel)
  all_goals exact ⟨by decide +kernel, fun h => absurd h (by decide +kernel)⟩

theorem flat_session_stops : ((fresh sampleProtocol 1 2).run flatSession).journal.state = .stopped ∧
    StoppedFlat ((fresh sampleProtocol 1 2).run flatSession) ∧
      filledOn .buy (loggedEvents ((fresh sampleProtocol 1 2).run flatSession).log) = 1 := by
  have hstopped : ((fresh sampleProtocol 1 2).run flatSession).journal.state = .stopped := by decide +kernel
  exact ⟨hstopped, (careful_stop_is_flat 1 2 flatSession).2 flatSession_careful hstopped, by decide +kernel⟩

def longQuantity : Decimal := .scaled (10 ^ 30 + 1) 30

def lateSession : List (PaperInput sampleProtocol) :=
  [sampleCommand 0 (.startPaperEngine ""), sampleAck 0 .running, sampleEvent 1 2 sampleStart,
    sampleCommand 1 (.submitTargetPortfolio ""), sampleAck 1 .running, sampleCommand 2 (.stopPaperEngine 1),
    sampleAck 2 .stopping, sampleEvent 2 3 (sampleTarget "t" 1),
    sampleEvent 2 4 (.targetQuantityPlanned ⟨sampleIdentifier "t", longQuantity, by decide +kernel⟩),
    sampleEvent 2 5 (.orderSubmitted ⟨sampleIdentifier "t", sampleIdentifier "n", sampleIdentifier "t",
      [sampleIdentifier "s"], .buy, longQuantity, sampleSignals_valid, by decide +kernel⟩),
    sampleEvent 2 6 (.fill ⟨sampleIdentifier "t", sampleIdentifier "f", .buy, longQuantity, 100, 0,
      by decide +kernel⟩),
    sampleEvent 2 7 (sampleTarget "u" 0),
    sampleEvent 2 8 (.targetQuantityPlanned ⟨sampleIdentifier "u", 1, one_nonnegative⟩),
    sampleEvent 2 9 (.orderSubmitted ⟨sampleIdentifier "u", sampleIdentifier "o", sampleIdentifier "u",
      [sampleIdentifier "s"], .sell, 1, sampleSignals_valid, one_positive⟩),
    sampleEvent 2 10 (.fill ⟨sampleIdentifier "u", sampleIdentifier "g", .sell, 1, 100, 0, by decide +kernel⟩),
    sampleEvent 2 11 (.positionObserved ⟨5, 0, 0, 0, by decide +kernel⟩), sampleEvent 2 12 sampleAccount,
    sampleEvent 3 13 (sampleCompletion 2 2 2 5), .endOfInput]

/-- The late session stops cleanly although it bought after the stop command and reports a position of five. -/
theorem late_session_stops_long : ((fresh sampleProtocol 1 2).run lateSession).journal.state = .stopped ∧
      ¬ StoppedFlat ((fresh sampleProtocol 1 2).run lateSession) ∧
      filledOn .buy (loggedEvents ((fresh sampleProtocol 1 2).run lateSession).log) = 1 + 1 / 10 ^ 30 ∧
      filledOn .sell (loggedEvents ((fresh sampleProtocol 1 2).run lateSession).log) = 1 := by
  have hbuy : filledOn .buy (loggedEvents ((fresh sampleProtocol 1 2).run lateSession).log) =
      1 + 1 / 10 ^ 30 := by decide +kernel
  have hsell : filledOn .sell (loggedEvents ((fresh sampleProtocol 1 2).run lateSession).log) = 1 := by
    decide +kernel
  refine ⟨by decide +kernel, fun h => ?_, hbuy, hsell⟩
  have := h.balanced
  rw [hbuy, hsell] at this
  norm_num at this

end TradingAgent.Nautilus
