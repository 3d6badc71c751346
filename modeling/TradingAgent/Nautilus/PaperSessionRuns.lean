import TradingAgent.Nautilus.PaperRedelivery
import TradingAgent.Nautilus.PaperSession

/-! What a paper session sends, and after which answers. -/

namespace TradingAgent.Nautilus

open Outcome Interaction Interaction.Stateful JobWorker PaperSessionJournal

variable {P : PaperProtocol}

namespace NautilusPaperSession

/-! ## The parts of a call that send nothing -/

/-- The request neither sends a command to the child nor asks for safety evidence. -/
def Quiet : SessionRequest P → Prop
  | .exchange _ => False
  | .preflight => False
  | _ => True

variable (P) in
/-- Behind the admission of a command nothing is sent, and every exception is one that `execute` turns into a
rejection. -/
def afterExchange : Frame (SessionAnswer P) (NautilusPaperSession P) SessionError where
  le s s' := s'.journal.lastAcceptedCommand = s.journal.lastAcceptedCommand ∧ s'.exitOnly = s.exitOnly
  refl _ := ⟨rfl, rfl⟩
  trans h h' := ⟨h'.1.trans h.1, h'.2.trans h.2⟩
  asks := Quiet
  raises e := ∃ message, e = .raised message

theorem raised_of_mapError {α ε : Type} {text : ε → String} {x : Except ε α} {e : SessionError}
    (h : x.mapError (fun e => .raised (text e)) = .error e) : ∃ message, e = .raised message := by
  cases x with
  | error failure => exact ⟨_, (Except.error.inj h).symm⟩
  | ok a => cases h

variable {α : Type}

theorem stays_check {x : Except String α} : Stays (afterExchange P) (check (x.mapError .raised) : SessionM P α) :=
  Stays.check fun _ he => @raised_of_mapError _ _ id _ _ he

theorem stays_checkFailure {x : Except Failure α} :
    Stays (afterExchange P) (check (x.mapError fun e => .raised (failureText e)) : SessionM P α) :=
  Stays.check fun _ he => raised_of_mapError he

theorem stays_update {f : NautilusPaperSession P → NautilusPaperSession P}
    (hjournal : ∀ s, (f s).journal.lastAcceptedCommand = s.journal.lastAcceptedCommand := by intro; rfl)
    (hexit : ∀ s, (f s).exitOnly = s.exitOnly := by intro; rfl) :
    Stays (afterExchange P) (update f : SessionM P Unit) :=
  Stays.update fun s => ⟨hjournal s, hexit s⟩

theorem stays_throw (message : String) : Stays (afterExchange P) (throw (.raised message) : SessionM P α) :=
  Stays.throw ⟨message, rfl⟩

variable {message : String}

theorem stays_demand {p : Prop} [Decidable p] : Stays (afterExchange P) (demand p message : SessionM P Unit) := by
  refine Stays.check fun e he => ?_
  unfold require at he
  split_ifs at he
  exact ⟨message, (Except.error.inj he).symm⟩

variable {request : SessionRequest P}

theorem stays_askChecked (h : SessionAnswer P request = Except String α)
    (hrequest : Quiet request) : Stays (afterExchange P) (askChecked request h : SessionM P α) :=
  (Stays.ask hrequest).bind fun _ => stays_check

variable {call : PaperSessionJournal → Attempt (α × PaperSessionJournal)}

theorem runs_journalCall
    {s s' : NautilusPaperSession P} {trace : Trace (SessionAnswer P)} {outcome : Except SessionError α}
    (h : Runs (journalCall call) s trace outcome s') :
    trace = [] ∧ s' = { s with journal := (call s.journal).journal } ∧
      ((∃ a j, call s.journal = .ok (a, j) ∧ outcome = .ok a) ∨
        ∃ e j, call s.journal = .error (e, j) ∧ outcome = .error (.raised (failureText e))) := by
  rw [journalCall, runs_read_bind_iff] at h
  cases hcall : call s.journal with
  | ok r =>
    rw [hcall] at h
    obtain ⟨a, j⟩ := r
    dsimp only at h
    rw [runs_update_bind_iff, runs_pure_iff] at h
    obtain ⟨rfl, rfl, rfl⟩ := h
    exact ⟨rfl, rfl, .inl ⟨_, _, rfl, rfl⟩⟩
  | error r =>
    rw [hcall] at h
    obtain ⟨e, j⟩ := r
    dsimp only at h
    rw [runs_update_bind_iff, runs_throw_iff] at h
    obtain ⟨rfl, rfl, rfl⟩ := h
    exact ⟨rfl, rfl, .inr ⟨_, _, rfl, rfl⟩⟩

theorem stays_journalCall (h : ∀ j, (call j).journal.lastAcceptedCommand = j.lastAcceptedCommand) :
    Stays (afterExchange P) (journalCall call : SessionM P α) := by
  intro s trace outcome s' hrun
  obtain ⟨rfl, rfl, ⟨a, j, -, rfl⟩ | ⟨e, j, -, rfl⟩⟩ := runs_journalCall hrun
  · exact ⟨⟨h _, rfl⟩, by simp, by simp⟩
  · refine ⟨⟨h _, rfl⟩, by simp, ?_⟩
    rintro _ ⟨⟩
    exact ⟨_, rfl⟩

theorem stays_storeCall {call : NautilusCheckpointStore P →
    Except Failure (NautilusCheckpointRecord P × NautilusCheckpointStore P)} :
    Stays (afterExchange P) (storeCall call) :=
  Stays.read.bind fun _ => stays_checkFailure.bind fun _ => Stays.bind stays_update fun _ => Stays.pure _

theorem lastAccepted_recordEvent (j : PaperSessionJournal) (raw : Except Failure (PaperEventFrame P)) :
    (j.recordEvent raw).journal.lastAcceptedCommand = j.lastAcceptedCommand := by
  rcases journal_cases (j.recordEvent_avoids raw) with ⟨frame, j', h⟩ | ⟨e, h⟩ | ⟨-, e, h⟩
  · obtain ⟨-, -, -, -, request, -, -, -, -, rfl⟩ := recordEvent_ok h
    rw [h]
    rfl
  · rw [h]
    rfl
  · rw [h]
    rfl

theorem lastAccepted_recordAck (j : PaperSessionJournal) (raw : Received (PaperCommandAcknowledgement P)) :
    (j.recordAck raw).journal.lastAcceptedCommand = j.lastAcceptedCommand := by
  rcases journal_cases (j.recordAck_avoids raw) with ⟨frame, j', h⟩ | ⟨e, h⟩ | ⟨-, e, h⟩
  · obtain ⟨-, -, command, -, -, -, -, state, -, rfl⟩ := recordAck_ok h
    rw [h]
    rfl
  · rw [h]
    rfl
  · rw [h]
    rfl

theorem lastAccepted_endOfInput (j : PaperSessionJournal) :
    (j.endOfInput P).journal.lastAcceptedCommand = j.lastAcceptedCommand := by
  rcases journal_cases (j.endOfInput_avoids (P := P)) with ⟨u, j', h⟩ | ⟨e, h⟩ | ⟨-, e, h⟩
  · obtain ⟨-, -, -, rfl⟩ := endOfInput_ok h
    rw [h]
    rfl
  · rw [h]
    rfl
  · rw [h]
    rfl

theorem stays_recordEvents (payloads : List (ResponsePayload P)) : Stays (afterExchange P) (recordEvents payloads) := by
  induction payloads with
  | nil => exact Stays.pure _
  | cons payload rest ih =>
    cases payload with
    | event raw =>
      exact (stays_journalCall fun j => lastAccepted_recordEvent j raw).bind fun _ =>
        Stays.bind stays_update fun _ => ih
    | unreadable => exact stays_throw _
    | ack raw => exact stays_throw _
    | checkpoint raw => exact stays_throw _
    | other => exact stays_throw _

section Parts

variable (authority : SessionAuthority) (checkpointSha256 : PaperSessionCheckpoint P → Sha256Hex)

theorem stays_acceptCheckpoint (command : PaperCommandFrame P) (final : CheckpointFrame P) :
    Stays (afterExchange P) (acceptCheckpoint authority command final) := by
  refine stays_demand.bind fun _ => ?_
  intro s trace outcome s' h
  rw [runs_read_bind_iff] at h
  revert h
  split
  · exact stays_throw _ _ _ _ _
  · rename_i expected journal hcheckpoint
    intro h
    rw [runs_update_bind_iff] at h
    obtain ⟨hle, hasks, hraises⟩ := (stays_demand.bind fun _ => Stays.pure _) _ _ _ _ h
    obtain ⟨last, -, -, rfl, -⟩ := checkpoint_eq_some hcheckpoint
    exact ⟨hle, hasks, hraises⟩

theorem stays_response (payloads : List (ResponsePayload P)) (command : PaperCommandFrame P) (prior : Sha256Hex) :
    Stays (afterExchange P) (response authority checkpointSha256 payloads command prior) := by
  refine stays_demand.bind fun _ => ?_
  split
  · rename_i acknowledgement rest final _
    refine stays_demand.bind fun _ => ?_
    refine (stays_journalCall fun j => lastAccepted_recordAck j acknowledgement).bind fun _ => ?_
    refine (stays_recordEvents _).bind fun _ => stays_checkFailure.bind fun _ => ?_
    refine (stays_acceptCheckpoint authority command _).bind fun _ => Stays.read.bind fun _ => ?_
    exact stays_demand.bind fun _ => stays_storeCall
  · exact stays_throw _

theorem stays_recordIntent (raw : ReceivedCommand P) (expected : Sha256Hex) :
    Stays (afterExchange P) (recordIntent authority raw expected) :=
  Stays.ite (stays_askChecked rfl (by trivial)) (Stays.pure _)

theorem stays_recordStep (raw : ReceivedCommand P) (record : NautilusCheckpointRecord P) :
    Stays (afterExchange P) (recordStep authority raw record) :=
  Stays.ite (stays_askChecked rfl (by trivial)) (Stays.pure _)

theorem stays_settle (raw : ReceivedCommand P) (command : PaperCommandFrame P)
    (record : NautilusCheckpointRecord P) : Stays (afterExchange P) (settle authority raw command record) := by
  refine Stays.ite ((stays_recordStep authority raw record).bind fun _ => Stays.pure _) ?_
  refine (stays_askChecked rfl (by trivial)).bind fun _ => stays_demand.bind fun _ => ?_
  refine Stays.bind stays_update fun _ => ?_
  refine (stays_journalCall lastAccepted_endOfInput).bind fun _ => ?_
  refine ((stays_askChecked rfl (by trivial)).bind fun _ => stays_storeCall.bind fun _ => Stays.pure _).bind fun bound => ?_
  exact (stays_recordStep authority raw bound.1).bind fun _ =>
    Stays.bind stays_update fun _ => Stays.pure _

end Parts

/-! ## The admission of a command -/

def ShowsSafety : (Σ request, SessionAnswer P request) → Prop
  | ⟨.preflight, answer⟩ =>
    ∃ (evidence : SafetyEvidence) (now : DateTime), answer = .ok (evidence, now) ∧ evidence.Current now
  | _ => False

def PreflightFails (call : Σ request, SessionAnswer P request) : Prop := call.1 = .preflight ∧ ¬ ShowsSafety call

theorem not_preflightFails_of_quiet {call : Σ request, SessionAnswer P request} (h : Quiet call.1) :
    ¬ PreflightFails call := by
  rintro ⟨hpreflight, -⟩
  rw [hpreflight] at h
  exact h

variable {s s' : NautilusPaperSession P} {trace : Trace (SessionAnswer P)}

theorem terminal_rejectedState (reconcile : Bool) : (rejectedState reconcile).Terminal := by
  cases reconcile <;> decide

variable {reconcile : Bool}

theorem runs_reject {outcome : Except SessionError α} (h : Runs (reject message reconcile) s trace outcome s') :
    outcome = .error (.rejected message) ∧ s' = s.withState (rejectedState reconcile) ∧
      ∀ call ∈ trace, Quiet call.1 := by
  rw [reject, runs_read_bind_iff] at h
  split at h
  · rw [runs_ask_bind_iff] at h
    obtain ⟨r, rest, h, rfl⟩ := h
    rw [runs_update_bind_iff, runs_throw_iff] at h
    obtain ⟨rfl, rfl, rfl⟩ := h
    refine ⟨rfl, rfl, fun call hcall => ?_⟩
    obtain rfl := List.mem_singleton.1 hcall
    trivial
  · rw [runs_update_bind_iff, runs_throw_iff] at h
    obtain ⟨rfl, rfl, rfl⟩ := h
    exact ⟨rfl, rfl, by simp⟩

theorem runs_askChecked {heq : SessionAnswer P request = Except String α} {outcome : Except SessionError α}
    (h : Runs (askChecked request heq) s trace outcome s') :
    s' = s ∧ ∃ answer, trace = [⟨request, answer⟩] ∧ outcome = (cast heq answer).mapError .raised := by
  rw [askChecked, runs_ask_bind_iff] at h
  obtain ⟨answer, rest, h, rfl⟩ := h
  obtain ⟨rfl, rfl, rfl⟩ := runs_check_iff.1 h
  exact ⟨rfl, answer, rfl, rfl⟩

variable {outcome : Except SessionError Unit}

theorem runs_preflight (h : Runs preflight s trace outcome s') :
    s' = s ∧ ∃ call, trace = [call] ∧ call.1 = .preflight ∧ (outcome = .ok () ↔ ShowsSafety call) := by
  rcases runs_bind_iff.1 h with ⟨e, hask, rfl⟩ | ⟨⟨evidence, now⟩, mid, first, rest, hask, hrest, rfl⟩
  · obtain ⟨rfl, answer, rfl, hanswer⟩ := runs_askChecked hask
    refine ⟨rfl, _, rfl, rfl, iff_of_false (by simp) ?_⟩
    rintro ⟨evidence, now, rfl, -⟩
    cases hanswer
  · obtain ⟨rfl, answer, rfl, hanswer⟩ := runs_askChecked hask
    have hok : answer = .ok (evidence, now) := mapError_ok_iff.1 hanswer.symm
    have hshows : ShowsSafety (P := P) ⟨.preflight, answer⟩ ↔ evidence.Current now := by
      rw [hok]
      constructor
      · rintro ⟨evidence', now', heq, hcurrent⟩
        obtain ⟨rfl, rfl⟩ := Prod.mk.inj (Except.ok.inj heq)
        exact hcurrent
      · exact fun hcurrent => ⟨evidence, now, rfl, hcurrent⟩
    dsimp only at hrest
    rcases runs_bind_iff.1 hrest with ⟨e, hcheck, rfl⟩ | ⟨validated, mid', first, rest', hcheck, hpure, rfl⟩
    · obtain ⟨rfl, hcheck, rfl⟩ := runs_check_iff.1 hcheck
      refine ⟨rfl, _, rfl, rfl, iff_of_false (by simp) ?_⟩
      rw [hshows]
      intro hcurrent
      rw [validateCurrentSafetyEvidence_ok_iff.2 ⟨hcurrent, rfl⟩] at hcheck
      cases hcheck
    · obtain ⟨rfl, hvalid, rfl⟩ := runs_check_iff.1 hcheck
      obtain ⟨rfl, rfl, rfl⟩ := runs_pure_iff.1 hpure
      refine ⟨rfl, _, rfl, rfl, iff_of_true rfl (hshows.2 ?_)⟩
      exact (validateCurrentSafetyEvidence_ok_iff.1 (mapError_ok_iff.1 hvalid.symm)).1

structure Refused (s : NautilusPaperSession P) (commandType : Option PaperCommandName)
    (trace : Trace (SessionAnswer P)) (s' : NautilusPaperSession P) : Prop where
  silent : ∀ raw answer, (⟨.exchange raw, answer⟩ : Σ request, SessionAnswer P request) ∉ trace
  journal : s'.state.Terminal ∨ s'.journal = s.journal ∧ s'.checkpoints = s.checkpoints
  exit_only : s.exitOnly = true → s'.exitOnly = true
  engaged : commandType = some .submitTargetPortfolio → (∃ call ∈ trace, PreflightFails call) →
    s'.exitOnly = true ∨ s'.state.Terminal

/-- What a call did before it was admitted. -/
structure Admitted (s : NautilusPaperSession P) (sessionId : Uuid) (commandType : PaperCommandName)
    (trace : Trace (SessionAnswer P)) : Prop where
  silent : ∀ raw answer, (⟨.exchange raw, answer⟩ : Σ request, SessionAnswer P request) ∉ trace
  safe : ∀ call ∈ trace, ¬ PreflightFails call
  shown : commandType = .startPaperEngine ∨ commandType = .submitTargetPortfolio →
    ∃ call ∈ trace, ShowsSafety call
  exit_only : s.exitOnly = true → commandType = .stopPaperEngine
  start : s.checkpoints.load sessionId = none ↔ commandType = .startPaperEngine

variable {commandType : Option PaperCommandName}

theorem refused_of_reject (hs' : s' = s.withState (rejectedState reconcile)) (hquiet : ∀ call ∈ trace, Quiet call.1) :
    Refused s commandType trace s' where
  silent raw answer hmem := hquiet _ hmem
  journal := .inl (by rw [hs']; exact terminal_rejectedState reconcile)
  exit_only h := by rw [hs']; exact h
  engaged := by
    rintro - ⟨call, hcall, hfails⟩
    exact absurd hfails (not_preflightFails_of_quiet (hquiet call hcall))

variable {expected : Option Sha256Hex}

theorem runs_currentCheckpoint {authority : SessionAuthority}
    {outcome : Except SessionError (Option (NautilusCheckpointRecord P))}
    (h : Runs (currentCheckpoint authority expected) s trace outcome s') :
    (trace = [] ∧ s' = s ∧ outcome = .ok (s.checkpoints.load authority.engineRunId) ∧
        expected = some (s.checkpoints.observed authority.engineRunId)) ∨
      ∃ message reconcile, outcome = .error (.rejected message) ∧ s' = s.withState (rejectedState reconcile) ∧
        ∀ call ∈ trace, Quiet call.1 := by
  rw [currentCheckpoint, runs_read_bind_iff] at h
  dsimp only at h
  split at h
  · rename_i hexpected
    obtain ⟨rfl, rfl, rfl⟩ := runs_pure_iff.1 h
    exact .inl ⟨rfl, rfl, rfl, hexpected⟩
  · obtain ⟨rfl, rfl, hquiet⟩ := runs_reject h
    exact .inr ⟨_, _, rfl, rfl, hquiet⟩

theorem runs_guardedPreflight {current : Option (NautilusCheckpointRecord P)} {commandType : PaperCommandName}
    (h : Runs (guardedPreflight current commandType) s trace outcome s') :
    (s' = s ∧ outcome = .ok () ∧ ∃ call, trace = [call] ∧ ShowsSafety call) ∨
      ((∃ message, outcome = .error (.rejected message)) ∧ Refused s (some commandType) trace s') := by
  rcases runs_handle_iff.1 h with ⟨u, hrun, rfl⟩ | ⟨e, mid, first, rest, hrun, hhandler, rfl⟩
  · obtain ⟨rfl, call, rfl, -, hshows⟩ := runs_preflight hrun
    exact .inl ⟨rfl, rfl, call, rfl, hshows.1 rfl⟩
  · obtain ⟨rfl, call, rfl, hpreflight, hshows⟩ := runs_preflight hrun
    right
    have hsilent (raw : ReceivedCommand P) (answer : SessionAnswer P (.exchange raw)) :
        (⟨.exchange raw, answer⟩ : Σ request, SessionAnswer P request) ≠ call := by
      rintro rfl
      cases hpreflight
    split at hhandler
    · rw [runs_update_bind_iff, runs_throw_iff] at hhandler
      obtain ⟨rfl, rfl, rfl⟩ := hhandler
      refine ⟨⟨_, rfl⟩, ?_, .inr ⟨rfl, rfl⟩, fun _ => rfl, fun _ _ => .inl rfl⟩
      intro raw answer hmem
      exact hsilent raw answer (by simpa using hmem)
    · obtain ⟨rfl, rfl, hquiet⟩ := runs_reject hhandler
      refine ⟨⟨_, rfl⟩, ?_, .inl (terminal_rejectedState _), id, fun _ _ => .inr (terminal_rejectedState _)⟩
      intro raw answer hmem
      rcases List.mem_append.1 hmem with hmem | hmem
      · exact hsilent raw answer (List.mem_singleton.1 hmem)
      · exact hquiet _ hmem

theorem runs_admission {authority : SessionAuthority} {command : PaperCommandFrame P}
    {outcome : Except SessionError (Option (NautilusCheckpointRecord P))}
    (h : Runs (admission authority command expected) s trace outcome s') :
    (s' = s ∧ (∃ current, outcome = .ok current) ∧ Admitted s authority.engineRunId command.command.commandType trace ∧
        expected = some (s.checkpoints.observed authority.engineRunId)) ∨
      ((∃ message, outcome = .error (.rejected message)) ∧ Refused s (some command.command.commandType) trace s') := by
  rcases runs_bind_iff.1 h with ⟨e, hcurrent, rfl⟩ | ⟨current, mid, first, rest, hcurrent, hrest, rfl⟩
  · rcases runs_currentCheckpoint hcurrent with ⟨-, -, hok, -⟩ | ⟨message, reconcile, he, hs', hquiet⟩
    · cases hok
    · exact .inr ⟨⟨message, he⟩, refused_of_reject hs' hquiet⟩
  rcases runs_currentCheckpoint hcurrent with ⟨rfl, rfl, hok, hexpected⟩ | ⟨message, reconcile, he, -⟩
  swap
  · cases he
  obtain rfl := Except.ok.inj hok
  rw [runs_read_bind_iff] at hrest
  split at hrest
  · obtain ⟨rfl, rfl, rfl⟩ := runs_throw_iff.1 hrest
    refine .inr ⟨⟨_, rfl⟩, ?_, .inr ⟨rfl, rfl⟩, id, ?_⟩
    · simp
    · simp
  rename_i hexit
  push Not at hexit
  -- the last check, after the preflight of a start or a submission
  have hstart {before after : Trace (SessionAnswer P)} {outcome : Except SessionError _}
      (hfinish : Runs (if (mid.checkpoints.load authority.engineRunId = none) ≠
          (command.command.commandType = .startPaperEngine) then
            reject "paper start authority is invalid" (mid.checkpoints.load authority.engineRunId).isSome
          else pure (mid.checkpoints.load authority.engineRunId)) mid after outcome s')
      (hbefore : ∀ raw answer, (⟨.exchange raw, answer⟩ : Σ request, SessionAnswer P request) ∉ before)
      (hsafe : ∀ call ∈ before, ¬ PreflightFails call)
      (hshown : command.command.commandType = .startPaperEngine ∨
        command.command.commandType = .submitTargetPortfolio → ∃ call ∈ before, ShowsSafety call) :
      (s' = mid ∧ (∃ current, outcome = .ok current) ∧
          Admitted mid authority.engineRunId command.command.commandType (before ++ after) ∧
          expected = some (mid.checkpoints.observed authority.engineRunId)) ∨
        ((∃ message, outcome = .error (.rejected message)) ∧
          Refused mid (some command.command.commandType) (before ++ after) s') := by
    split at hfinish
    · obtain ⟨rfl, rfl, hquiet⟩ := runs_reject hfinish
      refine .inr ⟨⟨_, rfl⟩, ?_, .inl (terminal_rejectedState _), id, fun _ _ => .inr (terminal_rejectedState _)⟩
      intro raw answer hmem
      exact (List.mem_append.1 hmem).elim (hbefore raw answer) fun hmem => hquiet _ hmem
    · rename_i hsame
      obtain ⟨rfl, rfl, rfl⟩ := runs_pure_iff.1 hfinish
      rw [List.append_nil]
      exact .inl ⟨rfl, ⟨_, rfl⟩, ⟨hbefore, hsafe, hshown, hexit, iff_of_eq (not_not.1 hsame)⟩, hexpected⟩
  dsimp only at hrest
  rw [List.nil_append]
  split at hrest
  · rcases runs_bind_iff.1 hrest with ⟨e, hguard, rfl⟩ | ⟨u, mid', before, after, hguard, hfinish, rfl⟩
    · rcases runs_guardedPreflight hguard with ⟨-, hok, -⟩ | ⟨⟨message, he⟩, hrefused⟩
      · cases hok
      · exact .inr ⟨⟨message, by rw [Except.error.inj he]⟩, hrefused⟩
    · rcases runs_guardedPreflight hguard with ⟨rfl, -, call, rfl, hshows⟩ | ⟨⟨message, he⟩, -⟩
      · refine hstart hfinish ?_ ?_ fun _ => ⟨call, by simp, hshows⟩
        · intro raw answer hmem
          obtain rfl := List.mem_singleton.1 hmem
          exact hshows
        · intro c hc hfails
          obtain rfl := List.mem_singleton.1 hc
          exact hfails.2 hshows
      · cases he
  · rename_i hother
    exact @hstart [] _ _ hrest (by simp) (by simp) fun h => absurd h hother

/-! ## One call -/

structure Guarded (authority : SessionAuthority) (raw : ReceivedCommand P) (command : PaperCommandFrame P)
    (before : Trace (SessionAnswer P)) : Prop where
  shown : command.command.commandType = .startPaperEngine ∨
    command.command.commandType = .submitTargetPortfolio → ∃ call ∈ before, ShowsSafety call
  intent : authority.recorder = true → ∃ expected, (⟨.begin raw expected (provenance authority), .ok ()⟩ :
    Σ request, SessionAnswer P request) ∈ before

/-- What one call of `execute` does: it sends nothing, or it sends the command it was given. -/
inductive CallEffect (authority : SessionAuthority) (s : NautilusPaperSession P) (raw : ReceivedCommand P)
    (trace : Trace (SessionAnswer P)) (s' : NautilusPaperSession P) : Prop
  | refused
    (hrefused : Refused s (raw.frame.toOption.map fun command => command.command.commandType) trace s')
  | exchanged (command : PaperCommandFrame P) (before after : Trace (SessionAnswer P))
    (answer : SessionAnswer P (.exchange raw)) (htrace : trace = before ++ ⟨.exchange raw, answer⟩ :: after)
    (hbefore : ∀ raw answer, (⟨.exchange raw, answer⟩ : Σ request, SessionAnswer P request) ∉ before)
    (hafter : ∀ raw answer, (⟨.exchange raw, answer⟩ : Σ request, SessionAnswer P request) ∉ after)
    (hsafe : ∀ call ∈ trace, ¬ PreflightFails call) (hframe : raw.frame = .ok command)
    (hlive : ¬ s.state.Terminal) (hguarded : Guarded authority raw command before)
    (hsequence : command.commandSequence = s.journal.lastAcceptedCommand + 1)
    (hexit : s.exitOnly = true → command.command.commandType = .stopPaperEngine)
    (hstart : s.checkpoints.load authority.engineRunId = none ↔ command.command.commandType = .startPaperEngine)
    (haccepted : s'.journal.lastAcceptedCommand = s.journal.lastAcceptedCommand + 1)
    (hkept : s'.exitOnly = s.exitOnly)

section Execute

variable {authority : SessionAuthority} {checkpointSha256 : PaperSessionCheckpoint P → Sha256Hex}
  {raw : ReceivedCommand P} {command : PaperCommandFrame P}

theorem runs_recordIntent {expected : Sha256Hex} (h : Runs (recordIntent authority raw expected) s trace outcome s') :
    s' = s ∧ (∀ call ∈ trace, Quiet call.1) ∧ (∀ e, outcome = .error e → ∃ message, e = .raised message) ∧
      (outcome = .ok () → authority.recorder = true →
        (⟨.begin raw expected (provenance authority), .ok ()⟩ : Σ request, SessionAnswer P request) ∈ trace) := by
  obtain ⟨-, hquiet, hraised⟩ := stays_recordIntent authority raw expected _ _ _ _ h
  rw [recordIntent] at h
  split at h
  · obtain ⟨rfl, answer, rfl, rfl⟩ := runs_askChecked h
    refine ⟨rfl, hquiet, hraised, fun hok _ => ?_⟩
    rw [List.mem_singleton, ← (mapError_ok_iff (x := cast rfl answer)).1 hok]
    rfl
  · rename_i hrecorder
    obtain ⟨rfl, rfl, rfl⟩ := runs_pure_iff.1 h
    exact ⟨rfl, hquiet, hraised, fun _ h => absurd h hrecorder⟩

def Sent (authority : SessionAuthority) (raw : ReceivedCommand P) (expected : Sha256Hex)
    (s : NautilusPaperSession P) (trace : Trace (SessionAnswer P)) (s' : NautilusPaperSession P) : Prop :=
  ∃ frame before after answer, trace = before ++ ⟨.exchange raw, answer⟩ :: after ∧
    (∀ call ∈ before, Quiet call.1) ∧ (∀ call ∈ after, Quiet call.1) ∧ raw.frame = .ok frame ∧
    frame.commandSequence = s.journal.lastAcceptedCommand + 1 ∧
    s'.journal.lastAcceptedCommand = s.journal.lastAcceptedCommand + 1 ∧
    (authority.recorder = true → (⟨.begin raw expected (provenance authority), .ok ()⟩ :
      Σ request, SessionAnswer P request) ∈ before)

theorem runs_exchangeCommand {expected : Sha256Hex} {outcome : Except SessionError (NautilusCheckpointRecord P)}
    (h : Runs (exchangeCommand authority checkpointSha256 raw command expected) s trace outcome s') :
    s'.exitOnly = s.exitOnly ∧ (∀ e, outcome = .error e → ∃ message, e = .raised message) ∧
      (((∀ call ∈ trace, Quiet call.1) ∧ ∃ e, outcome = .error e) ∨ Sent authority raw expected s trace s') := by
  rcases runs_bind_iff.1 h with ⟨e, haccept, rfl⟩ | ⟨frame, mid, first, rest, haccept, hrest, rfl⟩
  · obtain ⟨rfl, rfl, ⟨a, j, -, hok⟩ | ⟨failure, j, -, he⟩⟩ := runs_journalCall haccept
    · cases hok
    · obtain rfl := Except.error.inj he
      refine ⟨rfl, ?_, .inl ⟨by simp, _, rfl⟩⟩
      rintro _ ⟨⟩
      exact ⟨_, rfl⟩
  obtain ⟨rfl, rfl, ⟨a, j, hcall, hok⟩ | ⟨failure, j, -, he⟩⟩ := runs_journalCall haccept
  swap
  · cases he
  obtain rfl := Except.ok.inj hok
  obtain ⟨-, hframe, -, -, -, hsequence, state, -, rfl⟩ := acceptCommand_ok hcall
  rw [hcall, runs_update_bind_iff] at hrest
  rw [List.nil_append]
  rcases runs_bind_iff.1 hrest with ⟨e, hintent, rfl⟩ | ⟨u, mid, first, rest, hintent, hrest, rfl⟩
  · obtain ⟨rfl, hquiet, hraised, -⟩ := runs_recordIntent hintent
    refine ⟨rfl, ?_, .inl ⟨hquiet, _, rfl⟩⟩
    rintro _ ⟨⟩
    exact hraised _ rfl
  obtain ⟨rfl, hquiet, -, hintent⟩ := runs_recordIntent hintent
  rcases runs_bind_iff.1 hrest with ⟨e, hexchange, rfl⟩ | ⟨payloads, mid, first', rest', hexchange, hanswered, rfl⟩
  · obtain ⟨rfl, answer, rfl, he⟩ := runs_askChecked hexchange
    refine ⟨rfl, ?_, .inr ⟨frame, first, [], answer, rfl, hquiet, by simp, hframe, hsequence, hsequence,
      hintent rfl⟩⟩
    rintro _ ⟨⟩
    exact @raised_of_mapError _ _ id _ _ he.symm
  · obtain ⟨rfl, answer, rfl, -⟩ := runs_askChecked hexchange
    have hstays : Stays (afterExchange P) (do
        let record ← response authority checkpointSha256 payloads command expected
        update fun session => session.withState (.paper record.checkpoint.state)
        pure record) :=
      (stays_response authority checkpointSha256 payloads command expected).bind fun _ =>
        Stays.bind stays_update fun _ => Stays.pure _
    obtain ⟨⟨hkeeps, hexit⟩, hasks, hraises⟩ := hstays _ _ _ _ hanswered
    exact ⟨hexit, hraises, .inr ⟨frame, first, rest', answer, rfl, hquiet, hasks, hframe, hsequence,
      hkeeps.trans hsequence, hintent rfl⟩⟩

theorem runs_exchange_settle {expected : Sha256Hex} {outcome : Except SessionError (NautilusSessionResult P)}
    (h : Runs (do
      let record ← exchangeCommand authority checkpointSha256 raw command expected
      settle authority raw command record) s trace outcome s') :
    s'.exitOnly = s.exitOnly ∧ (∀ e, outcome = .error e → ∃ message, e = .raised message) ∧
      (((∀ call ∈ trace, Quiet call.1) ∧ ∃ e, outcome = .error e) ∨ Sent authority raw expected s trace s') := by
  rcases runs_bind_iff.1 h with ⟨e, hexchange, rfl⟩ | ⟨record, mid, first, rest, hexchange, hsettle, rfl⟩
  · obtain ⟨hexit, hraised, ⟨hquiet, -⟩ | hsent⟩ := runs_exchangeCommand hexchange
    · exact ⟨hexit, fun e' he => hraised e' (by rw [Except.error.inj he]), .inl ⟨hquiet, e, rfl⟩⟩
    · exact ⟨hexit, fun e' he => hraised e' (by rw [Except.error.inj he]), .inr hsent⟩
  · obtain ⟨⟨hkeeps, hexit⟩, hasks, hraises⟩ := stays_settle authority raw command record _ _ _ _ hsettle
    obtain ⟨hexit', -, ⟨-, e, he⟩ | hsent⟩ := runs_exchangeCommand hexchange
    · cases he
    · obtain ⟨frame, before, after, answer, rfl, hbefore, hafter, hframe, hsequence, haccepted, hintent⟩ := hsent
      refine ⟨hexit.trans hexit', hraises, .inr ⟨frame, before, after ++ rest, answer, by simp, hbefore,
        List.forall_mem_append.2 ⟨hafter, hasks⟩, hframe, hsequence, hkeeps.trans haccepted, hintent⟩⟩

theorem refused_of_terminal (hexit : s'.exitOnly = s.exitOnly)
    (hsilent : ∀ raw answer, (⟨.exchange raw, answer⟩ : Σ request, SessionAnswer P request) ∉ trace)
    (hterminal : s'.state.Terminal) : Refused s commandType trace s' where
  silent := hsilent
  journal := .inl hterminal
  exit_only h := hexit.trans h
  engaged _ _ := .inr hterminal

theorem runs_execute {outcome : Except SessionError (NautilusSessionResult P)}
    (h : Runs (execute authority checkpointSha256 raw expected) s trace outcome s') :
    CallEffect authority s raw trace s' := by
  rw [execute, runs_read_bind_iff] at h
  split at h
  · obtain ⟨rfl, rfl, rfl⟩ := runs_throw_iff.1 h
    exact .refused ⟨by simp, .inr ⟨rfl, rfl⟩, id, by simp⟩
  rename_i hlive
  cases hframe : raw.frame with
  | error failure =>
    rw [hframe] at h
    obtain ⟨rfl, rfl, hquiet⟩ := runs_reject h
    exact .refused (refused_of_reject rfl hquiet)
  | ok command =>
    rw [hframe] at h
    dsimp only at h
    -- the outcome of the body is handed on, or becomes a rejection
    obtain ⟨inner, mid, first, rest, hbody, hrest, rfl⟩ : ∃ inner mid first rest, Runs (do
          let _ ← admission authority command expected
          let record ← exchangeCommand authority checkpointSha256 raw command (expected.getD zeroDigest)
          settle authority raw command record) s first inner mid ∧
        ((∀ message, inner ≠ .error (.raised message)) ∧ rest = [] ∧ s' = mid ∨
          (∃ message, inner = .error (.raised message)) ∧
            s' = mid.withState (rejectedState true) ∧ ∀ call ∈ rest, Quiet call.1) ∧
        trace = first ++ rest := by
      rcases runs_handle_iff.1 h with ⟨a, hbody, rfl⟩ | ⟨e, mid, first, rest, hbody, hhandler, rfl⟩
      · exact ⟨_, _, _, [], hbody, .inl ⟨by simp, rfl, rfl⟩, by simp⟩
      · cases e with
        | rejected message =>
          obtain ⟨rfl, -, rfl⟩ := runs_throw_iff.1 hhandler
          exact ⟨_, _, _, _, hbody, .inl ⟨by simp, rfl, rfl⟩, rfl⟩
        | raised message =>
          obtain ⟨-, hs', hquiet⟩ := runs_reject hhandler
          exact ⟨_, _, _, _, hbody, .inr ⟨⟨message, rfl⟩, hs', hquiet⟩, rfl⟩
    have hkept : s'.journal = mid.journal ∧ s'.exitOnly = mid.exitOnly ∧ ∀ call ∈ rest, Quiet call.1 := by
      rcases hrest with ⟨-, rfl, rfl⟩ | ⟨-, rfl, hquiet⟩
      · exact ⟨rfl, rfl, by simp⟩
      · exact ⟨rfl, rfl, hquiet⟩
    rcases runs_bind_iff.1 hbody with ⟨e, hadmission, rfl⟩ | ⟨current, mid', before, middle, hadmission, hsend, rfl⟩
    · rcases runs_admission hadmission with ⟨-, ⟨current, hok⟩, -⟩ | ⟨⟨message, he⟩, hrefused⟩
      · cases hok
      obtain rfl := Except.error.inj he
      rcases hrest with ⟨-, rfl, rfl⟩ | ⟨⟨message', he'⟩, -⟩
      · rw [List.append_nil]
        refine .refused ?_
        rw [hframe]
        exact hrefused
      · cases he'
    · rcases runs_admission hadmission with ⟨rfl, -, hadmitted, -⟩ | ⟨⟨message, he⟩, -⟩
      swap
      · cases he
      obtain ⟨hexit, hraised, ⟨hquiet, e, rfl⟩ | hsent⟩ := runs_exchange_settle hsend
      · obtain ⟨message, rfl⟩ := hraised e rfl
        rcases hrest with ⟨hnot, -⟩ | ⟨-, rfl, hrest⟩
        · exact absurd rfl (hnot message)
        refine .refused (refused_of_terminal hexit ?_ (terminal_rejectedState true))
        intro raw' answer hmem
        rcases List.mem_append.1 hmem with hmem | hmem
        · rcases List.mem_append.1 hmem with hmem | hmem
          · exact hadmitted.silent raw' answer hmem
          · exact hquiet _ hmem
        · exact hrest _ hmem
      · obtain ⟨frame, pre, post, answer, rfl, hpre, hpost, hframe', hsequence, haccepted, hintent⟩ := hsent
        obtain rfl := Except.ok.inj (hframe.symm.trans hframe')
        have hbefore (raw' : ReceivedCommand P) (answer' : SessionAnswer P (.exchange raw')) :
            (⟨.exchange raw', answer'⟩ : Σ request, SessionAnswer P request) ∉ before ++ pre := fun hmem =>
          (List.mem_append.1 hmem).elim (hadmitted.silent raw' answer') fun hmem => hpre _ hmem
        have hafter (raw' : ReceivedCommand P) (answer' : SessionAnswer P (.exchange raw')) :
            (⟨.exchange raw', answer'⟩ : Σ request, SessionAnswer P request) ∉ post ++ rest := fun hmem =>
          (List.mem_append.1 hmem).elim (fun hmem => hpost _ hmem) fun hmem => hkept.2.2 _ hmem
        refine .exchanged command (before ++ pre) (post ++ rest) answer (by simp) hbefore hafter ?_ hframe hlive ?_
          hsequence hadmitted.exit_only hadmitted.start (by rw [hkept.1]; exact haccepted)
          (hkept.2.1.trans hexit)
        · intro call hcall
          simp only [List.mem_append, List.mem_cons] at hcall
          rcases hcall with (hcall | hcall | rfl | hcall) | hcall
          · exact hadmitted.safe call hcall
          · exact not_preflightFails_of_quiet (hpre call hcall)
          · exact fun hfails => nomatch hfails.1
          · exact not_preflightFails_of_quiet (hpost call hcall)
          · exact not_preflightFails_of_quiet (hkept.2.2 call hcall)
        · constructor
          · intro hguard
            obtain ⟨call, hcall, hshows⟩ := hadmitted.shown hguard
            exact ⟨call, List.mem_append_left _ hcall, hshows⟩
          · exact fun hrecorder => ⟨_, List.mem_append_right _ (hintent hrecorder)⟩

end Execute

/-! ## Runs -/

variable (P) in
/-- A call of `execute`: what it was given, what it exchanged with the world, and the session after it. -/
structure CallRecord where
  raw : ReceivedCommand P
  trace : Trace (SessionAnswer P)
  after : NautilusPaperSession P

/-- Calls of `execute` one after the other, against a world that has seen the trace before them. -/
def executeAll (authority : SessionAuthority) (checkpointSha256 : PaperSessionCheckpoint P → Sha256Hex)
    (world : World (SessionAnswer P)) :
    NautilusPaperSession P → Trace (SessionAnswer P) → List (ReceivedCommand P × Option Sha256Hex) →
      List (CallRecord P)
  | _, _, [] => []
  | session, past, call :: calls =>
    let played := (StateT.run (ExceptT.run (execute authority checkpointSha256 call.1 call.2)) session).play world past
    { raw := call.1, trace := played.2, after := played.1.2 } ::
      executeAll authority checkpointSha256 world played.1.2 (past ++ played.2) calls

def sentCommand : (Σ request, SessionAnswer P request) → Option (PaperCommandFrame P)
  | ⟨.exchange raw, _⟩ => raw.frame.toOption
  | _ => none

def sentCommands (records : List (CallRecord P)) : List (PaperCommandFrame P) :=
  records.flatMap fun record => record.trace.filterMap sentCommand

def SubmissionUnsafe (record : CallRecord P) : Prop :=
  record.raw.frame.toOption.map (fun command => command.command.commandType) = some .submitTargetPortfolio ∧
    ∃ call ∈ record.trace, PreflightFails call

theorem filterMap_sentCommand_of_silent
    (h : ∀ raw answer, (⟨.exchange raw, answer⟩ : Σ request, SessionAnswer P request) ∉ trace) :
    trace.filterMap sentCommand = [] := by
  rw [List.filterMap_eq_nil_iff]
  rintro ⟨request, answer⟩ hmem
  cases request with
  | exchange raw => exact absurd hmem (h raw answer)
  | _ => rfl

theorem runs_execute_terminal {authority : SessionAuthority}
    {checkpointSha256 : PaperSessionCheckpoint P → Sha256Hex} {raw : ReceivedCommand P}
    {outcome : Except SessionError (NautilusSessionResult P)}
    (h : Runs (execute authority checkpointSha256 raw expected) s trace outcome s') (hterminal : s.state.Terminal) :
    s' = s ∧ trace = [] := by
  rw [execute, runs_read_bind_iff, if_pos hterminal, runs_throw_iff] at h
  exact ⟨h.2.2, h.1⟩

section Run

variable {authority : SessionAuthority} {checkpointSha256 : PaperSessionCheckpoint P → Sha256Hex}
  {world : World (SessionAnswer P)} {calls : List (ReceivedCommand P × Option Sha256Hex)}

structure SendsFrom (authority : SessionAuthority) (s : NautilusPaperSession P) (records : List (CallRecord P)) :
    Prop where
  sequences : (sentCommands records).map PaperCommandFrame.commandSequence =
    List.range' (s.journal.lastAcceptedCommand + 1) (sentCommands records).length
  first : s.checkpoints.load authority.engineRunId = none →
    ∀ command ∈ (sentCommands records).head?, command.command.commandType = .startPaperEngine
  exit_only : s.exitOnly = true →
    ∀ command ∈ sentCommands records, command.command.commandType = .stopPaperEngine
  terminal : s.state.Terminal → sentCommands records = []

theorem SendsFrom.of_nil {records : List (CallRecord P)} (h : sentCommands records = []) :
    SendsFrom authority s records where
  sequences := by simp [h]
  first := by simp [h]
  exit_only := by simp [h]
  terminal _ := h

theorem SendsFrom.cons {record : CallRecord P} {records : List (CallRecord P)}
    (heffect : CallEffect authority s record.raw record.trace record.after)
    (hterminal : s.state.Terminal → record.after = s) (h : SendsFrom authority record.after records) :
    SendsFrom authority s (record :: records) := by
  have hsplit : sentCommands (record :: records) = record.trace.filterMap sentCommand ++ sentCommands records := by
    simp [sentCommands]
  cases heffect with
  | refused hrefused =>
    rw [filterMap_sentCommand_of_silent hrefused.silent, List.nil_append] at hsplit
    by_cases hover : record.after.state.Terminal
    · exact .of_nil (hsplit.trans (h.terminal hover))
    · obtain ⟨hjournal, hcheckpoints⟩ := hrefused.journal.resolve_left hover
      constructor
      · rw [hsplit, h.sequences, hjournal]
      · rw [hsplit, ← hcheckpoints]
        exact h.first
      · rw [hsplit]
        exact fun hexit => h.exit_only (hrefused.exit_only hexit)
      · intro hs
        exact absurd (hterminal hs ▸ hs) hover
  | exchanged command before after answer htrace hbefore hafter hsafe hframe hlive hguarded hsequence hexit hstart
      haccepted hkept =>
    have hsent : record.trace.filterMap sentCommand = [command] := by
      rw [htrace, List.filterMap_append, List.filterMap_cons, filterMap_sentCommand_of_silent hbefore,
        filterMap_sentCommand_of_silent hafter]
      simp [sentCommand, hframe, Except.toOption]
    rw [hsent, List.singleton_append] at hsplit
    constructor
    · rw [hsplit, List.map_cons, List.length_cons, List.range'_succ, hsequence, h.sequences, haccepted]
    · intro hnone c hc
      rw [hsplit, List.head?_cons, Option.mem_some_iff] at hc
      rw [← hc]
      exact hstart.1 hnone
    · intro hs c hc
      rw [hsplit, List.mem_cons] at hc
      rcases hc with rfl | hc
      · exact hexit hs
      · exact h.exit_only (hkept.trans hs) c hc
    · exact fun hs => absurd hs hlive

theorem runs_played (raw : ReceivedCommand P) (expected : Option Sha256Hex) (s : NautilusPaperSession P)
    (past : Trace (SessionAnswer P)) : Runs (execute authority checkpointSha256 raw expected) s
      ((StateT.run (ExceptT.run (execute authority checkpointSha256 raw expected)) s).play world past).2
      ((StateT.run (ExceptT.run (execute authority checkpointSha256 raw expected)) s).play world past).1.1
      ((StateT.run (ExceptT.run (execute authority checkpointSha256 raw expected)) s).play world past).1.2 :=
  answered_play world _ past

theorem sendsFrom_executeAll (s : NautilusPaperSession P) (past : Trace (SessionAnswer P)) :
    SendsFrom authority s (executeAll authority checkpointSha256 world s past calls) := by
  induction calls generalizing s past with
  | nil => exact .of_nil rfl
  | cons call calls ih =>
    have hrun := @runs_played _ authority checkpointSha256 world call.1 call.2 s past
    exact .cons (runs_execute hrun) (fun hterminal => (runs_execute_terminal hrun hterminal).1) (ih _ _)

end Run

/-- What holds of the calls of a session. -/
structure SendsOnlyWhatItMay (authority : SessionAuthority) (checkpoints : NautilusCheckpointStore P)
    (records : List (CallRecord P)) : Prop where
  /-- a sent frame is the one of its call, and was guarded before in the same call -/
  guarded : ∀ record ∈ records, ∀ raw answer,
    (⟨.exchange raw, answer⟩ : Σ request, SessionAnswer P request) ∈ record.trace → raw = record.raw ∧
      ∃ command before after, raw.frame = .ok command ∧ record.trace = before ++ ⟨.exchange raw, answer⟩ :: after ∧
        Guarded authority raw command before
  sequences : (sentCommands records).map PaperCommandFrame.commandSequence =
    List.range' 1 (sentCommands records).length
  first : checkpoints.load authority.engineRunId = none →
    ∀ command ∈ (sentCommands records).head?, command.command.commandType = .startPaperEngine
  exit_only : ∀ before record after, records = before ++ record :: after → SubmissionUnsafe record →
    ∀ command ∈ sentCommands (record :: after), command.command.commandType = .stopPaperEngine
  terminal : ∀ before record after, records = before ++ record :: after → record.after.state.Terminal →
    sentCommands after = []

variable {authority : SessionAuthority} {checkpointSha256 : PaperSessionCheckpoint P → Sha256Hex}
  {world : World (SessionAnswer P)} {calls : List (ReceivedCommand P × Option Sha256Hex)}
  {record : CallRecord P}

theorem executeAll_split {before after : List (CallRecord P)}
    (h : executeAll authority checkpointSha256 world s trace calls = before ++ record :: after) :
    (∃ mid, CallEffect authority mid record.raw record.trace record.after) ∧
      SendsFrom authority record.after after := by
  induction before generalizing s trace calls with
  | nil =>
    cases calls with
    | nil => cases h
    | cons call calls =>
      obtain ⟨rfl, rfl⟩ := List.cons.inj h
      exact ⟨⟨s, runs_execute (runs_played call.1 call.2 s trace)⟩, sendsFrom_executeAll _ _⟩
  | cons first before ih =>
    cases calls with
    | nil => cases h
    | cons call calls => exact ih (List.cons.inj h).2

theorem guarded_of_effect
    (h : ∃ mid, CallEffect authority mid record.raw record.trace record.after) {raw : ReceivedCommand P}
    {answer : SessionAnswer P (.exchange raw)}
    (hmem : (⟨.exchange raw, answer⟩ : Σ request, SessionAnswer P request) ∈ record.trace) :
    raw = record.raw ∧ ∃ command before after, raw.frame = .ok command ∧
      record.trace = before ++ ⟨.exchange raw, answer⟩ :: after ∧ Guarded authority raw command before := by
  obtain ⟨mid, hrefused | ⟨command, before, after, answer', htrace, hbefore, hafter, -, hframe, -, hguarded⟩⟩ := h
  · exact absurd hmem (hrefused.silent raw answer)
  · rw [htrace] at hmem
    rcases List.mem_append.1 hmem with hmem | hmem
    · exact absurd hmem (hbefore raw answer)
    rcases List.mem_cons.1 hmem with heq | hmem
    · obtain ⟨hraw, hanswer⟩ := Sigma.mk.inj heq
      obtain rfl := SessionRequest.exchange.inj hraw
      obtain rfl := eq_of_heq hanswer
      exact ⟨rfl, command, before, after, hframe, htrace, hguarded⟩
    · exact absurd hmem (hafter raw answer)

theorem session_sends_only_what_it_may (authority : SessionAuthority)
    (checkpointSha256 : PaperSessionCheckpoint P → Sha256Hex) (world : World (SessionAnswer P))
    (checkpoints : NautilusCheckpointStore P) (calls : List (ReceivedCommand P × Option Sha256Hex)) :
    SendsOnlyWhatItMay authority checkpoints
      (executeAll authority checkpointSha256 world (create authority checkpoints) [] calls) := by
  have hsends : SendsFrom authority (create authority checkpoints)
      (executeAll authority checkpointSha256 world (create authority checkpoints) [] calls) :=
    sendsFrom_executeAll (create authority checkpoints) []
  constructor
  · intro record hrecord raw answer hmem
    obtain ⟨before, after, hsplit⟩ := List.append_of_mem hrecord
    exact guarded_of_effect (executeAll_split hsplit).1 hmem
  · exact hsends.sequences
  · exact hsends.first
  · intro before record after hsplit hunsafe
    obtain ⟨⟨mid, hrefused | ⟨command, pre, post, answer, -, -, -, hsafe, -⟩⟩, hafter⟩ := executeAll_split hsplit
    · intro command hcommand
      have hsent : sentCommands (record :: after) = sentCommands after := by
        simp [sentCommands, filterMap_sentCommand_of_silent hrefused.silent]
      rw [hsent] at hcommand
      rcases hrefused.engaged hunsafe.1 hunsafe.2 with hexit | hterminal
      · exact hafter.exit_only hexit command hcommand
      · rw [hafter.terminal hterminal] at hcommand
        cases hcommand
    · obtain ⟨call, hcall, hfails⟩ := hunsafe.2
      exact absurd hfails (hsafe call hcall)
  · intro before record after hsplit hterminal
    exact (executeAll_split hsplit).2.terminal hterminal

end NautilusPaperSession

end TradingAgent.Nautilus
