import Mathlib.Tactic.SplitIfs
import PromptRelay.Proofs.SubmissionOrder
import PromptRelay.ToolServer

namespace PromptRelay

namespace Relay

/-- Events other than a request and a change of the mode, which only a task brings about. -/
def Event.unasked : Event → Bool
  | .post _ => false
  | .setMode _ => false
  | _ => true

/-- A relay after events that no task brought about. -/
structure Drifts (r s : Relay) : Prop extends Forwards r s where
  mode : s.mode = r.mode

theorem Drifts.refl (r : Relay) : Drifts r r := ⟨.refl r, rfl⟩

theorem Drifts.trans {r s t : Relay} (first : Drifts r s) (later : Drifts s t) : Drifts r t :=
  ⟨first.toForwards.trans later.toForwards, later.mode.trans first.mode⟩

theorem Drifts.orderly {r s : Relay} (h : Drifts r s) (orderly : r.Orderly) : s.Orderly :=
  ⟨by rw [h.row, h.issued]; exact orderly.tickets, h.regular orderly.regular⟩

theorem act_drifts (r : Relay) {e : Event} (unasked : e.unasked = true) : Drifts r (r.act e) := by
  cases e with
  | post line => cases unasked
  | setMode mode => cases unasked
  | receive => exact ⟨receive_forwards r, (receive_sameSetting r).mode⟩
  | output chunk => exact ⟨output_forwards r chunk, (output_sameSetting r chunk).mode⟩
  | turnInput input =>
    simp only [act, turnInput]
    split <;> exact ⟨⟨rfl, rfl, List.prefix_rfl, id⟩, rfl⟩
  | announce reason =>
    simp only [act, announce]
    split <;> exact ⟨⟨rfl, rfl, List.prefix_rfl, id⟩, rfl⟩
  | shut =>
    simp only [act, shut]
    split <;> exact ⟨⟨rfl, rfl, List.prefix_rfl, id⟩, rfl⟩
  | drain =>
    refine ⟨drain_forwards r, ?_⟩
    simp only [act, drain]
    split <;> rfl

theorem foldl_output_drifts (r : Relay) (chunks : List (List UInt8)) :
    Drifts r (chunks.foldl output r) := by
  induction chunks generalizing r with
  | nil => exact .refl r
  | cons chunk rest ih => exact (act_drifts r (e := .output chunk) rfl).trans (ih _)

theorem close_drifts (r : Relay) (reason : String) : Drifts r (r.close reason) := by
  unfold close
  split
  next => exact .refl r
  next =>
    exact ((act_drifts r (e := .announce reason) rfl).trans (act_drifts _ (e := .shut) rfl)).trans
      (act_drifts _ (e := .drain) rfl)

theorem stop_drifts (r : Relay) : Drifts r r.stop :=
  ((act_drifts r (e := .announce r.closedReason) rfl).trans (act_drifts _ (e := .shut) rfl)).trans
    (act_drifts _ (e := .drain) rfl)

theorem sever_drifts (r : Relay) (detail : String) : Drifts r (r.sever detail) := by
  unfold sever
  split <;> exact ⟨⟨rfl, rfl, List.prefix_rfl, id⟩, rfl⟩

/-- A request that is accepted gets the next ticket and lies in the mailbox. -/
theorem submit_posted {r posted : Relay} {line : Option String} {ticket : Nat}
    (h : r.submit line = .ok (posted, ticket)) :
    ticket = r.issued ∧
      posted = { r with issued := r.issued + 1, mailbox := r.mailbox ++ [⟨r.issued, line⟩] } := by
  have accepted := (submit_ok h).2
  unfold post at accepted
  split at accepted
  next =>
    cases accepted
    exact ⟨rfl, rfl⟩
  next => cases accepted

theorem submit_orderly {r posted : Relay} {line : Option String} {ticket : Nat}
    (h : r.submit line = .ok (posted, ticket)) (orderly : r.Orderly) : posted.Orderly := by
  obtain ⟨events, rfl⟩ := submit_follows h
  exact after_orderly events orderly

theorem Orderly.settled_le {r : Relay} (orderly : r.Orderly) : r.resolved.length ≤ r.issued := by
  have lengths := congrArg List.length orderly.tickets
  simp only [row, List.map_append, List.length_append, List.length_map, List.length_range] at lengths
  omega

end Relay

namespace Session

/-- A session after something that no task did and that recorded no stop. -/
structure Drifts (s t : Session) : Prop where
  relay : Relay.Drifts s.relay t.relay
  board : t.board = s.board
  delivered : t.delivered = s.delivered

theorem Drifts.refl (s : Session) : Drifts s s := ⟨.refl _, rfl, rfl⟩

/-- What a session can exchange with its process: a line goes to it, its diagnostics or its output are
read, or it is learnt how it ended, that it left its input or its output, or its diagnostics. -/
theorem exchange_cases {s t : Session} (h : s.exchange? = some t) :
    ∃ p, s.process = some p ∧
      ((∃ line, s.relay.written[s.sent]? = some line ∧
        t = { s with sent := s.sent + 1, process := some (p.meet (.line line)) }) ∨
      (t = { s.diagnostics p.shown.stderr with process := some (p.meet .takeDiagnostics) }) ∨
      (t = { s.output p.shown.stdout with process := some (p.meet .takeOutput) }) ∨
      (s.exit ≠ p.shown.exit ∧ t = { s with exit := p.shown.exit }) ∨
      (p.shown.holdsInput = false ∧ t = s.severInput Process.brokenPipe) ∨
      (p.shown.holdsOutput = false ∧ s.relay.isClosed = false ∧ t = s.endOutput .closed) ∨
      (s.relay.isClosed = true ∧ t = { s with process := some (p.meet .endInput) }) ∨
      t = s.endDiagnostics) := by
  unfold exchange? at h
  obtain ⟨p, alive, h⟩ := Option.bind_eq_some_iff.mp h
  refine ⟨p, alive, ?_⟩
  dsimp only at h
  split at h
  next line next => exact .inl ⟨line, next, (Option.some.inj h).symm⟩
  next =>
    refine .inr ?_
    split_ifs at h with said printed ended left closed shut deaf
    · exact .inl (Option.some.inj h).symm
    · exact .inr (.inl (Option.some.inj h).symm)
    · exact .inr (.inr (.inl ⟨ended, (Option.some.inj h).symm⟩))
    · exact .inr (.inr (.inr (.inl ⟨by simpa using left.2, (Option.some.inj h).symm⟩)))
    · exact .inr (.inr (.inr (.inr (.inl
        ⟨by simpa using closed.2, by simpa using closed.1, (Option.some.inj h).symm⟩))))
    · exact .inr (.inr (.inr (.inr (.inr (.inl ⟨shut.1, (Option.some.inj h).symm⟩)))))
    · exact .inr (.inr (.inr (.inr (.inr (.inr (Option.some.inj h).symm)))))

/-- Whatever a session exchanges with its process, its tasks and its board are not touched. -/
theorem exchange_drifts {s t : Session} (h : s.exchange? = some t) : Drifts s t := by
  obtain ⟨p, _, ⟨line, _, rfl⟩ | rfl | rfl | ⟨_, rfl⟩ | ⟨_, rfl⟩ | ⟨_, _, rfl⟩ | ⟨_, rfl⟩ | rfl⟩ :=
    exchange_cases h
  · exact ⟨.refl _, rfl, rfl⟩
  · exact ⟨.refl _, rfl, rfl⟩
  · exact ⟨Relay.foldl_output_drifts s.relay _, rfl, rfl⟩
  · exact ⟨.refl _, rfl, rfl⟩
  · exact ⟨Relay.sever_drifts s.relay _, rfl, rfl⟩
  · exact ⟨Relay.close_drifts s.relay _, rfl, rfl⟩
  · exact ⟨.refl _, rfl, rfl⟩
  · exact ⟨.refl _, rfl, rfl⟩

theorem wake_drifts {s t : Session} (h : s.wake? = some t) : Drifts s t := by
  obtain ⟨p, _, rfl⟩ := Option.map_eq_some_iff.mp h
  exact ⟨.refl _, rfl, rfl⟩

end Session

/-- Moves other than a call and its end before its time. -/
def Switchboard.Move.unasked {α : Type} : Switchboard.Move α → Bool
  | .call .. => false
  | .cancel _ => false
  | .relay _ event => event.unasked
  | _ => true

namespace ToolServer

/-- What can happen to the tools: calls come, with arguments that say something or not, a session is
installed that has no process, something happens on the board that no task brought about, or a session
exchanges something with its process; a launch that is over is concluded, one that takes too long is
given up, and a call that waited for it begins; the end of a session goes on. -/
inductive Happening where
  | call (c : ToolCall)
  | refuse (fault : ToolFault)
  | attach (input : InputEnd)
  | move (m : Switchboard.Move Outcome) (unasked : m.unasked = true)
  | exchange (session : Nat)
  | wake (session : Nat)
  | conclude
  | giveUp
  | resume
  | wrapUp (session : Nat)

def happen (s : ToolServer) : Happening → ToolServer
  | .call c => s.call c
  | .refuse fault => s.refuse fault
  | .attach input => s.install (.start input false)
  | .move m _ => { s with board := s.board.make m }
  | .exchange i => { s with board := s.board.modify i fun x => x.exchange?.getD x }
  | .wake i => { s with board := s.board.modify i fun x => x.wake?.getD x }
  | .conclude => s.concludeLaunch?.getD s
  | .giveUp => s.giveUp?.getD s
  | .resume => s.resume?.getD s
  | .wrapUp i => (s.wrapUp? i).getD s

def run (s : ToolServer) (happenings : List Happening) : ToolServer := happenings.foldl happen s

/-- How a call begins: it launches or terminates, goes to work on the current session, or is turned
away because there is none. -/
theorem begin_cases (s : ToolServer) (id : Nat) (c : ToolCall) :
    (∃ choice, c = .launch choice ∧ s.begin id c = s.launch id choice) ∨
    (c = .terminate ∧ s.begin id c = s.terminate id) ∨
    (∃ task i, ToolTask.ofCall? c = some task ∧ s.current = some i ∧
      s.begin id c = { s with board := s.board.carryOn id i (ExceptT.run task) }) ∨
    ((∃ task, ToolTask.ofCall? c = some task ∧ s.current = none) ∧
      s.begin id c = s.answer id (.error (.detached c.toolName))) := by
  unfold ToolServer.begin
  cases c with
  | launch choice => exact Or.inl ⟨choice, rfl, rfl⟩
  | terminate => exact Or.inr (Or.inl ⟨rfl, rfl⟩)
  | _ =>
    refine Or.inr (Or.inr ?_)
    cases s.current with
    | some i => exact Or.inl ⟨_, i, rfl, rfl, rfl⟩
    | none => exact Or.inr ⟨⟨_, rfl, rfl⟩, rfl⟩

/-- A launch is turned away, refused by the host, or sets to work on a session of its own. -/
theorem launch_cases (s : ToolServer) (id : Nat) (choice : LaunchChoice) :
    (s.current.isSome ∧ s.launch id choice = s.answer id (.error .alreadyRunning)) ∨
    (∃ executable refusal, s.current = none ∧ s.spawn choice = .error refusal ∧
      s.launch id choice =
        s.answer id (.error (.failed "octave_launch" (.spawn executable refusal)))) ∨
    ∃ process executable, s.current = none ∧ s.spawn choice = .ok process ∧ s.launch id choice = { s with
      board := { s.board with sessions := s.board.sessions ++ [Session.ofProcess process] }.carryOn id
        s.board.sessions.length (ExceptT.run (launchTask (.ofLaunch s.host.environment choice)))
      launching := some ⟨id, s.board.sessions.length, executable, s.board.now + launchLimit⟩ } := by
  unfold launch
  simp only
  split
  next busy => exact .inl ⟨busy, rfl⟩
  next free =>
    have nobody : s.current = none := by simpa using free
    split
    next refusal refused => exact .inr (.inl ⟨_, refusal, nobody, refused, rfl⟩)
    next process spawned => exact .inr (.inr ⟨process, _, nobody, spawned, rfl⟩)

/-- The server without its session, which is killed. -/
def takeAway (s : ToolServer) (i : Nat) : ToolServer :=
  { s with
    board := s.board.modify i fun session => { session with recording := false }.kill
    current := none }

/-- A call that terminates finds nothing to terminate, or takes the session away. Then it waits for the
end of the session, or has its answer. -/
theorem terminate_cases (s : ToolServer) (id : Nat) :
    (s.current = none ∧ s.terminate id = s.answer id (.ok .detached)) ∨
    ∃ i, s.current = some i ∧
      ((s.board.sessions[i]? = none ∧ s.terminate id = s.takeAway i) ∨
      ∃ x, s.board.sessions[i]? = some x ∧
        ((x.process.isSome ∧ s.terminate id = { s.takeAway i with
          endings := s.endings ++ [⟨id, i, true, s.board.now + closeLimit⟩] }) ∨
        (x.process = none ∧
          s.terminate id = (s.takeAway i).answer id (.ok (.terminated x.exit))))) := by
  unfold terminate
  split
  next nobody => exact .inl ⟨nobody, rfl⟩
  next i current =>
    refine .inr ⟨i, current, ?_⟩
    dsimp only
    split
    next absent => exact .inl ⟨absent, rfl⟩
    next x here =>
      split
      next alive => exact .inr ⟨x, here, .inl ⟨alive, rfl⟩⟩
      next gone => exact .inr ⟨x, here, .inr ⟨by simpa using gone, rfl⟩⟩

/-- A launch that has its result is over: its session is installed or killed. -/
theorem conclude_cases (s : ToolServer) :
    s.happen .conclude = s ∨
    ∃ l outcome, s.launching = some l ∧ s.board.results.lookup l.id = some outcome ∧
      ((∃ answer, outcome = .ok answer ∧ s.happen .conclude = { s with
        board := s.board.modify l.place fun session => { session with recording := true }
        current := some l.place, launching := none }) ∨
      (∃ fault, outcome = .error fault ∧ s.happen .conclude = { s with
        board := s.board.modify l.place Session.kill, launching := none })) := by
  simp only [happen, concludeLaunch?]
  cases launching : s.launching with
  | none => exact .inl rfl
  | some l =>
    cases told : s.board.results.lookup l.id with
    | none => exact .inl (by simp [told])
    | some outcome =>
      cases outcome with
      | ok answer => exact .inr ⟨l, _, rfl, told, .inl ⟨answer, rfl, by simp [told]⟩⟩
      | error fault => exact .inr ⟨l, _, rfl, told, .inr ⟨fault, rfl, by simp [told]⟩⟩

/-- The server without its launch, whose call is dropped and whose session is left. -/
def leaveLaunch (s : ToolServer) (l : Launch) : ToolServer :=
  { s with board := (s.board.dropCall l.id).modify l.place Session.abandon, launching := none }

/-- A launch that is given up has taken too long, and is told so. -/
theorem giveUp_cases (s : ToolServer) :
    s.happen .giveUp = s ∨
    ∃ l, s.launching = some l ∧ s.runsLate l = true ∧ s.happen .giveUp =
      (s.leaveLaunch l).answer l.id (.error (.noPrompt l.executable (launchLimit / 1000))) := by
  simp only [happen, giveUp?]
  cases launching : s.launching with
  | none => exact .inl rfl
  | some l =>
    by_cases late : s.runsLate l = true
    · exact .inr ⟨l, rfl, late, by simp [late, leaveLaunch]⟩
    · exact .inl (by simp [late])

/-- The end of a session goes on to its second wait, or is over with what is known of the exit. -/
theorem wrapUp_cases (s : ToolServer) (place : Nat) :
    s.happen (.wrapUp place) = s ∨
    ∃ e x, s.endings.find? (·.place = place) = some e ∧ s.board.sessions[place]? = some x ∧
      (s.happen (.wrapUp place) = { s with
        endings := s.endings.filter (·.place ≠ place) ++
          [{ e with closing := false, deadline := s.board.now + exitLimit }] } ∨
      s.happen (.wrapUp place) = { s with endings := s.endings.filter (·.place ≠ place) }.answer e.id
        (.ok (.terminated x.exit))) := by
  simp only [happen, wrapUp?]
  cases found : s.endings.find? (·.place = place) with
  | none => exact .inl rfl
  | some e =>
    cases here : s.board.sessions[place]? with
    | none => exact .inl rfl
    | some x =>
      simp only [Option.bind_eq_bind, Option.bind_some]
      split <;> split
      · exact .inr ⟨e, x, rfl, rfl, .inl rfl⟩
      · exact .inl rfl
      · exact .inr ⟨e, x, rfl, rfl, .inr rfl⟩
      · exact .inl rfl

end ToolServer

end PromptRelay
