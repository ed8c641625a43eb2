import PromptRelay.Proofs.ToolTurns

namespace PromptRelay

open ToolTask (afterResume afterStep afterStop finish resumeLimit showStep stepLimit)

/-- The calls that let a program go on. -/
inductive DebugCommand where
  | run (target : String)
  | resume
  | step
  deriving DecidableEq

namespace DebugCommand

def toolCall : DebugCommand → ToolCall
  | run target => .run target
  | resume => .resume
  | step => .step

/-- The line that is sent for it. -/
def line : DebugCommand → String
  | run target => target
  | resume => "dbcont"
  | step => "dbnext"

def task : DebugCommand → ToolTask Answer
  | run target => ToolTask.run target
  | resume => ToolTask.resume
  | step => ToolTask.step

def limit : DebugCommand → Nat
  | run _ | resume => resumeLimit
  | step => stepLimit

/-- The answer of a live session when its program has stopped, or when it is done; `previous` is the
last stop before. -/
def answer (c : DebugCommand) (previous stop : Option StopNotice) (reply : Reply) : Answer :=
  let outcome : Resumed := stop.elim (.finished .idle reply none) (.stopped · reply)
  match c with
  | run _ => .ran outcome
  | resume => .continued outcome previous
  | step => .stepped (if stop.isSome then .stopped else .idle) stop reply

/-- How it goes on with the reply. -/
def onReply (c : DebugCommand) (count : UInt64) (previous : Option StopNotice) :
    Except Fault Reply → Task Outcome :=
  match c with
  | run _ => afterResume "octave_run" count .ran
  | resume => afterResume "octave_continue" count (.continued · previous)
  | step => afterStep count previous

/-- How it goes on once its wait for a stop is over. -/
def onStop (c : DebugCommand) (previous : Option StopNotice) (reply : Reply) :
    Option StopNotice → Task Outcome :=
  match c with
  | run _ => afterStop .ran reply
  | resume => afterStop (.continued · previous) reply
  | step => showStep reply previous

theorem limit_ne_zero (c : DebugCommand) : c.limit ≠ 0 := by
  cases c <;> exact Nat.succ_ne_zero _

end DebugCommand

namespace Session

variable {x : Session} {count : UInt64} {reply : Reply}

theorem advance_accepted (now : Nat) {line : Option String} {relay : Relay} {ticket : Nat}
    (accepted : x.relay.submit line = .ok (relay, ticket)) (next : Except Fault Reply → Task Outcome) :
    x.advance now (.request line next) = ({ x with relay }, .waiting (.reply ticket next)) := by
  unfold advance
  rw [accepted]

/-- A call samples the counter and the last stop of its session, and sends its line. -/
theorem advance_task (c : DebugCommand) (now : Nat) {relay : Relay} {ticket : Nat}
    (accepted : (x.relay.setMode .either).submit (some c.line) = .ok (relay, ticket)) :
    x.advance now (ExceptT.run c.task) =
      ({ x with relay, board := c.toolCall.beginOn x.board },
        .waiting (.reply ticket (c.onReply x.board.count x.board.last))) := by
  have cleared := advance_accepted now
    (x := { x with board := x.board.clear, relay := x.relay.setMode .either }) accepted
  have held := advance_accepted now (x := { x with relay := x.relay.setMode .either }) accepted
  cases c with
  | run target =>
    rw [show (DebugCommand.run target).task = ToolTask.run target from rfl, ToolTask.run_task]
    exact cleared _
  | resume =>
    rw [show DebugCommand.resume.task = ToolTask.resume from rfl, ToolTask.resume_task]
    exact cleared _
  | step =>
    rw [show DebugCommand.step.task = ToolTask.step from rfl, ToolTask.step_task]
    exact held _

/-- A stop that came while a call waited is its answer. -/
theorem advance_onStop (c : DebugCommand) (now : Nat) (previous : Option StopNotice) (reply : Reply)
    (isOpen : x.relay.closed = none) (debugging : x.board.debugging = true) (stop : StopNotice) :
    x.advance now (c.onStop previous reply (some stop)) =
      (x, .finished (.ok (c.answer previous (some stop) reply))) := by
  cases c with
  | run target => rfl
  | resume => rfl
  | step =>
    have stopped : SessionState.resolve x.view.closed x.view.board.debugging = .stopped := by
      simp [view, Relay.isClosed, isOpen, debugging, SessionState.resolve]
    change (x, Progress.finished (Except.ok (Answer.stepped _ _ reply))) = _
    rw [stopped]
    rfl

theorem advance_onReply_debug (c : DebugCommand) (now : Nat) (previous : Option StopNotice)
    (inDebugMode : reply.inDebugMode = true) :
    x.advance now (c.onReply count previous (.ok reply)) =
      { x with board := x.board.noteReply true }.advance now
        (.awaitStop count c.limit (c.onStop previous reply)) := by
  cases c <;>
    simp only [DebugCommand.onReply, DebugCommand.onStop, DebugCommand.limit, afterResume, afterStep,
      inDebugMode, if_true, advance]

/-- At the debug prompt a call is answered with the stop past its count. -/
theorem reply_after_stop (c : DebugCommand) (now : Nat) (previous : Option StopNotice)
    (isOpen : x.relay.closed = none) (inDebugMode : reply.inDebugMode = true)
    {stop : StopNotice} (newer : x.board.newer? count = some stop) :
    x.advance now (c.onReply count previous (.ok reply)) =
      ({ x with board := x.board.noteReply true },
        .finished (.ok (c.answer previous (some stop) reply))) := by
  rw [advance_onReply_debug c now previous inDebugMode]
  have same : (x.board.noteReply true).newer? count = some stop := newer
  unfold advance
  simp only [same]
  exact advance_onStop (x := { x with board := x.board.noteReply true }) c now previous reply isOpen rfl stop

/-- Before the stop is recorded it waits for it. -/
theorem reply_before_stop (c : DebugCommand) (now : Nat) (previous : Option StopNotice)
    (inDebugMode : reply.inDebugMode = true) (unmet : x.board.newer? count = none) :
    x.advance now (c.onReply count previous (.ok reply)) =
      ({ x with board := x.board.noteReply true },
        .waiting (.stop count (now + c.limit) (c.onStop previous reply))) := by
  rw [advance_onReply_debug c now previous inDebugMode]
  have same : (x.board.noteReply true).newer? count = none := unmet
  unfold advance
  simp only [same, c.limit_ne_zero, if_false]

/-- At the normal prompt it is over, and the last stop is gone. -/
theorem reply_at_end (c : DebugCommand) (now : Nat) (count : UInt64) (previous : Option StopNotice)
    (isOpen : x.relay.closed = none) (running : x.exit = none) (normal : reply.inDebugMode = false) :
    x.advance now (c.onReply count previous (.ok reply)) =
      ({ x with board := (x.board.noteReply false).clear },
        .finished (.ok (c.answer previous none reply))) := by
  have idle : SessionState.resolve x.relay.isClosed false = .idle := by
    simp [Relay.isClosed, isOpen, SessionState.resolve]
  cases c <;>
    simp [DebugCommand.onReply, DebugCommand.answer, afterResume, afterStep, normal, finish, showStep,
      advance, view, StopBoard.noteReply, StopBoard.clear, running, idle]

end Session

end PromptRelay
