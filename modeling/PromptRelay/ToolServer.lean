import PromptRelay.Switchboard
import PromptRelay.ToolTask

namespace PromptRelay

abbrev Outcome := Except ToolFault Answer

/-- A launch under way: its call, its session, the program it started, and until when it may take. -/
structure Launch where
  id : Nat
  place : Nat
  executable : String
  deadline : Nat
  deriving DecidableEq, Repr

/-- A call that took a session away and killed its process. It waits for the relay to close, and then
for the report of the exit, each until a deadline. -/
structure Ending where
  id : Nat
  place : Nat
  closing : Bool
  deadline : Nat
  deriving DecidableEq, Repr

/-- The tools with the session they work on. Earlier sessions stay on the switchboard for the calls
that still wait there, and for those that ended them. Calls that begin while a launch is under way line
up in `waiting` until it is over. -/
structure ToolServer where
  board : Switchboard Outcome
  current : Option Nat
  launching : Option Launch
  waiting : List (Nat × ToolCall)
  endings : List Ending
  host : Host

namespace ToolServer

/-- How long a launch may take, in milliseconds. -/
def launchLimit : Nat := 30000

/-- How long the end of a session waits for its relay to close. -/
def closeLimit : Nat := 5000

/-- How long it then waits for the report of the exit. -/
def exitLimit : Nat := 2000

def start (host : Host) : ToolServer := ⟨.empty, none, none, [], [], host⟩

def session? (s : ToolServer) : Option Session := s.current.bind fun i => s.board.sessions[i]?

/-- Makes a session the one that the tools work on. -/
def install (s : ToolServer) (session : Session) : ToolServer :=
  { s with
    board := { s.board with sessions := s.board.sessions ++ [{ session with recording := true }] }
    current := some s.board.sessions.length }

def answer (s : ToolServer) (id : Nat) (outcome : Outcome) : ToolServer :=
  { s with board := s.board.finish id outcome }

/-- The startup of a new process, then an answer that tells its program. -/
def launchTask (startup : Startup) : ToolTask Answer := do
  let _ ← ToolTask.within "octave_launch" (Operation.prepare startup.setupCommands)
  return .launched startup.executable true

def program (startup : Startup) : Program := ⟨startup.executable, startup.args, startup.cwd, []⟩

/-- What a launch starts, or the refusal of the host. -/
def spawn (s : ToolServer) (choice : LaunchChoice) : Except String Process :=
  s.host.spawn (program (.ofLaunch s.host.environment choice))

/-- Starts a process and prepares it; it is installed when that is done. -/
def launch (s : ToolServer) (id : Nat) (choice : LaunchChoice) : ToolServer :=
  let startup := Startup.ofLaunch s.host.environment choice
  if s.current.isSome then s.answer id (.error .alreadyRunning)
  else match s.spawn choice with
    | .error refusal =>
      s.answer id (.error (.failed "octave_launch" (.spawn startup.executable refusal)))
    | .ok process =>
      let place := s.board.sessions.length
      let board := { s.board with sessions := s.board.sessions ++ [Session.ofProcess process] }
      { s with
        board := board.carryOn id place (ExceptT.run (launchTask startup))
        launching := some ⟨id, place, startup.executable, s.board.now + launchLimit⟩ }

/-- Takes the session away, stops recording its stops, and kills its process if it has one; then its
end is waited for. -/
def terminate (s : ToolServer) (id : Nat) : ToolServer :=
  match s.current with
  | none => s.answer id (.ok .detached)
  | some i =>
    let board := s.board.modify i fun session => { session with recording := false }.kill
    let taken := { s with board, current := none }
    match s.board.sessions[i]? with
    | none => taken
    | some session =>
      if session.process.isSome then
        { taken with endings := s.endings ++ [⟨id, i, true, s.board.now + closeLimit⟩] }
      else taken.answer id (.ok (.terminated session.exit))

def begin (s : ToolServer) (id : Nat) (c : ToolCall) : ToolServer :=
  match c, ToolTask.ofCall? c, s.current with
  | .launch choice, _, _ => s.launch id choice
  | .terminate, _, _ => s.terminate id
  | _, some task, some i => { s with board := s.board.carryOn id i (ExceptT.run task) }
  | c, _, _ => s.answer id (.error (.detached c.toolName))

def call (s : ToolServer) (c : ToolCall) : ToolServer :=
  let entered := { s with board := s.board.enter }
  if s.launching.isSome then { entered with waiting := s.waiting ++ [(s.board.started, c)] }
  else entered.begin s.board.started c

/-- A new call whose arguments say nothing. -/
def refuse (s : ToolServer) (fault : ToolFault) : ToolServer :=
  { s with board := s.board.enter }.answer s.board.started (.error fault)

/-- Installs the session of a launch that succeeded, and kills that of one that failed. -/
def concludeLaunch? (s : ToolServer) : Option ToolServer := do
  let l ← s.launching
  match ← s.board.results.lookup l.id with
  | .ok _ =>
    some { s with
      board := s.board.modify l.place fun session => { session with recording := true }
      current := some l.place, launching := none }
  | .error _ => some { s with board := s.board.modify l.place Session.kill, launching := none }

/-- Whether a launch has taken too long: it has no result, and no reply is there for it. -/
def runsLate (s : ToolServer) (l : Launch) : Bool :=
  (s.board.results.lookup l.id).isNone && l.deadline ≤ s.board.now &&
    (s.board.sessions[l.place]?.bind (·.undelivered?)).isNone

/-- Fails a launch that has taken too long, and leaves its session. -/
def giveUp? (s : ToolServer) : Option ToolServer := do
  let l ← s.launching
  if s.runsLate l then
    let board := (s.board.dropCall l.id).modify l.place Session.abandon
    some ({ s with board, launching := none }.answer l.id
      (.error (.noPrompt l.executable (launchLimit / 1000))))
  else none

/-- Begins the oldest call that waits for a launch to be over, once it is. -/
def resume? (s : ToolServer) : Option ToolServer :=
  match s.launching, s.waiting with
  | none, (id, c) :: rest => some ({ s with waiting := rest }.begin id c)
  | _, _ => none

/-- Goes on with the end of a session: once its relay has closed, with the wait for the report of the
exit, and with that to the answer. Either comes to an end at its deadline. -/
def wrapUp? (s : ToolServer) (place : Nat) : Option ToolServer := do
  let e ← s.endings.find? (·.place = place)
  let session ← s.board.sessions[place]?
  let others := s.endings.filter (·.place ≠ place)
  if e.closing then
    if session.relay.isClosed ∨ e.deadline ≤ s.board.now then
      some { s with
        endings := others ++ [{ e with closing := false, deadline := s.board.now + exitLimit }] }
    else none
  else if session.exit.isSome ∨ e.deadline ≤ s.board.now then
    some ({ s with endings := others }.answer e.id (.ok (.terminated session.exit)))
  else none

def next? (s : ToolServer) : Option ToolServer :=
  s.concludeLaunch? <|> s.resume? <|> (s.board.next?.map fun board => { s with board }) <|>
    s.endings.findSome? fun e => s.wrapUp? e.place

/-- The moments at which a wait is over. -/
def deadlines (s : ToolServer) : List Nat :=
  s.board.calls.filterMap Switchboard.deadline? ++ s.endings.map (·.deadline) ++
    (s.launching.map (·.deadline)).toList

/-- What happens first at a moment at which a wait is over. -/
def expire (s : ToolServer) : ToolServer :=
  ((s.board.expire?.map fun board => { s with board }) <|> s.giveUp?).getD s

/-- What can only happen because time passes: a sleep of a process ends, else the waits that are
over first end. -/
def passTime? (s : ToolServer) : Option ToolServer :=
  ((s.board.moveSession? Session.wake?).map fun board => { s with board }) <|>
    s.deadlines.min?.map fun moment => { s with board := s.board.passTime moment }.expire

end ToolServer

end PromptRelay
