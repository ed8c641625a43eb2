import PromptRelay.Chunk
import PromptRelay.Process
import PromptRelay.Relay
import PromptRelay.StopScanner
import PromptRelay.Task

namespace PromptRelay

/-- A relay with what belongs to it: the scanner of its diagnostics, the stops it found that
nobody has taken yet, the board they are recorded on while somebody does, the process behind it if
there is one, and how that ended. `delivered` counts the resolutions that were handed to their
callers, `sent` the written lines that have reached the process. -/
structure Session where
  relay : Relay
  scanner : StopScanner
  notices : List StopNotice
  board : StopBoard
  recording : Bool
  process : Option Process
  exit : Option ExitReport
  delivered : Nat
  sent : Nat

inductive Wait (α : Type) where
  | reply (ticket : Nat) (next : Except Fault Reply → Task α)
  | stop (count : UInt64) (deadline : Nat) (next : Option StopNotice → Task α)

inductive Progress (α : Type) where
  | finished (a : α)
  | waiting (wait : Wait α)

namespace Session

def start (input : InputEnd) (recording : Bool) : Session :=
  { relay := .start input, scanner := .start, notices := [], board := .start, recording,
    process := none, exit := none, delivered := 0, sent := 0 }

def ofProcess (p : Process) : Session := { start .pipe false with process := some p }

def view (s : Session) : SessionView := ⟨s.relay.isClosed, s.board, s.exit⟩

def state (s : Session) : SessionState := .resolve s.relay.isClosed s.board.debugging

def advance {α : Type} (now : Nat) (s : Session) : Task α → Session × Progress α
  | .done a => (s, .finished a)
  | .request line next =>
    match s.relay.submit line with
    | .error fault => advance now s (next (.error fault))
    | .ok (relay, ticket) => ({ s with relay }, .waiting (.reply ticket next))
  | .setMode mode next => advance now { s with relay := s.relay.setMode mode } next
  | .look next => advance now s (next s.view)
  | .update change next => advance now { s with board := change s.board } next
  | .awaitStop count limit next =>
    match s.board.newer? count with
    | some stop => advance now s (next (some stop))
    | none =>
      if limit = 0 then advance now s (next none)
      else (s, .waiting (.stop count (now + limit) next))

/-- The REPL prints; long output is read in pieces. -/
def output (s : Session) (bytes : List UInt8) : Session :=
  { s with relay := (chunks bytes).foldl Relay.output s.relay }

def diagnostics (s : Session) (bytes : List UInt8) : Session :=
  let (scanner, notices) := s.scanner.readAll (chunks bytes)
  { s with scanner, notices := s.notices ++ notices }

def endOutput (s : Session) (e : OutputEnd) : Session :=
  { s with relay := s.relay.close (e.reason s.exit) }

def endDiagnostics (s : Session) : Session := { s with scanner := s.scanner.close }

def severInput (s : Session) (detail : String) : Session :=
  { s with relay := s.relay.sever detail }

def receive (s : Session) : Session := { s with relay := s.relay.receive }

/-- Records the oldest stop that nobody has taken yet. -/
def record (s : Session) : Session :=
  match s.notices with
  | [] => s
  | stop :: rest => { s with notices := rest, board := s.board.record stop }

/-- One exchange with the process: the next written line goes to it, or what it printed comes from
it, diagnostics first, or the relay learns that it ended or left a pipe. -/
def exchange? (s : Session) : Option Session := do
  let p ← s.process
  let shown := p.shown
  match s.relay.written[s.sent]? with
  | some line => some { s with sent := s.sent + 1, process := some (p.meet (.line line)) }
  | none =>
  if !shown.stderr.isEmpty then
    some { s.diagnostics shown.stderr with process := some (p.meet .takeDiagnostics) }
  else if !shown.stdout.isEmpty then
    some { s.output shown.stdout with process := some (p.meet .takeOutput) }
  else if s.exit ≠ shown.exit then some { s with exit := shown.exit }
  else if s.relay.input = .pipe ∧ !shown.holdsInput then some (s.severInput Process.brokenPipe)
  else if !s.relay.isClosed ∧ !shown.holdsOutput then some (s.endOutput .closed)
  else if s.relay.isClosed ∧ Contact.endInput ∉ p.past then
    some { s with process := some (p.meet .endInput) }
  else if s.scanner.isOpen ∧ !shown.holdsDiagnostics then some s.endDiagnostics
  else none

def kill (s : Session) : Session := { s with process := s.process.map (·.meet .kill) }

/-- Nobody holds the session any more: its relay and its scanner stop, and its process is killed. -/
def abandon (s : Session) : Session :=
  let relay := s.relay.stop
  { s with relay, scanner := s.scanner.close, delivered := relay.resolved.length }.kill

/-- Time passes for a process that waits for that. -/
def wake? (s : Session) : Option Session :=
  (s.process.filter (·.shown.asleep)).map fun p => { s with process := some (p.meet .passTime) }

def undelivered? (s : Session) : Option Resolution := s.relay.resolved[s.delivered]?

end Session

end PromptRelay
