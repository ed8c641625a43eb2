import PromptRelay.ExitReport
import PromptRelay.Fault
import PromptRelay.LineBuffer
import PromptRelay.Reply

namespace PromptRelay

/-- The relay's way to the REPL: a pipe, a pipe that the REPL has left, with what a write to it
tells, a pipe whose next writes end as listed, or no REPL at all. -/
inductive InputEnd where
  | pipe
  | severed (detail : String)
  | wavering (outcomes : List (Option String))
  | absent
  deriving DecidableEq, Repr

namespace InputEnd

def refusal? : InputEnd → Option Fault
  | .absent => some .notInitialized
  | _ => none

/-- The fault of one write, if it fails, and the end that is left after it. -/
def write : InputEnd → Option Fault × InputEnd
  | .pipe => (none, .pipe)
  | .severed detail => (some (.io detail), .severed detail)
  | .wavering [] => (none, .pipe)
  | .wavering (outcome :: rest) => (outcome.map .io, .wavering rest)
  | .absent => (some .notInitialized, .absent)

end InputEnd

/-- A request that was accepted: a line to write, or none to wait for what the REPL prints
unasked. -/
structure Request where
  ticket : Nat
  line : Option String
  deriving DecidableEq, Repr

structure Resolution where
  request : Request
  result : Except Fault Reply

/-- Passes one line at a time to the REPL and gives each whole reply to the oldest request.
Accepted requests lie in the mailbox, while it is open, until they are received into the queue.
`written` and `resolved` tell everything written and resolved so far, in order. -/
structure Relay where
  input : InputEnd
  mode : Mode
  issued : Nat
  mailOpen : Bool
  mailbox : List Request
  queue : List Request
  inFlight : Option Request
  held : Option Reply
  buffer : LineBuffer
  owesBlanks : Bool
  closed : Option String
  written : List String
  resolved : List Resolution

namespace Relay

def start (input : InputEnd) : Relay :=
  { input, mode := .either, issued := 0, mailOpen := true, mailbox := [], queue := []
    inFlight := none, held := none, buffer := .empty, owesBlanks := false, closed := none
    written := [], resolved := [] }

def breaksLine (line : String) : Bool := line.toList.any fun c => c == '\n' || c == '\r'

def refusal? (r : Relay) (line : Option String) : Option Fault :=
  match r.closed with
  | some reason => some (.terminated reason)
  | none => (line.filter breaksLine).map .severalLines

def closedReason (r : Relay) : String := r.closed.getD "bridge stopped"

/-- Takes a request into the mailbox under a new ticket, while the mailbox is open. -/
def post (r : Relay) (line : Option String) : Except Fault (Relay × Nat) :=
  if r.mailOpen then
    .ok ({ r with issued := r.issued + 1, mailbox := r.mailbox ++ [⟨r.issued, line⟩] }, r.issued)
  else .error (.terminated r.closedReason)

/-- A request with nothing between its check and the mailbox. -/
def submit (r : Relay) (line : Option String) : Except Fault (Relay × Nat) :=
  match r.refusal? line with
  | some fault => .error fault
  | none => r.post line

def resolve (r : Relay) (q : Request) (result : Except Fault Reply) : Relay :=
  { r with resolved := r.resolved ++ [⟨q, result⟩] }

/-- Writes the line of a request, which is in flight if that succeeds. -/
def send (r : Relay) (q : Request) (line : String) : Relay :=
  match r.input.write with
  | (some fault, input) => { r with input }.resolve q (.error fault)
  | (none, input) => { r with input, inFlight := some q, written := r.written ++ [line] }

/-- Acts on one request while none is in flight. A flush takes the held reply if there is one; a
line drops it. -/
def perform (r : Relay) (q : Request) : Relay :=
  match r.input.refusal?, q.line, r.held with
  | some fault, _, _ => r.resolve q (.error fault)
  | none, none, some reply => { r with held := none }.resolve q (.ok reply)
  | none, none, none => { r with inFlight := some q }
  | none, some line, _ => { r with held := none }.send q line

/-- Acts on the given requests until one is in flight; the rest is the queue. -/
def dispatchFrom (r : Relay) : List Request → Relay
  | [] => { r with queue := [] }
  | q :: rest =>
    if r.inFlight.isSome then { r with queue := q :: rest } else dispatchFrom (r.perform q) rest

def dispatch (r : Relay) : Relay := r.dispatchFrom r.queue

def receive (r : Relay) : Relay :=
  if r.closed.isSome then r
  else match r.mailbox with
    | [] => r
    | q :: rest => { r with mailbox := rest, queue := r.queue ++ [q] }.dispatch

def isOwedBlank (b : UInt8) : Bool := b == 32 || b == 9

/-- The view ends in a prompt to which blanks may still belong. -/
def mayOweBlanks (view : List String) : Bool :=
  match (view.getLastD "").toList.getLast? with
  | none => false
  | some c => !isBlank c

/-- Gives a whole reply to the request in flight, or holds it for the next flush. -/
def complete (r : Relay) (view : List String) : Relay :=
  let idle := { r with buffer := .empty, owesBlanks := mayOweBlanks view, inFlight := none }
  match r.inFlight with
  | some q => idle.resolve q (.ok (.ofLines view))
  | none => { idle with held := some (.ofLines view) }

/-- Reads output whose owed blanks are taken off. -/
def absorb (r : Relay) (chunk : List UInt8) : Relay :=
  let fuller := { r with buffer := r.buffer.push chunk }
  if r.mode.completes fuller.buffer.view then fuller.complete fuller.buffer.view else fuller

/-- One chunk of output. Blanks that the last prompt still owes are dropped from its start. -/
def output (r : Relay) (chunk : List UInt8) : Relay :=
  if r.closed.isSome then r
  else
    let rest := if r.owesBlanks then chunk.dropWhile isOwedBlank else chunk
    if rest.isEmpty then r.dispatch else ({ r with owesBlanks := false }.absorb rest).dispatch

/-- The requests that have no result yet, the oldest first. -/
def outstanding (r : Relay) : List Request := r.inFlight.toList ++ r.queue ++ r.mailbox

/-- The end of the output: from now on nothing is received or read, and requests are refused with
the reason. -/
def announce (r : Relay) (reason : String) : Relay :=
  if r.closed.isSome then r else { r with closed := some reason, held := none, buffer := .empty }

/-- The mailbox of a closed relay takes no more requests. -/
def shut (r : Relay) : Relay := if r.closed.isSome then { r with mailOpen := false } else r

/-- Refuses every outstanding request once no other can come. -/
def drain (r : Relay) : Relay :=
  if r.mailOpen then r
  else
    { r with
      mailbox := [], queue := [], inFlight := none
      resolved := r.resolved ++
        r.outstanding.map fun q => ⟨q, .error (.terminated r.closedReason)⟩ }

/-- The whole of closing: every outstanding request is refused with the reason, and so is every
later one. -/
def close (r : Relay) (reason : String) : Relay :=
  if r.closed.isSome then r else (r.announce reason).shut.drain

/-- Nobody serves the relay any more. -/
def stop (r : Relay) : Relay := (r.announce r.closedReason).shut.drain

def setMode (r : Relay) (mode : Mode) : Relay := { r with mode }

def sever (r : Relay) (detail : String) : Relay :=
  if r.input = .pipe then { r with input := .severed detail } else r

def isClosed (r : Relay) : Bool := r.closed.isSome

def modeName : Mode → String
  | .normal => "Normal"
  | .debug => "Debug"
  | .either => "Either"

/-- A relay in one line; the process behind it shows by its number if it has one. -/
def summary (r : Relay) (pid : Option Nat) : String :=
  let shown := (pid.map fun n => "Some(" ++ toString n ++ ")").getD "None"
  let closed := (r.closed.map fun reason => "Some(" ++ quoted reason ++ ")").getD "None"
  "Multiplexer \x7b pid: " ++ shown ++ ", mode: " ++ modeName r.mode ++ ", closed: " ++ closed ++
    " \x7d"

end Relay

inductive OutputEnd where
  | closed
  | failed (detail : String)
  deriving DecidableEq, Repr

/-- The reason told to every request: how the output ended, and how the process did if that is
known. -/
def OutputEnd.reason (e : OutputEnd) (exit : Option ExitReport) : String :=
  let text := match e with
    | .closed => "output stream closed"
    | .failed detail => "output stream failed: " ++ detail
  match exit with
  | none => text
  | some report => text ++ "; process " ++ report.text

end PromptRelay
