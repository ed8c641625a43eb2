import PromptRelay.Answer
import PromptRelay.Operation
import PromptRelay.ToolCall

namespace PromptRelay

/-- A task that ends in an answer or in the fault of its tool. -/
abbrev ToolTask (α : Type) := ExceptT ToolFault Task α

namespace ToolTask

/-- How long a banner may trail the debug prompt of a program that was run or continued. -/
def resumeLimit : Nat := 2000

def stepLimit : Nat := 300

/-- An operation within a tool, its fault told as the tool's. -/
def within {α : Type} (tool : String) (operation : Operation α) : ToolTask α :=
  .mk (Task.bind (ExceptT.run operation) fun result => .done (result.mapError (.failed tool)))

def look : ToolTask SessionView := .mk (.look fun view => .done (.ok view))

def update (change : StopBoard → StopBoard) : ToolTask Unit := .mk (.update change (.done (.ok ())))

def awaitStop (count : UInt64) (limit : Nat) : ToolTask (Option StopNotice) :=
  .mk (.awaitStop count limit fun stop => .done (.ok stop))

def state : ToolTask SessionState := do
  let view ← look
  return .resolve view.closed view.board.debugging

/-- The end of a resumed program: at the normal prompt the last stop is cleared, at the debug
prompt the stop past the count is waited for. -/
def settle (count : UInt64) (reply : Reply) : ToolTask Resumed := do
  update (·.noteReply reply.inDebugMode)
  if reply.inDebugMode then
    match ← awaitStop count resumeLimit with
    | some stop => return .stopped stop reply
    | none => throw .stopTimeout
  else
    update (·.clear)
    return .finished (← state) reply (← look).exit

def setBreakpoints (function : String) (lines : List Nat) (replace : Bool) : ToolTask Answer := do
  let tool := "octave_set_breakpoints"
  if replace then within tool (Operation.clearBreakpoints function)
  let accepted ← within tool (Operation.setBreakpoints function lines)
  return .breakpointsSet function lines accepted

def clearBreakpoints (function : String) : ToolTask Answer := do
  within "octave_clear_breakpoints" (Operation.clearBreakpoints function)
  return .breakpointsCleared function

def run (target : String) : ToolTask Answer := do
  let count := (← look).board.count
  update (·.clear)
  let reply ← within "octave_run" (Operation.run target)
  return .ran (← settle count reply)

def resume : ToolTask Answer := do
  let board := (← look).board
  update (·.clear)
  let reply ← within "octave_continue" Operation.resume
  return .continued (← settle board.count reply) board.last

/-- One line of the program. Not every step prints a banner, so without one the stop before the
step stays. -/
def step : ToolTask Answer := do
  let board := (← look).board
  let reply ← within "octave_step" Operation.step
  update (·.noteReply reply.inDebugMode)
  if reply.inDebugMode then
    let stop ← awaitStop board.count stepLimit
    return .stepped (← state) (stop <|> board.last) reply
  else
    update (·.clear)
    return .stepped (← state) none reply

def stack : ToolTask Answer := do
  let last := (← look).board.last
  return .stack (← state) ((last.map (·.frames)).getD [])

/-- The variables with their values, asked for one after the other in the order of the listing. -/
def listedVariables (includeValues : Bool) : List Variable → ToolTask (List ListedVariable)
  | [] => return []
  | v :: rest => do
    let value ←
      if includeValues then some <$> within "octave_variables" (Operation.value v) else pure none
    return ⟨v, value⟩ :: (← listedVariables includeValues rest)

def list (includeValues : Bool) : ToolTask Answer := do
  let listing ← within "octave_variables" Operation.list
  return .listed (← listedVariables includeValues listing.entries) listing.fault

def evaluate (expression : String) : ToolTask Answer := do
  return .evaluated (← within "octave_evaluate" (Operation.evaluate expression))

def locate (names : List String) : ToolTask Answer := do
  let places ← within "octave_which" (Operation.locate names)
  return .located places (names.filter fun name => (places.find? name).isNone)

def send (line : Option String) : ToolTask Answer := do
  let reply ← within "octave_command" (Operation.request line)
  update (·.noteReply reply.inDebugMode)
  return .replied reply

/-- The work of a call on the installed session; launching and terminating are none. -/
def ofCall? : ToolCall → Option (ToolTask Answer)
  | .launch _ => none
  | .setBreakpoints function lines replace => some (setBreakpoints function lines replace)
  | .clearBreakpoints function => some (clearBreakpoints function)
  | .run target => some (run target)
  | .resume => some resume
  | .step => some step
  | .stack => some stack
  | .list includeValues => some (list includeValues)
  | .evaluate expression => some (evaluate expression)
  | .locate names => some (locate names)
  | .send line => some (send line)
  | .terminate => none

end ToolTask

end PromptRelay
