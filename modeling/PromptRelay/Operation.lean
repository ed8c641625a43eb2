import PromptRelay.Listing
import PromptRelay.SymbolPlaces
import PromptRelay.Task

namespace PromptRelay

abbrev Operation (α : Type) := ExceptT Fault Task α

namespace Operation

/-- Waits for the reply to a line, or without one for what the REPL prints unasked. -/
def request (line : Option String) : Operation Reply := .mk (.request line .done)

def send (line : String) : Operation Reply := request (some line)

def setMode (mode : Mode) : Operation Unit := .mk (.setMode mode (.done (.ok ())))

/-- A line that runs the debugged program, whose reply may end at either prompt. -/
def proceed (line : String) : Operation Reply := do
  setMode .either
  send line

def run (target : String) : Operation Reply := proceed target

def resume : Operation Reply := proceed "dbcont"

def step : Operation Reply := proceed "dbnext"

def quit : Operation Reply := proceed "dbquit"

def evaluate (expression : String) : Operation Shape := do
  return (← send (trimmed expression)).shape

/-- The numbers of a reply that can be lines: whole and within 32 bits. -/
def lineNumbers (shape : Shape) : List Nat :=
  shape.numbers.filterMap fun x => x.toNat?.filter (· ≤ max32)

def breakpointLine (function : String) (lines : List Nat) : String :=
  "dbstop " ++ function ++ " " ++ " ".intercalate (lines.map toString)

/-- Sets breakpoints and gives the lines that the REPL names in its reply; one that names none is
a fault. -/
def setBreakpoints (function : String) (lines : List Nat) : Operation (List Nat) := do
  if lines.isEmpty then return []
  let line := breakpointLine function lines
  let reply ← send line
  match lineNumbers reply.shape with
  | [] => throw (.unexpectedReply (line ++ ": " ++ " | ".intercalate reply.body))
  | accepted => return accepted

def clearBreakpoints (function : String) : Operation Unit := do
  let _ ← send ("dbclear " ++ function)

def list : Operation Listing := do
  return .ofLines (← send "whos").lines

/-- The value of a variable to show; only a scalar's is asked for. -/
def value (v : Variable) : Operation String := do
  if v.isScalar then return v.valueIn (← send v.name)
  else return v.placeholder

def locate (names : List String) : Operation SymbolPlaces := do
  if names.isEmpty then return []
  return .ofLines (← send ("which " ++ " ".intercalate names)).lines

/-- Waits for the banner, then sends the setup commands one after the other. -/
def prepare (setup : List String) : Operation (List String) := do
  let banner ← request none
  for line in setup do
    let _ ← send line
  return banner.body

end Operation

end PromptRelay
