import PromptRelay.DecimalText
import PromptRelay.Document
import PromptRelay.Startup

namespace PromptRelay

inductive ToolCall where
  | launch (choice : LaunchChoice)
  | setBreakpoints (function : String) (lines : List Nat) (replace : Bool)
  | clearBreakpoints (function : String)
  | run (target : String)
  | resume
  | step
  | stack
  | list (includeValues : Bool)
  | evaluate (expression : String)
  | locate (names : List String)
  | send (line : Option String)
  | terminate
  deriving DecidableEq, Repr

namespace ToolCall

open Document

def catalogue : List (String × String) :=
  [("octave_clear_breakpoints", "Remove all breakpoints from an Octave function"),
   ("octave_command", "Send one raw line to the Octave REPL and return its reply"),
   ("octave_continue", "Continue execution until the next stop or completion"),
   ("octave_evaluate", "Evaluate an expression in the current scope"),
   ("octave_launch", "Start an Octave REPL and prepare it for debugging"),
   ("octave_run", "Call a function or script and wait until it stops or finishes"),
   ("octave_set_breakpoints", "Set line breakpoints in an Octave function"),
   ("octave_stack", "Show the call stack of the last stop"),
   ("octave_step", "Execute the next line in the current function"),
   ("octave_terminate", "Stop the Octave REPL and end the session"),
   ("octave_variables", "List variables in the current scope"),
   ("octave_which", "Resolve function names to the files defining them")]

def instructions : String := "Octave MCP Server driving a single Octave REPL in debug mode"

def toolName : ToolCall → String
  | .launch _ => "octave_launch"
  | .setBreakpoints .. => "octave_set_breakpoints"
  | .clearBreakpoints _ => "octave_clear_breakpoints"
  | .run _ => "octave_run"
  | .resume => "octave_continue"
  | .step => "octave_step"
  | .stack => "octave_stack"
  | .list _ => "octave_variables"
  | .evaluate _ => "octave_evaluate"
  | .locate _ => "octave_which"
  | .send _ => "octave_command"
  | .terminate => "octave_terminate"

def readLaunch? (args : Document) : Option LaunchChoice := do
  let field ← args.fields? ["executable", "args", "cwd"]
  return ⟨← optional asText? (field "executable"), ← optional (asList? asText?) (field "args"),
    ← optional asText? (field "cwd")⟩

def readSetBreakpoints? (args : Document) : Option ToolCall := do
  let field ← args.fields? ["function", "lines", "replace"]
  return .setBreakpoints (← required asText? (field "function"))
    (← required (asList? (asNat? max32)) (field "lines")) (← defaulted true asBool? (field "replace"))

def readOnly? {α : Type} (name : String) (read? : Option Document → Option α)
    (args : Document) : Option α := do
  read? ((← args.fields? [name]) name)

/-- The call of a tool with the given arguments, if the tool takes them. -/
def read? (tool : String) (args : Document) : Option ToolCall :=
  match tool with
  | "octave_launch" => (readLaunch? args).map launch
  | "octave_set_breakpoints" => readSetBreakpoints? args
  | "octave_clear_breakpoints" =>
    (readOnly? "function" (required asText?) args).map clearBreakpoints
  | "octave_run" => (readOnly? "target" (required asText?) args).map run
  | "octave_continue" => some resume
  | "octave_step" => some step
  | "octave_stack" => some stack
  | "octave_variables" => (readOnly? "include_values" (defaulted true asBool?) args).map list
  | "octave_evaluate" => (readOnly? "expression" (required asText?) args).map evaluate
  | "octave_which" => (readOnly? "names" (required (asList? asText?)) args).map locate
  | "octave_command" => (readOnly? "command" (optional asText?) args).map send
  | "octave_terminate" => some terminate
  | _ => none

/-- The arguments of a call with every field written out. -/
def arguments : ToolCall → Document
  | .launch choice => .record
    [("executable", ofOption .text choice.executable), ("args", ofOption texts choice.args),
     ("cwd", ofOption .text choice.cwd)]
  | .setBreakpoints function lines replace => .record
    [("function", .text function), ("lines", .list (lines.map ofNat)), ("replace", .bool replace)]
  | .clearBreakpoints function => .record [("function", .text function)]
  | .run target => .record [("target", .text target)]
  | .list includeValues => .record [("include_values", .bool includeValues)]
  | .evaluate expression => .record [("expression", .text expression)]
  | .locate names => .record [("names", texts names)]
  | .send line => .record [("command", ofOption .text line)]
  | .resume | .step | .stack | .terminate => .record []

end ToolCall

end PromptRelay
