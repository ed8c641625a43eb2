import PromptRelay.Child

namespace PromptRelay

/-- The input taken from a handle: the pipe to the process, or nothing that could take a line. -/
inductive InputHandle where
  | pipe
  | dummy
  deriving DecidableEq, Repr

namespace InputHandle

def ensureLive : InputHandle → Except Fault Unit
  | .pipe => .ok ()
  | .dummy => .error .notInitialized

def text : InputHandle → String
  | .pipe => "SessionInput::Pipe"
  | .dummy => "SessionInput::Dummy"

end InputHandle

/-- A process, or none, with its streams, which can be taken once. -/
structure ChildHandle where
  process : Option Child
  streamsTaken : Bool

namespace ChildHandle

def dummy : ChildHandle := ⟨none, false⟩

def spawn (p : Program) : Except Fault ChildHandle :=
  (Child.spawn p).map fun process => ⟨some process.settle, false⟩

def input (h : ChildHandle) : InputHandle := if h.process.isSome then .pipe else .dummy

def writeLine (h : ChildHandle) (input : InputHandle) (line : String) :
    Except Fault ChildHandle := do
  input.ensureLive
  match h.process with
  | none => .error .notInitialized
  | some p => return { h with process := some (← p.writeLine line) }

/-- Writes a line while the handle still has its input. -/
def write (h : ChildHandle) (line : String) : Except Fault ChildHandle :=
  if h.streamsTaken then .error (.io "process input is owned by the multiplexer")
  else h.writeLine h.input line

def takeStreams (h : ChildHandle) : Except Fault (InputHandle × ChildHandle) :=
  if h.streamsTaken then .error (.io "session streams were already taken")
  else .ok (h.input, { h with streamsTaken := true })

def kill (h : ChildHandle) : ChildHandle := { h with process := h.process.map Child.kill }

def exit? (h : ChildHandle) : Option ExitReport := h.process.bind (·.exit)

def dummyText (h : ChildHandle) : String :=
  let input := if h.streamsTaken then "None" else "Some(" ++ InputHandle.dummy.text ++ ")"
  "ProcessSession \x7b pid: None, input: " ++ input ++ ", streams_taken: " ++
    toString h.streamsTaken ++ " \x7d"

end ChildHandle

end PromptRelay
