import PromptRelay.ExitReport
import PromptRelay.Startup

namespace PromptRelay

/-- A program to start: its name or path, its arguments, where it starts, and variables set for
it. -/
structure Program where
  executable : String
  args : List String
  cwd : Option String
  env : List (String × String)
  deriving DecidableEq, Repr

/-- What is done to a process from outside. -/
inductive Contact where
  | line (text : String)
  | endInput
  | takeOutput
  | takeDiagnostics
  | kill
  | passTime
  deriving DecidableEq, Repr

/-- What shows of a process: what it printed and nobody took, which of its pipes somebody still
holds, whether it only waits for time to pass, and how it ended. -/
structure Bearing where
  stdout : List UInt8
  stderr : List UInt8
  holdsInput : Bool
  holdsOutput : Bool
  holdsDiagnostics : Bool
  asleep : Bool
  exit : Option ExitReport
  deriving DecidableEq, Repr

/-- A process is known by what shows of it after whatever was done to it. -/
structure Process where
  conduct : List Contact → Bearing
  past : List Contact

namespace Process

def shown (p : Process) : Bearing := p.conduct p.past

def meet (p : Process) (c : Contact) : Process := { p with past := p.past ++ [c] }

def brokenPipe : String := "Broken pipe (os error 32)"

end Process

/-- Where the tools run: the variables they find there, and the process or the refusal that comes of
starting a program. -/
structure Host where
  environment : Environment
  spawn : Program → Except String Process

namespace Host

/-- A host without variables and without programs. -/
def bare : Host := ⟨⟨none, none, none⟩, fun _ => .error "No such file or directory (os error 2)"⟩

end Host

end PromptRelay
