import PromptRelay.Blank

namespace PromptRelay

structure Environment where
  executable : Option String
  args : Option String
  cwd : Option String
  deriving DecidableEq, Repr

/-- Choices of one launch; what is missing comes from the environment. -/
structure LaunchChoice where
  executable : Option String
  args : Option (List String)
  cwd : Option String
  deriving DecidableEq, Repr

structure Startup where
  executable : String
  args : List String
  cwd : Option String
  setupCommands : List String
  deriving DecidableEq, Repr

namespace Startup

def defaultExecutable : String := "octave-cli"

def defaultArgs : List String := ["--no-gui", "--quiet", "--no-line-editing"]

def defaultSetup : List String :=
  ["debug_on_error(1)", "debug_on_warning(1)", "debug_on_interrupt(1)", "format compact"]

def default : Startup := ⟨defaultExecutable, defaultArgs, none, defaultSetup⟩

def ofProgram (executable : String) (args : List String) : Startup :=
  { default with executable, args }

def withCwd (s : Startup) (cwd : String) : Startup := { s with cwd := some cwd }

/-- Arguments in the environment are separated by blanks. -/
def ofEnvironment (env : Environment) : Startup :=
  { executable := env.executable.getD defaultExecutable
    args := (env.args.map tokenTexts).getD defaultArgs
    cwd := env.cwd
    setupCommands := defaultSetup }

def ofLaunch (env : Environment) (choice : LaunchChoice) : Startup :=
  let base := ofEnvironment env
  { base with
    executable := choice.executable.getD base.executable
    args := choice.args.getD base.args
    cwd := choice.cwd <|> base.cwd }

end Startup

end PromptRelay
