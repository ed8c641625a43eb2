import PromptRelay.Fault
import PromptRelay.Process
import PromptRelay.Shell

namespace PromptRelay

/-- A started program: the process itself while it lives, the processes it left in the background,
their pipes, and how the first one ended. -/
structure Child where
  main : Option Shell
  others : List Shell
  pipes : Pipes
  exit : Option ExitReport

namespace Program

def noEntry : String := "No such file or directory (os error 2)"

def denied : String := "Permission denied (os error 13)"

def notDirectory : String := "Not a directory (os error 20)"

def nulByte : String := "nul byte found in provided data"

def directories : List String :=
  ["", "bin", "dev", "etc", "home", "lib", "opt", "proc", "root", "sbin", "sys", "tmp", "usr",
   "usr/bin", "usr/lib", "usr/local", "usr/sbin", "usr/share", "var", "var/log", "var/tmp"]

/-- Files that every host has and that are no programs. -/
def plainFiles : List String := ["dev/null", "etc/group", "etc/hosts", "etc/passwd"]

def shellNames : List String := ["sh", "dash", "bash"]

def utilityNames : List String :=
  ["cat", "echo", "false", "printf", "pwd", "sleep", "test", "true"]

/-- The components of a path from the root, `.` and `..` resolved. -/
def components (path : String) : List (List Char) :=
  (path.toList.splitOn '/').foldl
    (fun before c =>
      if c = [] ∨ c = ['.'] then before
      else if c = ['.', '.'] then before.dropLast else before ++ [c]) []

def placed (path : String) : String :=
  "/".intercalate ((components path).map String.ofList)

/-- Why a path leads nowhere: it goes through a file, or something on it is missing. -/
def dead (path : String) : String :=
  if plainFiles.any fun file => path.startsWith (file ++ "/") then notDirectory else noEntry

def place (cwd : Option String) : Except String String :=
  match cwd with
  | none => .ok "/"
  | some path =>
    if path = "" then .error noEntry
    else if placed path ∈ directories then .ok ("/" ++ placed path)
    else if placed path ∈ plainFiles then .error notDirectory
    else .error (dead (placed path))

def found (executable : String) : Except String String :=
  let known := shellNames ++ utilityNames
  if '/' ∉ executable.toList then
    if executable ∈ known then .ok executable else .error noEntry
  else
    let path := placed executable
    match known.find? fun n => path = "bin/" ++ n ∨ path = "usr/bin/" ++ n with
    | some n => .ok n
    | none => if path ∈ directories ∨ path ∈ plainFiles then .error denied else .error (dead path)

def hasNul (s : String) : Bool := s.toList.any (·.toNat == 0)

def texts (p : Program) : List String :=
  p.executable :: p.args ++ p.cwd.toList ++ p.env.flatMap fun (name, value) => [name, value]

/-- What a shell does with a script that it cannot read. -/
def refusal : ShellCommand := .simple [] [quotedWord "exit", quotedWord "2"] []

/-- What a shell has to do, and the name and parameters it has while doing it. -/
def shellWork (program : String) (args : List String) : List ShellStep × String × List String :=
  if program ∈ shellNames then
    match args with
    | "-c" :: script :: rest =>
      ([.run ((ShellCommand.ofScript? script).getD refusal)], rest.headD program, rest.drop 1)
    | [] => ([.readScript], program, [])
    | script :: rest => ([.run refusal], script, rest)
  else
    let name := if program = "echo" then "/bin/echo" else program
    ([.run (.simple [] ((name :: args).map quotedWord) [])], program, args)

/-- The number of every started process; nothing depends on it but a process that names its own. -/
def processNumber : Nat := 4242

end Program

namespace Child

def start (p : Program) : Except String Child := do
  if p.texts.any Program.hasNul then throw Program.nulByte
  let cwd ← Program.place p.cwd
  let program ← Program.found p.executable
  let (todo, name, params) := Program.shellWork program p.args
  let scope : ShellScope :=
    { vars := p.env.reverse, params, name, status := 0, pid := Program.processNumber }
  return { main := some { todo, scope, files := Shell.standardFiles, cwd }, others := []
           pipes := ⟨[], true, [], []⟩, exit := none }

/-- Starts a program; a refusal is a fault that names it. -/
def spawn (p : Program) : Except Fault Child := (start p).mapError (.spawn p.executable)

def members (p : Child) : List Shell := p.main.toList ++ p.others

def holds (p : Child) (channel : Channel) : Bool := p.members.any (·.holds channel)

def die (p : Child) (signal : Nat) : Child :=
  if p.main.isSome then { p with main := none, exit := some ⟨none, some (signal : Int)⟩ } else p

def kill (p : Child) : Child := p.die 9

def mainStep? (p : Child) : Option Child := do
  let s ← p.main
  match s.turn p.pipes with
  | .went s pipes => some { p with main := some s, pipes }
  | .forked s child pipes => some { p with main := some s, others := p.others ++ [child], pipes }
  | .signalled _ signal => some (p.die signal)
  | .waitsForChildren =>
    if p.others.isEmpty then some { p with main := some ((s.withTodo s.todo.tail).withStatus 0) }
    else none
  | .waitsForInput => none
  | .waitsForTime => none
  | .ended report => some { p with main := none, exit := some report }

def otherStep? (p : Child) (i : Nat) (s : Shell) : Option Child :=
  match s.turn p.pipes with
  | .went s pipes => some { p with others := p.others.set i s, pipes }
  | .forked s child pipes => some { p with others := p.others.set i s ++ [child], pipes }
  | .signalled s signal => some ({ p with others := p.others.set i s }.die signal)
  | .waitsForChildren =>
    some { p with others := p.others.set i ((s.withTodo s.todo.tail).withStatus 0) }
  | .waitsForInput => none
  | .waitsForTime => none
  | .ended _ => some { p with others := p.others.eraseIdx i }

def step? (p : Child) : Option Child :=
  p.mainStep? <|> p.others.zipIdx.findSome? fun (s, i) => p.otherStep? i s

/-- Runs until everybody waits, at most the given number of steps. -/
def run : Nat → Child → Child
  | 0, p => p
  | fuel + 1, p =>
    match p.step? with
    | none => p
    | some p => run fuel p

/-- How many steps a process takes before somebody else has its turn. -/
def patience : Nat := 100000

def settle (p : Child) : Child := run patience p

def asleep (p : Child) : Bool :=
  p.members.any fun s => match s.todo with
    | .asleep :: _ => true
    | _ => false

/-- Time passes until a sleep ends, if anybody sleeps. -/
def wake? (p : Child) : Option Child :=
  if p.asleep then
    some { p with main := p.main.map Shell.wake, others := p.others.map Shell.wake }.settle
  else none

/-- Writes to the input, if anybody is left to read it. -/
def write (p : Child) (bytes : List UInt8) : Except Fault Child :=
  if p.holds .input then
    .ok { p with pipes := { p.pipes with input := p.pipes.input ++ bytes } }.settle
  else .error (.io Process.brokenPipe)

def writeLine (p : Child) (line : String) : Except Fault Child :=
  p.write (utf8Bytes line ++ [Shell.newline])

def closeInput (p : Child) : Child :=
  { p with pipes := { p.pipes with inputOpen := false } }.settle

def takeStdout (p : Child) : List UInt8 × Child :=
  (p.pipes.stdout, { p with pipes := { p.pipes with stdout := [] } })

def takeStderr (p : Child) : List UInt8 × Child :=
  (p.pipes.stderr, { p with pipes := { p.pipes with stderr := [] } })

def meet (p : Child) : Contact → Child
  | .line text => (p.writeLine text).toOption.getD p
  | .endInput => p.closeInput
  | .takeOutput => p.takeStdout.2
  | .takeDiagnostics => p.takeStderr.2
  | .kill => p.kill
  | .passTime => p.wake?.getD p

def bearing (p : Child) : Bearing :=
  { stdout := p.pipes.stdout, stderr := p.pipes.stderr, holdsInput := p.holds .input
    holdsOutput := p.holds .output, holdsDiagnostics := p.holds .diagnostics, asleep := p.asleep
    exit := p.exit }

/-- A started program, known from outside. -/
def process (p : Child) : Process := ⟨fun past => (past.foldl meet p.settle).bearing, []⟩

end Child

/-- A host whose programs are a shell and some utilities. -/
def Host.shell (environment : Environment) : Host :=
  ⟨environment, fun p => (Child.start p).map Child.process⟩

end PromptRelay
