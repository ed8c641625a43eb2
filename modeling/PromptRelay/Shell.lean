import PromptRelay.ExitReport
import PromptRelay.ShellCommand
import PromptRelay.ShellExpansion
import PromptRelay.ShellText
import PromptRelay.Utf8

namespace PromptRelay

inductive Channel where
  | input
  | output
  | diagnostics
  | nowhere
  deriving DecidableEq, Repr

/-- The pipes of a process: what it has not read yet, whether more may come, and what it printed
and nobody has read. -/
structure Pipes where
  input : List UInt8
  inputOpen : Bool
  stdout : List UInt8
  stderr : List UInt8
  deriving DecidableEq, Repr

/-- What a shell has still to do, the next thing first. -/
inductive ShellStep where
  | run (command : ShellCommand)
  | branch (yes no : ShellCommand)
  | negate
  | loopTest (untilTrue : Bool) (condition body : ShellCommand)
  | forEach (name : String) (values : List String) (body : ShellCommand)
  | restore (files : List (Nat × Channel))
  | leave (scope : ShellScope) (files : List (Nat × Channel)) (cwd : String)
  | asleep
  | readScript

structure Shell where
  todo : List ShellStep
  scope : ShellScope
  files : List (Nat × Channel)
  cwd : String

inductive ShellTurn where
  | went (shell : Shell) (pipes : Pipes)
  | forked (shell child : Shell) (pipes : Pipes)
  | signalled (shell : Shell) (signal : Nat)
  | waitsForInput
  | waitsForTime
  | waitsForChildren
  | ended (report : ExitReport)

namespace Shell

def newline : UInt8 := 10

def standardFiles : List (Nat × Channel) := [(0, .input), (1, .output), (2, .diagnostics)]

def setFile (files : List (Nat × Channel)) (n : Nat) (channel : Channel) : List (Nat × Channel) :=
  (n, channel) :: files.filter (·.1 ≠ n)

def withStatus (s : Shell) (status : Nat) : Shell :=
  { s with scope := { s.scope with status := status % 256 } }

def withTodo (s : Shell) (todo : List ShellStep) : Shell := { s with todo }

def print (files : List (Nat × Channel)) (n : Nat) (bytes : List UInt8) (p : Pipes) : Pipes :=
  match files.lookup n with
  | some .output => { p with stdout := p.stdout ++ bytes }
  | some .diagnostics => { p with stderr := p.stderr ++ bytes }
  | _ => p

def pathChannel? (text path : String) : Option Channel :=
  match path with
  | "/dev/null" => some .nowhere
  | "/dev/stdin" => some .input
  | "/dev/stdout" => some .output
  | "/dev/stderr" => some .diagnostics
  | _ => if text = "<" then none else some .nowhere

/-- The open files after redirections, unless one of them fails. -/
def redirect? (s : Shell) (files : List (Nat × Channel)) :
    List Redirect → Option (List (Nat × Channel))
  | [] => some files
  | r :: rest =>
    let target := s.scope.joined r.target
    if r.text = "<&" ∨ r.text = ">&" then
      if target = "-" then s.redirect? (files.filter (·.1 ≠ r.file)) rest
      else match target.toNat?.bind fun n => files.lookup n with
        | some channel => s.redirect? (setFile files r.file channel) rest
        | none => none
    else match pathChannel? r.text target with
      | some channel => s.redirect? (setFile files r.file channel) rest
      | none => none

/-- The first line of the input, its newline taken off, and whether it had one; nothing while the
line may still grow. -/
def inputLine? (p : Pipes) : Option (List UInt8 × Bool × Pipes) :=
  match p.input.dropWhile (· ≠ newline) with
  | _ :: rest => some (p.input.takeWhile (· ≠ newline), true, { p with input := rest })
  | [] => if p.inputOpen then none else some (p.input, false, { p with input := [] })

/-- Drops what is left to do inside the innermost loop. -/
def leaveLoop (again : Bool) : List ShellStep → List ShellStep
  | [] => []
  | .run (.repeated u c b) :: rest => if again then .run (.repeated u c b) :: rest else rest
  | .forEach n vs b :: rest => if again then .forEach n vs b :: rest else rest
  | .leave scope files cwd :: rest => .leave scope files cwd :: rest
  | _ :: rest => leaveLoop again rest

/-- Drops what is left to do inside the innermost subshell. -/
def leaveSubshell : List ShellStep → List ShellStep
  | [] => []
  | .leave scope files cwd :: rest => .leave scope files cwd :: rest
  | _ :: rest => leaveSubshell rest

/-- Reads a line into variables; at the end of the input the status tells so. -/
def readLine (s : Shell) (files : List (Nat × Channel)) (separators : List Char)
    (words : List String) (p : Pipes) : ShellTurn :=
  let raw := words.head? = some "-r"
  let names := if raw then words.drop 1 else words
  let finish (line : List UInt8) (whole : Bool) (p : Pipes) : ShellTurn :=
    let text := decodeLossy line
    let values := ShellText.assignFields separators (if names.isEmpty then ["REPLY"] else names)
      (if raw then text else ShellText.unquoteLine text)
    let scope := values.foldl (fun scope (name, value) => scope.set name value) s.scope
    .went ({ s with scope }.withStatus (if whole then 0 else 1)) p
  match files.lookup 0 with
  | some .input =>
    match inputLine? p with
    | some (line, whole, p) => finish line whole p
    | none => .waitsForInput
  | some .nowhere => finish [] false p
  | _ => .went (s.withStatus 2) p

def copyInput (s : Shell) (self : ShellStep) (files : List (Nat × Channel)) (p : Pipes) :
    ShellTurn :=
  match files.lookup 0 with
  | some .input =>
    if !p.input.isEmpty then
      .went (s.withTodo (self :: s.todo)) (print files 1 p.input { p with input := [] })
    else if p.inputOpen then .waitsForInput else .went (s.withStatus 0) p
  | _ => .went (s.withStatus 0) p

/-- Defines `name=value` words; words without a value are left as they are. -/
def exportAll (scope : ShellScope) (words : List String) : ShellScope :=
  words.foldl
    (fun scope word =>
      match word.toList.span (· ≠ '=') with
      | (name, _ :: value) => scope.set (.ofList name) (.ofList value)
      | _ => scope) scope

def directory (cwd path : String) : String :=
  if path.startsWith "/" then path else if cwd = "/" then "/" ++ path else cwd ++ "/" ++ path

/-- Runs one utility; `self` is the step that does so, for a utility that has to go on with it. -/
def utility (s : Shell) (self : ShellStep) (files : List (Nat × Channel)) (separators : List Char)
    (p : Pipes) (name : String) (words : List String) : ShellTurn :=
  let ok (s : Shell) (p : Pipes) : ShellTurn := .went (s.withStatus 0) p
  let say (text : List UInt8) : ShellTurn := ok s (print files 1 text p)
  match name, words with
  | ":", _ | "true", _ | "trap", _ | "umask", _ | "set", _ => ok s p
  | "false", _ => .went (s.withStatus 1) p
  | "echo", words => say (ShellText.echo true words)
  | "printf", format :: args => say (ShellText.printf format.toList (args.length + 1) args)
  | "pwd", _ => say (utf8Bytes (s.cwd ++ "\n"))
  | "/bin/echo", words | "/usr/bin/echo", words => say (ShellText.echo false words)
  | "cd", path :: _ => ok { s with cwd := directory s.cwd path } p
  | "read", words => s.readLine files separators words p
  | "cat", _ => s.copyInput self files p
  | "sleep", _ => ok (s.withTodo (.asleep :: s.todo)) p
  | "wait", _ => .waitsForChildren
  | "exit", words =>
    let status := (words.head?.bind String.toNat?).getD s.scope.status
    .went ({ s with todo := leaveSubshell s.todo }.withStatus status) p
  | "break", _ => ok { s with todo := leaveLoop false s.todo } p
  | "continue", _ => ok { s with todo := leaveLoop true s.todo } p
  | "export", words => ok { s with scope := exportAll s.scope words } p
  | "unset", words => ok { s with scope := words.foldl ShellScope.unset s.scope } p
  | "shift", _ => ok { s with scope := { s.scope with params := s.scope.params.drop 1 } } p
  | "test", words => .went (s.withStatus (if ShellText.test words then 0 else 1)) p
  | "[", words => .went (s.withStatus (if ShellText.test words.dropLast then 0 else 1)) p
  | "kill", words =>
    match ShellText.killTarget? words with
    | some (signal, target) =>
      if signal ∈ ShellText.harmlessSignals then ok s p
      else if target = toString s.scope.pid then .signalled (s.withStatus 0) signal
      else .went (s.withStatus 1) p
    | none => .went (s.withStatus 2) p
  | name, _ =>
    .went (s.withStatus 127) (print files 2 (utf8Bytes ("sh: 1: " ++ name ++ ": not found\n")) p)

def assignAll (scope : ShellScope) (assigns : List (String × ShellWord)) : ShellScope :=
  assigns.foldl (fun scope (name, value) => scope.set name (scope.joined value)) scope

/-- Runs a simple command: assignments alone, `exec`, or a utility. -/
def simple (s : Shell) (self : ShellStep) (p : Pipes) (assigns : List (String × ShellWord))
    (words : List ShellWord) (redirects : List Redirect) : ShellTurn :=
  match s.redirect? s.files redirects with
  | none => .went (s.withStatus 2) p
  | some files =>
    match words.flatMap s.scope.fields with
    | [] => .went ({ s with scope := assignAll s.scope assigns }.withStatus 0) p
    | ["exec"] => .went ({ s with files }.withStatus 0) p
    | "exec" :: name :: rest =>
      { s with files, todo := leaveSubshell s.todo }.utility self files s.scope.separators p name rest
    | name :: rest => s.utility self files (assignAll s.scope assigns).separators p name rest

def clause? (scope : ShellScope) (text : String) :
    List (List ShellWord × ShellCommand) → Option ShellCommand
  | [] => none
  | (patterns, body) :: rest =>
    if patterns.any fun w => ShellScope.hasForm (scope.pattern w) text.toList then some body
    else clause? scope text rest

/-- Starts a command; `s` has everything after it still to do. -/
def start (s : Shell) (self : ShellStep) (p : Pipes) : ShellCommand → ShellTurn
  | .nothing => .went s p
  | .simple assigns words redirects => s.simple self p assigns words redirects
  | .redirected body redirects =>
    match s.redirect? s.files redirects with
    | none => .went (s.withStatus 2) p
    | some files => .went { s with files, todo := .run body :: .restore s.files :: s.todo } p
  | .subshell body =>
    .went (s.withTodo (.run body :: .leave s.scope s.files s.cwd :: s.todo)) p
  | .sequence first second => .went (s.withTodo (.run first :: .run second :: s.todo)) p
  | .both first second =>
    .went (s.withTodo (.run first :: .branch second .nothing :: s.todo)) p
  | .either first second =>
    .went (s.withTodo (.run first :: .branch .nothing second :: s.todo)) p
  | .negated body => .went (s.withTodo (.run body :: .negate :: s.todo)) p
  | .background body =>
    .forked (s.withStatus 0) { s with todo := [.run body], files := setFile s.files 0 .nowhere } p
  | .choice condition yes no =>
    .went (s.withTodo (.run condition :: .branch yes no :: s.todo)) p
  | .repeated untilTrue condition body =>
    .went (s.withTodo (.run condition :: .loopTest untilTrue condition body :: s.todo)) p
  | .forEach name words body =>
    .went (s.withTodo (.forEach name (words.flatMap s.scope.fields) body :: s.todo)) p
  | .caseOf subject clauses =>
    match clause? s.scope (s.scope.joined subject) clauses with
    | some body => .went (s.withTodo (.run body :: s.todo)) p
    | none => .went (s.withStatus 0) p

def takeScriptLine (s : Shell) (p : Pipes) : ShellTurn :=
  match inputLine? p with
  | none => .waitsForInput
  | some (line, whole, p) =>
    let todo := if whole then .readScript :: s.todo else s.todo
    match ShellCommand.ofScript? (.ofList (decodeLossy line)) with
    | some command => .went (s.withTodo (.run command :: todo)) p
    | none => .went ((s.withTodo []).withStatus 2) p

def turn (s : Shell) (p : Pipes) : ShellTurn :=
  match s.todo with
  | [] => .ended ⟨some s.scope.status, none⟩
  | step :: rest =>
    let s := s.withTodo rest
    match step with
    | .run command => s.start (.run command) p command
    | .branch yes no => .went (s.withTodo (.run (if s.scope.status = 0 then yes else no) :: rest)) p
    | .negate => .went (s.withStatus (if s.scope.status = 0 then 1 else 0)) p
    | .loopTest untilTrue condition body =>
      if (s.scope.status == 0) != untilTrue then
        .went (s.withTodo (.run body :: .run (.repeated untilTrue condition body) :: rest)) p
      else .went (s.withStatus 0) p
    | .forEach _ [] _ => .went s p
    | .forEach name (value :: values) body =>
      .went { s with
        scope := s.scope.set name value
        todo := .run body :: .forEach name values body :: rest } p
    | .restore files => .went { s with files } p
    | .leave scope files cwd =>
      .went ({ s with scope, files, cwd }.withStatus s.scope.status) p
    | .asleep => .waitsForTime
    | .readScript => s.takeScriptLine p

def wake (s : Shell) : Shell :=
  match s.todo with
  | .asleep :: rest => s.withTodo rest
  | _ => s

def holds (s : Shell) (channel : Channel) : Bool := s.files.any (·.2 = channel)

end Shell

end PromptRelay
