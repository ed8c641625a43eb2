import PromptRelay.ShellWord

namespace PromptRelay

/-- A redirection of an open file: to a path, to a duplicate of another file, or closed. -/
structure Redirect where
  file : Nat
  text : String
  target : ShellWord
  deriving DecidableEq, Repr

inductive ShellCommand where
  | nothing
  | simple (assigns : List (String × ShellWord)) (words : List ShellWord)
      (redirects : List Redirect)
  | redirected (body : ShellCommand) (redirects : List Redirect)
  | subshell (body : ShellCommand)
  | sequence (first second : ShellCommand)
  | both (first second : ShellCommand)
  | either (first second : ShellCommand)
  | negated (body : ShellCommand)
  | background (body : ShellCommand)
  | choice (condition yes no : ShellCommand)
  | repeated (untilTrue : Bool) (condition body : ShellCommand)
  | forEach (name : String) (words : List ShellWord) (body : ShellCommand)
  | caseOf (subject : ShellWord) (clauses : List (List ShellWord × ShellCommand))

namespace ShellCommand

/-- Does nothing and succeeds at it. -/
def success : ShellCommand := .simple [] [] []

def plainChar? : Piece → Option Char
  | .plain c => some c
  | _ => none

/-- The text of a word without quotes and expansions. -/
def bareText? (w : ShellWord) : Option String := (w.mapM plainChar?).map String.ofList

def keyword? : ShellToken → Option String
  | .word w => bareText? w
  | _ => none

def isKeyword (text : String) (ts : List ShellToken) : Bool := (ts.head?.bind keyword?) == some text

def expect? (text : String) : List ShellToken → Option (List ShellToken)
  | t :: rest => if keyword? t == some text || t == .operator text then some rest else none
  | [] => none

def skipNewlines (ts : List ShellToken) : List ShellToken := ts.dropWhile (· == .operator "\n")

/-- Words that end a list of commands where a command could start. -/
def closers : List String := ["then", "else", "elif", "fi", "do", "done", "esac", "\x7d"]

def endsList (ts : List ShellToken) : Bool :=
  match ts with
  | [] => true
  | .operator ")" :: _ => true
  | .operator ";;" :: _ => true
  | t :: _ => (keyword? t).any (· ∈ closers)

/-- `name=value` at the start of a command. -/
def assignment? (w : ShellWord) : Option (String × ShellWord) :=
  let isName (p : Piece) : Bool := (plainChar? p).any ShellToken.isShellName
  match bareText? (w.takeWhile isName), w.dropWhile isName with
  | some text, .plain '=' :: value =>
    if text.isEmpty || (text.toList.head?.any Char.isDigit) then none else some (text, value)
  | _, _ => none

def defaultFile (text : String) : Nat := if text.toList.head? = some '<' then 0 else 1

def redirects? : Nat → List ShellToken → Option (List Redirect × List ShellToken)
  | fuel + 1, .redirect file text :: .word target :: rest =>
    (redirects? fuel rest).map fun (rs, after) =>
      (⟨file.getD (defaultFile text), text, target⟩ :: rs, after)
  | _, .redirect _ _ :: _ => none
  | _, ts => some ([], ts)

def simple? : Nat → ShellCommand → List ShellToken → Option (ShellCommand × List ShellToken)
  | fuel + 1, .simple assigns words rs, .redirect file text :: .word target :: rest =>
    simple? fuel
      (.simple assigns words (rs ++ [⟨file.getD (defaultFile text), text, target⟩])) rest
  | fuel + 1, .simple assigns words rs, .word w :: rest =>
    match words, assignment? w with
    | [], some a => simple? fuel (.simple (assigns ++ [a]) [] rs) rest
    | _, _ => simple? fuel (.simple assigns (words ++ [w]) rs) rest
  | _, _, .redirect _ _ :: _ => none
  | _, .simple [] [] [], _ => none
  | _, c, ts => some (c, ts)

def wordsOf : List ShellToken → List ShellWord × List ShellToken
  | .word w :: rest =>
    let (ws, after) := wordsOf rest
    (w :: ws, after)
  | ts => ([], ts)

/-- One command after another, nothing left out of it. -/
def follow (first : ShellCommand) : ShellCommand → ShellCommand
  | .nothing => first
  | second => .sequence first second

/-- A compound command with the redirections that follow it. -/
def close? (body : ShellCommand) (ts : List ShellToken) :
    Option (ShellCommand × List ShellToken) := do
  match ← redirects? (ts.length + 1) ts with
  | ([], ts) => return (body, ts)
  | (rs, ts) => return (.redirected body rs, ts)

/-- The patterns of a clause up to the closing parenthesis. -/
def patterns? : Nat → List ShellToken → Option (List ShellWord × List ShellToken)
  | fuel + 1, .word w :: .operator "|" :: rest =>
    (patterns? fuel rest).map fun (ws, after) => (w :: ws, after)
  | _, .word w :: .operator ")" :: rest => some ([w], rest)
  | _, _ => none

mutual

def list? : Nat → List ShellToken → Option (ShellCommand × List ShellToken)
  | 0, _ => none
  | fuel + 1, ts =>
    let ts := skipNewlines ts
    if endsList ts then some (.nothing, ts)
    else do
      let (first, ts) ← andOr? fuel ts
      let more (first : ShellCommand) (rest : List ShellToken) := do
        let (second, after) ← list? fuel rest
        return (follow first second, after)
      match ts with
      | .operator "&" :: rest => more (.background first) rest
      | .operator ";" :: rest => more first rest
      | .operator "\n" :: rest => more first rest
      | rest => if endsList rest then return (first, rest) else none

/-- Commands joined by `&&` and `||`, which bind from the left. -/
def andOr? : Nat → List ShellToken → Option (ShellCommand × List ShellToken)
  | 0, _ => none
  | fuel + 1, ts => do
    let (first, ts) ← command? fuel ts
    andOrFrom? fuel first ts

def andOrFrom? : Nat → ShellCommand → List ShellToken → Option (ShellCommand × List ShellToken)
  | 0, _, _ => none
  | fuel + 1, first, .operator "&&" :: rest => do
    let (second, ts) ← command? fuel (skipNewlines rest)
    andOrFrom? fuel (.both first second) ts
  | fuel + 1, first, .operator "||" :: rest => do
    let (second, ts) ← command? fuel (skipNewlines rest)
    andOrFrom? fuel (.either first second) ts
  | _, first, ts => some (first, ts)

/-- One command, compound or simple, with its redirections. -/
def command? : Nat → List ShellToken → Option (ShellCommand × List ShellToken)
  | 0, _ => none
  | _, [] => none
  | fuel + 1, t :: rest => do
    match t, keyword? t with
    | .operator "(", _ =>
      let (body, ts) ← list? fuel rest
      close? (.subshell body) (← expect? ")" ts)
    | _, some "!" =>
      let (body, ts) ← command? fuel rest
      return (.negated body, ts)
    | _, some "\x7b" =>
      let (body, ts) ← list? fuel rest
      close? body (← expect? "\x7d" ts)
    | _, some "if" =>
      let (c, ts) ← choice? fuel rest
      close? c ts
    | _, some "while" => loop? false fuel rest
    | _, some "until" => loop? true fuel rest
    | _, some "for" =>
      match rest with
      | .word w :: ts =>
        let name ← bareText? w
        let (words, ts) := wordsOf (← expect? "in" (skipNewlines ts))
        let ts := skipNewlines (ts.dropWhile (· == .operator ";"))
        let (body, ts) ← list? fuel (← expect? "do" ts)
        close? (.forEach name words body) (← expect? "done" ts)
      | _ => none
    | _, some "case" =>
      match rest with
      | .word subject :: ts =>
        let (clauses, ts) ← clauses? fuel (skipNewlines (← expect? "in" (skipNewlines ts)))
        close? (.caseOf subject clauses) ts
      | _ => none
    | _, _ => simple? (rest.length + 2) (.simple [] [] []) (t :: rest)

/-- The condition and the body of a loop, up to the closing `done`. -/
def loop? (untilTrue : Bool) : Nat → List ShellToken → Option (ShellCommand × List ShellToken)
  | 0, _ => none
  | fuel + 1, ts => do
    let (condition, ts) ← list? fuel ts
    let (body, ts) ← list? fuel (← expect? "do" ts)
    close? (.repeated untilTrue condition body) (← expect? "done" ts)

/-- What follows `if` or `elif`, up to the closing `fi`. -/
def choice? : Nat → List ShellToken → Option (ShellCommand × List ShellToken)
  | 0, _ => none
  | fuel + 1, ts => do
    let (condition, ts) ← list? fuel ts
    let (yes, ts) ← list? fuel (← expect? "then" ts)
    if isKeyword "elif" ts then
      let (no, ts) ← choice? fuel ts.tail
      return (.choice condition yes no, ts)
    else if isKeyword "else" ts then
      let (no, ts) ← list? fuel ts.tail
      return (.choice condition yes no, ← expect? "fi" ts)
    else return (.choice condition yes success, ← expect? "fi" ts)

def clauses? :
    Nat → List ShellToken → Option (List (List ShellWord × ShellCommand) × List ShellToken)
  | 0, _ => none
  | fuel + 1, ts => do
    let ts := skipNewlines ts
    if isKeyword "esac" ts then return ([], ts.tail)
    let ts := (expect? "(" ts).getD ts
    let (patterns, ts) ← patterns? fuel ts
    let (body, ts) ← list? fuel ts
    let ts := skipNewlines ts
    match ts with
    | .operator ";;" :: rest =>
      let (clauses, after) ← clauses? fuel rest
      return ((patterns, body) :: clauses, after)
    | _ => return ([(patterns, body)], ← expect? "esac" ts)

end

/-- The command of a whole script, unless its form is bad. -/
def ofScript? (script : String) : Option ShellCommand := do
  let tokens ← shellTokens? script
  match ← list? (4 * tokens.length + 4) tokens with
  | (command, []) => some command
  | _ => none

end ShellCommand

end PromptRelay
