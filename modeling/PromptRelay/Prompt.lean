import PromptRelay.LineForm

namespace PromptRelay

inductive Mode where
  | normal
  | debug
  | either
  deriving DecidableEq, Repr

/-- `debug>` or `debug:>`, blanks allowed after it. -/
def isDebugText (s : List Char) : Bool :=
  match after? "debug" s with
  | none => false
  | some rest =>
    match after? ">" ((after? ":" rest).getD rest) with
    | none => false
    | some rest => allBlank rest

/-- `octave:N>`, blanks allowed after it: the digits of N. -/
def normalNumber? (s : List Char) : Option (List Char) := do
  let (number, rest) ← digits? (← after? "octave:" s)
  let rest ← after? ">" rest
  if allBlank rest then some number else none

def isDebugPrompt (line : String) : Bool := isDebugText line.toList

def isNormalPrompt (line : String) : Bool := (normalNumber? line.toList).isSome

def isPrompt (line : String) : Bool := isDebugPrompt line || isNormalPrompt line

/-- The line that ends a debug reply: the last one, or the one before it if the last is empty. -/
def debugEnd? : List String → Option String
  | [] => none
  | [line] => some line
  | [line, last] => if last = "" then some line else some last
  | _ :: rest => debugEnd? rest

def endsAtDebugPrompt (lines : List String) : Bool := (debugEnd? lines).any isDebugPrompt

def endsAtNormalPrompt (lines : List String) : Bool := lines.getLast?.any isNormalPrompt

def Mode.completes : Mode → List String → Bool
  | .debug, lines => endsAtDebugPrompt lines
  | .normal, lines => endsAtNormalPrompt lines
  | .either, lines => endsAtDebugPrompt lines || endsAtNormalPrompt lines

/-- The lines before the prompt and the prompt, if the lines end in one or in one and an empty
line. -/
def splitPrompt : List String → List String × Option String
  | [] => ([], none)
  | [line] => if isPrompt line then ([], some line) else ([line], none)
  | [line, last] =>
    if last = "" ∧ isPrompt line then ([], some line)
    else if isPrompt last then ([line], some last) else ([line, last], none)
  | line :: rest =>
    let (body, prompt) := splitPrompt rest
    (line :: body, prompt)

end PromptRelay
