import PromptRelay.Prompt
import PromptRelay.Shape

namespace PromptRelay

/-- One reply: all its lines, the lines between the blank ones at its start and its prompt, and
the prompt. -/
structure Reply where
  lines : List String
  body : List String
  prompt : Option String
  deriving DecidableEq, Repr

namespace Reply

/-- The lines without the prompt and the blank lines before the first other line. -/
def bodyOf (lines : List String) : List String := (splitPrompt lines).1.dropWhile isBlankLine

def ofLines (lines : List String) : Reply := ⟨lines, bodyOf lines, (splitPrompt lines).2⟩

def shape (r : Reply) : Shape := .ofBody r.body

def inDebugMode (r : Reply) : Bool := r.prompt.any isDebugPrompt

end Reply

def classify (lines : List String) (mode : Mode) : Shape :=
  if mode.completes lines then .ofBody (Reply.bodyOf lines) else .incomplete

end PromptRelay
