import PromptRelay.QuotedText

namespace PromptRelay

inductive Fault where
  | io (detail : String)
  | spawn (executable detail : String)
  | terminated (reason : String)
  | notInitialized
  | invalidCommand (detail : String)
  | unexpectedReply (detail : String)
  | listing (line : Nat) (detail : String)
  deriving DecidableEq, Repr

namespace Fault

/-- A command with a line break in it: one command has one prompt. -/
def severalLines (command : String) : Fault :=
  .invalidCommand ("command spans several lines: " ++ quoted command)

def message : Fault → String
  | .io detail => "IO error: " ++ detail
  | .spawn executable detail => "Failed to spawn '" ++ executable ++ "': " ++ detail
  | .terminated reason => "Session terminated: " ++ reason
  | .notInitialized => "Octave session is being used before initialized"
  | .invalidCommand detail => "Invalid command: " ++ detail
  | .unexpectedReply detail => "Unexpected reply: " ++ detail
  | .listing line detail => "Parse error at line " ++ toString line ++ ": " ++ detail

def isTerminal : Fault → Bool
  | .terminated _ => true
  | .notInitialized => true
  | _ => false

end Fault

end PromptRelay
