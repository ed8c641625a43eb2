import PromptRelay.Fault
import PromptRelay.Variable

namespace PromptRelay

/-- The variables of a listing, and the fault of the first bad row, which ends it. -/
structure Listing where
  entries : List Variable
  fault : Option Fault
  deriving DecidableEq, Repr

namespace Listing

/-- Lines over the rows that are not blank. -/
def headingLines : Nat := 3

def isSeparator (row : List (List Char)) : Bool := row.all (·.all (· == '='))

/-- Reads rows until one is bad; `line` is the place of the next one. -/
def readRows (line : Nat) : List (List (List Char)) → Listing
  | [] => ⟨[], none⟩
  | row :: rest =>
    if isSeparator row then readRows (line + 1) rest
    else match Variable.ofTokens row with
      | .error fault => ⟨[], some (.listing line fault.message)⟩
      | .ok v =>
        let listing := readRows (line + 1) rest
        { listing with entries := v :: listing.entries }

def trailingLines (content : List String) : Nat := if content.getLast?.any isPrompt then 2 else 1

/-- The lines of a listing that are not blank, without the heading, the footer and the prompt. -/
def rows (lines : List String) : List String :=
  let content := lines.filter (!isBlankLine ·)
  (content.take (content.length - trailingLines content)).drop headingLines

def ofLines (lines : List String) : Listing :=
  readRows headingLines ((rows lines).map fun row => tokens row.toList)

end Listing

end PromptRelay
