import PromptRelay.FloatText
import PromptRelay.LineForm

namespace PromptRelay

inductive Shape where
  | incomplete
  | bare
  | single (name value : String)
  | grid (name : String) (rows : List (List String))
  deriving DecidableEq, Repr

namespace Shape

def single? : List String → Option Shape
  | [line] => (singleValue? line.toList).map fun (name, value) =>
      .single (String.ofList name) (String.ofList value)
  | _ => none

/-- The rows of a grid: the tokens of each line, lines without any left out. -/
def rowsOf (lines : List String) : List (List String) :=
  (lines.map tokenTexts).filter (!·.isEmpty)

/-- A line `name =`, rows, and an empty line. -/
def grid? : List String → Option Shape
  | header :: line :: rest =>
    if (line :: rest).getLast? = some "" then
      (gridHeader? header.toList).map fun name =>
        .grid (String.ofList name) (rowsOf (line :: rest).dropLast)
    else none
  | _ => none

/-- The shape of a body, whose prompt is already taken off. -/
def ofBody (body : List String) : Shape := ((single? body).or (grid? body)).getD .bare

def isComplete (s : Shape) : Bool := s ≠ .incomplete

def name? : Shape → Option String
  | .single name _ => some name
  | .grid name _ => some name
  | _ => none

/-- The value as a grid; a single value is a grid of one. -/
def values : Shape → List (List String)
  | .single _ value => [[value]]
  | .grid _ rows => rows
  | _ => []

def numbers (s : Shape) : List Binary64 :=
  s.values.flatten.filterMap fun token => readBinary64 token.toList

/-- The value in one line: tokens joined by a space, rows by `; `. -/
def text? : Shape → Option String
  | .single _ value => some value
  | .grid _ rows => some ("; ".intercalate (rows.map (" ".intercalate ·)))
  | _ => none

end Shape

end PromptRelay
