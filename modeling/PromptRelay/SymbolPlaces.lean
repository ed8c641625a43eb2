import PromptRelay.Reply

namespace PromptRelay

/-- Where names are defined, in the order they were first met. -/
abbrev SymbolPlaces := List (String × String)

namespace SymbolPlaces

def find? (places : SymbolPlaces) (name : String) : Option String := places.lookup name

/-- A later place of a name replaces the earlier one. -/
def put (name path : String) : SymbolPlaces → SymbolPlaces
  | [] => [(name, path)]
  | (n, p) :: rest => if n = name then (name, path) :: rest else (n, p) :: put name path rest

def ofLine? (line : String) : Option (String × String) :=
  (symbolPlace? line.toList).map fun (name, path) => (.ofList name, .ofList path)

/-- The places that the lines of a reply tell of; other lines do not count. -/
def ofLines (lines : List String) : SymbolPlaces :=
  ((Reply.bodyOf lines).filterMap ofLine?).foldl (fun places (name, path) => places.put name path) []

end SymbolPlaces

end PromptRelay
