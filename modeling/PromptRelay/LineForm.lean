import PromptRelay.Blank
import PromptRelay.DecimalText

namespace PromptRelay

def after? (lead : String) (s : List Char) : Option (List Char) := lead.toList.isPrefixOf? s

def digits? (s : List Char) : Option (List Char × List Char) :=
  let number := s.takeWhile isDigit
  if number.isEmpty then none else some (number, s.dropWhile isDigit)

/-- The leading characters that are not blank, at least one, and the rest. -/
def word? (s : List Char) : Option (List Char × List Char) :=
  let word := s.takeWhile (!isBlank ·)
  if word.isEmpty then none else some (word, s.dropWhile (!isBlank ·))

def isNameStart (c : Char) : Bool := c.isAlpha || c == '_'

def isNameChar (c : Char) : Bool := c.isAlphanum || c == '_'

def name? : List Char → Option (List Char × List Char)
  | [] => none
  | c :: rest =>
    if isNameStart c then some (c :: rest.takeWhile isNameChar, rest.dropWhile isNameChar)
    else none

/-- The name before an equals sign, blanks allowed around it, and what follows the sign. -/
def assigned? (s : List Char) : Option (List Char × List Char) := do
  let (name, rest) ← name? (trimLeft s)
  let rest ← after? "=" (trimLeft rest)
  return (name, rest)

def singleValue? (s : List Char) : Option (List Char × List Char) := do
  let (name, rest) ← assigned? s
  let (value, rest) ← word? (trimLeft rest)
  if allBlank rest then some (name, value) else none

def gridHeader? (s : List Char) : Option (List Char) := do
  let (name, rest) ← assigned? s
  if allBlank rest then some name else none

/-- The shortest non-empty beginning without a line break that is followed by a tail the reader
accepts, with what the reader found there. -/
def shortestBefore? {α : Type} (tail? : List Char → Option α) :
    List Char → Option (List Char × α)
  | [] => none
  | c :: rest =>
    if c = '\n' then none
    else match tail? rest with
      | some found => some ([c], found)
      | none => (shortestBefore? tail? rest).map fun (before, found) => (c :: before, found)

/-- ` at line N`: the digits, and what follows them. -/
def atLine? (s : List Char) : Option (List Char × List Char) := do
  digits? (← after? " at line " s)

/-- `stopped in <location> at line <N>`, whatever follows. -/
def bannerStart? (s : List Char) : Option (List Char × List Char) := do
  let rest ← after? "stopped in " (trimLeft s)
  let (location, number, _) ← shortestBefore? atLine? rest
  return (location, number)

/-- `<N>: <code>`: the number and the code, one blank after the colon left out. -/
def bannerCode? (s : List Char) : Option (List Char × List Char) := do
  let (number, rest) ← digits? (trimLeft s)
  let rest ← after? ":" rest
  let code := match rest with
    | c :: r => if isBlank c then r else c :: r
    | [] => []
  if '\n' ∈ code then none else some (number, code)

def isDumpHeader (s : List Char) : Bool :=
  match after? "error: called from" (trimLeft s) with
  | some rest => allBlank rest
  | none => false

/-- `<name> at line <L> column <C>`. -/
def dumpFrame? (s : List Char) : Option (List Char × List Char × List Char) := do
  let (name, rest) ← word? (trimLeft s)
  let (line, rest) ← atLine? rest
  let (column, rest) ← digits? (← after? " column " rest)
  if allBlank rest then some (name, line, column) else none

/-- The text up to a quote sign, at least one character, and what follows the sign. -/
def upToQuote? (s : List Char) : Option (List Char × List Char) := do
  let name := s.takeWhile (· ≠ '\'')
  let rest ← after? "'" (s.dropWhile (· ≠ '\''))
  if name.isEmpty then none else some (name, rest)

def isKindChar (c : Char) : Bool := c.isLower || c == '-'

/-- One lower-case word, dashes allowed, and the space after it. -/
def kindWord? (s : List Char) : Option (List Char) :=
  if (s.takeWhile isKindChar).isEmpty then none else after? " " (s.dropWhile isKindChar)

/-- `function` or `script`, then where it comes from: the text after the phrase. -/
def definedIn? (s : List Char) : Option (List Char) := do
  let rest ← after? "function" s <|> after? "script" s
  after? " from the file " rest

/-- `'<name>' is a [word ]function|script from the file <path>`, blanks after the path left
out. -/
def symbolPlace? (s : List Char) : Option (List Char × List Char) := do
  let (name, rest) ← upToQuote? (← after? "'" (trimLeft s))
  let rest ← after? " is a " rest
  let rest ← (kindWord? rest >>= definedIn?) <|> definedIn? rest
  let (path, _) ← shortestBefore? (fun tail => if allBlank tail then some () else none) rest
  return (name, path)

def isErrorLine (s : List Char) : Bool := (after? "error:" (trimLeft s)).isSome

end PromptRelay
