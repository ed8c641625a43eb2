import PromptRelay.ShellWord

namespace PromptRelay

/-- What the words of a script stand for: variables, positional parameters, the script's name, the
status of the last command, and the number of the process. -/
structure ShellScope where
  vars : List (String × String)
  params : List String
  name : String
  status : Nat
  pid : Nat

namespace ShellScope

def get? (s : ShellScope) (name : String) : Option String :=
  match name with
  | "?" => some (toString s.status)
  | "$" => some (toString s.pid)
  | "#" => some (toString s.params.length)
  | "@" | "*" => some (" ".intercalate s.params)
  | "0" => some s.name
  | _ =>
    match name.toNat? with
    | some n => s.params[n - 1]?
    | none => s.vars.lookup name

/-- The value of a parameter between braces: its length after a hash sign, or with a text that
stands for it when it is unset or when it is set, a colon counting an empty one as unset. -/
def get (s : ShellScope) (name : String) : String :=
  match name.toList with
  | '#' :: c :: rest => toString ((s.get? (.ofList (c :: rest))).getD "").length
  | cs =>
    let plain := String.ofList (cs.takeWhile (· ∉ [':', '-', '+']))
    match cs.dropWhile (· ∉ [':', '-', '+']) with
    | ':' :: '-' :: other =>
      if (s.get? plain).getD "" = "" then .ofList other else (s.get? plain).getD ""
    | '-' :: other => (s.get? plain).getD (.ofList other)
    | ':' :: '+' :: other => if (s.get? plain).getD "" = "" then "" else .ofList other
    | '+' :: other => if (s.get? plain).isSome then .ofList other else ""
    | _ => (s.get? name).getD ""

def set (s : ShellScope) (name value : String) : ShellScope :=
  { s with vars := (name, value) :: s.vars.filter (·.1 ≠ name) }

def unset (s : ShellScope) (name : String) : ShellScope :=
  { s with vars := s.vars.filter (·.1 ≠ name) }

def separators (s : ShellScope) : List Char := ((s.vars.lookup "IFS").getD " \t\n").toList

/-- The whole number that a text is, zero if it is none. -/
def wholeNumber (text : String) : Int := text.toInt?.getD 0

def skipSpaces (s : List Char) : List Char := s.dropWhile fun c => c == ' ' || c == '\t' || c == '\n'

def truth (b : Bool) : Int := if b then 1 else 0

/-- The operators of arithmetic, one list for each level, the loosest first; of two that start
alike the longer comes first. -/
def arithmeticLevels : List (List (String × (Int → Int → Option Int))) :=
  [[("||", fun a b => some (truth (a ≠ 0 || b ≠ 0)))],
   [("&&", fun a b => some (truth (a ≠ 0 && b ≠ 0)))],
   [("==", fun a b => some (truth (a = b))), ("!=", fun a b => some (truth (a ≠ b)))],
   [("<=", fun a b => some (truth (a ≤ b))), (">=", fun a b => some (truth (a ≥ b))),
    ("<", fun a b => some (truth (a < b))), (">", fun a b => some (truth (a > b)))],
   [("+", fun a b => some (a + b)), ("-", fun a b => some (a - b))],
   [("*", fun a b => some (a * b)), ("/", fun a b => if b = 0 then none else some (a.tdiv b)),
    ("%", fun a b => if b = 0 then none else some (a.tmod b))]]

mutual

/-- An expression whose operators are of the given levels or tighter, and the rest. -/
def expression? (s : ShellScope) : Nat → List (List (String × (Int → Int → Option Int))) →
    List Char → Option (Int × List Char)
  | 0, _, _ => none
  | fuel + 1, [], text => operand? s fuel (skipSpaces text)
  | fuel + 1, level :: tighter, text => do
    let (first, rest) ← expression? s fuel tighter text
    operations? s fuel first level tighter rest

/-- Operations of one level on a value, from the left. -/
def operations? (s : ShellScope) : Nat → Int → List (String × (Int → Int → Option Int)) →
    List (List (String × (Int → Int → Option Int))) → List Char → Option (Int × List Char)
  | 0, _, _, _, _ => none
  | fuel + 1, first, level, tighter, text =>
    let found := level.findSome? fun (sign, apply) =>
      (sign.toList.isPrefixOf? (skipSpaces text)).map fun rest => (apply, rest)
    match found with
    | none => some (first, text)
    | some (apply, rest) => do
      let (second, rest) ← expression? s fuel tighter rest
      operations? s fuel (← apply first second) level tighter rest

def operand? (s : ShellScope) : Nat → List Char → Option (Int × List Char)
  | 0, _ => none
  | _, [] => none
  | fuel + 1, c :: rest => do
    if c == '(' then
      let (value, after) ← expression? s fuel arithmeticLevels rest
      match skipSpaces after with
      | ')' :: after => return (value, after)
      | _ => none
    else if c == '-' || c == '+' || c == '!' then
      let (value, after) ← operand? s fuel (skipSpaces rest)
      return (if c == '-' then -value else if c == '!' then truth (value = 0) else value, after)
    else if c == '$' then
      let (name, after) ← ShellToken.parameterName? rest
      return (wholeNumber (s.get name), after)
    else if c.isDigit then
      let digits := (c :: rest).takeWhile Char.isDigit
      return (wholeNumber (.ofList digits), (c :: rest).dropWhile Char.isDigit)
    else if ShellToken.isShellName c then
      let name := (c :: rest).takeWhile ShellToken.isShellName
      return (wholeNumber (s.get (.ofList name)), (c :: rest).dropWhile ShellToken.isShellName)
    else none

end

/-- The value of an arithmetic expression; one whose form is bad is zero. -/
def evaluate (s : ShellScope) (source : List Char) : Int :=
  match expression? s (8 * source.length + 16) arithmeticLevels source with
  | some (value, _) => value
  | none => 0

/-- The text of a piece, and whether it may be split into fields. -/
def textOf (s : ShellScope) : Piece → List Char × Bool
  | .plain c => ([c], false)
  | .kept c => ([c], false)
  | .parameter name inQuotes => ((s.get name).toList, !inQuotes)
  | .arithmetic source inQuotes => ((toString (s.evaluate source)).toList, !inQuotes)
  | .mark => ([], false)

def joined (s : ShellScope) (w : ShellWord) : String := .ofList (w.flatMap fun p => (s.textOf p).1)

/-- Fields under construction: the whole ones, and the one that may still grow. -/
abbrev Fields := List (List Char) × Option (List Char)

def Fields.append (f : Fields) (text : List Char) : Fields := (f.1, some (f.2.getD [] ++ text))

def Fields.break (f : Fields) : Fields := (f.1 ++ f.2.toList, none)

def addPiece (s : ShellScope) (f : Fields) (p : Piece) : Fields :=
  let (text, split) := s.textOf p
  if split then
    text.foldl
      (fun f c => if c ∈ s.separators then Fields.break f else Fields.append f [c]) f
  else Fields.append f text

/-- The fields of a word: unquoted expansions are split at the separators. -/
def fields (s : ShellScope) (w : ShellWord) : List String :=
  ((w.foldl s.addPiece ([], none)).break.1).map String.ofList

/-- A pattern: characters, and whether each one stands for itself. -/
abbrev ShellPattern := List (Char × Bool)

def pattern (s : ShellScope) (w : ShellWord) : ShellPattern :=
  w.flatMap fun p =>
    match p with
    | .plain c => [(c, false)]
    | p => (s.textOf p).1.map fun c => (c, true)

/-- Whether a text has the form of a pattern: a star stands for any text, a question mark for any
character. -/
def hasForm : ShellPattern → List Char → Bool
  | [], text => text.isEmpty
  | ('*', false) :: p, text =>
    (List.range (text.length + 1)).any fun n => hasForm p (text.drop n)
  | _ :: _, [] => false
  | (c, literal) :: p, d :: text => ((c == '?' && !literal) || c == d) && hasForm p text

end ShellScope

end PromptRelay
