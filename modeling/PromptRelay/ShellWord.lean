namespace PromptRelay

/-- A part of a word of a script. Parts in quotes are neither split at blanks nor read as
patterns; a pair of quotes also leaves a mark, which keeps an empty word. -/
inductive Piece where
  | plain (c : Char)
  | kept (c : Char)
  | parameter (name : String) (inQuotes : Bool)
  | arithmetic (source : List Char) (inQuotes : Bool)
  | mark
  deriving DecidableEq, Repr

abbrev ShellWord := List Piece

def quotedWord (text : String) : ShellWord := .mark :: text.toList.map .kept

inductive ShellToken where
  | word (w : ShellWord)
  | operator (text : String)
  | redirect (file : Option Nat) (text : String)
  deriving DecidableEq, Repr

namespace ShellToken

def isShellName (c : Char) : Bool := c.isAlphanum || c == '_'

def signNames : List Char := ['?', '$', '#', '@', '*', '!', '0', '1', '2', '3', '4', '5', '6', '7', '8', '9']

/-- The name of a parameter after its dollar sign, and the rest. -/
def parameterName? : List Char → Option (String × List Char)
  | [] => none
  | '\x7b' :: rest =>
    match rest.span (· ≠ '\x7d') with
    | (name, _ :: after) => if name.isEmpty then none else some (.ofList name, after)
    | _ => none
  | c :: rest =>
    if c.isAlpha || c == '_' then
      some (.ofList (c :: rest.takeWhile isShellName), rest.dropWhile isShellName)
    else if c ∈ signNames then some (c.toString, rest) else none

/-- The text up to the two closing parentheses of an arithmetic expansion, and the rest. -/
def arithmeticSource? (depth : Nat) : List Char → Option (List Char × List Char)
  | [] => none
  | ')' :: rest =>
    match depth, rest with
    | 0, ')' :: after => some ([], after)
    | 0, _ => none
    | depth + 1, _ => (arithmeticSource? depth rest).map fun (s, after) => (')' :: s, after)
  | '(' :: rest => (arithmeticSource? (depth + 1) rest).map fun (s, after) => ('(' :: s, after)
  | c :: rest => (arithmeticSource? depth rest).map fun (s, after) => (c :: s, after)

/-- The expansion after a dollar sign, and the rest; a dollar sign before anything else stands for
itself. Command substitutions are not read. -/
def expansion? (inQuotes : Bool) : List Char → Option (Piece × List Char)
  | '(' :: '(' :: rest =>
    (arithmeticSource? 0 rest).map fun (source, after) => (.arithmetic source inQuotes, after)
  | '(' :: _ => none
  | s =>
    match parameterName? s with
    | some (name, rest) => some (.parameter name inQuotes, rest)
    | none => some (.kept '$', s)

def endsWord (c : Char) : Bool := c ∈ [' ', '\t', '\n', ';', '&', '|', '<', '>', '(', ')']

/-- The pieces up to the closing double quote, and the rest. -/
def doubleQuoted? : Nat → List Char → Option (ShellWord × List Char)
  | 0, _ => none
  | _, [] => none
  | fuel + 1, c :: rest =>
    let more (p : Piece) (after : List Char) :=
      (doubleQuoted? fuel after).map fun (w, r) => (p :: w, r)
    match c, rest with
    | '"', _ => some ([], rest)
    | '\\', d :: after =>
      if d == '\n' then doubleQuoted? fuel after
      else if d ∈ ['$', '"', '\\', '\x60'] then more (.kept d) after else more (.kept '\\') rest
    | '$', _ => (expansion? true rest).bind fun (p, after) => more p after
    | _, _ => more (.kept c) rest

def word? : Nat → List Char → Option (ShellWord × List Char)
  | 0, _ => none
  | _, [] => some ([], [])
  | fuel + 1, c :: rest =>
    if endsWord c then some ([], c :: rest)
    else
      let more (ps : ShellWord) (after : List Char) :=
        (word? fuel after).map fun (w, r) => (ps ++ w, r)
      match c, rest with
      | '\'', _ =>
        match rest.span (· ≠ '\'') with
        | (text, _ :: after) => more (.mark :: text.map .kept) after
        | _ => none
      | '"', _ => (doubleQuoted? (fuel + 1) rest).bind fun (w, after) => more (.mark :: w) after
      | '\\', d :: after => if d == '\n' then more [] after else more [.kept d] after
      | '$', _ => (expansion? false rest).bind fun (p, after) => more [p] after
      | _, _ => more [.plain c] rest

def operators : List String := ["&&", "||", ";;", ";", "&", "|", "(", ")", "\n"]

def redirects : List String := [">>", "<&", ">&", "<", ">"]

def leading? (texts : List String) (s : List Char) : Option (String × List Char) :=
  texts.findSome? fun text => (text.toList.isPrefixOf? s).map fun rest => (text, rest)

/-- A number right before a redirection sign, which names the file. -/
def fileNumber? (s : List Char) : Option (Nat × String × List Char) :=
  let digits := s.takeWhile Char.isDigit
  if digits.isEmpty then none
  else (leading? redirects (s.dropWhile Char.isDigit)).map fun (text, rest) =>
    (digits.foldl (fun n c => n * 10 + (c.toNat - '0'.toNat)) 0, text, rest)

/-- The tokens of a script, unless a quote or an expansion in it is not closed. -/
def readAll? : Nat → List Char → Option (List ShellToken)
  | 0, _ => none
  | _, [] => some []
  | fuel + 1, c :: rest =>
    if c == ' ' || c == '\t' then readAll? fuel rest
    else if c == '#' then readAll? fuel (rest.dropWhile (· ≠ '\n'))
    else match fileNumber? (c :: rest) with
      | some (n, text, after) => (readAll? fuel after).map (.redirect (some n) text :: ·)
      | none =>
      match leading? operators (c :: rest) with
      | some (text, after) => (readAll? fuel after).map (.operator text :: ·)
      | none =>
      match leading? redirects (c :: rest) with
      | some (text, after) => (readAll? fuel after).map (.redirect none text :: ·)
      | none =>
      (word? (rest.length + 2) (c :: rest)).bind fun (w, after) =>
        (readAll? fuel after).map (.word w :: ·)

end ShellToken

def shellTokens? (script : String) : Option (List ShellToken) :=
  ShellToken.readAll? (script.toList.length + 1) script.toList

end PromptRelay
