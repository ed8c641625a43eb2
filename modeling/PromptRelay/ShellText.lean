import PromptRelay.Utf8

namespace PromptRelay

namespace ShellText

def charBytes (c : Char) : List UInt8 := String.utf8EncodeChar c

def isOctal (c : Char) : Bool := '0' ≤ c && c ≤ '7'

def octalValue (digits : List Char) : Nat :=
  digits.foldl (fun n c => n * 8 + (c.toNat - '0'.toNat)) 0

def escapeChar? : Char → Option Char
  | 'n' => some '\n'
  | 't' => some '\t'
  | 'r' => some '\r'
  | '\\' => some '\\'
  | 'a' => some (Char.ofNat 7)
  | 'b' => some (Char.ofNat 8)
  | 'f' => some (Char.ofNat 12)
  | 'v' => some (Char.ofNat 11)
  | _ => none

/-- The octets of an escape after its backslash, and the rest. `zeroFirst` asks for a zero before
octal digits. -/
def escape (zeroFirst : Bool) : List Char → List UInt8 × List Char
  | [] => (charBytes '\\', [])
  | c :: rest =>
    match escapeChar? c with
    | some e => (charBytes e, rest)
    | none =>
      let digits := if zeroFirst then (rest.take 3).takeWhile isOctal
        else ((c :: rest).take 3).takeWhile isOctal
      if zeroFirst && c == '0' then ([UInt8.ofNat (octalValue digits)], rest.drop digits.length)
      else if !zeroFirst && !digits.isEmpty then
        ([UInt8.ofNat (octalValue digits)], (c :: rest).drop digits.length)
      else (charBytes '\\' ++ charBytes c, rest)

/-- A text with its escapes replaced; the flag tells that an escape asked to stop there. -/
def unescape (zeroFirst : Bool) : Nat → List Char → List UInt8 × Bool
  | 0, _ => ([], false)
  | _, [] => ([], false)
  | fuel + 1, '\\' :: rest =>
    if rest.head? = some 'c' then ([], true)
    else
      let (text, after) := escape zeroFirst rest
      let (more, stopped) := unescape zeroFirst fuel after
      (text ++ more, stopped)
  | fuel + 1, c :: rest =>
    let (more, stopped) := unescape zeroFirst fuel rest
    (charBytes c ++ more, stopped)

/-- What `echo` prints: the words, a space between two, and a newline unless it is left out.
`escapes` tells whether escapes are replaced. -/
def echo (escapes : Bool) (words : List String) : List UInt8 :=
  let (bare, words) := match words with
    | "-n" :: rest => (true, rest)
    | ws => (false, ws)
  let source := (" ".intercalate words).toList
  let (text, stopped) :=
    if escapes then unescape true (source.length + 1) source else (source.flatMap charBytes, false)
  if bare || stopped then text else text ++ charBytes '\n'

/-- Fills a text up to a width, on the left unless asked otherwise. -/
def pad (flags : List Char) (width : Nat) (text : List UInt8) : List UInt8 :=
  let missing := width - text.length
  if '-' ∈ flags then text ++ List.replicate missing 32
  else if '0' ∈ flags then List.replicate missing 48 ++ text
  else List.replicate missing 32 ++ text

def conversion (kind : Char) (argument : String) : List UInt8 :=
  let n : Int := argument.toInt?.getD 0
  match kind with
  | 's' => utf8Bytes argument
  | 'b' => (unescape true (argument.length + 1) argument.toList).1
  | 'c' => (utf8Bytes argument).take 1
  | 'x' => (Nat.toDigits 16 n.toNat).flatMap charBytes
  | 'X' => ((Nat.toDigits 16 n.toNat).map Char.toUpper).flatMap charBytes
  | 'o' => (Nat.toDigits 8 n.toNat).flatMap charBytes
  | _ => utf8Bytes (toString n)

/-- One pass over a format: the text, the arguments left, and whether any was asked for. -/
def formatPass : Nat → List Char → List String → List UInt8 × List String × Bool
  | 0, _, args => ([], args, false)
  | _, [], args => ([], args, false)
  | fuel + 1, '\\' :: rest, args =>
    let (text, after) := escape false rest
    let (more, left, used) := formatPass fuel after args
    (text ++ more, left, used)
  | fuel + 1, '%' :: '%' :: rest, args =>
    let (more, left, used) := formatPass fuel rest args
    (charBytes '%' ++ more, left, used)
  | fuel + 1, '%' :: rest, args =>
    let flags := rest.takeWhile (· ∈ ['-', '0', ' ', '+', '#'])
    let rest := rest.dropWhile (· ∈ ['-', '0', ' ', '+', '#'])
    let width := ((String.ofList (rest.takeWhile Char.isDigit)).toNat?).getD 0
    match rest.dropWhile Char.isDigit with
    | [] => (charBytes '%', args, false)
    | kind :: after =>
      let (more, left, _) := formatPass fuel after (args.drop 1)
      (pad flags width (conversion kind (args.headD "")) ++ more, left, true)
  | fuel + 1, c :: rest, args =>
    let (more, left, used) := formatPass fuel rest args
    (charBytes c ++ more, left, used)

/-- What `printf` prints: the format is used again while arguments are left. -/
def printf (format : List Char) : Nat → List String → List UInt8
  | 0, _ => []
  | fuel + 1, args =>
    let (text, left, used) := formatPass (format.length + 1) format args
    if used && !left.isEmpty then text ++ printf format fuel left else text

/-- The two halves of a line at its first separator, blanks around it left out. -/
def cutField (separators : List Char) (line : List Char) : List Char × List Char :=
  let first := line.takeWhile (· ∉ separators)
  (first, (line.dropWhile (· ∉ separators)).dropWhile (· ∈ separators))

def trimSeparators (separators : List Char) (line : List Char) : List Char :=
  ((line.dropWhile (· ∈ separators)).reverse.dropWhile (· ∈ separators)).reverse

/-- The values of the names that a line is read into; the last one takes all that is left. -/
def assignFields (separators : List Char) : List String → List Char → List (String × String)
  | [], _ => []
  | [name], line => [(name, .ofList (trimSeparators separators line))]
  | name :: rest, line =>
    let (field, after) := cutField separators (line.dropWhile (· ∈ separators))
    (name, .ofList field) :: assignFields separators rest after

/-- A line whose backslashes quote the character after them. -/
def unquoteLine : List Char → List Char
  | '\\' :: c :: rest => c :: unquoteLine rest
  | c :: rest => c :: unquoteLine rest
  | [] => []

def test : List String → Bool
  | [] => false
  | [text] => text ≠ ""
  | ["!", text] => text = ""
  | ["-n", text] => text ≠ ""
  | ["-z", text] => text = ""
  | [a, "=", b] => a = b
  | [a, "==", b] => a = b
  | [a, "!=", b] => a ≠ b
  | [a, "-eq", b] => a.toInt? = b.toInt?
  | [a, "-ne", b] => a.toInt? ≠ b.toInt?
  | [a, "-lt", b] => a.toInt?.getD 0 < b.toInt?.getD 0
  | [a, "-le", b] => a.toInt?.getD 0 ≤ b.toInt?.getD 0
  | [a, "-gt", b] => b.toInt?.getD 0 < a.toInt?.getD 0
  | [a, "-ge", b] => b.toInt?.getD 0 ≤ a.toInt?.getD 0
  | "!" :: rest => !test rest
  | _ => false

def signalNumber? (text : String) : Option Nat :=
  let name := if text.startsWith "SIG" then (text.drop 3).toString else text
  text.toNat? <|> [("HUP", 1), ("INT", 2), ("QUIT", 3), ("ILL", 4), ("TRAP", 5), ("ABRT", 6),
    ("BUS", 7), ("FPE", 8), ("KILL", 9), ("USR1", 10), ("SEGV", 11), ("USR2", 12), ("PIPE", 13),
    ("ALRM", 14), ("TERM", 15), ("CHLD", 17), ("CONT", 18)].lookup name

/-- The signal that a kill command sends and whom it sends it to. -/
def killTarget? : List String → Option (Nat × String)
  | ["-s", signal, target] => (signalNumber? signal).map fun n => (n, target)
  | [signal, target] =>
    if signal.startsWith "-" then
      (signalNumber? (signal.drop 1).toString).map fun n => (n, target)
    else none
  | [target] => some (15, target)
  | _ => none

/-- Signals that do nothing to a process that does not ask for them. -/
def harmlessSignals : List Nat := [0, 17, 18, 23, 28]

end ShellText

end PromptRelay
