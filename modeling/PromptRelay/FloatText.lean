import PromptRelay.Binary64
import PromptRelay.DecimalText

namespace PromptRelay

/-- A decimal literal: sign, digits read as one whole number, and the power of ten. -/
structure DecimalLiteral where
  negative : Bool
  digits : Nat
  power : Int
  deriving DecidableEq, Repr

def digitsValue (digits : List Char) : Nat :=
  digits.foldl (fun value c => value * 10 + (digitValue? c).getD 0) 0

def takeSign : List Char → Bool × List Char
  | '-' :: rest => (true, rest)
  | '+' :: rest => (false, rest)
  | s => (false, s)

/-- An exponent after the digits: nothing, or `e`, a sign if any, and at least one digit. -/
def readPower : List Char → Option Int
  | [] => some 0
  | c :: rest =>
    if c == 'e' || c == 'E' then
      let (negative, digits) := takeSign rest
      if !digits.isEmpty && digits.all isDigit then
        some (if negative then -(digitsValue digits : Int) else digitsValue digits)
      else none
    else none

/-- Digits with at most one point among them and at least one digit, then an exponent if any. -/
def readDecimal (negative : Bool) (s : List Char) : Option DecimalLiteral :=
  let whole := s.takeWhile isDigit
  let afterWhole := s.dropWhile isDigit
  let (places, rest) := match afterWhole with
    | '.' :: r => (r.takeWhile isDigit, r.dropWhile isDigit)
    | r => ([], r)
  if whole.isEmpty && places.isEmpty then none
  else (readPower rest).map fun power =>
    ⟨negative, digitsValue (whole ++ places), power - places.length⟩

def spells (word : String) (s : List Char) : Bool := s.map Char.toLower == word.toList

/-- The double nearest to a number's text, or none for any other text. -/
def readBinary64 (s : List Char) : Option Binary64 :=
  let (negative, body) := takeSign s
  if spells "inf" body || spells "infinity" body then some (.infinite negative)
  else if spells "nan" body then some .nan
  else (readDecimal negative body).map fun d => .ofDecimal d.negative d.digits d.power

end PromptRelay
