namespace PromptRelay

inductive DigitFault where
  | noDigits
  | strayCharacter
  | tooLarge
  deriving DecidableEq, Repr

def DigitFault.message : DigitFault → String
  | .noDigits => "cannot parse integer from empty string"
  | .strayCharacter => "invalid digit found in string"
  | .tooLarge => "number too large to fit in target type"

def digitValue? (c : Char) : Option Nat :=
  if '0' ≤ c ∧ c ≤ '9' then some (c.toNat - '0'.toNat) else none

def isDigit (c : Char) : Bool := (digitValue? c).isSome

/-- Reads on from the value so far; the first character that is no digit, or carries the value
past the limit, decides the fault. -/
def readDigits (limit value : Nat) : List Char → Except DigitFault Nat
  | [] => .ok value
  | c :: rest =>
    match digitValue? c with
    | none => .error .strayCharacter
    | some d =>
      if limit < value * 10 + d then .error .tooLarge else readDigits limit (value * 10 + d) rest

/-- An unsigned decimal number up to the limit, with one leading plus sign allowed. -/
def readNat (limit : Nat) : List Char → Except DigitFault Nat
  | [] => .error .noDigits
  | ['+'] => .error .strayCharacter
  | '+' :: rest => readDigits limit 0 rest
  | s => readDigits limit 0 s

def max32 : Nat := 4294967295

def max64 : Nat := 18446744073709551615

/-- The value of a run of digits, if it fits in 32 bits. -/
def position? (digits : List Char) : Option Nat := (readNat max32 digits).toOption

end PromptRelay
