import PromptRelay.DecimalText
import PromptRelay.Reply

namespace PromptRelay

inductive Attribute where
  | automatic
  | complex
  | formal
  | isGlobal
  | persistent
  | other (flag : Char)
  deriving DecidableEq, Repr

def Attribute.ofFlag : Char → Attribute
  | 'a' => .automatic
  | 'c' => .complex
  | 'f' => .formal
  | 'g' => .isGlobal
  | 'p' => .persistent
  | flag => .other flag

structure Variable where
  name : String
  dims : List Nat
  className : String
  bytes : Option Nat
  attributes : List Attribute
  deriving DecidableEq, Repr

namespace Variable

def isScalar (v : Variable) : Bool := v.dims = [1, 1]

def dimsText (v : Variable) : String := "x".intercalate (v.dims.map toString)

/-- Stands for a value too large to show. -/
def placeholder (v : Variable) : String := v.dimsText ++ " " ++ v.className ++ " matrix"

/-- The value of a variable in the reply to its name; only scalars are shown. -/
def valueIn (v : Variable) (reply : Reply) : String :=
  if v.isScalar then reply.shape.text?.getD "" else v.placeholder

end Variable

inductive RowFault where
  | tokenCount (n : Nat)
  | size (text : String) (fault : DigitFault)
  deriving DecidableEq, Repr

def RowFault.message : RowFault → String
  | .tokenCount n => "expected 4 or 5 tokens, got " ++ toString n
  | .size text fault => "invalid size '" ++ text ++ "': " ++ fault.message

/-- Sizes separated by `x`, each within 64 bits. -/
def readSizes (s : List Char) : Except DigitFault (List Nat) :=
  (s.splitOn 'x').mapM (readNat max64)

namespace Variable

def ofFields (flags name size bytes className : List Char) : Except RowFault Variable :=
  match readSizes size with
  | .error fault => .error (.size (.ofList size) fault)
  | .ok dims =>
    .ok ⟨.ofList name, dims, .ofList className, (readNat max64 bytes).toOption,
      flags.map Attribute.ofFlag⟩

/-- The variable of a row: flags if there are any, name, size, bytes and class. -/
def ofTokens : List (List Char) → Except RowFault Variable
  | [flags, name, size, bytes, className] => ofFields flags name size bytes className
  | [name, size, bytes, className] => ofFields [] name size bytes className
  | row => .error (.tokenCount row.length)

end Variable

end PromptRelay
