import PromptRelay.Utf8

namespace PromptRelay

/-- Output cut into lines: the complete ones as text, the open one as bytes, since a character
may still be incomplete in it. -/
structure LineBuffer where
  lines : List String
  openLine : List UInt8
  deriving DecidableEq, Repr

namespace LineBuffer

def empty : LineBuffer := ⟨[], []⟩

def newline : UInt8 := 10

def carriageReturn : UInt8 := 13

/-- The bytes of a line without the carriage return that may end it. -/
def dropReturn (bytes : List UInt8) : List UInt8 :=
  if bytes.getLast? = some carriageReturn then bytes.dropLast else bytes

def decodeLine (bytes : List UInt8) : String := String.ofList (decodeLossy (dropReturn bytes))

/-- The pieces between newlines; there is always at least one. -/
def pieces (bytes : List UInt8) : List (List UInt8) := bytes.splitOn newline

/-- A newline completes the open line. -/
def push (b : LineBuffer) (chunk : List UInt8) : LineBuffer :=
  let cut := pieces (b.openLine ++ chunk)
  ⟨b.lines ++ cut.dropLast.map decodeLine, cut.getLastD []⟩

/-- The complete lines and then the open one, which is empty right after a newline. -/
def view (b : LineBuffer) : List String := b.lines ++ [decodeLine b.openLine]

/-- The view, and the buffer once it was given away: the open line goes with it. -/
def take (b : LineBuffer) : List String × LineBuffer := (b.view, empty)

/-- Drops the oldest complete lines, so that at most `n` remain. -/
def keepLast (b : LineBuffer) (n : Nat) : LineBuffer :=
  { b with lines := b.lines.drop (b.lines.length - n) }

def isEmpty (b : LineBuffer) : Bool := b.lines.isEmpty && b.openLine.isEmpty

end LineBuffer

end PromptRelay
