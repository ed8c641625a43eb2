import PromptRelay.FileStem
import PromptRelay.LineForm

namespace PromptRelay

inductive StopKind where
  | breakpoint
  | error
  deriving DecidableEq, Repr

/-- One level of a call stack; `id` is its place, the innermost first. -/
structure Frame where
  id : Nat
  name : String
  function : String
  line : Nat
  column : Nat
  deriving DecidableEq, Repr

namespace Frame

def unknown : Frame := ⟨0, "error", "error", 0, 0⟩

/-- The part of a frame's name after its last `>`. -/
def functionPart (name : List Char) : List Char := (name.reverse.takeWhile (· ≠ '>')).reverse

/-- The frame of one line of a stack dump, its numbers within 32 bits. -/
def ofDumpLine? (id : Nat) (line : String) : Option Frame := do
  let (name, l, c) ← dumpFrame? line.toList
  return ⟨id, .ofList name, .ofList (functionPart name), ← position? l, ← position? c⟩

/-- The frame of a `stopped in` line, named after the file's stem. -/
def ofBannerLine? (line : String) : Option Frame := do
  let (location, number) ← bannerStart? line.toList
  let place := trim location
  let name := String.ofList ((fileStem? place).getD place)
  return ⟨0, name, name, ← position? number, 0⟩

/-- The frames of the lines up to the first that holds none, numbered from `id`. -/
def run (id : Nat) : List String → List Frame
  | [] => []
  | line :: rest =>
    match ofDumpLine? id line with
    | none => []
    | some frame => frame :: run (id + 1) rest

end Frame

/-- The frames right after the first dump header, if there are any. -/
def stackDump? (lines : List String) : Option (List Frame) :=
  match (lines.dropWhile fun line => !isDumpHeader line.toList).drop 1 with
  | [] => none
  | rest =>
    match Frame.run 0 rest with
    | [] => none
    | frames => some frames

/-- The last three lines are a banner: `stopped in` and its line, the code, and a blank. -/
def endsInBanner (lines : List String) : Bool :=
  match lines.reverse with
  | third :: second :: first :: _ =>
    (bannerStart? first.toList).isSome && (bannerCode? second.toList).isSome && isBlankLine third
  | _ => false

structure StopNotice where
  kind : StopKind
  frames : List Frame
  lines : List String
  deriving DecidableEq, Repr

namespace StopNotice

def kindOf (lines : List String) : StopKind :=
  if lines.any fun line => isErrorLine line.toList then .error else .breakpoint

/-- The stack dump; else the frame of the last banner; else the unknown frame. -/
def framesOf (lines : List String) : List Frame :=
  (stackDump? lines).getD [(lines.reverse.findSome? Frame.ofBannerLine?).getD .unknown]

def ofLines (lines : List String) : StopNotice := ⟨kindOf lines, framesOf lines, lines⟩

def topFrame? (s : StopNotice) : Option Frame := s.frames.head?

def text (s : StopNotice) : String := "\n".intercalate s.lines

end StopNotice

end PromptRelay
