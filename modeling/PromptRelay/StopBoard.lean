import PromptRelay.StopNotice

namespace PromptRelay

/-- What a session knows of its stops: whether the REPL is taken to be debugging, the last stop
that was not cleared, and how many were recorded. -/
structure StopBoard where
  debugging : Bool
  last : Option StopNotice
  count : UInt64
  deriving DecidableEq

namespace StopBoard

def start : StopBoard := ⟨false, none, 0⟩

def markStopped (b : StopBoard) : StopBoard := { b with debugging := true }

def hold (b : StopBoard) (stop : StopNotice) : StopBoard := { b with last := some stop }

def bump (b : StopBoard) : StopBoard := { b with count := b.count + 1 }

/-- Records a stop, the counter last, so that a stop that is counted is also held. -/
def record (b : StopBoard) (stop : StopNotice) : StopBoard := ((b.markStopped).hold stop).bump

def clear (b : StopBoard) : StopBoard := { b with last := none }

def noteReply (b : StopBoard) (inDebugMode : Bool) : StopBoard := { b with debugging := inDebugMode }

/-- The last stop, if one was recorded past the given count. -/
def newer? (b : StopBoard) (count : UInt64) : Option StopNotice :=
  if count < b.count then b.last else none

end StopBoard

inductive SessionState where
  | exited
  | stopped
  | idle
  deriving DecidableEq, Repr

namespace SessionState

def resolve (closed debugging : Bool) : SessionState :=
  if closed then .exited else if debugging then .stopped else .idle

def text : SessionState → String
  | .exited => "exited"
  | .stopped => "stopped"
  | .idle => "idle"

end SessionState

end PromptRelay
