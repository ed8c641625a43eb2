import PromptRelay.ExitReport
import PromptRelay.Rendering
import PromptRelay.StopBoard
import PromptRelay.SymbolPlaces

namespace PromptRelay

inductive ToolFault where
  | detached (tool : String)
  | alreadyRunning
  | failed (tool : String) (fault : Fault)
  | noPrompt (executable : String) (seconds : Nat)
  | stopTimeout
  | stated (message : String)
  deriving DecidableEq, Repr

namespace ToolFault

def message : ToolFault → String
  | .detached tool => tool ++ " requires a running Octave session. Call octave_launch first."
  | .alreadyRunning =>
    "An Octave session is already running. Terminate it before launching again."
  | .failed tool fault =>
    tool ++ " failed: " ++ fault.message ++
      (if fault.isTerminal then
        ". Call octave_terminate, then octave_launch to start a new session."
       else "")
  | .noPrompt executable seconds =>
    "octave_launch failed: no prompt from " ++ executable ++ " within " ++ toString seconds ++ "s"
  | .stopTimeout => "Timed out waiting for the next stop notification"
  | .stated message => message

def code : Int := -32603

end ToolFault

/-- A listed variable with its value, if values were asked for. -/
structure ListedVariable where
  described : Variable
  value : Option String

/-- How a program that was resumed came back: at a stop, or at the normal prompt. -/
inductive Resumed where
  | stopped (stop : StopNotice) (reply : Reply)
  | finished (state : SessionState) (reply : Reply) (exit : Option ExitReport)

inductive Answer where
  | launched (executable : String) (hasProcess : Bool)
  | breakpointsSet (function : String) (requested accepted : List Nat)
  | breakpointsCleared (function : String)
  | ran (outcome : Resumed)
  | continued (outcome : Resumed) (previous : Option StopNotice)
  | stepped (state : SessionState) (stop : Option StopNotice) (reply : Reply)
  | stack (state : SessionState) (frames : List Frame)
  | listed (entries : List ListedVariable) (fault : Option Fault)
  | evaluated (shape : Shape)
  | located (places : SymbolPlaces) (missing : List String)
  | replied (reply : Reply)
  | detached
  | terminated (exit : Option ExitReport)

open Document

def ListedVariable.document (v : ListedVariable) : Document :=
  .record [("name", .text v.described.name), ("size", .text v.described.dimsText),
    ("class", .text v.described.className), ("bytes", ofOption ofNat v.described.bytes),
    ("attributes", .list (v.described.attributes.map Attribute.document)),
    ("value", ofOption .text v.value)]

def ExitReport.document (r : ExitReport) : Document :=
  .record [("code", ofOption .whole r.code), ("signal", ofOption .whole r.signal),
    ("description", .text r.text)]

def Resumed.fields : Resumed → List (String × Document)
  | .stopped stop reply =>
    [("state", .text SessionState.stopped.text), ("stop", stop.summary), ("reply", reply.summary)]
  | .finished state reply exit =>
    [("state", .text state.text), ("reply", reply.summary),
     ("exit", ofOption (fun r => .text r.text) exit)]

namespace Answer

/-- The fields of an answer besides its success. A process shows as true, not by its number. -/
def fields : Answer → List (String × Document)
  | .launched executable hasProcess =>
    [("state", .text SessionState.idle.text), ("pid", if hasProcess then .bool true else .null),
     ("executable", .text executable)]
  | .breakpointsSet function requested accepted =>
    [("function", .text function), ("requested", .list (requested.map ofNat)),
     ("lines", .list (accepted.map ofNat))]
  | .breakpointsCleared function => [("function", .text function)]
  | .ran outcome => outcome.fields
  | .continued outcome previous =>
    outcome.fields ++ [("last_stop", ofOption StopNotice.summary previous)]
  | .stepped state stop reply =>
    [("state", .text state.text), ("stop", ofOption StopNotice.summary stop),
     ("reply", reply.summary)]
  | .stack state frames =>
    [("state", .text state.text), ("frames", .list (frames.map Frame.document))]
  | .listed entries fault =>
    [("variables", .list (entries.map ListedVariable.document)),
     ("parse_error", ofOption (fun f => .text f.message) fault)]
  | .evaluated shape =>
    [("result", ofOption .text shape.text?), ("name", ofOption .text shape.name?),
     ("value", shape.document)]
  | .located places missing =>
    [("locations", .record (places.map fun (name, path) => (name, .text path))),
     ("missing", texts missing)]
  | .replied reply => [("lines", texts reply.lines), ("reply", reply.summary)]
  | .detached => [("state", .text "detached")]
  | .terminated exit =>
    [("state", .text "detached"), ("exit", ofOption ExitReport.document exit)]

def document (a : Answer) : Document := .record (("ok", .bool true) :: a.fields)

end Answer

end PromptRelay
