import PromptRelay.Document
import PromptRelay.Fault
import PromptRelay.StopNotice
import PromptRelay.Variable

namespace PromptRelay

open Document

def Shape.document : Shape → Document
  | .incomplete => .record [("kind", .text "incomplete")]
  | .bare => .record [("kind", .text "bare")]
  | .single name value =>
    .record [("kind", .text "single_value"), ("name", .text name), ("value", .text value)]
  | .grid name rows =>
    .record [("kind", .text "multi_value"), ("name", .text name), ("rows", .list (rows.map texts))]

def Shape.ofDocument? (d : Document) : Option Shape := do
  let tagged (names : List String) := d.fields? ("kind" :: names)
  let kind ← match d with
    | .record fields => (fields.lookup "kind").bind asText?
    | .list (kind :: _) => asText? kind
    | _ => none
  match kind with
  | "incomplete" => return .incomplete
  | "bare" => return .bare
  | "single_value" =>
    let field ← tagged ["name", "value"]
    return .single (← required asText? (field "name")) (← required asText? (field "value"))
  | "multi_value" =>
    let field ← tagged ["name", "rows"]
    return .grid (← required asText? (field "name"))
      (← required (asList? (asList? asText?)) (field "rows"))
  | _ => none

def Frame.document (f : Frame) : Document :=
  .record [("id", ofNat f.id), ("name", .text f.name), ("function", .text f.function),
    ("line", ofNat f.line), ("column", ofNat f.column)]

def Frame.ofDocument? (d : Document) : Option Frame := do
  let field ← d.fields? ["id", "name", "function", "line", "column"]
  return ⟨← required (asNat? max64) (field "id"), ← required asText? (field "name"),
    ← required asText? (field "function"), ← required (asNat? max32) (field "line"),
    ← required (asNat? max32) (field "column")⟩

def StopKind.word : StopKind → String
  | .breakpoint => "breakpoint"
  | .error => "error"

/-- A word for one of several cases, alone or as the name of a null field. -/
def caseWord? : Document → Option String
  | .text word => some word
  | .record [(word, .null)] => some word
  | _ => none

def StopKind.ofDocument? (d : Document) : Option StopKind :=
  match caseWord? d with
  | some "breakpoint" => some .breakpoint
  | some "error" => some .error
  | _ => none

namespace StopNotice

/-- A stop for a person to read: why, where, and the lines as one text. -/
def summary (s : StopNotice) : Document :=
  .record [("reason", .text s.kind.word), ("frames", .list (s.frames.map Frame.document)),
    ("top_frame", ofOption Frame.document s.topFrame?), ("text", .text s.text)]

def document (s : StopNotice) : Document :=
  .record [("kind", .text s.kind.word), ("frames", .list (s.frames.map Frame.document)),
    ("lines", texts s.lines)]

def ofDocument? (d : Document) : Option StopNotice := do
  let field ← d.fields? ["kind", "frames", "lines"]
  return ⟨← required StopKind.ofDocument? (field "kind"),
    ← required (asList? Frame.ofDocument?) (field "frames"),
    ← required (asList? asText?) (field "lines")⟩

end StopNotice

def Attribute.document : Attribute → Document
  | .automatic => .text "automatic"
  | .complex => .text "complex"
  | .formal => .text "formal"
  | .isGlobal => .text "global"
  | .persistent => .text "persistent"
  | .other flag => .record [("other", .text flag.toString)]

def Attribute.ofDocument? (d : Document) : Option Attribute :=
  match d, caseWord? d with
  | .record [("other", .text flag)], _ =>
    match flag.toList with
    | [c] => some (.other c)
    | _ => none
  | _, some "automatic" => some .automatic
  | _, some "complex" => some .complex
  | _, some "formal" => some .formal
  | _, some "global" => some .isGlobal
  | _, some "persistent" => some .persistent
  | _, _ => none

namespace Variable

def document (v : Variable) : Document :=
  .record [("name", .text v.name), ("dims", .list (v.dims.map ofNat)), ("class", .text v.className),
    ("bytes", ofOption ofNat v.bytes), ("attributes", .list (v.attributes.map Attribute.document))]

def ofDocument? (d : Document) : Option Variable := do
  let field ← d.fields? ["name", "dims", "class", "bytes", "attributes"]
  return ⟨← required asText? (field "name"), ← required (asList? (asNat? max64)) (field "dims"),
    ← required asText? (field "class"), ← optional (asNat? max64) (field "bytes"),
    ← required (asList? Attribute.ofDocument?) (field "attributes")⟩

end Variable

def Reply.summary (r : Reply) : Document :=
  .record [("output", texts r.body), ("prompt", ofOption .text r.prompt),
    ("value", r.shape.document)]

end PromptRelay
