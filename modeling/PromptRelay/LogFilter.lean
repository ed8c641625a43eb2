import PromptRelay.DecimalText

namespace PromptRelay

/-- How much a log shows, the least first. -/
inductive LogLevel where
  | off
  | error
  | warn
  | info
  | debug
  | trace
  deriving DecidableEq, Repr

namespace LogLevel

def all : List LogLevel := [.off, .error, .warn, .info, .debug, .trace]

def text : LogLevel → String
  | .off => "off"
  | .error => "error"
  | .warn => "warn"
  | .info => "info"
  | .debug => "debug"
  | .trace => "trace"

/-- A level by its number from 0 to 5 or by its name in any case. -/
def read? (s : List Char) : Option LogLevel :=
  ((readNat max64 s).toOption.bind fun n => all[n]?) <|>
    all.find? fun level => s.map Char.toLower == level.text.toList

end LogLevel

/-- A field that a directive asks for, with a value or with any. -/
structure LogField where
  name : String
  value : Option String
  deriving DecidableEq, Repr

/-- One rule of a log filter: which target, span and fields it is about, and the level there. -/
structure LogDirective where
  target : Option String
  span : Option String
  fields : List LogField
  level : LogLevel
  deriving DecidableEq, Repr

def LogField.ofText (s : List Char) : LogField :=
  match s.splitOn '=' with
  | name :: value :: _ => ⟨.ofList name, some (.ofList value)⟩
  | _ => ⟨.ofList s, none⟩

def LogField.text (f : LogField) : String :=
  match f.value with
  | some value => f.name ++ "=" ++ value
  | none => f.name

namespace LogDirective

/-- The level after a target or a span: all of it where none is given. -/
def readLevel (d : LogDirective) : List Char → Option LogDirective
  | [] => some d
  | ['='] => some d
  | '=' :: rest => (LogLevel.read? rest).map fun level => { d with level }
  | _ => none

def readFields (d : LogDirective) (s : List Char) : Option LogDirective :=
  let names := (s.takeWhile (· ≠ '\x7d')).splitOn ','
  match s.dropWhile (· ≠ '\x7d') with
  | _ :: ']' :: rest =>
    if names.any (·.isEmpty) then none
    else readLevel { d with fields := names.map LogField.ofText } rest
  | _ => none

def isSpanEnd (c : Char) : Bool := c == ']' || c == '\x7b'

def readSpan (d : LogDirective) (s : List Char) : Option LogDirective :=
  let name := String.ofList (s.takeWhile (!isSpanEnd ·))
  match s.dropWhile (!isSpanEnd ·) with
  | ']' :: rest => readLevel { d with span := some name } rest
  | _ :: rest => readFields { d with span := if name = "" then none else some name } rest
  | [] => none

def isTargetStart (c : Char) : Bool :=
  c.isAlphanum || c == '-' || c == ':' || c == '_' || 0x80 ≤ c.toNat

def isTargetEnd (c : Char) : Bool := c == '=' || c == '['

/-- A directive: a level alone, or a target, a span in brackets or both, then a level. -/
def read? : List Char → Option LogDirective
  | [] => none
  | '[' :: rest => readSpan ⟨none, none, [], .trace⟩ rest
  | c :: rest =>
    let s := c :: rest
    let start : LogDirective := ⟨some (.ofList (s.takeWhile (!isTargetEnd ·))), none, [], .trace⟩
    if !isTargetStart c then none
    else match s.dropWhile (!isTargetEnd ·), LogLevel.read? s with
      | [], some level => some ⟨none, none, [], level⟩
      | [], none => some start
      | '[' :: rest, _ => readSpan start rest
      | rest, _ => readLevel start rest

def scope (d : LogDirective) : String :=
  let names := ",".intercalate (d.fields.map LogField.text)
  let braced := if d.fields.isEmpty then "" else "\x7b" ++ names ++ "\x7d"
  let bracketed :=
    if d.span.isNone && d.fields.isEmpty then "" else "[" ++ d.span.getD "" ++ braced ++ "]"
  d.target.getD "" ++ bracketed

def text (d : LogDirective) : String :=
  if d.scope = "" then d.level.text else d.scope ++ "=" ++ d.level.text

def isDynamic (d : LogDirective) : Bool := d.span.isSome || !d.fields.isEmpty

def isStatic (d : LogDirective) : Bool := d.span.isNone && d.fields.all (·.value.isNone)

def compareText (a b : String) : Ordering :=
  if a < b then .lt else if b < a then .gt else .eq

def compareOption {α : Type} (compareSome : α → α → Ordering) : Option α → Option α → Ordering
  | none, none => .eq
  | none, some _ => .lt
  | some _, none => .gt
  | some a, some b => compareSome a b

def compareField (a b : LogField) : Ordering :=
  (compare a.value.isSome.toNat b.value.isSome.toNat).then <|
    (compareText a.name b.name).then (compareOption compareText a.value b.value)

def compareFields : List LogField → List LogField → Ordering
  | [], [] => .eq
  | [], _ => .lt
  | _, [] => .gt
  | a :: as, b :: bs => (compareField a b).then (compareFields as bs)

/-- Longer targets, then directives with a span, then more fields are more specific; the rest is
the order of texts. -/
def specificity (a b : LogDirective) : Ordering :=
  (compareOption compare (a.target.map (·.utf8ByteSize)) (b.target.map (·.utf8ByteSize))).then <|
    (compare a.span.isSome.toNat b.span.isSome.toNat).then <|
    (compare a.fields.length b.fields.length).then <|
    (compareOption compareText a.target b.target).then <|
    (compareOption compareText a.span b.span).then (compareFields a.fields b.fields)

/-- Puts a directive into a list with the most specific first; one about the same replaces. -/
def insert (d : LogDirective) : List LogDirective → List LogDirective
  | [] => [d]
  | e :: rest =>
    match specificity d e with
    | .gt => d :: e :: rest
    | .eq => d :: rest
    | .lt => e :: insert d rest

def ordered (ds : List LogDirective) : List LogDirective :=
  ds.foldl (fun sorted d => insert d sorted) []

end LogDirective

structure LogFilter where
  directives : List LogDirective
  deriving DecidableEq, Repr

namespace LogFilter

def errorsOnly : LogDirective := ⟨none, none, [], .error⟩

/-- Directives between commas, none of them bad; without any, errors only. -/
def read? (s : String) : Option LogFilter := do
  let ds ← ((s.toList.splitOn ',').filter (!·.isEmpty)).mapM LogDirective.read?
  return ⟨if ds.isEmpty then [errorsOnly] else ds⟩

/-- The rules that need no span first, each group with the most specific first. -/
def text (f : LogFilter) : String :=
  let dynamics := f.directives.filter (·.isDynamic)
  let statics := f.directives.filter (!·.isDynamic) ++ dynamics.filter (·.isStatic)
  ",".intercalate ((LogDirective.ordered statics ++ LogDirective.ordered dynamics).map (·.text))

/-- The first setting that is given and valid, and `info` without one. -/
def choose (settings : List (Option String)) : String :=
  ((settings.findSome? fun setting => setting.bind read?).map text).getD "info"

end LogFilter

end PromptRelay
