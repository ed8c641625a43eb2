namespace PromptRelay

/-- A value as tools take and give it. A number that is not written as a whole one keeps its
digits and the power of ten that divides them. -/
inductive Document where
  | null
  | bool (b : Bool)
  | whole (n : Int)
  | decimal (digits : Int) (places : Nat)
  | text (s : String)
  | list (items : List Document)
  | record (fields : List (String × Document))
  deriving Inhabited

namespace Document

def ofOption {α : Type} (render : α → Document) : Option α → Document
  | none => .null
  | some a => render a

def texts (items : List String) : Document := .list (items.map .text)

def ofNat (n : Nat) : Document := .whole n

def asText? : Document → Option String
  | .text s => some s
  | _ => none

def asBool? : Document → Option Bool
  | .bool b => some b
  | _ => none

def asNat? (limit : Nat) : Document → Option Nat
  | .whole n => if 0 ≤ n ∧ n ≤ limit then some n.toNat else none
  | _ => none

def asList? {α : Type} (read? : Document → Option α) : Document → Option (List α)
  | .list items => items.mapM read?
  | _ => none

def asNullable? {α : Type} (read? : Document → Option α) : Document → Option (Option α)
  | .null => some none
  | d => (read? d).map some

/-- The named fields of a record, or the items of a list that stand for them in order. Fields
that are not named do not count; items past the last name are refused. -/
def fields? (names : List String) : Document → Option (String → Option Document)
  | .record fields => some fun name => fields.lookup name
  | .list items =>
    if names.length < items.length then none else some fun name => (names.zip items).lookup name
  | _ => none

def required {α : Type} (read? : Document → Option α) (d : Option Document) : Option α :=
  d.bind read?

/-- A field with a default, which null does not stand for. -/
def defaulted {α : Type} (default : α) (read? : Document → Option α) :
    Option Document → Option α
  | none => some default
  | some d => read? d

def optional {α : Type} (read? : Document → Option α) : Option Document → Option (Option α) :=
  defaulted none (asNullable? read?)

end Document

end PromptRelay
