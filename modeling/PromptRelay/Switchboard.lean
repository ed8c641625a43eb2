import PromptRelay.Session

namespace PromptRelay

structure Call (α : Type) where
  id : Nat
  session : Nat
  wait : Wait α

/-- Callers on sessions. Sessions keep their place in the list for good; `results` tells the calls
that ended, in order. -/
structure Switchboard (α : Type) where
  sessions : List Session
  calls : List (Call α)
  started : Nat
  results : List (Nat × α)
  now : Nat

namespace Switchboard

variable {α : Type}

def empty : Switchboard α := ⟨[], [], 0, [], 0⟩

def modify (b : Switchboard α) (session : Nat) (change : Session → Session) : Switchboard α :=
  { b with sessions := b.sessions.modify session change }

def finish (b : Switchboard α) (id : Nat) (a : α) : Switchboard α :=
  { b with results := b.results ++ [(id, a)] }

/-- Runs a call's task on its session until it ends or waits. -/
def carryOn (b : Switchboard α) (id session : Nat) (task : Task α) : Switchboard α :=
  match b.sessions[session]? with
  | none => b
  | some s =>
    let (s, progress) := s.advance b.now task
    let b := { b with sessions := b.sessions.set session s }
    match progress with
    | .finished a => b.finish id a
    | .waiting wait => { b with calls := b.calls ++ [⟨id, session, wait⟩] }

def enter (b : Switchboard α) : Switchboard α := { b with started := b.started + 1 }

def call (b : Switchboard α) (session : Nat) (task : Task α) : Switchboard α :=
  b.enter.carryOn b.started session task

def dropCall (b : Switchboard α) (id : Nat) : Switchboard α :=
  { b with calls := b.calls.filter (·.id ≠ id) }

/-- The caller goes away; its request stays where it is. -/
def cancel (b : Switchboard α) (id : Nat) : Switchboard α := b.dropCall id

def awaits (session ticket : Nat) (c : Call α) : Bool :=
  match c.wait with
  | .reply t _ => c.session = session && t = ticket
  | .stop .. => false

/-- Hands a session's next resolution to the call that waits for it, if it still does. -/
def deliver (b : Switchboard α) (session : Nat) (resolution : Resolution) : Switchboard α :=
  let b := b.modify session fun s => { s with delivered := s.delivered + 1 }
  match b.calls.find? (awaits session resolution.request.ticket) with
  | some ⟨id, session, .reply _ next⟩ =>
    (b.dropCall id).carryOn id session (next resolution.result)
  | _ => b

/-- The stop that a call waits for, if its session has it. -/
def stopFor? (b : Switchboard α) (c : Call α) : Option StopNotice :=
  match c.wait with
  | .reply .. => none
  | .stop count _ _ => b.sessions[c.session]?.bind fun s => s.board.newer? count

/-- Ends a call's wait for a stop, with the stop or without one. -/
def endWait (b : Switchboard α) (c : Call α) (stop : Option StopNotice) : Switchboard α :=
  match c.wait with
  | .reply .. => b
  | .stop _ _ next => (b.dropCall c.id).carryOn c.id c.session (next stop)

def pendingResolution? (b : Switchboard α) : Option (Nat × Resolution) :=
  b.sessions.zipIdx.findSome? fun (s, i) => s.undelivered?.map fun r => (i, r)

def sessionWith? (b : Switchboard α) (test : Session → Bool) : Option Nat :=
  b.sessions.findIdx? test

/-- The first session that can make a move, after that move. -/
def moveSession? (b : Switchboard α) (move? : Session → Option Session) : Option (Switchboard α) :=
  b.sessions.zipIdx.findSome? fun (s, i) => (move? s).map fun s =>
    { b with sessions := b.sessions.set i s }

/-- One thing that can happen without anything new from outside: a resolution reaches its caller,
a relay receives a request, a stop is recorded, a caller finds the stop it waits for, or a session
exchanges something with its process. -/
def next? (b : Switchboard α) : Option (Switchboard α) :=
  match b.pendingResolution? with
  | some (i, r) => some (b.deliver i r)
  | none =>
  match b.sessionWith? fun s => !s.relay.mailbox.isEmpty with
  | some i => some (b.modify i Session.receive)
  | none =>
  match b.sessionWith? fun s => s.recording && !s.notices.isEmpty with
  | some i => some (b.modify i Session.record)
  | none =>
  match b.calls.find? fun c => (b.stopFor? c).isSome with
  | some c => some (b.endWait c (b.stopFor? c))
  | none => b.moveSession? Session.exchange?

def deadline? (c : Call α) : Option Nat :=
  match c.wait with
  | .reply .. => none
  | .stop _ deadline _ => some deadline

def overdue? (b : Switchboard α) : Option (Call α) :=
  b.calls.find? fun c => (deadline? c).any (· ≤ b.now)

def passTime (b : Switchboard α) (moment : Nat) : Switchboard α := { b with now := max b.now moment }

def expire? (b : Switchboard α) : Option (Switchboard α) := b.overdue?.map fun c => b.endWait c none

/-- The moment at which the first wait for a stop is over. -/
def nextDeadline? (b : Switchboard α) : Option Nat := (b.calls.filterMap deadline?).min?

/-- What can only happen because time passes: a sleep of a process ends, else the waits that are
over first end. -/
def passTime? (b : Switchboard α) : Option (Switchboard α) :=
  b.moveSession? Session.wake? <|> b.nextDeadline?.bind fun moment => (b.passTime moment).expire?

end Switchboard

end PromptRelay
