import PromptRelay.Relay
import PromptRelay.StopBoard

namespace PromptRelay

structure SessionView where
  closed : Bool
  board : StopBoard
  exit : Option ExitReport

/-- The work of one caller on a session, step by step. Between two steps it may have to wait: for
the reply to a request, or for a stop past a count, the latter no longer than a limit in
milliseconds. -/
inductive Task (α : Type) where
  | done (a : α)
  | request (line : Option String) (next : Except Fault Reply → Task α)
  | setMode (mode : Mode) (next : Task α)
  | look (next : SessionView → Task α)
  | update (change : StopBoard → StopBoard) (next : Task α)
  | awaitStop (count : UInt64) (limit : Nat) (next : Option StopNotice → Task α)

namespace Task

def bind {α β : Type} : Task α → (α → Task β) → Task β
  | .done a, f => f a
  | .request line next, f => .request line fun result => (next result).bind f
  | .setMode mode next, f => .setMode mode (next.bind f)
  | .look next, f => .look fun view => (next view).bind f
  | .update change next, f => .update change (next.bind f)
  | .awaitStop count limit next, f => .awaitStop count limit fun stop => (next stop).bind f

instance : Monad Task where
  pure := .done
  bind := bind

theorem bind_done {α : Type} (t : Task α) : t.bind .done = t := by
  induction t with
  | done => rfl
  | request _ _ ih => simp [bind, ih]
  | setMode _ _ ih => simp [bind, ih]
  | look _ ih => simp [bind, ih]
  | update _ _ ih => simp [bind, ih]
  | awaitStop _ _ _ ih => simp [bind, ih]

theorem bind_assoc {α β γ : Type} (t : Task α) (f : α → Task β) (g : β → Task γ) :
    (t.bind f).bind g = t.bind fun a => (f a).bind g := by
  induction t with
  | done => rfl
  | request _ _ ih => simp [bind, ih]
  | setMode _ _ ih => simp [bind, ih]
  | look _ ih => simp [bind, ih]
  | update _ _ ih => simp [bind, ih]
  | awaitStop _ _ _ ih => simp [bind, ih]

end Task

end PromptRelay
