namespace PromptRelay

/-- How a process ended: its exit code, or the signal that killed it. -/
structure ExitReport where
  code : Option Int
  signal : Option Int
  deriving DecidableEq, Repr

namespace ExitReport

/-- The report of a 32-bit wait status: a code if the low seven bits are zero, a signal if they
are neither zero nor all set. -/
def ofWaitStatus (status : Int) : ExitReport :=
  let low := status % 0x80
  if low = 0 then ⟨some (status / 0x100 % 0x100), none⟩
  else if low = 0x7F then ⟨none, none⟩
  else ⟨none, some low⟩

def text (r : ExitReport) : String :=
  match r.code, r.signal with
  | some code, _ => s!"exited with code {code}"
  | none, some signal => s!"killed by signal {signal}"
  | none, none => "exited with unknown status"

end ExitReport

end PromptRelay
