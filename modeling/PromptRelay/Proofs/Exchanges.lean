import PromptRelay.ToolServer

namespace PromptRelay.Task

variable {α : Type}

/-- A task whose requests are answered one after the other comes to what is left of it. -/
inductive Leads : Task α → List (Option String × Reply) → Task α → Prop where
  | start (task : Task α) : Leads task [] task
  | reply {line : Option String} {next : Except Fault Reply → Task α} {reply : Reply}
      {exchanges : List (Option String × Reply)} {left : Task α} :
      Leads (next (.ok reply)) exchanges left →
      Leads (.request line next) ((line, reply) :: exchanges) left

theorem Leads.single (line : Option String) (next : Except Fault Reply → Task α) (reply : Reply) :
    Leads (.request line next) [(line, reply)] (next (.ok reply)) := .reply (.start _)

/-- One more request is answered. -/
theorem Leads.concat {task : Task α} {exchanges : List (Option String × Reply)} {line : Option String}
    {next : Except Fault Reply → Task α} (h : Leads task exchanges (.request line next))
    (reply : Reply) : Leads task (exchanges ++ [(line, reply)]) (next (.ok reply)) := by
  generalize left : Task.request line next = waiting at h
  induction h with
  | start task =>
    subst left
    exact .single line next reply
  | reply _ ih => exact .reply (ih left)

/-- A task that does nothing but make requests, and fails with the first of them that does. -/
def StopsAtFault (tool : String) : Task Outcome → Prop
  | .done _ => True
  | .request _ next =>
    (∀ fault, next (.error fault) = .done (.error (.failed tool fault))) ∧
      ∀ reply, (next (.ok reply)).StopsAtFault tool
  | _ => False

theorem Leads.stopsAtFault {tool : String} {task left : Task Outcome}
    {exchanges : List (Option String × Reply)} (h : Leads task exchanges left)
    (stops : task.StopsAtFault tool) : left.StopsAtFault tool := by
  induction h with
  | start => exact stops
  | reply _ ih => exact ih (stops.2 _)

end PromptRelay.Task
