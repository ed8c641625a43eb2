import PromptRelay.Proofs.ServerRuns
import PromptRelay.Proofs.ToolTasks

namespace PromptRelay

open ToolTask (resumeLimit stepLimit)

/-- What an outcome says of stops: a program that was run or continued comes back at a stop or not,
perhaps with the stop before it; a step comes back at a stop or not. -/
inductive Report where
  | resumed (stop previous : Option StopNotice)
  | stepped (stop : Option StopNotice)
  | other
  deriving DecidableEq

def Resumed.stop? : Resumed → Option StopNotice
  | .stopped stop _ => some stop
  | .finished .. => none

def Answer.report : Answer → Report
  | .ran outcome => .resumed outcome.stop? none
  | .continued outcome previous => .resumed outcome.stop? previous
  | .stepped _ stop _ => .stepped stop
  | _ => .other

def reportOf : Outcome → Report
  | .ok answer => answer.report
  | .error _ => .other

namespace ToolCall

/-- The tools that run the program until it stops or ends. -/
def resumes : ToolCall → Bool
  | .run _ | .resume => true
  | _ => false

/-- The tools that clear the last stop when their reply ends at the normal prompt. -/
def settles : ToolCall → Bool
  | .run _ | .resume | .step => true
  | _ => false

/-- The board once a tool has its reply. -/
def noteOn (tool : ToolCall) (inDebugMode : Bool) (b : StopBoard) : StopBoard :=
  if tool.settles && !inDebugMode then (b.noteReply inDebugMode).clear
  else if tool.notes then b.noteReply inDebugMode else b

/-- The board once a call begins. -/
def beginOn (tool : ToolCall) (b : StopBoard) : StopBoard := if tool.resumes then b.clear else b

end ToolCall

namespace ToolTask

/-- How a tool that resumes the program tells what came of it, given the last stop before it. -/
inductive Tells : ToolCall → Option StopNotice → (Resumed → Answer) → Prop where
  | run (target : String) (held : Option StopNotice) : Tells (.run target) held .ran
  | resume (held : Option StopNotice) : Tells .resume held (.continued · held)

def afterStop (tell : Resumed → Answer) (reply : Reply) : Option StopNotice → Task Outcome
  | some stop => .done (.ok (tell (.stopped stop reply)))
  | none => .done (.error .stopTimeout)

def finish (tell : Resumed → Answer) (reply : Reply) : Task Outcome :=
  .look fun view => .look fun later =>
    .done (.ok (tell (.finished (.resolve view.closed view.board.debugging) reply later.exit)))

def afterResume (tool : String) (count : UInt64) (tell : Resumed → Answer) :
    Except Fault Reply → Task Outcome
  | .error fault => .done (.error (.failed tool fault))
  | .ok reply => .update (·.noteReply reply.inDebugMode) <|
    if reply.inDebugMode then .awaitStop count resumeLimit (afterStop tell reply)
    else .update (·.clear) (finish tell reply)

def showStep (reply : Reply) (previous stop : Option StopNotice) : Task Outcome :=
  .look fun view =>
    .done (.ok (.stepped (.resolve view.closed view.board.debugging) (stop <|> previous) reply))

def afterStep (count : UInt64) (previous : Option StopNotice) : Except Fault Reply → Task Outcome
  | .error fault => .done (.error (.failed "octave_step" fault))
  | .ok reply => .update (·.noteReply reply.inDebugMode) <|
    if reply.inDebugMode then .awaitStop count stepLimit (showStep reply previous)
    else .update (·.clear) (showStep reply none none)

def afterSend : Except Fault Reply → Task Outcome
  | .error fault => .done (.error (.failed "octave_command" fault))
  | .ok reply => .update (·.noteReply reply.inDebugMode) (.done (.ok (.replied reply)))

theorem settle_task (tool : String) (count : UInt64) (reply : Reply) (tell : Resumed → Answer) :
    ExceptT.run (do return tell (← settle count reply) : ToolTask Answer) =
      afterResume tool count tell (.ok reply) := by
  unfold settle
  change _ = Task.update _ _
  generalize reply.inDebugMode = inDebugMode
  cases inDebugMode with
  | true =>
    change Task.update _ (Task.awaitStop _ _ _) = Task.update _ (Task.awaitStop _ _ _)
    congr 2
    funext stop
    cases stop <;> rfl
  | false => rfl

theorem run_task (target : String) :
    ExceptT.run (run target) = .look fun view => .update (·.clear) <| .setMode .either <|
      .request (some target) (afterResume "octave_run" view.board.count .ran) := by
  change Task.look _ = Task.look _
  congr 1
  funext view
  change Task.update _ (Task.setMode _ (Task.request _ _)) = _
  congr 3
  funext result
  cases result with
  | error fault => rfl
  | ok reply => exact settle_task "octave_run" view.board.count reply .ran

theorem resume_task :
    ExceptT.run resume = .look fun view => .update (·.clear) <| .setMode .either <|
      .request (some "dbcont")
        (afterResume "octave_continue" view.board.count (.continued · view.board.last)) := by
  change Task.look _ = Task.look _
  congr 1
  funext view
  change Task.update _ (Task.setMode _ (Task.request _ _)) = _
  congr 3
  funext result
  cases result with
  | error fault => rfl
  | ok reply =>
    exact settle_task "octave_continue" view.board.count reply (.continued · view.board.last)

theorem step_task :
    ExceptT.run step = .look fun view => .setMode .either <|
      .request (some "dbnext") (afterStep view.board.count view.board.last) := by
  change Task.look _ = Task.look _
  congr 1
  funext view
  change Task.setMode _ (Task.request _ _) = _
  congr 2
  funext result
  cases result with
  | error fault => rfl
  | ok reply =>
    change Task.update _ _ = Task.update _ _
    congr 1

theorem send_task (line : Option String) : ExceptT.run (send line) = .request line afterSend := by
  change Task.request _ _ = Task.request _ _
  congr 1
  funext result
  cases result <;> rfl

end ToolTask

namespace Task

variable {α β : Type}

/-- What holds of the end of a task that does nothing to its session but ask for replies. -/
def Asks (post : α → Prop) : Task α → Prop
  | .done a => post a
  | .request _ next => ∀ result, (next result).Asks post
  | .look next => ∀ view, (next view).Asks post
  | .setMode .. | .update .. | .awaitStop .. => False

/-- A task that asks, whatever it gives, goes on as one. -/
theorem Asks.bind {post : α → Prop} {post' : β → Prop} {t : Task α} (h : t.Asks post) {f : α → Task β}
    (goesOn : ∀ a, post a → (f a).Asks post') : (t.bind f).Asks post' := by
  induction t with
  | done a => exact goesOn a h
  | request line next ih => exact fun result => ih result (h result)
  | look next ih => exact fun view => ih view (h view)
  | setMode | update | awaitStop => cases h

end Task

namespace ToolTask

/-- A task that asks and says nothing of stops. -/
def Inquires (task : ToolTask Answer) : Prop := (ExceptT.run task).Asks (reportOf · = .other)

theorem inquires_bind {α : Type} {t : ToolTask α} (h : (ExceptT.run t).Asks fun _ => True)
    {f : α → ToolTask Answer} (goesOn : ∀ a, Inquires (f a)) : Inquires (t >>= f) := by
  refine h.bind fun result _ => ?_
  cases result with
  | ok a => exact goesOn a
  | error fault => rfl

theorem within_asks {α : Type} (tool : String) {operation : Operation α}
    (h : (ExceptT.run operation).Asks fun _ => True) :
    (ExceptT.run (within tool operation)).Asks fun _ => True := by
  refine Task.Asks.bind h fun result _ => ?_
  trivial

theorem inquires_within {α : Type} {operation : Operation α} (tool : String)
    (h : (ExceptT.run operation).Asks fun _ => True) {f : α → ToolTask Answer}
    (goesOn : ∀ a, Inquires (f a)) : Inquires (within tool operation >>= f) :=
  inquires_bind (within_asks tool h) goesOn

theorem stack_inquires : Inquires stack := fun _ _ => rfl

theorem evaluate_inquires (expression : String) : Inquires (evaluate expression) := by
  refine inquires_within "octave_evaluate" ?_ fun _ => rfl
  intro result
  cases result <;> trivial

theorem locate_inquires (names : List String) : Inquires (locate names) := by
  refine inquires_within "octave_which" ?_ fun _ => rfl
  cases names with
  | nil => trivial
  | cons name rest =>
    intro result
    cases result <;> trivial

theorem cleared_asks (function : String) :
    (ExceptT.run (Operation.clearBreakpoints function)).Asks fun _ => True := by
  intro result
  cases result <;> trivial

theorem clearBreakpoints_inquires (function : String) : Inquires (clearBreakpoints function) :=
  inquires_within "octave_clear_breakpoints" (cleared_asks function) fun _ => rfl

theorem breakpoints_asks (function : String) (lines : List Nat) :
    (ExceptT.run (Operation.setBreakpoints function lines)).Asks fun _ => True := by
  cases lines with
  | nil => trivial
  | cons line rest =>
    intro result
    cases result with
    | error fault => trivial
    | ok reply =>
      simp only [Task.bind, ExceptT.bindCont]
      split <;> trivial

theorem setBreakpoints_inquires (function : String) (lines : List Nat) (replace : Bool) :
    Inquires (setBreakpoints function lines replace) := by
  have set : Inquires do
      let accepted ← within "octave_set_breakpoints" (Operation.setBreakpoints function lines)
      return Answer.breakpointsSet function lines accepted :=
    inquires_within "octave_set_breakpoints" (breakpoints_asks function lines) fun _ => rfl
  cases replace with
  | true => exact inquires_within "octave_set_breakpoints" (cleared_asks function) fun _ => set
  | false => exact set

theorem value_asks (v : Variable) : (ExceptT.run (Operation.value v)).Asks fun _ => True := by
  unfold Operation.value
  split
  next =>
    intro result
    cases result <;> trivial
  next => trivial

theorem listedVariables_asks (includeValues : Bool) (listed : List Variable) :
    (ExceptT.run (listedVariables includeValues listed)).Asks fun _ => True := by
  induction listed with
  | nil => trivial
  | cons v rest ih =>
    have others : ∀ shown : Except ToolFault (Option String),
        (Task.bind (.done shown) (ExceptT.bindCont fun shown => do
          let rest ← listedVariables includeValues rest
          return (⟨v, shown⟩ : ListedVariable) :: rest)).Asks fun _ => True := by
      intro shown
      cases shown with
      | error fault => trivial
      | ok shown =>
        refine ih.bind fun result _ => ?_
        cases result <;> trivial
    cases includeValues with
    | false => exact others (.ok none)
    | true =>
      refine Task.Asks.bind ?_ fun shown (_ : True) => others shown
      refine Task.Asks.bind ?_ fun result (_ : True) => ?_
      · exact within_asks "octave_variables" (value_asks v)
      · cases result <;> trivial

theorem list_inquires (includeValues : Bool) : Inquires (list includeValues) := by
  refine inquires_within "octave_variables" ?_ fun listing => ?_
  · intro result
    cases result <;> trivial
  · exact inquires_bind (listedVariables_asks includeValues listing.entries) fun _ => rfl

theorem prepare_asks (setup : List String) :
    (ExceptT.run (Operation.prepare setup)).Asks fun _ => True := by
  have each : (ExceptT.run (forIn setup PUnit.unit fun line _ => (do
      let _ ← Operation.send line
      return ForInStep.yield PUnit.unit : Operation (ForInStep PUnit)))).Asks fun _ => True := by
    induction setup with
    | nil => trivial
    | cons line rest ih =>
      rw [List.forIn_cons]
      intro result
      cases result with
      | error fault => trivial
      | ok reply => exact ih
  intro result
  cases result with
  | error fault => trivial
  | ok reply =>
    refine each.bind fun result _ => ?_
    cases result <;> trivial

theorem launchTask_inquires (startup : Startup) : Inquires (ToolServer.launchTask startup) :=
  inquires_within "octave_launch" (prepare_asks startup.setupCommands) fun _ => rfl

/-- Every tool that does not note its reply only asks. -/
theorem ofCall_inquires {c : ToolCall} {task : ToolTask Answer} (h : ofCall? c = some task)
    (silent : c.notes = false) : Inquires task := by
  cases c with
  | launch choice => cases h
  | terminate => cases h
  | setBreakpoints function lines replace =>
    cases h
    exact setBreakpoints_inquires function lines replace
  | clearBreakpoints function => cases h; exact clearBreakpoints_inquires function
  | run target => cases silent
  | resume => cases silent
  | step => cases silent
  | stack => cases h; exact stack_inquires
  | list includeValues => cases h; exact list_inquires includeValues
  | evaluate expression => cases h; exact evaluate_inquires expression
  | locate names => cases h; exact locate_inquires names
  | send line => cases silent

/-- How a call of a tool goes on once it has its reply; `held` is the last stop when the call began. -/
inductive Goes : ToolCall → Option StopNotice → (Except Fault Reply → Task Outcome) → Prop where
  | resumed {tool : ToolCall} {held : Option StopNotice} {tell : Resumed → Answer} (name : String)
      (count : UInt64) (tells : Tells tool held tell) : Goes tool held (afterResume name count tell)
  | stepped (held : Option StopNotice) (count : UInt64) : Goes .step held (afterStep count held)
  | sent (held : Option StopNotice) (line : Option String) : Goes (.send line) held afterSend
  | asked {tool : ToolCall} {next : Except Fault Reply → Task Outcome} (held : Option StopNotice)
      (silent : tool.notes = false) (asks : ∀ result, (next result).Asks (reportOf · = .other)) :
      Goes tool held next

/-- How it goes on once its wait for a stop is over. -/
inductive Lingers : ToolCall → Option StopNotice → (Option StopNotice → Task Outcome) → Prop where
  | resumed {tool : ToolCall} {held : Option StopNotice} {tell : Resumed → Answer}
      (tells : Tells tool held tell) (reply : Reply) : Lingers tool held (afterStop tell reply)
  | stepped (held : Option StopNotice) (reply : Reply) : Lingers .step held (showStep reply held)

end ToolTask

/-- What a call of a tool may report, with the last stop when it began and when it ends. -/
def Report.Fits (tool : ToolCall) (held last : Option StopNotice) : Report → Prop
  | .resumed stop previous =>
    tool.resumes = true ∧ (previous = none ∨ previous = held) ∧ (stop = none ∨ stop = last)
  | .stepped stop => tool = .step ∧ (stop = none ∨ stop = held ∨ stop = last)
  | .other => True

theorem ToolCall.notes_of_resumes {tool : ToolCall} (h : tool.resumes = true) : tool.notes = true := by
  cases tool <;> first | rfl | cases h

theorem Report.eq_other_of_fits {tool : ToolCall} {held last : Option StopNotice} {report : Report}
    (h : report.Fits tool held last) (silent : tool.notes = false) : report = .other := by
  cases report with
  | resumed stop previous =>
    obtain ⟨resumes, _⟩ := h
    cases (ToolCall.notes_of_resumes resumes).symm.trans silent
  | stepped stop =>
    obtain ⟨rfl, _⟩ := h
    cases silent
  | other => rfl

/-- A stop past a count is the last one. -/
theorem StopBoard.newer_eq_last {b : StopBoard} {count : UInt64} {stop : StopNotice}
    (h : b.newer? count = some stop) : b.last = some stop := by
  unfold newer? at h
  split at h
  next => exact h
  next => cases h

/-- Where a call of a tool is that has had no reply yet: over without a word of stops, or waiting for
the reply to the request of the given ticket. -/
inductive Opened (tool : ToolCall) (held : Option StopNotice) (ticket : Nat) :
    Progress Outcome → Prop where
  | returned {outcome : Outcome} (silent : reportOf outcome = .other) :
      Opened tool held ticket (.finished outcome)
  | asks {next : Except Fault Reply → Task Outcome} (goes : ToolTask.Goes tool held next) :
      Opened tool held ticket (.waiting (.reply ticket next))

/-- Where it is once it has had a reply, given the last stop then. -/
inductive Carried (tool : ToolCall) (held last : Option StopNotice) (ticket : Nat) :
    Progress Outcome → Prop where
  | returned {outcome : Outcome} (fits : (reportOf outcome).Fits tool held last) :
      Carried tool held last ticket (.finished outcome)
  | asks {next : Except Fault Reply → Task Outcome} (goes : ToolTask.Goes tool held next) :
      Carried tool held last ticket (.waiting (.reply ticket next))
  | lingers {next : Option StopNotice → Task Outcome} (count : UInt64) (deadline : Nat)
      (lingers : ToolTask.Lingers tool held next) :
      Carried tool held last ticket (.waiting (.stop count deadline next))

namespace Session

open ToolTask (Goes Lingers Tells Inquires afterStop afterResume afterStep afterSend finish showStep)

variable {s : Session} {tool : ToolCall} {held : Option StopNotice}

/-- A request is refused at once, or it is posted under the next ticket. -/
theorem advance_request {α : Type} (now : Nat) (s : Session) (line : Option String)
    (next : Except Fault Reply → Task α) :
    (∃ fault, s.advance now (.request line next) = s.advance now (next (.error fault))) ∨
      ∃ relay, s.advance now (.request line next) =
        ({ s with relay }, .waiting (.reply s.relay.issued next)) := by
  cases submitted : s.relay.submit line with
  | error fault =>
    left
    refine ⟨fault, ?_⟩
    simp only [advance, submitted]
  | ok posted =>
    right
    obtain ⟨relay, ticket⟩ := posted
    obtain ⟨rfl, _⟩ := Relay.submit_posted submitted
    refine ⟨relay, ?_⟩
    unfold advance
    rw [submitted]

theorem advance_asks {α : Type} {post : α → Prop} {task : Task α} (asks : task.Asks post) (now : Nat)
    (s : Session) :
    (∃ a, s.advance now task = (s, .finished a) ∧ post a) ∨
      ∃ relay next, s.advance now task = ({ s with relay }, .waiting (.reply s.relay.issued next)) ∧
        ∀ result, (next result).Asks post := by
  induction task with
  | done a => exact Or.inl ⟨a, rfl, asks⟩
  | request line next ih =>
    rcases advance_request now s line next with ⟨fault, eq⟩ | ⟨relay, eq⟩
    · rw [eq]
      exact ih (.error fault) (asks _)
    · exact Or.inr ⟨relay, next, eq, asks⟩
  | look next ih => exact ih s.view (asks s.view)
  | setMode | update | awaitStop => cases asks

/-- A request whose refusal ends the task. -/
theorem opened_request {next : Except Fault Reply → Task Outcome} (goes : Goes tool held next)
    {name : String} (fails : ∀ fault, next (.error fault) = .done (.error (.failed name fault)))
    (now : Nat) (s : Session) (line : Option String) :
    ∃ t progress, s.advance now (.request line next) = (t, progress) ∧ t.board = s.board ∧
      Opened tool held s.relay.issued progress := by
  rcases advance_request now s line next with ⟨fault, eq⟩ | ⟨relay, eq⟩
  · rw [fails] at eq
    exact ⟨s, _, eq, rfl, .returned rfl⟩
  · exact ⟨_, _, eq, rfl, .asks goes⟩

theorem opened_asks {task : Task Outcome} (asks : task.Asks (reportOf · = .other))
    (silent : tool.notes = false) (held : Option StopNotice) (now : Nat) (s : Session) :
    ∃ t progress, s.advance now task = (t, progress) ∧ t.board = s.board ∧
      Opened tool held s.relay.issued progress := by
  rcases advance_asks asks now s with ⟨outcome, eq, other⟩ | ⟨relay, next, eq, asks⟩
  · exact ⟨_, _, eq, rfl, .returned other⟩
  · exact ⟨_, _, eq, rfl, .asks (.asked held silent asks)⟩

theorem begin_turn {task : ToolTask Answer} (asked : ToolTask.ofCall? tool = some task) (now : Nat)
    (s : Session) :
    ∃ t progress, s.advance now (ExceptT.run task) = (t, progress) ∧ t.board = tool.beginOn s.board ∧
      Opened tool s.board.last s.relay.issued progress := by
  cases notes : tool.notes with
  | false =>
    have board : tool.beginOn s.board = s.board := by
      cases tool <;> first | rfl | cases notes
    rw [board]
    exact opened_asks (ToolTask.ofCall_inquires asked notes) notes s.board.last now s
  | true =>
    cases tool with
    | run target =>
      cases asked
      rw [ToolTask.run_task]
      exact opened_request (.resumed "octave_run" s.board.count (.run target s.board.last))
        (fun _ => rfl) now { s with board := s.board.clear, relay := s.relay.setMode .either } _
    | resume =>
      cases asked
      rw [ToolTask.resume_task]
      exact opened_request (.resumed "octave_continue" s.board.count (.resume s.board.last))
        (fun _ => rfl) now { s with board := s.board.clear, relay := s.relay.setMode .either } _
    | step =>
      cases asked
      rw [ToolTask.step_task]
      exact opened_request (.stepped s.board.last s.board.count) (fun _ => rfl) now
        { s with relay := s.relay.setMode .either } _
    | send line =>
      cases asked
      rw [ToolTask.send_task]
      exact opened_request (.sent s.board.last line) (fun _ => rfl) now s line
    | _ => cases notes

/-- A fault in place of a reply tells nothing of stops. -/
theorem fault_turn {next : Except Fault Reply → Task Outcome} (goes : Goes tool held next) (now : Nat)
    (s : Session) (fault : Fault) :
    ∃ t progress, s.advance now (next (.error fault)) = (t, progress) ∧ t.board = s.board ∧
      Opened tool held s.relay.issued progress := by
  cases goes with
  | resumed name count tells => exact ⟨s, _, rfl, rfl, .returned rfl⟩
  | stepped held count => exact ⟨s, _, rfl, rfl, .returned rfl⟩
  | sent held line => exact ⟨s, _, rfl, rfl, .returned rfl⟩
  | asked held silent asks => exact opened_asks (asks (.error fault)) silent held now s

/-- The task of a call whose wait for a stop is over is over too. -/
theorem stop_turn {next : Option StopNotice → Task Outcome} (lingers : Lingers tool held next)
    (now : Nat) (s : Session) {stop : Option StopNotice} (told : stop = none ∨ stop = s.board.last) :
    ∃ outcome, s.advance now (next stop) = (s, .finished outcome) ∧
      (reportOf outcome).Fits tool held s.board.last := by
  cases lingers with
  | resumed tells reply =>
    cases stop with
    | none => exact ⟨_, rfl, trivial⟩
    | some stop =>
      have last : s.board.last = some stop := by simpa [eq_comm] using told
      refine ⟨_, rfl, ?_⟩
      cases tells with
      | run target held => exact ⟨rfl, Or.inl rfl, Or.inr last.symm⟩
      | resume held => exact ⟨rfl, Or.inr rfl, Or.inr last.symm⟩
  | stepped held reply =>
    refine ⟨_, rfl, rfl, ?_⟩
    cases stop with
    | none => exact Or.inr (Or.inl rfl)
    | some stop =>
      have last : s.board.last = some stop := by simpa [eq_comm] using told
      exact Or.inr (Or.inr last.symm)

/-- A task that waits for a stop is over at once if there is one past the count. -/
theorem linger_turn {next : Option StopNotice → Task Outcome} (lingers : Lingers tool held next)
    (now : Nat) (s : Session) (count : UInt64) {limit : Nat} (positive : limit ≠ 0) :
    (∃ outcome, s.advance now (.awaitStop count limit next) = (s, .finished outcome) ∧
        (reportOf outcome).Fits tool held s.board.last) ∨
      s.advance now (.awaitStop count limit next) = (s, .waiting (.stop count (now + limit) next)) := by
  cases newer : s.board.newer? count with
  | some stop =>
    have eq : s.advance now (.awaitStop count limit next) = s.advance now (next (some stop)) := by
      simp only [advance, newer]
    rw [eq]
    exact Or.inl (stop_turn lingers now s (Or.inr (StopBoard.newer_eq_last newer).symm))
  | none =>
    right
    simp only [advance, newer, positive, if_false]

/-- A tool that notes its reply and settles: at the debug prompt it waits for a stop, and at the normal
one it is over. -/
theorem settle_turn {next : Option StopNotice → Task Outcome} (lingers : Lingers tool held next)
    (now : Nat) (s : Session) (reply : Reply) (count : UInt64) {limit : Nat} (positive : limit ≠ 0)
    {rest : Task Outcome} (ends : ∀ t : Session, ∃ outcome, t.advance now rest = (t, .finished outcome) ∧
      (reportOf outcome).Fits tool held none) :
    ∃ t progress, s.advance now (.update (·.noteReply reply.inDebugMode)
        (if reply.inDebugMode then .awaitStop count limit next else .update (·.clear) rest)) =
          (t, progress) ∧
      t.board = tool.noteOn reply.inDebugMode s.board ∧
      Carried tool held t.board.last s.relay.issued progress := by
  obtain ⟨settles, notes⟩ : tool.settles = true ∧ tool.notes = true := by
    cases lingers with
    | resumed tells reply => cases tells <;> exact ⟨rfl, rfl⟩
    | stepped held reply => exact ⟨rfl, rfl⟩
  cases reply.inDebugMode with
  | true =>
    let t := { s with board := s.board.noteReply true }
    have board : t.board = tool.noteOn true s.board := by
      simp [ToolCall.noteOn, notes, t]
    rcases linger_turn lingers now t count positive with ⟨outcome, ended, fits⟩ | waits
    · exact ⟨t, _, ended, board, .returned fits⟩
    · exact ⟨t, _, waits, board, .lingers count _ lingers⟩
  | false =>
    let t := { s with board := (s.board.noteReply false).clear }
    have board : t.board = tool.noteOn false s.board := by
      simp [ToolCall.noteOn, settles, t]
    obtain ⟨outcome, ended, fits⟩ := ends t
    exact ⟨t, _, ended, board, .returned fits⟩

theorem reply_turn {next : Except Fault Reply → Task Outcome} (goes : Goes tool held next) (now : Nat)
    (s : Session) (reply : Reply) :
    ∃ t progress, s.advance now (next (.ok reply)) = (t, progress) ∧
      t.board = tool.noteOn reply.inDebugMode s.board ∧
      Carried tool held t.board.last s.relay.issued progress := by
  cases goes with
  | @resumed _ _ tell name count tells =>
    refine settle_turn (.resumed tells reply) now s reply count (by decide) fun t => ⟨_, rfl, ?_⟩
    cases tells with
    | run target held => exact ⟨rfl, Or.inl rfl, Or.inl rfl⟩
    | resume held => exact ⟨rfl, Or.inr rfl, Or.inl rfl⟩
  | stepped held count =>
    refine settle_turn (.stepped held reply) now s reply count (by decide) fun t => ⟨_, rfl, ?_⟩
    exact ⟨rfl, Or.inl rfl⟩
  | sent held line => exact ⟨_, _, rfl, rfl, .returned trivial⟩
  | asked held silent asks =>
    have board : tool.noteOn reply.inDebugMode s.board = s.board := by
      cases tool <;> first | rfl | cases silent
    rw [board]
    rcases advance_asks (asks (.ok reply)) now s with ⟨outcome, eq, other⟩ | ⟨relay, next, eq, asks⟩
    · exact ⟨_, _, eq, rfl, .returned (other ▸ trivial)⟩
    · exact ⟨_, _, eq, rfl, .asks (.asked held silent asks)⟩

end Session

end PromptRelay
