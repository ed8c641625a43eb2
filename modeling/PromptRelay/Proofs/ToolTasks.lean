import PromptRelay.ToolServer

namespace PromptRelay

/-- What a task that notes replies owes the board after a result: the prompt of the reply. -/
def owedFor (notes : Bool) : Except Fault Reply → Option Bool
  | .ok reply => if notes then some reply.inDebugMode else none
  | .error _ => none

namespace Task

variable {α β : Type}

/-- What holds of the end of a task and what it owes there, if it sets no mode but the one that admits
both prompts, pays what it owes the board before it waits again, and changes the debugging flag in no
other way. -/
def Heeds (notes : Bool) (post : Option Bool → α → Prop) : Option Bool → Task α → Prop
  | owed, .done a => post owed a
  | owed, .request _ next => owed = none ∧ ∀ result, (next result).Heeds notes post (owedFor notes result)
  | owed, .setMode mode next => mode = .either ∧ next.Heeds notes post owed
  | owed, .look next => ∀ view, (next view).Heeds notes post owed
  | owed, .update change next =>
    (∀ b, (change b).debugging = owed.getD b.debugging) ∧ next.Heeds notes post none
  | owed, .awaitStop _ _ next => owed = none ∧ ∀ stop, (next stop).Heeds notes post none

theorem Heeds.mono {notes : Bool} {post post' : Option Bool → α → Prop}
    (weaker : ∀ owed a, post owed a → post' owed a) {t : Task α} {owed : Option Bool}
    (h : t.Heeds notes post owed) : t.Heeds notes post' owed := by
  induction t generalizing owed with
  | done a => exact weaker owed a h
  | request line next ih => exact ⟨h.1, fun result => ih result (h.2 result)⟩
  | setMode mode next ih => exact ⟨h.1, ih h.2⟩
  | look next ih => exact fun view => ih view (h view)
  | update change next ih => exact ⟨h.1, ih h.2⟩
  | awaitStop count limit next ih => exact ⟨h.1, fun stop => ih stop (h.2 stop)⟩

/-- A task that owes nothing at its end. -/
def Minds (notes : Bool) (owed : Option Bool) (t : Task α) : Prop :=
  t.Heeds notes (fun owed _ => owed = none) owed

theorem heeds_bind (notes : Bool) (post : Option Bool → β → Prop) (f : α → Task β) (t : Task α)
    (owed : Option Bool) :
    (t.bind f).Heeds notes post owed ↔
      t.Heeds notes (fun owed a => (f a).Heeds notes post owed) owed := by
  induction t generalizing owed with
  | done a => exact Iff.rfl
  | request line next ih => simp only [bind, Heeds, ih]
  | setMode mode next ih => simp only [bind, Heeds, ih]
  | look next ih => simp only [bind, Heeds, ih]
  | update change next ih => simp only [bind, Heeds, ih]
  | awaitStop count limit next ih => simp only [bind, Heeds, ih]

/-- The end of a task that may fail: a fault leaves nothing owed. -/
def orFault {ε : Type} (post : Option Bool → α → Prop) (owed : Option Bool) : Except ε α → Prop
  | .ok a => post owed a
  | .error _ => owed = none

/-- The same of a task that may end in a fault. -/
def Behaves {ε : Type} (notes : Bool) (post : Option Bool → α → Prop) (owed : Option Bool)
    (t : ExceptT ε Task α) : Prop :=
  t.run.Heeds notes (orFault post) owed

variable {ε : Type} {notes : Bool} {owed : Option Bool}

@[simp] theorem behaves_pure {post : Option Bool → α → Prop} (a : α) :
    Behaves notes post owed (pure a : ExceptT ε Task α) ↔ post owed a := Iff.rfl

@[simp] theorem behaves_throw {post : Option Bool → α → Prop} (fault : ε) :
    Behaves notes post owed (throw fault : ExceptT ε Task α) ↔ owed = none := Iff.rfl

@[simp] theorem behaves_bind {post : Option Bool → β → Prop} (t : ExceptT ε Task α)
    (f : α → ExceptT ε Task β) :
    Behaves notes post owed (t >>= f) ↔
      Behaves notes (fun owed a => Behaves notes post owed (f a)) owed t := by
  have run : (t >>= f).run = Task.bind t.run (ExceptT.bindCont f) := rfl
  rw [Behaves, run, heeds_bind]
  have ends : (fun owed (result : Except ε α) =>
      Heeds notes (orFault post) owed (ExceptT.bindCont f result)) =
        orFault fun owed a => Behaves notes post owed (f a) := by
    funext owed result
    cases result <;> rfl
  rw [ends, Behaves]

@[simp] theorem behaves_map {post : Option Bool → β → Prop} (f : α → β) (t : ExceptT ε Task α) :
    Behaves notes post owed (f <$> t) ↔ Behaves notes (fun owed a => post owed (f a)) owed t := by
  have run : (f <$> t).run = Task.bind t.run fun result => .done (result.map f) := by
    change Task.bind t.run _ = _
    congr 1
    funext result
    cases result <;> rfl
  rw [Behaves, run, heeds_bind]
  have ends : (fun owed (result : Except ε α) =>
      Heeds notes (orFault post) owed (.done (result.map f))) =
        orFault fun owed a => post owed (f a) := by
    funext owed result
    cases result <;> rfl
  rw [ends, Behaves]

@[simp] theorem behaves_within {post : Option Bool → α → Prop} (tool : String)
    (operation : Operation α) :
    Behaves notes post owed (ToolTask.within tool operation) ↔ Behaves notes post owed operation := by
  change Heeds notes (orFault post) owed (Task.bind _ _) ↔ _
  rw [heeds_bind, Behaves]
  have ends : (fun owed (result : Except Fault α) =>
      Heeds notes (orFault post) owed (.done (result.mapError (ToolFault.failed tool)))) =
        orFault post := by
    funext owed result
    cases result <;> rfl
  rw [ends]

@[simp] theorem behaves_request {post : Option Bool → Reply → Prop} (line : Option String) :
    Behaves notes post owed (Operation.request line) ↔
      owed = none ∧ ∀ reply, post (owedFor notes (.ok reply)) reply := by
  refine and_congr_right fun _ => ⟨fun h reply => h (.ok reply), fun h result => ?_⟩
  cases result with
  | ok reply => exact h reply
  | error fault => rfl

@[simp] theorem behaves_setMode {post : Option Bool → Unit → Prop} (mode : Mode) :
    Behaves notes post owed (Operation.setMode mode) ↔ mode = .either ∧ post owed () := Iff.rfl

@[simp] theorem behaves_look {post : Option Bool → SessionView → Prop} :
    Behaves notes post owed ToolTask.look ↔ ∀ view, post owed view := Iff.rfl

@[simp] theorem behaves_update {post : Option Bool → Unit → Prop} (change : StopBoard → StopBoard) :
    Behaves notes post owed (ToolTask.update change) ↔
      (∀ b, (change b).debugging = owed.getD b.debugging) ∧ post none () := Iff.rfl

@[simp] theorem behaves_awaitStop {post : Option Bool → Option StopNotice → Prop} (count : UInt64)
    (limit : Nat) :
    Behaves notes post owed (ToolTask.awaitStop count limit) ↔
      owed = none ∧ ∀ stop, post none stop := Iff.rfl

/-- Nothing is owed, whatever the task gave. -/
def Clean (owed : Option Bool) (_ : α) : Prop := owed = none

/-- After a task that leaves nothing owed comes what holds when nothing is. -/
theorem Behaves.next {post : Option Bool → α → Prop} {t : ExceptT ε Task α}
    (h : Behaves notes Clean owed t) (clean : ∀ a, post none a) : Behaves notes post owed t := by
  refine h.mono fun owed result ends => ?_
  cases result with
  | ok a => exact (show owed = none from ends) ▸ clean a
  | error fault => exact ends

theorem Behaves.minds {t : ExceptT ε Task α} (h : Behaves notes Clean owed t) :
    t.run.Minds notes owed := by
  refine h.mono fun owed result ends => ?_
  cases result <;> exact ends

end Task

/-- Whatever a call waits for, its task goes on with what it owes then. -/
def Wait.Minds {α : Type} (notes : Bool) : Wait α → Prop
  | .reply _ next => ∀ result, (next result).Minds notes (owedFor notes result)
  | .stop _ _ next => ∀ stop, (next stop).Minds notes none

theorem Relay.setMode_either {r : Relay} (either : r.mode = .either) : r.setMode .either = r := by
  obtain ⟨input, mode⟩ := r
  cases either
  rfl

/-- Where a task is after one turn: the board has been paid, and the task is over, or it waits for the
reply to the request that it has posted, or for a stop. -/
theorem Session.advance_minds {α : Type} {notes : Bool} {owed : Option Bool} {t : Task α}
    (minds : t.Minds notes owed) (now : Nat) {s : Session} (either : s.relay.mode = .either) :
    ∃ board : StopBoard, board.debugging = owed.getD s.board.debugging ∧
      ((∃ a, s.advance now t = ({ s with board }, .finished a)) ∨
        (∃ line relay ticket next, s.relay.submit line = .ok (relay, ticket) ∧
          (Wait.reply ticket next).Minds notes ∧
          s.advance now t = ({ s with board, relay }, .waiting (.reply ticket next))) ∨
        ∃ count deadline next, (Wait.stop count deadline next).Minds notes ∧
          s.advance now t = ({ s with board }, .waiting (.stop count deadline next))) := by
  induction t generalizing s owed with
  | done a =>
    cases (minds : owed = none)
    exact ⟨s.board, rfl, Or.inl ⟨a, rfl⟩⟩
  | request line next ih =>
    obtain ⟨rfl, goesOn⟩ := minds
    unfold advance
    cases submitted : s.relay.submit line with
    | error fault => exact ih (.error fault) (goesOn _) either
    | ok posted =>
      obtain ⟨relay, ticket⟩ := posted
      exact ⟨s.board, rfl, Or.inr (Or.inl ⟨line, relay, ticket, next, submitted, goesOn, rfl⟩)⟩
  | setMode mode next ih =>
    obtain ⟨rfl, goesOn⟩ := minds
    rw [advance, Relay.setMode_either either]
    exact ih goesOn either
  | look next ih => exact ih s.view (minds s.view) either
  | update change next ih =>
    obtain ⟨paid, goesOn⟩ := minds
    obtain ⟨board, same, rest⟩ := ih goesOn (s := { s with board := change s.board }) either
    exact ⟨board, same.trans (paid s.board), rest⟩
  | awaitStop count limit next ih =>
    obtain ⟨rfl, goesOn⟩ := minds
    unfold advance
    split
    next stop _ => exact ih (some stop) (goesOn _) either
    next =>
      split
      next => exact ih none (goesOn _) either
      next => exact ⟨s.board, rfl, Or.inr (Or.inr ⟨count, now + limit, next, goesOn, rfl⟩)⟩

/-- The tools that note the prompt of each reply they get. -/
def ToolCall.notes : ToolCall → Bool
  | .run _ | .resume | .step | .send _ => true
  | _ => false

namespace ToolTask

open PromptRelay.Task (Behaves Behaves.minds Clean behaves_pure behaves_bind behaves_map behaves_within
  behaves_look behaves_update behaves_awaitStop behaves_request)

@[simp] theorem behaves_state {post : Option Bool → SessionState → Prop} {notes : Bool}
    {owed : Option Bool} :
    Behaves notes post owed state ↔
      ∀ view : SessionView, post owed (.resolve view.closed view.board.debugging) := by
  simp [state]

@[simp] theorem behaves_proceed {post : Option Bool → Reply → Prop} (line : String) :
    Behaves true post none (Operation.proceed line) ↔
      ∀ reply : Reply, post (some reply.inDebugMode) reply := by
  simp [Operation.proceed, Operation.send, owedFor]

@[simp] theorem behaves_send {post : Option Bool → Reply → Prop} (line : String) :
    Behaves false post none (Operation.send line) ↔ ∀ reply, post none reply := by
  simp [Operation.send, owedFor]

theorem settle_behaves (count : UInt64) (reply : Reply) :
    Behaves true Clean (some reply.inDebugMode) (settle count reply) := by
  rw [settle, behaves_bind, behaves_update]
  refine ⟨fun b => rfl, ?_⟩
  split
  next =>
    rw [behaves_bind, behaves_awaitStop]
    refine ⟨rfl, fun stop => ?_⟩
    cases stop <;> rfl
  next => simp [StopBoard.clear, Clean]

theorem run_behaves (target : String) : Behaves true Clean none (run target) := by
  simp only [run, Operation.run, behaves_bind, behaves_look, behaves_update, behaves_within,
    behaves_proceed]
  exact fun view => ⟨fun _ => rfl, fun reply => settle_behaves view.board.count reply⟩

theorem resume_behaves : Behaves true Clean none resume := by
  simp only [resume, Operation.resume, behaves_bind, behaves_look, behaves_update, behaves_within,
    behaves_proceed]
  exact fun view => ⟨fun _ => rfl, fun reply => settle_behaves view.board.count reply⟩

theorem step_behaves : Behaves true Clean none step := by
  simp only [step, Operation.step, behaves_bind, behaves_look, behaves_update, behaves_within,
    behaves_proceed]
  intro view reply
  refine ⟨fun _ => rfl, ?_⟩
  split
  next =>
    rw [behaves_bind, behaves_awaitStop]
    exact ⟨rfl, by simp [Clean]⟩
  next => simp [StopBoard.clear, Clean]

theorem send_behaves (line : Option String) : Behaves true Clean none (send line) := by
  simp [send, owedFor, StopBoard.noteReply, Clean]

theorem stack_behaves : Behaves false Clean none stack := by
  simp [stack, Clean]

theorem value_behaves (v : Variable) : Behaves false Clean none (Operation.value v) := by
  unfold Operation.value
  split <;> simp [Clean]

theorem listedVariables_behaves (includeValues : Bool) (listed : List Variable) :
    Behaves false Clean none (listedVariables includeValues listed) := by
  induction listed with
  | nil => rfl
  | cons v rest ih =>
    have others : ∀ shown : Option String, Behaves false Clean none do
        let rest ← listedVariables includeValues rest
        return (⟨v, shown⟩ : ListedVariable) :: rest := by
      intro shown
      rw [behaves_bind]
      exact ih.next fun _ => rfl
    rw [listedVariables]
    split
    next =>
      rw [behaves_bind, behaves_map, behaves_within]
      exact (value_behaves v).next fun shown => others shown
    next => exact others none

theorem list_behaves (includeValues : Bool) : Behaves false Clean none (list includeValues) := by
  simp only [list, Operation.list, behaves_bind, behaves_within, behaves_send, behaves_pure]
  exact fun reply => listedVariables_behaves includeValues _

theorem evaluate_behaves (expression : String) : Behaves false Clean none (evaluate expression) := by
  simp [evaluate, Operation.evaluate, Clean]

theorem locate_behaves (names : List String) : Behaves false Clean none (locate names) := by
  simp only [locate, Operation.locate, behaves_bind, behaves_within, behaves_pure]
  split <;> simp [Clean]

theorem breakpoints_behaves (function : String) (lines : List Nat) :
    Behaves false Clean none (Operation.setBreakpoints function lines) := by
  rw [Operation.setBreakpoints]
  split
  next => rfl
  next =>
    simp only [behaves_bind, behaves_send]
    intro reply
    split <;> rfl

theorem cleared_behaves (function : String) :
    Behaves false Clean none (Operation.clearBreakpoints function) := by
  simp [Operation.clearBreakpoints, Clean]

theorem setBreakpoints_behaves (function : String) (lines : List Nat) (replace : Bool) :
    Behaves false Clean none (setBreakpoints function lines replace) := by
  have set : Behaves false Clean none do
      let accepted ← within "octave_set_breakpoints" (Operation.setBreakpoints function lines)
      return Answer.breakpointsSet function lines accepted := by
    rw [behaves_bind, behaves_within]
    exact (breakpoints_behaves function lines).next fun _ => rfl
  rw [setBreakpoints]
  split
  next =>
    rw [behaves_bind, behaves_within]
    exact (cleared_behaves function).next fun _ => set
  next => exact set

theorem clearBreakpoints_behaves (function : String) :
    Behaves false Clean none (clearBreakpoints function) := by
  rw [clearBreakpoints, behaves_bind, behaves_within]
  exact (cleared_behaves function).next fun _ => rfl

theorem prepare_behaves (setup : List String) :
    Behaves false Clean none (Operation.prepare setup) := by
  have each : Behaves (ε := Fault) false Clean none
      (forIn setup PUnit.unit fun line _ => do
        let _ ← Operation.send line
        return ForInStep.yield PUnit.unit) := by
    induction setup with
    | nil => rfl
    | cons line rest ih =>
      rw [List.forIn_cons]
      simpa using fun _ => ih
  simp only [Operation.prepare, behaves_bind, behaves_request]
  refine ⟨trivial, fun reply => ?_⟩
  exact each.next fun _ => rfl

/-- Every tool's task keeps the discipline of its tool. -/
theorem ofCall_minds {c : ToolCall} {task : ToolTask Answer} (h : ofCall? c = some task) :
    Task.Minds c.notes none (ExceptT.run task) := by
  refine Behaves.minds ?_
  cases c with
  | launch choice => cases h
  | terminate => cases h
  | setBreakpoints function lines replace =>
    cases h
    exact setBreakpoints_behaves function lines replace
  | clearBreakpoints function => cases h; exact clearBreakpoints_behaves function
  | run target => cases h; exact run_behaves target
  | resume => cases h; exact resume_behaves
  | step => cases h; exact step_behaves
  | stack => cases h; exact stack_behaves
  | list includeValues => cases h; exact list_behaves includeValues
  | evaluate expression => cases h; exact evaluate_behaves expression
  | locate names => cases h; exact locate_behaves names
  | send line => cases h; exact send_behaves line

theorem launchTask_minds (startup : Startup) :
    Task.Minds false none (ExceptT.run (ToolServer.launchTask startup)) := by
  refine Behaves.minds ?_
  rw [ToolServer.launchTask, behaves_bind, behaves_within]
  exact (prepare_behaves startup.setupCommands).next fun _ => rfl

end ToolTask

end PromptRelay
