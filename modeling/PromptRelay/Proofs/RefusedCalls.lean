import PromptRelay.Proofs.ServerWatch

namespace PromptRelay

/-- A tool whose command is refused for the line break in it. -/
def brokenCommand (tool detail : String) : Outcome := .error (.failed tool (.invalidCommand detail))

/-- Only a line with a break in it is refused as a command. -/
theorem Relay.broken_of_refused {r : Relay} {line detail : String}
    (h : r.submit (some line) = .error (.invalidCommand detail)) : breaksLine line = true := by
  by_contra whole
  have unbroken : (some line).filter breaksLine = none := by simpa using whole
  unfold submit refusal? at h
  rw [unbroken] at h
  cases isClosed : r.closed with
  | some reason => simp [isClosed] at h
  | none =>
    simp only [isClosed, Option.map_none] at h
    unfold post at h
    split at h <;> cases h

namespace Session

/-- If a task is over at once because its command is refused, it has left the second session of the
first. -/
def RefusesTo (s t : Session) (task : Task Outcome) : Prop :=
  ∀ now u tool detail, s.advance now task = (u, .finished (brokenCommand tool detail)) → u = t

variable {s t : Session}

theorem refuses_done (outcome : Outcome) (other : ∀ tool detail, outcome ≠ brokenCommand tool detail) :
    RefusesTo s t (.done outcome) := by
  intro now u tool detail h
  cases h
  exact absurd rfl (other tool detail)

theorem refuses_ok (answer : Answer) : RefusesTo s t (.done (.ok answer)) :=
  refuses_done _ fun _ _ same => by cases same

theorem refuses_look {next : SessionView → Task Outcome} (h : RefusesTo s t (next s.view)) :
    RefusesTo s t (.look next) := h

theorem refuses_update {change : StopBoard → StopBoard} {next : Task Outcome}
    (h : RefusesTo { s with board := change s.board } t next) : RefusesTo s t (.update change next) := h

theorem refuses_setMode {next : Task Outcome} (either : s.relay.mode = .either)
    (h : RefusesTo s t next) : RefusesTo s t (.setMode .either next) := by
  intro now u tool detail ended
  rw [advance, Relay.setMode_either either] at ended
  exact h now u tool detail ended

/-- The first request of a task is the last, if it is refused. -/
theorem refuses_request {line : Option String} {next : Except Fault Reply → Task Outcome}
    (h : ∀ fault, s.relay.submit line = .error fault → RefusesTo s t (next (.error fault))) :
    RefusesTo s t (.request line next) := by
  intro now u tool detail ended
  unfold advance at ended
  cases submitted : s.relay.submit line with
  | error fault =>
    rw [submitted] at ended
    exact h fault submitted now u tool detail ended
  | ok posted =>
    rw [submitted] at ended
    cases ended

theorem refuses_stays (tool : String) (fault : Fault) :
    RefusesTo s s (.done (.error (.failed tool fault))) := by
  intro now u tool' detail ended
  cases ended
  rfl

/-- What a tool leaves of a session when its command is refused: running a program clears the last stop
first. -/
def afterRefusal (c : ToolCall) (s : Session) : Session :=
  match c with
  | .run _ => { s with board := s.board.clear }
  | _ => s

theorem ofCall_refuses {c : ToolCall} {task : ToolTask Answer} (h : ToolTask.ofCall? c = some task)
    (either : s.relay.mode = .either) : RefusesTo s (afterRefusal c s) (ExceptT.run task) := by
  cases c with
  | launch choice => cases h
  | terminate => cases h
  | setBreakpoints function lines replace =>
    cases h
    cases replace with
    | true => exact refuses_request fun fault _ => refuses_stays "octave_set_breakpoints" fault
    | false =>
      cases lines with
      | nil => exact refuses_ok _
      | cons line rest =>
        exact refuses_request fun fault _ => refuses_stays "octave_set_breakpoints" fault
  | clearBreakpoints function =>
    cases h
    exact refuses_request fun fault _ => refuses_stays "octave_clear_breakpoints" fault
  | run target =>
    cases h
    exact refuses_look (refuses_update (refuses_setMode either (refuses_request fun fault _ =>
      refuses_stays "octave_run" fault)))
  | resume =>
    cases h
    refine refuses_look (refuses_update (refuses_setMode either (refuses_request fun fault refused =>
      refuses_done _ fun tool detail same => ?_)))
    cases same
    have broken : Relay.breaksLine "dbcont" = true := Relay.broken_of_refused refused
    exact absurd broken (by decide)
  | step =>
    cases h
    exact refuses_look (refuses_setMode either (refuses_request fun fault _ =>
      refuses_stays "octave_step" fault))
  | stack =>
    cases h
    exact refuses_look (refuses_look (refuses_ok _))
  | list includeValues =>
    cases h
    exact refuses_request fun fault _ => refuses_stays "octave_variables" fault
  | evaluate expression =>
    cases h
    exact refuses_request fun fault _ => refuses_stays "octave_evaluate" fault
  | locate names =>
    cases h
    cases names with
    | nil => exact refuses_ok _
    | cons name rest => exact refuses_request fun fault _ => refuses_stays "octave_which" fault
  | send line =>
    cases h
    exact refuses_request fun fault _ => refuses_stays "octave_command" fault

end Session

namespace ToolServer

/-- A call begins at once, or after the launch that it waited for. -/
inductive Begins (s : ToolServer) : Nat → ToolCall → ToolServer → Prop where
  | atOnce (c : ToolCall) (free : s.launching = none) : Begins s s.board.started c (s.call c)
  | later {id : Nat} {c : ToolCall} {rest : List (Nat × ToolCall)} (free : s.launching = none)
      (first : s.waiting = (id, c) :: rest) : Begins s id c ({ s with waiting := rest }.begin id c)

theorem call_begin {s : ToolServer} (free : s.launching = none) (c : ToolCall) :
    s.call c = { s with board := s.board.enter }.begin s.board.started c := by
  unfold call
  simp only [free]
  rfl

/-- A task that is over at once gives its result, and any other gives none. -/
theorem carryOn_results (b : Switchboard Outcome) (id i : Nat) (task : Task Outcome) :
    (b.carryOn id i task).results = b.results ∨
      ∃ x y a, b.sessions[i]? = some x ∧ x.advance b.now task = (y, .finished a) ∧
        b.carryOn id i task = { b with
          sessions := b.sessions.set i y, results := b.results ++ [(id, a)] } := by
  unfold Switchboard.carryOn
  split
  next => exact Or.inl rfl
  next x here =>
    rcases eq : x.advance b.now task with ⟨y, progress⟩
    cases progress with
    | finished a => exact Or.inr ⟨x, y, a, here, eq, rfl⟩
    | waiting wait => exact Or.inl rfl

/-- A call whose command is refused began on the current session, and changed no other. -/
theorem begin_refused {s : ToolServer} {id : Nat} {c : ToolCall} {tool detail : String}
    (either : ∀ (i : Nat) (x : Session), s.board.sessions[i]? = some x → x.relay.mode = .either)
    (refused : (s.begin id c).board.results = s.board.results ++ [(id, brokenCommand tool detail)]) :
    ∃ i x, s.current = some i ∧ s.board.sessions[i]? = some x ∧
      s.begin id c = { s with
        board := { s.board with
          sessions := s.board.sessions.set i (x.afterRefusal c)
          results := s.board.results ++ [(id, brokenCommand tool detail)] } } := by
  have answered : ∀ outcome, (s.answer id outcome).board.results =
      s.board.results ++ [(id, brokenCommand tool detail)] → outcome = brokenCommand tool detail := by
    intro outcome same
    simpa [answer, Switchboard.finish] using same
  have silent : s.board.results ≠ s.board.results ++ [(id, brokenCommand tool detail)] := by simp
  rcases begin_cases s id c with
    ⟨choice, rfl, eq⟩ | ⟨rfl, eq⟩ | ⟨task, i, asked, current, eq⟩ | ⟨_, eq⟩ <;> rw [eq] at refused
  · rcases launch_cases s id choice with
      ⟨_, eq⟩ | ⟨_, _, _, _, eq⟩ | ⟨process, _, _, _, eq⟩ <;> rw [eq] at refused
    · cases answered _ refused
    · cases answered _ refused
    · rcases carryOn_results
        { s.board with sessions := s.board.sessions ++ [Session.ofProcess process] } id
        s.board.sessions.length (ExceptT.run (launchTask (.ofLaunch s.host.environment choice))) with
        same | ⟨x, y, a, here, ended, _⟩
      · exact absurd (same.symm.trans refused) silent
      · cases (List.getElem?_concat_length.symm.trans here)
        cases ended
  · rcases terminate_cases s id with
      ⟨_, eq⟩ | ⟨i, _, ⟨_, eq⟩ | ⟨x, _, ⟨_, eq⟩ | ⟨_, eq⟩⟩⟩ <;> rw [eq] at refused
    · cases answered _ refused
    · exact absurd refused silent
    · exact absurd refused silent
    · cases List.append_cancel_left refused
  · rcases carryOn_results s.board id i (ExceptT.run task) with same | ⟨x, y, a, here, ended, went⟩
    · exact absurd (same.symm.trans refused) silent
    · have result : a = brokenCommand tool detail := by
        rw [went] at refused
        simpa using refused
      subst result
      have left := Session.ofCall_refuses asked (either i x here) _ _ _ _ ended
      exact ⟨i, x, current, here, by rw [eq, went, left]⟩
  · cases answered _ refused

/-- The first line that a call of a tool sends, if it sends any. -/
def openingLine : ToolCall → Option String
  | .setBreakpoints function lines replace =>
    if replace then some ("dbclear " ++ function)
    else if lines.isEmpty then none else some (Operation.breakpointLine function lines)
  | .clearBreakpoints function => some ("dbclear " ++ function)
  | .run target => some target
  | .resume => some "dbcont"
  | .step => some "dbnext"
  | .list _ => some "whos"
  | .evaluate expression => some (trimmed expression)
  | .locate names => if names.isEmpty then none else some ("which " ++ " ".intercalate names)
  | .send line => line
  | .launch _ | .stack | .terminate => none

theorem advance_refused {x : Session} {line : Option String} {fault : Fault} (now : Nat)
    (next : Except Fault Reply → Task Outcome) (h : x.relay.submit line = .error fault) :
    x.advance now (.request line next) = x.advance now (next (.error fault)) := by
  conv_lhs => unfold Session.advance
  rw [h]

/-- A line break in that line is what has a call refused on a session that is open. -/
theorem advance_broken {x : Session} (isOpen : x.relay.closed = none) {c : ToolCall}
    {task : ToolTask Answer} (asked : ToolTask.ofCall? c = some task) {line : String}
    (opens : openingLine c = some line) (broken : Relay.breaksLine line = true) (now : Nat) :
    (x.advance now (ExceptT.run task)).2 =
      .finished (.error (.failed c.toolName (.severalLines line))) := by
  have refused : ∀ y : Session, y.relay.closed = none →
      y.relay.submit (some line) = .error (.severalLines line) := by
    intro y isOpen
    simp [Relay.submit, Relay.refusal?, isOpen, Option.filter, broken]
  have first : ∀ next : Except Fault Reply → Task Outcome,
      x.advance now (.request (some line) next) = x.advance now (next (.error (.severalLines line))) :=
    fun next => advance_refused now next (refused x isOpen)
  cases c with
  | launch choice => cases asked
  | terminate => cases asked
  | stack => cases opens
  | setBreakpoints function lines replace =>
    cases asked
    cases replace with
    | true => cases opens; exact congrArg Prod.snd (first _)
    | false =>
      cases lines with
      | nil => cases opens
      | cons n rest => cases opens; exact congrArg Prod.snd (first _)
  | clearBreakpoints function => cases asked; cases opens; exact congrArg Prod.snd (first _)
  | run target =>
    cases asked
    cases opens
    exact congrArg Prod.snd (advance_refused now _ (refused { x with
      board := x.board.clear, relay := x.relay.setMode .either } isOpen))
  | resume => cases opens; cases broken
  | step => cases opens; cases broken
  | list includeValues => cases opens; cases broken
  | evaluate expression => cases asked; cases opens; exact congrArg Prod.snd (first _)
  | locate names =>
    cases asked
    cases names with
    | nil => cases opens
    | cons name rest => cases opens; exact congrArg Prod.snd (first _)
  | send sent => cases asked; cases opens; exact congrArg Prod.snd (first _)

/-- On an open session a call is refused at once for a line break in its first line. -/
theorem begin_broken {s : ToolServer} {i : Nat} {x : Session} (current : s.current = some i)
    (here : s.board.sessions[i]? = some x) (isOpen : x.relay.closed = none) {c : ToolCall} {line : String}
    (opens : openingLine c = some line) (broken : Relay.breaksLine line = true) (id : Nat) :
    (s.begin id c).board.results = s.board.results ++
      [(id, brokenCommand c.toolName ("command spans several lines: " ++ quoted line))] := by
  obtain ⟨task, asked⟩ : ∃ task, ToolTask.ofCall? c = some task := by
    cases c <;> first | exact ⟨_, rfl⟩ | cases opens
  have ended := advance_broken isOpen asked opens broken s.board.now
  rcases begin_cases s id c with
    ⟨choice, rfl, _⟩ | ⟨rfl, _⟩ | ⟨task', j, asked', current', eq⟩ | ⟨⟨_, _, free⟩, _⟩
  · cases asked
  · cases asked
  · cases asked.symm.trans asked'
    cases current.symm.trans current'
    rw [eq]
    simp only [Switchboard.carryOn, here]
    generalize x.advance s.board.now (ExceptT.run task) = went at ended
    obtain ⟨y, progress⟩ := went
    cases (ended : progress = _)
    rfl
  · cases current.symm.trans free

/-- So is a new call, unless a launch is under way. -/
theorem call_broken {s : ToolServer} {i : Nat} {x : Session} (free : s.launching = none)
    (current : s.current = some i) (here : s.board.sessions[i]? = some x)
    (isOpen : x.relay.closed = none) {c : ToolCall} {line : String} (opens : openingLine c = some line)
    (broken : Relay.breaksLine line = true) :
    (s.call c).board.results = s.board.results ++ [(s.board.started,
      brokenCommand c.toolName ("command spans several lines: " ++ quoted line))] := by
  rw [call_begin free]
  exact begin_broken (s := { s with board := s.board.enter }) current here isOpen opens broken _

theorem stack_results {s : ToolServer} {i : Nat} {x : Session} (current : s.current = some i)
    (here : s.board.sessions[i]? = some x) (id : Nat) :
    (s.begin id .stack).board.results =
      s.board.results ++ [(id, .ok (.stack x.state ((x.board.last.map (·.frames)).getD [])))] := by
  have task : s.begin id .stack =
      { s with board := s.board.carryOn id i (ExceptT.run ToolTask.stack) } := by
    unfold ToolServer.begin
    simp only [ToolTask.ofCall?, current]
  rw [task]
  simp only [Switchboard.carryOn, here]
  rfl

theorem afterRefusal_eq_iff (c : ToolCall) (x : Session) :
    x.afterRefusal c = x ↔ ((∃ target, c = .run target) → x.board.last = none) := by
  cases c with
  | run target =>
    obtain ⟨relay, scanner, notices, ⟨debugging, last, count⟩⟩ := x
    simp [Session.afterRefusal, StopBoard.clear, eq_comm]
  | _ => simp [Session.afterRefusal]

theorem set_eq_self_iff {sessions : List Session} {i : Nat} {x : Session} (here : sessions[i]? = some x)
    (y : Session) : sessions.set i y = sessions ↔ y = x := by
  obtain ⟨bound, rfl⟩ := List.getElem?_eq_some_iff.mp here
  constructor
  · intro same
    have own := congrArg (·[i]?) same
    simpa [bound] using own
  · rintro rfl
    exact List.set_getElem_self bound

/-- A call whose command is refused, because an argument puts a line break into it, leaves everything
as it was, save that a call to run a program has cleared the last stop: the frames of a program that is
stopped are lost exactly then. -/
theorem refused_call_loses_stop_of_run_only (host : Host)
    (happenings : List Happening) {id : Nat} {c : ToolCall} {t : ToolServer} {tool detail : String}
    (begins : Begins ((start host).run happenings) id c t)
    (refused : t.board.results =
      ((start host).run happenings).board.results ++ [(id, brokenCommand tool detail)]) :
    let s := (start host).run happenings
    ∃ i x, s.current = some i ∧ s.board.sessions[i]? = some x ∧
      t.board.sessions = s.board.sessions.set i (x.afterRefusal c) ∧ t.board.calls = s.board.calls ∧
      t.current = s.current ∧
      (t.board.sessions = s.board.sessions ↔ ((∃ target, c = .run target) → x.board.last = none)) ∧
      ∀ j, (t.begin j .stack).board.results = t.board.results ++
        [(j, .ok (.stack x.state (((x.afterRefusal c).board.last.map (·.frames)).getD [])))] := by
  intro s
  have either : ∀ (i : Nat) (x : Session), s.board.sessions[i]? = some x → x.relay.mode = .either :=
    fun i x here => ((run_kept host happenings).tracked i x here).either
  obtain ⟨base, sessions, calls, current, results, rfl⟩ : ∃ base : ToolServer,
      base.board.sessions = s.board.sessions ∧ base.board.calls = s.board.calls ∧
        base.current = s.current ∧ base.board.results = s.board.results ∧ t = base.begin id c := by
    cases begins with
    | atOnce c free => exact ⟨{ s with board := s.board.enter }, rfl, rfl, rfl, rfl, call_begin free c⟩
    | @later _ _ rest _ _ => exact ⟨{ s with waiting := rest }, rfl, rfl, rfl, rfl, rfl⟩
  obtain ⟨i, x, here, present, eq⟩ := begin_refused (sessions ▸ either) (refused.trans (by rw [results]))
  have place : i < base.board.sessions.length := (List.getElem?_eq_some_iff.mp present).1
  have left : (base.begin id c).board.sessions[i]? = some (x.afterRefusal c) := by
    rw [eq]
    simp [place]
  have stays : (base.begin id c).current = some i := by
    rw [eq]
    exact here
  have shown : (x.afterRefusal c).state = x.state := by
    cases c <;> rfl
  refine ⟨i, x, current ▸ here, sessions ▸ present, ?_, ?_, ?_, ?_, fun j => ?_⟩
  · rw [eq, ← sessions]
  · rw [eq, ← calls]
  · rw [stays, ← current, here]
  · rw [eq, ← sessions, set_eq_self_iff present, afterRefusal_eq_iff]
  · rw [stack_results stays left, shown]

/-- A program that has stopped at a breakpoint. -/
def stoppedInFoo : List Happening :=
  [.attach .pipe, .move (.diagnose 0 (utf8Bytes "stopped in foo at line 3\n3: x = 1\n")) rfl,
    .move (.record 0) rfl]

theorem stoppedInFoo_open :
    ∃ x, ((start .bare).run stoppedInFoo).board.sessions[0]? = some x ∧
      x.relay.closed = none := by
  obtain ⟨x, here⟩ : ∃ x, ((start .bare).run stoppedInFoo).board.sessions[0]? = some x :=
    Option.isSome_iff_exists.mp (by decide +kernel)
  have isOpen : (some x).map (·.relay.closed) = some none := by
    rw [← here]
    decide +kernel
  exact ⟨x, here, Option.some.inj isOpen⟩

theorem stop_held_after_refused_command :
    let s := (start .bare).run stoppedInFoo
    (s.call (.send (some "a\nb"))).board.sessions = s.board.sessions ∧
      s.board.sessions.map (·.board.last.isSome) = [true] := by
  intro s
  obtain ⟨x, here, isOpen⟩ := stoppedInFoo_open
  have refused := call_broken (s := s) rfl rfl here isOpen (c := .send (some "a\nb")) rfl (by decide)
  obtain ⟨i, y, _, _, _, _, _, keeps, _⟩ := refused_call_loses_stop_of_run_only .bare
    stoppedInFoo (.atOnce (.send (some "a\nb")) rfl) refused
  exact ⟨keeps.mpr (fun ⟨_, run⟩ => by cases run), by decide +kernel⟩

theorem stop_lost_by_refused_run :
    let s := (start .bare).run stoppedInFoo
    let t := s.call (.run "foo\nbar")
    t.board.results = s.board.results ++ [(s.board.started, brokenCommand "octave_run"
      ("command spans several lines: " ++ quoted "foo\nbar"))] ∧
      s.board.sessions.map (·.board.last.isSome) = [true] ∧
      t.board.sessions.map (·.board.last.isSome) = [false] := by
  intro s t
  obtain ⟨x, here, isOpen⟩ := stoppedInFoo_open
  exact ⟨call_broken rfl rfl here isOpen (c := .run "foo\nbar") rfl (by decide), by decide +kernel,
    by decide +kernel⟩

end ToolServer

end PromptRelay
