import PromptRelay.Proofs.RefusedCalls
import PromptRelay.Proofs.ReportedState
import PromptRelay.Proofs.ServerTimeline

namespace PromptRelay

namespace Deed

/-- A call begins on a session that runs or continues its program. -/
def resumesOn (i : Nat) : Deed → Bool
  | .began _ j tool => j = i && tool.resumes
  | _ => false

/-- A stop is recorded on a session, or a tool that notes the prompt of its reply gets one there. -/
def noted (i : Nat) : Deed → Bool
  | .recorded j _ => j = i
  | .handed j tool _ => j = i && tool.notes
  | _ => false

end Deed

theorem ToolCall.notes_of_settles {tool : ToolCall} (h : tool.settles = true) : tool.notes = true := by
  cases tool <;> first | rfl | cases h

theorem onBoard_unnoted {i : Nat} {d : Deed} (unnoted : d.noted i = false) (b : StopBoard) :
    d.onBoard i b = if d.resumesOn i then b.clear else b := by
  cases d with
  | began id j tool =>
    by_cases same : j = i
    · simp [Deed.onBoard, Deed.resumesOn, ToolCall.beginOn, same]
    · simp [Deed.onBoard, Deed.resumesOn, same]
  | wrote id => rfl
  | recorded j stop =>
    have other : j ≠ i := by simpa [Deed.noted] using unnoted
    simp [Deed.onBoard, Deed.resumesOn, other]
  | handed j tool inDebugMode =>
    by_cases same : j = i
    · have silent : tool.notes = false := by simpa [Deed.noted, same] using unnoted
      have still : tool.settles = false := by
        by_contra settles
        have notes := ToolCall.notes_of_settles (by simpa using settles)
        rw [silent] at notes
        cases notes
      simp [Deed.onBoard, Deed.resumesOn, ToolCall.noteOn, silent, still]
    · simp [Deed.onBoard, Deed.resumesOn, same]
  | answered id report => rfl

/-- While nothing is noted on a session, a call that resumes its program clears the last stop, and
nothing else touches the board. -/
theorem boardAfter_unnoted {i : Nat} {t : List Deed} (unnoted : ∀ d ∈ t, d.noted i = false)
    (b : StopBoard) : boardAfter i b t = if t.any (Deed.resumesOn i) then b.clear else b := by
  induction t generalizing b with
  | nil => rfl
  | cons d later ih =>
    rw [boardAfter_cons, ih fun d hd => unnoted d (List.mem_cons_of_mem _ hd),
      onBoard_unnoted (unnoted d List.mem_cons_self), List.any_cons]
    cases d.resumesOn i <;> cases later.any (Deed.resumesOn i) <;> rfl

/-- What is left of the last stop after a reply that ended at the normal prompt. -/
theorem noteOn_normal {tool : ToolCall} (notes : tool.notes = true) (b : StopBoard) :
    (tool.noteOn false b).debugging = false ∧
      ((tool.noteOn false b).last = none ↔ tool.settles = true ∨ b.last = none) := by
  cases settles : tool.settles with
  | true => simp [ToolCall.noteOn, settles, StopBoard.clear, StopBoard.noteReply]
  | false => simp [ToolCall.noteOn, settles, notes, StopBoard.noteReply]

namespace ToolServer

variable {host : Host} {happenings : List Happening}

/-- What a call reports is what its session held when it began and what was recorded there since. -/
theorem report_fits {id i : Nat} {tool : ToolCall} {report : Report} {before running rest : List Deed}
    (told : timeline host happenings =
      before ++ .began id i tool :: (running ++ .answered id report :: rest)) :
    report.Fits tool (boardOf i before).last (stopsOn i running).getLast? := by
  have recounted := run_recounted host happenings
  have vouched := recounted.told.vouched (before ++ .began id i tool :: running) id report rest
    (by rw [told]; simp)
  rcases vouched with rfl | ⟨i', tool', before', since, split, _, fits⟩
  · trivial
  · have once : ((before ++ .began id i tool :: running).filterMap Deed.begun?).Nodup := by
      have all := recounted.once
      rw [told] at all
      refine all.sublist (List.Sublist.filterMap _ ?_)
      exact List.Sublist.append_left (List.Sublist.cons_cons _ (List.sublist_append_left ..)) _
    obtain ⟨rfl, rfl, rfl, rfl⟩ := began_once once rfl split
    exact fits

/-- After a noted reply that ended at the normal prompt, and while nothing else is noted, a session is
idle. It still holds a stop exactly if the tool that got the reply does not clear it, there was one, and
no call has resumed the program since; the call stack shows what is held. A session that holds none gives
none to a later call as the stop before its own. -/
theorem idle_session_holds_stop_iff (host : Host) (happenings : List Happening) {i : Nat}
    {s : Session} (here : ((start host).run happenings).board.sessions[i]? = some s)
    {earlier since : List Deed} {tool : ToolCall}
    (told : timeline host happenings = earlier ++ .handed i tool false :: since)
    (notes : tool.notes = true) (unnoted : ∀ d ∈ since, d.noted i = false) :
    let server := (start host).run happenings
    (s.relay.closed = none → s.state = .idle) ∧
      (s.board.last = none ↔ tool.settles = true ∨ (boardOf i earlier).last = none ∨
        since.any (Deed.resumesOn i) = true) ∧
      (server.current = some i → ∀ id, (server.begin id .stack).board.results = server.board.results ++
        [(id, .ok (.stack s.state ((s.board.last.map (·.frames)).getD [])))]) ∧
      (s.board.last = none → ∀ (later : List Happening) (between running rest : List Deed) (id : Nat)
        (c : ToolCall) (report : Report),
        timeline host (happenings ++ later) = timeline host happenings ++
          (between ++ .began id i c :: (running ++ .answered id report :: rest)) →
        stopsOn i between = [] → report.Fits c none (stopsOn i running).getLast?) := by
  intro server
  have board : s.board = boardOf i (timeline host happenings) := by
    rw [← (run_recounted host happenings).told.boards,
      Watched.run_server (.start host) happenings]
    exact (boardAt_of_some here).symm
  have noted : s.board = if since.any (Deed.resumesOn i) then
      (tool.noteOn false (boardOf i earlier)).clear else tool.noteOn false (boardOf i earlier) := by
    rw [board, told, boardOf_append, boardAfter_cons, boardAfter_unnoted unnoted]
    simp [Deed.onBoard]
  obtain ⟨normal, left⟩ := noteOn_normal notes (boardOf i earlier)
  refine ⟨fun isOpen => ?_, ?_, fun current id => stack_results current here id, ?_⟩
  · have debugging : s.board.debugging = false := by
      rw [noted]
      split
      · exact normal
      · exact normal
    simp [Session.state, Relay.isClosed, isOpen, debugging, SessionState.resolve]
  · rw [noted]
    cases resumed : since.any (Deed.resumesOn i) with
    | true => simp [StopBoard.clear]
    | false => simp [left]
  · intro nothing later between running rest id c report goesOn unstopped
    rw [← List.append_assoc] at goesOn
    have fits := report_fits goesOn
    have held : (boardOf i (timeline host happenings ++ between)).last = none := by
      rw [boardOf_append, ← board]
      have last := last_after i s.board between
      rw [unstopped, nothing] at last
      exact or_self_iff.mp last
    rw [held] at fits
    exact fits

def finishedRun : List Happening := .attach .pipe :: answered (.run "foo") "octave:2> "

theorem no_stop_held_after_finished_run :
    ∃ s, ((start .bare).run finishedRun).board.sessions[0]? = some s ∧
      s.state = .idle ∧ s.board.last = none := by
  obtain ⟨s, here⟩ : ∃ s, ((start .bare).run finishedRun).board.sessions[0]? = some s :=
    Option.isSome_iff_exists.mp (by decide +kernel)
  have isOpen : (some s).map (·.relay.closed) = some none := by
    rw [← here]
    decide +kernel
  have told : timeline .bare finishedRun = [.began 0 0 (.run "foo"), .wrote 0] ++
      .handed 0 (.run "foo") false :: [.answered 0 (.resumed none none)] := by
    decide +kernel
  obtain ⟨idle, held, _⟩ :=
    idle_session_holds_stop_iff .bare finishedRun here told rfl (by decide)
  exact ⟨s, here, idle (Option.some.inj isOpen), held.mpr (Or.inl rfl)⟩

def shownStack? : Outcome → Option (SessionState × List Frame)
  | .ok (.stack state frames) => some (state, frames)
  | _ => none

/-- The debugger is left by way of a raw command. -/
def quitByCommand : List Happening := stoppedInFoo ++ answered (.send (some "dbquit")) "octave:2> "

theorem stop_held_after_quit_by_command :
    let server := (start .bare).run quitByCommand
    (timeline .bare quitByCommand).drop 1 =
        [.began 0 0 (.send (some "dbquit")), .wrote 0, .handed 0 (.send (some "dbquit")) false,
          .answered 0 .other] ∧
      server.board.sessions.map (fun s => (s.state, s.board.last.map (·.frames))) =
        [(.idle, some [⟨0, "foo", "foo", 3, 0⟩])] ∧
      (server.call .stack).board.results.filterMap (fun x => shownStack? x.2) =
        [(.idle, [⟨0, "foo", "foo", 3, 0⟩])] := by
  refine ⟨by decide +kernel, by decide +kernel, by decide +kernel⟩

end ToolServer

end PromptRelay
