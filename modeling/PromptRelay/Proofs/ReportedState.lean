import PromptRelay.Proofs.ServerWatch

namespace PromptRelay.ToolServer

/-- When nobody waits on a session any more, every resolution was handed over. -/
theorem Tracked.all_handed {signs : List Sign} {calls : List (Call Outcome)} {i : Nat} {s : Session}
    (h : Tracked signs none calls i s) (nobody : ∀ c ∈ calls, c.session ≠ i) :
    s.relay.resolved.take s.delivered = s.relay.resolved := by
  refine List.take_of_length_le ?_
  by_contra more
  have issued := h.orderly.settled_le
  obtain ⟨c, hc, awaits⟩ := h.awaited s.delivered (Nat.le_refl _) (by omega)
  obtain ⟨id, goesOn, rfl⟩ := eq_reply_of_awaits awaits
  exact nobody _ hc rfl

/-- The state that a session reports is told by its stops and by the replies that went to tools which
note them. So it follows the last reply exactly if the tool that got that reply is one of these, or
what was noted before shows the same prompt. -/
theorem state_follows_noted_replies (host : Host) (happenings : List Happening) {i : Nat}
    {s : Session} (here : ((start host).run happenings).board.sessions[i]? = some s) :
    let w := (Watched.start host).run happenings
    s.state = .resolve s.relay.isClosed (Sign.marked (w.signs i)) ∧
      ((∀ c ∈ ((start host).run happenings).board.calls, c.session ≠ i) →
        (w.signs i).filterMap Sign.prompt? = s.relay.resolved.filterMap Resolution.prompt?) ∧
      ∀ earlier tool inDebugMode, w.signs i = earlier ++ [.reply tool inDebugMode] →
        s.relay.closed = none →
          (s.state = (if inDebugMode then .stopped else .idle) ↔
            tool.notes = true ∨ Sign.marked earlier = inDebugMode) := by
  intro w
  have known := (run_kept host happenings).tracked i s here
  have state : s.state = .resolve s.relay.isClosed (Sign.marked (w.signs i)) := by
    rw [← known.flag]
    rfl
  refine ⟨state, fun nobody => ?_, fun earlier tool inDebugMode signs isOpen => ?_⟩
  · rw [known.replies, known.all_handed nobody]
  · rw [state, signs, Sign.marked_concat, Relay.isClosed, isOpen, Sign.mark]
    cases tool.notes <;> cases Sign.marked earlier <;> cases inDebugMode <;> decide

/-- A call of a tool that gets one reply. -/
def answered (c : ToolCall) (printed : String) : List Happening :=
  [.call c, .move (.relay 0 .receive) rfl, .move (.relay 0 (.output (utf8Bytes printed))) rfl,
    .move (.deliver 0) rfl]

def stoppedByCommand : List Happening :=
  .attach .pipe :: answered (.send (some "keyboard")) "debug> "

theorem state_stopped_after_command :
    ∃ s, ((start .bare).run stoppedByCommand).board.sessions[0]? = some s ∧
      s.state = .stopped := by
  obtain ⟨s, here⟩ : ∃ s, ((start .bare).run stoppedByCommand).board.sessions[0]? = some s :=
    Option.isSome_iff_exists.mp (by decide +kernel)
  have isOpen : (some s).map (·.relay.closed) = some none := by
    rw [← here]
    decide +kernel
  obtain ⟨_, _, last⟩ := state_follows_noted_replies .bare stoppedByCommand here
  exact ⟨s, here, (last [] (.send (some "keyboard")) true (by decide +kernel)
    (Option.some.inj isOpen)).mpr (Or.inl rfl)⟩

/-- The debugger is left by way of a tool that does not note its reply. -/
def quitByEvaluation : List Happening :=
  stoppedByCommand ++ answered (.evaluate "dbquit") "octave:2> "

theorem state_stopped_at_normal_prompt :
    ((start .bare).run quitByEvaluation).board.sessions.map
        (fun s => (s.state, s.relay.closed, s.relay.resolved.map Resolution.prompt?)) =
      [(.stopped, none, [some true, some false])] ∧
    ((start .bare).run quitByEvaluation).board.calls.length = 0 ∧
    ((Watched.start .bare).run quitByEvaluation).signs 0 =
      [.reply (.send (some "keyboard")) true, .reply (.evaluate "dbquit") false] := by
  refine ⟨by decide +kernel, by decide +kernel, by decide +kernel⟩

end PromptRelay.ToolServer
