import PromptRelay.Proofs.OneInFlight
import PromptRelay.Proofs.ReachedRelays

namespace PromptRelay

open LineBuffer (newline pieces joinLines)

namespace Relay

theorem breaksLine_eq_false {line : String} (h : breaksLine line = false) :
    '\n' ∉ line.toList ∧ '\r' ∉ line.toList := by
  have none := List.any_eq_false.mp h
  exact ⟨fun mem => none _ mem (by decide), fun mem => none _ mem (by decide)⟩

/-- No request that was let in has a line break in its line. -/
def Unbroken (r : Relay) : Prop := ∀ q ∈ r.row, q.line.filter breaksLine = none

theorem act_unbroken (r : Relay) (e : Event) (h : r.Unbroken) : (r.act e).Unbroken := by
  intro q mem
  rcases act_cases r e with kept | ⟨line, row, _, _, unbroken⟩
  · exact h q (kept.row ▸ mem)
  · rw [row] at mem
    rcases List.mem_append.mp mem with old | new
    · exact h q old
    · rw [List.mem_singleton.mp new]
      exact unbroken

theorem taken_sublist_row (r : Relay) : r.taken.Sublist r.row :=
  (List.filter_sublist.map _).append (List.sublist_append_of_sublist_left
    (List.sublist_append_left _ _))

/-- Only the end of the output, when it is told, closes a relay. -/
theorem announce_of_closes {r : Relay} {e : Event} {reason : String} (isOpen : r.closed = none)
    (closes : (r.act e).closed = some reason) : ∃ told, e = .announce told := by
  have stays : ∀ {s : Relay}, s.closed = r.closed → s.closed ≠ some reason := by
    intro s same told
    rw [same, isOpen] at told
    cases told
  cases e with
  | post line =>
    refine absurd closes (stays ?_)
    rcases accept_cases r line with eq | ⟨_, _, eq⟩ <;> rw [act, eq]
  | receive => exact absurd closes (stays (receive_sameSetting r).closed)
  | output chunk => exact absurd closes (stays (output_sameSetting r chunk).closed)
  | setMode mode => exact absurd closes (stays rfl)
  | turnInput input =>
    refine absurd closes (stays ?_)
    simp only [act, turnInput]
    split <;> rfl
  | announce told => exact ⟨told, rfl⟩
  | shut =>
    refine absurd closes (stays ?_)
    simp only [act, shut]
    split <;> rfl
  | drain =>
    refine absurd closes (stays ?_)
    simp only [act, drain]
    split <;> rfl

/-- Who was let in before the end stays in the row, in front of those who come late. -/
theorem Ended.row_prefix {r t : Relay} {reason : String} (h : Ended r reason t) : r.row <+: t.row := by
  obtain ⟨late, ⟨waiting, resolved⟩ | ⟨_, nobody, resolved⟩⟩ := h.settled
  · exact ⟨late, by simp [row, waiting, resolved]⟩
  · exact ⟨late, by simp [row, nobody, resolved, refusals, Function.comp_def]⟩

/-- From an open state on a relay is open, or it ended from the last state in which it was. -/
theorem Follows.open_or_ended {r s : Relay} (follows : Follows r s) (isOpen : r.closed = none) :
    ∃ last, Follows r last ∧ last.closed = none ∧ (s = last ∨ ∃ reason, Ended last reason s) := by
  obtain ⟨events, rfl⟩ := follows
  induction events using List.reverseRecOn with
  | nil => exact ⟨r, .refl r, isOpen, .inl rfl⟩
  | append_singleton events e ih =>
    obtain ⟨last, reached, stillOpen, same | ⟨reason, ended⟩⟩ := ih
    · have step : r.after (events ++ [e]) = last.act e := by
        rw [after_append, same]
        rfl
      rw [step]
      cases closes : (last.act e).closed with
      | none => exact ⟨last.act e, reached.trans (act_follows last e), closes, .inl rfl⟩
      | some reason =>
        obtain ⟨told, rfl⟩ := announce_of_closes stillOpen closes
        exact ⟨last, reached, stillOpen, .inr ⟨told, announce_ended stillOpen told⟩⟩
    · rw [after_append]
      exact ⟨last, reached, stillOpen, .inr ⟨reason, ended.act e⟩⟩

theorem Reached.open_or_ended {r : Relay} (h : Reached r) :
    ∃ last, last.Reached ∧ last.closed = none ∧ (r = last ∨ ∃ reason, Ended last reason r) := by
  obtain ⟨input, events, rfl⟩ := h
  have fresh : (start input).closed = none := rfl
  obtain ⟨last, follows, isOpen, goesOn⟩ := Follows.open_or_ended ⟨events, rfl⟩ fresh
  exact ⟨last, (start_reached input).follows follows, isOpen, goesOn⟩

/-- What the REPL reads: each line that was written, and a newline. -/
def stdin (r : Relay) : List UInt8 := r.written.flatMap fun line => utf8Bytes line ++ [newline]

theorem pieces_stdin {r : Relay} (whole : ∀ line ∈ r.written, '\n' ∉ line.toList) :
    pieces r.stdin = r.written.map utf8Bytes ++ [[]] := by
  have joined : r.stdin = joinLines (r.written.map utf8Bytes) ++ [] := by
    rw [stdin, joinLines, List.flatMap_map, List.append_nil]
  rw [joined, LineBuffer.pieces_joinLines, LineBuffer.pieces_whole List.not_mem_nil]
  intro bytes mem
  obtain ⟨line, written, rfl⟩ := List.mem_map.mp mem
  exact LineBuffer.newline_not_mem_utf8Bytes (whole line written)

/-- The lines of an open relay were let in, so none of them is broken. -/
theorem Exclusive.written_unbroken {r : Relay} (h : Exclusive r) (unbroken : r.Unbroken) :
    ∀ line ∈ r.written, '\n' ∉ line.toList ∧ '\r' ∉ line.toList := by
  intro line mem
  rw [h.lines] at mem
  obtain ⟨q, taken, own⟩ := List.mem_filterMap.mp mem
  have admitted := unbroken q (r.taken_sublist_row.subset taken)
  rw [own] at admitted
  exact breaksLine_eq_false (by simpa using admitted)

end Relay

/-- The relays that come up in a run: that of one session with callers of any kind, or one of those
that the tools work on. -/
inductive OfRun : Relay → Prop where
  | single {α : Type} (input : InputEnd) (moves : List (Switchboard.Move α)) {r : Relay}
    (here : ((Switchboard.single input).run moves).relayAt 0 = some r) : OfRun r
  | tools (host : Host) (happenings : List ToolServer.Happening) (session : Nat)
    {r : Relay}
    (here : ((ToolServer.start host).run happenings).board.relayAt session = some r) : OfRun r

theorem OfRun.reached {r : Relay} (h : OfRun r) : r.Reached := by
  cases h with
  | single input moves here => exact ((Switchboard.single_reached input).run moves).relayAt here
  | tools host happenings session here =>
    exact (ToolServer.run_reached host happenings).relayAt here

/-- Whatever callers ask for, and whatever the REPL prints: what it reads is the commands that it was
given, in the order in which they were submitted, one line each. These are the commands that had
their reply or waited for it while the relay was open; a flush, and a command that was refused, add
nothing. No command breaks its line, so the lines that the REPL reads are the commands again. -/
theorem each_command_is_one_line {r : Relay} (run : OfRun r) :
    ∃ last : Relay, last.closed = none ∧ (r = last ∨ ∃ reason, Relay.Ended last reason r) ∧
      last.taken.Sublist r.row ∧ r.row.map (·.ticket) = List.range r.issued ∧
      let commands := last.taken.filterMap (·.line)
      (∀ command ∈ commands, '\n' ∉ command.toList ∧ '\r' ∉ command.toList) ∧
      r.stdin = commands.flatMap (fun command => utf8Bytes command ++ [newline]) ∧
      pieces r.stdin = commands.map utf8Bytes ++ [[]] ∧
      (pieces r.stdin).map (fun line => String.ofList (decodeLossy line)) = commands ++ [""] := by
  have reached := run.reached
  obtain ⟨last, ⟨input, events, rfl⟩, isOpen, goesOn⟩ := reached.open_or_ended
  have exclusive := (Relay.after_steady input events isOpen).1
  have unbroken : ((Relay.start input).after events).Unbroken :=
    Relay.after_induction Relay.act_unbroken events fun q mem => by cases mem
  have whole := exclusive.written_unbroken unbroken
  have tickets : r.row.map (·.ticket) = List.range r.issued := by
    obtain ⟨input, events, rfl⟩ := reached
    exact (Relay.after_orderly events (Relay.start_orderly input)).tickets
  generalize (Relay.start input).after events = last at *
  have same : r.written = last.written ∧ last.row <+: r.row := by
    rcases goesOn with rfl | ⟨reason, ended⟩
    · exact ⟨rfl, List.prefix_rfl⟩
    · exact ⟨ended.written, ended.row_prefix⟩
  obtain ⟨written, row⟩ := same
  have cut : pieces r.stdin = r.written.map utf8Bytes ++ [[]] :=
    Relay.pieces_stdin (written ▸ fun line mem => (whole line mem).1)
  have read : (pieces r.stdin).map (fun line => String.ofList (decodeLossy line)) = r.written ++ [""] := by
    rw [cut, List.map_append, List.map_map]
    have back : ∀ line, ((fun line => String.ofList (decodeLossy line)) ∘ utf8Bytes) line = line := by
      intro line
      rw [Function.comp_apply, decodeLossy_utf8Bytes, String.ofList_toList]
    rw [funext back, List.map_id']
    rfl
  refine ⟨last, isOpen, goesOn, last.taken_sublist_row.trans row.sublist, tickets, ?_⟩
  rw [← exclusive.lines, ← written]
  exact ⟨written ▸ whole, rfl, cut, read⟩

/-- A command with a second line in it, then one that has a single line. -/
theorem refused_command_adds_no_line :
    ∃ r, ((ToolServer.start .bare).run [.attach .pipe, .call (.send (some "x\nquit")),
        .call (.evaluate "y"), .move (.relay 0 .receive) rfl]).board.relayAt 0 = some r ∧
      pieces r.stdin = [utf8Bytes "y", []] := by
  obtain ⟨r, here⟩ : ∃ r, ((ToolServer.start .bare).run [.attach .pipe,
      .call (.send (some "x\nquit")), .call (.evaluate "y"),
      .move (.relay 0 .receive) rfl]).board.relayAt 0 = some r :=
    Option.isSome_iff_exists.mp (by decide +kernel)
  have known : (some r).map (fun r => (r.closed, r.taken.filterMap (·.line))) = some (none, ["y"]) := by
    rw [← here]
    decide +kernel
  obtain ⟨isOpen, commands⟩ := Prod.mk.inj (Option.some.inj known)
  obtain ⟨last, _, goesOn, _, _, _, _, cut, _⟩ := each_command_is_one_line (.tools _ _ 0 here)
  rcases goesOn with rfl | ⟨reason, ended⟩
  · refine ⟨r, here, ?_⟩
    rw [cut, commands]
    rfl
  · rw [ended.closed] at isOpen
    cases isOpen

end PromptRelay
