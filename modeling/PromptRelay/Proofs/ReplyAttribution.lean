import PromptRelay.Proofs.Callers
import PromptRelay.Proofs.Conversation

namespace PromptRelay.Switchboard

/-- The runs in which callers submit commands, each one line, and the REPL prints the next printout
for each line that was written to it. Its output is read in any pieces, between any other turns. -/
inductive Converses (printouts : Nat → Printout) :
    Desk → List String → List Nat → List UInt8 → Prop where
  | start : Converses printouts (single .pipe) [] [] []
  | call {b : Desk} {commands : List String} {gone : List Nat} {read : List UInt8} (command : String)
      (oneLine : Relay.breaksLine command = false) :
      Converses printouts b commands gone read →
      Converses printouts (b.turn (.call (some command))) (commands ++ [command]) gone read
  | cancel {b : Desk} {commands : List String} {gone : List Nat} {read : List UInt8} (id : Nat) :
      Converses printouts b commands gone read →
      Converses printouts (b.turn (.cancel id)) commands (gone ++ [id]) read
  | deliver {b : Desk} {commands : List String} {gone : List Nat} {read : List UInt8} :
      Converses printouts b commands gone read →
      Converses printouts (b.turn .deliver) commands gone read
  | receive {b : Desk} {commands : List String} {gone : List Nat} {read : List UInt8} :
      Converses printouts b commands gone read →
      Converses printouts (b.turn (.relay .receive)) commands gone read
  | setMode {b : Desk} {commands : List String} {gone : List Nat} {read : List UInt8} (mode : Mode) :
      Converses printouts b commands gone read →
      Converses printouts (b.turn (.relay (.setMode mode))) commands gone read
  | output {b : Desk} {commands : List String} {gone : List Nat} {read : List UInt8} {r : Relay}
      (chunk : List UInt8) (here : b.relayAt 0 = some r) (nonempty : chunk ≠ [])
      (printed : read ++ chunk <+: transcript printouts r.written.length)
      (admits : r.Admits printouts (read ++ chunk)) :
      Converses printouts b commands gone read →
      Converses printouts (b.turn (.relay (.output chunk))) commands gone (read ++ chunk)

/-- The tickets of a run are the places of its commands. -/
structure Attends (printouts : Nat → Printout) (b : Desk) (s : Session) (commands : List String)
    (gone : List Nat) (read : List UInt8) : Prop where
  served : Served b s ((List.range commands.length).map some) gone
  talks : Relay.Talks printouts s.relay commands read
  busy : s.relay.Busy

variable {printouts : Nat → Printout} {b : Desk} {s : Session} {commands : List String}
  {gone : List Nat} {read : List UInt8}

theorem Attends.call (h : Attends printouts b s commands gone read) {command : String}
    (oneLine : Relay.breaksLine command = false) :
    ∃ s', Attends printouts (b.turn (.call (some command))) s' (commands ++ [command]) gone read := by
  obtain ⟨relay, posted, talks, busy⟩ := h.talks.post h.served.orderly command
  have unbroken : (some command).filter Relay.breaksLine = none := by simp [oneLine]
  have accepted : s.relay.submit (some command) = .ok (relay, commands.length) := by
    simp [Relay.submit, Relay.refusal?, h.talks.isOpen, unbroken, posted]
  obtain ⟨served, _⟩ := h.served.awaitTicket unbroken posted
  refine ⟨{ s with relay }, ?_, talks, busy h.busy⟩
  simp only [turn, call_eq h.served.alone, accepted, List.length_append, List.length_singleton,
    List.range_succ, List.map_append]
  exact served

theorem Attends.relay (h : Attends printouts b s commands gone read) (event : Relay.Event)
    {read' : List UInt8}
    (kept : Relay.Talks printouts (s.relay.act event) commands read' ∧ (s.relay.act event).Busy) :
    Attends printouts (b.turn (.relay event)) { s with relay := s.relay.act event } commands gone
      read' :=
  ⟨h.served.relay_turn event, kept.1, kept.2⟩

theorem converses_attends (run : Converses printouts b commands gone read) :
    ∃ s, Attends printouts b s commands gone read := by
  induction run with
  | start =>
    obtain ⟨talks, busy⟩ := Relay.start_talks printouts
    exact ⟨_, single_served .pipe, talks, busy⟩
  | call command oneLine _ ih =>
    obtain ⟨s, h⟩ := ih
    exact h.call oneLine
  | cancel id _ ih =>
    obtain ⟨s, h⟩ := ih
    exact ⟨s, h.served.cancel_turn id, h.talks, h.busy⟩
  | deliver _ ih =>
    obtain ⟨s, h⟩ := ih
    exact ⟨_, h.served.deliver_turn, h.talks, h.busy⟩
  | receive _ ih =>
    obtain ⟨s, h⟩ := ih
    exact ⟨_, h.relay .receive (h.talks.receive h.busy)⟩
  | setMode mode _ ih =>
    obtain ⟨s, h⟩ := ih
    exact ⟨_, h.relay (.setMode mode) ⟨h.talks.setMode mode, h.busy⟩⟩
  | @output _ _ _ _ r chunk here _ printed admits _ ih =>
    obtain ⟨s, h⟩ := ih
    have same : s.relay = r := by simpa [relayAt, h.served.alone] using here
    subst same
    exact ⟨_, h.relay (.output chunk) (h.talks.output printed admits)⟩

theorem place_of_ticket {count id t : Nat}
    (h : ((List.range count).map some)[id]? = some (some t)) : id = t ∧ id < count := by
  rw [List.getElem?_map] at h
  obtain ⟨n, hn, eq⟩ := Option.map_eq_some_iff.mp h
  obtain ⟨bound, place⟩ := List.getElem?_eq_some_iff.mp hn
  rw [List.getElem_range] at place
  cases eq
  exact ⟨place, by simpa using bound⟩

/-- However the output was cut: the commands are written in their order, each once, and every result
is the reply to its own command. When nothing is left to do, every command was written and everybody
who still waited has the reply. -/
theorem replies_reach_their_callers (printouts : Nat → Printout) {b : Desk} {commands : List String}
    {gone : List Nat} {read : List UInt8} (run : Converses printouts b commands gone read) :
    ∃ s, b.sessions = [s] ∧ s.relay.written <+: commands ∧
      (b.results.map (·.1)).Nodup ∧
      (∀ x ∈ b.results, x.1 < s.relay.written.length ∧
        ∃ reply, x.2 = .ok reply ∧ (printouts x.1).Fits reply) ∧
      (s.relay.mailbox = [] → transcript printouts s.relay.written.length = read →
        s.delivered = s.relay.resolved.length →
          s.relay.written = commands ∧
          ∀ id < commands.length, id ∉ gone →
            ∃ reply, (id, .ok reply) ∈ b.results ∧ (printouts id).Fits reply) := by
  obtain ⟨s, h⟩ := converses_attends run
  have own : ∀ x ∈ b.results, x.1 < s.relay.written.length ∧
      ∃ reply, x.2 = .ok reply ∧ (printouts x.1).Fits reply := by
    intro x hx
    rcases h.served.ended x hx with ⟨t, y, ht, hy, result⟩ | ⟨away, _⟩
    · obtain rfl := (place_of_ticket ht).1
      obtain ⟨reply, ok, fits⟩ := h.talks.replies x.1 y hy
      have settled := (List.getElem?_eq_some_iff.mp hy).1
      exact ⟨by rw [h.talks.written_length]; omega, reply, result.trans ok, fits⟩
    · simp [List.getElem?_map] at away
  refine ⟨s, h.served.alone, ?_, (List.nodup_append.mp h.served.once).2.1, own, ?_⟩
  · rw [h.talks.written]
    exact List.take_prefix _ _
  · intro received everything handed
    have nobody := h.talks.finished h.busy everything received
    have all := h.talks.row_length
    rw [nobody, List.length_nil, Nat.add_zero] at all
    have idle : s.relay.inFlight = none := by
      have parts := nobody
      simp only [Relay.outstanding, List.append_eq_nil_iff, Option.toList_eq_nil_iff] at parts
      exact parts.1.1
    refine ⟨by simp [h.talks.written, idle, all], fun id below stays => ?_⟩
    have entered := h.served.entered
    simp only [List.length_map, List.length_range] at entered
    have result := h.served.settled nobody handed (entered ▸ below) stays
    obtain ⟨x, hx, rfl⟩ := List.mem_map.mp result
    obtain ⟨_, reply, ok, fits⟩ := own x hx
    exact ⟨reply, ok ▸ hx, fits⟩

def sameAnswer : Printout where
  body := [utf8Bytes "  x = 1"]
  prompt := .debug false
  space := true
  newline := true
  whole := by decide +kernel
  plain := by
    rintro line mem ⟨p, rest, eq⟩
    rw [List.mem_singleton.mp mem] at eq
    have shown : (LineBuffer.decodeLine (utf8Bytes "  x = 1")).toList.dropWhile isSpaceOrTab =
        ['x', ' ', '=', ' ', '1'] := by decide +kernel
    rw [shown] at eq
    cases p with
    | debug colon => exact absurd (List.cons.inj eq).1 (by decide)
    | normal number digits => exact absurd (List.cons.inj eq).1 (by decide)
  debugOnly := fun _ => rfl

/-- Two commands at once, the answers read in three pieces. -/
def twoTurns : List Turn :=
  [.call (some "x"), .call (some "x"), .relay .receive,
    .relay (.output (utf8Bytes "  x = 1\ndebug>")), .relay .receive,
    .relay (.output (utf8Bytes " \n  x =")), .relay (.output (utf8Bytes " 1\ndebug> \n")), .deliver,
    .deliver]

theorem converses_twoTurns :
    Converses (fun _ => sameAnswer) ((single .pipe).play twoTurns) ["x", "x"] []
      (utf8Bytes "  x = 1\ndebug>" ++ utf8Bytes " \n  x =" ++ utf8Bytes " 1\ndebug> \n") := by
  have asked : Converses (fun _ => sameAnswer) _ _ _ _ := .call "x" rfl (.call "x" rfl .start)
  have first := Converses.output (utf8Bytes "  x = 1\ndebug>") rfl (by decide +kernel)
    (by decide +kernel) (fun _ _ _ => rfl) asked.receive
  have between := Converses.output (utf8Bytes " \n  x =") rfl (by decide +kernel)
    (by decide +kernel) (fun _ _ _ => rfl) first.receive
  have second := Converses.output (utf8Bytes " 1\ndebug> \n") rfl (by decide +kernel)
    (by decide +kernel) (fun _ _ _ => rfl) between
  exact second.deliver.deliver

theorem replies_reach_two_callers :
    (∃ reply, (0, .ok reply) ∈ ((single .pipe).play twoTurns).results ∧ sameAnswer.Fits reply) ∧
      ∃ reply, (1, .ok reply) ∈ ((single .pipe).play twoTurns).results ∧
        sameAnswer.Fits reply := by
  obtain ⟨s, alone, _, _, _, settled⟩ :=
    replies_reach_their_callers (fun _ => sameAnswer) converses_twoTurns
  cases alone
  obtain ⟨_, served⟩ := settled rfl (by decide +kernel) rfl
  exact ⟨served 0 Nat.zero_lt_two List.not_mem_nil, served 1 Nat.one_lt_two List.not_mem_nil⟩

end PromptRelay.Switchboard
