import PromptRelay.Proofs.Callers
import PromptRelay.Proofs.DebugCommands
import PromptRelay.Proofs.StopTurns
import PromptRelay.Proofs.TurnTaking

namespace PromptRelay

open LineBuffer (joinLines joinLines_append)

namespace Relay

theorem dispatch_writes (r : Relay) : r.written <+: r.dispatch.written := by
  have one : ∀ (s : Relay) (q : Request) (rest : List Request), s.inFlight = none →
      r.written <+: s.written → r.written <+: (s.perform q).written := by
    intro s q _ _ kept
    rcases perform_cases s q with ⟨input, held, result, eq, _⟩ | ⟨input, eq⟩
    · rw [eq]
      exact kept
    · rw [eq]
      exact kept.trans (List.prefix_append _ _)
  obtain ⟨last, rest, eq, kept, _⟩ := dispatchFrom_induction (P := fun s _ => r.written <+: s.written)
    one r.queue List.prefix_rfl
  rw [dispatch, eq]
  exact kept

/-- What a relay has written stays written while it reads. -/
theorem output_writes (r : Relay) (chunk : List UInt8) : r.written <+: (r.output chunk).written := by
  rcases output_cases r chunk with eq | eq | ⟨rest, eq⟩
  · rw [eq]
  · rw [eq]
    exact dispatch_writes r
  · have same : ({ r with owesBlanks := false }.absorb rest).written = r.written := by
      unfold absorb complete resolve
      simp only
      split
      next => split <;> rfl
      next => rfl
    have dispatched := dispatch_writes ({ r with owesBlanks := false }.absorb rest)
    rw [same] at dispatched
    rw [eq]
    exact dispatched

end Relay

/-- A session after it has read pieces of output, whatever became of its process. -/
def Session.hear (x : Session) (outputs : List (List UInt8)) (process : Option Process) (sent : Nat) :
    Session :=
  { x with relay := outputs.foldl Relay.output x.relay, process, sent }

/-- The same for pieces of diagnostics. -/
def Session.notice (x : Session) (diagnostics : List (List UInt8)) (process : Option Process)
    (sent : Nat) : Session :=
  { x with
    scanner := (x.scanner.readAll diagnostics).1
    notices := x.notices ++ (x.scanner.readAll diagnostics).2
    process, sent }

/-- A process that runs and holds its pipes. -/
def Bearing.lives (b : Bearing) : Bool :=
  b.exit.isNone && b.holdsInput && b.holdsOutput && b.holdsDiagnostics

namespace Session

/-- What an exchange of a session with its process reads of the output and of the diagnostics: nothing while
a line is to go to it, and the diagnostics first. -/
def fetch (x : Session) : List UInt8 × List UInt8 :=
  match x.process, x.relay.written[x.sent]? with
  | some p, none => if p.shown.stderr.isEmpty then (p.shown.stdout, []) else ([], p.shown.stderr)
  | _, _ => ([], [])

/-- As long as a process lives, a session exchanges lines, output and diagnostics with it, and nothing
else. -/
theorem exchange_reads {x : Session} (running : x.exit = none) (isOpen : x.relay.closed = none)
    (lives : ∀ p ∈ x.process, p.shown.lives = true) :
    ∃ process sent,
      (x.fetch.2 = [] ∧ x.exchange?.getD x = x.hear (chunks x.fetch.1) process sent) ∨
      (x.fetch.1 = [] ∧ x.exchange?.getD x = x.notice (chunks x.fetch.2) process sent) := by
  have silent : chunks [] = [] := by
    unfold chunks
    rfl
  unfold exchange? fetch
  cases own : x.process with
  | none => exact ⟨x.process, x.sent, .inl ⟨rfl, by simp only [silent]; rfl⟩⟩
  | some p =>
    have stays := lives p own
    simp only [Bearing.lives, Bool.and_eq_true, Option.isNone_iff_eq_none] at stays
    obtain ⟨⟨⟨exit, input⟩, output⟩, diagnostics⟩ := stays
    simp only [Option.bind_eq_bind, Option.bind_some]
    cases next : x.relay.written[x.sent]? with
    | some line => exact ⟨_, _, .inl ⟨rfl, by simp only [silent]; rfl⟩⟩
    | none =>
      by_cases said : p.shown.stderr = []
      · by_cases printed : p.shown.stdout = []
        · refine ⟨x.process, x.sent, .inl ⟨by simp [said], ?_⟩⟩
          have idle : x.hear [] x.process x.sent = x := rfl
          simp [said, printed, silent, idle, running, exit, input, output, diagnostics, Relay.isClosed,
            isOpen]
        · exact ⟨_, _, .inl ⟨by simp [said], by simp [said, printed]; rfl⟩⟩
      · exact ⟨_, _, .inr ⟨by simp [said], by simp [said]; rfl⟩⟩

end Session

/-- A session whose stops are recorded, with a REPL that runs and was given so many commands since the
session was `x₀`. -/
structure Live (answers : Nat → Printout) (x₀ : Session) (tail : List UInt8) (x : Session)
    (read : List UInt8) (made : Nat) : Prop where
  recording : x.recording = true
  running : x.exit = none
  either : x.relay.mode = .either
  busy : x.relay.Busy
  orderly : x.relay.Orderly
  handed : x.delivered ≤ x.relay.resolved.length
  issued : x.relay.issued = x₀.relay.resolved.length + made
  heeds : ∃ done, x.relay.Heeds answers x₀.relay.resolved.length x₀.relay.written.length tail read done

namespace Live

variable {answers : Nat → Printout} {x₀ x : Session} {tail read : List UInt8} {made : Nat}

theorem isOpen (h : Live answers x₀ tail x read made) : x.relay.closed = none := by
  obtain ⟨_, heeds⟩ := h.heeds
  exact heeds.isOpen

theorem settled (h : Live answers x₀ tail x read made) :
    x.relay.resolved.length + x.relay.outstanding.length = x₀.relay.resolved.length + made := by
  have lengths := congrArg List.length h.orderly.tickets
  simpa [Relay.row, h.issued] using lengths

theorem resolved_le (h : Live answers x₀ tail x read made) :
    x.relay.resolved.length ≤ x₀.relay.resolved.length + made := by
  have all := h.settled
  omega

theorem written_le (h : Live answers x₀ tail x read made) :
    x.relay.written.length - x₀.relay.written.length ≤ made := by
  obtain ⟨done, heeds⟩ := h.heeds
  have all := h.settled
  have written := heeds.written
  have resolved := heeds.resolved
  simp only [Relay.outstanding, List.length_append] at all
  omega

/-- The next command is accepted under the next ticket. -/
theorem post (h : Live answers x₀ tail x read made) {command : String}
    (oneLine : Relay.breaksLine command = false) :
    ∃ relay, (x.relay.setMode .either).submit (some command) =
        .ok (relay, x₀.relay.resolved.length + made) ∧
      ∀ board, Live answers x₀ tail { x with relay, board } read (made + 1) := by
  obtain ⟨done, heeds⟩ := h.heeds
  obtain ⟨relay, posted, heeds, busy⟩ := heeds.post command
  have unbroken : (some command).filter Relay.breaksLine = none := by simp [oneLine]
  have accepted : x.relay.submit (some command) = .ok (relay, x.relay.issued) := by
    simp [Relay.submit, Relay.refusal?, h.isOpen, unbroken, posted]
  refine ⟨relay, by rw [Relay.setMode_either h.either, accepted, h.issued], fun board => ?_⟩
  obtain ⟨_, same⟩ := Relay.submit_posted accepted
  refine ⟨h.recording, h.running, ?_, busy h.busy, Relay.submit_orderly accepted h.orderly, ?_, ?_, _, heeds⟩
  · rw [same]
    exact h.either
  · rw [same]
    exact h.handed
  · rw [same, ← Nat.add_assoc, ← h.issued]

theorem act (h : Live answers x₀ tail x read made) {e : Relay.Event} (unasked : e.unasked = true)
    {read' : List UInt8}
    (heeds : ∃ done, (x.relay.act e).Heeds answers x₀.relay.resolved.length x₀.relay.written.length tail
      read' done ∧ (x.relay.act e).Busy) :
    Live answers x₀ tail { x with relay := x.relay.act e } read' made := by
  obtain ⟨done, heeds, busy⟩ := heeds
  have drifts := Relay.act_drifts x.relay unasked
  exact ⟨h.recording, h.running, drifts.mode.trans h.either, busy, drifts.orderly h.orderly,
    h.handed.trans drifts.settled.length_le, drifts.issued.trans h.issued, done, heeds⟩

theorem receive (h : Live answers x₀ tail x read made) :
    Live answers x₀ tail { x with relay := x.relay.receive } read made := by
  obtain ⟨done, heeds⟩ := h.heeds
  exact h.act (e := .receive) rfl ⟨done, heeds.receive h.busy⟩

theorem output (h : Live answers x₀ tail x read made) {chunk : List UInt8}
    (printed : read ++ chunk <+:
      tail ++ transcript answers (x.relay.written.length - x₀.relay.written.length)) :
    Live answers x₀ tail { x with relay := x.relay.output chunk } (read ++ chunk) made := by
  obtain ⟨done, heeds⟩ := h.heeds
  exact h.act (e := .output chunk) rfl (heeds.output h.either printed)

theorem output_all (h : Live answers x₀ tail x read made) {outputs : List (List UInt8)}
    (printed : read ++ outputs.flatten <+:
      tail ++ transcript answers (x.relay.written.length - x₀.relay.written.length)) :
    Live answers x₀ tail { x with relay := outputs.foldl Relay.output x.relay }
      (read ++ outputs.flatten) made := by
  induction outputs generalizing x read with
  | nil => simpa using h
  | cons chunk later ih =>
    rw [List.flatten_cons, ← List.append_assoc] at printed ⊢
    have now := h.output ((List.prefix_append _ _).trans printed)
    refine ih now (printed.trans ((List.prefix_append_right_inj tail).mpr (transcript_grows answers ?_)))
    have more := (Relay.output_writes x.relay chunk).length_le
    exact Nat.sub_le_sub_right more _

/-- What a session has to hand on is the reply to its next command. -/
theorem next_reply (h : Live answers x₀ tail x read made) {r : Resolution}
    (next : x.undelivered? = some r) {k : Nat} (handed : x.delivered = x₀.relay.resolved.length + k) :
    r.request.ticket = x₀.relay.resolved.length + k ∧
      ∃ reply, r.result = .ok reply ∧ (answers k).Fits reply := by
  obtain ⟨_, heeds⟩ := h.heeds
  refine ⟨(Switchboard.ticket_of_resolved h.orderly next).trans handed, heeds.replies k r ?_⟩
  rw [← handed]
  exact next

theorem undelivered_lt (h : Live answers x₀ tail x read made) {r : Resolution}
    (next : x.undelivered? = some r) : x.delivered < x₀.relay.resolved.length + made := by
  have place := (List.getElem?_eq_some_iff.mp next).1
  exact Nat.lt_of_lt_of_le place h.resolved_le

/-- When all that was printed was read and handed on, every command was answered. -/
theorem handed_all (h : Live answers x₀ tail x read made)
    (everything : tail ++ transcript answers (x.relay.written.length - x₀.relay.written.length) = read)
    (received : x.relay.mailbox = []) (nothing : x.undelivered? = none) :
    x.delivered = x₀.relay.resolved.length + made ∧
      x.relay.written.length - x₀.relay.written.length = made := by
  obtain ⟨done, heeds⟩ := h.heeds
  have nobody := heeds.finished h.busy everything received
  have all := h.settled
  have past : x.relay.resolved.length ≤ x.delivered := List.getElem?_eq_none_iff.mp nothing
  have handed := h.handed
  have written := heeds.written
  have resolved := heeds.resolved
  have idle : x.relay.inFlight = none := by
    simp only [Relay.outstanding, List.append_eq_nil_iff, Option.toList_eq_nil_iff] at nobody
    exact nobody.1.1
  rw [nobody, List.length_nil] at all
  rw [idle, Option.toList_none, List.length_nil] at written
  omega

end Live

/-- Where a session is with the stop of a turn while the turn lasts: the end of its banner is still to
be read, or its notice waits to be recorded, or it is on the board. -/
inductive Senses (p : Debuggee) (k : Nat) (count : UInt64) (scanner : StopScanner)
    (notices : List StopNotice) (board : StopBoard) (unread : List UInt8) : Prop where
  | ahead (due : (p.turns k).stops = true → unread ≠ []) (nothing : notices = [])
      (uncounted : board.count = count)
      (reads : scanner.Reads (p.since k ++ (p.turns k).lines) unread) :
      Senses p k count scanner notices board unread
  | found (stop : StopNotice) (told : p.Tells k (some stop)) (whole : unread = [])
      (one : notices = [stop]) (uncounted : board.count = count) (reads : scanner.Reads [] []) :
      Senses p k count scanner notices board unread
  | recorded (stop : StopNotice) (told : p.Tells k (some stop)) (whole : unread = [])
      (nothing : notices = []) (held : board = ⟨true, some stop, count + 1⟩)
      (reads : scanner.Reads [] []) : Senses p k count scanner notices board unread

namespace Senses

variable {p : Debuggee} {k : Nat} {count : UInt64} {x : Session} {scanner : StopScanner}
  {notices : List StopNotice} {board : StopBoard} {unread : List UInt8}

/-- A turn begins with all its lines to read. -/
theorem begin (reads : scanner.Reads (p.since k) unread) (nothing : notices = [])
    (uncounted : board.count = count) :
    Senses p k count scanner notices board (unread ++ joinLines (p.turns k).lines) := by
  refine .ahead (fun stops => ?_) nothing uncounted (reads.grow _)
  obtain ⟨b, prints⟩ := Option.isSome_iff_exists.mp stops
  have some : joinLines (p.turns k).lines ≠ [] := by
    simp [StopTurn.lines, prints, joinLines]
  exact fun none => some (List.append_eq_nil_iff.mp none).2

theorem readAll_nothing {chunks : List (List UInt8)} (reads : scanner.Reads [] [])
    (none : chunks.flatten = []) :
    (scanner.readAll chunks).2 = [] ∧ (scanner.readAll chunks).1.Reads [] [] := by
  have all : scanner.Reads [] (chunks.flatten ++ []) := by
    rw [none]
    exact reads
  exact all.readAll_quiet (List.forall_mem_nil _) StopScanner.quiet_nil

theorem notice {diagnostics : List (List UInt8)}
    (h : Senses p k count scanner notices board (diagnostics.flatten ++ unread)) :
    Senses p k count (scanner.readAll diagnostics).1 (notices ++ (scanner.readAll diagnostics).2) board
      unread := by
  cases h with
  | ahead due nothing uncounted reads =>
    rcases p.readAll_turn k reads due with ⟨more, silent, read⟩ | ⟨stop, told, whole, found, read⟩
    · exact .ahead more (by rw [nothing, silent, List.append_nil]) uncounted read
    · exact .found stop told whole (by rw [nothing, found, List.nil_append]) uncounted read
  | found stop told whole one uncounted reads =>
    obtain ⟨none, rest⟩ := List.append_eq_nil_iff.mp whole
    obtain ⟨silent, read⟩ := readAll_nothing reads none
    exact .found stop told rest (by rw [one, silent, List.append_nil]) uncounted read
  | recorded stop told whole nothing held reads =>
    obtain ⟨none, rest⟩ := List.append_eq_nil_iff.mp whole
    obtain ⟨silent, read⟩ := readAll_nothing reads none
    exact .recorded stop told rest (by rw [nothing, silent, List.append_nil]) held read

theorem record (h : Senses p k count x.scanner x.notices x.board unread) :
    Senses p k count x.record.scanner x.record.notices x.record.board unread := by
  cases h with
  | ahead due nothing uncounted reads =>
    have same : x.record = x := by simp only [Session.record, nothing]
    rw [same]
    exact .ahead due nothing uncounted reads
  | found stop told whole one uncounted reads =>
    simp only [Session.record, one]
    refine .recorded stop told whole rfl ?_ reads
    simp [StopBoard.record, StopBoard.bump, StopBoard.hold, StopBoard.markStopped, uncounted]
  | recorded stop told whole nothing held reads =>
    have same : x.record = x := by simp only [Session.record, nothing]
    rw [same]
    exact .recorded stop told whole nothing held reads

theorem newer_of_uncounted (uncounted : board.count = count) : board.newer? count = none := by
  simp [StopBoard.newer?, uncounted]

theorem newer_of_counted (stop : StopNotice) (room : count.toNat + 1 < UInt64.size) :
    (⟨true, some stop, count + 1⟩ : StopBoard).newer? count = some stop := by
  have later : count < count + 1 := by
    rw [UInt64.lt_iff_toNat_lt, UInt64.toNat_add, UInt64.toNat_one, Nat.mod_eq_of_lt room]
    omega
  simp [StopBoard.newer?, later]

/-- If there is a stop past the count of a call, it is the stop of the turn and is recorded. -/
theorem newer_cases (h : Senses p k count scanner notices board unread) :
    (board.newer? count = none ∧ Senses p k count scanner notices (board.noteReply true) unread) ∨
      ∃ stop, board.newer? count = some stop ∧ p.Tells k (some stop) ∧ unread = [] ∧ notices = [] ∧
        board = ⟨true, some stop, count + 1⟩ ∧ scanner.Reads [] [] := by
  cases h with
  | ahead due nothing uncounted reads =>
    exact Or.inl ⟨newer_of_uncounted uncounted, .ahead due nothing uncounted reads⟩
  | found stop told whole one uncounted reads =>
    exact Or.inl ⟨newer_of_uncounted uncounted, .found stop told whole one uncounted reads⟩
  | recorded stop told whole nothing held reads =>
    cases newer : board.newer? count with
    | none =>
      have still : board.noteReply true = ⟨true, some stop, count + 1⟩ := by
        rw [held]
        rfl
      exact Or.inl ⟨rfl, .recorded stop told whole nothing still reads⟩
    | some later =>
      have last := StopBoard.newer_eq_last newer
      rw [held] at last
      cases last
      exact Or.inr ⟨stop, rfl, told, whole, nothing, held, reads⟩

/-- In a turn without a stop nothing but its lines is found. -/
theorem of_quiet (h : Senses p k count scanner notices board unread)
    (quiet : (p.turns k).stops = false) :
    notices = [] ∧ board.count = count ∧ scanner.Reads (p.context k) unread := by
  have no_stop : ∀ {stop : StopNotice}, ¬p.Tells k (some stop) := by
    intro stop told
    have stops := Debuggee.stops_of_tells told
    rw [quiet] at stops
    cases stops
  cases h with
  | ahead due nothing uncounted reads =>
    have silent : (p.turns k).banner = none := by simpa [StopTurn.stops] using quiet
    have lines : p.since k ++ (p.turns k).lines = p.context k := by
      simp [StopTurn.lines, silent, Debuggee.context]
    exact ⟨nothing, uncounted, lines ▸ reads⟩
  | found stop told => exact absurd told no_stop
  | recorded stop told => exact absurd told no_stop

end Senses

end PromptRelay
