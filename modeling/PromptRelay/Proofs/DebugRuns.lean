import PromptRelay.Proofs.DebugSessions
import PromptRelay.Proofs.OwnMoves

namespace PromptRelay

/-- A call that came back, at a stop or at the normal prompt. -/
structure Episode where
  command : DebugCommand
  stop : Option StopNotice
  reply : Reply

/-- The last stop after these episodes, where `held` was it before them. -/
def lastStop (held : Option StopNotice) (episodes : List Episode) : Option StopNotice :=
  episodes.foldl (fun _ e => e.stop) held

/-- The answers of the episodes, each with the last stop before it. -/
def answersFrom (held : Option StopNotice) : List Episode → List Answer
  | [] => []
  | e :: later => e.command.answer held e.stop e.reply :: answersFrom e.stop later

theorem lastStop_concat (held : Option StopNotice) (episodes : List Episode) (e : Episode) :
    lastStop held (episodes ++ [e]) = e.stop := by
  simp [lastStop]

theorem answersFrom_concat (held : Option StopNotice) (episodes : List Episode) (e : Episode) :
    answersFrom held (episodes ++ [e]) =
      answersFrom held episodes ++ [e.command.answer (lastStop held episodes) e.stop e.reply] := by
  induction episodes generalizing held with
  | nil => rfl
  | cons first later ih =>
    rw [List.cons_append, answersFrom, answersFrom, ih first.stop]
    rfl

theorem length_answersFrom (held : Option StopNotice) (episodes : List Episode) :
    (answersFrom held episodes).length = episodes.length := by
  induction episodes generalizing held with
  | nil => rfl
  | cons first later ih => rw [answersFrom, List.length_cons, ih, List.length_cons]

/-- The results of calls that were numbered one after the other. -/
def numbered (started : Nat) (answers : List Answer) : List (Nat × Outcome) :=
  answers.mapIdx fun k answer => (started + k, .ok answer)

namespace ToolServer

def withSession (s : ToolServer) (i : Nat) (x : Session) : ToolServer :=
  { s with board := { s.board with sessions := s.board.sessions.set i x } }

/-- The tools with a live session at rest: nobody calls, all of its past was handed on and recorded, and
what was printed up to now was read, but for `tail`. -/
structure Ready (p : Debuggee) (i : Nat) (s : ToolServer) (x : Session) (tail : List UInt8) : Prop where
  current : s.current = some i
  free : s.launching = none
  nobody : s.board.calls = []
  here : s.board.sessions[i]? = some x
  recording : x.recording = true
  running : x.exit = none
  either : x.relay.mode = .either
  orderly : x.relay.Orderly
  rests : x.relay.Rests tail
  handed : x.delivered = x.relay.resolved.length
  nothing : x.notices = []
  reads : x.scanner.Reads p.earlier []

/-- The runs in which a program is run, continued and stepped by one call at a time, on a session whose
REPL prints what the debugged one does since the session was `x₀`. So much of its output and of its
diagnostics was read, in any pieces and in any order, whether they come from outside or from a process. No
wait for a stop runs out before the stop is there. -/
inductive Debugs (p : Debuggee) (i : Nat) (o : ToolServer) (x₀ : Session) (tail : List UInt8) :
    ToolServer → List DebugCommand → List UInt8 → List UInt8 → Prop where
  | start : Debugs p i o x₀ tail o [] [] []
  | call {s : ToolServer} {made : List DebugCommand} {read noticed : List UInt8} (c : DebugCommand)
      (oneLine : Relay.breaksLine c.line = false) (nobody : s.board.calls = []) :
      Debugs p i o x₀ tail s made read noticed →
      Debugs p i o x₀ tail (s.call c.toolCall) (made ++ [c]) read noticed
  | hears {s : ToolServer} {made : List DebugCommand} {read noticed : List UInt8} {x : Session}
      (e : Happening) (outputs : List (List UInt8)) (process : Option Process) (sent : Nat)
      (here : s.board.sessions[i]? = some x)
      (effect : s.happen e = s.withSession i (x.hear outputs process sent))
      (printed : read ++ outputs.flatten <+:
        tail ++ transcript p.answers (x.relay.written.length - x₀.relay.written.length)) :
      Debugs p i o x₀ tail s made read noticed →
      Debugs p i o x₀ tail (s.happen e) made (read ++ outputs.flatten) noticed
  | notices {s : ToolServer} {made : List DebugCommand} {read noticed : List UInt8} {x : Session}
      (e : Happening) (diagnostics : List (List UInt8)) (process : Option Process) (sent : Nat)
      (here : s.board.sessions[i]? = some x)
      (effect : s.happen e = s.withSession i (x.notice diagnostics process sent))
      (said : noticed ++ diagnostics.flatten <+:
        p.spoken (x.relay.written.length - x₀.relay.written.length)) :
      Debugs p i o x₀ tail s made read noticed →
      Debugs p i o x₀ tail (s.happen e) made read (noticed ++ diagnostics.flatten)
  | receive {s : ToolServer} {made : List DebugCommand} {read noticed : List UInt8} :
      Debugs p i o x₀ tail s made read noticed →
      Debugs p i o x₀ tail (s.happen (.move (.relay i .receive) rfl)) made read noticed
  | record {s : ToolServer} {made : List DebugCommand} {read noticed : List UInt8} :
      Debugs p i o x₀ tail s made read noticed →
      Debugs p i o x₀ tail (s.happen (.move (.record i) rfl)) made read noticed
  | deliver {s : ToolServer} {made : List DebugCommand} {read noticed : List UInt8} :
      Debugs p i o x₀ tail s made read noticed →
      Debugs p i o x₀ tail (s.happen (.move (.deliver i) rfl)) made read noticed
  | endWait {s : ToolServer} {made : List DebugCommand} {read noticed : List UInt8} (id : Nat) :
      Debugs p i o x₀ tail s made read noticed →
      Debugs p i o x₀ tail (s.happen (.move (.endWait id) rfl)) made read noticed
  | passTime {s : ToolServer} {made : List DebugCommand} {read noticed : List UInt8} (moment : Nat)
      (inTime : ∀ c ∈ s.board.calls, (Switchboard.deadline? c).any (· ≤ moment) = true →
        (s.board.stopFor? c).isSome = true) :
      Debugs p i o x₀ tail s made read noticed →
      Debugs p i o x₀ tail (s.happen (.move (.passTime moment) rfl)) made read noticed

/-- Where the calls are in turn `k`: nobody calls; or one waits for its reply; or it had its reply at the
debug prompt and waits for the stop. `first` requests were resolved before the turns; `held` and `count`
are what the board had between them. -/
inductive Stage (p : Debuggee) (i first k id : Nat) (held : Option StopNotice) (count : UInt64)
    (calls : List (Call Outcome)) (now : Nat) (x : Session) (unread : List UInt8) :
    List DebugCommand → Prop where
  | resting (nobody : calls = []) (handed : x.delivered = first + k) (nothing : x.notices = [])
      (last : x.board.last = held) (counted : x.board.count = count)
      (noted : k ≠ 0 → x.board.debugging = held.isSome) (reads : x.scanner.Reads (p.since k) unread) :
      Stage p i first k id held count calls now x unread []
  | asked (c : DebugCommand)
      (waits : calls = [⟨id, i, .reply (first + k) (c.onReply count held)⟩])
      (handed : x.delivered = first + k)
      (senses : Senses p k count x.scanner x.notices x.board unread) :
      Stage p i first k id held count calls now x unread [c]
  | stopping (c : DebugCommand) (reply : Reply) (deadline : Nat)
      (fits : (p.answers k).Fits reply) (stops : (p.turns k).stops = true)
      (waits : calls = [⟨id, i, .stop count deadline (c.onStop held reply)⟩])
      (handed : x.delivered = first + k + 1) (debugging : x.board.debugging = true)
      (inTime : deadline ≤ now → (x.board.newer? count).isSome = true)
      (senses : Senses p k count x.scanner x.notices x.board unread) :
      Stage p i first k id held count calls now x unread [c]

/-- What holds in a run from a ready state: the episodes are over, and one more call may be under way. -/
structure Traced (p : Debuggee) (i : Nat) (o : ToolServer) (x₀ : Session) (tail : List UInt8)
    (s : ToolServer) (made : List DebugCommand) (read noticed : List UInt8) (x : Session)
    (episodes : List Episode) (underway : List DebugCommand) (unread : List UInt8) (count : UInt64) :
    Prop where
  here : s.board.sessions[i]? = some x
  current : s.current = some i
  free : s.launching = none
  started : s.board.started = o.board.started + made.length
  results : s.board.results =
    o.board.results ++ numbered o.board.started (answersFrom x₀.board.last episodes)
  live : Live p.answers x₀ tail x read made.length
  commands : made = episodes.map (·.command) ++ underway
  heard : noticed ++ unread = p.spoken made.length
  told : ∀ k e, episodes[k]? = some e → p.Tells k e.stop ∧ (p.answers k).Fits e.reply
  counted : count = x₀.board.count + UInt64.ofNat (p.stopCount episodes.length)
  stage : Stage p i x₀.relay.resolved.length episodes.length (o.board.started + episodes.length)
    (lastStop x₀.board.last episodes) count s.board.calls s.board.now x unread underway

variable {p : Debuggee} {i : Nat} {o s : ToolServer} {x₀ x : Session} {made : List DebugCommand}
  {tail read noticed unread : List UInt8} {episodes : List Episode} {underway : List DebugCommand}
  {count : UInt64}

theorem chunks_flatten (bytes : List UInt8) : (chunks bytes).flatten = bytes := by
  fun_induction chunks bytes with
  | case1 => rfl
  | case2 bytes nonempty ih => rw [List.flatten_cons, ih, List.take_append_drop]

theorem Ready.live (h : Ready p i o x₀ tail) : Live p.answers x₀ tail x₀ [] 0 := by
  obtain ⟨heeds, busy⟩ := h.rests.heeds p.answers
  have issued := congrArg List.length h.orderly.tickets
  simp only [Relay.row, h.rests.nobody, List.append_nil, List.length_map, List.length_range] at issued
  exact ⟨h.recording, h.running, h.either, busy, h.orderly, h.handed.le, issued.symm, 0, heeds⟩

theorem Ready.traced (h : Ready p i o x₀ tail) :
    Traced p i o x₀ tail o [] [] [] x₀ [] [] [] x₀.board.count where
  here := h.here
  current := h.current
  free := h.free
  started := rfl
  results := (List.append_nil _).symm
  live := h.live
  commands := rfl
  heard := rfl
  told := by simp
  counted := (UInt64.add_zero _).symm
  stage := .resting h.nobody h.handed h.nothing rfl rfl (fun first => absurd rfl first) h.reads

/-- Something that only the session goes through. -/
theorem Traced.session (h : Traced p i o x₀ tail s made read noticed x episodes underway unread count)
    {y : Session} {read' noticed' unread' : List UInt8}
    (live : Live p.answers x₀ tail y read' made.length)
    (heard : noticed' ++ unread' = p.spoken made.length)
    (stage : Stage p i x₀.relay.resolved.length episodes.length (o.board.started + episodes.length)
      (lastStop x₀.board.last episodes) count s.board.calls s.board.now y unread' underway) :
    Traced p i o x₀ tail (s.withSession i y) made read' noticed' y episodes underway unread' count := by
  have place := (List.getElem?_eq_some_iff.mp h.here).1
  refine { h with here := ?_, live := live, heard := heard, stage := stage }
  simp [withSession, place]

/-- What a relay or a process goes through leaves the calls where they are. -/
theorem Stage.relay {first k id now : Nat} {held : Option StopNotice} {calls : List (Call Outcome)}
    (h : Stage p i first k id held count calls now x unread underway) (relay : Relay)
    (process : Option Process) (sent : Nat) :
    Stage p i first k id held count calls now { x with relay, process, sent } unread underway := by
  cases h with
  | resting nobody handed nothing last counted noted reads =>
    exact .resting nobody handed nothing last counted noted reads
  | asked c waits handed senses => exact .asked c waits handed senses
  | stopping c reply deadline fits stops waits handed debugging inTime senses =>
    exact .stopping c reply deadline fits stops waits handed debugging inTime senses

theorem Traced.receive (h : Traced p i o x₀ tail s made read noticed x episodes underway unread count) :
    Traced p i o x₀ tail (s.happen (.move (.relay i .receive) rfl)) made read noticed
      { x with relay := x.relay.receive } episodes underway unread count := by
  have moved : s.happen (.move (.relay i .receive) rfl) =
      s.withSession i { x with relay := x.relay.receive } := by
    simp only [happen, Switchboard.make, Switchboard.modify, modify_of_here h.here, withSession,
      Relay.act]
  rw [moved]
  exact h.session h.live.receive h.heard (h.stage.relay _ x.process x.sent)

theorem Traced.hear (h : Traced p i o x₀ tail s made read noticed x episodes underway unread count)
    {outputs : List (List UInt8)} (process : Option Process) (sent : Nat)
    (printed : read ++ outputs.flatten <+:
      tail ++ transcript p.answers (x.relay.written.length - x₀.relay.written.length)) :
    Traced p i o x₀ tail (s.withSession i (x.hear outputs process sent)) made (read ++ outputs.flatten)
      noticed (x.hear outputs process sent) episodes underway unread count := by
  have live := h.live.output_all printed
  exact h.session { live with } h.heard (h.stage.relay _ process sent)

theorem Traced.notice (h : Traced p i o x₀ tail s made read noticed x episodes underway unread count)
    {diagnostics : List (List UInt8)} (process : Option Process) (sent : Nat)
    (said : noticed ++ diagnostics.flatten <+:
      p.spoken (x.relay.written.length - x₀.relay.written.length)) :
    ∃ rest, Traced p i o x₀ tail (s.withSession i (x.notice diagnostics process sent)) made read
      (noticed ++ diagnostics.flatten) (x.notice diagnostics process sent) episodes underway rest
      count := by
  obtain ⟨rest, spoken⟩ := said.trans (p.spoken_grows h.live.written_le)
  have split : unread = diagnostics.flatten ++ rest := by
    rw [← h.heard, List.append_assoc] at spoken
    exact (List.append_cancel_left spoken).symm
  subst split
  refine ⟨rest, h.session { h.live with } spoken ?_⟩
  cases h.stage with
  | resting nobody handed nothing last counted noted reads =>
    obtain ⟨silent, read⟩ := reads.readAll_quiet (p.whole_since _) (p.quiet_since _)
    refine .resting nobody handed ?_ last counted noted read
    simp only [Session.notice, nothing, silent, List.append_nil]
  | asked c waits handed senses => exact .asked c waits handed senses.notice
  | stopping c reply deadline fits stops waits handed debugging inTime senses =>
    exact .stopping c reply deadline fits stops waits handed debugging inTime senses.notice

theorem Stage.record {first k id now : Nat} {held : Option StopNotice} {calls : List (Call Outcome)}
    (h : Stage p i first k id held count calls now x unread underway) :
    Stage p i first k id held count calls now x.record unread underway := by
  have idle : x.notices = [] → x.record = x := fun nothing => by
    simp only [Session.record, nothing]
  have handed : x.record.delivered = x.delivered := by
    unfold Session.record
    split <;> rfl
  cases h with
  | resting nobody handed nothing last counted noted reads =>
    rw [idle nothing]
    exact .resting nobody handed nothing last counted noted reads
  | asked c waits given senses => exact .asked c waits (handed.trans given) senses.record
  | stopping c reply deadline fits stops waits given debugging inTime senses =>
    cases senses with
    | ahead due nothing uncounted reads =>
      rw [idle nothing]
      exact .stopping c reply deadline fits stops waits given debugging inTime
        (.ahead due nothing uncounted reads)
    | found stop told whole one uncounted reads =>
      -- The wait is not over yet, since the stop was not there before.
      have early : deadline ≤ now → (x.record.board.newer? count).isSome = true := by
        intro late
        have there := inTime late
        rw [Senses.newer_of_uncounted uncounted] at there
        cases there
      have on : x.record.board.debugging = true := by
        simp only [Session.record, one]
        rfl
      have found : Senses p k count x.scanner x.notices x.board unread :=
        .found stop told whole one uncounted reads
      exact .stopping c reply deadline fits stops waits (handed.trans given) on early found.record
    | recorded stop told whole nothing held reads =>
      rw [idle nothing]
      exact .stopping c reply deadline fits stops waits given debugging inTime
        (.recorded stop told whole nothing held reads)

theorem Traced.record (h : Traced p i o x₀ tail s made read noticed x episodes underway unread count) :
    Traced p i o x₀ tail (s.happen (.move (.record i) rfl)) made read noticed x.record episodes underway
      unread count := by
  have moved : s.happen (.move (.record i) rfl) = s.withSession i x.record := by
    simp only [happen, Switchboard.make, Switchboard.modify, modify_of_here h.here, withSession,
      h.live.recording, if_true]
  have live : Live p.answers x₀ tail x.record read made.length := by
    unfold Session.record
    split
    next => exact h.live
    next => exact { h.live with }
  rw [moved]
  exact h.session live h.heard h.stage.record

end ToolServer

end PromptRelay
