import PromptRelay.Proofs.CallFrames
import PromptRelay.Proofs.Exchanges
import PromptRelay.Proofs.LeavingCallers
import PromptRelay.Proofs.LinesSince

namespace PromptRelay

namespace Session

/-- The requests whose results were handed over since a session was `x`, each with its result. -/
def handedSince (x y : Session) : List (Option String × Except Fault Reply) :=
  ((y.relay.resolved.take y.delivered).drop x.delivered).map fun r => (r.request.line, r.result)

/-- The lines of the requests whose results nobody has been handed yet. -/
def pending (y : Session) : List (Option String) := (y.relay.row.drop y.delivered).map (·.line)

variable {x y z : Session}

theorem RunsOn.handedSince (h : RunsOn y z) (settled : y.delivered ≤ y.relay.resolved.length) :
    handedSince x z = handedSince x y := by
  obtain ⟨more, grown⟩ := h.drifts.settled
  rw [Session.handedSince, Session.handedSince, h.delivered, ← grown,
    List.take_append_of_le_length settled]

theorem RunsOn.pending (h : RunsOn y z) : z.pending = y.pending := by
  rw [Session.pending, Session.pending, h.drifts.row, h.delivered]

/-- One more result is handed over. -/
theorem handedSince_next {r : Resolution} (later : x.delivered ≤ y.delivered)
    (next : y.undelivered? = some r) :
    handedSince x { y with delivered := y.delivered + 1 } =
      handedSince x y ++ [(r.request.line, r.result)] := by
  obtain ⟨place, _⟩ := List.getElem?_eq_some_iff.mp next
  have bound : x.delivered ≤ (y.relay.resolved.take y.delivered).length := by
    rw [List.length_take]
    omega
  have read : y.relay.resolved[y.delivered]? = some r := next
  rw [handedSince, List.take_add_one, read, List.drop_append_of_le_length bound, List.map_append]
  rfl

/-- Something is handed over only while something is pending. -/
theorem pending_of_undelivered {r : Resolution} (next : y.undelivered? = some r) :
    ∃ rest, y.pending = r.request.line :: rest := by
  have settled : y.relay.row[y.delivered]? = some r.request := by
    have read : y.relay.resolved[y.delivered]? = some r := next
    refine Switchboard.getElem?_of_prefix (List.prefix_append _ _) ?_
    rw [List.getElem?_map, read, Option.map_some]
  obtain ⟨place, own⟩ := List.getElem?_eq_some_iff.mp settled
  refine ⟨(y.relay.row.drop (y.delivered + 1)).map (·.line), ?_⟩
  rw [pending, List.drop_eq_getElem_cons place, own, List.map_cons]

end Session

namespace ToolServer

open Session (handedSince)
open Switchboard (row_length Idles)

/-- Requests that each have a reply. -/
def replied (exchanges : List (Option String × Reply)) : List (Option String × Except Fault Reply) :=
  exchanges.map fun (line, reply) => (line, .ok reply)

variable {tool : String} {task left : Task Outcome} {id i : Nat} {x y : Session}
  {b : Switchboard Outcome} {exchanges : List (Option String × Reply)}

/-- How far a call has come whose task is alone on session `i` since that was `x`: it waits for a reply,
it is done, or it failed with a request that got a fault or was not let in. -/
inductive Lonely (tool : String) (task : Task Outcome) (id i : Nat) (x y : Session)
    (b : Switchboard Outcome) : Prop where
  | asks {exchanges : List (Option String × Reply)} {line : Option String}
      {next : Except Fault Reply → Task Outcome} (leads : task.Leads exchanges (.request line next))
      (handed : handedSince x y = replied exchanges) (pending : y.pending = [line])
      (waits : b.callsOn i = [⟨id, i, .reply y.delivered next⟩]) (told : b.toldTo id = []) :
      Lonely tool task id i x y b
  | done {exchanges : List (Option String × Reply)} {outcome : Outcome}
      (leads : task.Leads exchanges (.done outcome)) (handed : handedSince x y = replied exchanges)
      (pending : y.pending = []) (waits : b.callsOn i = []) (told : b.toldTo id = [outcome]) :
      Lonely tool task id i x y b
  | failed {exchanges : List (Option String × Reply)} {line : Option String}
      {next : Except Fault Reply → Task Outcome} {fault : Fault}
      (leads : task.Leads exchanges (.request line next))
      (handed : handedSince x y = replied exchanges ++ [(line, .error fault)])
      (pending : y.pending = []) (waits : b.callsOn i = [])
      (told : b.toldTo id = [.error (.failed tool fault)]) : Lonely tool task id i x y b
  | refused {exchanges : List (Option String × Reply)} {line : Option String}
      {next : Except Fault Reply → Task Outcome} {fault : Fault}
      (leads : task.Leads exchanges (.request line next)) (handed : handedSince x y = replied exchanges)
      (refusal : (∃ reason, fault = .terminated reason ∧ y.relay.closed = some reason) ∨
        ∃ l, line = some l ∧ Relay.breaksLine l = true)
      (pending : y.pending = []) (waits : b.callsOn i = [])
      (told : b.toldTo id = [.error (.failed tool fault)]) : Lonely tool task id i x y b

/-- Session `i` is now `y`, and was `x` before. -/
structure Onward (i : Nat) (x : Session) (b : Switchboard Outcome) (y : Session) : Prop where
  here : b.sessions[i]? = some y
  follows : Relay.Follows x.relay y.relay
  reached : y.relay.Reached
  orderly : y.relay.Orderly
  later : x.delivered ≤ y.delivered
  settled : y.delivered ≤ y.relay.resolved.length

/-- What holds while such a call goes on. -/
structure Lone (tool : String) (task : Task Outcome) (id i : Nat) (x : Session)
    (b : Switchboard Outcome) (y : Session) : Prop extends Onward i x b y where
  stage : Lonely tool task id i x y b

theorem closed_of_follows {r r' : Relay} (follows : Relay.Follows r r') {reason : String}
    (closed : r.closed = some reason) : r'.closed = some reason := by
  obtain ⟨events, rfl⟩ := follows
  exact Relay.after_induction (P := fun r => r.closed = some reason)
    (fun _ e told => (Relay.closed_act told e).closed) events closed

/-- What no task does leaves the call where it is. -/
theorem Lone.idle (h : Lone tool task id i x b y) {b' : Switchboard Outcome}
    (idles : Idles i id b b') : ∃ z, Lone tool task id i x b' z := by
  obtain ⟨z, here, runsOn⟩ := idles.session y h.here
  have handed := runsOn.handedSince (x := x) h.settled
  refine ⟨z, ⟨here, h.follows.trans runsOn.follows, h.reached.follows runsOn.follows,
    runsOn.drifts.orderly h.orderly, runsOn.delivered ▸ h.later, ?_⟩, ?_⟩
  · rw [runsOn.delivered]
    exact Nat.le_trans h.settled runsOn.drifts.settled.length_le
  · cases h.stage with
    | asks leads given pending waits told =>
      exact .asks leads (handed.trans given) (runsOn.pending.trans pending)
        (by rw [idles.calls, waits, runsOn.delivered]) (idles.told.trans told)
    | done leads given pending waits told =>
      exact .done leads (handed.trans given) (runsOn.pending.trans pending) (idles.calls.trans waits)
        (idles.told.trans told)
    | failed leads given pending waits told =>
      exact .failed leads (handed.trans given) (runsOn.pending.trans pending)
        (idles.calls.trans waits) (idles.told.trans told)
    | refused leads given refusal pending waits told =>
      refine .refused leads (handed.trans given) (refusal.imp_left ?_) (runsOn.pending.trans pending)
        (idles.calls.trans waits) (idles.told.trans told)
      rintro ⟨reason, eq, closed⟩
      exact ⟨reason, eq, closed_of_follows runsOn.follows closed⟩

theorem Lonely.asking (h : Lonely tool task id i x y b) :
    ∀ c ∈ b.callsOn i, ∃ ticket next, c.wait = .reply ticket next := by
  intro c mem
  cases h with
  | asks _ _ _ waits =>
    rw [waits] at mem
    rw [List.mem_singleton.mp mem]
    exact ⟨_, _, rfl⟩
  | done _ _ _ waits => simp [waits] at mem
  | failed _ _ _ waits => simp [waits] at mem
  | refused _ _ _ _ waits => simp [waits] at mem

/-- A request is not let in by a session that has closed, or for the break in its line. -/
theorem submit_refused {r : Relay} (reached : r.Reached) {line : Option String} {fault : Fault}
    (refused : r.submit line = .error fault) :
    (∃ reason, fault = .terminated reason ∧ r.closed = some reason) ∨
      ∃ l, line = some l ∧ Relay.breaksLine l = true := by
  obtain ⟨input, events, rfl⟩ := reached
  generalize reach : (Relay.start input).after events = r at refused
  cases closed : r.closed with
  | some reason =>
    simp only [Relay.submit, Relay.refusal?, closed] at refused
    cases refused
    exact .inl ⟨reason, rfl, rfl⟩
  | none =>
    have mail : r.mailOpen = true := by
      subst reach
      exact Relay.after_mail input events closed
    cases broken : line.filter Relay.breaksLine with
    | none => simp [Relay.submit, Relay.refusal?, closed, broken, Relay.post, mail] at refused
    | some l =>
      obtain ⟨own, breaks⟩ := Option.filter_eq_some_iff.mp broken
      exact .inr ⟨l, own, breaks⟩

theorem pending_of_caughtUp (orderly : y.relay.Orderly) (caughtUp : y.delivered = y.relay.issued) :
    y.pending = [] := by
  rw [Session.pending, caughtUp, ← row_length orderly, List.drop_length]
  rfl

/-- Of a session whose past was all handed over, a request that is let in is the only one pending. -/
theorem submit_pending (orderly : y.relay.Orderly) (caughtUp : y.delivered = y.relay.issued)
    {line : Option String} {relay : Relay} {ticket : Nat}
    (submitted : y.relay.submit line = .ok (relay, ticket)) :
    ticket = y.delivered ∧ relay.resolved = y.relay.resolved ∧
      { y with relay }.pending = [line] := by
  obtain ⟨rfl, rfl⟩ := Relay.submit_posted submitted
  refine ⟨caughtUp.symm, rfl, ?_⟩
  have grown : ({ y.relay with
      issued := y.relay.issued + 1
      mailbox := y.relay.mailbox ++ [⟨y.relay.issued, line⟩] } : Relay).row =
      y.relay.row ++ [⟨y.relay.issued, line⟩] := by
    simp [Relay.row, Relay.outstanding]
  simp only [Session.pending]
  rw [grown, caughtUp, ← row_length orderly, List.drop_left]
  rfl

/-- The task of a call comes to its end. -/
theorem Onward.finish (h : Onward i x b y) (nobody : b.callsOn i = []) (silent : b.toldTo id = [])
    {outcome : Outcome} (turn : y.advance b.now left = (y, .finished outcome))
    (stage : ∀ b' : Switchboard Outcome, b'.callsOn i = [] → b'.toldTo id = [outcome] →
      Lonely tool task id i x y b') : Lone tool task id i x (b.carryOn id i left) y := by
  have place := (List.getElem?_eq_some_iff.mp h.here).1
  have told : (b.results.filter (·.1 = id)).map Prod.snd = [] := silent
  rw [Switchboard.carryOn_finished h.here turn]
  refine { h with here := by simp [place], stage := stage _ nobody ?_ }
  simp only [Switchboard.toldTo, List.filter_append, List.map_append, told]
  simp

/-- What is left of a call goes on, on a session whose past was all handed over. -/
theorem Onward.goOn (h : Onward i x b y) (caughtUp : y.delivered = y.relay.issued)
    (nobody : b.callsOn i = []) (silent : b.toldTo id = []) (leads : task.Leads exchanges left)
    (stops : left.StopsAtFault tool) (handed : handedSince x y = replied exchanges) :
    ∃ z, Lone tool task id i x (b.carryOn id i left) z := by
  have nothing := pending_of_caughtUp h.orderly caughtUp
  cases left with
  | done outcome =>
    exact ⟨y, h.finish nobody silent rfl fun b' waits told => .done leads handed nothing waits told⟩
  | request line next =>
    cases submitted : y.relay.submit line with
    | error fault =>
      have turn : y.advance b.now (.request line next) =
          (y, .finished (.error (.failed tool fault))) := by
        simp only [Session.advance, submitted, stops.1]
      exact ⟨y, h.finish nobody silent turn fun b' waits told =>
        .refused leads handed (submit_refused h.reached submitted) nothing waits told⟩
    | ok accepted =>
      obtain ⟨relay, ticket⟩ := accepted
      have turn : y.advance b.now (.request line next) =
          ({ y with relay }, .waiting (.reply ticket next)) := by
        simp only [Session.advance, submitted]
      have place := (List.getElem?_eq_some_iff.mp h.here).1
      have goesOn := Relay.submit_follows submitted
      obtain ⟨own, kept, pending⟩ := submit_pending h.orderly caughtUp submitted
      rw [Switchboard.carryOn_waiting h.here turn]
      refine ⟨{ y with relay }, ⟨by simp [place], h.follows.trans goesOn, h.reached.follows goesOn,
        Relay.submit_orderly submitted h.orderly, h.later, ?_⟩, .asks leads ?_ pending ?_ silent⟩
      · rw [kept]
        exact h.settled
      · rw [Session.handedSince, kept]
        exact handed
      · simpa [Switchboard.callsOn, own] using nobody
  | setMode mode next => exact stops.elim
  | look next => exact stops.elim
  | update change next => exact stops.elim
  | awaitStop count limit next => exact stops.elim

/-- The only call of a session goes on with its result. -/
theorem deliver_lone {ticket : Nat} {next : Except Fault Reply → Task Outcome}
    (waits : b.callsOn i = [⟨id, i, .reply ticket next⟩]) {r : Resolution}
    (own : r.request.ticket = ticket) :
    b.deliver i r = ((b.modify i fun s => { s with delivered := s.delivered + 1 }).dropCall
      id).carryOn id i (next r.result) := by
  have alone : Switchboard.Alike (decide <| · = i) (decide <| · = id) b
      { b with calls := b.callsOn i } := by
    refine ⟨rfl, fun _ _ => rfl, ?_, rfl, rfl, rfl⟩
    simp [Switchboard.callsOn, List.filter_filter]
  have found : b.calls.find? (Switchboard.awaits i r.request.ticket) =
      some ⟨id, i, .reply ticket next⟩ := by
    rw [alone.find_awaits (decide_eq_true rfl), waits]
    simp [Switchboard.awaits, own]
  simp only [Switchboard.deliver, Switchboard.modify, found]

theorem caughtUp_of_pending (orderly : y.relay.Orderly) {line : Option String}
    (pending : y.pending = [line]) : y.delivered + 1 = y.relay.issued := by
  have length := congrArg List.length pending
  have row := row_length orderly
  rw [Session.pending, List.length_map, List.length_drop, List.length_singleton] at length
  omega

theorem Onward.handOver (h : Onward i x b y) {r : Resolution} (undelivered : y.undelivered? = some r)
    (id : Nat) :
    Onward i x ((b.modify i fun s => { s with delivered := s.delivered + 1 }).dropCall id)
      { y with delivered := y.delivered + 1 } :=
  { h with
    here := by simp [Switchboard.dropCall, Switchboard.modify, h.here]
    later := Nat.le_succ_of_le h.later
    settled := (List.getElem?_eq_some_iff.mp undelivered).1 }

/-- The result of the only request that is pending is handed over. -/
theorem Lone.reply (h : Lone tool task id i x b y) (stops : task.StopsAtFault tool)
    {line : Option String} {next : Except Fault Reply → Task Outcome}
    (leads : task.Leads exchanges (.request line next)) (handed : handedSince x y = replied exchanges)
    (pending : y.pending = [line]) (waits : b.callsOn i = [⟨id, i, .reply y.delivered next⟩])
    (told : b.toldTo id = []) {r : Resolution} (undelivered : y.undelivered? = some r) :
    ∃ z, Lone tool task id i x (b.deliver i r) z := by
  let y' : Session := { y with delivered := y.delivered + 1 }
  let b' := (b.modify i fun s => { s with delivered := s.delivered + 1 }).dropCall id
  have onward : Onward i x b' y' := h.handOver undelivered id
  have caughtUp : y'.delivered = y.relay.issued := caughtUp_of_pending h.orderly pending
  have nobody : b'.callsOn i = [] := by
    have dropped : b'.callsOn i = (b.callsOn i).filter (·.id ≠ id) := List.filter_comm ..
    rw [dropped, waits]
    simp
  obtain ⟨rest, first⟩ := Session.pending_of_undelivered undelivered
  have own : r.request.line = line := (List.cons.inj (pending.symm.trans first)).1.symm
  have given : handedSince x y' = replied exchanges ++ [(line, r.result)] := by
    rw [Session.handedSince_next h.later undelivered, handed, own]
  rw [deliver_lone waits (Switchboard.ticket_of_resolved h.orderly undelivered)]
  have left := leads.stopsAtFault stops
  cases result : r.result with
  | error fault =>
    rw [left.1]
    rw [result] at given
    exact ⟨y', onward.finish nobody told rfl fun _ waits told =>
      .failed leads given (pending_of_caughtUp h.orderly caughtUp) waits told⟩
  | ok reply =>
    refine onward.goOn caughtUp nobody told (leads.concat reply) (left.2 reply) ?_
    rw [given, result, replied, replied, List.map_append]
    rfl

theorem Lone.deliver (h : Lone tool task id i x b y) (stops : task.StopsAtFault tool) :
    ∃ z, Lone tool task id i x (b.deliverNext i) z := by
  have read : b.sessions[i]?.bind Session.undelivered? = y.undelivered? := by
    rw [h.here, Option.bind_some]
  rw [Switchboard.deliverNext, read]
  cases undelivered : y.undelivered? with
  | none => exact ⟨y, h⟩
  | some r =>
    obtain ⟨rest, first⟩ := Session.pending_of_undelivered undelivered
    cases h.stage with
    | asks leads handed pending waits told =>
      exact h.reply stops leads handed pending waits told undelivered
    | done _ _ pending => cases pending.symm.trans first
    | failed _ _ pending => cases pending.symm.trans first
    | refused _ _ _ pending => cases pending.symm.trans first

variable {s : ToolServer} {bound : Nat → List Nat}

/-- Whatever happens while no other call begins on the session, the call goes on alone. -/
theorem Lone.happen (h : Lone tool task id i x s.board y) (stops : task.StopsAtFault tool)
    (numbered : Numbered s) (lodged : Lodged s bound) (mine : id ∈ bound i) (works : id ∉ s.managers)
    {e : Happening} (nobody : s.lodges i e = []) : ∃ z, Lone tool task id i x (s.happen e).board z := by
  -- Only a result that is handed over on its session lets the call go on.
  by_cases handed : ∃ unasked, e = .move (.deliver i) unasked
  · obtain ⟨unasked, rfl⟩ := handed
    exact h.deliver stops
  · exact h.idle (happen_idles numbered lodged mine works h.stage.asking nobody fun unasked own =>
      handed ⟨unasked, own⟩)

/-- A call that works on a session never comes to launch one or to wait for the end of one. -/
theorem Lodged.works (lodged : Lodged s bound) (numbered : Numbered s) (mine : id ∈ bound i)
    (works : id ∉ s.managers) (e : Happening) : id ∉ (s.happen e).managers := by
  intro manages
  rcases s.managers_happen e manages with before | ⟨c, begins⟩
  · exact works before
  · exact (lodged.brink numbered begins).2.unbound i mine

theorem Lone.run {w : Watched} (followed : Followed w bound)
    (h : Lone tool task id i x w.server.board y) (stops : task.StopsAtFault tool)
    (mine : id ∈ bound i) (works : id ∉ w.server.managers) {later : List Happening}
    (alone : begunOn i (w.timeline later) = []) :
    ∃ z, Lone tool task id i x (w.run later).server.board z := by
  -- That the calls are at home and have numbers of their own is carried along by `followed`.
  induction later generalizing w bound y with
  | nil => exact ⟨y, h⟩
  | cons e later ih =>
    have numbered := followed.mindful.numbered
    rw [Watched.timeline, begunOn_append, List.append_eq_nil_iff, begunOn_deeds] at alone
    obtain ⟨z, next⟩ := h.happen stops numbered followed.lodged mine works alone.1
    exact ih (followed.happen e) next (List.mem_append_left _ mine)
      (followed.lodged.works numbered mine works e) alone.2

/-- While nobody calls on a session, all of its past was handed over. -/
theorem past_of_nobody {callers : List (Option ToolCall)} {signs : Nat → List Sign}
    {owed : Nat → Option Bool} (known : Kept callers signs owed b) (here : b.sessions[i]? = some x)
    (nobody : b.callsOn i = []) :
    x.delivered = x.relay.issued ∧ x.relay.outstanding = [] := by
  refine (known.tracked i x here).past_of_nobody fun c mem own => ?_
  have mine : c ∈ b.callsOn i := List.mem_filter.mpr ⟨mem, decide_eq_true own⟩
  rw [nobody] at mine
  cases mine

/-- A call goes to work on a session on which nobody calls. -/
theorem Followed.begin {w : Watched} (followed : Followed w bound) {e : Happening}
    {c : ToolCall} {asked : ToolTask Answer} (begins : w.server.begins? e = some (id, c))
    (of : ToolTask.ofCall? c = some asked) (current : w.server.current = some i)
    (here : w.server.board.sessions[i]? = some x) (reached : x.relay.Reached)
    (nobody : w.server.board.callsOn i = []) (stops : (ExceptT.run asked).StopsAtFault tool) :
    ∃ y, Lone tool (ExceptT.run asked) id i x (w.happen e).server.board y := by
  have known := followed.mindful.board.tracked i x here
  obtain ⟨_, fresh⟩ := followed.lodged.brink followed.mindful.numbered begins
  have caughtUp := (past_of_nobody followed.mindful.board here nobody).1
  have work : w.server.happen e = { w.server.brink e with
      board := (w.server.brink e).board.carryOn id i (ExceptT.run asked) } := by
    rw [happen_of_begins begins, begin_of_task of (by simpa using current)]
  have onward : Onward i x (w.server.brink e).board x :=
    ⟨by simpa using here, .refl _, reached, known.orderly, Nat.le_refl _, known.handed⟩
  have silent : (w.server.brink e).board.toldTo id = [] := by
    rw [Switchboard.toldTo, List.map_eq_nil_iff, List.filter_eq_nil_iff]
    exact fun told mem => by simpa using fresh.unanswered told mem
  have started : handedSince x x = replied [] := by
    rw [handedSince, List.drop_eq_nil_of_le (List.length_take_le _ _)]
    rfl
  change ∃ y, Lone tool (ExceptT.run asked) id i x (w.server.happen e).board y
  rw [work]
  exact onward.goOn caughtUp (by simpa [Switchboard.callsOn] using nobody) silent (.start _) stops
    started

/-- A call that goes to work neither launches a session nor ends one. -/
theorem Followed.begin_works {w : Watched} (followed : Followed w bound) {e : Happening}
    {c : ToolCall} {asked : ToolTask Answer} (begins : w.server.begins? e = some (id, c))
    (of : ToolTask.ofCall? c = some asked) : id ∉ (w.happen e).server.managers := by
  obtain ⟨lodged, fresh⟩ := followed.lodged.brink followed.mindful.numbered begins
  have free := (begins_cases begins).1
  have unended := lodged.unended fresh
  change id ∉ (w.server.happen e).managers
  rw [happen_of_begins begins]
  rcases begin_cases (w.server.brink e) id c with
    ⟨choice, rfl, _⟩ | ⟨rfl, _⟩ | ⟨task, j, _, _, eq⟩ | ⟨_, eq⟩
  · cases of
  · cases of
  · simpa [eq, managers, free] using unended
  · simpa [eq, managers, answer, free] using unended

/-- A call begins on a session on which nobody calls, and no other begins there after it. -/
theorem run_lone {host : Host} {before later : List Happening} {e : Happening}
    {c : ToolCall} {asked : ToolTask Answer}
    (begins : ((start host).run before).begins? e = some (id, c))
    (of : ToolTask.ofCall? c = some asked) (stops : (ExceptT.run asked).StopsAtFault tool)
    (current : ((start host).run before).current = some i)
    (here : ((start host).run before).board.sessions[i]? = some x)
    (nobody : ((start host).run before).board.callsOn i = [])
    (alone : begunOn i (timeline host (before ++ e :: later)) =
      begunOn i (timeline host before) ++ [id]) :
    ∃ y, Lone tool (ExceptT.run asked) id i x
      ((start host).run (before ++ e :: later)).board y := by
  have reached := run_reached host before x (List.mem_of_getElem? here)
  have followed := (start_followed host).run before
  have server : (start host).run before = ((Watched.start host).run before).server :=
    (Watched.run_server (.start host) before).symm
  rw [server] at begins current here nobody
  obtain ⟨y, lone⟩ := followed.begin begins of current here reached nobody stops
  have lodges : ((Watched.start host).run before).server.lodges i e = [id] := by
    simp [ToolServer.lodges, begins, of, current]
  simp only [timeline, Watched.timeline_append, Watched.timeline, begunOn_append, begunOn_deeds, lodges,
    List.append_cancel_left_eq, List.append_right_eq_self] at alone
  have mine : id ∈ ((Watched.start host).run before).server.binds i e := by
    have place : ((Watched.start host).run before).server.workplace? c = some i := by
      cases c <;> first | exact current | cases of
    simp [binds, begins, place]
  have whole : (start host).run (before ++ e :: later) =
      ((((Watched.start host).run before).happen e).run later).server :=
    (Watched.run_server (.start host) _).symm.trans (congrArg Watched.server List.foldl_append)
  rw [whole]
  exact lone.run (followed.happen e) stops (List.mem_append_right _ mine)
    (followed.begin_works begins of) alone

theorem drop_eq_append {β : Type} (xs : List β) {m n : Nat} (le : m ≤ n) :
    xs.drop m = (xs.take n).drop m ++ xs.drop n := by
  obtain ⟨k, rfl⟩ := Nat.exists_eq_add_of_le le
  rw [List.drop_take, Nat.add_sub_cancel_left, List.drop_take_append_drop]

/-- A live session whose past was all handed over. -/
structure Rested (x : Session) : Prop where
  reached : x.relay.Reached
  isOpen : x.relay.closed = none
  orderly : x.relay.Orderly
  caughtUp : x.delivered = x.relay.issued
  idle : x.relay.outstanding = []

theorem run_rested {host : Host} {happenings : List Happening}
    (here : ((start host).run happenings).board.sessions[i]? = some x)
    (isOpen : x.relay.closed = none)
    (nobody : ((start host).run happenings).board.callsOn i = []) : Rested x := by
  have known := run_kept host happenings
  have past := past_of_nobody known here nobody
  exact ⟨run_reached host happenings x (List.mem_of_getElem? here), isOpen,
    (known.tracked i x here).orderly, past.1, past.2⟩

/-- The lines that were asked for since a session was `x`. -/
theorem Onward.asked_lines (h : Onward i x b y) :
    (y.relay.row.drop x.delivered).map (·.line) = (handedSince x y).map (·.1) ++ y.pending := by
  have settled : y.relay.row.take y.delivered =
      (y.relay.resolved.take y.delivered).map (·.request) := by
    rw [Relay.row, List.take_append_of_le_length (by simpa using h.settled), List.map_take]
  rw [drop_eq_append _ h.later, settled, List.map_append, ← List.map_drop, List.map_map, handedSince,
    List.map_map]
  rfl

/-- The lines of the requests that have a reply. -/
theorem replied_lines {given : List Resolution} {rest : List (Option String × Except Fault Reply)}
    (told : given.map (fun r => (r.request.line, r.result)) = replied exchanges ++ rest)
    (failed : ∀ p ∈ rest, ∃ fault, p.2 = .error fault) :
    (given.filter (·.replied)).filterMap (·.request.line) = exchanges.filterMap (·.1) := by
  have pairs : (given.filter (·.replied)).filterMap (·.request.line) =
      ((given.map fun r => (r.request.line, r.result)).filter (·.2.toOption.isSome)).filterMap
        (·.1) := by
    rw [List.filter_map, List.filterMap_map]
    rfl
  have none : rest.filter (·.2.toOption.isSome) = [] := by
    refine List.filter_eq_nil_iff.mpr fun p mem => ?_
    obtain ⟨fault, eq⟩ := failed p mem
    simp [eq, Except.toOption]
  have all : (replied exchanges).filter (·.2.toOption.isSome) = replied exchanges := by
    refine List.filter_eq_self.mpr fun p mem => ?_
    obtain ⟨exchange, _, rfl⟩ := List.mem_map.mp mem
    rfl
  rw [pairs, told, List.filter_append, none, all, List.append_nil, replied, List.filterMap_map]
  rfl

/-- What a call that is alone writes: a line for each request with a reply, and no other line than those
of its requests. -/
theorem Onward.lines (h : Onward i x b y) (rested : Rested x)
    {rest : List (Option String × Except Fault Reply)}
    (handed : handedSince x y = replied exchanges ++ rest)
    (failed : ∀ p ∈ rest, ∃ fault, p.2 = .error fault) :
    ∃ lines, y.relay.written = x.relay.written ++ lines ∧ exchanges.filterMap (·.1) <+: lines ∧
      lines.Sublist
        (exchanges.filterMap (·.1) ++ (rest.map (·.1) ++ y.pending).filterMap fun line => line) := by
  obtain ⟨lines, written, own, answered⟩ :=
    Relay.lines_since rested.reached rested.isOpen rested.idle h.follows
  rw [row_length rested.orderly, ← rested.caughtUp] at own answered
  refine ⟨lines, written, ?_, ?_⟩
  · rw [drop_eq_append _ h.later, List.filter_append, List.filterMap_append,
      replied_lines handed failed] at answered
    exact (List.prefix_append _ _).trans answered
  · have asked := congrArg (List.filterMap fun line => line) h.asked_lines
    rw [handed, List.filterMap_map, List.map_append, List.append_assoc, List.filterMap_append, replied,
      List.map_map, List.filterMap_map] at asked
    rwa [show (y.relay.row.drop x.delivered).filterMap (·.line) = _ from asked] at own

end ToolServer

end PromptRelay
