import PromptRelay.Proofs.OutputPortions

namespace PromptRelay

/-- What matters to replies in a run of a relay: a reply becomes whole, with the request that is in
flight then, or a request is dispatched. -/
inductive News where
  | whole (reply : Reply) (awaiting : Option Request)
  | dispatched (q : Request)
  deriving DecidableEq

namespace News

def reply? : News → Option Reply
  | .whole reply _ => some reply
  | .dispatched _ => none

def request? : News → Option Request
  | .whole .. => none
  | .dispatched q => some q

/-- Who takes a whole reply: the request in flight, or if there is none the next request dispatched,
provided that it is a flush and that no other reply becomes whole before. -/
def taker? (awaiting : Option Request) (later : List News) : Option Request :=
  match awaiting, later with
  | some q, _ => some q
  | none, .dispatched q :: _ => if q.line = none then some q else none
  | none, _ => none

/-- The replies that are taken, each with the request that takes it. -/
def taken : List News → List (Request × Reply)
  | [] => []
  | .whole reply awaiting :: later => (taker? awaiting later).toList.map (·, reply) ++ taken later
  | .dispatched _ :: later => taken later

/-- The reply that a flush would take next. -/
def unclaimed (news : List News) : Option Reply :=
  match news.getLast? with
  | some (.whole reply none) => some reply
  | _ => none

/-- Who takes what through the news that comes next. -/
def takenBy (unclaimed : Option Reply) : News → List (Request × Reply)
  | .whole reply awaiting => awaiting.toList.map (·, reply)
  | .dispatched q => if q.line = none then unclaimed.toList.map (q, ·) else []

theorem taker_nil (awaiting : Option Request) : taker? awaiting [] = awaiting := by
  cases awaiting <;> rfl

theorem unclaimed_cons_cons (x y : News) (news : List News) :
    unclaimed (x :: y :: news) = unclaimed (y :: news) := by
  simp only [unclaimed, List.getLast?_cons_cons]

/-- Whether a reply is taken is settled by the news right after it. -/
theorem taken_concat (news : List News) (x : News) :
    taken (news ++ [x]) = taken news ++ takenBy (unclaimed news) x := by
  induction news with
  | nil =>
    cases x with
    | whole reply awaiting => cases awaiting <;> rfl
    | dispatched q => simp [taken, takenBy, unclaimed]
  | cons first news ih =>
    cases news with
    | nil =>
      cases first with
      | dispatched q => cases x <;> simp [taken, takenBy, unclaimed, taker_nil]
      | whole reply awaiting =>
        cases x with
        | whole other later => cases awaiting <;> cases later <;> simp [taken, takenBy, taker?]
        | dispatched q =>
          by_cases flush : q.line = none <;> cases awaiting <;>
            simp [taken, takenBy, taker?, unclaimed, flush]
    | cons second news =>
      rw [unclaimed_cons_cons, List.cons_append]
      cases first with
      | dispatched q => simpa only [taken] using ih
      | whole reply awaiting =>
        have same : taker? awaiting (second :: news ++ [x]) = taker? awaiting (second :: news) := by
          cases awaiting with
          | some q => rfl
          | none => cases second <;> rfl
        simp only [taken, same, ih, List.append_assoc]

/-- Each reply is taken once at most. -/
theorem taken_replies (news : List News) :
    ((taken news).map (·.2)).Sublist (news.filterMap reply?) := by
  induction news with
  | nil => exact List.Sublist.refl _
  | cons x later ih =>
    cases x with
    | dispatched q => exact ih
    | whole reply awaiting =>
      have once : (((taker? awaiting later).toList.map (·, reply)).map (·.2)).Sublist [reply] := by
        cases taker? awaiting later <;> simp
      rw [taken, List.map_append]
      exact once.append ih

/-- A command takes a reply only while it is in flight. -/
theorem whole_of_taken {news : List News} {q : Request} {reply : Reply} {line : String}
    (mem : (q, reply) ∈ taken news) (command : q.line = some line) :
    .whole reply (some q) ∈ news := by
  induction news with
  | nil => cases mem
  | cons x later ih =>
    cases x with
    | dispatched p => exact List.mem_cons_of_mem _ (ih mem)
    | whole other awaiting =>
      rcases List.mem_append.mp mem with now | after
      · obtain ⟨p, takes, eq⟩ := List.mem_map.mp now
        cases eq
        cases awaiting with
        | some p =>
          cases Option.mem_toList.mp takes
          exact List.mem_cons_self
        | none =>
          -- Whoever takes an unclaimed reply is a flush.
          have flush : q.line = none := by
            cases later with
            | nil => simp [taker?] at takes
            | cons y later =>
              cases y with
              | whole => simp [taker?] at takes
              | dispatched p =>
                by_cases flush : p.line = none
                · simp only [taker?, flush, if_true, Option.toList_some, List.mem_singleton] at takes
                  exact takes ▸ flush
                · simp [taker?, flush] at takes
          cases command.symm.trans flush
      · exact List.mem_cons_of_mem _ (ih after)

end News

namespace Relay

/-- The requests that were dispatched while the relay was open: those settled, and the one in flight. -/
def dispatched (r : Relay) : List Request := r.resolved.map (·.request) ++ r.inFlight.toList

/-- The requests dispatched in an event. Those that are refused at the end are not. -/
def dispatches (r : Relay) (e : Event) : List Request :=
  if (r.act e).closed = none then (r.act e).dispatched.drop r.dispatched.length else []

def news (r : Relay) (e : Event) : List News :=
  (r.completion? e).toList.map (fun c => .whole (.ofLines c.lines) r.inFlight) ++
    (r.dispatches e).map .dispatched

def chronicle (r : Relay) : List Event → List News
  | [] => []
  | e :: later => r.news e ++ chronicle (r.act e) later

theorem chronicle_concat (r : Relay) (events : List Event) (e : Event) :
    r.chronicle (events ++ [e]) = r.chronicle events ++ (r.after events).news e := by
  induction events generalizing r with
  | nil => simp [chronicle, after]
  | cons first later ih => simp only [List.cons_append, chronicle, ih, after_cons, List.append_assoc]

/-- The replies that requests were given. -/
def given (r : Relay) : List (Request × Reply) :=
  r.resolved.filterMap fun x => x.result.toOption.map (x.request, ·)

theorem given_resolve (r : Relay) (q : Request) (result : Except Fault Reply) :
    (r.resolve q result).given = r.given ++ result.toOption.toList.map (q, ·) := by
  cases result <;> simp [given, resolve, Except.toOption]

theorem write_present {input : InputEnd} (pipe : input ≠ .absent) : input.write.2 ≠ .absent := by
  match input with
  | .pipe | .severed _ | .wavering [] | .wavering (_ :: _) => simp [InputEnd.write]
  | .absent => exact absurd rfl pipe

/-- Over a pipe, a flush takes the reply that is held, and nothing is held once a request was dispatched. -/
theorem perform_pipe {r : Relay} (pipe : r.input ≠ .absent) (q : Request) :
    (∃ input result, input ≠ .absent ∧
      r.perform q = { r with input, held := none }.resolve q result ∧
        result.toOption = if q.line = none then r.held else none) ∨
    ∃ input, input ≠ .absent ∧ (q.line = none → r.held = none) ∧
      r.perform q =
        { r with input, held := none, inFlight := some q, written := r.written ++ q.line.toList } := by
  have present : r.input.refusal? = none := by
    cases hi : r.input <;> first | rfl | exact absurd hi pipe
  cases hl : q.line with
  | none =>
    cases hh : r.held with
    | some reply =>
      exact Or.inl ⟨r.input, .ok reply, pipe, by simp [perform, present, hl, hh], by simp [Except.toOption]⟩
    | none => exact Or.inr ⟨r.input, pipe, fun _ => rfl, by simp [perform, present, hl, hh]⟩
  | some line =>
    have still := write_present pipe
    have sent : r.perform q = { r with held := none }.send q line := by simp [perform, present, hl]
    rw [sent]
    unfold send
    split
    next fault input wrote =>
      rw [wrote] at still
      exact Or.inl ⟨input, .error fault, still, rfl, by simp [Except.toOption]⟩
    next input wrote =>
      rw [wrote] at still
      exact Or.inr ⟨input, still, by simp, by simp⟩

/-- Requests have been given the replies that the news says they take; while the relay is open, it
holds the one that lies unclaimed, and the requests that were dispatched are those of the news. -/
structure Routed (r : Relay) (news : List News) : Prop where
  pipe : r.input ≠ .absent
  given : r.given = News.taken news
  held : r.closed = none → r.held = News.unclaimed news
  dispatched : r.closed = none → r.dispatched = news.filterMap News.request?

namespace Routed

variable {r s : Relay} {news : List News}

theorem perform (h : Routed r news) (isOpen : r.closed = none) (idle : r.inFlight = none)
    (q : Request) :
    Routed (r.perform q) (news ++ [.dispatched q]) ∧
      (r.perform q).dispatched = r.dispatched ++ [q] := by
  have unclaimed : News.unclaimed (news ++ [.dispatched q]) = none := by simp [News.unclaimed]
  have requests : (news ++ [News.dispatched q]).filterMap News.request? = r.dispatched ++ [q] := by
    rw [List.filterMap_append, ← h.dispatched isOpen]
    rfl
  rcases perform_pipe h.pipe q with ⟨input, result, still, eq, told⟩ | ⟨input, still, flush, eq⟩
  · have next : (r.perform q).dispatched = r.dispatched ++ [q] := by
      simp [eq, Relay.dispatched, resolve, idle]
    refine ⟨⟨by rw [eq]; exact still, ?_, fun _ => by rw [eq, unclaimed]; rfl,
      fun _ => next.trans requests.symm⟩, next⟩
    have same : ({ r with input, held := none } : Relay).given = r.given := rfl
    rw [eq, given_resolve, told, same, h.given, News.taken_concat, ← h.held isOpen]
    by_cases flush : q.line = none <;> simp [News.takenBy, flush]
  · have next : (r.perform q).dispatched = r.dispatched ++ [q] := by
      simp [eq, Relay.dispatched, idle]
    refine ⟨⟨by rw [eq]; exact still, ?_, fun _ => by rw [eq, unclaimed],
      fun _ => next.trans requests.symm⟩, next⟩
    have same : (r.perform q).given = r.given := by rw [eq]; rfl
    have nothing : News.takenBy r.held (.dispatched q) = [] := by
      by_cases asks : q.line = none
      · simp [News.takenBy, asks, flush asks]
      · simp [News.takenBy, asks]
    rw [same, h.given, News.taken_concat, ← h.held isOpen, nothing, List.append_nil]

theorem dispatch (h : Routed r news) (isOpen : r.closed = none) :
    ∃ requests, r.dispatch.dispatched = r.dispatched ++ requests ∧
      Routed r.dispatch (news ++ requests.map News.dispatched) := by
  obtain ⟨last, rest, eq, ⟨_, requests, more, routed⟩, _⟩ := dispatchFrom_induction
    (P := fun s _ => s.closed = none ∧ ∃ requests, s.dispatched = r.dispatched ++ requests ∧
      Routed s (news ++ requests.map News.dispatched))
    (fun s q rest idle ⟨still, requests, more, routed⟩ => by
      obtain ⟨next, longer⟩ := routed.perform still idle q
      refine ⟨(perform_sameSetting s q).closed.trans still, requests ++ [q], ?_, ?_⟩
      · rw [longer, more, List.append_assoc]
      · simpa using next)
    r.queue ⟨isOpen, [], by simp, by simpa using h⟩
  rw [Relay.dispatch, eq]
  exact ⟨requests, more, ⟨routed.pipe, routed.given, routed.held, routed.dispatched⟩⟩

/-- A whole reply goes to the request in flight, or lies unclaimed in place of any other. -/
theorem complete (h : Routed r news) (isOpen : r.closed = none) (exclusive : Exclusive r)
    (view : List String) :
    Routed (r.complete view) (news ++ [.whole (.ofLines view) r.inFlight]) ∧
      (r.complete view).dispatched = r.dispatched := by
  have requests :
      (news ++ [News.whole (.ofLines view) r.inFlight]).filterMap News.request? = r.dispatched := by
    rw [List.filterMap_append, ← h.dispatched isOpen]
    simp [News.request?]
  have given : News.taken (news ++ [.whole (.ofLines view) r.inFlight]) =
      r.given ++ r.inFlight.toList.map (·, .ofLines view) := by
    rw [News.taken_concat, ← h.given, News.takenBy]
  rw [Relay.complete]
  cases flying : r.inFlight with
  | some q =>
    rw [flying] at requests given
    have same : Relay.dispatched ({ r with
        buffer := .empty, owesBlanks := mayOweBlanks view, inFlight := none }.resolve q
          (.ok (.ofLines view))) = r.dispatched := by
      simp [Relay.dispatched, resolve, flying]
    refine ⟨⟨h.pipe, ?_, fun _ => ?_, fun _ => same.trans requests.symm⟩, same⟩
    · rw [given_resolve, given]
      rfl
    · have unheld : r.held = none := exclusive.unheld (by simp [flying])
      simpa [News.unclaimed, resolve] using unheld
  | none =>
    rw [flying] at requests given
    have same : Relay.dispatched { r with
        buffer := .empty, owesBlanks := mayOweBlanks view, inFlight := none, held := some (.ofLines view) } =
          r.dispatched := by
      simp [Relay.dispatched, flying]
    refine ⟨⟨h.pipe, ?_, fun _ => by simp [News.unclaimed], fun _ => same.trans requests.symm⟩, same⟩
    change r.given = _
    simpa using given.symm

/-- An event without news of its own but the requests that it dispatches. -/
theorem quiet_news {e : Event} (none : r.completion? e = none) (stays : (r.act e).closed = Option.none)
    {requests : List Request} (more : (r.act e).dispatched = r.dispatched ++ requests) :
    r.news e = requests.map .dispatched := by
  simp [Relay.news, dispatches, none, stays, more]

theorem output (h : Routed r news) (isOpen : r.closed = none) (exclusive : Exclusive r)
    (chunk : List UInt8) : Routed (r.output chunk) (news ++ r.news (.output chunk)) := by
  have stays : (r.act (.output chunk)).closed = none :=
    (output_sameSetting r chunk).closed.trans isOpen
  by_cases spent : r.unowed chunk = []
  · have none : r.completion? (.output chunk) = none := by simp [completion?, spent]
    obtain ⟨requests, more, routed⟩ := h.dispatch isOpen
    have acts : r.act (.output chunk) = r.dispatch := output_spent isOpen spent
    rw [quiet_news none stays (acts ▸ more), output_spent isOpen spent]
    exact routed
  · let fuller : Relay := { r with owesBlanks := false, buffer := r.buffer.push (r.unowed chunk) }
    have read : Routed fuller news := ⟨h.pipe, h.given, h.held, h.dispatched⟩
    rcases output_completion isOpen spent with ⟨now, eq⟩ | ⟨none, eq⟩
    · obtain ⟨routed, same⟩ := read.complete isOpen ⟨exclusive.unheld, exclusive.lines⟩ fuller.buffer.view
      have still : (fuller.complete fuller.buffer.view).closed = Option.none := by
        have kept := (dispatch_sameSetting (fuller.complete fuller.buffer.view)).closed
        rw [act, eq] at stays
        exact kept.symm.trans stays
      obtain ⟨requests, more, dispatched⟩ := routed.dispatch still
      have acts : r.act (.output chunk) = (fuller.complete fuller.buffer.view).dispatch := eq
      have told : r.news (.output chunk) =
          .whole (.ofLines fuller.buffer.view) r.inFlight :: requests.map .dispatched := by
        have longer : (r.act (.output chunk)).dispatched = r.dispatched ++ requests := by
          rw [acts, more, same]
          rfl
        simp [Relay.news, dispatches, now, stays, longer, fuller]
      rw [told, eq]
      simpa using dispatched
    · obtain ⟨requests, more, dispatched⟩ := read.dispatch isOpen
      have acts : r.act (.output chunk) = fuller.dispatch := eq
      have longer : (r.act (.output chunk)).dispatched = r.dispatched ++ requests := by
        rw [acts, more]
        rfl
      rw [quiet_news none stays longer, eq]
      exact dispatched

/-- After an event in which no request is dispatched and no reply becomes whole. -/
theorem silent (h : Routed r news) {e : Event} (none : r.completion? e = none) (acts : r.act e = s)
    (pipe : s.input ≠ .absent) (given : s.given = r.given)
    (same : s.closed = Option.none →
      r.closed = Option.none ∧ s.held = r.held ∧ s.dispatched = r.dispatched) :
    Routed (r.act e) (news ++ r.news e) := by
  have nothing : r.news e = [] := by
    simp only [Relay.news, dispatches, none, acts, Option.toList_none, List.map_nil, List.nil_append,
      List.map_eq_nil_iff]
    split
    next isOpen => rw [(same isOpen).2.2, List.drop_length]
    next => rfl
  rw [nothing, acts, List.append_nil]
  refine ⟨pipe, given.trans h.given, fun isOpen => ?_, fun isOpen => ?_⟩
  · exact (same isOpen).2.1.trans (h.held (same isOpen).1)
  · exact (same isOpen).2.2.trans (h.dispatched (same isOpen).1)

theorem unchanged (h : Routed r news) {e : Event} (none : r.completion? e = none)
    (acts : r.act e = r) : Routed (r.act e) (news ++ r.news e) :=
  h.silent none acts h.pipe rfl fun isOpen => ⟨isOpen, rfl, rfl⟩

theorem act (h : Routed r news) (exclusive : r.closed = none → Exclusive r)
    (mail : r.closed = none → r.mailOpen = true) (e : Event) :
    Routed (r.act e) (news ++ r.news e) := by
  cases e with
  | post line =>
    rcases accept_cases r line with eq | ⟨_, _, eq⟩
    · exact h.unchanged rfl eq
    · exact h.silent rfl eq h.pipe rfl fun isOpen => ⟨isOpen, rfl, rfl⟩
  | receive =>
    rcases receive_cases r with eq | ⟨isOpen, q, rest, _, eq⟩
    · exact h.unchanged rfl eq
    · have queued : Routed { r with mailbox := rest, queue := r.queue ++ [q] } news :=
        ⟨h.pipe, h.given, h.held, h.dispatched⟩
      obtain ⟨requests, more, routed⟩ := queued.dispatch isOpen
      have stays : (r.act .receive).closed = none := (receive_sameSetting r).closed.trans isOpen
      have acts : r.act .receive = { r with mailbox := rest, queue := r.queue ++ [q] }.dispatch := eq
      have longer : (r.act .receive).dispatched = r.dispatched ++ requests := by
        rw [acts, more]
        rfl
      rw [quiet_news rfl stays longer, acts]
      exact routed
  | output chunk =>
    by_cases isOpen : r.closed = none
    · exact h.output isOpen (exclusive isOpen) chunk
    · obtain ⟨same, none, _⟩ := output_late isOpen chunk
      exact h.unchanged none same
  | setMode mode => exact h.silent rfl rfl h.pipe rfl fun isOpen => ⟨isOpen, rfl, rfl⟩
  | turnInput input =>
    by_cases gone : r.input = .absent ∨ input = .absent
    · exact h.unchanged rfl (by simp [Relay.act, turnInput, gone])
    · have acts : r.act (.turnInput input) = { r with input } := by simp [Relay.act, turnInput, gone]
      exact h.silent rfl acts (not_or.mp gone).2 rfl fun isOpen => ⟨isOpen, rfl, rfl⟩
  | announce reason =>
    cases hc : r.closed with
    | some told => exact h.unchanged rfl (by simp [Relay.act, announce, hc])
    | none =>
      have acts : r.act (.announce reason) =
          { r with closed := some reason, held := none, buffer := .empty } := by
        simp [Relay.act, announce, hc]
      exact h.silent rfl acts h.pipe rfl fun isOpen => by cases isOpen
  | shut =>
    cases hc : r.closed with
    | some told =>
      have acts : r.act .shut = { r with mailOpen := false } := by simp [Relay.act, shut, hc]
      exact h.silent rfl acts h.pipe rfl fun isOpen => ⟨isOpen, rfl, rfl⟩
    | none => exact h.unchanged rfl (by simp [Relay.act, shut, hc])
  | drain =>
    by_cases isOpen : r.mailOpen = true
    · exact h.unchanged rfl (by simp [Relay.act, drain, isOpen])
    · have acts : r.act .drain = { r with
          mailbox := [], queue := [], inFlight := none
          resolved := r.resolved ++
            r.outstanding.map fun q => ⟨q, .error (.terminated r.closedReason)⟩ } := by
        simp [Relay.act, drain, isOpen]
      refine h.silent rfl acts h.pipe ?_ fun stays => absurd (mail stays) isOpen
      simp [Relay.given, Except.toOption]

end Routed

theorem after_routed {input : InputEnd} (pipe : input ≠ .absent) (events : List Event) :
    Routed ((start input).after events) ((start input).chronicle events) := by
  induction events using List.reverseRecOn with
  | nil => exact ⟨pipe, rfl, fun _ => rfl, fun _ => rfl⟩
  | append_singleton events e ih =>
    rw [after_append, chronicle_concat]
    exact ih.act (fun isOpen => (after_steady input events isOpen).1) (after_mail input events) e

theorem news_replies (r : Relay) (e : Event) :
    (r.news e).filterMap News.reply? = (r.completion? e).toList.map (.ofLines ·.lines) := by
  have requests : ((r.dispatches e).map News.dispatched).filterMap News.reply? = [] := by
    simp [List.filterMap_map, Function.comp_def, News.reply?]
  rw [news, List.filterMap_append, requests, List.append_nil, List.filterMap_map]
  cases r.completion? e <;> rfl

/-- The replies of the chronicle are those that became whole. -/
theorem chronicle_replies (r : Relay) (events : List Event) :
    (r.chronicle events).filterMap News.reply? = (r.completions events).map (.ofLines ·.lines) := by
  induction events generalizing r with
  | nil => rfl
  | cons e later ih =>
    rw [chronicle, completions, List.filterMap_append, List.map_append, news_replies, ih]

theorem chunk_of_whole {r : Relay} {events : List Event} {reply : Reply} {awaiting : Option Request}
    (mem : .whole reply awaiting ∈ r.chronicle events) :
    ∃ before chunk later c, events = before ++ .output chunk :: later ∧
      (r.after before).completion? (.output chunk) = some c ∧ reply = .ofLines c.lines ∧
      (r.after before).inFlight = awaiting := by
  induction events generalizing r with
  | nil => cases mem
  | cons e rest ih =>
    rcases List.mem_append.mp mem with now | after
    · have told : .whole reply awaiting ∈
          (r.completion? e).toList.map fun c => News.whole (.ofLines c.lines) r.inFlight := by
        refine (List.mem_append.mp now).resolve_right fun other => ?_
        obtain ⟨q, _, eq⟩ := List.mem_map.mp other
        cases eq
      obtain ⟨c, whole, eq⟩ := List.mem_map.mp told
      cases eq
      cases e with
      | output chunk => exact ⟨[], chunk, rest, c, rfl, Option.mem_toList.mp whole, rfl, rfl⟩
      | _ => cases whole
    · obtain ⟨before, chunk, later, c, rfl, whole, eq, flying⟩ := ih after
      exact ⟨e :: before, chunk, later, c, rfl, whole, eq, flying⟩

/-- The line of a request in flight is the last one written. -/
theorem Exclusive.written_last {r : Relay} (h : Exclusive r) {q : Request} {line : String}
    (flying : r.inFlight = some q) (command : q.line = some line) : r.written.getLast? = some line := by
  simp [h.lines, taken, flying, command]

/-- Over a pipe, requests are given exactly the replies that the news says they take: a reply that
becomes whole while a request is in flight goes to that request; any other goes to the next request
dispatched, if that is a flush and no other reply becomes whole before, and is lost otherwise. So no
reply is given twice, and a reply to a command became whole after the command was written. -/
theorem unclaimed_reply_goes_to_next_flush (input : InputEnd) (pipe : input ≠ .absent)
    (events : List Event) :
    let r := (start input).after events
    let news := (start input).chronicle events
    r.given = News.taken news ∧
      news.filterMap News.reply? = ((start input).completions events).map (.ofLines ·.lines) ∧
      (r.closed = none →
        news.filterMap News.request? = r.resolved.map (·.request) ++ r.inFlight.toList ∧
          r.held = News.unclaimed news) ∧
      (r.given.map (·.2)).Sublist (((start input).completions events).map (.ofLines ·.lines)) ∧
      ∀ q reply line, (q, reply) ∈ r.given → q.line = some line →
        ∃ before chunk later c, events = before ++ .output chunk :: later ∧
          ((start input).after before).completion? (.output chunk) = some c ∧
          reply = .ofLines c.lines ∧ ((start input).after before).inFlight = some q ∧
          ((start input).after before).written.getLast? = some line := by
  intro r news
  have routed := after_routed pipe events
  have replies := chronicle_replies (start input) events
  refine ⟨routed.given, replies, fun isOpen => ⟨(routed.dispatched isOpen).symm, routed.held isOpen⟩,
    ?_, fun q reply line mem command => ?_⟩
  · rw [← replies, routed.given]
    exact News.taken_replies news
  · have whole := News.whole_of_taken (routed.given ▸ mem) command
    obtain ⟨before, chunk, later, c, split, completes, eq, flying⟩ := chunk_of_whole whole
    have isOpen : ((start input).after before).closed = none := by
      simp only [completion?] at completes
      split at completes
      next told => exact told.1
      next => cases completes
    exact ⟨before, chunk, later, c, split, completes, eq, flying,
      (after_steady input before isOpen).1.written_last flying command⟩

/-- A command drops the reply printed before it. Of the two printed after its own, the flush is given
the later. -/
theorem flush_given_latest_unclaimed_reply :
    InputEnd.pipe ≠ .absent ∧
    ((start .pipe).after [.output (utf8Bytes "octave:1> "), .post (some "x"), .receive,
        .output (utf8Bytes "x = 1\noctave:2> "), .output (utf8Bytes "octave:3> "),
        .output (utf8Bytes "octave:4> "), .post none, .receive]).given =
      [(⟨0, some "x"⟩, .ofLines ["x = 1", "octave:2> "]), (⟨1, none⟩, .ofLines ["octave:4> "])] := by
  have pipe : InputEnd.pipe ≠ .absent := by decide
  refine ⟨pipe, ?_⟩
  rw [(unclaimed_reply_goes_to_next_flush .pipe pipe _).1]
  decide +kernel

end Relay

end PromptRelay
