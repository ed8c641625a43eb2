import PromptRelay.Proofs.LostInput

namespace PromptRelay

def Resolution.replied (x : Resolution) : Bool := x.result.toOption.isSome

namespace Relay

/-- The requests that have a reply, and the one that waits for it. -/
def taken (r : Relay) : List Request :=
  (r.resolved.filter (·.replied)).map (·.request) ++ r.inFlight.toList

/-- Whether a mode was set after the last chunk that had a byte in it. -/
def modeSetBy (told : Bool) : Event → Bool
  | .setMode _ => true
  | .output chunk => told && chunk.isEmpty
  | _ => told

def modeSet (events : List Event) : Bool := events.foldl modeSetBy false

/-- The same bytes lie in the buffer, and blanks are owed to the last prompt or not. -/
structure SameReading (r s : Relay) : Prop where
  buffer : s.buffer = r.buffer
  owes : s.owesBlanks = r.owesBlanks

theorem SameReading.trans {r s t : Relay} (first : SameReading r s) (later : SameReading s t) :
    SameReading r t :=
  ⟨later.buffer.trans first.buffer, later.owes.trans first.owes⟩

theorem perform_sameReading (r : Relay) (q : Request) : SameReading r (r.perform q) := by
  rcases perform_cases r q with ⟨_, _, _, eq, _⟩ | ⟨_, eq⟩ <;> rw [eq] <;> exact ⟨rfl, rfl⟩

theorem dispatch_sameReading (r : Relay) : SameReading r r.dispatch := by
  obtain ⟨last, rest, eq, kept, _⟩ := dispatchFrom_induction (P := fun s _ => SameReading r s)
    (fun s q _ _ h => h.trans (perform_sameReading s q)) (r := r) r.queue ⟨rfl, rfl⟩
  rw [dispatch, eq]
  exact ⟨kept.buffer, kept.owes⟩

/-- The empty line is no prompt, so an empty buffer is no reply. -/
theorem empty_incomplete (mode : Mode) : mode.completes LineBuffer.empty.view = false := by
  refine completes_eq_false mode fun line mem => ?_
  have blank : line = "" := List.mem_singleton.mp mem
  rw [blank]
  decide

/-- What holds of requests and lines between two events of an open relay. -/
structure Exclusive (r : Relay) : Prop where
  unheld : r.inFlight.isSome → r.held = none
  lines : r.written = r.taken.filterMap (·.line)

theorem Exclusive.perform {r : Relay} (h : Exclusive r) (idle : r.inFlight = none) (q : Request) :
    Exclusive (r.perform q) := by
  have before : r.written = ((r.resolved.filter (·.replied)).map (·.request)).filterMap (·.line) := by
    simpa [taken, idle] using h.lines
  rcases perform_cases r q with ⟨input, held, result, eq, _, _, settled⟩ | ⟨input, eq⟩
  · rw [eq]
    refine ⟨fun flying => by simp [resolve, idle] at flying, ?_⟩
    rcases settled with ⟨fault, rfl⟩ | ⟨flush, _, reply, _, rfl⟩
    · have unasked : Resolution.replied ⟨q, .error fault⟩ = false := rfl
      simpa [resolve, taken, idle, unasked] using before
    · have asked : Resolution.replied ⟨q, .ok reply⟩ = true := rfl
      simpa [resolve, taken, idle, asked, flush] using before
  · rw [eq]
    refine ⟨fun _ => rfl, ?_⟩
    cases hl : q.line <;> simp [taken, before, hl]

theorem Exclusive.dispatch {r : Relay} (h : Exclusive r) : Exclusive r.dispatch := by
  obtain ⟨last, rest, eq, kept, _⟩ := dispatchFrom_induction (P := fun s _ => Exclusive s)
    (fun _ q _ idle kept => kept.perform idle q) (r := r) r.queue h
  rw [Relay.dispatch, eq]
  exact ⟨kept.unheld, kept.lines⟩

theorem Exclusive.complete {r : Relay} (h : Exclusive r) (view : List String) :
    Exclusive (r.complete view) := by
  unfold Relay.complete
  cases flying : r.inFlight with
  | none => exact ⟨fun now => by simp at now, by simpa [taken, flying] using h.lines⟩
  | some q =>
    refine ⟨fun now => by simp [resolve] at now, ?_⟩
    have asked : Resolution.replied ⟨q, .ok (.ofLines view)⟩ = true := rfl
    simpa [resolve, taken, flying, asked] using h.lines

/-- What holds of the output between two events of an open relay. If no mode was set after the last
chunk, what is left of it is no whole reply. -/
structure Unfinished (modeSet : Bool) (r : Relay) : Prop where
  blank : r.owesBlanks = true → r.buffer = .empty
  incomplete : modeSet = false → r.mode.completes r.buffer.view = false

theorem Unfinished.of_same {told : Bool} {r s : Relay} (h : Unfinished told r)
    (reading : SameReading r s) (setting : SameSetting r s) : Unfinished told s := by
  obtain ⟨buffer, owes⟩ := reading
  refine ⟨fun owed => ?_, fun unset => ?_⟩
  · rw [buffer]
    exact h.blank (owes.symm.trans owed)
  · rw [buffer, setting.mode]
    exact h.incomplete unset

theorem Unfinished.dispatch {told : Bool} {r : Relay} (h : Unfinished told r) :
    Unfinished told r.dispatch := h.of_same (dispatch_sameReading r) (dispatch_sameSetting r)

/-- A chunk without the blanks that the last prompt still owes. -/
def unowed (r : Relay) (chunk : List UInt8) : List UInt8 :=
  if r.owesBlanks then chunk.dropWhile isOwedBlank else chunk

/-- What an open relay makes of a chunk that has nothing but owed blanks. -/
theorem output_spent {r : Relay} (isOpen : r.closed = none) {chunk : List UInt8}
    (spent : r.unowed chunk = []) : r.output chunk = r.dispatch := by
  unfold unowed at spent
  simp only [Relay.output, isOpen, spent, Option.isSome_none, Bool.false_eq_true, if_false,
    List.isEmpty_nil, if_true]

/-- What an open relay makes of a chunk in which something new comes. -/
theorem output_read {r : Relay} (isOpen : r.closed = none) {chunk : List UInt8}
    (ink : r.unowed chunk ≠ []) :
    let fuller := { r with owesBlanks := false, buffer := r.buffer.push (r.unowed chunk) }
    (r.mode.completes fuller.buffer.view = true ∧
        r.output chunk = (fuller.complete fuller.buffer.view).dispatch) ∨
      (r.mode.completes fuller.buffer.view = false ∧ r.output chunk = fuller.dispatch) := by
  have read : r.output chunk = ({ r with owesBlanks := false }.absorb (r.unowed chunk)).dispatch := by
    unfold unowed at ink ⊢
    simp only [Relay.output, isOpen, Option.isSome_none, Bool.false_eq_true, if_false,
      List.isEmpty_iff, ink]
  intro fuller
  rw [read]
  cases whole : r.mode.completes fuller.buffer.view with
  | true => exact Or.inl ⟨rfl, by rw [absorb, if_pos whole]⟩
  | false => exact Or.inr ⟨rfl, by rw [absorb, if_neg (Bool.eq_false_iff.mp whole)]⟩

/-- Blanks are owed, or the bytes are read and make a reply, or they do not: in each case nothing
whole is left in the buffer. -/
theorem output_steady {told : Bool} {r : Relay} (exclusive : Exclusive r) (unfinished : Unfinished told r)
    (isOpen : r.closed = none) (chunk : List UInt8) :
    Exclusive (r.output chunk) ∧ Unfinished (told && chunk.isEmpty) (r.output chunk) := by
  by_cases spent : r.unowed chunk = []
  · rw [output_spent isOpen spent]
    refine ⟨exclusive.dispatch, Unfinished.dispatch ⟨unfinished.blank, fun unset => ?_⟩⟩
    by_cases owed : r.owesBlanks = true
    · rw [unfinished.blank owed]
      exact empty_incomplete r.mode
    · have nothing : chunk = [] := by simpa [unowed, owed] using spent
      exact unfinished.incomplete (by simpa [nothing] using unset)
  · have fuller : Exclusive { r with owesBlanks := false, buffer := r.buffer.push (r.unowed chunk) } :=
      ⟨exclusive.unheld, exclusive.lines⟩
    rcases output_read isOpen spent with ⟨_, eq⟩ | ⟨part, eq⟩ <;> rw [eq]
    · refine ⟨(fuller.complete _).dispatch, Unfinished.dispatch ?_⟩
      unfold complete
      split <;> exact ⟨fun _ => rfl, fun _ => empty_incomplete r.mode⟩
    · exact ⟨fuller.dispatch, Unfinished.dispatch ⟨fun owed => by simp at owed, fun _ => part⟩⟩

/-- What was told of the end of the output stays told. -/
theorem isOpen_before {r : Relay} {e : Event} (isOpen : (r.act e).closed = none) : r.closed = none := by
  cases hc : r.closed with
  | none => rfl
  | some reason =>
    rw [(closed_act hc e).closed] at isOpen
    cases isOpen

/-- No event of a relay that stays open puts a second line in flight, or leaves a reply lying. -/
theorem act_steady {told : Bool} {r : Relay} (mail : r.closed = none → r.mailOpen = true)
    (h : r.closed = none → Exclusive r ∧ Unfinished told r) (e : Event)
    (isOpen : (r.act e).closed = none) :
    Exclusive (r.act e) ∧ Unfinished (modeSetBy told e) (r.act e) := by
  have before := isOpen_before isOpen
  obtain ⟨exclusive, unfinished⟩ := h before
  cases e with
  | post line =>
    rcases accept_cases r line with eq | ⟨_, _, eq⟩ <;> rw [act, eq]
    · exact ⟨exclusive, unfinished⟩
    · exact ⟨⟨exclusive.unheld, exclusive.lines⟩, ⟨unfinished.blank, unfinished.incomplete⟩⟩
  | receive =>
    rcases receive_cases r with eq | ⟨_, q, rest, _, eq⟩ <;> rw [act, eq]
    · exact ⟨exclusive, unfinished⟩
    · exact ⟨Exclusive.dispatch ⟨exclusive.unheld, exclusive.lines⟩,
        Unfinished.dispatch ⟨unfinished.blank, unfinished.incomplete⟩⟩
  | output chunk => exact output_steady exclusive unfinished before chunk
  | setMode mode => exact ⟨⟨exclusive.unheld, exclusive.lines⟩, ⟨unfinished.blank, fun told => by cases told⟩⟩
  | turnInput input =>
    simp only [act, turnInput]
    split
    next => exact ⟨exclusive, unfinished⟩
    next => exact ⟨⟨exclusive.unheld, exclusive.lines⟩, ⟨unfinished.blank, unfinished.incomplete⟩⟩
  | announce reason =>
    simp [act, announce, before] at isOpen
  | shut =>
    rw [show r.act .shut = r by simp [act, shut, before]]
    exact ⟨exclusive, unfinished⟩
  | drain =>
    rw [show r.act .drain = r by simp [act, drain, mail before]]
    exact ⟨exclusive, unfinished⟩

theorem after_steady (input : InputEnd) (events : List Event) :
    ((start input).after events).closed = none →
      Exclusive ((start input).after events) ∧
        Unfinished (modeSet events) ((start input).after events) := by
  induction events using List.reverseRecOn with
  | nil => exact fun _ => ⟨⟨fun _ => rfl, rfl⟩, ⟨fun _ => rfl, fun _ => empty_incomplete .either⟩⟩
  | append_singleton events e ih =>
    intro isOpen
    rw [after_append] at isOpen ⊢
    rw [show modeSet (events ++ [e]) = modeSetBy (modeSet events) e by simp [modeSet]]
    exact act_steady (after_mail input events) ih e isOpen

end Relay

namespace Switchboard

/-- Calls and cancellations set no mode. -/
theorem Served.play_modes {b : Desk} {s : Session} {ledger : List (Option Nat)} {gone : List Nat}
    (h : Served b s ledger gone) (turns : List Turn) (told : Bool) :
    ∃ s' ledger' gone' events, Served (b.play turns) s' ledger' gone' ∧
      s'.relay = s.relay.after events ∧
      events.foldl Relay.modeSetBy told = (turns.flatMap Turn.events).foldl Relay.modeSetBy told := by
  induction turns generalizing b s ledger gone told with
  | nil => exact ⟨s, ledger, gone, [], h, rfl, rfl⟩
  | cons t later ih =>
    obtain ⟨s', entries, events, served, relay, own⟩ := h.turn t
    have same : events.foldl Relay.modeSetBy told = t.events.foldl Relay.modeSetBy told := by
      rcases own with rfl | ⟨none, line, rfl⟩
      · rfl
      · rw [none]
        rfl
    obtain ⟨s'', ledger', gone', events', served', relay', same'⟩ :=
      ih served (t.events.foldl Relay.modeSetBy told)
    refine ⟨s'', ledger', gone', events ++ events', served', ?_, ?_⟩
    · rw [relay', relay, Relay.after_append]
    · rw [List.foldl_append, same, same', List.flatMap_cons, List.foldl_append]

/-- Whatever callers ask, however they go away, and whatever the REPL prints, refuses or changes:
before the end of the output nobody waits for the REPL while it has nothing to do, no reply lies
unclaimed while one is awaited, and nothing is buffered while blanks are owed. The lines written are
those of the commands that have their replies and the one in flight, if that is a command. What is
buffered is no whole reply, unless the mode was set after it came. -/
theorem one_line_awaits_its_reply (input : InputEnd) (turns : List Turn) {r : Relay}
    (here : ((single input).play turns).relayAt 0 = some r) (isOpen : r.closed = none) :
    (r.queue ≠ [] → r.inFlight.isSome) ∧
      (r.inFlight.isSome → r.held = none) ∧
      (r.owesBlanks = true → r.buffer = .empty) ∧
      (r.written.length =
          r.resolved.countP (fun x => x.replied && x.request.line.isSome) +
            if (r.inFlight.bind (·.line)).isSome then 1 else 0) ∧
      r.written =
        (r.resolved.filter (·.replied)).filterMap (·.request.line) ++
          (r.inFlight.bind (·.line)).toList ∧
      (Relay.modeSet (turns.flatMap Turn.events) = false →
        r.mode.completes r.buffer.view = false) := by
  obtain ⟨s, _, _, events, served, relay, same⟩ := (single_served input).play_modes turns false
  have run : r = (Relay.start input).after events := by
    have first : s.relay = r := by simpa [relayAt, served.alone] using here
    exact first.symm.trans relay
  subst run
  obtain ⟨exclusive, unfinished⟩ := Relay.after_steady input events isOpen
  have busy := Relay.after_busy input events
  generalize (Relay.start input).after events = r at *
  have lines : r.written =
      (r.resolved.filter (·.replied)).filterMap (·.request.line) ++
        (r.inFlight.bind (·.line)).toList := by
    rw [exclusive.lines, Relay.taken, List.filterMap_append, List.filterMap_map]
    cases flying : r.inFlight with
    | none => rfl
    | some q => cases hl : q.line <;> simp [hl]
  refine ⟨fun waiting => ?_, exclusive.unheld, unfinished.blank, ?_, lines, ?_⟩
  · by_contra idle
    exact waiting (busy (by simpa using idle))
  · rw [lines, List.length_append, List.length_filterMap_eq_countP, List.countP_filter]
    cases (r.inFlight.bind (·.line)) <;> simp [Bool.and_comm]
  · rw [Relay.modeSet, ← same]
    exact unfinished.incomplete

/-- The first of two commands has its reply, whose prompt still owes its blank; the second is on its
way, and a flush waits behind it. -/
theorem second_line_awaits_its_reply :
    ∃ r, ((single .pipe).play [.call (some "x = 1"), .call (some "y"), .relay .receive, .relay .receive,
        .call none, .relay (.setMode .normal), .relay (.output (utf8Bytes "octave:2>")),
        .relay .receive]).relayAt 0 = some r ∧
      r.inFlight.isSome ∧ r.held = none ∧ r.buffer = .empty ∧
      r.written.length = r.resolved.countP (fun x => x.replied && x.request.line.isSome) + 1 ∧
      r.mode.completes r.buffer.view = false := by
  obtain ⟨busy, unheld, blank, count, _, part⟩ := one_line_awaits_its_reply .pipe
    [.call (some "x = 1"), .call (some "y"), .relay .receive, .relay .receive, .call none,
      .relay (.setMode .normal), .relay (.output (utf8Bytes "octave:2>")), .relay .receive] rfl rfl
  have flying := busy (by decide)
  exact ⟨_, rfl, flying, unheld flying, blank rfl, count, part rfl⟩

end Switchboard

end PromptRelay
