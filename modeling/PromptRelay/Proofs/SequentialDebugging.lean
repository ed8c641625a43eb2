import PromptRelay.Proofs.DebugTurns
import PromptRelay.Proofs.LostInput
import PromptRelay.Proofs.ReachedRelays

namespace PromptRelay.ToolServer

variable {p : Debuggee} {i : Nat} {o s : ToolServer} {x₀ x : Session} {made : List DebugCommand}
  {tail read noticed unread : List UInt8} {episodes : List Episode} {underway : List DebugCommand}
  {count : UInt64}

theorem Debugs.traced (ready : Ready p i o x₀ tail) (run : Debugs p i o x₀ tail s made read noticed) :
    ∃ x episodes underway unread count,
      Traced p i o x₀ tail s made read noticed x episodes underway unread count := by
  induction run with
  | start => exact ⟨x₀, [], [], [], _, ready.traced⟩
  | call c oneLine nobody _ ih =>
    obtain ⟨x, episodes, underway, unread, count, h⟩ := ih
    obtain ⟨y, rest, h⟩ := h.call nobody oneLine
    exact ⟨y, episodes, [c], rest, count, h⟩
  | hears e outputs process sent here effect printed _ ih =>
    obtain ⟨x, episodes, underway, unread, count, h⟩ := ih
    cases h.here.symm.trans here
    rw [effect]
    exact ⟨_, episodes, underway, unread, count, h.hear process sent printed⟩
  | notices e diagnostics process sent here effect said _ ih =>
    obtain ⟨x, episodes, underway, unread, count, h⟩ := ih
    cases h.here.symm.trans here
    obtain ⟨rest, h⟩ := h.notice process sent said
    rw [effect]
    exact ⟨_, episodes, underway, rest, count, h⟩
  | receive _ ih =>
    obtain ⟨x, episodes, underway, unread, count, h⟩ := ih
    exact ⟨_, episodes, underway, unread, count, h.receive⟩
  | record _ ih =>
    obtain ⟨x, episodes, underway, unread, count, h⟩ := ih
    exact ⟨_, episodes, underway, unread, count, h.record⟩
  | deliver _ ih =>
    obtain ⟨x, episodes, underway, unread, count, h⟩ := ih
    obtain ⟨y, episodes, underway, count, h⟩ := h.deliver
    exact ⟨y, episodes, underway, unread, count, h⟩
  | endWait id _ ih =>
    obtain ⟨x, episodes, underway, unread, count, h⟩ := ih
    obtain ⟨y, episodes, underway, count, h⟩ := h.endWait id
    exact ⟨y, episodes, underway, unread, count, h⟩
  | passTime moment inTime _ ih =>
    obtain ⟨x, episodes, underway, unread, count, h⟩ := ih
    exact ⟨x, episodes, underway, unread, count, h.passTime inTime⟩

/-- When nothing is left to read or to do, nobody waits. -/
theorem Traced.returned (h : Traced p i o x₀ tail s made read noticed x episodes underway unread count)
    (few : x₀.board.count.toNat + p.stopCount made.length < UInt64.size) (idle : s.next? = none)
    (everything :
      tail ++ transcript p.answers (x.relay.written.length - x₀.relay.written.length) = read)
    (all : p.spoken (x.relay.written.length - x₀.relay.written.length) = noticed) : s.board.calls = [] := by
  have still := board_idle idle
  obtain ⟨nothing, received, recorded⟩ := session_of_idle still h.here
  obtain ⟨delivered, written⟩ := h.live.handed_all everything received nothing
  have turns := congrArg List.length h.commands
  cases h.stage with
  | resting nobody => exact nobody
  | asked c waits handed =>
    simp only [List.length_append, List.length_map, List.length_singleton] at turns
    omega
  | stopping c reply deadline fits stops waits handed debugging inTime senses =>
    have read : unread = [] := by
      have heard := h.heard
      rw [← all, written] at heard
      exact List.self_eq_append_right.mp heard.symm
    cases senses with
    | ahead due => exact absurd read (due stops)
    | found stop told whole one =>
      rw [recorded h.live.recording] at one
      cases one
    | recorded stop told whole nothing held reads =>
      have unmet := no_stop_of_idle still (c := ⟨_, i, .stop count deadline _⟩)
        (by rw [waits]; exact List.mem_singleton_self _)
      have met := Senses.newer_of_counted stop (h.room few stops)
      simp only [Switchboard.stopFor?, h.here, Option.bind_some, held, met] at unmet
      cases unmet

/-- Calls that run, continue and step a program one at a time follow what its REPL does. Each that comes
back has the stop of its own turn if its reply ended at the debug prompt, and none else. Between the calls
the session is stopped with that stop, or idle with none; its call stack is that of the stop; and its
counter has grown by the banners printed. Every call comes back, as long as the counter does not run
over. -/
theorem calls_follow_debugged_program (p : Debuggee) {i : Nat} {o s : ToolServer} {x₀ : Session}
    {made : List DebugCommand} {tail read noticed : List UInt8} (ready : Ready p i o x₀ tail)
    (run : Debugs p i o x₀ tail s made read noticed) :
    ∃ x episodes, s.board.sessions[i]? = some x ∧
      s.board.results =
        o.board.results ++ numbered o.board.started (answersFrom x₀.board.last episodes) ∧
      (∀ k e, episodes[k]? = some e → made[k]? = some e.command ∧ p.Tells k e.stop ∧
        (p.answers k).Fits e.reply ∧ e.stop.isSome = e.reply.inDebugMode) ∧
      (s.board.calls = [] → episodes.length = made.length ∧ (made ≠ [] →
        let last := lastStop x₀.board.last episodes
        x.state = (if last.isSome then .stopped else .idle) ∧ x.board.last = last ∧
          x.board.count = x₀.board.count + UInt64.ofNat (p.stopCount made.length) ∧
          (s.call .stack).board.results = s.board.results ++
            [(s.board.started, .ok (.stack x.state ((last.map (·.frames)).getD [])))])) ∧
      (x₀.board.count.toNat + p.stopCount made.length < UInt64.size → s.next? = none →
        tail ++ transcript p.answers (x.relay.written.length - x₀.relay.written.length) = read →
        p.spoken (x.relay.written.length - x₀.relay.written.length) = noticed → s.board.calls = []) := by
  obtain ⟨x, episodes, underway, unread, count, h⟩ := run.traced ready
  refine ⟨x, episodes, h.here, h.results, fun k e he => ?_, fun nobody => ?_, h.returned⟩
  · obtain ⟨told, fits⟩ := h.told k e he
    have own : made[k]? = some e.command := by
      have place := (List.getElem?_eq_some_iff.mp he).1
      rw [h.commands, List.getElem?_append_left (by simpa using place), List.getElem?_map, he]
      rfl
    refine ⟨own, told, fits, ?_⟩
    rw [Debuggee.isSome_of_tells told, p.prompts, fits.inDebugMode]
  · cases h.stage with
    | asked c waits =>
      rw [nobody] at waits
      cases waits
    | stopping c reply deadline fits stops waits =>
      rw [nobody] at waits
      cases waits
    | resting _ handed nothing last counted noted reads =>
      have turns : episodes.length = made.length := by
        rw [h.commands]
        simp
      refine ⟨turns, fun called => ?_⟩
      have debugging := noted fun none => called (List.eq_nil_of_length_eq_zero (turns ▸ none))
      refine ⟨?_, last, ?_, ?_⟩
      · simp [Session.state, Relay.isClosed, h.live.isOpen, debugging, SessionState.resolve]
      · rw [counted, h.counted, turns]
      · rw [call_begin h.free,
          stack_results (s := { s with board := s.board.enter }) h.current h.here, last]
        rfl

/-- Whatever happened before, a live session is ready when nobody calls, and what was printed up to now was
read: of the output no more is left than the newline of the last prompt, and of the diagnostics nothing. -/
theorem run_ready {host : Host} {happenings : List Happening}
    (current : ((start host).run happenings).current = some i)
    (free : ((start host).run happenings).launching = none)
    (nobody : ((start host).run happenings).board.calls = [])
    (here : ((start host).run happenings).board.sessions[i]? = some x) (recording : x.recording = true)
    (running : x.exit = none) (pipe : x.relay.input = .pipe) (isOpen : x.relay.closed = none)
    (position : ∃ kept, x.relay.buffer = LineBuffer.empty.push kept ∧
      (x.relay.owesBlanks = true → kept = []) ∧
      Relay.Leftover (Relay.ahead x.relay.owesBlanks kept tail))
    (nothing : x.notices = []) (reads : x.scanner.Reads p.earlier []) :
    Ready p i ((start host).run happenings) x tail := by
  have known := (run_kept host happenings).tracked i x here
  obtain ⟨input, events, reached⟩ := run_reached host happenings x (List.mem_of_getElem? here)
  have mail : x.relay.mailOpen = true := by
    rw [reached] at isOpen ⊢
    exact Relay.after_mail input events isOpen
  obtain ⟨handed, idle⟩ := known.past_of_nobody fun c mem => by
    rw [nobody] at mem
    cases mem
  have settled : x.relay.resolved.length = x.relay.issued := by
    have lengths := congrArg List.length known.orderly.tickets
    simpa [Relay.row, idle] using lengths
  exact ⟨current, free, nobody, here, recording, running, known.either, known.orderly,
    ⟨pipe, isOpen, mail, idle, position⟩, handed.trans settled.symm, nothing, reads⟩

/-- A launch that succeeded leaves a ready session, once what its program printed was read. -/
theorem launched_ready {host : Host} {happenings : List Happening} {l : Launch}
    (launching : ((start host).run happenings).launching = some l)
    (succeeded : (((start host).run happenings).board.results.lookup l.id).any (·.isOk) = true)
    (nobody : ((start host).run happenings).board.calls = [])
    (here : ((start host).run happenings).board.sessions[l.place]? = some x) (running : x.exit = none)
    (pipe : x.relay.input = .pipe) (isOpen : x.relay.closed = none)
    (position : ∃ kept, x.relay.buffer = LineBuffer.empty.push kept ∧
      (x.relay.owesBlanks = true → kept = []) ∧
      Relay.Leftover (Relay.ahead x.relay.owesBlanks kept tail))
    (nothing : x.notices = []) (reads : x.scanner.Reads p.earlier []) :
    Ready p l.place ((start host).run (happenings ++ [.conclude])) { x with recording := true } tail := by
  have concluded : (start host).run (happenings ++ [.conclude]) =
      { (start host).run happenings with
        board := ((start host).run happenings).board.modify l.place fun s => { s with recording := true }
        current := some l.place, launching := none } := by
    have last : (start host).run (happenings ++ [.conclude]) =
        ((start host).run happenings).happen .conclude := List.foldl_concat ..
    obtain ⟨outcome, told, fine⟩ := (Option.any_eq_true _ _).mp succeeded
    rw [last, happen, concludeLaunch?, launching, Option.bind_eq_bind, Option.bind_some, told]
    cases outcome with
    | ok answer => rfl
    | error fault => cases fine
  refine run_ready ?_ ?_ ?_ ?_ rfl running pipe isOpen position nothing reads
  · rw [concluded]
  · rw [concluded]
  · rw [concluded]
    exact nobody
  · rw [concluded]
    simp [Switchboard.modify, here]

/-- What a session exchanges with its process, as long as that lives, is part of the run. -/
theorem Debugs.exchange (ready : Ready p i o x₀ tail) (run : Debugs p i o x₀ tail s made read noticed)
    (n : Nat) (out err : List UInt8)
    (shows : s.board.sessions[i]?.map (fun x => (x.relay.written.length, x.fetch)) = some (n, out, err))
    (lives : (s.board.sessions[i]?.bind (·.process)).all (·.shown.lives) = true)
    (printed : read ++ out <+: tail ++ transcript p.answers (n - x₀.relay.written.length))
    (said : noticed ++ err <+: p.spoken (n - x₀.relay.written.length)) :
    Debugs p i o x₀ tail (s.happen (.exchange i)) made (read ++ out) (noticed ++ err) := by
  obtain ⟨x, _, _, _, _, h⟩ := run.traced ready
  have here := h.here
  rw [here, Option.map_some, Option.some.injEq, Prod.mk.injEq] at shows
  obtain ⟨rfl, fetched⟩ := shows
  obtain ⟨rfl, rfl⟩ : x.fetch.1 = out ∧ x.fetch.2 = err := by simp [fetched]
  have living : ∀ process ∈ x.process, process.shown.lives = true := by
    intro process own
    simpa [here, Option.mem_def.mp own] using lives
  have moved : s.happen (.exchange i) = s.withSession i (x.exchange?.getD x) := by
    simp only [happen, Switchboard.modify, modify_of_here here, withSession]
  obtain ⟨process, sent, ⟨silent, heard⟩ | ⟨quiet, noted⟩⟩ :=
    Session.exchange_reads h.live.running h.live.isOpen living
  · have whole := chunks_flatten x.fetch.1
    have next := Debugs.hears (.exchange i) (chunks x.fetch.1) process sent here (heard ▸ moved)
      (by rwa [whole]) run
    rwa [silent, List.append_nil, ← whole]
  · have whole := chunks_flatten x.fetch.2
    have next := Debugs.notices (.exchange i) (chunks x.fetch.2) process sent here (noted ▸ moved)
      (by rwa [whole]) run
    rwa [quiet, List.append_nil, ← whole]

/-- No more than a prompt. -/
def promptOnly (prompt : PromptForm) : Printout where
  body := []
  prompt := prompt
  space := true
  newline := false
  whole := LineBuffer.no_line_broken
  plain := Printout.no_line_prompted
  debugOnly := Bool.noConfusion

def turnInFoo : StopTurn where
  remarks := [utf8Bytes "warning: x is used"]
  banner := some (fooBanner.first, fooBanner.second)
  whole := by decide +kernel
  wholeBanner := by
    rintro _ ⟨⟩
    decide +kernel
  frames := by
    rintro _ ⟨⟩
    exact ⟨fooBanner.opens, fooBanner.closes⟩

def silentTurn : StopTurn where
  remarks := []
  banner := none
  whole := LineBuffer.no_line_broken
  wholeBanner := by rintro _ ⟨⟩
  frames := by rintro _ ⟨⟩

def turnsOnce : Nat → StopTurn
  | 0 => turnInFoo
  | _ => silentTurn

theorem since_once (k : Nat) : StopTurn.since [] turnsOnce (k + 1) = [] := by
  induction k with
  | zero => rfl
  | succ k ih =>
    change StopTurn.since [] turnsOnce (k + 1) ++ [] = []
    rw [ih, List.append_nil]

/-- A program that stops once and is done when it is continued. -/
def stopsOnce : Debuggee where
  answers
    | 0 => promptOnly (.debug false)
    | _ => promptOnly (.normal ['7'] ⟨List.cons_ne_nil _ _, List.forall_mem_singleton.mpr rfl⟩)
  earlier := []
  turns := turnsOnce
  whole := LineBuffer.no_line_broken
  quiet := by
    intro k
    refine quiet_of_length_le ?_
    cases k with
    | zero => exact Nat.le_refl 1
    | succ k =>
      rw [since_once]
      exact Nat.zero_le 1
  prompts := by
    intro k
    cases k <;> rfl

def fooNotice : StopNotice :=
  .ofLines ["warning: x is used", "stopped in foo at line 3", "3: x = 1"]

/-- A process that prints on its output and its diagnostics what is listed here for its start and for each
line after it. -/
def printer (prints : Nat → String × String) : Process where
  conduct past :=
    let meet : Bearing × Nat → Contact → Bearing × Nat
      | (b, n), .line _ => ({ b with
          stdout := b.stdout ++ utf8Bytes (prints (n + 1)).1
          stderr := b.stderr ++ utf8Bytes (prints (n + 1)).2 }, n + 1)
      | (b, n), .takeOutput => ({ b with stdout := [] }, n)
      | (b, n), .takeDiagnostics => ({ b with stderr := [] }, n)
      | met, _ => met
    (past.foldl meet
      (⟨utf8Bytes (prints 0).1, utf8Bytes (prints 0).2, true, true, true, false, none⟩, 0)).1
  past := []

/-- A host on which every program is the same REPL: it greets, takes its setup, and then runs a program that
stops once. -/
def greetingHost : Host where
  environment := ⟨none, none, none⟩
  spawn _ := .ok <| printer fun
    | 0 => ("Welcome.\noctave:1> ", "")
    | 5 => ("debug> ", "warning: x is used\nstopped in foo at line 3\n3: x = 1\n")
    | 6 => ("octave:7> ", "")
    | _ => ("octave:2> ", "")

/-- One command reaches the process, and its reply the call. -/
def commanded : List Happening :=
  [.move (.relay 0 .receive) (Eq.refl true), .exchange 0, .exchange 0, .move (.deliver 0) (Eq.refl true)]

/-- A launch up to its answer. -/
def launchedOnce : List Happening :=
  [.call (.launch ⟨none, none, none⟩), .move (.relay 0 .receive) (Eq.refl true), .exchange 0,
    .move (.deliver 0) (Eq.refl true)] ++ commanded ++ commanded ++ commanded ++ commanded

/-- The banner comes before the prompt, and the program is continued. -/
def stoppedThenDone : List Happening :=
  [.call (.run "foo"), .move (.relay 0 .receive) (Eq.refl true), .exchange 0, .exchange 0,
    .move (.record 0) (Eq.refl true), .exchange 0, .move (.deliver 0) (Eq.refl true), .call .resume] ++
    commanded

theorem launchedOnce_ready :
    ∃ x, Ready stopsOnce 0 ((start greetingHost).run (launchedOnce ++ [.conclude])) x [] ∧
      x.board = .start ∧ x.relay.written.length = 4 := by
  have shows : ((start greetingHost).run launchedOnce).board.sessions[0]?.map (fun x =>
      (x.exit, x.relay.input, x.relay.closed, x.relay.buffer, x.relay.owesBlanks)) =
      some (none, .pipe, none, .empty, false) := by decide +kernel
  have knows : ((start greetingHost).run launchedOnce).board.sessions[0]?.map (fun x =>
      (x.notices, x.scanner, x.board, x.relay.written.length)) =
      some ([], .start, .start, 4) := by decide +kernel
  obtain ⟨x, here, facts⟩ := Option.map_eq_some_iff.mp shows
  rw [here, Option.map_some, Option.some.injEq] at knows
  simp only [Prod.mk.injEq] at facts knows
  obtain ⟨running, pipe, isOpen, buffer, owes⟩ := facts
  obtain ⟨nothing, scanner, board, wrote⟩ := knows
  have position : Relay.Leftover (Relay.ahead x.relay.owesBlanks [] []) := .inl (by rw [owes]; rfl)
  have launched := launched_ready (p := stopsOnce) (l := ⟨0, 0, "octave-cli", launchLimit⟩)
    (by decide +kernel) (by decide +kernel) (List.isEmpty_iff.mp (by decide +kernel)) here running pipe
    isOpen ⟨[], buffer, fun _ => rfl, position⟩ nothing (scanner ▸ StopScanner.start_reads)
  exact ⟨_, launched, board, wrote⟩

theorem debugs_stoppedThenDone {x : Session}
    (ready : Ready stopsOnce 0 ((start greetingHost).run (launchedOnce ++ [.conclude])) x [])
    (wrote : x.relay.written.length = 4) :
    Debugs stopsOnce 0 ((start greetingHost).run (launchedOnce ++ [.conclude])) x []
      ((start greetingHost).run (launchedOnce ++ [.conclude] ++ stoppedThenDone)) [.run "foo", .resume]
      (utf8Bytes "debug> " ++ utf8Bytes "octave:7> ")
      (utf8Bytes "warning: x is used\nstopped in foo at line 3\n3: x = 1\n") := by
  have begun : Debugs stopsOnce 0 ((start greetingHost).run (launchedOnce ++ [.conclude])) x [] _ [] [] []
    := .start
  have asked := (begun.call (.run "foo") rfl (List.isEmpty_iff.mp (by decide +kernel))).receive
  have reached := asked.exchange ready 5 [] [] (by decide +kernel) (by decide +kernel)
    (by rw [wrote]; decide +kernel) (by rw [wrote]; decide +kernel)
  have told := reached.exchange ready 5 []
    (utf8Bytes "warning: x is used\nstopped in foo at line 3\n3: x = 1\n") (by decide +kernel)
    (by decide +kernel) (by rw [wrote]; decide +kernel) (by rw [wrote]; decide +kernel)
  have replied := told.record.exchange ready 5 (utf8Bytes "debug> ") [] (by decide +kernel)
    (by decide +kernel) (by rw [wrote]; decide +kernel) (by rw [wrote]; decide +kernel)
  have resumed :=
    (replied.deliver.call .resume rfl (List.isEmpty_iff.mp (by decide +kernel))).receive
  have reached := resumed.exchange ready 6 [] [] (by decide +kernel) (by decide +kernel)
    (by rw [wrote]; decide +kernel) (by rw [wrote]; decide +kernel)
  have ended := reached.exchange ready 6 (utf8Bytes "octave:7> ") [] (by decide +kernel)
    (by decide +kernel) (by rw [wrote]; decide +kernel) (by rw [wrote]; decide +kernel)
  exact ended.deliver

theorem stop_told_by_run_and_left_by_continue :
    let o := (start greetingHost).run (launchedOnce ++ [.conclude])
    let s := (start greetingHost).run (launchedOnce ++ [.conclude] ++ stoppedThenDone)
    ∃ x reply last, s.board.results = o.board.results ++
        [(1, .ok (.ran (.stopped fooNotice reply))),
          (2, .ok (.continued (.finished .idle last none) (some fooNotice)))] ∧
      s.board.sessions[0]? = some x ∧ x.state = .idle ∧ x.board.last = none ∧
      x.board.count.toNat = 1 := by
  obtain ⟨x₀, ready, board, wrote⟩ := launchedOnce_ready
  obtain ⟨x, episodes, here, results, told, between, _⟩ :=
    calls_follow_debugged_program stopsOnce ready (debugs_stoppedThenDone ready wrote)
  have started : ((start greetingHost).run (launchedOnce ++ [.conclude])).board.started = 1 := by
    decide +kernel
  rw [board] at results between
  rw [started] at results
  obtain ⟨length, rest⟩ := between (List.isEmpty_iff.mp (by decide +kernel))
  obtain ⟨idle, last, count, _⟩ := rest (List.cons_ne_nil _ _)
  obtain ⟨⟨command, stop, reply⟩, ⟨command', stop', reply'⟩, rfl⟩ := List.length_eq_two.mp length
  obtain ⟨first, ⟨lost, few, own⟩, _⟩ := told 0 _ rfl
  obtain ⟨second, none, _⟩ := told 1 _ rfl
  cases first
  cases second
  cases (none : stop' = _)
  have kept : lost = 0 := Nat.le_zero.mp few
  rw [kept] at own
  have notice : stop = some fooNotice := own.trans (by decide +kernel)
  cases notice
  refine ⟨x, reply, reply', results, here, idle, last, ?_⟩
  rw [count]
  decide +kernel

end PromptRelay.ToolServer
