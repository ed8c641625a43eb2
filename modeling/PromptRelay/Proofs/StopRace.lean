import PromptRelay.StopBoard

namespace PromptRelay

/-- Where the recorder is in the three steps in which it records a stop. -/
inductive Recorder where
  | idle
  | marked (stop : StopNotice)
  | held
  deriving DecidableEq

/-- Where somebody is who waits for a stop past a count: about to look at the counter, past it and
about to read the stop, after a look in vain, or at the end of the wait. -/
inductive Watcher where
  | looking
  | past
  | missed
  | told (stop : StopNotice)
  | timedOut
  deriving DecidableEq

/-- A board on which the stops to come are recorded while somebody waits for one. -/
structure StopRace where
  board : StopBoard
  coming : List StopNotice
  recorder : Recorder
  watcher : Watcher

namespace StopRace

/-- The single steps that may come in any order: three of the recorder, two that other callers make on
the board, and those of the wait, where time tells whether a look in vain is the last one. -/
inductive Act where
  | mark
  | hold
  | bump
  | clear
  | note (inDebugMode : Bool)
  | load
  | read
  | sleep
  | giveUp
  deriving DecidableEq

def start (board : StopBoard) (stops : List StopNotice) : StopRace := ⟨board, stops, .idle, .looking⟩

/-- One step, if its turn has come, of a race in which stops past the count `seen` are waited for. -/
def act? (seen : UInt64) (s : StopRace) : Act → Option StopRace
  | .mark =>
    match s.recorder, s.coming with
    | .idle, stop :: rest =>
      some { s with board := s.board.markStopped, coming := rest, recorder := .marked stop }
    | _, _ => none
  | .hold =>
    match s.recorder with
    | .marked stop => some { s with board := s.board.hold stop, recorder := .held }
    | _ => none
  | .bump =>
    match s.recorder with
    | .held => some { s with board := s.board.bump, recorder := .idle }
    | _ => none
  | .clear => some { s with board := s.board.clear }
  | .note inDebugMode => some { s with board := s.board.noteReply inDebugMode }
  | .load =>
    match s.watcher with
    | .looking => some { s with watcher := if seen < s.board.count then .past else .missed }
    | _ => none
  | .read =>
    match s.watcher with
    | .past => some { s with watcher := s.board.last.elim .missed .told }
    | _ => none
  | .sleep =>
    match s.watcher with
    | .missed => some { s with watcher := .looking }
    | _ => none
  | .giveUp =>
    match s.watcher with
    | .missed => some { s with watcher := .timedOut }
    | _ => none

/-- The states of a race with the steps that led to them. -/
inductive Races (seen : UInt64) (first : StopRace) : List Act → StopRace → Prop where
  | start : Races seen first [] first
  | next {acts : List Act} {s t : StopRace} (a : Act) :
      Races seen first acts s → s.act? seen a = some t → Races seen first (acts ++ [a]) t

/-- Steps of the recorder with nothing in between are the one move in which a session records a stop. -/
theorem record_undisturbed (seen : UInt64) {s : StopRace} {stop : StopNotice} {rest : List StopNotice}
    (idle : s.recorder = .idle) (next : s.coming = stop :: rest) :
    Races seen s [.mark, .hold, .bump]
      { s with board := s.board.record stop, coming := rest } := by
  have marked : s.act? seen .mark =
      some { s with board := s.board.markStopped, coming := rest, recorder := .marked stop } := by
    simp only [act?, idle, next]
  refine ((Races.start.next .mark marked).next .hold rfl).next .bump ?_
  simp [act?, StopBoard.record, ← idle]

/-- A look at the board with nothing in between finds the stop that a caller on a switchboard finds. -/
theorem look_undisturbed {seen : UInt64} {s : StopRace} (looks : s.watcher = .looking) :
    ∃ acts t, Races seen s acts t ∧ (acts = [.load] ∨ acts = [.load, .read]) ∧
      t = { s with watcher := (s.board.newer? seen).elim .missed .told } := by
  have loaded : s.act? seen .load =
      some { s with watcher := if seen < s.board.count then .past else .missed } := by
    simp only [act?, looks]
  have first := Races.start.next .load loaded
  by_cases past : seen < s.board.count
  · simp only [past, if_true] at first
    exact ⟨_, _, first.next .read rfl, Or.inr rfl, by simp [StopBoard.newer?, past]⟩
  · simp only [past, if_false] at first
    exact ⟨_, _, first, Or.inl rfl, by simp [StopBoard.newer?, past]⟩

/-- Stops by number, from the one that the board held at first. -/
def numbered (first : Option StopNotice) (stops : List StopNotice) : Nat → Option StopNotice
  | 0 => first
  | k + 1 => stops[k]?

/-- Every stop that was held has been cleared since. -/
def Cleared (first : Option StopNotice) (acts : List Act) : Prop :=
  (first ≠ none → .clear ∈ acts) ∧ ∀ early later, acts = early ++ .hold :: later → .clear ∈ later

theorem Cleared.snoc {first : Option StopNotice} {acts : List Act} (h : Cleared first acts) {a : Act}
    (other : a ≠ .hold) : Cleared first (acts ++ [a]) := by
  refine ⟨fun some => List.mem_append_left _ (h.1 some), fun early later split => ?_⟩
  rcases List.append_eq_append_iff.mp split with ⟨more, _, last⟩ | ⟨more, old, last⟩
  · have here : Act.hold ∈ [a] := by simp [last]
    exact absurd (List.mem_singleton.mp here).symm other
  · cases more with
    | nil => exact absurd (List.cons.inj last).1.symm other
    | cons b more =>
      obtain ⟨rfl, rfl⟩ := List.cons.inj last
      exact List.mem_append_left _ (h.2 early more old)

theorem cleared_clear (first : Option StopNotice) (acts : List Act) :
    Cleared first (acts ++ [.clear]) := by
  refine ⟨fun _ => by simp, fun early later split => ?_⟩
  rcases List.append_eq_append_iff.mp split with ⟨more, _, last⟩ | ⟨more, _, last⟩
  · have here : Act.hold ∈ [Act.clear] := by simp [last]
    simp at here
  · cases more with
    | nil => cases last
    | cons b more =>
      obtain ⟨_, rfl⟩ := List.cons.inj last
      simp

section Race

variable {board : StopBoard} {stops : List StopNotice} {seen : UInt64} {acts : List Act}
  {s t : StopRace}

/-- How far the recorder is in the three steps, by the steps that were made: `n` stops were held. -/
def RecorderAt (stops : List StopNotice) (marks bumps n : Nat) : Recorder → Prop
  | .idle => marks = n ∧ bumps = n
  | .marked stop => marks = n + 1 ∧ bumps = n ∧ stops[n]? = some stop
  | .held => marks = n ∧ bumps + 1 = n

/-- What holds of the board in a race. A stop is held before it is counted, so the one on the board is
never older than the counter says. -/
structure Recorded (board : StopBoard) (stops : List StopNotice) (acts : List Act) (s : StopRace) :
    Prop where
  counter : s.board.count = board.count + .ofNat (acts.count .bump)
  coming : ∃ gone, stops = gone ++ s.coming ∧ gone.length = acts.count .mark
  recorder : RecorderAt stops (acts.count .mark) (acts.count .bump) (acts.count .hold) s.recorder
  last : s.board.last = none ∨ s.board.last = numbered board.last stops (acts.count .hold)
  uncleared : .clear ∉ acts → s.board.last = numbered board.last stops (acts.count .hold)
  bare : s.board.last = none → Cleared board.last acts

theorem Recorded.bumps_le (h : Recorded board stops acts s) : acts.count .bump ≤ acts.count .hold := by
  have phase := h.recorder
  cases hr : s.recorder <;> rw [hr] at phase <;> simp only [RecorderAt] at phase <;> omega

theorem start_recorded (board : StopBoard) (stops : List StopNotice) :
    Recorded board stops [] (start board stops) where
  counter := by simp [start]
  coming := ⟨[], rfl, rfl⟩
  recorder := ⟨rfl, rfl⟩
  last := Or.inr rfl
  uncleared := fun _ => rfl
  bare := fun none => ⟨fun some => absurd none some, by simp⟩

/-- A step that leaves the stop on the board as it is. -/
theorem Recorded.keepStop (h : Recorded board stops acts s) {a : Act} (holds : a ≠ .hold)
    (last : t.board.last = s.board.last)
    (counter : t.board.count = board.count + .ofNat ((acts ++ [a]).count .bump))
    (coming : ∃ gone, stops = gone ++ t.coming ∧ gone.length = (acts ++ [a]).count .mark)
    (recorder : RecorderAt stops ((acts ++ [a]).count .mark) ((acts ++ [a]).count .bump)
      (acts.count .hold) t.recorder) :
    Recorded board stops (acts ++ [a]) t := by
  have same : (acts ++ [a]).count .hold = acts.count .hold := by
    rw [List.count_append, List.count_singleton, if_neg (by simpa using holds), Nat.add_zero]
  refine ⟨counter, coming, same ▸ recorder, ?_, fun stays => ?_, fun none => ?_⟩
  · rw [last, same]
    exact h.last
  · rw [last, same]
    exact h.uncleared fun early => stays (List.mem_append_left _ early)
  · exact (h.bare (last ▸ none)).snoc holds

/-- A step of somebody else than the recorder that does not clear the stop. -/
theorem Recorded.lookOn (h : Recorded board stops acts s) {a : Act}
    (other : a ∉ [.mark, .hold, .bump, .clear]) (last : t.board.last = s.board.last)
    (counter : t.board.count = s.board.count) (coming : t.coming = s.coming)
    (recorder : t.recorder = s.recorder) : Recorded board stops (acts ++ [a]) t := by
  simp only [List.mem_cons, List.not_mem_nil, or_false, not_or] at other
  obtain ⟨marks, holds, bumps, _⟩ := other
  have same : ∀ {b : Act}, a ≠ b → (acts ++ [a]).count b = acts.count b := by
    intro b apart
    rw [List.count_append, List.count_singleton, if_neg (by simpa using apart), Nat.add_zero]
  refine h.keepStop holds last ?_ ?_ ?_
  · rw [counter, same bumps]
    exact h.counter
  · rw [coming, same marks]
    exact h.coming
  · rw [recorder, same marks, same bumps]
    exact h.recorder

theorem Recorded.mark (h : Recorded board stops acts s) {stop : StopNotice} {rest : List StopNotice}
    (idle : s.recorder = .idle) (next : s.coming = stop :: rest) :
    Recorded board stops (acts ++ [.mark])
      { s with board := s.board.markStopped, coming := rest, recorder := .marked stop } := by
  have phase := h.recorder
  rw [idle] at phase
  obtain ⟨marks, bumps⟩ := phase
  obtain ⟨gone, split, length⟩ := h.coming
  rw [next] at split
  have here : stops[acts.count Act.mark]? = some stop := by
    simp [split, ← length]
  refine h.keepStop nofun rfl ?_ ⟨gone ++ [stop], by simp [split], by simp [length]⟩ ?_
  · simpa [StopBoard.markStopped] using h.counter
  · simpa [RecorderAt, ← marks, bumps] using here

theorem Recorded.hold (h : Recorded board stops acts s) {stop : StopNotice}
    (marked : s.recorder = .marked stop) :
    Recorded board stops (acts ++ [.hold])
      { s with board := s.board.hold stop, recorder := .held } := by
  have phase := h.recorder
  rw [marked] at phase
  obtain ⟨marks, bumps, own⟩ := phase
  have last : some stop = numbered board.last stops ((acts ++ [Act.hold]).count Act.hold) := by
    simpa [numbered] using own.symm
  refine ⟨?_, by simpa using h.coming, by simp [RecorderAt, marks, bumps], Or.inr last,
    fun _ => last, nofun⟩
  simpa [StopBoard.hold] using h.counter

theorem Recorded.bump (h : Recorded board stops acts s) (held : s.recorder = .held) :
    Recorded board stops (acts ++ [.bump]) { s with board := s.board.bump, recorder := .idle } := by
  have phase := h.recorder
  rw [held] at phase
  obtain ⟨marks, bumps⟩ := phase
  refine h.keepStop nofun rfl ?_ (by simpa using h.coming) (by simp [RecorderAt, marks, bumps])
  simp [StopBoard.bump, h.counter, UInt64.add_assoc]

theorem Recorded.clear (h : Recorded board stops acts s) :
    Recorded board stops (acts ++ [.clear]) { s with board := s.board.clear } := by
  refine ⟨?_, by simpa using h.coming, by simpa using h.recorder, Or.inl rfl,
    fun stays => absurd (by simp) stays, fun _ => cleared_clear _ _⟩
  simpa [StopBoard.clear] using h.counter

theorem Recorded.step (h : Recorded board stops acts s) {a : Act} (made : s.act? seen a = some t) :
    Recorded board stops (acts ++ [a]) t := by
  cases a with
  | mark =>
    simp only [act?] at made
    split at made
    next stop rest idle next =>
      cases made
      exact h.mark idle next
    next => cases made
  | hold =>
    simp only [act?] at made
    split at made
    next stop marked =>
      cases made
      exact h.hold marked
    next => cases made
  | bump =>
    simp only [act?] at made
    split at made
    next held =>
      cases made
      exact h.bump held
    next => cases made
  | clear =>
    cases made
    exact h.clear
  | note inDebugMode =>
    cases made
    exact h.lookOn (by simp) rfl rfl rfl rfl
  | load | read | sleep | giveUp =>
    simp only [act?] at made
    split at made
    next =>
      cases made
      exact h.lookOn (by simp) rfl rfl rfl rfl
    next => cases made

theorem races_recorded (run : Races seen (start board stops) acts s) : Recorded board stops acts s := by
  induction run with
  | start => exact start_recorded board stops
  | next a _ made ih => exact ih.step made

/-- The last look of a wait was in vain: the counter was still at most `seen`, or no stop was held. -/
def LookedInVain (board : StopBoard) (stops : List StopNotice) (seen : UInt64) (acts : List Act) : Prop :=
  ∃ before look since r, acts = before ++ look :: since ∧ Races seen (start board stops) before r ∧
    .load ∉ since ∧ .read ∉ since ∧
      (look = .load ∧ r.board.count ≤ seen ∨
        look = .read ∧ r.board.last = none ∧ Cleared board.last before)

/-- A stop that a wait tells is the newest one held when it was read, and is counted past `seen`. -/
def ToldNewest (board : StopBoard) (stops : List StopNotice) (seen : UInt64) (acts : List Act)
    (stop : StopNotice) : Prop :=
  ∃ before since, acts = before ++ .read :: since ∧
    numbered board.last stops (before.count .hold) = some stop ∧
      seen.toNat < board.count.toNat + before.count .hold

/-- What holds of a wait. Who is past the counter stays so, for it counts no more than was held. -/
def WaitFair (board : StopBoard) (stops : List StopNotice) (seen : UInt64) (acts : List Act) :
    Watcher → Prop
  | .looking => True
  | .past => seen.toNat < board.count.toNat + acts.count .bump
  | .missed => LookedInVain board stops seen acts
  | .told stop => ToldNewest board stops seen acts stop
  | .timedOut => LookedInVain board stops seen acts

theorem LookedInVain.snoc (h : LookedInVain board stops seen acts) {a : Act} (load : a ≠ .load)
    (read : a ≠ .read) : LookedInVain board stops seen (acts ++ [a]) := by
  obtain ⟨before, look, since, r, rfl, reached, loads, reads, vain⟩ := h
  refine ⟨before, look, since ++ [a], r, by simp, reached, ?_, ?_, vain⟩
  · simp [loads, Ne.symm load]
  · simp [reads, Ne.symm read]

theorem WaitFair.snoc {w : Watcher} (h : WaitFair board stops seen acts w) {a : Act} (load : a ≠ .load)
    (read : a ≠ .read) : WaitFair board stops seen (acts ++ [a]) w := by
  cases w with
  | looking => trivial
  | past =>
    have grown : acts.count Act.bump ≤ (acts ++ [a]).count .bump := by
      rw [List.count_append]
      omega
    exact Nat.lt_of_lt_of_le h (Nat.add_le_add_left grown _)
  | missed => exact LookedInVain.snoc h load read
  | told stop =>
    obtain ⟨before, since, rfl, own, past⟩ := h
    exact ⟨before, since ++ [a], by simp, own, past⟩
  | timedOut => exact LookedInVain.snoc h load read

theorem Recorded.counter_le (h : Recorded board stops acts s) :
    s.board.count.toNat ≤ board.count.toNat + acts.count .bump := by
  rw [h.counter, UInt64.toNat_add]
  refine Nat.le_trans (Nat.mod_le _ _) (Nat.add_le_add_left ?_ _)
  exact UInt64.toNat_ofNat' ▸ Nat.mod_le _ _

theorem fair_load (run : Races seen (start board stops) acts s) :
    WaitFair board stops seen (acts ++ [.load])
      (if seen < s.board.count then .past else .missed) := by
  split
  next past =>
    have counted := (races_recorded run).counter_le
    have reached := UInt64.lt_iff_toNat_lt.mp past
    have same : (acts ++ [Act.load]).count .bump = acts.count .bump := by simp
    simp only [WaitFair, same]
    omega
  next stale =>
    exact ⟨acts, .load, [], s, rfl, run, List.not_mem_nil, List.not_mem_nil,
      Or.inl ⟨rfl, UInt64.not_lt.mp stale⟩⟩

theorem fair_read (run : Races seen (start board stops) acts s)
    (past : seen.toNat < board.count.toNat + acts.count .bump) :
    WaitFair board stops seen (acts ++ [.read]) (s.board.last.elim .missed .told) := by
  have recorded := races_recorded run
  cases held : s.board.last with
  | none =>
    exact ⟨acts, .read, [], s, rfl, run, List.not_mem_nil, List.not_mem_nil,
      Or.inr ⟨rfl, held, recorded.bare held⟩⟩
  | some stop =>
    have newest := recorded.last.resolve_left (by simp [held])
    have counted := recorded.bumps_le
    exact ⟨acts, [], rfl, newest.symm.trans held, by omega⟩

theorem fair_step (run : Races seen (start board stops) acts s)
    (fair : WaitFair board stops seen acts s.watcher) {a : Act} (made : s.act? seen a = some t) :
    WaitFair board stops seen (acts ++ [a]) t.watcher := by
  cases a with
  | mark | hold | bump =>
    simp only [act?] at made
    split at made
    next =>
      cases made
      exact fair.snoc nofun nofun
    next => cases made
  | clear | note =>
    cases made
    exact fair.snoc nofun nofun
  | load =>
    simp only [act?] at made
    split at made
    next =>
      cases made
      exact fair_load run
    next => cases made
  | read =>
    simp only [act?] at made
    split at made
    next past =>
      cases made
      rw [past] at fair
      exact fair_read run fair
    next => cases made
  | sleep =>
    simp only [act?] at made
    split at made
    next =>
      cases made
      trivial
    next => cases made
  | giveUp =>
    simp only [act?] at made
    split at made
    next missed =>
      cases made
      rw [missed] at fair
      exact LookedInVain.snoc fair nofun nofun
    next => cases made

theorem races_fair (run : Races seen (start board stops) acts s) :
    WaitFair board stops seen acts s.watcher := by
  induction run with
  | start => trivial
  | next a before made ih => exact fair_step before ih made

end Race

/-- In whatever order the steps come: a wait tells only a stop past its count, the newest one that was
held when it read the board; it ends without one only if the counter was at most that count at its last
look, or no stop was held then, each having been cleared since. When `n` stops are recorded and none
was cleared, the counter has grown by `n` and the board holds the last of them. -/
theorem wait_tells_new_stop_and_misses_none (board : StopBoard) {stops : List StopNotice}
    (few : stops.length < UInt64.size) {seen : UInt64} {acts : List Act} {s : StopRace}
    (run : Races seen (start board stops) acts s) :
    (∀ stop, s.watcher = .told stop → ∃ before since, acts = before ++ .read :: since ∧
      numbered board.last stops (before.count .hold) = some stop ∧
        seen.toNat < board.count.toNat + before.count .hold) ∧
    (s.watcher = .timedOut → ∃ before look since r, acts = before ++ look :: since ∧
      Races seen (start board stops) before r ∧ .load ∉ since ∧ .read ∉ since ∧
        (look = .load ∧ r.board.count ≤ seen ∨
          look = .read ∧ r.board.last = none ∧ Cleared board.last before)) ∧
    ∀ n, 1 ≤ n → s.recorder = .idle → stops.length = n + s.coming.length → .clear ∉ acts →
      (s.board.count - board.count).toNat = n ∧
        (board.count.toNat + n < UInt64.size → s.board.count.toNat = board.count.toNat + n) ∧
        s.board.last = stops[n - 1]? := by
  have fair := races_fair run
  have recorded := races_recorded run
  refine ⟨fun stop told => ?_, fun ended => ?_, fun n some idle consumed uncleared => ?_⟩
  · rw [told] at fair
    exact fair
  · rw [ended] at fair
    exact fair
  · have phase := recorded.recorder
    rw [idle] at phase
    obtain ⟨marks, bumps⟩ := phase
    obtain ⟨gone, split, length⟩ := recorded.coming
    have lengths := congrArg List.length split
    rw [List.length_append] at lengths
    have bumped : acts.count .bump = n := by omega
    have held : acts.count .hold = (n - 1) + 1 := by omega
    have counter := recorded.counter
    rw [bumped] at counter
    have value : (UInt64.ofNat n).toNat = n := UInt64.toNat_ofNat_of_lt' (show n < UInt64.size by omega)
    refine ⟨?_, fun fits => ?_, ?_⟩
    · rw [counter, UInt64.add_comm, UInt64.add_sub_cancel, value]
    · rw [counter, UInt64.toNat_add, value, Nat.mod_eq_of_lt fits]
    · rw [recorded.uncleared uncleared, held]
      rfl

def stopIn (place : String) : StopNotice := ⟨.breakpoint, [], ["stopped in " ++ place ++ " at line 3"]⟩

/-- Two stops. A first look is in vain, for the stop is held but not counted; the second one is past the
first stop when the other is held. -/
def overtaken : List Act :=
  [.mark, .hold, .load, .sleep, .bump, .mark, .load, .hold, .read, .bump]

theorem wait_tells_overtaking_stop :
    ∃ s, Races 0 (start .start [stopIn "a", stopIn "b"]) overtaken s ∧
      s.watcher = .told (stopIn "b") ∧
      (∃ before since, overtaken = before ++ .read :: since ∧
        numbered none [stopIn "a", stopIn "b"] (before.count .hold) = some (stopIn "b")) ∧
      s.board.count.toNat = 2 ∧ s.board.last = some (stopIn "b") := by
  have held : Races 0 (start .start [stopIn "a", stopIn "b"]) [.mark, .hold] _ :=
    (Races.start.next .mark rfl).next .hold rfl
  have counted : Races 0 _ [.mark, .hold, .load, .sleep, .bump] _ :=
    ((held.next .load rfl).next .sleep rfl).next .bump rfl
  have run : Races 0 _ overtaken _ :=
    ((((counted.next .mark rfl).next .load rfl).next .hold rfl).next .read rfl).next .bump rfl
  obtain ⟨told, _, recorded⟩ := wait_tells_new_stop_and_misses_none .start (by decide) run
  obtain ⟨before, since, split, own, _⟩ := told (stopIn "b") rfl
  obtain ⟨_, counter, last⟩ := recorded 2 (by decide) rfl rfl (by decide)
  exact ⟨_, run, rfl, ⟨before, since, split, own⟩, counter (by decide), last⟩

end StopRace

end PromptRelay
