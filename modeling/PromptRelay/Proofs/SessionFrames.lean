import PromptRelay.Proofs.ServerRuns

namespace PromptRelay

namespace Switchboard

variable {α : Type}

/-- The session in which a move happens, if it happens in one. -/
def place? (b : Switchboard α) : Move α → Option Nat
  | .call session _ | .deliver session | .relay session _ | .diagnose session _ | .record session =>
    some session
  | .endWait id => (b.calls.find? (·.id = id)).map (·.session)
  | .cancel _ | .passTime _ => none

/-- A task that goes on changes its own session, and the call either waits again or has ended. -/
theorem carryOn_cases (b : Switchboard α) (id i : Nat) (task : Task α) :
    (b.sessions[i]? = none ∧ b.carryOn id i task = b) ∨
    ∃ s t, b.sessions[i]? = some s ∧
      ((∃ a, s.advance b.now task = (t, .finished a) ∧
        b.carryOn id i task =
          { b with sessions := b.sessions.set i t, results := b.results ++ [(id, a)] }) ∨
      ∃ wait, s.advance b.now task = (t, .waiting wait) ∧
        b.carryOn id i task =
          { b with sessions := b.sessions.set i t, calls := b.calls ++ [⟨id, i, wait⟩] }) := by
  unfold carryOn
  cases here : b.sessions[i]? with
  | none => exact .inl ⟨rfl, rfl⟩
  | some s =>
    rcases turn : s.advance b.now task with ⟨t, progress⟩
    cases progress with
    | finished a => exact .inr ⟨s, t, rfl, .inl ⟨a, turn, by simp [turn, finish]⟩⟩
    | waiting wait => exact .inr ⟨s, t, rfl, .inr ⟨wait, turn, by simp [turn]⟩⟩

theorem carryOn_finished {b : Switchboard α} {id i : Nat} {s t : Session} {task : Task α} {a : α}
    (here : b.sessions[i]? = some s) (turn : s.advance b.now task = (t, .finished a)) :
    b.carryOn id i task =
      { b with sessions := b.sessions.set i t, results := b.results ++ [(id, a)] } := by
  simp only [carryOn, here, turn, finish]

theorem carryOn_waiting {b : Switchboard α} {id i : Nat} {s t : Session} {task : Task α}
    {wait : Wait α} (here : b.sessions[i]? = some s)
    (turn : s.advance b.now task = (t, .waiting wait)) :
    b.carryOn id i task =
      { b with sessions := b.sessions.set i t, calls := b.calls ++ [⟨id, i, wait⟩] } := by
  simp only [carryOn, here, turn]

/-- A move that nobody asked for changes the session of its place, where a call may go on. Without a
place, time passes, or nothing happens. -/
theorem make_cases (b : Switchboard α) {m : Move α} (unasked : m.unasked = true) :
    (b.place? m = none ∧ (b.make m = b ∨ ∃ moment, m = .passTime moment)) ∨
    ∃ i change, b.place? m = some i ∧ (b.make m = b.modify i change ∨
      ∃ c ∈ b.calls, c.session = i ∧
        ∃ task, b.make m = ((b.modify i change).dropCall c.id).carryOn c.id i task) := by
  have still : ∀ i, b = b.modify i fun s => s := by
    intro i
    rw [modify, show b.sessions.modify i (fun s => s) = b.sessions from List.modify_id i b.sessions]
  cases m with
  | call session task => cases unasked
  | cancel id => cases unasked
  | deliver i =>
    simp only [make, deliverNext]
    split
    next => exact .inr ⟨i, _, rfl, .inl (still i)⟩
    next x _ =>
      refine .inr ⟨i, fun s => { s with delivered := s.delivered + 1 }, rfl, ?_⟩
      unfold deliver
      simp only
      split
      next id session ticket next found =>
        have awaited := List.find?_some found
        obtain ⟨rfl, _⟩ : session = i ∧ ticket = x.request.ticket := by simpa [awaits] using awaited
        exact .inr ⟨_, List.mem_of_find?_eq_some found, rfl, _, rfl⟩
      next => exact .inl rfl
  | relay i event => exact .inr ⟨i, _, rfl, .inl rfl⟩
  | diagnose i bytes => exact .inr ⟨i, _, rfl, .inl rfl⟩
  | record i => exact .inr ⟨i, _, rfl, .inl rfl⟩
  | endWait id =>
    simp only [make, endWaitOf, place?]
    cases found : b.calls.find? (·.id = id) with
    | none => exact .inl ⟨rfl, .inl rfl⟩
    | some c =>
      refine .inr ⟨c.session, fun s => s, rfl, ?_⟩
      rw [← still]
      dsimp only
      split
      next =>
        unfold endWait
        split
        next => exact .inl rfl
        next => exact .inr ⟨c, List.mem_of_find?_eq_some found, rfl, _, rfl⟩
      next => exact .inl rfl
  | passTime moment => exact .inl ⟨rfl, .inr ⟨moment, rfl⟩⟩

variable {b : Switchboard α} {i j : Nat}

theorem modify_frame (change : Session → Session) (other : i ≠ j) :
    (b.modify i change).sessions[j]? = b.sessions[j]? := by
  simp [modify, other]

theorem carryOn_frame (id : Nat) (task : Task α) (other : i ≠ j) :
    (b.carryOn id i task).sessions[j]? = b.sessions[j]? := by
  rcases carryOn_cases b id i task with ⟨_, eq⟩ | ⟨s, t, _, ⟨a, _, eq⟩ | ⟨wait, _, eq⟩⟩ <;> rw [eq]
  · exact List.getElem?_set_ne other
  · exact List.getElem?_set_ne other

theorem carryOn_count (id i : Nat) (task : Task α) :
    (b.carryOn id i task).sessions.length = b.sessions.length := by
  rcases carryOn_cases b id i task with ⟨_, eq⟩ | ⟨s, t, _, ⟨a, _, eq⟩ | ⟨wait, _, eq⟩⟩ <;> rw [eq]
  · exact List.length_set
  · exact List.length_set

/-- What happens in a session leaves every other one as it was. -/
theorem make_frame {m : Move α} (unasked : m.unasked = true) (elsewhere : b.place? m ≠ some j) :
    (b.make m).sessions[j]? = b.sessions[j]? := by
  rcases make_cases b unasked with ⟨_, eq | ⟨moment, rfl⟩⟩ | ⟨i, change, place, goes⟩
  · rw [eq]
  · rfl
  · have other : i ≠ j := fun same => elsewhere (same ▸ place)
    rcases goes with eq | ⟨c, _, _, task, eq⟩
    · rw [eq, modify_frame change other]
    · rw [eq, carryOn_frame c.id task other]
      exact modify_frame change other

end Switchboard

namespace ToolServer

/-- The call that begins in a happening. -/
def begins? (s : ToolServer) : Happening → Option (Nat × ToolCall)
  | .call c => if s.launching.isSome then none else some (s.board.started, c)
  | .resume => if s.launching.isSome then none else s.waiting.head?
  | _ => none

/-- The session that a call is bound to when it begins: the one that is installed then, or for a launch
the one that it starts, if it does. -/
def workplace? (s : ToolServer) : ToolCall → Option Nat
  | .launch choice =>
    if s.current.isSome then none
    else (s.spawn choice).toOption.map fun _ => s.board.sessions.length
  | _ => s.current

/-- The session in which a happening takes place. -/
def place? (s : ToolServer) : Happening → Option Nat
  | .attach _ => some s.board.sessions.length
  | .move m _ => s.board.place? m
  | .exchange i | .wake i | .wrapUp i => some i
  | .conclude | .giveUp => s.launching.map (·.place)
  | e => (s.begins? e).bind fun x => s.workplace? x.2

/-- The server as a call finds it that begins: the call has entered, or left the line. -/
def brink (s : ToolServer) : Happening → ToolServer
  | .call _ => { s with board := s.board.enter }
  | .resume => { s with waiting := s.waiting.tail }
  | _ => s

variable {s : ToolServer} {e : Happening} {id j : Nat} {c : ToolCall}

@[simp] theorem brink_current (s : ToolServer) (e : Happening) : (s.brink e).current = s.current := by
  cases e <;> rfl

@[simp] theorem brink_launching (s : ToolServer) (e : Happening) :
    (s.brink e).launching = s.launching := by
  cases e <;> rfl

@[simp] theorem brink_sessions (s : ToolServer) (e : Happening) :
    (s.brink e).board.sessions = s.board.sessions := by
  cases e <;> rfl

@[simp] theorem brink_calls (s : ToolServer) (e : Happening) :
    (s.brink e).board.calls = s.board.calls := by
  cases e <;> rfl

@[simp] theorem brink_workplace (s : ToolServer) (e : Happening) (c : ToolCall) :
    (s.brink e).workplace? c = s.workplace? c := by
  cases e <;> rfl

@[simp] theorem brink_results (s : ToolServer) (e : Happening) :
    (s.brink e).board.results = s.board.results := by
  cases e <;> rfl

/-- A call begins when it comes, or first in the line, while no launch is under way. -/
theorem begins_cases (h : s.begins? e = some (id, c)) :
    s.launching = none ∧
      ((e = .call c ∧ id = s.board.started) ∨ ∃ rest, e = .resume ∧ s.waiting = (id, c) :: rest) := by
  cases e with
  | call c' =>
    simp only [begins?] at h
    split at h
    next => cases h
    next free =>
      cases h
      exact ⟨by simpa using free, .inl ⟨rfl, rfl⟩⟩
  | resume =>
    simp only [begins?] at h
    split at h
    next => cases h
    next free =>
      obtain ⟨rest, waiting⟩ := List.head?_eq_some_iff.mp h
      exact ⟨by simpa using free, .inr ⟨rest, rfl, waiting⟩⟩
  | _ => cases h

theorem happen_of_begins (h : s.begins? e = some (id, c)) : s.happen e = (s.brink e).begin id c := by
  obtain ⟨free, ⟨rfl, rfl⟩ | ⟨rest, rfl, waiting⟩⟩ := begins_cases h
  · simp [happen, ToolServer.call, brink, free]
  · simp [happen, resume?, brink, free, waiting]

theorem place_of_begins (h : s.begins? e = some (id, c)) : s.place? e = s.workplace? c := by
  rcases (begins_cases h).2 with ⟨rfl, _⟩ | ⟨rest, rfl, _⟩
  · simp [place?, h]
  · simp [place?, h]

theorem getElem?_concat_of_ne {β : Type} {xs : List β} {x : β} (other : xs.length ≠ j) :
    (xs ++ [x])[j]? = xs[j]? := by
  by_cases old : j < xs.length
  · exact List.getElem?_append_left old
  · have beyond : xs.length + 1 ≤ j := by omega
    rw [List.getElem?_eq_none (by simpa using beyond), List.getElem?_eq_none (by omega)]

theorem begin_frame (s : ToolServer) (id : Nat) (c : ToolCall) (elsewhere : s.workplace? c ≠ some j) :
    (s.begin id c).board.sessions[j]? = s.board.sessions[j]? := by
  rcases begin_cases s id c with
    ⟨choice, rfl, eq⟩ | ⟨rfl, eq⟩ | ⟨task, i, asked, current, eq⟩ | ⟨_, eq⟩ <;> rw [eq]
  · rcases launch_cases s id choice with
      ⟨_, eq⟩ | ⟨_, _, _, _, eq⟩ | ⟨process, _, free, spawned, eq⟩ <;> rw [eq]
    · rfl
    · rfl
    · have other : s.board.sessions.length ≠ j := fun same =>
        elsewhere (by simp [workplace?, free, spawned, Except.toOption, same])
      rw [Switchboard.carryOn_frame id _ other]
      exact getElem?_concat_of_ne other
  · have taken : ∀ i, s.current = some i → (s.takeAway i).board.sessions[j]? = s.board.sessions[j]? :=
      fun i current => Switchboard.modify_frame _ fun same => elsewhere (same ▸ current)
    rcases terminate_cases s id with
      ⟨_, eq⟩ | ⟨i, current, ⟨_, eq⟩ | ⟨x, _, ⟨_, eq⟩ | ⟨_, eq⟩⟩⟩ <;> rw [eq]
    · rfl
    · exact taken i current
    · exact taken i current
    · exact taken i current
  · have other : i ≠ j := by
      rintro rfl
      refine elsewhere ?_
      cases c <;> first | exact current | cases asked
    exact Switchboard.carryOn_frame id _ other
  · rfl

theorem begin_of_task {c : ToolCall} {task : ToolTask Answer} {i : Nat}
    (asked : ToolTask.ofCall? c = some task) (current : s.current = some i) :
    s.begin id c = { s with board := s.board.carryOn id i (ExceptT.run task) } := by
  unfold ToolServer.begin
  cases c <;> simp_all [ToolTask.ofCall?]

theorem resume_of_begins_none (none : s.begins? .resume = none) : s.happen .resume = s := by
  cases launching : s.launching with
  | some launch => simp [happen, resume?, launching]
  | none =>
    have nobody : s.waiting = [] := by simpa [begins?, launching] using none
    simp [happen, resume?, launching, nobody]

theorem call_of_begins_none (none : s.begins? (.call c) = none) :
    s.happen (.call c) =
      { s with board := s.board.enter, waiting := s.waiting ++ [(s.board.started, c)] } := by
  cases busy : s.launching.isSome with
  | false => simp [begins?, busy] at none
  | true => simp [happen, ToolServer.call, busy]

/-- What happens in a session leaves every other one as it was. -/
theorem happen_frame (s : ToolServer) (e : Happening) (elsewhere : s.place? e ≠ some j) :
    (s.happen e).board.sessions[j]? = s.board.sessions[j]? := by
  cases begins : s.begins? e with
  | some x =>
    obtain ⟨id, c⟩ := x
    rw [place_of_begins begins] at elsewhere
    rw [happen_of_begins begins, begin_frame (s.brink e) id c (by simpa using elsewhere), brink_sessions]
  | none =>
    cases e with
    | call c => rw [call_of_begins_none begins, Switchboard.enter]
    | refuse fault => rfl
    | attach input => exact getElem?_concat_of_ne fun same => elsewhere (congrArg some same)
    | move m unasked => exact Switchboard.make_frame unasked elsewhere
    | exchange i => exact Switchboard.modify_frame _ fun same => elsewhere (congrArg some same)
    | wake i => exact Switchboard.modify_frame _ fun same => elsewhere (congrArg some same)
    | conclude =>
      rcases s.conclude_cases with eq | ⟨l, _, launching, _, ⟨_, _, eq⟩ | ⟨_, _, eq⟩⟩ <;> rw [eq]
      · exact Switchboard.modify_frame _ fun same => elsewhere (by simp [place?, launching, same])
      · exact Switchboard.modify_frame _ fun same => elsewhere (by simp [place?, launching, same])
    | giveUp =>
      rcases s.giveUp_cases with eq | ⟨l, launching, _, eq⟩ <;> rw [eq]
      exact Switchboard.modify_frame (b := s.board.dropCall l.id) _ fun same =>
        elsewhere (by simp [place?, launching, same])
    | resume => rw [resume_of_begins_none begins]
    | wrapUp i =>
      rcases s.wrapUp_cases i with eq | ⟨_, _, _, _, eq | eq⟩ <;> rw [eq]
      rfl

end ToolServer

end PromptRelay
