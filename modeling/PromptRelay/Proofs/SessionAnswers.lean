import PromptRelay.Proofs.SessionLodging

namespace PromptRelay.ToolServer

variable {id : Nat} {s : ToolServer} {bound : Nat → List Nat}

/-- What a call is answered at once when no session is installed; a launch starts one. -/
def detachedAnswer? : ToolCall → Option Outcome
  | .launch _ => none
  | .terminate => some (.ok .detached)
  | c => some (.error (.detached c.toolName))

theorem begin_detached {c : ToolCall} {outcome : Outcome} (told : detachedAnswer? c = some outcome)
    (none : s.current = none) : s.begin id c = s.answer id outcome := by
  unfold ToolServer.begin
  cases c with
  | launch choice => cases told
  | terminate =>
    cases told
    simp [ToolServer.terminate, none]
  | _ =>
    cases told
    simp [none, ToolTask.ofCall?]

theorem detachedAnswer?_of_task {c : ToolCall} {task : ToolTask Answer}
    (asked : ToolTask.ofCall? c = some task) :
    detachedAnswer? c = some (.error (.detached c.toolName)) := by
  cases c <;> first | rfl | cases asked

/-- A call that begins while no session is installed has its answer, and that is all. -/
theorem happen_detached {e : Happening} {c : ToolCall} {outcome : Outcome}
    (begins : s.begins? e = some (id, c)) (none : s.current = none)
    (told : detachedAnswer? c = some outcome) :
    (s.happen e).board.sessions = s.board.sessions ∧ (s.happen e).board.calls = s.board.calls ∧
      (s.happen e).board.results = s.board.results ++ [(id, outcome)] := by
  have alone : (s.brink e).current = Option.none := by simpa using none
  rw [happen_of_begins begins, begin_detached told alone]
  simp [answer, Switchboard.finish]

/-- Who takes a session away waits for its end, or is told at once how it ended when it has no process. -/
theorem happen_terminate {e : Happening} {i : Nat} {x : Session}
    (begins : s.begins? e = some (id, .terminate)) (current : s.current = some i)
    (here : s.board.sessions[i]? = some x) :
    (x.process.isSome → ∃ deadline,
      (s.happen e).endings = s.endings ++ [⟨id, i, true, deadline⟩]) ∧
      (x.process = none →
        (s.happen e).board.results = s.board.results ++ [(id, .ok (.terminated x.exit))]) := by
  have taken : (s.brink e).current = some i := by simpa using current
  have found : (s.brink e).board.sessions[i]? = some x := by simpa using here
  have same : (s.brink e).endings = s.endings := by cases e <;> rfl
  have start : s.happen e = (s.brink e).terminate id := happen_of_begins begins
  rw [start]
  rcases terminate_cases (s.brink e) id with
    ⟨nobody, _⟩ | ⟨j, own, ⟨absent, _⟩ | ⟨y, there, ⟨alive, eq⟩ | ⟨gone, eq⟩⟩⟩
  · cases nobody.symm.trans taken
  · cases taken.symm.trans own
    cases absent.symm.trans found
  · cases taken.symm.trans own
    cases there.symm.trans found
    rw [eq]
    exact ⟨fun _ => ⟨_, congrArg (· ++ _) same⟩, fun gone => by simp [gone] at alive⟩
  · cases taken.symm.trans own
    cases there.symm.trans found
    rw [eq]
    exact ⟨fun alive => by simp [gone] at alive, fun _ => congrArg (· ++ _) (brink_results s e)⟩

theorem carryOn_told (b : Switchboard Outcome) (id i : Nat) (task : Task Outcome) :
    (b.carryOn id i task).results = b.results ∨
      ∃ outcome, (b.carryOn id i task).results = b.results ++ [(id, outcome)] := by
  rcases Switchboard.carryOn_cases b id i task with
    ⟨_, eq⟩ | ⟨_, _, _, ⟨a, _, eq⟩ | ⟨_, _, eq⟩⟩ <;> rw [eq]
  · exact .inl rfl
  · exact .inr ⟨a, rfl⟩
  · exact .inl rfl

/-- A call that begins is told nothing yet, or has its answer. -/
theorem begin_told (s : ToolServer) (id : Nat) (c : ToolCall) :
    (s.begin id c).board.results = s.board.results ∨
      ∃ outcome, (s.begin id c).board.results = s.board.results ++ [(id, outcome)] := by
  rcases begin_cases s id c with
    ⟨choice, rfl, eq⟩ | ⟨rfl, eq⟩ | ⟨task, i, _, _, eq⟩ | ⟨_, eq⟩ <;> rw [eq]
  · rcases launch_cases s id choice with ⟨_, eq⟩ | ⟨_, _, _, _, eq⟩ | ⟨_, _, _, _, eq⟩ <;> rw [eq]
    · exact .inr ⟨_, rfl⟩
    · exact .inr ⟨_, rfl⟩
    · exact carryOn_told _ _ _ _
  · rcases terminate_cases s id with
      ⟨_, eq⟩ | ⟨_, _, ⟨_, eq⟩ | ⟨_, _, ⟨_, eq⟩ | ⟨_, eq⟩⟩⟩ <;> rw [eq]
    · exact .inr ⟨_, rfl⟩
    · exact .inl rfl
    · exact .inl rfl
    · exact .inr ⟨_, rfl⟩
  · exact carryOn_told _ _ _ _
  · exact .inr ⟨_, rfl⟩

/-- A call that waits is told its answer where it is at home. -/
theorem move_told (lodged : Lodged s bound) {m : Switchboard.Move Outcome} (unasked : m.unasked = true) :
    (s.board.make m).results = s.board.results ∨
      ∃ i id outcome, s.board.place? m = some i ∧ id ∈ bound i ∧
        (s.board.make m).results = s.board.results ++ [(id, outcome)] := by
  rcases Switchboard.make_cases s.board unasked with
    ⟨_, eq | ⟨moment, rfl⟩⟩ | ⟨i, change, place, eq | ⟨c, mem, rfl, task, eq⟩⟩
  · exact .inl (by rw [eq])
  · exact .inl rfl
  · exact .inl (by rw [eq]; rfl)
  · rw [eq]
    rcases carryOn_told ((s.board.modify c.session change).dropCall c.id) c.id c.session task with
      same | ⟨outcome, told⟩
    · exact .inl same
    · exact .inr ⟨_, c.id, outcome, place, lodged.housed c mem, told⟩

/-- Who ends a session is told how that one ended. -/
theorem wrapUp_told (s : ToolServer) (i : Nat) :
    (s.happen (.wrapUp i)).board.results = s.board.results ∨
      ∃ e ∈ s.endings, ∃ x, e.place = i ∧ s.board.sessions[i]? = some x ∧
        (s.happen (.wrapUp i)).board.results =
          s.board.results ++ [(e.id, .ok (.terminated x.exit))] := by
  rcases s.wrapUp_cases i with eq | ⟨e, x, found, here, eq | eq⟩ <;> rw [eq]
  · exact .inl rfl
  · exact .inl rfl
  · exact .inr ⟨e, List.mem_of_find?_eq_some found, x, by simpa using List.find?_some found, here, rfl⟩

/-- A call is told its answer in the session that it is bound to. Else it is one that begins without a
session, or one whose arguments say nothing. -/
theorem happen_told (lodged : Lodged s bound) (e : Happening) :
    (s.happen e).board.results = s.board.results ∨
      ∃ id outcome, (s.happen e).board.results = s.board.results ++ [(id, outcome)] ∧
        ((∃ i, s.place? e = some i ∧ id ∈ bound i ++ s.binds i e) ∨
          (∃ c, s.begins? e = some (id, c) ∧ s.workplace? c = none) ∨ ∃ fault, e = .refuse fault) := by
  cases begins : s.begins? e with
  | some x =>
    obtain ⟨id, c⟩ := x
    rw [happen_of_begins begins, place_of_begins begins]
    rcases begin_told (s.brink e) id c with same | ⟨outcome, told⟩
    · exact .inl (same.trans (brink_results s e))
    · refine .inr ⟨id, outcome, told.trans (by rw [brink_results]), ?_⟩
      cases place : s.workplace? c with
      | none => exact .inr (.inl ⟨c, rfl, place⟩)
      | some i => exact .inl ⟨i, rfl, by simp [binds, begins, place]⟩
  | none =>
    have none_binds : ∀ i, s.binds i e = [] := fun i => by simp [binds, begins]
    simp only [none_binds, List.append_nil]
    cases e with
    | call c => exact .inl (by rw [call_of_begins_none begins]; rfl)
    | refuse fault => exact .inr ⟨_, _, rfl, .inr (.inr ⟨fault, rfl⟩)⟩
    | attach input => exact .inl rfl
    | move m unasked =>
      rcases move_told lodged unasked with same | ⟨i, id, outcome, place, home, told⟩
      · exact .inl same
      · exact .inr ⟨id, outcome, told, .inl ⟨i, place, home⟩⟩
    | exchange i => exact .inl rfl
    | wake i => exact .inl rfl
    | conclude =>
      rcases s.conclude_cases with eq | ⟨_, _, _, _, ⟨_, _, eq⟩ | ⟨_, _, eq⟩⟩ <;> rw [eq] <;>
        exact .inl rfl
    | giveUp =>
      rcases s.giveUp_cases with eq | ⟨l, launching, _, eq⟩ <;> rw [eq]
      · exact .inl rfl
      · exact .inr ⟨_, _, rfl, .inl ⟨l.place, by simp [place?, launching],
          (lodged.launched l launching).1⟩⟩
    | resume => exact .inl (by rw [resume_of_begins_none begins])
    | wrapUp i =>
      rcases wrapUp_told s i with same | ⟨e, mem, x, rfl, here, told⟩
      · exact .inl same
      · exact .inr ⟨_, _, told, .inl ⟨e.place, rfl, (lodged.ended e mem).1⟩⟩

theorem boundTo_next (host : Host) (happenings : List Happening) {e : Happening} {c : ToolCall}
    (begins : ((start host).run happenings).begins? e = some (id, c)) (i : Nat) :
    boundTo i (start host) (happenings ++ [e]) = boundTo i (start host) happenings ++
      if ((start host).run happenings).workplace? c = some i then [id] else [] := by
  rw [boundTo_append, boundTo, boundTo, List.append_nil, binds, begins]

/-- Every call is at home in one session: there it waits for a reply, a stop or the end of the session, and
there it is told its answer. Only a call that begins without a session, or whose arguments say nothing,
is told elsewhere. A launch works on the session that it started, and who takes a session away is told how
that one ended. -/
structure AtHome (s : ToolServer) (own : Nat → List Nat) : Prop where
  once : ∀ i j id, id ∈ own i → id ∈ own j → i = j
  waits : ∀ c ∈ s.board.calls, c.id ∈ own c.session
  launches : ∀ l, s.launching = some l → l.id ∈ own l.place ∧
    ∀ c ∈ s.board.calls, c.id = l.id → c.session = l.place
  ends : ∀ e ∈ s.endings, e.id ∈ own e.place
  told : ∀ e, (s.happen e).board.results = s.board.results ∨
    ∃ id outcome, (s.happen e).board.results = s.board.results ++ [(id, outcome)] ∧
      ((∃ i, s.place? e = some i ∧ id ∈ own i ++ s.binds i e) ∨
        (∃ c, s.begins? e = some (id, c) ∧ s.workplace? c = none) ∨ ∃ fault, e = .refuse fault)
  takesAway : ∀ e id i x, s.begins? e = some (id, .terminate) → s.current = some i →
    s.board.sessions[i]? = some x →
      (x.process.isSome → ∃ deadline, (s.happen e).endings = s.endings ++ [⟨id, i, true, deadline⟩]) ∧
      (x.process = none →
        (s.happen e).board.results = s.board.results ++ [(id, .ok (.terminated x.exit))])
  wrapsUp : ∀ i, (s.happen (.wrapUp i)).board.results = s.board.results ∨
    ∃ e ∈ s.endings, ∃ x, e.place = i ∧ s.board.sessions[i]? = some x ∧
      (s.happen (.wrapUp i)).board.results = s.board.results ++ [(e.id, .ok (.terminated x.exit))]

theorem Lodged.atHome (h : Lodged s bound) : AtHome s bound where
  once := h.once
  waits := h.housed
  launches := fun l launching =>
    have mine := (h.launched l launching).1
    ⟨mine, fun _ mem same => h.home mine mem same⟩
  ends := fun e mem => (h.ended e mem).1
  told := happen_told h
  takesAway := fun _ _ _ _ begins current here => happen_terminate begins current here
  wrapsUp := wrapUp_told s

end PromptRelay.ToolServer
