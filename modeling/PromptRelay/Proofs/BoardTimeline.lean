import PromptRelay.Proofs.Timeline

namespace PromptRelay

namespace ToolServer

/-- What a report says was so: its call began before, its line was written since, and the stops told are
the last one held when the call began and the last one recorded since. -/
def Vouched (t : List Deed) (id : Nat) (report : Report) : Prop :=
  report = .other ∨ ∃ i tool before since, t = before ++ .began id i tool :: since ∧ .wrote id ∈ since ∧
    report.Fits tool (boardOf i before).last (stopsOn i since).getLast?

theorem Vouched.grow {t u : List Deed} {id : Nat} {report : Report} (h : Vouched t id report)
    (idle : ∀ d ∈ u, d.idle = true) : Vouched (t ++ u) id report := by
  refine h.imp_right ?_
  rintro ⟨i, tool, before, since, rfl, wrote, fits⟩
  refine ⟨i, tool, before, since ++ u, by simp, List.mem_append_left u wrote, ?_⟩
  rw [stopsOn_append, stopsOn_idle i idle, List.append_nil]
  exact fits

/-- What a tool may report by its board is so by the deeds until then. -/
theorem vouched_of_fits {t before since : List Deed} {id i : Nat} {tool : ToolCall} {report : Report}
    (split : t = before ++ .began id i tool :: since) (wrote : .wrote id ∈ since)
    (fits : report.Fits tool (boardOf i before).last (boardOf i t).last) : Vouched t id report := by
  have board : boardOf i t = boardAfter i (tool.beginOn (boardOf i before)) since := by
    rw [split, boardOf_append, boardAfter_cons]
    simp [Deed.onBoard]
  have last := last_after i (tool.beginOn (boardOf i before)) since
  rw [← board] at last
  refine Or.inr ⟨i, tool, before, since, split, wrote, ?_⟩
  cases report with
  | resumed stop previous =>
    obtain ⟨resumes, held, told⟩ := fits
    have cleared : (tool.beginOn (boardOf i before)).last = none := by
      simp [ToolCall.beginOn, resumes, StopBoard.clear]
    rw [cleared, Option.or_none] at last
    refine ⟨resumes, held, ?_⟩
    rcases told with nothing | told
    · exact Or.inl nothing
    · exact last.imp told.trans told.trans
  | stepped stop =>
    obtain ⟨rfl, told⟩ := fits
    refine ⟨rfl, ?_⟩
    rcases told with nothing | old | new
    · exact Or.inl nothing
    · exact Or.inr (Or.inl old)
    · rcases last with nothing | last
      · exact Or.inl (new.trans nothing)
      · rw [last] at new
        cases recorded : (stopsOn i since).getLast? with
        | none => exact Or.inr (Or.inl (by simpa [recorded, ToolCall.beginOn, ToolCall.resumes] using new))
        | some stop => exact Or.inr (Or.inr (by simpa [recorded] using new))
  | other => trivial

end ToolServer

def Wait.Goes (tool : ToolCall) (held : Option StopNotice) : Wait Outcome → Prop
  | .reply _ next => ToolTask.Goes tool held next
  | .stop _ _ next => ToolTask.Lingers tool held next

namespace ToolServer

/-- What the deeds tell of a call that waits: its tool's task goes on, and if the tool notes its reply,
the call began on its session, and the deeds since then have its line written unless it still waits for
that. -/
def Pending (b : Switchboard Outcome) (t : List Deed) (tool : ToolCall) (c : Call Outcome) : Prop :=
  ∃ held, c.wait.Goes tool held ∧ (tool.notes = true →
    ∃ before since, t = before ++ .began c.id c.session tool :: since ∧
      held = (boardOf c.session before).last ∧ (.wrote c.id ∈ since ∨ b.serves c = false))

/-- What the deeds tell of a switchboard. -/
structure Told (callers : List (Option ToolCall)) (b : Switchboard Outcome) (t : List Deed) : Prop where
  boards : ∀ i, b.boardAt i = boardOf i t
  pending : ∀ c ∈ b.calls, ∃ tool, callers[c.id]? = some (some tool) ∧ Pending b t tool c
  vouched : ∀ earlier id report later, t = earlier ++ .answered id report :: later →
    Vouched earlier id report
  reported : t.filterMap Deed.reported? = b.results.map fun x => (x.1, reportOf x.2)

variable {callers callers' : List (Option ToolCall)} {b b' : Switchboard Outcome} {t opening : List Deed}

theorem writings_idle {d : Deed} (h : d ∈ writings b b') : d.idle = true := by
  obtain ⟨c, _, rfl⟩ := List.mem_map.mp h
  rfl

theorem answers_idle {d : Deed} (h : d ∈ answers b b') : d.idle = true := by
  obtain ⟨x, _, rfl⟩ := List.mem_map.mp h
  rfl

theorem outcome_idle : ∀ d ∈ writings b b' ++ answers b b', d.idle = true := by
  intro d hd
  rcases List.mem_append.mp hd with written | answered
  · exact writings_idle written
  · exact answers_idle answered

/-- A call that waits before a happening and after it has its line written in between, if not before. -/
theorem Pending.go {tool : ToolCall} {c : Call Outcome} (h : Pending b t tool c) (waits : c ∈ b.calls)
    (opening : List Deed) :
    Pending b' (t ++ (opening ++ (writings b b' ++ answers b b'))) tool c := by
  obtain ⟨held, goes, told⟩ := h
  refine ⟨held, goes, fun notes => ?_⟩
  obtain ⟨before, since, rfl, last, taken⟩ := told notes
  refine ⟨before, since ++ (opening ++ (writings b b' ++ answers b b')), by simp, last, ?_⟩
  cases served : b'.serves c with
  | false => exact Or.inr rfl
  | true =>
    left
    rcases taken with wrote | unserved
    · exact List.mem_append_left _ wrote
    · have now : Deed.wrote c.id ∈ writings b b' :=
        List.mem_map.mpr ⟨c, List.mem_filter.mpr ⟨waits, by simp [unserved, served]⟩, rfl⟩
      simp [now]

theorem Pending.grow {tool : ToolCall} {c : Call Outcome} (h : Pending b t tool c) (u : List Deed) :
    Pending b (t ++ u) tool c := by
  obtain ⟨held, goes, told⟩ := h
  refine ⟨held, goes, fun notes => ?_⟩
  obtain ⟨before, since, rfl, last, taken⟩ := told notes
  exact ⟨before, since ++ u, by simp, last, taken.imp_left (List.mem_append_left u)⟩

/-- Where an element of two lists together is. -/
theorem append_split {α : Type} {xs ys left right : List α} {a : α}
    (h : xs ++ ys = left ++ a :: right) :
    (∃ rest, xs = left ++ a :: rest) ∨ ∃ more, left = xs ++ more ∧ ys = more ++ a :: right := by
  rcases List.append_eq_append_iff.mp h with ⟨more, eq, rest⟩ | ⟨more, eq, rest⟩
  · exact Or.inr ⟨more, eq, rest⟩
  · cases more with
    | nil => exact Or.inr ⟨[], by simpa using eq.symm, by simpa using rest.symm⟩
    | cons first more =>
      obtain ⟨rfl, _⟩ := List.cons.inj rest
      exact Or.inl ⟨more, eq⟩

theorem Told.go (h : Told callers b t) (quiet : ∀ d ∈ opening, d.reported? = none)
    (boards : ∀ i, b'.boardAt i = boardOf i (t ++ opening))
    (grown : ∀ (id : Nat) (tool : ToolCall), callers[id]? = some (some tool) →
      callers'[id]? = some (some tool))
    (calls : ∀ c ∈ b'.calls, c ∈ b.calls ∨
      ∃ tool, callers'[c.id]? = some (some tool) ∧ Pending b' (t ++ opening) tool c)
    (new : List (Nat × Outcome)) (results : b'.results = b.results ++ new)
    (vouched : ∀ x ∈ new, Vouched (t ++ opening) x.1 (reportOf x.2)) :
    Told callers' b' (t ++ (opening ++ (writings b b' ++ answers b b'))) := by
  have told : answers b b' = new.map fun x => .answered x.1 (reportOf x.2) := by
    simp [answers, results]
  refine ⟨fun i => ?_, fun c hc => ?_, fun earlier id report later split => ?_, ?_⟩
  · rw [boards, ← List.append_assoc, boardOf_append i (t ++ opening), boardAfter_idle _ _ outcome_idle]
  · rcases calls c hc with old | ⟨tool, caller, pending⟩
    · obtain ⟨tool, caller, pending⟩ := h.pending c old
      exact ⟨tool, grown _ _ caller, pending.go old opening⟩
    · rw [← List.append_assoc]
      exact ⟨tool, caller, pending.grow _⟩
  · rcases append_split split with ⟨rest, old⟩ | ⟨after, rfl, later⟩
    · exact h.vouched earlier id report rest old
    · rcases append_split later with ⟨rest, opened⟩ | ⟨more, rfl, ended⟩
      · have silent := quiet (.answered id report) (by simp [opened])
        cases silent
      · have idle : ∀ d ∈ more, d.idle = true := by
          intro d hd
          have mem : d ∈ writings b b' ++ answers b b' := by simp [ended, hd]
          exact outcome_idle d mem
        have last : Deed.answered id report ∈ writings b b' ++ answers b b' := by simp [ended]
        rcases List.mem_append.mp last with written | answered
        · obtain ⟨c, _, same⟩ := List.mem_map.mp written
          cases same
        · rw [told] at answered
          obtain ⟨x, hx, same⟩ := List.mem_map.mp answered
          cases same
          rw [← List.append_assoc]
          exact (vouched x hx).grow idle
  · have opened : opening.filterMap Deed.reported? = [] := List.filterMap_eq_nil_iff.mpr quiet
    have written : (writings b b').filterMap Deed.reported? = [] := by
      refine List.filterMap_eq_nil_iff.mpr fun d hd => ?_
      obtain ⟨c, _, rfl⟩ := List.mem_map.mp hd
      rfl
    simp only [List.filterMap_append, opened, written, h.reported, told, results, List.map_append,
      List.nil_append, List.filterMap_map]
    congr 1
    exact List.filterMap_eq_map_iff_forall_eq_some.mpr fun x hx => rfl

/-- What leaves every board alone and answers calls without a word of stops. -/
theorem Told.still (h : Told callers b t) (boards : ∀ i, b'.boardAt i = b.boardAt i)
    (grown : ∀ (id : Nat) (tool : ToolCall), callers[id]? = some (some tool) →
      callers'[id]? = some (some tool))
    (calls : ∀ c ∈ b'.calls, c ∈ b.calls) (new : List (Nat × Outcome))
    (results : b'.results = b.results ++ new) (silent : ∀ x ∈ new, reportOf x.2 = .other) :
    Told callers' b' (t ++ ([] ++ (writings b b' ++ answers b b'))) := by
  refine h.go (by simp) (fun i => ?_) grown (fun c hc => Or.inl (calls c hc)) new results fun x hx => ?_
  · rw [boards, h.boards, List.append_nil]
  · exact Or.inl (silent x hx)

/-- So does what answers none. -/
theorem Told.unanswered (h : Told callers b t) (boards : ∀ i, b'.boardAt i = b.boardAt i)
    (calls : ∀ c ∈ b'.calls, c ∈ b.calls) (results : b'.results = b.results) :
    Told callers b' (t ++ ([] ++ (writings b b' ++ answers b b'))) :=
  h.still boards (fun _ _ caller => caller) calls [] (by rw [results, List.append_nil]) (by simp)

theorem Told.same (h : Told callers b t) : Told callers b (t ++ ([] ++ (writings b b ++ answers b b))) :=
  h.unanswered (fun _ => rfl) (fun _ hc => hc) rfl

theorem boardAt_of_some {i : Nat} {s : Session} (here : b.sessions[i]? = some s) :
    b.boardAt i = s.board := by
  simp [Switchboard.boardAt, here]

/-- A session whose board stays as it was may change otherwise. -/
theorem boardAt_modify (b : Switchboard Outcome) (i j : Nat) (change : Session → Session)
    (same : ∀ s : Session, (change s).board = s.board) :
    (b.modify i change).boardAt j = b.boardAt j := by
  simp only [Switchboard.boardAt, Switchboard.modify, List.getElem?_modify]
  cases b.sessions[j]? with
  | none => rfl
  | some s =>
    by_cases here : i = j
    · simp [here, same]
    · simp [here]

theorem boardAt_append (b : Switchboard Outcome) (j : Nat) {s : Session} (fresh : s.board = .start) :
    { b with sessions := b.sessions ++ [s] }.boardAt j = b.boardAt j := by
  simp only [Switchboard.boardAt]
  by_cases old : j < b.sessions.length
  · rw [List.getElem?_append_left old]
  · have absent : b.sessions[j]? = none := List.getElem?_eq_none (Nat.not_lt.mp old)
    rw [List.getElem?_append_right (Nat.not_lt.mp old), absent]
    cases new : [s][j - b.sessions.length]? with
    | none => rfl
    | some x =>
      obtain rfl := List.mem_singleton.mp (List.mem_of_getElem? new)
      exact fresh

end ToolServer

/-- A request that was only just accepted was not taken up. -/
theorem Relay.serves_issued {r : Relay} (orderly : r.Orderly) : r.serves r.issued = false := by
  have later : r.resolved[r.issued]? = none := List.getElem?_eq_none orderly.settled_le
  have flying : ∀ q ∈ r.inFlight, q.ticket ≠ r.issued := by
    intro q hq
    have row : q.ticket ∈ r.row.map (·.ticket) := by
      have busy : r.inFlight = some q := hq
      refine List.mem_map_of_mem ?_
      simp [row, outstanding, busy]
    rw [orderly.tickets] at row
    exact Nat.ne_of_lt (List.mem_range.mp row)
  cases busy : r.inFlight with
  | none => simp [serves, busy, later]
  | some q => simpa [serves, busy, later] using flying q busy

/-- A task takes up no request. -/
theorem Session.advance_serves (now : Nat) (s : Session) (task : Task Outcome) (ticket : Nat) :
    (s.advance now task).1.relay.serves ticket = s.relay.serves ticket := by
  induction task generalizing s with
  | done a => rfl
  | request line next ih =>
    unfold advance
    cases submitted : s.relay.submit line with
    | error fault => exact ih _ s
    | ok posted =>
      obtain ⟨relay, _⟩ := posted
      obtain ⟨_, rfl⟩ := Relay.submit_posted submitted
      rfl
  | setMode mode next ih => exact ih { s with relay := s.relay.setMode mode }
  | look next ih => exact ih _ s
  | update change next ih => exact ih { s with board := change s.board }
  | awaitStop count limit next ih =>
    unfold advance
    split
    next stop _ => exact ih _ s
    next =>
      split
      next => exact ih _ s
      next => rfl

namespace ToolServer

section Carried

variable {b₁ : Switchboard Outcome} {i id : Nat} {s s' : Session} {task : Task Outcome}
  {progress : Progress Outcome} {tool : ToolCall}

/-- A call goes on on a session, as its turn there says. -/
theorem Told.carryOn (h : Told callers b t) (fewer : ∀ c ∈ b₁.calls, c ∈ b.calls)
    (results : b₁.results = b.results) (here : b₁.sessions[i]? = some s)
    (turn : s.advance b₁.now task = (s', progress)) (quiet : ∀ d ∈ opening, d.reported? = none)
    (others : ∀ j, j ≠ i → b₁.boardAt j = boardOf j (t ++ opening))
    (own : s'.board = boardOf i (t ++ opening))
    (grown : ∀ (id : Nat) (tool : ToolCall), callers[id]? = some (some tool) →
      callers'[id]? = some (some tool))
    (caller : callers'[id]? = some (some tool))
    (ends : ∀ outcome, progress = .finished outcome → Vouched (t ++ opening) id (reportOf outcome))
    (waits : ∀ wait, progress = .waiting wait →
      Pending (b₁.carryOn id i task) (t ++ opening) tool ⟨id, i, wait⟩) :
    Told callers' (b₁.carryOn id i task) (t ++ (opening ++
      (writings b (b₁.carryOn id i task) ++ answers b (b₁.carryOn id i task)))) := by
  have place : i < b₁.sessions.length := (List.getElem?_eq_some_iff.mp here).1
  have boards : ∀ c : Switchboard Outcome, c.sessions = b₁.sessions.set i s' →
      ∀ j, c.boardAt j = boardOf j (t ++ opening) := by
    intro c sessions j
    by_cases same : j = i
    · subst same
      simp [Switchboard.boardAt, sessions, place, own]
    · rw [← others j same]
      simp [Switchboard.boardAt, sessions, Ne.symm same]
  cases progress with
  | finished outcome =>
    have carried : b₁.carryOn id i task =
        { b₁ with sessions := b₁.sessions.set i s' }.finish id outcome := by
      simp only [Switchboard.carryOn, here, turn]
    rw [carried]
    refine h.go quiet (boards _ rfl) grown (fun c hc => Or.inl (fewer c hc)) [(id, outcome)] ?_
      fun x hx => ?_
    · rw [← results]
      rfl
    · rw [List.mem_singleton.mp hx]
      exact ends outcome rfl
  | waiting wait =>
    have pending := waits wait rfl
    have carried : b₁.carryOn id i task =
        { b₁ with sessions := b₁.sessions.set i s', calls := b₁.calls ++ [⟨id, i, wait⟩] } := by
      simp only [Switchboard.carryOn, here, turn]
    rw [carried] at pending ⊢
    refine h.go quiet (boards _ rfl) grown (fun c hc => ?_) [] ?_ (by simp)
    · rcases List.mem_append.mp hc with old | new
      · exact Or.inl (fewer c old)
      · rw [List.mem_singleton.mp new]
        exact Or.inr ⟨tool, caller, pending⟩
    · rw [List.append_nil, ← results]

theorem sessions_carryOn (here : b₁.sessions[i]? = some s) (turn : s.advance b₁.now task = (s', progress)) :
    (b₁.carryOn id i task).sessions[i]? = some s' := by
  have place : i < b₁.sessions.length := (List.getElem?_eq_some_iff.mp here).1
  simp only [Switchboard.carryOn, here, turn]
  cases progress <;> simp [Switchboard.finish, place]

/-- The request that a turn has posted still waits. -/
theorem unserved_carryOn (here : b₁.sessions[i]? = some s)
    (turn : s.advance b₁.now task = (s', progress)) (orderly : s.relay.Orderly)
    (next : Except Fault Reply → Task Outcome) :
    (b₁.carryOn id i task).serves ⟨id, i, .reply s.relay.issued next⟩ = false := by
  have same := Session.advance_serves b₁.now s task s.relay.issued
  rw [turn, Relay.serves_issued orderly] at same
  simp [Switchboard.serves, sessions_carryOn here turn, same]

/-- Of a call that has had no reply, the deeds tell that it began and that its line is not written. -/
theorem Opened.told (id : Nat) (t : List Deed) {held : Option StopNotice}
    (opened : Opened tool held s.relay.issued progress)
    (here : b₁.sessions[i]? = some s) (turn : s.advance b₁.now task = (s', progress))
    (orderly : s.relay.Orderly)
    (begun : tool.notes = true → ∃ before since, t = before ++ .began id i tool :: since ∧
      held = (boardOf i before).last) :
    (∀ outcome, progress = .finished outcome → Vouched t id (reportOf outcome)) ∧
      ∀ wait, progress = .waiting wait →
        Pending (b₁.carryOn id i task) t tool ⟨id, i, wait⟩ := by
  cases opened with
  | returned silent =>
    refine ⟨fun outcome same => ?_, nofun⟩
    cases same
    exact Or.inl silent
  | asks goes =>
    refine ⟨nofun, fun wait same => ?_⟩
    cases same
    refine ⟨held, goes, fun notes => ?_⟩
    obtain ⟨before, since, split, last⟩ := begun notes
    exact ⟨before, since, split, last, Or.inr (unserved_carryOn here turn orderly _)⟩

theorem Told.begin (h : Told callers b t) {c : ToolCall} {task : ToolTask Answer}
    (asked : ToolTask.ofCall? c = some task) (i id : Nat)
    (orderly : ∀ s, b.sessions[i]? = some s → s.relay.Orderly)
    (grown : ∀ (id : Nat) (tool : ToolCall), callers[id]? = some (some tool) →
      callers'[id]? = some (some tool))
    (caller : callers'[id]? = some (some c)) :
    Told callers' (b.carryOn id i (ExceptT.run task)) (t ++ ([.began id i c] ++
      (writings b (b.carryOn id i (ExceptT.run task)) ++
        answers b (b.carryOn id i (ExceptT.run task))))) := by
  have others : ∀ j, j ≠ i → b.boardAt j = boardOf j (t ++ [.began id i c]) := by
    intro j other
    rw [boardOf_append, h.boards]
    simp [boardAfter, Deed.onBoard, Ne.symm other]
  have own : boardOf i (t ++ [.began id i c]) = c.beginOn (b.boardAt i) := by
    rw [boardOf_append, h.boards]
    simp [boardAfter, Deed.onBoard]
  have quiet : ∀ d ∈ [Deed.began id i c], d.reported? = none := by simp [Deed.reported?]
  cases here : b.sessions[i]? with
  | none =>
    have nothing : b.carryOn id i (ExceptT.run task) = b := by
      simp only [Switchboard.carryOn, here]
    rw [nothing]
    refine h.go quiet (fun j => ?_) grown (fun c hc => Or.inl hc) [] (by simp) (by simp)
    by_cases same : j = i
    · subst same
      have fresh : b.boardAt j = .start := by simp [Switchboard.boardAt, here]
      rw [own, fresh, ToolCall.beginOn]
      split <;> rfl
    · exact others j same
  | some s =>
    obtain ⟨s', progress, turn, board, opened⟩ := Session.begin_turn asked b.now s
    have last : s.board.last = (boardOf i t).last := by
      rw [← h.boards, boardAt_of_some here]
    obtain ⟨ends, waits⟩ := Opened.told id _ opened here turn (orderly s here)
      fun _ => ⟨t, [], rfl, last⟩
    refine h.carryOn (fun c hc => hc) rfl here turn quiet others ?_ grown caller ends waits
    rw [own, boardAt_of_some here, board]

/-- Of a call that has had its reply, the deeds tell that it began and that its line was written. -/
theorem Carried.told (id : Nat) (t : List Deed) {held : Option StopNotice}
    (carried : Carried tool held s'.board.last s.relay.issued progress)
    (here : b₁.sessions[i]? = some s) (turn : s.advance b₁.now task = (s', progress))
    (orderly : s.relay.Orderly) (own : s'.board = boardOf i t)
    (begun : tool.notes = true → ∃ before since, t = before ++ .began id i tool :: since ∧
      held = (boardOf i before).last ∧ .wrote id ∈ since) :
    (∀ outcome, progress = .finished outcome → Vouched t id (reportOf outcome)) ∧
      ∀ wait, progress = .waiting wait →
        Pending (b₁.carryOn id i task) t tool ⟨id, i, wait⟩ := by
  cases carried with
  | returned fits =>
    refine ⟨fun outcome same => ?_, nofun⟩
    cases same
    cases notes : tool.notes with
    | true =>
      obtain ⟨before, since, split, rfl, wrote⟩ := begun notes
      exact vouched_of_fits split wrote (own ▸ fits)
    | false => exact Or.inl (Report.eq_other_of_fits fits notes)
  | asks goes =>
    refine ⟨nofun, fun wait same => ?_⟩
    cases same
    refine ⟨held, goes, fun notes => ?_⟩
    obtain ⟨before, since, split, last, _⟩ := begun notes
    exact ⟨before, since, split, last, Or.inr (unserved_carryOn here turn orderly _)⟩
  | lingers count deadline lingers =>
    refine ⟨nofun, fun wait same => ?_⟩
    cases same
    refine ⟨held, lingers, fun notes => ?_⟩
    obtain ⟨before, since, split, last, wrote⟩ := begun notes
    exact ⟨before, since, split, last, Or.inl wrote⟩

section Handover

variable {held : Option StopNotice} {next : Except Fault Reply → Task Outcome}
  (h : Told callers b t) (goes : ToolTask.Goes tool held next) (here : b₁.sessions[i]? = some s)
  (fewer : ∀ c ∈ b₁.calls, c ∈ b.calls) (results : b₁.results = b.results)
  (boards : ∀ j, b₁.boardAt j = boardOf j t) (orderly : s.relay.Orderly)
  (caller : callers[id]? = some (some tool))
include h goes here fewer results boards orderly caller

theorem Told.fault (begun : tool.notes = true → ∃ before since,
      t = before ++ .began id i tool :: since ∧ held = (boardOf i before).last) (fault : Fault) :
    let b' := b₁.carryOn id i (next (.error fault))
    Told callers b' (t ++ ([] ++ (writings b b' ++ answers b b'))) := by
  obtain ⟨s', progress, turn, board, opened⟩ := Session.fault_turn goes b₁.now s fault
  have same : t ++ [] = t := List.append_nil t
  obtain ⟨ends, waits⟩ := Opened.told id (t ++ []) opened here turn orderly
    (by rwa [same])
  refine h.carryOn fewer results here turn (by simp) (fun j _ => ?_) ?_ (fun _ _ caller => caller) caller
    ends waits
  · rw [boards, same]
  · rw [board, ← boardAt_of_some here, boards, same]

theorem Told.reply (begun : tool.notes = true → ∃ before since,
      t = before ++ .began id i tool :: since ∧ held = (boardOf i before).last ∧ .wrote id ∈ since)
    (reply : Reply) :
    let b' := b₁.carryOn id i (next (.ok reply))
    Told callers b'
      (t ++ ([.handed i tool reply.inDebugMode] ++ (writings b b' ++ answers b b'))) := by
  obtain ⟨s', progress, turn, board, carried⟩ := Session.reply_turn goes b₁.now s reply
  have own : s'.board = boardOf i (t ++ [.handed i tool reply.inDebugMode]) := by
    rw [board, ← boardAt_of_some here, boards, boardOf_append]
    simp [boardAfter, Deed.onBoard]
  obtain ⟨ends, waits⟩ := Carried.told id _ carried here turn orderly own fun notes => by
    obtain ⟨before, since, split, last, wrote⟩ := begun notes
    exact ⟨before, since ++ [.handed i tool reply.inDebugMode], by simp [split], last,
      List.mem_append_left _ wrote⟩
  refine h.carryOn fewer results here turn (by simp [Deed.reported?]) (fun j other => ?_) own
    (fun _ _ caller => caller) caller ends waits
  rw [boards, boardOf_append]
  simp [boardAfter, Deed.onBoard, Ne.symm other]

end Handover

end Carried

variable {signs : Nat → List Sign}

/-- A resolution is handed over: with its reply that is a deed, and the call goes on. -/
theorem Told.deliver (h : Told callers b t) (kept : Kept callers signs (fun _ => none) b) (i : Nat) :
    let opening := match handedSign? callers b i with
      | some (.reply tool inDebugMode) => [.handed i tool inDebugMode]
      | _ => []
    Told callers (b.deliverNext i)
      (t ++ (opening ++ (writings b (b.deliverNext i) ++ answers b (b.deliverNext i)))) := by
  cases next : b.sessions[i]?.bind Session.undelivered? with
  | none =>
    have nobody : handedSign? callers b i = none := by
      simp [handedSign?, Switchboard.handover?, next]
    have nothing : b.deliverNext i = b := by simp [Switchboard.deliverNext, next]
    rw [nobody, nothing]
    exact h.same
  | some x =>
    obtain ⟨s, here, next⟩ := Option.bind_eq_some_iff.mp next
    obtain ⟨id, tool, goesOn, handed, mem, caller, minds, eq⟩ := kept.handover here next
    obtain ⟨tool', caller', held, goes, told⟩ := h.pending _ mem
    cases caller.symm.trans caller'
    let b₁ := (b.modify i fun s => { s with delivered := s.delivered + 1 }).dropCall id
    have here₁ : b₁.sessions[i]? = some { s with delivered := s.delivered + 1 } := by
      simp [b₁, Switchboard.dropCall, Switchboard.modify, here]
    have fewer : ∀ c ∈ b₁.calls, c ∈ b.calls := fun c hc => List.mem_of_mem_filter hc
    have boards : ∀ j, b₁.boardAt j = boardOf j t :=
      fun j => (boardAt_modify b i j (fun s => { s with delivered := s.delivered + 1 })
        fun _ => rfl).trans (h.boards j)
    have orderly : s.relay.Orderly := (kept.tracked i s here).orderly
    have sign : handedSign? callers b i = signOf tool x := by simp [handedSign?, handed, caller]
    rw [eq, sign]
    cases result : x.result with
    | error fault =>
      have silent : signOf tool x = none := by
        simp [signOf, Resolution.prompt?, result, Except.toOption]
      rw [silent]
      refine h.fault goes here₁ fewer rfl boards orderly caller (fun notes => ?_) fault
      obtain ⟨before, since, split, last, _⟩ := told notes
      exact ⟨before, since, split, last⟩
    | ok reply =>
      have spoken : signOf tool x = some (.reply tool reply.inDebugMode) := by
        simp [signOf, Resolution.prompt?, result, Except.toOption]
      have settled : s.relay.resolved[s.delivered]? = some x := next
      have served : b.serves ⟨id, i, .reply s.delivered goesOn⟩ = true := by
        simp [Switchboard.serves, here, Relay.serves, settled, result, Except.toOption]
      rw [spoken]
      refine h.reply goes here₁ fewer rfl boards orderly caller (fun notes => ?_) reply
      obtain ⟨before, since, split, last, taken⟩ := told notes
      exact ⟨before, since, split, last, taken.resolve_right (by simp [served])⟩

/-- A session that records a stop. -/
theorem Told.record (h : Told callers b t) (i : Nat) :
    Told callers (b.make (.record i)) (t ++ ((b.recordedStop? i).toList.map (.recorded i) ++
      (writings b (b.make (.record i)) ++ answers b (b.make (.record i))))) := by
  refine h.go (fun d hd => ?_) (fun j => ?_) (fun _ _ caller => caller) (fun c hc => Or.inl hc)
    [] (by simp [Switchboard.make, Switchboard.modify]) (by simp)
  · obtain ⟨stop, _, rfl⟩ := List.mem_map.mp hd
    rfl
  · rw [boardOf_append, ← h.boards]
    by_cases same : i = j
    · subst same
      cases here : b.sessions[i]? with
      | none =>
        simp [Switchboard.boardAt, Switchboard.make, Switchboard.modify, Switchboard.recordedStop?, here,
          boardAfter]
      | some s =>
        cases recording : s.recording <;> cases waiting : s.notices <;>
          simp [Switchboard.boardAt, Switchboard.make, Switchboard.modify, Switchboard.recordedStop?,
            here, recording, waiting, Session.record, boardAfter, Deed.onBoard]
    · have others : (b.make (.record i)).boardAt j = b.boardAt j := by
        simp [Switchboard.boardAt, Switchboard.make, Switchboard.modify, same]
      rw [others]
      cases b.recordedStop? i <;> simp [boardAfter, Deed.onBoard, same]

/-- A call whose wait for a stop is over tells the stop that its session holds, if any. -/
theorem Told.stopWait (h : Told callers b t) {c : Call Outcome} (mem : c ∈ b.calls) {count : UInt64}
    {deadline : Nat} {next : Option StopNotice → Task Outcome} (wait : c.wait = .stop count deadline next) :
    let b' := b.endWait c (b.stopFor? c)
    Told callers b' (t ++ ([] ++ (writings b b' ++ answers b b'))) := by
  obtain ⟨tool, caller, held, lingers, told⟩ := h.pending c mem
  rw [wait] at lingers
  have fewer : ∀ d ∈ (b.dropCall c.id).calls, d ∈ b.calls := fun d hd => List.mem_of_mem_filter hd
  have eq : b.endWait c (b.stopFor? c) =
      (b.dropCall c.id).carryOn c.id c.session (next (b.stopFor? c)) := by
    simp only [Switchboard.endWait, wait]
  rw [eq]
  cases here : b.sessions[c.session]? with
  | none =>
    have gone : ∀ task, (b.dropCall c.id).carryOn c.id c.session task = b.dropCall c.id := by
      intro task
      have absent : (b.dropCall c.id).sessions[c.session]? = none := here
      simp only [Switchboard.carryOn, absent]
    rw [gone]
    exact h.unanswered (fun _ => rfl) fewer rfl
  | some s =>
    have stopped : b.stopFor? c = none ∨ b.stopFor? c = s.board.last := by
      cases stop : b.stopFor? c with
      | none => exact Or.inl rfl
      | some stop' =>
        have newer : s.board.newer? count = some stop' := by
          simpa [Switchboard.stopFor?, wait, here] using stop
        exact Or.inr (StopBoard.newer_eq_last newer).symm
    obtain ⟨outcome, turn, fits⟩ := Session.stop_turn lingers b.now s stopped
    have notes : tool.notes = true := by
      cases lingers with
      | resumed tells reply => cases tells <;> rfl
      | stepped held reply => rfl
    have own : s.board = boardOf c.session t := by rw [← h.boards, boardAt_of_some here]
    obtain ⟨before, since, split, rfl, taken⟩ := told notes
    have wrote : .wrote c.id ∈ since := taken.resolve_right (by simp [Switchboard.serves, wait])
    refine h.carryOn fewer rfl here turn (by simp) (fun j _ => ?_) ?_ (fun _ _ caller => caller) caller
      (fun _ same => ?_) (fun _ waits => ?_)
    · rw [List.append_nil]
      exact h.boards j
    · rw [own, List.append_nil]
    · cases same
      rw [List.append_nil]
      exact vouched_of_fits split wrote (own ▸ fits)
    · cases waits

theorem Told.endWait (h : Told callers b t) (id : Nat) :
    Told callers (b.endWaitOf id)
      (t ++ ([] ++ (writings b (b.endWaitOf id) ++ answers b (b.endWaitOf id)))) := by
  unfold Switchboard.endWaitOf
  split
  next => exact h.same
  next c found =>
    split
    next =>
      cases wait : c.wait with
      | reply ticket next =>
        simp only [Switchboard.endWait, wait]
        exact h.same
      | stop count deadline next => exact h.stopWait (List.mem_of_find?_eq_some found) wait
    next => exact h.same

theorem Told.make {signs : Nat → List Sign} {w : Watched} (h : Told w.callers w.server.board t)
    (kept : Kept w.callers signs (fun _ => none) w.server.board) {m : Switchboard.Move Outcome}
    (unasked : m.unasked = true) :
    let b' := w.server.board.make m
    Told w.callers b' (t ++ (w.opening (.move m unasked) ++
      (writings w.server.board b' ++ answers w.server.board b'))) := by
  have changed : ∀ (i : Nat) (change : Session → Session), (∀ s : Session, (change s).board = s.board) →
      let b' := w.server.board.modify i change
      Told w.callers b' (t ++ ([] ++ (writings w.server.board b' ++ answers w.server.board b'))) :=
    fun i change same => h.unanswered (fun j => boardAt_modify w.server.board i j change same)
      (fun _ hc => hc) rfl
  cases m with
  | call session task => cases unasked
  | cancel id => cases unasked
  | deliver i => exact h.deliver kept i
  | relay i event => exact changed i _ fun _ => rfl
  | diagnose i bytes => exact changed i _ fun _ => rfl
  | record i => exact h.record i
  | endWait id => exact h.endWait id
  | passTime moment =>
    exact h.unanswered (fun _ => rfl) (fun _ hc => hc) rfl

end ToolServer

end PromptRelay
