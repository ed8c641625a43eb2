import PromptRelay.Proofs.SessionAnswers
import PromptRelay.Proofs.SessionViews

namespace PromptRelay.ToolServer

open Switchboard (Alike)

/-- Who looks at session `k` also sees the session being launched, for whose end new calls wait. -/
def shows (s : ToolServer) (k i : Nat) : Bool := i = k || s.launching.any (·.place = i)

/-- Whether a result is that of one of the calls, or of the launch under way. -/
def hears (s : ToolServer) (own : List Nat) (id : Nat) : Bool :=
  id ∈ own || s.launching.any (·.id = id)

/-- A happening in a session that who looks at session `k` does not see. -/
def elsewhere (s : ToolServer) (k : Nat) : Happening → Bool
  | .move (.passTime _) _ => false
  | .move m _ => !(s.board.place? m).any (s.shows k)
  | .exchange i | .wake i => !s.shows k i
  | .wrapUp i => i ≠ k
  | _ => false

/-- What happens, without what happens in other sessions than `k`. -/
def purge (k : Nat) (s : ToolServer) : List Happening → List Happening
  | [] => []
  | e :: later =>
    if s.elsewhere k e then purge k (s.happen e) later else e :: purge k (s.happen e) later

/-- Two servers that look alike to who sees session `k`, and hears the calls that are bound to it. -/
structure Resembles (k : Nat) (own : List Nat) (s s' : ToolServer) : Prop where
  current : s.current = s'.current
  launching : s.launching = s'.launching
  waiting : s.waiting = s'.waiting
  host : s.host = s'.host
  endings : s.endings.filter (·.place = k) = s'.endings.filter (·.place = k)
  board : Alike (s.shows k) (s.hears own) s.board s'.board

variable {k id : Nat} {own : List Nat} {s s' : ToolServer} {bound bound' : Nat → List Nat}

/-- A call that is bound to a session that is not seen is not heard either. -/
theorem Lodged.unheard (h : Lodged s bound) {i : Nat} (home : id ∈ bound i)
    (unseen : s.shows k i = false) : s.hears (bound k) id = false := by
  obtain ⟨other, apart⟩ : i ≠ k ∧ s.launching.any (·.place = i) = false := by
    simpa [shows] using unseen
  have unbound : id ∉ bound k := fun here => other (h.once _ _ _ home here)
  have unlaunched : s.launching.any (·.id = id) = false := by
    cases launching : s.launching with
    | none => rfl
    | some l =>
      have place : l.place ≠ i := by simpa [launching] using apart
      have ne : l.id ≠ id := fun same =>
        place (h.once _ _ _ (h.launched l launching).1 (same ▸ home))
      simpa using ne
  simp [hears, unbound, unlaunched]

theorem shows_congr (same : s.launching = s'.launching) : s.shows k = s'.shows k := by
  funext i
  simp only [shows, same]

theorem hears_congr (same : s.launching = s'.launching) : s.hears own = s'.hears own := by
  funext id
  simp only [hears, same]

namespace Resembles

theorem refl (s : ToolServer) : Resembles k own s s := ⟨rfl, rfl, rfl, rfl, rfl, .refl _⟩

theorem symm (h : Resembles k own s s') : Resembles k own s' s := by
  have board := h.board.symm
  rw [shows_congr h.launching, hears_congr h.launching] at board
  exact ⟨h.current.symm, h.launching.symm, h.waiting.symm, h.host.symm, h.endings.symm, board⟩

theorem trans {s'' : ToolServer} (h : Resembles k own s s') (later : Resembles k own s' s'') :
    Resembles k own s s'' := by
  have board := later.board
  rw [← shows_congr h.launching, ← hears_congr h.launching] at board
  exact ⟨h.current.trans later.current, h.launching.trans later.launching,
    h.waiting.trans later.waiting, h.host.trans later.host, h.endings.trans later.endings,
    h.board.trans board⟩

/-- Session `k` is the same, and so are the calls that wait on it and what its calls were told. -/
theorem session (h : Resembles k own s s') :
    s.board.sessions[k]? = s'.board.sessions[k]? ∧
      s.board.calls.filter (·.session = k) = s'.board.calls.filter (·.session = k) ∧
      s.board.results.filter (·.1 ∈ own) = s'.board.results.filter (·.1 ∈ own) := by
  have view : Alike (· = k) (· ∈ own) s.board s'.board := h.board.see
    (fun i mine => .inl (by simpa [shows] using .inl (of_decide_eq_true mine)))
    (fun n mine => .inl (by simpa [hears] using .inl (of_decide_eq_true mine)))
  exact ⟨view.sessions k (by simp), view.calls, view.results⟩

theorem begins (h : Resembles k own s s') (e : Happening) : s.begins? e = s'.begins? e := by
  cases e with
  | call c => simp [begins?, h.launching, h.board.started]
  | resume => simp [begins?, h.launching, h.waiting]
  | _ => rfl

theorem workplace (h : Resembles k own s s') (c : ToolCall) : s.workplace? c = s'.workplace? c := by
  cases c with
  | launch choice => simp only [workplace?, spawn, h.current, h.host, h.board.count]
  | _ => exact h.current

theorem binds (h : Resembles k own s s') (i : Nat) (e : Happening) : s.binds i e = s'.binds i e := by
  simp only [ToolServer.binds, h.begins, h.workplace]

theorem answer (h : Resembles k own s s') (id : Nat) (outcome : Outcome) :
    Resembles k own (s.answer id outcome) (s'.answer id outcome) :=
  { h with board := h.board.finish id outcome }

theorem enter (h : Resembles k own s s') :
    Resembles k own { s with board := s.board.enter } { s' with board := s'.board.enter } :=
  { h with board := h.board.enter }

theorem modify (h : Resembles k own s s') (i : Nat) (change : Session → Session) :
    Resembles k own { s with board := s.board.modify i change }
      { s' with board := s'.board.modify i change } :=
  { h with board := h.board.modify i change }

/-- One more call may be heard, as long as it has no result. -/
theorem hear (h : Resembles k own s s') (fresh : Fresh s bound id) (fresh' : Fresh s' bound' id) :
    Resembles k (own ++ [id]) s s' := by
  refine { h with board := h.board.see (fun _ seen => .inl seen) fun n told => ?_ }
  by_cases same : n = id
  · exact .inr ⟨same ▸ fresh.unanswered, same ▸ fresh'.unanswered⟩
  · exact .inl (by simpa [hears, same] using told)

/-- A new session may be seen, while nobody works there. -/
theorem openSession (h : Resembles k own s s') (lodged : Lodged s bound) (lodged' : Lodged s' bound')
    (fresh : Fresh s bound id) (fresh' : Fresh s' bound' id) (t : Session) :
    Alike (fun i => i = k || s.board.sessions.length = i) (fun n => n ∈ own || id = n)
      { s.board with sessions := s.board.sessions ++ [t] }
      { s'.board with sessions := s'.board.sessions ++ [t] } := by
  have empty : ∀ c ∈ s.board.calls, c.session ≠ s.board.sessions.length := fun c mem =>
    Nat.ne_of_lt (lodged.known _ _ (lodged.housed c mem)).1
  have empty' : ∀ c ∈ s'.board.calls, c.session ≠ s.board.sessions.length := fun c mem =>
    Nat.ne_of_lt (h.board.count ▸ (lodged'.known _ _ (lodged'.housed c mem)).1)
  refine (h.board.addSession t).see (fun i seen => ?_) fun n told => ?_
  · by_cases here : i = k
    · exact .inl (by simp [shows, here])
    · obtain rfl : s.board.sessions.length = i := by simpa [here] using seen
      exact .inr ⟨by simp [h.board.count], empty, empty'⟩
  · by_cases same : n = id
    · exact .inr ⟨same ▸ fresh.unanswered, same ▸ fresh'.unanswered⟩
    · have mem : n ∈ own := by simpa [Ne.symm same] using told
      exact .inl (by simp [hears, mem])

theorem launch (h : Resembles k own s s') (lodged : Lodged s bound) (lodged' : Lodged s' bound')
    (fresh : Fresh s bound id) (fresh' : Fresh s' bound' id) (choice : LaunchChoice) :
    Resembles k own (s.launch id choice) (s'.launch id choice) := by
  unfold ToolServer.launch
  simp only [spawn, ← h.current, ← h.host]
  split
  next => exact h.answer id _
  next =>
    split
    next => exact h.answer id _
    next process _ =>
      have opened := h.openSession lodged lodged' fresh fresh' (Session.ofProcess process)
      have limit := congrArg (fun now => some (Launch.mk id s.board.sessions.length
        (Startup.ofLaunch s.host.environment choice).executable (now + launchLimit))) h.board.now
      simp only [← h.board.count]
      exact ⟨rfl, limit, h.waiting, rfl, h.endings, opened.carryOn id (by simp) _⟩

/-- A session is taken away, be it session `k` or one that is not seen. -/
theorem takeAway (h : Resembles k own s s') (i : Nat) :
    Resembles k own (s.takeAway i) (s'.takeAway i) :=
  { h.modify i fun session => Session.kill { session with recording := false } with current := rfl }

theorem wait (h : Resembles k own s s') (e : Ending) :
    Resembles k own { s with endings := s.endings ++ [e] } { s' with endings := s'.endings ++ [e] } :=
  { h with endings := by simp only [List.filter_append, h.endings] }

/-- Nobody sees the end of a session elsewhere, nor hears what the call is told that waits for it. -/
theorem hide_ending {e : Ending} (other : e.place ≠ k) :
    Resembles k own s { s with endings := s.endings ++ [e] } :=
  { (refl s : Resembles k own s s) with endings := by simp [other] }

theorem hide_answer (unheard : s.hears own id = false) (outcome : Outcome) :
    Resembles k own s (s.answer id outcome) :=
  { (refl s : Resembles k own s s) with board := .hide_finish _ unheard _ }

/-- After the session was taken away the call that does so looks like nothing, elsewhere. -/
theorem terminate_elsewhere {i : Nat} (current : s.current = some i) (other : i ≠ k)
    (unheard : s.hears own id = false) : Resembles k own (s.takeAway i) (s.terminate id) := by
  rcases terminate_cases s id with
    ⟨nobody, _⟩ | ⟨j, here, ⟨_, eq⟩ | ⟨x, _, ⟨_, eq⟩ | ⟨_, eq⟩⟩⟩
  · cases nobody.symm.trans current
  all_goals
    obtain rfl : j = i := Option.some.inj (here.symm.trans current)
    rw [eq]
  · exact .refl _
  · exact hide_ending (s := s.takeAway j) other
  · exact hide_answer (s := s.takeAway j) unheard _

theorem terminate_here (h : Resembles k own s s') (current : s.current = some k) (id : Nat) :
    Resembles k own (s.terminate id) (s'.terminate id) := by
  have taken := h.takeAway k
  have same := h.session.1
  unfold ToolServer.terminate
  simp only [← h.current, current, ← same, ← h.board.now]
  cases s.board.sessions[k]? with
  | none => exact taken
  | some x =>
    dsimp only
    split
    next => exact taken.wait _
    next => exact taken.answer id _

theorem terminate (h : Resembles k own s s') (fresh : Fresh s bound id) (fresh' : Fresh s' bound' id)
    (unheard : s.hears own id = false) :
    Resembles k (own ++ if s.current = some k then [id] else []) (s.terminate id) (s'.terminate id) := by
  cases current : s.current with
  | none =>
    have none' : s'.current = none := h.current ▸ current
    simp only [ToolServer.terminate, current, none', reduceCtorEq, if_false, List.append_nil]
    exact h.answer id _
  | some i =>
    have current' : s'.current = some i := h.current ▸ current
    by_cases mine : i = k
    · subst mine
      simpa using (h.hear fresh fresh').terminate_here current id
    · have unheard' : s'.hears own id = false := hears_congr h.launching ▸ unheard
      have first := terminate_elsewhere current mine unheard
      have second := terminate_elsewhere current' mine unheard'
      simpa [mine] using (first.symm.trans (h.takeAway i)).trans second

/-- A call goes to work on the current session, be that session `k` or one that is not seen. -/
theorem work (h : Resembles k own s s') (fresh : Fresh s bound id) (fresh' : Fresh s' bound' id)
    (free : s.launching = none) (unheard : s.hears own id = false) (i : Nat) (task : Task Outcome) :
    Resembles k (own ++ if i = k then [id] else []) { s with board := s.board.carryOn id i task }
      { s' with board := s'.board.carryOn id i task } := by
  by_cases mine : i = k
  · subst mine
    have heard := h.hear fresh fresh'
    simp only [if_true]
    exact { heard with board := heard.board.carryOn id (by simp [shows]) task }
  · have unseen : s.shows k i = false := by simp [shows, mine, free]
    simp only [mine, if_false, List.append_nil]
    have before := Alike.hide_carryOn s.board unseen unheard task
    have after := Alike.hide_carryOn s'.board unseen unheard task
    exact { h with board := (before.symm.trans h.board).trans after }

theorem begin (h : Resembles k own s s') (lodged : Lodged s bound) (lodged' : Lodged s' bound')
    (fresh : Fresh s bound id) (fresh' : Fresh s' bound' id) (free : s.launching = none)
    (new : id ∉ own) (c : ToolCall) :
    Resembles k (own ++ if s.workplace? c = some k then [id] else []) (s.begin id c) (s'.begin id c) := by
  have unheard : s.hears own id = false := by simp [hears, new, free]
  cases asked : ToolTask.ofCall? c with
  | none =>
    cases c with
    | launch choice =>
      split
      next => exact (h.hear fresh fresh').launch lodged lodged' fresh fresh' choice
      next =>
        rw [List.append_nil]
        exact h.launch lodged lodged' fresh fresh' choice
    | terminate => exact h.terminate fresh fresh' unheard
    | _ => cases asked
  | some task =>
    have place : s.workplace? c = s.current := by
      cases c <;> first | rfl | cases asked
    rw [place]
    cases current : s.current with
    | none =>
      have none' : s'.current = none := h.current ▸ current
      have told := detachedAnswer?_of_task asked
      rw [begin_detached told current, begin_detached told none']
      simp only [reduceCtorEq, if_false, List.append_nil]
      exact h.answer id _
    | some i =>
      have current' : s'.current = some i := h.current ▸ current
      rw [begin_of_task asked current, begin_of_task asked current']
      simpa using h.work fresh fresh' free unheard i (ExceptT.run task)

/-- Without its launch, a server shows and lets hear no more than session `k` and its calls. -/
theorem free {b b' : Switchboard Outcome} (board : Alike (s.shows k) (s.hears own) b b') :
    Alike (fun i => i = k || false) (fun n => n ∈ own || false) b b' := by
  refine board.see (fun i seen => .inl ?_) fun n heard => .inl ?_
  · have mine : i = k := by simpa using seen
    simp [shows, mine]
  · have mine : n ∈ own := by simpa using heard
    simp [hears, mine]

theorem told (h : Resembles k own s s') {l : Launch} (launching : s.launching = some l) :
    s.board.results.lookup l.id = s'.board.results.lookup l.id :=
  h.board.lookup (by simp [hears, launching])

theorem conclude (h : Resembles k own s s') :
    Resembles k own (s.happen .conclude) (s'.happen .conclude) := by
  simp only [ToolServer.happen, concludeLaunch?, ← h.launching]
  cases launching : s.launching with
  | none => exact h
  | some l =>
    have concluded := fun change => free (h.board.modify l.place change)
    simp only [← h.told launching, Option.bind_eq_bind, Option.bind_some]
    cases s.board.results.lookup l.id with
    | none => exact h
    | some outcome =>
      cases outcome with
      | ok answer => exact ⟨rfl, rfl, h.waiting, h.host, h.endings, concluded _⟩
      | error fault => exact ⟨h.current, rfl, h.waiting, h.host, h.endings, concluded _⟩

theorem giveUp (h : Resembles k own s s') : Resembles k own (s.happen .giveUp) (s'.happen .giveUp) := by
  simp only [ToolServer.happen, giveUp?, ← h.launching]
  cases launching : s.launching with
  | none => exact h
  | some l =>
    have late : s.runsLate l = s'.runsLate l := by
      simp only [runsLate, h.told launching, h.board.now, h.board.sessions l.place
        (by simp [shows, launching])]
    simp only [← late, Option.bind_eq_bind, Option.bind_some]
    split
    next =>
      have left := free ((h.board.dropCall l.id).modify l.place Session.abandon)
      exact ⟨h.current, rfl, h.waiting, h.host, h.endings, left.finish l.id _⟩
    next => exact h

theorem find_ending (h : Resembles k own s s') :
    s.endings.find? (·.place = k) = s'.endings.find? (·.place = k) := by
  rw [← List.head?_filter, h.endings, List.head?_filter]

theorem wrapUp (h : Resembles k own s s') :
    Resembles k own (s.happen (.wrapUp k)) (s'.happen (.wrapUp k)) := by
  have others : Resembles k own { s with endings := s.endings.filter (·.place ≠ k) }
      { s' with endings := s'.endings.filter (·.place ≠ k) } :=
    { h with endings := by simp [List.filter_filter] }
  simp only [ToolServer.happen, wrapUp?, ← h.find_ending, ← h.session.1, ← h.board.now]
  cases s.endings.find? (·.place = k) with
  | none => exact h
  | some e =>
    cases s.board.sessions[k]? with
    | none => exact h
    | some x =>
      simp only [Option.bind_eq_bind, Option.bind_some]
      split <;> split
      · exact others.wait _
      · exact h
      · exact others.answer e.id _
      · exact h

/-- The end of another session goes on unseen. -/
theorem hide_wrapUp (lodged : Lodged s bound) {i : Nat} (other : i ≠ k) :
    Resembles k (bound k) s (s.happen (.wrapUp i)) := by
  have rest : (s.endings.filter (·.place ≠ i)).filter (·.place = k) =
      s.endings.filter (·.place = k) := by
    rw [List.filter_filter]
    refine List.filter_congr fun e _ => ?_
    by_cases mine : e.place = k <;> simp [mine, Ne.symm other]
  rcases s.wrapUp_cases i with eq | ⟨e, x, found, _, eq | eq⟩ <;> rw [eq]
  · exact .refl s
  all_goals
    have mem := List.mem_of_find?_eq_some found
    have place : e.place = i := by simpa using List.find?_some found
  · refine { (refl s : Resembles k (bound k) s s) with endings := ?_ }
    rw [List.filter_append, rest]
    simp [place, other]
  · obtain ⟨home, _, apart⟩ := lodged.ended e mem
    have unseen : s.shows k e.place = false := by
      cases launching : s.launching with
      | none => simp [shows, launching, place, other]
      | some l => simpa [shows, launching, place, other] using Ne.symm (apart l launching)
    exact { (refl s : Resembles k (bound k) s s) with
      endings := rest.symm, board := .hide_finish _ (lodged.unheard home unseen) _ }

/-- What happens elsewhere is not seen. -/
theorem hide (h : Resembles k (bound k) s s') (lodged : Lodged s bound) (numbered : Numbered s)
    {e : Happening} (away : s.elsewhere k e = true) :
    Resembles k (bound k) (s.happen e) s' ∧ s.binds k e = [] := by
  have unseen : ∀ board, Alike (s.shows k) (s.hears (bound k)) s.board board →
      Resembles k (bound k) { s with board } s' := fun board same =>
    { h with board := same.symm.trans h.board }
  cases e with
  | move m unasked =>
    refine ⟨unseen _ (.hide_make unasked numbered.distinct
      (fun c mem => lodged.unheard (lodged.housed c mem)) ?_), rfl⟩
    cases m with
    | passTime moment => cases away
    | _ => exact ⟨by simp, by simpa [elsewhere] using away⟩
  | exchange i => exact ⟨unseen _ (.hide_modify _ (by simpa [elsewhere] using away) _), rfl⟩
  | wake i => exact ⟨unseen _ (.hide_modify _ (by simpa [elsewhere] using away) _), rfl⟩
  | wrapUp i => exact ⟨(hide_wrapUp lodged (by simpa [elsewhere] using away)).symm.trans h, rfl⟩
  | _ => cases away

theorem brink (h : Resembles k own s s') (e : Happening) :
    Resembles k own (s.brink e) (s'.brink e) := by
  cases e with
  | call c => exact h.enter
  | resume => exact { h with waiting := congrArg List.tail h.waiting }
  | _ => exact h

theorem happen_idle (h : Resembles k own s s') (numbered' : Numbered s') {e : Happening}
    (idle : s.begins? e = none) (here : s.elsewhere k e = false) :
    Resembles k own (s.happen e) (s'.happen e) := by
  have idle' : s'.begins? e = none := (h.begins e).symm.trans idle
  cases e with
  | call c =>
    rw [call_of_begins_none idle, call_of_begins_none idle', ← h.board.started, ← h.waiting]
    exact { h.enter with waiting := rfl }
  | refuse fault =>
    simp only [ToolServer.happen, ToolServer.refuse, ← h.board.started]
    exact h.enter.answer _ _
  | attach input =>
    exact { h with current := congrArg some h.board.count, board := h.board.addSession _ }
  | move m unasked =>
    have seen : (∃ moment, m = .passTime moment) ∨ (s.board.place? m).any (s.shows k) = true := by
      cases m with
      | passTime moment => exact .inl ⟨moment, rfl⟩
      | _ => exact .inr (by simpa [elsewhere] using here)
    exact { h with board := h.board.make unasked numbered'.distinct seen }
  | exchange i => exact h.modify i _
  | wake i => exact h.modify i _
  | conclude => exact h.conclude
  | giveUp => exact h.giveUp
  | resume =>
    rw [resume_of_begins_none idle, resume_of_begins_none idle']
    exact h
  | wrapUp i =>
    obtain rfl : i = k := by simpa [elsewhere] using here
    exact h.wrapUp

/-- What happens in both runs looks the same after as before. -/
theorem happen (h : Resembles k own s s') (lodged : Lodged s bound) (lodged' : Lodged s' bound')
    (numbered : Numbered s) (numbered' : Numbered s') (known : bound k = own) {e : Happening}
    (here : s.elsewhere k e = false) :
    Resembles k (own ++ s.binds k e) (s.happen e) (s'.happen e) := by
  cases begins : s.begins? e with
  | none =>
    simp only [ToolServer.binds, begins, List.append_nil]
    exact h.happen_idle numbered' begins here
  | some x =>
    obtain ⟨id, c⟩ := x
    have begins' : s'.begins? e = some (id, c) := (h.begins e).symm.trans begins
    obtain ⟨ready, fresh⟩ := lodged.brink numbered begins
    obtain ⟨ready', fresh'⟩ := lodged'.brink numbered' begins'
    have free : (s.brink e).launching = none := by simpa using (begins_cases begins).1
    simp only [ToolServer.binds, begins, happen_of_begins begins, happen_of_begins begins',
      ← brink_workplace s e]
    exact (h.brink e).begin ready ready' fresh fresh' free (known ▸ fresh.unbound k) c

end Resembles

/-- A run looks the same without what happens elsewhere. -/
theorem run_purge {w w' : Watched} (followed : Followed w bound) (followed' : Followed w' bound')
    (known : bound k = bound' k) (h : Resembles k (bound k) w.server w'.server)
    (happenings : List Happening) :
    let kept := purge k w.server happenings
    Resembles k (bound k ++ boundTo k w.server happenings) (w.server.run happenings) (w'.server.run kept) ∧
      bound k ++ boundTo k w.server happenings = bound' k ++ boundTo k w'.server kept := by
  induction happenings generalizing w w' bound bound' with
  | nil =>
    simp only [purge, boundTo, List.append_nil]
    exact ⟨h, known⟩
  | cons e later ih =>
    simp only [purge, boundTo, ← List.append_assoc]
    cases away : w.server.elsewhere k e with
    | true =>
      obtain ⟨same, nobody⟩ := h.hide followed.lodged followed.mindful.numbered away
      simp only [if_true]
      exact ih (followed.happen e) followed' (by rw [nobody, List.append_nil, known])
        (by rw [nobody, List.append_nil]; exact same)
    | false =>
      have same := h.happen followed.lodged followed'.lodged followed.mindful.numbered
        followed'.mindful.numbered rfl away
      simp only [Bool.false_eq_true, if_false, boundTo, ← List.append_assoc]
      exact ih (followed.happen e) (followed'.happen e) (by rw [known, h.binds]) same

/-- Two runs that differ only in what happens elsewhere look alike. -/
theorem runs_resemble (host : Host) {happenings others : List Happening}
    (same : purge k (start host) happenings = purge k (start host) others) :
    let own := boundTo k (start host) happenings
    Resembles k own ((start host).run happenings) ((start host).run others) ∧
      own = boundTo k (start host) others := by
  have pure : ∀ events, Resembles k (boundTo k (start host) events)
      ((start host).run events) ((start host).run (purge k (start host) events)) ∧
        boundTo k (start host) events = boundTo k (start host) (purge k (start host) events) := by
    intro events
    have started := start_followed host
    exact run_purge started started rfl (.refl (k := k) _) events
  obtain ⟨first, own⟩ := pure happenings
  obtain ⟨second, own'⟩ := pure others
  rw [same] at first own
  have shared := own.trans own'.symm
  exact ⟨first.trans (shared ▸ second.symm), shared⟩

/-- Sessions come and go, and every call is bound to one for good: the one that is installed when it
begins, or for a launch the one that it starts. What happens in a session changes no other. A call that
begins while there is none is told so, and nothing else happens. What happens in other sessions than `k`,
in any order, changes nothing in session `k`: what was written to it, its mode, its board, which calls
are bound to it, and what these were told. -/
theorem sessions_are_isolated (host : Host) (happenings : List Happening) :
    let s := (start host).run happenings
    let own := fun i => boundTo i (start host) happenings
    AtHome s own ∧
      (∀ e id c, s.begins? e = some (id, c) → s.place? e = s.workplace? c ∧
        ∀ i, boundTo i (start host) (happenings ++ [e]) =
          own i ++ if s.workplace? c = some i then [id] else []) ∧
      (∀ e j, s.place? e ≠ some j → (s.happen e).board.sessions[j]? = s.board.sessions[j]?) ∧
      (∀ e id c outcome, s.begins? e = some (id, c) → s.current = none →
        detachedAnswer? c = some outcome →
          (s.happen e).board.sessions = s.board.sessions ∧ (s.happen e).board.calls = s.board.calls ∧
            (s.happen e).board.results = s.board.results ++ [(id, outcome)]) ∧
      ∀ k others, purge k (start host) happenings = purge k (start host) others →
        let s' := (start host).run others
        s.current = s'.current ∧ s.launching = s'.launching ∧
          s.board.sessions[k]? = s'.board.sessions[k]? ∧
          s.board.calls.filter (·.session = k) = s'.board.calls.filter (·.session = k) ∧
          s.endings.filter (·.place = k) = s'.endings.filter (·.place = k) ∧
          own k = boundTo k (start host) others ∧
          s.board.results.filter (·.1 ∈ own k) = s'.board.results.filter (·.1 ∈ own k) := by
  intro s own
  refine ⟨(run_lodged host happenings).atHome,
    fun e id c begins => ⟨place_of_begins begins, boundTo_next host happenings begins⟩,
    fun e j => happen_frame s e,
    fun e id c outcome begins none told => happen_detached begins none told, fun k others same => ?_⟩
  obtain ⟨alike, shared⟩ := runs_resemble host same
  obtain ⟨session, calls, results⟩ := alike.session
  exact ⟨alike.current, alike.launching, session, calls, alike.endings, shared, results⟩

/-- Without a session, a call that terminates is answered all the same, and a launch fails for a
reason of its own. -/
theorem answers_while_detached :
    let s := (start .bare).run [.attach .pipe, .call .terminate]
    s.current = none ∧ s.begins? (.call .terminate) = some (1, .terminate) ∧
      (s.happen (.call .terminate)).board.results = s.board.results ++ [(1, .ok .detached)] ∧
      (s.happen (.call (.launch ⟨some "octave", none, none⟩))).board.results =
        s.board.results ++ [(1, .error (.failed "octave_launch"
          (.spawn "octave" "No such file or directory (os error 2)")))] := by
  exact ⟨rfl, rfl, rfl, rfl⟩

/-- What is printed in a terminated session, and handed to the call that still waits there. -/
def lateOutput (printed : String) : List Happening :=
  [.move (.relay 0 (.output (utf8Bytes printed))) (Eq.refl true), .move (.deliver 0) (Eq.refl true)]

/-- A session is terminated while a program runs in it, and another one answers a call and is terminated
too. -/
def relaunched (late : List Happening) : List Happening :=
  [.attach .pipe, .call (.run "a"), .move (.relay 0 .receive) (Eq.refl true), .call .terminate,
    .attach .pipe, .call (.send (some "x")), .move (.relay 1 .receive) (Eq.refl true)] ++ late ++
    [.move (.relay 1 (.output (utf8Bytes "octave:2> "))) (Eq.refl true),
      .move (.deliver 1) (Eq.refl true), .call .terminate]

theorem late_output_not_seen :
    let quiet := (start .bare).run (relaunched [])
    let late := (start .bare).run (relaunched (lateOutput "octave:9> "))
    quiet.current = none ∧ quiet.board.sessions[1]? = late.board.sessions[1]? ∧
      boundTo 1 (start .bare) (relaunched []) = [2, 3] ∧
      quiet.board.results.filter (·.1 ∈ [2, 3]) = late.board.results.filter (·.1 ∈ [2, 3]) ∧
      late.board.results.map (·.1) = [1, 0, 2, 3] := by
  have same : purge 1 (start .bare) (relaunched []) =
    purge 1 (start .bare) (relaunched (lateOutput "octave:9> ")) := rfl
  obtain ⟨_, _, _, _, agree⟩ := sessions_are_isolated .bare (relaunched [])
  obtain ⟨_, _, session, _, _, _, results⟩ := agree 1 _ same
  have own : boundTo 1 (start .bare) (relaunched []) = [2, 3] := by decide +kernel
  simp only [own] at results
  exact ⟨rfl, session, own, results, by decide +kernel⟩

end PromptRelay.ToolServer
