import PromptRelay.Proofs.ServerTimeline
import PromptRelay.Proofs.SessionFrames

namespace PromptRelay

/-- The call that begins on a session in a deed. -/
def Deed.begunOn? (i : Nat) : Deed → Option Nat
  | .began id j _ => if j = i then some id else none
  | _ => none

/-- The calls that have begun on a session, in order. -/
def begunOn (i : Nat) (t : List Deed) : List Nat := t.filterMap (Deed.begunOn? i)

namespace ToolServer

/-- The call that begins on session `i` in a happening, if one does. -/
def lodges (s : ToolServer) (i : Nat) (e : Happening) : List Nat :=
  match s.begins? e with
  | some (id, c) => if (ToolTask.ofCall? c).isSome ∧ s.current = some i then [id] else []
  | none => []

/-- The call that is bound to session `i` in a happening, be it to launch it, to work on it or to end
it. -/
def binds (s : ToolServer) (i : Nat) (e : Happening) : List Nat :=
  match s.begins? e with
  | some (id, c) => if s.workplace? c = some i then [id] else []
  | none => []

/-- The calls that are bound to a session in a run, in order. -/
def boundTo (i : Nat) (s : ToolServer) : List Happening → List Nat
  | [] => []
  | e :: later => s.binds i e ++ boundTo i (s.happen e) later

/-- The calls that launch a session or wait for the end of one. -/
def managers (s : ToolServer) : List Nat := (s.launching.map (·.id)).toList ++ s.endings.map (·.id)

/-- What is known of the numbers of the calls. -/
structure Numbered (s : ToolServer) : Prop where
  distinct : (s.board.calls.map (·.id)).Nodup
  below : ∀ c ∈ s.board.calls, c.id < s.board.started
  apart : ∀ c ∈ s.board.calls, c.id ∉ s.waiting.map (·.1)
  queued : ∀ x ∈ s.waiting, x.1 < s.board.started
  single : (s.waiting.map (·.1)).Nodup

/-- Where the calls are at home: each that waits is bound to its session, and so are a launch and a call
that waits for the end of a session. A call has one session, and once it has its result it waits no
more. A session that is being launched is nobody else's. -/
structure Lodged (s : ToolServer) (bound : Nat → List Nat) : Prop where
  housed : ∀ c ∈ s.board.calls, c.id ∈ bound c.session
  answered : ∀ x ∈ s.board.results,
    x.1 < s.board.started ∧ x.1 ∉ s.waiting.map (·.1) ∧ x.1 ∉ s.board.calls.map (·.id)
  known : ∀ i, ∀ id ∈ bound i,
    i < s.board.sessions.length ∧ id < s.board.started ∧ id ∉ s.waiting.map (·.1)
  once : ∀ i j id, id ∈ bound i → id ∈ bound j → i = j
  launched : ∀ l, s.launching = some l →
    l.id ∈ bound l.place ∧ (∀ id ∈ bound l.place, id = l.id) ∧ s.current ≠ some l.place
  ended : ∀ e ∈ s.endings, e.id ∈ bound e.place ∧ e.id ∉ s.board.calls.map (·.id) ∧
    ∀ l, s.launching = some l → e.place ≠ l.place
  installed : ∀ i, s.current = some i → i < s.board.sessions.length

/-- A number that no call has but the one about to begin. -/
structure Fresh (s : ToolServer) (bound : Nat → List Nat) (id : Nat) : Prop where
  unused : id ∉ s.board.calls.map (·.id)
  unanswered : ∀ x ∈ s.board.results, x.1 ≠ id
  unbound : ∀ i, id ∉ bound i
  below : id < s.board.started
  apart : id ∉ s.waiting.map (·.1)

theorem Mindful.numbered {w : Watched} (h : Mindful w) : Numbered w.server :=
  ⟨h.board.distinct, fun _ hc => h.fresh hc, h.apart, fun _ hx => h.fresh_waiting hx, h.single⟩

theorem start_lodged (host : Host) : Lodged (start host) fun _ => [] where
  housed := fun _ none => nomatch none
  answered := fun _ none => nomatch none
  known := fun _ _ none => nomatch none
  once := fun _ _ _ none => nomatch none
  launched := fun _ none => nomatch none
  ended := fun _ none => nomatch none
  installed := fun _ none => nomatch none

variable {s : ToolServer} {bound : Nat → List Nat} {id i : Nat}

/-- One more call is bound, to session `i`. -/
def bind (bound : Nat → List Nat) (i id : Nat) (j : Nat) : List Nat :=
  bound j ++ if some i = some j then [id] else []

theorem mem_bind {j n : Nat} : n ∈ bind bound i id j ↔ n ∈ bound j ∨ (i = j ∧ n = id) := by
  unfold bind
  by_cases same : i = j <;> simp [same]

namespace Lodged

/-- A call that is bound to a session waits on that one. -/
theorem home (h : Lodged s bound) (mine : id ∈ bound i) {c : Call Outcome}
    (mem : c ∈ s.board.calls) (own : c.id = id) : c.session = i :=
  h.once _ _ _ (own ▸ h.housed c mem) mine

theorem modify (h : Lodged s bound) (i : Nat) (change : Session → Session) :
    Lodged { s with board := s.board.modify i change } bound := by
  have count : (s.board.modify i change).sessions.length = s.board.sessions.length :=
    List.length_modify _ _ _
  exact { h with
    known := fun j id mem => count ▸ h.known j id mem
    installed := fun j current => count ▸ h.installed j current }

theorem addSession (h : Lodged s bound) (t : Session) :
    Lodged { s with board := { s.board with sessions := s.board.sessions ++ [t] } } bound := by
  have longer : ∀ {n}, n < s.board.sessions.length → n < (s.board.sessions ++ [t]).length := by
    intro n below
    rw [List.length_append]
    omega
  exact { h with
    known := fun j id mem => (h.known j id mem).imp_left longer
    installed := fun j current => longer (h.installed j current) }

theorem dropCall (h : Lodged s bound) (id : Nat) :
    Lodged { s with board := s.board.dropCall id } bound := by
  have fewer : (s.board.dropCall id).calls.Sublist s.board.calls := List.filter_sublist
  have gone : ∀ {n}, n ∉ s.board.calls.map (·.id) → n ∉ (s.board.dropCall id).calls.map (·.id) :=
    fun out waits => out ((fewer.map _).subset waits)
  exact { h with
    housed := fun c mem => h.housed c (fewer.subset mem)
    answered := fun x mem => (h.answered x mem).imp_right (And.imp_right gone)
    ended := fun e mem => (h.ended e mem).imp_right (And.imp_left gone) }

/-- A call that waits no more has its result. -/
theorem answer (h : Lodged s bound) (below : id < s.board.started) (apart : id ∉ s.waiting.map (·.1))
    (unused : id ∉ s.board.calls.map (·.id)) (outcome : Outcome) : Lodged (s.answer id outcome) bound := by
  refine { h with answered := fun x mem => ?_ }
  rcases List.mem_append.mp mem with old | new
  · exact h.answered x old
  · rw [List.mem_singleton.mp new]
    exact ⟨below, apart, unused⟩

theorem turnAway (h : Lodged s bound) (fresh : Fresh s bound id) (outcome : Outcome) :
    Lodged (s.answer id outcome) bound :=
  h.answer fresh.below fresh.apart fresh.unused outcome

/-- A call goes on at home: it has its result, or waits again. -/
theorem carryOn (h : Lodged s bound) (home : id ∈ bound i) (unused : id ∉ s.board.calls.map (·.id))
    (unanswered : ∀ x ∈ s.board.results, x.1 ≠ id) (unended : id ∉ s.endings.map (·.id))
    (task : Task Outcome) : Lodged { s with board := s.board.carryOn id i task } bound := by
  obtain ⟨_, below, apart⟩ := h.known i id home
  rcases Switchboard.carryOn_cases s.board id i task with
    ⟨_, eq⟩ | ⟨x, t, _, ⟨a, _, eq⟩ | ⟨wait, _, eq⟩⟩ <;> rw [eq]
  · exact h
  · have count : (s.board.sessions.set i t).length = s.board.sessions.length := List.length_set
    refine { h with
      answered := fun x mem => ?_
      known := fun j id mem => count ▸ h.known j id mem
      installed := fun j current => count ▸ h.installed j current }
    rcases List.mem_append.mp mem with old | new
    · exact h.answered x old
    · rw [List.mem_singleton.mp new]
      exact ⟨below, apart, unused⟩
  · have count : (s.board.sessions.set i t).length = s.board.sessions.length := List.length_set
    have still : ∀ {n}, n ∉ s.board.calls.map (·.id) → n ≠ id →
        n ∉ (s.board.calls ++ [(⟨id, i, wait⟩ : Call Outcome)]).map (·.id) := by
      intro n gone other
      simp only [List.map_append, List.mem_append, not_or]
      exact ⟨gone, by simpa using other⟩
    refine { h with
      housed := fun c mem => ?_
      answered := fun x mem =>
        (h.answered x mem).imp_right (And.imp_right fun gone => still gone (unanswered x mem))
      known := fun j id mem => count ▸ h.known j id mem
      ended := fun e mem => (h.ended e mem).imp_right (And.imp_left fun gone => still gone ?_)
      installed := fun j current => count ▸ h.installed j current }
    · rcases List.mem_append.mp mem with old | new
      · exact h.housed c old
      · rw [List.mem_singleton.mp new]
        exact home
    · rintro rfl
      exact unended (List.mem_map_of_mem mem)

/-- What nobody asked for leaves every call at home. -/
theorem move (h : Lodged s bound) {m : Switchboard.Move Outcome} (unasked : m.unasked = true) :
    Lodged { s with board := s.board.make m } bound := by
  rcases Switchboard.make_cases s.board unasked with
    ⟨_, eq | ⟨moment, rfl⟩⟩ | ⟨i, change, _, eq | ⟨c, mem, rfl, task, eq⟩⟩
  · rw [eq]
    exact h
  · exact { h with }
  · rw [eq]
    exact h.modify i change
  · have waits : c.id ∈ s.board.calls.map (·.id) := List.mem_map_of_mem mem
    rw [eq]
    refine ((h.modify c.session change).dropCall c.id).carryOn (h.housed c mem) ?_
      (fun x hx same => (h.answered x hx).2.2 (same ▸ waits)) (fun ending => ?_) task
    · simp [Switchboard.dropCall]
    · obtain ⟨e, here, same⟩ := List.mem_map.mp ending
      exact (h.ended e here).2.1 (same ▸ waits)

/-- A launch that is over leaves nothing of itself. -/
theorem freed (h : Lodged s bound) : Lodged { s with launching := none } bound :=
  { h with
    launched := fun _ none => nomatch none
    ended := fun e mem => ⟨(h.ended e mem).1, (h.ended e mem).2.1, fun _ none => nomatch none⟩ }

theorem conclude (h : Lodged s bound) : Lodged (s.happen .conclude) bound := by
  rcases s.conclude_cases with eq | ⟨l, _, launching, _, ⟨_, _, eq⟩ | ⟨_, _, eq⟩⟩ <;> rw [eq]
  · exact h
  · have settled := (h.modify l.place fun x => { x with recording := true }).freed
    refine { settled with installed := fun i current => ?_, launched := fun _ none => nomatch none }
    cases current
    simpa [Switchboard.modify] using (h.known _ _ (h.launched l launching).1).1
  · exact (h.modify l.place Session.kill).freed

theorem giveUp (h : Lodged s bound) : Lodged (s.happen .giveUp) bound := by
  rcases s.giveUp_cases with eq | ⟨l, launching, _, eq⟩ <;> rw [eq]
  · exact h
  · obtain ⟨_, below, apart⟩ := h.known _ _ (h.launched l launching).1
    have left := ((h.dropCall l.id).modify l.place Session.abandon).freed
    exact left.answer below apart (by simp [Switchboard.modify, Switchboard.dropCall]) _

theorem wrapUp (h : Lodged s bound) (place : Nat) : Lodged (s.happen (.wrapUp place)) bound := by
  rcases s.wrapUp_cases place with eq | ⟨e, x, found, _, eq | eq⟩ <;> rw [eq]
  · exact h
  · have mem := List.mem_of_find?_eq_some found
    refine { h with ended := fun e' mem' => ?_ }
    rcases List.mem_append.mp mem' with old | new
    · exact h.ended e' (List.mem_of_mem_filter old)
    · rw [List.mem_singleton.mp new]
      exact h.ended e mem
  · obtain ⟨home, gone, _⟩ := h.ended e (List.mem_of_find?_eq_some found)
    obtain ⟨_, below, apart⟩ := h.known _ _ home
    have left : Lodged { s with endings := s.endings.filter (·.place ≠ place) } bound :=
      { h with ended := fun e' mem' => h.ended e' (List.mem_of_mem_filter mem') }
    exact left.answer below apart gone _

/-- A new call is bound to a session. -/
theorem lodge (h : Lodged s bound) (fresh : Fresh s bound id) (free : s.launching = none)
    (here : i < s.board.sessions.length) : Lodged s (bind bound i id) where
  housed := fun c mem => mem_bind.mpr (.inl (h.housed c mem))
  answered := h.answered
  known := fun j n mem => by
    rcases mem_bind.mp mem with old | ⟨rfl, rfl⟩
    · exact h.known j n old
    · exact ⟨here, fresh.below, fresh.apart⟩
  once := fun j k n first later => by
    rcases mem_bind.mp first with old | ⟨rfl, rfl⟩
    · rcases mem_bind.mp later with old' | ⟨rfl, rfl⟩
      · exact h.once j k n old old'
      · exact absurd old (fresh.unbound j)
    · rcases mem_bind.mp later with old' | ⟨rfl, _⟩
      · exact absurd old' (fresh.unbound k)
      · rfl
  launched := fun l launching => nomatch free.symm.trans launching
  ended := fun e mem => (h.ended e mem).imp_left fun home => mem_bind.mpr (.inl home)
  installed := h.installed

theorem unended (h : Lodged s bound) (fresh : Fresh s bound id) : id ∉ s.endings.map (·.id) := by
  intro ending
  obtain ⟨e, mem, rfl⟩ := List.mem_map.mp ending
  exact fresh.unbound _ (h.ended e mem).1

/-- A launch begins, on a session that nobody knew. -/
theorem launch (h : Lodged s bound) (fresh : Fresh s bound id) (free : s.launching = none)
    (choice : LaunchChoice) : Lodged (s.launch id choice) fun j =>
      bound j ++ if s.workplace? (.launch choice) = some j then [id] else [] := by
  rcases launch_cases s id choice with
    ⟨busy, eq⟩ | ⟨_, _, nobody, refused, eq⟩ | ⟨process, executable, nobody, spawned, eq⟩ <;> rw [eq]
  · simpa [workplace?, busy] using h.turnAway fresh _
  · simpa [workplace?, nobody, refused, Except.toOption] using h.turnAway fresh _
  · have added : Lodged
        { s with board := { s.board with sessions := s.board.sessions ++ [Session.ofProcess process] } }
        bound := h.addSession _
    have lodged := added.lodge (i := s.board.sessions.length) { fresh with } free (by simp)
    have new : ∀ n, n ∉ bound s.board.sessions.length :=
      fun n mem => Nat.lt_irrefl _ (h.known _ n mem).1
    have opened : Lodged { s with
        board := { s.board with sessions := s.board.sessions ++ [Session.ofProcess process] }
        launching := some ⟨id, s.board.sessions.length, executable, s.board.now + launchLimit⟩ }
        (bind bound s.board.sessions.length id) := by
      refine { lodged with launched := ?_, ended := fun e mem => ⟨(lodged.ended e mem).1,
        (lodged.ended e mem).2.1, ?_⟩ }
      · rintro l ⟨⟩
        refine ⟨mem_bind.mpr (.inr ⟨rfl, rfl⟩), fun n mem => ?_, ?_⟩
        · exact ((mem_bind.mp mem).resolve_left (new n)).2
        · simp [nobody]
      · rintro l ⟨⟩
        exact Nat.ne_of_lt (h.known _ _ (h.ended e mem).1).1
    have work := opened.carryOn (mem_bind.mpr (.inr ⟨rfl, rfl⟩)) fresh.unused fresh.unanswered
      (h.unended fresh) (ExceptT.run (launchTask (.ofLaunch s.host.environment choice)))
    have place : s.workplace? (.launch choice) = some s.board.sessions.length := by
      simp [workplace?, nobody, spawned, Except.toOption]
    rw [place]
    exact work

/-- A session is taken away by a call that waits for its end, or has its answer. -/
theorem terminate (h : Lodged s bound) (fresh : Fresh s bound id) (free : s.launching = none) :
    Lodged (s.terminate id) fun j => bound j ++ if s.current = some j then [id] else [] := by
  have taken : ∀ i, s.current = some i → Lodged (s.takeAway i) (bind bound i id) := fun i current => by
    have lodged := (h.lodge fresh free (h.installed i current)).modify i
      fun session => Session.kill { session with recording := false }
    exact { lodged with
      launched := fun l busy => nomatch free.symm.trans busy
      installed := fun _ none => nomatch none }
  have mine : ∀ i, id ∈ bind bound i id i := fun i => mem_bind.mpr (.inr ⟨rfl, rfl⟩)
  rcases terminate_cases s id with
    ⟨nobody, eq⟩ | ⟨i, current, ⟨_, eq⟩ | ⟨x, _, ⟨_, eq⟩ | ⟨_, eq⟩⟩⟩ <;> rw [eq]
  · simpa [nobody] using h.turnAway fresh _
  · rw [current]
    exact taken i current
  · rw [current]
    refine { taken i current with ended := fun e mem => ?_ }
    rcases List.mem_append.mp mem with old | new
    · exact (taken i current).ended e old
    · rw [List.mem_singleton.mp new]
      exact ⟨mine i, fresh.unused, fun l busy => nomatch free.symm.trans busy⟩
  · rw [current]
    exact (taken i current).answer fresh.below fresh.apart fresh.unused _

/-- A call begins, and is bound to the session it works on, if there is one. -/
theorem begin (h : Lodged s bound) (fresh : Fresh s bound id) (free : s.launching = none)
    (c : ToolCall) : Lodged (s.begin id c) fun j =>
      bound j ++ if s.workplace? c = some j then [id] else [] := by
  rcases begin_cases s id c with
    ⟨choice, rfl, eq⟩ | ⟨rfl, eq⟩ | ⟨task, i, asked, current, eq⟩ | ⟨⟨task, asked, nobody⟩, eq⟩ <;>
      rw [eq]
  · exact h.launch fresh free choice
  · exact h.terminate fresh free
  · have place : s.workplace? c = some i := by
      cases c <;> first | exact current | cases asked
    rw [place]
    exact (h.lodge fresh free (h.installed i current)).carryOn (mem_bind.mpr (.inr ⟨rfl, rfl⟩))
      fresh.unused fresh.unanswered (h.unended fresh) _
  · have place : s.workplace? c = none := by
      cases c <;> first | exact nobody | cases asked
    simpa [place] using h.turnAway fresh _

theorem enter (h : Lodged s bound) : Lodged { s with board := s.board.enter } bound :=
  { h with
    answered := fun x mem => (h.answered x mem).imp_left Nat.lt_succ_of_lt
    known := fun i id mem => (h.known i id mem).imp_right (And.imp_left Nat.lt_succ_of_lt) }

/-- The next number is new to a server that it enters. -/
theorem fresh_entered (h : Lodged s bound) (numbered : Numbered s) :
    Fresh { s with board := s.board.enter } bound s.board.started where
  unused := fun here => by
    obtain ⟨c, mem, same⟩ := List.mem_map.mp here
    exact absurd (numbered.below c mem) (by omega)
  unanswered := fun x mem => Nat.ne_of_lt (h.answered x mem).1
  unbound := fun i mem => Nat.lt_irrefl _ (h.known i _ mem).2.1
  below := Nat.lt_succ_self _
  apart := fun here => by
    obtain ⟨x, mem, same⟩ := List.mem_map.mp here
    exact absurd (numbered.queued x mem) (by omega)

/-- The oldest call in the line leaves it. -/
theorem leaveLine (h : Lodged s bound) (numbered : Numbered s) {c : ToolCall}
    {rest : List (Nat × ToolCall)} (waiting : s.waiting = (id, c) :: rest) :
    Lodged { s with waiting := rest } bound ∧ Fresh { s with waiting := rest } bound id := by
  have fewer : ∀ {n}, n ∉ s.waiting.map (·.1) → n ∉ rest.map (·.1) := by
    intro n outside here
    rw [waiting] at outside
    exact outside (List.mem_cons_of_mem _ here)
  have first : id ∈ s.waiting.map (·.1) := by simp [waiting]
  have single := numbered.single
  rw [waiting, List.map_cons, List.nodup_cons] at single
  constructor
  · exact { h with
      answered := fun x mem => (h.answered x mem).imp_right (And.imp_left fewer)
      known := fun i n mem => (h.known i n mem).imp_right (And.imp_right fewer) }
  · refine ⟨fun here => ?_, ?_, fun i mem => ?_, ?_, single.1⟩
    · obtain ⟨d, mem, rfl⟩ := List.mem_map.mp here
      exact numbered.apart d mem first
    · rintro x mem rfl
      exact (h.answered x mem).2.1 first
    · exact (h.known i id mem).2.2 first
    · exact numbered.queued (id, c) (by simp [waiting])

/-- A new call lines up behind those that wait for a launch. -/
theorem lineUp (h : Lodged s bound) (c : ToolCall) :
    Lodged { s with board := s.board.enter, waiting := s.waiting ++ [(s.board.started, c)] } bound := by
  have outside : ∀ {n}, n < s.board.started → n ∉ s.waiting.map (·.1) →
      n ∉ (s.waiting ++ [(s.board.started, c)]).map (·.1) := by
    intro n below apart
    have other : n ≠ s.board.started := by omega
    simpa [other] using apart
  refine { h with answered := fun x mem => ?_, known := fun i n mem => ?_ }
  · obtain ⟨below, apart, gone⟩ := h.answered x mem
    exact ⟨Nat.lt_succ_of_lt below, outside below apart, gone⟩
  · obtain ⟨here, below, apart⟩ := h.known i n mem
    exact ⟨here, Nat.lt_succ_of_lt below, outside below apart⟩

/-- The number of a call is new when the call begins. -/
theorem brink (h : Lodged s bound) (numbered : Numbered s) {e : Happening} {c : ToolCall}
    (begins : s.begins? e = some (id, c)) : Lodged (s.brink e) bound ∧ Fresh (s.brink e) bound id := by
  rcases (begins_cases begins).2 with ⟨rfl, rfl⟩ | ⟨rest, rfl, waiting⟩
  · exact ⟨h.enter, h.fresh_entered numbered⟩
  · simp only [ToolServer.brink, waiting, List.tail_cons]
    exact h.leaveLine numbered waiting

theorem happen_idle (h : Lodged s bound) (numbered : Numbered s) {e : Happening}
    (idle : s.begins? e = none) : Lodged (s.happen e) bound := by
  cases e with
  | call c =>
    rw [call_of_begins_none idle]
    exact h.lineUp c
  | refuse fault => exact h.enter.turnAway (h.fresh_entered numbered) _
  | attach input =>
    have added := h.addSession { Session.start input false with recording := true }
    refine { added with launched := fun l launching => ?_, installed := fun i current => ?_ }
    · obtain ⟨home, alone, _⟩ := h.launched l launching
      have before := (h.known _ _ home).1
      refine ⟨home, alone, fun same => ?_⟩
      have same : s.board.sessions.length = l.place := Option.some.inj same
      omega
    · cases current
      simp [ToolServer.happen, install]
  | move m unasked => exact h.move unasked
  | exchange i => exact h.modify i _
  | wake i => exact h.modify i _
  | conclude => exact h.conclude
  | giveUp => exact h.giveUp
  | resume =>
    rw [resume_of_begins_none idle]
    exact h
  | wrapUp i => exact h.wrapUp i

/-- Whatever happens, every call stays at home. -/
theorem happen (h : Lodged s bound) (numbered : Numbered s) (e : Happening) :
    Lodged (s.happen e) fun i => bound i ++ s.binds i e := by
  cases begins : s.begins? e with
  | none =>
    simp only [binds, begins, List.append_nil]
    exact h.happen_idle numbered begins
  | some x =>
    obtain ⟨id, c⟩ := x
    obtain ⟨lodged, fresh⟩ := h.brink numbered begins
    have free : (s.brink e).launching = none := by simpa using (begins_cases begins).1
    simp only [binds, begins, happen_of_begins begins, ← brink_workplace s e]
    exact lodged.begin fresh free c

end Lodged

theorem begin_managers {c : ToolCall} {n : Nat} (mem : n ∈ (s.begin id c).managers) :
    n ∈ s.managers ∨ n = id := by
  have freed : ∀ n ∈ s.endings.map (·.id), n ∈ s.managers := fun n ending => List.mem_append_right _ ending
  rcases begin_cases s id c with
    ⟨choice, rfl, eq⟩ | ⟨rfl, eq⟩ | ⟨task, i, asked, current, eq⟩ | ⟨_, eq⟩ <;> rw [eq] at mem
  · rcases launch_cases s id choice with
      ⟨_, eq⟩ | ⟨_, _, _, _, eq⟩ | ⟨process, _, _, _, eq⟩ <;> rw [eq] at mem
    · exact .inl mem
    · exact .inl mem
    · rcases List.mem_append.mp mem with new | old
      · exact .inr (by simpa using new)
      · exact .inl (freed n old)
  · rcases terminate_cases s id with
      ⟨_, eq⟩ | ⟨i, _, ⟨_, eq⟩ | ⟨x, _, ⟨_, eq⟩ | ⟨_, eq⟩⟩⟩ <;> rw [eq] at mem
    · exact .inl mem
    · exact .inl mem
    · have mem : n ∈ s.managers ++ [id] := by simpa [managers, takeAway] using mem
      exact (List.mem_append.mp mem).imp_right List.mem_singleton.mp
    · exact .inl mem
  · exact .inl mem
  · exact .inl mem

/-- Only a call that begins comes to launch a session or to wait for the end of one. -/
theorem managers_happen (s : ToolServer) (e : Happening) {n : Nat} (mem : n ∈ (s.happen e).managers) :
    n ∈ s.managers ∨ ∃ c, s.begins? e = some (n, c) := by
  cases begins : s.begins? e with
  | some x =>
    obtain ⟨id, c⟩ := x
    rw [happen_of_begins begins] at mem
    have same : (s.brink e).managers = s.managers := by cases e <;> rfl
    rw [← same]
    rcases begin_managers mem with old | rfl
    · exact .inl old
    · exact .inr ⟨c, rfl⟩
  | none =>
    refine .inl ?_
    have freed : ∀ n ∈ s.endings.map (·.id), n ∈ s.managers := fun n ending => List.mem_append_right _ ending
    cases e with
    | call c => rwa [call_of_begins_none begins] at mem
    | refuse fault => exact mem
    | attach input => exact mem
    | move m unasked => exact mem
    | exchange i => exact mem
    | wake i => exact mem
    | conclude =>
      rcases s.conclude_cases with eq | ⟨l, _, _, _, ⟨_, _, eq⟩ | ⟨_, _, eq⟩⟩ <;> rw [eq] at mem
      · exact mem
      · exact freed n mem
      · exact freed n mem
    | giveUp =>
      rcases s.giveUp_cases with eq | ⟨l, _, _, eq⟩ <;> rw [eq] at mem
      · exact mem
      · exact freed n mem
    | resume => rwa [resume_of_begins_none begins] at mem
    | wrapUp i =>
      have fewer : ∀ e ∈ s.endings.filter (·.place ≠ i), e.id ∈ s.endings.map (·.id) :=
        fun e here => List.mem_map_of_mem (List.mem_of_mem_filter here)
      rcases s.wrapUp_cases i with eq | ⟨e, x, found, _, eq | eq⟩ <;> rw [eq] at mem
      · exact mem
      · refine (List.mem_append.mp mem).elim (List.mem_append_left _) fun ending => ?_
        obtain ⟨e', here, rfl⟩ := List.mem_map.mp ending
        rcases List.mem_append.mp here with old | new
        · exact freed _ (fewer e' old)
        · rw [List.mem_singleton.mp new]
          exact freed e.id (List.mem_map_of_mem (List.mem_of_find?_eq_some found))
      · refine (List.mem_append.mp mem).elim (List.mem_append_left _) fun ending => ?_
        obtain ⟨e', here, rfl⟩ := List.mem_map.mp ending
        exact freed _ (fewer e' here)

theorem begunOn_append (i : Nat) (t u : List Deed) :
    begunOn i (t ++ u) = begunOn i t ++ begunOn i u := List.filterMap_append

theorem begunOn_beginning (s : ToolServer) (id : Nat) (c : ToolCall) (i : Nat) :
    begunOn i (beginning s id c) =
      if (ToolTask.ofCall? c).isSome ∧ s.current = some i then [id] else [] := by
  unfold beginning
  cases ToolTask.ofCall? c with
  | none => simp [begunOn]
  | some task =>
    cases s.current with
    | none => simp [begunOn]
    | some j => by_cases same : j = i <;> simp [begunOn, Deed.begunOn?, same]

theorem begunOn_opening (w : Watched) (e : Happening) (i : Nat) :
    begunOn i (w.opening e) = w.server.lodges i e := by
  cases e with
  | call c =>
    cases busy : w.server.launching.isSome with
    | true => simp [Watched.opening, lodges, begins?, busy, begunOn]
    | false => simp [Watched.opening, lodges, begins?, busy, begunOn_beginning]
  | resume =>
    cases launching : w.server.launching with
    | some launch => simp [Watched.opening, lodges, begins?, launching, begunOn]
    | none =>
      cases waiting : w.server.waiting with
      | nil => simp [Watched.opening, lodges, begins?, launching, waiting, begunOn]
      | cons x rest => simp [Watched.opening, lodges, begins?, launching, waiting, begunOn_beginning]
  | move m unasked =>
    cases m with
    | deliver j =>
      simp only [Watched.opening]
      split <;> rfl
    | record j =>
      simp only [Watched.opening]
      cases w.server.board.recordedStop? j <;> rfl
    | _ => rfl
  | _ => rfl

/-- The deeds tell which calls begin, and where. -/
theorem begunOn_deeds (w : Watched) (e : Happening) (i : Nat) :
    begunOn i (w.deeds e) = w.server.lodges i e := by
  have after : begunOn i (writings w.server.board (w.server.happen e).board ++
      answers w.server.board (w.server.happen e).board) = [] := by
    refine List.filterMap_eq_nil_iff.mpr fun d mem => ?_
    have idle := outcome_idle d mem
    cases d <;> first | rfl | cases idle
  rw [Watched.deeds, begunOn_append, begunOn_opening, after, List.append_nil]

theorem boundTo_append (i : Nat) (s : ToolServer) (happenings later : List Happening) :
    boundTo i s (happenings ++ later) = boundTo i s happenings ++ boundTo i (s.run happenings) later := by
  induction happenings generalizing s with
  | nil => rfl
  | cons e rest ih => simp only [List.cons_append, boundTo, ih, List.append_assoc, run, List.foldl_cons]

/-- A run so far, with the calls that it bound to each session. -/
structure Followed (w : Watched) (bound : Nat → List Nat) : Prop where
  mindful : Mindful w
  lodged : Lodged w.server bound

theorem start_followed (host : Host) : Followed (.start host) fun _ => [] :=
  ⟨start_mindful host, start_lodged host⟩

theorem Followed.happen {w : Watched} {bound : Nat → List Nat} (h : Followed w bound) (e : Happening) :
    Followed (w.happen e) fun i => bound i ++ w.server.binds i e :=
  ⟨h.mindful.step e, h.lodged.happen h.mindful.numbered e⟩

theorem Followed.run {w : Watched} {bound : Nat → List Nat} (h : Followed w bound)
    (happenings : List Happening) :
    Followed (w.run happenings) fun i => bound i ++ boundTo i w.server happenings := by
  induction happenings generalizing w bound with
  | nil =>
    simp only [boundTo, List.append_nil]
    exact h
  | cons e later ih =>
    simp only [boundTo, ← List.append_assoc]
    exact ih (h.happen e)

/-- After a run, each call is at home where it was bound to. -/
theorem run_lodged (host : Host) (happenings : List Happening) :
    Lodged ((start host).run happenings) fun i => boundTo i (start host) happenings := by
  have h := ((start_followed host).run happenings).lodged
  rwa [Watched.run_server] at h

end ToolServer

end PromptRelay
