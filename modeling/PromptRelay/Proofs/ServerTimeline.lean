import PromptRelay.Proofs.BoardTimeline

namespace PromptRelay.ToolServer

variable {callers callers' : List (Option ToolCall)} {b : Switchboard Outcome} {t : List Deed}

/-- A call begins as the deeds tell. -/
theorem Told.beginCall (server : ToolServer) (h : Told callers server.board t)
    (orderly : ∀ (i : Nat) (s : Session), server.board.sessions[i]? = some s → s.relay.Orderly)
    (grown : ∀ (id : Nat) (tool : ToolCall), callers[id]? = some (some tool) →
      callers'[id]? = some (some tool))
    {id : Nat} {c : ToolCall} (caller : callers'[id]? = some (some c)) :
    let b' := (server.begin id c).board
    Told callers' b'
      (t ++ (beginning server id c ++ (writings server.board b' ++ answers server.board b'))) := by
  have answered : ∀ outcome, reportOf outcome = .other →
      let b' := (server.answer id outcome).board
      Told callers' b' (t ++ ([] ++ (writings server.board b' ++ answers server.board b'))) :=
    fun outcome silent => h.still (fun _ => rfl) grown (fun _ hc => hc) [(id, outcome)] rfl
      (by simp [silent])
  rcases begin_cases server id c with
    ⟨choice, rfl, eq⟩ | ⟨rfl, eq⟩ | ⟨task, i, asked, current, eq⟩ | ⟨⟨_, _, current⟩, eq⟩ <;> rw [eq]
  · have nothing : beginning server id (.launch choice) = [] := rfl
    rw [nothing]
    rcases launch_cases server id choice with
      ⟨_, eq⟩ | ⟨_, _, _, _, eq⟩ | ⟨process, _, _, _, eq⟩ <;> rw [eq]
    · exact answered _ rfl
    · exact answered _ rfl
    · let b₁ := { server.board with
        sessions := server.board.sessions ++ [Session.ofProcess process] }
      have boards : ∀ j, b₁.boardAt j = boardOf j (t ++ []) := by
        intro j
        rw [List.append_nil, ← h.boards]
        exact boardAt_append server.board j rfl
      have here : b₁.sessions[server.board.sessions.length]? = some (.ofProcess process) :=
        List.getElem?_concat_length
      have silent : (ToolCall.launch choice).notes = false := rfl
      obtain ⟨s', progress, turn, board, opened⟩ := Session.opened_asks
        (ToolTask.launchTask_inquires (.ofLaunch server.host.environment choice)) silent none b₁.now
        (.ofProcess process)
      obtain ⟨ends, waits⟩ := Opened.told id (t ++ []) opened here turn
        (Relay.start_orderly .pipe) nofun
      refine h.carryOn (fun _ hc => hc) rfl here turn (by simp) (fun j _ => boards j) ?_ grown caller
        ends waits
      rw [board, ← boards, boardAt_of_some here]
  · have nothing : beginning server id .terminate = [] := rfl
    rw [nothing]
    have taken : ∀ i j, (server.takeAway i).board.boardAt j = server.board.boardAt j :=
      fun i j => boardAt_modify server.board i j _ fun _ => rfl
    rcases terminate_cases server id with
      ⟨_, eq⟩ | ⟨i, _, ⟨_, eq⟩ | ⟨x, _, ⟨_, eq⟩ | ⟨_, eq⟩⟩⟩ <;> rw [eq]
    · exact answered _ rfl
    · exact h.still (taken i) grown (fun _ hc => hc) [] (List.append_nil _).symm (by simp)
    · exact h.still (taken i) grown (fun _ hc => hc) [] (List.append_nil _).symm (by simp)
    · exact h.still (taken i) grown (fun _ hc => hc) [(id, _)] rfl (by simp [reportOf, Answer.report])
  · have begun : beginning server id c = [.began id i c] := by
      simp only [beginning, asked, current]
    rw [begun]
    exact h.begin asked i id (orderly i) grown caller
  · have nothing : beginning server id c = [] := by
      simp only [beginning, current]
      cases ToolTask.ofCall? c <;> rfl
    rw [nothing]
    exact answered _ rfl

theorem begin_waiting (server : ToolServer) (id : Nat) (c : ToolCall) :
    (server.begin id c).waiting = server.waiting := by
  rcases begin_cases server id c with
    ⟨choice, rfl, eq⟩ | ⟨rfl, eq⟩ | ⟨task, i, _, _, eq⟩ | ⟨_, eq⟩ <;> rw [eq]
  · rcases launch_cases server id choice with
      ⟨_, eq⟩ | ⟨_, _, _, _, eq⟩ | ⟨process, _, _, _, eq⟩ <;> rw [eq] <;> rfl
  · rcases terminate_cases server id with
      ⟨_, eq⟩ | ⟨i, _, ⟨_, eq⟩ | ⟨x, _, ⟨_, eq⟩ | ⟨_, eq⟩⟩⟩ <;> rw [eq] <;> rfl
  · rfl

/-- A call that begins begins alone, if it goes to work on a session. -/
theorem begun_beginning (server : ToolServer) (id : Nat) (c : ToolCall) :
    ((beginning server id c).filterMap Deed.begun?).Sublist [id] := by
  unfold beginning
  split
  · exact List.Sublist.refl _
  · exact List.nil_sublist _

/-- What the deeds tell of a server: that of its board, and which calls have begun, each once. -/
structure Recounted (w : Watched) (t : List Deed) : Prop where
  told : Told w.callers w.server.board t
  once : (t.filterMap Deed.begun?).Nodup
  known : ∀ id ∈ t.filterMap Deed.begun?,
    id < w.server.board.started ∧ id ∉ w.server.waiting.map (·.1)

variable {w : Watched}

theorem begun_deeds (w : Watched) (e : Happening) :
    (w.deeds e).filterMap Deed.begun? = (w.opening e).filterMap Deed.begun? := by
  rw [Watched.deeds, List.filterMap_append, begun_idle outcome_idle, List.append_nil]

theorem started_happen (mindful : Mindful w) (e : Happening) :
    (w.happen e).server.board.started = w.server.board.started + (Watched.entries e).length := by
  rw [← mindful.entered, ← (mindful.step e).entered]
  simp [Watched.happen]

/-- At most one call begins in a happening, and it is new. -/
theorem Recounted.next (h : Recounted w t) (mindful : Mindful w) {e : Happening} (id : Nat)
    (told : Told (w.happen e).callers (w.happen e).server.board (t ++ w.deeds e))
    (begins : ((w.opening e).filterMap Deed.begun?).Sublist [id])
    (new : id ∈ (w.opening e).filterMap Deed.begun? → id ∉ t.filterMap Deed.begun? ∧
      id < (w.happen e).server.board.started ∧ id ∉ (w.happen e).server.waiting.map (·.1))
    (waiting : ∀ n ∈ (w.happen e).server.waiting.map (·.1),
      n ∈ w.server.waiting.map (·.1) ∨ w.server.board.started ≤ n) :
    Recounted (w.happen e) (t ++ w.deeds e) := by
  have single : ∀ n ∈ (w.opening e).filterMap Deed.begun?, n = id :=
    fun n hn => List.mem_singleton.mp (begins.subset hn)
  refine ⟨told, ?_, fun n hn => ?_⟩
  · rw [List.filterMap_append, begun_deeds]
    refine List.nodup_append.mpr ⟨h.once, (List.nodup_singleton id).sublist begins, ?_⟩
    rintro n old m now rfl
    cases single n now
    exact (new now).1 old
  · rw [List.filterMap_append, begun_deeds] at hn
    rcases List.mem_append.mp hn with old | now
    · obtain ⟨below, apart⟩ := h.known n old
      refine ⟨?_, fun waits => ?_⟩
      · rw [started_happen mindful e]
        omega
      · rcases waiting n waits with waited | above
        · exact apart waited
        · omega
    · cases single n now
      exact (new now).2

/-- A happening in which no call begins. -/
theorem Recounted.quiet (h : Recounted w t) (mindful : Mindful w) {e : Happening}
    (told : Told (w.happen e).callers (w.happen e).server.board (t ++ w.deeds e))
    (nobody : (w.opening e).filterMap Deed.begun? = [])
    (waiting : (w.happen e).server.waiting = w.server.waiting) :
    Recounted (w.happen e) (t ++ w.deeds e) :=
  h.next mindful 0 told (nobody ▸ List.nil_sublist _) (by simp [nobody])
    fun n waits => Or.inl (waiting ▸ waits)

theorem Told.enter (h : Told callers b t) : Told callers b.enter t :=
  ⟨h.boards, h.pending, h.vouched, h.reported⟩

theorem Recounted.call (h : Recounted w t) (mindful : Mindful w) (c : ToolCall) :
    Recounted (w.happen (.call c)) (t ++ w.deeds (.call c)) := by
  have started := started_happen mindful (.call c)
  have grown : ∀ (id : Nat) (tool : ToolCall), w.callers[id]? = some (some tool) →
      (w.callers ++ [some c])[id]? = some (some tool) := fun _ _ caller => caller_grown _ caller
  cases free : w.server.launching.isSome with
  | true =>
    have waits : w.server.call c = { w.server with
        board := w.server.board.enter, waiting := w.server.waiting ++ [(w.server.board.started, c)] } := by
      simp only [ToolServer.call, free, if_true]
    have opening : w.opening (.call c) = [] := by simp only [Watched.opening, free, if_true]
    have told : Told (w.callers ++ [some c]) (w.server.call c).board (t ++ ([] ++
        (writings w.server.board (w.server.call c).board ++
          answers w.server.board (w.server.call c).board))) := by
      rw [waits]
      exact h.told.still (fun _ => rfl) grown (fun _ hc => hc) [] (by simp [Switchboard.enter])
        (by simp)
    refine h.next mindful 0 ?_ (by simp [opening]) (by simp [opening]) fun n hn => ?_
    · rw [Watched.deeds, opening]
      exact told
    · change n ∈ (w.server.call c).waiting.map (·.1) at hn
      rw [waits, List.map_append] at hn
      rcases List.mem_append.mp hn with old | now
      · exact Or.inl old
      · exact Or.inr (Nat.le_of_eq (List.mem_singleton.mp now).symm)
  | false =>
    let entered : ToolServer := { w.server with board := w.server.board.enter }
    have begins : w.server.call c = entered.begin w.server.board.started c := by
      simp only [ToolServer.call, free, Bool.false_eq_true, if_false]
      rfl
    have opening : w.opening (.call c) = beginning entered w.server.board.started c := by
      simp only [Watched.opening, free, Bool.false_eq_true, if_false]
      rfl
    have caller : (w.callers ++ [some c])[w.server.board.started]? = some (some c) := by
      rw [← mindful.entered]
      simp
    have told : Told (w.callers ++ [some c]) (w.server.call c).board
        (t ++ (beginning entered w.server.board.started c ++
          (writings w.server.board (w.server.call c).board ++
            answers w.server.board (w.server.call c).board))) := by
      rw [begins]
      exact h.told.enter.beginCall entered
        (fun i s here => (mindful.board.tracked i s here).orderly) grown caller
    have waiting : (w.happen (.call c)).server.waiting = w.server.waiting := by
      change (w.server.call c).waiting = _
      rw [begins, begin_waiting]
    refine h.next mindful w.server.board.started ?_ ?_ (fun _ => ⟨?_, ?_, ?_⟩)
      fun n waits => Or.inl (waiting ▸ waits)
    · rw [Watched.deeds, opening]
      exact told
    · rw [opening]
      exact begun_beginning _ _ _
    · exact fun old => Nat.lt_irrefl _ (h.known _ old).1
    · rw [started]
      exact Nat.lt_succ_self _
    · rw [waiting]
      intro waits
      obtain ⟨x, hx, same⟩ := List.mem_map.mp waits
      have below := mindful.fresh_waiting hx
      omega

/-- After a happening that leaves the board as it was. -/
theorem Recounted.idle (h : Recounted w t) (mindful : Mindful w) {e : Happening}
    (same : w.server.happen e = w.server) (entries : Watched.entries e = [])
    (opening : w.opening e = []) : Recounted (w.happen e) (t ++ w.deeds e) := by
  refine h.quiet mindful ?_ (by simp [opening]) ?_
  · rw [Watched.deeds, opening]
    change Told (w.callers ++ Watched.entries e) (w.server.happen e).board _
    rw [same, entries, List.append_nil]
    exact h.told.same
  · exact congrArg ToolServer.waiting same

theorem Recounted.resume (h : Recounted w t) (mindful : Mindful w) :
    Recounted (w.happen .resume) (t ++ w.deeds .resume) := by
  cases free : w.server.launching with
  | some launch =>
    refine h.idle mindful ?_ rfl ?_
    · simp [ToolServer.happen, resume?, free]
    · simp [Watched.opening, free]
  | none =>
    cases waiting : w.server.waiting with
    | nil =>
      refine h.idle mindful ?_ rfl ?_
      · simp [ToolServer.happen, resume?, free, waiting]
      · simp [Watched.opening, free, waiting]
    | cons first rest =>
      obtain ⟨id, c⟩ := first
      let left : ToolServer := { w.server with waiting := rest }
      have begins : w.server.happen .resume = left.begin id c := by
        simp [ToolServer.happen, resume?, free, waiting, left]
      have opening : w.opening .resume = beginning left id c := by
        simp only [Watched.opening, free, waiting]
        rfl
      have caller : w.callers[id]? = some (some c) := mindful.queued (id, c) (by simp [waiting])
      have told : Told w.callers (left.begin id c).board (t ++ (beginning left id c ++
          (writings w.server.board (left.begin id c).board ++
            answers w.server.board (left.begin id c).board))) :=
        Told.beginCall left h.told
          (fun i s here => (mindful.board.tracked i s here).orderly) (fun _ _ caller => caller) caller
      have remain : (w.happen .resume).server.waiting = rest := by
        change (w.server.happen .resume).waiting = _
        rw [begins, begin_waiting]
      have single := mindful.single
      rw [waiting, List.map_cons, List.nodup_cons] at single
      refine h.next mindful id ?_ ?_ (fun _ => ⟨fun old => ?_, ?_, ?_⟩) fun n waits => ?_
      · rw [Watched.deeds, opening, begins]
        change Told (w.callers ++ []) (w.server.happen .resume).board _
        rw [begins, List.append_nil]
        exact told
      · rw [opening]
        exact begun_beginning _ _ _
      · exact (h.known id old).2 (by simp [waiting])
      · rw [started_happen mindful .resume]
        exact mindful.fresh_waiting (x := (id, c)) (by simp [waiting])
      · rw [remain]
        exact single.1
      · rw [remain] at waits
        rw [waiting, List.map_cons]
        exact Or.inl (List.mem_cons_of_mem _ waits)

/-- After a happening in which no call begins or goes on, and that tells of no stop. -/
theorem Recounted.still (h : Recounted w t) (mindful : Mindful w) {e : Happening}
    (boards : ∀ j, (w.server.happen e).board.boardAt j = w.server.board.boardAt j)
    (calls : ∀ c ∈ (w.server.happen e).board.calls, c ∈ w.server.board.calls)
    (new : List (Nat × Outcome))
    (results : (w.server.happen e).board.results = w.server.board.results ++ new)
    (silent : ∀ x ∈ new, reportOf x.2 = .other) (entries : Watched.entries e = [])
    (opening : w.opening e = []) (waiting : (w.server.happen e).waiting = w.server.waiting) :
    Recounted (w.happen e) (t ++ w.deeds e) := by
  refine h.quiet mindful ?_ (by simp [opening]) waiting
  rw [Watched.deeds, opening]
  change Told (w.callers ++ Watched.entries e) (w.server.happen e).board _
  rw [entries, List.append_nil]
  exact h.told.still boards (fun _ _ caller => caller) calls new results silent

/-- A session that changes while its board stays as it was. -/
theorem Recounted.modified (h : Recounted w t) (mindful : Mindful w) {e : Happening} (i : Nat)
    (change : Session → Session) (same : ∀ s : Session, (change s).board = s.board)
    (board : (w.server.happen e).board = w.server.board.modify i change)
    (entries : Watched.entries e = []) (opening : w.opening e = [])
    (waiting : (w.server.happen e).waiting = w.server.waiting) :
    Recounted (w.happen e) (t ++ w.deeds e) := by
  refine h.still mindful (fun j => ?_) (fun c hc => ?_) [] ?_ (by simp) entries opening waiting
  · rw [board]
    exact boardAt_modify w.server.board i j change same
  · rwa [board] at hc
  · rw [board, List.append_nil]
    rfl

theorem Recounted.conclude (h : Recounted w t) (mindful : Mindful w) :
    Recounted (w.happen .conclude) (t ++ w.deeds .conclude) := by
  rcases w.server.conclude_cases with eq | ⟨l, _, _, _, ⟨_, _, eq⟩ | ⟨_, _, eq⟩⟩
  · exact h.idle mindful eq rfl rfl
  · exact h.modified mindful l.place (fun s => { s with recording := true }) (fun _ => rfl) (by rw [eq]) rfl
      rfl (by rw [eq])
  · exact h.modified mindful l.place Session.kill (fun _ => rfl) (by rw [eq]) rfl rfl (by rw [eq])

theorem Recounted.giveUp (h : Recounted w t) (mindful : Mindful w) :
    Recounted (w.happen .giveUp) (t ++ w.deeds .giveUp) := by
  rcases w.server.giveUp_cases with eq | ⟨l, _, _, eq⟩
  · exact h.idle mindful eq rfl rfl
  · refine h.still mindful (fun j => ?_) (fun c hc => ?_) [(l.id, _)] (by rw [eq]; rfl)
      (by simp [reportOf]) rfl rfl (by rw [eq]; rfl)
    · rw [eq]
      exact boardAt_modify (w.server.board.dropCall l.id) l.place j _ fun _ => rfl
    · rw [eq] at hc
      exact List.mem_of_mem_filter hc

theorem Recounted.wrapUp (h : Recounted w t) (mindful : Mindful w) (i : Nat) :
    Recounted (w.happen (.wrapUp i)) (t ++ w.deeds (.wrapUp i)) := by
  rcases w.server.wrapUp_cases i with eq | ⟨e, x, _, _, eq | eq⟩
  · exact h.idle mindful eq rfl rfl
  · exact h.still mindful (fun _ => by rw [eq]) (fun _ hc => by rwa [eq] at hc) []
      (by rw [eq, List.append_nil]) (by simp) rfl rfl (by rw [eq])
  · exact h.still mindful (fun _ => by rw [eq]; rfl) (fun _ hc => by rwa [eq] at hc) [(e.id, _)]
      (by rw [eq]; rfl) (by simp [reportOf, Answer.report]) rfl rfl (by rw [eq]; rfl)

theorem Recounted.step (h : Recounted w t) (mindful : Mindful w) (e : Happening) :
    Recounted (w.happen e) (t ++ w.deeds e) := by
  cases e with
  | call c => exact h.call mindful c
  | refuse fault =>
    refine h.quiet mindful ?_ rfl rfl
    exact h.told.still (fun _ => rfl) (fun _ _ caller => caller_grown none caller) (fun _ hc => hc)
      [(w.server.board.started, .error fault)] rfl (by simp [reportOf])
  | attach input =>
    refine h.quiet mindful ?_ rfl rfl
    change Told (w.callers ++ []) (w.server.happen (.attach input)).board _
    rw [List.append_nil]
    exact h.told.unanswered (fun j => boardAt_append w.server.board j rfl) (fun _ hc => hc) rfl
  | move m unasked =>
    refine h.quiet mindful ?_ ?_ rfl
    · change Told (w.callers ++ []) (w.server.board.make m) _
      rw [List.append_nil]
      exact h.told.make mindful.board unasked
    · cases m with
      | deliver i =>
        simp only [Watched.opening]
        split <;> rfl
      | record i =>
        simp only [Watched.opening]
        cases w.server.board.recordedStop? i <;> rfl
      | _ => rfl
  | exchange i =>
    refine h.modified mindful i (fun s => s.exchange?.getD s) (fun s => ?_) rfl rfl rfl rfl
    cases eq : s.exchange? with
    | none => rfl
    | some t => exact (Session.exchange_drifts eq).board
  | wake i =>
    refine h.modified mindful i (fun s => s.wake?.getD s) (fun s => ?_) rfl rfl rfl rfl
    cases eq : s.wake? with
    | none => rfl
    | some t => exact (Session.wake_drifts eq).board
  | conclude => exact h.conclude mindful
  | giveUp => exact h.giveUp mindful
  | resume => exact h.resume mindful
  | wrapUp i => exact h.wrapUp mindful i

theorem start_recounted (host : Host) : Recounted (.start host) [] where
  told := ⟨fun _ => rfl, by simp [Watched.start, ToolServer.start, Switchboard.empty], by simp, rfl⟩
  once := List.nodup_nil
  known := by simp

/-- Whatever happens, the deeds tell it. -/
theorem run_recounted (host : Host) (happenings : List Happening) :
    Recounted ((Watched.start host).run happenings) (timeline host happenings) := by
  have goesOn : ∀ w t, Mindful w → Recounted w t →
      Recounted (w.run happenings) (t ++ w.timeline happenings) := by
    induction happenings with
    | nil =>
      intro w t _ h
      rw [Watched.timeline, List.append_nil]
      exact h
    | cons e later ih =>
      intro w t mindful h
      rw [Watched.timeline, ← List.append_assoc]
      exact ih (w.happen e) _ (mindful.step e) (h.step mindful e)
  exact goesOn _ [] (start_mindful host) (start_recounted host)

/-- A call begins once. -/
theorem began_once {t before before' since since' : List Deed} {id i i' : Nat} {tool tool' : ToolCall}
    (once : (t.filterMap Deed.begun?).Nodup) (split : t = before ++ .began id i tool :: since)
    (split' : t = before' ++ .began id i' tool' :: since') :
    before = before' ∧ i = i' ∧ tool = tool' ∧ since = since' := by
  have twice : ∀ {left middle right : List Deed} {j j' : Nat} {c c' : ToolCall},
      t ≠ left ++ .began id j c :: (middle ++ .began id j' c' :: right) := by
    rintro left middle right j j' c c' rfl
    simp [Deed.begun?, List.nodup_append] at once
  rcases append_split (split.symm.trans split') with ⟨rest, rfl⟩ | ⟨more, rfl, tail⟩
  · exact absurd (by simpa using split) twice
  · cases more with
    | nil =>
      cases tail
      exact ⟨by simp, rfl, rfl, rfl⟩
    | cons first more =>
      cases tail
      exact absurd split twice

/-- Each answer is told when it is given. -/
theorem answered_of_result {host : Host} {happenings : List Happening} {id : Nat}
    {outcome : Outcome}
    (given : (id, outcome) ∈ ((start host).run happenings).board.results) :
    ∃ earlier later,
      timeline host happenings = earlier ++ .answered id (reportOf outcome) :: later := by
  have told := (run_recounted host happenings).told.reported
  rw [Watched.run_server (.start host) happenings] at told
  have listed : (id, reportOf outcome) ∈ (timeline host happenings).filterMap Deed.reported? := by
    rw [told]
    exact List.mem_map.mpr ⟨(id, outcome), given, rfl⟩
  obtain ⟨d, mem, reported⟩ := List.mem_filterMap.mp listed
  obtain rfl : d = .answered id (reportOf outcome) := by
    cases d <;> simp [Deed.reported?] at reported
    obtain ⟨rfl, rfl⟩ := reported
    rfl
  exact List.append_of_mem mem

end PromptRelay.ToolServer
