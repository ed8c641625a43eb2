import PromptRelay.Proofs.DebugRuns
import PromptRelay.Proofs.RefusedCalls
import PromptRelay.Proofs.SessionFrames

namespace PromptRelay.ToolServer

open LineBuffer (joinLines)

variable {p : Debuggee} {i : Nat} {o s : ToolServer} {x₀ x : Session} {made : List DebugCommand}
  {tail read noticed unread : List UInt8} {episodes : List Episode} {underway : List DebugCommand}
  {count : UInt64}

theorem begin_task {id : Nat} (current : s.current = some i) (c : DebugCommand) :
    s.begin id c.toolCall = { s with board := s.board.carryOn id i (ExceptT.run c.task) } := by
  cases c <;> (unfold ToolServer.begin; simp only [DebugCommand.toolCall, ToolTask.ofCall?, current]; rfl)

/-- A new call has its command on the way. -/
theorem Traced.call (h : Traced p i o x₀ tail s made read noticed x episodes underway unread count)
    (nobody : s.board.calls = []) {c : DebugCommand} (oneLine : Relay.breaksLine c.line = false) :
    ∃ y rest, Traced p i o x₀ tail (s.call c.toolCall) (made ++ [c]) read noticed y episodes [c] rest count := by
  have place := (List.getElem?_eq_some_iff.mp h.here).1
  obtain ⟨relay, accepted, live⟩ := h.live.post oneLine
  have turn := Session.advance_task c s.board.now accepted
  let y : Session := { x with relay, board := c.toolCall.beginOn x.board }
  have called : s.call c.toolCall = { s with board := { s.board with
      sessions := s.board.sessions.set i y, started := s.board.started + 1
      calls := [⟨s.board.started, i,
        .reply (x₀.relay.resolved.length + made.length) (c.onReply x.board.count x.board.last)⟩] } } := by
    rw [call_begin h.free, begin_task (s := { s with board := s.board.enter }) h.current]
    simp only [Switchboard.carryOn, Switchboard.enter, h.here, turn, nobody, List.nil_append]
    rfl
  rw [called]
  cases h.stage with
  | asked c' waits =>
    rw [nobody] at waits
    cases waits
  | stopping c' reply deadline fits stops waits =>
    rw [nobody] at waits
    cases waits
  | resting _ handed nothing last counted noted reads =>
    have commands := h.commands
    rw [List.append_nil] at commands
    have turns : made.length = episodes.length := by rw [commands, List.length_map]
    refine ⟨y, unread ++ joinLines (p.turns episodes.length).lines, ?_⟩
    refine ⟨by simp [place], h.current, h.free, ?_, h.results, ?_, ?_, ?_, h.told, h.counted, ?_⟩
    · rw [List.length_append, List.length_singleton, h.started, Nat.add_assoc]
    · rw [List.length_append, List.length_singleton]
      exact live _
    · rw [commands]
    · rw [List.length_append, List.length_singleton, p.spoken_succ, ← h.heard, turns,
        List.append_assoc]
    · have kept : (c.toolCall.beginOn x.board).count = count := by
        rw [← counted]
        unfold ToolCall.beginOn
        split <;> rfl
      refine .asked c ?_ handed (.begin reads nothing kept)
      rw [h.started, turns, counted, last]

/-- A call that comes back leaves the session at rest. -/
theorem Traced.finish {c : DebugCommand}
    (h : Traced p i o x₀ tail s made read noticed x episodes [c] unread count) {y : Session}
    {count' : UInt64} {e : Episode} (own : e.command = c)
    (told : p.Tells episodes.length e.stop)
    (fits : (p.answers episodes.length).Fits e.reply)
    (live : Live p.answers x₀ tail y read made.length)
    (counted : count' = x₀.board.count + UInt64.ofNat (p.stopCount (episodes.length + 1)))
    (handed : y.delivered = x₀.relay.resolved.length + (episodes.length + 1)) (nothing : y.notices = [])
    (board : y.board = ⟨e.stop.isSome, e.stop, count'⟩)
    (reads : y.scanner.Reads (p.since (episodes.length + 1)) unread) :
    Traced p i o x₀ tail { s with board := { s.board with
        sessions := s.board.sessions.set i y, calls := []
        results := s.board.results ++ [(o.board.started + episodes.length,
          .ok (c.answer (lastStop x₀.board.last episodes) e.stop e.reply))] } }
      made read noticed y (episodes ++ [e]) [] unread count' := by
  have place := (List.getElem?_eq_some_iff.mp h.here).1
  refine ⟨by simp [place], h.current, h.free, h.started, ?_, live, ?_, h.heard, ?_, ?_, ?_⟩
  · rw [answersFrom_concat, numbered, List.mapIdx_append, h.results, numbered]
    simp [length_answersFrom, own]
  · rw [h.commands]
    simp [own]
  · intro k e' he
    rcases Nat.lt_or_ge k episodes.length with past | now
    · rw [List.getElem?_append_left past] at he
      exact h.told k e' he
    · rw [List.getElem?_append_right now] at he
      have bound := (List.getElem?_eq_some_iff.mp he).1
      simp only [List.length_singleton] at bound
      obtain rfl : k = episodes.length := by omega
      obtain rfl : e = e' := by simpa using he
      exact ⟨told, fits⟩
  · rw [List.length_append, List.length_singleton]
    exact counted
  · rw [List.length_append, List.length_singleton, lastStop_concat]
    exact .resting rfl handed nothing (by rw [board]) (by rw [board]) (fun _ => by rw [board]) reads

section Carried

variable {b : Switchboard Outcome} {id ticket : Nat}

/-- The only call goes on with its reply. -/
theorem deliver_alone (here : b.sessions[i]? = some x) {next : Except Fault Reply → Task Outcome}
    (waits : b.calls = [⟨id, i, .reply ticket next⟩]) {r : Resolution}
    (own : r.request.ticket = ticket) :
    b.deliver i r =
      { b with
        sessions := b.sessions.set i { x with delivered := x.delivered + 1 }
        calls := [] }.carryOn id i (next r.result) := by
  have awaited : [(⟨id, i, .reply ticket next⟩ : Call Outcome)].find?
      (Switchboard.awaits i r.request.ticket) = some ⟨id, i, .reply ticket next⟩ := by
    simp [Switchboard.awaits, own]
  simp only [Switchboard.deliver, Switchboard.modify, modify_of_here here, waits, awaited,
    Switchboard.dropCall]
  simp

/-- The only call goes on with what came of its wait. -/
theorem endWait_alone {deadline : Nat} {next : Option StopNotice → Task Outcome}
    (waits : b.calls = [⟨id, i, .stop count deadline next⟩]) (stop : Option StopNotice) :
    b.endWait ⟨id, i, .stop count deadline next⟩ stop =
      { b with calls := [] }.carryOn id i (next stop) := by
  have nobody : (b.dropCall id).calls = [] := by simp [Switchboard.dropCall, waits]
  simp only [Switchboard.endWait, Switchboard.dropCall] at nobody ⊢
  rw [nobody]

end Carried

theorem Traced.counted_next
    (h : Traced p i o x₀ tail s made read noticed x episodes underway unread count)
    (stops : (p.turns episodes.length).stops = true) :
    count + 1 = x₀.board.count + UInt64.ofNat (p.stopCount (episodes.length + 1)) := by
  rw [p.stopCount_succ, stops, if_pos rfl, UInt64.ofNat_add, ← UInt64.add_assoc, ← h.counted]
  rfl

/-- With one more stop to come the counter does not run over, if it has room for all of them. -/
theorem Traced.room {c : DebugCommand}
    (h : Traced p i o x₀ tail s made read noticed x episodes [c] unread count)
    (few : x₀.board.count.toNat + p.stopCount made.length < UInt64.size)
    (stops : (p.turns episodes.length).stops = true) : count.toNat + 1 < UInt64.size := by
  have turns : made.length = episodes.length + 1 := by
    rw [h.commands]
    simp
  rw [turns, p.stopCount_succ, stops, if_pos rfl] at few
  have below : count.toNat ≤ x₀.board.count.toNat + p.stopCount episodes.length := by
    rw [h.counted, UInt64.toNat_add, UInt64.toNat_ofNat']
    exact (Nat.mod_le _ _).trans (Nat.add_le_add_left (Nat.mod_le _ _) _)
  omega

/-- The reply comes: at the normal prompt the call comes back, and at the debug prompt it comes back with
the stop if that is recorded, and waits for it else. -/
theorem Traced.reply {c : DebugCommand}
    (h : Traced p i o x₀ tail s made read noticed x episodes [c] unread count)
    {r : Resolution} (next : x.undelivered? = some r)
    (waits : s.board.calls = [⟨o.board.started + episodes.length, i,
      .reply (x₀.relay.resolved.length + episodes.length) (c.onReply count (lastStop x₀.board.last episodes))⟩])
    (handed : x.delivered = x₀.relay.resolved.length + episodes.length)
    (senses : Senses p episodes.length count x.scanner x.notices x.board unread) :
    ∃ y episodes underway count, Traced p i o x₀ tail { s with board := s.board.deliver i r } made read
      noticed y episodes underway unread count := by
  have place := (List.getElem?_eq_some_iff.mp h.here).1
  obtain ⟨ticket, reply, ok, fits⟩ := h.live.next_reply next handed
  let x₁ : Session := { x with delivered := x.delivered + 1 }
  have live : ∀ board, Live p.answers x₀ tail { x₁ with board } read made.length :=
    fun board => { h.live with handed := (List.getElem?_eq_some_iff.mp next).1 }
  let b : Switchboard Outcome := { s.board with sessions := s.board.sessions.set i x₁, calls := [] }
  have here₁ : b.sessions[i]? = some x₁ := by simp [b, place]
  have prompt : reply.inDebugMode = (p.turns episodes.length).stops := by
    rw [fits.inDebugMode, p.prompts]
  have carried : s.board.deliver i r = b.carryOn (o.board.started + episodes.length) i
      (c.onReply count (lastStop x₀.board.last episodes) (.ok reply)) := by
    rw [deliver_alone h.here waits ticket, ok]
  rw [carried]
  cases stops : (p.turns episodes.length).stops with
  | false =>
    obtain ⟨nothing, uncounted, reads⟩ := senses.of_quiet stops
    have turn := Session.reply_at_end (x := x₁) c b.now count (lastStop x₀.board.last episodes)
      h.live.isOpen h.live.running (prompt.trans stops)
    rw [Switchboard.carryOn_finished here₁ turn]
    simp only [b, List.set_set]
    refine ⟨_, _, _, count, h.finish (e := ⟨c, none, reply⟩) rfl (Debuggee.tells_none stops) fits
      (live _) ?_ ?_ nothing ?_ ?_⟩
    · rw [p.stopCount_succ, stops, h.counted]
      rfl
    · rw [← Nat.add_assoc, ← handed]
    · simp [x₁, StopBoard.noteReply, StopBoard.clear, uncounted]
    · rw [p.since_succ, stops]
      exact reads
  | true =>
    rcases senses.newer_cases with
      ⟨unmet, noted⟩ | ⟨stop, newer, told, whole, nothing, held, reads⟩
    · have turn := Session.reply_before_stop (x := x₁) c b.now (lastStop x₀.board.last episodes)
        (prompt.trans stops) unmet
      rw [Switchboard.carryOn_waiting here₁ turn]
      simp only [b, List.set_set]
      refine ⟨{ x₁ with board := x₁.board.noteReply true }, episodes, [c], count, { h with
        here := by simp [place], live := live _, stage := ?_ }⟩
      refine .stopping c reply _ fits stops rfl (by simp [x₁, handed]) rfl (fun late => ?_) noted
      have positive := Nat.pos_of_ne_zero c.limit_ne_zero
      simp only at late
      omega
    · have turn := Session.reply_after_stop (x := x₁) c b.now (lastStop x₀.board.last episodes)
        h.live.isOpen (prompt.trans stops) newer
      rw [Switchboard.carryOn_finished here₁ turn]
      simp only [b, List.set_set]
      refine ⟨_, _, _, count + 1, h.finish (e := ⟨c, some stop, reply⟩) rfl told fits (live _)
        (h.counted_next stops) ?_ nothing ?_ ?_⟩
      · rw [← Nat.add_assoc, ← handed]
      · simp [x₁, StopBoard.noteReply, held]
      · rw [p.since_succ, stops, whole]
        exact reads

theorem Traced.deliver (h : Traced p i o x₀ tail s made read noticed x episodes underway unread count) :
    ∃ y episodes underway count, Traced p i o x₀ tail (s.happen (.move (.deliver i) rfl)) made read noticed
      y episodes underway unread count := by
  cases next : x.undelivered? with
  | none =>
    have same : s.happen (.move (.deliver i) rfl) = s := by
      simp only [happen, Switchboard.make, Switchboard.deliverNext, h.here, Option.bind_some, next]
    rw [same]
    exact ⟨x, episodes, underway, count, h⟩
  | some r =>
    have delivered : s.happen (.move (.deliver i) rfl) = { s with board := s.board.deliver i r } := by
      simp only [happen, Switchboard.make, Switchboard.deliverNext, h.here, Option.bind_some, next]
    have below := h.live.undelivered_lt next
    have turns := congrArg List.length h.commands
    rw [delivered]
    cases h.stage with
    | resting nobody handed =>
      simp only [List.length_append, List.length_map, List.length_nil] at turns
      omega
    | stopping c reply deadline fits stops waits handed =>
      simp only [List.length_append, List.length_map, List.length_singleton] at turns
      omega
    | asked c waits handed senses => exact h.reply next waits handed senses

/-- The stop comes for which a call waits. -/
theorem Traced.stop {c : DebugCommand}
    (h : Traced p i o x₀ tail s made read noticed x episodes [c] unread count)
    {reply : Reply} {deadline : Nat} {stop : StopNotice}
    (fits : (p.answers episodes.length).Fits reply)
    (stops : (p.turns episodes.length).stops = true) {d : Call Outcome}
    (own : d = ⟨o.board.started + episodes.length, i,
      .stop count deadline (c.onStop (lastStop x₀.board.last episodes) reply)⟩)
    (waits : s.board.calls = [d])
    (handed : x.delivered = x₀.relay.resolved.length + episodes.length + 1) (debugging : x.board.debugging = true)
    (newer : x.board.newer? count = some stop)
    (senses : Senses p episodes.length count x.scanner x.notices x.board unread) :
    ∃ y episodes underway count, Traced p i o x₀ tail
      { s with board := s.board.endWait d (some stop) } made read noticed y episodes underway unread
      count := by
  subst own
  have turn := Session.advance_onStop c s.board.now (lastStop x₀.board.last episodes) reply
    h.live.isOpen debugging stop
  rw [endWait_alone waits (some stop), Switchboard.carryOn_finished (b := { s.board with calls := [] }) h.here turn]
  rcases senses.newer_cases with
    ⟨unmet, _⟩ | ⟨stop', there, told, whole, nothing, held, reads⟩
  · rw [newer] at unmet
    cases unmet
  · cases newer.symm.trans there
    refine ⟨x, _, [], count + 1, h.finish (e := ⟨c, some stop, reply⟩) rfl told fits h.live
      (h.counted_next stops) handed nothing held ?_⟩
    rw [p.since_succ, stops, whole]
    exact reads

theorem Traced.endWait (h : Traced p i o x₀ tail s made read noticed x episodes underway unread count)
    (id : Nat) :
    ∃ y episodes underway count, Traced p i o x₀ tail (s.happen (.move (.endWait id) rfl)) made read noticed
      y episodes underway unread count := by
  have still : s.board.endWaitOf id = s.board → ∃ y episodes underway count,
      Traced p i o x₀ tail (s.happen (.move (.endWait id) rfl)) made read noticed y episodes underway unread
        count := by
    intro same
    have idle : s.happen (.move (.endWait id) rfl) = s := by
      simp only [happen, Switchboard.make, same]
    rw [idle]
    exact ⟨x, episodes, underway, count, h⟩
  cases h.stage with
  | resting nobody =>
    apply still
    simp [Switchboard.endWaitOf, nobody]
  | asked c waits =>
    apply still
    unfold Switchboard.endWaitOf
    split
    next => rfl
    next d found =>
      rw [waits] at found
      obtain rfl := List.mem_singleton.mp (List.mem_of_find?_eq_some found)
      rfl
  | stopping c reply deadline fits stops waits handed debugging inTime senses =>
    cases found : s.board.calls.find? (·.id = id) with
    | none =>
      apply still
      simp only [Switchboard.endWaitOf, found]
    | some d =>
      have member := List.mem_of_find?_eq_some found
      rw [waits] at member
      obtain rfl := List.mem_singleton.mp member
      have stopFor : s.board.stopFor? ⟨o.board.started + episodes.length, i,
          .stop count deadline (c.onStop (lastStop x₀.board.last episodes) reply)⟩ =
          x.board.newer? count := by
        simp only [Switchboard.stopFor?, h.here, Option.bind_some]
      by_cases ended : (x.board.newer? count).isSome || decide (deadline ≤ s.board.now)
      · obtain ⟨stop, newer⟩ : ∃ stop, x.board.newer? count = some stop := by
          refine Option.isSome_iff_exists.mp ?_
          rcases Bool.or_eq_true_iff.mp ended with there | late
          · exact there
          · exact inTime (of_decide_eq_true late)
        have moved : ∃ d, s.board.calls = [d] ∧ d = ⟨o.board.started + episodes.length, i,
              .stop count deadline (c.onStop (lastStop x₀.board.last episodes) reply)⟩ ∧
            s.happen (.move (.endWait id) rfl) = { s with board := s.board.endWait d (some stop) } := by
          refine ⟨_, waits, rfl, ?_⟩
          simp only [happen, Switchboard.make, Switchboard.endWaitOf, found, stopFor, newer]
          rfl
        obtain ⟨d, alone, own, moved⟩ := moved
        rw [moved]
        exact h.stop fits stops own alone handed debugging newer senses
      · apply still
        have unended : ((x.board.newer? count).isSome || decide (deadline ≤ s.board.now)) = false := by
          simpa using ended
        simp only [Switchboard.endWaitOf, found, stopFor, Switchboard.deadline?, Option.any_some, unended]
        rfl

/-- Time passes, but no wait runs out before its stop is there. -/
theorem Traced.passTime (h : Traced p i o x₀ tail s made read noticed x episodes underway unread count)
    {moment : Nat} (inTime : ∀ c ∈ s.board.calls,
      (Switchboard.deadline? c).any (· ≤ moment) = true → (s.board.stopFor? c).isSome = true) :
    Traced p i o x₀ tail (s.happen (.move (.passTime moment) rfl)) made read noticed x episodes underway
      unread count := by
  refine { h with stage := ?_ }
  cases h.stage with
  | resting nobody handed nothing last counted noted reads =>
    exact .resting nobody handed nothing last counted noted reads
  | asked c waits handed senses => exact .asked c waits handed senses
  | stopping c reply deadline fits stops waits handed debugging before senses =>
    refine .stopping c reply deadline fits stops waits handed debugging (fun late => ?_) senses
    rcases Nat.lt_or_ge s.board.now deadline with early | past
    · have due : deadline ≤ moment := by
        have now : deadline ≤ max s.board.now moment := late
        omega
      have there := inTime _ (by rw [waits]; exact List.mem_singleton_self _) (by
        simpa [Switchboard.deadline?] using due)
      simpa only [Switchboard.stopFor?, h.here, Option.bind_some] using there
    · exact before past

end PromptRelay.ToolServer
