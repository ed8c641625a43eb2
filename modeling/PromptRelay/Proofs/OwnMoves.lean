import Mathlib.Data.Option.Basic
import PromptRelay.Proofs.ServerWatch

namespace PromptRelay.ToolServer

variable {callers : List (Option ToolCall)} {signs : Nat → List Sign} {owed : Nat → Option Bool}
  {b : Switchboard Outcome}

theorem modify_of_here {sessions : List Session} {i : Nat} {x : Session} (here : sessions[i]? = some x)
    (change : Session → Session) : sessions.modify i change = sessions.set i (change x) := by
  rw [List.modify_eq_set_getElem?, here]
  rfl

/-- The session that can make a move makes it where it stands. -/
theorem moveSession_modify {move? : Session → Option Session} {b' : Switchboard Outcome}
    (h : b.moveSession? move? = some b') : ∃ i, b' = b.modify i fun x => (move? x).getD x := by
  obtain ⟨⟨x, i⟩, found, moved⟩ := List.exists_of_findSome?_eq_some h
  obtain ⟨y, moves, rfl⟩ := Option.map_eq_some_iff.mp moved
  have here : b.sessions[i]? = some x := List.mem_zipIdx_iff_getElem?.mp found
  exact ⟨i, by simp only [Switchboard.modify, modify_of_here here, moves, Option.getD_some]⟩

/-- A wait that is over ends as the wait of the call of its number. -/
theorem Kept.endWaitOf_eq (h : Kept callers signs owed b) {c : Call Outcome} (hc : c ∈ b.calls)
    (ended : (b.stopFor? c).isSome || (Switchboard.deadline? c).any (· ≤ b.now)) :
    b.endWaitOf c.id = b.endWait c (b.stopFor? c) := by
  have found : b.calls.find? (·.id = c.id) = some c := by
    obtain ⟨d, hd⟩ := Option.isSome_iff_exists.mp
      (List.find?_isSome (p := fun x : Call Outcome => x.id = c.id).mpr ⟨c, hc, by simp⟩)
    have same : d.id = c.id := by simpa using List.find?_some hd
    rw [hd, List.inj_on_of_nodup_map h.distinct (List.mem_of_find?_eq_some hd) hc same]
  simp only [Switchboard.endWaitOf, found, ended, if_true]

/-- Whatever the board does next is one of its moves, or an exchange of a session with its process. -/
theorem Kept.next_made (h : Kept callers signs owed b) {b' : Switchboard Outcome}
    (next : b.next? = some b') :
    (∃ m : Switchboard.Move Outcome, m.unasked = true ∧ b' = b.make m) ∨
      ∃ i, b' = b.modify i fun x => x.exchange?.getD x := by
  unfold Switchboard.next? at next
  split at next
  next i r pending =>
    cases next
    obtain ⟨⟨x, j⟩, found, eq⟩ := List.exists_of_findSome?_eq_some pending
    obtain ⟨r', undelivered, same⟩ := Option.map_eq_some_iff.mp eq
    cases same
    have here : b.sessions[i]? = some x := List.mem_zipIdx_iff_getElem?.mp found
    refine Or.inl ⟨.deliver i, rfl, ?_⟩
    simp only [Switchboard.make, Switchboard.deliverNext, here, Option.bind_some, undelivered]
  next =>
  split at next
  next i _ =>
    cases next
    exact Or.inl ⟨.relay i .receive, rfl, rfl⟩
  next =>
  split at next
  next i recorded =>
    cases next
    obtain ⟨place, ready⟩ := List.findIdx?_eq_some_iff_getElem.mp recorded
    have here : b.sessions[i]? = some b.sessions[i] := List.getElem?_eq_getElem place
    have recording : b.sessions[i].recording = true := by
      have := ready.1
      simp only [Bool.and_eq_true] at this
      exact this.1
    refine Or.inl ⟨.record i, rfl, ?_⟩
    simp only [Switchboard.make, Switchboard.modify, modify_of_here here, recording, if_true]
  next =>
  split at next
  next c found =>
    cases next
    have stops := List.find?_some found
    exact Or.inl ⟨.endWait c.id, rfl,
      (h.endWaitOf_eq (List.mem_of_find?_eq_some found) (by simp [stops])).symm⟩
  next => exact Or.inr (moveSession_modify next)

/-- On a board with nothing to do next nothing is to be handed on, received or recorded, and no wait is
over because of a stop. -/
theorem nothing_of_idle (idle : b.next? = none) :
    b.pendingResolution? = none ∧ (b.sessionWith? fun s => !s.relay.mailbox.isEmpty) = none ∧
      (b.sessionWith? fun s => s.recording && !s.notices.isEmpty) = none ∧
      b.calls.find? (fun c => (b.stopFor? c).isSome) = none := by
  unfold Switchboard.next? at idle
  split at idle
  next => cases idle
  next handed =>
  split at idle
  next => cases idle
  next received =>
  split at idle
  next => cases idle
  next recorded =>
  split at idle
  next => cases idle
  next unmet => exact ⟨handed, received, recorded, unmet⟩

theorem no_stop_of_idle (idle : b.next? = none) {c : Call Outcome} (hc : c ∈ b.calls) :
    b.stopFor? c = none := by
  obtain ⟨_, _, _, unmet⟩ := nothing_of_idle idle
  simpa using List.find?_eq_none.mp unmet c hc

theorem session_of_idle (idle : b.next? = none) {i : Nat} {x : Session}
    (here : b.sessions[i]? = some x) :
    x.undelivered? = none ∧ x.relay.mailbox = [] ∧ (x.recording = true → x.notices = []) := by
  obtain ⟨handed, received, recorded, _⟩ := nothing_of_idle idle
  have member : x ∈ b.sessions := List.mem_of_getElem? here
  have nothing := List.findSome?_eq_none_iff.mp handed (x, i) (List.mem_zipIdx_iff_getElem?.mpr here)
  have mail := List.findIdx?_eq_none_iff.mp received x member
  have silent := List.findIdx?_eq_none_iff.mp recorded x member
  refine ⟨Option.map_eq_none_iff.mp nothing, by simpa using mail, fun on => ?_⟩
  simpa [on] using silent

/-- When the tools have nothing to do next, neither has their board. -/
theorem board_idle {s : ToolServer} (idle : s.next? = none) : s.board.next? = none := by
  have unresumed := ((Option.orElse_eq_none _ _).mp idle).2
  have unmoved := ((Option.orElse_eq_none _ _).mp unresumed).2
  exact Option.map_eq_none_iff.mp ((Option.orElse_eq_none _ _).mp unmoved).1

/-- On a board that had nothing to do next, the wait that is over at a moment ends as the wait of the
call of its number. -/
theorem Kept.expire_made (h : Kept callers signs owed b) (idle : b.next? = none) {moment : Nat}
    {b' : Switchboard Outcome} (expired : (b.passTime moment).expire? = some b') :
    ∃ id, b' = (b.passTime moment).endWaitOf id := by
  obtain ⟨c, overdue, rfl⟩ := Option.map_eq_some_iff.mp expired
  have hc : c ∈ b.calls := List.mem_of_find?_eq_some overdue
  have ended := List.find?_some overdue
  have later : Kept callers signs owed (b.passTime moment) :=
    ⟨h.distinct, h.minded, h.silent, h.tracked⟩
  have none : (b.passTime moment).stopFor? c = none := no_stop_of_idle idle hc
  exact ⟨c.id, by rw [later.endWaitOf_eq hc (by simp [ended]), none]⟩

/-- Whatever the tools do next is something that can happen. -/
theorem next_happens {host : Host} {happenings : List Happening} {t : ToolServer}
    (next : ((start host).run happenings).next? = some t) :
    ∃ e, t = ((start host).run happenings).happen e := by
  have known := run_kept host happenings
  rcases (Option.orElse_eq_some _ _ _).mp next with concluded | ⟨_, next⟩
  · exact ⟨.conclude, by simp [happen, concluded]⟩
  rcases (Option.orElse_eq_some _ _ _).mp next with resumed | ⟨_, next⟩
  · exact ⟨.resume, by simp [happen, resumed]⟩
  rcases (Option.orElse_eq_some _ _ _).mp next with moved | ⟨_, ended⟩
  · obtain ⟨board, made, rfl⟩ := Option.map_eq_some_iff.mp moved
    rcases known.next_made made with ⟨m, unasked, rfl⟩ | ⟨i, rfl⟩
    · exact ⟨.move m unasked, rfl⟩
    · exact ⟨.exchange i, rfl⟩
  · obtain ⟨e, _, wrapped⟩ := List.exists_of_findSome?_eq_some ended
    exact ⟨.wrapUp e.place, by simp [happen, wrapped]⟩

/-- So is what the tools do because time passes, while they have nothing else to do. -/
theorem passTime_happens {host : Host} {happenings : List Happening} {t : ToolServer}
    (idle : ((start host).run happenings).next? = none)
    (passed : ((start host).run happenings).passTime? = some t) :
    ∃ later, t = (start host).run (happenings ++ later) := by
  have known := run_kept host happenings
  have still := board_idle idle
  simp only [run, List.foldl_append] at *
  generalize happenings.foldl happen (start host) = s at *
  rcases (Option.orElse_eq_some _ _ _).mp passed with woken | ⟨_, passed⟩
  · obtain ⟨board, made, rfl⟩ := Option.map_eq_some_iff.mp woken
    obtain ⟨i, rfl⟩ := moveSession_modify made
    exact ⟨[.wake i], rfl⟩
  · obtain ⟨moment, _, rfl⟩ := Option.map_eq_some_iff.mp passed
    let later := s.happen (.move (.passTime moment) rfl)
    change ∃ es, later.expire = _
    unfold expire
    cases ended : later.board.expire? with
    | some board =>
      obtain ⟨id, rfl⟩ := known.expire_made still ended
      exact ⟨[.move (.passTime moment) rfl, .move (.endWait id) rfl], rfl⟩
    | none =>
      exact ⟨[.move (.passTime moment) rfl, .giveUp], rfl⟩

end PromptRelay.ToolServer
