import PromptRelay.Proofs.Closing
import PromptRelay.Proofs.ServerRuns

namespace PromptRelay

namespace Relay

/-- A relay somewhere in a run that starts with nothing read and nothing asked. -/
def Reached (r : Relay) : Prop := ∃ input events, r = (start input).after events

theorem start_reached (input : InputEnd) : Reached (start input) := ⟨input, [], rfl⟩

theorem Reached.follows {r s : Relay} (h : Reached r) (follows : Follows r s) : Reached s := by
  obtain ⟨input, before, rfl⟩ := h
  obtain ⟨later, rfl⟩ := follows
  exact ⟨input, before ++ later, (after_append _ before later).symm⟩

theorem foldl_output_follows (r : Relay) (chunks : List (List UInt8)) :
    Follows r (chunks.foldl output r) := by
  induction chunks generalizing r with
  | nil => exact .refl r
  | cons chunk rest ih => exact (act_follows r (.output chunk)).trans (ih (r.output chunk))

theorem follows_close (r : Relay) (reason : String) : Follows r (r.close reason) := by
  cases hc : r.closed with
  | none => exact ⟨_, close_follows hc reason⟩
  | some told =>
    have same : r.close reason = r := by simp [close, hc]
    rw [same]
    exact .refl r

theorem follows_stop (r : Relay) : Follows r r.stop :=
  ⟨[.announce r.closedReason, .shut, .drain], rfl⟩

theorem follows_sever (r : Relay) (detail : String) : Follows r (r.sever detail) := by
  unfold sever
  split
  next pipe =>
    have turned : r.act (.turnInput (.severed detail)) = { r with input := .severed detail } := by
      simp [act, turnInput, pipe]
    exact turned ▸ act_follows r (.turnInput (.severed detail))
  next => exact .refl r

end Relay

namespace Session

/-- What a session exchanges with its process reaches the relay as events. -/
theorem exchange_follows {s t : Session} (h : s.exchange? = some t) :
    Relay.Follows s.relay t.relay := by
  obtain ⟨p, _, ⟨line, _, rfl⟩ | rfl | rfl | ⟨_, rfl⟩ | ⟨_, rfl⟩ | ⟨_, _, rfl⟩ | ⟨_, rfl⟩ | rfl⟩ :=
    exchange_cases h
  · exact .refl _
  · exact .refl _
  · exact Relay.foldl_output_follows s.relay _
  · exact .refl _
  · exact Relay.follows_sever s.relay _
  · exact Relay.follows_close s.relay _
  · exact .refl _
  · exact .refl _

theorem wake_follows {s t : Session} (h : s.wake? = some t) : Relay.Follows s.relay t.relay := by
  obtain ⟨p, _, rfl⟩ := Option.map_eq_some_iff.mp h
  exact .refl _

end Session

namespace Switchboard

variable {α : Type}

/-- Every session's relay is somewhere in a run of its own. -/
def AllReached (b : Switchboard α) : Prop := ∀ s ∈ b.sessions, s.relay.Reached

theorem AllReached.modify {b : Switchboard α} (h : AllReached b) (session : Nat)
    {change : Session → Session} (step : ∀ s, Relay.Follows s.relay (change s).relay) :
    AllReached (b.modify session change) := by
  intro s mem
  obtain ⟨i, here⟩ := List.mem_iff_getElem?.mp mem
  obtain ⟨old, hold, eq⟩ : ∃ old, b.sessions[i]? = some old ∧ (if session = i then change old else old) = s := by
    simpa [Switchboard.modify, List.getElem?_modify] using here
  have before := h old (List.mem_of_getElem? hold)
  split at eq
  · exact eq ▸ before.follows (step old)
  · exact eq ▸ before

theorem AllReached.carryOn {b : Switchboard α} (h : AllReached b) (id session : Nat) (task : Task α) :
    AllReached (b.carryOn id session task) := by
  unfold Switchboard.carryOn
  split
  next => exact h
  next s hs =>
    rcases eq : s.advance b.now task with ⟨t, progress⟩
    have own : t.relay.Reached := by
      have before := h s (List.mem_of_getElem? hs)
      have advanced := advance_follows b.now s task
      rw [eq] at advanced
      exact before.follows advanced
    have all : ∀ x ∈ b.sessions.set session t, x.relay.Reached := by
      intro x mem
      rcases List.mem_or_eq_of_mem_set mem with old | rfl
      · exact h x old
      · exact own
    cases progress with
    | finished a => exact all
    | waiting wait => exact all

theorem AllReached.deliver {b : Switchboard α} (h : AllReached b) (session : Nat) (x : Resolution) :
    AllReached (b.deliver session x) := by
  have counted : AllReached (b.modify session fun s => { s with delivered := s.delivered + 1 }) :=
    h.modify session fun s => .refl _
  unfold Switchboard.deliver
  simp only
  generalize b.modify session _ = c at *
  split
  next id _ _ _ _ => exact AllReached.carryOn (b := c.dropCall id) counted _ _ _
  next => exact counted

theorem AllReached.endWait {b : Switchboard α} (h : AllReached b) (c : Call α)
    (stop : Option StopNotice) : AllReached (b.endWait c stop) := by
  unfold Switchboard.endWait
  split
  next => exact h
  next => exact AllReached.carryOn (b := b.dropCall c.id) h _ _ _

theorem AllReached.make {b : Switchboard α} (h : AllReached b) (m : Move α) : AllReached (b.make m) := by
  cases m with
  | call session task => exact AllReached.carryOn (b := b.enter) h _ _ _
  | cancel id => exact h
  | deliver session =>
    simp only [Switchboard.make, deliverNext]
    split
    next => exact h
    next => exact h.deliver _ _
  | relay session event => exact h.modify session fun s => Relay.act_follows s.relay event
  | diagnose session bytes => exact h.modify session fun s => .refl _
  | record session =>
    refine h.modify session fun s => ?_
    split
    next => unfold Session.record; split <;> exact .refl _
    next => exact .refl _
  | endWait id =>
    simp only [Switchboard.make, endWaitOf]
    split
    next => exact h
    next c _ =>
      split
      next => exact h.endWait c _
      next => exact h
  | passTime moment => exact h

theorem single_reached (input : InputEnd) : AllReached (single (α := α) input) := by
  intro s mem
  rw [List.mem_singleton.mp mem]
  exact Relay.start_reached input

theorem AllReached.run {b : Switchboard α} (h : AllReached b) (moves : List (Move α)) :
    AllReached (b.run moves) := by
  induction moves generalizing b with
  | nil => exact h
  | cons m later ih => exact ih (h.make m)

theorem AllReached.add {b : Switchboard α} (h : AllReached b) {s : Session} (own : s.relay.Reached) :
    AllReached { b with sessions := b.sessions ++ [s] } := by
  intro x mem
  rcases List.mem_append.mp mem with old | new
  · exact h x old
  · rw [List.mem_singleton.mp new]
    exact own

theorem AllReached.relayAt {b : Switchboard α} (h : AllReached b) {session : Nat} {r : Relay}
    (here : b.relayAt session = some r) : r.Reached := by
  obtain ⟨s, hs, rfl⟩ := Option.map_eq_some_iff.mp here
  exact h s (List.mem_of_getElem? hs)

end Switchboard

namespace ToolServer

open Switchboard (AllReached)

/-- A call that begins leaves every relay in a run of its own, a new one at its start. -/
theorem begin_reached (server : ToolServer) (h : AllReached server.board) (id : Nat) (c : ToolCall) :
    AllReached (server.begin id c).board := by
  rcases begin_cases server id c with ⟨choice, _, eq⟩ | ⟨_, eq⟩ | ⟨task, i, _, _, eq⟩ | ⟨_, eq⟩ <;>
    rw [eq]
  · rcases launch_cases server id choice with ⟨_, eq⟩ | ⟨_, _, _, _, eq⟩ | ⟨process, _, _, _, eq⟩ <;>
      rw [eq]
    · exact h
    · exact h
    · have added := h.add (s := Session.ofProcess process) (Relay.start_reached .pipe)
      exact added.carryOn _ _ _
  · have killed : ∀ i, AllReached (server.takeAway i).board := fun i => h.modify i fun s => .refl _
    rcases terminate_cases server id with
      ⟨_, eq⟩ | ⟨i, _, ⟨_, eq⟩ | ⟨x, _, ⟨_, eq⟩ | ⟨_, eq⟩⟩⟩ <;> rw [eq]
    · exact h
    · exact killed i
    · exact killed i
    · exact killed i
  · exact h.carryOn _ _ _
  · exact h

theorem happen_reached {server : ToolServer} (h : AllReached server.board) (e : Happening) :
    AllReached (server.happen e).board := by
  cases e with
  | call c =>
    simp only [happen, ToolServer.call]
    split
    next => exact h
    next => exact begin_reached { server with board := server.board.enter } h _ c
  | refuse fault => exact h
  | attach input => exact h.add (Relay.start_reached input)
  | move m unasked => exact h.make m
  | exchange i =>
    refine h.modify i fun s => ?_
    cases hx : s.exchange? with
    | none => exact .refl _
    | some t => exact Session.exchange_follows hx
  | wake i =>
    refine h.modify i fun s => ?_
    cases hx : s.wake? with
    | none => exact .refl _
    | some t => exact Session.wake_follows hx
  | conclude =>
    rcases server.conclude_cases with eq | ⟨l, _, _, _, ⟨_, _, eq⟩ | ⟨_, _, eq⟩⟩ <;> rw [eq]
    · exact h
    · exact h.modify l.place fun s => .refl _
    · exact h.modify l.place fun s => .refl _
  | giveUp =>
    rcases server.giveUp_cases with eq | ⟨l, _, _, eq⟩ <;> rw [eq]
    · exact h
    · exact AllReached.modify (b := server.board.dropCall l.id) h l.place fun s => s.relay.follows_stop
  | resume =>
    simp only [happen, resume?]
    split
    next id c rest _ _ => exact begin_reached { server with waiting := rest } h id c
    next => exact h
  | wrapUp i =>
    rcases server.wrapUp_cases i with eq | ⟨_, _, _, _, eq | eq⟩ <;> rw [eq] <;> exact h

theorem run_reached (host : Host) (happenings : List Happening) :
    AllReached ((start host).run happenings).board := by
  have all : ∀ {server : ToolServer}, AllReached server.board →
      AllReached (server.run happenings).board := by
    induction happenings with
    | nil => exact id
    | cons e later ih => exact fun h => ih (happen_reached h e)
  exact all fun s mem => by cases mem

end ToolServer

end PromptRelay
