import PromptRelay.Proofs.RelayEvents
import PromptRelay.Switchboard

namespace PromptRelay

namespace Relay

/-- One state comes after another in a run of the relay. -/
def Follows (r s : Relay) : Prop := ∃ events, s = r.after events

theorem Follows.refl (r : Relay) : Follows r r := ⟨[], rfl⟩

theorem Follows.trans {r s t : Relay} : Follows r s → Follows s t → Follows r t := by
  rintro ⟨first, rfl⟩ ⟨later, rfl⟩
  exact ⟨first ++ later, (after_append r first later).symm⟩

theorem act_follows (r : Relay) (e : Event) : Follows r (r.act e) := ⟨[e], rfl⟩

theorem submit_ok {r : Relay} {line : Option String} {posted : Relay × Nat}
    (h : r.submit line = .ok posted) : line.filter breaksLine = none ∧ r.post line = .ok posted := by
  unfold submit refusal? at h
  split at h
  next => simp at h
  next isOpen =>
    split at isOpen
    next => simp at isOpen
    next => exact ⟨by simpa using isOpen, h⟩

theorem submit_follows {r s : Relay} {line : Option String} {ticket : Nat}
    (h : r.submit line = .ok (s, ticket)) : Follows r s := by
  obtain ⟨unbroken, posted⟩ := submit_ok h
  exact ⟨[.post line], by simp [after, act, accept, unbroken, posted]⟩

end Relay

namespace Switchboard

variable {α : Type}

/-- What can happen on a switchboard: calls come and go, a session hands on a resolution or goes
through something itself, and waits for stops end. -/
inductive Move (α : Type) where
  | call (session : Nat) (task : Task α)
  | cancel (id : Nat)
  | deliver (session : Nat)
  | relay (session : Nat) (event : Relay.Event)
  | diagnose (session : Nat) (bytes : List UInt8)
  | record (session : Nat)
  | endWait (id : Nat)
  | passTime (moment : Nat)

def endWaitOf (b : Switchboard α) (id : Nat) : Switchboard α :=
  match b.calls.find? (·.id = id) with
  | none => b
  | some c =>
    if (b.stopFor? c).isSome || (deadline? c).any (· ≤ b.now) then b.endWait c (b.stopFor? c) else b

def deliverNext (b : Switchboard α) (session : Nat) : Switchboard α :=
  match b.sessions[session]?.bind Session.undelivered? with
  | none => b
  | some resolution => b.deliver session resolution

def make (b : Switchboard α) : Move α → Switchboard α
  | .call session task => b.call session task
  | .cancel id => b.cancel id
  | .deliver session => b.deliverNext session
  | .relay session event => b.modify session fun s => { s with relay := s.relay.act event }
  | .diagnose session bytes => b.modify session fun s => s.diagnostics bytes
  | .record session => b.modify session fun s => if s.recording then s.record else s
  | .endWait id => b.endWaitOf id
  | .passTime moment => b.passTime moment

def run (b : Switchboard α) (moves : List (Move α)) : Switchboard α := moves.foldl make b

theorem run_append (b : Switchboard α) (first later : List (Move α)) :
    b.run (first ++ later) = (b.run first).run later := List.foldl_append

/-- One session, and nobody calling. -/
def single (input : InputEnd) : Switchboard α := { empty with sessions := [.start input false] }

def relayAt (b : Switchboard α) (session : Nat) : Option Relay :=
  b.sessions[session]?.map (·.relay)

/-- No session goes away, and each relay goes on from where it was. -/
def Follows (b c : Switchboard α) : Prop :=
  ∀ i r, b.relayAt i = some r → ∃ s, c.relayAt i = some s ∧ Relay.Follows r s

theorem Follows.refl (b : Switchboard α) : Follows b b := fun _ r h => ⟨r, h, .refl r⟩

theorem Follows.trans {b c d : Switchboard α} (first : Follows b c) (later : Follows c d) :
    Follows b d := by
  intro i r h
  obtain ⟨s, hs, rs⟩ := first i r h
  obtain ⟨t, ht, st⟩ := later i s hs
  exact ⟨t, ht, rs.trans st⟩

theorem modify_follows (b : Switchboard α) (session : Nat) {change : Session → Session}
    (step : ∀ s, Relay.Follows s.relay (change s).relay) : Follows b (b.modify session change) := by
  intro i r h
  obtain ⟨s, hs, rfl⟩ := Option.map_eq_some_iff.mp h
  by_cases same : session = i
  · exact ⟨(change s).relay, by simp [relayAt, modify, hs, same], step s⟩
  · exact ⟨s.relay, by simp [relayAt, modify, hs, same], .refl _⟩

/-- A task reaches the relay only through requests and modes. -/
theorem advance_follows (now : Nat) (s : Session) (task : Task α) :
    Relay.Follows s.relay (s.advance now task).1.relay := by
  induction task generalizing s with
  | done a => exact .refl _
  | request line next ih =>
    unfold Session.advance
    split
    next fault _ => exact ih _ s
    next relay ticket h => exact Relay.submit_follows h
  | setMode mode next ih =>
    exact (Relay.act_follows s.relay (.setMode mode)).trans (ih { s with relay := s.relay.setMode mode })
  | look next ih => exact ih _ s
  | update change next ih => exact ih { s with board := change s.board }
  | awaitStop count limit next ih =>
    unfold Session.advance
    split
    next stop _ => exact ih _ s
    next =>
      split
      next => exact ih _ s
      next => exact .refl _

theorem carryOn_follows (b : Switchboard α) (id session : Nat) (task : Task α) :
    Follows b (b.carryOn id session task) := by
  unfold carryOn
  split
  next => exact .refl b
  next s hs =>
    rcases eq : s.advance b.now task with ⟨t, progress⟩
    have advanced : Relay.Follows s.relay t.relay := by
      simpa only [eq] using advance_follows b.now s task
    have step : Follows b { b with sessions := b.sessions.set session t } := by
      intro i r h
      obtain ⟨old, hold, rfl⟩ := Option.map_eq_some_iff.mp h
      obtain ⟨bound, _⟩ := List.getElem?_eq_some_iff.mp hs
      by_cases same : session = i
      · subst i
        cases hs.symm.trans hold
        exact ⟨t.relay, by simp [relayAt, bound], advanced⟩
      · exact ⟨old.relay, by simp [relayAt, same, hold], .refl _⟩
    cases progress with
    | finished a => exact step
    | waiting wait => exact step

theorem deliver_follows (b : Switchboard α) (session : Nat) (x : Resolution) :
    Follows b (b.deliver session x) := by
  have counted : Follows b (b.modify session fun s => { s with delivered := s.delivered + 1 }) :=
    modify_follows b session fun s => .refl _
  unfold deliver
  simp only
  generalize b.modify session _ = c at *
  split
  next id _ _ _ _ => exact counted.trans (carryOn_follows (c.dropCall id) _ _ _)
  next => exact counted

theorem endWait_follows (b : Switchboard α) (c : Call α) (stop : Option StopNotice) :
    Follows b (b.endWait c stop) := by
  unfold endWait
  split
  next => exact .refl b
  next => exact carryOn_follows (b.dropCall c.id) _ _ _

/-- Whatever happens on a switchboard, each relay on it goes through events of its own. -/
theorem make_follows (b : Switchboard α) (m : Move α) : Follows b (b.make m) := by
  cases m with
  | call session task => exact carryOn_follows b.enter _ _ _
  | cancel id => exact .refl b
  | deliver session =>
    simp only [make, deliverNext]
    split
    next => exact .refl b
    next => exact deliver_follows b _ _
  | relay session event => exact modify_follows b session fun s => Relay.act_follows s.relay event
  | diagnose session bytes => exact modify_follows b session fun s => .refl _
  | record session =>
    apply modify_follows b session
    intro s
    split
    next => unfold Session.record; split <;> exact .refl _
    next => exact .refl _
  | endWait id =>
    simp only [make, endWaitOf]
    split
    next => exact .refl b
    next c _ =>
      split
      next => exact endWait_follows b c _
      next => exact .refl b
  | passTime moment => exact .refl b

theorem run_follows (b : Switchboard α) (moves : List (Move α)) : Follows b (b.run moves) := by
  induction moves generalizing b with
  | nil => exact .refl b
  | cons m later ih => exact (make_follows b m).trans (ih (b.make m))

/-- What is chosen from a list may be chosen from more of it than that. -/
theorem filter_filter_of_imp {β : Type} {xs : List β} {p q : β → Bool}
    (imp : ∀ x ∈ xs, p x = true → q x = true) : (xs.filter q).filter p = xs.filter p := by
  rw [List.filter_filter]
  refine List.filter_congr fun x mem => ?_
  cases own : p x with
  | false => rfl
  | true => simp [imp x mem own]

end Switchboard

end PromptRelay
