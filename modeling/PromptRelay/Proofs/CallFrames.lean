import PromptRelay.Proofs.ReachedRelays
import PromptRelay.Proofs.SessionLodging
import PromptRelay.Proofs.SessionViews

namespace PromptRelay

namespace Session

/-- A session whose relay went on without its tasks, and that handed nothing over. -/
structure RunsOn (x y : Session) : Prop where
  drifts : Relay.Drifts x.relay y.relay
  follows : Relay.Follows x.relay y.relay
  delivered : y.delivered = x.delivered

variable {x y z : Session}

theorem RunsOn.refl (x : Session) : RunsOn x x := ⟨.refl _, .refl _, rfl⟩

theorem RunsOn.trans (first : RunsOn x y) (later : RunsOn y z) : RunsOn x z :=
  ⟨first.drifts.trans later.drifts, first.follows.trans later.follows,
    later.delivered.trans first.delivered⟩

theorem RunsOn.of_same (relay : y.relay = x.relay) (delivered : y.delivered = x.delivered) :
    RunsOn x y :=
  ⟨relay ▸ .refl _, relay ▸ .refl _, delivered⟩

theorem runsOn_act (x : Session) {e : Relay.Event} (unasked : e.unasked = true) :
    RunsOn x { x with relay := x.relay.act e } :=
  ⟨Relay.act_drifts x.relay unasked, Relay.act_follows x.relay e, rfl⟩

theorem runsOn_exchange (x : Session) : RunsOn x (x.exchange?.getD x) := by
  cases moved : x.exchange? with
  | none => exact .refl x
  | some y =>
    have drifts := exchange_drifts moved
    exact ⟨drifts.relay, exchange_follows moved, drifts.delivered⟩

theorem runsOn_wake (x : Session) : RunsOn x (x.wake?.getD x) := by
  cases woken : x.wake? with
  | none => exact .refl x
  | some y =>
    have drifts := wake_drifts woken
    exact ⟨drifts.relay, wake_follows woken, drifts.delivered⟩

theorem runsOn_record (x : Session) : RunsOn x (if x.recording then x.record else x) := by
  unfold record
  split
  · split <;> exact .of_same rfl rfl
  · exact .refl x

end Session

namespace Switchboard

variable {α : Type}

/-- The calls that wait on a session. -/
def callsOn (b : Switchboard α) (i : Nat) : List (Call α) := b.calls.filter (·.session = i)

/-- What a call was told. -/
def toldTo (b : Switchboard α) (id : Nat) : List α := (b.results.filter (·.1 = id)).map Prod.snd

/-- A board on which session `i` ran on, while its calls wait as they did and call `id` was told no
more. -/
structure Idles (i id : Nat) (b b' : Switchboard α) : Prop where
  session : ∀ x, b.sessions[i]? = some x → ∃ y, b'.sessions[i]? = some y ∧ x.RunsOn y
  calls : b'.callsOn i = b.callsOn i
  told : b'.toldTo id = b.toldTo id

variable {b b' b'' : Switchboard α} {i id : Nat}

namespace Idles

theorem of_same (session : b'.sessions[i]? = b.sessions[i]?) (calls : b'.callsOn i = b.callsOn i)
    (told : b'.toldTo id = b.toldTo id) : Idles i id b b' :=
  ⟨fun x here => ⟨x, session.trans here, .refl x⟩, calls, told⟩

theorem refl (b : Switchboard α) : Idles i id b b := of_same rfl rfl rfl

theorem trans (first : Idles i id b b') (later : Idles i id b' b'') : Idles i id b b'' := by
  refine ⟨fun x here => ?_, later.calls.trans first.calls, later.told.trans first.told⟩
  obtain ⟨y, there, runsOn⟩ := first.session x here
  obtain ⟨z, last, goesOn⟩ := later.session y there
  exact ⟨z, last, runsOn.trans goesOn⟩

theorem of_alike (h : Alike (decide <| · = i) (decide <| · = id) b b') : Idles i id b b' :=
  of_same (h.sessions i (decide_eq_true rfl)).symm h.calls.symm
    (congrArg (List.map Prod.snd) h.results.symm)

theorem modify (b : Switchboard α) (j : Nat) {change : Session → Session}
    (runsOn : ∀ x : Session, x.RunsOn (change x)) : Idles i id b (b.modify j change) := by
  refine ⟨fun x here => ?_, rfl, rfl⟩
  by_cases own : j = i
  · exact ⟨change x, by simp [Switchboard.modify, own, here], runsOn x⟩
  · exact ⟨x, by simp [Switchboard.modify, own, here], .refl x⟩

theorem finish (b : Switchboard α) {n : Nat} (other : n ≠ id) (a : α) : Idles i id b (b.finish n a) :=
  of_same rfl rfl (by simp [toldTo, Switchboard.finish, other])

theorem addSession (here : i < b.sessions.length) (x : Session) :
    Idles i id b { b with sessions := b.sessions ++ [x] } :=
  of_same (List.getElem?_append_left here) rfl rfl

theorem carryOn (b : Switchboard α) {n j : Nat} (elsewhere : j ≠ i) (other : n ≠ id)
    (task : Task α) : Idles i id b (b.carryOn n j task) :=
  of_alike (.hide_carryOn b (decide_eq_false elsewhere) (decide_eq_false other) task)

/-- What nobody asked for moves nobody who waits on session `i` for replies, as long as none is handed
over there. -/
theorem make {m : Move α} (unasked : m.unasked = true) (distinct : (b.calls.map (·.id)).Nodup)
    (home : ∀ c ∈ b.calls, c.id = id → c.session = i)
    (asking : ∀ c ∈ b.callsOn i, ∃ ticket next, c.wait = .reply ticket next)
    (unhanded : m ≠ .deliver i) : Idles i id b (b.make m) := by
  have away : ∀ {m : Move α}, m.unasked = true → (∀ moment, m ≠ .passTime moment) →
      b.place? m ≠ some i → Idles i id b (b.make m) := by
    intro m unasked timeless elsewhere
    refine of_alike (.hide_make unasked distinct (fun c mem out => ?_) ⟨timeless, ?_⟩)
    · exact decide_eq_false fun own => of_decide_eq_false out (home c mem own)
    · cases place : b.place? m with
      | none => rfl
      | some j => simpa using fun own => elsewhere (place.trans (congrArg some own))
  cases m with
  | call session task => cases unasked
  | cancel id => cases unasked
  | deliver j =>
    refine away unasked (fun _ h => nomatch h) fun own => unhanded ?_
    rw [Option.some.inj own]
  | relay j e => exact modify b j fun x => x.runsOn_act unasked
  | diagnose j bytes => exact modify b j fun x => .of_same rfl rfl
  | record j => exact modify b j Session.runsOn_record
  | endWait n =>
    cases found : b.calls.find? (·.id = n) with
    | none => exact away unasked (fun _ h => nomatch h) (by simp [place?, found])
    | some c =>
      by_cases own : c.session = i
      · -- A wait for a reply does not end so.
        have mine : c ∈ b.callsOn i :=
          List.mem_filter.mpr ⟨List.mem_of_find?_eq_some found, decide_eq_true own⟩
        obtain ⟨ticket, next, waits⟩ := asking c mine
        have still : b.make (.endWait n) = b := by
          simp only [Switchboard.make, endWaitOf, found, Switchboard.endWait, waits, ite_self]
        rw [still]
        exact .refl b
      · refine away unasked (fun _ h => nomatch h) ?_
        simpa [place?, found] using own
  | passTime moment => exact of_same rfl rfl rfl

end Idles

end Switchboard

namespace ToolServer

open Switchboard (Idles)

variable {s : ToolServer} {bound : Nat → List Nat} {i id n : Nat}

/-- Another call begins, but not to work on session `i`. -/
theorem begin_idles (here : i < s.board.sessions.length) (other : n ≠ id) {c : ToolCall}
    (elsewhere : ¬((ToolTask.ofCall? c).isSome ∧ s.current = some i)) :
    Idles i id s.board (s.begin n c).board := by
  rcases begin_cases s n c with
    ⟨choice, rfl, eq⟩ | ⟨rfl, eq⟩ | ⟨task, j, asked, current, eq⟩ | ⟨_, eq⟩ <;> rw [eq]
  · rcases launch_cases s n choice with
      ⟨_, eq⟩ | ⟨_, _, _, _, eq⟩ | ⟨process, _, _, _, eq⟩ <;> rw [eq]
    · exact .finish s.board other _
    · exact .finish s.board other _
    · exact (Idles.addSession here (Session.ofProcess process)).trans
        (.carryOn _ (Nat.ne_of_gt here) other _)
  · have taken : ∀ j, Idles i id s.board (s.takeAway j).board :=
      fun j => .modify s.board j fun x => .of_same rfl rfl
    rcases terminate_cases s n with
      ⟨_, eq⟩ | ⟨j, _, ⟨_, eq⟩ | ⟨x, _, ⟨_, eq⟩ | ⟨_, eq⟩⟩⟩ <;> rw [eq]
    · exact .finish s.board other _
    · exact taken j
    · exact taken j
    · exact (taken j).trans (.finish _ other _)
  · refine .carryOn s.board ?_ other _
    rintro rfl
    exact elsewhere ⟨by simp [asked], current⟩
  · exact .finish s.board other _

/-- A launch is given up in another session than the one that a working call is bound to. -/
theorem giveUp_idles (lodged : Lodged s bound) (mine : id ∈ bound i) (works : id ∉ s.managers) :
    Idles i id s.board (s.happen .giveUp).board := by
  rcases s.giveUp_cases with eq | ⟨l, launching, _, eq⟩ <;> rw [eq]
  · exact .refl s.board
  · obtain ⟨home, alone, _⟩ := lodged.launched l launching
    have other : l.id ≠ id := fun same => works (by simp [managers, launching, same])
    have elsewhere : l.place ≠ i := fun same => other (alone id (same ▸ mine)).symm
    have apart : ∀ c ∈ s.board.calls, c.id = l.id → decide (c.session = i) = false :=
      fun c mem own => decide_eq_false (lodged.home home mem own ▸ elsewhere)
    have dropped : Idles i id s.board (s.board.dropCall l.id) := .of_alike (.hide_dropCall apart)
    have left : Idles i id (s.board.dropCall l.id)
        ((s.board.dropCall l.id).modify l.place Session.abandon) :=
      .of_alike (.hide_modify _ (decide_eq_false elsewhere) _)
    exact (dropped.trans left).trans (.finish _ other _)

/-- Whatever happens but a call that begins on session `i`, or a result that is handed over there, moves
nobody who waits there for a reply. -/
theorem happen_idles (numbered : Numbered s) (lodged : Lodged s bound) (mine : id ∈ bound i)
    (works : id ∉ s.managers)
    (asking : ∀ c ∈ s.board.callsOn i, ∃ ticket next, c.wait = .reply ticket next) {e : Happening}
    (nobody : s.lodges i e = []) (unhanded : ∀ unasked, e ≠ .move (.deliver i) unasked) :
    Idles i id s.board (s.happen e).board := by
  obtain ⟨here, old, _⟩ := lodged.known i id mine
  cases begins : s.begins? e with
  | some call =>
    obtain ⟨n, c⟩ := call
    obtain ⟨_, fresh⟩ := lodged.brink numbered begins
    have other : n ≠ id := fun same => fresh.unbound i (same ▸ mine)
    have elsewhere : ¬((ToolTask.ofCall? c).isSome ∧ (s.brink e).current = some i) := by
      simpa [lodges, begins] using nobody
    have waited : Idles i id s.board (s.brink e).board :=
      .of_same (by simp) (by simp [Switchboard.callsOn]) (by simp [Switchboard.toldTo])
    rw [happen_of_begins begins]
    exact waited.trans (begin_idles (by simpa using here) other elsewhere)
  | none =>
    cases e with
    | call c =>
      rw [call_of_begins_none begins]
      exact .of_same rfl rfl rfl
    | refuse fault =>
      have entered : Idles i id s.board s.board.enter := .of_same rfl rfl rfl
      exact entered.trans (.finish _ (Nat.ne_of_gt old) _)
    | attach input => exact .addSession here _
    | move m unasked =>
      refine .make unasked numbered.distinct (fun c mem own => lodged.home mine mem own) asking ?_
      rintro rfl
      exact unhanded unasked rfl
    | exchange j => exact .modify s.board j Session.runsOn_exchange
    | wake j => exact .modify s.board j Session.runsOn_wake
    | conclude =>
      rcases s.conclude_cases with eq | ⟨l, _, _, _, ⟨_, _, eq⟩ | ⟨_, _, eq⟩⟩ <;> rw [eq]
      · exact .refl s.board
      · exact .modify s.board _ fun x => .of_same rfl rfl
      · exact .modify s.board _ fun x => .of_same rfl rfl
    | giveUp => exact giveUp_idles lodged mine works
    | resume =>
      rw [resume_of_begins_none begins]
      exact .refl s.board
    | wrapUp j =>
      rcases s.wrapUp_cases j with eq | ⟨e, x, found, _, eq | eq⟩ <;> rw [eq]
      · exact .refl s.board
      · exact .of_same rfl rfl rfl
      · refine .finish s.board (fun same => works (List.mem_append_right _ ?_)) _
        exact same ▸ List.mem_map_of_mem (List.mem_of_find?_eq_some found)

end ToolServer

end PromptRelay
