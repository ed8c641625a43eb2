import Mathlib.Data.List.Nodup
import PromptRelay.Proofs.SessionFrames

namespace PromptRelay.Switchboard

variable {α : Type}

/-- Two switchboards look alike to who sees only the sessions `shown`, with their calls, and hears
only the results of the calls `heard`. -/
structure Alike (shown heard : Nat → Bool) (b b' : Switchboard α) : Prop where
  count : b.sessions.length = b'.sessions.length
  sessions : ∀ i, shown i = true → b.sessions[i]? = b'.sessions[i]?
  calls : b.calls.filter (shown ·.session) = b'.calls.filter (shown ·.session)
  results : b.results.filter (heard ·.1) = b'.results.filter (heard ·.1)
  started : b.started = b'.started
  now : b.now = b'.now

variable {shown heard : Nat → Bool} {b b' b'' : Switchboard α}

namespace Alike

theorem refl (b : Switchboard α) : Alike shown heard b b := ⟨rfl, fun _ _ => rfl, rfl, rfl, rfl, rfl⟩

theorem symm (h : Alike shown heard b b') : Alike shown heard b' b :=
  ⟨h.count.symm, fun i seen => (h.sessions i seen).symm, h.calls.symm, h.results.symm, h.started.symm,
    h.now.symm⟩

theorem trans (h : Alike shown heard b b') (later : Alike shown heard b' b'') :
    Alike shown heard b b'' :=
  ⟨h.count.trans later.count, fun i seen => (h.sessions i seen).trans (later.sessions i seen),
    h.calls.trans later.calls, h.results.trans later.results, h.started.trans later.started,
    h.now.trans later.now⟩

theorem mem_calls (h : Alike shown heard b b') {c : Call α} (mem : c ∈ b.calls)
    (seen : shown c.session = true) : c ∈ b'.calls := by
  have here : c ∈ b.calls.filter (shown ·.session) := List.mem_filter.mpr ⟨mem, seen⟩
  rw [h.calls] at here
  exact (List.mem_filter.mp here).1

theorem modify (h : Alike shown heard b b') (i : Nat) (change : Session → Session) :
    Alike shown heard (b.modify i change) (b'.modify i change) := by
  refine ⟨?_, fun j seen => ?_, h.calls, h.results, h.started, h.now⟩
  · simpa [Switchboard.modify] using h.count
  · simp only [Switchboard.modify, List.getElem?_modify, h.sessions j seen]

theorem hide_modify (b : Switchboard α) {i : Nat} (hidden : shown i = false)
    (change : Session → Session) : Alike shown heard b (b.modify i change) := by
  refine ⟨by simp [Switchboard.modify], fun j seen => ?_, rfl, rfl, rfl, rfl⟩
  have other : i ≠ j := by
    rintro rfl
    exact absurd seen (by simp [hidden])
  exact (modify_frame change other).symm

theorem enter (h : Alike shown heard b b') : Alike shown heard b.enter b'.enter :=
  ⟨h.count, h.sessions, h.calls, h.results, congrArg (· + 1) h.started, h.now⟩

theorem finish (h : Alike shown heard b b') (id : Nat) (a : α) :
    Alike shown heard (b.finish id a) (b'.finish id a) := by
  refine ⟨h.count, h.sessions, h.calls, ?_, h.started, h.now⟩
  simp only [Switchboard.finish, List.filter_append, h.results]

theorem hide_finish (b : Switchboard α) {id : Nat} (unheard : heard id = false) (a : α) :
    Alike shown heard b (b.finish id a) :=
  ⟨rfl, fun _ _ => rfl, rfl, by simp [Switchboard.finish, unheard], rfl, rfl⟩

theorem dropCall (h : Alike shown heard b b') (id : Nat) :
    Alike shown heard (b.dropCall id) (b'.dropCall id) := by
  refine ⟨h.count, h.sessions, ?_, h.results, h.started, h.now⟩
  simp only [Switchboard.dropCall, List.filter_comm (fun c : Call α => shown c.session), h.calls]

theorem hide_dropCall {id : Nat} (hidden : ∀ c ∈ b.calls, c.id = id → shown c.session = false) :
    Alike shown heard b (b.dropCall id) := by
  refine ⟨rfl, fun _ _ => rfl, ?_, rfl, rfl, rfl⟩
  simp only [Switchboard.dropCall, List.filter_filter]
  refine List.filter_congr fun c mem => ?_
  by_cases own : c.id = id
  · simp [hidden c mem own]
  · simp [own]

theorem passTime (h : Alike shown heard b b') (moment : Nat) :
    Alike shown heard (b.passTime moment) (b'.passTime moment) :=
  ⟨h.count, h.sessions, h.calls, h.results, h.started, congrArg (max · moment) h.now⟩

theorem addSession (h : Alike shown heard b b') (s : Session) :
    Alike shown heard { b with sessions := b.sessions ++ [s] } { b' with sessions := b'.sessions ++ [s] } := by
  refine ⟨by simp [h.count], fun i seen => ?_, h.calls, h.results, h.started, h.now⟩
  simp only [List.getElem?_append, h.count, h.sessions i seen]

theorem set_session (h : Alike shown heard b b') (i : Nat) (t : Session) :
    Alike shown heard { b with sessions := b.sessions.set i t }
      { b' with sessions := b'.sessions.set i t } := by
  refine ⟨by simp [h.count], fun j seen => ?_, h.calls, h.results, h.started, h.now⟩
  simp only [List.getElem?_set, h.count, h.sessions j seen]

/-- A call goes on in the same way in a session that is seen. -/
theorem carryOn (h : Alike shown heard b b') (id : Nat) {i : Nat} (seen : shown i = true)
    (task : Task α) : Alike shown heard (b.carryOn id i task) (b'.carryOn id i task) := by
  have same := h.sessions i seen
  cases here : b.sessions[i]? with
  | none =>
    simp only [Switchboard.carryOn, ← same, here]
    exact h
  | some s =>
    have turned := fun t => h.set_session i t
    rcases turn : s.advance b.now task with ⟨t, progress⟩
    have turn' : s.advance b'.now task = (t, progress) := by rw [← h.now, turn]
    cases progress with
    | finished a =>
      simp only [Switchboard.carryOn, ← same, here, turn, turn']
      exact (turned t).finish id a
    | waiting wait =>
      simp only [Switchboard.carryOn, ← same, here, turn, turn']
      refine ⟨(turned t).count, (turned t).sessions, ?_, h.results, h.started, h.now⟩
      simp only [List.filter_append, h.calls]

theorem hide_carryOn (b : Switchboard α) {id i : Nat} (hidden : shown i = false)
    (unheard : heard id = false) (task : Task α) : Alike shown heard b (b.carryOn id i task) := by
  have frame : ∀ j, shown j = true → b.sessions[j]? = (b.carryOn id i task).sessions[j]? := by
    intro j seen
    have other : i ≠ j := by
      rintro rfl
      exact absurd seen (by simp [hidden])
    exact (carryOn_frame id task other).symm
  have count := (carryOn_count (b := b) id i task).symm
  rcases carryOn_cases b id i task with ⟨_, eq⟩ | ⟨s, t, _, ⟨a, _, eq⟩ | ⟨wait, _, eq⟩⟩ <;>
    rw [eq] at frame count ⊢
  · exact .refl b
  · exact ⟨count, frame, rfl, by simp [unheard], rfl, rfl⟩
  · exact ⟨count, frame, by simp [hidden], rfl, rfl, rfl⟩

/-- The same call waits for a ticket of a session that is seen. -/
theorem find_awaits (h : Alike shown heard b b') {i : Nat} (seen : shown i = true) (ticket : Nat) :
    b.calls.find? (awaits i ticket) = b'.calls.find? (awaits i ticket) := by
  have own : ∀ calls : List (Call α), calls.find? (awaits i ticket) =
      (calls.filter (shown ·.session)).find? (awaits i ticket) := by
    intro calls
    rw [List.find?_filter]
    refine congrArg (calls.find? ·) (funext fun c => ?_)
    cases awaited : awaits i ticket c with
    | false => simp
    | true =>
      have place : c.session = i := by
        unfold awaits at awaited
        split at awaited
        next => exact (by simpa using awaited : _ ∧ _).1
        next => cases awaited
      simp [place, seen]
  rw [own, own b'.calls, h.calls]

theorem deliver (h : Alike shown heard b b') {i : Nat} (seen : shown i = true) :
    Alike shown heard (b.deliverNext i) (b'.deliverNext i) := by
  simp only [deliverNext, ← h.sessions i seen]
  cases b.sessions[i]?.bind Session.undelivered? with
  | none => exact h
  | some x =>
    have passed := h.modify i fun s => { s with delivered := s.delivered + 1 }
    have same := h.find_awaits seen x.request.ticket
    simp only [Switchboard.deliver]
    cases found : b.calls.find? (awaits i x.request.ticket) with
    | none =>
      simp only [Switchboard.modify, found, ← same]
      exact passed
    | some c =>
      obtain ⟨id, session, wait⟩ := c
      have awaited := List.find?_some found
      cases wait with
      | stop count deadline next => cases awaited
      | reply ticket next =>
        obtain ⟨rfl, _⟩ : session = i ∧ ticket = x.request.ticket := by simpa [awaits] using awaited
        simp only [Switchboard.modify, found, ← same]
        exact (passed.dropCall id).carryOn id seen (next x.result)

theorem stopFor (h : Alike shown heard b b') {c : Call α} (seen : shown c.session = true) :
    b.stopFor? c = b'.stopFor? c := by
  unfold stopFor?
  split
  next => rfl
  next => rw [h.sessions c.session seen]

theorem endWait (h : Alike shown heard b b') {c : Call α} (seen : shown c.session = true)
    (stop : Option StopNotice) : Alike shown heard (b.endWait c stop) (b'.endWait c stop) := by
  unfold Switchboard.endWait
  split
  next => exact h
  next => exact (h.dropCall c.id).carryOn c.id seen _

theorem endWaitOf (h : Alike shown heard b b') {c : Call α}
    (found : b.calls.find? (·.id = c.id) = some c) (found' : b'.calls.find? (·.id = c.id) = some c)
    (seen : shown c.session = true) :
    Alike shown heard (b.endWaitOf c.id) (b'.endWaitOf c.id) := by
  simp only [Switchboard.endWaitOf, found, found', ← h.stopFor seen, ← h.now]
  split
  next => exact h.endWait seen _
  next => exact h

end Alike

theorem find_own {c : Call α} (distinct : (b.calls.map (·.id)).Nodup) (mem : c ∈ b.calls) :
    b.calls.find? (·.id = c.id) = some c := by
  cases found : b.calls.find? (·.id = c.id) with
  | none => simpa using List.find?_eq_none.mp found c mem
  | some d =>
    have same : d.id = c.id := by simpa using List.find?_some found
    rw [List.inj_on_of_nodup_map distinct (List.mem_of_find?_eq_some found) mem same]

/-- What happens in a session that is seen, or in none, looks the same. -/
theorem Alike.make (h : Alike shown heard b b') {m : Move α} (unasked : m.unasked = true)
    (distinct : (b'.calls.map (·.id)).Nodup)
    (seen : (∃ moment, m = .passTime moment) ∨ (b.place? m).any shown = true) :
    Alike shown heard (b.make m) (b'.make m) := by
  cases m with
  | call session task => cases unasked
  | cancel id => cases unasked
  | deliver i => exact h.deliver (by simpa [place?] using seen)
  | relay i event => exact h.modify i _
  | diagnose i bytes => exact h.modify i _
  | record i => exact h.modify i _
  | endWait id =>
    cases found : b.calls.find? (·.id = id) with
    | none => simp [place?, found] at seen
    | some c =>
      have own : shown c.session = true := by simpa [place?, found] using seen
      obtain rfl : c.id = id := by simpa using List.find?_some found
      have mem := h.mem_calls (List.mem_of_find?_eq_some found) own
      exact h.endWaitOf found (find_own distinct mem) own
  | passTime moment => exact h.passTime moment

/-- What happens in a session that is not seen, to calls that are not heard, looks like nothing. -/
theorem Alike.hide_make {m : Move α} (unasked : m.unasked = true)
    (distinct : (b.calls.map (·.id)).Nodup)
    (unheard : ∀ c ∈ b.calls, shown c.session = false → heard c.id = false)
    (unseen : (∀ moment, m ≠ .passTime moment) ∧ (b.place? m).any shown = false) :
    Alike shown heard b (b.make m) := by
  rcases make_cases b unasked with ⟨_, eq | ⟨moment, rfl⟩⟩ | ⟨i, change, place, goes⟩
  · rw [eq]
    exact .refl b
  · exact absurd rfl (unseen.1 moment)
  · have hidden : shown i = false := by simpa [place] using unseen.2
    have changed : Alike shown heard b (b.modify i change) := .hide_modify b hidden change
    rcases goes with eq | ⟨c, mem, own, task, eq⟩
    · rw [eq]
      exact changed
    · have dropped : Alike shown heard b ((b.modify i change).dropCall c.id) := by
        refine changed.trans (.hide_dropCall fun d hd same => ?_)
        rw [List.inj_on_of_nodup_map distinct hd mem same, own, hidden]
      rw [eq]
      exact dropped.trans (.hide_carryOn _ hidden (unheard c mem (own ▸ hidden)) task)

/-- Less may be seen and heard, and more where nothing was to see or hear. -/
theorem Alike.see (h : Alike shown heard b b') {shown' heard' : Nat → Bool}
    (seen : ∀ i, shown' i = true → shown i = true ∨ (b.sessions[i]? = b'.sessions[i]? ∧
      (∀ c ∈ b.calls, c.session ≠ i) ∧ ∀ c ∈ b'.calls, c.session ≠ i))
    (told : ∀ id, heard' id = true → heard id = true ∨
      (∀ x ∈ b.results, x.1 ≠ id) ∧ ∀ x ∈ b'.results, x.1 ≠ id) : Alike shown' heard' b b' := by
  refine ⟨h.count, fun i now => ?_, ?_, ?_, h.started, h.now⟩
  · rcases seen i now with before | ⟨same, _⟩
    · exact h.sessions i before
    · exact same
  · have left : ∀ c ∈ b.calls, shown' c.session = true → shown c.session = true :=
      fun c mem now => (seen c.session now).resolve_right fun empty => empty.2.1 c mem rfl
    have right : ∀ c ∈ b'.calls, shown' c.session = true → shown c.session = true :=
      fun c mem now => (seen c.session now).resolve_right fun empty => empty.2.2 c mem rfl
    rw [← filter_filter_of_imp left, ← filter_filter_of_imp right, h.calls]
  · have left : ∀ x ∈ b.results, heard' x.1 = true → heard x.1 = true :=
      fun x mem now => (told x.1 now).resolve_right fun silent => silent.1 x mem rfl
    have right : ∀ x ∈ b'.results, heard' x.1 = true → heard x.1 = true :=
      fun x mem now => (told x.1 now).resolve_right fun silent => silent.2 x mem rfl
    rw [← filter_filter_of_imp left, ← filter_filter_of_imp right, h.results]

/-- What a call was told is the same for who hears it. -/
theorem Alike.lookup (h : Alike shown heard b b') {id : Nat} (own : heard id = true) :
    b.results.lookup id = b'.results.lookup id := by
  have within : ∀ results : List (Nat × α),
      (results.filter (heard ·.1)).lookup id = results.lookup id := by
    intro results
    induction results with
    | nil => rfl
    | cons x later ih =>
      obtain ⟨n, a⟩ := x
      by_cases same : id = n
      · subst same
        simp [own]
      · have other : (id == n) = false := by simpa using same
        by_cases kept : heard n = true
        · simp [kept, List.lookup_cons, other, ih]
        · simp [kept, List.lookup_cons, other, ih]
  rw [← within, ← within b'.results, h.results]

end PromptRelay.Switchboard
