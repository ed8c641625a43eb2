import PromptRelay.Operation
import PromptRelay.Proofs.SubmissionOrder

namespace PromptRelay.Switchboard

/-- A switchboard whose callers each make one request, all on one session. -/
abbrev Desk := Switchboard (Except Fault Reply)

def ask (line : Option String) : Task (Except Fault Reply) := ExceptT.run (Operation.request line)

/-- What can happen at a desk. A call is checked and then posted; one that was let in before is
only posted, whatever happened in between. -/
inductive Turn where
  | call (line : Option String)
  | letIn (line : Option String) (unbroken : line.filter Relay.breaksLine = none)
  | cancel (id : Nat)
  | deliver
  | relay (event : Relay.Event)

/-- What a turn does to the relay for sure. -/
def Turn.events : Turn → List Relay.Event
  | .relay event => [event]
  | _ => []

def Turn.leavers : Turn → List Nat
  | .cancel id => [id]
  | _ => []

def awaitTicket (b : Desk) (relay : Relay) (ticket : Nat) : Desk :=
  { b.modify 0 fun s => { s with relay } with
    started := b.started + 1, calls := b.calls ++ [⟨b.started, 0, .reply ticket .done⟩] }

def turnAway (b : Desk) (fault : Fault) : Desk := b.enter.finish b.started (.error fault)

/-- A request that nothing is left to check of. -/
def postFor (b : Desk) (line : Option String) : Desk :=
  match b.sessions[0]? with
  | none => b
  | some s =>
    match s.relay.post line with
    | .error fault => b.turnAway fault
    | .ok (relay, ticket) => b.awaitTicket relay ticket

def turn (b : Desk) : Turn → Desk
  | .call line => b.call 0 (ask line)
  | .letIn line _ => b.postFor line
  | .cancel id => b.cancel id
  | .deliver => b.deliverNext 0
  | .relay event => b.modify 0 fun s => { s with relay := s.relay.act event }

def play (b : Desk) (turns : List Turn) : Desk := turns.foldl turn b

theorem advance_ask (now : Nat) (s : Session) (line : Option String) :
    s.advance now (ask line) =
      match s.relay.submit line with
      | .error fault => (s, .finished (.error fault))
      | .ok (relay, ticket) => ({ s with relay }, .waiting (.reply ticket .done)) := by
  change s.advance now (.request line .done) = _
  unfold Session.advance
  cases s.relay.submit line with
  | error fault => rfl
  | ok posted => rfl

theorem call_eq {b : Desk} {s : Session} (alone : b.sessions = [s]) (line : Option String) :
    b.call 0 (ask line) =
      match s.relay.submit line with
      | .error fault => b.turnAway fault
      | .ok (relay, ticket) => b.awaitTicket relay ticket := by
  obtain ⟨sessions, calls, started, results, now⟩ := b
  cases alone
  simp only [call, carryOn, enter, List.getElem?_cons_zero, advance_ask]
  cases s.relay.submit line with
  | error fault => rfl
  | ok posted => rfl

/-- What holds of the calls at a desk. The ledger has the ticket of each call, or none if it was
turned away; `gone` has those that went away. -/
structure Served (b : Desk) (s : Session) (ledger : List (Option Nat)) (gone : List Nat) : Prop where
  alone : b.sessions = [s]
  entered : ledger.length = b.started
  orderly : s.relay.Orderly
  handed : s.delivered ≤ s.relay.resolved.length
  issued : ∀ id t : Nat, ledger[id]? = some (some t) → t < s.relay.issued
  distinct : ∀ id id' t : Nat,
    ledger[id]? = some (some t) → ledger[id']? = some (some t) → id = id'
  waiting : ∀ c ∈ b.calls, ∃ t, c = ⟨c.id, 0, .reply t .done⟩ ∧ ledger[c.id]? = some (some t) ∧
    s.delivered ≤ t
  ended : ∀ x ∈ b.results,
    (∃ t y, ledger[x.1]? = some (some t) ∧ s.relay.resolved[t]? = some y ∧ x.2 = y.result) ∨
      ledger[x.1]? = some none ∧ ∃ fault, x.2 = .error fault
  once : (b.calls.map (·.id) ++ b.results.map (·.1)).Nodup
  present : ∀ id < b.started, id ∉ gone → id ∈ b.calls.map (·.id) ++ b.results.map (·.1)

theorem single_served (input : InputEnd) :
    Served (single input) (.start input false) [] [] where
  alone := rfl
  entered := rfl
  orderly := Relay.start_orderly input
  handed := Nat.le_refl 0
  issued := by simp
  distinct := by simp
  waiting := by simp [single, empty]
  ended := by simp [single, empty]
  once := by simp [single, empty]
  present := by simp [single, empty]

variable {b : Desk} {s : Session} {ledger : List (Option Nat)} {gone : List Nat}

theorem Served.known (h : Served b s ledger gone) {id : Nat}
    (here : id ∈ b.calls.map (·.id) ++ b.results.map (·.1)) : id < b.started := by
  have bound : ∀ {entry : Option Nat}, ledger[id]? = some entry → id < b.started := by
    intro entry he
    obtain ⟨hlt, _⟩ := List.getElem?_eq_some_iff.mp he
    exact h.entered ▸ hlt
  rcases List.mem_append.mp here with call | result
  · obtain ⟨c, hc, rfl⟩ := List.mem_map.mp call
    obtain ⟨t, _, ht, _⟩ := h.waiting c hc
    exact bound ht
  · obtain ⟨x, hx, rfl⟩ := List.mem_map.mp result
    rcases h.ended x hx with ⟨t, _, ht, _⟩ | ⟨ht, _⟩
    · exact bound ht
    · exact bound ht

theorem ticket_of_resolved {r : Relay} (orderly : r.Orderly) {n : Nat} {x : Resolution}
    (hx : r.resolved[n]? = some x) : x.request.ticket = n := by
  obtain ⟨hn, rfl⟩ := List.getElem?_eq_some_iff.mp hx
  have tickets := orderly.tickets
  have bound : n < (r.row.map (·.ticket)).length := by
    simp [Relay.row]; omega
  have read := List.getElem_of_eq tickets bound
  simpa [Relay.row, List.getElem_append, hn] using read

theorem Served.relay_turn (h : Served b s ledger gone) (event : Relay.Event) :
    Served (b.turn (.relay event)) { s with relay := s.relay.act event } ledger gone := by
  obtain ⟨_, hsettled⟩ := Relay.act_grows s.relay event
  have issuedGrows : s.relay.issued ≤ (s.relay.act event).issued := by
    rcases Relay.act_cases s.relay event with kept | ⟨_, _, hissued, _⟩
    · exact Nat.le_of_eq kept.issued.symm
    · omega
  refine ⟨by simp [turn, modify, h.alone], h.entered, Relay.act_orderly _ _ h.orderly,
    Nat.le_trans h.handed hsettled.length_le, ?_, h.distinct, h.waiting, ?_, h.once, h.present⟩
  · intro id t ht
    exact Nat.lt_of_lt_of_le (h.issued id t ht) issuedGrows
  · intro x hx
    rcases h.ended x hx with ⟨t, y, ht, hy, result⟩ | away
    · obtain ⟨bound, _⟩ := List.getElem?_eq_some_iff.mp hy
      obtain ⟨more, grown⟩ := hsettled
      refine Or.inl ⟨t, y, ht, ?_, result⟩
      rw [← grown, List.getElem?_append_left bound]
      exact hy
    · exact Or.inr away

theorem Served.cancel_turn (h : Served b s ledger gone) (id : Nat) :
    Served (b.turn (.cancel id)) s ledger (gone ++ [id]) := by
  have still : (b.calls.filter (·.id ≠ id)).Sublist b.calls := List.filter_sublist
  refine { h with waiting := fun c hc => h.waiting c (still.subset hc), once := ?_, present := ?_ }
  · exact h.once.sublist ((still.map _).append (List.Sublist.refl _))
  · intro other below stays
    obtain ⟨here, ne⟩ : other ∉ gone ∧ other ≠ id := by simpa using stays
    rcases List.mem_append.mp (h.present other below here) with call | result
    · obtain ⟨c, hc, rfl⟩ := List.mem_map.mp call
      exact List.mem_append_left _ (List.mem_map_of_mem (List.mem_filter.mpr ⟨hc, by simpa using ne⟩))
    · exact List.mem_append_right _ result

theorem ledger_grown {entry old : Option Nat} {id : Nat} (h : ledger[id]? = some old) :
    (ledger ++ [entry])[id]? = some old := by
  obtain ⟨bound, _⟩ := List.getElem?_eq_some_iff.mp h
  rw [List.getElem?_append_left bound, h]

theorem ledger_grown_cases {entry found : Option Nat} {id : Nat}
    (h : (ledger ++ [entry])[id]? = some found) :
    ledger[id]? = some found ∨ id = ledger.length ∧ found = entry := by
  by_cases bound : id < ledger.length
  · rw [List.getElem?_append_left bound] at h
    exact Or.inl h
  · rw [List.getElem?_append_right (by omega)] at h
    obtain ⟨here, eq⟩ := List.getElem?_eq_some_iff.mp h
    have last : id - ledger.length = 0 := by simpa using here
    exact Or.inr ⟨by omega, by simpa [last] using eq.symm⟩

theorem Served.started_fresh (h : Served b s ledger gone) :
    b.started ∉ b.calls.map (·.id) ++ b.results.map (·.1) :=
  fun here => Nat.lt_irrefl _ (h.known here)

theorem Served.waiting_grown (h : Served b s ledger gone) (entry : Option Nat) :
    ∀ c ∈ b.calls, ∃ t, c = ⟨c.id, 0, .reply t .done⟩ ∧
      (ledger ++ [entry])[c.id]? = some (some t) ∧ s.delivered ≤ t := by
  intro c hc
  obtain ⟨t, eq, ht, later⟩ := h.waiting c hc
  exact ⟨t, eq, ledger_grown ht, later⟩

theorem Served.ended_grown (h : Served b s ledger gone) (entry : Option Nat) : ∀ x ∈ b.results,
    (∃ t y, (ledger ++ [entry])[x.1]? = some (some t) ∧ s.relay.resolved[t]? = some y ∧
      x.2 = y.result) ∨
      (ledger ++ [entry])[x.1]? = some none ∧ ∃ fault, x.2 = .error fault := by
  intro x hx
  rcases h.ended x hx with ⟨t, y, ht, result⟩ | ⟨ht, away⟩
  · exact Or.inl ⟨t, y, ledger_grown ht, result⟩
  · exact Or.inr ⟨ledger_grown ht, away⟩

theorem Served.delivered_le_issued (h : Served b s ledger gone) :
    s.delivered ≤ s.relay.issued := by
  have all := congrArg List.length h.orderly.tickets
  have handed := h.handed
  simp only [Relay.row, List.length_map, List.length_append, List.length_range] at all
  omega

/-- A ledger with a new ticket still has each ticket once. -/
theorem Served.distinct_grown (h : Served b s ledger gone) {id id' t : Nat}
    (ht : (ledger ++ [some s.relay.issued])[id]? = some (some t))
    (ht' : (ledger ++ [some s.relay.issued])[id']? = some (some t)) : id = id' := by
  rcases ledger_grown_cases ht with before | ⟨here, eq⟩
  · rcases ledger_grown_cases ht' with before' | ⟨_, eq'⟩
    · exact h.distinct id id' t before before'
    · have below := h.issued id t before
      cases eq'
      omega
  · rcases ledger_grown_cases ht' with before' | ⟨here', _⟩
    · have below := h.issued id' t before'
      cases eq
      omega
    · omega

theorem Served.turnAway (h : Served b s ledger gone) (fault : Fault) :
    Served (b.turnAway fault) s (ledger ++ [none]) gone := by
  have old : ∀ {id t : Nat}, (ledger ++ [none])[id]? = some (some t) → ledger[id]? = some (some t) := by
    intro id t ht
    rcases ledger_grown_cases ht with before | ⟨_, eq⟩
    · exact before
    · simp at eq
  refine ⟨h.alone, by simp [Switchboard.turnAway, finish, enter, h.entered], h.orderly, h.handed,
    fun id t ht => h.issued id t (old ht), fun id id' t ht ht' => h.distinct id id' t (old ht) (old ht'),
    h.waiting_grown none, ?_, ?_, ?_⟩
  · intro x hx
    rcases List.mem_append.mp hx with before | now
    · exact h.ended_grown none x before
    · rw [List.mem_singleton.mp now]
      exact Or.inr ⟨by simp [← h.entered], fault, rfl⟩
  · have longer := List.nodup_cons.mpr ⟨h.started_fresh, h.once⟩
    have order := (List.perm_append_singleton b.started _).nodup_iff.mpr longer
    simpa [Switchboard.turnAway, finish, enter] using order
  · intro id below stays
    rcases Nat.lt_succ_iff_lt_or_eq.mp below with before | eq
    · have here := h.present id before stays
      simp only [Switchboard.turnAway, finish, enter, List.map_append, ← List.append_assoc]
      exact List.mem_append_left _ here
    · simp [Switchboard.turnAway, finish, enter, eq]

theorem post_ok {r posted : Relay} {line : Option String} {ticket : Nat}
    (h : r.post line = .ok (posted, ticket)) :
    ticket = r.issued ∧ posted.issued = r.issued + 1 := by
  unfold Relay.post at h
  split at h
  next =>
    obtain ⟨rfl, rfl⟩ := Prod.mk.inj (Except.ok.inj h)
    exact ⟨rfl, rfl⟩
  next => simp at h

theorem Served.awaitTicket (h : Served b s ledger gone) {line : Option String} {relay : Relay}
    {ticket : Nat} (unbroken : line.filter Relay.breaksLine = none)
    (posted : s.relay.post line = .ok (relay, ticket)) :
    Served (b.awaitTicket relay ticket) { s with relay } (ledger ++ [some ticket]) gone ∧
      relay = s.relay.act (.post line) := by
  have acted : relay = s.relay.act (.post line) := by simp [Relay.act, Relay.accept, unbroken, posted]
  obtain ⟨rfl, issued⟩ := post_ok posted
  have kept : Served (b.turn (.relay (.post line))) { s with relay } ledger gone :=
    acted ▸ h.relay_turn (.post line)
  have fresh : ledger.length = b.started := h.entered
  refine ⟨⟨by simp [Switchboard.awaitTicket, modify, h.alone],
    by simp [Switchboard.awaitTicket, fresh], kept.orderly, kept.handed, ?_,
    fun id id' t => h.distinct_grown, ?_, kept.ended_grown _, ?_, ?_⟩, acted⟩
  · intro id t ht
    change t < relay.issued
    rcases ledger_grown_cases ht with before | ⟨_, eq⟩
    · exact kept.issued id t before
    · cases eq
      omega
  · intro c hc
    rcases List.mem_append.mp hc with before | now
    · exact h.waiting_grown _ c before
    · rw [List.mem_singleton.mp now]
      exact ⟨s.relay.issued, rfl, by simp [← fresh], h.delivered_le_issued⟩
  · have longer := List.nodup_cons.mpr ⟨h.started_fresh, h.once⟩
    have order := List.perm_middle.nodup_iff.mpr longer
    simpa [Switchboard.awaitTicket, modify] using order
  · intro id below stays
    rcases Nat.lt_succ_iff_lt_or_eq.mp below with before | eq
    · have here := h.present id before stays
      simp only [Switchboard.awaitTicket, modify, List.map_append, List.mem_append] at here ⊢
      exact here.imp_left Or.inl
    · simp [Switchboard.awaitTicket, eq]

theorem Served.passOver (h : Served b s ledger gone)
    (more : s.delivered < s.relay.resolved.length)
    (nobody : ∀ c ∈ b.calls, awaits 0 s.delivered c = false) :
    Served (b.modify 0 fun s => { s with delivered := s.delivered + 1 })
      { s with delivered := s.delivered + 1 } ledger gone := by
  refine { h with alone := by simp [modify, h.alone], handed := more, waiting := ?_ }
  intro c hc
  obtain ⟨t, eq, ht, later⟩ := h.waiting c hc
  refine ⟨t, eq, ht, ?_⟩
  have other := nobody c hc
  rw [eq] at other
  have ne : t ≠ s.delivered := by simpa [awaits] using other
  change s.delivered + 1 ≤ t
  omega

theorem Served.endCall (h : Served b s ledger gone) {c : Call (Except Fault Reply)} (hc : c ∈ b.calls)
    {t : Nat} {x : Resolution} (ht : ledger[c.id]? = some (some t))
    (hx : s.relay.resolved[t]? = some x) :
    Served ((b.dropCall c.id).finish c.id x.result) s ledger gone := by
  have still : (b.calls.filter (·.id ≠ c.id)).Sublist b.calls := List.filter_sublist
  have ids := List.nodup_append.mp h.once
  refine { h with waiting := fun d hd => h.waiting d (still.subset hd), ended := ?_, once := ?_, present := ?_ }
  · intro y hy
    rcases List.mem_append.mp hy with before | now
    · exact h.ended y before
    · rw [List.mem_singleton.mp now]
      exact Or.inl ⟨t, x, ht, hx, rfl⟩
  · have rest : ((b.calls.filter (·.id ≠ c.id)).map (·.id) ++ b.results.map (·.1)).Nodup :=
      h.once.sublist ((still.map _).append (List.Sublist.refl _))
    have fresh : c.id ∉ (b.calls.filter (·.id ≠ c.id)).map (·.id) ++ b.results.map (·.1) := by
      intro here
      rcases List.mem_append.mp here with call | result
      · obtain ⟨d, hd, eq⟩ := List.mem_map.mp call
        simp [eq] at hd
      · exact ids.2.2 c.id (List.mem_map_of_mem hc) c.id result rfl
    have order := (List.perm_append_singleton c.id _).nodup_iff.mpr (List.nodup_cons.mpr ⟨fresh, rest⟩)
    simpa [finish, dropCall] using order
  · intro id below stays
    rcases List.mem_append.mp (h.present id below stays) with call | result
    · obtain ⟨d, hd, rfl⟩ := List.mem_map.mp call
      by_cases same : d.id = c.id
      · simp [finish, dropCall, same]
      · refine List.mem_append_left _ (List.mem_map_of_mem (List.mem_filter.mpr ⟨hd, ?_⟩))
        simpa using same
    · obtain ⟨y, hy, rfl⟩ := List.mem_map.mp result
      exact List.mem_append_right _ (List.mem_map_of_mem (List.mem_append_left _ hy))

theorem deliver_eq_pass {session : Nat} {x : Resolution}
    (nobody : b.calls.find? (awaits session x.request.ticket) = none) :
    b.deliver session x = b.modify session fun s => { s with delivered := s.delivered + 1 } := by
  unfold deliver
  simp [modify, nobody]

theorem deliver_eq_end (alone : b.sessions = [s]) {x : Resolution} {id t : Nat}
    (waits : b.calls.find? (awaits 0 x.request.ticket) = some ⟨id, 0, .reply t .done⟩) :
    b.deliver 0 x =
      ((b.modify 0 fun s => { s with delivered := s.delivered + 1 }).dropCall id).finish id
        x.result := by
  unfold deliver
  simp [modify, waits, alone, carryOn, dropCall, Session.advance]

/-- Without the call that waits for a ticket, nobody waits for it. -/
theorem Served.unawaited (h : Served b s ledger gone) {id t : Nat}
    (ht : ledger[id]? = some (some t)) : ∀ d ∈ (b.dropCall id).calls, awaits 0 t d = false := by
  intro d hd
  obtain ⟨hd, ne⟩ := List.mem_filter.mp hd
  obtain ⟨t', eq', ht', _⟩ := h.waiting d hd
  have other : t' ≠ t := by
    rintro rfl
    have same := h.distinct d.id id _ ht' ht
    simp [same] at ne
  rw [eq']
  simp [awaits, other]

/-- The next resolution ends the call that waits for it, if that did not go away, and no other. -/
theorem Served.deliver_turn (h : Served b s ledger gone) :
    Served (b.turn .deliver)
      { s with delivered := min (s.delivered + 1) s.relay.resolved.length } ledger gone := by
  have read : b.sessions[0]?.bind Session.undelivered? = s.relay.resolved[s.delivered]? := by
    simp [h.alone, Session.undelivered?]
  simp only [turn, deliverNext, read]
  cases hx : s.relay.resolved[s.delivered]? with
  | none =>
    have all : s.relay.resolved.length ≤ s.delivered := by simpa using hx
    have handed := h.handed
    rw [show min (s.delivered + 1) s.relay.resolved.length = s.delivered by omega]
    exact h
  | some x =>
    have more : s.delivered < s.relay.resolved.length := by
      obtain ⟨bound, _⟩ := List.getElem?_eq_some_iff.mp hx
      exact bound
    have ticket := ticket_of_resolved h.orderly hx
    rw [show min (s.delivered + 1) s.relay.resolved.length = s.delivered + 1 by omega]
    cases waits : b.calls.find? (awaits 0 x.request.ticket) with
    | none =>
      simp only [deliver_eq_pass waits]
      refine h.passOver more fun c hc => ?_
      have not := List.find?_eq_none.mp waits c hc
      simpa [ticket] using not
    | some c =>
      have hc := List.mem_of_find?_eq_some waits
      obtain ⟨t, eq, ht, _⟩ := h.waiting c hc
      have own : t = s.delivered := by
        have awaited := List.find?_some waits
        rw [eq, ticket] at awaited
        simpa [awaits] using awaited
      subst own
      rw [eq] at waits
      simp only [deliver_eq_end h.alone waits]
      exact (h.endCall hc ht hx).passOver more (h.unawaited ht)

theorem Served.result_of_ticket (h : Served b s ledger gone) {x : Nat × Except Fault Reply}
    (hx : x ∈ b.results) {t : Nat} (ht : ledger[x.1]? = some (some t)) :
    ∃ y, s.relay.resolved[t]? = some y ∧ x.2 = y.result := by
  rcases h.ended x hx with ⟨t', y, ht', hy, result⟩ | ⟨away, _⟩
  · cases ht.symm.trans ht'
    exact ⟨y, hy, result⟩
  · cases ht.symm.trans away

/-- Once everybody was refused or answered and all of it was handed on, who stayed has a result. -/
theorem Served.settled (h : Served b s ledger gone) (nobody : s.relay.outstanding = [])
    (handed : s.delivered = s.relay.resolved.length) {id : Nat} (below : id < b.started)
    (stays : id ∉ gone) : id ∈ b.results.map (·.1) := by
  rcases List.mem_append.mp (h.present id below stays) with call | result
  · obtain ⟨c, hc, rfl⟩ := List.mem_map.mp call
    obtain ⟨t, _, ht, unhanded⟩ := h.waiting c hc
    have issued := h.issued c.id t ht
    have all := congrArg List.length h.orderly.tickets
    simp only [Relay.row, nobody, List.append_nil, List.length_map, List.length_range] at all
    omega
  · exact result

/-- Every turn keeps what holds of the calls; the relay goes through the events of the turn, or a
request is posted. -/
theorem Served.turn (h : Served b s ledger gone) (t : Turn) :
    ∃ s' entries events, Served (b.turn t) s' (ledger ++ entries) (gone ++ t.leavers) ∧
      s'.relay = s.relay.after events ∧
      (events = t.events ∨ t.events = [] ∧ ∃ line, events = [.post line]) := by
  cases t with
  | call line =>
    simp only [Switchboard.turn, call_eq h.alone, Turn.leavers, List.append_nil]
    cases hs : s.relay.submit line with
    | error fault => exact ⟨s, [none], [], h.turnAway fault, rfl, Or.inl rfl⟩
    | ok posted =>
      obtain ⟨unbroken, hp⟩ := Relay.submit_ok hs
      obtain ⟨served, acted⟩ := h.awaitTicket unbroken hp
      exact ⟨_, [some posted.2], [.post line], served, acted, Or.inr ⟨rfl, line, rfl⟩⟩
  | letIn line unbroken =>
    simp only [Switchboard.turn, postFor, h.alone, List.getElem?_cons_zero, Turn.leavers,
      List.append_nil]
    cases hp : s.relay.post line with
    | error fault => exact ⟨s, [none], [], h.turnAway fault, rfl, Or.inl rfl⟩
    | ok posted =>
      obtain ⟨served, acted⟩ := h.awaitTicket unbroken hp
      exact ⟨_, [some posted.2], [.post line], served, acted, Or.inr ⟨rfl, line, rfl⟩⟩
  | cancel id => exact ⟨s, [], [], by simpa [Turn.leavers] using h.cancel_turn id, rfl, Or.inl rfl⟩
  | deliver =>
    refine ⟨{ s with delivered := min (s.delivered + 1) s.relay.resolved.length }, [], [], ?_, rfl,
      Or.inl rfl⟩
    simpa [Turn.leavers] using h.deliver_turn
  | relay event =>
    exact ⟨_, [], [event], by simpa [Turn.leavers] using h.relay_turn event, rfl, Or.inl rfl⟩

theorem Served.play (h : Served b s ledger gone) (turns : List Turn) :
    ∃ s' entries events,
      Served (b.play turns) s' (ledger ++ entries) (gone ++ turns.flatMap Turn.leavers) ∧
      s'.relay = s.relay.after events ∧ (turns.flatMap Turn.events).Sublist events := by
  induction turns generalizing b s ledger gone with
  | nil => exact ⟨s, [], [], by simpa [Switchboard.play] using h, rfl, .refl []⟩
  | cons t later ih =>
    obtain ⟨s', entries, events, served, relay, own⟩ := h.turn t
    have within : t.events.Sublist events := by
      rcases own with rfl | ⟨none, _⟩
      · exact List.Sublist.refl _
      · exact none ▸ List.nil_sublist _
    obtain ⟨s'', entries', events', served', relay', within'⟩ := ih served
    refine ⟨s'', entries ++ entries', events ++ events', ?_, ?_, ?_⟩
    · simpa [Switchboard.play] using served'
    · rw [relay', relay, Relay.after_append]
    · simpa using within.append within'

end PromptRelay.Switchboard
