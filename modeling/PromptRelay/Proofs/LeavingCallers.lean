import PromptRelay.Proofs.Callers

namespace PromptRelay.Switchboard

namespace Turn

/-- The line that a turn asks for, or none for a flush. -/
def asks : Turn → List (Option String)
  | .call line => [line]
  | .letIn line _ => [line]
  | _ => []

/-- Whether nobody among the given callers goes away in a turn. -/
def leavesNone (leavers : List Nat) : Turn → Bool
  | .cancel id => id ∉ leavers
  | _ => true

end Turn

/-- A turn that asks is turned away or posts its line, and which of the two depends on the session
alone. -/
theorem turn_of_asks (s : Session) {t : Turn} {line : Option String} (asks : t.asks = [line]) :
    (∃ fault, ∀ b : Desk, b.sessions = [s] → b.turn t = b.turnAway fault) ∨
    ∃ relay ticket, line.filter Relay.breaksLine = none ∧ s.relay.post line = .ok (relay, ticket) ∧
      ∀ b : Desk, b.sessions = [s] → b.turn t = b.awaitTicket relay ticket := by
  cases t with
  | call line' =>
    cases asks
    cases hs : s.relay.submit line with
    | error fault => exact .inl ⟨fault, fun b alone => by simp only [turn, call_eq alone, hs]⟩
    | ok posted =>
      obtain ⟨unbroken, hp⟩ := Relay.submit_ok hs
      exact .inr ⟨_, _, unbroken, hp, fun b alone => by simp only [turn, call_eq alone, hs]⟩
  | letIn line' unbroken =>
    cases asks
    cases hp : s.relay.post line with
    | error fault =>
      exact .inl ⟨fault, fun b alone => by simp [turn, postFor, alone, hp]⟩
    | ok posted =>
      exact .inr ⟨_, _, unbroken, rfl, fun b alone => by simp [turn, postFor, alone, hp]⟩
  | _ => cases asks

/-- The ticket of each call is that of a request with the line of the call. -/
structure Asked (s : Session) (ledger : List (Option Nat)) (lines : List (Option String)) : Prop where
  length : lines.length = ledger.length
  own : ∀ id t : Nat, ledger[id]? = some (some t) →
    ∃ line, lines[id]? = some line ∧ s.relay.row[t]? = some ⟨t, line⟩

/-- Two runs of a desk, in one of which the callers `gone` went away. -/
structure Abandoned (gone : List Nat) (left stayed : Desk) : Prop where
  sessions : left.sessions = stayed.sessions
  started : left.started = stayed.started
  calls : left.calls = stayed.calls.filter (·.id ∉ gone)
  results : left.results = stayed.results.filter (·.1 ∉ gone)
  old : ∀ id ∈ gone, id < stayed.started

variable {left stayed : Desk} {s : Session} {ledger : List (Option Nat)} {away gone : List Nat}
  {lines : List (Option String)}

theorem single_asked (input : InputEnd) : Asked (.start input false) [] [] := ⟨rfl, by simp⟩

theorem getElem?_of_prefix {β : Type} {xs ys : List β} (grows : xs <+: ys) {n : Nat} {x : β}
    (h : xs[n]? = some x) : ys[n]? = some x := by
  obtain ⟨bound, _⟩ := List.getElem?_eq_some_iff.mp h
  obtain ⟨more, rfl⟩ := grows
  rw [List.getElem?_append_left bound, h]

theorem Asked.grow (h : Asked s ledger lines) {s' : Session}
    (more : s.relay.row <+: s'.relay.row) : Asked s' ledger lines := by
  refine ⟨h.length, fun id t ht => ?_⟩
  obtain ⟨line, asked, place⟩ := h.own id t ht
  exact ⟨line, asked, getElem?_of_prefix more place⟩

theorem Asked.turnAway (h : Asked s ledger lines) (line : Option String) :
    Asked s (ledger ++ [none]) (lines ++ [line]) := by
  refine ⟨by simp [h.length], fun id t ht => ?_⟩
  rcases ledger_grown_cases ht with before | ⟨_, eq⟩
  · obtain ⟨line, asked, place⟩ := h.own id t before
    exact ⟨line, getElem?_of_prefix (List.prefix_append _ _) asked, place⟩
  · cases eq

theorem row_length {r : Relay} (orderly : r.Orderly) : r.row.length = r.issued := by
  simpa using congrArg List.length orderly.tickets

theorem Asked.awaitTicket (h : Asked s ledger lines) (orderly : s.relay.Orderly)
    {line : Option String} {relay : Relay} {ticket : Nat}
    (posted : s.relay.post line = .ok (relay, ticket)) :
    Asked { s with relay } (ledger ++ [some ticket]) (lines ++ [line]) := by
  obtain ⟨rfl, row⟩ : ticket = s.relay.issued ∧ relay.row = s.relay.row ++ [⟨s.relay.issued, line⟩] := by
    unfold Relay.post at posted
    split at posted
    next =>
      cases posted
      exact ⟨rfl, by simp [Relay.row, Relay.outstanding]⟩
    next => cases posted
  refine ⟨by simp [h.length], fun id t ht => ?_⟩
  have grown : Asked { s with relay } ledger lines := h.grow ⟨_, row.symm⟩
  rcases ledger_grown_cases ht with before | ⟨place, eq⟩
  · obtain ⟨line, asked, place⟩ := grown.own id t before
    exact ⟨line, getElem?_of_prefix (List.prefix_append _ _) asked, place⟩
  · cases eq
    refine ⟨line, by simp [place, ← h.length], ?_⟩
    simp [row, ← row_length orderly]

namespace Abandoned

theorem refl (b : Desk) : Abandoned [] b b :=
  ⟨rfl, rfl, (List.filter_eq_self.mpr fun _ _ => rfl).symm,
    (List.filter_eq_self.mpr fun _ _ => rfl).symm, fun _ none => nomatch none⟩

theorem fresh (h : Abandoned gone left stayed) : stayed.started ∉ gone :=
  fun here => Nat.lt_irrefl _ (h.old _ here)

theorem turnAway (h : Abandoned gone left stayed) (fault : Fault) :
    Abandoned gone (left.turnAway fault) (stayed.turnAway fault) := by
  refine ⟨h.sessions, congrArg (· + 1) h.started, h.calls, ?_, fun id mem => ?_⟩
  · simp [Switchboard.turnAway, finish, enter, h.results, h.started, h.fresh]
  · exact Nat.lt_succ_of_lt (h.old id mem)

theorem awaitTicket (h : Abandoned gone left stayed) (relay : Relay) (ticket : Nat) :
    Abandoned gone (left.awaitTicket relay ticket) (stayed.awaitTicket relay ticket) := by
  refine ⟨?_, congrArg (· + 1) h.started, ?_, h.results, fun id mem => ?_⟩
  · simp [Switchboard.awaitTicket, modify, h.sessions]
  · simp [Switchboard.awaitTicket, h.calls, h.started, h.fresh]
  · exact Nat.lt_succ_of_lt (h.old id mem)

theorem modify (h : Abandoned gone left stayed) (change : Session → Session) :
    Abandoned gone (left.modify 0 change) (stayed.modify 0 change) :=
  ⟨congrArg (·.modify 0 change) h.sessions, h.started, h.calls, h.results, h.old⟩

theorem dropCall (h : Abandoned gone left stayed) (id : Nat) :
    Abandoned gone (left.dropCall id) (stayed.dropCall id) := by
  refine ⟨h.sessions, h.started, ?_, h.results, h.old⟩
  simp only [Switchboard.dropCall, h.calls, List.filter_filter, Bool.and_comm]

theorem finish (h : Abandoned gone left stayed) {id : Nat} (stays : id ∉ gone)
    (result : Except Fault Reply) : Abandoned gone (left.finish id result) (stayed.finish id result) := by
  refine ⟨h.sessions, h.started, h.calls, ?_, h.old⟩
  simp [Switchboard.finish, h.results, stays]

/-- The result of a call whose caller went away is nobody's. -/
theorem forgo (h : Abandoned gone left stayed) {id : Nat} (left_it : id ∈ gone)
    (result : Except Fault Reply) :
    Abandoned gone left ((stayed.dropCall id).finish id result) := by
  refine ⟨h.sessions, h.started, ?_, ?_, h.old⟩
  · have same : stayed.calls.filter (·.id ∉ gone) =
        (stayed.calls.filter (·.id ≠ id)).filter (·.id ∉ gone) := by
      rw [List.filter_filter]
      refine List.filter_congr fun c _ => ?_
      by_cases own : c.id = id
      · simp [own, left_it]
      · simp [own]
    exact h.calls.trans same
  · simp [Switchboard.finish, Switchboard.dropCall, h.results, left_it]

/-- One more caller goes away, or had its result already. -/
theorem leave (h : Abandoned gone left stayed) (served : Served stayed s ledger away) (id : Nat) :
    Abandoned gone (left.dropCall id) stayed ∨ Abandoned (id :: gone) (left.dropCall id) stayed := by
  by_cases waits : id ∈ left.calls.map (·.id)
  · have calls : (left.dropCall id).calls = stayed.calls.filter (·.id ∉ id :: gone) := by
      simp [Switchboard.dropCall, h.calls, List.filter_filter]
    have here : id ∈ stayed.calls.map (·.id) := by
      rw [h.calls] at waits
      exact (List.filter_sublist.map _).subset waits
    have unanswered : ∀ x ∈ stayed.results, x.1 ≠ id := by
      rintro x mem rfl
      exact (List.nodup_append.mp served.once).2.2 x.1 here x.1 (List.mem_map_of_mem mem) rfl
    have results : left.results = stayed.results.filter (·.1 ∉ id :: gone) := by
      rw [h.results]
      exact List.filter_congr fun x mem => by simp [unanswered x mem]
    have known := served.known (List.mem_append_left _ here)
    exact .inr ⟨h.sessions, h.started, calls, results, List.forall_mem_cons.mpr ⟨known, h.old⟩⟩
  · have same : (left.dropCall id).calls = left.calls := by
      refine List.filter_eq_self.mpr fun c mem => ?_
      have other : c.id ≠ id := by
        rintro rfl
        exact waits (List.mem_map_of_mem mem)
      simpa using other
    exact .inl ⟨h.sessions, h.started, same.trans h.calls, h.results, h.old⟩

/-- The next resolution is handed on in both runs, or in the one where its caller stayed. -/
theorem deliver (h : Abandoned gone left stayed) (served : Served stayed s ledger away) :
    Abandoned gone (left.turn .deliver) (stayed.turn .deliver) := by
  have alone : left.sessions = [s] := h.sessions.trans served.alone
  have read : stayed.sessions[0]?.bind Session.undelivered? = s.relay.resolved[s.delivered]? := by
    simp [served.alone, Session.undelivered?]
  simp only [turn, deliverNext, h.sessions, read]
  cases hx : s.relay.resolved[s.delivered]? with
  | none => exact h
  | some x =>
    have passed := h.modify fun s => { s with delivered := s.delivered + 1 }
    cases waits : stayed.calls.find? (awaits 0 x.request.ticket) with
    | none =>
      have nobody : left.calls.find? (awaits 0 x.request.ticket) = none := by
        rw [h.calls]
        refine List.find?_eq_none.mpr fun c mem => ?_
        exact List.find?_eq_none.mp waits c (List.mem_filter.mp mem).1
      simp only [deliver_eq_pass waits, deliver_eq_pass nobody]
      exact passed
    | some c =>
      obtain ⟨t, eq, ht, _⟩ := served.waiting c (List.mem_of_find?_eq_some waits)
      have awaited := List.find?_some waits
      have own : t = x.request.ticket := by
        rw [eq] at awaited
        simpa [awaits] using awaited
      rw [eq] at waits
      simp only [deliver_eq_end served.alone waits]
      by_cases lost : c.id ∈ gone
      · have nobody : left.calls.find? (awaits 0 x.request.ticket) = none := by
          refine List.find?_eq_none.mpr fun d mem => ?_
          rw [h.calls] at mem
          obtain ⟨mem, stays⟩ := List.mem_filter.mp mem
          have other : d ∈ (stayed.dropCall c.id).calls := by
            refine List.mem_filter.mpr ⟨mem, ?_⟩
            have ne : d.id ≠ c.id := by
              intro same
              rw [← same] at lost
              simp [lost] at stays
            simpa using ne
          simp [← own, served.unawaited ht d other]
        simp only [deliver_eq_pass nobody]
        exact passed.forgo lost x.result
      · have found : left.calls.find? (awaits 0 x.request.ticket) = some ⟨c.id, 0, .reply t .done⟩ := by
          obtain ⟨_, before, later, split, none⟩ := List.find?_eq_some_iff_append.mp waits
          rw [h.calls, List.find?_filter, List.find?_eq_some_iff_append]
          refine ⟨by simp [lost, awaits, own], before, later, split, fun d mem => ?_⟩
          have deaf : awaits 0 x.request.ticket d = false := by simpa using none d mem
          simp [deaf]
        simp only [deliver_eq_end alone found]
        exact (passed.dropCall c.id).finish lost x.result

end Abandoned

/-- What is known of two runs of a desk while callers go away in one of them. -/
structure Paired (leavers gone : List Nat) (lines : List (Option String)) (left stayed : Desk) :
    Prop where
  abandoned : Abandoned gone left stayed
  within : gone ⊆ leavers
  known : ∃ s ledger away, Served stayed s ledger away ∧ Asked s ledger lines

theorem single_paired (input : InputEnd) (leavers : List Nat) :
    Paired leavers [] [] (single input) (single input) :=
  ⟨.refl _, List.nil_subset _, _, _, _, single_served input, single_asked input⟩

namespace Paired

variable {leavers : List Nat}

/-- A turn in both runs. -/
theorem turn (h : Paired leavers gone lines left stayed) (t : Turn) :
    Paired leavers gone (lines ++ t.asks) (left.turn t) (stayed.turn t) := by
  obtain ⟨abandoned, within, s, ledger, away, served, asked⟩ := h
  have alone : left.sessions = [s] := abandoned.sessions.trans served.alone
  have asking : ∀ line, t.asks = [line] →
      Paired leavers gone (lines ++ t.asks) (left.turn t) (stayed.turn t) := by
    intro line asks
    rw [asks]
    rcases turn_of_asks s asks with ⟨fault, eq⟩ | ⟨relay, ticket, unbroken, posted, eq⟩
    · rw [eq left alone, eq stayed served.alone]
      exact ⟨abandoned.turnAway fault, within, s, _, away, served.turnAway fault, asked.turnAway line⟩
    · rw [eq left alone, eq stayed served.alone]
      exact ⟨abandoned.awaitTicket relay ticket, within, _, _, away,
        (served.awaitTicket unbroken posted).1, asked.awaitTicket served.orderly posted⟩
  cases t with
  | call line => exact asking line rfl
  | letIn line unbroken => exact asking line rfl
  | cancel id =>
    simp only [Turn.asks, List.append_nil]
    exact ⟨abandoned.dropCall id, within, s, ledger, _, served.cancel_turn id, asked⟩
  | deliver =>
    simp only [Turn.asks, List.append_nil]
    exact ⟨abandoned.deliver served, within, _, ledger, away, served.deliver_turn,
      asked.grow List.prefix_rfl⟩
  | relay event =>
    simp only [Turn.asks, List.append_nil]
    exact ⟨abandoned.modify _, within, _, ledger, away, served.relay_turn event,
      asked.grow (Relay.act_grows s.relay event).1⟩

theorem play (h : Paired leavers gone lines left stayed) (turns : List Turn) :
    ∃ gone', Paired leavers gone' (lines ++ turns.flatMap Turn.asks) (left.play turns)
      (stayed.play (turns.filter (Turn.leavesNone leavers))) := by
  induction turns generalizing gone lines left stayed with
  | nil => exact ⟨gone, by simpa [Switchboard.play] using h⟩
  | cons t later ih =>
    rw [List.flatMap_cons, ← List.append_assoc, List.filter_cons]
    split
    next => exact ih (h.turn t)
    next leaves =>
      -- A caller goes away in the one run only.
      obtain ⟨id, rfl, mem⟩ : ∃ id, t = .cancel id ∧ id ∈ leavers := by
        cases t <;> simp [Turn.leavesNone] at leaves ⊢
        exact leaves
      simp only [Turn.asks, List.append_nil]
      obtain ⟨abandoned, within, s, ledger, away, served, asked⟩ := h
      rcases abandoned.leave served id with same | more
      · exact ih ⟨same, within, s, ledger, away, served, asked⟩
      · exact ih ⟨more, List.cons_subset.mpr ⟨mem, within⟩, s, ledger, away, served, asked⟩

end Paired

theorem filter_others {β : Type} (place : β → Nat) {leavers : List Nat} (within : gone ⊆ leavers)
    (xs : List β) :
    (xs.filter (place · ∉ gone)).filter (place · ∉ leavers) = xs.filter (place · ∉ leavers) := by
  refine filter_filter_of_imp fun x _ other => ?_
  have stays : place x ∉ leavers := by simpa using other
  simpa using fun here => stays (within here)

/-- The resolution at a ticket is that of the request with the ticket. -/
theorem Asked.resolved (h : Asked s ledger lines) {id t : Nat} (ht : ledger[id]? = some (some t))
    {y : Resolution} (hy : s.relay.resolved[t]? = some y) :
    ∃ line, lines[id]? = some line ∧ s.relay.resolved[t]? = some ⟨⟨t, line⟩, y.result⟩ := by
  obtain ⟨line, own, place⟩ := h.own id t ht
  have settled : s.relay.row[t]? = some y.request :=
    getElem?_of_prefix (List.prefix_append _ _) (by simp [hy])
  obtain ⟨q, result⟩ := y
  cases settled.symm.trans place
  exact ⟨line, own, hy⟩

/-- Whenever callers go away, all else is as if they had waited on: the session, with all that was
written and resolved, and what the other callers are told. A request whose caller went away takes
the resolution that its caller would have been told, and no two requests the same. -/
theorem leaving_changes_nothing_for_others (input : InputEnd) (turns : List Turn)
    (leavers : List Nat) :
    let left : Desk := (single input).play turns
    let stayed : Desk := (single input).play (turns.filter (Turn.leavesNone leavers))
    left.sessions = stayed.sessions ∧
      left.results.filter (·.1 ∉ leavers) = stayed.results.filter (·.1 ∉ leavers) ∧
      left.calls.filter (·.id ∉ leavers) = stayed.calls.filter (·.id ∉ leavers) ∧
      left.results.Sublist stayed.results ∧
      ∃ (s : Session) (ledger : List (Option Nat)), left.sessions = [s] ∧
        (∀ id id' t : Nat, ledger[id]? = some (some t) → ledger[id']? = some (some t) → id = id') ∧
        ∀ id result, (id, result) ∈ stayed.results →
          (∃ t line, ledger[id]? = some (some t) ∧ (turns.flatMap Turn.asks)[id]? = some line ∧
            s.relay.resolved[t]? = some ⟨⟨t, line⟩, result⟩) ∨
          ledger[id]? = some none ∧ ∃ fault, result = .error fault := by
  intro left stayed
  obtain ⟨gone, abandoned, within, s, ledger, away, served, asked⟩ :=
    (single_paired input leavers).play turns
  rw [List.nil_append] at asked
  refine ⟨abandoned.sessions, ?_, ?_, ?_, s, ledger, abandoned.sessions.trans served.alone,
    served.distinct, fun id result mem => ?_⟩
  · rw [abandoned.results]
    exact filter_others Prod.fst within stayed.results
  · rw [abandoned.calls]
    exact filter_others Call.id within stayed.calls
  · rw [abandoned.results]
    exact List.filter_sublist
  · rcases served.ended _ mem with ⟨t, y, ht, hy, rfl⟩ | turnedAway
    · obtain ⟨line, own, settled⟩ := asked.resolved ht hy
      exact .inl ⟨t, line, ht, own, settled⟩
    · exact .inr turnedAway

end PromptRelay.Switchboard
