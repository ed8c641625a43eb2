import PromptRelay.Proofs.Callers

namespace PromptRelay

namespace Relay

def refusals (reason : String) (requests : List Request) : List Resolution :=
  requests.map fun q => ⟨q, .error (.terminated reason)⟩

/-- How a closed relay goes on: as it was, with one more post while its mailbox is open, or with
everybody refused once that is shut. -/
structure WindsUp (reason : String) (t s : Relay) : Prop where
  closed : s.closed = some reason
  written : s.written = t.written
  change :
    s.resolved = t.resolved ∧ s.outstanding = t.outstanding ∧
        (t.mailOpen = false → s.mailOpen = false) ∨
      t.mailOpen = true ∧ s.resolved = t.resolved ∧
        (∃ q, s.outstanding = t.outstanding ++ [q]) ∨
      t.mailOpen = false ∧ s.mailOpen = false ∧ s.outstanding = [] ∧
        s.resolved = t.resolved ++ refusals reason t.outstanding

theorem closed_act {t : Relay} {reason : String} (isClosed : t.closed = some reason) (e : Event) :
    WindsUp reason t (t.act e) := by
  have unchanged : t.act e = t → WindsUp reason t (t.act e) := by
    intro same
    rw [same]
    exact ⟨isClosed, rfl, Or.inl ⟨rfl, rfl, id⟩⟩
  cases e with
  | post line =>
    rcases accept_cases t line with eq | ⟨isOpen, _, eq⟩
    · exact unchanged eq
    · simp only [act, eq]
      exact ⟨isClosed, rfl, Or.inr (Or.inl ⟨isOpen, rfl, ⟨t.issued, line⟩, by simp [outstanding]⟩)⟩
  | receive => exact unchanged (by simp [act, receive, isClosed])
  | output chunk => exact unchanged (by simp [act, output, isClosed])
  | setMode mode => exact ⟨isClosed, rfl, Or.inl ⟨rfl, rfl, id⟩⟩
  | turnInput input =>
    simp only [act, turnInput]
    split <;> exact ⟨isClosed, rfl, Or.inl ⟨rfl, rfl, id⟩⟩
  | announce later => exact unchanged (by simp [act, announce, isClosed])
  | shut =>
    have eq : t.act .shut = { t with mailOpen := false } := by simp [act, shut, isClosed]
    rw [eq]
    exact ⟨isClosed, rfl, Or.inl ⟨rfl, rfl, fun _ => rfl⟩⟩
  | drain =>
    cases isShut : t.mailOpen with
    | true => exact unchanged (by simp [act, drain, isShut])
    | false =>
      have why : t.closedReason = reason := by simp [closedReason, isClosed]
      refine ⟨?_, ?_, Or.inr (Or.inr ⟨isShut, ?_, ?_, ?_⟩)⟩ <;>
        simp [act, drain, isShut, isClosed, why, refusals, outstanding]

/-- A relay `t` that was closed for the reason when it was `r`. Those outstanding then, and those
posted late, wait for their refusal or have it. -/
structure Ended (r : Relay) (reason : String) (t : Relay) : Prop where
  closed : t.closed = some reason
  written : t.written = r.written
  settled : ∃ late,
    t.outstanding = r.outstanding ++ late ∧ t.resolved = r.resolved ∨
      t.mailOpen = false ∧ t.outstanding = [] ∧
        t.resolved = r.resolved ++ refusals reason (r.outstanding ++ late)

theorem announce_ended {r : Relay} (isOpen : r.closed = none) (reason : String) :
    Ended r reason (r.announce reason) := by
  simp only [announce, isOpen, Option.isSome_none, Bool.false_eq_true, if_false]
  exact ⟨rfl, rfl, [], Or.inl ⟨by simp [outstanding], rfl⟩⟩

namespace Ended

variable {r t : Relay} {reason : String}

theorem act (h : Ended r reason t) (e : Event) : Ended r reason (t.act e) := by
  obtain ⟨closed, written, change⟩ := closed_act h.closed e
  refine ⟨closed, written.trans h.written, ?_⟩
  obtain ⟨late, settled⟩ := h.settled
  rcases change with ⟨sameResolved, sameWaiting, stays⟩ | ⟨isOpen, sameResolved, q, more⟩ |
    ⟨isShut, stays, nobody, refused⟩
  · rw [sameResolved, sameWaiting]
    exact ⟨late, settled.imp_right fun ⟨isShut, drained⟩ => ⟨stays isShut, drained⟩⟩
  · rcases settled with ⟨waiting, resolved⟩ | ⟨isShut, _⟩
    · exact ⟨late ++ [q], Or.inl ⟨by rw [more, waiting, List.append_assoc], sameResolved.trans resolved⟩⟩
    · simp [isOpen] at isShut
  · refine ⟨late, Or.inr ⟨stays, nobody, ?_⟩⟩
    rcases settled with ⟨waiting, resolved⟩ | ⟨_, none, resolved⟩
    · rw [refused, resolved, waiting]
    · rw [refused, resolved, none]
      simp [refusals]

theorem after (h : Ended r reason t) (events : List Event) : Ended r reason (t.after events) :=
  after_induction (fun _ e h => h.act e) events h

theorem submit (h : Ended r reason t) (line : Option String) :
    t.submit line = .error (.terminated reason) := by
  simp [Relay.submit, refusal?, h.closed]

theorem post (h : Ended r reason t) (isShut : t.mailOpen = false) (line : Option String) :
    t.post line = .error (.terminated reason) := by
  simp [Relay.post, isShut, closedReason, h.closed]

theorem after_shut (h : Ended r reason t) (isShut : t.mailOpen = false) (events : List Event) :
    (t.after events).mailOpen = false := by
  refine (after_induction (P := fun s => Ended r reason s ∧ s.mailOpen = false) ?_ events
    ⟨h, isShut⟩).2
  intro s e ⟨hs, shut⟩
  refine ⟨hs.act e, ?_⟩
  rcases (closed_act hs.closed e).change with ⟨_, _, stays⟩ | ⟨isOpen, _⟩ | ⟨_, stays, _⟩
  · exact stays shut
  · simp [isOpen] at shut
  · exact stays

theorem after_drained (h : Ended r reason t) (isShut : t.mailOpen = false)
    (nobody : t.outstanding = []) (events : List Event) : (t.after events).outstanding = [] := by
  refine (after_induction (P := fun s => Ended r reason s ∧ s.mailOpen = false ∧ s.outstanding = [])
    ?_ events ⟨h, isShut, nobody⟩).2.2
  intro s e ⟨hs, shut, nobody⟩
  refine ⟨hs.act e, hs.after_shut shut [e], ?_⟩
  rcases (closed_act hs.closed e).change with ⟨_, same, _⟩ | ⟨isOpen, _⟩ | ⟨_, _, gone, _⟩
  · exact same.trans nobody
  · simp [isOpen] at shut
  · exact gone

theorem after_shut_drain (h : Ended r reason t) {events : List Event}
    (closing : [Event.shut, Event.drain].Sublist events) :
    (t.after events).mailOpen = false ∧ (t.after events).outstanding = [] := by
  -- The run is cut at a shut and at a drain after it; the first keeps others out, the second empties.
  obtain ⟨first, later, rfl, hshut, hlater⟩ := List.cons_sublist_iff.mp closing
  obtain ⟨a, b, rfl⟩ := List.append_of_mem hshut
  obtain ⟨c, d, rfl⟩ := List.append_of_mem (List.singleton_sublist.mp hlater)
  have atShut : ((t.after a).act .shut).mailOpen = false := by
    simp [Relay.act, shut, (h.after a).closed]
  have beforeDrain := ((h.after a).act .shut).after_shut atShut (b ++ c)
  have atEnd := ((h.after a).act .shut).after (b ++ c)
  generalize hs : ((t.after a).act .shut).after (b ++ c) = s at beforeDrain atEnd
  have split : t.after (a ++ .shut :: b ++ (c ++ .drain :: d)) = (s.act .drain).after d := by
    rw [← hs]
    simp [after_append, after_cons]
  have drained : (s.act .drain).mailOpen = false ∧ (s.act .drain).outstanding = [] := by
    simp [Relay.act, drain, beforeDrain, outstanding]
  rw [split]
  exact ⟨(atEnd.act .drain).after_shut drained.1 d,
    (atEnd.act .drain).after_drained drained.1 drained.2 d⟩

theorem drained (h : Ended r reason t) (nobody : t.outstanding = []) :
    ∃ late, t.resolved = r.resolved ++ refusals reason (r.outstanding ++ late) := by
  obtain ⟨late, ⟨waiting, resolved⟩ | ⟨_, _, resolved⟩⟩ := h.settled
  · refine ⟨late, ?_⟩
    rw [← waiting, nobody, resolved]
    simp [refusals]
  · exact ⟨late, resolved⟩

theorem refused (h : Ended r reason t) {n : Nat} {x : Resolution} (unsettled : r.resolved.length ≤ n)
    (hx : t.resolved[n]? = some x) : x.result = .error (.terminated reason) := by
  obtain ⟨late, ⟨_, resolved⟩ | ⟨_, _, resolved⟩⟩ := h.settled
  · rw [resolved, List.getElem?_eq_none unsettled] at hx
    cases hx
  · rw [resolved, List.getElem?_append_right unsettled] at hx
    obtain ⟨q, _, rfl⟩ := List.mem_map.mp (List.mem_of_getElem? hx)
    rfl

end Ended

/-- Whatever state a relay is stopped in, nobody waits there any more, and who did is refused. -/
theorem stop_refuses (r : Relay) :
    r.stop.outstanding = [] ∧ r.stop.resolved = r.resolved ++ refusals r.closedReason r.outstanding := by
  cases hc : r.closed <;>
    simp [stop, announce, shut, drain, closedReason, refusals, outstanding, hc]

/-- Closing in one go is a run of the three moves. -/
theorem close_follows {r : Relay} (isOpen : r.closed = none) (reason : String) :
    r.close reason = r.after [.announce reason, .shut, .drain] := by
  simp [close, isOpen, after, act]

/-- Once nobody waits, every ticket is resolved. -/
theorem Orderly.all_resolved {r : Relay} (orderly : r.Orderly) (nobody : r.outstanding = []) :
    r.resolved.map (·.request.ticket) = List.range r.issued := by
  simpa [row, nobody, Function.comp_def] using orderly.tickets

/-- Closing in one go refuses everybody who waits, and whoever comes. -/
theorem close_refuses {r : Relay} (orderly : r.Orderly) (isOpen : r.closed = none) (reason : String) :
    (r.close reason).resolved = r.resolved ++ refusals reason r.outstanding ∧
      (r.close reason).resolved.map (·.request.ticket) = List.range (r.close reason).issued ∧
      ∀ line, (r.close reason).post line = .error (.terminated reason) := by
  have atOnce : (r.close reason).mailOpen = false ∧ (r.close reason).outstanding = [] ∧
      (r.close reason).resolved = r.resolved ++ refusals reason r.outstanding := by
    simp [close, isOpen, announce, shut, drain, closedReason, refusals, outstanding]
  obtain ⟨isShut, nobody, refused⟩ := atOnce
  have follows := close_follows isOpen reason
  have ended : Ended r reason (r.close reason) := by
    rw [follows, after_cons]
    exact (announce_ended isOpen reason).after _
  exact ⟨refused, (follows ▸ after_orderly _ orderly).all_resolved nobody, ended.post isShut⟩

end Relay

namespace Switchboard

/-- Whatever runs up to the end of the output, and whatever requests race with the closing: the
reason is told once for all, nothing is written any more, every request that was outstanding or
comes late is refused with that reason, and once that is done, every call has exactly one result.
A session whose output ends goes through the closing in one go. -/
theorem closing_settles_every_request (input : InputEnd) (before more : List Turn) (e : OutputEnd)
    (exit : Option ExitReport) {r : Relay}
    (here : ((single input).play before).relayAt 0 = some r) (isOpen : r.closed = none) :
    let reason := e.reason exit
    let b := (single input).play (before ++ .relay (.announce reason) :: more)
    ∃ s, b.sessions = [s] ∧
      Relay.Ended r reason s.relay ∧
      (∀ line, s.relay.submit line = .error (.terminated reason) ∧
        (b.turn (.call line)).results = b.results ++ [(b.started, .error (.terminated reason))]) ∧
      (b.results.map (·.1)).Nodup ∧
      (∀ c ∈ ((single input).play before).calls, ∀ ticket next, c.wait = .reply ticket next →
        r.resolved.length ≤ ticket → ∀ x ∈ b.results, x.1 = c.id →
          x.2 = .error (.terminated reason)) ∧
      ([Relay.Event.shut, Relay.Event.drain].Sublist (more.flatMap Turn.events) →
        (∀ line, s.relay.post line = .error (.terminated reason)) ∧
        (∃ late, s.relay.resolved = r.resolved ++ Relay.refusals reason (r.outstanding ++ late)) ∧
        s.relay.resolved.map (·.request.ticket) = List.range s.relay.issued ∧
        (s.delivered = s.relay.resolved.length →
          ∀ id < b.started, id ∉ (before ++ more).flatMap Turn.leavers →
            id ∈ b.results.map (·.1))) ∧
      ∀ x : Session, x.relay = r → x.exit = exit →
        let closed := (x.endOutput e).relay
        closed = r.after [.announce reason, .shut, .drain] ∧
          closed.resolved = r.resolved ++ Relay.refusals reason r.outstanding ∧
          closed.resolved.map (·.request.ticket) = List.range closed.issued ∧
          ∀ line, closed.post line = .error (.terminated reason) := by
  intro reason b
  obtain ⟨s₀, entries, events, served, relay, _⟩ := (single_served input).play before
  have same : r = s₀.relay := by
    simpa [relayAt, served.alone] using here.symm
  have announced := served.relay_turn (.announce reason)
  have ended : Relay.Ended r reason (s₀.relay.announce reason) :=
    same ▸ Relay.announce_ended (same ▸ isOpen) reason
  obtain ⟨s, entries', events', atEnd, relay', within⟩ := announced.play more
  have split : b = (((single input).play before).turn (.relay (.announce reason))).play more := by
    simp [b, play]
  rw [← split] at atEnd
  have later : Relay.Ended r reason s.relay := by
    rw [relay']
    exact ended.after events'
  refine ⟨s, atEnd.alone, later, ?_, ?_, ?_, ?_, ?_⟩
  · intro line
    refine ⟨later.submit line, ?_⟩
    simp only [turn, call_eq atEnd.alone, later.submit line]
    rfl
  · exact (List.nodup_append.mp atEnd.once).2.1
  · intro c hc ticket next wait unsettled x hx own
    obtain ⟨t, eq, ht, _⟩ := served.waiting c hc
    have sameTicket : t = ticket := by
      rw [eq] at wait
      exact (Wait.reply.inj wait).1
    have entry : ([] ++ entries ++ entries')[x.1]? = some (some t) := by
      rw [own]
      obtain ⟨bound, _⟩ := List.getElem?_eq_some_iff.mp ht
      rw [List.getElem?_append_left bound, ht]
    obtain ⟨y, hy, result⟩ := atEnd.result_of_ticket hx entry
    rw [result]
    exact later.refused (sameTicket ▸ unsettled) hy
  · intro closing
    have done : s.relay.mailOpen = false ∧ s.relay.outstanding = [] := by
      rw [relay']
      exact ended.after_shut_drain (closing.trans within)
    obtain ⟨isShut, nobody⟩ := done
    refine ⟨later.post isShut, later.drained nobody, atEnd.orderly.all_resolved nobody,
      fun handed id below stays => ?_⟩
    exact atEnd.settled nobody handed below (by simpa using stays)
  · rintro x own rfl
    have orderly : r.Orderly := same ▸ served.orderly
    simp only [Session.endOutput, own]
    exact ⟨Relay.close_follows isOpen reason, Relay.close_refuses orderly isOpen reason⟩

theorem closing_settles_three_calls :
    ∃ r s,
      ((single .pipe).play [.call (some "x = 1"), .relay .receive, .call none]).relayAt 0 = some r ∧
      r.closed = none ∧
      ((single .pipe).play [.call (some "x = 1"), .relay .receive, .call none,
        .relay (.announce "output stream closed"), .letIn (some "y") rfl, .relay .shut,
        .relay .drain, .deliver, .deliver, .deliver]).sessions = [s] ∧
      Relay.Ended r "output stream closed" s.relay ∧
      s.relay.resolved.map (·.request.ticket) = [0, 1, 2] := by
  obtain ⟨s, alone, ended, _, _, _, settled, _⟩ := closing_settles_every_request .pipe
    [.call (some "x = 1"), .relay .receive, .call none]
    [.letIn (some "y") rfl, .relay .shut, .relay .drain, .deliver, .deliver, .deliver]
    .closed none rfl rfl
  obtain ⟨_, _, tickets, _⟩ := settled (List.Sublist.refl _)
  refine ⟨_, s, rfl, rfl, alone, ended, ?_⟩
  cases alone
  exact tickets

end Switchboard

end PromptRelay
