import PromptRelay.Proofs.BoardRuns

namespace PromptRelay

namespace Relay

/-- Every request that was ever accepted, the oldest first: those settled, then those that wait. -/
def row (r : Relay) : List Request := r.resolved.map (·.request) ++ r.outstanding

/-- Nobody leaves the row or changes places in it, and what is settled stays settled. -/
structure Forwards (r s : Relay) : Prop where
  row : s.row = r.row
  issued : s.issued = r.issued
  settled : r.resolved <+: s.resolved
  regular : (∀ x ∈ r.resolved, x.Regular) → ∀ x ∈ s.resolved, x.Regular

theorem Forwards.refl (r : Relay) : Forwards r r := ⟨rfl, rfl, List.prefix_rfl, id⟩

theorem Forwards.trans {r s t : Relay} (first : Forwards r s) (later : Forwards s t) :
    Forwards r t :=
  ⟨later.row.trans first.row, later.issued.trans first.issued, first.settled.trans later.settled,
    fun h => later.regular (first.regular h)⟩

theorem regular_append {xs : List Resolution} {x : Resolution} (hx : x.Regular)
    (h : ∀ y ∈ xs, y.Regular) : ∀ y ∈ xs ++ [x], y.Regular := by
  intro y hy
  rcases List.mem_append.mp hy with old | new
  · exact h y old
  · rw [List.mem_singleton.mp new]; exact hx

/-- Acting on the head of the queue leaves the row as it is. -/
theorem perform_forwards {r : Relay} {q : Request} {rest : List Request}
    (idle : r.inFlight = none) :
    Forwards { r with queue := q :: rest } { r.perform q with queue := rest } := by
  rcases perform_cases r q with ⟨input, held, result, eq, regular, _⟩ | ⟨input, eq⟩
  · rw [eq]
    refine ⟨?_, rfl, List.prefix_append _ _, regular_append regular⟩
    simp [row, outstanding, resolve, idle]
  · rw [eq]
    refine ⟨?_, rfl, List.prefix_rfl, id⟩
    simp [row, outstanding, idle]

theorem dispatchFrom_forwards (r : Relay) (queue : List Request) :
    Forwards { r with queue } (r.dispatchFrom queue) := by
  obtain ⟨last, rest, eq, kept, _⟩ := dispatchFrom_induction
    (P := fun s left => Forwards { r with queue } { s with queue := left })
    (fun s q left idle h => h.trans (perform_forwards idle)) queue (.refl { r with queue })
  rw [eq]
  exact kept

theorem dispatch_forwards (r : Relay) : Forwards r r.dispatch := dispatchFrom_forwards r r.queue

theorem receive_forwards (r : Relay) : Forwards r r.receive := by
  unfold receive
  split
  next => exact .refl r
  next =>
    split
    next => exact .refl r
    next q rest hm =>
      refine .trans ?_ (dispatch_forwards _)
      exact ⟨by simp [row, outstanding, hm], rfl, List.prefix_rfl, id⟩

theorem complete_forwards (r : Relay) (view : List String) : Forwards r (r.complete view) := by
  unfold complete
  cases hf : r.inFlight with
  | none => exact ⟨by simp [row, outstanding, hf], rfl, List.prefix_rfl, id⟩
  | some q =>
    refine ⟨?_, rfl, List.prefix_append _ _, regular_append trivial⟩
    simp [row, outstanding, resolve, hf]

theorem absorb_forwards (r : Relay) (chunk : List UInt8) : Forwards r (r.absorb chunk) := by
  have fuller : Forwards r { r with buffer := r.buffer.push chunk } := ⟨rfl, rfl, List.prefix_rfl, id⟩
  unfold absorb
  simp only
  split
  next => exact fuller.trans (complete_forwards _ _)
  next => exact fuller

theorem output_forwards (r : Relay) (chunk : List UInt8) : Forwards r (r.output chunk) := by
  unfold output
  split
  next => exact .refl r
  next =>
    simp only
    generalize (if r.owesBlanks then chunk.dropWhile isOwedBlank else chunk) = rest
    split
    next => exact dispatch_forwards r
    next =>
      have settled : Forwards r { r with owesBlanks := false } := ⟨rfl, rfl, List.prefix_rfl, id⟩
      exact (settled.trans (absorb_forwards _ rest)).trans (dispatch_forwards _)

theorem drain_forwards (r : Relay) : Forwards r r.drain := by
  unfold drain
  split
  next => exact .refl r
  next =>
    refine ⟨?_, rfl, List.prefix_append _ _, ?_⟩
    · simp [row, outstanding, Function.comp_def]
    · intro h y hy
      rcases List.mem_append.mp hy with old | new
      · exact h y old
      · obtain ⟨q, _, rfl⟩ := List.mem_map.mp new; trivial

theorem accept_cases (r : Relay) (line : Option String) :
    r.accept line = r ∨
      r.mailOpen = true ∧ line.filter breaksLine = none ∧
        r.accept line =
          { r with issued := r.issued + 1, mailbox := r.mailbox ++ [⟨r.issued, line⟩] } := by
  unfold accept post
  by_cases isOpen : r.mailOpen
  · cases hb : line.filter breaksLine with
    | none => exact Or.inr ⟨isOpen, rfl, by simp [isOpen]⟩
    | some broken => exact Or.inl (by simp)
  · cases hb : line.filter breaksLine with
    | none => exact Or.inl (by simp [isOpen])
    | some broken => exact Or.inl (by simp)

/-- Only a posted request changes the row: it comes last, under the next ticket, with no line break in
its line. -/
theorem act_cases (r : Relay) (e : Event) :
    Forwards r (r.act e) ∨
      ∃ line, (r.act e).row = r.row ++ [⟨r.issued, line⟩] ∧ (r.act e).issued = r.issued + 1 ∧
        (r.act e).resolved = r.resolved ∧ line.filter breaksLine = none := by
  cases e with
  | post line =>
    rcases accept_cases r line with eq | ⟨_, unbroken, eq⟩
    · exact Or.inl (by simpa [act, eq] using Forwards.refl r)
    · refine Or.inr ⟨line, ?_, ?_, ?_, unbroken⟩ <;> simp [act, eq, row, outstanding]
  | receive => exact Or.inl (receive_forwards r)
  | output chunk => exact Or.inl (output_forwards r chunk)
  | setMode mode => exact Or.inl ⟨rfl, rfl, List.prefix_rfl, id⟩
  | turnInput input =>
    refine Or.inl ?_
    simp only [act, turnInput]
    split <;> exact ⟨rfl, rfl, List.prefix_rfl, id⟩
  | announce reason =>
    refine Or.inl ?_
    simp only [act, announce]
    split <;> exact ⟨rfl, rfl, List.prefix_rfl, id⟩
  | shut =>
    refine Or.inl ?_
    simp only [act, shut]
    split <;> exact ⟨rfl, rfl, List.prefix_rfl, id⟩
  | drain => exact Or.inl (drain_forwards r)

/-- The row holds the tickets in the order in which they were issued, each once. -/
structure Orderly (r : Relay) : Prop where
  tickets : r.row.map (·.ticket) = List.range r.issued
  regular : ∀ x ∈ r.resolved, x.Regular

theorem start_orderly (input : InputEnd) : (start input).Orderly :=
  ⟨rfl, by simp [start]⟩

theorem act_orderly (r : Relay) (e : Event) (h : r.Orderly) : (r.act e).Orderly := by
  rcases act_cases r e with kept | ⟨line, hrow, hissued, hresolved, _⟩
  · exact ⟨by rw [kept.row, kept.issued]; exact h.tickets, kept.regular h.regular⟩
  · refine ⟨?_, by rw [hresolved]; exact h.regular⟩
    rw [hrow, hissued, List.map_append, h.tickets, List.range_succ]
    rfl

theorem after_orderly {r : Relay} (events : List Event) (h : r.Orderly) :
    (r.after events).Orderly := after_induction act_orderly events h

theorem act_grows (r : Relay) (e : Event) :
    r.row <+: (r.act e).row ∧ r.resolved <+: (r.act e).resolved := by
  rcases act_cases r e with kept | ⟨line, hrow, _, hresolved, _⟩
  · exact ⟨⟨[], by rw [kept.row, List.append_nil]⟩, kept.settled⟩
  · exact ⟨⟨_, hrow.symm⟩, ⟨[], by rw [hresolved, List.append_nil]⟩⟩

theorem after_grows (r : Relay) (events : List Event) :
    r.row <+: (r.after events).row ∧ r.resolved <+: (r.after events).resolved := by
  refine after_induction (P := fun s => r.row <+: s.row ∧ r.resolved <+: s.resolved) ?_ events
    ⟨List.prefix_rfl, List.prefix_rfl⟩
  intro s e h
  obtain ⟨hrow, hresolved⟩ := act_grows s e
  exact ⟨h.1.trans hrow, h.2.trans hresolved⟩

end Relay

namespace Switchboard

/-- Accepted requests are settled in the order of their tickets, each at most once, and none before
an earlier one: those settled, followed by those that wait, are all that were accepted, and as the
run goes on nothing is taken out of either list but the heads of the second. -/
theorem requests_settle_in_submission_order {α : Type} (input : InputEnd)
    (moves later : List (Move α)) :
    ∃ r s, ((single input).run moves).relayAt 0 = some r ∧
      ((single input).run (moves ++ later)).relayAt 0 = some s ∧
      r.resolved.map (·.request.ticket) ++ r.outstanding.map (·.ticket) = List.range r.issued ∧
      (∀ x ∈ r.resolved, x.Regular) ∧
      r.resolved <+: s.resolved ∧
      r.resolved.map (·.request) ++ r.outstanding <+:
        s.resolved.map (·.request) ++ s.outstanding := by
  have fresh : (single (α := α) input).relayAt 0 = some (.start input) := rfl
  obtain ⟨r, hr, events, rfl⟩ := run_follows (single input) moves 0 _ fresh
  obtain ⟨s, hs, more, rfl⟩ := run_follows ((single input).run moves) later 0 _ hr
  have orderly := Relay.after_orderly events (Relay.start_orderly input)
  obtain ⟨hrow, hsettled⟩ := Relay.after_grows ((Relay.start input).after events) more
  refine ⟨_, _, hr, by rw [run_append]; exact hs, ?_, orderly.regular, hsettled, hrow⟩
  simpa [Relay.row, Function.comp_def] using orderly.tickets

end Switchboard

end PromptRelay
