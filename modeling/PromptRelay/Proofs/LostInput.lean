import PromptRelay.Proofs.Closing
import PromptRelay.Proofs.Conversation

namespace PromptRelay

namespace Relay

theorem dispatch_busy (r : Relay) : r.dispatch.Busy := by
  obtain ⟨last, rest, eq, _, stop⟩ :=
    dispatchFrom_induction (P := fun _ _ => True) (fun _ _ _ _ _ => trivial) (r := r) r.queue trivial
  intro idle
  rw [dispatch, eq] at idle ⊢
  by_contra waiting
  have flying := stop waiting
  rw [show last.inFlight = none from idle] at flying
  cases flying

/-- No event leaves anybody in the queue while nothing is in flight. -/
theorem act_busy (r : Relay) (e : Event) (h : r.Busy) : (r.act e).Busy := by
  cases e with
  | post line =>
    rcases accept_cases r line with eq | ⟨_, _, eq⟩
    · simpa only [act, eq] using h
    · simpa only [act, eq, Busy] using h
  | receive =>
    rcases receive_cases r with eq | ⟨_, _, _, _, eq⟩ <;> simp only [act, eq]
    · exact h
    · exact dispatch_busy _
  | output chunk =>
    rcases output_cases r chunk with eq | eq | ⟨rest, eq⟩ <;> simp only [act, eq]
    · exact h
    · exact dispatch_busy r
    · exact dispatch_busy _
  | setMode mode => exact h
  | turnInput input =>
    simp only [act, turnInput]
    split <;> exact h
  | announce reason =>
    simp only [act, announce]
    split <;> exact h
  | shut =>
    simp only [act, shut]
    split <;> exact h
  | drain =>
    simp only [act, drain]
    split
    next => exact h
    next => exact fun _ => rfl

/-- The mailbox is not shut before the reason is told. -/
theorem act_mail (r : Relay) (e : Event) (h : r.closed = none → r.mailOpen = true) :
    (r.act e).closed = none → (r.act e).mailOpen = true := by
  have same : ∀ {s : Relay}, SameSetting r s → s.closed = none → s.mailOpen = true :=
    fun ends isOpen => ends.mail.trans (h (ends.closed.symm.trans isOpen))
  cases e with
  | post line =>
    rcases accept_cases r line with eq | ⟨_, _, eq⟩ <;> rw [act, eq] <;> exact h
  | receive => exact same (receive_sameSetting r)
  | output chunk => exact same (output_sameSetting r chunk)
  | setMode mode => exact h
  | turnInput input =>
    simp only [act, turnInput]
    split <;> exact h
  | announce reason =>
    simp only [act, announce]
    split
    next => exact h
    next => simp
  | shut =>
    simp only [act, shut]
    split
    next isClosed => exact fun isOpen => by simp [show r.closed = none from isOpen] at isClosed
    next => exact h
  | drain =>
    simp only [act, drain]
    split <;> exact h

theorem after_mail (input : InputEnd) (events : List Event) :
    ((start input).after events).closed = none → ((start input).after events).mailOpen = true :=
  after_induction (P := fun r => r.closed = none → r.mailOpen = true) act_mail events fun _ => rfl

theorem after_busy (input : InputEnd) (events : List Event) : ((start input).after events).Busy :=
  after_induction act_busy events fun _ => rfl

/-- Events other than the end of the output and a change of the input. -/
def Event.keepsEnds : Event → Bool
  | .turnInput _ => false
  | .announce _ => false
  | _ => true

/-- How many requests were acted on: those settled, and the one in flight. -/
def reached (r : Relay) : Nat := r.resolved.length + r.inFlight.toList.length

/-- From a place on, each line was refused with what its own write told. -/
def FailedFrom (place : Nat) (detail : String) (resolved : List Resolution) : Prop :=
  ∀ (n : Nat) (x : Resolution) (line : String),
    place ≤ n → resolved[n]? = some x → x.request.line = some line → x.result = .error (.io detail)

theorem FailedFrom.append {place : Nat} {detail : String} {resolved : List Resolution}
    (h : FailedFrom place detail resolved) {q : Request} {result : Except Fault Reply}
    (own : place ≤ resolved.length → ∀ line, q.line = some line → result = .error (.io detail)) :
    FailedFrom place detail (resolved ++ [⟨q, result⟩]) := by
  intro n x line later hx hl
  by_cases before : n < resolved.length
  · rw [List.getElem?_append_left before] at hx
    exact h n x line later hx hl
  · rw [List.getElem?_append_right (by omega)] at hx
    obtain ⟨bound, eq⟩ := List.getElem?_eq_some_iff.mp hx
    have last : x = ⟨q, result⟩ := by simpa using eq.symm
    rw [List.length_singleton] at bound
    rw [last] at hl ⊢
    exact own (by omega) line hl

/-- A relay `t` that goes on from `r`, whose REPL had left its input: it stays open, nothing is
written, and no line is in flight but the one that already was. -/
structure Outlives (detail : String) (r t : Relay) : Prop where
  input : t.input = .severed detail
  isOpen : t.closed = none
  mail : t.mailOpen = true
  written : t.written = r.written
  on : r.reached ≤ t.reached
  flying : ∀ q line, t.inFlight = some q → q.line = some line → t.resolved.length < r.reached
  failed : FailedFrom r.reached detail t.resolved

namespace Outlives

variable {detail : String} {r t : Relay}

theorem perform (h : Outlives detail r t) (idle : t.inFlight = none) (q : Request) :
    Outlives detail r (t.perform q) := by
  have on : r.reached ≤ t.resolved.length := by simpa [reached, idle] using h.on
  have settle : ∀ (held : Option Reply) (result : Except Fault Reply),
      (∀ line, q.line = some line → result = .error (.io detail)) →
        Outlives detail r ({ t with held }.resolve q result) := fun held result own =>
    { h with
      on := Nat.le_trans on (by simp [reached, resolve]; omega)
      flying := by simp [resolve, idle]
      failed := h.failed.append fun _ => own }
  cases hl : q.line with
  | some line =>
    have told : t.perform q = { t with held := none }.resolve q (.error (.io detail)) := by
      simp [Relay.perform, hl, send, h.input, InputEnd.refusal?, InputEnd.write]
    rw [told]
    exact settle none _ fun _ _ => rfl
  | none =>
    cases hh : t.held with
    | some reply =>
      have told : t.perform q = { t with held := none }.resolve q (.ok reply) := by
        simp [Relay.perform, hl, hh, h.input, InputEnd.refusal?]
      rw [told]
      exact settle none _ (by simp [hl])
    | none =>
      have waits : t.perform q = { t with inFlight := some q } := by
        simp [Relay.perform, hl, hh, h.input, InputEnd.refusal?]
      rw [waits]
      refine { h with on := Nat.le_trans on (by simp [reached]), flying := ?_ }
      intro p line flying hp
      cases Option.some.inj flying
      simp [hl] at hp

theorem dispatch (h : Outlives detail r t) : Outlives detail r t.dispatch := by
  obtain ⟨last, rest, eq, kept, _⟩ := dispatchFrom_induction (P := fun s _ => Outlives detail r s)
    (fun _ q _ idle kept => kept.perform idle q) (r := t) t.queue h
  rw [Relay.dispatch, eq]
  exact { kept with }

theorem absorb (h : Outlives detail r t) (chunk : List UInt8) : Outlives detail r (t.absorb chunk) := by
  simp only [Relay.absorb, complete]
  split
  next =>
    split
    next q hf =>
      have on : r.reached ≤ t.resolved.length + 1 := by simpa [reached, hf] using h.on
      refine { h with
        on := Nat.le_trans on (by simp [reached, resolve])
        flying := by simp [resolve]
        failed := ?_ }
      refine h.failed.append fun later line hl => ?_
      have early := h.flying q line hf hl
      omega
    next hf =>
      have on : r.reached ≤ t.resolved.length := by simpa [reached, hf] using h.on
      exact { h with on := Nat.le_trans on (by simp [reached]), flying := by simp }
  next => exact { h with }

theorem act (h : Outlives detail r t) {e : Event} (keeps : e.keepsEnds = true) :
    Outlives detail r (t.act e) := by
  cases e with
  | post line =>
    rcases accept_cases t line with eq | ⟨_, _, eq⟩ <;> simp only [Relay.act, eq]
    · exact h
    · exact { h with }
  | receive =>
    rcases receive_cases t with eq | ⟨_, q, rest, _, eq⟩ <;> simp only [Relay.act, eq]
    · exact h
    · exact dispatch { h with }
  | output chunk =>
    rcases output_cases t chunk with eq | eq | ⟨rest, eq⟩ <;> simp only [Relay.act, eq]
    · exact h
    · exact h.dispatch
    · have free : Outlives detail r { t with owesBlanks := false } := { h with }
      exact (free.absorb rest).dispatch
  | setMode mode => exact { h with }
  | turnInput input => cases keeps
  | announce reason => cases keeps
  | shut => simpa [Relay.act, shut, h.isOpen] using h
  | drain => simpa [Relay.act, drain, h.mail] using h

theorem after (h : Outlives detail r t) {events : List Event}
    (keep : ∀ e ∈ events, e.keepsEnds = true) : Outlives detail r (t.after events) := by
  induction events generalizing t with
  | nil => exact h
  | cons e later ih =>
    exact ih (h.act (keep e List.mem_cons_self)) fun e' mem => keep e' (List.mem_cons_of_mem e mem)

end Outlives

/-- The next line that is tried is refused by itself: the relay stays open for whoever is behind. -/
theorem Outlives.receive_line {detail : String} {r t : Relay} (h : Outlives detail r t) (busy : t.Busy)
    (idle : t.inFlight = none) {q : Request} {rest : List Request} (hm : t.mailbox = q :: rest)
    {line : String} (hl : q.line = some line) :
    t.receive.resolved = t.resolved ++ [⟨q, .error (.io detail)⟩] ∧ t.receive.closed = none ∧
      t.receive.mailbox = rest := by
  have told : t.receive =
      { t with
        mailbox := rest, queue := [], held := none
        resolved := t.resolved ++ [⟨q, .error (.io detail)⟩] } := by
    simp [receive, h.isOpen, hm, busy idle, Relay.dispatch, dispatchFrom, idle, Relay.perform, h.input,
      InputEnd.refusal?, hl, send, InputEnd.write, resolve]
  rw [told]
  exact ⟨rfl, h.isOpen, rfl⟩

/-- A REPL that leaves its input ends no session. However a run goes on while its output lasts, each
line that was not written before is refused with what its write told and with nothing else, and
requests are let in as before; only what still waits when the output ends, and what comes later, is
refused with the reason. -/
theorem failed_writes_end_no_session (before between more : List Event) (reason : String)
    {detail : String} (isOpen : ((start .pipe).after before).closed = none)
    (gone : ((start .pipe).after before).input = .severed detail)
    (keep : ∀ e ∈ between, e.keepsEnds = true) :
    let r := (start .pipe).after before
    let s := r.after between
    let t := s.after (.announce reason :: more)
    s.closed = none ∧ s.written = r.written ∧
      (∀ line : Option String, line.filter breaksLine = none →
        ∃ posted, s.submit line = .ok (posted, s.issued)) ∧
      (s.inFlight = none → s.queue = [] ∧
        ∀ (q : Request) (rest : List Request) (line : String), s.mailbox = q :: rest →
          q.line = some line →
            s.receive.resolved = s.resolved ++ [⟨q, .error (.io detail)⟩] ∧
              s.receive.closed = none ∧ s.receive.mailbox = rest) ∧
      (∀ (n : Nat) (x : Resolution) (line : String), r.reached ≤ n → t.resolved[n]? = some x →
        x.request.line = some line →
          (x.result = .error (.io detail) ∨ x.result = .error (.terminated reason)) ∧
            (x.result = .error (.terminated reason) ↔ s.resolved.length ≤ n)) ∧
      Ended s reason t := by
  intro r s t
  have fresh : Outlives detail r r :=
    { input := gone
      isOpen
      mail := after_mail .pipe before isOpen
      written := rfl
      on := Nat.le_refl _
      flying := fun q line flying _ => by simp [reached, flying]
      failed := fun n x _ later hx _ => by
        have bound := (List.getElem?_eq_some_iff.mp hx).1
        simp only [reached] at later
        omega }
  have outlives : Outlives detail r s := fresh.after keep
  have busy : s.Busy := by
    have all := after_busy .pipe (before ++ between)
    rwa [after_append] at all
  have ended : Ended s reason t := (announce_ended outlives.isOpen reason).after more
  refine ⟨outlives.isOpen, outlives.written, ?_, ?_, ?_, ended⟩
  · intro line unbroken
    exact ⟨_, by simp only [submit, refusal?, outlives.isOpen, unbroken, Option.map_none, post,
      outlives.mail, if_true]; rfl⟩
  · exact fun idle => ⟨busy idle, fun q rest line hm hl => outlives.receive_line busy idle hm hl⟩
  · intro n x line later hx hl
    by_cases told : s.resolved.length ≤ n
    · have refused := ended.refused told hx
      exact ⟨Or.inr refused, fun _ => told, fun _ => refused⟩
    · obtain ⟨_, settled⟩ := after_grows s (.announce reason :: more)
      have same : s.resolved[n]? = some x := by
        obtain ⟨rest, grown⟩ := settled
        rw [← hx, ← show s.resolved ++ rest = t.resolved from grown,
          List.getElem?_append_left (by omega)]
      have failed := outlives.failed n x line later same hl
      refine ⟨Or.inl failed, fun refused => ?_, fun waits => absurd waits told⟩
      cases failed.symm.trans refused

/-- The REPL leaves its input while a line and a flush wait, and a line behind them: the first is
refused at once, the others when the output ends. -/
theorem failed_write_before_flush :
    let s := (start .pipe).after [.turnInput (.severed "broken pipe"), .post (some "x = 1"),
      .post none, .post (some "y"), .receive, .receive, .receive]
    let t := s.after [.announce "output stream closed", .shut, .drain]
    s.closed = none ∧ s.resolved.length = 1 ∧
      (∀ x, t.resolved[0]? = some x → x.result ≠ .error (.terminated "output stream closed")) ∧
      ∀ x, t.resolved[2]? = some x → x.result = .error (.terminated "output stream closed") := by
  obtain ⟨isOpen, _, _, _, results, _⟩ := failed_writes_end_no_session
    [.turnInput (.severed "broken pipe"), .post (some "x = 1"), .post none, .post (some "y")]
    [.receive, .receive, .receive] [.shut, .drain] "output stream closed"
    rfl rfl (by decide)
  refine ⟨isOpen, rfl, fun x hx refused => ?_, fun x hx => ?_⟩
  · have told := (results 0 x "x = 1" (by decide) hx (by cases hx; rfl)).2.mp refused
    exact absurd told (by decide)
  · exact (results 2 x "y" (by decide) hx (by cases hx; rfl)).2.mpr (by decide)

/-- After a write that failed the relay is open, the request has a fault of its own, and the next
line is let in. -/
theorem failed_write_no_loss :
    ¬∀ (events : List Event) (detail line : String) (q : Request) (rest : List Request),
      let r := (start .pipe).after events
      r.closed = none → r.input = .severed detail → r.inFlight = none →
        r.mailbox = q :: rest → q.line = some line →
          ∃ reason, r.receive.closed = some reason ∧
            r.receive.resolved =
              r.resolved ++ (q :: rest).map (fun p => ⟨p, .error (.terminated reason)⟩) ∧
            ∀ later, r.receive.submit later = .error (.terminated reason) := by
  intro all
  obtain ⟨reason, closed, _⟩ := all [.turnInput (.severed "broken pipe"), .post (some "x")]
    "broken pipe" "x" ⟨0, some "x"⟩ [] rfl rfl rfl rfl rfl
  cases closed

end Relay

end PromptRelay
