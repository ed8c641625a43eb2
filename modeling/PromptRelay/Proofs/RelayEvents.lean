import PromptRelay.Relay

namespace PromptRelay

/-- The ways in which a request can be settled. -/
def Resolution.Regular (x : Resolution) : Prop :=
  match x.result with
  | .ok _ => True
  | .error (.io _) => True
  | .error .notInitialized => True
  | .error (.terminated _) => True
  | .error _ => False

namespace Relay

/-- What can happen to a relay. Closing comes in three moves, between which callers that were let in
before may still post. -/
inductive Event where
  | post (line : Option String)
  | receive
  | output (chunk : List UInt8)
  | setMode (mode : Mode)
  | turnInput (input : InputEnd)
  | announce (reason : String)
  | shut
  | drain

/-- The REPL's end of a pipe may change at any time; no pipe comes or goes. -/
def turnInput (r : Relay) (input : InputEnd) : Relay :=
  if r.input = .absent ∨ input = .absent then r else { r with input }

/-- A line with a break in it is never posted; anything else is once its caller was let in. -/
def accept (r : Relay) (line : Option String) : Relay :=
  match line.filter breaksLine, r.post line with
  | none, .ok (r, _) => r
  | _, _ => r

def act (r : Relay) : Event → Relay
  | .post line => r.accept line
  | .receive => r.receive
  | .output chunk => r.output chunk
  | .setMode mode => r.setMode mode
  | .turnInput input => r.turnInput input
  | .announce reason => r.announce reason
  | .shut => r.shut
  | .drain => r.drain

def after (r : Relay) (events : List Event) : Relay := events.foldl act r

theorem after_append (r : Relay) (first later : List Event) :
    r.after (first ++ later) = (r.after first).after later := List.foldl_append

theorem after_cons (r : Relay) (e : Event) (later : List Event) :
    r.after (e :: later) = (r.act e).after later := rfl

theorem after_induction {P : Relay → Prop} (step : ∀ r e, P r → P (r.act e)) {r : Relay}
    (events : List Event) (h : P r) : P (r.after events) := by
  induction events generalizing r with
  | nil => exact h
  | cons e later ih => exact ih (step r e h)

theorem write_fault_regular (input : InputEnd) {q : Request} {fault : Fault}
    (h : input.write.1 = some fault) : Resolution.Regular ⟨q, .error fault⟩ := by
  match input with
  | .pipe => simp [InputEnd.write] at h
  | .severed detail => cases Option.some.inj h; trivial
  | .wavering [] => simp [InputEnd.write] at h
  | .wavering (none :: rest) => simp [InputEnd.write] at h
  | .wavering (some detail :: rest) => cases Option.some.inj h; trivial
  | .absent => cases Option.some.inj h; trivial

theorem send_cases (r : Relay) (q : Request) (line : String) :
    (∃ input fault, r.send q line = { r with input }.resolve q (.error fault) ∧
      Resolution.Regular ⟨q, .error fault⟩) ∨
    (∃ input, r.send q line =
      { r with input, inFlight := some q, written := r.written ++ [line] }) := by
  unfold send
  split
  next fault input h => exact Or.inl ⟨input, fault, rfl, write_fault_regular r.input (by rw [h])⟩
  next input h => exact Or.inr ⟨input, rfl⟩

/-- A request that is acted on is settled at once, with no reply to a line, or goes in flight, its line
written if it has one and nothing held any more. -/
theorem perform_cases (r : Relay) (q : Request) :
    (∃ input held result, r.perform q = { r with input, held }.resolve q result ∧
      Resolution.Regular ⟨q, result⟩ ∧ (held = none ∨ held = r.held) ∧
        ((∃ fault, result = .error fault) ∨
          q.line = none ∧ held = none ∧ ∃ reply, r.held = some reply ∧ result = .ok reply)) ∨
    (∃ input, r.perform q =
      { r with input, held := none, inFlight := some q, written := r.written ++ q.line.toList }) := by
  cases refused : r.input.refusal? with
  | some fault =>
    refine Or.inl ⟨r.input, r.held, .error fault, by simp [perform, refused], ?_, Or.inr rfl,
      Or.inl ⟨fault, rfl⟩⟩
    cases hi : r.input <;> simp [InputEnd.refusal?, hi] at refused
    subst fault; trivial
  | none =>
    cases hl : q.line with
    | none =>
      cases hh : r.held with
      | some reply =>
        exact Or.inl ⟨r.input, none, .ok reply, by simp [perform, refused, hl, hh], trivial, Or.inl rfl,
          Or.inr ⟨rfl, rfl, reply, rfl, rfl⟩⟩
      | none => exact Or.inr ⟨r.input, by simp [perform, refused, hl, hh]⟩
    | some line =>
      have eq : r.perform q = { r with held := none }.send q line := by simp [perform, refused, hl]
      rcases send_cases { r with held := none } q line with ⟨input, fault, h, regular⟩ | ⟨input, h⟩
      · exact Or.inl ⟨input, none, .error fault, eq.trans h, regular, Or.inl rfl, Or.inl ⟨fault, rfl⟩⟩
      · exact Or.inr ⟨input, eq.trans h⟩

/-- What acting on one request keeps, dispatching keeps. -/
theorem dispatchFrom_induction {P : Relay → List Request → Prop}
    (one : ∀ r q rest, r.inFlight = none → P r (q :: rest) → P (r.perform q) rest) {r : Relay}
    (queue : List Request) (h : P r queue) :
    ∃ last rest, r.dispatchFrom queue = { last with queue := rest } ∧ P last rest ∧
      (rest ≠ [] → last.inFlight.isSome) := by
  induction queue generalizing r with
  | nil => exact ⟨r, [], rfl, h, by simp⟩
  | cons q rest ih =>
    by_cases busy : r.inFlight.isSome
    · exact ⟨r, q :: rest, by simp [dispatchFrom, busy], h, fun _ => busy⟩
    · have idle : r.inFlight = none := by simpa using busy
      obtain ⟨last, left, eq, kept, stop⟩ := ih (one r q rest idle h)
      exact ⟨last, left, by simpa [dispatchFrom, busy] using eq, kept, stop⟩

theorem receive_cases (r : Relay) :
    r.receive = r ∨ r.closed = none ∧ ∃ q rest, r.mailbox = q :: rest ∧
      r.receive = { r with mailbox := rest, queue := r.queue ++ [q] }.dispatch := by
  cases hc : r.closed with
  | some reason => exact Or.inl (by simp [receive, hc])
  | none =>
    cases hm : r.mailbox with
    | nil => exact Or.inl (by simp [receive, hc, hm])
    | cons q rest => exact Or.inr ⟨rfl, q, rest, rfl, by simp [receive, hc, hm]⟩

/-- A chunk is not read any more, is all owed blanks, or has something left to absorb. -/
theorem output_cases (r : Relay) (chunk : List UInt8) :
    r.output chunk = r ∨ r.output chunk = r.dispatch ∨
      ∃ rest, r.output chunk = ({ r with owesBlanks := false }.absorb rest).dispatch := by
  cases hc : r.closed with
  | some reason => exact Or.inl (by simp [output, hc])
  | none =>
    simp only [output, hc, Option.isSome_none, Bool.false_eq_true, if_false]
    generalize (if r.owesBlanks then chunk.dropWhile isOwedBlank else chunk) = rest
    cases rest with
    | nil => exact Or.inr (Or.inl rfl)
    | cons b rest => exact Or.inr (Or.inr ⟨b :: rest, rfl⟩)

/-- The reason is told or not, the mailbox open or not, and the mode is what it was. -/
structure SameSetting (r s : Relay) : Prop where
  closed : s.closed = r.closed
  mail : s.mailOpen = r.mailOpen
  mode : s.mode = r.mode

theorem SameSetting.trans {r s t : Relay} (first : SameSetting r s) (later : SameSetting s t) :
    SameSetting r t :=
  ⟨later.closed.trans first.closed, later.mail.trans first.mail, later.mode.trans first.mode⟩

theorem perform_sameSetting (r : Relay) (q : Request) : SameSetting r (r.perform q) := by
  rcases perform_cases r q with ⟨_, _, _, eq, _⟩ | ⟨_, eq⟩ <;> rw [eq] <;> exact ⟨rfl, rfl, rfl⟩

theorem dispatch_sameSetting (r : Relay) : SameSetting r r.dispatch := by
  obtain ⟨last, rest, eq, kept, _⟩ := dispatchFrom_induction (P := fun s _ => SameSetting r s)
    (fun s q _ _ h => h.trans (perform_sameSetting s q)) (r := r) r.queue ⟨rfl, rfl, rfl⟩
  rw [dispatch, eq]
  exact ⟨kept.closed, kept.mail, kept.mode⟩

theorem absorb_sameSetting (r : Relay) (chunk : List UInt8) : SameSetting r (r.absorb chunk) := by
  simp only [absorb, complete]
  split
  next => split <;> exact ⟨rfl, rfl, rfl⟩
  next => exact ⟨rfl, rfl, rfl⟩

theorem output_sameSetting (r : Relay) (chunk : List UInt8) : SameSetting r (r.output chunk) := by
  rcases output_cases r chunk with eq | eq | ⟨rest, eq⟩ <;> rw [eq]
  · exact ⟨rfl, rfl, rfl⟩
  · exact dispatch_sameSetting r
  · have absorbed := absorb_sameSetting { r with owesBlanks := false } rest
    exact SameSetting.trans ⟨absorbed.closed, absorbed.mail, absorbed.mode⟩ (dispatch_sameSetting _)

theorem receive_sameSetting (r : Relay) : SameSetting r r.receive := by
  rcases receive_cases r with eq | ⟨_, q, rest, _, eq⟩ <;> rw [eq]
  · exact ⟨rfl, rfl, rfl⟩
  · have same := dispatch_sameSetting { r with mailbox := rest, queue := r.queue ++ [q] }
    exact ⟨same.closed, same.mail, same.mode⟩

end Relay

end PromptRelay
