import PromptRelay.Proofs.Conversation

namespace PromptRelay.Relay

open LineBuffer (joinLines)

/-- A live relay on which nobody waits, and that has read what was printed so far, but for `tail`: between
two replies only the newline of the last prompt can be left. -/
structure Rests (r : Relay) (tail : List UInt8) : Prop where
  pipe : r.input = .pipe
  isOpen : r.closed = none
  mail : r.mailOpen = true
  nobody : r.outstanding = []
  position : ∃ kept, r.buffer = LineBuffer.empty.push kept ∧ (r.owesBlanks = true → kept = []) ∧
    Leftover (ahead r.owesBlanks kept tail)

/-- An answer is ahead whose prompt was not read to the end. -/
def Within (x : Printout) (owes : Bool) (kept unread : List UInt8) : Prop :=
  ∃ lines, Worn x.body lines ∧
    ahead owes kept unread = joinLines lines ++ x.prompt.bytes ++ promptTail x.space x.newline ∧
    ¬joinLines lines ++ x.prompt.bytes <+: kept

/-- A relay to which only commands are sent since it was at rest with so many requests resolved and lines
written, with a REPL that prints the next answer for each. The first `done` of them have their replies. -/
structure Heeds (answers : Nat → Printout) (first wrote : Nat) (tail : List UInt8) (r : Relay)
    (read : List UInt8) (done : Nat) : Prop where
  pipe : r.input = .pipe
  isOpen : r.closed = none
  mail : r.mailOpen = true
  commands : ∀ q ∈ r.outstanding, q.line ≠ none
  resolved : r.resolved.length = first + done
  written : r.written.length = wrote + done + r.inFlight.toList.length
  replies : ∀ n x, r.resolved[first + n]? = some x →
    ∃ reply, x.result = .ok reply ∧ (answers n).Fits reply
  position : ∃ kept unread,
    tail ++ transcript answers (done + r.inFlight.toList.length) = read ++ unread ∧
    r.buffer = LineBuffer.empty.push kept ∧ (r.owesBlanks = true → kept = []) ∧
    (r.inFlight = none → Leftover (ahead r.owesBlanks kept unread)) ∧
    (r.inFlight ≠ none → Within (answers done) r.owesBlanks kept unread)

variable {answers : Nat → Printout} {first wrote done : Nat} {tail read kept unread : List UInt8}
  {r : Relay} {x : Printout} {owes : Bool}

theorem Rests.heeds (h : r.Rests tail) (answers : Nat → Printout) :
    Heeds answers r.resolved.length r.written.length tail r [] 0 ∧ r.Busy := by
  have alone := h.nobody
  simp only [outstanding, List.append_eq_nil_iff, Option.toList_eq_nil_iff] at alone
  obtain ⟨⟨idle, queue⟩, _⟩ := alone
  obtain ⟨kept, buffer, clean, left⟩ := h.position
  refine ⟨⟨h.pipe, h.isOpen, h.mail, by simp [h.nobody], rfl, by simp [idle], fun n x hx => ?_, kept, tail,
    by simp [idle, transcript], buffer, clean, fun _ => left, fun busy => absurd idle busy⟩, fun _ => queue⟩
  have bound := (List.getElem?_eq_some_iff.mp hx).1
  omega

/-- The answer to a line that is written between two replies is all ahead. -/
theorem within_sent (x : Printout) (clean : owes = true → kept = [])
    (left : Leftover (ahead owes kept unread)) : Within x owes kept (unread ++ x.bytes) := by
  obtain ⟨lines, clipped, unclipped, sent⟩ := ahead_sent x left
  refine ⟨lines, ?_, sent, fun early => ?_⟩
  · by_cases blank : owes = true ∧ ahead owes kept unread = []
    · rw [clipped blank]
      cases x.body with
      | nil => exact .same []
      | cons line rest => exact .stripped line rest
    · rcases unclipped blank with same | led
      · exact same ▸ .same _
      · exact led ▸ .led _
  · -- At most the newline of the last prompt lies in the buffer; a prompt is longer.
    have few := kept_length_le clean left
    have most := early.length_le
    have two := x.prompt.two_le_bytes_length
    simp only [List.length_append] at most
    omega

theorem Within.unread_ne_nil (h : Within x owes kept unread) : unread ≠ [] := by
  rintro rfl
  obtain ⟨lines, _, eq, short⟩ := h
  cases owes with
  | true =>
    have two := x.prompt.two_le_bytes_length
    have lengths := congrArg List.length eq
    simp only [ahead, if_true, List.dropWhile_nil, List.length_nil, List.length_append] at lengths
    omega
  | false =>
    simp only [ahead, Bool.false_eq_true, if_false, List.append_nil] at eq
    exact short (eq ▸ List.prefix_append _ _)

/-- A whole view of an answer makes its reply, and owes blanks if nothing after its prompt was read. -/
theorem view_answer {lines : List (List UInt8)} (worn : Worn x.body lines) {space newline : Bool}
    (whole : kept = joinLines lines ++ x.prompt.bytes ++ promptTail space newline) :
    x.Fits (.ofLines (LineBuffer.empty.push kept).view) ∧
      mayOweBlanks (LineBuffer.empty.push kept).view = (promptTail space newline).isEmpty := by
  rw [whole, view_prompted (x.worn_plain worn)]
  exact ⟨x.fits_prompted worn space newline, mayOweBlanks_prompted _ x.prompt space newline⟩

namespace Heeds

/-- Dispatching writes the next command if nothing is in flight, and then its answer is ahead. -/
theorem dispatch (h : Heeds answers first wrote tail r read done) :
    Heeds answers first wrote tail r.dispatch read done ∧ r.dispatch.Busy := by
  cases hf : r.inFlight with
  | some q =>
    have same : r.dispatch = r := dispatchFrom_busy (by simp [hf]) r.queue
    rw [same]
    exact ⟨h, by simp [Busy, hf]⟩
  | none =>
    cases hq : r.queue with
    | nil =>
      rw [dispatch_nobody hq]
      exact ⟨h, fun _ => hq⟩
    | cons q rest =>
      obtain ⟨ticket, line⟩ := q
      obtain ⟨command, rfl⟩ : ∃ command, line = some command :=
        Option.ne_none_iff_exists'.mp (h.commands ⟨ticket, line⟩ (by simp [outstanding, hq]))
      obtain ⟨kept, unread, position, buffer, clean, idle, _⟩ := h.position
      have written := h.written
      simp only [hf, Option.toList_none, List.length_nil, Nat.add_zero] at written position
      rw [dispatch_line h.pipe hf hq]
      refine ⟨⟨h.pipe, h.isOpen, h.mail, fun q mem => h.commands q ?_, h.resolved, ?_, h.replies, kept,
        unread ++ (answers done).bytes, ?_, buffer, clean, by simp,
        fun _ => within_sent (answers done) clean (idle hf)⟩, by simp [Busy]⟩
      · simpa [outstanding, hf, hq] using mem
      · simp [written]
      · simp only [Option.toList_some, List.length_singleton, transcript_succ]
        rw [← List.append_assoc, position, List.append_assoc]

theorem receive (h : Heeds answers first wrote tail r read done) (busy : r.Busy) :
    Heeds answers first wrote tail r.receive read done ∧ r.receive.Busy := by
  unfold Relay.receive
  rw [if_neg (by simp [h.isOpen])]
  split
  next => exact ⟨h, busy⟩
  next q rest hm =>
    refine Heeds.dispatch { h with commands := fun q mem => h.commands q ?_ }
    simpa [outstanding, hm] using mem

theorem post (h : Heeds answers first wrote tail r read done) (command : String) :
    ∃ posted, r.post (some command) = .ok (posted, r.issued) ∧
      Heeds answers first wrote tail posted read done ∧ (r.Busy → posted.Busy) := by
  refine ⟨{ r with issued := r.issued + 1, mailbox := r.mailbox ++ [⟨r.issued, some command⟩] },
    by simp [Relay.post, h.mail], { h with commands := fun q mem => ?_ }, id⟩
  have split : q ∈ r.outstanding ∨ q = ⟨r.issued, some command⟩ := by
    simpa [outstanding, or_assoc] using mem
  rcases split with old | rfl
  · exact h.commands q old
  · exact Option.some_ne_none command

/-- A reply is complete: it goes to its request, and between two replies only a newline is left. -/
theorem complete (h : Heeds answers first wrote tail r read done) (busy : r.inFlight ≠ none)
    {lines : List (List UInt8)} (worn : Worn (answers done).body lines) {space newline : Bool}
    (whole : kept = joinLines lines ++ (answers done).prompt.bytes ++ promptTail space newline)
    (left : Leftover
      (if (promptTail space newline).isEmpty then unread.dropWhile isOwedBlank else unread))
    {read' : List UInt8} (position : tail ++ transcript answers (done + 1) = read' ++ unread) :
    Heeds answers first wrote tail (r.complete (LineBuffer.empty.push kept).view) read' (done + 1) := by
  obtain ⟨q, hf⟩ := Option.ne_none_iff_exists'.mp busy
  obtain ⟨fits, owes⟩ := view_answer worn whole
  generalize (LineBuffer.empty.push kept).view = view at fits owes
  have written := h.written
  simp only [hf, Option.toList_some, List.length_singleton] at written
  simp only [Relay.complete, hf]
  refine ⟨h.pipe, h.isOpen, h.mail, fun q' mem => h.commands q' ?_, ?_, ?_, fun n x hx => ?_, [], unread, ?_,
    rfl, fun _ => rfl, fun _ => ?_, by simp [resolve]⟩
  · simp only [resolve, outstanding, Option.toList_none, List.nil_append] at mem
    simp only [outstanding, List.append_assoc]
    exact List.mem_append_right _ mem
  · simp [resolve, h.resolved, Nat.add_assoc]
  · simp only [resolve, Option.toList_none, List.length_nil]
    omega
  · by_cases before : first + n < r.resolved.length
    · exact h.replies n x (by simpa [resolve, List.getElem?_append_left before] using hx)
    · have last : n = done := by
        have bound := (List.getElem?_eq_some_iff.mp hx).1
        simp only [resolve, List.length_append, List.length_singleton, h.resolved] at bound before
        omega
      subst last
      have own : x = ⟨q, .ok (.ofLines view)⟩ := by simpa [resolve, ← h.resolved] using hx.symm
      exact own ▸ ⟨_, rfl, fits⟩
  · simpa [resolve] using position
  · simpa [resolve, owes, ahead] using left

/-- Whatever is read of the answers, in any pieces, the relay keeps its place in them. -/
theorem output (h : Heeds answers first wrote tail r read done) (either : r.mode = .either)
    {chunk : List UInt8}
    (printed : read ++ chunk <+: tail ++ transcript answers (r.written.length - wrote)) :
    ∃ done, Heeds answers first wrote tail (r.output chunk) (read ++ chunk) done ∧
      (r.output chunk).Busy := by
  obtain ⟨kept, unread', position, buffer, clean, idle, busy⟩ := h.position
  have count : r.written.length - wrote = done + r.inFlight.toList.length := by
    have written := h.written
    omega
  obtain ⟨unread, rest⟩ := printed
  rw [count, position, List.append_assoc, List.append_cancel_left_eq] at rest
  subst rest
  rw [← List.append_assoc] at position
  by_cases ink : (if r.owesBlanks then chunk.dropWhile isOwedBlank else chunk) = []
  · have same := ahead_blank kept unread ink
    have skipped : r.output chunk = r.dispatch := by
      simp only [Relay.output, h.isOpen, ink]
      rfl
    rw [skipped]
    refine ⟨done, Heeds.dispatch { h with position := ⟨kept, unread, position, buffer, clean, ?_, ?_⟩ }⟩
    · rw [same]
      exact idle
    · unfold Within
      rw [same]
      exact busy
  · have same := ahead_read unread clean ink
    have taken : r.output chunk = ({ r with owesBlanks := false }.absorb
        (if r.owesBlanks then chunk.dropWhile isOwedBlank else chunk)).dispatch := by
      simp only [Relay.output, h.isOpen, List.isEmpty_iff, ink]
      rfl
    rw [taken]
    generalize (if r.owesBlanks then chunk.dropWhile isOwedBlank else chunk) = more at same
    simp only [← same] at idle
    rcases Option.eq_none_or_eq_some r.inFlight with hf | ⟨q, hf⟩
    · have left := idle hf
      rw [absorb_leftover buffer left]
      exact ⟨done, Heeds.dispatch { h with
        position := ⟨kept ++ more, unread, position, rfl, by simp, fun _ => left, by simp [hf]⟩ }⟩
    · have flying : r.inFlight ≠ none := by simp [hf]
      obtain ⟨lines, worn, eq, _⟩ := busy flying
      rcases absorb_answer (answers done) worn buffer (same.trans eq) (fun _ => by rw [either]; rfl) with
        ⟨short, keeps⟩ | ⟨space, newline, whole, _, left, completed⟩
      · rw [keeps]
        exact ⟨done, Heeds.dispatch { h with
          position := ⟨kept ++ more, unread, position, rfl, by simp, by simp [hf],
            fun _ => ⟨lines, worn, same.trans eq, short⟩⟩ }⟩
      · rw [completed]
        simp only [hf, Option.toList_some, List.length_singleton] at position
        exact ⟨done + 1, (h.complete flying worn whole left position).dispatch⟩

/-- When all that was printed was read, nobody waits. -/
theorem finished (h : Heeds answers first wrote tail r read done) (busy : r.Busy)
    (everything : tail ++ transcript answers (r.written.length - wrote) = read)
    (received : r.mailbox = []) : r.outstanding = [] := by
  obtain ⟨kept, unread, position, _, _, _, ahead⟩ := h.position
  have count : r.written.length - wrote = done + r.inFlight.toList.length := by
    have written := h.written
    omega
  rw [← count, everything] at position
  have idle : r.inFlight = none := by
    by_contra flying
    exact (ahead flying).unread_ne_nil (List.self_eq_append_right.mp position)
  simp [outstanding, idle, busy idle, received]

end Heeds

end PromptRelay.Relay
