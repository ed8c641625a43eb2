import PromptRelay.Proofs.SubmissionOrder
import PromptRelay.Proofs.Transcript

namespace PromptRelay

open LineBuffer (newline decodeLine pieces joinLines joinLines_cons)

namespace Relay

/-- What a relay still works on: the bytes in its buffer and those it has not read, without the
blanks that it is going to drop. -/
def ahead (owes : Bool) (kept unread : List UInt8) : List UInt8 :=
  if owes then unread.dropWhile isOwedBlank else kept ++ unread

/-- Between two replies only the newline of the last prompt can be left. -/
def Leftover (bytes : List UInt8) : Prop := bytes = [] ∨ bytes = [newline]

theorem kept_length_le {owes : Bool} {kept unread : List UInt8} (clean : owes = true → kept = [])
    (left : Leftover (ahead owes kept unread)) : kept.length ≤ 1 := by
  cases owes with
  | true => simp [clean rfl]
  | false =>
    have bound : (kept ++ unread).length ≤ 1 := by
      rcases left with eq | eq <;> simp [ahead] at eq <;> simp [eq]
    simp only [List.length_append] at bound
    omega

theorem ahead_read {owes : Bool} {kept chunk : List UInt8} (unread : List UInt8)
    (clean : owes = true → kept = [])
    (ink : (if owes then chunk.dropWhile isOwedBlank else chunk) ≠ []) :
    ahead false (kept ++ if owes then chunk.dropWhile isOwedBlank else chunk) unread =
      ahead owes kept (chunk ++ unread) := by
  cases owes with
  | false => simp [ahead]
  | true =>
    simp only [if_true] at ink
    simp [ahead, clean rfl, List.dropWhile_append, ink]

theorem ahead_blank {owes : Bool} {chunk : List UInt8} (kept unread : List UInt8)
    (blank : (if owes then chunk.dropWhile isOwedBlank else chunk) = []) :
    ahead owes kept unread = ahead owes kept (chunk ++ unread) := by
  cases owes with
  | false =>
    simp only [Bool.false_eq_true, if_false] at blank
    simp [blank]
  | true =>
    simp only [if_true] at blank
    simp [ahead, List.dropWhile_append, blank]

theorem dropWhile_line (line rest : List UInt8) :
    (line ++ newline :: rest).dropWhile isOwedBlank =
      line.dropWhile isOwedBlank ++ newline :: rest := by
  have stays : isOwedBlank newline = false := by decide
  rw [List.dropWhile_append]
  split
  next all =>
    rw [List.isEmpty_iff] at all
    simp [all, stays]
  next => rfl

theorem dropWhile_prompt (p : PromptForm) (rest : List UInt8) :
    (p.bytes ++ rest).dropWhile isOwedBlank = p.bytes ++ rest := by
  obtain ⟨c, more, head, ink⟩ := head_text p
  have value : (asciiByte c).toNat = c.toNat :=
    asciiByte_toNat (text_printable p c (head ▸ List.mem_cons_self)).2
  have stays : isOwedBlank (asciiByte c) = false := by
    refine Bool.eq_false_iff.mpr fun owed => ?_
    rcases Bool.or_eq_true_iff.mp owed with space | tab
    · rw [beq_iff_eq.mp space] at value
      simp [isBlank, ← value] at ink
    · rw [beq_iff_eq.mp tab] at value
      simp [isBlank, ← value] at ink
  rw [p.bytes_eq, head, List.map_cons, List.cons_append, List.dropWhile_cons_of_neg (by simp [stays])]

/-- The answer to a line that is written between two replies loses its first blanks exactly if the
last prompt owes some and none of them is left to come. -/
theorem ahead_sent (x : Printout) {owes : Bool} {kept unread : List UInt8}
    (left : Leftover (ahead owes kept unread)) :
    ∃ lines, (owes = true ∧ ahead owes kept unread = [] → lines = clipFirst x.body) ∧
      (¬(owes = true ∧ ahead owes kept unread = []) → lines = x.body ∨ lines = [] :: x.body) ∧
      ahead owes kept (unread ++ x.bytes) =
        joinLines lines ++ x.prompt.bytes ++ promptTail x.space x.newline := by
  cases owes with
  | false =>
    simp only [ahead, Bool.false_eq_true, if_false, ← List.append_assoc] at left ⊢
    rcases left with none | one
    · exact ⟨x.body, by simp, by simp, by simp [none, Printout.bytes, Printout.upToPrompt]⟩
    · exact ⟨[] :: x.body, by simp, by simp,
        by simp [one, Printout.bytes, Printout.upToPrompt, joinLines]⟩
  | true =>
    simp only [ahead, if_true] at left ⊢
    rw [List.dropWhile_append]
    rcases left with none | one
    · rw [none]
      simp only [List.isEmpty_nil, if_true, Printout.bytes, Printout.upToPrompt]
      refine ⟨clipFirst x.body, by simp, by simp, ?_⟩
      cases hb : x.body with
      | nil => simpa [clipFirst, joinLines] using dropWhile_prompt x.prompt (promptTail x.space x.newline)
      | cons line rest =>
        rw [List.append_assoc, joinLines_cons, dropWhile_line, List.append_assoc, clipFirst,
          joinLines_cons]
    · rw [one]
      exact ⟨[] :: x.body, by simp, by simp, by simp [Printout.bytes, Printout.upToPrompt, joinLines]⟩

/-- Where a relay is in what the REPL prints. While a request is in flight, its answer is ahead,
and its prompt was not read to the end. -/
structure Reads (printouts : Nat → Printout) (r : Relay) (chunks : List (List UInt8))
    (kept unread : List UInt8) : Prop where
  buffer : r.buffer = LineBuffer.empty.push kept
  clean : r.owesBlanks = true → kept = []
  idle : r.inFlight = none → Leftover (ahead r.owesBlanks kept unread) ∧
    (Clipped printouts chunks r.resolved.length ↔
      r.owesBlanks = true ∧ ahead r.owesBlanks kept unread = [])
  busy : ∀ q, r.inFlight = some q → ∃ lines, Lies printouts chunks q.ticket lines ∧
    ahead r.owesBlanks kept unread =
      joinLines lines ++ (printouts q.ticket).prompt.bytes ++
        promptTail (printouts q.ticket).space (printouts q.ticket).newline ∧
    ¬joinLines lines ++ (printouts q.ticket).prompt.bytes <+: kept

/-- What holds of a relay whose REPL answers each line it was written with the next printout, when
the output came in these chunks. -/
structure Listens (printouts : Nat → Printout) (r : Relay) (commands : List String)
    (chunks : List (List UInt8)) : Prop where
  pipe : r.input = .pipe
  isOpen : r.closed = none
  mail : r.mailOpen = true
  nothingHeld : r.held = none
  row : r.row = commands.mapIdx fun n command => ⟨n, some command⟩
  written : r.written = commands.take (r.resolved.length + r.inFlight.toList.length)
  passed : ∀ n < r.resolved.length, throughPrompt printouts n <+: chunks.flatten
  replies : ∀ (n : Nat) (x : Resolution), r.resolved[n]? = some x →
    Answered printouts chunks n x.result
  position : ∃ kept unread, transcript printouts r.written.length = chunks.flatten ++ unread ∧
    Reads printouts r chunks kept unread

variable {printouts : Nat → Printout} {r : Relay} {commands : List String}
  {chunks : List (List UInt8)}

theorem Listens.row_length (h : Listens printouts r commands chunks) :
    r.resolved.length + r.outstanding.length = commands.length := by
  have lengths := congrArg List.length h.row
  simpa [Relay.row] using lengths

theorem Listens.written_length (h : Listens printouts r commands chunks) :
    r.written.length = r.resolved.length + r.inFlight.toList.length := by
  have all := h.row_length
  simp only [outstanding, List.length_append] at all
  rw [h.written, List.length_take]
  omega

/-- The oldest request without a result is the one for the next command. -/
theorem Listens.oldest (h : Listens printouts r commands chunks) {q : Request} {rest : List Request}
    (waiting : r.outstanding = q :: rest) :
    ∃ command, q = ⟨r.resolved.length, some command⟩ ∧ commands[r.resolved.length]? = some command := by
  have here : r.row[r.resolved.length]? = some q := by
    simp [Relay.row, waiting]
  rw [h.row, List.getElem?_mapIdx] at here
  obtain ⟨command, hc, eq⟩ := Option.map_eq_some_iff.mp here
  exact ⟨command, eq.symm, hc⟩

theorem Listens.ticket_of_busy (h : Listens printouts r commands chunks) {q : Request}
    (busy : r.inFlight = some q) : q.ticket = r.resolved.length := by
  have waiting : r.outstanding = q :: (r.queue ++ r.mailbox) := by simp [outstanding, busy]
  obtain ⟨command, eq, _⟩ := h.oldest waiting
  rw [eq]

theorem dispatchFrom_busy (busy : r.inFlight.isSome = true) (queue : List Request) :
    r.dispatchFrom queue = { r with queue } := by
  cases queue with
  | nil => rfl
  | cons first rest => simp only [dispatchFrom, busy, if_true]

theorem dispatch_nobody (nobody : r.queue = []) : r.dispatch = r := by
  rw [dispatch, nobody, dispatchFrom, ← nobody]

theorem dispatch_line (pipe : r.input = .pipe) (idle : r.inFlight = none) {ticket : Nat}
    {command : String} {rest : List Request} (hq : r.queue = ⟨ticket, some command⟩ :: rest) :
    r.dispatch =
      { r with
        queue := rest, inFlight := some ⟨ticket, some command⟩, held := none
        written := r.written ++ [command] } := by
  have sent : r.perform ⟨ticket, some command⟩ =
      { r with
        inFlight := some ⟨ticket, some command⟩, held := none
        written := r.written ++ [command] } := by
    simp [perform, send, pipe, InputEnd.refusal?, InputEnd.write]
  rw [dispatch, hq, dispatchFrom, idle]
  simp only [Option.isSome_none, Bool.false_eq_true, if_false]
  rw [sent, dispatchFrom_busy rfl]

/-- A relay that does all it can: nobody waits in its queue while nothing is in flight. -/
def Busy (r : Relay) : Prop := r.inFlight = none → r.queue = []

/-- Dispatching writes the next command if nothing is in flight, and then its answer is ahead. -/
theorem Listens.dispatch (h : Listens printouts r commands chunks) :
    Listens printouts r.dispatch commands chunks ∧ r.dispatch.Busy := by
  cases hf : r.inFlight with
  | some q =>
    have same : r.dispatch = r := dispatchFrom_busy (by simp [hf]) r.queue
    rw [same]
    exact ⟨h, by simp [Busy, hf]⟩
  | none =>
    cases hq : r.queue with
    | nil =>
      rw [dispatch_nobody hq]
      exact ⟨h, fun _ => hq⟩
    | cons q rest =>
      have waiting : r.outstanding = q :: (rest ++ r.mailbox) := by simp [outstanding, hf, hq]
      obtain ⟨command, rfl, hc⟩ := h.oldest waiting
      have count : r.written.length = r.resolved.length := by
        simpa [hf] using h.written_length
      obtain ⟨kept, unread, position, reads⟩ := h.position
      obtain ⟨left, owed⟩ := reads.idle hf
      obtain ⟨lines, clipped, unclipped, sent⟩ := ahead_sent (printouts r.resolved.length) left
      have lies : Lies printouts chunks r.resolved.length lines :=
        ⟨fun clip => clipped (owed.mp clip), fun clip => unclipped fun blank => clip (owed.mpr blank)⟩
      rw [dispatch_line h.pipe hf hq]
      refine ⟨⟨h.pipe, h.isOpen, h.mail, rfl, ?_, ?_, h.passed, h.replies, kept,
        unread ++ (printouts r.resolved.length).bytes, ?_, reads.buffer, reads.clean, by simp, ?_⟩,
        by simp [Busy]⟩
      · rw [← h.row]
        simp [Relay.row, outstanding, hf, hq]
      · have written := h.written
        simp only [hf, Option.toList_none, List.length_nil, Nat.add_zero] at written
        simp only [written, Option.toList_some, List.length_singleton, List.take_add_one, hc]
      · rw [count] at position
        simp only [List.length_append, List.length_singleton, count, transcript_succ]
        rw [position, List.append_assoc]
      · intro q busy
        cases Option.some.inj busy
        refine ⟨lines, lies, sent, fun early => ?_⟩
        -- At most the newline of the last prompt lies in the buffer; a prompt is longer.
        have few := kept_length_le reads.clean left
        have most := early.length_le
        have two := (printouts r.resolved.length).prompt.two_le_bytes_length
        simp only [List.length_append] at most
        omega

/-- A chunk that completes no reply changes what is in the buffer at most. -/
theorem Listens.keepReading (h : Listens printouts r commands chunks) (buffer : LineBuffer)
    (owes : Bool) {kept unread chunk : List UInt8}
    (position : transcript printouts r.written.length = (chunks ++ [chunk]).flatten ++ unread)
    (reads : Reads printouts { r with buffer, owesBlanks := owes } (chunks ++ [chunk]) kept unread) :
    Listens printouts { r with buffer, owesBlanks := owes } commands (chunks ++ [chunk]) := by
  refine { h with
    passed := fun n hn => ?_, replies := fun n x hx => ?_
    position := ⟨kept, unread, position, reads⟩ }
  · rw [flatten_concat]
    exact (h.passed n hn).trans (List.prefix_append _ _)
  · have settled := (List.getElem?_eq_some_iff.mp hx).1
    exact (h.replies n x hx).concat h.passed settled.le chunk

/-- The mode admits the prompt of the request in flight, once that was read. -/
def Admits (printouts : Nat → Printout) (r : Relay) (read : List UInt8) : Prop :=
  ∀ q, r.inFlight = some q →
    transcript printouts q.ticket ++ (printouts q.ticket).upToPrompt <+: read →
      r.mode.admits (printouts q.ticket).prompt = true

theorem completes_leftover {kept unread : List UInt8} (mode : Mode) (left : Leftover (kept ++ unread)) :
    mode.completes (LineBuffer.empty.push kept).view = false := by
  have few : kept = [] ∨ kept = [newline] := by
    rcases left with none | one
    · exact Or.inl (List.append_eq_nil_iff.mp none).1
    · rcases List.append_eq_singleton_iff.mp one with ⟨eq, _⟩ | ⟨eq, _⟩
      · exact Or.inl eq
      · exact Or.inr eq
  rw [LineBuffer.view_push_empty]
  refine completes_eq_false mode fun line hl => ?_
  obtain ⟨piece, hp, rfl⟩ := List.mem_map.mp hl
  have blank : piece = [] := by
    rcases few with rfl | rfl
    · rw [LineBuffer.pieces_whole List.not_mem_nil] at hp
      exact List.mem_singleton.mp hp
    · have cut := LineBuffer.pieces_append_newline [] []
      rw [LineBuffer.pieces_whole List.not_mem_nil] at cut
      rw [show [newline] = [] ++ newline :: [] from rfl, cut] at hp
      simpa using hp
  rw [blank]
  decide

/-- What was read is short of the prompt, so no prompt is in it. -/
theorem completes_unfinished {lines : List (List UInt8)} {p : PromptForm}
    {kept unread tail : List UInt8} (mode : Mode) (plain : ∀ line ∈ lines, Plain line)
    (eq : kept ++ unread = joinLines lines ++ p.bytes ++ tail)
    (unfinished : ¬joinLines lines ++ p.bytes <+: kept) :
    mode.completes (LineBuffer.empty.push kept).view = false := by
  have inside : kept <+: joinLines lines ++ p.bytes := by
    have own : kept <+: kept ++ unread := List.prefix_append _ _
    rw [eq] at own
    rcases List.prefix_or_prefix_of_prefix own (List.prefix_append _ _) with short | long
    · exact short
    · exact absurd long unfinished
  have noPrompt := pieces_not_prompt plain inside fun same => unfinished (same ▸ List.prefix_rfl)
  rw [LineBuffer.view_push_empty]
  refine completes_eq_false mode fun line hl => ?_
  obtain ⟨piece, hp, rfl⟩ := List.mem_map.mp hl
  exact noPrompt piece hp

/-- Between two replies nothing that is read completes one. -/
theorem absorb_leftover {kept more unread : List UInt8} (buffer : r.buffer = LineBuffer.empty.push kept)
    (left : Leftover (kept ++ more ++ unread)) :
    { r with owesBlanks := false }.absorb more =
      { r with buffer := LineBuffer.empty.push (kept ++ more), owesBlanks := false } := by
  simp only [absorb, buffer, LineBuffer.push_push, completes_leftover r.mode left]
  rfl

/-- Reading a part of an answer completes nothing before its prompt was read. With the prompt the reply
is complete, and only a newline can be left. -/
theorem absorb_answer (x : Printout) {lines : List (List UInt8)} (worn : Worn x.body lines)
    {kept more unread : List UInt8} (buffer : r.buffer = LineBuffer.empty.push kept)
    (eq : kept ++ more ++ unread = joinLines lines ++ x.prompt.bytes ++ promptTail x.space x.newline)
    (admits : joinLines lines ++ x.prompt.bytes <+: kept ++ more → r.mode.admits x.prompt = true) :
    (¬joinLines lines ++ x.prompt.bytes <+: kept ++ more ∧
      { r with owesBlanks := false }.absorb more =
        { r with buffer := LineBuffer.empty.push (kept ++ more), owesBlanks := false }) ∨
    ∃ space newline, kept ++ more = joinLines lines ++ x.prompt.bytes ++ promptTail space newline ∧
      promptTail space newline ++ unread = promptTail x.space x.newline ∧
      Leftover (if (promptTail space newline).isEmpty then unread.dropWhile isOwedBlank else unread) ∧
      { r with owesBlanks := false }.absorb more =
        r.complete (LineBuffer.empty.push (kept ++ more)).view := by
  have plain := x.worn_plain worn
  simp only [absorb, buffer, LineBuffer.push_push]
  by_cases whole : joinLines lines ++ x.prompt.bytes <+: kept ++ more
  · obtain ⟨blanks, read⟩ := whole
    rw [← read, List.append_assoc, List.append_cancel_left_eq] at eq
    obtain ⟨space, newline, cut, debugOnly, left⟩ := promptTail_cut eq
    subst cut
    have completes := completes_promptedLines (admits ⟨_, read⟩) (lines.map decodeLine)
      (tailBlanks_blank space) fun n => x.debugOnly (debugOnly n)
    rw [← view_prompted plain, read] at completes
    rw [if_pos completes]
    exact .inr ⟨space, newline, read.symm, eq, left, rfl⟩
  · rw [completes_unfinished r.mode plain eq whole]
    exact .inl ⟨whole, rfl⟩

/-- All but the unread blanks after the prompt in flight was read. -/
theorem Listens.reached (h : Listens printouts r commands chunks) {q : Request}
    (busy : r.inFlight = some q) {bytes blanks unread : List UInt8}
    (position : transcript printouts r.written.length = bytes ++ unread)
    (tail : blanks ++ unread =
      promptTail (printouts q.ticket).space (printouts q.ticket).newline) :
    throughPrompt printouts q.ticket ++ blanks = bytes := by
  have count : r.written.length = q.ticket + 1 := by
    simp [h.written_length, busy, h.ticket_of_busy busy]
  rw [count, transcript_succ, Printout.bytes, ← tail] at position
  have both : throughPrompt printouts q.ticket ++ blanks ++ unread = bytes ++ unread := by
    rw [← position]
    simp only [throughPrompt, List.append_assoc]
  exact List.append_cancel_right both

/-- While a request is in flight, its prompt was not read to the end. -/
theorem Listens.unreached (h : Listens printouts r commands chunks) {q : Request}
    (busy : r.inFlight = some q) : ¬throughPrompt printouts q.ticket <+: chunks.flatten := by
  rintro ⟨blanks, read⟩
  obtain ⟨kept, unread, position, reads⟩ := h.position
  obtain ⟨lines, _, eq, short⟩ := reads.busy q busy
  have count : r.written.length = q.ticket + 1 := by
    simp [h.written_length, busy, h.ticket_of_busy busy]
  have tail : blanks ++ unread =
      promptTail (printouts q.ticket).space (printouts q.ticket).newline := by
    rw [count, transcript_succ, Printout.bytes, ← List.append_assoc, ← read] at position
    exact (List.append_cancel_left (position.trans (List.append_assoc _ _ _))).symm
  rw [← tail] at eq
  cases owes : r.owesBlanks with
  | true =>
    simp only [ahead, owes, if_true] at eq
    have two := (printouts q.ticket).prompt.two_le_bytes_length
    have fewer := (List.dropWhile_sublist isOwedBlank (l := unread)).length_le
    rw [eq] at fewer
    simp only [List.length_append] at fewer
    omega
  | false =>
    simp only [ahead, owes, Bool.false_eq_true, if_false, ← List.append_assoc] at eq
    exact short ⟨blanks, (List.append_cancel_right eq).symm⟩

/-- The reply is complete: it goes to its request, and between two replies only a newline is left. -/
theorem Listens.complete (h : Listens printouts r commands chunks) {q : Request}
    (busy : r.inFlight = some q) {kept unread chunk : List UInt8} {lines : List (List UInt8)}
    {space newline : Bool}
    (position : transcript printouts r.written.length = (chunks ++ [chunk]).flatten ++ unread)
    (lies : Lies printouts chunks q.ticket lines)
    (whole : kept = joinLines lines ++ (printouts q.ticket).prompt.bytes ++ promptTail space newline)
    (tail : promptTail space newline ++ unread =
      promptTail (printouts q.ticket).space (printouts q.ticket).newline)
    (left : Leftover (if (promptTail space newline).isEmpty then unread.dropWhile isOwedBlank else unread)) :
    Listens printouts (r.complete (LineBuffer.empty.push kept).view) commands (chunks ++ [chunk]) := by
  have ticket := h.ticket_of_busy busy
  have view : (LineBuffer.empty.push kept).view =
      promptedLines (lines.map decodeLine) (printouts q.ticket).prompt (tailBlanks space) newline := by
    rw [whole, view_prompted ((printouts q.ticket).worn_plain lies.worn)]
  have fits := (printouts q.ticket).fits_prompted lies.worn space newline
  have body := bodyOf_promptedLines (lines.map decodeLine) (printouts q.ticket).prompt
    (tailBlanks_blank space) newline
  have owes := mayOweBlanks_prompted (lines.map decodeLine) (printouts q.ticket).prompt space newline
  have reached := h.reached busy position tail
  have cut : Clipped printouts (chunks ++ [chunk]) (q.ticket + 1) ↔
      (printouts q.ticket).newline = false ∧ promptTail space newline = [] := by
    rw [Clipped, cutAfter_of_not_read (h.unreached busy), ← flatten_concat, ← reached]
    simp
  rw [← view] at fits owes body
  generalize (LineBuffer.empty.push kept).view = lines' at fits owes body
  simp only [Relay.complete, busy]
  refine ⟨h.pipe, h.isOpen, h.mail, h.nothingHeld, ?_, ?_, ?_, ?_, [], unread, position, rfl,
    fun _ => rfl, fun _ => ⟨?_, ?_⟩, by simp [resolve]⟩
  · rw [← h.row]
    simp [Relay.row, outstanding, resolve, busy]
  · have written := h.written
    simpa [resolve, busy] using written
  · intro n hn
    simp only [resolve, List.length_append, List.length_singleton] at hn
    by_cases before : n < r.resolved.length
    · rw [flatten_concat]
      exact (h.passed n before).trans (List.prefix_append _ _)
    · obtain rfl : n = q.ticket := by omega
      exact ⟨_, reached⟩
  · intro n x hx
    by_cases before : n < r.resolved.length
    · have old := h.replies n x (by simpa [resolve, List.getElem?_append_left before] using hx)
      exact old.concat h.passed before.le chunk
    · have last : n = q.ticket := by
        have bound := (List.getElem?_eq_some_iff.mp hx).1
        simp only [resolve, List.length_append, List.length_singleton] at bound
        omega
      subst last
      have own : x = ⟨q, .ok (.ofLines lines')⟩ := by simpa [resolve, ticket] using hx.symm
      subst own
      exact ⟨_, lines, rfl, fits, lies.concat h.passed ticket.le chunk, body⟩
  · simpa [resolve, owes, ahead] using left
  · -- Blanks are owed if nothing after the prompt was read, and then all of it is still to come.
    simp only [resolve, List.length_append, List.length_singleton, ← ticket, cut, owes,
      List.isEmpty_iff]
    rw [and_comm]
    refine and_congr_right fun none => ?_
    rw [none, List.nil_append] at tail
    rw [tail]
    simp [none, ahead, promptTail_dropWhile]

/-- Reading a part of the answer keeps the place in it, and reading its prompt makes the reply. -/
theorem Listens.absorb (h : Listens printouts r commands chunks) {kept more chunk unread : List UInt8}
    (position : transcript printouts r.written.length = (chunks ++ [chunk]).flatten ++ unread)
    (buffer : r.buffer = LineBuffer.empty.push kept)
    (idle : r.inFlight = none → Leftover (kept ++ more ++ unread) ∧
      ¬Clipped printouts (chunks ++ [chunk]) r.resolved.length)
    (busy : ∀ q, r.inFlight = some q → ∃ lines, Lies printouts chunks q.ticket lines ∧
      kept ++ more ++ unread = joinLines lines ++ (printouts q.ticket).prompt.bytes ++
        promptTail (printouts q.ticket).space (printouts q.ticket).newline)
    (admits : Admits printouts r (chunks ++ [chunk]).flatten) :
    Listens printouts ({ r with owesBlanks := false }.absorb more) commands (chunks ++ [chunk]) := by
  rcases Option.eq_none_or_eq_some r.inFlight with hf | ⟨q, hf⟩
  · obtain ⟨left, unclipped⟩ := idle hf
    rw [absorb_leftover buffer left]
    have reads : Reads printouts
        { r with buffer := LineBuffer.empty.push (kept ++ more), owesBlanks := false }
        (chunks ++ [chunk]) (kept ++ more) unread :=
      ⟨rfl, by simp, fun _ => ⟨left, by simp [unclipped]⟩, by simp [hf]⟩
    exact h.keepReading _ _ position reads
  obtain ⟨lines, lies, eq⟩ := busy q hf
  have allowed : joinLines lines ++ (printouts q.ticket).prompt.bytes <+: kept ++ more →
      r.mode.admits (printouts q.ticket).prompt = true := by
    rintro ⟨blanks, read⟩
    rw [← read, List.append_assoc, List.append_cancel_left_eq] at eq
    exact admits q hf ⟨_, h.reached hf position eq⟩
  rcases absorb_answer (printouts q.ticket) lies.worn buffer eq allowed with
    ⟨short, same⟩ | ⟨space, newline, whole, tail, left, completed⟩
  · have within : q.ticket ≤ r.resolved.length := (h.ticket_of_busy hf).le
    have reads : Reads printouts
        { r with buffer := LineBuffer.empty.push (kept ++ more), owesBlanks := false }
        (chunks ++ [chunk]) (kept ++ more) unread := by
      refine ⟨rfl, by simp, by simp [hf], fun q' busy' => ?_⟩
      cases Option.some.inj (hf.symm.trans busy')
      exact ⟨lines, lies.concat h.passed within chunk, eq, short⟩
    rw [same]
    exact h.keepReading _ _ position reads
  · rw [completed]
    exact h.complete hf position lies whole tail left

theorem Listens.output (h : Listens printouts r commands chunks) {chunk : List UInt8}
    (printed : chunks.flatten ++ chunk <+: transcript printouts r.written.length)
    (admits : Admits printouts r (chunks.flatten ++ chunk)) :
    Listens printouts (r.output chunk) commands (chunks ++ [chunk]) ∧ (r.output chunk).Busy := by
  obtain ⟨unread, hu⟩ := printed
  obtain ⟨kept, unread', position, reads⟩ := h.position
  have rest : unread' = chunk ++ unread := by
    rw [position, List.append_assoc] at hu
    exact (List.append_cancel_left hu).symm
  subst rest
  rw [← flatten_concat] at hu admits
  by_cases ink : (if r.owesBlanks then chunk.dropWhile isOwedBlank else chunk) = []
  · have same := ahead_blank kept unread ink
    have skipped : r.output chunk = r.dispatch := by
      simp only [Relay.output, h.isOpen, ink]
      rfl
    rw [skipped]
    refine Listens.dispatch (h.keepReading r.buffer r.owesBlanks hu.symm
      ⟨reads.buffer, reads.clean, fun idle => ?_, fun q busy => ?_⟩)
    · rw [clipped_concat h.passed le_rfl, same]
      exact reads.idle idle
    · obtain ⟨lines, lies, eq⟩ := reads.busy q busy
      rw [same]
      exact ⟨lines, lies.concat h.passed (h.ticket_of_busy busy).le chunk, eq⟩
  · have same := ahead_read unread reads.clean ink
    have taken : r.output chunk = ({ r with owesBlanks := false }.absorb
        (if r.owesBlanks then chunk.dropWhile isOwedBlank else chunk)).dispatch := by
      simp only [Relay.output, h.isOpen, List.isEmpty_iff, ink]
      rfl
    rw [taken]
    refine Listens.dispatch (h.absorb hu.symm reads.buffer ?_ ?_ admits)
    · intro idle
      obtain ⟨left, owed⟩ := reads.idle idle
      rw [← same] at left owed
      rw [clipped_concat h.passed le_rfl, owed]
      refine ⟨left, fun blank => ink ?_⟩
      have nothing := blank.2
      simp only [ahead, Bool.false_eq_true, if_false, List.append_eq_nil_iff] at nothing
      exact nothing.1.2
    · intro q busy
      obtain ⟨lines, lies, eq, _⟩ := reads.busy q busy
      exact ⟨lines, lies, same.trans eq⟩

theorem start_listens (printouts : Nat → Printout) :
    Listens printouts (start .pipe) [] [] ∧ (start .pipe).Busy := by
  refine ⟨⟨rfl, rfl, rfl, rfl, rfl, rfl, by simp [start], by simp [start], [], [], rfl, rfl,
    fun _ => rfl, fun _ => ⟨Or.inl rfl, by simp [start, Clipped]⟩, by simp [start]⟩, fun _ => rfl⟩

theorem Listens.receive (h : Listens printouts r commands chunks) (busy : r.Busy) :
    Listens printouts r.receive commands chunks ∧ r.receive.Busy := by
  unfold Relay.receive
  rw [if_neg (by simp [h.isOpen])]
  split
  next => exact ⟨h, busy⟩
  next q rest hm =>
    refine Listens.dispatch { h with row := ?_, position := ?_ }
    · rw [← h.row]
      simp [Relay.row, outstanding, hm]
    · obtain ⟨kept, unread, position, reads⟩ := h.position
      exact ⟨kept, unread, position, reads.buffer, reads.clean, reads.idle, reads.busy⟩

theorem Listens.setMode (h : Listens printouts r commands chunks) (mode : Mode) :
    Listens printouts (r.setMode mode) commands chunks := by
  obtain ⟨kept, unread, position, reads⟩ := h.position
  exact { h with position := ⟨kept, unread, position, reads.buffer, reads.clean, reads.idle, reads.busy⟩ }

theorem Listens.issued (h : Listens printouts r commands chunks) (orderly : r.Orderly) :
    r.issued = commands.length := by
  have tickets := congrArg List.length orderly.tickets
  rw [h.row] at tickets
  simpa using tickets.symm

theorem Listens.post (h : Listens printouts r commands chunks) (orderly : r.Orderly) (command : String) :
    ∃ posted, r.post (some command) = .ok (posted, commands.length) ∧
      Listens printouts posted (commands ++ [command]) chunks ∧ (r.Busy → posted.Busy) := by
  have all := h.row_length
  refine ⟨{ r with issued := r.issued + 1, mailbox := r.mailbox ++ [⟨r.issued, some command⟩] },
    by simp [Relay.post, h.mail, h.issued orderly], ?_, id⟩
  refine ⟨h.pipe, h.isOpen, h.mail, h.nothingHeld, ?_, ?_, h.passed, h.replies, ?_⟩
  · rw [List.mapIdx_append, ← h.row]
    simp [Relay.row, outstanding, h.issued orderly]
  · have within : r.resolved.length + r.inFlight.toList.length ≤ commands.length := by
      simp only [outstanding, List.length_append] at all
      omega
    have written := h.written
    simpa [List.take_append_of_le_length within] using written
  · obtain ⟨kept, unread, position, reads⟩ := h.position
    exact ⟨kept, unread, position, reads.buffer, reads.clean, reads.idle, reads.busy⟩

theorem Listens.finished (h : Listens printouts r commands chunks) (busy : r.Busy)
    (everything : transcript printouts r.written.length = chunks.flatten) (received : r.mailbox = []) :
    r.outstanding = [] := by
  obtain ⟨kept, unread, position, reads⟩ := h.position
  have none : unread = [] := by
    rw [everything] at position
    exact List.self_eq_append_right.mp position
  subst none
  have idle : r.inFlight = none := by
    rcases Option.eq_none_or_eq_some r.inFlight with hf | ⟨q, hf⟩
    · exact hf
    · obtain ⟨lines, _, eq, unread⟩ := reads.busy q hf
      refine absurd ?_ unread
      cases owes : r.owesBlanks with
      | true =>
        have two := (printouts q.ticket).prompt.two_le_bytes_length
        have lengths := congrArg List.length eq
        simp only [ahead, owes, if_true, List.dropWhile_nil, List.length_nil, List.length_append] at lengths
        omega
      | false =>
        simp only [ahead, owes, Bool.false_eq_true, if_false, List.append_nil] at eq
        rw [eq]
        exact List.prefix_append _ _
  simp [outstanding, idle, busy idle, received]

/-- The same, told by the bytes that were read, however they came in chunks. -/
def Talks (printouts : Nat → Printout) (r : Relay) (commands : List String) (read : List UInt8) :
    Prop :=
  ∃ chunks, chunks.flatten = read ∧ Listens printouts r commands chunks

theorem start_talks (printouts : Nat → Printout) :
    Talks printouts (start .pipe) [] [] ∧ (start .pipe).Busy :=
  ⟨⟨[], rfl, (start_listens printouts).1⟩, (start_listens printouts).2⟩

variable {read : List UInt8}

theorem Talks.isOpen (h : Talks printouts r commands read) : r.closed = none := by
  obtain ⟨_, _, listens⟩ := h
  exact listens.isOpen

theorem Talks.row_length (h : Talks printouts r commands read) :
    r.resolved.length + r.outstanding.length = commands.length := by
  obtain ⟨_, _, listens⟩ := h
  exact listens.row_length

theorem Talks.written (h : Talks printouts r commands read) :
    r.written = commands.take (r.resolved.length + r.inFlight.toList.length) := by
  obtain ⟨_, _, listens⟩ := h
  exact listens.written

theorem Talks.written_length (h : Talks printouts r commands read) :
    r.written.length = r.resolved.length + r.inFlight.toList.length := by
  obtain ⟨_, _, listens⟩ := h
  exact listens.written_length

theorem Talks.replies (h : Talks printouts r commands read) (n : Nat) (x : Resolution)
    (hx : r.resolved[n]? = some x) : ∃ reply, x.result = .ok reply ∧ (printouts n).Fits reply := by
  obtain ⟨_, _, listens⟩ := h
  obtain ⟨reply, _, ok, fits, _⟩ := listens.replies n x hx
  exact ⟨reply, ok, fits⟩

theorem Talks.receive (h : Talks printouts r commands read) (busy : r.Busy) :
    Talks printouts r.receive commands read ∧ r.receive.Busy := by
  obtain ⟨chunks, flat, listens⟩ := h
  obtain ⟨received, still⟩ := listens.receive busy
  exact ⟨⟨chunks, flat, received⟩, still⟩

theorem Talks.setMode (h : Talks printouts r commands read) (mode : Mode) :
    Talks printouts (r.setMode mode) commands read := by
  obtain ⟨chunks, flat, listens⟩ := h
  exact ⟨chunks, flat, listens.setMode mode⟩

theorem Talks.output (h : Talks printouts r commands read) {chunk : List UInt8}
    (printed : read ++ chunk <+: transcript printouts r.written.length)
    (admits : Admits printouts r (read ++ chunk)) :
    Talks printouts (r.output chunk) commands (read ++ chunk) ∧ (r.output chunk).Busy := by
  obtain ⟨chunks, rfl, listens⟩ := h
  obtain ⟨taken, still⟩ := listens.output printed admits
  exact ⟨⟨chunks ++ [chunk], flatten_concat chunks chunk, taken⟩, still⟩

theorem Talks.post (h : Talks printouts r commands read) (orderly : r.Orderly) (command : String) :
    ∃ posted, r.post (some command) = .ok (posted, commands.length) ∧
      Talks printouts posted (commands ++ [command]) read ∧ (r.Busy → posted.Busy) := by
  obtain ⟨chunks, flat, listens⟩ := h
  obtain ⟨posted, accepted, listens, busy⟩ := listens.post orderly command
  exact ⟨posted, accepted, ⟨chunks, flat, listens⟩, busy⟩

theorem Talks.finished (h : Talks printouts r commands read) (busy : r.Busy)
    (everything : transcript printouts r.written.length = read) (received : r.mailbox = []) :
    r.outstanding = [] := by
  obtain ⟨_, rfl, listens⟩ := h
  exact listens.finished busy everything received

end Relay

end PromptRelay
