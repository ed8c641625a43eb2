import PromptRelay.Proofs.OneInFlight

namespace PromptRelay

open LineBuffer (pieces decodeLine push_push view_push_empty)
open Relay (isOwedBlank mayOweBlanks)

/-- A reply at the moment when its last chunk made it whole: the mode then, and its lines. -/
structure Completion where
  mode : Mode
  lines : List String

/-- The bytes of a reply, and the blanks behind its prompt that were dropped. -/
structure Portion where
  text : List UInt8
  blanks : List UInt8

namespace Portion

def bytes (p : Portion) : List UInt8 := p.text ++ p.blanks

def lines (p : Portion) : List String := (pieces p.text).map decodeLine

/-- Only spaces and tabs are dropped, and only behind a last line that ends in something else than
white space. -/
structure WellCut (p : Portion) : Prop where
  blanks : ∀ b ∈ p.blanks, isOwedBlank b = true
  owed : p.blanks ≠ [] → mayOweBlanks p.lines = true

theorem WellCut.last_ink {p : Portion} (h : p.WellCut) (dropped : p.blanks ≠ []) :
    ∃ c, (decodeLine ((pieces p.text).getLastD [])).toList.getLast? = some c ∧ isBlank c = false := by
  have owed := h.owed dropped
  obtain ⟨init, last, cut⟩ := LineBuffer.pieces_eq_concat p.text
  simp only [mayOweBlanks, lines, cut, List.map_append, List.map_singleton, List.getLastD_concat] at owed ⊢
  cases ends : (decodeLine last).toList.getLast? with
  | none => simp [ends] at owed
  | some c => exact ⟨c, rfl, by simpa [ends] using owed⟩

end Portion

/-- Bytes that are the portions of whole replies, and what came behind them. -/
structure Divides (bytes : List UInt8) (replies : List Completion) (portions : List Portion)
    (rest : List UInt8) : Prop where
  bytes : bytes = portions.flatMap Portion.bytes ++ rest
  lines : replies.map (·.lines) = portions.map Portion.lines
  wellCut : ∀ p ∈ portions, p.WellCut

/-- Once the bytes behind the last reply make one themselves, they are its portion. -/
theorem Divides.complete {bytes rest : List UInt8} {replies : List Completion}
    {portions : List Portion} (h : Divides bytes replies portions rest) (mode : Mode) :
    Divides bytes (replies ++ [⟨mode, (pieces rest).map decodeLine⟩]) (portions ++ [⟨rest, []⟩]) [] where
  bytes := by simp [h.bytes, Portion.bytes]
  lines := by simp [h.lines, Portion.lines]
  wellCut := by
    intro p mem
    rcases List.mem_append.mp mem with old | new
    · exact h.wellCut p old
    · rw [List.mem_singleton.mp new]
      exact ⟨by simp, by simp⟩

namespace Relay

/-- The reply that an event makes whole, if it does. -/
def completion? (r : Relay) : Event → Option Completion
  | .output chunk =>
    let lines := (r.buffer.push (r.unowed chunk)).view
    if r.closed = none ∧ r.unowed chunk ≠ [] ∧ r.mode.completes lines = true then
      some ⟨r.mode, lines⟩
    else none
  | _ => none

/-- The bytes of output that are read in an event: none once the end of the output was told. -/
def bytesRead (r : Relay) : Event → List UInt8
  | .output chunk => if r.closed = none then chunk else []
  | _ => []

def completions (r : Relay) : List Event → List Completion
  | [] => []
  | e :: later => (r.completion? e).toList ++ completions (r.act e) later

def received (r : Relay) : List Event → List UInt8
  | [] => []
  | e :: later => r.bytesRead e ++ received (r.act e) later

/-- The bytes of a chunk make a reply whole exactly if `completion?` tells one. -/
theorem output_completion {r : Relay} (isOpen : r.closed = none) {chunk : List UInt8}
    (ink : r.unowed chunk ≠ []) :
    let fuller := { r with owesBlanks := false, buffer := r.buffer.push (r.unowed chunk) }
    (r.completion? (.output chunk) = some ⟨r.mode, fuller.buffer.view⟩ ∧
        r.output chunk = (fuller.complete fuller.buffer.view).dispatch) ∨
      (r.completion? (.output chunk) = none ∧ r.output chunk = fuller.dispatch) := by
  rcases output_read isOpen ink with ⟨whole, eq⟩ | ⟨part, eq⟩
  · refine Or.inl ⟨?_, eq⟩
    simp only [completion?, isOpen, whole, ne_eq, ink, not_false_eq_true, and_self, if_true]
  · refine Or.inr ⟨?_, eq⟩
    simp only [completion?, part, Bool.false_eq_true, and_false, if_false]

/-- A chunk after the end of the output was told is not read. -/
theorem output_late {r : Relay} (ended : r.closed ≠ none) (chunk : List UInt8) :
    r.act (.output chunk) = r ∧ r.completion? (.output chunk) = none ∧
      r.bytesRead (.output chunk) = [] := by
  have told : r.closed.isSome = true := Option.isSome_iff_ne_none.mpr ended
  refine ⟨by rw [act, output, if_pos told], ?_, by rw [bytesRead, if_neg ended]⟩
  simp only [completion?, ended, false_and, if_false]

theorem completions_concat (r : Relay) (events : List Event) (e : Event) :
    r.completions (events ++ [e]) = r.completions events ++ ((r.after events).completion? e).toList := by
  induction events generalizing r with
  | nil => simp [completions, after]
  | cons first later ih => simp only [List.cons_append, completions, ih, after_cons, List.append_assoc]

theorem received_concat (r : Relay) (events : List Event) (e : Event) :
    r.received (events ++ [e]) = r.received events ++ (r.after events).bytesRead e := by
  induction events generalizing r with
  | nil => simp [received, after]
  | cons first later ih => simp only [List.cons_append, received, ih, after_cons, List.append_assoc]

theorem completes_of_completion? {r : Relay} {e : Event} {c : Completion} (h : r.completion? e = some c) :
    c.mode.completes c.lines = true := by
  cases e with
  | output chunk =>
    simp only [completion?] at h
    split at h
    next whole =>
      cases h
      exact whole.2.2
    next => cases h
  | _ => cases h

theorem completes_of_completions {r : Relay} {events : List Event} {c : Completion}
    (h : c ∈ r.completions events) : c.mode.completes c.lines = true := by
  induction events generalizing r with
  | nil => cases h
  | cons e later ih =>
    rcases List.mem_append.mp h with now | after
    · exact completes_of_completion? (Option.mem_toList.mp now)
    · exact ih after

/-- Only a chunk changes what is read of the output, while the relay stays open. -/
theorem act_sameReading {r : Relay} {e : Event} (silent : ∀ chunk, e ≠ .output chunk)
    (stays : (r.act e).closed = none) : SameReading r (r.act e) := by
  cases e with
  | post line =>
    rcases accept_cases r line with eq | ⟨_, _, eq⟩ <;> rw [act, eq] <;> exact ⟨rfl, rfl⟩
  | receive =>
    rcases receive_cases r with eq | ⟨_, q, rest, _, eq⟩ <;> rw [act, eq]
    · exact ⟨rfl, rfl⟩
    · have same := dispatch_sameReading { r with mailbox := rest, queue := r.queue ++ [q] }
      exact ⟨same.buffer, same.owes⟩
  | output chunk => exact absurd rfl (silent chunk)
  | setMode mode => exact ⟨rfl, rfl⟩
  | turnInput input =>
    simp only [act, turnInput]
    split <;> exact ⟨rfl, rfl⟩
  | announce reason =>
    cases hc : r.closed <;> simp [act, announce, hc] at stays
  | shut =>
    simp only [act, shut]
    split <;> exact ⟨rfl, rfl⟩
  | drain =>
    simp only [act, drain]
    split <;> exact ⟨rfl, rfl⟩

/-- Where a relay is in its output: the portions of the replies that it completed lie behind it, and
the bytes after them are in its buffer. Blanks are owed to the last portion. -/
structure Divided (r : Relay) (bytes : List UInt8) (replies : List Completion)
    (portions : List Portion) (rest : List UInt8) : Prop extends
    Divides bytes replies portions rest where
  buffer : r.closed = none → r.buffer = LineBuffer.empty.push rest
  owed : r.closed = none → r.owesBlanks = true → rest = [] ∧
    ∃ init p, portions = init ++ [p] ∧ mayOweBlanks p.lines = true

namespace Divided

variable {r : Relay} {bytes rest : List UInt8} {replies : List Completion} {portions : List Portion}

theorem of_sameReading {s : Relay} (h : Divided r bytes replies portions rest)
    (same : s.closed = none → r.closed = none ∧ SameReading r s) :
    Divided s bytes replies portions rest := by
  refine ⟨h.toDivides, fun isOpen => ?_, fun isOpen owed => ?_⟩
  · obtain ⟨before, reading⟩ := same isOpen
    exact reading.buffer.trans (h.buffer before)
  · obtain ⟨before, reading⟩ := same isOpen
    exact h.owed before (reading.owes.symm.trans owed)

theorem dispatch (h : Divided r bytes replies portions rest) :
    Divided r.dispatch bytes replies portions rest :=
  h.of_sameReading fun isOpen =>
    ⟨(dispatch_sameSetting r).closed.symm.trans isOpen, dispatch_sameReading r⟩

/-- The owed blanks at the start of a chunk go to the last portion. -/
theorem chunk_divides (h : Divided r bytes replies portions rest) (isOpen : r.closed = none)
    (chunk : List UInt8) :
    ∃ portions', Divides (bytes ++ chunk) replies portions' (rest ++ r.unowed chunk) ∧
      (r.owesBlanks = true → rest = [] ∧
        ∃ init p, portions' = init ++ [p] ∧ mayOweBlanks p.lines = true) := by
  by_cases owes : r.owesBlanks = true
  · obtain ⟨rfl, init, p, rfl, owed⟩ := h.owed isOpen owes
    let grown : Portion := ⟨p.text, p.blanks ++ chunk.takeWhile isOwedBlank⟩
    have own : p.WellCut := h.wellCut p (List.mem_append_right _ (List.mem_singleton_self p))
    have split : chunk.takeWhile isOwedBlank ++ r.unowed chunk = chunk := by
      rw [unowed, if_pos owes, List.takeWhile_append_dropWhile]
    refine ⟨init ++ [grown], ⟨?_, ?_, ?_⟩, fun _ => ⟨rfl, init, grown, rfl, owed⟩⟩
    · calc bytes ++ chunk
          = bytes ++ (chunk.takeWhile isOwedBlank ++ r.unowed chunk) := by rw [split]
        _ = (init ++ [grown]).flatMap Portion.bytes ++ ([] ++ r.unowed chunk) := by
          rw [h.bytes]
          simp [grown, Portion.bytes]
    · simpa [grown, Portion.lines] using h.lines
    · intro q mem
      rcases List.mem_append.mp mem with old | new
      · exact h.wellCut q (List.mem_append_left _ old)
      · rw [List.mem_singleton.mp new]
        refine ⟨fun b mem => ?_, fun _ => owed⟩
        rcases List.mem_append.mp mem with old | new
        · exact own.blanks b old
        · exact List.mem_takeWhile_imp new
  · have all : r.unowed chunk = chunk := by rw [unowed, if_neg owes]
    refine ⟨portions, ⟨?_, h.lines, h.wellCut⟩, fun owed => absurd owed owes⟩
    rw [all, h.bytes, List.append_assoc]

theorem output (h : Divided r bytes replies portions rest) (isOpen : r.closed = none)
    (chunk : List UInt8) :
    ∃ portions' rest', Divided (r.output chunk) (bytes ++ chunk)
      (replies ++ (r.completion? (.output chunk)).toList) portions' rest' := by
  obtain ⟨portions', divides, owed⟩ := h.chunk_divides isOpen chunk
  by_cases spent : r.unowed chunk = []
  · have part : r.completion? (.output chunk) = none := by simp [completion?, spent]
    rw [output_spent isOpen spent, part, Option.toList_none, List.append_nil]
    rw [spent, List.append_nil] at divides
    exact ⟨portions', rest, dispatch ⟨divides, h.buffer, fun _ => owed⟩⟩
  · have grown : r.buffer.push (r.unowed chunk) = LineBuffer.empty.push (rest ++ r.unowed chunk) := by
      rw [h.buffer isOpen, push_push]
    have view : (r.buffer.push (r.unowed chunk)).view =
        (pieces (rest ++ r.unowed chunk)).map decodeLine := by
      rw [grown, view_push_empty]
    rcases output_completion isOpen spent with ⟨now, eq⟩ | ⟨none, eq⟩
    · rw [eq, now, view]
      refine ⟨_, [], dispatch ⟨divides.complete r.mode, ?_, ?_⟩⟩
      · intro _
        unfold complete
        split <;> rfl
      · intro _ owes
        refine ⟨rfl, portions', ⟨rest ++ r.unowed chunk, []⟩, rfl, ?_⟩
        unfold complete at owes
        split at owes <;> exact owes
    · rw [eq, none, Option.toList_none, List.append_nil]
      exact ⟨portions', rest ++ r.unowed chunk,
        dispatch ⟨divides, fun _ => grown, fun _ owes => by cases owes⟩⟩

theorem act (h : Divided r bytes replies portions rest) (e : Event) :
    ∃ portions' rest', Divided (r.act e) (bytes ++ r.bytesRead e)
      (replies ++ (r.completion? e).toList) portions' rest' := by
  by_cases silent : ∀ chunk, e ≠ .output chunk
  · have nothing : r.bytesRead e = [] ∧ r.completion? e = none := by
      cases e with
      | output chunk => exact absurd rfl (silent chunk)
      | _ => exact ⟨rfl, rfl⟩
    rw [nothing.1, nothing.2, Option.toList_none, List.append_nil, List.append_nil]
    exact ⟨portions, rest, h.of_sameReading fun stays =>
      ⟨isOpen_before stays, act_sameReading silent stays⟩⟩
  · obtain ⟨chunk, rfl⟩ : ∃ chunk, e = .output chunk := by simpa using silent
    by_cases isOpen : r.closed = none
    · rw [bytesRead, if_pos isOpen]
      exact h.output isOpen chunk
    · obtain ⟨same, none, nothing⟩ := output_late isOpen chunk
      rw [same, none, nothing, Option.toList_none, List.append_nil, List.append_nil]
      exact ⟨portions, rest, h⟩

end Divided

theorem after_divided (input : InputEnd) (events : List Event) :
    ∃ portions rest, Divided ((start input).after events) ((start input).received events)
      ((start input).completions events) portions rest := by
  induction events using List.reverseRecOn with
  | nil => exact ⟨[], [], ⟨rfl, rfl, by simp⟩, fun _ => rfl, fun _ owes => by cases owes⟩
  | append_singleton events e ih =>
    obtain ⟨portions, rest, divided⟩ := ih
    rw [after_append, received_concat, completions_concat]
    exact divided.act e

/-- The replies that requests were given, and the one that lies unclaimed. -/
def replies (r : Relay) : List Reply := r.resolved.filterMap (·.result.toOption) ++ r.held.toList

theorem perform_replies (r : Relay) (q : Request) : (r.perform q).replies.Sublist r.replies := by
  rcases perform_cases r q with ⟨input, held, result, eq, _, unclaimed, settled⟩ | ⟨input, eq⟩ <;> rw [eq]
  · rcases settled with ⟨fault, rfl⟩ | ⟨_, rfl, reply, lay, rfl⟩
    · have failed : (Except.error fault : Except Fault Reply).toOption = none := rfl
      have kept : held.toList.Sublist r.held.toList := by
        rcases unclaimed with rfl | rfl
        · exact List.nil_sublist _
        · exact List.Sublist.refl _
      simpa [replies, resolve, failed] using kept
    · have given : (Except.ok reply : Except Fault Reply).toOption = some reply := rfl
      simp [replies, resolve, given, lay]
  · simp [replies]

theorem dispatch_replies (r : Relay) : r.dispatch.replies.Sublist r.replies := by
  obtain ⟨last, rest, eq, kept, _⟩ :=
    dispatchFrom_induction (P := fun s _ => s.replies.Sublist r.replies)
      (fun s q _ _ h => (perform_replies s q).trans h) (r := r) r.queue (List.Sublist.refl _)
  rw [dispatch, eq]
  exact kept

/-- A reply comes last: none lies unclaimed while a request is in flight. -/
theorem complete_replies {r : Relay} (exclusive : Exclusive r) (view : List String) :
    (r.complete view).replies.Sublist (r.replies ++ [.ofLines view]) := by
  unfold complete
  cases flying : r.inFlight with
  | some q =>
    have unclaimed := exclusive.unheld (by simp [flying])
    have given : (Except.ok (Reply.ofLines view) : Except Fault Reply).toOption = some (.ofLines view) := rfl
    simp [replies, resolve, unclaimed, given]
  | none => simp [replies]

theorem output_replies {r : Relay} (exclusive : Exclusive r) (isOpen : r.closed = none)
    (chunk : List UInt8) :
    (r.output chunk).replies.Sublist
      (r.replies ++ (r.completion? (.output chunk)).toList.map (.ofLines ·.lines)) := by
  by_cases spent : r.unowed chunk = []
  · rw [output_spent isOpen spent]
    exact (dispatch_replies r).trans (List.sublist_append_left _ _)
  · rcases output_completion isOpen spent with ⟨now, eq⟩ | ⟨_, eq⟩
    · rw [eq, now]
      exact (dispatch_replies _).trans (complete_replies ⟨exclusive.unheld, exclusive.lines⟩ _)
    · rw [eq]
      exact (dispatch_replies _).trans (List.sublist_append_left _ _)

theorem act_replies {r : Relay} (exclusive : r.closed = none → Exclusive r) (e : Event) :
    (r.act e).replies.Sublist (r.replies ++ (r.completion? e).toList.map (.ofLines ·.lines)) := by
  have same : ∀ {s : Relay}, s.replies.Sublist r.replies →
      s.replies.Sublist (r.replies ++ (r.completion? e).toList.map (.ofLines ·.lines)) :=
    fun within => within.trans (List.sublist_append_left _ _)
  cases e with
  | post line =>
    rcases accept_cases r line with eq | ⟨_, _, eq⟩ <;> rw [act, eq] <;> exact same (.refl _)
  | receive =>
    rcases receive_cases r with eq | ⟨_, q, rest, _, eq⟩ <;> rw [act, eq]
    · exact same (.refl _)
    · exact same (dispatch_replies _)
  | output chunk =>
    by_cases isOpen : r.closed = none
    · exact output_replies (exclusive isOpen) isOpen chunk
    · rw [(output_late isOpen chunk).1]
      exact same (.refl _)
  | setMode mode => exact same (.refl _)
  | turnInput input =>
    simp only [act, turnInput]
    split <;> exact same (.refl _)
  | announce reason =>
    simp only [act, announce]
    split
    next => exact same (.refl _)
    next => exact same (by simp [replies])
  | shut =>
    simp only [act, shut]
    split <;> exact same (.refl _)
  | drain =>
    simp only [act, drain]
    split
    next => exact same (.refl _)
    next =>
      exact same (by simp [replies, List.filterMap_map, Except.toOption])

theorem after_replies (input : InputEnd) (events : List Event) :
    ((start input).after events).replies.Sublist
      (((start input).completions events).map (.ofLines ·.lines)) := by
  induction events using List.reverseRecOn with
  | nil => exact List.Sublist.refl _
  | append_singleton events e ih =>
    have exclusive := fun isOpen => (after_steady input events isOpen).1
    rw [after_append, completions_concat, List.map_append]
    exact (act_replies exclusive e).trans (ih.append (List.Sublist.refl _))

/-- A reply that becomes whole while a request is in flight is the result of that request. -/
theorem completion_answers {r : Relay} {chunk : List UInt8} {c : Completion} {q : Request}
    (h : r.completion? (.output chunk) = some c) (flying : r.inFlight = some q) (later : List Event) :
    ((r.act (.output chunk)).after later).resolved[r.resolved.length]? =
      some ⟨q, .ok (.ofLines c.lines)⟩ := by
  obtain ⟨isOpen, ink⟩ : r.closed = none ∧ r.unowed chunk ≠ [] := by
    simp only [completion?] at h
    split at h
    next whole => exact ⟨whole.1, whole.2.1⟩
    next => cases h
  rcases output_completion isOpen ink with ⟨now, eq⟩ | ⟨none, _⟩
  · cases now.symm.trans h
    have settled : r.resolved ++ [⟨q, .ok (.ofLines (r.buffer.push (r.unowed chunk)).view)⟩] <+:
        ((r.act (.output chunk)).after later).resolved := by
      refine List.IsPrefix.trans ?_ (after_grows _ later).2
      rw [act, eq]
      refine List.IsPrefix.trans ?_ (dispatch_forwards _).settled
      simp only [complete, flying]
      exact List.prefix_rfl
    obtain ⟨rest, grown⟩ := settled
    rw [← grown]
    simp
  · cases none.symm.trans h

/-- Whatever the REPL prints, and in whatever chunks: the output read is the replies, each with
the blanks behind its prompt, and what lies in the buffer. Each reply has exactly the lines of its
bytes, was whole in the mode in which its last chunk came, and has a prompt that this mode admits.
What requests are given are such replies, in order, and a request in flight is given the next. -/
theorem output_is_replies_and_rest (input : InputEnd) (events : List Event) :
    let r := (start input).after events
    let completions := (start input).completions events
    ∃ (portions : List Portion) (rest : List UInt8),
      (start input).received events = portions.flatMap (fun p => p.text ++ p.blanks) ++ rest ∧
      completions.map (·.lines) = portions.map (fun p => (pieces p.text).map decodeLine) ∧
      (∀ p ∈ portions, (∀ b ∈ p.blanks, b = 32 ∨ b = 9) ∧
        (p.blanks ≠ [] → ∃ c, (decodeLine ((pieces p.text).getLastD [])).toList.getLast? = some c ∧
          isBlank c = false)) ∧
      (r.closed = none → r.buffer.view = (pieces rest).map decodeLine) ∧
      (∀ c ∈ completions, c.mode.completes c.lines = true ∧
        ∃ (p : PromptForm) (blanks : List Char),
          (Reply.ofLines c.lines).prompt = some (.ofList (p.text ++ blanks)) ∧
            allBlank blanks = true ∧ c.mode.admits p = true) ∧
      r.replies.Sublist (completions.map (.ofLines ·.lines)) ∧
      (∀ before chunk later c q, events = before ++ .output chunk :: later →
        ((start input).after before).completion? (.output chunk) = some c →
          ((start input).after before).inFlight = some q →
            r.resolved[((start input).after before).resolved.length]? =
              some ⟨q, .ok (.ofLines c.lines)⟩) := by
  intro r completions
  obtain ⟨portions, rest, divided⟩ := after_divided input events
  refine ⟨portions, rest, divided.bytes, divided.lines, fun p mem => ⟨fun b owed => ?_, fun some_ => ?_⟩,
    fun isOpen => ?_, fun c mem => ?_, after_replies input events, ?_⟩
  · rcases Bool.or_eq_true_iff.mp ((divided.wellCut p mem).blanks b owed) with space | tab
    · exact Or.inl (beq_iff_eq.mp space)
    · exact Or.inr (beq_iff_eq.mp tab)
  · exact (divided.wellCut p mem).last_ink some_
  · rw [divided.buffer isOpen, view_push_empty]
  · have whole := completes_of_completions mem
    exact ⟨whole, prompt_of_completes whole⟩
  · rintro before chunk later c q rfl whole flying
    have run : r = (((start input).after before).act (.output chunk)).after later := by
      rw [← after_cons, ← after_append]
    rw [run]
    exact completion_answers whole flying later

/-- A prompt in two chunks, the blanks behind it in a third, and a byte that is no character. -/
example : ((start .pipe).completions [.output (utf8Bytes "a\nocta"), .output (utf8Bytes "ve:1>"),
    .output (utf8Bytes " \t"), .output [0xFF]]).map (·.lines) = [["a", "octave:1>"]] := by
  decide +kernel

end Relay

end PromptRelay
