import PromptRelay.Proofs.Conversation

namespace PromptRelay

open LineBuffer (decodeLine)

/-- The first body line begins with a blank and has more than blanks on it. -/
def indented : List (List UInt8) → Bool
  | (b :: line) :: _ => Relay.isOwedBlank b && !isBlankLine (decodeLine (b :: line))
  | _ => false

/-- Of a clipped first line it is exactly an indentation that a reader misses. -/
theorem clipFirst_body_iff (body : List (List UInt8)) :
    ((clipFirst body).map decodeLine).dropWhile isBlankLine =
      (body.map decodeLine).dropWhile isBlankLine ↔ indented body = false := by
  match body with
  | [] => simp [clipFirst, indented]
  | [] :: rest => simp [clipFirst, indented]
  | (b :: line) :: rest =>
    simp only [clipFirst, indented, List.map_cons]
    cases owed : Relay.isOwedBlank b with
    | false => simp [owed]
    | true =>
      have alike := isBlankLine_dropWhile (b :: line)
      have shorter : decodeLine ((b :: line).dropWhile Relay.isOwedBlank) ≠ decodeLine (b :: line) := by
        intro same
        obtain ⟨c, _, first⟩ := decodeLine_blank owed line
        obtain ⟨blanks, _, more⟩ := decodeLine_dropWhile line
        rw [List.dropWhile_cons_of_pos owed] at same
        have lengths := congrArg (·.toList.length) same
        simp only [first, more, List.length_cons, List.length_append] at lengths
        omega
      generalize (b :: line).dropWhile Relay.isOwedBlank = left at alike shorter
      cases blank : isBlankLine (decodeLine (b :: line)) with
      | true => simp [blank, alike]
      | false => simpa [blank, alike] using shorter

namespace Relay

/-- The runs of a relay in which the REPL prints the next printout for each line that was written to
it, and its output comes in these chunks. -/
inductive Answers (printouts : Nat → Printout) : Relay → List String → List (List UInt8) → Prop where
  | start : Answers printouts (start .pipe) [] []
  | post {r : Relay} {commands : List String} {chunks : List (List UInt8)} (command : String)
      (oneLine : breaksLine command = false) :
      Answers printouts r commands chunks →
      Answers printouts (r.act (.post (some command))) (commands ++ [command]) chunks
  | receive {r : Relay} {commands : List String} {chunks : List (List UInt8)} :
      Answers printouts r commands chunks → Answers printouts (r.act .receive) commands chunks
  | setMode {r : Relay} {commands : List String} {chunks : List (List UInt8)} (mode : Mode) :
      Answers printouts r commands chunks → Answers printouts (r.act (.setMode mode)) commands chunks
  | output {r : Relay} {commands : List String} {chunks : List (List UInt8)} (chunk : List UInt8)
      (printed : chunks.flatten ++ chunk <+: transcript printouts r.written.length)
      (admits : r.Admits printouts (chunks.flatten ++ chunk)) :
      Answers printouts r commands chunks →
      Answers printouts (r.act (.output chunk)) commands (chunks ++ [chunk])

variable {printouts : Nat → Printout} {r : Relay} {commands : List String}
  {chunks : List (List UInt8)}

theorem answers_orderly (run : Answers printouts r commands chunks) : r.Orderly := by
  induction run with
  | start => exact start_orderly .pipe
  | post _ _ _ ih | receive _ ih | setMode _ _ ih | output _ _ _ _ ih => exact act_orderly _ _ ih

theorem answers_listens (run : Answers printouts r commands chunks) :
    Listens printouts r commands chunks ∧ r.Busy := by
  induction run with
  | start => exact start_listens printouts
  | post command oneLine before ih =>
    obtain ⟨posted, accepted, listens, busy⟩ := ih.1.post (answers_orderly before) command
    have unbroken : (some command).filter breaksLine = none := by simp [oneLine]
    simp only [act, accept, unbroken, accepted]
    exact ⟨listens, busy ih.2⟩
  | receive _ ih => exact ih.1.receive ih.2
  | setMode mode _ ih => exact ⟨ih.1.setMode mode, ih.2⟩
  | output chunk printed admits _ ih => exact ih.1.output printed admits

/-- A reply has exactly its own body lines, unless the prompt before it ended a chunk, no newline came
after that prompt, and the first of the lines is indented: then it has lost the indentation. When
everything was read, every command has its reply. -/
theorem body_kept_unless_clipped (printouts : Nat → Printout) {r : Relay} {commands : List String}
    {chunks : List (List UInt8)} (run : Answers printouts r commands chunks) :
    (∀ (n : Nat) (x : Resolution), r.resolved[n]? = some x →
      ∃ reply, x.result = .ok reply ∧ (printouts n).Fits reply ∧
        (reply.body = (printouts n).lines.dropWhile isBlankLine ↔
          ¬(Clipped printouts chunks n ∧ indented (printouts n).body = true)) ∧
        (Clipped printouts chunks n →
          reply.body = ((clipFirst (printouts n).body).map decodeLine).dropWhile isBlankLine)) ∧
    (r.mailbox = [] → transcript printouts r.written.length = chunks.flatten →
      r.resolved.length = commands.length) := by
  obtain ⟨listens, busy⟩ := answers_listens run
  refine ⟨fun n x hx => ?_, fun received everything => ?_⟩
  · obtain ⟨reply, lines, ok, fits, lies, body⟩ := listens.replies n x hx
    have clipped : Clipped printouts chunks n →
        reply.body = ((clipFirst (printouts n).body).map decodeLine).dropWhile isBlankLine :=
      fun clip => by rw [body, lies.clipped clip]
    refine ⟨reply, ok, fits, ?_, clipped⟩
    by_cases clip : Clipped printouts chunks n
    · rw [clipped clip, Printout.lines, clipFirst_body_iff]
      simp [clip]
    · have whole : reply.body = (printouts n).lines.dropWhile isBlankLine := by
        rw [body]
        rcases lies.unclipped clip with same | led
        · rw [same]
          rfl
        · rw [led]
          rfl
      simp [clip, whole]
  · have nobody := listens.finished busy everything received
    have all := listens.row_length
    simpa [nobody] using all

/-- Only a prompt, `octave:4> `. -/
def silentAnswer : Printout where
  body := []
  prompt := .normal ['4'] ⟨List.cons_ne_nil _ _, List.forall_mem_singleton.mpr rfl⟩
  space := true
  newline := false
  whole := LineBuffer.no_line_broken
  plain := Printout.no_line_prompted
  debugOnly := Bool.noConfusion

/-- An indented line and the prompt `octave:5> `. -/
def indentedAnswer : Printout where
  body := [utf8Bytes "  b = 2"]
  prompt := .normal ['5'] ⟨List.cons_ne_nil _ _, List.forall_mem_singleton.mpr rfl⟩
  space := true
  newline := false
  whole := by decide +kernel
  plain := by
    rintro line mem ⟨p, rest, eq⟩
    rw [List.mem_singleton.mp mem] at eq
    have shown : (decodeLine (utf8Bytes "  b = 2")).toList.dropWhile isSpaceOrTab =
        ['b', ' ', '=', ' ', '2'] := by decide +kernel
    rw [shown] at eq
    cases p with
    | debug colon => exact absurd (List.cons.inj eq).1 (by decide)
    | normal number digits => exact absurd (List.cons.inj eq).1 (by decide)
  debugOnly := Bool.noConfusion

def silentThenIndented : Nat → Printout
  | 0 => silentAnswer
  | _ => indentedAnswer

/-- Two commands, the second one after the first chunk of the output. -/
def twoReplies (chunks : List (List UInt8)) : Relay :=
  (start .pipe).after ([.post (some "c1"), .receive] ++ (chunks.take 1).map .output ++
    [.post (some "c2"), .receive] ++ (chunks.drop 1).map .output)

def wholePrompt : List (List UInt8) := [utf8Bytes "octave:4> ", utf8Bytes "  b = 2\noctave:5> "]

/-- The same output, but the prompt and its blank come apart. -/
def promptApart : List (List UInt8) :=
  [utf8Bytes "octave:4>", utf8Bytes " ", utf8Bytes "  b = 2\noctave:5> "]

theorem answers_wholePrompt :
    Answers silentThenIndented (twoReplies wholePrompt) ["c1", "c2"] wholePrompt := by
  have asked : Answers silentThenIndented _ _ _ := (Answers.start.post "c1" rfl).receive
  have first := asked.output (utf8Bytes "octave:4> ") (by decide +kernel) fun _ _ _ => rfl
  have second := (first.post "c2" rfl).receive
  exact second.output (utf8Bytes "  b = 2\noctave:5> ") (by decide +kernel) fun _ _ _ => rfl

theorem indentation_kept_after_whole_prompt :
    ∃ x reply, (twoReplies wholePrompt).resolved[1]? = some x ∧
      x.result = .ok reply ∧ reply.body = ["  b = 2"] := by
  obtain ⟨replies, settled⟩ := body_kept_unless_clipped silentThenIndented answers_wholePrompt
  have both := settled (by decide +kernel) (by decide +kernel)
  have second := List.getElem?_eq_getElem
    (both.symm ▸ Nat.one_lt_two : 1 < (twoReplies wholePrompt).resolved.length)
  obtain ⟨reply, ok, _, whole, _⟩ := replies 1 _ second
  exact ⟨_, reply, second, ok, (whole.mpr (by decide +kernel)).trans (by decide +kernel)⟩

theorem indentation_lost_when_prompt_comes_apart :
    Answers silentThenIndented (twoReplies promptApart) ["c1", "c2"] promptApart ∧
      (twoReplies promptApart).resolved.map (fun x => x.result.toOption.map (·.body)) =
        [some [], some ["b = 2"]] ∧
      (silentThenIndented 1).lines.dropWhile isBlankLine = ["  b = 2"] := by
  refine ⟨?_, by decide +kernel, by decide +kernel⟩
  have asked : Answers silentThenIndented _ _ _ := (Answers.start.post "c1" rfl).receive
  have first := asked.output (utf8Bytes "octave:4>") (by decide +kernel) fun _ _ _ => rfl
  have second := (first.post "c2" rfl).receive
  have blank := second.output (utf8Bytes " ") (by decide +kernel) fun _ _ _ => rfl
  exact blank.output (utf8Bytes "  b = 2\noctave:5> ") (by decide +kernel) fun _ _ _ => rfl

end Relay

end PromptRelay
