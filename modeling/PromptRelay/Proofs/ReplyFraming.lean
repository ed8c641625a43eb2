import PromptRelay.Proofs.ShapeGrammar

namespace PromptRelay

theorem lines_of_splitPrompt {lines : List String} {prompt : String}
    (h : (splitPrompt lines).2 = some prompt) :
    isPrompt prompt = true ∧ ∃ tail, lines = (splitPrompt lines).1 ++ prompt :: tail ∧
      (tail = [] ∨ tail = [""]) := by
  induction lines with
  | nil => simp [splitPrompt] at h
  | cons first rest ih =>
    rcases rest with _ | ⟨last, _ | ⟨third, more⟩⟩
    · simp only [splitPrompt] at h ⊢
      split at h
      next is =>
        cases h
        exact ⟨is, [], by simp [is], Or.inl rfl⟩
      next => simp at h
    · simp only [splitPrompt] at h ⊢
      split at h
      next both =>
        cases h
        exact ⟨both.2, [""], by simp [both], Or.inr rfl⟩
      next other =>
        split at h
        next is =>
          cases h
          exact ⟨is, [], by simp [other, is], Or.inl rfl⟩
        next => simp at h
    · rw [splitPrompt_cons (by simp)] at h ⊢
      obtain ⟨is, tail, eq, short⟩ := ih h
      exact ⟨is, tail, by rw [List.cons_append, ← eq], short⟩

/-- No lines end at a prompt of the debugger and at one of the other kind. -/
theorem ends_once (lines : List String) :
    ¬(endsAtDebugPrompt lines = true ∧ endsAtNormalPrompt lines = true) := by
  rintro ⟨debug, normal⟩
  obtain ⟨init, colon, blanks, newline, blank, eq⟩ := prompted_of_endsAtDebugPrompt debug
  obtain ⟨other, number, digits, more, blankToo, eqToo⟩ := prompted_of_endsAtNormalPrompt normal
  have prompt := congrArg (fun lines => (splitPrompt lines).2) (eq.symm.trans eqToo)
  simp only [splitPrompt_promptedLines _ _ blank, splitPrompt_promptedLines _ _ blankToo] at prompt
  have kind := isDebugText_eq_isDebug (.debug colon) blank
  rw [String.ofList_inj.mp (Option.some.inj prompt),
    isDebugText_eq_isDebug (.normal number digits) blankToo] at kind
  exact absurd kind (by simp [PromptForm.isDebug])

/-- A reply shows the debugger exactly if its lines end at the prompt of the debugger. -/
theorem inDebugMode_eq (lines : List String) :
    (Reply.ofLines lines).inDebugMode = endsAtDebugPrompt lines := by
  refine Bool.eq_iff_iff.mpr ⟨fun shown => ?_, fun ends => ?_⟩
  · obtain ⟨prompt, found, debug⟩ := (Option.any_eq_true _ _).mp shown
    obtain ⟨is, tail, eq, short⟩ := lines_of_splitPrompt found
    have last : debugEnd? lines = some prompt := by
      rw [eq]
      rcases short with rfl | rfl
      · exact debugEnd?_concat _ (isPrompt_ne_empty is)
      · exact debugEnd?_concat_empty _ prompt
    simp [endsAtDebugPrompt, last, debug]
  · obtain ⟨init, colon, blanks, newline, blank, rfl⟩ := prompted_of_endsAtDebugPrompt ends
    exact inDebugMode_promptedLines init _ blank newline

theorem classify_of_completes {mode : Mode} {lines : List String} (h : mode.completes lines = true) :
    classify lines mode = (Reply.ofLines lines).shape := if_pos h

theorem classify_eq_incomplete_iff {mode : Mode} {lines : List String} :
    classify lines mode = .incomplete ↔ mode.completes lines = false := by
  cases whole : mode.completes lines with
  | false => simp [classify, whole]
  | true => simpa [classify, whole] using Shape.ofBody_ne_incomplete _

/-- The lines of a whole reply are blank ones, its body, its prompt, and perhaps an empty line. -/
structure Framed (lines : List String) (reply : Reply) : Prop where
  parts : ∃ blanks prompt tail, reply.prompt = some prompt ∧
    lines = blanks ++ reply.body ++ prompt :: tail ∧
    (∀ line ∈ blanks, isBlankLine line = true) ∧ (tail = [] ∨ tail = [""])
  starts : ∀ line ∈ reply.body.head?, isBlankLine line = false

theorem framed_of_completes {mode : Mode} {lines : List String} (h : mode.completes lines = true) :
    Framed lines (.ofLines lines) := by
  obtain ⟨init, p, blanks, newline, -, blank, -, rfl⟩ := completes_iff_prompted.mp h
  have body := bodyOf_promptedLines init p blank newline
  refine ⟨⟨init.takeWhile isBlankLine, .ofList (p.text ++ blanks), if newline then [""] else [], ?_, ?_,
    fun _ hl => List.mem_takeWhile_imp hl, ?_⟩, ?_⟩
  · simp only [Reply.ofLines, splitPrompt_promptedLines init p blank]
  · rw [body, List.takeWhile_append_dropWhile]
    rfl
  · cases newline <;> simp
  · rw [body]
    exact head_dropWhile

theorem classify_promptedLines {mode : Mode} {p : PromptForm} (admits : mode.admits p = true)
    (init : List String) {blanks : List Char} (blank : allBlank blanks = true) {newline : Bool}
    (debugOnly : newline = true → p.isDebug = true) :
    classify (promptedLines init p blanks newline) mode = .ofBody (init.dropWhile isBlankLine) := by
  rw [classify_of_completes (completes_promptedLines admits init blank debugOnly), Reply.shape,
    bodyOf_promptedLines init p blank]

/-- The tests of a reply's end agree. Lines make a whole reply exactly if they end in a prompt that
the mode admits, perhaps with an empty line after one of the debugger; they end at one kind of
prompt only. A whole reply has a prompt, and nothing but blank lines before the body and an empty
line after the prompt is left out of the two; a reply shows the debugger exactly if its lines end at
the debugger's prompt; a whole reply is classified by its body, any other as incomplete. -/
theorem completion_agrees_with_framing (lines : List String) (mode : Mode) :
    (mode.completes lines = true ↔ ∃ init p blanks newline, mode.admits p = true ∧
        allBlank blanks = true ∧ (newline = true → p.isDebug = true) ∧
        lines = promptedLines init p blanks newline) ∧
      ¬(endsAtDebugPrompt lines = true ∧ endsAtNormalPrompt lines = true) ∧
      (mode.completes lines = true → Framed lines (.ofLines lines)) ∧
      (Reply.ofLines lines).inDebugMode = endsAtDebugPrompt lines ∧
      (Mode.normal.completes lines = true → (Reply.ofLines lines).inDebugMode = false) ∧
      (Mode.debug.completes lines = true → (Reply.ofLines lines).inDebugMode = true) ∧
      (classify lines mode = .incomplete ↔ mode.completes lines = false) ∧
      (mode.completes lines = true → classify lines mode = (Reply.ofLines lines).shape) := by
  refine ⟨completes_iff_prompted, ends_once lines, framed_of_completes, inDebugMode_eq lines,
    fun normal => ?_, fun debug => ?_, classify_eq_incomplete_iff, classify_of_completes⟩
  · rw [inDebugMode_eq]
    exact Bool.eq_false_iff.mpr fun debug => ends_once lines ⟨debug, normal⟩
  · rw [inDebugMode_eq]
    exact debug

/-- An empty line after a prompt is told apart from one that is merely blank. -/
example : (Reply.ofLines ["", "x = 3", "debug> ", ""]).body = ["x = 3"] ∧
    Mode.either.completes ["x = 3", "debug> ", " "] = false := by
  decide

end PromptRelay
