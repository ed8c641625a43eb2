import Mathlib.Data.List.Basic
import Mathlib.Data.List.TakeWhile
import PromptRelay.Proofs.SpacedText
import PromptRelay.Reply

namespace PromptRelay

/-- What a prompt says: `debug>`, `debug:>`, or `octave:N>`. -/
inductive PromptForm where
  | debug (colon : Bool)
  | normal (number : List Char) (digits : number ≠ [] ∧ ∀ c ∈ number, isDigit c = true)

namespace PromptForm

def text : PromptForm → List Char
  | debug colon => "debug".toList ++ (if colon then [':'] else []) ++ ['>']
  | normal number _ => "octave:".toList ++ number ++ ['>']

def isDebug : PromptForm → Bool
  | debug _ => true
  | normal .. => false

end PromptForm

/-- The prompts that complete a reply in a mode. -/
def Mode.admits : Mode → PromptForm → Bool
  | .debug, p => p.isDebug
  | .normal, p => !p.isDebug
  | .either, _ => true

theorem after?_append (lead : String) (rest : List Char) :
    after? lead (lead.toList ++ rest) = some rest :=
  List.isPrefixOf?_eq_some_iff_append_eq.mpr rfl

theorem eq_append_of_after? {lead : String} {s rest : List Char} (h : after? lead s = some rest) :
    s = lead.toList ++ rest := (List.isPrefixOf?_eq_some_iff_append_eq.mp h).symm

theorem digits?_append {number rest : List Char}
    (digits : number ≠ [] ∧ ∀ c ∈ number, isDigit c = true) (stop : ∀ c ∈ rest.head?, isDigit c = false) :
    digits? (number ++ rest) = some (number, rest) := by
  obtain ⟨taken, left⟩ := takeWhile_append_stop digits.2 stop
  simp [digits?, taken, left, digits.1]

theorem eq_append_of_digits? {s number rest : List Char} (h : digits? s = some (number, rest)) :
    s = number ++ rest ∧ number ≠ [] ∧ ∀ c ∈ number, isDigit c = true := by
  unfold digits? at h
  simp only at h
  split at h
  next => simp at h
  next some_ =>
    obtain ⟨rfl, rfl⟩ := Prod.mk.inj (Option.some.inj h)
    refine ⟨List.takeWhile_append_dropWhile.symm, by simpa using some_, fun c hc => ?_⟩
    exact List.mem_takeWhile_imp hc

theorem isDebugText_text (colon : Bool) {blanks : List Char} (h : allBlank blanks = true) :
    isDebugText ((PromptForm.debug colon).text ++ blanks) = true := by
  cases colon with
  | false =>
    have eq : (PromptForm.debug false).text ++ blanks = "debug".toList ++ ('>' :: blanks) := rfl
    have noColon : after? ":" ('>' :: blanks) = none := rfl
    have close : after? ">" ('>' :: blanks) = some blanks := after?_append ">" blanks
    simp only [isDebugText, eq, after?_append, noColon, Option.getD_none, close, h]
  | true =>
    have eq : (PromptForm.debug true).text ++ blanks = "debug".toList ++ (':' :: '>' :: blanks) := rfl
    have colon : after? ":" (':' :: '>' :: blanks) = some ('>' :: blanks) := after?_append ":" _
    have close : after? ">" ('>' :: blanks) = some blanks := after?_append ">" blanks
    simp only [isDebugText, eq, after?_append, colon, Option.getD_some, close, h]

theorem eq_text_of_isDebugText {s : List Char} (h : isDebugText s = true) :
    ∃ colon blanks, s = (PromptForm.debug colon).text ++ blanks ∧ allBlank blanks = true := by
  unfold isDebugText at h
  split at h
  next => simp at h
  next rest lead =>
    split at h
    next => simp at h
    next blanks close =>
      have hs := eq_append_of_after? lead
      have hclose := eq_append_of_after? close
      cases colon : after? ":" rest with
      | none =>
        refine ⟨false, blanks, ?_, h⟩
        rw [colon, Option.getD_none] at hclose
        rw [hs, hclose]
        rfl
      | some rest' =>
        refine ⟨true, blanks, ?_, h⟩
        rw [colon, Option.getD_some] at hclose
        rw [hs, eq_append_of_after? colon, hclose]
        rfl

theorem normal_text_append {number : List Char}
    (digits : number ≠ [] ∧ ∀ c ∈ number, isDigit c = true) (blanks : List Char) :
    (PromptForm.normal number digits).text ++ blanks =
      "octave:".toList ++ (number ++ '>' :: blanks) := by
  change "octave:".toList ++ number ++ ['>'] ++ blanks = _
  rw [List.append_assoc, List.append_assoc]
  rfl

theorem normalNumber?_text {number : List Char}
    (digits : number ≠ [] ∧ ∀ c ∈ number, isDigit c = true) {blanks : List Char}
    (h : allBlank blanks = true) :
    normalNumber? ((PromptForm.normal number digits).text ++ blanks) = some number := by
  have read : digits? (number ++ '>' :: blanks) = some (number, '>' :: blanks) :=
    digits?_append digits (by simp [show isDigit '>' = false by decide])
  have close : after? ">" ('>' :: blanks) = some blanks := after?_append ">" blanks
  rw [normal_text_append, normalNumber?, after?_append]
  simp [read, close, h]

theorem eq_text_of_normalNumber? {s number : List Char} (h : normalNumber? s = some number) :
    ∃ digits blanks, s = (PromptForm.normal number digits).text ++ blanks ∧
      allBlank blanks = true := by
  unfold normalNumber? at h
  simp only [bind, Option.bind_eq_some_iff] at h
  obtain ⟨rest, lead, ⟨number', rest'⟩, read, blanks, close, h⟩ := h
  split at h
  next blank =>
    cases Option.some.inj h
    obtain ⟨hrest, hne, hall⟩ := eq_append_of_digits? read
    refine ⟨⟨hne, hall⟩, blanks, ?_, blank⟩
    have hclose : rest' = '>' :: blanks := eq_append_of_after? close
    rw [normal_text_append, eq_append_of_after? lead, hrest, hclose]
  next => simp at h

theorem isDebugText_eq_isDebug (p : PromptForm) {blanks : List Char} (h : allBlank blanks = true) :
    isDebugText (p.text ++ blanks) = p.isDebug := by
  cases p with
  | debug colon => exact isDebugText_text colon h
  | normal number digits => rfl

theorem normalNumber?_isSome_eq (p : PromptForm) {blanks : List Char} (h : allBlank blanks = true) :
    (normalNumber? (p.text ++ blanks)).isSome = !p.isDebug := by
  cases p with
  | debug colon => rfl
  | normal number digits => rw [normalNumber?_text digits h]; rfl

theorem isPrompt_text (p : PromptForm) {blanks : List Char} (h : allBlank blanks = true) :
    isPrompt (.ofList (p.text ++ blanks)) = true := by
  simp only [isPrompt, isDebugPrompt, isNormalPrompt, String.toList_ofList,
    isDebugText_eq_isDebug p h, normalNumber?_isSome_eq p h]
  cases p.isDebug <;> rfl

theorem eq_text_of_isPrompt {line : String} (h : isPrompt line = true) :
    ∃ p : PromptForm, ∃ blanks, line.toList = p.text ++ blanks ∧ allBlank blanks = true := by
  rcases Bool.or_eq_true_iff.mp h with debug | normal
  · obtain ⟨colon, blanks, eq, blank⟩ := eq_text_of_isDebugText debug
    exact ⟨.debug colon, blanks, eq, blank⟩
  · obtain ⟨number, some_⟩ := Option.isSome_iff_exists.mp normal
    obtain ⟨digits, blanks, eq, blank⟩ := eq_text_of_normalNumber? some_
    exact ⟨.normal number digits, blanks, eq, blank⟩

theorem isPrompt_ne_empty {line : String} (h : isPrompt line = true) : line ≠ "" := by
  rintro rfl
  exact absurd h (by decide)

theorem debugEnd?_cons {line : String} {rest : List String} (h : 2 ≤ rest.length) :
    debugEnd? (line :: rest) = debugEnd? rest := by
  match rest with
  | [] | [_] => simp at h
  | _ :: _ :: _ => rfl

theorem splitPrompt_cons {line : String} {rest : List String} (h : 2 ≤ rest.length) :
    splitPrompt (line :: rest) = (line :: (splitPrompt rest).1, (splitPrompt rest).2) := by
  match rest with
  | [] | [_] => simp at h
  | _ :: _ :: _ => rfl

theorem mem_of_debugEnd? {lines : List String} {line : String} (h : debugEnd? lines = some line) :
    line ∈ lines := by
  induction lines with
  | nil => simp [debugEnd?] at h
  | cons first rest ih =>
    match rest with
    | [] => cases h; exact List.mem_singleton_self line
    | [last] =>
      simp only [debugEnd?] at h
      split at h <;> cases h <;> simp
    | _ :: _ :: _ => exact List.mem_cons_of_mem first (ih h)

theorem debugEnd?_concat (init : List String) {line : String} (h : line ≠ "") :
    debugEnd? (init ++ [line]) = some line := by
  induction init with
  | nil => rfl
  | cons first init ih =>
    cases init with
    | nil => simp [debugEnd?, h]
    | cons second init => rw [List.cons_append, debugEnd?_cons (by simp), ih]

theorem debugEnd?_concat_empty (init : List String) (line : String) :
    debugEnd? (init ++ [line, ""]) = some line := by
  induction init with
  | nil => simp [debugEnd?]
  | cons first init ih => rw [List.cons_append, debugEnd?_cons (by simp), ih]

theorem splitPrompt_concat (init : List String) {line : String} (h : isPrompt line = true) :
    splitPrompt (init ++ [line]) = (init, some line) := by
  induction init with
  | nil => simp [splitPrompt, h]
  | cons first init ih =>
    cases init with
    | nil => simp [splitPrompt, h, isPrompt_ne_empty h]
    | cons second init => rw [List.cons_append, splitPrompt_cons (by simp), ih]

theorem splitPrompt_concat_empty (init : List String) {line : String} (h : isPrompt line = true) :
    splitPrompt (init ++ [line, ""]) = (init, some line) := by
  induction init with
  | nil => simp [splitPrompt, h]
  | cons first init ih => rw [List.cons_append, splitPrompt_cons (by simp), ih]

theorem completes_eq_false {view : List String} (mode : Mode)
    (h : ∀ line ∈ view, isPrompt line = false) : mode.completes view = false := by
  have noDebug : endsAtDebugPrompt view = false := by
    cases hd : debugEnd? view with
    | none => simp [endsAtDebugPrompt, hd]
    | some line =>
      have none := Bool.or_eq_false_iff.mp (h line (mem_of_debugEnd? hd))
      simp [endsAtDebugPrompt, hd, none.1]
  have noNormal : endsAtNormalPrompt view = false := by
    cases hl : view.getLast? with
    | none => simp [endsAtNormalPrompt, hl]
    | some line =>
      have none := Bool.or_eq_false_iff.mp (h line (List.mem_of_getLast? hl))
      simp [endsAtNormalPrompt, hl, none.2]
  cases mode <;> simp [Mode.completes, noDebug, noNormal]

/-- Lines that end in a prompt, and after one of the debugger's perhaps in an empty line. -/
def promptedLines (init : List String) (p : PromptForm) (blanks : List Char) (newline : Bool) :
    List String :=
  init ++ .ofList (p.text ++ blanks) :: if newline then [""] else []

theorem completes_promptedLines {mode : Mode} {p : PromptForm} (admits : mode.admits p = true)
    (init : List String) {blanks : List Char} (blank : allBlank blanks = true) {newline : Bool}
    (debugOnly : newline = true → p.isDebug = true) :
    mode.completes (promptedLines init p blanks newline) = true := by
  have prompt := isPrompt_text p blank
  have debugEnd : debugEnd? (promptedLines init p blanks newline) = some (.ofList (p.text ++ blanks)) := by
    cases newline with
    | false => exact debugEnd?_concat init (isPrompt_ne_empty prompt)
    | true => exact debugEnd?_concat_empty init _
  cases kind : p.isDebug with
  | true =>
    have ends : endsAtDebugPrompt (promptedLines init p blanks newline) = true := by
      simp [endsAtDebugPrompt, debugEnd, isDebugPrompt, isDebugText_eq_isDebug p blank, kind]
    cases mode <;> simp_all [Mode.completes, Mode.admits]
  | false =>
    have single : newline = false := by
      cases newline with
      | false => rfl
      | true => simp [kind] at debugOnly
    have ends : endsAtNormalPrompt (promptedLines init p blanks newline) = true := by
      simp [endsAtNormalPrompt, promptedLines, single, isNormalPrompt, normalNumber?_isSome_eq p blank,
        kind]
    cases mode <;> simp_all [Mode.completes, Mode.admits]

theorem splitPrompt_promptedLines (init : List String) (p : PromptForm) {blanks : List Char}
    (blank : allBlank blanks = true) (newline : Bool) :
    splitPrompt (promptedLines init p blanks newline) = (init, some (.ofList (p.text ++ blanks))) := by
  cases newline with
  | false => exact splitPrompt_concat init (isPrompt_text p blank)
  | true => exact splitPrompt_concat_empty init (isPrompt_text p blank)

theorem bodyOf_promptedLines (init : List String) (p : PromptForm) {blanks : List Char}
    (blank : allBlank blanks = true) (newline : Bool) :
    (Reply.ofLines (promptedLines init p blanks newline)).body = init.dropWhile isBlankLine := by
  simp only [Reply.ofLines, Reply.bodyOf, splitPrompt_promptedLines init p blank]

theorem inDebugMode_promptedLines (init : List String) (p : PromptForm) {blanks : List Char}
    (blank : allBlank blanks = true) (newline : Bool) :
    (Reply.ofLines (promptedLines init p blanks newline)).inDebugMode = p.isDebug := by
  simp [Reply.inDebugMode, Reply.ofLines, splitPrompt_promptedLines init p blank, isDebugPrompt,
    isDebugText_eq_isDebug p blank]

theorem debugEnd?_cases {lines : List String} {line : String} (h : debugEnd? lines = some line) :
    ∃ init, lines = init ++ [line] ∨ lines = init ++ [line, ""] := by
  induction lines with
  | nil => simp [debugEnd?] at h
  | cons first rest ih =>
    match rest with
    | [] =>
      cases h
      exact ⟨[], Or.inl rfl⟩
    | [last] =>
      simp only [debugEnd?] at h
      split at h
      next empty =>
        cases h
        exact ⟨[], Or.inr (by rw [empty]; rfl)⟩
      next =>
        cases h
        exact ⟨[first], Or.inl rfl⟩
    | second :: third :: more =>
      obtain ⟨init, eq | eq⟩ := ih h
      · exact ⟨first :: init, Or.inl (by rw [eq, List.cons_append])⟩
      · exact ⟨first :: init, Or.inr (by rw [eq, List.cons_append])⟩

theorem prompted_of_endsAtDebugPrompt {lines : List String} (h : endsAtDebugPrompt lines = true) :
    ∃ init colon blanks newline, allBlank blanks = true ∧
      lines = promptedLines init (.debug colon) blanks newline := by
  obtain ⟨line, last, debug⟩ := (Option.any_eq_true _ _).mp h
  obtain ⟨colon, blanks, eq, blank⟩ := eq_text_of_isDebugText debug
  obtain ⟨init, rfl | rfl⟩ := debugEnd?_cases last
  · exact ⟨init, colon, blanks, false, blank, by rw [promptedLines, ← eq, String.ofList_toList]; rfl⟩
  · exact ⟨init, colon, blanks, true, blank, by rw [promptedLines, ← eq, String.ofList_toList]; rfl⟩

theorem prompted_of_endsAtNormalPrompt {lines : List String} (h : endsAtNormalPrompt lines = true) :
    ∃ init number digits blanks, allBlank blanks = true ∧
      lines = promptedLines init (.normal number digits) blanks false := by
  obtain ⟨line, last, normal⟩ := (Option.any_eq_true _ _).mp h
  obtain ⟨number, read⟩ := Option.isSome_iff_exists.mp normal
  obtain ⟨digits, blanks, eq, blank⟩ := eq_text_of_normalNumber? read
  obtain ⟨init, rfl⟩ := List.getLast?_eq_some_iff.mp last
  exact ⟨init, number, digits, blanks, blank, by rw [promptedLines, ← eq, String.ofList_toList]; rfl⟩

/-- Lines make a whole reply exactly if they end in a prompt that the mode admits. -/
theorem completes_iff_prompted {mode : Mode} {lines : List String} :
    mode.completes lines = true ↔ ∃ init p blanks newline, mode.admits p = true ∧
      allBlank blanks = true ∧ (newline = true → p.isDebug = true) ∧
      lines = promptedLines init p blanks newline := by
  constructor
  · intro h
    have ends : (mode ≠ .normal ∧ endsAtDebugPrompt lines = true) ∨
        (mode ≠ .debug ∧ endsAtNormalPrompt lines = true) := by
      cases mode with
      | debug => exact Or.inl ⟨by decide, h⟩
      | normal => exact Or.inr ⟨by decide, h⟩
      | either => exact (Bool.or_eq_true_iff.mp h).imp (⟨by decide, ·⟩) (⟨by decide, ·⟩)
    rcases ends with ⟨other, ends⟩ | ⟨other, ends⟩
    · obtain ⟨init, colon, blanks, newline, blank, eq⟩ := prompted_of_endsAtDebugPrompt ends
      refine ⟨init, .debug colon, blanks, newline, ?_, blank, fun _ => rfl, eq⟩
      cases mode <;> first | rfl | exact absurd rfl other
    · obtain ⟨init, number, digits, blanks, blank, eq⟩ := prompted_of_endsAtNormalPrompt ends
      refine ⟨init, .normal number digits, blanks, false, ?_, blank, by simp, eq⟩
      cases mode <;> first | rfl | exact absurd rfl other
  · rintro ⟨init, p, blanks, newline, admits, blank, debugOnly, rfl⟩
    exact completes_promptedLines admits init blank debugOnly

/-- Lines that make a whole reply have a prompt that the mode admits. -/
theorem prompt_of_completes {mode : Mode} {lines : List String} (h : mode.completes lines = true) :
    ∃ p : PromptForm, ∃ blanks, (splitPrompt lines).2 = some (.ofList (p.text ++ blanks)) ∧
      allBlank blanks = true ∧ mode.admits p = true := by
  obtain ⟨init, p, blanks, newline, admits, blank, -, rfl⟩ := completes_iff_prompted.mp h
  exact ⟨p, blanks, by rw [splitPrompt_promptedLines init p blank], blank, admits⟩

end PromptRelay
