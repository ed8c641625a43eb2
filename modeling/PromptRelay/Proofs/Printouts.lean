import PromptRelay.Proofs.LineStream
import PromptRelay.Proofs.PromptText
import PromptRelay.Relay

namespace PromptRelay

open LineBuffer (newline carriageReturn dropReturn decodeLine pieces joinLines joinLines_cons
  pieces_joinLines)
open Relay (isOwedBlank)

def BeginsWithPrompt (s : List Char) : Prop := ∃ p : PromptForm, p.text <+: s

def isSpaceOrTab (c : Char) : Bool := c == ' ' || c == '\t'

/-- What a REPL prints in answer to one line: the bytes of the body lines, none of which could be
taken for a prompt, and the prompt with what may come after it. -/
structure Printout where
  body : List (List UInt8)
  prompt : PromptForm
  space : Bool
  newline : Bool
  whole : ∀ line ∈ body, LineBuffer.newline ∉ line
  plain : ∀ line ∈ body, ¬BeginsWithPrompt ((decodeLine line).toList.dropWhile isSpaceOrTab)
  debugOnly : newline = true → prompt.isDebug = true

def PromptForm.bytes (p : PromptForm) : List UInt8 := utf8Bytes (.ofList p.text)

def promptTail (space newline : Bool) : List UInt8 :=
  (if space then [32] else []) ++ (if newline then [LineBuffer.newline] else [])

namespace Printout

theorem no_line_prompted : ∀ line ∈ ([] : List (List UInt8)),
    ¬BeginsWithPrompt ((decodeLine line).toList.dropWhile isSpaceOrTab) := List.forall_mem_nil _

def lines (x : Printout) : List String := x.body.map decodeLine

def upToPrompt (x : Printout) : List UInt8 := joinLines x.body ++ x.prompt.bytes

def bytes (x : Printout) : List UInt8 := x.upToPrompt ++ promptTail x.space x.newline

/-- The reply that a caller is to get for what was printed. -/
structure Fits (x : Printout) (reply : Reply) : Prop where
  shape : reply.shape = .ofBody (x.lines.dropWhile isBlankLine)
  inDebugMode : reply.inDebugMode = x.prompt.isDebug

end Printout

theorem head_text (p : PromptForm) : ∃ c rest, p.text = c :: rest ∧ isBlank c = false := by
  cases p with
  | debug colon => exact ⟨'d', _, rfl, rfl⟩
  | normal number digits => exact ⟨'o', _, rfl, rfl⟩

theorem getLast_text (p : PromptForm) : p.text.getLast? = some '>' := by
  cases p with
  | debug colon => cases colon <;> rfl
  | normal number digits => exact List.getLast?_concat

theorem mem_text_dropLast (p : PromptForm) : '>' ∉ p.text.dropLast := by
  cases p with
  | debug colon => cases colon <;> decide
  | normal number digits =>
    have init : (PromptForm.normal number digits).text.dropLast = "octave:".toList ++ number :=
      List.dropLast_concat
    rw [init, List.mem_append]
    rintro (lead | digit)
    · exact absurd lead (by decide)
    · exact absurd (digits.2 '>' digit) (by decide)

/-- Characters of one byte that break no line. -/
def Printable (s : List Char) : Prop := ∀ c ∈ s, 0x20 ≤ c.toNat ∧ c.toNat < 0x80

theorem printable_of_all {s : List Char}
    (h : (s.all fun c => 0x20 ≤ c.toNat && c.toNat < 0x80) = true) : Printable s := by
  intro c hc
  have both := List.all_eq_true.mp h c hc
  simpa using both

theorem isDigit_printable {c : Char} (h : isDigit c = true) : 0x20 ≤ c.toNat ∧ c.toNat < 0x80 := by
  unfold isDigit digitValue? at h
  split at h
  next range =>
    have low : '0'.toNat ≤ c.toNat := range.1
    have high : c.toNat ≤ '9'.toNat := range.2
    exact ⟨Nat.le_trans (by decide) low, Nat.lt_of_le_of_lt high (by decide)⟩
  next => simp at h

theorem text_printable (p : PromptForm) : Printable p.text := by
  cases p with
  | debug colon => cases colon <;> exact printable_of_all rfl
  | normal number digits =>
    intro c hc
    change c ∈ "octave:".toList ++ number ++ ['>'] at hc
    rcases List.mem_append.mp hc with before | last
    · rcases List.mem_append.mp before with lead | digit
      · exact printable_of_all (s := "octave:".toList) rfl c lead
      · exact isDigit_printable (digits.2 c digit)
    · rw [List.mem_singleton.mp last]
      decide

theorem asciiByte_toNat {c : Char} (h : c.toNat < 0x80) : (asciiByte c).toNat = c.toNat := by
  simp [asciiByte]
  omega

theorem newline_not_mem {s : List Char} (h : Printable s) : newline ∉ s.map asciiByte := by
  intro mem
  obtain ⟨c, hc, eq⟩ := List.mem_map.mp mem
  have value := asciiByte_toNat (h c hc).2
  rw [eq] at value
  have low := (h c hc).1
  change 10 = c.toNat at value
  omega

theorem decodeLine_printable {s : List Char} (h : Printable s) :
    decodeLine (s.map asciiByte) = .ofList s := by
  have whole : dropReturn (s.map asciiByte) = s.map asciiByte := by
    refine if_neg fun last => ?_
    obtain ⟨c, hc, eq⟩ := List.mem_map.mp (List.mem_of_getLast? last)
    have value := asciiByte_toNat (h c hc).2
    rw [eq] at value
    have low := (h c hc).1
    change 13 = c.toNat at value
    omega
  rw [decodeLine, whole, decodeLossy_ascii fun c hc => (h c hc).2]

theorem PromptForm.bytes_eq (p : PromptForm) : p.bytes = p.text.map asciiByte :=
  utf8Bytes_ascii fun c hc => (text_printable p c hc).2

theorem PromptForm.two_le_bytes_length (p : PromptForm) : 2 ≤ p.bytes.length := by
  have two : ∃ c d rest, p.text = c :: d :: rest := by
    cases p with
    | debug colon => exact ⟨'d', 'e', _, rfl⟩
    | normal number digits => exact ⟨'o', 'c', _, rfl⟩
  obtain ⟨c, d, rest, eq⟩ := two
  simp [p.bytes_eq, eq]

theorem dropReturn_prefix {x line : List UInt8} (h : x <+: line) :
    dropReturn x <+: dropReturn line := by
  obtain ⟨z, rfl⟩ := h
  cases z with
  | nil => simp
  | cons b z =>
    rw [LineBuffer.dropReturn_append x (List.cons_ne_nil b z)]
    have within : dropReturn x <+: x := by
      rcases LineBuffer.dropReturn_cases x with whole | ended
      · exact ⟨[], by rw [whole, List.append_nil]⟩
      · exact ⟨_, ended.symm⟩
    exact within.trans (List.prefix_append x _)

/-- When a piece of a line is a prompt, the line begins with one. -/
theorem begins_of_isPrompt {x line : List UInt8} (h : x <+: line)
    (prompt : isPrompt (decodeLine x) = true) : BeginsWithPrompt (decodeLine line).toList := by
  obtain ⟨p, blanks, text, blank⟩ := eq_text_of_isPrompt prompt
  simp only [decodeLine, String.toList_ofList] at text ⊢
  obtain ⟨z, eq⟩ := dropReturn_prefix h
  have whole : (decodeLossy (dropReturn x)).getLast? ≠ some replacementChar := by
    rw [text, List.getLast?_append, getLast_text]
    cases last : blanks.getLast? with
    | none => exact show some '>' ≠ some replacementChar by decide
    | some c =>
      have hc := List.all_eq_true.mp blank c (List.mem_of_getLast? last)
      rintro eq
      cases Option.some.inj eq
      exact absurd hc (by decide)
  rw [← eq, decodeLossy_append z whole, text, List.append_assoc]
  exact ⟨p, List.prefix_append _ _⟩

theorem begins_dropWhile {blanks s : List Char} (h : ∀ c ∈ blanks, isSpaceOrTab c = true)
    (begins : BeginsWithPrompt s) : BeginsWithPrompt ((blanks ++ s).dropWhile isSpaceOrTab) := by
  obtain ⟨p, rest, rfl⟩ := begins
  refine ⟨p, rest, ?_⟩
  obtain ⟨c, more, head, ink⟩ := head_text p
  have stays : isSpaceOrTab c = false := by
    by_contra other
    rcases Bool.or_eq_true_iff.mp (Bool.not_eq_false _ ▸ other) with space | tab
    · rw [beq_iff_eq.mp space] at ink; exact absurd ink (by decide)
    · rw [beq_iff_eq.mp tab] at ink; exact absurd ink (by decide)
  rw [List.dropWhile_append_of_pos h, head]
  simp [stays]

theorem dropReturn_cons {b : UInt8} (rest : List UInt8) (ink : b ≠ carriageReturn) :
    dropReturn (b :: rest) = b :: dropReturn rest := by
  cases rest with
  | nil => simp [dropReturn, ink]
  | cons c rest => exact LineBuffer.dropReturn_append [b] (List.cons_ne_nil c rest)

theorem isBlank_of_isSpaceOrTab {c : Char} (h : isSpaceOrTab c = true) : isBlank c = true := by
  rcases Bool.or_eq_true_iff.mp h with space | tab
  · rw [beq_iff_eq.mp space]; decide
  · rw [beq_iff_eq.mp tab]; decide

theorem decodeLine_blank {b : UInt8} (owed : isOwedBlank b = true) (rest : List UInt8) :
    ∃ c, isSpaceOrTab c = true ∧ (decodeLine (b :: rest)).toList = c :: (decodeLine rest).toList := by
  have byte : ∃ c, isSpaceOrTab c = true ∧ c.toNat < 0x80 ∧ b = asciiByte c := by
    rcases Bool.or_eq_true_iff.mp owed with space | tab
    · exact ⟨' ', rfl, by decide, beq_iff_eq.mp space⟩
    · exact ⟨'\t', rfl, by decide, beq_iff_eq.mp tab⟩
  obtain ⟨c, hc, ascii, rfl⟩ := byte
  have ink : asciiByte c ≠ carriageReturn := by
    rintro eq
    rw [eq] at owed
    exact absurd owed (by decide)
  refine ⟨c, hc, ?_⟩
  simp only [decodeLine, String.toList_ofList, dropReturn_cons rest ink, decodeLossy_asciiByte ascii]

theorem decodeLine_dropWhile (line : List UInt8) :
    ∃ blanks : List Char, (∀ c ∈ blanks, isSpaceOrTab c = true) ∧
      (decodeLine line).toList = blanks ++ (decodeLine (line.dropWhile isOwedBlank)).toList := by
  induction line with
  | nil => exact ⟨[], by simp, rfl⟩
  | cons b rest ih =>
    cases owed : isOwedBlank b with
    | false => exact ⟨[], by simp, by simp [owed]⟩
    | true =>
      obtain ⟨blanks, all, eq⟩ := ih
      obtain ⟨c, hc, first⟩ := decodeLine_blank owed rest
      refine ⟨c :: blanks, by simpa using ⟨hc, all⟩, ?_⟩
      rw [first, eq, List.dropWhile_cons_of_pos owed]
      rfl

/-- A line is as blank as what is left of it without its first blanks. -/
theorem isBlankLine_dropWhile (line : List UInt8) :
    isBlankLine (decodeLine (line.dropWhile isOwedBlank)) = isBlankLine (decodeLine line) := by
  obtain ⟨blanks, all, eq⟩ := decodeLine_dropWhile line
  have blank : ∀ c ∈ blanks, isBlank c = true := fun c hc => isBlank_of_isSpaceOrTab (all c hc)
  simp only [isBlankLine, allBlank, eq, List.all_append, List.all_eq_true.mpr blank, Bool.true_and]

/-- The body lines as they lie in the buffer: as printed, after an empty line that the last prompt
left, or with blanks missing that were taken for that prompt's. -/
inductive Worn : List (List UInt8) → List (List UInt8) → Prop where
  | same (lines : List (List UInt8)) : Worn lines lines
  | led (lines : List (List UInt8)) : Worn lines ([] :: lines)
  | stripped (line : List UInt8) (lines : List (List UInt8)) :
      Worn (line :: lines) (line.dropWhile isOwedBlank :: lines)

/-- A line that is no prompt, however much of it was read. -/
structure Plain (line : List UInt8) : Prop where
  whole : newline ∉ line
  noPrompt : ∀ piece, piece <+: line → isPrompt (decodeLine piece) = false

theorem plain_nil : Plain [] where
  whole := List.not_mem_nil
  noPrompt := by
    intro piece h
    rw [List.prefix_nil.mp h]
    decide

theorem plain_dropWhile {line : List UInt8} (whole : newline ∉ line)
    (plain : ¬BeginsWithPrompt ((decodeLine line).toList.dropWhile isSpaceOrTab)) :
    Plain (line.dropWhile isOwedBlank) where
  whole := fun h => whole ((List.dropWhile_sublist _).subset h)
  noPrompt := by
    intro piece h
    refine Bool.eq_false_iff.mpr fun prompt => plain ?_
    obtain ⟨blanks, all, eq⟩ := decodeLine_dropWhile line
    rw [eq]
    exact begins_dropWhile all (begins_of_isPrompt h prompt)

theorem plain_of_not_begins {line : List UInt8} (whole : newline ∉ line)
    (plain : ¬BeginsWithPrompt ((decodeLine line).toList.dropWhile isSpaceOrTab)) : Plain line where
  whole := whole
  noPrompt := by
    intro piece h
    refine Bool.eq_false_iff.mpr fun prompt => plain ?_
    have begins := begins_dropWhile (List.forall_mem_nil _) (begins_of_isPrompt h prompt)
    exact begins

/-- However worn, no body line can be taken for a prompt. -/
theorem Printout.worn_plain (x : Printout) {lines : List (List UInt8)} (worn : Worn x.body lines) :
    ∀ line ∈ lines, Plain line := by
  have printed : ∀ line ∈ x.body, Plain line := fun line h =>
    plain_of_not_begins (x.whole line h) (x.plain line h)
  generalize hb : x.body = body at worn printed
  cases worn with
  | same => exact printed
  | led =>
    intro line h
    rcases List.mem_cons.mp h with rfl | h
    · exact plain_nil
    · exact printed line h
  | stripped first rest =>
    intro line h
    have own : first ∈ x.body := hb ▸ List.mem_cons_self
    rcases List.mem_cons.mp h with rfl | h
    · exact plain_dropWhile (x.whole first own) (x.plain first own)
    · exact printed line (List.mem_cons_of_mem first h)

theorem isPrompt_piece {p : PromptForm} {piece : List UInt8} (h : piece <+: p.bytes)
    (short : piece ≠ p.bytes) : isPrompt (decodeLine piece) = false := by
  obtain ⟨rest, eq⟩ := h
  rw [p.bytes_eq] at eq short
  obtain ⟨s, t, split, hs, ht⟩ := List.map_eq_append_iff.mp eq.symm
  have missing : t ≠ [] := by
    rintro rfl
    exact short (by rw [split, List.append_nil, hs])
  have printable : Printable s := fun c hc => text_printable p c (split ▸ List.mem_append_left t hc)
  have noEnd : '>' ∉ s := by
    intro mem
    refine mem_text_dropLast p ?_
    rw [split, List.dropLast_append_of_ne_nil missing]
    exact List.mem_append_left _ mem
  refine Bool.eq_false_iff.mpr fun prompt => noEnd ?_
  obtain ⟨q, blanks, text, _⟩ := eq_text_of_isPrompt prompt
  rw [← hs, decodeLine_printable printable, String.toList_ofList] at text
  rw [text]
  exact List.mem_append_left _ (List.mem_of_getLast? (getLast_text q))

/-- Until the whole prompt was read, nothing that was read is a prompt. -/
theorem pieces_not_prompt {lines : List (List UInt8)} {p : PromptForm} {read : List UInt8}
    (plain : ∀ line ∈ lines, Plain line) (h : read <+: joinLines lines ++ p.bytes)
    (short : read ≠ joinLines lines ++ p.bytes) :
    ∀ piece ∈ pieces read, isPrompt (decodeLine piece) = false := by
  induction lines generalizing read with
  | nil =>
    have noBreak : newline ∉ read := by
      intro mem
      have inPrompt : newline ∈ p.bytes := h.subset mem
      rw [p.bytes_eq] at inPrompt
      exact newline_not_mem (text_printable p) inPrompt
    rw [LineBuffer.pieces_whole noBreak]
    intro piece hp
    rw [List.mem_singleton.mp hp]
    exact isPrompt_piece h short
  | cons line lines ih =>
    have own := plain line List.mem_cons_self
    rw [joinLines_cons] at h short
    have inFirst : read <+: line → ∀ piece ∈ pieces read, isPrompt (decodeLine piece) = false := by
      intro within piece hp
      rw [LineBuffer.pieces_whole fun mem => own.whole (within.subset mem)] at hp
      rw [List.mem_singleton.mp hp]
      exact own.noPrompt read within
    -- What was read ends within the first line, or it goes on after it.
    obtain ⟨unread, eq⟩ := h
    rcases List.append_eq_append_iff.mp eq with ⟨more, rfl, _⟩ | ⟨more, rfl, later⟩
    · exact inFirst (List.prefix_append read more)
    · cases more with
      | nil => exact inFirst (by simp)
      | cons b more =>
        obtain ⟨rfl, rest⟩ := List.cons.inj later
        rw [LineBuffer.pieces_append_newline, LineBuffer.pieces_whole own.whole]
        intro piece hp
        rcases List.mem_append.mp hp with first | later
        · rw [List.mem_singleton.mp first]
          exact own.noPrompt line List.prefix_rfl
        · refine ih (fun l hl => plain l (List.mem_cons_of_mem line hl)) ⟨unread, rest.symm⟩ ?_ piece later
          rintro rfl
          exact short rfl

def tailBlanks (space : Bool) : List Char := if space then [' '] else []

theorem tailBlanks_blank (space : Bool) : allBlank (tailBlanks space) = true := by
  cases space <;> decide

theorem view_prompted {lines : List (List UInt8)} (plain : ∀ line ∈ lines, Plain line)
    (p : PromptForm) (space newline : Bool) :
    (LineBuffer.empty.push (joinLines lines ++ p.bytes ++ promptTail space newline)).view =
      promptedLines (lines.map decodeLine) p (tailBlanks space) newline := by
  have printable : Printable (p.text ++ tailBlanks space) := by
    intro c hc
    rcases List.mem_append.mp hc with text | blank
    · exact text_printable p c text
    · cases space with
      | false => simp [tailBlanks] at blank
      | true => rw [List.mem_singleton.mp blank]; decide
  have line : p.bytes ++ (if space then [32] else []) = (p.text ++ tailBlanks space).map asciiByte := by
    rw [p.bytes_eq, List.map_append]
    cases space <;> rfl
  have noBreak := newline_not_mem printable
  have last : pieces ((p.text ++ tailBlanks space).map asciiByte ++
        (if newline then [LineBuffer.newline] else [])) =
      (p.text ++ tailBlanks space).map asciiByte :: if newline then [[]] else [] := by
    cases newline with
    | false => simpa using LineBuffer.pieces_whole noBreak
    | true =>
      have cut := LineBuffer.pieces_append_newline ((p.text ++ tailBlanks space).map asciiByte) []
      rw [LineBuffer.pieces_whole noBreak, LineBuffer.pieces_whole List.not_mem_nil] at cut
      exact cut
  rw [LineBuffer.view_push_empty, List.append_assoc, pieces_joinLines fun l hl => (plain l hl).whole,
    promptTail, ← List.append_assoc p.bytes, line, last, promptedLines, List.map_append, List.map_cons,
    decodeLine_printable printable]
  cases newline <;> rfl

theorem mayOweBlanks_prompted (init : List String) (p : PromptForm) (space newline : Bool) :
    Relay.mayOweBlanks (promptedLines init p (tailBlanks space) newline) =
      (promptTail space newline).isEmpty := by
  have ink : isBlank '>' = false := by decide
  have blank : isBlank ' ' = true := by decide
  cases newline <;> cases space <;>
    simp [Relay.mayOweBlanks, promptedLines, tailBlanks, promptTail, getLast_text, ink, blank]

theorem promptTail_dropWhile (space newline : Bool) :
    (promptTail space newline).dropWhile isOwedBlank = if newline then [LineBuffer.newline] else [] := by
  cases space <;> cases newline <;> decide

/-- What may still come after the part of the blanks that was read, those left out that the relay
drops. -/
theorem promptTail_cut {space newline : Bool} {read unread : List UInt8}
    (h : read ++ unread = promptTail space newline) :
    ∃ space' newline', read = promptTail space' newline' ∧ (newline' = true → newline = true) ∧
      ((if read.isEmpty then unread.dropWhile isOwedBlank else unread) = [] ∨
        (if read.isEmpty then unread.dropWhile isOwedBlank else unread) = [LineBuffer.newline]) := by
  have owed : isOwedBlank 32 = true ∧ isOwedBlank LineBuffer.newline = false := by decide
  match read with
  | [] =>
    refine ⟨false, false, rfl, by simp, ?_⟩
    rw [List.nil_append] at h
    subst h
    cases space <;> cases newline <;> simp [promptTail, owed]
  | b :: [] =>
    cases space <;> cases newline <;> simp [promptTail] at h
    all_goals obtain ⟨rfl, rfl⟩ := h
    · exact ⟨false, true, rfl, id, Or.inl rfl⟩
    · exact ⟨true, false, rfl, by simp, Or.inl rfl⟩
    · exact ⟨true, false, rfl, by simp, Or.inr rfl⟩
  | b :: c :: read =>
    cases space <;> cases newline <;> simp [promptTail] at h
    obtain ⟨rfl, rfl, rfl, rfl⟩ := h
    exact ⟨true, true, rfl, id, Or.inl rfl⟩

theorem ofBody_head {first second : String} (rest : List String)
    (h : trimLeft first.toList = trimLeft second.toList) :
    Shape.ofBody (first :: rest) = Shape.ofBody (second :: rest) := by
  have assigned : assigned? first.toList = assigned? second.toList := by simp [assigned?, h]
  cases rest with
  | nil => simp [Shape.ofBody, Shape.single?, Shape.grid?, singleValue?, assigned]
  | cons line rest => simp [Shape.ofBody, Shape.single?, Shape.grid?, gridHeader?, assigned]

/-- Worn body lines have the shape of the printed ones. -/
theorem worn_shape {body lines : List (List UInt8)} (worn : Worn body lines) :
    Shape.ofBody ((lines.map decodeLine).dropWhile isBlankLine) =
      Shape.ofBody ((body.map decodeLine).dropWhile isBlankLine) := by
  cases worn with
  | same => rfl
  | led => rfl
  | stripped line rest =>
    obtain ⟨blanks, all, eq⟩ := decodeLine_dropWhile line
    simp only [List.map_cons, List.dropWhile_cons, isBlankLine_dropWhile]
    split
    next => rfl
    next =>
      refine ofBody_head _ ?_
      rw [eq, trimLeft_append fun c hc => isBlank_of_isSpaceOrTab (all c hc)]

/-- Once the prompt was read, the lines make the reply, whatever of the blanks after it was read. -/
theorem Printout.fits_prompted (x : Printout) {lines : List (List UInt8)} (worn : Worn x.body lines)
    (space newline : Bool) :
    x.Fits (.ofLines (promptedLines (lines.map decodeLine) x.prompt (tailBlanks space) newline)) := by
  have blank := tailBlanks_blank space
  refine ⟨?_, inDebugMode_promptedLines _ x.prompt blank newline⟩
  rw [Reply.shape, bodyOf_promptedLines _ x.prompt blank]
  exact worn_shape worn

end PromptRelay
