import PromptRelay.Proofs.ListingRows

namespace PromptRelay

/-- The lines that are not blank. -/
def contentOf (lines : List String) : List String := lines.filter (!isBlankLine ·)

theorem rows_eq_take_drop (lines : List String) :
    Listing.rows lines = ((contentOf lines).take
      ((contentOf lines).length - Listing.trailingLines (contentOf lines))).drop 3 := rfl

theorem trailingLines_concat (init : List String) (last : String) :
    Listing.trailingLines (init ++ [last]) = if isPrompt last = true then 2 else 1 := by
  simp [Listing.trailingLines]

/-- How the lines of a listing that are not blank lie: three of heading, then rows, a footer, and
perhaps a prompt. Without a prompt the footer is the last line, and no prompt itself. -/
structure ListingLayout where
  heading : List String
  rows : List String
  footer : String
  prompt : Option String
  heading_length : heading.length = 3
  prompted : ∀ line ∈ prompt, isPrompt line = true
  unprompted : prompt = none → isPrompt footer = false

namespace ListingLayout

def content (l : ListingLayout) : List String := l.heading ++ l.rows ++ l.footer :: l.prompt.toList

theorem trailingLines_content (l : ListingLayout) :
    Listing.trailingLines l.content = (l.footer :: l.prompt.toList).length := by
  cases ends : l.prompt with
  | none =>
    have last : l.content = (l.heading ++ l.rows) ++ [l.footer] := by simp [content, ends]
    have noPrompt : ¬isPrompt l.footer = true := by simp [l.unprompted ends]
    rw [last, trailingLines_concat, if_neg noPrompt]
    rfl
  | some prompt =>
    have last : l.content = (l.heading ++ l.rows ++ [l.footer]) ++ [prompt] := by simp [content, ends]
    rw [last, trailingLines_concat, if_pos (l.prompted prompt ends)]
    rfl

theorem rows_eq {lines : List String} {l : ListingLayout} (laid : contentOf lines = l.content) :
    Listing.rows lines = l.rows := by
  have above : l.content.take (l.content.length - Listing.trailingLines l.content) =
      l.heading ++ l.rows := by
    rw [trailingLines_content, content, List.length_append, Nat.add_sub_cancel, List.take_left]
  rw [rows_eq_take_drop, laid, above]
  exact List.drop_left' l.heading_length

theorem getElem?_content (l : ListingLayout) {good later : List String} {bad : String}
    (rows : l.rows = good ++ bad :: later) : l.content[3 + good.length]? = some bad := by
  have place : (l.heading ++ good).length = 3 + good.length := by
    rw [List.length_append, l.heading_length]
  have split : l.content = (l.heading ++ good) ++ bad :: (later ++ l.footer :: l.prompt.toList) := by
    simp [content, rows]
  rw [split, ← place]
  simp

end ListingLayout

/-- Lines that are no listing have no rows. -/
theorem laid_or_no_rows (lines : List String) :
    (∃ l : ListingLayout, contentOf lines = l.content) ∨ Listing.rows lines = [] := by
  rw [rows_eq_take_drop]
  generalize contentOf lines = content
  rcases List.eq_nil_or_concat content with rfl | ⟨init, last, rfl⟩
  · exact .inr rfl
  rw [List.concat_eq_append, trailingLines_concat]
  by_cases ends : isPrompt last = true
  · -- The footer is the line before the prompt.
    rw [if_pos ends]
    rcases List.eq_nil_or_concat init with rfl | ⟨above, footer, rfl⟩
    · exact .inr rfl
    by_cases long : 3 ≤ above.length
    · refine .inl ⟨⟨above.take 3, above.drop 3, footer, some last, by simp [long], ?_, by simp⟩, ?_⟩
      · simpa using ends
      · simp [ListingLayout.content]
    · right
      simp only [List.concat_eq_append, List.length_append, List.length_singleton, List.drop_eq_nil_iff,
        List.length_take]
      omega
  · rw [if_neg ends]
    by_cases long : 3 ≤ init.length
    · refine .inl ⟨⟨init.take 3, init.drop 3, last, none, by simp [long], by simp, ?_⟩, ?_⟩
      · simpa using ends
      · simp [ListingLayout.content]
    · right
      simp only [List.length_append, List.length_singleton, List.drop_eq_nil_iff, List.length_take]
      omega

theorem contentOf_append (lines more : List String) :
    contentOf (lines ++ more) = contentOf lines ++ contentOf more := List.filter_append lines more

theorem ofLines_eq_of_content {lines other : List String} (h : contentOf other = contentOf lines) :
    Listing.ofLines other = Listing.ofLines lines := by
  rw [Listing.ofLines, Listing.ofLines, rows_eq_take_drop, rows_eq_take_drop, h]

theorem isBlankLine_of_isPrompt {line : String} (h : isPrompt line = true) : isBlankLine line = false := by
  obtain ⟨p, blanks, eq, -⟩ := eq_text_of_isPrompt h
  rw [isBlankLine, eq]
  cases p with
  | debug colon => rfl
  | normal number digits => rfl

theorem rows_append_prompt {lines : List String} {prompt : String} (h : isPrompt prompt = true)
    (unprompted : ∀ last ∈ (contentOf lines).getLast?, isPrompt last = false) :
    Listing.rows (lines ++ [prompt]) = Listing.rows lines := by
  have longer : contentOf (lines ++ [prompt]) = contentOf lines ++ [prompt] := by
    rw [contentOf_append]
    simp [contentOf, isBlankLine_of_isPrompt h]
  have before : Listing.trailingLines (contentOf lines) = 1 := by
    cases last : (contentOf lines).getLast? with
    | none => simp [Listing.trailingLines, last]
    | some line => simp [Listing.trailingLines, last, unprompted line last]
  have now : Listing.trailingLines (contentOf lines ++ [prompt]) = 2 := by
    rw [trailingLines_concat, if_pos h]
  have short : (contentOf lines).length + 1 - 2 = (contentOf lines).length - 1 := by omega
  rw [rows_eq_take_drop, rows_eq_take_drop, longer, before, now, List.length_append,
    List.length_singleton, short, List.take_append_of_le_length (by omega)]

/-- Rows that tell of variables, all of them, and what the listing is then. -/
theorem ofLines_of_rowsOf {lines : List String} {l : ListingLayout} (laid : contentOf lines = l.content)
    {vs : List Variable} (rows : RowsOf TellsOf vs l.rows) : Listing.ofLines lines = ⟨vs, none⟩ := by
  have read := Listing.readRows_rowsOf rows Listing.headingLines []
  rw [List.append_nil] at read
  rw [Listing.ofLines, ListingLayout.rows_eq laid, read]
  simp [Listing.readRows]

/-- The first faulty row, and what the listing is then, whatever the rows after it. -/
theorem ofLines_of_faulty {vs : List Variable} {good : List String} {bad : String}
    (rows : RowsOf TellsOf vs good) (faulty : IsFaulty bad) :
    ∃ message, ∀ {lines : List String} {l : ListingLayout} {later : List String},
      contentOf lines = l.content → l.rows = good ++ bad :: later →
      Listing.ofLines lines = ⟨vs, some (.listing (3 + good.length) message)⟩ := by
  obtain ⟨message, stops⟩ := Listing.readRows_faulty faulty
  refine ⟨message, fun {lines l later} laid split => ?_⟩
  have three : Listing.headingLines = 3 := rfl
  rw [Listing.ofLines, ListingLayout.rows_eq laid, split, List.map_append,
    Listing.readRows_rowsOf rows, List.map_cons, stops, List.append_nil, three]

theorem RowsOf.not_faulty {vs : List Variable} {lines : List String} (rows : RowsOf TellsOf vs lines) :
    ∀ row ∈ lines, ¬IsFaulty row := by
  induction rows with
  | nil => simp
  | separator signs _ ih => exact List.forall_mem_cons.mpr ⟨fun faulty => faulty.1 signs, ih⟩
  | row told _ ih =>
    refine List.forall_mem_cons.mpr ⟨?_, ih⟩
    rintro ⟨-, row, spaced, malformed⟩
    obtain ⟨other, also, describes⟩ := told
    have same : row = other := (tokens_of_spaced spaced).symm.trans (tokens_of_spaced also)
    exact malformed_iff.mp (same ▸ malformed) _ describes

theorem rowsOf_of_not_faulty {lines : List String} (sound : ∀ row ∈ lines, ¬IsFaulty row) :
    ∃ vs, RowsOf TellsOf vs lines := by
  rcases rows_cases lines with told | ⟨vs, good, bad, later, rfl, -, faulty⟩
  · exact told
  · exact absurd faulty (sound bad (by simp))

theorem rowsOf_of_no_fault {lines : List String} {l : ListingLayout} (laid : contentOf lines = l.content)
    (none : (Listing.ofLines lines).fault = none) :
    RowsOf TellsOf (Listing.ofLines lines).entries l.rows := by
  rcases rows_cases l.rows with ⟨vs, rows⟩ | ⟨vs, good, bad, later, split, rows, first⟩
  · rw [ofLines_of_rowsOf laid rows]
    exact rows
  · obtain ⟨message, stops⟩ := ofLines_of_faulty rows first
    rw [stops laid split] at none
    cases none

/-- What is read of a listing. Blank lines do not count, and neither does a prompt at the end. A
listing has a fault exactly if some row that is no separator is malformed; the fault then tells the
place of the first such row among the lines that are not blank, the variables are those of the rows
before it, and no later line has any influence. Without a fault every row that is no separator tells
of one variable. -/
theorem listing_kept_up_to_first_fault (lines : List String) :
    (∀ other, contentOf other = contentOf lines → Listing.ofLines other = Listing.ofLines lines) ∧
    (∀ prompt, isPrompt prompt = true → (∀ last ∈ (contentOf lines).getLast?, isPrompt last = false) →
      Listing.ofLines (lines ++ [prompt]) = Listing.ofLines lines ∧
      Listing.ofLines (lines ++ [prompt, ""]) = Listing.ofLines lines) ∧
    ((∀ l : ListingLayout, contentOf lines ≠ l.content) → Listing.ofLines lines = ⟨[], none⟩) ∧
    ∀ l : ListingLayout, contentOf lines = l.content →
      ((Listing.ofLines lines).fault ≠ none ↔ ∃ row ∈ l.rows, IsFaulty row) ∧
      ((Listing.ofLines lines).fault = none →
        RowsOf TellsOf (Listing.ofLines lines).entries l.rows) ∧
      ∀ good bad later, l.rows = good ++ bad :: later → (∀ row ∈ good, ¬IsFaulty row) → IsFaulty bad →
        (∃ message, (Listing.ofLines lines).fault = some (.listing (3 + good.length) message)) ∧
        (contentOf lines)[3 + good.length]? = some bad ∧
        RowsOf TellsOf (Listing.ofLines lines).entries good ∧
        ∀ other (m : ListingLayout), contentOf other = m.content → good ++ [bad] <+: m.rows →
          Listing.ofLines other = Listing.ofLines lines := by
  refine ⟨fun other same => ofLines_eq_of_content same, fun prompt is unprompted => ?_,
    fun unlaid => ?_, fun l laid => ⟨?_, ?_, ?_⟩⟩
  · have once : Listing.ofLines (lines ++ [prompt]) = Listing.ofLines lines := by
      rw [Listing.ofLines, rows_append_prompt is unprompted, Listing.ofLines]
    have blank : contentOf (lines ++ [prompt, ""]) = contentOf (lines ++ [prompt]) := by
      rw [contentOf_append, contentOf_append]
      rfl
    exact ⟨once, (ofLines_eq_of_content blank).trans once⟩
  · rcases laid_or_no_rows lines with ⟨l, laid⟩ | none
    · exact absurd laid (unlaid l)
    · rw [Listing.ofLines, none]
      rfl
  · constructor
    · intro fault
      by_contra sound
      obtain ⟨vs, rows⟩ := rowsOf_of_not_faulty fun row mem faulty => sound ⟨row, mem, faulty⟩
      rw [ofLines_of_rowsOf laid rows] at fault
      exact fault rfl
    · rintro ⟨row, mem, faulty⟩ none
      exact (rowsOf_of_no_fault laid none).not_faulty row mem faulty
  · exact rowsOf_of_no_fault laid
  · intro good bad later split sound faulty
    obtain ⟨vs, rows⟩ := rowsOf_of_not_faulty sound
    obtain ⟨message, stops⟩ := ofLines_of_faulty rows faulty
    have listing := stops laid split
    refine ⟨⟨message, by rw [listing]⟩, ?_, by rw [listing]; exact rows, ?_⟩
    · rw [laid]
      exact l.getElem?_content split
    · rintro other m laidToo ⟨more, agree⟩
      have shared : m.rows = good ++ bad :: more := by rw [← agree, List.append_assoc]; rfl
      rw [listing, stops laidToo shared]

/-- Rows after the first bad one are not read, be they good or bad. -/
example : (Listing.ofLines ["h", "h", "", "h", "== ==", "a 1x1 8 double", "broken row", "b 2x 8 double",
    "Total", "debug> ", ""]).fault = some (.listing 5 "expected 4 or 5 tokens, got 2") := by
  decide

end PromptRelay
