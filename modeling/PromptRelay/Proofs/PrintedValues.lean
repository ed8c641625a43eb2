import PromptRelay.Proofs.ReplyFraming

namespace PromptRelay

theorem Assigns.not_blank {name rest line : List Char} (h : Assigns name rest line) :
    allBlank line = false := by
  obtain ⟨lead, gap, _, _, identifier, rfl⟩ := h
  obtain ⟨c, later, rfl, _⟩ := identifier.start
  have ink := identifier.isToken.ink c List.mem_cons_self
  simp [allBlank, ink]

theorem showsValue_plain {name value : List Char} (identifier : IsIdentifier name)
    (token : IsToken value) : ShowsValue name value (name ++ " = ".toList ++ value) :=
  ⟨' ' :: value, [' '], [], ⟨[], [' '], rfl, rfl, identifier, by simp⟩, by simp, rfl, rfl, token⟩

theorem opensGrid_plain {name : List Char} (identifier : IsIdentifier name) :
    OpensGrid name (name ++ " =".toList) :=
  ⟨[], ⟨[], [' '], rfl, rfl, identifier, by simp⟩, rfl⟩

theorem spaced_flatMap {row : List (List Char)} (tokens : ∀ t ∈ row, IsToken t) :
    Spaced row (row.flatMap (' ' :: ·)) := by
  induction row with
  | nil => exact .blanks rfl
  | cons t row ih =>
    have later := ih fun u hu => tokens u (List.mem_cons_of_mem t hu)
    have stop : ∀ c ∈ (row.flatMap (' ' :: ·)).head?, isBlank c = true := by
      cases row with
      | nil => simp
      | cons u row => simp [isBlank_space]
    exact (Spaced.cons_token (tokens t List.mem_cons_self) stop later).cons_blank isBlank_space

/-- Every grid of tokens can be printed. -/
theorem exists_showRows {rows : List (List String)}
    (printable : ∀ row ∈ rows, row ≠ [] ∧ ∀ token ∈ row, IsToken token.toList) :
    ∃ lines, ShowRows rows lines := by
  induction rows with
  | nil => exact ⟨[], .nil⟩
  | cons row rows ih =>
    obtain ⟨lines, later⟩ := ih fun r hr => printable r (List.mem_cons_of_mem row hr)
    obtain ⟨some_, tokens⟩ := printable row List.mem_cons_self
    refine ⟨.ofList ((row.map String.toList).flatMap (' ' :: ·)) :: lines, .row some_ ?_ later⟩
    rw [String.toList_ofList]
    refine spaced_flatMap fun t ht => ?_
    obtain ⟨token, mem, rfl⟩ := List.mem_map.mp ht
    exact tokens token mem

/-- Values that a reply prints are read back, whatever the mode and whichever prompt it admits,
with any blank lines before them: a single value, and a grid with any blanks between and around
its tokens and any blank lines between its rows, whatever the tokens spell. -/
theorem printed_values_come_back {name : String} (identifier : IsIdentifier name.toList) {mode : Mode}
    {p : PromptForm} (admits : mode.admits p = true) {blanks : List Char}
    (blank : allBlank blanks = true) {newline : Bool} (debugOnly : newline = true → p.isDebug = true)
    {leading : List String} (empty : ∀ line ∈ leading, isBlankLine line = true) :
    (∀ value, IsToken value.toList →
      classify (promptedLines (leading ++ [name ++ " = " ++ value]) p blanks newline) mode =
        .single name value) ∧
    (∀ rows, (∀ row ∈ rows, row ≠ [] ∧ ∀ token ∈ row, IsToken token.toList) →
      (∃ lines, ShowRows rows lines) ∧
      ∀ lines, ShowRows rows lines →
        let shape := classify
          (promptedLines (leading ++ (name ++ " =") :: (lines ++ [""])) p blanks newline) mode
        shape = .grid name rows ∧ shape.values = rows ∧
          shape.text? = some ("; ".intercalate (rows.map (" ".intercalate ·)))) := by
  have body : ∀ first rest, isBlankLine first = false →
      classify (promptedLines (leading ++ first :: rest) p blanks newline) mode =
        .ofBody (first :: rest) := by
    intro first rest ink
    have stop : ∀ line ∈ (first :: rest).head?, isBlankLine line = false := by simpa using ink
    rw [classify_promptedLines admits _ blank debugOnly, (takeWhile_append_stop empty stop).2]
  refine ⟨fun value token => ?_, fun rows printable => ⟨exists_showRows printable, ?_⟩⟩
  · have shows : ShowsValue name.toList value.toList (name ++ " = " ++ value).toList := by
      simpa using showsValue_plain identifier token
    obtain ⟨rest, lead, tail, assigns, _⟩ := id shows
    rw [body _ _ assigns.not_blank]
    exact Shape.ofBody_single_iff.mpr ⟨_, rfl, shows⟩
  · intro lines shown
    have opens : OpensGrid name.toList (name ++ " =").toList := by
      simpa using opensGrid_plain identifier
    obtain ⟨rest, assigns, _⟩ := id opens
    have grid := Shape.ofBody_grid_iff.mpr ⟨_, lines, rfl, opens, shown⟩
    rw [body _ _ assigns.not_blank, grid]
    exact ⟨rfl, rfl, rfl⟩

/-- Tokens that spell a prompt, a header or an equals sign come back, from between blanks of other
kinds. -/
theorem odd_grid_comes_back :
    classify (promptedLines (["", " "] ++ "m =" :: (["1\u00a0 debug>", "\t", "  =  m= "] ++ [""]))
      (.debug true) [' '] true) .debug = .grid "m" [["1", "debug>"], ["=", "m="]] := by
  have identifier : IsIdentifier "m".toList := by decide
  have rows : ∀ row ∈ [["1", "debug>"], ["=", "m="]],
      row ≠ [] ∧ ∀ token ∈ row, IsToken token.toList := by decide
  have shown : ShowRows [["1", "debug>"], ["=", "m="]] ["1\u00a0 debug>", "\t", "  =  m= "] :=
    rowsOf_eq_iff.mp (by decide)
  have admits : Mode.debug.admits (.debug true) = true := rfl
  have blank : allBlank [' '] = true := rfl
  have debugOnly : true = true → PromptForm.isDebug (.debug true) = true := fun _ => rfl
  have empty : ∀ line ∈ ["", " "], isBlankLine line = true := by decide
  exact ((printed_values_come_back identifier admits blank debugOnly empty).2 _ rows).2 _ shown |>.1

end PromptRelay
