import PromptRelay.Proofs.DecimalNumbers
import PromptRelay.Proofs.NameParts
import PromptRelay.Proofs.StopContext

namespace PromptRelay

/-- The line that opens a stack dump: `error: called from`, blanks around it. -/
def OpensDump (line : String) : Prop :=
  ∃ lead tail, allBlank lead = true ∧ allBlank tail = true ∧
    line.toList = lead ++ "error: called from".toList ++ tail

/-- The first line that opens a dump, between the lines before and after it. -/
structure FirstDump (before : List String) (header : String) (after lines : List String) : Prop where
  split : lines = before ++ header :: after
  opens : OpensDump header
  first : ∀ line ∈ before, ¬OpensDump line

/-- A line `<name> at line <L> column <C>`, blanks around it, the numbers within 32 bits. -/
structure ShowsPlace (place : String × Nat × Nat) (line : String) : Prop where
  token : IsToken place.1.toList
  line_le : place.2.1 ≤ max32
  column_le : place.2.2 ≤ max32
  form : ∃ lead l c tail, allBlank lead = true ∧ allBlank tail = true ∧
    IsDecimal place.2.1 l ∧ IsDecimal place.2.2 c ∧
    line.toList = lead ++ place.1.toList ++ " at line ".toList ++ l ++ " column ".toList ++ c ++ tail

namespace Frame

def place (f : Frame) : String × Nat × Nat := (f.name, f.line, f.column)

/-- A line of a dump that tells of the frame. -/
def ShownBy (f : Frame) (line : String) : Prop :=
  ShowsPlace f.place line ∧ IsFunctionOf f.function.toList f.name.toList

end Frame

/-- A phrase at the start of a line, blanks before it left out. -/
theorem after?_trimLeft_eq_some_iff {phrase : String}
    (ink : phrase.toList.head?.any (!isBlank ·) = true) {s rest : List Char} :
    after? phrase (trimLeft s) = some rest ↔
      ∃ lead, allBlank lead = true ∧ s = lead ++ phrase.toList ++ rest := by
  constructor
  · intro found
    obtain ⟨lead, blank, split⟩ := eq_append_trimLeft s
    refine ⟨lead, blank, ?_⟩
    rw [List.append_assoc, ← eq_append_of_after? found]
    exact split
  · rintro ⟨lead, blank, rfl⟩
    have start : trimLeft (lead ++ (phrase.toList ++ rest)) = phrase.toList ++ rest := by
      refine trimLeft_append_ink blank fun c hc => ?_
      cases first : phrase.toList.head? with
      | none => simp [first] at ink
      | some d =>
        rw [List.head?_append, first, Option.some_or] at hc
        cases hc
        simpa [first] using ink
    rw [List.append_assoc, start, after?_append]

theorem isDumpHeader_iff {line : String} : isDumpHeader line.toList = true ↔ OpensDump line := by
  have reads : ∀ {tail}, after? "error: called from" (trimLeft line.toList) = some tail ↔ _ :=
    after?_trimLeft_eq_some_iff (by decide)
  constructor
  · intro h
    unfold isDumpHeader at h
    split at h
    next tail found =>
      obtain ⟨lead, blank, split⟩ := reads.mp found
      exact ⟨lead, tail, blank, h, split⟩
    next => cases h
  · rintro ⟨lead, tail, blank, tailBlank, split⟩
    rw [isDumpHeader, reads.mpr ⟨lead, blank, split⟩]
    exact tailBlank

theorem not_opensDump_iff {line : String} : isDumpHeader line.toList = false ↔ ¬OpensDump line := by
  rw [← isDumpHeader_iff, Bool.not_eq_true]

theorem atLine?_eq_some_iff {s number rest : List Char} :
    atLine? s = some (number, rest) ↔ s = " at line ".toList ++ number ++ rest ∧
      (∃ n, IsDecimal n number) ∧ ∀ c ∈ rest.head?, c.isDigit = false := by
  simp only [atLine?, bind, Option.bind_eq_some_iff, digits?_eq_some_iff]
  constructor
  · rintro ⟨later, lead, rfl, decimal, stop⟩
    exact ⟨by rw [eq_append_of_after? lead, List.append_assoc], decimal, stop⟩
  · rintro ⟨rfl, decimal, stop⟩
    exact ⟨number ++ rest, by rw [List.append_assoc, after?_append], rfl, decimal, stop⟩

theorem dumpFrame?_eq_some_iff {s name l c : List Char} :
    dumpFrame? s = some (name, l, c) ↔ ∃ lead tail, allBlank lead = true ∧ allBlank tail = true ∧
      IsToken name ∧ (∃ n, IsDecimal n l) ∧ (∃ n, IsDecimal n c) ∧
      s = lead ++ name ++ " at line ".toList ++ l ++ " column ".toList ++ c ++ tail := by
  constructor
  · intro h
    simp only [dumpFrame?, bind, Option.bind_eq_some_iff] at h
    obtain ⟨⟨name', later⟩, word, ⟨l', rest⟩, atLine, number, column, ⟨c', tail⟩, digits, h⟩ := h
    split at h
    next tailBlank =>
      cases h
      obtain ⟨split, token, -⟩ := word?_eq_some_iff.mp word
      obtain ⟨rfl, lineDecimal, -⟩ := atLine?_eq_some_iff.mp atLine
      obtain ⟨rfl, columnDecimal, -⟩ := digits?_eq_some_iff.mp digits
      obtain ⟨lead, leadBlank, eq⟩ := eq_append_trimLeft s
      refine ⟨lead, tail, leadBlank, tailBlank, token, lineDecimal, columnDecimal, ?_⟩
      have between : rest = " column ".toList ++ (c' ++ tail) := eq_append_of_after? column
      rw [eq, split, between]
      simp only [List.append_assoc]
    next => cases h
  · rintro ⟨lead, tail, leadBlank, tailBlank, token, lineDecimal, columnDecimal, rfl⟩
    let afterLine := " column ".toList ++ (c ++ tail)
    let afterName := " at line ".toList ++ (l ++ afterLine)
    have start : trimLeft (lead ++ (name ++ afterName)) = name ++ afterName :=
      trimLeft_append_ink leadBlank (token.head_ink _)
    have word : word? (name ++ afterName) = some (name, afterName) :=
      word?_eq_some_iff.mpr ⟨rfl, token, fun d hd => by cases hd; decide⟩
    have atLine : atLine? afterName = some (l, afterLine) :=
      atLine?_eq_some_iff.mpr ⟨by rw [List.append_assoc], lineDecimal, fun d hd => by cases hd; decide⟩
    have column : after? " column " afterLine = some (c ++ tail) := after?_append " column " _
    have digits : digits? (c ++ tail) = some (c, tail) := by
      refine digits?_eq_some_iff.mpr ⟨rfl, columnDecimal, fun d hd => ?_⟩
      have blank := List.all_eq_true.mp tailBlank d (List.mem_of_mem_head? hd)
      exact Bool.eq_false_iff.mpr fun digit => by simp [isBlank_of_isDigit digit] at blank
    simp only [List.append_assoc]
    simp only [dumpFrame?, start, word, atLine, column, digits, tailBlank, bind, Option.bind_some,
      if_true, afterName, afterLine]

namespace Frame

theorem ofDumpLine?_eq_some_iff {id : Nat} {line : String} {f : Frame} :
    ofDumpLine? id line = some f ↔ f.id = id ∧ f.ShownBy line := by
  simp only [ofDumpLine?, bind, Option.bind_eq_some_iff, pure, Option.some.injEq]
  constructor
  · rintro ⟨⟨name, l, c⟩, read, lineNumber, first, column, second, rfl⟩
    obtain ⟨lead, tail, leadBlank, tailBlank, token, ⟨n, lineDecimal⟩, ⟨m, columnDecimal⟩, eq⟩ :=
      dumpFrame?_eq_some_iff.mp read
    obtain ⟨lineValue, lineWithin⟩ := (position?_eq_some_iff lineDecimal.digit).mp first
    obtain ⟨columnValue, columnWithin⟩ := (position?_eq_some_iff columnDecimal.digit).mp second
    refine ⟨rfl, ⟨by simpa [place] using token, lineWithin, columnWithin,
      lead, l, c, tail, leadBlank, tailBlank, lineValue, columnValue, by simpa [place] using eq⟩, ?_⟩
    simpa using functionPart_eq_iff.mp rfl
  · rintro ⟨rfl, ⟨token, lineWithin, columnWithin, lead, l, c, tail, leadBlank, tailBlank, lineValue,
      columnValue, eq⟩, function⟩
    have read := dumpFrame?_eq_some_iff.mpr
      ⟨lead, tail, leadBlank, tailBlank, token, ⟨_, lineValue⟩, ⟨_, columnValue⟩, eq⟩
    refine ⟨_, read, f.line, ?_, f.column, ?_, ?_⟩
    · exact (position?_eq_some_iff lineValue.digit).mpr ⟨lineValue, lineWithin⟩
    · exact (position?_eq_some_iff columnValue.digit).mpr ⟨columnValue, columnWithin⟩
    · simp [place, functionPart_eq_iff.mpr function]

theorem ofDumpLine?_of_showsPlace {place : String × Nat × Nat} {line : String}
    (shown : ShowsPlace place line) (id : Nat) : ∃ f, ofDumpLine? id line = some f ∧ f.place = place := by
  obtain ⟨name, l, c⟩ := place
  have function : IsFunctionOf (functionPart name.toList) name.toList := functionPart_eq_iff.mp rfl
  rw [← String.toList_ofList (l := functionPart name.toList)] at function
  exact ⟨⟨id, name, .ofList (functionPart name.toList), l, c⟩,
    ofDumpLine?_eq_some_iff.mpr ⟨rfl, shown, function⟩, rfl⟩

theorem ofDumpLine?_eq_none_iff {id : Nat} {line : String} :
    ofDumpLine? id line = none ↔ ∀ place, ¬ShowsPlace place line := by
  constructor
  · intro none place shown
    obtain ⟨f, read, -⟩ := ofDumpLine?_of_showsPlace shown id
    rw [none] at read
    cases read
  · intro unshown
    cases read : ofDumpLine? id line with
    | none => rfl
    | some f => exact absurd (ofDumpLine?_eq_some_iff.mp read).2.1 (unshown f.place)

/-- The frames read from lines are those of the longest run at their start. -/
theorem run_eq_iff {id : Nat} {lines : List String} {frames : List Frame} :
    run id lines = frames ↔ frames.map (·.id) = List.range' id frames.length ∧
      ∃ shown rest, lines = shown ++ rest ∧ List.Forall₂ ShownBy frames shown ∧
        ∀ line ∈ rest.head?, ∀ place, ¬ShowsPlace place line := by
  constructor
  · rintro rfl
    induction lines generalizing id with
    | nil => exact ⟨rfl, [], [], rfl, .nil, by simp⟩
    | cons line lines ih =>
      cases read : ofDumpLine? id line with
      | none =>
        simp only [run, read]
        exact ⟨rfl, [], line :: lines, rfl, .nil, by simpa using ofDumpLine?_eq_none_iff.mp read⟩
      | some f =>
        obtain ⟨own, told⟩ := ofDumpLine?_eq_some_iff.mp read
        obtain ⟨ids, shown, rest, rfl, frames, stop⟩ := @ih (id + 1)
        simp only [run, read]
        refine ⟨?_, line :: shown, rest, rfl, .cons told frames, stop⟩
        rw [List.map_cons, List.length_cons, List.range'_succ, own, ids]
  · rintro ⟨ids, shown, rest, rfl, frames, stop⟩
    induction frames generalizing id with
    | nil =>
      cases rest with
      | nil => rfl
      | cons line rest =>
        have none : ofDumpLine? id line = none := ofDumpLine?_eq_none_iff.mpr (stop line rfl)
        rw [List.nil_append, run, none]
    | @cons f line frames shown told _ ih =>
      rw [List.map_cons, List.length_cons, List.range'_succ] at ids
      obtain ⟨own, later⟩ := List.cons.inj ids
      have read := ofDumpLine?_eq_some_iff.mpr ⟨own, told⟩
      rw [List.cons_append, run, read, ih later]

theorem run_of_places {places : List (String × Nat × Nat)} {shown rest : List String}
    (printed : List.Forall₂ ShowsPlace places shown)
    (stop : ∀ line ∈ rest.head?, ∀ place, ¬ShowsPlace place line) (id : Nat) :
    (run id (shown ++ rest)).map place = places := by
  induction printed generalizing id with
  | nil =>
    cases rest with
    | nil => rfl
    | cons line rest =>
      have none : ofDumpLine? id line = none := ofDumpLine?_eq_none_iff.mpr (stop line rfl)
      rw [List.nil_append, run, none]
      rfl
  | cons first _ ih =>
    obtain ⟨f, read, own⟩ := ofDumpLine?_of_showsPlace first id
    rw [List.cons_append, run, read, List.map_cons, own, ih]

end Frame

theorem ShowsPlace.not_blank {place : String × Nat × Nat} {line : String} (h : ShowsPlace place line) :
    isBlankLine line = false := by
  obtain ⟨lead, l, c, tail, -, -, -, -, eq⟩ := h.form
  obtain ⟨d, mem⟩ := List.exists_mem_of_ne_nil _ h.token.ne_nil
  refine Bool.eq_false_iff.mpr fun blank => ?_
  have own := List.all_eq_true.mp blank d (by rw [eq]; simp [mem])
  rw [h.token.ink d mem] at own
  cases own

/-- Every place can be printed. -/
theorem exists_showsPlace {place : String × Nat × Nat} (token : IsToken place.1.toList)
    (line_le : place.2.1 ≤ max32) (column_le : place.2.2 ≤ max32) : ∃ line, ShowsPlace place line := by
  refine ⟨place.1 ++ " at line " ++ toString place.2.1 ++ " column " ++ toString place.2.2,
    token, line_le, column_le, [], _, _, [], rfl, rfl, isDecimal_toString _, isDecimal_toString _, ?_⟩
  simp only [String.toList_append, List.nil_append, List.append_nil]

theorem firstDump_or_unopened (lines : List String) :
    (∃ before header after, FirstDump before header after lines) ∨ ∀ line ∈ lines, ¬OpensDump line := by
  induction lines with
  | nil => exact .inr (by simp)
  | cons line lines ih =>
    by_cases opens : OpensDump line
    · exact .inl ⟨[], line, lines, rfl, opens, by simp⟩
    · rcases ih with ⟨before, header, after, rfl, first, unopened⟩ | unopened
      · exact .inl ⟨line :: before, header, after, rfl, first,
          List.forall_mem_cons.mpr ⟨opens, unopened⟩⟩
      · exact .inr (List.forall_mem_cons.mpr ⟨opens, unopened⟩)

theorem FirstDump.stackDump?_eq {before after lines : List String} {header : String}
    (h : FirstDump before header after lines) : stackDump? lines = dumpOf (Frame.run 0 after) := by
  obtain ⟨rfl, opens, first⟩ := h
  exact stackDump?_of_header (fun line mem => not_opensDump_iff.mpr (first line mem))
    (isDumpHeader_iff.mpr opens)

theorem stackDump?_of_unopened {lines : List String} (unopened : ∀ line ∈ lines, ¬OpensDump line) :
    stackDump? lines = none := by
  have skipped := stackDump?_without_header
    (fun line mem => not_opensDump_iff.mpr (unopened line mem)) []
  rwa [List.append_nil] at skipped

theorem dumpOf_eq_some_iff {found frames : List Frame} :
    dumpOf found = some frames ↔ frames ≠ [] ∧ found = frames := by
  unfold dumpOf
  split
  next none =>
    constructor
    · intro h
      cases h
    · rintro ⟨some_, rfl⟩
      exact absurd none some_
  next some_ =>
    constructor
    · intro h
      cases h
      exact ⟨some_, rfl⟩
    · rintro ⟨-, rfl⟩
      rfl

theorem stackDump?_eq_some_iff {lines : List String} {frames : List Frame} :
    stackDump? lines = some frames ↔ frames ≠ [] ∧ ∃ before header after,
      FirstDump before header after lines ∧ Frame.run 0 after = frames := by
  constructor
  · intro h
    rcases firstDump_or_unopened lines with ⟨before, header, after, dump⟩ | unopened
    · rw [dump.stackDump?_eq, dumpOf_eq_some_iff] at h
      exact ⟨h.1, before, header, after, dump, h.2⟩
    · rw [stackDump?_of_unopened unopened] at h
      cases h
  · rintro ⟨some_, before, header, after, dump, rfl⟩
    rw [dump.stackDump?_eq, dumpOf_eq_some_iff]
    exact ⟨some_, rfl⟩

theorem run_eq_nil_iff {lines : List String} :
    Frame.run 0 lines = [] ↔ ∀ line ∈ lines.head?, ∀ place, ¬ShowsPlace place line := by
  rw [Frame.run_eq_iff]
  constructor
  · rintro ⟨-, shown, rest, rfl, none, stop⟩
    cases none
    exact stop
  · exact fun stop => ⟨rfl, [], lines, rfl, .nil, stop⟩

theorem stackDump?_eq_none_iff {lines : List String} :
    stackDump? lines = none ↔ ∀ before header after, FirstDump before header after lines →
      ∀ line ∈ after.head?, ∀ place, ¬ShowsPlace place line := by
  constructor
  · intro none before header after dump
    rw [← run_eq_nil_iff]
    by_contra some_
    have found := stackDump?_eq_some_iff.mpr ⟨some_, before, header, after, dump, rfl⟩
    rw [none] at found
    cases found
  · intro empty
    cases read : stackDump? lines with
    | none => rfl
    | some frames =>
      obtain ⟨some_, before, header, after, dump, rfl⟩ := stackDump?_eq_some_iff.mp read
      exact absurd (run_eq_nil_iff.mpr (empty before header after dump)) some_

/-- A stack dump is the longest run of frame lines right after the first line that opens a dump; the
frames are numbered by their places in the run, and there is no dump without such a line or with no
frame after it. So places printed after that line are read back, whatever follows them. -/
theorem dump_is_longest_run_after_first_header (lines : List String) :
    (∀ frames, stackDump? lines = some frames ↔
      frames ≠ [] ∧ frames.map (·.id) = List.range frames.length ∧
        ∃ before header shown rest, FirstDump before header (shown ++ rest) lines ∧
          List.Forall₂ Frame.ShownBy frames shown ∧
          ∀ line ∈ rest.head?, ∀ place, ¬ShowsPlace place line) ∧
    (stackDump? lines = none ↔ ∀ before header after, FirstDump before header after lines →
      ∀ line ∈ after.head?, ∀ place, ¬ShowsPlace place line) ∧
    (∀ place : String × Nat × Nat, IsToken place.1.toList → place.2.1 ≤ max32 → place.2.2 ≤ max32 →
      ∃ line, ShowsPlace place line) ∧
    ∀ places before header shown rest, places ≠ [] → FirstDump before header (shown ++ rest) lines →
      List.Forall₂ ShowsPlace places shown →
      (∀ line ∈ rest.head?, isBlankLine line = true ∨ ∀ place, ¬ShowsPlace place line) →
      ∃ frames, stackDump? lines = some frames ∧ frames.map Frame.place = places := by
  refine ⟨fun frames => ?_, stackDump?_eq_none_iff, fun place => exists_showsPlace, ?_⟩
  · rw [stackDump?_eq_some_iff, List.range_eq_range']
    constructor
    · rintro ⟨some_, before, header, after, dump, run⟩
      obtain ⟨ids, shown, rest, rfl, told, stop⟩ := Frame.run_eq_iff.mp run
      exact ⟨some_, ids, before, header, shown, rest, dump, told, stop⟩
    · rintro ⟨some_, ids, before, header, shown, rest, dump, told, stop⟩
      exact ⟨some_, before, header, _, dump, Frame.run_eq_iff.mpr ⟨ids, shown, rest, rfl, told, stop⟩⟩
  · intro places before header shown rest some_ dump printed ends
    have stop : ∀ line ∈ rest.head?, ∀ place, ¬ShowsPlace place line := by
      intro line mem place also
      rcases ends line mem with blank | none
      · rw [also.not_blank] at blank
        cases blank
      · exact none place also
    have read := Frame.run_of_places printed stop 0
    have found : Frame.run 0 (shown ++ rest) ≠ [] := by
      intro none
      rw [none] at read
      exact some_ read.symm
    exact ⟨_, stackDump?_eq_some_iff.mpr ⟨found, before, header, _, dump, rfl⟩, read⟩

/-- A number past 32 bits ends the run. -/
example : stackDump? ["error: called from", " f>g at line 007 column 4294967295",
    "h at line 4294967296 column 1"] = some [⟨0, "f>g", "g", 7, 4294967295⟩] := by
  decide

end PromptRelay
