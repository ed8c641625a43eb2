import PromptRelay.Proofs.PromptText

namespace PromptRelay

/-- A name: letters, digits and underscores of ASCII, no digit first. -/
structure IsIdentifier (name : List Char) : Prop where
  word : ∀ c ∈ name, c.isAlphanum = true ∨ c = '_'
  start : ∃ c rest, name = c :: rest ∧ c.isDigit = false

/-- A line that sets a name: blanks may stand before the name and before the equals sign, and
`rest` follows the sign. -/
def Assigns (name rest line : List Char) : Prop :=
  ∃ lead gap, allBlank lead = true ∧ allBlank gap = true ∧ IsIdentifier name ∧
    line = lead ++ name ++ gap ++ '=' :: rest

/-- A line `name = value`, blanks anywhere but in the name and in the value. -/
def ShowsValue (name value line : List Char) : Prop :=
  ∃ rest lead tail, Assigns name rest line ∧ rest = lead ++ value ++ tail ∧
    allBlank lead = true ∧ allBlank tail = true ∧ IsToken value

/-- A line `name =`, blanks anywhere but in the name. -/
def OpensGrid (name line : List Char) : Prop :=
  ∃ rest, Assigns name rest line ∧ allBlank rest = true

/-- Lines that show the rows of a grid, one in a line, with blank lines anywhere. -/
inductive ShowRows : List (List String) → List String → Prop where
  | nil : ShowRows [] []
  | blank {rows : List (List String)} {line : String} {lines : List String} :
      isBlankLine line = true → ShowRows rows lines → ShowRows rows (line :: lines)
  | row {row : List String} {rows : List (List String)} {line : String} {lines : List String} :
      row ≠ [] → Spaced (row.map String.toList) line.toList → ShowRows rows lines →
      ShowRows (row :: rows) (line :: lines)

/-- The code points with the property White_Space. -/
def whiteSpace : List Nat :=
  [0x09, 0x0A, 0x0B, 0x0C, 0x0D, 0x20, 0x85, 0xA0, 0x1680, 0x2000, 0x2001, 0x2002, 0x2003, 0x2004,
    0x2005, 0x2006, 0x2007, 0x2008, 0x2009, 0x200A, 0x2028, 0x2029, 0x202F, 0x205F, 0x3000]

theorem isBlank_iff_whiteSpace {c : Char} : isBlank c = true ↔ c.toNat ∈ whiteSpace := by
  simp only [isBlank, whiteSpace, List.mem_cons, List.not_mem_nil, Bool.or_eq_true, Bool.and_eq_true,
    decide_eq_true_eq, beq_iff_eq, or_false]
  omega

theorem isDigit_iff_toNat {c : Char} : c.isDigit = true ↔ 48 ≤ c.toNat ∧ c.toNat ≤ 57 := by
  change (decide (48 ≤ c.val) && decide (c.val ≤ 57)) = true ↔ _
  simp only [Bool.and_eq_true, decide_eq_true_eq, UInt32.le_iff_toNat_le]
  rfl

theorem isAlpha_iff_toNat {c : Char} :
    c.isAlpha = true ↔ 65 ≤ c.toNat ∧ c.toNat ≤ 90 ∨ 97 ≤ c.toNat ∧ c.toNat ≤ 122 := by
  change (decide (65 ≤ c.val ∧ c.val ≤ 90) || decide (97 ≤ c.val) && decide (c.val ≤ 122)) = true ↔ _
  simp only [Bool.or_eq_true, Bool.and_eq_true, decide_eq_true_eq, UInt32.le_iff_toNat_le]
  rfl

theorem isNameChar_iff {c : Char} : isNameChar c = true ↔ c.isAlphanum = true ∨ c = '_' := by
  simp [isNameChar]

theorem isNameStart_iff {c : Char} :
    isNameStart c = true ↔ isNameChar c = true ∧ c.isDigit = false := by
  have apart : c.isAlpha = true → c.isDigit = false := by
    rw [← Bool.not_eq_true, isAlpha_iff_toNat, isDigit_iff_toNat]
    omega
  have underscore : '_'.isDigit = false := by decide
  simp only [isNameStart, isNameChar, Char.isAlphanum, Bool.or_eq_true, beq_iff_eq]
  constructor
  · rintro (letter | rfl)
    · exact ⟨.inl (.inl letter), apart letter⟩
    · exact ⟨.inr rfl, underscore⟩
  · rintro ⟨(letter | digit) | rfl, noDigit⟩
    · exact .inl letter
    · simp [digit] at noDigit
    · exact .inr rfl

theorem isBlank_of_isNameChar {c : Char} (h : isNameChar c = true) : isBlank c = false := by
  simp only [isNameChar, Char.isAlphanum, Bool.or_eq_true, beq_iff_eq, isAlpha_iff_toNat,
    isDigit_iff_toNat] at h
  rw [← Bool.not_eq_true]
  simp only [isBlank, Bool.or_eq_true, Bool.and_eq_true, decide_eq_true_eq, beq_iff_eq]
  rcases h with (letter | digit) | rfl
  · omega
  · omega
  · decide

theorem isIdentifier_cons_iff {c : Char} {rest : List Char} :
    IsIdentifier (c :: rest) ↔ isNameStart c = true ∧ ∀ d ∈ rest, isNameChar d = true := by
  constructor
  · intro h
    have named : ∀ d ∈ c :: rest, isNameChar d = true := fun d hd => isNameChar_iff.mpr (h.word d hd)
    obtain ⟨_, _, eq, noDigit⟩ := h.start
    obtain ⟨rfl, rfl⟩ := List.cons.inj eq
    exact ⟨isNameStart_iff.mpr ⟨named c List.mem_cons_self, noDigit⟩,
      fun d hd => named d (List.mem_cons_of_mem c hd)⟩
  · rintro ⟨start, named⟩
    obtain ⟨first, noDigit⟩ := isNameStart_iff.mp start
    refine ⟨fun d hd => isNameChar_iff.mp ?_, c, rest, rfl, noDigit⟩
    rcases List.mem_cons.mp hd with rfl | hd
    · exact first
    · exact named d hd

theorem not_isIdentifier_nil : ¬IsIdentifier [] := by
  intro h
  obtain ⟨_, _, eq, _⟩ := h.start
  cases eq

instance : (name : List Char) → Decidable (IsIdentifier name)
  | [] => .isFalse not_isIdentifier_nil
  | c :: rest => decidable_of_iff ((isNameStart c && rest.all isNameChar) = true)
      (by simp [isIdentifier_cons_iff])

theorem IsIdentifier.isToken {name : List Char} (h : IsIdentifier name) : IsToken name where
  ne_nil := by
    obtain ⟨c, rest, rfl, _⟩ := h.start
    exact List.cons_ne_nil c rest
  ink := fun c hc => isBlank_of_isNameChar (isNameChar_iff.mpr (h.word c hc))

theorem name?_eq_some_iff {s name rest : List Char} :
    name? s = some (name, rest) ↔
      s = name ++ rest ∧ IsIdentifier name ∧ ∀ c ∈ rest.head?, isNameChar c = false := by
  constructor
  · intro h
    cases s with
    | nil => cases h
    | cons c s =>
      simp only [name?] at h
      split at h
      next start =>
        obtain ⟨rfl, rfl⟩ := Prod.mk.inj (Option.some.inj h)
        refine ⟨by rw [List.cons_append, List.takeWhile_append_dropWhile], ?_, head_dropWhile⟩
        exact isIdentifier_cons_iff.mpr ⟨start, fun d hd => List.mem_takeWhile_imp hd⟩
      next => cases h
  · rintro ⟨rfl, identifier, stop⟩
    obtain ⟨c, later, rfl, _⟩ := identifier.start
    obtain ⟨start, named⟩ := isIdentifier_cons_iff.mp identifier
    obtain ⟨taken, left⟩ := takeWhile_append_stop named stop
    simp [name?, start, taken, left]

theorem head_gap {gap : List Char} (blank : allBlank gap = true) (rest : List Char) :
    ∀ c ∈ (gap ++ '=' :: rest).head?, isNameChar c = false := by
  intro c hc
  cases gap with
  | nil =>
    cases hc
    decide
  | cons d gap =>
    cases hc
    have first := (allBlank_cons.mp blank).1
    refine Bool.eq_false_iff.mpr fun named => ?_
    rw [isBlank_of_isNameChar named] at first
    cases first

theorem assigned?_eq_some_iff {line name rest : List Char} :
    assigned? line = some (name, rest) ↔ Assigns name rest line := by
  have sign : ∀ s, '=' :: s = "=".toList ++ s := fun _ => rfl
  constructor
  · intro h
    simp only [assigned?, bind, Option.bind_eq_some_iff] at h
    obtain ⟨⟨name', later⟩, named, rest', equals, h⟩ := h
    cases h
    obtain ⟨eq, identifier, -⟩ := name?_eq_some_iff.mp named
    obtain ⟨lead, leadBlank, split⟩ := eq_append_trimLeft line
    obtain ⟨gap, gapBlank, splitLater⟩ := eq_append_trimLeft later
    refine ⟨lead, gap, leadBlank, gapBlank, identifier, ?_⟩
    rw [split, eq, splitLater, eq_append_of_after? equals, sign]
    simp
  · rintro ⟨lead, gap, leadBlank, gapBlank, identifier, rfl⟩
    have named : name? (name ++ (gap ++ '=' :: rest)) = some (name, gap ++ '=' :: rest) :=
      name?_eq_some_iff.mpr ⟨rfl, identifier, head_gap gapBlank rest⟩
    have start : trimLeft (lead ++ (name ++ (gap ++ '=' :: rest))) = name ++ (gap ++ '=' :: rest) :=
      trimLeft_append_ink leadBlank (identifier.isToken.head_ink _)
    have equals : trimLeft (gap ++ '=' :: rest) = '=' :: rest :=
      trimLeft_append_ink gapBlank fun c hc => by cases hc; decide
    have read : after? "=" ('=' :: rest) = some rest := after?_append "=" rest
    simp [assigned?, List.append_assoc, start, named, equals, read]

theorem singleValue?_eq_some_iff {line name value : List Char} :
    singleValue? line = some (name, value) ↔ ShowsValue name value line := by
  constructor
  · intro h
    simp only [singleValue?, bind, Option.bind_eq_some_iff] at h
    obtain ⟨⟨name', rest⟩, assigned, ⟨value', tail⟩, word, h⟩ := h
    split at h
    next blank =>
      cases h
      obtain ⟨eq, token, -⟩ := word?_eq_some_iff.mp word
      obtain ⟨lead, leadBlank, split⟩ := eq_append_trimLeft rest
      refine ⟨rest, lead, tail, assigned?_eq_some_iff.mp assigned, ?_, leadBlank, blank, token⟩
      rw [split, eq, List.append_assoc]
    next => cases h
  · rintro ⟨rest, lead, tail, assigns, rfl, leadBlank, tailBlank, token⟩
    have start : trimLeft (lead ++ (value ++ tail)) = value ++ tail :=
      trimLeft_append_ink leadBlank (token.head_ink tail)
    have word : word? (value ++ tail) = some (value, tail) :=
      word?_eq_some_iff.mpr ⟨rfl, token, fun c hc =>
        List.all_eq_true.mp tailBlank c (List.mem_of_mem_head? hc)⟩
    simp [singleValue?, assigned?_eq_some_iff.mpr assigns, List.append_assoc, start, word, tailBlank]

theorem gridHeader?_eq_some_iff {line name : List Char} :
    gridHeader? line = some name ↔ OpensGrid name line := by
  constructor
  · intro h
    simp only [gridHeader?, bind, Option.bind_eq_some_iff] at h
    obtain ⟨⟨name', rest⟩, assigned, h⟩ := h
    split at h
    next blank =>
      cases h
      exact ⟨rest, assigned?_eq_some_iff.mp assigned, blank⟩
    next => cases h
  · rintro ⟨rest, assigns, blank⟩
    simp [gridHeader?, assigned?_eq_some_iff.mpr assigns, blank]

theorem tokenTexts_eq_nil_iff {line : String} : tokenTexts line = [] ↔ isBlankLine line = true := by
  rw [tokenTexts_eq_iff]
  constructor
  · intro h
    cases h with
    | blanks blank => exact blank
  · exact .blanks

theorem rowsOf_cons (line : String) (lines : List String) :
    Shape.rowsOf (line :: lines) =
      if tokenTexts line = [] then Shape.rowsOf lines else tokenTexts line :: Shape.rowsOf lines := by
  by_cases none : tokenTexts line = [] <;> simp [Shape.rowsOf, none]

theorem showRows_rowsOf (lines : List String) : ShowRows (Shape.rowsOf lines) lines := by
  induction lines with
  | nil => exact .nil
  | cons line lines ih =>
    rw [rowsOf_cons]
    split
    next none => exact .blank (tokenTexts_eq_nil_iff.mp none) ih
    next some_ => exact .row some_ (tokenTexts_eq_iff.mp rfl) ih

theorem rowsOf_eq_iff {lines : List String} {rows : List (List String)} :
    Shape.rowsOf lines = rows ↔ ShowRows rows lines := by
  refine ⟨fun h => h ▸ showRows_rowsOf lines, fun h => ?_⟩
  induction h with
  | nil => rfl
  | blank blank _ ih => rw [rowsOf_cons, if_pos (tokenTexts_eq_nil_iff.mpr blank), ih]
  | row some_ spaced _ ih =>
    have texts := tokenTexts_eq_iff.mpr spaced
    rw [rowsOf_cons, texts, if_neg some_, ih]

theorem lines_cases (body : List String) :
    body = [] ∨ (∃ line, body = [line]) ∨
      ∃ header between last, body = header :: (between ++ [last]) := by
  cases body with
  | nil => exact .inl rfl
  | cons header rest =>
    rcases List.eq_nil_or_concat rest with rfl | ⟨between, last, rfl⟩
    · exact .inr (.inl ⟨header, rfl⟩)
    · exact .inr (.inr ⟨header, between, last, by rw [List.concat_eq_append]⟩)

namespace Shape

theorem ofBody_line (line : String) :
    ofBody [line] = ((singleValue? line.toList).map fun (name, value) =>
      .single (String.ofList name) (String.ofList value)).getD .bare := by
  simp [ofBody, single?, grid?]

theorem ofBody_lines (header : String) (between : List String) (last : String) :
    ofBody (header :: (between ++ [last])) =
      if last = "" then ((gridHeader? header.toList).map fun name =>
        .grid (String.ofList name) (rowsOf between)).getD .bare
      else .bare := by
  -- Two lines or more are no single value, so the form of a grid decides.
  have noLine : single? (header :: (between ++ [last])) = none := by
    cases between <;> rfl
  have lines : grid? (header :: (between ++ [last])) =
      if last = "" then (gridHeader? header.toList).map fun name =>
        .grid (String.ofList name) (rowsOf between)
      else none := by
    cases between with
    | nil => simp [grid?]
    | cons line between =>
      have init : (line :: (between ++ [last])).dropLast = line :: between := by
        rw [← List.cons_append, List.dropLast_concat]
      have final : (line :: (between ++ [last])).getLast? = some last := by
        rw [← List.cons_append, List.getLast?_concat]
      simp [grid?, init, final]
  rw [ofBody, noLine, lines, Option.none_or]
  split <;> rfl

theorem ofBody_ne_incomplete (body : List String) : ofBody body ≠ .incomplete := by
  rcases lines_cases body with rfl | ⟨line, rfl⟩ | ⟨header, between, last, rfl⟩
  · exact Shape.noConfusion
  · rw [ofBody_line]
    cases singleValue? line.toList <;> exact Shape.noConfusion
  · rw [ofBody_lines]
    split
    next => cases gridHeader? header.toList <;> exact Shape.noConfusion
    next => exact Shape.noConfusion

theorem ofBody_single_iff {body : List String} {name value : String} :
    ofBody body = .single name value ↔
      ∃ line, body = [line] ∧ ShowsValue name.toList value.toList line.toList := by
  constructor
  · intro h
    rcases lines_cases body with rfl | ⟨line, rfl⟩ | ⟨header, between, last, rfl⟩
    · cases h
    · refine ⟨line, rfl, singleValue?_eq_some_iff.mp ?_⟩
      rw [ofBody_line] at h
      cases read : singleValue? line.toList with
      | none => simp [read] at h
      | some found =>
        obtain ⟨rfl, rfl⟩ : String.ofList found.1 = name ∧ String.ofList found.2 = value := by
          simpa [read] using h
        simp
    · rw [ofBody_lines] at h
      split at h
      next => cases read : gridHeader? header.toList <;> simp [read] at h
      next => cases h
  · rintro ⟨line, rfl, shows⟩
    simp [ofBody_line, singleValue?_eq_some_iff.mpr shows]

theorem ofBody_grid_iff {body : List String} {name : String} {rows : List (List String)} :
    ofBody body = .grid name rows ↔
      ∃ header between, body = header :: (between ++ [""]) ∧ OpensGrid name.toList header.toList ∧
        ShowRows rows between := by
  constructor
  · intro h
    rcases lines_cases body with rfl | ⟨line, rfl⟩ | ⟨header, between, last, rfl⟩
    · cases h
    · rw [ofBody_line] at h
      cases read : singleValue? line.toList <;> simp [read] at h
    · rw [ofBody_lines] at h
      split at h
      next empty =>
        cases read : gridHeader? header.toList with
        | none => simp [read] at h
        | some found =>
          obtain ⟨rfl, rows⟩ : String.ofList found = name ∧ rowsOf between = rows := by
            simpa [read] using h
          exact ⟨header, between, by rw [empty], gridHeader?_eq_some_iff.mp (by simpa using read),
            rowsOf_eq_iff.mp rows⟩
      next => cases h
  · rintro ⟨header, between, rfl, opens, rows⟩
    simp [ofBody_lines, gridHeader?_eq_some_iff.mpr opens, rowsOf_eq_iff.mpr rows]

end Shape

theorem showsValue_unique {name value other more line : List Char} (h : ShowsValue name value line)
    (also : ShowsValue other more line) : other = name ∧ more = value := by
  have same := (singleValue?_eq_some_iff.mpr also).symm.trans (singleValue?_eq_some_iff.mpr h)
  exact Prod.mk.inj (Option.some.inj same)

/-- What a body is taken for. A single value is one line `name = value`, and there is but one way
to read the two off it. A grid is a line `name =`, the lines of its rows, and an empty line. All
else is bare. Blank means White_Space. -/
theorem shape_of_body_iff (body : List String) :
    (∀ name value, Shape.ofBody body = .single name value ↔
      ∃ line, body = [line] ∧ ShowsValue name.toList value.toList line.toList) ∧
    (∀ name value line, ShowsValue name value line →
      ∀ other more, ShowsValue other more line → other = name ∧ more = value) ∧
    (∀ name rows, Shape.ofBody body = .grid name rows ↔
      ∃ header between, body = header :: (between ++ [""]) ∧ OpensGrid name.toList header.toList ∧
        ShowRows rows between) ∧
    (Shape.ofBody body = .bare ↔
      ¬(∃ line name value, body = [line] ∧ ShowsValue name value line.toList) ∧
      ¬(∃ header between name, body = header :: (between ++ [""]) ∧ OpensGrid name header.toList)) ∧
    Shape.ofBody body ≠ .incomplete ∧
    ∀ c, isBlank c = true ↔ c.toNat ∈ whiteSpace := by
  refine ⟨fun _ _ => Shape.ofBody_single_iff, fun _ _ _ h _ _ also => showsValue_unique h also,
    fun _ _ => Shape.ofBody_grid_iff, ⟨fun bare => ⟨?_, ?_⟩, fun ⟨noLine, noGrid⟩ => ?_⟩,
    Shape.ofBody_ne_incomplete body, fun _ => isBlank_iff_whiteSpace⟩
  · rintro ⟨line, name, value, eq, shows⟩
    have single : Shape.ofBody body = .single (.ofList name) (.ofList value) :=
      Shape.ofBody_single_iff.mpr ⟨line, eq, by simpa using shows⟩
    cases bare.symm.trans single
  · rintro ⟨header, between, name, eq, opens⟩
    have grid : Shape.ofBody body = .grid (.ofList name) (Shape.rowsOf between) :=
      Shape.ofBody_grid_iff.mpr ⟨header, between, eq, by simpa using opens, showRows_rowsOf between⟩
    cases bare.symm.trans grid
  · cases shape : Shape.ofBody body with
    | incomplete => exact absurd shape (Shape.ofBody_ne_incomplete body)
    | bare => rfl
    | single name value =>
      obtain ⟨line, eq, shows⟩ := Shape.ofBody_single_iff.mp shape
      exact absurd ⟨line, _, _, eq, shows⟩ noLine
    | grid name rows =>
      obtain ⟨header, between, eq, opens, -⟩ := Shape.ofBody_grid_iff.mp shape
      exact absurd ⟨header, between, _, eq, opens⟩ noGrid

/-- The value may hold an equals sign but no blank. -/
example : Shape.ofBody ["s = a=b"] = .single "s" "a=b" ∧ Shape.ofBody ["s = a = b"] = .bare := by
  decide

end PromptRelay
