import PromptRelay.Proofs.StackDumps

namespace PromptRelay

open StopNotice (framesOf kindOf)

/-- The start of a banner, `stopped in <location> at line <N>`, blanks before it and anything after
it. The location is the shortest that is not empty and has a number after it. -/
structure ShowsStop (location : List Char) (n : Nat) (line : String) : Prop where
  ne_nil : location ≠ []
  unbroken : '\n' ∉ location
  form : ∃ lead number rest, allBlank lead = true ∧ IsDecimal n number ∧
    (∀ c ∈ rest.head?, c.isDigit = false) ∧
    line.toList = lead ++ "stopped in ".toList ++ location ++ " at line ".toList ++ number ++ rest ∧
    ∀ front back, location = front ++ back → front ≠ [] → back ≠ [] → ∀ c later,
      back ++ " at line ".toList ++ number ++ rest = " at line ".toList ++ c :: later →
      c.isDigit = false

/-- The stem of the file that a path names, or the whole path if it names none. -/
def IsNamedAfter (name path : List Char) : Prop :=
  (∃ file, IsFileNameOf file path ∧ IsStemOf name file) ∨
    (∀ file, ¬IsFileNameOf file path) ∧ name = path

/-- The first line that opens a dump has a frame right after it. -/
def HoldsDump (lines : List String) : Prop :=
  ∃ before header line after place, FirstDump before header (line :: after) lines ∧
    ShowsPlace place line

/-- A line that begins with `error:`, blanks before it. -/
def TellsError (line : String) : Prop :=
  ∃ lead rest, allBlank lead = true ∧ line.toList = lead ++ "error:".toList ++ rest

/-- A beginning without a line break that is followed by a tail the reader accepts, and leaves no part
of itself to such a tail. -/
structure IsShortestBefore {α : Type} (tail? : List Char → Option α) (before : List Char) (found : α)
    (s : List Char) : Prop where
  ne_nil : before ≠ []
  unbroken : '\n' ∉ before
  form : ∃ rest, s = before ++ rest ∧ tail? rest = some found ∧
    ∀ front back, before = front ++ back → front ≠ [] → back ≠ [] → tail? (back ++ rest) = none

section ShortestBefore

variable {α : Type} {tail? : List Char → Option α} {before s : List Char} {found : α} {c : Char}

theorem not_isShortestBefore_nil : ¬IsShortestBefore tail? before found [] := by
  rintro ⟨some_, -, rest, eq, -⟩
  exact some_ (List.append_eq_nil_iff.mp eq.symm).1

theorem not_isShortestBefore_newline : ¬IsShortestBefore tail? before found ('\n' :: s) := by
  rintro ⟨some_, unbroken, rest, eq, -⟩
  cases before with
  | nil => exact some_ rfl
  | cons d before =>
    obtain ⟨rfl, -⟩ := List.cons.inj eq
    exact unbroken List.mem_cons_self

theorem isShortestBefore_here {first : α} (plain : c ≠ '\n') (read : tail? s = some first) :
    IsShortestBefore tail? before found (c :: s) ↔ before = [c] ∧ found = first := by
  constructor
  · rintro ⟨some_, -, rest, eq, own, least⟩
    match before with
    | [] => exact absurd rfl some_
    | [d] =>
      obtain ⟨rfl, tail⟩ := List.cons.inj eq
      have rest_ : s = rest := tail
      rw [rest_, own] at read
      exact ⟨rfl, Option.some.inj read⟩
    | d :: e :: before =>
      obtain ⟨rfl, tail⟩ := List.cons.inj eq
      have split : s = (e :: before) ++ rest := tail
      have nothing := least [c] (e :: before) rfl (by simp) (by simp)
      rw [← split, read] at nothing
      cases nothing
  · rintro ⟨rfl, rfl⟩
    refine ⟨by simp, by simpa using Ne.symm plain, s, rfl, read, ?_⟩
    intro front back eq frontSome backSome
    have frontLong := List.length_pos_iff.mpr frontSome
    have backLong := List.length_pos_iff.mpr backSome
    have length := congrArg List.length eq
    simp only [List.length_singleton, List.length_append] at length
    omega

theorem isShortestBefore_later (plain : c ≠ '\n') (read : tail? s = none) :
    IsShortestBefore tail? before found (c :: s) ↔
      ∃ inner, before = c :: inner ∧ IsShortestBefore tail? inner found s := by
  constructor
  · rintro ⟨some_, unbroken, rest, eq, own, least⟩
    cases before with
    | nil => exact absurd rfl some_
    | cons d inner =>
      obtain ⟨rfl, tail⟩ := List.cons.inj eq
      have split : s = inner ++ rest := tail
      have more : inner ≠ [] := by
        rintro rfl
        rw [split, List.nil_append, own] at read
        cases read
      refine ⟨inner, rfl, more, fun mem => unbroken (List.mem_cons_of_mem c mem), rest, split, own, ?_⟩
      intro front back cut _ backSome
      exact least (c :: front) back (by rw [cut]; rfl) (by simp) backSome
  · rintro ⟨inner, rfl, some_, unbroken, rest, rfl, own, least⟩
    refine ⟨by simp, by simp [unbroken, Ne.symm plain], rest, rfl, own, ?_⟩
    intro front back eq frontSome backSome
    match front with
    | [] => exact absurd rfl frontSome
    | [_] =>
      have tail : inner = back := (List.cons.inj eq).2
      rwa [← tail]
    | _ :: e :: front =>
      have tail : inner = (e :: front) ++ back := (List.cons.inj eq).2
      exact least (e :: front) back tail (by simp) backSome

theorem shortestBefore?_eq_some_iff :
    shortestBefore? tail? s = some (before, found) ↔ IsShortestBefore tail? before found s := by
  induction s generalizing before with
  | nil => simp [shortestBefore?, not_isShortestBefore_nil]
  | cons c s ih =>
    by_cases broken : c = '\n'
    · subst broken
      simp [shortestBefore?, not_isShortestBefore_newline]
    cases read : tail? s with
    | some first =>
      rw [isShortestBefore_here broken read]
      simp [shortestBefore?, broken, read, eq_comm]
    | none =>
      rw [isShortestBefore_later broken read]
      simp only [shortestBefore?, broken, if_false, read, Option.map_eq_some_iff, Prod.exists,
        Prod.mk.injEq, ← ih]
      constructor
      · rintro ⟨inner, _, shorter, rfl, rfl⟩
        exact ⟨inner, rfl, shorter⟩
      · rintro ⟨inner, rfl, shorter⟩
        exact ⟨inner, found, shorter, rfl, rfl⟩

end ShortestBefore

theorem atLine?_eq_none_iff {s : List Char} :
    atLine? s = none ↔ ∀ c later, s = " at line ".toList ++ c :: later → c.isDigit = false := by
  constructor
  · rintro none c later rfl
    refine Bool.eq_false_iff.mpr fun digit => ?_
    have starts : isDigit c = true := by rw [isDigit_eq, digit]
    rw [atLine?, after?_append] at none
    simp [digits?, starts] at none
  · intro apart
    cases read : atLine? s with
    | none => rfl
    | some found =>
      obtain ⟨number, rest⟩ := found
      obtain ⟨rfl, ⟨n, decimal⟩, -⟩ := atLine?_eq_some_iff.mp read
      cases number with
      | nil => exact absurd rfl decimal.ne_nil
      | cons c number =>
        have other := apart c (number ++ rest) (by simp)
        rw [decimal.digit c List.mem_cons_self] at other
        cases other

theorem bannerStart?_eq_some_iff {s location number : List Char} :
    bannerStart? s = some (location, number) ↔
      location ≠ [] ∧ '\n' ∉ location ∧ ∃ lead rest, allBlank lead = true ∧
        (∃ n, IsDecimal n number) ∧ (∀ c ∈ rest.head?, c.isDigit = false) ∧
        s = lead ++ "stopped in ".toList ++ location ++ " at line ".toList ++ number ++ rest ∧
        ∀ front back, location = front ++ back → front ≠ [] → back ≠ [] → ∀ c later,
          back ++ " at line ".toList ++ number ++ rest = " at line ".toList ++ c :: later →
          c.isDigit = false := by
  constructor
  · intro h
    simp only [bannerStart?, bind, Option.bind_eq_some_iff] at h
    obtain ⟨later, opens, ⟨location', number', rest⟩, least, eq⟩ := h
    cases eq
    obtain ⟨some_, unbroken, tail, rfl, atLine, none⟩ := shortestBefore?_eq_some_iff.mp least
    obtain ⟨rfl, decimal, stop⟩ := atLine?_eq_some_iff.mp atLine
    obtain ⟨lead, blank, split⟩ := (after?_trimLeft_eq_some_iff (by decide)).mp opens
    refine ⟨some_, unbroken, lead, rest, blank, decimal, stop, ?_, ?_⟩
    · rw [split]
      simp only [List.append_assoc]
    · intro front back cut frontSome backSome
      have own := atLine?_eq_none_iff.mp (none front back cut frontSome backSome)
      simpa only [List.append_assoc] using own
  · rintro ⟨some_, unbroken, lead, rest, blank, decimal, stop, split, least⟩
    let tail := " at line ".toList ++ number ++ rest
    have opens : after? "stopped in " (trimLeft s) = some (location ++ tail) := by
      refine (after?_trimLeft_eq_some_iff (by decide)).mpr ⟨lead, blank, ?_⟩
      rw [split]
      simp only [tail, List.append_assoc]
    have found : shortestBefore? atLine? (location ++ tail) = some (location, number, rest) := by
      refine shortestBefore?_eq_some_iff.mpr
        ⟨some_, unbroken, tail, rfl, atLine?_eq_some_iff.mpr ⟨rfl, decimal, stop⟩, ?_⟩
      intro front back cut frontSome backSome
      have own := least front back cut frontSome backSome
      exact atLine?_eq_none_iff.mpr (by simpa only [tail, List.append_assoc] using own)
    rw [bannerStart?, opens]
    simp only [bind, Option.bind_some, found]
    rfl

/-- A line shows a stop where the banner reader finds one. -/
theorem showsStop_iff {location : List Char} {n : Nat} {line : String} :
    ShowsStop location n line ↔
      ∃ number, bannerStart? line.toList = some (location, number) ∧ IsDecimal n number := by
  constructor
  · rintro ⟨some_, unbroken, lead, number, rest, blank, decimal, stop, split, least⟩
    exact ⟨number, bannerStart?_eq_some_iff.mpr
      ⟨some_, unbroken, lead, rest, blank, ⟨n, decimal⟩, stop, split, least⟩, decimal⟩
  · rintro ⟨number, read, decimal⟩
    obtain ⟨some_, unbroken, lead, rest, blank, -, stop, split, least⟩ :=
      bannerStart?_eq_some_iff.mp read
    exact ⟨some_, unbroken, lead, number, rest, blank, decimal, stop, split, least⟩

theorem exists_showsStop_iff {line : String} :
    (∃ location n, ShowsStop location n line) ↔ (bannerStart? line.toList).isSome = true := by
  rw [Option.isSome_iff_exists]
  constructor
  · rintro ⟨location, n, shown⟩
    obtain ⟨number, read, -⟩ := showsStop_iff.mp shown
    exact ⟨_, read⟩
  · rintro ⟨⟨location, number⟩, read⟩
    obtain ⟨-, -, -, -, -, ⟨n, decimal⟩, -⟩ := bannerStart?_eq_some_iff.mp read
    exact ⟨location, n, showsStop_iff.mpr ⟨number, read, decimal⟩⟩

theorem ShowsStop.unique {location other : List Char} {n m : Nat} {line : String}
    (h : ShowsStop location n line) (h' : ShowsStop other m line) : other = location ∧ m = n := by
  obtain ⟨number, read, decimal⟩ := showsStop_iff.mp h
  obtain ⟨_, read', decimal'⟩ := showsStop_iff.mp h'
  rw [read] at read'
  cases read'
  exact ⟨rfl, decimal'.value.symm.trans decimal.value⟩

theorem isNamedAfter_iff {name path : List Char} :
    IsNamedAfter name path ↔ name = (fileStem? path).getD path := by
  rw [IsNamedAfter, ← fileStem?_eq_some_iff, ← fileStem?_eq_none_iff]
  cases fileStem? path <;> simp [eq_comm]

/-- The frame of a stop at a line of a location. -/
def Frame.atStop (location : List Char) (n : Nat) : Frame :=
  let name := String.ofList ((fileStem? (trim location)).getD (trim location))
  ⟨0, name, name, n, 0⟩

theorem ShowsStop.ofBannerLine?_eq {location : List Char} {n : Nat} {line : String}
    (h : ShowsStop location n line) :
    Frame.ofBannerLine? line = if n ≤ max32 then some (.atStop location n) else none := by
  obtain ⟨number, read, decimal⟩ := showsStop_iff.mp h
  simp only [Frame.ofBannerLine?, read, decimal.position?_eq, bind, Option.bind_some]
  split <;> rfl

theorem ofBannerLine?_eq_none_iff {line : String} :
    Frame.ofBannerLine? line = none ↔ ∀ location n, ShowsStop location n line → max32 < n := by
  constructor
  · intro none location n shown
    rw [shown.ofBannerLine?_eq] at none
    by_contra within
    rw [if_pos (Nat.le_of_not_lt within)] at none
    cases none
  · intro past
    by_cases shows : ∃ location n, ShowsStop location n line
    · obtain ⟨location, n, shown⟩ := shows
      rw [shown.ofBannerLine?_eq, if_neg (Nat.not_le.mpr (past location n shown))]
    · rw [exists_showsStop_iff, Bool.not_eq_true, Option.isSome_eq_false_iff,
        Option.isNone_iff_eq_none] at shows
      simp [Frame.ofBannerLine?, shows]

theorem stackDump?_eq_none_iff_not_holdsDump {lines : List String} :
    stackDump? lines = none ↔ ¬HoldsDump lines := by
  rw [stackDump?_eq_none_iff]
  constructor
  · rintro empty ⟨before, header, line, after, place, dump, shown⟩
    exact empty before header _ dump line rfl place shown
  · intro empty before header after dump line mem place shown
    obtain ⟨rest, rfl⟩ := List.head?_eq_some_iff.mp mem
    exact empty ⟨before, header, line, rest, place, dump, shown⟩

theorem isErrorLine_iff {line : String} : isErrorLine line.toList = true ↔ TellsError line := by
  rw [isErrorLine, Option.isSome_iff_exists]
  constructor
  · rintro ⟨rest, found⟩
    obtain ⟨lead, blank, split⟩ := (after?_trimLeft_eq_some_iff (by decide)).mp found
    exact ⟨lead, rest, blank, split⟩
  · rintro ⟨lead, rest, blank, split⟩
    exact ⟨rest, (after?_trimLeft_eq_some_iff (by decide)).mpr ⟨lead, blank, split⟩⟩

theorem kindOf_eq_error_iff {lines : List String} :
    kindOf lines = .error ↔ ∃ line ∈ lines, TellsError line := by
  simp only [← isErrorLine_iff, kindOf]
  split
  next any => simpa using any
  next none => simpa using none

theorem ofBannerLine?_id {line : String} {f : Frame} (h : Frame.ofBannerLine? line = some f) :
    f.id = 0 := by
  simp only [Frame.ofBannerLine?, bind, Option.bind_eq_some_iff, pure, Option.some.injEq] at h
  obtain ⟨_, -, _, -, rfl⟩ := h
  rfl

theorem lastBanner_id (lines : List String) : ((bannerFrame? lines).getD .unknown).id = 0 := by
  cases found : bannerFrame? lines with
  | none => rfl
  | some f =>
    obtain ⟨line, -, own⟩ := List.exists_of_findSome?_eq_some found
    exact ofBannerLine?_id own

theorem framesOf_numbered (lines : List String) :
    framesOf lines ≠ [] ∧ (framesOf lines).map (·.id) = List.range (framesOf lines).length := by
  rw [framesOf_eq]
  cases dump : stackDump? lines with
  | some frames =>
    obtain ⟨some_, before, header, after, -, run⟩ := stackDump?_eq_some_iff.mp dump
    rw [Option.getD_some, List.range_eq_range']
    exact ⟨some_, (Frame.run_eq_iff.mp run).1⟩
  | none =>
    rw [Option.getD_none, List.map_singleton, lastBanner_id]
    exact ⟨List.cons_ne_nil _ _, rfl⟩

/-- The line of code after a stop is no stop of its own. -/
theorem bannerFrame?_of_banner {earlier : List String} {first code : String}
    (closes : (bannerCode? code.toList).isSome = true) :
    bannerFrame? (earlier ++ [first, code]) =
      (Frame.ofBannerLine? first).or (bannerFrame? earlier) := by
  have unopened : bannerStart? code.toList = none := by
    by_contra opens
    rw [bannerCode?_of_bannerStart? (Option.isSome_iff_ne_none.mpr opens)] at closes
    cases closes
  have silent : Frame.ofBannerLine? code = none := by simp [Frame.ofBannerLine?, unopened]
  rw [bannerFrame?_append]
  cases own : Frame.ofBannerLine? first <;> simp [bannerFrame?, silent, own]

theorem framesOf_of_no_dump {lines : List String} (h : ¬HoldsDump lines) :
    framesOf lines = [(bannerFrame? lines).getD .unknown] := by
  rw [framesOf_eq, stackDump?_eq_none_iff_not_holdsDump.mpr h, Option.getD_none]

/-- A stop always has a stack, its frames numbered from the innermost. Without a dump that stack is
the frame of the last banner that the lines end in, whatever is printed before it, and where no line
has a stop with a number within 32 bits it is one frame that tells of an error. -/
theorem every_stop_has_a_stack (lines : List String) :
    let notice := StopNotice.ofLines lines
    notice.lines = lines ∧
    (notice.kind = .error ↔ ∃ line ∈ lines, TellsError line) ∧
    notice.frames ≠ [] ∧ notice.frames.map (·.id) = List.range notice.frames.length ∧
    (∀ blank, endsInBanner (lines ++ [blank]) = true → ∃ earlier first code location n,
      lines = earlier ++ [first, code] ∧
      (∀ place m, ShowsStop place m first ↔ place = location ∧ m = n) ∧
      (¬HoldsDump lines → n ≤ max32 → ∃ name,
        (∀ word, IsNamedAfter word (trim location) ↔ word = name) ∧
        notice.frames = [⟨0, .ofList name, .ofList name, n, 0⟩])) ∧
    (¬HoldsDump lines →
      (∀ line ∈ lines, ∀ location n, ShowsStop location n line → max32 < n) →
      notice.frames = [⟨0, "error", "error", 0, 0⟩]) := by
  obtain ⟨some_, ids⟩ := framesOf_numbered lines
  refine ⟨rfl, kindOf_eq_error_iff, some_, ids, ?_, ?_⟩
  · intro blank ends
    obtain ⟨earlier, first, code, third, split, opens, closes, -⟩ := endsInBanner_cases ends
    have parts : lines ++ [blank] = (earlier ++ [first, code]) ++ [third] := by simpa using split
    obtain ⟨whole, -⟩ := List.append_inj' parts rfl
    obtain ⟨location, n, shown⟩ := exists_showsStop_iff.mpr opens
    refine ⟨earlier, first, code, location, n, whole, fun place m => ⟨shown.unique, ?_⟩, ?_⟩
    · rintro ⟨rfl, rfl⟩
      exact shown
    · intro noDump within
      refine ⟨_, fun word => isNamedAfter_iff, ?_⟩
      have own : Frame.ofBannerLine? first = some (.atStop location n) := by
        rw [shown.ofBannerLine?_eq, if_pos within]
      change framesOf lines = [.atStop location n]
      rw [framesOf_of_no_dump noDump, whole, bannerFrame?_of_banner closes, own]
      rfl
  · intro noDump past
    have nowhere : bannerFrame? lines = none := by
      refine List.findSome?_eq_none_iff.mpr fun line mem => ?_
      exact ofBannerLine?_eq_none_iff.mpr (past line (List.mem_reverse.mp mem))
    change framesOf lines = [.unknown]
    rw [framesOf_of_no_dump noDump, nowhere, Option.getD_none]

/-- The last banner counts, though its path is no plain name. -/
example : framesOf ["stopped in f at line 1", "1: g", "stopped in /lib/ a at line x.m/. at line 007",
    "7: stopped in h at line 2"] = [⟨0, " a at line x", " a at line x", 7, 0⟩] := by
  decide

end PromptRelay
