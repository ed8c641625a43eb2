import PromptRelay.Proofs.Exchanges
import PromptRelay.Proofs.StopStacks

namespace PromptRelay

/-- A word of lower-case letters and dashes with a space after it, or nothing. -/
def IsOptionalWord (s : List Char) : Prop :=
  s = [] ∨ ∃ word, word ≠ [] ∧ (∀ c ∈ word, c.isLower = true ∨ c = '-') ∧ s = word ++ [' ']

/-- `'<name>' is a [word ]function|script from the file <rest>`, blanks before it. -/
def OpensPlace (name rest s : List Char) : Prop :=
  ∃ lead word kind, allBlank lead = true ∧ IsOptionalWord word ∧
    (kind = "function".toList ∨ kind = "script".toList) ∧
    s = lead ++ "'".toList ++ name ++ "' is a ".toList ++ word ++ kind ++
      " from the file ".toList ++ rest

/-- A line that tells where some name is defined: it has a name, and a path that no line break
parts. -/
def MatchesPlace (line : String) : Prop :=
  ∃ name path tail, name ≠ [] ∧ '\'' ∉ name ∧ path ≠ [] ∧ '\n' ∉ path ∧ allBlank tail = true ∧
    OpensPlace name (path ++ tail) line.toList

/-- A line as printed for a name and its path, any blanks around it. -/
structure PrintsPlace (name path line : String) : Prop where
  name_ne : name.toList ≠ []
  unquoted : '\'' ∉ name.toList
  path_ne : path.toList ≠ []
  path_unbroken : '\n' ∉ path.toList
  ends_ink : ∀ c ∈ path.toList.getLast?, isBlank c = false
  form : ∃ tail, allBlank tail = true ∧ OpensPlace name.toList (path.toList ++ tail) line.toList

/-- Lines that print places in turn, between them others that tell of none. -/
inductive PlaceLines : List (String × String) → List String → Prop where
  | nil : PlaceLines [] []
  | place {name path line : String} {places : List (String × String)} {lines : List String} :
      PrintsPlace name path line → PlaceLines places lines →
      PlaceLines ((name, path) :: places) (line :: lines)
  | other {line : String} {places : List (String × String)} {lines : List String} :
      ¬MatchesPlace line → PlaceLines places lines → PlaceLines places (line :: lines)

theorem upToQuote?_eq_some_iff {s name rest : List Char} :
    upToQuote? s = some (name, rest) ↔ name ≠ [] ∧ '\'' ∉ name ∧ s = name ++ '\'' :: rest := by
  constructor
  · intro h
    simp only [upToQuote?, bind, Option.bind_eq_some_iff] at h
    obtain ⟨later, quote, h⟩ := h
    split at h
    next => cases h
    next some_ =>
      cases h
      refine ⟨by simpa using some_, fun mem => ?_, ?_⟩
      · simpa using List.mem_takeWhile_imp mem
      · have closes : s.dropWhile (· ≠ '\'') = '\'' :: rest := eq_append_of_after? quote
        rw [← closes, List.takeWhile_append_dropWhile]
  · rintro ⟨some_, unquoted, rfl⟩
    have inside : ∀ c ∈ name, decide (c ≠ '\'') = true := fun c mem => by
      simpa using fun eq : c = '\'' => unquoted (eq ▸ mem)
    have stop : ∀ c ∈ ('\'' :: rest).head?, decide (c ≠ '\'') = false := by simp
    obtain ⟨taken, left⟩ := takeWhile_append_stop inside stop
    have quote : after? "'" ('\'' :: rest) = some rest := after?_append "'" rest
    simp only [upToQuote?, taken, left, quote, bind, Option.bind_some, List.isEmpty_iff, some_, if_false]

theorem definedIn?_eq_some_iff {s rest : List Char} :
    definedIn? s = some rest ↔ ∃ kind, (kind = "function".toList ∨ kind = "script".toList) ∧
      s = kind ++ " from the file ".toList ++ rest := by
  simp only [definedIn?, bind, Option.bind_eq_some_iff, Option.orElse_eq_orElse,
    Option.orElse_eq_or, Option.or_eq_some_iff]
  constructor
  · rintro ⟨later, function | ⟨-, script⟩, phrase⟩
    · exact ⟨_, .inl rfl, by rw [eq_append_of_after? function, eq_append_of_after? phrase,
        List.append_assoc]⟩
    · exact ⟨_, .inr rfl, by rw [eq_append_of_after? script, eq_append_of_after? phrase,
        List.append_assoc]⟩
  · rintro ⟨kind, rfl | rfl, rfl⟩ <;> rw [List.append_assoc]
    · exact ⟨_, .inl (after?_append _ _), after?_append _ _⟩
    · exact ⟨_, .inr ⟨rfl, after?_append _ _⟩, after?_append _ _⟩

theorem isKindChar_iff {c : Char} : isKindChar c = true ↔ c.isLower = true ∨ c = '-' := by
  simp [isKindChar]

theorem kindWord?_eq_some_iff {s rest : List Char} :
    kindWord? s = some rest ↔ ∃ word, word ≠ [] ∧ (∀ c ∈ word, c.isLower = true ∨ c = '-') ∧
      s = word ++ ' ' :: rest := by
  simp only [← isKindChar_iff]
  constructor
  · intro h
    unfold kindWord? at h
    split at h
    next => cases h
    next some_ =>
      have space : s.dropWhile isKindChar = ' ' :: rest := eq_append_of_after? h
      refine ⟨s.takeWhile isKindChar, by simpa using some_, fun c mem => List.mem_takeWhile_imp mem, ?_⟩
      rw [← space, List.takeWhile_append_dropWhile]
  · rintro ⟨word, some_, inside, rfl⟩
    have stop : ∀ c ∈ (' ' :: rest).head?, isKindChar c = false := fun c mem => by
      cases mem
      decide
    obtain ⟨taken, left⟩ := takeWhile_append_stop inside stop
    have space : after? " " (' ' :: rest) = some rest := after?_append " " rest
    simp [kindWord?, taken, left, space, some_]

/-- A kind right before the phrase is no word in front of another kind. -/
theorem definedIn?_of_kindWord? {s rest later : List Char} (word : kindWord? s = some rest)
    (kind : definedIn? s = some later) : definedIn? rest = none := by
  obtain ⟨_, rfl | rfl, rfl⟩ := definedIn?_eq_some_iff.mp kind
  · have own : rest = "from the file ".toList ++ later := (Option.some.inj word).symm
    rw [own]
    rfl
  · have own : rest = "from the file ".toList ++ later := (Option.some.inj word).symm
    rw [own]
    rfl

theorem kinded?_eq_some_iff {s rest : List Char} :
    ((kindWord? s >>= definedIn?) <|> definedIn? s) = some rest ↔
      ∃ word kind, IsOptionalWord word ∧ (kind = "function".toList ∨ kind = "script".toList) ∧
        s = word ++ kind ++ " from the file ".toList ++ rest := by
  simp only [bind, Option.orElse_eq_orElse, Option.orElse_eq_or, Option.or_eq_some_iff,
    Option.bind_eq_some_iff, Option.bind_eq_none_iff]
  constructor
  · rintro (⟨later, worded, defined⟩ | ⟨-, defined⟩)
    · obtain ⟨word, some_, inside, rfl⟩ := kindWord?_eq_some_iff.mp worded
      obtain ⟨kind, isKind, rfl⟩ := definedIn?_eq_some_iff.mp defined
      exact ⟨_, kind, .inr ⟨word, some_, inside, rfl⟩, isKind, by simp⟩
    · obtain ⟨kind, isKind, rfl⟩ := definedIn?_eq_some_iff.mp defined
      exact ⟨[], kind, .inl rfl, isKind, rfl⟩
  · rintro ⟨_, kind, rfl | ⟨word, some_, inside, rfl⟩, isKind, rfl⟩
    · have defined : definedIn? ([] ++ kind ++ " from the file ".toList ++ rest) = some rest :=
        definedIn?_eq_some_iff.mpr ⟨kind, isKind, rfl⟩
      exact .inr ⟨fun later worded => definedIn?_of_kindWord? worded defined, defined⟩
    · refine .inl ⟨kind ++ " from the file ".toList ++ rest, ?_, ?_⟩
      · exact kindWord?_eq_some_iff.mpr ⟨word, some_, inside, by simp⟩
      · exact definedIn?_eq_some_iff.mpr ⟨kind, isKind, rfl⟩

/-- Accepts the blanks after a path. -/
def blankTail? (tail : List Char) : Option Unit := if allBlank tail then some () else none

theorem blankTail?_eq_some_iff {tail : List Char} :
    blankTail? tail = some () ↔ allBlank tail = true := by
  simp [blankTail?]

theorem blankTail?_eq_none_iff {tail : List Char} :
    blankTail? tail = none ↔ allBlank tail = false := by
  simp [blankTail?]

theorem IsShortestBefore.of_ink {path tail : List Char} (some_ : path ≠ []) (unbroken : '\n' ∉ path)
    (ends : ∀ c ∈ path.getLast?, isBlank c = false) (blank : allBlank tail = true) :
    IsShortestBefore blankTail? path () (path ++ tail) := by
  refine ⟨some_, unbroken, tail, rfl, blankTail?_eq_some_iff.mpr blank, ?_⟩
  intro front back cut _ backSome
  have last := ends (back.getLast backSome)
    (by rw [cut, List.getLast?_append_of_ne_nil _ backSome, List.getLast?_eq_some_getLast backSome]; rfl)
  refine blankTail?_eq_none_iff.mpr (Bool.eq_false_iff.mpr fun all => ?_)
  have own := List.all_eq_true.mp all (back.getLast backSome) (by simp)
  rw [last] at own
  cases own

/-- A beginning that some accepted tail follows has a shortest one in it. -/
theorem shortestBefore?_isSome_iff {α : Type} {tail? : List Char → Option α} {s : List Char} :
    (shortestBefore? tail? s).isSome = true ↔
      ∃ before rest, before ≠ [] ∧ '\n' ∉ before ∧ s = before ++ rest ∧ (tail? rest).isSome = true := by
  constructor
  · intro found
    obtain ⟨⟨before, own⟩, read⟩ := Option.isSome_iff_exists.mp found
    obtain ⟨some_, unbroken, rest, eq, accepted, -⟩ := shortestBefore?_eq_some_iff.mp read
    exact ⟨before, rest, some_, unbroken, eq, by rw [accepted]; rfl⟩
  · rintro ⟨before, rest, some_, unbroken, rfl, accepted⟩
    induction before with
    | nil => exact absurd rfl some_
    | cons c before ih =>
      have plain : c ≠ '\n' := fun eq => unbroken (eq ▸ List.mem_cons_self)
      simp only [List.cons_append, shortestBefore?, plain, if_false]
      cases here : tail? (before ++ rest) with
      | some => rfl
      | none =>
        have more : before ≠ [] := by
          rintro rfl
          rw [List.nil_append] at here
          rw [here] at accepted
          cases accepted
        simpa using ih more fun mem => unbroken (List.mem_cons_of_mem c mem)

theorem symbolPlace?_eq_some_iff {s name path : List Char} :
    symbolPlace? s = some (name, path) ↔ name ≠ [] ∧ '\'' ∉ name ∧
      ∃ rest, OpensPlace name rest s ∧ IsShortestBefore blankTail? path () rest := by
  have quoted : ∀ later, after? "'" (trimLeft s) = some later ↔ _ :=
    fun _ => after?_trimLeft_eq_some_iff (by decide)
  simp only [← shortestBefore?_eq_some_iff]
  constructor
  · intro h
    simp only [symbolPlace?, bind, Option.bind_eq_some_iff, pure, Option.some.injEq] at h
    obtain ⟨later, quote, ⟨name', afterName⟩, named, afterIs, isA, rest, kinded, ⟨path', _⟩, least,
      eq⟩ := h
    cases eq
    obtain ⟨some_, unquoted, rfl⟩ := upToQuote?_eq_some_iff.mp named
    obtain ⟨lead, blank, split⟩ := (quoted _).mp quote
    obtain ⟨word, kind, optional, isKind, rfl⟩ := kinded?_eq_some_iff.mp kinded
    refine ⟨some_, unquoted, rest, ⟨lead, word, kind, blank, optional, isKind, ?_⟩, least⟩
    have phrase : afterName = _ := eq_append_of_after? isA
    rw [split, phrase]
    simp
  · rintro ⟨some_, unquoted, rest, ⟨lead, word, kind, blank, optional, isKind, split⟩, least⟩
    let kinds := word ++ kind ++ " from the file ".toList ++ rest
    have kinded : ((kindWord? kinds >>= definedIn?) <|> definedIn? kinds) = some rest :=
      kinded?_eq_some_iff.mpr ⟨word, kind, optional, isKind, rfl⟩
    have quote : after? "'" (trimLeft s) = some (name ++ '\'' :: (" is a ".toList ++ kinds)) :=
      (quoted _).mpr ⟨lead, blank, by rw [split]; simp [kinds]⟩
    have named := upToQuote?_eq_some_iff.mpr
      ⟨some_, unquoted, (rfl : name ++ '\'' :: (" is a ".toList ++ kinds) = _)⟩
    have isA := after?_append " is a " kinds
    rw [symbolPlace?, quote]
    simp only [bind, Option.bind_some, named, isA] at kinded ⊢
    rw [kinded]
    change ((shortestBefore? blankTail? rest).bind fun found => some (name, found.1)) = _
    rw [least, Option.bind_some]

theorem symbolPlace?_isSome_iff {line : String} :
    (symbolPlace? line.toList).isSome = true ↔ MatchesPlace line := by
  rw [Option.isSome_iff_exists]
  constructor
  · rintro ⟨⟨name, path⟩, read⟩
    obtain ⟨some_, unquoted, _, opens, pathSome, unbroken, tail, rfl, blank, -⟩ :=
      symbolPlace?_eq_some_iff.mp read
    exact ⟨name, path, tail, some_, unquoted, pathSome, unbroken, blankTail?_eq_some_iff.mp blank,
      opens⟩
  · rintro ⟨name, path, tail, some_, unquoted, pathSome, unbroken, blank, opens⟩
    have found : (shortestBefore? blankTail? (path ++ tail)).isSome = true :=
      shortestBefore?_isSome_iff.mpr
        ⟨path, tail, pathSome, unbroken, rfl, by rw [blankTail?_eq_some_iff.mpr blank]; rfl⟩
    obtain ⟨⟨least, _⟩, shortest⟩ := Option.isSome_iff_exists.mp found
    exact ⟨(name, least), symbolPlace?_eq_some_iff.mpr
      ⟨some_, unquoted, _, opens, shortestBefore?_eq_some_iff.mp shortest⟩⟩

namespace SymbolPlaces

theorem ofLine?_eq_none_iff {line : String} : ofLine? line = none ↔ ¬MatchesPlace line := by
  rw [← symbolPlace?_isSome_iff, ofLine?, Option.map_eq_none_iff, Bool.not_eq_true,
    Option.isSome_eq_false_iff, Option.isNone_iff_eq_none]

theorem ofLine?_of_printsPlace {name path line : String} (h : PrintsPlace name path line) :
    ofLine? line = some (name, path) := by
  obtain ⟨tail, blank, opens⟩ := h.form
  have read : symbolPlace? line.toList = some (name.toList, path.toList) :=
    symbolPlace?_eq_some_iff.mpr ⟨h.name_ne, h.unquoted, _, opens,
      .of_ink h.path_ne h.path_unbroken h.ends_ink blank⟩
  simp [ofLine?, read]

theorem ofLine?_of_isBlankLine {line : String} (blank : isBlankLine line = true) :
    ofLine? line = none := by
  rw [ofLine?_eq_none_iff]
  rintro ⟨name, path, tail, -, -, -, -, -, lead, word, kind, -, -, -, eq⟩
  have quote := List.all_eq_true.mp blank '\'' (by rw [eq]; simp)
  revert quote
  decide

/-- The blank lines at the start of a reply tell nothing. -/
theorem filterMap_dropWhile (lines : List String) :
    (lines.dropWhile isBlankLine).filterMap ofLine? = lines.filterMap ofLine? := by
  induction lines with
  | nil => rfl
  | cons line lines ih =>
    cases blank : isBlankLine line with
    | true =>
      rw [List.dropWhile_cons_of_pos blank, ih,
        List.filterMap_cons_none (ofLine?_of_isBlankLine blank)]
    | false => rw [List.dropWhile_cons_of_neg (by simp [blank])]

theorem filterMap_of_placeLines {places : List (String × String)} {lines : List String}
    (h : PlaceLines places lines) : lines.filterMap ofLine? = places := by
  induction h with
  | nil => rfl
  | place printed _ ih => rw [List.filterMap_cons_some (ofLine?_of_printsPlace printed), ih]
  | other silent _ ih => rw [List.filterMap_cons_none (ofLine?_eq_none_iff.mpr silent), ih]

theorem find?_cons (n p name : String) (places : SymbolPlaces) :
    find? ((n, p) :: places) name = if name = n then some p else find? places name := by
  by_cases own : name = n
  · simp [find?, own]
  · simp [find?, List.lookup_cons, own, beq_false_of_ne own]

theorem find?_put (places : SymbolPlaces) (name path other : String) :
    (places.put name path).find? other = if other = name then some path else places.find? other := by
  induction places with
  | nil => exact find?_cons name path other []
  | cons place places ih =>
    obtain ⟨n, p⟩ := place
    by_cases same : n = name
    · simp only [put, same, if_true, find?_cons]
      split <;> rfl
    · simp only [put, same, if_false, find?_cons, ih]
      by_cases own : other = n
      · simp [own, same]
      · simp [own]

theorem map_fst_put (places : SymbolPlaces) (name path : String) :
    (places.put name path).map Prod.fst =
      if name ∈ places.map Prod.fst then places.map Prod.fst else places.map Prod.fst ++ [name] := by
  induction places with
  | nil => rfl
  | cons place places ih =>
    obtain ⟨n, p⟩ := place
    by_cases same : n = name
    · simp [put, same]
    · simp only [put, same, if_false, List.map_cons, ih, List.mem_cons, Ne.symm same, false_or]
      split <;> rfl

theorem nodup_put {places : SymbolPlaces} (once : (places.map Prod.fst).Nodup) (name path : String) :
    ((places.put name path).map Prod.fst).Nodup := by
  rw [map_fst_put]
  split
  next => exact once
  next new =>
    refine List.nodup_append.mpr ⟨once, by simp, fun n mem last own eq => new ?_⟩
    rwa [← List.mem_singleton.mp own, ← eq]

theorem find?_eq_none_iff {places : SymbolPlaces} {name : String} :
    places.find? name = none ↔ name ∉ places.map Prod.fst := by
  rw [find?, List.lookup_eq_none_iff]
  simp only [bne_iff_ne, List.mem_map, not_exists, not_and]
  exact forall₂_congr fun place _ => ne_comm

/-- Places put one after the other. -/
def putAll (places : SymbolPlaces) (printed : List (String × String)) : SymbolPlaces :=
  printed.foldl (fun places (name, path) => places.put name path) places

/-- Of the places put for a name the last one is found. -/
theorem find?_putAll (places : SymbolPlaces) (printed : List (String × String)) (name : String) :
    (places.putAll printed).find? name =
      (printed.reverse.lookup name).or (places.find? name) := by
  induction printed generalizing places with
  | nil => rfl
  | cons place printed ih =>
    obtain ⟨n, p⟩ := place
    have rest : (places.putAll ((n, p) :: printed)).find? name =
        (printed.reverse.lookup name).or ((places.put n p).find? name) := ih (places.put n p)
    rw [rest, find?_put, List.reverse_cons, List.lookup_append, Option.or_assoc]
    congr 1
    by_cases own : name = n
    · simp [own]
    · simp [own, beq_false_of_ne own]

theorem nodup_putAll {places : SymbolPlaces} (once : (places.map Prod.fst).Nodup)
    (printed : List (String × String)) : ((places.putAll printed).map Prod.fst).Nodup := by
  induction printed generalizing places with
  | nil => exact once
  | cons place printed ih => exact ih (nodup_put once place.1 place.2)

theorem ofLines_of_placeLines {printed : List (String × String)} {lines : List String}
    (told : PlaceLines printed lines) (p : PromptForm) {blanks : List Char}
    (blank : allBlank blanks = true) (newline : Bool) :
    ofLines (promptedLines lines p blanks newline) = putAll [] printed := by
  have body : Reply.bodyOf (promptedLines lines p blanks newline) = lines.dropWhile isBlankLine :=
    bodyOf_promptedLines lines p blank newline
  rw [ofLines, body, filterMap_dropWhile, filterMap_of_placeLines told]
  rfl

theorem find?_putAll_nil_eq_some_iff {printed : List (String × String)} {name path : String} :
    (putAll [] printed).find? name = some path ↔
      ∃ before after, printed = before ++ (name, path) :: after ∧
        ∀ later ∈ after, later.1 ≠ name := by
  rw [find?_putAll, show find? [] name = none from rfl, Option.or_none, List.lookup_eq_some_iff]
  constructor
  · rintro ⟨after, before, eq, last⟩
    refine ⟨before.reverse, after.reverse, ?_, fun later mem => ?_⟩
    · simpa using List.reverse_eq_iff.mp eq
    · exact Ne.symm (bne_iff_ne.mp (last later (List.mem_reverse.mp mem)))
  · rintro ⟨before, after, rfl, last⟩
    refine ⟨after.reverse, before.reverse, by simp, fun later mem => ?_⟩
    exact bne_iff_ne.mpr (Ne.symm (last later (List.mem_reverse.mp mem)))

theorem mem_putAll_nil_iff {printed : List (String × String)} {name : String} :
    name ∈ (putAll [] printed).map Prod.fst ↔ name ∈ printed.map Prod.fst := by
  rw [← not_iff_not, ← find?_eq_none_iff, find?_putAll, show find? [] name = none from rfl,
    Option.or_none, ← find?, find?_eq_none_iff, List.map_reverse, List.mem_reverse]

end SymbolPlaces

/-- A reply that prints places tells each name's last path and no other name, whatever else it prints,
so the names missing from it are those it does not print. -/
theorem located_places_are_those_printed {printed : List (String × String)} {lines : List String}
    (told : PlaceLines printed lines) (p : PromptForm) {blanks : List Char}
    (blank : allBlank blanks = true) (newline : Bool) :
    let reply := Reply.ofLines (promptedLines lines p blanks newline)
    let places := SymbolPlaces.ofLines reply.lines
    (∀ name path, places.find? name = some path ↔
      ∃ before after, printed = before ++ (name, path) :: after ∧
        ∀ later ∈ after, later.1 ≠ name) ∧
    (places.map Prod.fst).Nodup ∧
    (∀ name, name ∈ places.map Prod.fst ↔ name ∈ printed.map Prod.fst) ∧
    ExceptT.run (ToolTask.locate []) = Task.done (.ok (.located [] [])) ∧
    ∀ names, names ≠ [] →
      Task.Leads (ExceptT.run (ToolTask.locate names)) [(some ("which " ++ " ".intercalate names), reply)]
        (.done (.ok (.located places (names.filter fun name => name ∉ printed.map Prod.fst)))) := by
  intro reply places
  have eq : places = SymbolPlaces.putAll [] printed :=
    SymbolPlaces.ofLines_of_placeLines told p blank newline
  refine ⟨fun name path => ?_, ?_, fun name => ?_, rfl, fun names some_ => ?_⟩
  · rw [eq, SymbolPlaces.find?_putAll_nil_eq_some_iff]
  · rw [eq]
    have once : (([] : SymbolPlaces).map Prod.fst).Nodup := List.nodup_nil
    exact SymbolPlaces.nodup_putAll once printed
  · rw [eq, SymbolPlaces.mem_putAll_nil_iff]
  · have missing : (names.filter fun name => name ∉ printed.map Prod.fst) =
        names.filter fun name => (places.find? name).isNone := by
      refine List.filter_congr fun name _ => ?_
      rw [Bool.eq_iff_iff, decide_eq_true_eq, Option.isNone_iff_eq_none,
        SymbolPlaces.find?_eq_none_iff, eq, SymbolPlaces.mem_putAll_nil_iff]
    rw [missing]
    cases names with
    | nil => exact absurd rfl some_
    | cons name names => exact .single _ _ _

theorem located_places_of_two_definitions :
    PlaceLines [("f", "/a b.m"), ("f", "/c from the file d.m")]
      ["'f' is a command-line function from the file /a b.m \t", "error: 'nope' not found",
        " 'f' is a script from the file /c from the file d.m"] ∧
    allBlank " ".toList = true ∧
    ∃ reply, reply.lines = ["'f' is a command-line function from the file /a b.m \t",
        "error: 'nope' not found", " 'f' is a script from the file /c from the file d.m", "debug> "] ∧
      Task.Leads (ExceptT.run (ToolTask.locate ["nope", "f"])) [(some "which nope f", reply)]
        (.done (.ok (.located [("f", "/c from the file d.m")] ["nope"]))) := by
  have told : PlaceLines [("f", "/a b.m"), ("f", "/c from the file d.m")]
      ["'f' is a command-line function from the file /a b.m \t", "error: 'nope' not found",
        " 'f' is a script from the file /c from the file d.m"] := by
    have word : IsOptionalWord "command-line ".toList :=
      .inr ⟨"command-line".toList, by decide, by simp, rfl⟩
    have ends : ∀ c ∈ some 'm', isBlank c = false := by
      rintro _ ⟨⟩
      rfl
    refine .place ⟨by decide, by decide, by decide, by decide, ends, " \t".toList, by decide, [],
        "command-line ".toList, _, rfl, word, .inl rfl, by decide⟩
      (.other ?_ (.place ⟨by decide, by decide, by decide, by decide, ends, [], rfl, [' '], [], _,
        by decide, .inl rfl, .inr rfl, by decide⟩ .nil))
    rw [← symbolPlace?_isSome_iff]
    decide
  have located := located_places_are_those_printed told (.debug false)
    (show allBlank " ".toList = true by decide) false
  exact ⟨told, by decide, _, rfl, located.2.2.2.2 ["nope", "f"] (by decide)⟩

end PromptRelay
