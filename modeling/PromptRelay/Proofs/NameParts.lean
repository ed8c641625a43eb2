import PromptRelay.Proofs.SpacedText
import PromptRelay.StopNotice

namespace PromptRelay

/-- The part of a frame's name after its last `>`, or all of it if it has none. -/
def IsFunctionOf (function name : List Char) : Prop :=
  '>' ∉ function ∧ (name = function ∨ ∃ outer, name = outer ++ '>' :: function)

/-- The part of a file name before its last dot, or all of it if it has no dot after its first
character. -/
def IsStemOf (stem name : List Char) : Prop :=
  (stem ≠ [] ∧ ∃ extension, '.' ∉ extension ∧ name = stem ++ '.' :: extension) ∨
    (stem = name ∧ '.' ∉ name.drop 1)

/-- The last component of a path that is no `.`, slashes at the end left out; it is no `..`. -/
def IsFileNameOf (name path : List Char) : Prop :=
  name ≠ [] ∧ name ≠ ['.'] ∧ name ≠ ['.', '.'] ∧ '/' ∉ name ∧
    ∃ (directory : List Char) (trailing : List (List Char)), (directory = [] ∨ directory.getLast? = some '/') ∧
      (∀ part ∈ trailing, part = [] ∨ part = ['.']) ∧
      path = directory ++ name ++ trailing.flatMap ('/' :: ·)

theorem split_at_last {c : Char} {s : List Char} (mem : c ∈ s) :
    ∃ before after, s = before ++ c :: after ∧ c ∉ after := by
  obtain ⟨after, before, eq, none⟩ := List.eq_append_cons_of_mem (List.mem_reverse.mpr mem)
  refine ⟨before.reverse, after.reverse, ?_, by simpa using none⟩
  rw [← List.reverse_reverse s, eq]
  simp

theorem cut_without {c : Char} {s : List Char} (none : c ∉ s) :
    s.reverse.takeWhile (· ≠ c) = s.reverse ∧ s.reverse.dropWhile (· ≠ c) = [] := by
  have inside : ∀ d ∈ s.reverse, (decide (d ≠ c)) = true := by
    intro d mem
    have own := List.mem_reverse.mp mem
    simpa using fun eq : d = c => none (eq ▸ own)
  have stop : ∀ d ∈ ([] : List Char).head?, (decide (d ≠ c)) = false := by simp
  have cut := takeWhile_append_stop inside stop
  rwa [List.append_nil] at cut

theorem cut_at_last {c : Char} {after : List Char} (none : c ∉ after) (before : List Char) :
    (before ++ c :: after).reverse.takeWhile (· ≠ c) = after.reverse ∧
      (before ++ c :: after).reverse.dropWhile (· ≠ c) = c :: before.reverse := by
  have turned : (before ++ c :: after).reverse = after.reverse ++ c :: before.reverse := by simp
  have inside : ∀ d ∈ after.reverse, (decide (d ≠ c)) = true := by
    intro d mem
    have own := List.mem_reverse.mp mem
    simpa using fun eq : d = c => none (eq ▸ own)
  rw [turned]
  exact takeWhile_append_stop inside (by simp)

theorem functionPart_eq_iff {function name : List Char} :
    Frame.functionPart name = function ↔ IsFunctionOf function name := by
  constructor
  · rintro rfl
    by_cases mem : '>' ∈ name
    · obtain ⟨outer, inner, rfl, none⟩ := split_at_last mem
      rw [Frame.functionPart, (cut_at_last none outer).1, List.reverse_reverse]
      exact ⟨none, .inr ⟨outer, rfl⟩⟩
    · rw [Frame.functionPart, (cut_without mem).1, List.reverse_reverse]
      exact ⟨mem, .inl rfl⟩
  · rintro ⟨none, rfl | ⟨outer, rfl⟩⟩
    · rw [Frame.functionPart, (cut_without none).1, List.reverse_reverse]
    · rw [Frame.functionPart, (cut_at_last none outer).1, List.reverse_reverse]

theorem stemOf_eq_of_cut {name before : List Char}
    (cut : (name.reverse.dropWhile (· ≠ '.')).drop 1 = before) :
    stemOf name = if before = [] then name else before.reverse := by
  unfold stemOf
  rw [cut]
  cases before <;> rfl

theorem stemOf_eq_iff {stem name : List Char} : stemOf name = stem ↔ IsStemOf stem name := by
  have whole : '.' ∉ name.drop 1 → stemOf name = name := by
    intro none
    have nothing : (name.reverse.dropWhile (· ≠ '.')).drop 1 = [] := by
      by_cases mem : '.' ∈ name
      · -- The only dot is the first character.
        cases name with
        | nil => cases mem
        | cons c rest =>
          rcases List.mem_cons.mp mem with rfl | later
          · have cut := (cut_at_last none []).2
            rw [List.nil_append] at cut
            exact congrArg (List.drop 1) cut
          · exact absurd later none
      · exact congrArg (List.drop 1) (cut_without mem).2
    rw [stemOf_eq_of_cut nothing, if_pos rfl]
  have shorter : ∀ {before extension : List Char}, before ≠ [] → '.' ∉ extension →
      stemOf (before ++ '.' :: extension) = before := by
    intro before extension some_ none
    rw [stemOf_eq_of_cut (congrArg (List.drop 1) (cut_at_last none before).2)]
    simp [some_]
  constructor
  · rintro rfl
    by_cases mem : '.' ∈ name
    · obtain ⟨before, extension, rfl, none⟩ := split_at_last mem
      cases before with
      | nil =>
        rw [List.nil_append] at whole ⊢
        exact .inr ⟨whole none, none⟩
      | cons c before =>
        rw [shorter (List.cons_ne_nil c before) none]
        exact .inl ⟨List.cons_ne_nil c before, extension, none, rfl⟩
    · have absent : '.' ∉ name.drop 1 := fun later => mem (List.mem_of_mem_drop later)
      exact .inr ⟨whole absent, absent⟩
  · rintro (⟨some_, extension, none, rfl⟩ | ⟨rfl, none⟩)
    · exact shorter some_ none
    · exact whole none

theorem not_mem_of_mem_splitOn {c : Char} {s : List Char} : ∀ part ∈ s.splitOn c, c ∉ part := by
  induction s with
  | nil => simp [List.splitOn_nil]
  | cons d s ih =>
    rw [List.splitOn_cons_eq_if_modifyHead]
    split
    next => exact List.forall_mem_cons.mpr ⟨by simp, ih⟩
    next other =>
      have differs : d ≠ c := by simpa using other
      cases split : s.splitOn c with
      | nil => exact absurd split (List.splitOn_ne_nil c s)
      | cons part parts =>
        rw [split] at ih
        obtain ⟨first, later⟩ := List.forall_mem_cons.mp ih
        refine List.forall_mem_cons.mpr ⟨?_, later⟩
        simp [first, Ne.symm differs]

theorem splitOn_flatMap {c : Char} {first : List Char} (none : c ∉ first) {parts : List (List Char)}
    (apart : ∀ part ∈ parts, c ∉ part) :
    (first ++ parts.flatMap (c :: ·)).splitOn c = first :: parts := by
  induction parts generalizing first with
  | nil => rw [List.flatMap_nil, List.append_nil, List.splitOn_eq_singleton none]
  | cons part parts ih =>
    obtain ⟨own, later⟩ := List.forall_mem_cons.mp apart
    rw [List.flatMap_cons, List.cons_append, List.splitOn_append_cons_self_of_not_mem none, ih own later]

theorem intercalate_parts (c : Char) (before after : List (List Char)) (name : List Char) :
    [c].intercalate (before ++ name :: after) =
      before.flatMap (· ++ [c]) ++ name ++ after.flatMap (c :: ·) := by
  have tail : ∀ (first : List Char) (rest : List (List Char)),
      [c].intercalate (first :: rest) = first ++ rest.flatMap (c :: ·) := by
    intro first rest
    induction rest generalizing first with
    | nil => rw [List.intercalate_singleton, List.flatMap_nil, List.append_nil]
    | cons next rest ih => rw [List.intercalate_cons_cons, ih, List.flatMap_cons, List.append_assoc]; rfl
  induction before with
  | nil => exact tail name after
  | cons part before ih =>
    rw [List.cons_append, List.intercalate_cons_of_ne_nil (by simp), ih, List.flatMap_cons]
    simp only [List.append_assoc]

theorem dropWhile_reverse_eq_cons_iff {α : Type} {p : α → Bool} {xs before : List α} {last : α} :
    xs.reverse.dropWhile p = last :: before.reverse ↔
      p last = false ∧ ∃ after, (∀ x ∈ after, p x = true) ∧ xs = before ++ last :: after := by
  constructor
  · intro h
    refine ⟨head_dropWhile last (by rw [h]; rfl), (xs.reverse.takeWhile p).reverse, ?_, ?_⟩
    · exact fun x mem => List.mem_takeWhile_imp (List.mem_reverse.mp mem)
    · have cut := congrArg List.reverse (List.takeWhile_append_dropWhile (p := p) (l := xs.reverse))
      rw [h, List.reverse_append, List.reverse_reverse] at cut
      simpa using cut.symm
  · rintro ⟨stop, after, skipped, rfl⟩
    have turned : (before ++ last :: after).reverse = after.reverse ++ last :: before.reverse := by simp
    have inside : ∀ x ∈ after.reverse, p x = true := fun x mem => skipped x (List.mem_reverse.mp mem)
    rw [turned]
    exact (takeWhile_append_stop inside (by simpa using stop)).2

theorem fileName?_eq_some_iff_parts {path name : List Char} :
    fileName? path = some name ↔ name ≠ [] ∧ name ≠ ['.'] ∧ name ≠ ['.', '.'] ∧
      ∃ before after, (∀ part ∈ after, part = [] ∨ part = ['.']) ∧
        path.splitOn '/' = before ++ name :: after := by
  have stops : ∀ {before : List (List Char)}, (path.splitOn '/').reverse.dropWhile
      (fun c => c == [] || c == ['.']) = name :: before.reverse ↔
      (name ≠ [] ∧ name ≠ ['.']) ∧ ∃ after, (∀ part ∈ after, part = [] ∨ part = ['.']) ∧
        path.splitOn '/' = before ++ name :: after := by
    intro before
    rw [dropWhile_reverse_eq_cons_iff]
    simp
  unfold fileName?
  simp only
  constructor
  · intro h
    split at h
    next => cases h
    next last rest cut =>
      split at h
      next => cases h
      next other =>
        cases h
        rw [← List.reverse_reverse rest] at cut
        obtain ⟨⟨some_, noDot⟩, after, skipped, split⟩ := stops.mp cut
        exact ⟨some_, noDot, by simpa using other, _, after, skipped, split⟩
  · rintro ⟨some_, noDot, other, before, after, skipped, split⟩
    rw [stops.mpr ⟨⟨some_, noDot⟩, after, skipped, split⟩]
    simp [other]

theorem fileName?_eq_some_iff {path name : List Char} :
    fileName? path = some name ↔ IsFileNameOf name path := by
  rw [fileName?_eq_some_iff_parts]
  constructor
  · rintro ⟨some_, noDot, other, before, after, skipped, split⟩
    have apart : '/' ∉ name := not_mem_of_mem_splitOn name (by rw [split]; simp)
    have rejoined : ['/'].intercalate (path.splitOn '/') = path := List.intercalate_splitOn '/'
    rw [split, intercalate_parts] at rejoined
    refine ⟨some_, noDot, other, apart, _, after, ?_, skipped, rejoined.symm⟩
    rcases List.eq_nil_or_concat before with rfl | ⟨init, last, rfl⟩
    · exact .inl rfl
    · right
      simp
  · rintro ⟨some_, noDot, other, apart, directory, trailing, ends, skipped, rfl⟩
    have plain : ∀ part ∈ trailing, '/' ∉ part := by
      intro part mem
      rcases skipped part mem with rfl | rfl <;> decide
    have last := splitOn_flatMap apart plain
    refine ⟨some_, noDot, other, ?_⟩
    rcases ends with rfl | slash
    · exact ⟨[], trailing, skipped, last⟩
    · obtain ⟨init, rfl⟩ := List.getLast?_eq_some_iff.mp slash
      refine ⟨init.splitOn '/', trailing, skipped, ?_⟩
      rw [← last, ← List.splitOn_append_cons_self]
      simp

/-- The stem of a path: that of its file name. -/
theorem fileStem?_eq_some_iff {path stem : List Char} :
    fileStem? path = some stem ↔ ∃ name, IsFileNameOf name path ∧ IsStemOf stem name := by
  simp only [fileStem?, Option.map_eq_some_iff, fileName?_eq_some_iff, stemOf_eq_iff]

theorem fileStem?_eq_none_iff {path : List Char} :
    fileStem? path = none ↔ ∀ file, ¬IsFileNameOf file path := by
  rw [fileStem?, Option.map_eq_none_iff, Option.eq_none_iff_forall_ne_some]
  simp only [ne_eq, fileName?_eq_some_iff]

end PromptRelay
