import PromptRelay.Proofs.LossyText

namespace PromptRelay.LineBuffer

/-- A carriage return is looked for at the end only. -/
theorem dropReturn_append (first : List UInt8) {later : List UInt8} (h : later ≠ []) :
    dropReturn (first ++ later) = first ++ dropReturn later := by
  unfold dropReturn
  rw [List.getLast?_append, Option.or_of_isSome (List.getLast?_isSome.mpr h),
    List.dropLast_append_of_ne_nil h]
  split <;> rfl

theorem dropReturn_cases (bytes : List UInt8) :
    dropReturn bytes = bytes ∨ bytes = dropReturn bytes ++ [carriageReturn] := by
  unfold dropReturn
  split
  next last =>
    obtain ⟨init, rfl⟩ := List.getLast?_eq_some_iff.mp last
    exact Or.inr (by rw [List.dropLast_concat])
  next => exact Or.inl rfl

theorem pieces_ne_nil (bytes : List UInt8) : pieces bytes ≠ [] := List.splitOn_ne_nil newline bytes

theorem pieces_whole {bytes : List UInt8} (h : newline ∉ bytes) : pieces bytes = [bytes] :=
  List.splitOn_eq_singleton h

theorem pieces_append_newline (first later : List UInt8) :
    pieces (first ++ newline :: later) = pieces first ++ pieces later :=
  List.splitOn_append_cons_self first later

theorem pieces_cons (b : UInt8) (rest : List UInt8) (h : b ≠ newline) :
    pieces (b :: rest) = (pieces rest).modifyHead (b :: ·) := by
  simp [pieces, List.splitOn_cons_eq_if_modifyHead, h]

theorem pieces_append (first later : List UInt8) :
    pieces (first ++ later) =
      (pieces first).dropLast ++ pieces ((pieces first).getLastD [] ++ later) := by
  induction first with
  | nil => simp [pieces]
  | cons b rest ih =>
    by_cases hb : b = newline
    · subst b
      have cut := pieces_append_newline [] (rest ++ later)
      have cutFirst := pieces_append_newline [] rest
      have before : pieces [] = [[]] := pieces_whole (by simp)
      simp only [List.nil_append, before, List.singleton_append] at cut cutFirst
      have hne := pieces_ne_nil rest
      rw [List.cons_append, cut, cutFirst, ih, List.dropLast_cons_of_ne_nil hne, List.cons_append]
      simp [List.getLastD_eq_getLast?, List.getLast?_cons, List.getLast?_eq_some_getLast hne]
    · rw [List.cons_append, pieces_cons b _ hb, pieces_cons b _ hb, ih]
      cases hp : pieces rest with
      | nil => exact absurd hp (pieces_ne_nil rest)
      | cons p more =>
        cases more with
        | nil => simp [pieces_cons b _ hb]
        | cons q more => simp

theorem pieces_eq_concat (bytes : List UInt8) : ∃ init last, pieces bytes = init ++ [last] :=
  ⟨_, _, (List.dropLast_concat_getLast (pieces_ne_nil bytes)).symm⟩

theorem pieces_prepend {x : List UInt8} (h : newline ∉ x) (later : List UInt8) :
    pieces (x ++ later) = (pieces later).modifyHead (x ++ ·) := by
  induction x with
  | nil =>
    cases hp : pieces later with
    | nil => exact absurd hp (pieces_ne_nil later)
    | cons p more => simp [hp]
  | cons b x ih =>
    have ink : b ≠ newline := fun eq => h (eq ▸ List.mem_cons_self)
    rw [List.cons_append, pieces_cons b _ ink, ih fun mem => h (List.mem_cons_of_mem b mem)]
    cases hp : pieces later with
    | nil => exact absurd hp (pieces_ne_nil later)
    | cons p more => simp

def joinLines (lines : List (List UInt8)) : List UInt8 := lines.flatMap (· ++ [newline])

theorem no_line_broken : ∀ line ∈ ([] : List (List UInt8)), newline ∉ line := List.forall_mem_nil _

theorem joinLines_cons (line : List UInt8) (lines : List (List UInt8)) (rest : List UInt8) :
    joinLines (line :: lines) ++ rest = line ++ newline :: (joinLines lines ++ rest) := by
  simp [joinLines]

theorem joinLines_append (first later : List (List UInt8)) :
    joinLines (first ++ later) = joinLines first ++ joinLines later := List.flatMap_append

theorem pieces_joinLines {lines : List (List UInt8)} (whole : ∀ line ∈ lines, newline ∉ line)
    (rest : List UInt8) : pieces (joinLines lines ++ rest) = lines ++ pieces rest := by
  induction lines with
  | nil => rfl
  | cons line lines ih =>
    rw [joinLines_cons, pieces_append_newline, pieces_whole (whole line List.mem_cons_self),
      ih fun l hl => whole l (List.mem_cons_of_mem line hl)]
    rfl

/-- Only a character of one byte has a byte below 0x80: all bytes of the others are high. -/
theorem toNat_of_mem_utf8EncodeChar {b : UInt8} (ascii : b.toNat < 0x80) {c : Char}
    (h : b ∈ String.utf8EncodeChar c) : c.toNat = b.toNat := by
  have valid : c.toNat < 0xD800 ∨ 0xDFFF < c.toNat ∧ c.toNat < 0x110000 := c.valid
  have octet : ∀ k, k < 256 → b = UInt8.ofNat k → k = b.toNat := by
    intro k bound eq
    rw [eq, toNat_ofNat_of_lt bound]
  have high : ∀ k, 0x80 ≤ k → k < 256 → b ≠ UInt8.ofNat k := by
    intro k low bound eq
    have value := octet k bound eq
    omega
  unfold String.utf8EncodeChar at h
  simp only [show c.val.toNat = c.toNat from rfl] at h
  generalize c.toNat = n at h valid
  split at h
  next one => exact octet n (by omega) (List.mem_singleton.mp h)
  next =>
  split at h
  next two =>
    simp only [List.mem_cons, List.not_mem_nil, or_false] at h
    rcases h with h | h <;> exact absurd h (high _ (by omega) (by omega))
  next =>
  split at h <;> simp only [List.mem_cons, List.not_mem_nil, or_false] at h
  next three =>
    rcases h with h | h | h <;> exact absurd h (high _ (by omega) (by omega))
  next four =>
    rcases h with h | h | h | h <;> exact absurd h (high _ (by omega) (by omega))

theorem newline_mem_utf8EncodeChar {c : Char} (h : newline ∈ String.utf8EncodeChar c) : c = '\n' :=
  Char.toNat_inj.mp (toNat_of_mem_utf8EncodeChar (by decide) h)

theorem newline_not_mem_utf8Bytes {s : String} (h : '\n' ∉ s.toList) : newline ∉ utf8Bytes s := by
  rw [utf8Bytes_eq]
  intro mem
  obtain ⟨c, hc, inside⟩ := List.mem_flatMap.mp mem
  exact h (newline_mem_utf8EncodeChar inside ▸ hc)

theorem last_utf8Bytes_ne_return {s : String} (h : s.toList.getLast? ≠ some '\r') :
    (utf8Bytes s).getLast? ≠ some carriageReturn := by
  rw [utf8Bytes_eq]
  rcases List.eq_nil_or_concat s.toList with empty | ⟨init, c, eq⟩
  · simp [empty]
  · rw [eq, List.concat_eq_append, List.flatMap_append, List.flatMap_singleton]
    intro last
    have inside : carriageReturn ∈ String.utf8EncodeChar c := by
      have some_ := List.getLast?_isSome.mpr (String.utf8EncodeChar_ne_nil (c := c))
      rw [List.getLast?_append, Option.or_of_isSome some_] at last
      exact List.mem_of_getLast? last
    have ends : c = '\r' := Char.toNat_inj.mp (toNat_of_mem_utf8EncodeChar (by decide) inside)
    exact h (by rw [eq, ends, List.concat_eq_append, List.getLast?_concat])

/-- Lines and the open one, as bytes. -/
structure Cut (bytes : List UInt8) (lines : List (List UInt8)) (last : List UInt8) : Prop where
  eq : bytes = joinLines lines ++ last
  whole : ∀ line ∈ lines, newline ∉ line
  isOpen : newline ∉ last

theorem exists_cut (bytes : List UInt8) : ∃ lines last, Cut bytes lines last := by
  induction bytes with
  | nil => exact ⟨[], [], rfl, by simp, List.not_mem_nil⟩
  | cons b rest ih =>
    obtain ⟨lines, last, rfl, whole, isOpen⟩ := ih
    by_cases hb : b = newline
    · subst b
      refine ⟨[] :: lines, last, by simp [joinLines], ?_, isOpen⟩
      intro line h
      rcases List.mem_cons.mp h with rfl | h
      · exact List.not_mem_nil
      · exact whole line h
    · cases lines with
      | nil => exact ⟨[], b :: last, rfl, whole, by simp [isOpen, Ne.symm hb]⟩
      | cons line lines =>
        refine ⟨(b :: line) :: lines, last, by simp [joinLines], ?_, isOpen⟩
        intro l h
        rcases List.mem_cons.mp h with rfl | h
        · have inner := whole line List.mem_cons_self
          simp [inner, Ne.symm hb]
        · exact whole l (List.mem_cons_of_mem line h)

theorem Cut.pieces {bytes last : List UInt8} {lines : List (List UInt8)} (h : Cut bytes lines last) :
    pieces bytes = lines ++ [last] := by
  rw [h.eq, pieces_joinLines h.whole, pieces_whole h.isOpen]

theorem Cut.count {bytes last : List UInt8} {lines : List (List UInt8)} (h : Cut bytes lines last) :
    bytes.count newline = lines.length := by
  have none : last.count newline = 0 := List.count_eq_zero.mpr h.isOpen
  have each : ∀ {lines : List (List UInt8)}, (∀ line ∈ lines, newline ∉ line) →
      (joinLines lines).count newline = lines.length := by
    intro lines whole
    induction lines with
    | nil => rfl
    | cons line lines ih =>
      have own : line.count newline = 0 := List.count_eq_zero.mpr (whole line List.mem_cons_self)
      have later := ih fun l hl => whole l (List.mem_cons_of_mem line hl)
      rw [← List.append_nil (joinLines (line :: lines)), joinLines_cons, List.append_nil,
        List.count_append, List.count_cons_self, own, later, List.length_cons]
      omega
  rw [h.eq, List.count_append, each h.whole, none, Nat.add_zero]

theorem Cut.push {bytes last : List UInt8} {lines : List (List UInt8)} (h : Cut bytes lines last) :
    empty.push bytes = ⟨lines.map decodeLine, last⟩ := by
  simp [LineBuffer.push, empty, h.pieces]

/-- Lines that were read stay the first lines of the stream. -/
theorem Cut.lines_prefix {bytes last stream : List UInt8} {lines : List (List UInt8)}
    (h : Cut bytes lines last) (read : bytes <+: stream) :
    lines <+: (LineBuffer.pieces stream).dropLast := by
  obtain ⟨more, rfl⟩ := read
  rw [pieces_append, h.pieces, List.dropLast_concat, List.getLastD_concat,
    List.dropLast_append_of_ne_nil (pieces_ne_nil _)]
  exact List.prefix_append _ _

/-- Old lines that are missing change nothing of what a chunk adds. -/
theorem drop_push (b : LineBuffer) {lost : Nat} (within : lost ≤ b.lines.length)
    (chunk : List UInt8) :
    ({ b with lines := b.lines.drop lost } : LineBuffer).push chunk =
      { b.push chunk with lines := (b.push chunk).lines.drop lost } := by
  simp only [push, List.drop_append_of_le_length within]

theorem lines_length_le_push (b : LineBuffer) (chunk : List UInt8) :
    b.lines.length ≤ (b.push chunk).lines.length := by
  simp [push]

/-- Chunks make the same lines as their bytes in one. -/
theorem push_push (b : LineBuffer) (first later : List UInt8) :
    (b.push first).push later = b.push (first ++ later) := by
  obtain ⟨init, last, cut⟩ := pieces_eq_concat (b.openLine ++ first)
  obtain ⟨more, final, cutLater⟩ := pieces_eq_concat (last ++ later)
  have joined : pieces (b.openLine ++ (first ++ later)) = (init ++ more) ++ [final] := by
    rw [← List.append_assoc, pieces_append, cut]
    simp [cutLater]
  simp only [push, cut, joined, List.dropLast_concat, List.getLastD_concat, cutLater]
  simp

theorem view_push_empty (bytes : List UInt8) :
    (empty.push bytes).view = (pieces bytes).map decodeLine := by
  obtain ⟨init, last, cut⟩ := pieces_eq_concat bytes
  simp [view, push, empty, cut]

end PromptRelay.LineBuffer
