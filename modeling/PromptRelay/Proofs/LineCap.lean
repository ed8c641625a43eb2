import PromptRelay.Proofs.StopScanning

namespace PromptRelay

open LineBuffer (newline)

namespace StopScanner

/-- One chunk for a scanner that does `cut` to its lines while no banner is seen. -/
def readWith (cut : LineBuffer → LineBuffer) (s : StopScanner) (chunk : List UInt8) :
    StopScanner × Option StopNotice :=
  if !s.isOpen then (s, none)
  else
    let buffer := s.buffer.push chunk
    if endsInBanner buffer.view then
      ({ s with buffer := .empty }, some (.ofLines buffer.view.dropLast))
    else ({ s with buffer := cut buffer }, none)

/-- The scanner cuts its lines down to the cap. -/
theorem read_eq_readWith (s : StopScanner) (chunk : List UInt8) :
    s.read chunk = s.readWith (·.keepLast maxLines) chunk := rfl

/-- One chunk for a scanner that keeps every line until a banner ends. -/
def readUncapped : StopScanner → List UInt8 → StopScanner × Option StopNotice := readWith id

/-- What is told after each chunk. -/
def tellings (read : StopScanner → List UInt8 → StopScanner × Option StopNotice) (s : StopScanner) :
    List (List UInt8) → List (Option StopNotice)
  | [] => []
  | chunk :: rest => (read s chunk).2 :: tellings read (read s chunk).1 rest

/-- The bytes read up to each notice, `since` the one before it. -/
def stretches (since : List UInt8) : List (List UInt8) → List (Option StopNotice) → List (List UInt8)
  | chunk :: rest, some _ :: told => (since ++ chunk) :: stretches [] rest told
  | chunk :: rest, none :: told => stretches (since ++ chunk) rest told
  | _, _ => []

/-- The lines of a notice are the last complete lines of its stretch of the stream, those of a
banner among them. -/
structure Tells (notice : StopNotice) (stretch : List UInt8) : Prop where
  lines : notice.lines <:+ (LineBuffer.empty.push stretch).lines
  banner : ∃ init first second, notice = .ofLines (init ++ [first, second]) ∧
    (bannerStart? first.toList).isSome = true ∧ (bannerCode? second.toList).isSome = true

/-- A scanner and one without a cap, when both have read `kept` since their last notice. -/
structure Twins (kept : List UInt8) (s uncapped : StopScanner) : Prop where
  isOpen : s.isOpen = true
  bothOpen : uncapped.isOpen = true
  buffer : s.buffer = (LineBuffer.empty.push kept).keepLast maxLines
  whole : uncapped.buffer = LineBuffer.empty.push kept

/-- The lines of a banner outlast the cap, however long the stretch before them. -/
theorem tells_of_endsInBanner {kept chunk : List UInt8}
    (ends : endsInBanner (LineBuffer.empty.push (kept ++ chunk)).view = true) :
    Tells (.ofLines ((LineBuffer.empty.push (kept ++ chunk)).lines.drop (kept.count newline - maxLines)))
      (kept ++ chunk) := by
  have grows := LineBuffer.lines_length_le_push (LineBuffer.empty.push kept) chunk
  rw [LineBuffer.push_push, LineBuffer.lines_length_push_empty] at grows
  have room : maxLines = 1024 := rfl
  generalize hd : kept.count newline - maxLines = lost
  refine ⟨List.drop_suffix lost _, ?_⟩
  generalize LineBuffer.empty.push (kept ++ chunk) = full at ends grows
  obtain ⟨init, first, second, third, view, starts, code, _⟩ := endsInBanner_cases ends
  have split : full.lines ++ [LineBuffer.decodeLine full.openLine] =
      (init ++ [first, second]) ++ [third] := by
    rw [← LineBuffer.view, view, List.append_assoc]
    rfl
  have lines : full.lines = init ++ [first, second] := (List.append_inj' split rfl).1
  have within : lost ≤ init.length := by
    simp only [lines, List.length_append, List.length_cons, List.length_nil] at grows
    omega
  exact ⟨_, first, second, by rw [lines, List.drop_append_of_le_length within], starts, code⟩

namespace Twins

variable {kept : List UInt8} {s uncapped : StopScanner}

/-- Either both scanners go on reading, or both tell of the stretch that the chunk ends. -/
theorem read (h : Twins kept s uncapped) (chunk : List UInt8) :
    ((s.read chunk).2 = none ∧ (uncapped.readUncapped chunk).2 = none ∧
      Twins (kept ++ chunk) (s.read chunk).1 (uncapped.readUncapped chunk).1) ∨
    ∃ notice, (s.read chunk).2 = some notice ∧ Tells notice (kept ++ chunk) ∧
      (uncapped.readUncapped chunk).2 =
        some (.ofLines (LineBuffer.empty.push (kept ++ chunk)).lines) ∧
      Twins [] (s.read chunk).1 (uncapped.readUncapped chunk).1 := by
  have pushed : uncapped.buffer.push chunk = LineBuffer.empty.push (kept ++ chunk) := by
    rw [h.whole, LineBuffer.push_push]
  rw [read_kept h.isOpen h.buffer]
  simp only [readUncapped, readWith, h.bothOpen, pushed, Bool.not_true, Bool.false_eq_true, ↓reduceIte]
  split
  next ends =>
    refine .inr ⟨_, rfl, tells_of_endsInBanner ends, ?_, ⟨h.isOpen, rfl, rfl, rfl⟩⟩
    simp [LineBuffer.view]
  next => exact .inl ⟨rfl, rfl, h.isOpen, rfl, rfl, rfl⟩

/-- The capped scanner tells after the same chunks, and the last lines of what the other tells. -/
theorem tellings_rel (h : Twins kept s uncapped) (chunks : List (List UInt8)) :
    List.Forall₂ (Option.Rel fun notice whole => notice.lines <:+ whole.lines)
      (tellings StopScanner.read s chunks) (tellings readUncapped uncapped chunks) := by
  induction chunks generalizing kept s uncapped with
  | nil => exact .nil
  | cons chunk rest ih =>
    rcases h.read chunk with ⟨none, noneUncapped, later⟩ | ⟨notice, told, tells, toldUncapped, later⟩
    · rw [tellings, tellings, none, noneUncapped]
      exact .cons .none (ih later)
    · rw [tellings, tellings, told, toldUncapped]
      exact .cons (.some tells.lines) (ih later)

theorem tells (h : Twins kept s uncapped) (chunks : List (List UInt8)) :
    let told := tellings StopScanner.read s chunks
    List.Forall₂ Tells told.reduceOption (stretches kept chunks told) ∧
      (stretches kept chunks told).flatten <+: kept ++ chunks.flatten := by
  induction chunks generalizing kept s uncapped with
  | nil => exact ⟨.nil, List.nil_prefix⟩
  | cons chunk rest ih =>
    rw [List.flatten_cons, ← List.append_assoc]
    rcases h.read chunk with ⟨none, -, later⟩ | ⟨notice, told, tells, -, later⟩
    · rw [tellings, none]
      exact ih later
    · obtain ⟨ahead, within⟩ := ih later
      rw [tellings, told]
      refine ⟨.cons tells ahead, ?_⟩
      simpa [stretches] using within

end Twins

theorem start_twins : Twins [] start start := ⟨rfl, rfl, rfl, rfl⟩

theorem readAll_notices (s : StopScanner) (chunks : List (List UInt8)) :
    (s.readAll chunks).2 = (tellings read s chunks).reduceOption := by
  induction chunks generalizing s with
  | nil => rfl
  | cons chunk rest ih =>
    simp only [readAll, tellings, ih]
    cases (s.read chunk).2 <;> rfl

theorem read_isOpen (s : StopScanner) (chunk : List UInt8) : (s.read chunk).1.isOpen = s.isOpen := by
  unfold read
  split
  next => rfl
  next => dsimp only; split <;> rfl

theorem readAll_isOpen (s : StopScanner) (chunks : List (List UInt8)) :
    (s.readAll chunks).1.isOpen = s.isOpen := by
  induction chunks generalizing s with
  | nil => rfl
  | cons chunk rest ih => exact (ih (s.read chunk).1).trans (s.read_isOpen chunk)

theorem read_within_cap {s : StopScanner} (isOpen : s.isOpen = true) {chunk : List UInt8}
    (quiet : (s.read chunk).2 = none) : (s.read chunk).1.buffer.lines.length ≤ maxLines := by
  rw [read_eq_readWith] at quiet ⊢
  simp only [readWith, isOpen, Bool.not_true, Bool.false_eq_true, ↓reduceIte] at quiet ⊢
  split at quiet
  next => cases quiet
  next goesOn =>
    simp only [goesOn, Bool.false_eq_true, ↓reduceIte, LineBuffer.keepLast, List.length_drop]
    omega

/-- The cap on the lines kept costs no stop: after the same chunks as a scanner without it, the
scanner tells the last lines of what the other tells. The notices are of consecutive stretches of
the stream, each with a banner as its last two lines, and a chunk after which nothing is told
leaves no more lines than the cap. -/
theorem cap_costs_no_stop (chunks : List (List UInt8)) :
    let told := tellings read start chunks
    (start.readAll chunks).2 = told.reduceOption ∧
      List.Forall₂ (Option.Rel fun notice whole => notice.lines <:+ whole.lines) told
        (tellings readUncapped start chunks) ∧
      List.Forall₂ Tells told.reduceOption (stretches [] chunks told) ∧
      (stretches [] chunks told).flatten <+: chunks.flatten ∧
      ∀ before chunk later, chunks = before ++ chunk :: later →
        ((start.readAll before).1.read chunk).2 = none →
        ((start.readAll before).1.read chunk).1.buffer.lines.length ≤ 1024 := by
  obtain ⟨tells, within⟩ := start_twins.tells chunks
  exact ⟨readAll_notices start chunks, start_twins.tellings_rel chunks, tells, within,
    fun before _ _ _ quiet => read_within_cap (readAll_isOpen start before) quiet⟩

end StopScanner

end PromptRelay
