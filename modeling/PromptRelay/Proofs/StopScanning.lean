import PromptRelay.Proofs.StopLines
import PromptRelay.StopScanner

namespace PromptRelay

open LineBuffer (newline decodeLine pieces)
open StopNotice (framesOf)

namespace LineBuffer

theorem keepLast_push (b : LineBuffer) (n : Nat) (chunk : List UInt8) :
    (b.keepLast n).push chunk =
      { b.push chunk with lines := (b.push chunk).lines.drop (b.lines.length - n) } :=
  b.drop_push (Nat.sub_le _ _) chunk

theorem keepLast_drop (b : LineBuffer) {n d : Nat} (h : d ≤ b.lines.length - n) :
    { b with lines := b.lines.drop d }.keepLast n = b.keepLast n := by
  simp only [keepLast, List.drop_drop, List.length_drop]
  congr 2
  omega

theorem lines_length_push_empty (bytes : List UInt8) :
    (empty.push bytes).lines.length = bytes.count newline := by
  obtain ⟨lines, last, cut⟩ := exists_cut bytes
  simp [cut.push, cut.count]

theorem newline_not_mem_openLine (bytes : List UInt8) : newline ∉ (empty.push bytes).openLine := by
  obtain ⟨lines, last, cut⟩ := exists_cut bytes
  rw [cut.push]
  exact cut.isOpen

/-- A blank beginning of a line changes the lines by leading blanks only. -/
theorem view_prepend {x : List UInt8} (whole : newline ∉ x)
    (blank : isBlankLine (decodeLine x) = true) (bytes : List UInt8) :
    (empty.push (x ++ bytes)).view.map flush = (empty.push bytes).view.map flush := by
  rw [view_push_empty, view_push_empty, pieces_prepend whole]
  cases pieces bytes with
  | nil => rfl
  | cons p more => simp [flush_decodeLine_append blank]

theorem lines_prepend {x : List UInt8} (whole : newline ∉ x)
    (blank : isBlankLine (decodeLine x) = true) (bytes : List UInt8) :
    (empty.push (x ++ bytes)).lines.map flush = (empty.push bytes).lines.map flush := by
  have init : ∀ b : LineBuffer, b.lines.map flush = (b.view.map flush).dropLast := by
    intro b
    simp [view]
  rw [init, init, view_prepend whole blank]

end LineBuffer

/-- The frames of the stops found in chunks, for a scanner that drops no blanks. `kept` was read
since the last stop; when it grew long, its oldest lines are lost. -/
def framesFound (kept : List UInt8) : List (List UInt8) → List (List Frame)
  | [] => []
  | chunk :: rest =>
    let buffer := LineBuffer.empty.push (kept ++ chunk)
    if endsInBanner buffer.view then
      framesOf (buffer.lines.drop (kept.count newline - StopScanner.maxLines)) ::
        framesFound buffer.openLine rest
    else framesFound (kept ++ chunk) rest

/-- What the scanner does with a chunk, told by all that was read since the last stop. -/
theorem read_kept {s : StopScanner} (isOpen : s.isOpen = true) {kept : List UInt8}
    (buffer : s.buffer = (LineBuffer.empty.push kept).keepLast StopScanner.maxLines)
    (chunk : List UInt8) :
    s.read chunk =
      if endsInBanner (LineBuffer.empty.push (kept ++ chunk)).view then
        ({ s with buffer := .empty },
          some (.ofLines ((LineBuffer.empty.push (kept ++ chunk)).lines.drop
            (kept.count newline - StopScanner.maxLines))))
      else
        ({ s with
            buffer := (LineBuffer.empty.push (kept ++ chunk)).keepLast StopScanner.maxLines }, none) := by
  have pushed := LineBuffer.keepLast_push (LineBuffer.empty.push kept) StopScanner.maxLines chunk
  have grows := LineBuffer.lines_length_le_push (LineBuffer.empty.push kept) chunk
  rw [LineBuffer.push_push, LineBuffer.lines_length_push_empty] at pushed
  rw [LineBuffer.push_push, LineBuffer.lines_length_push_empty] at grows
  generalize LineBuffer.empty.push (kept ++ chunk) = full at pushed grows
  generalize hd : kept.count newline - StopScanner.maxLines = lost at pushed
  have within : lost ≤ full.lines.length - StopScanner.maxLines := by omega
  have view : ({ full with lines := full.lines.drop lost } : LineBuffer).view = full.view.drop lost := by
    simp only [LineBuffer.view]
    rw [List.drop_append_of_le_length (by omega)]
  have same : endsInBanner (full.view.drop lost) = endsInBanner full.view := by
    cases lost with
    | zero => rfl
    | succ lost =>
      refine endsInBanner_drop ?_
      have room : StopScanner.maxLines = 1024 := rfl
      simp only [LineBuffer.view, List.length_append, List.length_singleton]
      omega
  simp only [StopScanner.read, LineBuffer.take, isOpen, buffer, pushed, view, same]
  have shown : (full.view.drop lost).dropLast = full.lines.drop lost := by
    rw [← view]
    simp [LineBuffer.view]
  rw [shown, LineBuffer.keepLast_drop full within]
  rfl

/-- The scanner finds the same frames as one that drops no blanks. -/
theorem readAll_frames {s : StopScanner} (isOpen : s.isOpen = true) {x kept : List UInt8}
    (whole : newline ∉ x) (blank : isBlankLine (decodeLine x) = true)
    (buffer : s.buffer = (LineBuffer.empty.push kept).keepLast StopScanner.maxLines)
    (chunks : List (List UInt8)) :
    (s.readAll chunks).2.map (·.frames) = framesFound (x ++ kept) chunks := by
  -- `x` are the blanks after the last stop: the scanner drops them, `framesFound` keeps them.
  induction chunks generalizing s x kept with
  | nil => rfl
  | cons chunk rest ih =>
    have ends : endsInBanner (LineBuffer.empty.push (x ++ kept ++ chunk)).view =
        endsInBanner (LineBuffer.empty.push (kept ++ chunk)).view := by
      rw [← endsInBanner_map_flush, List.append_assoc, LineBuffer.view_prepend whole blank,
        endsInBanner_map_flush]
    have count : (x ++ kept).count newline = kept.count newline := by
      rw [List.count_append, List.count_eq_zero.mpr whole, Nat.zero_add]
    simp only [StopScanner.readAll, read_kept isOpen buffer, framesFound, ends, count]
    split
    next hit =>
      rw [← ends] at hit
      have frames : ∀ d, framesOf ((LineBuffer.empty.push (kept ++ chunk)).lines.drop d) =
          framesOf ((LineBuffer.empty.push (x ++ kept ++ chunk)).lines.drop d) := by
        intro d
        rw [← framesOf_map_flush, ← framesOf_map_flush (List.drop d _), List.map_drop, List.map_drop,
          List.append_assoc, LineBuffer.lines_prepend whole blank]
      have cleared : LineBuffer.empty =
          (LineBuffer.empty.push []).keepLast StopScanner.maxLines := rfl
      have later := ih (s := { s with buffer := .empty }) isOpen
        (LineBuffer.newline_not_mem_openLine (x ++ kept ++ chunk)) (blank_of_endsInBanner hit) cleared
      rw [List.append_nil] at later
      simp only [Option.toList_some, List.singleton_append, List.map_cons, later, StopNotice.ofLines,
        frames]
    next =>
      rw [List.append_assoc]
      simpa using ih (s := { s with
        buffer := (LineBuffer.empty.push (kept ++ chunk)).keepLast StopScanner.maxLines })
        isOpen whole blank rfl

end PromptRelay
