import Mathlib.Data.List.Infix
import PromptRelay.Proofs.Printouts

namespace PromptRelay

open LineBuffer (decodeLine)
open Relay (isOwedBlank)

/-- Everything printed in answer to the first lines. -/
def transcript (printouts : Nat → Printout) (count : Nat) : List UInt8 :=
  (List.range count).flatMap fun n => (printouts n).bytes

theorem transcript_succ (printouts : Nat → Printout) (count : Nat) :
    transcript printouts (count + 1) = transcript printouts count ++ (printouts count).bytes := by
  simp [transcript, List.range_succ]

theorem range_grows {m n : Nat} (h : m ≤ n) : List.range m <+: List.range n := by
  obtain ⟨d, rfl⟩ := Nat.exists_eq_add_of_le h
  rw [List.range_add]
  exact List.prefix_append _ _

theorem transcript_grows (printouts : Nat → Printout) {m n : Nat} (h : m ≤ n) :
    transcript printouts m <+: transcript printouts n := (range_grows h).flatMap _

/-- Everything printed up to the end of the prompt of one answer. -/
def throughPrompt (printouts : Nat → Printout) (n : Nat) : List UInt8 :=
  transcript printouts n ++ (printouts n).upToPrompt

/-- Some chunk ended right after these bytes. -/
def CutAfter (bytes : List UInt8) (chunks : List (List UInt8)) : Prop :=
  ∃ part, part <+: chunks ∧ part.flatten = bytes

instance (bytes : List UInt8) (chunks : List (List UInt8)) : Decidable (CutAfter bytes chunks) :=
  decidable_of_iff (∃ part ∈ chunks.inits, part.flatten = bytes) (by simp [CutAfter])

theorem flatten_concat (chunks : List (List UInt8)) (chunk : List UInt8) :
    (chunks ++ [chunk]).flatten = chunks.flatten ++ chunk := by
  simp

/-- A later chunk cuts nothing that was read before it. -/
theorem cutAfter_of_read {bytes : List UInt8} {chunks : List (List UInt8)}
    (read : bytes <+: chunks.flatten) (chunk : List UInt8) :
    CutAfter bytes (chunks ++ [chunk]) ↔ CutAfter bytes chunks := by
  constructor
  · rintro ⟨part, within, flat⟩
    rcases List.prefix_concat_iff.mp within with rfl | within
    · rw [flatten_concat] at flat
      have short := read.length_le
      rw [← flat, List.length_append] at short
      have none : chunk = [] := List.eq_nil_of_length_eq_zero (by omega)
      exact ⟨chunks, List.prefix_rfl, by rw [← flat, none, List.append_nil]⟩
    · exact ⟨part, within, flat⟩
  · rintro ⟨part, within, flat⟩
    exact ⟨part, within.trans (List.prefix_append _ _), flat⟩

/-- Only the chunk that reads them to the end can cut after bytes that were not read before. -/
theorem cutAfter_of_not_read {bytes : List UInt8} {chunks : List (List UInt8)}
    (unread : ¬bytes <+: chunks.flatten) (chunk : List UInt8) :
    CutAfter bytes (chunks ++ [chunk]) ↔ chunks.flatten ++ chunk = bytes := by
  constructor
  · rintro ⟨part, within, flat⟩
    rcases List.prefix_concat_iff.mp within with rfl | ⟨rest, eq⟩
    · rw [← flat, flatten_concat]
    · refine absurd ⟨rest.flatten, ?_⟩ unread
      rw [← flat, ← List.flatten_append, eq]
  · intro eq
    exact ⟨chunks ++ [chunk], List.prefix_rfl, by rw [flatten_concat, eq]⟩

/-- The last prompt ended a chunk and no newline comes after it: blanks that come next are dropped as
blanks of that prompt. -/
def Clipped (printouts : Nat → Printout) (chunks : List (List UInt8)) : Nat → Prop
  | 0 => False
  | n + 1 => (printouts n).newline = false ∧ CutAfter (throughPrompt printouts n) chunks

instance (printouts : Nat → Printout) (chunks : List (List UInt8)) :
    (n : Nat) → Decidable (Clipped printouts chunks n)
  | 0 => inferInstanceAs (Decidable False)
  | n + 1 => inferInstanceAs (Decidable ((printouts n).newline = false ∧ CutAfter _ chunks))

/-- Lines whose first one has lost the blanks it began with. -/
def clipFirst : List (List UInt8) → List (List UInt8)
  | [] => []
  | line :: rest => line.dropWhile isOwedBlank :: rest

/-- The body lines of an answer as they lie in the buffer, by how the output was cut: clipped, or as
they were printed, perhaps after the empty line that the last prompt left. -/
structure Lies (printouts : Nat → Printout) (chunks : List (List UInt8)) (n : Nat)
    (lines : List (List UInt8)) : Prop where
  clipped : Clipped printouts chunks n → lines = clipFirst (printouts n).body
  unclipped : ¬Clipped printouts chunks n →
    lines = (printouts n).body ∨ lines = [] :: (printouts n).body

variable {printouts : Nat → Printout} {chunks : List (List UInt8)} {count n : Nat}
  {lines : List (List UInt8)}

theorem Lies.worn (h : Lies printouts chunks n lines) : Worn (printouts n).body lines := by
  by_cases clip : Clipped printouts chunks n
  · rw [h.clipped clip]
    cases (printouts n).body with
    | nil => exact .same []
    | cons line rest => exact .stripped line rest
  · rcases h.unclipped clip with same | led
    · rw [same]
      exact .same _
    · rw [led]
      exact .led _

/-- Once its predecessor's prompt was read, later chunks do not change how an answer is cut. -/
theorem clipped_concat
    (passed : ∀ m < count, throughPrompt printouts m <+: chunks.flatten) (within : n ≤ count)
    (chunk : List UInt8) :
    Clipped printouts (chunks ++ [chunk]) n ↔ Clipped printouts chunks n := by
  cases n with
  | zero => exact Iff.rfl
  | succ m => simp only [Clipped, cutAfter_of_read (passed m within) chunk]

theorem Lies.concat (h : Lies printouts chunks n lines)
    (passed : ∀ m < count, throughPrompt printouts m <+: chunks.flatten) (within : n ≤ count)
    (chunk : List UInt8) : Lies printouts (chunks ++ [chunk]) n lines := by
  have same := clipped_concat passed within chunk
  exact ⟨fun clip => h.clipped (same.mp clip), fun clip => h.unclipped fun old => clip (same.mpr old)⟩

/-- The reply to one command is made of its printout, as the cuts left its body lines. -/
def Answered (printouts : Nat → Printout) (chunks : List (List UInt8)) (n : Nat)
    (result : Except Fault Reply) : Prop :=
  ∃ reply lines, result = .ok reply ∧ (printouts n).Fits reply ∧ Lies printouts chunks n lines ∧
    reply.body = (lines.map decodeLine).dropWhile isBlankLine

theorem Answered.concat {result : Except Fault Reply} (h : Answered printouts chunks n result)
    (passed : ∀ m < count, throughPrompt printouts m <+: chunks.flatten) (within : n ≤ count)
    (chunk : List UInt8) : Answered printouts (chunks ++ [chunk]) n result := by
  obtain ⟨reply, lines, ok, fits, lies, body⟩ := h
  exact ⟨reply, lines, ok, fits, lies.concat passed within chunk, body⟩

end PromptRelay
