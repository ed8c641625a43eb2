import Mathlib.Data.List.DropRight
import Mathlib.Data.List.Forall2
import PromptRelay.Proofs.LineStream

namespace PromptRelay.LineBuffer

/-- What is done to a buffer. -/
inductive Use where
  | push (chunk : List UInt8)
  | keepLast (n : Nat)
  | take

namespace Use

def bytes : Use → List UInt8
  | push chunk => chunk
  | _ => []

def isTrim : Use → Bool
  | keepLast _ => true
  | _ => false

def isTake : Use → Bool
  | take => true
  | _ => false

end Use

def act (b : LineBuffer) : Use → LineBuffer
  | .push chunk => b.push chunk
  | .keepLast n => b.keepLast n
  | .take => b.take.2

def after (uses : List Use) : LineBuffer := uses.foldl act empty

def sinceTake (uses : List Use) : List Use := uses.rtakeWhile (!·.isTake)

/-- The bytes pushed since the last take. -/
def pushed (uses : List Use) : List UInt8 := (sinceTake uses).flatMap Use.bytes

/-- Whether old lines may have been dropped since the last take. -/
def trimmed (uses : List Use) : Bool := (sinceTake uses).any Use.isTrim

/-- What a piece between newlines reads as: one carriage return at its end is left out. -/
def ReadsAs (piece : List UInt8) (line : String) : Prop :=
  ∃ bytes, line = String.ofList (decodeLossy bytes) ∧
    (piece = bytes ++ [carriageReturn] ∨ piece = bytes ∧ piece.getLast? ≠ some carriageReturn)

/-- A line that neither holds a newline nor ends in a carriage return. -/
structure Unbroken (line : String) : Prop where
  noNewline : '\n' ∉ line.toList
  noReturn : line.toList.getLast? ≠ some '\r'

/-- Lines joined by newlines, each of them after a carriage return where the next line is
marked. -/
def joined (first : String) (later : List (Bool × String)) : List UInt8 :=
  utf8Bytes first ++ later.flatMap fun (marked, line) =>
    (if marked then [carriageReturn] else []) ++ newline :: utf8Bytes line

theorem after_concat (uses : List Use) (u : Use) : after (uses ++ [u]) = (after uses).act u :=
  List.foldl_concat act empty u uses

theorem sinceTake_concat (uses : List Use) (u : Use) :
    sinceTake (uses ++ [u]) = if u.isTake then [] else sinceTake uses ++ [u] := by
  cases taken : u.isTake <;> simp [sinceTake, taken]

theorem readsAs_decodeLine (piece : List UInt8) : ReadsAs piece (decodeLine piece) := by
  by_cases last : piece.getLast? = some carriageReturn
  · obtain ⟨init, rfl⟩ := List.getLast?_eq_some_iff.mp last
    exact ⟨init, by simp [decodeLine, dropReturn], Or.inl rfl⟩
  · exact ⟨piece, by simp [decodeLine, dropReturn, last], Or.inr ⟨rfl, last⟩⟩

/-- The buffer is what one push of the bytes makes, without the `lost` oldest lines. -/
structure Holds (bytes : List UInt8) (lost : Nat) (b : LineBuffer) : Prop where
  within : lost ≤ (empty.push bytes).lines.length
  eq : b = { empty.push bytes with lines := (empty.push bytes).lines.drop lost }

namespace Holds

variable {bytes : List UInt8} {lost : Nat} {b : LineBuffer}

theorem empty : Holds [] 0 empty := ⟨Nat.zero_le _, rfl⟩

theorem push (h : Holds bytes lost b) (chunk : List UInt8) :
    Holds (bytes ++ chunk) lost (b.push chunk) := by
  have grows := lines_length_le_push (LineBuffer.empty.push bytes) chunk
  rw [push_push] at grows
  refine ⟨h.within.trans grows, ?_⟩
  rw [h.eq, drop_push _ h.within, push_push]

theorem keepLast (h : Holds bytes lost b) (n : Nat) :
    Holds bytes (lost + (b.lines.length - n)) (b.keepLast n) := by
  have length : b.lines.length = (LineBuffer.empty.push bytes).lines.length - lost := by
    rw [h.eq, List.length_drop]
  have within := h.within
  refine ⟨by omega, ?_⟩
  rw [LineBuffer.keepLast, length, h.eq, List.drop_drop]

end Holds

/-- Every buffer is one push of the bytes since it was last taken; only trims lose lines. -/
theorem after_holds (uses : List Use) :
    ∃ lost, Holds (pushed uses) lost (after uses) ∧ (trimmed uses = false → lost = 0) := by
  -- On the last use: the invariant is `Holds`, and a take starts it anew.
  induction uses using List.reverseRecOn with
  | nil => exact ⟨0, .empty, fun _ => rfl⟩
  | append_singleton uses u ih =>
    obtain ⟨lost, holds, whole⟩ := ih
    rw [after_concat, pushed, trimmed, sinceTake_concat]
    cases u with
    | push chunk =>
      refine ⟨lost, ?_, fun untrimmed => whole ?_⟩
      · simpa [pushed, Use.isTake, Use.bytes, act] using holds.push chunk
      · simpa [trimmed, Use.isTake, Use.isTrim] using untrimmed
    | keepLast n =>
      refine ⟨lost + ((after uses).lines.length - n), ?_, fun untrimmed => ?_⟩
      · simpa [pushed, Use.isTake, Use.bytes, act] using holds.keepLast n
      · simp [Use.isTake, Use.isTrim] at untrimmed
    | take => exact ⟨0, .empty, fun _ => rfl⟩

theorem Unbroken.decodeLine_eq {line : String} (h : Unbroken line) (marked : Bool) :
    decodeLine (utf8Bytes line ++ if marked then [carriageReturn] else []) = line := by
  have bytes : dropReturn (utf8Bytes line ++ if marked then [carriageReturn] else []) =
      utf8Bytes line := by
    cases marked with
    | false => simp [dropReturn, last_utf8Bytes_ne_return h.noReturn]
    | true => simp [dropReturn]
  rw [decodeLine, bytes, decodeLossy_utf8Bytes, String.ofList_toList]

theorem Unbroken.no_newline {line : String} (h : Unbroken line) (marked : Bool) :
    newline ∉ utf8Bytes line ++ if marked then [carriageReturn] else [] := by
  have inner := newline_not_mem_utf8Bytes h.noNewline
  have other : newline ≠ carriageReturn := by decide
  cases marked <;> simp [inner, other]

theorem joined_cons (first : String) (marked : Bool) (line : String) (later : List (Bool × String)) :
    joined first ((marked, line) :: later) =
      (utf8Bytes first ++ if marked then [carriageReturn] else []) ++ newline :: joined line later := by
  simp [joined]

theorem view_joined {first : String} {later : List (Bool × String)}
    (unbroken : ∀ line ∈ first :: later.map Prod.snd, Unbroken line) :
    (empty.push (joined first later)).view = first :: later.map Prod.snd := by
  rw [view_push_empty]
  induction later generalizing first with
  | nil =>
    have own := unbroken first List.mem_cons_self
    have text : joined first [] = utf8Bytes first ++ if false then [carriageReturn] else [] := rfl
    rw [text, pieces_whole (own.no_newline false), List.map_singleton, own.decodeLine_eq]
    rfl
  | cons next later ih =>
    obtain ⟨marked, line⟩ := next
    have own := unbroken first List.mem_cons_self
    rw [joined_cons, pieces_append_newline, pieces_whole (own.no_newline marked), List.map_append,
      List.map_singleton, own.decodeLine_eq, ih fun l hl => unbroken l (List.mem_cons_of_mem first hl)]
    rfl

theorem suffix_keepLast (b : LineBuffer) {n : Nat} {newest : List String}
    (inside : newest <:+ b.lines) (few : newest.length ≤ n) : newest <:+ (b.keepLast n).lines := by
  obtain ⟨older, eq⟩ := inside
  have early : b.lines.length - n ≤ older.length := by
    rw [← eq, List.length_append]
    omega
  have kept : (b.keepLast n).lines = older.drop (b.lines.length - n) ++ newest := by
    rw [← List.drop_append_of_le_length early, eq]
    rfl
  rw [kept]
  exact List.suffix_append _ _

/-- A buffer used in any way. What it shows is the bytes pushed since the last take, cut at every
newline, but for the oldest lines where it was trimmed; however the bytes came in chunks, the
state is that of one push. Trimming to `n` leaves at most `n` lines and none of the newest `n`
goes; taking gives the view and leaves the empty buffer. -/
theorem after_is_cut_of_pushed (uses : List Use) :
    (trimmed uses = false → after uses = empty.push (pushed uses)) ∧
      (∃ lines last kept, Cut (pushed uses) lines last ∧ kept <:+ lines ∧
        (trimmed uses = false → kept = lines) ∧ (after uses).openLine = last ∧
        List.Forall₂ ReadsAs (kept ++ [last]) (after uses).view) ∧
      (∀ first later, (∀ line ∈ first :: later.map Prod.snd, Unbroken line) →
        trimmed uses = false → pushed uses = joined first later →
        (after uses).view = first :: later.map Prod.snd) ∧
      (∀ n, let rest := after (uses ++ [.keepLast n])
        rest.lines.length ≤ n ∧ rest.openLine = (after uses).openLine ∧
          ∀ newest, newest <:+ (after uses).lines → newest.length ≤ n → newest <:+ rest.lines) ∧
      (after uses).take = ((after uses).view, after (uses ++ [.take])) ∧
      after (uses ++ [.take]) = empty := by
  obtain ⟨lost, holds, whole⟩ := after_holds uses
  have untrimmed : trimmed uses = false → after uses = empty.push (pushed uses) := by
    intro none
    rw [holds.eq, whole none, List.drop_zero]
  refine ⟨untrimmed, ?_, ?_, ?_, ?_, ?_⟩
  · obtain ⟨lines, last, cut⟩ := exists_cut (pushed uses)
    have eq : after uses = ⟨(lines.drop lost).map decodeLine, last⟩ := by
      rw [holds.eq, cut.push, List.map_drop]
    refine ⟨lines, last, lines.drop lost, cut, List.drop_suffix lost lines, ?_, by rw [eq], ?_⟩
    · intro none
      rw [whole none, List.drop_zero]
    · rw [eq, view, ← List.map_singleton, ← List.map_append, List.forall₂_map_right_iff]
      exact List.forall₂_same.mpr fun piece _ => readsAs_decodeLine piece
  · intro first later unbroken none eq
    rw [untrimmed none, eq, view_joined unbroken]
  · intro n
    rw [after_concat]
    refine ⟨?_, rfl, fun newest inside few => suffix_keepLast _ inside few⟩
    simp only [act, keepLast, List.length_drop]
    omega
  · rw [after_concat]
    rfl
  · rw [after_concat]
    rfl

/-- A character and a line end may come apart. -/
example : (after [.push [104, 0xC3], .push [0xA9, 13], .push [10, 13]]).view = ["hé", ""] := by
  decide

end PromptRelay.LineBuffer
