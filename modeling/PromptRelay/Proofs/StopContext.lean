import PromptRelay.Proofs.StopScanning

namespace PromptRelay

open LineBuffer (newline)
open StopNotice (kindOf framesOf)

/-- The frame of the last line that gives one as the start of a banner. -/
def bannerFrame? (lines : List String) : Option Frame := lines.reverse.findSome? Frame.ofBannerLine?

/-- Some line of these tells where the program has stopped. -/
def Placed (lines : List String) : Prop :=
  (stackDump? lines).isSome = true ∨ (bannerFrame? lines).isSome = true

def dumpOf (frames : List Frame) : Option (List Frame) := if frames = [] then none else some frames

theorem stackDump?_of_header {before after : List String} {header : String}
    (first : ∀ line ∈ before, isDumpHeader line.toList = false)
    (opens : isDumpHeader header.toList = true) :
    stackDump? (before ++ header :: after) = dumpOf (Frame.run 0 after) := by
  have skipped : ∀ line ∈ before, (!isDumpHeader line.toList) = true := by
    intro line hl
    rw [first line hl]
    rfl
  have found : (before ++ header :: after).dropWhile (fun line => !isDumpHeader line.toList) =
      header :: after := by
    rw [List.dropWhile_append_of_pos skipped, List.dropWhile_cons_of_neg (by simp [opens])]
  simp only [stackDump?, found, List.drop_succ_cons, List.drop_zero]
  cases after with
  | nil => rfl
  | cons line rest =>
    simp only [dumpOf]
    cases Frame.run 0 (line :: rest) <;> rfl

theorem stackDump?_without_header {earlier : List String}
    (clean : ∀ line ∈ earlier, isDumpHeader line.toList = false) (block : List String) :
    stackDump? (earlier ++ block) = stackDump? block := by
  have skipped : ∀ line ∈ earlier, (!isDumpHeader line.toList) = true := by
    intro line hl
    rw [clean line hl]
    rfl
  simp only [stackDump?, List.dropWhile_append_of_pos skipped]

theorem bannerFrame?_append (earlier block : List String) :
    bannerFrame? (earlier ++ block) = (bannerFrame? block).or (bannerFrame? earlier) := by
  simp only [bannerFrame?, List.reverse_append, List.findSome?_append]

theorem framesOf_eq (lines : List String) :
    framesOf lines = (stackDump? lines).getD [(bannerFrame? lines).getD .unknown] := rfl

/-- Lines without a dump header do not change the frames of a block that tells its place, nor those of
any other block if they tell none. -/
theorem framesOf_without_header {earlier block : List String}
    (clean : ∀ line ∈ earlier, isDumpHeader line.toList = false)
    (placed : Placed block ∨ bannerFrame? earlier = none) :
    framesOf (earlier ++ block) = framesOf block := by
  rw [framesOf_eq, framesOf_eq, stackDump?_without_header clean, bannerFrame?_append]
  rcases placed with (dump | banner) | nowhere
  · obtain ⟨frames, eq⟩ := Option.isSome_iff_exists.mp dump
    rw [eq]
    rfl
  · rw [Option.or_of_isSome banner]
  · rw [nowhere, Option.or_none]

/-- The first dump header decides: the frames right after it, or the last banner if there are none. -/
theorem framesOf_of_header {before after : List String} {header : String}
    (first : ∀ line ∈ before, isDumpHeader line.toList = false)
    (opens : isDumpHeader header.toList = true) :
    framesOf (before ++ header :: after) = (dumpOf (Frame.run 0 after)).getD
      [(bannerFrame? (before ++ header :: after)).getD .unknown] := by
  rw [framesOf_eq, stackDump?_of_header first opens]

theorem kindOf_append_iff (earlier block : List String) :
    kindOf (earlier ++ block) = kindOf block ↔
      (∀ line ∈ earlier, isErrorLine line.toList = false) ∨
        ∃ line ∈ block, isErrorLine line.toList = true := by
  simp only [kindOf, List.any_append]
  cases own : block.any fun line => isErrorLine line.toList with
  | true =>
    have some := List.any_eq_true.mp own
    simpa using Or.inr some
  | false =>
    have nowhere : ¬∃ line ∈ block, isErrorLine line.toList = true :=
      fun found => by simp [List.any_eq_true.mpr found] at own
    cases before : earlier.any fun line => isErrorLine line.toList with
    | true =>
      obtain ⟨line, hl, error⟩ := List.any_eq_true.mp before
      have both : ¬∀ line ∈ earlier, isErrorLine line.toList = false :=
        fun clean => by simp [clean line hl] at error
      simp [nowhere, both]
    | false =>
      have clean := List.any_eq_false.mp before
      simpa using Or.inl clean

/-- The bytes read since the last stop was found, when `kept` were read before the chunks. -/
def keptSince (kept : List UInt8) : List (List UInt8) → List UInt8
  | [] => kept
  | chunk :: rest =>
    if endsInBanner (LineBuffer.empty.push (kept ++ chunk)).view then keptSince [] rest
    else keptSince (kept ++ chunk) rest

theorem readAll_kept {s : StopScanner} (isOpen : s.isOpen = true) {kept : List UInt8}
    (buffer : s.buffer = (LineBuffer.empty.push kept).keepLast StopScanner.maxLines)
    (chunks : List (List UInt8)) :
    (s.readAll chunks).1.isOpen = true ∧ (s.readAll chunks).1.buffer =
      (LineBuffer.empty.push (keptSince kept chunks)).keepLast StopScanner.maxLines := by
  induction chunks generalizing s kept with
  | nil => exact ⟨isOpen, buffer⟩
  | cons chunk rest ih =>
    simp only [StopScanner.readAll, keptSince, read_kept isOpen buffer]
    split
    next => exact ih (s := { s with buffer := .empty }) isOpen rfl
    next =>
      exact ih (s := { s with
        buffer := (LineBuffer.empty.push (kept ++ chunk)).keepLast StopScanner.maxLines }) isOpen rfl

/-- The complete lines read since the last stop, the chunk included. -/
def linesSince (history : List (List UInt8)) (chunk : List UInt8) : List String :=
  (LineBuffer.empty.push (keptSince [] history ++ chunk)).lines

/-- How many of these lines the scanner has lost before it reads the chunk. -/
def lostSince (history : List (List UInt8)) : Nat :=
  (keptSince [] history).count newline - StopScanner.maxLines

theorem read_notice {history : List (List UInt8)} {chunk : List UInt8} {notice : StopNotice}
    (found : ((StopScanner.start.readAll history).1.read chunk).2 = some notice) :
    notice = .ofLines ((linesSince history chunk).drop (lostSince history)) := by
  have fresh : StopScanner.start.buffer =
      (LineBuffer.empty.push []).keepLast StopScanner.maxLines := rfl
  obtain ⟨isOpen, buffer⟩ := readAll_kept rfl fresh history
  rw [read_kept isOpen buffer] at found
  split at found
  next => exact (Option.some.inj found).symm
  next => cases found

/-- A notice tells of all lines kept since the last stop, so text printed before its own block counts:
an earlier error line makes it the notice of an error, and the first dump header decides its frames. -/
theorem notice_tells_lines_since_last_stop (history : List (List UInt8)) (chunk : List UInt8)
    {notice : StopNotice} (found : ((StopScanner.start.readAll history).1.read chunk).2 = some notice)
    {earlier block : List String} (split : linesSince history chunk = earlier ++ block) :
    (earlier.length ≤ lostSince history →
      notice = .ofLines (block.drop (lostSince history - earlier.length))) ∧
    (lostSince history ≤ earlier.length →
      let context := earlier.drop (lostSince history)
      notice.lines = context ++ block ∧
      (notice.kind = kindOf block ↔
        (∀ line ∈ context, isErrorLine line.toList = false) ∨
          ∃ line ∈ block, isErrorLine line.toList = true) ∧
      ((∀ line ∈ context, isDumpHeader line.toList = false) →
        (Placed block ∨ bannerFrame? context = none) → notice.frames = framesOf block) ∧
      ∀ before header after, context = before ++ header :: after →
        (∀ line ∈ before, isDumpHeader line.toList = false) → isDumpHeader header.toList = true →
          notice.frames = (dumpOf (Frame.run 0 (after ++ block))).getD
            [((bannerFrame? block).or (bannerFrame? context)).getD .unknown]) := by
  have told := read_notice found
  rw [split] at told
  subst told
  refine ⟨fun past => ?_, fun within => ?_⟩
  · rw [List.drop_append, List.drop_of_length_le past, List.nil_append]
  · rw [List.drop_append_of_le_length within]
    generalize earlier.drop (lostSince history) = context
    refine ⟨rfl, kindOf_append_iff context block, framesOf_without_header, ?_⟩
    rintro before header after rfl first opens
    rw [← bannerFrame?_append]
    have whole : before ++ header :: after ++ block = before ++ header :: (after ++ block) := by simp
    change framesOf _ = _
    rw [whole]
    exact framesOf_of_header first opens

def oddWarning : List UInt8 := utf8Bytes "warning: something odd\n"

/-- What a command prints that failed in a function. -/
def failedCommand : List UInt8 :=
  utf8Bytes "error: out of bound\nerror: called from\n    helper at line 8 column 5\n\n"

def fooStop : List UInt8 := utf8Bytes "stopped in foo at line 3\n3: x = 1\n"

def fooBlock : List String := ["stopped in foo at line 3", "3: x = 1"]

theorem notice_after_warning :
    ∃ notice, ((StopScanner.start.readAll [oddWarning]).1.read fooStop).2 = some notice ∧
      notice.kind = kindOf fooBlock ∧ notice.frames = framesOf fooBlock := by
  obtain ⟨notice, found⟩ :
      ∃ notice, ((StopScanner.start.readAll [oddWarning]).1.read fooStop).2 = some notice :=
    Option.isSome_iff_exists.mp (by decide +kernel)
  have split : linesSince [oddWarning] fooStop = ["warning: something odd"] ++ fooBlock := by
    decide +kernel
  have kept : lostSince [oddWarning] = 0 := by decide +kernel
  obtain ⟨_, whole⟩ := notice_tells_lines_since_last_stop [oddWarning] fooStop found split
  rw [kept] at whole
  obtain ⟨_, kind, frames, _⟩ := whole (Nat.zero_le _)
  exact ⟨notice, found, kind.mpr (Or.inl (by decide +kernel)),
    frames (by decide +kernel) (Or.inl (Or.inr (by decide +kernel)))⟩

/-- A breakpoint is told as the error of a command that was answered before, with its stack. -/
theorem breakpoint_told_as_earlier_error :
    ((StopScanner.start.readAll [failedCommand]).1.read fooStop).2.map
        (fun notice => (notice.kind, notice.frames)) =
      some (.error, [⟨0, "helper", "helper", 8, 5⟩]) ∧
    linesSince [failedCommand] fooStop =
      ["error: out of bound", "error: called from", "    helper at line 8 column 5", ""] ++ fooBlock ∧
    (kindOf fooBlock, framesOf fooBlock) = (.breakpoint, [⟨0, "foo", "foo", 3, 0⟩]) := by
  refine ⟨by decide +kernel, by decide +kernel, by decide +kernel⟩

end PromptRelay
