import PromptRelay.Proofs.LineStream
import PromptRelay.Proofs.PromptText
import PromptRelay.StopNotice

namespace PromptRelay

open LineBuffer (newline dropReturn decodeLine pieces)

/-- A line without its leading blanks, which no banner or dump line depends on. -/
def flush (line : String) : String := .ofList (trimLeft line.toList)

theorem trimLeft_trimLeft (s : List Char) : trimLeft (trimLeft s) = trimLeft s := by
  induction s with
  | nil => rfl
  | cons c s ih =>
    cases blank : isBlank c with
    | true => simpa [trimLeft, blank] using ih
    | false => simp [trimLeft, blank]

theorem trimLeft_flush (line : String) : trimLeft (flush line).toList = trimLeft line.toList := by
  rw [flush, String.toList_ofList, trimLeft_trimLeft]

theorem bannerStart?_flush (line : String) :
    bannerStart? (flush line).toList = bannerStart? line.toList := by
  simp only [bannerStart?, trimLeft_flush]

theorem bannerCode?_flush (line : String) :
    bannerCode? (flush line).toList = bannerCode? line.toList := by
  simp only [bannerCode?, trimLeft_flush]

theorem isDumpHeader_flush (line : String) :
    isDumpHeader (flush line).toList = isDumpHeader line.toList := by
  simp only [isDumpHeader, trimLeft_flush]

theorem ofDumpLine?_flush (id : Nat) (line : String) :
    Frame.ofDumpLine? id (flush line) = Frame.ofDumpLine? id line := by
  simp only [Frame.ofDumpLine?, dumpFrame?, trimLeft_flush]

theorem ofBannerLine?_flush (line : String) : Frame.ofBannerLine? (flush line) = Frame.ofBannerLine? line := by
  simp only [Frame.ofBannerLine?, bannerStart?_flush]

theorem allBlank_trimLeft (s : List Char) : allBlank (trimLeft s) = allBlank s := by
  induction s with
  | nil => rfl
  | cons c s ih =>
    cases blank : isBlank c with
    | true => simpa [trimLeft, allBlank, blank] using ih
    | false => simp [trimLeft, allBlank, blank]

theorem isBlankLine_flush (line : String) : isBlankLine (flush line) = isBlankLine line := by
  rw [isBlankLine, flush, String.toList_ofList, allBlank_trimLeft, isBlankLine]

theorem run_map_flush (id : Nat) (lines : List String) :
    Frame.run id (lines.map flush) = Frame.run id lines := by
  induction lines generalizing id with
  | nil => rfl
  | cons line rest ih => simp only [List.map_cons, Frame.run, ofDumpLine?_flush, ih]

theorem stackDump?_map_flush (lines : List String) : stackDump? (lines.map flush) = stackDump? lines := by
  have header : (lines.map flush).dropWhile (fun line => !isDumpHeader line.toList) =
      (lines.dropWhile fun line => !isDumpHeader line.toList).map flush := by
    rw [List.dropWhile_map]
    simp only [Function.comp_def, isDumpHeader_flush]
  simp only [stackDump?, header, ← List.map_drop]
  cases (lines.dropWhile fun line => !isDumpHeader line.toList).drop 1 with
  | nil => rfl
  | cons line rest =>
    have same := run_map_flush 0 (line :: rest)
    rw [List.map_cons] at same ⊢
    simp only [same]

theorem framesOf_map_flush (lines : List String) :
    StopNotice.framesOf (lines.map flush) = StopNotice.framesOf lines := by
  have banner : (lines.map flush).reverse.findSome? Frame.ofBannerLine? =
      lines.reverse.findSome? Frame.ofBannerLine? := by
    rw [← List.map_reverse, List.findSome?_map]
    simp only [Function.comp_def, ofBannerLine?_flush]
  simp only [StopNotice.framesOf, stackDump?_map_flush, banner]

theorem endsInBanner_concat (init : List String) (first second third : String) :
    endsInBanner (init ++ [first, second, third]) =
      ((bannerStart? first.toList).isSome && (bannerCode? second.toList).isSome &&
        isBlankLine third) := by
  simp [endsInBanner]

theorem endsInBanner_cases {view : List String} (h : endsInBanner view = true) :
    ∃ init first second third, view = init ++ [first, second, third] ∧
      (bannerStart? first.toList).isSome = true ∧ (bannerCode? second.toList).isSome = true ∧
      isBlankLine third = true := by
  unfold endsInBanner at h
  split at h
  next third second first rest eq =>
    simp only [Bool.and_eq_true] at h
    refine ⟨rest.reverse, first, second, third, ?_, h.1.1, h.1.2, h.2⟩
    rw [← List.reverse_reverse view, eq]
    simp
  next => cases h

theorem blank_of_endsInBanner {lines : List String} {last : String}
    (h : endsInBanner (lines ++ [last]) = true) : isBlankLine last = true := by
  obtain ⟨init, first, second, third, eq, _, _, blank⟩ := endsInBanner_cases h
  have same := congrArg List.getLast? eq
  rw [List.getLast?_concat] at same
  simp only [List.getLast?_append, List.getLast?_cons_cons, List.getLast?_singleton,
    Option.some_or, Option.some.injEq] at same
  exact same ▸ blank

theorem endsInBanner_map_flush (view : List String) :
    endsInBanner (view.map flush) = endsInBanner view := by
  simp only [endsInBanner, ← List.map_reverse]
  match view.reverse with
  | [] | [_] | [_, _] => rfl
  | third :: second :: first :: rest =>
    simp only [List.map_cons, bannerStart?_flush, bannerCode?_flush, isBlankLine_flush]

theorem endsInBanner_drop {view : List String} {n : Nat} (h : n + 3 ≤ view.length) :
    endsInBanner (view.drop n) = endsInBanner view := by
  have three : ∃ init a b c, view.drop n = init ++ [a, b, c] := by
    have length : 3 ≤ (view.drop n).reverse.length := by simp; omega
    match hr : (view.drop n).reverse with
    | [] | [_] | [_, _] => simp [hr] at length
    | c :: b :: a :: rest =>
      refine ⟨rest.reverse, a, b, c, ?_⟩
      rw [← List.reverse_reverse (view.drop n), hr]
      simp
  obtain ⟨init, a, b, c, eq⟩ := three
  have whole : view = (view.take n ++ init) ++ [a, b, c] := by
    rw [List.append_assoc, ← eq, List.take_append_drop]
  rw [eq, whole, endsInBanner_concat, endsInBanner_concat]

/-- No line can be both halves of a banner. -/
theorem bannerCode?_of_bannerStart? {s : List Char} (h : (bannerStart? s).isSome = true) :
    bannerCode? s = none := by
  unfold bannerStart? at h
  cases lead : after? "stopped in " (trimLeft s) with
  | none => simp [lead] at h
  | some rest =>
    have eq := eq_append_of_after? lead
    have none : digits? (trimLeft s) = none := by
      rw [eq]
      rfl
    simp [bannerCode?, none]

theorem getLast?_blank {s : List Char} (blank : allBlank s = true) :
    s.getLast? ≠ some replacementChar := by
  intro last
  have own := List.all_eq_true.mp blank replacementChar (List.mem_of_getLast? last)
  exact absurd own (by decide)

theorem decodeLossy_blank {x : List UInt8} (blank : isBlankLine (decodeLine x) = true) :
    allBlank (decodeLossy x) = true := by
  have inner : allBlank (decodeLossy (dropReturn x)) = true := by
    simpa [isBlankLine, decodeLine] using blank
  rcases LineBuffer.dropReturn_cases x with whole | ended
  · rwa [whole] at inner
  · rw [ended, decodeLossy_append _ (getLast?_blank inner), allBlank, List.all_append]
    exact Bool.and_eq_true_iff.mpr ⟨inner, by decide⟩

/-- Blanks before a line change nothing but its leading blanks. -/
theorem flush_decodeLine_append {x : List UInt8} (blank : isBlankLine (decodeLine x) = true)
    (line : List UInt8) : flush (decodeLine (x ++ line)) = flush (decodeLine line) := by
  have all : ∀ {s : List Char}, allBlank s = true → trimLeft s = [] := fun h =>
    List.dropWhile_eq_nil_iff.mpr (List.all_eq_true.mp h)
  have read := decodeLossy_blank blank
  cases line with
  | nil =>
    rw [List.append_nil, flush, all blank]
    rfl
  | cons b line =>
    have text : (decodeLine (x ++ b :: line)).toList =
        decodeLossy x ++ (decodeLine (b :: line)).toList := by
      simp only [decodeLine, String.toList_ofList]
      rw [LineBuffer.dropReturn_append x (List.cons_ne_nil b line),
        decodeLossy_append _ (getLast?_blank read)]
    rw [flush, flush, text, trimLeft, List.dropWhile_append_of_pos (List.all_eq_true.mp read)]
    rfl

end PromptRelay
