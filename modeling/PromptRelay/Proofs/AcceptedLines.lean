import PromptRelay.Proofs.Exchanges
import PromptRelay.Proofs.PrintedValues
import PromptRelay.Proofs.WholeDoubles

namespace PromptRelay

open Operation (lineNumbers breakpointLine setBreakpoints)

/-- A token that is read as a whole number within 32 bits. -/
def IsLine (n : Nat) (token : String) : Prop :=
  n ≤ max32 ∧ ∃ x, readBinary64 token.toList = some x ∧ x.value? = some (n : ℚ)

/-- What a token that is no line may be read as. -/
inductive Unfit : Option Binary64 → Prop where
  | unread : Unfit none
  | nan : Unfit (some .nan)
  | infinite (negative : Bool) : Unfit (some (.infinite negative))
  | belowZero {x : Binary64} {v : ℚ} : x.value? = some v → v < 0 → Unfit (some x)
  | broken {x : Binary64} {v : ℚ} : x.value? = some v → (∀ z : Int, v ≠ z) → Unfit (some x)
  | tooLarge {x : Binary64} {v : ℚ} : x.value? = some v → (max32 : ℚ) < v → Unfit (some x)

/-- The lines that tokens tell in their order, the unfit tokens left out. -/
inductive Sifted : List String → List Nat → Prop where
  | nil : Sifted [] []
  | line {token : String} {n : Nat} {tokens : List String} {lines : List Nat} :
      IsLine n token → Sifted tokens lines → Sifted (token :: tokens) (n :: lines)
  | other {token : String} {tokens : List String} {lines : List Nat} :
      Unfit (readBinary64 token.toList) → Sifted tokens lines → Sifted (token :: tokens) lines

/-- Numbers printed in plain decimal: one alone, or any in the rows of a grid. -/
inductive PrintsNumbers : List Nat → List String → Prop where
  | single {n : Nat} {name digits : List Char} {line : String} :
      IsDecimal n digits → ShowsValue name digits line.toList → PrintsNumbers [n] [line]
  | grid {numbers : List Nat} {name : List Char} {header : String} {rows : List (List String)}
      {lines : List String} :
      OpensGrid name header.toList → ShowRows rows lines →
      List.Forall₂ (fun n token => IsDecimal n token.toList) numbers rows.flatten →
      PrintsNumbers numbers (header :: (lines ++ [""]))

/-- The line that a token tells, if it tells one. -/
def lineOf? (token : String) : Option Nat := do
  (← readBinary64 token.toList).toNat?.filter (· ≤ max32)

theorem lineOf?_eq_some_iff {token : String} {n : Nat} : lineOf? token = some n ↔ IsLine n token := by
  simp only [lineOf?, bind, Option.bind_eq_some_iff, Option.filter_eq_some_iff, decide_eq_true_eq,
    Binary64.toNat?_eq_some_iff, IsLine]
  constructor
  · rintro ⟨x, read, value, within⟩
    exact ⟨within, x, read, value⟩
  · rintro ⟨within, x, read, value⟩
    exact ⟨x, read, value, within⟩

/-- A number that is not below zero and has no fraction is a natural one. -/
theorem exists_natCast_eq {v : ℚ} (least : ¬v < 0) (whole : ¬∀ z : Int, v ≠ z) : ∃ n : Nat, v = n := by
  obtain ⟨z, eq⟩ := not_forall_not.mp whole
  have positive : 0 ≤ z := by
    rw [eq] at least
    exact_mod_cast not_lt.mp least
  obtain ⟨n, rfl⟩ := Int.eq_ofNat_of_zero_le positive
  exact ⟨n, by exact_mod_cast eq⟩

theorem fit_or_unfit (read : Option Binary64) :
    (∃ x n, read = some x ∧ x.value? = some ((n : Nat) : ℚ) ∧ n ≤ max32) ∨ Unfit read := by
  match read with
  | none => exact .inr .unread
  | some .nan => exact .inr .nan
  | some (.infinite negative) => exact .inr (.infinite negative)
  | some (.finite negative m e) =>
    obtain ⟨v, value⟩ : ∃ v, (Binary64.finite negative m e).value? = some v := ⟨_, rfl⟩
    by_cases below : v < 0
    · exact .inr (.belowZero value below)
    by_cases broken : ∀ z : Int, v ≠ z
    · exact .inr (.broken value broken)
    obtain ⟨n, rfl⟩ := exists_natCast_eq below broken
    by_cases within : n ≤ max32
    · exact .inl ⟨_, n, rfl, value, within⟩
    · exact .inr (.tooLarge value (by exact_mod_cast Nat.lt_of_not_le within))

theorem Unfit.not_line {read : Option Binary64} (h : Unfit read) {x : Binary64} (own : read = some x)
    {n : Nat} (value : x.value? = some (n : ℚ)) (within : n ≤ max32) : False := by
  cases h with
  | unread => cases own
  | nan =>
    cases own
    cases value
  | infinite =>
    cases own
    cases value
  | belowZero read below =>
    cases own
    cases read.symm.trans value
    exact absurd (Nat.cast_nonneg n) (not_le.mpr below)
  | broken read broken =>
    cases own
    cases read.symm.trans value
    exact broken n rfl
  | tooLarge read past =>
    cases own
    cases read.symm.trans value
    exact absurd within (Nat.not_le.mpr (by exact_mod_cast past))

theorem lineOf?_eq_none_iff {token : String} :
    lineOf? token = none ↔ Unfit (readBinary64 token.toList) := by
  constructor
  · intro none
    rcases fit_or_unfit (readBinary64 token.toList) with ⟨x, n, read, value, within⟩ | unfit
    · rw [lineOf?_eq_some_iff.mpr ⟨within, x, read, value⟩] at none
      cases none
    · exact unfit
  · intro unfit
    cases told : lineOf? token with
    | none => rfl
    | some n =>
      obtain ⟨within, x, read, value⟩ := lineOf?_eq_some_iff.mp told
      exact (unfit.not_line read value within).elim

theorem filterMap_lineOf?_eq_iff {tokens : List String} {lines : List Nat} :
    tokens.filterMap lineOf? = lines ↔ Sifted tokens lines := by
  constructor
  · rintro rfl
    induction tokens with
    | nil => exact .nil
    | cons token tokens ih =>
      cases told : lineOf? token with
      | none =>
        rw [List.filterMap_cons_none told]
        exact .other (lineOf?_eq_none_iff.mp told) ih
      | some n =>
        rw [List.filterMap_cons_some told]
        exact .line (lineOf?_eq_some_iff.mp told) ih
  · intro h
    induction h with
    | nil => rfl
    | line told _ ih => rw [List.filterMap_cons_some (lineOf?_eq_some_iff.mpr told), ih]
    | other unfit _ ih => rw [List.filterMap_cons_none (lineOf?_eq_none_iff.mpr unfit), ih]

theorem lineNumbers_eq_iff {shape : Shape} {lines : List Nat} :
    lineNumbers shape = lines ↔ Sifted shape.values.flatten lines := by
  rw [← filterMap_lineOf?_eq_iff, lineNumbers, Shape.numbers, List.filterMap_filterMap]
  rfl

theorem IsDecimal.isLine {n : Nat} {token : String} (h : IsDecimal n token.toList) (within : n ≤ max32) :
    IsLine n token :=
  ⟨within, _, h.readBinary64_eq, Binary64.value?_ofDecimal (Nat.lt_of_le_of_lt within (by decide))⟩

theorem sifted_of_decimals {numbers : List Nat} {tokens : List String}
    (printed : List.Forall₂ (fun n token => IsDecimal n token.toList) numbers tokens)
    (within : ∀ n ∈ numbers, n ≤ max32) : Sifted tokens numbers := by
  induction printed with
  | nil => exact .nil
  | cons decimal _ ih =>
    obtain ⟨own, later⟩ := List.forall_mem_cons.mp within
    exact .line (decimal.isLine own) (ih later)

/-- Printed numbers are told in the order of the rows, whatever the rows. -/
theorem PrintsNumbers.lineNumbers_eq {numbers : List Nat} {body : List String}
    (printed : PrintsNumbers numbers body) (within : ∀ n ∈ numbers, n ≤ max32) :
    lineNumbers (.ofBody body) = numbers := by
  rw [lineNumbers_eq_iff]
  cases printed with
  | @single n name digits line decimal shows =>
    have shape : Shape.ofBody [line] = .single (.ofList name) (.ofList digits) :=
      Shape.ofBody_single_iff.mpr ⟨line, rfl, by simpa using shows⟩
    rw [shape]
    refine sifted_of_decimals (.cons ?_ .nil) within
    simpa using decimal
  | @grid _ name header rows lines opens shown decimals =>
    have shape : Shape.ofBody (header :: (lines ++ [""])) = .grid (.ofList name) rows :=
      Shape.ofBody_grid_iff.mpr ⟨header, lines, rfl, by simpa using opens, shown⟩
    rw [shape]
    exact sifted_of_decimals decimals within

theorem PrintsNumbers.starts_ink {numbers : List Nat} {body : List String}
    (printed : PrintsNumbers numbers body) : ∀ line ∈ body.head?, isBlankLine line = false := by
  cases printed with
  | single _ shows =>
    obtain ⟨_, _, _, assigns, -⟩ := shows
    simpa [isBlankLine] using assigns.not_blank
  | grid opens _ _ =>
    obtain ⟨_, assigns, -⟩ := opens
    simpa [isBlankLine] using assigns.not_blank

/-- What the reply to the request for breakpoints comes to. -/
def acceptedOf (line : String) (reply : Reply) : Except Fault (List Nat) :=
  if lineNumbers reply.shape = [] then
    .error (.unexpectedReply (line ++ ": " ++ " | ".intercalate reply.body))
  else .ok (lineNumbers reply.shape)

theorem run_setBreakpoints (function : String) {lines : List Nat} (some_ : lines ≠ []) :
    ExceptT.run (setBreakpoints function lines) =
      .request (some (breakpointLine function lines)) fun result =>
        .done (result.bind (acceptedOf (breakpointLine function lines))) := by
  cases lines with
  | nil => exact absurd rfl some_
  | cons first lines =>
    refine congrArg (Task.request _) (funext fun result => ?_)
    cases result with
    | error fault => rfl
    | ok reply =>
      simp only [Task.bind, ExceptT.bindCont, Except.bind, acceptedOf]
      cases accepted : lineNumbers reply.shape <;> rfl

theorem leads_setBreakpoints (function : String) {lines : List Nat} (some_ : lines ≠ [])
    (reply : Reply) :
    Task.Leads (ExceptT.run (setBreakpoints function lines))
      [(some (breakpointLine function lines), reply)]
      (.done (acceptedOf (breakpointLine function lines) reply)) := by
  rw [run_setBreakpoints function some_]
  exact .single _ _ reply

/-- Setting breakpoints gives just the numbers that the reply prints, however its rows break them up.
Whatever the reply, its tokens give the lines they tell in their order, those that are no number or no
line of 32 bits left out; if none is left, the reply is a fault. -/
theorem accepted_lines_are_those_printed (function : String) {lines : List Nat} (some_ : lines ≠ []) :
    let line := breakpointLine function lines
    let task := ExceptT.run (setBreakpoints function lines)
    (∀ numbers body, numbers ≠ [] → (∀ n ∈ numbers, n ≤ 4294967295) → PrintsNumbers numbers body →
      ∀ leading p blanks newline, (∀ l ∈ leading, isBlankLine l = true) → allBlank blanks = true →
        Task.Leads task
          [(some line, .ofLines (promptedLines (leading ++ body) p blanks newline))]
          (.done (.ok numbers))) ∧
    ∀ reply : Reply, ∃ accepted, (∀ told, Sifted reply.shape.values.flatten told ↔ told = accepted) ∧
      Task.Leads task [(some line, reply)]
        (.done (if accepted = [] then
            .error (.unexpectedReply (line ++ ": " ++ " | ".intercalate reply.body))
          else .ok accepted)) := by
  intro line task
  refine ⟨?_, fun reply => ⟨lineNumbers reply.shape, fun told => ?_, leads_setBreakpoints function some_ reply⟩⟩
  · intro numbers body numbered within printed leading p blanks newline empty blank
    let reply := Reply.ofLines (promptedLines (leading ++ body) p blanks newline)
    have read : reply.body = body := by
      rw [bodyOf_promptedLines _ p blank, (takeWhile_append_stop empty printed.starts_ink).2]
    have accepted : lineNumbers reply.shape = numbers := by
      rw [Reply.shape, read, printed.lineNumbers_eq within]
    have leads := leads_setBreakpoints function some_ reply
    rwa [acceptedOf, accepted, if_neg numbered] at leads
  · rw [← lineNumbers_eq_iff, eq_comm]

/-- The greatest line of 32 bits comes back, and the number past it is left out with other tokens. -/
theorem greatest_line_is_accepted :
    [7] ≠ [] ∧
    Task.Leads (ExceptT.run (setBreakpoints "f" [7]))
      [(some "dbstop f 7", .ofLines ["ans = 4294967295", "octave:2> "])] (.done (.ok [4294967295])) ∧
    Task.Leads (ExceptT.run (setBreakpoints "f" [7]))
      [(some "dbstop f 7", .ofLines ["v =", " 4294967296 x 1.5 -1", "NaN 4e0 Inf 3", "", "octave:2> "])]
      (.done (.ok [4, 3])) := by
  have accepts := accepted_lines_are_those_printed "f" (show [7] ≠ [] by decide)
  have decimal : IsDecimal 4294967295 "4294967295".toList := isDecimal_toString 4294967295
  have printed : PrintsNumbers [4294967295] ["ans = 4294967295"] :=
    .single decimal (showsValue_plain (show IsIdentifier "ans".toList by decide) decimal.isToken)
  refine ⟨by decide, ?_, ?_⟩
  · have digit : ['2'] ≠ [] ∧ ∀ c ∈ ['2'], isDigit c = true :=
      ⟨List.cons_ne_nil _ _, List.forall_mem_singleton.mpr rfl⟩
    exact accepts.1 [4294967295] _ (by decide) (by decide) printed [] (.normal ['2'] digit) [' '] false
      (by decide) (by decide)
  · obtain ⟨accepted, told, leads⟩ := accepts.2
      (.ofLines ["v =", " 4294967296 x 1.5 -1", "NaN 4e0 Inf 3", "", "octave:2> "])
    rw [← (told [4, 3]).mp (lineNumbers_eq_iff.mp (by decide))] at leads
    exact leads

end PromptRelay
