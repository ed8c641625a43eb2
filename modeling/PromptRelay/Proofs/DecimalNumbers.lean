import Mathlib.Data.List.Forall2
import PromptRelay.Proofs.ShapeGrammar
import PromptRelay.Variable

namespace PromptRelay

/-- Decimal digits of ASCII and their value; zeros may stand in front. -/
structure IsDecimal (n : Nat) (digits : List Char) : Prop where
  ne_nil : digits ≠ []
  digit : ∀ c ∈ digits, c.isDigit = true
  value : Nat.ofDigitChars 10 digits 0 = n

/-- A number within a limit as a text: digits, one plus sign allowed before them. -/
structure IsNumeral (limit n : Nat) (s : List Char) : Prop where
  form : IsDecimal n s ∨ ∃ digits, s = '+' :: digits ∧ IsDecimal n digits
  within : n ≤ limit

/-- Sizes as a text: numerals of 64 bits with an `x` between two. -/
def AreSizes (dims : List Nat) (s : List Char) : Prop :=
  ∃ texts, texts ≠ [] ∧ s = ['x'].intercalate texts ∧ List.Forall₂ (IsNumeral max64) dims texts

theorem digitValue?_eq_some_iff {c : Char} {d : Nat} :
    digitValue? c = some d ↔ c.isDigit = true ∧ d = c.toNat - '0'.toNat := by
  have bounds : ('0' ≤ c ∧ c ≤ '9') ↔ c.isDigit = true := by
    change '0'.val ≤ c.val ∧ c.val ≤ '9'.val ↔ (decide (48 ≤ c.val) && decide (c.val ≤ 57)) = true
    simp
  unfold digitValue?
  split
  next inside =>
    have digit := bounds.mp inside
    simp [digit, eq_comm]
  next outside =>
    have other : c.isDigit ≠ true := fun digit => outside (bounds.mpr digit)
    simp [other]

theorem isDigit_eq (c : Char) : isDigit c = c.isDigit := by
  rw [Bool.eq_iff_iff, isDigit, Option.isSome_iff_exists]
  simp [digitValue?_eq_some_iff]

theorem le_ofDigitChars (value : Nat) (s : List Char) : value ≤ Nat.ofDigitChars 10 s value := by
  have power : 0 < 10 ^ s.length := Nat.pow_pos (by decide)
  have grown : value ≤ 10 ^ s.length * value := Nat.le_mul_of_pos_left value power
  rw [Nat.ofDigitChars_eq_ofDigitChars_zero]
  omega

theorem readDigits_eq_ok_iff {limit value n : Nat} {s : List Char} (room : value ≤ limit) :
    readDigits limit value s = .ok n ↔
      (∀ c ∈ s, c.isDigit = true) ∧ Nat.ofDigitChars 10 s value = n ∧ n ≤ limit := by
  induction s generalizing value with
  | nil =>
    simp only [readDigits, Except.ok.injEq, List.not_mem_nil, false_implies, implies_true, true_and,
      Nat.ofDigitChars_nil]
    constructor
    · rintro rfl
      exact ⟨rfl, room⟩
    · exact And.left
  | cons c s ih =>
    cases read : digitValue? c with
    | none =>
      have other : c.isDigit ≠ true := fun digit => by
        have found := digitValue?_eq_some_iff.mpr ⟨digit, rfl⟩
        rw [read] at found
        cases found
      simp [readDigits, read, other]
    | some d =>
      obtain ⟨digit, rfl⟩ := digitValue?_eq_some_iff.mp read
      have step : Nat.ofDigitChars 10 (c :: s) value =
          Nat.ofDigitChars 10 s (value * 10 + (c.toNat - '0'.toNat)) := by
        rw [Nat.ofDigitChars_cons, Nat.mul_comm]
      simp only [readDigits, read, step, List.forall_mem_cons, digit, true_and]
      -- The value only grows, so past the limit no more digits can save it.
      split
      next past =>
        have grown := le_ofDigitChars (value * 10 + (c.toNat - '0'.toNat)) s
        constructor
        · intro h
          cases h
        · rintro ⟨-, rfl, within⟩
          omega
      next under => exact ih (by omega)

theorem readDigits_zero_eq_ok_iff {limit n : Nat} {s : List Char} (some_ : s ≠ []) :
    readDigits limit 0 s = .ok n ↔ IsDecimal n s ∧ n ≤ limit := by
  rw [readDigits_eq_ok_iff (Nat.zero_le limit)]
  constructor
  · rintro ⟨digit, value, within⟩
    exact ⟨⟨some_, digit, value⟩, within⟩
  · rintro ⟨decimal, within⟩
    exact ⟨decimal.digit, decimal.value, within⟩

theorem not_isDecimal_plus {n : Nat} {s : List Char} : ¬IsDecimal n ('+' :: s) := fun decimal =>
  absurd (decimal.digit '+' List.mem_cons_self) (by decide)

theorem readNat_eq_ok_iff {limit n : Nat} {s : List Char} :
    readNat limit s = .ok n ↔ IsNumeral limit n s := by
  have unsigned : ∀ {s : List Char}, s ≠ [] → (∀ rest, s ≠ '+' :: rest) →
      (readDigits limit 0 s = .ok n ↔ IsNumeral limit n s) := by
    intro s some_ bare
    rw [readDigits_zero_eq_ok_iff some_]
    constructor
    · exact fun ⟨decimal, within⟩ => ⟨.inl decimal, within⟩
    · rintro ⟨decimal | ⟨digits, signed, -⟩, within⟩
      · exact ⟨decimal, within⟩
      · exact absurd signed (bare digits)
  unfold readNat
  split
  next =>
    constructor
    · intro h
      cases h
    · rintro ⟨decimal | ⟨_, none, _⟩, -⟩
      · exact absurd rfl decimal.ne_nil
      · cases none
  next =>
    constructor
    · intro h
      cases h
    · rintro ⟨decimal | ⟨_, eq, decimal⟩, -⟩
      · exact absurd decimal not_isDecimal_plus
      · cases eq
        exact absurd rfl decimal.ne_nil
  next rest more =>
    have some_ : rest ≠ [] := fun none => more none
    rw [readDigits_zero_eq_ok_iff some_]
    constructor
    · exact fun ⟨decimal, within⟩ => ⟨.inr ⟨rest, rfl, decimal⟩, within⟩
    · rintro ⟨decimal | ⟨_, eq, decimal⟩, within⟩
      · exact absurd decimal not_isDecimal_plus
      · cases eq
        exact ⟨decimal, within⟩
  next some_ _ bare => exact unsigned some_ bare

theorem position?_eq_some_iff {digits : List Char} (digit : ∀ c ∈ digits, c.isDigit = true) {n : Nat} :
    position? digits = some n ↔ IsDecimal n digits ∧ n ≤ max32 := by
  have read : position? digits = some n ↔ readNat max32 digits = .ok n := by
    rw [position?]
    cases readNat max32 digits <;> simp [Except.toOption]
  rw [read, readNat_eq_ok_iff]
  constructor
  · rintro ⟨decimal | ⟨rest, rfl, -⟩, within⟩
    · exact ⟨decimal, within⟩
    · exact absurd (digit '+' List.mem_cons_self) (by decide)
  · exact fun ⟨decimal, within⟩ => ⟨.inl decimal, within⟩

theorem IsDecimal.position?_eq {n : Nat} {digits : List Char} (h : IsDecimal n digits) :
    position? digits = if n ≤ max32 then some n else none := by
  split
  next within => exact (position?_eq_some_iff h.digit).mpr ⟨h, within⟩
  next past =>
    cases read : position? digits with
    | none => rfl
    | some m =>
      obtain ⟨own, within⟩ := (position?_eq_some_iff h.digit).mp read
      have same : m = n := own.value.symm.trans h.value
      exact absurd (same ▸ within) past

/-- A run of digits is as long as it can be. -/
theorem digits?_eq_some_iff {s number rest : List Char} :
    digits? s = some (number, rest) ↔
      s = number ++ rest ∧ (∃ n, IsDecimal n number) ∧ ∀ c ∈ rest.head?, c.isDigit = false := by
  constructor
  · intro h
    obtain ⟨eq, some_, digit⟩ := eq_append_of_digits? h
    refine ⟨eq, ⟨_, some_, fun c mem => isDigit_eq c ▸ digit c mem, rfl⟩, ?_⟩
    simp only [digits?] at h
    split at h
    next => cases h
    next =>
      obtain ⟨-, rfl⟩ := Prod.mk.inj (Option.some.inj h)
      exact fun c mem => isDigit_eq c ▸ head_dropWhile c mem
  · rintro ⟨rfl, ⟨n, decimal⟩, stop⟩
    refine digits?_append ⟨decimal.ne_nil, fun c mem => ?_⟩ fun c mem => ?_
    · rw [isDigit_eq, decimal.digit c mem]
    · rw [isDigit_eq, stop c mem]

theorem isDecimal_toString (n : Nat) : IsDecimal n (toString n).toList := by
  rw [Nat.toString_eq_ofList_toDigits, String.toList_ofList]
  exact ⟨Nat.toDigits_ne_nil, fun _ mem => Nat.isDigit_of_mem_toDigits (by decide) (by decide) mem,
    Nat.ofDigitChars_ten_toDigits⟩

theorem isBlank_of_isDigit {c : Char} (digit : c.isDigit = true) : isBlank c = false := by
  have word : c.isAlphanum = true := by simp [Char.isAlphanum, digit]
  exact isBlank_of_isNameChar (isNameChar_iff.mpr (.inl word))

theorem IsDecimal.isToken {n : Nat} {s : List Char} (h : IsDecimal n s) : IsToken s :=
  ⟨h.ne_nil, fun c mem => isBlank_of_isDigit (h.digit c mem)⟩

theorem mapM_eq_ok_iff {α β ε : Type} {read : α → Except ε β} {xs : List α} {ys : List β} :
    xs.mapM read = .ok ys ↔ List.Forall₂ (fun y x => read x = .ok y) ys xs := by
  induction xs generalizing ys with
  | nil =>
    simp only [List.mapM_nil, pure, Except.pure, Except.ok.injEq, List.forall₂_nil_right_iff, eq_comm]
  | cons x xs ih =>
    rw [List.mapM_cons, List.forall₂_cons_right_iff]
    cases first : read x with
    | error fault =>
      constructor
      · intro h
        cases h
      · rintro ⟨_, _, h, -⟩
        cases h
    | ok y =>
      cases later : xs.mapM read with
      | error fault =>
        constructor
        · intro h
          cases h
        · rintro ⟨_, ys', -, h, -⟩
          cases later.symm.trans (ih.mpr h)
      | ok ys' =>
        constructor
        · intro h
          exact ⟨y, ys', rfl, ih.mp later, by cases h; rfl⟩
        · rintro ⟨_, _, h, also, rfl⟩
          cases h
          cases later.symm.trans (ih.mpr also)
          rfl

/-- No numeral holds the letter between two sizes. -/
theorem IsNumeral.x_not_mem {limit n : Nat} {s : List Char} (h : IsNumeral limit n s) : 'x' ∉ s := by
  have plain : ∀ {digits : List Char}, IsDecimal n digits → 'x' ∉ digits := fun decimal mem =>
    absurd (decimal.digit 'x' mem) (by decide)
  rcases h.form with decimal | ⟨digits, rfl, decimal⟩
  · exact plain decimal
  · simpa using plain decimal

theorem x_not_mem_of_numerals {limit : Nat} {dims : List Nat} {texts : List (List Char)}
    (h : List.Forall₂ (IsNumeral limit) dims texts) : ∀ text ∈ texts, 'x' ∉ text := by
  induction h with
  | nil => simp
  | cons numeral _ ih => exact List.forall_mem_cons.mpr ⟨numeral.x_not_mem, ih⟩

theorem readSizes_eq_ok_iff {dims : List Nat} {s : List Char} :
    readSizes s = .ok dims ↔ AreSizes dims s := by
  have numerals : ∀ {texts : List (List Char)},
      List.Forall₂ (fun n text => readNat max64 text = .ok n) dims texts ↔
        List.Forall₂ (IsNumeral max64) dims texts := by
    simp only [readNat_eq_ok_iff, implies_true]
  rw [readSizes, mapM_eq_ok_iff, numerals]
  constructor
  · intro h
    exact ⟨s.splitOn 'x', List.splitOn_ne_nil 'x' s, (List.intercalate_splitOn 'x').symm, h⟩
  · rintro ⟨texts, some_, rfl, h⟩
    rwa [List.splitOn_intercalate 'x' (x_not_mem_of_numerals h) some_]

theorem IsNumeral.ne_nil {limit n : Nat} {s : List Char} (h : IsNumeral limit n s) : s ≠ [] := by
  rcases h.form with decimal | ⟨digits, rfl, -⟩
  · exact decimal.ne_nil
  · exact List.cons_ne_nil '+' digits

theorem IsNumeral.char_cases {limit n : Nat} {s : List Char} (h : IsNumeral limit n s) :
    ∀ c ∈ s, c = '+' ∨ c.isDigit = true := by
  intro c mem
  rcases h.form with decimal | ⟨digits, rfl, decimal⟩
  · exact .inr (decimal.digit c mem)
  · rcases List.mem_cons.mp mem with rfl | later
    · exact .inl rfl
    · exact .inr (decimal.digit c later)

theorem AreSizes.char_cases {dims : List Nat} {s : List Char} (h : AreSizes dims s) :
    ∀ c ∈ s, c = 'x' ∨ c = '+' ∨ c.isDigit = true := by
  obtain ⟨texts, -, rfl, numerals⟩ := h
  induction numerals with
  | nil => simp
  | @cons d text dims texts numeral _ ih =>
    intro c mem
    cases texts with
    | nil =>
      rw [List.intercalate_singleton] at mem
      exact .inr (numeral.char_cases c mem)
    | cons next texts =>
      rw [List.intercalate_cons_cons, List.append_assoc, List.mem_append] at mem
      rcases mem with own | later
      · exact .inr (numeral.char_cases c own)
      · rcases List.mem_cons.mp later with rfl | later
        · exact .inl rfl
        · exact ih c later

theorem AreSizes.ne_nil {dims : List Nat} {s : List Char} (h : AreSizes dims s) : s ≠ [] := by
  obtain ⟨texts, some_, rfl, numerals⟩ := h
  cases numerals with
  | nil => exact absurd rfl some_
  | @cons d text dims texts numeral _ =>
    cases texts with
    | nil =>
      rw [List.intercalate_singleton]
      exact numeral.ne_nil
    | cons next texts => simp [List.intercalate_cons_cons]

theorem AreSizes.isToken {dims : List Nat} {s : List Char} (h : AreSizes dims s) : IsToken s where
  ne_nil := h.ne_nil
  ink := fun c mem => by
    rcases h.char_cases c mem with rfl | rfl | digit
    · decide
    · decide
    · exact isBlank_of_isDigit digit

theorem areSizes_toString {dims : List Nat} (some_ : dims ≠ []) (within : ∀ d ∈ dims, d ≤ max64) :
    AreSizes dims ("x".intercalate (dims.map toString)).toList := by
  refine ⟨dims.map fun d => (toString d).toList, by simpa using some_, ?_, ?_⟩
  · rw [String.toList_intercalate, List.map_map]
    rfl
  · rw [List.forall₂_map_right_iff, List.forall₂_same]
    exact fun d mem => ⟨.inl (isDecimal_toString d), within d mem⟩

end PromptRelay
