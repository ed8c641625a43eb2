import PromptRelay.Listing
import PromptRelay.Proofs.DecimalNumbers

namespace PromptRelay

/-- The tokens of a row that tells of a variable: flags if there are any, name, size, bytes and
class. Bytes that are no number are left out. -/
def Describes (v : Variable) (row : List (List Char)) : Prop :=
  ∃ flags size bytes,
    (row = [flags, v.name.toList, size, bytes, v.className.toList] ∨
      flags = [] ∧ row = [v.name.toList, size, bytes, v.className.toList]) ∧
    v.attributes = flags.map Attribute.ofFlag ∧ AreSizes v.dims size ∧
    ∀ n, v.bytes = some n ↔ IsNumeral max64 n bytes

/-- Tokens that tell of no variable: they are neither four nor five, or the third from the end is
no list of sizes. -/
inductive Malformed : List (List Char) → Prop where
  | count {row : List (List Char)} : row.length ≠ 4 → row.length ≠ 5 → Malformed row
  | size {flagsAndName : List (List Char)} {size bytes className : List Char} :
      flagsAndName.length = 1 ∨ flagsAndName.length = 2 → (∀ dims, ¬AreSizes dims size) →
      Malformed (flagsAndName ++ [size, bytes, className])

/-- A line of equals signs, with blanks anywhere. -/
def IsSeparator (line : String) : Prop :=
  ∃ row, Spaced row line.toList ∧ ∀ token ∈ row, ∀ c ∈ token, c = '='

/-- A line of a listing that tells of a variable. -/
def TellsOf (v : Variable) (line : String) : Prop :=
  ∃ row, Spaced row line.toList ∧ Describes v row

/-- A line of a listing that ought to tell of a variable and does not. -/
def IsFaulty (line : String) : Prop :=
  ¬IsSeparator line ∧ ∃ row, Spaced row line.toList ∧ Malformed row

/-- Lines that show variables one in a line, in order; separators stand anywhere. -/
inductive RowsOf (shows : Variable → String → Prop) : List Variable → List String → Prop where
  | nil : RowsOf shows [] []
  | separator {vs : List Variable} {line : String} {lines : List String} :
      IsSeparator line → RowsOf shows vs lines → RowsOf shows vs (line :: lines)
  | row {v : Variable} {vs : List Variable} {line : String} {lines : List String} :
      shows v line → RowsOf shows vs lines → RowsOf shows (v :: vs) (line :: lines)

theorem RowsOf.imp {shows tells : Variable → String → Prop} {vs : List Variable} {lines : List String}
    (rows : RowsOf shows vs lines) (h : ∀ v ∈ vs, ∀ line, shows v line → tells v line) :
    RowsOf tells vs lines := by
  induction rows with
  | nil => exact .nil
  | separator signs _ ih => exact .separator signs (ih h)
  | row shown _ ih =>
    obtain ⟨first, later⟩ := List.forall_mem_cons.mp h
    exact .row (first _ shown) (ih later)

theorem toOption_readNat_eq_iff {limit : Nat} {s : List Char} {b : Option Nat} :
    (readNat limit s).toOption = b ↔ ∀ n, b = some n ↔ IsNumeral limit n s := by
  have read : ∀ n, (readNat limit s).toOption = some n ↔ IsNumeral limit n s := by
    intro n
    rw [← readNat_eq_ok_iff]
    cases readNat limit s <;> simp [Except.toOption]
  constructor
  · rintro rfl
    exact read
  · intro h
    refine Option.ext fun n => ?_
    rw [read, h]

namespace Variable

theorem ofFields_eq_ok_iff {flags name size bytes className : List Char} {v : Variable} :
    ofFields flags name size bytes className = .ok v ↔
      v.name.toList = name ∧ v.className.toList = className ∧
      v.attributes = flags.map Attribute.ofFlag ∧ AreSizes v.dims size ∧
      ∀ n, v.bytes = some n ↔ IsNumeral max64 n bytes := by
  rw [← readSizes_eq_ok_iff, ← toOption_readNat_eq_iff]
  unfold ofFields
  cases read : readSizes size with
  | error fault => simp
  | ok dims =>
    constructor
    · intro h
      cases h
      simp
    · rintro ⟨rfl, rfl, attributes, sizes, bytes⟩
      cases v
      cases sizes
      simp_all

theorem ofTokens_other {row : List (List Char)} (four : row.length ≠ 4) (five : row.length ≠ 5) :
    ofTokens row = .error (.tokenCount row.length) := by
  match row with
  | [] | [_] | [_, _] | [_, _, _] => rfl
  | [_, _, _, _] => exact absurd rfl four
  | [_, _, _, _, _] => exact absurd rfl five
  | _ :: _ :: _ :: _ :: _ :: _ :: _ => rfl

theorem ofTokens_eq_ok_iff {row : List (List Char)} {v : Variable} :
    ofTokens row = .ok v ↔ Describes v row := by
  constructor
  · intro h
    by_cases four : row.length = 4
    · obtain ⟨name, size, bytes, className, rfl⟩ := List.length_eq_four.mp four
      obtain ⟨rfl, rfl, rest⟩ := ofFields_eq_ok_iff.mp h
      exact ⟨[], size, bytes, .inr ⟨rfl, rfl⟩, rest⟩
    by_cases five : row.length = 5
    · match row, five with
      | [flags, name, size, bytes, className], _ =>
        obtain ⟨rfl, rfl, rest⟩ := ofFields_eq_ok_iff.mp h
        exact ⟨flags, size, bytes, .inl rfl, rest⟩
    · rw [ofTokens_other four five] at h
      cases h
  · rintro ⟨flags, size, bytes, rfl | ⟨rfl, rfl⟩, rest⟩
    · exact ofFields_eq_ok_iff.mpr ⟨rfl, rfl, rest⟩
    · exact ofFields_eq_ok_iff.mpr ⟨rfl, rfl, rest⟩

end Variable

theorem malformed_iff {row : List (List Char)} : Malformed row ↔ ∀ v, ¬Describes v row := by
  constructor
  · rintro malformed v ⟨flags, size, bytes, form, -, sizes, -⟩
    cases malformed with
    | count four five =>
      rcases form with rfl | ⟨-, rfl⟩
      · exact five rfl
      · exact four rfl
    | @size before _ _ _ short none =>
      -- Of a row that tells of a variable the third token from the end is the size.
      match before, short with
      | [_], _ =>
        rcases form with eq | ⟨-, eq⟩
        · cases eq
        · cases eq
          exact none _ sizes
      | [_, _], _ =>
        rcases form with eq | ⟨-, eq⟩
        · cases eq
          exact none _ sizes
        · cases eq
  · intro untold
    have noSizes : ∀ {flags name size bytes className : List Char},
        (row = [flags, name, size, bytes, className] ∨
          flags = [] ∧ row = [name, size, bytes, className]) → ∀ dims, ¬AreSizes dims size := by
      intro flags name size bytes className form dims sizes
      let v : Variable := ⟨.ofList name, dims, .ofList className, (readNat max64 bytes).toOption,
        flags.map Attribute.ofFlag⟩
      refine untold v ⟨flags, size, bytes, ?_, rfl, sizes, toOption_readNat_eq_iff.mp rfl⟩
      simpa [v] using form
    by_cases four : row.length = 4
    · obtain ⟨name, size, bytes, className, rfl⟩ := List.length_eq_four.mp four
      have short : [name].length = 1 ∨ [name].length = 2 := .inl rfl
      exact Malformed.size short (noSizes (.inr ⟨rfl, rfl⟩))
    by_cases five : row.length = 5
    · match row, five with
      | [flags, name, size, bytes, className], _ =>
        have short : [flags, name].length = 1 ∨ [flags, name].length = 2 := .inr rfl
        exact Malformed.size short (noSizes (.inl rfl))
    · exact .count four five

theorem isSeparator_tokens {line : String} :
    Listing.isSeparator (tokens line.toList) = true ↔ IsSeparator line := by
  have signs : ∀ {row : List (List Char)}, Listing.isSeparator row = true ↔
      ∀ token ∈ row, ∀ c ∈ token, c = '=' := by
    simp [Listing.isSeparator]
  constructor
  · intro h
    exact ⟨_, spaced_tokens line.toList, signs.mp h⟩
  · rintro ⟨row, spaced, h⟩
    rw [tokens_of_spaced spaced]
    exact signs.mpr h

/-- A size is no row of equals signs. -/
theorem Describes.not_separator {v : Variable} {row : List (List Char)} (h : Describes v row) :
    Listing.isSeparator row = false := by
  obtain ⟨flags, size, bytes, form, -, sizes, -⟩ := h
  have member : size ∈ row := by
    rcases form with rfl | ⟨-, rfl⟩ <;> simp
  obtain ⟨c, mem⟩ := List.exists_mem_of_ne_nil size sizes.ne_nil
  have other : c ≠ '=' := by
    rintro rfl
    have none := sizes.char_cases '=' mem
    revert none
    decide
  refine Bool.eq_false_iff.mpr fun signs => other ?_
  simp only [Listing.isSeparator, List.all_eq_true, beq_iff_eq] at signs
  exact signs size member c mem

theorem not_isSeparator_tokens {line : String} (h : ¬IsSeparator line) :
    Listing.isSeparator (tokens line.toList) = false :=
  Bool.eq_false_iff.mpr fun signs => h (isSeparator_tokens.mp signs)

/-- A line is a separator, tells of a variable, or is faulty. -/
theorem line_cases (line : String) : IsSeparator line ∨ (∃ v, TellsOf v line) ∨ IsFaulty line := by
  by_cases signs : IsSeparator line
  · exact .inl signs
  right
  have spaced := spaced_tokens line.toList
  by_cases told : ∃ v, Describes v (tokens line.toList)
  · obtain ⟨v, describes⟩ := told
    exact .inl ⟨v, _, spaced, describes⟩
  · exact .inr ⟨signs, _, spaced, malformed_iff.mpr fun v describes => told ⟨v, describes⟩⟩

namespace Listing

theorem readRows_row {v : Variable} {line : String} (told : TellsOf v line) (place : Nat)
    (rest : List (List (List Char))) :
    readRows place (tokens line.toList :: rest) =
      ⟨v :: (readRows (place + 1) rest).entries, (readRows (place + 1) rest).fault⟩ := by
  obtain ⟨row, spaced, describes⟩ := told
  have read := Variable.ofTokens_eq_ok_iff.mpr describes
  simp [readRows, tokens_of_spaced spaced, describes.not_separator, read]

/-- A faulty row ends the listing; what is said about it hangs on the row alone. -/
theorem readRows_faulty {line : String} (faulty : IsFaulty line) :
    ∃ message, ∀ place rest, readRows place (tokens line.toList :: rest) =
      ⟨[], some (.listing place message)⟩ := by
  obtain ⟨data, row, spaced, malformed⟩ := faulty
  have noSigns := not_isSeparator_tokens data
  rw [tokens_of_spaced spaced] at noSigns ⊢
  cases read : Variable.ofTokens row with
  | ok v => exact absurd (Variable.ofTokens_eq_ok_iff.mp read) (malformed_iff.mp malformed v)
  | error fault => exact ⟨fault.message, fun place rest => by simp [readRows, noSigns, read]⟩

theorem readRows_rowsOf {vs : List Variable} {good : List String} (rows : RowsOf TellsOf vs good)
    (place : Nat) (rest : List (List (List Char))) :
    readRows place ((good.map fun row => tokens row.toList) ++ rest) =
      ⟨vs ++ (readRows (place + good.length) rest).entries,
        (readRows (place + good.length) rest).fault⟩ := by
  induction rows generalizing place with
  | nil => rfl
  | @separator vs line lines signs _ ih =>
    have skipped := isSeparator_tokens.mpr signs
    have next : place + 1 + lines.length = place + (line :: lines).length := by
      simp only [List.length_cons]
      omega
    simp only [List.map_cons, List.cons_append, readRows, skipped, if_true, ih, next]
  | @row v vs line lines told _ ih =>
    have next : place + 1 + lines.length = place + (line :: lines).length := by
      simp only [List.length_cons]
      omega
    rw [List.map_cons, List.cons_append, readRows_row told, ih, next]
    rfl

end Listing

/-- All rows tell of variables, or there is a first faulty one. -/
theorem rows_cases (lines : List String) :
    (∃ vs, RowsOf TellsOf vs lines) ∨
      ∃ vs good bad later, lines = good ++ bad :: later ∧ RowsOf TellsOf vs good ∧ IsFaulty bad := by
  induction lines with
  | nil => exact .inl ⟨[], .nil⟩
  | cons line lines ih =>
    rcases line_cases line with signs | ⟨v, told⟩ | faulty
    · rcases ih with ⟨vs, rows⟩ | ⟨vs, good, bad, later, rfl, rows, faulty⟩
      · exact .inl ⟨vs, .separator signs rows⟩
      · exact .inr ⟨vs, line :: good, bad, later, rfl, .separator signs rows, faulty⟩
    · rcases ih with ⟨vs, rows⟩ | ⟨vs, good, bad, later, rfl, rows, faulty⟩
      · exact .inl ⟨v :: vs, .row told rows⟩
      · exact .inr ⟨v :: vs, line :: good, bad, later, rfl, .row told rows, faulty⟩
    · exact .inr ⟨[], [], line, lines, rfl, .nil, faulty⟩

end PromptRelay
