import PromptRelay.Proofs.ListingLayout
import PromptRelay.Proofs.PrintedValues

namespace PromptRelay

/-- The character that stands for an attribute in a listing. -/
def Attribute.flag : Attribute → Char
  | .automatic => 'a'
  | .complex => 'c'
  | .formal => 'f'
  | .isGlobal => 'g'
  | .persistent => 'p'
  | .other flag => flag

/-- A flag that has a name is not kept as a nameless one. -/
def Attribute.IsCanonical : Attribute → Prop
  | .other flag => flag ∉ ['a', 'c', 'f', 'g', 'p']
  | _ => True

instance : (a : Attribute) → Decidable a.IsCanonical
  | .other flag => inferInstanceAs (Decidable (flag ∉ ['a', 'c', 'f', 'g', 'p']))
  | .automatic | .complex | .formal | .isGlobal | .persistent => .isTrue trivial

theorem Attribute.ofFlag_flag {a : Attribute} (canonical : a.IsCanonical) :
    Attribute.ofFlag a.flag = a := by
  cases a with
  | other flag =>
    have nameless : flag ∉ ['a', 'c', 'f', 'g', 'p'] := canonical
    simp only [List.mem_cons, List.not_mem_nil, or_false, not_or] at nameless
    simp [Attribute.flag, Attribute.ofFlag, nameless]
  | _ => rfl

namespace Variable

/-- What a listing can show of a variable. -/
structure IsPrintable (v : Variable) : Prop where
  name : IsToken v.name.toList
  className : IsToken v.className.toList
  dims_ne_nil : v.dims ≠ []
  dims_le : ∀ d ∈ v.dims, d ≤ max64
  bytes : ∃ n, v.bytes = some n ∧ n ≤ max64
  attributes : ∀ a ∈ v.attributes, a.IsCanonical ∧ isBlank a.flag = false

/-- The tokens that show a variable: its flags if there are any, name, size, bytes and class. -/
def rowTokens (v : Variable) (bytes : Nat) : List (List Char) :=
  (if v.attributes = [] then [] else [v.attributes.map Attribute.flag]) ++
    [v.name.toList, v.dimsText.toList, (toString bytes).toList, v.className.toList]

/-- The line shows the variable, with any blanks around its tokens and between them. -/
def ShownBy (v : Variable) (line : String) : Prop :=
  ∃ bytes, v.bytes = some bytes ∧ Spaced (v.rowTokens bytes) line.toList

variable {v : Variable}

theorem describes_rowTokens (printable : v.IsPrintable) {bytes : Nat} (held : v.bytes = some bytes) :
    Describes v (v.rowTokens bytes) := by
  obtain ⟨n, eq, within⟩ := printable.bytes
  cases held.symm.trans eq
  refine ⟨v.attributes.map Attribute.flag, v.dimsText.toList, (toString bytes).toList, ?_, ?_,
    areSizes_toString printable.dims_ne_nil printable.dims_le, fun m => ?_⟩
  · by_cases none : v.attributes = [] <;> simp [rowTokens, none]
  · rw [List.map_map]
    have same : ∀ a ∈ v.attributes, (Attribute.ofFlag ∘ Attribute.flag) a = a :=
      fun a mem => Attribute.ofFlag_flag (printable.attributes a mem).1
    rw [List.map_congr_left same, List.map_id']
  · have numeral : IsNumeral max64 bytes (toString bytes).toList := ⟨.inl (isDecimal_toString bytes), within⟩
    rw [held, ← readNat_eq_ok_iff, readNat_eq_ok_iff.mpr numeral]
    simp

theorem tellsOf_of_shownBy (printable : v.IsPrintable) {line : String} (shown : v.ShownBy line) :
    TellsOf v line := by
  obtain ⟨bytes, held, spaced⟩ := shown
  exact ⟨_, spaced, describes_rowTokens printable held⟩

theorem isToken_of_mem_rowTokens (printable : v.IsPrintable) (bytes : Nat) :
    ∀ token ∈ v.rowTokens bytes, IsToken token := by
  intro token mem
  rcases List.mem_append.mp mem with flags | rest
  · split at flags
    next => cases flags
    next some_ =>
      rw [List.mem_singleton.mp flags]
      refine ⟨by simpa using some_, ?_⟩
      simpa using fun a mem => (printable.attributes a mem).2
  · have sizes := areSizes_toString printable.dims_ne_nil printable.dims_le
    have decimal := isDecimal_toString bytes
    simp only [List.mem_cons, List.not_mem_nil, or_false] at rest
    rcases rest with rfl | rfl | rfl | rfl
    · exact printable.name
    · exact sizes.isToken
    · exact decimal.isToken
    · exact printable.className

/-- Every variable that can be shown has a line that shows it. -/
theorem exists_shownBy (printable : v.IsPrintable) :
    ∃ line, v.ShownBy line ∧ isBlankLine line = false := by
  obtain ⟨bytes, held, -⟩ := printable.bytes
  have spaced := spaced_flatMap (isToken_of_mem_rowTokens printable bytes)
  rw [← String.toList_ofList (l := (v.rowTokens bytes).flatMap (' ' :: ·))] at spaced
  refine ⟨_, ⟨bytes, held, spaced⟩, Bool.eq_false_iff.mpr fun blank => ?_⟩
  have none : v.rowTokens bytes = [] := (tokens_of_spaced spaced).symm.trans (tokens_of_blank blank)
  simp [rowTokens] at none

end Variable

theorem exists_rowsOf_shownBy {vs : List Variable} (printable : ∀ v ∈ vs, v.IsPrintable) :
    ∃ rows, RowsOf Variable.ShownBy vs rows ∧ ∀ row ∈ rows, isBlankLine row = false := by
  induction vs with
  | nil => exact ⟨[], .nil, by simp⟩
  | cons v vs ih =>
    obtain ⟨first, others⟩ := List.forall_mem_cons.mp printable
    obtain ⟨line, shown, ink⟩ := Variable.exists_shownBy first
    obtain ⟨rows, later, inked⟩ := ih others
    exact ⟨line :: rows, .row shown later, List.forall_mem_cons.mpr ⟨ink, inked⟩⟩

/-- A listing of variables is read back, none lost and no fault, whatever the blanks between its
tokens, the separators and blank lines between its rows, its heading and its footer, with a prompt
after it or without. -/
theorem printed_listing_comes_back {vs : List Variable} (printable : ∀ v ∈ vs, v.IsPrintable) :
    (∃ rows, RowsOf Variable.ShownBy vs rows ∧ ∀ row ∈ rows, isBlankLine row = false) ∧
    ∀ (l : ListingLayout) (lines : List String), RowsOf Variable.ShownBy vs l.rows →
      contentOf lines = l.content → Listing.ofLines lines = ⟨vs, none⟩ := by
  refine ⟨exists_rowsOf_shownBy printable, fun l lines shown laid => ?_⟩
  have told := shown.imp fun v mem line => Variable.tellsOf_of_shownBy (printable v mem)
  exact ofLines_of_rowsOf laid told

/-- Names and flags of equals signs, a size of zero, the largest count of bytes, a prompt in the
heading. -/
theorem odd_listing_comes_back :
    Listing.ofLines ["", "Variables", "\t", "debug> ", "Attr", "== =",
      "c= ==  2x0x3\u2003 18446744073709551615 double ", " ", "===", "s 1x1 1 char", "=",
      "Total is 2", "", "octave:3> ", ""] =
      ⟨[⟨"==", [2, 0, 3], "double", some 18446744073709551615, [.complex, .other '=']⟩,
        ⟨"s", [1, 1], "char", some 1, []⟩], none⟩ := by
  let matrix : Variable :=
    ⟨"==", [2, 0, 3], "double", some 18446744073709551615, [.complex, .other '=']⟩
  let letter : Variable := ⟨"s", [1, 1], "char", some 1, []⟩
  have printable : ∀ v ∈ [matrix, letter], v.IsPrintable := by
    simp only [List.forall_mem_cons, List.not_mem_nil, false_implies, implies_true, and_true]
    exact ⟨⟨by decide, by decide, by decide, by decide, ⟨_, rfl, by decide⟩, by decide⟩,
      ⟨by decide, by decide, by decide, by decide, ⟨_, rfl, by decide⟩, by decide⟩⟩
  have matrixRow : matrix.ShownBy "c= ==  2x0x3\u2003 18446744073709551615 double " :=
    ⟨18446744073709551615, rfl, tokens_eq_iff.mp (by decide)⟩
  have letterRow : letter.ShownBy "s 1x1 1 char" := ⟨1, rfl, tokens_eq_iff.mp (by decide)⟩
  have above : IsSeparator "== =" := isSeparator_tokens.mp rfl
  have between : IsSeparator "===" := isSeparator_tokens.mp rfl
  have below : IsSeparator "=" := isSeparator_tokens.mp rfl
  let layout : ListingLayout := ⟨["Variables", "debug> ", "Attr"],
    ["== =", "c= ==  2x0x3\u2003 18446744073709551615 double ", "===", "s 1x1 1 char", "="],
    "Total is 2", some "octave:3> ", rfl, by decide, by simp⟩
  have rows : RowsOf Variable.ShownBy [matrix, letter] layout.rows :=
    .separator above (.row matrixRow (.separator between (.row letterRow (.separator below .nil))))
  exact (printed_listing_comes_back printable).2 layout _ rows (by decide)

end PromptRelay
