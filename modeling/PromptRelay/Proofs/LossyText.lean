import PromptRelay.LineBuffer

namespace PromptRelay

/-- The characters that bytes settle, without the replacement for one left open at their end. -/
def settledChars (pending : Option OpenChar) : List UInt8 → List Char
  | [] => []
  | b :: rest => (utf8Step pending b).1 ++ settledChars (utf8Step pending b).2 rest

/-- The character that bytes leave open. -/
def leftOpen (pending : Option OpenChar) : List UInt8 → Option OpenChar
  | [] => pending
  | b :: rest => leftOpen (utf8Step pending b).2 rest

theorem decodeFrom_append (pending : Option OpenChar) (first later : List UInt8) :
    decodeFrom pending (first ++ later) =
      settledChars pending first ++ decodeFrom (leftOpen pending first) later := by
  induction first generalizing pending with
  | nil => rfl
  | cons b rest ih =>
    simp only [List.cons_append, decodeFrom, settledChars, leftOpen, ih, List.append_assoc]

/-- Bytes that leave no character open are read for themselves, whatever follows. -/
theorem decodeLossy_append {first : List UInt8} (later : List UInt8)
    (whole : (decodeLossy first).getLast? ≠ some replacementChar) :
    decodeLossy (first ++ later) = decodeLossy first ++ decodeLossy later := by
  have alone := decodeFrom_append none first []
  rw [List.append_nil] at alone
  cases left : leftOpen none first with
  | some o =>
    exact absurd (by simp [decodeLossy, alone, left, decodeFrom]) whole
  | none =>
    have settled : decodeLossy first = settledChars none first := by
      simpa [decodeLossy, left, decodeFrom] using alone
    rw [settled, decodeLossy, decodeFrom_append, left]
    rfl

theorem utf8Bytes_eq (s : String) : utf8Bytes s = s.toList.flatMap String.utf8EncodeChar := by
  simp [utf8Bytes, ← String.utf8Encode_toList, List.utf8Encode]

theorem decodeFrom_whole {b : UInt8} {c : Char} (rest : List UInt8) (h : leadByte b = .whole c) :
    decodeFrom none (b :: rest) = c :: decodeFrom none rest := by
  simp [decodeFrom, utf8Step, h]

theorem decodeFrom_start {b : UInt8} {o : OpenChar} (rest : List UInt8) (h : leadByte b = .start o) :
    decodeFrom none (b :: rest) = decodeFrom (some o) rest := by
  simp [decodeFrom, utf8Step, h]

theorem decodeFrom_inner {owed least most bits : Nat} {b : UInt8} (rest : List UInt8)
    (low : least ≤ b.toNat) (high : b.toNat ≤ most) :
    decodeFrom (some ⟨owed + 2, least, most, bits⟩) (b :: rest) =
      decodeFrom (some ⟨owed + 1, 0x80, 0xBF, bits * 64 + (b.toNat - 0x80)⟩) rest := by
  simp [decodeFrom, utf8Step, low, high]

theorem decodeFrom_last {least most bits : Nat} {b : UInt8} (rest : List UInt8)
    (low : least ≤ b.toNat) (high : b.toNat ≤ most) :
    decodeFrom (some ⟨1, least, most, bits⟩) (b :: rest) =
      Char.ofNat (bits * 64 + (b.toNat - 0x80)) :: decodeFrom none rest := by
  simp [decodeFrom, utf8Step, low, high]

theorem toNat_ofNat_of_lt {n : Nat} (h : n < 256) : (UInt8.ofNat n).toNat = n :=
  Nat.mod_eq_of_lt h

theorem leadByte_ascii {n : Nat} (h : n ≤ 0x7F) : leadByte (.ofNat n) = .whole (Char.ofNat n) := by
  have value := toNat_ofNat_of_lt (n := n) (by omega)
  simp only [leadByte, value]
  rw [if_pos (by omega)]

theorem leadByte_two {n : Nat} (low : 0x80 ≤ n) (high : n < 0x800) :
    leadByte (.ofNat (n / 64 % 0x20 + 0xC0)) = .start ⟨1, 0x80, 0xBF, n / 64⟩ := by
  have first : n / 64 % 0x20 + 0xC0 = n / 64 + 0xC0 := by omega
  have value := toNat_ofNat_of_lt (n := n / 64 + 0xC0) (by omega)
  rw [first]
  simp only [leadByte, value]
  rw [if_neg (by omega), if_neg (by omega), if_pos (by omega), Nat.add_sub_cancel]

/-- Of three bytes the second lies in the range that the first one asks for: overlong forms and
surrogates are out. -/
theorem leadByte_three {n : Nat} (low : 0x800 ≤ n) (high : n < 0x10000)
    (valid : n < 0xD800 ∨ 0xDFFF < n) :
    ∃ least most, leadByte (.ofNat (n / 4096 % 0x10 + 0xE0)) = .start ⟨2, least, most, n / 4096⟩ ∧
      least ≤ n / 64 % 0x40 + 0x80 ∧ n / 64 % 0x40 + 0x80 ≤ most := by
  have first : n / 4096 % 0x10 + 0xE0 = n / 4096 + 0xE0 := by omega
  have value := toNat_ofNat_of_lt (n := n / 4096 + 0xE0) (by omega)
  rw [first]
  simp only [leadByte, value, Nat.add_sub_cancel]
  rw [if_neg (by omega), if_neg (by omega), if_neg (by omega)]
  by_cases zero : n / 4096 = 0
  · rw [if_pos (by omega), zero]
    exact ⟨_, _, rfl, by omega, by omega⟩
  rw [if_neg (by omega)]
  by_cases surrogates : n / 4096 = 0xD
  · rw [if_pos (by omega)]
    exact ⟨_, _, rfl, by omega, by omega⟩
  rw [if_neg (by omega), if_pos (by omega)]
  exact ⟨_, _, rfl, by omega, by omega⟩

theorem leadByte_four {n : Nat} (low : 0x10000 ≤ n) (high : n < 0x110000) :
    ∃ least most,
      leadByte (.ofNat (n / 262144 % 0x08 + 0xF0)) = .start ⟨3, least, most, n / 262144⟩ ∧
        least ≤ n / 4096 % 0x40 + 0x80 ∧ n / 4096 % 0x40 + 0x80 ≤ most := by
  have first : n / 262144 % 0x08 + 0xF0 = n / 262144 + 0xF0 := by omega
  have value := toNat_ofNat_of_lt (n := n / 262144 + 0xF0) (by omega)
  rw [first]
  simp only [leadByte, value, Nat.add_sub_cancel]
  rw [if_neg (by omega), if_neg (by omega), if_neg (by omega), if_neg (by omega),
    if_neg (by omega), if_neg (by omega)]
  by_cases zero : n / 262144 = 0
  · rw [if_pos (by omega), zero]
    exact ⟨_, _, rfl, by omega, by omega⟩
  rw [if_neg (by omega)]
  by_cases last : n / 262144 = 4
  · rw [if_neg (by omega), if_pos (by omega)]
    exact ⟨_, _, rfl, by omega, by omega⟩
  rw [if_pos (by omega)]
  exact ⟨_, _, rfl, by omega, by omega⟩

/-- A character is read back from its bytes, and what follows is left alone. -/
theorem decodeFrom_utf8EncodeChar (c : Char) (rest : List UInt8) :
    decodeFrom none (String.utf8EncodeChar c ++ rest) = c :: decodeFrom none rest := by
  have valid : c.toNat < 0xD800 ∨ 0xDFFF < c.toNat ∧ c.toNat < 0x110000 := c.valid
  have back : ∀ {k : Nat}, k = c.toNat → Char.ofNat k = c := fun h => h ▸ Char.ofNat_toNat c
  have octet : ∀ k, (UInt8.ofNat (k % 0x40 + 0x80)).toNat = k % 0x40 + 0x80 :=
    fun k => toNat_ofNat_of_lt (by omega)
  unfold String.utf8EncodeChar
  simp only [show c.val.toNat = c.toNat from rfl]
  generalize c.toNat = n at valid back
  have last := octet n
  split
  next one =>
    have whole := decodeFrom_whole rest (leadByte_ascii one)
    rw [back rfl] at whole
    exact whole
  next =>
  split
  next two =>
    have start := leadByte_two (n := n) (by omega) (by omega)
    simp only [List.cons_append, List.nil_append]
    rw [decodeFrom_start _ start, decodeFrom_last _ (by omega) (by omega), back (by omega)]
  next =>
  split
  next three =>
    obtain ⟨least, most, start, low, high⟩ :=
      leadByte_three (n := n) (by omega) (by omega) (by omega)
    have second := octet (n / 64)
    simp only [List.cons_append, List.nil_append]
    rw [decodeFrom_start _ start, decodeFrom_inner _ (by omega) (by omega),
      decodeFrom_last _ (by omega) (by omega), back (by omega)]
  next four =>
    obtain ⟨least, most, start, low, high⟩ := leadByte_four (n := n) (by omega) (by omega)
    have second := octet (n / 4096)
    have third := octet (n / 64)
    simp only [List.cons_append, List.nil_append]
    rw [decodeFrom_start _ start, decodeFrom_inner _ (by omega) (by omega),
      decodeFrom_inner _ (by omega) (by omega),
      decodeFrom_last _ (by omega) (by omega), back (by omega)]

theorem decodeLossy_utf8 (s : List Char) : decodeLossy (s.flatMap String.utf8EncodeChar) = s := by
  induction s with
  | nil => rfl
  | cons c s ih =>
    rw [List.flatMap_cons, decodeLossy, decodeFrom_utf8EncodeChar]
    exact congrArg (c :: ·) ih

theorem decodeLossy_utf8Bytes (s : String) : decodeLossy (utf8Bytes s) = s.toList := by
  rw [utf8Bytes_eq, decodeLossy_utf8]

def asciiByte (c : Char) : UInt8 := .ofNat c.toNat

theorem utf8EncodeChar_ascii {c : Char} (ascii : c.toNat < 0x80) :
    String.utf8EncodeChar c = [asciiByte c] := by
  have one : c.val.toNat ≤ 0x7F := Nat.le_of_lt_succ ascii
  simp only [String.utf8EncodeChar, one, if_true]
  rfl

theorem utf8Bytes_ascii {s : List Char} (ascii : ∀ c ∈ s, c.toNat < 0x80) :
    utf8Bytes (.ofList s) = s.map asciiByte := by
  rw [utf8Bytes_eq, String.toList_ofList]
  induction s with
  | nil => rfl
  | cons c s ih =>
    rw [List.flatMap_cons, utf8EncodeChar_ascii (ascii c List.mem_cons_self),
      ih fun d hd => ascii d (List.mem_cons_of_mem c hd)]
    rfl

theorem decodeLossy_asciiByte {c : Char} (ascii : c.toNat < 0x80) (rest : List UInt8) :
    decodeLossy (asciiByte c :: rest) = c :: decodeLossy rest := by
  have read := decodeFrom_utf8EncodeChar c rest
  rw [utf8EncodeChar_ascii ascii] at read
  exact read

theorem decodeLossy_ascii {s : List Char} (ascii : ∀ c ∈ s, c.toNat < 0x80) :
    decodeLossy (s.map asciiByte) = s := by
  rw [← utf8Bytes_ascii ascii, decodeLossy_utf8Bytes, String.toList_ofList]

end PromptRelay
