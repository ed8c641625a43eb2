namespace PromptRelay

/-- A character whose first bytes were read: how many continuation bytes are owed, the range of
the next one, and the bits so far. -/
structure OpenChar where
  owed : Nat
  low : Nat
  high : Nat
  bits : Nat

inductive LeadByte where
  | whole (c : Char)
  | start (o : OpenChar)
  | stray

def leadByte (b : UInt8) : LeadByte :=
  let n := b.toNat
  if n < 0x80 then .whole (Char.ofNat n)
  else if n < 0xC2 then .stray
  else if n < 0xE0 then .start ⟨1, 0x80, 0xBF, n - 0xC0⟩
  else if n = 0xE0 then .start ⟨2, 0xA0, 0xBF, 0⟩
  else if n = 0xED then .start ⟨2, 0x80, 0x9F, n - 0xE0⟩
  else if n < 0xF0 then .start ⟨2, 0x80, 0xBF, n - 0xE0⟩
  else if n = 0xF0 then .start ⟨3, 0x90, 0xBF, 0⟩
  else if n < 0xF4 then .start ⟨3, 0x80, 0xBF, n - 0xF0⟩
  else if n = 0xF4 then .start ⟨3, 0x80, 0x8F, n - 0xF0⟩
  else .stray

def replacementChar : Char := Char.ofNat 0xFFFD

/-- One byte: the characters it settles, and the character it leaves open. A byte that cannot
continue the open character replaces that one and is read again as a first byte. -/
def utf8Step (pending : Option OpenChar) (b : UInt8) : List Char × Option OpenChar :=
  let fresh (before : List Char) : List Char × Option OpenChar :=
    match leadByte b with
    | .whole c => (before ++ [c], none)
    | .start o => (before, some o)
    | .stray => (before ++ [replacementChar], none)
  match pending with
  | none => fresh []
  | some o =>
    if o.low ≤ b.toNat ∧ b.toNat ≤ o.high then
      let bits := o.bits * 64 + (b.toNat - 0x80)
      if o.owed ≤ 1 then ([Char.ofNat bits], none)
      else ([], some ⟨o.owed - 1, 0x80, 0xBF, bits⟩)
    else fresh [replacementChar]

def decodeFrom (pending : Option OpenChar) : List UInt8 → List Char
  | [] => if pending.isSome then [replacementChar] else []
  | b :: rest => (utf8Step pending b).1 ++ decodeFrom (utf8Step pending b).2 rest

/-- The text of a byte sequence, each maximal piece that no UTF-8 text starts with replaced by
one U+FFFD. -/
def decodeLossy (bytes : List UInt8) : List Char := decodeFrom none bytes

def utf8Bytes (s : String) : List UInt8 := s.toUTF8.data.toList

end PromptRelay
