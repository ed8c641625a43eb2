namespace PromptRelay

/-- The characters with the Unicode property White_Space. -/
def isBlank (c : Char) : Bool :=
  let n := c.toNat
  (9 ≤ n && n ≤ 13) || n == 0x20 || n == 0x85 || n == 0xA0 || n == 0x1680 ||
    (0x2000 ≤ n && n ≤ 0x200A) || n == 0x2028 || n == 0x2029 || n == 0x202F || n == 0x205F ||
    n == 0x3000

def trimLeft (s : List Char) : List Char := s.dropWhile isBlank

def trimRight (s : List Char) : List Char := (s.reverse.dropWhile isBlank).reverse

def trim (s : List Char) : List Char := trimRight (trimLeft s)

def allBlank (s : List Char) : Bool := s.all isBlank

/-- A character that continues the first token, or stands as a token of its own before them. -/
def addToToken (c : Char) (continues : Bool) : List (List Char) → List (List Char)
  | [] => [[c]]
  | t :: ts => if continues then (c :: t) :: ts else [c] :: t :: ts

def startsToken : List Char → Bool
  | [] => false
  | c :: _ => !isBlank c

/-- The maximal runs of characters that are not blank. -/
def tokens : List Char → List (List Char)
  | [] => []
  | c :: rest =>
    if isBlank c then tokens rest else addToToken c (startsToken rest) (tokens rest)

def isBlankLine (line : String) : Bool := allBlank line.toList

def trimmed (s : String) : String := String.ofList (trim s.toList)

def tokenTexts (s : String) : List String := (tokens s.toList).map String.ofList

theorem isBlank_space : isBlank ' ' = true := by decide

theorem tokens_blank {c : Char} {rest : List Char} (blank : isBlank c = true) :
    tokens (c :: rest) = tokens rest := by
  simp [tokens, blank]

end PromptRelay
