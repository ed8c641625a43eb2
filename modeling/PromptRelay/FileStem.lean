namespace PromptRelay

/-- The last component of a path: trailing slashes and `.` components do not count, and a path
that ends in `..` has none. -/
def fileName? (path : List Char) : Option (List Char) :=
  let named := (path.splitOn '/').reverse.dropWhile fun c => c == [] || c == ['.']
  match named with
  | [] => none
  | last :: _ => if last == ['.', '.'] then none else some last

/-- A file name without its last dot and what follows it; a name that only starts with a dot is
kept whole. -/
def stemOf (name : List Char) : List Char :=
  match (name.reverse.dropWhile (· ≠ '.')).drop 1 with
  | [] => name
  | before => before.reverse

def fileStem? (path : List Char) : Option (List Char) := (fileName? path).map stemOf

end PromptRelay
