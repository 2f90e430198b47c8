/-!
# Lines of a text

Where the lines of a text begin, how the line of an offset is found, and how a line is cut out.
Offsets count the bytes of the text in UTF-8.
-/

namespace CellScript.Lines

/-- The offsets after each newline, for text that begins at `offset`. -/
def startsFrom (offset : Nat) : List Char → List Nat
  | [] => []
  | c :: rest =>
    let later := startsFrom (offset + c.utf8Size) rest
    if c = '\n' then (offset + 1) :: later else later

/-- The offset at which each line begins. -/
def starts (text : List Char) : Array Nat := (0 :: startsFrom 0 text).toArray

/-- Looks for a value from `lo` up to `hi` in an ascending array, in one half after the other: its
index, or else the index at which it would have to be inserted. -/
def searchFrom (xs : Array Nat) (x lo hi : Nat) (bound : hi ≤ xs.size) : Except Nat Nat :=
  if h : lo < hi then
    let mid := lo + (hi - lo) / 2
    have inside : mid < xs.size := by omega
    if xs[mid] = x then .ok mid
    else if xs[mid] < x then searchFrom xs x (mid + 1) hi bound
    else searchFrom xs x lo mid (by omega)
  else .error lo
termination_by hi - lo

/-- Looks for a value in an ascending array. -/
def search (xs : Array Nat) (x : Nat) : Except Nat Nat :=
  searchFrom xs x 0 xs.size (Nat.le_refl _)

/-- The index of the line of an offset: an offset at which no line begins is on the line before. -/
def indexAt (starts : Array Nat) (offset : Nat) : Nat :=
  match search starts offset with
  | .ok index => index
  | .error index => index - 1

/-- Line and column, from one, of an offset in lines that begin at `starts`. -/
def position (starts : Array Nat) (offset : Nat) : Nat × Nat :=
  let index := indexAt starts offset
  (index + 1, offset - starts.getD index 0 + 1)

/-- A text cut in two at an offset; nothing if that is inside a character or past the end. -/
def cut? : Nat → List Char → Option (List Char × List Char)
  | 0, text => some ([], text)
  | _ + 1, [] => none
  | n + 1, c :: rest =>
    if c.utf8Size ≤ n + 1 then
      (cut? (n + 1 - c.utf8Size) rest).map fun parts => (c :: parts.1, parts.2)
    else none

/-- The part of a text between two offsets, if both are between characters and in this order. -/
def slice? (text : List Char) (start stop : Nat) : Option (List Char) := do
  let (_, rest) ← cut? start text
  if start ≤ stop then
    let (part, _) ← cut? (stop - start) rest
    return part
  else none

/-- The characters without the newlines at the end. -/
def trimEnd (text : List Char) : List Char := (text.reverse.dropWhile (· == '\n')).reverse

/-- A line by its index, without its newline, for a text whose lines begin at `starts`. -/
def line? (starts : Array Nat) (text : String) (index : Nat) : Option (List Char) := do
  let start ← starts[index]?
  let part ← slice? text.toList start (starts[index + 1]?.getD text.utf8ByteSize)
  return trimEnd part

end CellScript.Lines
