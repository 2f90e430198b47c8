import CellScript.Text.Lines

/-!
# Source files

Files are known by the path of their unit and numbered from one in the order of registration. Line
tables count UTF-8 bytes.
-/

namespace CellScript

/-- A registered file. -/
structure SourceFile where
  path : String
  source : Option String
  deriving DecidableEq, Repr, Inhabited

namespace SourceFile

/-- The byte offset at which each line begins. Without a text there is one line. -/
def lineStarts (f : SourceFile) : Array Nat := Lines.starts (f.source.getD "").toList

/-- Line and column, from one, of a byte offset. -/
def lineCol (f : SourceFile) (offset : Nat) : Nat × Nat := Lines.position f.lineStarts offset

/-- The text of a line, counted from one, without its newline. -/
def lineText? (f : SourceFile) (line : Nat) : Option String :=
  match f.source, line with
  | some source, index + 1 => (Lines.line? f.lineStarts source index).map String.ofList
  | _, _ => none

end SourceFile

/-- Registered files; the file at index `i` has the number `i + 1`. -/
abbrev SourceMap := List SourceFile

namespace SourceMap

/-- The number of the file at a path. -/
def fileId? (files : SourceMap) (path : String) : Option Nat :=
  (files.findIdx? fun f => f.path == path).map (· + 1)

/-- The file with a number. -/
def file? (files : SourceMap) (id : Nat) : Option SourceFile :=
  if id = 0 then none else files[id - 1]?

/-- The path of the file with a number. -/
def path? (files : SourceMap) (id : Nat) : Option String := (file? files id).map (·.path)

/-- Registers a path once; later registrations give the same number and keep the first text. -/
def register (files : SourceMap) (path : String) (source : Option String) : SourceMap × Nat :=
  match fileId? files path with
  | some id => (files, id)
  | none => (files ++ [⟨path, source⟩], files.length + 1)

end SourceMap

end CellScript
