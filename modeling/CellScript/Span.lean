/-!
# Source regions

A `Span` says where in the program text something stands. Byte offsets (`lo`, `hi`) and 1-based
positions (`line`, `column`, `endLine`, `endColumn`) are kept side by side; a region that was not
read from text is `Span.null`, with every field zero.
-/

namespace CellScript

/-- A region of a source file. File `0` stands for "no file". -/
structure Span where
  file : Nat
  lo : Nat
  hi : Nat
  line : Nat
  column : Nat
  endLine : Nat
  endColumn : Nat
  deriving DecidableEq, Repr, Inhabited

namespace Span

/-- The region of things that were not read from text. -/
def null : Span := ⟨0, 0, 0, 0, 0, 0, 0⟩

/-- A region given by byte offsets only. -/
def ofOffsets (file lo hi : Nat) : Span := ⟨file, lo, hi, 0, 0, 0, 0⟩

/-- A region given by positions only, both ends included. -/
def ofLines (file line column endLine endColumn : Nat) : Span :=
  ⟨file, 0, 0, line, column, endLine, endColumn⟩

/-- Neither offsets nor a line are known. The file does not matter. -/
def isNull (s : Span) : Bool := s.lo == 0 && s.hi == 0 && s.line == 0

/-- Lines count from one, so line zero means that no position is known. -/
def hasPosition (s : Span) : Bool := s.line != 0

/-- The span itself if it has a position. -/
def positioned? (s : Span) : Option Span := if s.hasPosition then some s else none

/-! ## Positions in reading order -/

/-- The order of positions in a text: by line, then by column. -/
def Before (p q : Nat × Nat) : Prop := p.1 < q.1 ∨ (p.1 = q.1 ∧ p.2 ≤ q.2)

instance (p q : Nat × Nat) : Decidable (Before p q) := by unfold Before; infer_instance

theorem Before.refl (p : Nat × Nat) : Before p p := by unfold Before; omega

theorem Before.trans {p q r : Nat × Nat} (hpq : Before p q) (hqr : Before q r) : Before p r := by
  unfold Before at *; omega

/-- First position of the region. -/
def start (s : Span) : Nat × Nat := (s.line, s.column)

/-- Last position of the region. -/
def stop (s : Span) : Nat × Nat := (s.endLine, s.endColumn)

/-- The position lies in the region. A region without a position contains nothing. -/
def contains (s : Span) (line column : Nat) : Bool :=
  s.hasPosition && decide (Before s.start (line, column)) && decide (Before (line, column) s.stop)

/-- `inner` lies inside `outer`; files are not compared. -/
def within (inner outer : Span) : Bool :=
  decide (Before outer.start inner.start) && decide (Before inner.stop outer.stop)

theorem within_refl (s : Span) : s.within s = true := by simp [within, Before.refl]

theorem within_trans {a b c : Span} (hab : a.within b = true) (hbc : b.within c = true) :
    a.within c = true := by
  simp only [within, Bool.and_eq_true, decide_eq_true_eq] at *
  exact ⟨hbc.1.trans hab.1, hab.2.trans hbc.2⟩

/-- Short text of a region: its position, or its offsets when no position is known. -/
def text (s : Span) : String :=
  if s.line == 0 then
    "Span(" ++ toString s.file ++ ":" ++ toString s.lo ++ "-" ++ toString s.hi ++ ")"
  else
    toString s.file ++ ":" ++ toString s.line ++ ":" ++ toString s.column

end Span

end CellScript
