import ArrayBench.Number.Shortest
import ArrayBench.Text.Pad
import ArrayBench.Bench.Error
import ArrayBench.Step

/-!
Tables of fixed width.

A table has a label column and numeric columns. Header, units, rule and rows are laid out by the
same spans, so they line up as long as the texts fit their columns. A value measured in the
fallback form is marked by a star, for which a legend is written below the rows.
-/

namespace ArrayBench

structure LabelColumn where
  header : String
  width : Nat
  alignRight : Bool

def LabelColumn.pad (c : LabelColumn) (s : String) : String :=
  if c.alignRight then Text.right c.width s else Text.left c.width s

inductive Cell where
  | float (x : Float)
  | int (n : Nat)
  /-- A value that was measured in the fallback form. -/
  | marked (x : Float)

def Cell.isMarked : Cell → Bool
  | .marked _ => true
  | _ => false

/-- A numeric column, aligned to the right. -/
structure Column where
  header : String
  width : Nat
  precision : Nat
  unit : Option String := none
  gap : Nat := 1
  suffix : String := ""

namespace Column

/-- Width of a value with its suffix, which counts by its bytes. -/
def inner (c : Column) : Nat := c.width + c.suffix.utf8ByteSize

def span (c : Column) : Nat := c.gap + c.inner

def number (c : Column) (x : Float) : String := (Decoded.ofFloat x).fixedText c.precision

/-- A value in the column's width. The mark takes the place of one blank. -/
def body (c : Column) : Cell → String
  | .float x => Text.right c.width (c.number x)
  | .int n => Text.right c.width (toString n)
  | .marked x => Text.right (c.width - 1) (c.number x) ++ "*"

def render (c : Column) (cell : Cell) : String := Text.spaces c.gap ++ c.body cell ++ c.suffix

def head (c : Column) (s : String) : String := Text.spaces c.gap ++ Text.right c.inner s

end Column

structure Row where
  label : String
  cells : List Cell

structure Table where
  title : String
  banner : Nat
  label : LabelColumn
  columns : List Column
  rows : List Row

namespace Table

def make (title : String) (banner : Nat) (label : LabelColumn) (columns : List Column) : Table :=
  ⟨title, banner, label, columns, []⟩

/-- Adds a row with one cell for each column. -/
def push (t : Table) (label : String) (cells : List Cell) : Except BenchError Table :=
  if cells.length = t.columns.length then .ok { t with rows := t.rows ++ [⟨label, cells⟩] }
  else .error (.cellCount t.title t.columns.length cells.length)

def width (t : Table) : Nat := t.label.width + (t.columns.map Column.span).sum

def hasMarks (t : Table) : Bool := t.rows.any fun r => r.cells.any Cell.isMarked

/-! ### Text -/

def indent : String := "  "

def legend : String := "* output buffer rejected; allocating call form timed"

def headerLine (t : Table) : String :=
  Text.trimEnd (indent ++ t.label.pad t.label.header ++
    String.join (t.columns.map fun c => c.head c.header))

def unitLine (t : Table) : String :=
  Text.trimEnd (indent ++ Text.spaces t.label.width ++
    String.join (t.columns.map fun c => c.head (c.unit.getD "")))

def rule (t : Table) : String := indent ++ Text.rep t.width '─'

def rowLine (t : Table) (r : Row) : String :=
  indent ++ t.label.pad r.label ++ String.join (List.zipWith Column.render t.columns r.cells)

def opening (t : Table) : List String := [Text.rep t.banner '━', indent ++ t.title, ""]

def head (t : Table) : List String :=
  t.headerLine :: (if t.columns.any fun c => c.unit.isSome then [t.unitLine] else []) ++ [t.rule]

def closing (t : Table) : List String := if t.hasMarks then ["", indent ++ legend] else []

def lines (t : Table) : List String :=
  "" :: t.opening ++ t.head ++ t.rows.map t.rowLine ++ t.closing

end Table

/-! ### Writing -/

/-- A place that takes text, at most `limit` bytes of it. -/
structure Sink where
  limit : Option Nat
  lines : Array String
  bytes : Nat

namespace Sink

def empty (limit : Option Nat) : Sink := ⟨limit, #[], 0⟩

/-- Writes a line and its end, or nothing if that is too much. -/
def writeLine (line : String) : Step BenchError Sink Unit := fun s =>
  let bytes := s.bytes + line.utf8ByteSize + 1
  if s.limit.all (bytes ≤ ·) then .ok () ⟨s.limit, s.lines.push line, bytes⟩
  else .error .sinkFull s

def writeLines (lines : List String) : Step BenchError Sink Unit := lines.forM writeLine

def text (s : Sink) : String := String.join (s.lines.toList.map (· ++ "\n"))

end Sink

/-- The sizes of the fields that a cell's text is laid out in. -/
def Column.fields (c : Column) : Cell → List Nat
  | .int _ => [c.width]
  | _ => [c.width, c.precision]

namespace Table

/-- Checks sizes against the largest one that can be laid out. -/
def checkSizes (limit : Nat) (sizes : List Nat) : Except BenchError Unit :=
  match sizes.find? (limit < ·) with
  | some n => .error (.tooWide n)
  | none => .ok ()

def checkOpening (t : Table) : Except BenchError Unit :=
  checkSizes (Text.maxBytes / '━'.utf8Size) [t.banner]

def checkHead (t : Table) : Except BenchError Unit := do
  checkSizes Text.maxField (t.label.width :: t.columns.map Column.inner)
  checkSizes Text.maxBytes (t.columns.map Column.gap)

def checkRow (t : Table) (r : Row) : Except BenchError Unit :=
  checkSizes Text.maxField (List.zipWith Column.fields t.columns r.cells).flatten

/-- Writes the lines of a table in order, each part after the check that it can be laid out. -/
def write (t : Table) : Step BenchError Sink Unit := do
  Sink.writeLine ""
  t.checkOpening
  Sink.writeLines t.opening
  t.checkHead
  Sink.writeLines t.head
  t.rows.forM fun r => do
    t.checkRow r
    Sink.writeLine (t.rowLine r)
  Sink.writeLines t.closing

end Table

end ArrayBench
