import ArrayBench.Proofs.Bench.Alignment
import ArrayBench.Proofs.Text.Characters

/-!
Where columns end.

A line is its label and a block for each column. If the texts fit, a block is as wide as the column
and holds its text at the right end, after blanks. So every column ends at the same character in the
header, in the units and in all rows, and a row is as long as the rule. The mark of a number takes
the place of a blank and moves nothing. Widths count the bytes of a suffix where a row has its
characters, which is the same for ASCII suffixes. How numbers are written does not matter here, so
rows are laid out with any text for them.
-/

namespace ArrayBench

/-- How numbers are written: a text for each number of decimal places and each value. -/
abbrev NumberText := Nat → Float → String

def decimals : NumberText := fun precision x => (Decoded.ofFloat x).fixedText precision

/-! ### Blocks -/

/-- The text stands at the right end of a block of `n` characters, after blanks. -/
structure Flush (n : Nat) (s block : String) : Prop where
  blanks : ∃ k, block = Text.spaces k ++ s
  length : block.length = n

lemma Text.spaces_append (m n : Nat) : spaces m ++ spaces n = spaces (m + n) := by
  rw [← String.toList_inj, String.toList_append]
  simp only [spaces, toList_rep, List.replicate_append_replicate]

namespace Flush

variable {n : Nat} {s block : String}

lemma right (h : s.length ≤ n) : Flush n s (Text.right n s) := by
  refine ⟨⟨n - s.length, rfl⟩, ?_⟩
  rw [Text.length_right]
  omega

lemma spaces_append (gap : Nat) (h : Flush n s block) :
    Flush (gap + n) s (Text.spaces gap ++ block) := by
  obtain ⟨⟨k, rfl⟩, hlength⟩ := h
  refine ⟨⟨gap + k, ?_⟩, ?_⟩
  · rw [← String.append_assoc, Text.spaces_append]
  · rw [String.length_append, Text.length_spaces, hlength]

lemma append (h : Flush n s block) (u : String) : Flush (n + u.length) (s ++ u) (block ++ u) := by
  obtain ⟨⟨k, rfl⟩, hlength⟩ := h
  refine ⟨⟨k, String.append_assoc⟩, ?_⟩
  rw [String.length_append, hlength]

end Flush

/-! ### Columns -/

namespace Column

variable (number : NumberText) (c : Column)

def textWith : Cell → String
  | .float x => number c.precision x
  | .int n => toString n
  | .marked x => number c.precision x ++ "*"

/-- A value in the column's width. The mark takes the place of one blank. -/
def bodyWith : Cell → String
  | .float x => Text.right c.width (number c.precision x)
  | .int n => Text.right c.width (toString n)
  | .marked x => Text.right (c.width - 1) (number c.precision x) ++ "*"

def renderWith (cell : Cell) : String :=
  Text.spaces c.gap ++ c.bodyWith number cell ++ c.suffix

/-- The text of a value fits the column, that of a marked one in one place less. -/
def CellFits : Cell → Prop
  | .float x => (number c.precision x).length ≤ c.width
  | .int n => (toString n).length ≤ c.width
  | .marked x => (number c.precision x).length < c.width

variable {number c}

lemma bodyWith_flush {cell : Cell} (h : c.CellFits number cell) :
    Flush c.width (c.textWith number cell) (c.bodyWith number cell) := by
  cases cell with
  | float x => exact .right h
  | int n => exact .right h
  | marked x =>
    have hwidth : c.width - 1 + "*".length = c.width := Nat.sub_add_cancel (Nat.zero_lt_of_lt h)
    have hbody := (Flush.right (Nat.le_sub_one_of_lt h)).append "*"
    rwa [hwidth] at hbody

def extent (c : Column) : Nat := c.gap + c.width + c.suffix.length

lemma renderWith_flush {cell : Cell} (h : c.CellFits number cell) :
    Flush c.extent (c.textWith number cell ++ c.suffix) (c.renderWith number cell) :=
  ((bodyWith_flush h).spaces_append c.gap).append c.suffix

lemma head_flush {s : String} (h : s.length ≤ c.inner) : Flush c.span s (c.head s) :=
  (Flush.right h).spaces_append c.gap

lemma span_eq (c : Column) : c.span = c.extent + Text.continuationBytes c.suffix := by
  rw [span, inner, extent, Text.utf8ByteSize_eq]
  omega

lemma span_of_isAscii (h : Text.IsAscii c.suffix) : c.span = c.extent := by
  rw [span_eq, h.continuationBytes_eq_zero, Nat.add_zero]

end Column

/-! ### Lines -/

namespace Table

variable (number : NumberText) (t : Table) (r : Row)

def rowLineWith : String :=
  indent ++ t.label.pad r.label ++
    String.join (List.zipWith (Column.renderWith number) t.columns r.cells)

lemma rowLineWith_decimals : t.rowLineWith decimals r = t.rowLine r := by
  have hrender : Column.renderWith decimals = Column.render := by
    funext c cell
    cases cell <;> rfl
  rw [rowLineWith, rowLine, hrender]

/-- The header before blanks at its end are dropped. -/
def fullHeader : String :=
  indent ++ t.label.pad t.label.header ++ String.join (t.columns.map fun c => c.head c.header)

def fullUnits : String :=
  indent ++ Text.spaces t.label.width ++
    String.join (t.columns.map fun c => c.head (c.unit.getD ""))

/-- The characters up to the right end of the label and the first `j` columns. -/
def edge (j : Nat) : Nat := 2 + t.label.width + ((t.columns.take j).map Column.span).sum

/-- In the line, column `j` holds this text: it ends at the right edge of the column, with nothing
but blanks between it and the column to the left. -/
def Shows (line : String) (j : Nat) (s : String) : Prop :=
  ∃ left block right, line = left ++ block ++ right ∧ left.length = t.edge j ∧
    (left ++ block).length = t.edge (j + 1) ∧ ∃ k, block = Text.spaces k ++ s

def RowFits : Prop :=
  r.label.length ≤ t.label.width ∧ ∀ p ∈ t.columns.zip r.cells, p.1.CellFits number p.2

def HeaderFits : Prop :=
  t.label.header.length ≤ t.label.width ∧ ∀ c ∈ t.columns, c.header.length ≤ c.inner

def UnitsFit : Prop := ∀ c ∈ t.columns, (c.unit.getD "").length ≤ c.inner

def AsciiSuffixes : Prop := ∀ c ∈ t.columns, Text.IsAscii c.suffix

variable {number t r}

lemma length_lead {c : LabelColumn} {s : String} (h : s.length ≤ c.width) :
    (indent ++ c.pad s).length = 2 + c.width := by
  rw [String.length_append, length_pad, length_indent]
  omega

/-- Blocks as wide as the columns end at their edges. -/
lemma shows_of_flush {lead : String} {blocks : List String} (hlead : lead.length = t.edge 0)
    (hblocks : blocks.map String.length = t.columns.map Column.span) {n : Nat} {s block : String}
    (h : Flush n s block) {j : Nat} (hj : blocks[j]? = some block) :
    t.Shows (lead ++ String.join blocks) j s := by
  obtain ⟨hlt, rfl⟩ := List.getElem?_eq_some_iff.mp hj
  -- what comes before a block is as wide as the columns before its own
  have hlengths (k : Nat) : (String.join (blocks.take k)).length =
      ((t.columns.take k).map Column.span).sum := by
    rw [String.length_join, List.map_take, hblocks, List.map_take]
  have hleft (k : Nat) : (lead ++ String.join (blocks.take k)).length = t.edge k := by
    rw [String.length_append, hlead, hlengths, edge, edge, List.take_zero, List.map_nil,
      List.sum_nil, Nat.add_zero]
  refine ⟨lead ++ String.join (blocks.take j), blocks[j], String.join (blocks.drop (j + 1)), ?_,
    hleft j, ?_, h.blanks⟩
  · have hsplit : blocks = blocks.take j ++ blocks[j] :: blocks.drop (j + 1) := by simp
    conv_lhs => rw [hsplit]
    rw [String.join_append, String.join_cons, String.append_assoc, String.append_assoc]
  · rw [← hleft, ← List.take_concat_get' blocks j hlt, String.join_append, String.join_cons,
      String.join_nil, String.append_empty, String.append_assoc]

lemma map_length_head {s : Column → String} (h : ∀ c ∈ t.columns, (s c).length ≤ c.inner) :
    (t.columns.map fun c => c.head (s c)).map String.length = t.columns.map Column.span := by
  rw [List.map_map]
  exact List.map_congr_left fun c hc => (Column.head_flush (h c hc)).length

lemma shows_head {lead : String} (hlead : lead.length = t.edge 0) {s : Column → String}
    (h : ∀ c ∈ t.columns, (s c).length ≤ c.inner) {j : Nat} {c : Column}
    (hj : t.columns[j]? = some c) :
    t.Shows (lead ++ String.join (t.columns.map fun c => c.head (s c))) j (s c) := by
  refine shows_of_flush hlead (map_length_head h)
    (Column.head_flush (h c (List.mem_of_getElem? hj))) ?_
  rw [List.getElem?_map, hj, Option.map_some]

lemma map_length_renderWith {cs : List Column} {cells : List Cell}
    (hcells : cells.length = cs.length) (h : ∀ p ∈ cs.zip cells, p.1.CellFits number p.2) :
    (List.zipWith (Column.renderWith number) cs cells).map String.length =
      cs.map Column.extent := by
  induction cs generalizing cells with
  | nil => rfl
  | cons c cs ih =>
    obtain ⟨cell, cells, rfl⟩ := List.exists_cons_of_length_eq_add_one hcells
    rw [List.zip_cons_cons, List.forall_mem_cons] at h
    rw [List.zipWith_cons_cons, List.map_cons, List.map_cons, ih (by simpa using hcells) h.2,
      (Column.renderWith_flush h.1).length]

lemma length_rowLineWith (hcells : r.cells.length = t.columns.length) (h : t.RowFits number r) :
    (t.rowLineWith number r).length +
      (t.columns.map fun c => Text.continuationBytes c.suffix).sum = 2 + t.width := by
  have hspans : (t.columns.map Column.span).sum = (t.columns.map Column.extent).sum +
      (t.columns.map fun c => Text.continuationBytes c.suffix).sum := by
    rw [← List.sum_map_add]
    exact congrArg List.sum (List.map_congr_left fun c _ => c.span_eq)
  rw [rowLineWith, String.length_append, length_lead h.1, String.length_join,
    map_length_renderWith hcells h.2, width, hspans]
  omega

lemma map_span_of_ascii (h : t.AsciiSuffixes) :
    t.columns.map Column.span = t.columns.map Column.extent :=
  List.map_congr_left fun c hc => Column.span_of_isAscii (h c hc)

lemma shows_cell (hcells : r.cells.length = t.columns.length) (h : t.RowFits number r)
    (hascii : t.AsciiSuffixes) {j : Nat} {c : Column} {cell : Cell}
    (hj : t.columns[j]? = some c) (hcell : r.cells[j]? = some cell) :
    t.Shows (t.rowLineWith number r) j (c.textWith number cell ++ c.suffix) := by
  have hfits : c.CellFits number cell := by
    refine h.2 (c, cell) (List.mem_of_getElem? (i := j) ?_)
    rw [List.getElem?_zip_eq_some]
    exact ⟨hj, hcell⟩
  refine shows_of_flush (length_lead h.1) ?_ (Column.renderWith_flush hfits) ?_
  · rw [map_length_renderWith hcells h.2, map_span_of_ascii hascii]
  · rw [List.getElem?_zipWith, hj, hcell]

/-! ### Tables -/

/-- How a row of a table lies below the rule, the header and the units. -/
structure Aligned (number : NumberText) (t : Table) (r : Row) : Prop where
  /-- With the decimals of the tables this is the row as it is written. -/
  own : t.rowLineWith decimals r = t.rowLine r
  /-- A row that fits lacks just the continuation bytes of the suffixes. -/
  length : t.RowFits number r → (t.rowLineWith number r).length +
    (t.columns.map fun c => Text.continuationBytes c.suffix).sum = 2 + t.width
  rule : t.RowFits number r → t.AsciiSuffixes →
    (t.rowLineWith number r).length = t.rule.length
  cells : t.RowFits number r → t.AsciiSuffixes → ∀ j c cell, t.columns[j]? = some c →
    r.cells[j]? = some cell →
      t.Shows (t.rowLineWith number r) j (c.textWith number cell ++ c.suffix)
  /-- The header that is written is the full one without the blanks at its end. -/
  headerLine : t.headerLine = Text.trimEnd t.fullHeader
  header : t.HeaderFits → ∀ j c, t.columns[j]? = some c → t.Shows t.fullHeader j c.header
  unitLine : t.unitLine = Text.trimEnd t.fullUnits
  units : t.UnitsFit → ∀ j c, t.columns[j]? = some c → t.Shows t.fullUnits j (c.unit.getD "")

lemma aligned_of_length (number : NumberText) (hcells : r.cells.length = t.columns.length) :
    t.Aligned number r where
  own := rowLineWith_decimals t r
  length := length_rowLineWith hcells
  rule hfit hascii := by
    have hlength := length_rowLineWith hcells hfit
    -- a suffix in ASCII has no bytes but its characters
    have hbytes : (t.columns.map fun c => Text.continuationBytes c.suffix).sum = 0 := by
      refine List.sum_eq_zero fun n hn => ?_
      obtain ⟨c, hc, rfl⟩ := List.mem_map.mp hn
      exact (hascii c hc).continuationBytes_eq_zero
    rw [length_rule, ← hlength, hbytes, Nat.add_zero]
  cells hfit hascii _ _ _ := shows_cell hcells hfit hascii
  headerLine := rfl
  header hfit _ _ := shows_head (length_lead hfit.1) hfit.2
  unitLine := rfl
  units hfit _ _ := by
    refine shows_head ?_ hfit
    rw [String.length_append, Text.length_spaces, length_indent]
    rfl

/-- **Columns line up**: every row that a table has taken is as long as the rule, but for bytes of
suffixes that are no characters, and its values end where the headers and the units end, whichever
of them are marked and however numbers are written. -/
theorem columns_line_up (number : NumberText) {t t' : Table} {rows : List Row}
    (h : Report.ofRows t rows Row.label Row.cells = .ok t') : ∀ r ∈ rows, t'.Aligned number r := by
  obtain ⟨hcells, rfl⟩ := Report.ofRows_eq_ok.mp h
  exact fun r hr => aligned_of_length number (hcells r hr)

def markedTimes : Table where
  title := "SUM"
  banner := 60
  label := ⟨"dtype", 8, false⟩
  columns :=
    [{ header := "time", width := 8, precision := 2, unit := some "(us)" },
      { header := "flops", width := 8, precision := 0, gap := 2, suffix := " K" }]
  rows := [⟨"float32", [.marked 4, .int 512]⟩]

/-- The marked row fits, and so do the header and the units. -/
theorem columns_line_up_marked :
    Report.ofRows { markedTimes with rows := [] } markedTimes.rows Row.label Row.cells =
        .ok markedTimes ∧
      markedTimes.HeaderFits ∧ markedTimes.UnitsFit ∧ markedTimes.AsciiSuffixes ∧
      ∀ r ∈ markedTimes.rows, markedTimes.RowFits decimals r ∧ markedTimes.Aligned decimals r := by
  have hrows : Report.ofRows { markedTimes with rows := [] } markedTimes.rows Row.label Row.cells =
      .ok markedTimes := rfl
  have htime : (decimals 2 4).length < 8 := by decide +kernel
  have hcount : (toString 512).length ≤ 8 := by decide +kernel
  refine ⟨hrows, ⟨by decide, by decide⟩, ?_, ?_,
    fun r hr => ⟨?_, columns_line_up decimals hrows r hr⟩⟩
  · exact List.forall_mem_cons.mpr ⟨by decide, List.forall_mem_singleton.mpr (by decide)⟩
  · exact List.forall_mem_cons.mpr ⟨by decide, List.forall_mem_singleton.mpr (by decide)⟩
  · obtain rfl := List.mem_singleton.mp hr
    exact ⟨by decide, List.forall_mem_cons.mpr ⟨htime, List.forall_mem_singleton.mpr hcount⟩⟩

end Table

end ArrayBench
