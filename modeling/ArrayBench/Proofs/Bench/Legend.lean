import ArrayBench.Proofs.Bench.Alignment
import ArrayBench.Proofs.Bench.Writing

/-!
The legend below a table.

Every table of a report is built from its measurements row by row, and a row has a mark exactly if
the fallback was timed for one of its measurements. So the legend stands below the rows exactly if
that is so for some measurement of the table. The lines of a table are counted with it: a blank
line, the heavy line, the title, another blank line, the header and the rule, one for the units if
there are any, one for each row, and two for the legend.
-/

namespace ArrayBench

open Text (OneLine ofLines)

/-! ### Tables on single lines -/

namespace Table

structure SingleLines (t : Table) : Prop where
  title : OneLine t.title
  headers : ∀ c ∈ t.columns, OneLine c.header
  labels : ∀ r ∈ t.rows, OneLine r.label

structure Plain (t : Table) : Prop where
  label : OneLine t.label.header
  units : ∀ c ∈ t.columns, OneLine (c.unit.getD "")
  suffixes : ∀ c ∈ t.columns, OneLine c.suffix

lemma oneLine_indent : OneLine indent := by decide

lemma oneLine_pad (c : LabelColumn) {s : String} (hs : OneLine s) : OneLine (c.pad s) := by
  unfold LabelColumn.pad
  split
  · exact hs.right _
  · exact hs.left _

lemma oneLine_head (c : Column) {s : String} (hs : OneLine s) : OneLine (c.head s) :=
  (OneLine.spaces _).append (hs.right _)

lemma oneLine_render (c : Column) (hsuffix : OneLine c.suffix) (cell : Cell) :
    OneLine (c.render cell) := by
  refine ((OneLine.spaces _).append ?_).append hsuffix
  cases cell with
  | float x => exact (OneLine.fixedText _ _).right _
  | int n => exact (OneLine.toString n).right _
  | marked x => exact ((OneLine.fixedText _ _).right _).append (by decide)

variable {t : Table}

lemma oneLine_rowLine (hp : t.Plain) {r : Row} (hr : OneLine r.label) : OneLine (t.rowLine r) := by
  refine (oneLine_indent.append (oneLine_pad _ hr)).append (.join fun s hs => ?_)
  rw [← List.map_uncurry_zip_eq_zipWith] at hs
  obtain ⟨⟨c, cell⟩, hmem, rfl⟩ := List.mem_map.mp hs
  exact oneLine_render c (hp.suffixes c (List.of_mem_zip hmem).1) cell

lemma oneLine_lines (hp : t.Plain) (hs : t.SingleLines) : ∀ line ∈ t.lines, OneLine line := by
  have hheader : OneLine t.headerLine := by
    refine ((oneLine_indent.append (oneLine_pad _ hp.label)).append (.join fun s h => ?_)).trimEnd
    obtain ⟨c, hc, rfl⟩ := List.mem_map.mp h
    exact oneLine_head c (hs.headers c hc)
  have hunits : OneLine t.unitLine := by
    refine ((oneLine_indent.append (.spaces _)).append (.join fun s h => ?_)).trimEnd
    obtain ⟨c, hc, rfl⟩ := List.mem_map.mp h
    exact oneLine_head c (hp.units c hc)
  have hrule : OneLine t.rule := oneLine_indent.append (.rep (by decide) _)
  have hbanner : OneLine (Text.rep t.banner '━') := .rep (by decide) _
  have htitle : OneLine (indent ++ t.title) := oneLine_indent.append hs.title
  have hrows : ∀ line ∈ t.rows.map t.rowLine, OneLine line := by
    intro line hline
    obtain ⟨r, hr, rfl⟩ := List.mem_map.mp hline
    exact oneLine_rowLine hp (hs.labels r hr)
  have hclosing : ∀ line ∈ t.closing, OneLine line := by
    unfold closing
    split <;> decide
  have hhead : ∀ line ∈ t.head, OneLine line := by
    unfold head
    split <;> simp [hheader, hunits, hrule]
  have hempty : OneLine "" := by decide
  simp only [lines, opening, List.cons_append, List.forall_mem_cons, List.forall_mem_append,
    List.nil_append]
  exact ⟨hempty, hbanner, htitle, hempty, ⟨hhead, hrows⟩, hclosing⟩

lemma length_head (t : Table) :
    t.head.length = 2 + if t.columns.any fun c => c.unit.isSome then 1 else 0 := by
  unfold head
  split <;> rfl

lemma length_lines (t : Table) : t.lines.length =
    6 + t.rows.length + (if t.columns.any fun c => c.unit.isSome then 1 else 0) +
      if t.hasMarks then 2 else 0 := by
  have hclosing : t.closing.length = if t.hasMarks then 2 else 0 := by
    unfold closing
    split <;> rfl
  rw [lines, List.length_append, hclosing]
  simp only [opening, List.length_append, List.length_cons, List.length_nil, List.length_map,
    length_head]
  omega

end Table

/-! ### Requests -/

namespace Report

/-- A table of a report that is asked for, with what it is to show. -/
inductive Request where
  | dtypeGrid (title : String) (names : List String) (width : Nat)
      (rows : List (DType × List Measurement))
  | sizeSweep (title : String) (points : List Measurement)
  | dtypeList (title : String) (rows : List Measurement)
  | matmulSquare (title : String) (points : List Measurement)
  | matmulDTypes (title : String) (rows : List Measurement)
  | matmulVariants (title : String) (rows : List Measurement)

namespace Request

def table : Request → Except BenchError Table
  | dtypeGrid title names width rows => Report.dtypeGrid title names width rows
  | sizeSweep title points => Report.sizeSweep title points
  | dtypeList title rows => Report.dtypeList title rows
  | matmulSquare title points => Report.matmulSquare title points
  | matmulDTypes title rows => Report.matmulDTypes title rows
  | matmulVariants title rows => Report.matmulVariants title rows

def rows : Request → List (List Measurement)
  | dtypeGrid _ _ _ rows => rows.map Prod.snd
  | sizeSweep _ ms | dtypeList _ ms | matmulSquare _ ms | matmulDTypes _ ms | matmulVariants _ ms =>
    ms.map fun m => [m]

def measurements (q : Request) : List Measurement := q.rows.flatten

def HasFallback (q : Request) : Prop := ∃ m ∈ q.measurements, m.usedFallback

instance (q : Request) : Decidable q.HasFallback :=
  inferInstanceAs (Decidable (∃ m ∈ q.measurements, m.usedFallback))

def Fits : Request → Prop
  | dtypeGrid _ _ width _ => width ≤ Text.maxField
  | sizeSweep _ _ | dtypeList _ _ | matmulSquare _ _ | matmulDTypes _ _ | matmulVariants _ _ => True

end Request

/-- The table has a row for each list of measurements, marked if one of them is a fallback. -/
structure Marks (t : Table) (rows : List (List Measurement)) : Prop where
  rows : t.rows.map (fun r => r.cells.any Cell.isMarked) =
    rows.map fun ms => ms.any Measurement.usedFallback
  plain : t.Plain

lemma Marks.length_rows {t : Table} {rows : List (List Measurement)} (h : Marks t rows) :
    t.rows.length = rows.length := by
  have hlength := congrArg List.length h.rows
  rwa [List.length_map, List.length_map] at hlength

lemma Marks.hasMarks_iff {t : Table} {rows : List (List Measurement)} (h : Marks t rows) :
    t.hasMarks = true ↔ ∃ m ∈ rows.flatten, m.usedFallback := by
  have hany : t.hasMarks = rows.any fun ms => ms.any Measurement.usedFallback := by
    have hany := congrArg (List.any · id) h.rows
    rwa [List.any_map, List.any_map] at hany
  rw [hany]
  simp only [List.any_eq_true, List.mem_flatten]
  constructor
  · rintro ⟨ms, hms, m, hm, hfallback⟩
    exact ⟨m, ⟨ms, hms, hm⟩, hfallback⟩
  · rintro ⟨m, ⟨ms, hms, hm⟩, hfallback⟩
    exact ⟨ms, hms, m, hm, hfallback⟩

lemma ofRows_marks {α : Type} {title : String} {banner : Nat} {left : LabelColumn}
    {columns : List Column} {items : List α} {label : α → String} {cells : α → List Cell}
    {t : Table} (ht : ofRows (.make title banner left columns) items label cells = .ok t)
    (shown : α → List Measurement)
    (hmarks : ∀ x, (cells x).any Cell.isMarked = (shown x).any Measurement.usedFallback)
    (hleft : OneLine left.header)
    (hcolumns : ∀ c ∈ columns, OneLine (c.unit.getD "") ∧ OneLine c.suffix) :
    Marks t (items.map shown) := by
  obtain ⟨-, rfl⟩ := ofRows_eq_ok.mp ht
  refine ⟨?_, hleft, fun c hc => (hcolumns c hc).1, fun c hc => (hcolumns c hc).2⟩
  simp [Table.make, Function.comp_def, hmarks]

lemma ofRows_fits {α : Type} {t₀ t : Table} {items : List α} {label : α → String}
    {cells : α → List Cell} (ht : ofRows t₀ items label cells = .ok t) (h : t₀.Fits) : t.Fits := by
  obtain ⟨-, rfl⟩ := ofRows_eq_ok.mp ht
  exact ⟨h.banner, h.label, h.columns⟩

lemma gridColumns_plain (names : List String) (width : Nat) : ∀ c ∈ gridColumns names width,
    OneLine (c.unit.getD "") ∧ OneLine c.suffix := by
  intro c hc
  rcases List.mem_append.mp hc with hc | hc
  · obtain ⟨name, -, rfl⟩ := List.mem_map.mp hc
    exact ⟨(by decide : OneLine "(us)"), (by decide : OneLine "")⟩
  · obtain ⟨name, -, rfl⟩ := List.mem_map.mp hc
    exact ⟨(by decide : OneLine "(Mop/s)"), (by decide : OneLine "")⟩

namespace Request

variable {q : Request} {t : Table}

/-- Whatever kind of table it is, each row has the marks of its measurements. -/
lemma table_marks (ht : q.table = .ok t) : Marks t q.rows := by
  cases q with
  | dtypeGrid title names width rows =>
    refine ofRows_marks ht Prod.snd (fun r => ?_) (by decide) (gridColumns_plain names width)
    simp [time, mops, Function.comp_def]
  | sizeSweep title points =>
    refine ofRows_marks ht (fun m => [m]) (fun m => ?_) (by decide) (by decide)
    simp [time, mops]
  | dtypeList title rows =>
    refine ofRows_marks ht (fun m => [m]) (fun m => ?_) (by decide) (by decide)
    simp [time, mops]
  | matmulSquare title points =>
    refine ofRows_marks ht (fun m => [m]) (fun m => ?_) (by decide) (by decide)
    simp [time, gflops]
  | matmulDTypes title rows =>
    refine ofRows_marks ht (fun m => [m]) (fun m => ?_) (by decide) (by decide)
    simp [time, gflops]
  | matmulVariants title rows =>
    refine ofRows_marks ht (fun m => [m]) (fun m => ?_) (by decide) (by decide)
    simp [time, gflops]

lemma table_fits (ht : q.table = .ok t) (hq : q.Fits) : t.Fits := by
  cases q with
  | dtypeGrid title names width rows =>
    exact ofRows_fits ht
      (Table.make_fits title (by decide) (by decide) (gridColumns_fits names hq))
  | sizeSweep title points | dtypeList title rows =>
    exact ofRows_fits ht (Table.make_fits title (by decide) (by decide) (by decide))
  | matmulSquare title points | matmulDTypes title rows | matmulVariants title rows =>
    exact ofRows_fits ht (Table.make_fits title (by decide) (by decide) (by decide))

/-- What a table for the request is made of: below its rows stands the legend if the fallback was
timed for one of the measurements, and else nothing. -/
structure Rendered (q : Request) (t : Table) : Prop where
  lines : t.lines = "" :: t.opening ++ t.head ++ t.rows.map t.rowLine ++
    if q.HasFallback then ["", "  * output buffer rejected; allocating call form timed"] else []
  rows : t.rows.length = q.rows.length
  length : t.lines.length = 6 + t.rows.length +
    (if t.columns.any fun c => c.unit.isSome then 1 else 0) + if q.HasFallback then 2 else 0
  feeds : t.SingleLines → (ofLines t.lines).toList.count '\n' = t.lines.length
  text : ∀ s, t.rendering = .ok s → s = ofLines t.lines
  /-- All of it is written if no field is too wide to be laid out. -/
  rendering : q.Fits → t.rendering = .ok (ofLines t.lines)

/-- **The legend tells of fallbacks**: a table of a report, of whatever kind, has the legend below
its rows exactly if the fallback was timed for one of its measurements, and it has as many lines as
it has rows, and six, one for units and two for the legend. -/
theorem legend_tells_fallback (ht : q.table = .ok t) : q.Rendered t := by
  have hmarks := table_marks ht
  have hlegend : t.hasMarks = true ↔ q.HasFallback := hmarks.hasMarks_iff
  refine ⟨?_, hmarks.length_rows, ?_, fun hs => ?_, fun s hs => ?_,
    fun hq => (table_fits ht hq).rendering_eq⟩
  · have hclosing : t.closing = if q.HasFallback then
        ["", "  * output buffer rejected; allocating call form timed"] else [] := by
      rw [Table.closing, if_congr hlegend rfl rfl]
      rfl
    rw [Table.lines, hclosing]
  · rw [t.length_lines, if_congr hlegend rfl rfl]
  · exact Text.count_ofLines (Table.oneLine_lines hmarks.plain hs)
  · exact (Table.rendering_eq_ok.mp hs).2.symm

/-- Quotients on two types of integers, with the fallback timed for one of them. -/
def quotients : Request :=
  .dtypeGrid "QUOTIENTS" ["div"] 8
    [(.int64, [.make ⟨.binary .div, .int64, .contiguous 1000 2, .standard⟩ 4 true]),
      (.int32, [.make ⟨.binary .div, .int32, .contiguous 1000 2, .standard⟩ 4 false])]

theorem legend_tells_fallback_quotients : ∃ t, quotients.table = .ok t ∧ quotients.Rendered t ∧
    quotients.HasFallback ∧ t.lines.length = 11 := by
  obtain ⟨t, ht⟩ : ∃ t, quotients.table = .ok t := ⟨_, rfl⟩
  have hrendered := legend_tells_fallback ht
  have hfallback : quotients.HasFallback := by
    refine ⟨.make ⟨.binary .div, .int64, .contiguous 1000 2, .standard⟩ 4 true, ?_, rfl⟩
    exact List.mem_cons_self
  refine ⟨t, ht, hrendered, hfallback, ?_⟩
  obtain rfl := Except.ok.inj ht
  rw [hrendered.length, if_pos hfallback]
  rfl

end Request

end Report

end ArrayBench
