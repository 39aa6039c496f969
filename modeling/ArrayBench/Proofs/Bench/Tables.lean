import Mathlib.Data.List.Forall2
import Mathlib.Tactic.Lemma
import Mathlib.Tactic.SplitIfs
import ArrayBench.Bench.Report
import ArrayBench.Proofs.Step

/-!
Tables as they are built and written.

A table of a report is built row by row, and a row is taken if it has a cell for each column. A cell
that shows a measurement is marked exactly if the fallback was timed. Writing a table checks the
sizes of its fields on the way. If these are small all lines are written, and a sink without a limit
takes them.
-/

namespace ArrayBench

/-! ### Sinks without a limit -/

/-- The step writes these lines to a sink without a limit, after what is there. -/
def Prints (x : Step BenchError Sink Unit) (lines : List String) : Prop :=
  ∀ s : Sink, s.limit = none →
    ∃ t, x s = .ok () t ∧ t.limit = none ∧ t.lines.toList = s.lines.toList ++ lines

namespace Prints

variable {x y : Step BenchError Sink Unit} {ls ms : List String}

lemma writeLine (line : String) : Prints (Sink.writeLine line) [line] := by
  intro s hs
  refine ⟨⟨s.limit, s.lines.push line, s.bytes + line.utf8ByteSize + 1⟩, ?_, hs,
    Array.toList_push⟩
  simp [Sink.writeLine, hs]

lemma bind (h : Prints x ls) (h' : Prints y ms) : Prints (do x; y) (ls ++ ms) := by
  intro s hs
  obtain ⟨t, ht, hlimit, hlines⟩ := h s hs
  obtain ⟨u, hu, hlimit', hlines'⟩ := h' t hlimit
  refine ⟨u, by rw [Step.bind_of_ok ht, hu], hlimit', ?_⟩
  rw [hlines', hlines, List.append_assoc]

lemma check {c : Except BenchError Unit} (hc : c = .ok ()) (h : Prints y ls) :
    Prints (do liftM c; y) ls := by
  intro s hs
  rw [hc, Step.ok_bind]
  exact h s hs

lemma forM {ι : Type} {is : List ι} {f : ι → Step BenchError Sink Unit} {ls : ι → List String}
    (h : ∀ i ∈ is, Prints (f i) (ls i)) : Prints (is.forM f) (is.flatMap ls) := by
  induction is with
  | nil => exact fun s hs => ⟨s, rfl, hs, (List.append_nil _).symm⟩
  | cons i is ih => exact (h i (by simp)).bind (ih fun j hj => h j (by simp [hj]))

lemma writeLines (lines : List String) : Prints (Sink.writeLines lines) lines := by
  have h : Prints (lines.forM Sink.writeLine) (lines.flatMap fun line => [line]) :=
    forM fun line _ => writeLine line
  rwa [List.flatMap_singleton'] at h

end Prints

/-! ### Tables that can be laid out -/

structure Column.Fits (c : Column) : Prop where
  width : c.width ≤ Text.maxField
  precision : c.precision ≤ Text.maxField
  inner : c.inner ≤ Text.maxField
  gap : c.gap ≤ Text.maxBytes

instance (c : Column) : Decidable c.Fits :=
  decidable_of_iff (c.width ≤ Text.maxField ∧ c.precision ≤ Text.maxField ∧
      c.inner ≤ Text.maxField ∧ c.gap ≤ Text.maxBytes)
    ⟨fun ⟨hw, hp, hi, hg⟩ => ⟨hw, hp, hi, hg⟩, fun ⟨hw, hp, hi, hg⟩ => ⟨hw, hp, hi, hg⟩⟩

structure Table.Fits (t : Table) : Prop where
  banner : t.banner ≤ Text.maxBytes / '━'.utf8Size
  label : t.label.width ≤ Text.maxField
  columns : ∀ c ∈ t.columns, c.Fits

namespace Table

lemma make_fits (title : String) {banner : Nat} {label : LabelColumn} {columns : List Column}
    (hbanner : banner ≤ Text.maxBytes / '━'.utf8Size) (hlabel : label.width ≤ Text.maxField)
    (hcolumns : ∀ c ∈ columns, c.Fits) : (make title banner label columns).Fits :=
  ⟨hbanner, hlabel, hcolumns⟩

lemma checkSizes_ok {limit : Nat} {sizes : List Nat} (h : ∀ n ∈ sizes, n ≤ limit) :
    checkSizes limit sizes = .ok () := by
  have hfind : sizes.find? (limit < ·) = none := by
    refine List.find?_eq_none.mpr fun n hn => ?_
    have := h n hn
    simp only [decide_eq_true_eq]
    omega
  rw [checkSizes, hfind]

variable {t : Table}

lemma Fits.checkOpening (h : t.Fits) : t.checkOpening = .ok () :=
  checkSizes_ok fun _ hn => (List.mem_singleton.mp hn).symm ▸ h.banner

lemma Fits.checkHead (h : t.Fits) : t.checkHead = .ok () := by
  have hfields : ∀ n ∈ t.label.width :: t.columns.map Column.inner, n ≤ Text.maxField := by
    intro n hn
    rcases List.mem_cons.mp hn with rfl | hn
    · exact h.label
    · obtain ⟨c, hc, rfl⟩ := List.mem_map.mp hn
      exact (h.columns c hc).inner
  have hgaps : ∀ n ∈ t.columns.map Column.gap, n ≤ Text.maxBytes := by
    intro n hn
    obtain ⟨c, hc, rfl⟩ := List.mem_map.mp hn
    exact (h.columns c hc).gap
  rw [Table.checkHead, checkSizes_ok hfields, exceptOk_bind, checkSizes_ok hgaps]

lemma fields_le {c : Column} (h : c.Fits) (cell : Cell) :
    ∀ n ∈ c.fields cell, n ≤ Text.maxField := by
  intro n hn
  have hn : n = c.width ∨ n = c.precision := by
    cases cell <;> simp only [Column.fields, List.mem_cons, List.not_mem_nil, or_false] at hn <;>
      tauto
  rcases hn with rfl | rfl
  · exact h.width
  · exact h.precision

lemma Fits.checkRow (h : t.Fits) (r : Row) : t.checkRow r = .ok () := by
  refine checkSizes_ok ?_
  have hcolumns := h.columns
  generalize t.columns = columns at hcolumns
  generalize r.cells = cells
  -- columns and cells side by side; what one of the lists has more is not laid out
  induction columns generalizing cells with
  | nil => simp
  | cons c columns ih =>
    cases cells with
    | nil => simp
    | cons cell cells =>
      intro n hn
      rw [List.zipWith_cons_cons, List.flatten_cons, List.mem_append] at hn
      rcases hn with hn | hn
      · exact fields_le (hcolumns c (by simp)) cell n hn
      · exact ih (fun c' hc' => hcolumns c' (by simp [hc'])) cells n hn

lemma Fits.write_prints (h : t.Fits) : Prints t.write t.lines := by
  have hrows : Prints (t.rows.forM fun r => do
      t.checkRow r
      Sink.writeLine (t.rowLine r)) (t.rows.flatMap fun r => [t.rowLine r]) :=
    .forM fun r _ => .check (h.checkRow r) (.writeLine _)
  rw [← List.map_eq_flatMap] at hrows
  have hwrite := (Prints.writeLine "").bind <| .check h.checkOpening <|
    (Prints.writeLines t.opening).bind <| .check h.checkHead <|
    (Prints.writeLines t.head).bind <| hrows.bind <| .writeLines t.closing
  rw [List.singleton_append, ← List.append_assoc, ← List.append_assoc] at hwrite
  exact hwrite

end Table

/-! ### Rows -/

namespace Report

lemma push_eq_ok {t t' : Table} {label : String} {cells : List Cell} :
    t.push label cells = .ok t' ↔
      cells.length = t.columns.length ∧ t' = { t with rows := t.rows ++ [⟨label, cells⟩] } := by
  unfold Table.push
  split_ifs with h <;> simp [h, eq_comm]

/-- A table is built if each row has a cell for each column. -/
lemma ofRows_eq_ok {α : Type} {t t' : Table} {items : List α} {label : α → String}
    {cells : α → List Cell} :
    ofRows t items label cells = .ok t' ↔
      (∀ x ∈ items, (cells x).length = t.columns.length) ∧
        t' = { t with rows := t.rows ++ items.map fun x => ⟨label x, cells x⟩ } := by
  unfold ofRows
  induction items generalizing t with
  | nil => simp [pure, Except.pure, eq_comm]
  | cons x items ih =>
    simp only [List.foldlM_cons, exceptBind_eq_ok, push_eq_ok, List.forall_mem_cons]
    constructor
    · rintro ⟨-, ⟨hx, rfl⟩, htail⟩
      obtain ⟨hitems, rfl⟩ := ih.mp htail
      exact ⟨⟨hx, hitems⟩, by simp⟩
    · rintro ⟨⟨hx, hitems⟩, rfl⟩
      exact ⟨_, ⟨hx, rfl⟩, ih.mpr ⟨hitems, by simp⟩⟩

/-! ### Marks -/

@[simp] lemma isMarked_float (x : Float) : (Cell.float x).isMarked = false := rfl

@[simp] lemma isMarked_int (n : Nat) : (Cell.int n).isMarked = false := rfl

@[simp] lemma isMarked_timed (m : Measurement) (x : Float) :
    (timed m x).isMarked = m.usedFallback := by
  unfold timed
  cases m.usedFallback <;> rfl

end Report

def Row.marks (r : Row) : String × List Bool := (r.label, r.cells.map Cell.isMarked)

namespace Table

def Unmarked (t : Table) : Prop := ∀ r ∈ t.rows, ∀ c ∈ r.cells, c.isMarked = false

/-- The table has a title and a number of rows, and can be laid out. -/
structure Lists (t : Table) (title : String) (n : Nat) : Prop extends t.Fits where
  title : t.title = title
  rows : t.rows.length = n

end Table

namespace Report

open Table (Lists Unmarked)

lemma ofRows_lists {α : Type} {title : String} {banner : Nat} {left : LabelColumn}
    {columns : List Column} {items : List α} (label : α → String) {cells : α → List Cell}
    (hfits : (Table.make title banner left columns).Fits)
    (hcells : ∀ x ∈ items, (cells x).length = columns.length) :
    ∃ t, ofRows (.make title banner left columns) items label cells = .ok t ∧
      Lists t title items.length ∧ t.columns = columns ∧
      t.rows = items.map fun x => ⟨label x, cells x⟩ :=
  ⟨_, ofRows_eq_ok.mpr ⟨hcells, rfl⟩, ⟨⟨hfits.banner, hfits.label, hfits.columns⟩, rfl,
    List.length_map _⟩, rfl, List.nil_append _⟩

/-! ### Grids -/

def gridColumns (names : List String) (width : Nat) : List Column :=
  names.map (fun name => { header := name, width, precision := 2, unit := some "(us)" }) ++
    names.zipIdx.map fun (name, i) =>
      { header := name, width, precision := 1, unit := some "(Mop/s)",
        gap := if i = 0 then 3 else 1 }

lemma length_gridColumns (names : List String) (width : Nat) :
    (gridColumns names width).length = names.length + names.length := by
  simp [gridColumns]

lemma headers_gridColumns (names : List String) (width : Nat) :
    (gridColumns names width).map Column.header = names ++ names := by
  simp [gridColumns, Function.comp_def]

lemma gridColumns_fits (names : List String) {width : Nat} (h : width ≤ Text.maxField) :
    ∀ c ∈ gridColumns names width, c.Fits := by
  intro c hc
  rcases List.mem_append.mp hc with hc | hc
  · obtain ⟨name, -, rfl⟩ := List.mem_map.mp hc
    exact ⟨h, (by decide : 2 ≤ Text.maxField), h, (by decide : 1 ≤ Text.maxBytes)⟩
  · obtain ⟨⟨name, i⟩, -, rfl⟩ := List.mem_map.mp hc
    refine ⟨h, (by decide : 1 ≤ Text.maxField), h, ?_⟩
    change (if i = 0 then 3 else 1) ≤ Text.maxBytes
    split <;> decide

lemma dtypeGrid_lists (title : String) {names : List String} {width : Nat}
    {rows : List (DType × List Measurement)} (hwidth : width ≤ Text.maxField)
    (hrows : ∀ r ∈ rows, r.2.length = names.length) :
    ∃ t, dtypeGrid title names width rows = .ok t ∧ Lists t title rows.length ∧
      t.columns.map Column.header = names ++ names ∧
      t.rows.map Row.marks = rows.map fun r =>
        (r.1.name, r.2.map Measurement.usedFallback ++ r.2.map Measurement.usedFallback) := by
  have hfits : (Table.make title sectionBanner (labelLeft "dtype" 8)
      (gridColumns names width)).Fits :=
    Table.make_fits title (by decide) (by decide) (gridColumns_fits names hwidth)
  have hcells : ∀ r ∈ rows,
      (r.2.map time ++ r.2.map mops).length = (gridColumns names width).length := by
    intro r hr
    rw [List.length_append, List.length_map, List.length_map, length_gridColumns, hrows r hr]
  obtain ⟨t, ht, hlists, hcolumns, hcells⟩ := ofRows_lists (fun r => r.1.name) hfits hcells
  -- times first, then throughputs: every name and every mark comes twice
  refine ⟨t, ht, hlists, ?_, ?_⟩
  · rw [hcolumns, headers_gridColumns]
  · rw [hcells]
    simp [Row.marks, time, mops, Function.comp_def]

/-! ### Tables without marks -/

/-- Measurements without a fallback leave no mark. -/
lemma ofRows_unmarked {title : String} {banner : Nat} {left : LabelColumn}
    {columns : List Column} {ms : List Measurement} (label : Measurement → String)
    {cells : Measurement → List Cell}
    (hfits : (Table.make title banner left columns).Fits)
    (hcells : ∀ m, (cells m).length = columns.length)
    (hmarks : ∀ m, m.usedFallback = false → ∀ c ∈ cells m, c.isMarked = false)
    (h : ∀ m ∈ ms, m.usedFallback = false) :
    ∃ t, ofRows (.make title banner left columns) ms label cells = .ok t ∧
      Lists t title ms.length ∧ t.Unmarked := by
  obtain ⟨t, ht, hlists, -, hrows⟩ := ofRows_lists label hfits fun m _ => hcells m
  refine ⟨t, ht, hlists, fun r hr => ?_⟩
  rw [hrows] at hr
  obtain ⟨m, hm, rfl⟩ := List.mem_map.mp hr
  exact hmarks m (h m hm)

variable {ms : List Measurement} (title : String)

lemma sizeSweep_unmarked (h : ∀ m ∈ ms, m.usedFallback = false) :
    ∃ t, sizeSweep title ms = .ok t ∧ Lists t title ms.length ∧ t.Unmarked := by
  refine ofRows_unmarked _ (Table.make_fits title (by decide) (by decide) (by decide))
    (fun _ => rfl) (fun m hm => ?_) h
  simp [time, mops, hm]

lemma dtypeList_unmarked (h : ∀ m ∈ ms, m.usedFallback = false) :
    ∃ t, dtypeList title ms = .ok t ∧ Lists t title ms.length ∧ t.Unmarked := by
  refine ofRows_unmarked _ (Table.make_fits title (by decide) (by decide) (by decide))
    (fun _ => rfl) (fun m hm => ?_) h
  simp [time, mops, hm]

lemma matmulSquare_unmarked (h : ∀ m ∈ ms, m.usedFallback = false) :
    ∃ t, matmulSquare title ms = .ok t ∧ Lists t title ms.length ∧ t.Unmarked := by
  refine ofRows_unmarked _ (Table.make_fits title (by decide) (by decide) (by decide))
    (fun _ => rfl) (fun m hm => ?_) h
  simp [time, gflops, hm]

lemma matmulDTypes_unmarked (h : ∀ m ∈ ms, m.usedFallback = false) :
    ∃ t, matmulDTypes title ms = .ok t ∧ Lists t title ms.length ∧ t.Unmarked := by
  refine ofRows_unmarked _ (Table.make_fits title (by decide) (by decide) (by decide))
    (fun _ => rfl) (fun m hm => ?_) h
  simp [time, gflops, hm]

lemma matmulVariants_unmarked (h : ∀ m ∈ ms, m.usedFallback = false) :
    ∃ t, matmulVariants title ms = .ok t ∧ Lists t title ms.length ∧ t.Unmarked := by
  refine ofRows_unmarked _ (Table.make_fits title (by decide) (by decide) (by decide))
    (fun _ => rfl) (fun m hm => ?_) h
  simp [time, gflops, hm]

end Report

end ArrayBench
