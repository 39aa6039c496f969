import Mathlib.Algebra.BigOperators.Group.List.Basic
import Mathlib.Data.Nat.Digits.Defs
import ArrayBench.Proofs.Bench.Tables

/-!
How long rows are.

A text is padded to the width of its field, and one that is wider sticks out by the characters it
has too many. So a row is as long as the rule, but for what its label and its numbers stick out.
The labels of a report are names of element types, sizes, and the labels of matrix variants. Two of
the latter are one character wider than their column.
-/

namespace ArrayBench

/-! ### Cells -/

namespace Column

def text (c : Column) : Cell → String
  | .float x => c.number x
  | .int n => toString n
  | .marked x => c.number x ++ "*"

def excess (c : Column) (cell : Cell) : Nat := (c.text cell).length - c.width

lemma length_body (c : Column) (cell : Cell) :
    (c.body cell).length = max c.width (c.text cell).length := by
  cases cell with
  | float x => exact Text.length_right c.width (c.number x)
  | int n => exact Text.length_right c.width (toString n)
  | marked x =>
    have hmark : "*".length = 1 := rfl
    simp only [body, text, String.length_append, Text.length_right, hmark]
    omega

/-- The width of a column counts the bytes of its suffix, and a value is followed by the characters
of it. -/
lemma length_render (c : Column) (cell : Cell) :
    (c.render cell).length + c.suffix.utf8ByteSize =
      c.span + c.excess cell + c.suffix.length := by
  simp only [render, String.length_append, Text.length_spaces, length_body, span, inner, excess]
  omega

end Column

/-! ### Rows -/

namespace Table

variable (t : Table) (r : Row)

def overflow : Nat := (List.zipWith Column.excess t.columns r.cells).sum

/-- The numbers of a row fit their columns. The mark of a number takes a place as well. -/
def NumbersFit : Prop := ∀ p ∈ t.columns.zip r.cells, (p.1.text p.2).length ≤ p.1.width

variable {t r}

lemma NumbersFit.overflow (h : t.NumbersFit r) : t.overflow r = 0 := by
  unfold NumbersFit at h
  rw [Table.overflow, ← List.map_uncurry_zip_eq_zipWith, List.sum_eq_zero]
  intro n hn
  obtain ⟨p, hp, rfl⟩ := List.mem_map.mp hn
  exact Nat.sub_eq_zero_of_le (h p hp)

lemma length_indent : indent.length = 2 := rfl

lemma length_rule (t : Table) : t.rule.length = 2 + t.width := by
  rw [rule, String.length_append, Text.length_rep, length_indent]

lemma length_pad (c : LabelColumn) (s : String) : (c.pad s).length = max c.width s.length := by
  unfold LabelColumn.pad
  split_ifs
  · exact Text.length_right c.width s
  · exact Text.length_left c.width s

lemma length_join_render {cs : List Column} {cells : List Cell} (h : cells.length = cs.length) :
    (String.join (List.zipWith Column.render cs cells)).length +
        (cs.map fun c => c.suffix.utf8ByteSize).sum =
      (cs.map Column.span).sum + (List.zipWith Column.excess cs cells).sum +
        (cs.map fun c => c.suffix.length).sum := by
  rw [String.length_join]
  induction cs generalizing cells with
  | nil => simp
  | cons c cs ih =>
    obtain ⟨cell, cells, rfl⟩ := List.exists_cons_of_length_eq_add_one h
    have hcell := c.length_render cell
    have hcells := @ih cells (by simpa using h)
    simp only [List.zipWith_cons_cons, List.map_cons, List.sum_cons]
    omega

/-- What a row is longer than the rule: what its label and its numbers stick out, less the bytes of
the suffixes that are not characters of their own. -/
lemma length_rowLine (h : r.cells.length = t.columns.length) :
    (t.rowLine r).length + (t.columns.map fun c => c.suffix.utf8ByteSize).sum =
      t.rule.length + (r.label.length - t.label.width) + t.overflow r +
        (t.columns.map fun c => c.suffix.length).sum := by
  have hcells := length_join_render h
  rw [length_rule, rowLine, String.length_append, String.length_append, length_pad, overflow, width,
    length_indent]
  omega

end Table

/-! ### Labels -/

namespace Geometry

/-- The labels of variants that are wider than their column. -/
def wideLabels : List String := [variantLabel "square" 512 512 512, variantLabel "rect" 256 128 512]

lemma length_of_mem_wideLabels : ∀ s ∈ wideLabels, s.length = 25 := by decide +kernel

def overhang (s : String) : Nat := if s ∈ wideLabels then 1 else 0

lemma overhang_of_le {s : String} (h : s.length ≤ 24) : overhang s = 0 := by
  refine if_neg fun hs => ?_
  have := length_of_mem_wideLabels s hs
  omega

lemma overhang_variants :
    ∀ gs ∈ matmulVariants, gs.1.label.length - 24 = overhang gs.1.label := by decide +kernel

end Geometry

lemma DType.length_name (d : DType) : d.name.length ≤ 8 := by
  rcases d with ⟨_ | _, _ | _ | _ | _⟩ | _ | _ <;> decide

lemma length_toString_le {n e : Nat} (he : 0 < e) (hn : n < 10 ^ e) :
    (toString n).length ≤ e := Nat.repr_length n e he hn

/-! ### Tables of a report -/

/-- Each row is as long as the rule, but for wide numbers and for the wide labels, which make it
longer by one character. -/
structure Table.LinesUp (t : Table) : Prop where
  length : ∀ r ∈ t.rows,
    (t.rowLine r).length = t.rule.length + Geometry.overhang r.label + t.overflow r
  fitting : ∀ r ∈ t.rows, t.NumbersFit r →
    (t.rowLine r).length = t.rule.length + Geometry.overhang r.label

lemma Table.linesUp {t : Table} (hcells : ∀ r ∈ t.rows, r.cells.length = t.columns.length)
    (hsuffix : ∀ c ∈ t.columns, c.suffix.utf8ByteSize = c.suffix.length)
    (hlabel : ∀ r ∈ t.rows, r.label.length - t.label.width = Geometry.overhang r.label) :
    t.LinesUp := by
  have hlength : ∀ r ∈ t.rows,
      (t.rowLine r).length = t.rule.length + Geometry.overhang r.label + t.overflow r := by
    intro r hr
    have hrow := Table.length_rowLine (hcells r hr)
    rw [List.map_congr_left hsuffix, hlabel r hr] at hrow
    omega
  refine ⟨hlength, fun r hr hfit => ?_⟩
  rw [hlength r hr, hfit.overflow, Nat.add_zero]

namespace Report

variable {t : Table} {title : String} {ms : List Measurement}

/-- A table lines up if its labels stick out just where they are known to. -/
lemma ofRows_linesUp {α : Type} {banner : Nat} {left : LabelColumn} {columns : List Column}
    {items : List α} {label : α → String} {cells : α → List Cell}
    (ht : ofRows (.make title banner left columns) items label cells = .ok t)
    (hsuffix : ∀ c ∈ columns, c.suffix.utf8ByteSize = c.suffix.length)
    (hlabel : ∀ x ∈ items, (label x).length - left.width = Geometry.overhang (label x)) :
    t.LinesUp := by
  obtain ⟨hcells, rfl⟩ := ofRows_eq_ok.mp ht
  refine Table.linesUp ?_ hsuffix ?_
  · intro r hr
    obtain ⟨x, hx, rfl⟩ := List.mem_map.mp hr
    exact hcells x hx
  · intro r hr
    obtain ⟨x, hx, rfl⟩ := List.mem_map.mp hr
    exact hlabel x hx

lemma label_fits {s : String} {n : Nat} (hs : s.length ≤ n) (hn : n ≤ 24) :
    s.length - n = Geometry.overhang s := by
  rw [Geometry.overhang_of_le (hs.trans hn), Nat.sub_eq_zero_of_le hs]

lemma gridColumns_suffix (names : List String) (width : Nat) :
    ∀ c ∈ gridColumns names width, c.suffix.utf8ByteSize = c.suffix.length := by
  intro c hc
  rcases List.mem_append.mp hc with hc | hc
  · obtain ⟨name, -, rfl⟩ := List.mem_map.mp hc
    rfl
  · obtain ⟨name, -, rfl⟩ := List.mem_map.mp hc
    rfl

lemma dtypeGrid_linesUp {names : List String} {width : Nat}
    {rows : List (DType × List Measurement)} (ht : dtypeGrid title names width rows = .ok t) :
    t.LinesUp :=
  ofRows_linesUp ht (gridColumns_suffix names width) fun r _ =>
    label_fits r.1.length_name (by decide)

lemma dtypeList_linesUp (ht : dtypeList title ms = .ok t) : t.LinesUp :=
  ofRows_linesUp ht (by decide) fun m _ => label_fits m.case.dtype.length_name (by decide)

lemma matmulDTypes_linesUp (ht : matmulDTypes title ms = .ok t) : t.LinesUp :=
  ofRows_linesUp ht (by decide) fun m _ => label_fits m.case.dtype.length_name (by decide)

lemma sizeSweep_linesUp (ht : sizeSweep title ms = .ok t)
    (hsize : ∀ m ∈ ms, m.case.elementCount < 10 ^ 10) : t.LinesUp :=
  ofRows_linesUp ht (by decide) fun m hm =>
    label_fits (length_toString_le (by decide) (hsize m hm)) (by decide)

lemma matmulSquare_linesUp (ht : matmulSquare title ms = .ok t)
    (hside : ∀ m ∈ ms, (m.case.geometry.matmulSizes.map Prod.fst).getD 0 < 10 ^ 6) : t.LinesUp :=
  ofRows_linesUp ht (by decide) fun m hm =>
    label_fits (length_toString_le (by decide) (hside m hm)) (by decide)

lemma matmulVariants_linesUp (ht : matmulVariants title ms = .ok t)
    (hlabel : ∀ m ∈ ms, ∃ gs ∈ Geometry.matmulVariants, m.case.geometry = gs.1) : t.LinesUp := by
  refine ofRows_linesUp ht (by decide) fun m hm => ?_
  obtain ⟨gs, hgs, heq⟩ := hlabel m hm
  rw [heq]
  exact Geometry.overhang_variants gs hgs

end Report

end ArrayBench
