import ArrayBench.Bench.Geometry
import ArrayBench.Proofs.Text.Characters

/-!
Labels that can be read back.

A label lists the sizes of a shape as decimals between commas, and a single size is followed by a
comma as well. A decimal has digits only, so the commas part the sizes, and a field without digits
is not a size. The line of a geometry has its labels among blanks, and no label has a blank of its
own. So the labels of a line are the words that begin with a parenthesis, the last of them that of
the output.
-/

namespace ArrayBench

/-! ### Shapes -/

namespace Shape

/-- What stands between the parentheses of a label, from comma to comma. -/
def fields : Shape → List (List Char)
  | [] => [[]]
  | [d] => [Nat.toDigits 10 d, []]
  | s => s.map (Nat.toDigits 10)

lemma toList_text (s : Shape) : s.text.toList = '(' :: ([','].intercalate s.fields ++ [')']) := by
  rcases s with _ | ⟨d, _ | ⟨e, s⟩⟩ <;>
    simp [text, fields, String.toList_intercalate, Function.comp_def]

lemma fields_ne_nil (s : Shape) : s.fields ≠ [] := by
  rcases s with _ | ⟨d, _ | ⟨e, s⟩⟩ <;> simp [fields]

lemma isDigit_of_mem_fields {s : Shape} {f : List Char} (hf : f ∈ s.fields) :
    ∀ c ∈ f, c.isDigit := by
  intro c hc
  rcases s with _ | ⟨d, _ | ⟨e, s⟩⟩
  · obtain rfl := List.mem_singleton.mp hf
    cases hc
  · rcases List.mem_cons.mp hf with rfl | hf
    · exact Text.isDigit_of_mem_toDigits hc
    · obtain rfl := List.mem_singleton.mp hf
      cases hc
  · obtain ⟨x, -, rfl⟩ := List.mem_map.mp hf
    exact Text.isDigit_of_mem_toDigits hc

lemma filter_fields (s : Shape) : s.fields.filter (· ≠ []) = s.map (Nat.toDigits 10) := by
  rcases s with _ | ⟨d, _ | ⟨e, s⟩⟩
  · rfl
  · simp [fields, Nat.toDigits_ne_nil]
  · refine List.filter_eq_self.mpr fun f hf => ?_
    obtain ⟨x, -, rfl⟩ := List.mem_map.mp hf
    simp [Nat.toDigits_ne_nil]

lemma splitOn_fields (s : Shape) : ([','].intercalate s.fields).splitOn ',' = s.fields := by
  refine List.splitOn_intercalate ',' (fun f hf hcomma => ?_) s.fields_ne_nil
  cases isDigit_of_mem_fields hf ',' hcomma

/-- Reads a label: the sizes are the fields with digits. -/
def read (label : List Char) : Shape :=
  ((label.tail.dropLast.splitOn ',').filter (· ≠ [])).map (Nat.ofDigitChars 10 · 0)

/-- A label is read back as the shape it is the label of. -/
lemma read_text (s : Shape) : read s.text.toList = s := by
  rw [read, toList_text, List.tail_cons, List.dropLast_concat, splitOn_fields, filter_fields,
    List.map_map]
  exact List.map_id'' (fun d => Nat.ofDigitChars_ten_toDigits) s

lemma text_injective {s t : Shape} (h : s.text = t.text) : s = t := by
  rw [← s.read_text, h, t.read_text]

lemma mem_intercalate {α : Type} {sep : List α} {a : α} {ls : List (List α)}
    (h : a ∈ sep.intercalate ls) : a ∈ sep ∨ ∃ l ∈ ls, a ∈ l := by
  induction ls with
  | nil => cases h
  | cons l ls ih =>
    cases ls with
    | nil =>
      rw [List.intercalate_singleton] at h
      exact .inr ⟨l, List.mem_singleton_self l, h⟩
    | cons l' ls =>
      rw [List.intercalate_cons_cons, List.append_assoc, List.mem_append, List.mem_append] at h
      rcases h with h | h | h
      · exact .inr ⟨l, List.mem_cons_self, h⟩
      · exact .inl h
      · rcases ih h with h | ⟨m, hm, h⟩
        · exact .inl h
        · exact .inr ⟨m, List.mem_cons_of_mem l hm, h⟩

lemma blank_not_mem_text (s : Shape) : ' ' ∉ s.text.toList := by
  intro h
  rw [toList_text] at h
  rcases List.mem_cons.mp h with h | h
  · cases h
  rcases List.mem_append.mp h with h | h
  · rcases mem_intercalate h with h | ⟨f, hf, h⟩
    · cases List.mem_singleton.mp h
    · cases isDigit_of_mem_fields hf ' ' h
  · cases List.mem_singleton.mp h

end Shape

/-! ### Geometries -/

namespace Geometry

lemma dimsLabel_eq (s : Shape) : dimsLabel s = s.text := by
  rcases s with _ | ⟨d, _ | ⟨e, s⟩⟩
  · rfl
  · simp [dimsLabel, Shape.text]
  · simp [dimsLabel, Shape.text]

def labels (line : List Char) : List (List Char) :=
  (line.splitOn ' ').filter fun word => word.head? = some '('

/-- Reads a line: the shapes of the operands, and last that of the output. -/
def read (line : List Char) : List Shape × Shape :=
  let shapes := (labels line).map Shape.read
  (shapes.dropLast, shapes.getLastD [])

lemma labels_append (a b : List Char) : labels (a ++ ' ' :: b) = labels a ++ labels b := by
  rw [labels, List.splitOn_append_cons_self, List.filter_append, labels, labels]

lemma labels_text (s : Shape) : labels s.text.toList = [s.text.toList] := by
  rw [labels, List.splitOn_eq_singleton s.blank_not_mem_text]
  refine List.filter_cons_of_pos ?_
  rw [Shape.toList_text, List.head?_cons, decide_eq_true rfl]

/-- Labels that are joined by `&` are its labels. -/
lemma labels_joined {ls : List (List Char)} (h : ∀ l ∈ ls, labels l = [l]) :
    labels ([' ', '&', ' '].intercalate ls) = ls := by
  induction ls with
  | nil => rfl
  | cons l ls ih =>
    cases ls with
    | nil =>
      rw [List.intercalate_singleton]
      exact h l List.mem_cons_self
    | cons l' ls =>
      -- the sign between two labels is a word without a label
      have hand : labels ['&'] = [] := rfl
      have hrest := ih fun m hm => h m (List.mem_cons_of_mem l hm)
      have hjoined : [' ', '&', ' '].intercalate (l :: l' :: ls) =
          l ++ ' ' :: (['&'] ++ ' ' :: [' ', '&', ' '].intercalate (l' :: ls)) := by
        rw [List.intercalate_cons_cons, List.append_assoc]
        rfl
      rw [hjoined, labels_append, labels_append, hand, hrest, h l List.mem_cons_self]
      rfl

lemma toList_text (g : Geometry) : g.text.toList =
    [' ', '&', ' '].intercalate (g.operands.map fun o => o.logical.text.toList) ++
      ' ' :: (['-', '>'] ++ ' ' :: g.output.text.toList) := by
  have hand : " & ".toList = [' ', '&', ' '] := rfl
  have harrow : " -> ".toList = ' ' :: (['-', '>'] ++ [' ']) := rfl
  simp only [text, dimsLabel_eq, String.toList_append, String.toList_intercalate, List.map_map,
    hand, harrow, Function.comp_def, List.append_assoc, List.cons_append, List.nil_append]

lemma labels_toList_text (g : Geometry) : labels g.text.toList =
    (g.operands.map fun o => o.logical.text.toList) ++ [g.output.text.toList] := by
  have harrow : labels ['-', '>'] = [] := rfl
  have hoperands : ∀ l ∈ g.operands.map fun o => o.logical.text.toList, labels l = [l] := by
    intro l hl
    obtain ⟨o, -, rfl⟩ := List.mem_map.mp hl
    exact labels_text o.logical
  rw [toList_text, labels_append, labels_append, harrow, labels_joined hoperands, labels_text,
    List.nil_append]

/-- A line is read back as the shapes of the operands, as the operation sees them, and of the
output. -/
lemma read_text (g : Geometry) :
    read g.text.toList = (g.operands.map Operand.logical, g.output) := by
  have hshapes : (labels g.text.toList).map Shape.read =
      g.operands.map Operand.logical ++ [g.output] := by
    rw [labels_toList_text, List.map_append, List.map_map, List.map_singleton, Shape.read_text]
    refine congrArg (· ++ [g.output]) (List.map_congr_left fun o _ => ?_)
    exact o.logical.read_text
  rw [read, hshapes, List.dropLast_concat, List.getLastD_concat]

example : read "(5,) & () -> (2,3)".toList = ([[5], []], [2, 3]) := by decide +kernel

/-- **Labels determine sizes**: the two ways of writing the sizes of a shape agree, the text tells
the sizes, and the line of a geometry tells the shapes of its operands, as the operation sees them,
and of its output. -/
theorem labels_determine_sizes :
    (∀ dims : Shape, dimsLabel dims = dims.text) ∧
      (∀ s t : Shape, s.text = t.text ↔ s = t) ∧
      ∀ g h : Geometry, g.text = h.text ↔
        g.operands.map Operand.logical = h.operands.map Operand.logical ∧ g.output = h.output := by
  refine ⟨dimsLabel_eq, fun s t => ⟨Shape.text_injective, congrArg Shape.text⟩, fun g h => ?_⟩
  constructor
  · intro htext
    have hread := congrArg (fun line : String => read line.toList) htext
    rw [read_text, read_text] at hread
    exact Prod.mk.inj hread
  · rintro ⟨hoperands, houtput⟩
    have hlabels : g.operands.map (fun o => dimsLabel o.logical) =
        h.operands.map fun o => dimsLabel o.logical := by
      have hmap := congrArg (List.map dimsLabel) hoperands
      rwa [List.map_map, List.map_map] at hmap
    rw [text, text, hlabels, houtput]

end Geometry

end ArrayBench
