import ArrayBench.Bench.Metrics
import ArrayBench.Proofs.Bench.Catalog
import ArrayBench.Proofs.Step

/-!
Figures of floating-point operations.

The figure is derived from the shapes of the operands and from nothing else. Every matrix product
gets one, and so does any other operation on two arrays whose shapes happen to be those of a matrix
product: one column with one row always, square matrices used transposed, and one row with a square
matrix. Operations on one array get none.
-/

namespace ArrayBench

def Geometry.Multiplies (g : Geometry) (m k n : Nat) : Prop :=
  g.operands.map Operand.logical = [[m, k], [k, n]]

lemma Geometry.matmulSizes_eq_some_iff {g : Geometry} {m k n : Nat} :
    g.matmulSizes = some (m, k, n) ↔ g.Multiplies m k n := by
  unfold matmulSizes Multiplies
  constructor
  · intro h
    split at h
    · rename_i hshapes
      split_ifs at h with hk
      simp_all
    · cases h
  · intro h
    rw [h]
    exact if_pos rfl

/-! ### Families -/

namespace Geometry

variable {m k n : Nat}

lemma not_multiplies_contiguous (len arity : Nat) : ¬ (contiguous len arity).Multiplies m k n := by
  intro h
  have hmem : [m, k] ∈ (contiguous len arity).operands.map Operand.logical := by
    rw [h]
    simp
  simp [contiguous, make, plain, Operand.logical] at hmem

lemma multiplies_strided {rows cols : Nat} :
    (strided rows cols 2).Multiplies m k n ↔ m = cols ∧ k = rows ∧ k = cols ∧ n = rows := by
  simp [Multiplies, strided, make, Operand.logical, List.replicate, eq_comm, and_assoc]

lemma multiplies_broadcastRow {rows cols : Nat} :
    (broadcastRow rows cols).Multiplies m k n ↔ m = 1 ∧ k = cols ∧ k = rows ∧ n = cols := by
  simp [Multiplies, broadcastRow, make, plain, Operand.logical, eq_comm, and_assoc]

lemma multiplies_broadcastOuter (rows cols : Nat) :
    (broadcastOuter rows cols).Multiplies rows 1 cols := rfl

lemma not_multiplies_broadcastRank (rows cols : Nat) :
    ¬ (broadcastRank rows cols).Multiplies m k n := by
  simp [Multiplies, broadcastRank, make, plain, Operand.logical]

end Geometry

namespace Metrics

variable {c : Case} {micros : Float}

lemma gflops_derive {m k n : Nat} (h : c.geometry.Multiplies m k n) :
    (derive c micros).gflops = some (Throughput.gflops m k n micros) := by
  rw [derive, Geometry.matmulSizes_eq_some_iff.mpr h]
  rfl

lemma isSome_gflops :
    (derive c micros).gflops.isSome ↔ ∃ m k n, c.geometry.Multiplies m k n := by
  have hshape : (derive c micros).gflops.isSome = c.geometry.matmulSizes.isSome :=
    Option.isSome_map
  rw [hshape, Option.isSome_iff_exists]
  simp only [Prod.exists, Geometry.matmulSizes_eq_some_iff]

end Metrics

lemma Case.arity_of_make {op : Operation} {d : DType} {g : Geometry} {s : Schedule} {c : Case}
    (h : Case.make op d g s = .ok c) : c = ⟨op, d, g, s⟩ ∧ g.operands.length = op.arity := by
  obtain ⟨-, -, hchecked⟩ := exceptBind_eq_ok.mp h
  split_ifs at hchecked with harity
  · cases hchecked
  · exact ⟨(Except.ok.inj hchecked).symm, Decidable.not_not.mp harity⟩

/-- Which figure a case has. -/
structure FiguredByShape (c : Case) (micros : Float) : Prop where
  isSome_iff : (Metrics.derive c micros).gflops.isSome ↔ ∃ m k n, c.geometry.Multiplies m k n
  value : ∀ m k n, c.geometry.Multiplies m k n →
    (Metrics.derive c micros).gflops = some (Throughput.gflops m k n micros)
  arity : (Metrics.derive c micros).gflops.isSome → c.op.arity = 2
  /-- The category makes the difference for those alone whose operands look like matrices to be
  multiplied. -/
  category_iff : ((Metrics.derive c micros).gflops.isSome ↔
      c.op.category = .matmul ∧ ∃ m k n, c.geometry.Multiplies m k n) ↔
    (c.op.category = .matmul ∨ ¬ ∃ m k n, c.geometry.Multiplies m k n)
  contiguous : ∀ n arity, c.geometry = .contiguous n arity →
    (Metrics.derive c micros).gflops = none
  strided : ∀ rows cols, c.geometry = .strided rows cols 2 →
    ((Metrics.derive c micros).gflops.isSome ↔ rows = cols)
  broadcastRow : ∀ m n, c.geometry = .broadcastRow m n →
    ((Metrics.derive c micros).gflops.isSome ↔ m = n)
  broadcastOuter : ∀ m n, c.geometry = .broadcastOuter m n →
    (Metrics.derive c micros).gflops = some (Throughput.gflops m 1 n micros)
  broadcastRank : ∀ m n, c.geometry = .broadcastRank m n →
    (Metrics.derive c micros).gflops = none

/-- **Figures of floating-point operations** follow the shapes of the operands: a case gets one if
these are matrices that can be multiplied, whatever the operation is. -/
theorem figured_by_shape {op : Operation} {d : DType} {g : Geometry} {s : Schedule} {c : Case}
    (h : Case.make op d g s = .ok c) (micros : Float) : FiguredByShape c micros := by
  obtain ⟨rfl, harity⟩ := Case.arity_of_make h
  have hsome : (Metrics.derive ⟨op, d, g, s⟩ micros).gflops.isSome ↔
      ∃ m k n, g.Multiplies m k n := Metrics.isSome_gflops
  have hnone : (¬ ∃ m k n, g.Multiplies m k n) →
      (Metrics.derive ⟨op, d, g, s⟩ micros).gflops = none := fun hnot =>
    Option.not_isSome_iff_eq_none.mp (mt hsome.mp hnot)
  refine
    { isSome_iff := hsome
      value := fun m k n => Metrics.gflops_derive
      arity := fun hfigure => ?_
      category_iff := ⟨fun hrule => ?_, ?_⟩
      contiguous := fun len arity hg => hnone ?_
      strided := fun rows cols hg => hsome.trans ?_
      broadcastRow := fun rows cols hg => hsome.trans ?_
      broadcastOuter := fun rows cols hg => Metrics.gflops_derive ?_
      broadcastRank := fun rows cols hg => hnone ?_ }
  -- matrices that can be multiplied are two operands, and a case has as many as its operation
  · obtain ⟨m, k, n, hshapes⟩ := hsome.mp hfigure
    have hlength := congrArg List.length hshapes
    rw [List.length_map] at hlength
    exact harity.symm.trans hlength
  · by_cases hshapes : ∃ m k n, g.Multiplies m k n
    · exact .inl (hrule.mp (hsome.mpr hshapes)).1
    · exact .inr hshapes
  · rintro (hmatmul | hnot)
    · exact ⟨fun hfigure => ⟨hmatmul, hsome.mp hfigure⟩, fun hrule => hsome.mpr hrule.2⟩
    · exact iff_of_false (mt hsome.mp hnot) fun hrule => hnot hrule.2
  -- families by their shapes: vectors are no matrices, transposed operands are square or nothing
  · obtain rfl : g = _ := hg
    rintro ⟨m, k, n, hshapes⟩
    exact Geometry.not_multiplies_contiguous len arity hshapes
  · obtain rfl : g = _ := hg
    simp only [Geometry.multiplies_strided]
    constructor
    · rintro ⟨m, k, n, rfl, rfl, rfl, rfl⟩
      rfl
    · rintro rfl
      exact ⟨rows, rows, rows, rfl, rfl, rfl, rfl⟩
  · obtain rfl : g = _ := hg
    simp only [Geometry.multiplies_broadcastRow]
    constructor
    · rintro ⟨m, k, n, rfl, rfl, rfl, rfl⟩
      rfl
    · rintro rfl
      exact ⟨1, rows, rows, rfl, rfl, rfl, rfl⟩
  · obtain rfl : g = _ := hg
    exact Geometry.multiplies_broadcastOuter rows cols
  · obtain rfl : g = _ := hg
    rintro ⟨m, k, n, hshapes⟩
    exact Geometry.not_multiplies_broadcastRank rows cols hshapes

/-- A sum of square matrices that are used transposed. -/
theorem figured_by_shape_square :
    Case.make (.binary .add) .float64 (.strided 3 3 2) ⟨1, 1⟩ =
        .ok ⟨.binary .add, .float64, .strided 3 3 2, ⟨1, 1⟩⟩ ∧
      (Metrics.derive ⟨.binary .add, .float64, .strided 3 3 2, ⟨1, 1⟩⟩ 1).gflops.isSome := by
  have hmake : Case.make (.binary .add) .float64 (.strided 3 3 2) ⟨1, 1⟩ =
      .ok ⟨.binary .add, .float64, .strided 3 3 2, ⟨1, 1⟩⟩ := rfl
  exact ⟨hmake, ((figured_by_shape hmake 1).strided 3 3 rfl).mpr rfl⟩

/-- A sum of one column and one row has a figure and is no matrix product. -/
theorem outer_sum_has_figure :
    Case.make (.binary .add) .float32 (.broadcastOuter 2 3) ⟨1, 1⟩ =
        .ok ⟨.binary .add, .float32, .broadcastOuter 2 3, ⟨1, 1⟩⟩ ∧
      (Metrics.derive ⟨.binary .add, .float32, .broadcastOuter 2 3, ⟨1, 1⟩⟩ 1).gflops.isSome ∧
      (Operation.binary .add).category ≠ .matmul :=
  ⟨rfl, rfl, by decide⟩

end ArrayBench
