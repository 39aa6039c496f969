import Mathlib.Tactic.Lemma
import Mathlib.Tactic.SplitIfs
import ArrayBench.Shape.Broadcast
import ArrayBench.Bench.Geometry
import ArrayBench.Bench.Operation

/-!
What the entries of the catalog have in common.

The flags of an entry are set by hand from its category and form. They say what they should: an
entry is marked as one whose result may differ from its operands in type exactly when the kernel
that is run on that type has another result type and there is a buffer to be refused.
-/

namespace ArrayBench

namespace Operation

lemma catalog_cases {op : Operation} (h : op ∈ catalog) :
    (∃ b, op = binary b) ∨ (∃ b inPlace, op = scalar b inPlace) ∨
      (∃ u inPlace, op = unary u inPlace) ∨ (∃ inPlace, op = pow inPlace) ∨ op = sum ∨
      (∃ k, op = sumAxis k) ∨ op = matmul := by
  simp only [catalog, List.mem_append, List.mem_map, List.mem_cons, List.not_mem_nil,
    or_false] at h
  rcases h with ((((⟨b, -, rfl⟩ | ⟨b, -, rfl⟩) | ⟨b, -, rfl⟩) | ⟨u, -, rfl⟩) | ⟨u, -, rfl⟩) | rfl |
    rfl | rfl | rfl | rfl | rfl
  · exact Or.inl ⟨b, rfl⟩
  · exact Or.inr (Or.inl ⟨b, false, rfl⟩)
  · exact Or.inr (Or.inl ⟨b, true, rfl⟩)
  · exact Or.inr (Or.inr (Or.inl ⟨u, false, rfl⟩))
  · exact Or.inr (Or.inr (Or.inl ⟨u, true, rfl⟩))
  · exact Or.inr (Or.inr (Or.inr (Or.inl ⟨false, rfl⟩)))
  · exact Or.inr (Or.inr (Or.inr (Or.inl ⟨true, rfl⟩)))
  · simp
  · exact Or.inr (Or.inr (Or.inr (Or.inr (Or.inr (Or.inl ⟨0, rfl⟩)))))
  · exact Or.inr (Or.inr (Or.inr (Or.inr (Or.inr (Or.inl ⟨1, rfl⟩)))))
  · simp

lemma dispatch_of_mem {op : Operation} (h : op ∈ catalog) (d : DType) :
    op.dispatch d = .ok (op.resolve d) := if_pos h

/-! ### Result types -/

lemma float_bne_int (p : Precision) (t : IntType) : (DType.float p != .int t) = true :=
  bne_iff_ne.mpr nofun

lemma changesIntegers_binary (b : BinaryOp) (d : DType) :
    (changesIntegers (.binary b) && d.isInteger) = (b.resultType d != d) := by
  cases b <;> cases d <;> simp [changesIntegers, Kernel.resultType, BinaryOp.resultType,
    DType.isInteger, DType.isFloat, DType.floating, float_bne_int]

lemma changesIntegers_scalar (b : BinaryOp) (d : DType) :
    (changesIntegers (.scalar b) && d.isInteger) = (b.resultType d != d) :=
  changesIntegers_binary b d

lemma changesIntegers_unary (u : UnaryOp) (d : DType) :
    (changesIntegers (.unary u) && d.isInteger) = (u.resultType d != d) := by
  cases u <;> cases d <;> simp [changesIntegers, Kernel.resultType, UnaryOp.resultType,
    DType.isInteger, DType.isFloat, DType.floating, float_bne_int]

def inPlaceOp (b : BinaryOp) (d : DType) : BinaryOp :=
  if b = .div ∧ d.isInteger then .floorDiv else b

lemma kernelFor_scalar_inPlace (b : BinaryOp) (d : DType) :
    (scalar b true).kernelFor d = .scalar (inPlaceOp b d) := by
  unfold kernelFor inPlaceOp
  by_cases h : b = .div ∧ d.isInteger
  · rw [if_pos h, if_pos ⟨congrArg Kernel.scalar h.1, rfl, h.2⟩]
  · rw [if_neg h, if_neg fun hk => h ⟨Kernel.scalar.inj hk.1, hk.2.2⟩]
    rfl

lemma resultType_inPlaceOp (b : BinaryOp) (d : DType) : (inPlaceOp b d).resultType d = d := by
  cases b <;> cases d <;> rfl

lemma kernelFor_of_ne {op : Operation} (h : ∀ b, op.kernel = .scalar b → op.inPlace = false)
    (d : DType) : op.kernelFor d = op.kernel := by
  refine if_neg fun hk => ?_
  have hform := h _ hk.1
  rw [hk.2.1] at hform
  cases hform

/-! ### Announced promotions -/

lemma mayDiffer_binary (b : BinaryOp) (d : DType) :
    (binary b).mayDiffer d = (b.resultType d != d) := changesIntegers_binary b d

lemma mayDiffer_scalar (b : BinaryOp) (d : DType) :
    (scalar b false).mayDiffer d = (b.resultType d != d) := changesIntegers_scalar b d

lemma mayDiffer_unary (u : UnaryOp) (inPlace : Bool) (d : DType) :
    (unary u inPlace).mayDiffer d = (u.resultType d != d) := changesIntegers_unary u d

lemma mayDiffer_pow (inPlace : Bool) (d : DType) : (pow inPlace).mayDiffer d = false := by
  cases inPlace <;> rfl

/-- A result may differ in type exactly if the kernel that is run gives another type and there is
a buffer for it. -/
lemma mayDiffer_eq {op : Operation} (h : op ∈ catalog) (d : DType) :
    op.mayDiffer d = (op.buffered && (op.kernelFor d).resultType d != d) := by
  rcases catalog_cases h with ⟨b, rfl⟩ | ⟨b, _ | _, rfl⟩ | ⟨u, inPlace, rfl⟩ | ⟨inPlace, rfl⟩ |
    rfl | ⟨k, rfl⟩ | rfl
  · exact mayDiffer_binary b d
  · rw [kernelFor_of_ne fun _ _ => rfl]
    exact mayDiffer_scalar b d
  · rw [kernelFor_scalar_inPlace, Kernel.resultType, resultType_inPlaceOp]
    exact (bne_self_eq_false d).symm
  · exact mayDiffer_unary u inPlace d
  · rw [mayDiffer_pow]
    exact (bne_self_eq_false d).symm
  · rfl
  · rfl
  · exact (bne_self_eq_false d).symm

/-! ### What the catalog promises -/

/-- The cases that run to the end: those whose operands fit each other, and fit the output unless
the result goes into a new array. -/
def Accepts (op : Operation) (d : DType) (g : Geometry) : Prop :=
  match op.kernel, g.operands.map Operand.logical with
  | .binary _, [a, b] =>
    if op.inPlace then Shape.broadcast a b = .ok a
    else ∃ t, Shape.broadcast a b = .ok t ∧ (op.mayDiffer d = true ∨ t = g.output)
  | .scalar _, [a] => op.inPlace = true ∨ op.mayDiffer d = true ∨ g.output = a
  | .unary _, [a] => op.inPlace = true ∨ op.mayDiffer d = true ∨ g.output = a
  | .sum, [_] => True
  | .sumAxis k, [a] => k < a.length
  | .matmul, _ => ∃ m k n, g.matmulSizes = some (m, k, n) ∧ g.output = [m, n]
  | _, _ => False

def form (op : Operation) : Form := if op.inPlace then .inPlace else .buffered

def calls (op : Operation) (d : DType) (n : Nat) : List Form :=
  if op.buffered then
    if op.mayDiffer d then op.form :: List.replicate n .allocating else List.replicate n op.form
  else List.replicate n .allocating

end Operation

lemma Geometry.matmulSizes_eq_some {g : Geometry} {x y : Operand} (h : g.operands = [x, y])
    {m k n : Nat} :
    g.matmulSizes = some (m, k, n) ↔ x.logical = [m, k] ∧ y.logical = [k, n] := by
  unfold matmulSizes
  rw [h, List.map_cons, List.map_cons, List.map_nil]
  constructor
  · intro hsizes
    split at hsizes
    · rename_i hxy
      split_ifs at hsizes with hk
      simp_all
    · cases hsizes
  · rintro ⟨hx, hy⟩
    simp [hx, hy]

end ArrayBench
