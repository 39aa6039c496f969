import ArrayBench.Proofs.Bench.ElementCounts
import ArrayBench.Proofs.Bench.Exactness
import ArrayBench.Proofs.Bench.Families
import ArrayBench.Proofs.Bench.Figures
import ArrayBench.Proofs.Bench.NoDrift

/-!
Fill values and the range of integer formats.

The values that operands are filled with are so small that one application of a benchmarked
operation stays within the format, whatever the sizes are. There is one exception. Sums are widened
to 64 bits, but products of matrices are not, and each of their elements is the inner dimension,
since it adds up that many ones. So a product is exact as long as its inner dimension is itself a
value of the format.
-/

namespace ArrayBench

open NdArray (Holds)
open Prepared (operand operand_shape empty_shape)
open Word (ofInt)

/-! ### Fill values as integers -/

namespace Fill

def common (t : IntType) : Int :=
  match t.width with
  | .w8 => 3
  | .w16 => 7
  | .w32 => 42
  | .w64 => 42

/-- The words of a format that its operands are filled with, and the results that stay within the
format: of two common values, of a common value and a scalar, and of a power. -/
structure Small (t : IntType) : Prop where
  value : Word.val (t := t) ((DType.int t).ofFloat (ofType (.int t)).value) = common t
  base : Word.val (t := t) ((DType.int t).ofFloat (ofType (.int t)).base) = 3
  exponent : Word.val (t := t) ((DType.int t).ofFloat (ofType (.int t)).exponent) = 3
  scalar : Word.val (t := t) ((DType.int t).ofFloat Fill.scalar) = 2
  inPlaceScalar : Word.val (t := t) ((DType.int t).ofFloat Fill.inPlaceScalar) = 1
  one : Word.val (t := t) ((DType.int t).ofFloat 1) = 1
  binary : ∀ b ∈ Operation.arithmetic, t.Contains (b.onInt (common t) (common t))
  withScalar : ∀ b ∈ Operation.arithmetic, t.Contains (b.onInt (common t) 2)
  withOne : ∀ b ∈ Operation.arithmetic,
    t.Contains ((Operation.inPlaceOp b (.int t)).onInt (common t) 1)
  magnitude : t.Contains (common t).natAbs
  power : t.Contains (BinaryOp.pow.onInt 3 3)

lemma common_lt (t : IntType) : common t < 2 ^ (32 : Nat) := by
  obtain ⟨signed, width⟩ := t
  cases width <;> simp [common]

lemma small (t : IntType) : Small t := by
  obtain ⟨signed, width⟩ := t
  cases signed <;> cases width <;> constructor <;> decide

end Fill

/-! ### Operands -/

namespace Prepared

lemma operand_holds (o : Operand) (d : DType) (x : Float) :
    (operand o d x).Holds fun _ => d.ofFloat x := by
  obtain ⟨l, heq, -⟩ := operand_eq o d x
  have hwithin := (operand_wellFormed o d x).within
  rw [heq] at hwithin ⊢
  exact (NdArray.holds_laid hwithin).congr fun ix hix => Layout.elemAt_filled hwithin _ hix

lemma operand_nodup (o : Operand) (d : DType) (x : Float) :
    (operand o d x).layout.offsets.Nodup := by
  obtain ⟨l, heq, hn⟩ := operand_eq o d x
  rw [heq]
  exact hn

end Prepared

/-! ### Ones -/

namespace Shape

lemma total_const (s : Shape) (x : Int) : s.total (fun _ => x) = s.numel * x := by
  rw [total, List.map_const', List.sum_replicate, length_indices, nsmul_eq_mul]

/-- Unless another axis is empty, no axis is longer than the number of elements. -/
lemma le_numel {s : Shape} {k n : Nat} (h : s[k]? = some n) (hpos : 0 < numel (s.eraseIdx k)) :
    n ≤ s.numel := by
  have hsum := total_eraseIdx h fun _ => 1
  simp only [total_const, mul_one, List.map_const', List.sum_replicate, List.length_range,
    nsmul_eq_mul] at hsum
  have hnumel : s.numel = numel (s.eraseIdx k) * n := by exact_mod_cast hsum
  rw [hnumel]
  exact Nat.le_mul_of_pos_left n hpos

end Shape

namespace IntType

lemma contains_wide (signed : Bool) {n : Nat} (h : n < 2 ^ (63 : Nat)) :
    Contains ⟨signed, .w64⟩ n := by
  have hlo : IntType.lo ⟨signed, .w64⟩ ≤ 0 := by cases signed <;> decide
  have hhi : (2 : Int) ^ (63 : Nat) - 1 ≤ IntType.hi ⟨signed, .w64⟩ := by cases signed <;> decide
  constructor <;> omega

end IntType

lemma intProductAt_ones (k i j : Nat) :
    intProductAt k (fun _ => 1) (fun _ => 1) [i, j] = k := by
  simp [intProductAt]

/-- The elements of a product of ones are values of the format unless there are too many ones to
add up, and elements to add them up for. -/
lemma contains_intProductAt {t : IntType} {m k n : Nat} :
    (∀ ix ∈ Shape.indices [m, n], t.Contains (intProductAt k (fun _ => 1) (fun _ => 1) ix)) ↔
      m = 0 ∨ n = 0 ∨ (k : Int) ≤ t.hi := by
  have hlo : t.lo ≤ 0 := by
    obtain ⟨signed, width⟩ := t
    cases signed <;> cases width <;> decide
  constructor
  · intro h
    -- all elements are the same sum, so the one at the start will do
    by_contra! hnot
    obtain ⟨hm, hn, hk⟩ := hnot
    have hcontains := h [0, 0] (Layout.mem_indices₂ (Nat.pos_of_ne_zero hm) (Nat.pos_of_ne_zero hn))
    rw [intProductAt_ones] at hcontains
    exact absurd hcontains.2 (not_le.mpr hk)
  · intro h ix hix
    obtain ⟨i, hi, j, hj, rfl⟩ := Layout.exists_of_mem_indices₂ hix
    rw [intProductAt_ones]
    exact ⟨by omega, by omega⟩

/-! ### Building -/

lemma Operation.build_eq {op : Operation} {d : DType} {g : Geometry} {s : Schedule} {k : Kernel}
    {v w : Float} {os : List Operand} {p : Prepared} (hk : op.kernelFor d = k)
    (hfill : Fill.operands op.category k g.family d = (v, w)) (hos : g.operands = os)
    (hp : Prepared.ofKernel d v w g.output op.inPlace k os = some p) :
    Prepared.build ⟨op, d, g, s⟩ (op.resolve d) = .ok p := by
  subst hk hos
  have hvalues : Fill.operands op.category (op.resolve d).kernel g.family d = (v, w) := hfill
  have hkernel : Prepared.ofKernel d v w g.output op.inPlace (op.resolve d).kernel g.operands =
    some p := hp
  simp only [Prepared.build, hvalues, hkernel]

/-! ### One application -/

open Prepared (operand_holds operand_nodup)

namespace Operation

/-- One application of an operation to its fill values of the format `t` has a meaning on integers
of any size, and it gives these integers in the format `t'`. A product of matrices does so exactly
if it has no elements or its inner dimension is a value of the format. -/
def ExactOnce (op : Operation) (t t' : IntType) (g : Geometry) (s : Schedule) : Prop :=
  ∃ p f, Prepared.build ⟨op, .int t, g, s⟩ (op.resolve (.int t)) = .ok p ∧ p.Means t f ∧
    (p.GivesInts t' f ↔
      ∀ m k n, op = matmul → g.Multiplies m k n → m = 0 ∨ n = 0 ∨ (k : Int) ≤ t'.hi)

variable {op : Operation} {t t' : IntType} {g : Geometry} {s : Schedule} {p : Prepared}
  {f : List Nat → Int}

lemma exactOnce_of_contains (hop : op.category ≠ .matmul)
    (hbuild : Prepared.build ⟨op, .int t, g, s⟩ (op.resolve (.int t)) = .ok p)
    (hmeans : p.Means t f) (hgives : p.Gives fun ix => (ofInt (f ix) : Word t'))
    (hcontains : ∀ ix ∈ p.resultShape.indices, t'.Contains (f ix)) : op.ExactOnce t t' g s :=
  ⟨p, f, hbuild, hmeans, iff_of_true (hgives.ints_iff.mpr hcontains)
    fun _ _ _ h => absurd (congrArg category h) hop⟩

/-! ### Operations on elements -/

lemma mem_arithmetic_of_binary {b : BinaryOp} (h : binary b ∈ catalog) : b ∈ arithmetic := by
  revert h
  cases b <;> decide

lemma mem_arithmetic_of_scalar {b : BinaryOp} {inPlace : Bool} (h : scalar b inPlace ∈ catalog) :
    b ∈ arithmetic := by
  revert h
  cases b <;> cases inPlace <;> decide

lemma broadcast_of_accepts {b : BinaryOp} {d : DType} (h : op.Accepts d g)
    (hk : op.kernel = .binary b) (hinPlace : op.inPlace = false) (hd : op.mayDiffer d = false)
    {x y : Operand} (hxy : g.operands = [x, y]) :
    Shape.broadcast x.logical y.logical = .ok g.output := by
  simpa [Accepts, hk, hxy, hinPlace, hd] using h

lemma broadcast_of_accepts_inPlace {b : BinaryOp} {d : DType} (h : op.Accepts d g)
    (hk : op.kernel = .binary b) (hinPlace : op.inPlace = true) {x y : Operand}
    (hxy : g.operands = [x, y]) : Shape.broadcast x.logical y.logical = .ok x.logical := by
  simpa [Accepts, hk, hxy, hinPlace] using h

lemma output_of_accepts {d : DType} (h : op.Accepts d g)
    (hk : (∃ b, op.kernel = .scalar b) ∨ ∃ u, op.kernel = .unary u) (hinPlace : op.inPlace = false)
    (hd : op.mayDiffer d = false) {x : Operand} (hx : g.operands = [x]) :
    g.output = x.logical := by
  rcases hk with ⟨b, hk⟩ | ⟨u, hk⟩ <;> simpa [Accepts, hk, hx, hinPlace, hd] using h

lemma exactOnce_of_binary {b : BinaryOp} (h : Measurable op (.int t) g)
    (hk : op.kernel = .binary b) (hinPlace : op.inPlace = false)
    (hd : op.mayDiffer (.int t) = false) (hop : op.category ≠ .matmul)
    (hr : b.resultType (.int t) = .int t) {v w : Float}
    (hfill : Fill.operands op.category (.binary b) g.family (.int t) = (v, w)) {i j : Int}
    (hv : Word.val (t := t) ((DType.int t).ofFloat v) = i)
    (hw : Word.val (t := t) ((DType.int t).ofFloat w) = j) (hj : j < 2 ^ (32 : Nat))
    (hcontains : t.Contains (b.onInt i j)) : op.ExactOnce t t g s := by
  obtain ⟨x, y, hxy⟩ := List.length_eq_two.mp
    (h.arity.trans (show op.arity = 2 by rw [arity, hk, Kernel.arity]))
  have ha := operand_holds x (.int t) v
  have hb := operand_holds y (.int t) w
  have hkernel : op.kernelFor (.int t) = .binary b := by
    rw [kernelFor_of_ne fun _ _ => hinPlace, hk]
  refine exactOnce_of_contains hop (build_eq hkernel hfill hxy (by rw [hinPlace]; rfl))
    (.call (.binary b ha.ints hb.ints))
    (Prepared.gives_binary hr (fun _ _ => ?_) ha hb ?_) fun ix _ => ?_
  · rwa [hw]
  · rw [operand_shape, operand_shape, empty_shape]
    exact broadcast_of_accepts h.accepts hk hinPlace hd hxy
  · rwa [hv, hw]

lemma exactOnce_binary {b : BinaryOp} (h : Measurable (binary b) (.int t) g)
    (hg : g.family ≠ .sizeSweepPoint) (hr : b.resultType (.int t) = .int t) :
    (binary b).ExactOnce t t g s := by
  have hsmall := Fill.small t
  have hd : (binary b).mayDiffer (.int t) = false := by
    rw [mayDiffer_binary, hr, bne_self_eq_false]
  have hfill : Fill.operands .binary (.binary b) g.family (.int t) =
      ((Fill.ofType (.int t)).value, (Fill.ofType (.int t)).value) := by
    simp [Fill.operands, hg]
  exact exactOnce_of_binary h rfl rfl hd nofun hr hfill hsmall.value hsmall.value
    (Fill.common_lt t) (hsmall.binary b (mem_arithmetic_of_binary h.mem))

lemma exactOnce_scalar {b : BinaryOp} (h : Measurable (scalar b false) (.int t) g)
    (hr : b.resultType (.int t) = .int t) : (scalar b false).ExactOnce t t g s := by
  obtain ⟨x, hx⟩ := List.length_eq_one_iff.mp h.arity
  have hsmall := Fill.small t
  have ha := operand_holds x (.int t) (Fill.ofType (.int t)).value
  have hd : (scalar b false).mayDiffer (.int t) = false := by
    rw [mayDiffer_scalar, hr, bne_self_eq_false]
  refine exactOnce_of_contains nofun (build_eq (kernelFor_of_ne (fun _ _ => rfl) _) rfl hx rfl)
    (.call (.scalar b ha.ints ⟨_, rfl, rfl⟩))
    (Prepared.gives_scalar hr (fun _ => ?_) ha ?_) fun ix _ => ?_
  · exact hsmall.scalar.trans_lt (by decide)
  · rw [operand_shape, empty_shape]
    exact output_of_accepts h.accepts (.inl ⟨b, rfl⟩) rfl hd hx
  · rw [hsmall.value, hsmall.scalar]
    exact hsmall.withScalar b (mem_arithmetic_of_scalar h.mem)

lemma exactOnce_scalar_inPlace {b : BinaryOp} (h : Measurable (scalar b true) (.int t) g) :
    (scalar b true).ExactOnce t t g s := by
  obtain ⟨x, hx⟩ := List.length_eq_one_iff.mp h.arity
  have hsmall := Fill.small t
  have ha := operand_holds x (.int t) (Fill.ofType (.int t)).value
  have hn := operand_nodup x (.int t) (Fill.ofType (.int t)).value
  refine exactOnce_of_contains nofun (build_eq (kernelFor_scalar_inPlace b _) rfl hx rfl)
    (.change (.scalar _ ha.ints ⟨_, rfl, rfl⟩))
    (Prepared.gives_scalar_inPlace (resultType_inPlaceOp b _) (fun _ => ?_) ha hn _) fun ix _ => ?_
  · exact hsmall.inPlaceScalar.trans_lt (by decide)
  · rw [hsmall.value, hsmall.inPlaceScalar]
    exact hsmall.withOne b (mem_arithmetic_of_scalar h.mem)

lemma exactOnce_abs (h : Measurable (unary .abs false) (.int t) g) :
    (unary .abs false).ExactOnce t t g s := by
  obtain ⟨x, hx⟩ := List.length_eq_one_iff.mp h.arity
  have hsmall := Fill.small t
  have ha := operand_holds x (.int t) (Fill.ofType (.int t)).value
  refine exactOnce_of_contains nofun (build_eq (kernelFor_of_ne (fun _ _ => rfl) _) rfl hx rfl)
    (.call (.abs ha.ints)) (Prepared.gives_abs ha ?_) fun ix _ => ?_
  · rw [operand_shape, empty_shape]
    exact output_of_accepts h.accepts (.inr ⟨.abs, rfl⟩) rfl rfl hx
  · rw [hsmall.value]
    exact hsmall.magnitude

lemma exactOnce_abs_inPlace (h : Measurable (unary .abs true) (.int t) g) :
    (unary .abs true).ExactOnce t t g s := by
  obtain ⟨x, hx⟩ := List.length_eq_one_iff.mp h.arity
  have hsmall := Fill.small t
  have ha := operand_holds x (.int t) (Fill.ofType (.int t)).value
  have hn := operand_nodup x (.int t) (Fill.ofType (.int t)).value
  refine exactOnce_of_contains nofun
    (build_eq (kernelFor_of_ne (fun _ h => by cases h) _) rfl hx rfl)
    (.change (.abs ha.ints)) (Prepared.gives_abs_inPlace ha hn _) fun ix _ => ?_
  rw [hsmall.value]
  exact hsmall.magnitude

lemma exactOnce_pow (h : Measurable (pow false) (.int t) g) : (pow false).ExactOnce t t g s := by
  have hsmall := Fill.small t
  exact exactOnce_of_binary h rfl rfl (mayDiffer_pow _ _) nofun rfl rfl hsmall.base
    hsmall.exponent (by decide) hsmall.power

lemma exactOnce_pow_inPlace (h : Measurable (pow true) (.int t) g) :
    (pow true).ExactOnce t t g s := by
  obtain ⟨x, y, hxy⟩ := List.length_eq_two.mp h.arity
  have hsmall := Fill.small t
  have ha := operand_holds x (.int t) (Fill.ofType (.int t)).base
  have hb := operand_holds y (.int t) (Fill.ofType (.int t)).exponent
  have hn := operand_nodup x (.int t) (Fill.ofType (.int t)).base
  refine exactOnce_of_contains nofun
    (build_eq (kernelFor_of_ne (fun _ h => by cases h) _) rfl hxy rfl)
    (.change (.binary .pow ha.ints hb.ints))
    (Prepared.gives_binary_inPlace rfl (fun _ _ => ?_) ha hb ?_ hn _) fun ix _ => ?_
  · exact hsmall.exponent.trans_lt (by decide)
  · rw [operand_shape, operand_shape]
    exact broadcast_of_accepts_inPlace h.accepts rfl rfl hxy
  · rw [hsmall.base, hsmall.exponent]
    exact hsmall.power

/-! ### Sums and matrix products -/

lemma val_one : Word.val (t := t) ((DType.int t).ofFloat 1) = 1 := (Fill.small t).one

lemma exactOnce_sum (h : Measurable sum (.int t) g)
    (hsize : ∀ o ∈ g.operands, o.numel < 2 ^ (63 : Nat)) :
    sum.ExactOnce t ⟨t.signed, .w64⟩ g s := by
  obtain ⟨x, hx⟩ := List.length_eq_one_iff.mp h.arity
  have ha := operand_holds x (.int t) 1
  refine exactOnce_of_contains nofun (build_eq (kernelFor_of_ne (fun _ _ => rfl) _) rfl hx rfl)
    (.sum ha.ints) (Prepared.gives_sum ha) fun ix _ => ?_
  have hsum : (operand x (.int t) 1).shape.total (fun _ => 1) = x.numel := by
    rw [Shape.total_const, mul_one, operand_shape, Operand.numel_logical]
  rw [val_one, hsum]
  exact IntType.contains_wide _ (hsize x (by simp [hx]))

lemma axis_lt_of_accepts {d : DType} {k : Nat} (h : op.Accepts d g) (hk : op.kernel = .sumAxis k)
    {x : Operand} (hx : g.operands = [x]) : k < x.logical.length := by
  simpa [Accepts, hk, hx] using h

lemma exactOnce_sumAxis {k : Nat} (h : Measurable (sumAxis k) (.int t) g)
    (hsize : ∀ o ∈ g.operands, o.numel < 2 ^ (63 : Nat)) :
    (sumAxis k).ExactOnce t ⟨t.signed, .w64⟩ g s := by
  obtain ⟨x, hx⟩ := List.length_eq_one_iff.mp h.arity
  have ha := operand_holds x (.int t) 1
  have hk : k < x.logical.length := axis_lt_of_accepts h.accepts rfl hx
  have hn : (operand x (.int t) 1).shape[k]? = some x.logical[k] := by
    rw [operand_shape, List.getElem?_eq_getElem hk]
  refine exactOnce_of_contains nofun (build_eq (kernelFor_of_ne (fun _ _ => rfl) _) rfl hx rfl)
    (.sumAxis ha.ints hn) (Prepared.gives_sumAxis ha hn) fun ix hix => ?_
  -- only without a result can an axis be longer than the number of elements
  have hle : x.logical[k] ≤ x.numel := by
    rw [← Operand.numel_logical]
    have hpos := Shape.numel_pos_of_mem_indices hix
    rw [Prepared.resultShape, operand_shape] at hpos
    exact Shape.le_numel (List.getElem?_eq_getElem hk) hpos
  simp only [val_one, List.map_const', List.sum_replicate, List.length_range, nsmul_eq_mul,
    mul_one]
  exact IntType.contains_wide _ (hle.trans_lt (hsize x (by simp [hx])))

/-- Products of matrices of ones, up to wrapping. -/
lemma gives_product (h : Measurable matmul (.int t) g) :
    ∃ m k n p, g.Multiplies m k n ∧
      Prepared.build ⟨matmul, .int t, g, s⟩ (matmul.resolve (.int t)) = .ok p ∧
      p.Means t (intProductAt k (fun _ => 1) fun _ => 1) ∧ p.resultShape = [m, n] ∧
      p.Gives fun ix => (ofInt (intProductAt k (fun _ => 1) (fun _ => 1) ix) : Word t) := by
  obtain ⟨x, y, hxy⟩ := List.length_eq_two.mp h.arity
  obtain ⟨m, k, n, hsizes, hout⟩ := h.accepts
  obtain ⟨hx, hy⟩ := (Geometry.matmulSizes_eq_some hxy).mp hsizes
  rw [← operand_shape x (.int t) 1] at hx
  rw [← operand_shape y (.int t) 1] at hy
  have hout' : (NdArray.empty g.output (.int t)).shape = [m, n] := (empty_shape _ _).trans hout
  have ha := operand_holds x (.int t) 1
  have hb := operand_holds y (.int t) 1
  have hmeans := Call.Means.matmul ha.ints hb.ints hx hy
  have hgives := Prepared.gives_matmul ha hb hx hy hout'
  simp only [val_one] at hmeans hgives
  exact ⟨m, k, n, _, Geometry.matmulSizes_eq_some_iff.mp hsizes,
    build_eq (kernelFor_of_ne (fun _ _ => rfl) _) rfl hxy rfl, .call hmeans, hout', hgives⟩

lemma exactOnce_matmul (h : Measurable matmul (.int t) g) : matmul.ExactOnce t t g s := by
  obtain ⟨m, k, n, p, hsizes, hbuild, hmeans, hshape, hgives⟩ := gives_product (s := s) h
  refine ⟨p, _, hbuild, hmeans, hgives.ints_iff.trans ?_⟩
  rw [hshape, contains_intProductAt]
  constructor
  · intro hsmall m' k' n' _ hsizes'
    rw [← Geometry.matmulSizes_eq_some_iff, Geometry.matmulSizes_eq_some_iff.mpr hsizes] at hsizes'
    cases hsizes'
    exact hsmall
  · intro hsmall
    exact hsmall m k n rfl hsizes

end Operation

/-- **Fill values and ranges**: in every case that can be measured, all that integers of any size
give fits the format of the result, be it sums of as many elements as there can be. Only the inner
dimension of a matrix product has to be a value of the format itself. The size sweep of operations
on two arrays has fill values of its own. -/
theorem fills_in_range {op : Operation} {t t' : IntType} {g : Geometry}
    (h : Measurable op (.int t) g) (hg : op.category = .binary → g.family ≠ .sizeSweepPoint)
    (hr : (op.kernelFor (.int t)).resultType (.int t) = .int t')
    (hsize : ∀ o ∈ g.operands, o.numel < 2 ^ (63 : Nat)) (s : Schedule) :
    op.ExactOnce t t' g s := by
  rcases Operation.catalog_cases h.mem with ⟨b, rfl⟩ | ⟨b, _ | _, rfl⟩ | ⟨u, inPlace, rfl⟩ |
    ⟨_ | _, rfl⟩ | rfl | ⟨k, rfl⟩ | rfl
  · rw [Operation.kernelFor_of_ne (fun _ _ => rfl)] at hr
    obtain rfl : t = t' := by cases b <;> cases hr <;> rfl
    exact Operation.exactOnce_binary h (hg rfl) hr
  · rw [Operation.kernelFor_of_ne (fun _ _ => rfl)] at hr
    obtain rfl : t = t' := by cases b <;> cases hr <;> rfl
    exact Operation.exactOnce_scalar h hr
  · rw [Operation.kernelFor_scalar_inPlace, Kernel.resultType, Operation.resultType_inPlaceOp] at hr
    obtain rfl := DType.int.inj hr
    exact Operation.exactOnce_scalar_inPlace h
  · rw [Operation.kernelFor_of_ne (fun _ h => by cases h)] at hr
    -- the other operations on one array give floats
    cases u <;> cases hr
    cases inPlace
    · exact Operation.exactOnce_abs h
    · exact Operation.exactOnce_abs_inPlace h
  · cases hr
    exact Operation.exactOnce_pow h
  · cases hr
    exact Operation.exactOnce_pow_inPlace h
  · cases hr
    exact Operation.exactOnce_sum h hsize
  · cases hr
    exact Operation.exactOnce_sumAxis h hsize
  · cases hr
    exact Operation.exactOnce_matmul h

/-- The rows of a matrix with 200 columns add up to more than an `int8` holds. -/
theorem fills_in_range_rows :
    Measurable (.sumAxis 1) .int8 (.reductionTrailing 3 200) ∧
      (Operation.sumAxis 1).ExactOnce ⟨true, .w8⟩ ⟨true, .w64⟩ (.reductionTrailing 3 200)
        ⟨1, 1⟩ := by
  have hmeasurable : Measurable (.sumAxis 1) .int8 (.reductionTrailing 3 200) :=
    measurable_sumAxis (by decide) rfl (by decide) _
  exact ⟨hmeasurable, fills_in_range hmeasurable nofun rfl (by decide) _⟩

/-- A row of 128 ones times a column of 128 ones is 128, and an `int8` makes it -128. -/
theorem ones_out_of_range :
    ∃ p f, Prepared.build ⟨.matmul, .int8, .matmul .matmulDTypes 1 128 1, ⟨1, 1⟩⟩
        (Operation.matmul.resolve .int8) = .ok p ∧
      p.Means ⟨true, .w8⟩ f ∧ f [0, 0] = 128 ∧
      (∀ w : List Nat → Word ⟨true, .w8⟩, p.Gives w → (w [0, 0]).val = -128) ∧
      ¬ p.GivesInts ⟨true, .w8⟩ f := by
  have hmeasurable : Measurable .matmul .int8 (.matmul .matmulDTypes 1 128 1) :=
    measurable_matmul rfl rfl _
  obtain ⟨m, k, n, p, hsizes, hbuild, hmeans, hshape, hgives⟩ :=
    Operation.gives_product (s := ⟨1, 1⟩) hmeasurable
  cases hsizes
  have hvalue := intProductAt_ones 128 0 0
  have hmem : [0, 0] ∈ p.resultShape.indices := by
    rw [hshape]
    decide
  -- the product is determined, and 128 ones wrap
  refine ⟨p, _, hbuild, hmeans, hvalue, fun w hw => ?_, fun hints => ?_⟩
  · rw [hw.unique hgives hmem, hvalue]
    decide
  · have hcontains := hgives.ints_iff.mp hints _ hmem
    rw [hvalue] at hcontains
    exact absurd hcontains (by decide)

end ArrayBench
