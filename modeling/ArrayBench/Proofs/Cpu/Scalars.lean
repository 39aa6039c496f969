import ArrayBench.Proofs.Cpu.Overruns
import ArrayBench.Proofs.Cpu.Safety

/-!
Scalars as arrays without axes.

An array without axes has one element, and broadcasting shows it at every index. So an operation
with a scalar is the operation with such an array: both make the same checks, and then they run one
loop over the elements of the target. They differ only in when they may take the short cut for
contiguous layouts, and a target that has all its elements cannot tell.
-/

namespace ArrayBench

open Step (FailsAt)
open NdArray (laid)

namespace Shape

lemma broadcast_nil (s : Shape) : broadcast s [] = .ok s :=
  broadcast_comm.mp (broadcast_of_below (nil_below s))

@[simp] lemma restrict_nil (ix : List Nat) : restrict [] ix = [] := rfl

end Shape

namespace Layout

variable {α : Type} {m : Layout} {t : Shape}

lemma Shows.within_filled_one (h : Shows (contiguous []) m t) (v : α) :
    m.Within (Buffer.filled 1 v).size :=
  h.within_iff.mpr fun _ _ => Nat.one_pos

lemma Shows.elemAt_filled_one [Inhabited α] (h : Shows (contiguous []) m t) (v : α)
    {ix : List Nat} (hix : ix ∈ t.indices) : m.elemAt (.filled 1 v) ix = v :=
  elemAt_of_shows h _ hix

end Layout

namespace Cpu

variable {d : DType}

/-! ### Updates that run one loop -/

/-- Both updates change the elements of the target one after the other and in the same way. Each of
them may have a short cut, for contiguous targets only. -/
def SameLoop (u v : Update) (x : Buffer d.Elem) (l : Layout) : Prop :=
  ∃ (g : List Nat → d.Elem → d.Elem) (p q : Bool),
    (p = true → l.isContiguous = true) ∧ (q = true → l.isContiguous = true) ∧
    u (laid x l) = NdArray.onBuffer d (guarded p l.numel
      (l.shape.indices.forM fun ix => Buffer.modify (l.offsetAt ix) (g ix))) (laid x l) ∧
    v (laid x l) = NdArray.onBuffer d (guarded q l.numel
      (l.shape.indices.forM fun ix => Buffer.modify (l.offsetAt ix) (g ix))) (laid x l)

section SameLoop

variable {u v : Update} {x : Buffer d.Elem} {l : Layout}

/-- No short cut finds anything missing. -/
lemma SameLoop.eq_of_within (h : SameLoop u v x l) (hx : l.Within x.size) :
    u (laid x l) = v (laid x l) := by
  obtain ⟨g, p, q, hp, hq, hu, hv⟩ := h
  rw [hu, hv]
  apply NdArray.onBuffer_congr
  rw [guarded_eq fun h => Layout.numel_le_of_within (hp h) hx,
    guarded_eq fun h => Layout.numel_le_of_within (hq h) hx]

lemma SameLoop.failsAt (h : SameLoop u v x l) (hx : ¬ l.Within x.size) :
    FailsAt u (laid x l) ∧ FailsAt v (laid x l) := by
  obtain ⟨g, p, q, -, -, hu, hv⟩ := h
  have hfails : ∀ short, FailsAt (NdArray.onBuffer d (guarded short l.numel
      (l.shape.indices.forM fun ix => Buffer.modify (l.offsetAt ix) (g ix)))) (laid x l) := by
    intro short
    refine NdArray.onBuffer_failsAt fun y hy => ?_
    obtain rfl := Except.ok.inj ((Storage.as_self d x).symm.trans hy)
    exact guarded_failsAt (loop_failsAt g hx)
  constructor
  · rw [FailsAt, hu]
    exact hfails p
  · rw [FailsAt, hv]
    exact hfails q

end SameLoop

/-! ### One element beside a scalar -/

section Point

variable {x : Buffer d.Elem} {la l : Layout} (op : BinaryOp) (s : Scalar)

lemma full_nil (d : DType) (s : Scalar) :
    NdArray.full [] d s = laid (.filled 1 (s.convert d)) (.contiguous []) := rfl

lemma binaryInto_sameLoop (hs : l.shape = la.shape) (hx : la.Within x.size)
    (z : Buffer (op.resultType d).Elem) :
    SameLoop (binaryInto op (laid x la) (.full [] d s)) (scalarInto op (laid x la) s) z l := by
  have ht : Shape.broadcast la.shape (Layout.contiguous []).shape = .ok l.shape := by
    rw [hs]
    exact Shape.broadcast_nil la.shape
  obtain ⟨ma, mb, hsa, hsb, hrun⟩ :=
    binaryInto_laid (x := x) (y := .filled 1 (s.convert d)) op ht
  -- seen in the shape of the target, the single element is the same at every index
  have hwa : ma.Within x.size := hsa.within_iff.mpr (hx.as (Shape.broadcast_below ht).1)
  refine ⟨fun ix _ => op.eval (la.elemAt x ix) (s.convert d),
    ma.isContiguous && mb.isContiguous && l.isContiguous, la.isContiguous && l.isContiguous,
    fun h => (Bool.and_eq_true_iff.mp h).2, fun h => (Bool.and_eq_true_iff.mp h).2, ?_, ?_⟩
  · rw [full_nil, hrun, zipInto_eq op.eval hsa.shape hsb.shape hwa (hsb.within_filled_one _)]
    apply NdArray.onBuffer_congr
    congr 1
    refine forM_congr fun ix hix => ?_
    rw [Layout.elemAt_of_shows hsa x hix, hsb.elemAt_filled_one _ hix,
      Shape.restrict_of_mem (hs ▸ hix)]
    rfl
  · rw [scalarInto_laid op s hs, mapInto_eq _ hs.symm hx]
    rfl

lemma binaryInPlace_sameLoop (hr : op.resultType d = d) :
    SameLoop (binaryInPlace op (.full [] d s)) (scalarInPlace op s) x l := by
  have ht : Shape.broadcast l.shape (Layout.contiguous []).shape = .ok l.shape :=
    Shape.broadcast_nil l.shape
  obtain ⟨mb, hsb, hrun⟩ :=
    binaryInPlace_laid (x := x) (y := .filled 1 (s.convert d)) op hr ht
  refine ⟨fun _ v => op.within v (s.convert d), l.isContiguous && mb.isContiguous, l.isContiguous,
    fun h => (Bool.and_eq_true_iff.mp h).1, id, ?_, ?_⟩
  · rw [full_nil, hrun, zipInPlace_eq op.within hsb.shape (hsb.within_filled_one _)]
    apply NdArray.onBuffer_congr
    congr 1
    refine forM_congr fun ix hix => ?_
    rw [hsb.elemAt_filled_one _ hix]
  · rw [scalarInPlace_laid op s hr, mapInPlace_eq]

end Point

/-! ### Checks -/

variable (op : BinaryOp) (a out : NdArray) (s : Scalar)

lemma sameType_full : sameType a (.full [] a.dtype s) = .ok a.dtype :=
  sameType_eq_ok.mpr ⟨rfl, rfl⟩

lemma broadcast_full :
    Shape.broadcast a.shape (NdArray.full [] a.dtype s).shape = .ok a.shape :=
  Shape.broadcast_nil a.shape

lemma checks_full : (Call.binary op a (.full [] a.dtype s)).checks out =
    (Call.scalar op a s).checks out := by
  simp only [Call.checks, sameType_full, broadcast_full, exceptOk_bind]

lemma outline_full : (Call.binary op a (.full [] a.dtype s)).outline =
    (Call.scalar op a s).outline := by
  simp only [Call.outline, sameType_full, broadcast_full, exceptOk_bind]
  rfl

/-! ### All forms -/

structure ActsAsArray (op : BinaryOp) (a : NdArray) (s : Scalar) : Prop where
  computes : ∃ r, compute (.scalar op a s) = .ok r ∧
    compute (.binary op a (.full [] a.dtype s)) = .ok r
  writes : ∀ out : NdArray, out.WellFormed →
    computeInto (.binary op a (.full [] a.dtype s)) out = computeInto (.scalar op a s) out
  /-- A target that lacks some of its elements is refused alike or given up on the way. -/
  overruns : ∀ out : NdArray,
    computeInto (.binary op a (.full [] a.dtype s)) out = computeInto (.scalar op a s) out ∨
      FailsAt (computeInto (.binary op a (.full [] a.dtype s))) out ∧
        FailsAt (computeInto (.scalar op a s)) out
  changes : change (.binary op (.full [] a.dtype s)) a = change (.scalar op s) a

variable {a}

/-- The checks refuse both calls, or both run one loop over the target. -/
lemma computeInto_full (ha : a.WellFormed) :
    computeInto (.binary op a (.full [] a.dtype s)) out = computeInto (.scalar op a s) out ∨
      SameLoop (computeInto (.binary op a (.full [] a.dtype s))) (computeInto (.scalar op a s))
        out.storage.data out.layout := by
  cases h : (Call.scalar op a s).checks out with
  | ok u =>
    obtain ⟨⟨d, x⟩, la⟩ := a
    obtain ⟨⟨e, z⟩, l⟩ := out
    obtain ⟨hr, hs⟩ := Call.checks_scalar.mp h
    obtain rfl : op.resultType d = e := hr
    exact .inr (binaryInto_sameLoop op s hs ha.within z)
  | error e =>
    rw [computeInto_of_refused h, computeInto_of_refused ((checks_full op a out s).trans h)]
    exact .inl rfl

lemma computeInto_full_of_within (ha : a.WellFormed) {out : NdArray}
    (ho : out.layout.Within out.storage.size) :
    computeInto (.binary op a (.full [] a.dtype s)) out = computeInto (.scalar op a s) out := by
  rcases computeInto_full op out s ha with h | h
  · exact h
  · exact h.eq_of_within ho

lemma compute_full (ha : a.WellFormed) :
    compute (.binary op a (.full [] a.dtype s)) = compute (.scalar op a s) := by
  rw [compute_eq, compute_eq, outline_full]
  cases (Call.scalar op a s).outline with
  | ok o =>
    have hempty := (NdArray.wellFormed_empty o.1 o.2).within
    rw [exceptOk_bind, exceptOk_bind, NdArray.updated, NdArray.updated,
      computeInto_full_of_within op s ha hempty]
  | error e => rfl

lemma change_full (ha : a.WellFormed) :
    change (.binary op (.full [] a.dtype s)) a = change (.scalar op s) a := by
  have hchecks : (Change.binary op (.full [] a.dtype s)).checks a =
      (Change.scalar op s).checks a := by
    rw [Change.checks_eq, Change.checks_eq]
    exact checks_full op a a s
  cases h : (Change.scalar op s).checks a with
  | ok u =>
    obtain ⟨⟨d, x⟩, l⟩ := a
    exact (binaryInPlace_sameLoop op s (Change.checks_scalar.mp h)).eq_of_within ha.within
  | error e => rw [change_of_refused h, change_of_refused (hchecks.trans h)]

/-- **Scalars as arrays**: for every array, operation, type of scalar and form of call, arithmetic
with a scalar is arithmetic with an array of this one element. -/
theorem scalar_acts_as_array (ha : a.WellFormed) : ActsAsArray op a s where
  computes := by
    have hc : (Call.scalar op a s).WellFormed := Call.wellFormed_scalar.mpr ha
    obtain ⟨r, hr, -⟩ := compute_delivers hc
    exact ⟨r, hr, (compute_full op s ha).trans hr⟩
  writes out ho := computeInto_full_of_within op s ha ho.within
  overruns out := by
    rcases computeInto_full op out s ha with h | h
    · exact .inl h
    · by_cases ho : out.layout.Within out.storage.size
      · exact .inl (h.eq_of_within ho)
      · exact .inr (h.failsAt ho)
  changes := change_full op s ha

/-- Three elements of `uint8` that share a position, and a fraction: it is cut to a whole number
first, and a change in place multiplies three times. -/
theorem scalar_acts_as_array_repeated :
    NdArray.WellFormed ⟨.filled .uint8 1 (.ofFloat .float64 3), ⟨[⟨3, 0⟩], 0⟩⟩ ∧
      ActsAsArray .mul ⟨.filled .uint8 1 (.ofFloat .float64 3), ⟨[⟨3, 0⟩], 0⟩⟩
        (.ofFloat .float64 2.5) := by
  have ha : NdArray.WellFormed ⟨.filled .uint8 1 (.ofFloat .float64 3), ⟨[⟨3, 0⟩], 0⟩⟩ := by decide
  exact ⟨ha, scalar_acts_as_array _ _ ha⟩

end Cpu

end ArrayBench
