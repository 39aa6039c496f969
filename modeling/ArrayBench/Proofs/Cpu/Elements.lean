import ArrayBench.Proofs.Cpu.Forms

/-!
Operations on two arrays, element by element.

Operands of one type whose shapes broadcast give a new array in row-major order. At each index it
has what the operation makes of one element of either operand: the one at that index once the
coordinates of added axes are dropped and those of single-element axes are set to zero. This holds
for every layout of the operands. Other operands are refused, and their types are looked at first.
-/

namespace ArrayBench

open Edit (each)
open NdArray (laid)

namespace BinaryOp

/-- What the operation makes of two elements of one type: within that type if this is the type of
the result, and on `float64` otherwise. -/
def onElems (op : BinaryOp) {d : DType} (u v : d.Elem) : Scalar :=
  if op.resultType d = d then ⟨d, op.within u v⟩
  else ⟨.float64, op.onFloat (DType.toFloat u) (DType.toFloat v)⟩

lemma scalar_eval (op : BinaryOp) {d : DType} (u v : d.Elem) :
    (⟨op.resultType d, op.eval u v⟩ : Scalar) = op.onElems u v := by
  by_cases hr : op.resultType d = d
  · rw [onElems, if_pos hr]
    exact within_of_eval hr (P := fun e f => (⟨op.resultType d, op.eval u v⟩ : Scalar) = ⟨e, f u v⟩)
      rfl
  · -- only quotients of integers change the type
    rw [onElems, if_neg hr]
    cases op with
    | div =>
      cases d with
      | int t => rfl
      | float p => exact absurd rfl hr
    | add => exact absurd rfl hr
    | sub => exact absurd rfl hr
    | mul => exact absurd rfl hr
    | floorDiv => exact absurd rfl hr
    | pow => exact absurd rfl hr

end BinaryOp

def NdArray.scalarAt? (a : NdArray) (ix : List Nat) : Option Scalar :=
  a.storage.scalar? (a.layout.offsetAt ix)

lemma NdArray.scalarAt?_laid {d : DType} {x : Buffer d.Elem} {l : Layout} {ix : List Nat}
    {v : d.Elem} (h : x.get? (l.offsetAt ix) = some v) : (laid x l).scalarAt? ix = some ⟨d, v⟩ :=
  congrArg (Option.map (Scalar.mk d)) h

/-- A call that sets each element of its result to one value gives an array of these values. -/
lemma Call.Sets.compute_each {c : Call} {s : Shape} {d : DType} {w : List Nat → d.Elem}
    (h : c.Sets s (each s.indices fun ix _ => w ix)) (houtline : c.outline = .ok (s, d)) :
    ∃ y : Buffer d.Elem, Cpu.compute c = .ok (laid y (.contiguous s)) ∧ y.size = s.numel ∧
      ∀ ix ∈ s.indices, y.get? ((Layout.contiguous s).offsetAt ix) = some (w ix) := by
  obtain ⟨y, hy, hxy⟩ := h.compute houtline
  have hsize : y.size = s.numel := hxy.size
  have hshape := Layout.shape_contiguous s
  refine ⟨y, hy, hsize, fun ix hix => ?_⟩
  have hthere : ix ∈ (Layout.contiguous s).shape.indices := by rwa [hshape]
  have hwithin := Layout.within_contiguous s
  rw [Layout.get?_offsetAt (by rwa [hsize]) hthere,
    Layout.elemAt_edited hxy (Layout.nodup_offsets_contiguous s) (by rw [hshape]; exact h.mem)
      hwithin hthere,
    Edit.effect_each s.nodup_indices _ hix]

lemma NdArray.Delivers.ok_iff {x : Except ArrayError NdArray}
    {outline : Except ArrayError (Shape × DType)} (h : Delivers x outline) :
    (∃ r, x = .ok r) ↔ ∃ o, outline = .ok o := by
  cases outline with
  | ok o =>
    obtain ⟨r, hr, -⟩ := h
    exact iff_of_true ⟨r, hr⟩ ⟨o, rfl⟩
  | error e =>
    obtain ⟨-, rfl⟩ := h
    simp

namespace Cpu

structure CombinesElements (op : BinaryOp) (a b : NdArray) : Prop where
  accepted : (∃ r, compute (.binary op a b) = .ok r) ↔
    a.dtype = b.dtype ∧ ∃ t, Shape.broadcast a.shape b.shape = .ok t
  result : ∀ r t, compute (.binary op a b) = .ok r → Shape.broadcast a.shape b.shape = .ok t →
    r.layout = .contiguous t ∧ r.storage.size = t.numel ∧ r.dtype = op.resultType a.dtype
  /-- Each of its elements comes from one element of either operand. -/
  elems : ∀ r t, compute (.binary op a b) = .ok r → Shape.broadcast a.shape b.shape = .ok t →
    ∀ ix ∈ t.indices, ∃ u v : a.dtype.Elem,
      a.shape.restrict ix ∈ a.shape.indices ∧ a.scalarAt? (a.shape.restrict ix) = some ⟨_, u⟩ ∧
      b.shape.restrict ix ∈ b.shape.indices ∧ b.scalarAt? (b.shape.restrict ix) = some ⟨_, v⟩ ∧
      r.scalarAt? ix = some (op.onElems u v)
  typesDiffer : a.dtype ≠ b.dtype →
    compute (.binary op a b) = .error (.dtypeMismatch a.dtype b.dtype)
  shapesDiffer : a.dtype = b.dtype → (¬ ∃ t, Shape.broadcast a.shape b.shape = .ok t) →
    compute (.binary op a b) = .error (.broadcast a.shape b.shape)

lemma compute_binary_laid (op : BinaryOp) {d : DType} {x y : Buffer d.Elem} {la lb : Layout}
    {t : Shape} (hx : la.Within x.size) (hy : lb.Within y.size)
    (ht : Shape.broadcast la.shape lb.shape = .ok t) :
    ∃ z : Buffer (op.resultType d).Elem,
      compute (.binary op (laid x la) (laid y lb)) = .ok (laid z (.contiguous t)) ∧
      z.size = t.numel ∧
      ∀ ix ∈ t.indices, z.get? ((Layout.contiguous t).offsetAt ix) =
        some (op.eval (la.elemAt x (la.shape.restrict ix))
          (lb.elemAt y (lb.shape.restrict ix))) := by
  obtain ⟨hba, hbb⟩ := Shape.broadcast_below ht
  have houtline : (Call.binary op (laid x la) (laid y lb)).outline = .ok (t, op.resultType d) := by
    have hbroadcast : Shape.broadcast (laid x la).shape (laid y lb).shape = .ok t := ht
    rw [Call.outline, sameType_laid, exceptOk_bind, hbroadcast]
    rfl
  exact (Call.sets_binary ht (hx.as hba) (hy.as hbb)).compute_each houtline

lemma exists_laid {a b : NdArray} (h : a.dtype = b.dtype) :
    ∃ (d : DType) (x y : Buffer d.Elem) (la lb : Layout), a = laid x la ∧ b = laid y lb := by
  obtain ⟨⟨d, x⟩, la⟩ := a
  obtain ⟨⟨d', y⟩, lb⟩ := b
  obtain rfl : d = d' := h
  exact ⟨d, x, y, la, lb, rfl, rfl⟩

lemma sameType_of_compute {op : BinaryOp} {a b r : NdArray}
    (h : compute (.binary op a b) = .ok r) : a.dtype = b.dtype := by
  rw [compute_eq] at h
  obtain ⟨o, houtline, -⟩ := exceptBind_eq_ok.mp h
  exact (Call.outline_binary.mp ⟨o, houtline⟩).1

lemma broadcast_eq_error {a b : Shape} (h : ¬ ∃ t, Shape.broadcast a b = .ok t) :
    Shape.broadcast a b = .error (.broadcast a b) := by
  unfold Shape.broadcast at h ⊢
  split
  · rename_i r hr
    exact absurd ⟨r.reverse, by rw [hr]⟩ h
  · rfl

/-- **Operations on two arrays** take their elements in step, whatever the ranks, the stretched axes
and the layouts of the operands. -/
theorem binary_combines {op : BinaryOp} {a b : NdArray} (ha : a.WellFormed) (hb : b.WellFormed) :
    CombinesElements op a b where
  accepted := by
    have hc : (Call.binary op a b).WellFormed := Call.wellFormed_binary.mpr ⟨ha, hb⟩
    rw [(compute_delivers hc).ok_iff, Call.outline_binary]
  result r t hr ht := by
    obtain ⟨d, x, y, la, lb, rfl, rfl⟩ := exists_laid (sameType_of_compute hr)
    obtain ⟨z, hz, hsize, -⟩ := compute_binary_laid op ha.within hb.within ht
    obtain rfl := Except.ok.inj (hr.symm.trans hz)
    exact ⟨rfl, hsize, rfl⟩
  elems r t hr ht ix hix := by
    obtain ⟨d, x, y, la, lb, rfl, rfl⟩ := exists_laid (sameType_of_compute hr)
    obtain ⟨z, hz, -, helems⟩ := compute_binary_laid op ha.within hb.within ht
    obtain rfl := Except.ok.inj (hr.symm.trans hz)
    obtain ⟨hba, hbb⟩ := Shape.broadcast_below ht
    have hia := Shape.restrict_mem hba hix
    have hib := Shape.restrict_mem hbb hix
    refine ⟨la.elemAt x (la.shape.restrict ix), lb.elemAt y (lb.shape.restrict ix),
      hia, NdArray.scalarAt?_laid (Layout.get?_offsetAt ha.within hia),
      hib, NdArray.scalarAt?_laid (Layout.get?_offsetAt hb.within hib), ?_⟩
    have hir := NdArray.scalarAt?_laid (helems ix hix)
    rwa [BinaryOp.scalar_eval] at hir
  typesDiffer h := by
    rw [compute_eq, Call.outline, sameType, if_neg h]
    rfl
  shapesDiffer hab ht := by
    rw [compute_eq, Call.outline, sameType, if_pos hab, exceptOk_bind, broadcast_eq_error ht]
    rfl

/-- The rows of a transposed matrix, less a vector that is stretched over them. -/
theorem binary_combines_stretched :
    ∃ r, compute (.binary .sub
        ⟨⟨.int32, .items #[10, 20, 30, 40]⟩, (Layout.contiguous [2, 2]).transposed⟩
        ⟨⟨.int32, .items #[1, 2]⟩, .contiguous [2]⟩) = .ok r ∧
      r.layout = .contiguous [2, 2] ∧ r.scalarAt? [1, 0] = some ⟨.int32, (19 : Word _)⟩ := by
  have ha : NdArray.WellFormed
      ⟨⟨.int32, .items #[10, 20, 30, 40]⟩, (Layout.contiguous [2, 2]).transposed⟩ := by decide
  have hb : NdArray.WellFormed ⟨⟨.int32, .items #[1, 2]⟩, .contiguous [2]⟩ := by decide
  have h : CombinesElements .sub _ _ := binary_combines ha hb
  obtain ⟨r, hr⟩ := h.accepted.mpr ⟨rfl, [2, 2], rfl⟩
  obtain ⟨u, v, -, hu, -, hv, helem⟩ := h.elems r [2, 2] hr rfl [1, 0] (by decide)
  obtain rfl : (20 : Word _) = u := eq_of_heq (Scalar.mk.inj (Option.some.inj hu)).2
  obtain rfl : (1 : Word _) = v := eq_of_heq (Scalar.mk.inj (Option.some.inj hv)).2
  exact ⟨r, hr, (h.result r [2, 2] hr rfl).1, helem.trans rfl⟩

end Cpu

end ArrayBench
