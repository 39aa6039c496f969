import ArrayBench.Proofs.Cpu.Safety
import ArrayBench.Proofs.Layout.Walks
import ArrayBench.Proofs.Number.Sums
import ArrayBench.Proofs.Shape.Exchange

/-!
Sums over all elements and along one axis.

Each element is widened and then added, from zero, so that a sum is a fold over the elements in
row-major order, and a sum along an axis one such fold for each index of the other axes. This holds
for every layout: the elements that lie along an axis are found from the first of them by whole
strides. On integers the sums are the exact ones up to multiples of `2 ^ 64`. Where the axis has no
elements nothing is added to the zeros.
-/

namespace ArrayBench

open NdArray (Holds laid)

namespace NdArray

variable {d : DType}

/-- An array that lists the values of a function in row-major order holds these values. -/
lemma holds_listed (s : Shape) (f : List Nat → d.Elem) :
    (laid (.items (s.indices.map f).toArray) (.contiguous s)).Holds f := by
  refine ⟨rfl, fun ix hix => ?_⟩
  have hs : (laid (.items (s.indices.map f).toArray) (.contiguous s)).shape = s :=
    Layout.shape_contiguous s
  rw [hs] at hix
  have hplace : s.indices[s.position ix]? = some ix :=
    Shape.getElem?_indices.mpr ⟨Shape.mem_indices_iff.mp hix, rfl⟩
  rw [elem?_laid, Layout.offsetAt_contiguous]
  simp [Buffer.get?, hplace]

end NdArray

namespace Cpu

variable {d : DType}

lemma sum_of_holds {a : NdArray} {v : List Nat → d.Elem} (h : a.Holds v) :
    sum a = .ok ⟨d.sumType, (a.shape.indices.map v).foldl addWide d.sumType.zero⟩ := by
  obtain ⟨x, l, rfl, hx, hv⟩ := h.exists_laid
  have hsum := sumElems_eq hx
  rw [List.map_congr_left hv] at hsum
  have hrun : sum (laid x l) = (sumElems x l >>= fun s => .ok ⟨d.sumType, s⟩) := rfl
  rw [hrun, hsum]
  rfl

lemma sumAxis_of_holds {a : NdArray} {v : List Nat → d.Elem} (h : a.Holds v) {k n : Nat}
    (hk : a.shape[k]? = some n) :
    ∃ r, sumAxis a k = .ok r ∧ r.layout = .contiguous (a.shape.eraseIdx k) ∧
      r.storage.size = Shape.numel (a.shape.eraseIdx k) ∧
      r.Holds fun jx =>
        ((List.range n).map fun i => v (jx.insertIdx k i)).foldl addWide d.sumType.zero := by
  obtain ⟨x, l, rfl, hx, hv⟩ := h.exists_laid
  obtain ⟨hlt, hn⟩ := List.getElem?_eq_some_iff.mp hk
  have hlt' : k < l.axes.length := by rwa [← List.length_map (f := Axis.size)]
  have hsize : (l.axes[k]).size = n := by rw [← hn]; exact (List.getElem_map ..).symm
  -- along the axis the elements are those at the index with one coordinate put back
  have hsums : axisSums x l k (l.axes[k]).size (l.shape.eraseIdx k) =
      (Shape.indices (l.shape.eraseIdx k)).map fun jx =>
        ((List.range n).map fun i => v (jx.insertIdx k i)).foldl addWide d.sumType.zero := by
    rw [hsize]
    refine List.map_congr_left fun jx hjx => congrArg (List.foldl _ _) ?_
    refine List.map_congr_left fun i hi => ?_
    rw [Layout.shape, List.eraseIdx_map] at hjx
    refine hv _ (Layout.insertIdx_mem_indices hlt' hjx ?_)
    rw [hsize]
    exact List.mem_range.mp hi
  have hrun := sumAxis_laid hx hlt'
  rw [hsums] at hrun
  refine ⟨_, hrun, rfl, ?_, NdArray.holds_listed _ _⟩
  exact (List.size_toArray ..).trans ((List.length_map _).trans (Shape.length_indices _))

lemma sumAxis_of_ndim_le {a : NdArray} {k : Nat} (h : a.ndim ≤ k) :
    sumAxis a k = .error (.invalidAxis k a.ndim) := by
  have hrank : a.ndim = a.layout.axes.length := List.length_map _
  rw [hrank] at h ⊢
  exact sumAxis_of_le h

lemma sumAxis_ok_iff {a : NdArray} {v : List Nat → d.Elem} (h : a.Holds v) (k : Nat) :
    (∃ r, sumAxis a k = .ok r) ↔ k < a.ndim := by
  constructor
  · rintro ⟨r, hr⟩
    by_contra hk
    rw [sumAxis_of_ndim_le (Nat.le_of_not_lt hk)] at hr
    cases hr
  · intro hk
    obtain ⟨r, hr, -⟩ := sumAxis_of_holds h (List.getElem?_eq_getElem hk)
    exact ⟨r, hr⟩

/-! ### Sums of integers -/

section Integers

variable {t : IntType} {a : NdArray} {v : List Nat → Word t}

/-- Integers may be added exactly and the sum be reduced at the end. -/
lemma foldl_addWide_int {ι : Type} (is : List ι) (v : ι → Word t) :
    ((is.map v).foldl (addWide (d := .int t)) (DType.int t).sumType.zero :
      Word ⟨t.signed, .w64⟩) = Word.ofInt (is.map fun i => (v i).val).sum := by
  have hsum := Word.foldl_add_ofInt (t := ⟨t.signed, .w64⟩) (fun i => (v i).val) is 0
  rw [Int.zero_add] at hsum
  exact List.foldl_map.trans hsum

lemma sum_of_holds_int (h : a.Holds (d := .int t) v) :
    sum a = .ok ⟨.int ⟨t.signed, .w64⟩, Word.ofInt (a.shape.total fun ix => (v ix).val)⟩ := by
  have hvalue := foldl_addWide_int a.shape.indices v
  exact (sum_of_holds h).trans
    (congrArg (fun s => Except.ok (Scalar.mk (.int ⟨t.signed, .w64⟩) s)) hvalue)

lemma sumAxis_of_holds_int (h : a.Holds (d := .int t) v) {k n : Nat}
    (hk : a.shape[k]? = some n) :
    ∃ r, sumAxis a k = .ok r ∧ r.layout = .contiguous (a.shape.eraseIdx k) ∧
      r.Holds (d := .int ⟨t.signed, .w64⟩) fun jx =>
        Word.ofInt ((List.range n).map fun i => (v (jx.insertIdx k i)).val).sum := by
  obtain ⟨r, hr, hlayout, -, hholds⟩ := sumAxis_of_holds h hk
  refine ⟨r, hr, hlayout, hholds.dtype, fun jx hjx => (hholds.elem jx hjx).trans ?_⟩
  exact congrArg some (foldl_addWide_int (List.range n) fun i => v (jx.insertIdx k i))

end Integers

/-! ### All of it together -/

structure SumsElements (a : NdArray) : Prop where
  accepted : ∀ k, (∃ r, sumAxis a k = .ok r) ↔ k < a.ndim
  refused : ∀ k, a.ndim ≤ k → sumAxis a k = .error (.invalidAxis k a.ndim)
  result : ∀ k r, sumAxis a k = .ok r → r.shape = a.shape.eraseIdx k ∧
    r.layout = .contiguous r.shape ∧ r.storage.size = r.numel ∧ r.dtype = a.dtype.sumType
  /-- Widened elements are added in row-major order, from zero. -/
  folds : ∃ v : List Nat → a.dtype.Elem, a.Holds v ∧
    sum a = .ok ⟨a.dtype.sumType, a.shape.indices.foldl
      (fun acc ix => BinaryOp.add.within acc (DType.widen (v ix))) a.dtype.sumType.zero⟩ ∧
    ∀ k n r, a.shape[k]? = some n → sumAxis a k = .ok r → r.Holds fun jx =>
      (List.range n).foldl
        (fun acc i => BinaryOp.add.within acc (DType.widen (v (jx.insertIdx k i))))
        a.dtype.sumType.zero
  /-- On integers these are the exact sums, reduced to 64 bits. -/
  wraps : ∀ (t : IntType) (v : List Nat → Word t), a.Holds (d := .int t) v →
    (∃ s : Word ⟨t.signed, .w64⟩, sum a = .ok ⟨.int ⟨t.signed, .w64⟩, s⟩ ∧
      s.IsSum (a.shape.indices.map fun ix => (v ix).val)) ∧
    ∀ k n r, a.shape[k]? = some n → sumAxis a k = .ok r →
      ∃ u : List Nat → Word ⟨t.signed, .w64⟩, r.Holds (d := .int ⟨t.signed, .w64⟩) u ∧
        ∀ jx, (u jx).IsSum ((List.range n).map fun i => (v (jx.insertIdx k i)).val)
  empty : ∀ k r, a.shape[k]? = some 0 → sumAxis a k = .ok r → r.Holds fun _ => a.dtype.sumType.zero

/-- **Sums**: whatever the layout of an array, its elements are added up in row-major order, and
along any of its axes in the order of that axis. -/
theorem sums_elements {a : NdArray} (ha : a.WellFormed) : SumsElements a := by
  obtain ⟨v, hv⟩ := ha.holds
  have hline : ∀ {k n : Nat} {r : NdArray}, a.shape[k]? = some n → sumAxis a k = .ok r →
      r.layout = .contiguous (a.shape.eraseIdx k) ∧
      r.storage.size = Shape.numel (a.shape.eraseIdx k) ∧ r.Holds fun jx =>
        ((List.range n).map fun i => v (jx.insertIdx k i)).foldl addWide a.dtype.sumType.zero := by
    intro k n r hk hr
    obtain ⟨r', hr', h⟩ := sumAxis_of_holds hv hk
    obtain rfl := Except.ok.inj (hr.symm.trans hr')
    exact h
  refine
    { accepted := sumAxis_ok_iff hv
      refused := fun k => sumAxis_of_ndim_le
      result := fun k r hr => ?_
      folds := ⟨v, hv, ?_, fun k n r hk hr => ?_⟩
      wraps := fun t w hw => ⟨⟨_, sum_of_holds_int hw, Word.isSum_ofInt _⟩, fun k n r hk hr => ?_⟩
      empty := fun k r hk hr => (hline hk hr).2.2 }
  · have hk : k < a.ndim := (sumAxis_ok_iff hv k).mp ⟨r, hr⟩
    obtain ⟨hlayout, hsize, hholds⟩ := hline (List.getElem?_eq_getElem hk) hr
    have hshape : r.shape = a.shape.eraseIdx k := by
      rw [NdArray.shape, hlayout, Layout.shape_contiguous]
    rw [NdArray.numel, hshape]
    exact ⟨rfl, hlayout, hsize, hholds.dtype⟩
  · rw [sum_of_holds hv, List.foldl_map]
    rfl
  · have hholds := (hline hk hr).2.2
    simp only [List.foldl_map] at hholds
    exact hholds
  · obtain ⟨r', hr', -, hholds⟩ := sumAxis_of_holds_int hw hk
    obtain rfl := Except.ok.inj (hr.symm.trans hr')
    exact ⟨_, hholds, fun jx => Word.isSum_ofInt _⟩

/-- The rows of a transposed matrix of bytes. The first sum is out of the range of bytes. -/
theorem sums_elements_transposed :
    ∃ (r : NdArray) (s : Word ⟨true, .w64⟩),
      sumAxis ⟨⟨.int8, .items #[100, 100, 100, 1, 2, 3]⟩, (Layout.contiguous [2, 3]).transposed⟩ 0 =
          .ok r ∧
        r.shape = [2] ∧ r.elem? .int64 [0] = some s ∧ s.val = 300 := by
  have ha : NdArray.WellFormed
      ⟨⟨.int8, .items #[100, 100, 100, 1, 2, 3]⟩, (Layout.contiguous [2, 3]).transposed⟩ := by decide
  have hsums := sums_elements ha
  obtain ⟨r, hr⟩ := (hsums.accepted 0).mpr (by decide)
  have hshape : r.shape = [2] := (hsums.result 0 r hr).1
  obtain ⟨u, hu, hsum⟩ := (hsums.wraps _ _ (NdArray.holds_laid ha.within)).2 0 3 r rfl hr
  have helem := hu.elem [0] (by rw [hshape]; decide)
  exact ⟨r, u [0], hr, hshape, helem, (hsum [0]).exact (by decide) (by decide)⟩

end Cpu

end ArrayBench
