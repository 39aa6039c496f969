import ArrayBench.Proofs.Cpu.Alike

/-!
Independence of the layout.

Of two alike arrays one may be contiguous and the other transposed or broadcast, so that an
operation takes its short cut on one and not on the other. Alike operands still give alike results,
or the same refusal. For operations that write this needs targets whose elements lie at different
positions.
-/

namespace ArrayBench

open Edit (each)

namespace Cpu

open NdArray (SameAnswer SameOutcome laid)
open Layout (Agree)

/-! ### Writing -/

section Kernels

variable {d e : DType} {x x' y y' z z' : Buffer d.Elem} {la la' lb lb' l l' : Layout}

lemma binaryInto_sameOutcome (op : BinaryOp) {z z' : Buffer (op.resultType d).Elem}
    (ha : Agree x la x' la') (hb : Agree y lb y' lb') (hz : Agree z l z' l')
    (hn : l.offsets.Nodup) (hn' : l'.offsets.Nodup)
    (ht : Shape.broadcast la.shape lb.shape = .ok l.shape) :
    SameOutcome (binaryInto op (laid x la) (laid y lb) (laid z l))
      (binaryInto op (laid x' la') (laid y' lb') (laid z' l')) := by
  have ht' : Shape.broadcast la'.shape lb'.shape = .ok l'.shape := by
    rwa [← ha.shape, ← hb.shape, ← hz.shape]
  obtain ⟨hba, hbb⟩ := Shape.broadcast_below ht
  obtain ⟨hba', hbb'⟩ := Shape.broadcast_below ht'
  have hw := binaryInto_writes op ht (ha.left.as hba) (hb.left.as hbb) hz.left
  have hw' := binaryInto_writes op ht' (ha.right.as hba') (hb.right.as hbb') hz.right
  refine hw.sameOutcome_each hw' hz hn hn' fun ix hix => ?_
  rw [← ha.shape, ← hb.shape, ha.elemAt _ (Shape.restrict_mem hba hix),
    hb.elemAt _ (Shape.restrict_mem hbb hix)]

lemma binaryInPlace_sameOutcome (op : BinaryOp) (hr : op.resultType d = d)
    (ha : Agree x la x' la') (hb : Agree y lb y' lb') (hn : la.offsets.Nodup)
    (hn' : la'.offsets.Nodup) (ht : Shape.broadcast la.shape lb.shape = .ok la.shape) :
    SameOutcome (binaryInPlace op (laid y lb) (laid x la))
      (binaryInPlace op (laid y' lb') (laid x' la')) := by
  have ht' : Shape.broadcast la'.shape lb'.shape = .ok la'.shape := by
    rwa [← ha.shape, ← hb.shape]
  have hbb := (Shape.broadcast_below ht).2
  have hbb' := (Shape.broadcast_below ht').2
  have hw := binaryInPlace_writes op hr ht ha.left (hb.left.as hbb)
  have hw' := binaryInPlace_writes op hr ht' ha.right (hb.right.as hbb')
  refine hw.sameOutcome_each hw' ha hn hn' fun ix hix => ?_
  rw [← hb.shape, hb.elemAt _ (Shape.restrict_mem hbb hix)]

lemma scalarInto_sameOutcome (op : BinaryOp) (s : Scalar) {z z' : Buffer (op.resultType d).Elem}
    (ha : Agree x la x' la') (hz : Agree z l z' l') (hn : l.offsets.Nodup)
    (hn' : l'.offsets.Nodup) (hs : l.shape = la.shape) :
    SameOutcome (scalarInto op (laid x la) s (laid z l))
      (scalarInto op (laid x' la') s (laid z' l')) := by
  have hs' : l'.shape = la'.shape := by rw [← ha.shape, ← hz.shape, hs]
  have hw := scalarInto_writes op s hs ha.left hz.left
  have hw' := scalarInto_writes op s hs' ha.right hz.right
  refine hw.sameOutcome_each hw' hz hn hn' fun ix hix => ?_
  rw [ha.elemAt _ (hs ▸ hix)]

lemma scalarInPlace_sameOutcome (op : BinaryOp) (s : Scalar) (hr : op.resultType d = d)
    (ha : Agree x la x' la') (hn : la.offsets.Nodup) (hn' : la'.offsets.Nodup) :
    SameOutcome (scalarInPlace op s (laid x la)) (scalarInPlace op s (laid x' la')) := by
  have hw := scalarInPlace_writes op s hr ha.left
  have hw' := scalarInPlace_writes op s hr ha.right
  exact hw.sameOutcome_each hw' ha hn hn' fun _ _ => rfl

lemma unaryInto_sameOutcome (op : UnaryOp) {z z' : Buffer (op.resultType d).Elem}
    (ha : Agree x la x' la') (hz : Agree z l z' l') (hn : l.offsets.Nodup)
    (hn' : l'.offsets.Nodup) (hs : l.shape = la.shape) :
    SameOutcome (unaryInto op (laid x la) (laid z l))
      (unaryInto op (laid x' la') (laid z' l')) := by
  have hs' : l'.shape = la'.shape := by rw [← ha.shape, ← hz.shape, hs]
  have hw := unaryInto_writes op hs ha.left hz.left
  have hw' := unaryInto_writes op hs' ha.right hz.right
  refine hw.sameOutcome_each hw' hz hn hn' fun ix hix => ?_
  rw [ha.elemAt _ (hs ▸ hix)]

lemma unaryInPlace_sameOutcome (op : UnaryOp) (hr : op.resultType d = d)
    (ha : Agree x la x' la') (hn : la.offsets.Nodup) (hn' : la'.offsets.Nodup) :
    SameOutcome (unaryInPlace op (laid x la)) (unaryInPlace op (laid x' la')) := by
  have hw := unaryInPlace_writes op hr ha.left
  have hw' := unaryInPlace_writes op hr ha.right
  exact hw.sameOutcome_each hw' ha hn hn' fun _ _ => rfl

lemma matmulInto_sameOutcome {m k n : Nat} (ha : Agree x la x' la') (hb : Agree y lb y' lb')
    (hz : Agree z l z' l') (hn : l.offsets.Nodup) (hn' : l'.offsets.Nodup)
    (hsa : la.shape = [m, k]) (hsb : lb.shape = [k, n]) (hs : l.shape = [m, n]) :
    SameOutcome (matmulInto (laid x la) (laid y lb) (laid z l))
      (matmulInto (laid x' la') (laid y' lb') (laid z' l')) := by
  have hw := matmulInto_writes hsa hsb hs ha.left hb.left hz.left
  have hw' := matmulInto_writes (ha.shape ▸ hsa) (hb.shape ▸ hsb) (hz.shape ▸ hs) ha.right hb.right
    hz.right
  have hedits : productEdits (fun i p => la'.elemAt x' [i, p]) (fun p j => lb'.elemAt y' [p, j])
      m k n = productEdits (fun i p => la.elemAt x [i, p]) (fun p j => lb.elemAt y [p, j]) m k n :=
    productEdits_congr
      (fun i hi p hp => (ha.elemAt _ (by rw [hsa]; exact Layout.mem_indices₂ hi hp)).symm)
      (fun p hp j hj => (hb.elemAt _ (by rw [hsb]; exact Layout.mem_indices₂ hp hj)).symm)
  rw [hedits] at hw'
  exact hw.sameOutcome hw' (fun _ he => by rw [hs]; exact mem_productEdits he) hz hn hn'

end Kernels

/-- Whatever the layouts of alike operands, a call leaves alike targets. -/
lemma computeInto_sameOutcome {c c' : Call} {out out' : NdArray} (h : c.Alike c')
    (hc : c.WellFormed) (hc' : c'.WellFormed) (ho : out.Alike out') (hw : out.WellFormed)
    (hw' : out'.WellFormed) (hn : out.layout.offsets.Nodup) (hn' : out'.layout.offsets.Nodup) :
    SameOutcome (computeInto c out) (computeInto c' out') := by
  have hsame : c.checks out = c'.checks out' := h.checks ho
  cases hchecks : c.checks out with
  | error e =>
    rw [computeInto_of_refused hchecks, computeInto_of_refused (hsame ▸ hchecks)]
    exact ⟨rfl, ho⟩
  | ok u =>
    obtain ⟨e, z, z', l, l', rfl, rfl, gz⟩ := ho.exists_agree hw hw'
    -- the checks have made all types one, so each operation has its lemma
    cases h with
    | binary op ha hb =>
      obtain ⟨hwa, hwb⟩ := Call.wellFormed_binary.mp hc
      obtain ⟨hwa', hwb'⟩ := Call.wellFormed_binary.mp hc'
      obtain ⟨d, x, x', la, la', rfl, rfl, ga⟩ := ha.exists_agree hwa hwa'
      obtain ⟨d', y, y', lb, lb', rfl, rfl, gb⟩ := hb.exists_agree hwb hwb'
      obtain ⟨hab, hr, ht⟩ := Call.checks_binary.mp hchecks
      obtain rfl : d = d' := hab
      obtain rfl : op.resultType d = e := hr
      exact binaryInto_sameOutcome op ga gb gz hn hn' ht
    | scalar op s ha =>
      obtain ⟨d, x, x', la, la', rfl, rfl, ga⟩ :=
        ha.exists_agree (Call.wellFormed_scalar.mp hc) (Call.wellFormed_scalar.mp hc')
      obtain ⟨hr, hs⟩ := Call.checks_scalar.mp hchecks
      obtain rfl : op.resultType d = e := hr
      exact scalarInto_sameOutcome op s ga gz hn hn' hs
    | unary op ha =>
      obtain ⟨d, x, x', la, la', rfl, rfl, ga⟩ :=
        ha.exists_agree (Call.wellFormed_unary.mp hc) (Call.wellFormed_unary.mp hc')
      obtain ⟨hr, hs⟩ := Call.checks_unary.mp hchecks
      obtain rfl : op.resultType d = e := hr
      exact unaryInto_sameOutcome op ga gz hn hn' hs
    | matmul ha hb =>
      obtain ⟨hwa, hwb⟩ := Call.wellFormed_matmul.mp hc
      obtain ⟨hwa', hwb'⟩ := Call.wellFormed_matmul.mp hc'
      obtain ⟨d, x, x', la, la', rfl, rfl, ga⟩ := ha.exists_agree hwa hwa'
      obtain ⟨d', y, y', lb, lb', rfl, rfl, gb⟩ := hb.exists_agree hwb hwb'
      obtain ⟨hab, hr, m, k, n, hsa, hsb, hs⟩ := Call.checks_matmul.mp hchecks
      obtain rfl : d = d' := hab
      obtain rfl : d = e := hr
      exact matmulInto_sameOutcome ga gb gz hn hn' hsa hsb hs

lemma change_sameOutcome {ch ch' : Change} {a a' : NdArray} (h : ch.Alike ch')
    (hc : ch.WellFormed) (hc' : ch'.WellFormed) (ha : a.Alike a') (hw : a.WellFormed)
    (hw' : a'.WellFormed) (hn : a.layout.offsets.Nodup) (hn' : a'.layout.offsets.Nodup) :
    SameOutcome (change ch a) (change ch' a') := by
  have hsame : ch.checks a = ch'.checks a' := h.checks ha
  cases hchecks : ch.checks a with
  | error e =>
    rw [change_of_refused hchecks, change_of_refused (hsame ▸ hchecks)]
    exact ⟨rfl, ha⟩
  | ok u =>
    obtain ⟨d, x, x', la, la', rfl, rfl, ga⟩ := ha.exists_agree hw hw'
    cases h with
    | binary op hb =>
      obtain ⟨d', y, y', lb, lb', rfl, rfl, gb⟩ :=
        hb.exists_agree (Change.wellFormed_binary.mp hc) (Change.wellFormed_binary.mp hc')
      obtain ⟨hab, hr, ht⟩ := Change.checks_binary.mp hchecks
      obtain rfl : d = d' := hab
      exact binaryInPlace_sameOutcome op hr ga gb hn hn' ht
    | scalar op s =>
      exact scalarInPlace_sameOutcome op s (Change.checks_scalar.mp hchecks) ga hn hn'
    | unary op => exact unaryInPlace_sameOutcome op (Change.checks_unary.mp hchecks) ga hn hn'

/-! ### Making results -/

/-- Both results are written into the same new array. -/
lemma compute_sameAnswer {c c' : Call} (h : c.Alike c') (hc : c.WellFormed)
    (hc' : c'.WellFormed) : SameAnswer (compute c) (compute c') := by
  rw [compute_eq, compute_eq, ← h.outline]
  cases ho : c.outline with
  | error e => rfl
  | ok o =>
    have hwf := NdArray.wellFormed_empty o.1 o.2
    have hn : (NdArray.empty o.1 o.2).layout.offsets.Nodup := Layout.nodup_offsets_contiguous o.1
    exact (computeInto_sameOutcome h hc hc' (.refl _) hwf hwf hn hn).updated

lemma sum_eq_of_alike {a a' : NdArray} (h : a.Alike a') (ha : a.WellFormed)
    (ha' : a'.WellFormed) : sum a = sum a' := by
  obtain ⟨d, x, x', l, l', rfl, rfl, g⟩ := h.exists_agree ha ha'
  have hvalues : sumElems x l = sumElems x' l' := by
    rw [sumElems_eq g.left, sumElems_eq g.right, ← g.shape, List.map_congr_left g.elemAt]
  exact congrArg (fun v => v >>= fun s => pure (Scalar.mk d.sumType s)) hvalues

lemma axisSums_eq_of_agree {d : DType} {x x' : Buffer d.Elem} {l l' : Layout}
    (g : Agree x l x' l') {k : Nat} (hk : k < l.axes.length) :
    axisSums x l k (l.axes[k]).size (l.shape.eraseIdx k) =
      axisSums x' l' k (l.axes[k]).size (l.shape.eraseIdx k) := by
  refine List.map_congr_left fun ix hix => congrArg (List.foldl _ _) ?_
  refine List.map_congr_left fun i hi => ?_
  rw [Layout.shape, List.eraseIdx_map] at hix
  exact g.elemAt _ (Layout.insertIdx_mem_indices hk hix (List.mem_range.mp hi))

lemma sumAxis_sameAnswer {a a' : NdArray} (h : a.Alike a') (ha : a.WellFormed)
    (ha' : a'.WellFormed) (k : Nat) : SameAnswer (sumAxis a k) (sumAxis a' k) := by
  obtain ⟨d, x, x', l, l', rfl, rfl, g⟩ := h.exists_agree ha ha'
  have hrank : l.axes.length = l'.axes.length := by
    simpa [Layout.shape] using congrArg List.length g.shape
  rcases Nat.lt_or_ge k l.axes.length with hk | hk
  · have hk' : k < l'.axes.length := hrank ▸ hk
    have hsize : (l.axes[k]).size = (l'.axes[k]).size := by
      simpa [Layout.shape, hk, hk'] using congrArg (fun s : Shape => s[k]?) g.shape
    rw [sumAxis_laid g.left hk, sumAxis_laid g.right hk', ← hsize, ← g.shape,
      axisSums_eq_of_agree g hk]
    exact .refl _
  · rw [sumAxis_of_le hk, sumAxis_of_le (hrank ▸ hk)]
    exact congrArg _ hrank

/-! ### All of it together -/

/-- Nothing that an operation answers or leaves behind tells how its operands lie in storage. -/
structure LayoutIndependent : Prop where
  compute : ∀ c c' : Call, c.Alike c' → c.WellFormed → c'.WellFormed →
    SameAnswer (compute c) (compute c')
  sum : ∀ a a' : NdArray, a.Alike a' → a.WellFormed → a'.WellFormed → sum a = sum a'
  sumAxis : ∀ (a a' : NdArray) (k : Nat), a.Alike a' → a.WellFormed → a'.WellFormed →
    SameAnswer (sumAxis a k) (sumAxis a' k)
  computeInto : ∀ (c c' : Call) (out out' : NdArray), c.Alike c' → c.WellFormed → c'.WellFormed →
    out.Alike out' → out.WellFormed → out'.WellFormed →
    out.layout.offsets.Nodup → out'.layout.offsets.Nodup →
    SameOutcome (computeInto c out) (computeInto c' out')
  change : ∀ (ch ch' : Change) (a a' : NdArray), ch.Alike ch' → ch.WellFormed → ch'.WellFormed →
    a.Alike a' → a.WellFormed → a'.WellFormed →
    a.layout.offsets.Nodup → a'.layout.offsets.Nodup →
    SameOutcome (change ch a) (change ch' a')

/-- **Layout independence**: operands with the same types, shapes and elements are interchangeable,
however they lie in storage and whichever loop the operation takes for them. -/
theorem layout_independent : LayoutIndependent where
  compute _ _ := compute_sameAnswer
  sum _ _ := sum_eq_of_alike
  sumAxis _ _ k h ha ha' := sumAxis_sameAnswer h ha ha' k
  computeInto _ _ _ _ := computeInto_sameOutcome
  change _ _ _ _ := change_sameOutcome

end Cpu

end ArrayBench
