import ArrayBench.Proofs.Cpu.Forms
import ArrayBench.Proofs.Number.Sums

/-!
Products of matrices.

The rows of the right operand are added to a row of the result one after the other, each scaled, so
that the sums of a whole row grow together. Where no two elements of the target share a position
these sums do not disturb each other: each element ends as the sum of its own products, from zero
and in the order of the inner dimension, whatever the layouts of the three matrices are and whatever
the target held. On integers that is the exact sum of products up to multiples of `2 ^ bits`.
-/

namespace ArrayBench

open NdArray (Holds Rewritten laid)

namespace Cpu

variable {d : DType}

/-- On integers the terms of a sum of products may be multiplied and added exactly, and be reduced
at the end. -/
lemma dotProduct_int {t : IntType} (k : Nat) (v w : Nat → Word t) :
    dotProduct (d := .int t) k v w =
      Word.ofInt ((List.range k).map fun p => (v p).val * (w p).val).sum := by
  have hsum := Word.foldl_add_ofInt (t := t) (fun p => (v p).val * (w p).val) (List.range k) 0
  rw [Int.zero_add] at hsum
  exact hsum

/-- The run of a product on operands that hold all their elements. -/
lemma matmulInto_of_holds {a b out : NdArray} {m k n : Nat} {v w : List Nat → d.Elem}
    (ha : a.Holds v) (hb : b.Holds w) (hd : out.dtype = d) (ho : out.WellFormed)
    (hsa : a.shape = [m, k]) (hsb : b.shape = [k, n]) (hso : out.shape = [m, n])
    (hn : out.layout.offsets.Nodup) :
    ∃ r, matmulInto a b out = .ok () r ∧ Rewritten out r ∧ ∀ i < m, ∀ j < n,
      r.elem? d [i, j] = some (dotProduct k (fun p => v [i, p]) (fun p => w [p, j])) := by
  obtain ⟨x, la, rfl, hx, hv⟩ := ha.exists_laid
  obtain ⟨y, lb, rfl, hy, hw⟩ := hb.exists_laid
  obtain ⟨⟨d', z⟩, l⟩ := out
  obtain rfl : d' = d := hd
  have hla : la.shape = [m, k] := hsa
  have hlb : lb.shape = [k, n] := hsb
  have hl : l.shape = [m, n] := hso
  have hz : l.Within z.size := ho.within
  -- the loops read the elements of the operands and nothing between them
  have hedits : productEdits (fun i p => la.elemAt x [i, p]) (fun p j => lb.elemAt y [p, j]) m k n =
      productEdits (fun i p => v [i, p]) (fun p j => w [p, j]) m k n :=
    productEdits_congr
      (fun i hi p hp => hv _ (by rw [hla]; exact Layout.mem_indices₂ hi hp))
      (fun p hp j hj => hw _ (by rw [hlb]; exact Layout.mem_indices₂ hp hj))
  obtain ⟨z', hrun, hedited⟩ := matmulInto_writes hla hlb hl hx hy hz
  rw [hedits] at hedited
  have hmem : ∀ e ∈ productEdits (fun i p => v [i, p]) (fun p j => w [p, j]) m k n,
      e.1 ∈ l.shape.indices := fun e he => by
    rw [hl]
    exact mem_productEdits he
  refine ⟨_, hrun, NdArray.rewritten_of_edited hedited hmem, fun i hi j hj => ?_⟩
  have hij : [i, j] ∈ l.shape.indices := by
    rw [hl]
    exact Layout.mem_indices₂ hi hj
  have hz' : l.Within z'.size := by rwa [hedited.size]
  rw [NdArray.elem?_laid, Layout.get?_offsetAt hz' hij,
    Layout.elemAt_edited hedited hn hmem hz hij, effect_productEdits _ _ hi hj]

structure TakesProduct (a b out : NdArray) (m k n : Nat) : Prop where
  /-- Each element is a sum of products in the order of the inner dimension, from zero. What lies
  between the elements is kept. -/
  folds : ∃ (v w : List Nat → out.dtype.Elem) (r : NdArray), a.Holds v ∧ b.Holds w ∧
    matmulInto a b out = .ok () r ∧ Rewritten out r ∧ ∀ i < m, ∀ j < n,
      r.elem? out.dtype [i, j] = some ((List.range k).foldl
        (fun acc p => BinaryOp.add.within acc (BinaryOp.mul.within (v [i, p]) (w [p, j])))
        out.dtype.zero)
  /-- On integers this is the exact sum of products, reduced to the format. -/
  wraps : ∀ (t : IntType) (v w : List Nat → Word t) (r : NdArray),
    a.Holds (d := .int t) v → b.Holds (d := .int t) w → matmulInto a b out = .ok () r →
      ∀ i < m, ∀ j < n, ∃ s : Word t, r.elem? (.int t) [i, j] = some s ∧
        s.IsSum ((List.range k).map fun p => (v [i, p]).val * (w [p, j]).val)

/-- **Products of matrices**: whatever the sizes and the layouts of the operands and of the target,
each element of the target becomes the sum of its products. -/
theorem matmul_takes_product {a b out : NdArray} {m k n : Nat} (ha : a.WellFormed)
    (hb : b.WellFormed) (ho : out.WellFormed) (hab : a.dtype = b.dtype)
    (hao : a.dtype = out.dtype) (hsa : a.shape = [m, k]) (hsb : b.shape = [k, n])
    (hso : out.shape = [m, n]) (hn : out.layout.offsets.Nodup) : TakesProduct a b out m k n where
  folds := by
    obtain ⟨v, hv⟩ : ∃ v : List Nat → out.dtype.Elem, a.Holds v := hao ▸ ha.holds
    obtain ⟨w, hw⟩ : ∃ w : List Nat → out.dtype.Elem, b.Holds w := (hab.symm.trans hao) ▸ hb.holds
    obtain ⟨r, hr, hrewritten, helem⟩ := matmulInto_of_holds hv hw rfl ho hsa hsb hso hn
    exact ⟨v, w, r, hv, hw, hr, hrewritten, helem⟩
  wraps t v w r hv hw hr i hi j hj := by
    have hd : out.dtype = .int t := hao.symm.trans hv.dtype
    obtain ⟨r', hr', -, helem⟩ := matmulInto_of_holds hv hw hd ho hsa hsb hso hn
    obtain ⟨-, rfl⟩ := EStateM.Result.ok.inj (hr.symm.trans hr')
    refine ⟨_, (helem i hi j hj).trans (congrArg some (dotProduct_int k _ _)), ?_⟩
    exact Word.isSum_ofInt _

/-- A matrix of bytes times its own transpose, over the old elements of a matrix that lies in storage
column by column with a gap before each column. The last sum of products is `200 * 200 + 3 * 3`. -/
theorem matmul_takes_product_bytes :
    ∃ (r : NdArray) (s : Word ⟨false, .w8⟩),
      matmulInto ⟨⟨.uint8, .items #[1, 2, 200, 3]⟩, .contiguous [2, 2]⟩
          ⟨⟨.uint8, .items #[1, 2, 200, 3]⟩, (Layout.contiguous [2, 2]).transposed⟩
          ⟨.filled .uint8 6 (.ofFloat .uint8 7), ⟨[⟨2, 1⟩, ⟨2, 3⟩], 1⟩⟩ = .ok () r ∧
        r.elem? .uint8 [1, 1] = some s ∧ s.val = 40009 % 256 := by
  have ha : NdArray.WellFormed ⟨⟨.uint8, .items #[1, 2, 200, 3]⟩, .contiguous [2, 2]⟩ := by decide
  have hb : NdArray.WellFormed
      ⟨⟨.uint8, .items #[1, 2, 200, 3]⟩, (Layout.contiguous [2, 2]).transposed⟩ := by decide
  have ho : NdArray.WellFormed
      ⟨.filled .uint8 6 (.ofFloat .uint8 7), ⟨[⟨2, 1⟩, ⟨2, 3⟩], 1⟩⟩ := by decide
  have hproduct := matmul_takes_product (m := 2) (k := 2) (n := 2) ha hb ho rfl rfl rfl rfl rfl
    (by decide)
  obtain ⟨-, -, r, -, -, hr, -, -⟩ := hproduct.folds
  obtain ⟨s, hs, hsum⟩ := hproduct.wraps _ _ _ r (NdArray.holds_laid ha.within)
    (NdArray.holds_laid hb.within) hr 1 (by decide) 1 (by decide)
  have hmod : s.val % 256 = 40009 % 256 := hsum.emod
  have hlo : 0 ≤ s.val := s.lo_le
  have hhi : s.val ≤ 255 := s.le_hi
  exact ⟨r, s, hr, hs, by omega⟩

end Cpu

end ArrayBench
