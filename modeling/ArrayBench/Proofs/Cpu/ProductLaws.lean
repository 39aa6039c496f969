import Mathlib.Algebra.BigOperators.Ring.List
import ArrayBench.Proofs.Cpu.Products
import ArrayBench.Proofs.Cpu.Results
import ArrayBench.Proofs.Cpu.SumOrder
import ArrayBench.Proofs.Number.Exact
import ArrayBench.Proofs.Shape.Exchange

/-!
Laws of products of integer matrices.

An element of a product is the residue of an exact sum of products, so the laws of exact matrices
hold for matrices of words. The factors of a term may be exchanged: a transposed product is the
product of the transposed matrices in the other order. Two finite sums may be exchanged, and it does
not matter that the elements of the product taken first are reduced before they are used: the
product of three matrices is the same from either side.
-/

namespace ArrayBench

open NdArray (Holds laid)

namespace Word

variable {t : IntType}

/-- A factor may be reduced before it is used. -/
lemma ofInt_val_mul (x y : Int) : (ofInt ((ofInt x : Word t).val * y) : Word t) = ofInt (x * y) := by
  calc (ofInt ((ofInt x : Word t).val * y) : Word t)
      = ofInt (ofInt x : Word t).val * ofInt y := (ofInt_mul_ofInt _ _).symm
    _ = ofInt x * ofInt y := by rw [ofInt_val]
    _ = ofInt (x * y) := ofInt_mul_ofInt x y

lemma ofInt_mul_val (x y : Int) : (ofInt (x * (ofInt y : Word t).val) : Word t) = ofInt (x * y) := by
  rw [Int.mul_comm, ofInt_val_mul, Int.mul_comm]

end Word

namespace NdArray

variable {d : DType} {a b : NdArray} {v w : List Nat → d.Elem}

lemma Holds.toElems (h : a.Holds v) : a.toElems d = .ok (a.shape.indices.map v) := by
  obtain ⟨x, l, rfl, hx, hv⟩ := h.exists_laid
  rw [toElems_laid hx]
  exact congrArg Except.ok (List.map_congr_left hv)

lemma Holds.alike (ha : a.Holds v) (hb : b.Holds w) (hs : a.shape = b.shape)
    (hvw : ∀ ix ∈ a.shape.indices, v ix = w ix) : a.Alike b := by
  obtain ⟨x, l, rfl, hx, hv⟩ := ha.exists_laid
  obtain ⟨y, m, rfl, hy, hw⟩ := hb.exists_laid
  have hshape : l.shape = m.shape := hs
  refine alike_of_agree ⟨hshape, fun ix hix => ?_, hx, hy⟩
  rw [hv ix hix, hw ix (hshape ▸ hix), hvw ix hix]

structure SameWords (t : IntType) (a b : NdArray) : Prop extends Alike a b where
  words : ∃ us : List (Word t), a.toElems (.int t) = .ok us ∧ b.toElems (.int t) = .ok us

lemma Holds.sameWords {t : IntType} {v w : List Nat → Word t} (ha : a.Holds (d := .int t) v)
    (hb : b.Holds (d := .int t) w) (hs : a.shape = b.shape)
    (hvw : ∀ ix ∈ a.shape.indices, v ix = w ix) : SameWords t a b := by
  have halike := ha.alike hb hs hvw
  exact ⟨halike, _, ha.toElems, (halike.elems _).symm.trans ha.toElems⟩

end NdArray

namespace Cpu

variable {t : IntType}

/-! ### Sums of products -/

lemma dotProduct_comm (k : Nat) (v w : Nat → Word t) :
    dotProduct (d := .int t) k v w = dotProduct (d := .int t) k w v := by
  rw [dotProduct_int, dotProduct_int]
  simp only [Int.mul_comm]

/-- A row times a matrix times a column, from either side. -/
lemma dotProduct_assoc (k l : Nat) (u : Nat → Word t) (v : Nat → Nat → Word t) (w : Nat → Word t) :
    dotProduct (d := .int t) l (fun q => dotProduct (d := .int t) k u fun p => v p q) w =
      dotProduct (d := .int t) k u fun p => dotProduct (d := .int t) l (v p) w := by
  have hleft : ∀ q, ((List.range k).map fun p => (u p).val * (v p q).val).sum * (w q).val =
      ((List.range k).map fun p => (u p).val * (v p q).val * (w q).val).sum := fun q =>
    (List.sum_map_mul_right ..).symm
  have hright : ∀ p, ((List.range l).map fun q => (u p).val * (v p q).val * (w q).val).sum =
      (u p).val * ((List.range l).map fun q => (v p q).val * (w q).val).sum := fun p => by
    rw [← List.sum_map_mul_left]
    simp only [Int.mul_assoc]
  simp only [dotProduct_int]
  -- reduced only at the end, both sides are sums of the same products, in another order
  calc (Word.ofInt ((List.range l).map fun q =>
          (Word.ofInt ((List.range k).map fun p => (u p).val * (v p q).val).sum : Word t).val *
            (w q).val).sum : Word t)
      = Word.ofInt ((List.range l).map fun q =>
          ((List.range k).map fun p => (u p).val * (v p q).val * (w q).val).sum).sum :=
        Word.ofInt_sum_congr fun q _ => by rw [Word.ofInt_val_mul, hleft]
    _ = Word.ofInt ((List.range k).map fun p =>
          ((List.range l).map fun q => (u p).val * (v p q).val * (w q).val).sum).sum := by
        rw [sum_map_comm]
    _ = Word.ofInt ((List.range k).map fun p => (u p).val *
          (Word.ofInt ((List.range l).map fun q => (v p q).val * (w q).val).sum : Word t).val).sum :=
        Word.ofInt_sum_congr fun p _ => by rw [Word.ofInt_mul_val, hright]

/-! ### Products of matrices -/

variable {a b c : NdArray} {m k l n : Nat}

lemma matmul_holds {u v : List Nat → Word t} (ha : a.Holds (d := .int t) u)
    (hb : b.Holds (d := .int t) v) (hsa : a.shape = [m, k]) (hsb : b.shape = [k, n]) :
    ∃ r, matmul a b = .ok r ∧ r.shape = [m, n] ∧
      r.Holds (d := .int t) (Call.productAt (d := .int t) k u v) :=
  (Call.yields_matmul ha hb hsa hsb).fresh

lemma holds_words (h : a.WellFormed) (hd : a.dtype = .int t) :
    ∃ u : List Nat → Word t, a.Holds (d := .int t) u := by
  obtain ⟨⟨d, x⟩, l⟩ := a
  obtain rfl : d = .int t := hd
  exact h.holds

lemma shape_transposed_matrix (hs : a.shape = [m, k]) : a.transposed.shape = [k, m] :=
  (Layout.shape_transposed a.layout).trans (congrArg List.reverse hs)

/-- **Transposed products**: for matrices of words in any layouts, the product of the transposed
matrices in the other order is the transposed product. -/
theorem matmul_transposed (ha : a.WellFormed) (hb : b.WellFormed) (hda : a.dtype = .int t)
    (hdb : b.dtype = .int t) (hsa : a.shape = [m, k]) (hsb : b.shape = [k, n]) :
    ∃ r r', matmul a b = .ok r ∧ matmul b.transposed a.transposed = .ok r' ∧
      r'.SameWords t r.transposed := by
  obtain ⟨u, hu⟩ := holds_words ha hda
  obtain ⟨v, hv⟩ := holds_words hb hdb
  obtain ⟨r, hr, hsr, hholds⟩ := matmul_holds hu hv hsa hsb
  obtain ⟨r', hr', hsr', hholds'⟩ := matmul_holds (NdArray.holds_transposed hv)
    (NdArray.holds_transposed hu) (shape_transposed_matrix hsb) (shape_transposed_matrix hsa)
  have hshape : r'.shape = r.transposed.shape := by rw [hsr', shape_transposed_matrix hsr]
  refine ⟨r, r', hr, hr', hholds'.sameWords (NdArray.holds_transposed hholds) hshape ?_⟩
  intro ix hix
  rw [hsr'] at hix
  obtain ⟨j, -, i, -, rfl⟩ := Layout.exists_of_mem_indices₂ hix
  exact dotProduct_comm k _ _

/-- Bytes in row-major order times the same bytes column by column. Both products wrap. -/
theorem matmul_transposed_bytes :
    ∃ r r', matmul ⟨⟨.int8, .items #[100, 2, 3, 4, 5, 6]⟩, .contiguous [2, 3]⟩
          ⟨⟨.int8, .items #[100, 2, 3, 4, 5, 6]⟩, (Layout.contiguous [2, 3]).transposed⟩ = .ok r ∧
      matmul
          (NdArray.transposed
            ⟨⟨.int8, .items #[100, 2, 3, 4, 5, 6]⟩, (Layout.contiguous [2, 3]).transposed⟩)
          (NdArray.transposed ⟨⟨.int8, .items #[100, 2, 3, 4, 5, 6]⟩, .contiguous [2, 3]⟩) = .ok r' ∧
      r'.SameWords ⟨true, .w8⟩ r.transposed :=
  matmul_transposed (k := 3) (by decide) (by decide) rfl rfl rfl rfl

/-- **Products of three matrices**: for matrices of words in any layouts it does not matter which
product is taken first, although its elements are reduced to the format. -/
theorem matmul_assoc (ha : a.WellFormed) (hb : b.WellFormed) (hc : c.WellFormed)
    (hda : a.dtype = .int t) (hdb : b.dtype = .int t) (hdc : c.dtype = .int t)
    (hsa : a.shape = [m, k]) (hsb : b.shape = [k, l]) (hsc : c.shape = [l, n]) :
    ∃ ab bc r r', matmul a b = .ok ab ∧ matmul ab c = .ok r ∧ matmul b c = .ok bc ∧
      matmul a bc = .ok r' ∧ r.SameWords t r' := by
  obtain ⟨u, hu⟩ := holds_words ha hda
  obtain ⟨v, hv⟩ := holds_words hb hdb
  obtain ⟨w, hw⟩ := holds_words hc hdc
  obtain ⟨ab, hab, hsab, hholds⟩ := matmul_holds hu hv hsa hsb
  obtain ⟨bc, hbc, hsbc, hholds'⟩ := matmul_holds hv hw hsb hsc
  obtain ⟨r, hr, hsr, hleft⟩ := matmul_holds hholds hw hsab hsc
  obtain ⟨r', hr', hsr', hright⟩ := matmul_holds hu hholds' hsa hsbc
  refine ⟨ab, bc, r, r', hab, hr, hbc, hr', hleft.sameWords hright (hsr.trans hsr'.symm) ?_⟩
  intro ix hix
  rw [hsr] at hix
  obtain ⟨i, -, j, -, rfl⟩ := Layout.exists_of_mem_indices₂ hix
  exact dotProduct_assoc k l (fun p => u [i, p]) (fun p q => v [p, q]) fun q => w [q, j]

/-- A row, a matrix that lies in storage column by column, and a column of bytes. Both of the first
products wrap. -/
theorem matmul_assoc_bytes :
    ∃ ab bc r r', matmul ⟨⟨.uint8, .items #[200, 3]⟩, .contiguous [1, 2]⟩
          ⟨⟨.uint8, .items #[200, 7, 9, 11]⟩, (Layout.contiguous [2, 2]).transposed⟩ = .ok ab ∧
      matmul ab ⟨⟨.uint8, .items #[50, 60]⟩, .contiguous [2, 1]⟩ = .ok r ∧
      matmul ⟨⟨.uint8, .items #[200, 7, 9, 11]⟩, (Layout.contiguous [2, 2]).transposed⟩
          ⟨⟨.uint8, .items #[50, 60]⟩, .contiguous [2, 1]⟩ = .ok bc ∧
      matmul ⟨⟨.uint8, .items #[200, 3]⟩, .contiguous [1, 2]⟩ bc = .ok r' ∧
      r.SameWords ⟨false, .w8⟩ r' :=
  matmul_assoc (k := 2) (l := 2) (by decide) (by decide) (by decide) rfl rfl rfl rfl rfl rfl

end Cpu

end ArrayBench
