import ArrayBench.NdArray
import ArrayBench.Proofs.Layout.Indices

/-!
How much storage a layout needs.

No coordinate is past the last one of its axis, so no element lies past the last one of the array,
and the required size is one more than that. A layout that is contiguous visits the positions from
zero on without gaps, which is what lets a loop over it run by position.
-/

namespace ArrayBench

namespace Layout

/-- Every element lies below position `n`. -/
def Within (l : Layout) (n : Nat) : Prop := ∀ ix ∈ l.shape.indices, l.offsetAt ix < n

lemma travel_le {axes : List Axis} {ix : List Nat}
    (h : ix ∈ Shape.indices (axes.map Axis.size)) :
    travel axes ix ≤ (axes.map fun a => (a.size - 1) * a.stride).sum := by
  induction axes generalizing ix with
  | nil => simp
  | cons a axes ih =>
    rw [List.map_cons] at h
    obtain ⟨i, hi, jx, hj, rfl⟩ := Shape.mem_indices_cons.mp h
    have htail := ih hj
    have hhead : i * a.stride ≤ (a.size - 1) * a.stride := Nat.mul_le_mul_right _ (by omega)
    rw [travel_cons, List.map_cons, List.sum_cons]
    omega

lemma offsetAt_lt_requiredSize {l : Layout} {ix : List Nat} (h : ix ∈ l.shape.indices) :
    l.offsetAt ix < l.requiredSize := by
  have hpos : l.numel ≠ 0 := Nat.ne_of_gt (Shape.numel_pos_of_mem_indices h)
  have htravel := travel_le h
  rw [requiredSize, if_neg hpos, offsetAt_eq]
  omega

lemma within_of_requiredSize_le {l : Layout} {n : Nat} (h : l.requiredSize ≤ n) : l.Within n :=
  fun _ hix => Nat.lt_of_lt_of_le (offsetAt_lt_requiredSize hix) h

lemma checkFits_eq_ok {l : Layout} {n : Nat} : l.checkFits n = .ok () ↔ l.requiredSize ≤ n := by
  unfold checkFits
  split_ifs with h <;> simp [h]

lemma Within.lt_of_mem_offsets {l : Layout} {n p : Nat} (h : l.Within n) (hp : p ∈ l.offsets) :
    p < n := by
  obtain ⟨ix, hix, rfl⟩ := mem_offsets.mp hp
  exact h ix hix

/-! ### Contiguous layouts -/

lemma ofStrides_self (l : Layout) : ofStrides l.shape l.strides l.offset = l := by
  obtain ⟨axes, offset⟩ := l
  simp only [ofStrides, shape, strides, mk.injEq, and_true]
  induction axes with
  | nil => rfl
  | cons a axes ih => rw [List.map_cons, List.map_cons, List.zipWith_cons_cons, ih]

lemma eq_contiguous_of_isContiguous {l : Layout} (h : l.isContiguous = true) :
    l = contiguous l.shape := by
  simp only [isContiguous, Bool.and_eq_true, decide_eq_true_eq] at h
  rw [contiguous, ← h.2, ← h.1, ofStrides_self]

lemma axes_contiguous_cons (d : Nat) (s : Shape) :
    (contiguous (d :: s)).axes = ⟨d, s.numel⟩ :: (contiguous s).axes := rfl

lemma range_mul (m n : Nat) :
    List.range (m * n) = (List.range m).flatMap fun i => (List.range n).map (i * n + ·) := by
  induction m with
  | zero => simp
  | succ m ih =>
    rw [Nat.succ_mul, List.range_add, ih, List.range_succ, List.flatMap_append,
      List.flatMap_singleton]

lemma map_travel_contiguous (s : Shape) :
    s.indices.map (travel (contiguous s).axes) = List.range s.numel := by
  induction s with
  | nil => rfl
  | cons d s ih =>
    rw [Shape.numel_cons, range_mul, ← ih, Shape.indices, List.map_flatMap]
    refine List.flatMap_congr fun i _ => ?_
    rw [List.map_map, List.map_map]
    refine List.map_congr_left fun ix _ => ?_
    rw [Function.comp_apply, axes_contiguous_cons, travel_cons]
    rfl

lemma offsets_contiguous (s : Shape) : (contiguous s).offsets = List.range s.numel := by
  rw [offsets_eq, shape_contiguous, ← map_travel_contiguous]
  exact List.map_congr_left fun ix _ => Nat.zero_add _

lemma offsets_of_isContiguous {l : Layout} (h : l.isContiguous = true) :
    l.offsets = List.range l.numel := by
  rw [eq_contiguous_of_isContiguous h, offsets_contiguous, numel, shape_contiguous]

lemma within_contiguous (s : Shape) : (contiguous s).Within s.numel := by
  intro ix hix
  have hmem := mem_offsets.mpr ⟨ix, hix, rfl⟩
  rw [offsets_contiguous] at hmem
  exact List.mem_range.mp hmem

lemma nodup_offsets_contiguous (s : Shape) : (contiguous s).offsets.Nodup := by
  rw [offsets_contiguous]
  exact List.nodup_range

/-- The elements of a contiguous layout are there if they are all within the storage. -/
lemma numel_le_of_within {l : Layout} {n : Nat} (hc : l.isContiguous = true) (h : l.Within n) :
    l.numel ≤ n := by
  rcases Nat.eq_zero_or_pos l.numel with h0 | h0
  · omega
  · have hlast : l.numel - 1 ∈ l.offsets := by
      rw [offsets_of_isContiguous hc, List.mem_range]
      omega
    have := h.lt_of_mem_offsets hlast
    omega

lemma sum_last_lt_numel (s : Shape) (h : 0 < s.numel) :
    ((contiguous s).axes.map fun a => (a.size - 1) * a.stride).sum < s.numel := by
  induction s with
  | nil => simp [contiguous, ofStrides]
  | cons d s ih =>
    have hd : 0 < d := Nat.pos_of_mul_pos_right h
    have hs : 0 < Shape.numel s := Nat.pos_of_mul_pos_left h
    have htail := ih hs
    have hsplit : (d - 1) * Shape.numel s + Shape.numel s = d * Shape.numel s := by
      rw [← Nat.succ_mul, Nat.succ_eq_add_one, Nat.sub_add_cancel hd]
    rw [axes_contiguous_cons, List.map_cons, List.sum_cons, Shape.numel_cons]
    change (d - 1) * Shape.numel s + _ < _
    omega

lemma requiredSize_contiguous_le (s : Shape) : (contiguous s).requiredSize ≤ s.numel := by
  have hnumel : (contiguous s).numel = s.numel := by rw [numel, shape_contiguous]
  have hoffset : (contiguous s).offset = 0 := rfl
  rw [requiredSize, hnumel, hoffset]
  split
  · omega
  · have := sum_last_lt_numel s (by omega)
    omega

/-! ### Transposing -/

lemma shape_transposed (l : Layout) : l.transposed.shape = l.shape.reverse := by
  simp [transposed, shape]

lemma numel_reverse (s : Shape) : Shape.numel s.reverse = s.numel := by
  induction s with
  | nil => rfl
  | cons d s ih =>
    rw [List.reverse_cons, Shape.numel_append, ih, Shape.numel_cons, Shape.numel_cons,
      Shape.numel_nil, Nat.mul_one, Nat.mul_comm]

lemma numel_transposed (l : Layout) : l.transposed.numel = l.numel := by
  rw [numel, numel, shape_transposed, numel_reverse]

lemma requiredSize_transposed (l : Layout) : l.transposed.requiredSize = l.requiredSize := by
  rw [requiredSize, requiredSize, numel_transposed]
  simp [transposed]

end Layout

end ArrayBench
