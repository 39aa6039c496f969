import Mathlib.Data.List.GetD
import Mathlib.Order.Bounds.Basic
import ArrayBench.Proofs.Layout.Walks

/-!
How far a layout reaches.

The last index of a shape has the last coordinate on every axis. Strides are not negative, so no
element lies behind the one at that index, and the required size is its position and one more. A
layout without elements requires nothing. A view that shows elements of its source only cannot reach
any farther than the source does. This is so for every view but one: where an axis without elements
is split off, a source without elements may leave a layout that has some.
-/

namespace ArrayBench

namespace Shape

def last (s : Shape) : List Nat := s.map (· - 1)

lemma last_mem {s : Shape} (h : 0 < s.numel) : s.last ∈ s.indices := by
  induction s with
  | nil => simp [last]
  | cons d s ih =>
    rw [numel_cons] at h
    have hd : 0 < d := Nat.pos_of_mul_pos_right h
    have htail := ih (Nat.pos_of_mul_pos_left h)
    exact cons_mem_indices.mpr ⟨Nat.sub_lt hd Nat.one_pos, htail⟩

end Shape

namespace View

/-- What the view shows are elements of the array: an axis that is split off has a first one. -/
def Grounded (s : Shape) : View → Prop
  | split axis => 0 < s.getD axis 0
  | _ => True

lemma grounded_split {s : Shape} {k : Nat} :
    (split k).Grounded s ↔ ∃ hk : k < s.length, 0 < s[k] := by
  rw [Grounded]
  constructor
  · intro h
    have hk : k < s.length := by
      by_contra hle
      rw [List.getD_eq_default _ _ (Nat.le_of_not_lt hle)] at h
      exact Nat.lt_irrefl 0 h
    rw [List.getD_eq_getElem _ _ hk] at h
    exact ⟨hk, h⟩
  · rintro ⟨hk, h⟩
    rwa [List.getD_eq_getElem _ _ hk]

end View

namespace Layout

variable {l m : Layout} {n : Nat}

/-! ### The last element -/

lemma travel_last (axes : List Axis) :
    travel axes (Shape.last (axes.map Axis.size)) =
      (axes.map fun a => (a.size - 1) * a.stride).sum := by
  induction axes with
  | nil => rfl
  | cons a axes ih =>
    rw [List.map_cons, Shape.last, List.map_cons, travel_cons, List.map_cons, List.sum_cons, ← ih]
    rfl

lemma requiredSize_of_empty (h : l.numel = 0) : l.requiredSize = 0 := by
  rw [requiredSize, if_pos h]

lemma requiredSize_of_pos (h : 0 < l.numel) : l.requiredSize = l.offsetAt l.shape.last + 1 := by
  rw [requiredSize, if_neg (Nat.ne_of_gt h), offsetAt_eq, shape, travel_last]

lemma offsets_eq_nil_iff : l.offsets = [] ↔ l.numel = 0 := by
  rw [← List.length_eq_zero_iff, length_offsets]

lemma isGreatest_last (h : 0 < l.numel) :
    IsGreatest {p | p ∈ l.offsets} (l.offsetAt l.shape.last) := by
  constructor
  · exact mem_offsets.mpr ⟨_, Shape.last_mem h, rfl⟩
  · intro p hp
    obtain ⟨ix, hix, rfl⟩ := mem_offsets.mp hp
    have hlt := offsetAt_lt_requiredSize hix
    rw [requiredSize_of_pos h] at hlt
    omega

lemma requiredSize_le_iff : l.requiredSize ≤ n ↔ ∀ p ∈ l.offsets, p < n := by
  rcases Nat.eq_zero_or_pos l.numel with h0 | hpos
  · simp [requiredSize_of_empty h0, offsets_eq_nil_iff.mpr h0]
  · obtain ⟨hmem, hupper⟩ := isGreatest_last hpos
    rw [requiredSize_of_pos hpos]
    constructor
    · intro h p hp
      have hle : p ≤ l.offsetAt l.shape.last := hupper hp
      omega
    · intro h
      exact h _ hmem

/-! ### Storages that are large enough -/

lemma checkFits_of_lt (h : n < l.requiredSize) :
    l.checkFits n = .error (.storageTooSmall l.shape l.requiredSize n) := by
  rw [checkFits, if_neg (by omega)]

lemma ofStorage_eq_ok {x : Storage} :
    NdArray.ofStorage x l = .ok ⟨x, l⟩ ↔ l.requiredSize ≤ x.size := by
  rw [← checkFits_eq_ok, NdArray.ofStorage]
  cases hfits : l.checkFits x.size with
  | ok u => simp [pure, Except.pure]
  | error e => simp

/-! ### Views -/

/-- The element that a grounded view shows at an index is there in its source. -/
lemma undo_mem {v : View} (h : l.view v = .ok m) (hv : v.Grounded l.shape) {ix : List Nat}
    (hix : ix ∈ m.shape.indices) : v.undo l.shape ix ∈ l.shape.indices := by
  rw [(offsetAt_view h).1] at hix
  cases v with
  | transposed =>
    refine reverse_mem_indices ?_
    rw [shape_transposed]
    exact hix
  | broadcast target =>
    obtain ⟨added, inner, rfl, hgrow, -⟩ := broadcastTo_eq_ok.mp h
    exact Shape.restrict_mem ⟨added, inner, rfl, hgrow⟩ hix
  | split k =>
    obtain ⟨hk, hsize⟩ := View.grounded_split.mp hv
    exact Shape.mem_indices_iff.mpr
      (Shape.forall₂_insertIdx hk (Shape.mem_indices_iff.mp hix) hsize)

lemma offsets_view_subset {v : View} (h : l.view v = .ok m) (hv : v.Grounded l.shape) :
    m.offsets ⊆ l.offsets := by
  intro p hp
  obtain ⟨ix, hix, rfl⟩ := mem_offsets.mp hp
  have hoffset := (offsetAt_view h).2 ix (Shape.fits_of_mem hix)
  exact mem_offsets.mpr ⟨_, undo_mem h hv hix, hoffset.2.symm⟩

lemma requiredSize_view_le {v : View} (h : l.view v = .ok m) (hv : v.Grounded l.shape) :
    m.requiredSize ≤ l.requiredSize :=
  requiredSize_le_iff.mpr fun _ hp =>
    requiredSize_le_iff.mp (Nat.le_refl _) _ (offsets_view_subset h hv hp)

lemma numel_of_emptyAxis {k : Nat} (hk : k < l.axes.length) (h : (l.axes[k]).size = 0) :
    l.numel = 0 := by
  by_contra hpos
  have hsize := Shape.pos_of_numel_pos (Nat.pos_of_ne_zero hpos)
    (List.mem_map.mpr ⟨_, List.getElem_mem hk, rfl⟩)
  omega

/-- Without the axis that has no elements, the others may have some. -/
lemma requiredSize_splitAxis_le_iff {k : Nat} {a : Axis} (h : l.splitAxis k = .ok (m, a)) :
    m.requiredSize ≤ l.requiredSize ↔ 0 < a.size ∨ m.numel = 0 := by
  have hview : l.view (.split k) = .ok m := view_split.mpr ⟨a, h⟩
  obtain ⟨hk, -, rfl⟩ := splitAxis_eq_ok.mp h
  rcases Nat.eq_zero_or_pos (l.axes[k]).size with h0 | hpos
  · rw [requiredSize_of_empty (numel_of_emptyAxis hk h0)]
    rcases Nat.eq_zero_or_pos m.numel with hm | hm
    · simp [requiredSize_of_empty hm, hm]
    · simp only [requiredSize_of_pos hm]
      omega
  · have hgrounded : (View.split k).Grounded l.shape :=
      View.grounded_split.mpr ⟨by rwa [shape, List.length_map], by simpa [shape] using hpos⟩
    exact iff_of_true (requiredSize_view_le hview hgrounded) (.inl hpos)

/-! ### All of it together -/

structure FitsExactly (l : Layout) : Prop where
  /-- A storage is accepted exactly if each element of the layout lies within it, -/
  accepted : ∀ n, l.checkFits n = .ok () ↔ ∀ p ∈ l.offsets, p < n
  /-- and is otherwise refused with the size that it should have had. -/
  refused : ∀ n p, p ∈ l.offsets → n ≤ p →
    l.checkFits n = .error (.storageTooSmall l.shape l.requiredSize n)
  ofStorage : ∀ x : Storage, NdArray.ofStorage x l = .ok ⟨x, l⟩ ↔ ∀ p ∈ l.offsets, p < x.size
  empty : l.offsets = [] → l.requiredSize = 0
  /-- The bound is attained by the element that lies farthest. -/
  greatest : l.offsets ≠ [] → ∃ p, IsGreatest {q | q ∈ l.offsets} p ∧ l.requiredSize = p + 1
  transposed : l.transposed.requiredSize = l.requiredSize
  broadcastTo : ∀ t m, l.broadcastTo t = .ok m → m.requiredSize ≤ l.requiredSize
  /-- Only an axis without elements can hide that the others have some. -/
  splitAxis : ∀ k m a, l.splitAxis k = .ok (m, a) →
    (m.requiredSize ≤ l.requiredSize ↔ 0 < a.size ∨ m.numel = 0)

/-- **Required sizes** are exact, and no view of a layout requires more than the layout itself, but
for those that split off an axis without elements. -/
theorem fits_exactly (l : Layout) : l.FitsExactly where
  accepted n := checkFits_eq_ok.trans requiredSize_le_iff
  refused n p hp hn := by
    refine checkFits_of_lt ?_
    have hlt := requiredSize_le_iff.mp (Nat.le_refl _) p hp
    omega
  ofStorage x := ofStorage_eq_ok.trans requiredSize_le_iff
  empty h := requiredSize_of_empty (offsets_eq_nil_iff.mp h)
  greatest h := by
    have hpos : 0 < l.numel := Nat.pos_of_ne_zero fun h0 => h (offsets_eq_nil_iff.mpr h0)
    exact ⟨_, isGreatest_last hpos, requiredSize_of_pos hpos⟩
  transposed := requiredSize_transposed l
  broadcastTo t m h := requiredSize_view_le (v := .broadcast t) h trivial
  splitAxis _ _ _ h := requiredSize_splitAxis_le_iff h

/-- Three rows of no elements require nothing, and the three that are left without the columns do. -/
example : (contiguous [3, 0]).requiredSize = 0 ∧
    ((contiguous [3, 0]).splitAxis 1).map (fun (m, _) => m.requiredSize) = .ok 1 := ⟨rfl, rfl⟩

end Layout

end ArrayBench
