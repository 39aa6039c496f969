import Mathlib.Data.List.Perm.Subperm
import ArrayBench.Proofs.Layout.Reach

/-!
Layouts whose elements lie apart.

Turning an array around and taking an axis off it are one to one on indices: two indices of the view
never belong to the same element. As long as the axis has elements, those that are left are some of
the elements of the array. So the positions of the view are some of the positions of the array, each
of them as often as there at most, and all of them if no axis is taken off. This carries over to
chains of such views. A row-major layout has each position below its number of elements once.
-/

namespace ArrayBench

namespace View

/-- The view shows some of the elements of an array of shape `s`, and each of them once. -/
def Selects (s : Shape) : View → Prop
  | broadcast _ => False
  | v => v.Grounded s

instance (s : Shape) : (v : View) → Decidable (v.Selects s)
  | transposed => inferInstanceAs (Decidable True)
  | broadcast _ => inferInstanceAs (Decidable False)
  | split axis => inferInstanceAs (Decidable (0 < s.getD axis 0))

lemma Selects.grounded {s : Shape} {v : View} (h : v.Selects s) : v.Grounded s := by
  cases v with
  | broadcast target => cases h
  | transposed => exact h
  | split axis => exact h

/-- Each view of a chain selects from what the views before it have left of an array of shape
`s`. -/
def SelectInTurn (s : Shape) : List View → Prop
  | [] => True
  | v :: vs => v.Selects s ∧ SelectInTurn (v.shape s) vs

instance decidableSelectInTurn (s : Shape) : (vs : List View) → Decidable (SelectInTurn s vs)
  | [] => inferInstanceAs (Decidable True)
  | v :: vs =>
    have := decidableSelectInTurn (v.shape s) vs
    inferInstanceAs (Decidable (_ ∧ _))

lemma undo_injective {s : Shape} {v : View} (h : v.Selects s) : Function.Injective (v.undo s) := by
  cases v with
  | transposed => exact List.reverse_injective
  | broadcast target => cases h
  | split axis => exact List.insertIdx_injective axis 0

end View

namespace Layout

variable {l m : Layout} {v : View} {vs : List View}

/-! ### One view -/

lemma exists_view (h : v.Selects l.shape) : ∃ m, l.view v = .ok m := by
  cases v with
  | transposed => exact ⟨_, rfl⟩
  | broadcast target => cases h
  | split k =>
    obtain ⟨hk, -⟩ := View.grounded_split.mp h.grounded
    rw [shape, List.length_map] at hk
    exact ⟨_, view_split.mpr ⟨_, splitAxis_of_lt hk⟩⟩

/-- The positions of a selection are those that its source has for the indices it is undone to. -/
lemma offsets_view (h : l.view v = .ok m) :
    m.offsets = (m.shape.indices.map (v.undo l.shape)).map l.offsetAt := by
  rw [offsets_eq, List.map_map]
  exact List.map_congr_left fun ix hix => ((offsetAt_view h).2 ix (Shape.fits_of_mem hix)).2

lemma offsets_subperm (hv : v.Selects l.shape) (h : l.view v = .ok m) :
    m.offsets.Subperm l.offsets := by
  have hnodup : (m.shape.indices.map (v.undo l.shape)).Nodup :=
    m.shape.nodup_indices.map (View.undo_injective hv)
  have hsubset : m.shape.indices.map (v.undo l.shape) ⊆ l.shape.indices := by
    intro jx hjx
    obtain ⟨ix, hix, rfl⟩ := List.mem_map.mp hjx
    exact undo_mem h hv.grounded hix
  obtain ⟨is, hperm, hsub⟩ := hnodup.subperm hsubset
  rw [offsets_view h, offsets_eq l]
  exact ⟨is.map l.offsetAt, hperm.map _, hsub.map _⟩

/-- Only a split can leave elements behind. -/
lemma offsets_perm (hv : v.Selects l.shape) (h : l.view v = .ok m) (hsplit : ∀ k, v ≠ .split k) :
    m.offsets.Perm l.offsets := by
  have hsub := offsets_subperm hv h
  cases v with
  | transposed =>
    obtain rfl := Except.ok.inj h
    refine hsub.perm_of_length_le ?_
    rw [length_offsets, length_offsets, numel_transposed]
  | broadcast target => cases hv
  | split k => exact absurd rfl (hsplit k)

lemma offsets_transposed_perm (l : Layout) : l.transposed.offsets.Perm l.offsets :=
  offsets_perm (v := .transposed) trivial rfl nofun

/-! ### Chains -/

lemma exists_views (h : View.SelectInTurn l.shape vs) :
    ∃ m, l.views vs = .ok m ∧ m.offsets.Subperm l.offsets ∧
      ((∀ k, .split k ∉ vs) → m.offsets.Perm l.offsets) := by
  -- on the chain, from the first view on: what is left by it is selected from by the others
  induction vs generalizing l with
  | nil => exact ⟨l, rfl, .refl _, fun _ => .refl _⟩
  | cons v vs ih =>
    obtain ⟨hv, hvs⟩ := h
    obtain ⟨l', hl'⟩ := exists_view hv
    rw [← (offsetAt_view hl').1] at hvs
    obtain ⟨m, hm, hsub, hperm⟩ := ih hvs
    refine ⟨m, ?_, hsub.trans (offsets_subperm hv hl'), fun hsplit => ?_⟩
    · rw [views, List.foldlM_cons, hl', exceptOk_bind]
      exact hm
    · have hfirst : ∀ k, v ≠ .split k := fun k hk => hsplit k (by simp [hk])
      have hrest : ∀ k, .split k ∉ vs := fun k hk => hsplit k (by simp [hk])
      exact (hperm hrest).trans (offsets_perm hv hl' hfirst)

lemma nodup_of_subperm {ps qs : List Nat} (h : ps.Subperm qs) (hq : qs.Nodup) : ps.Nodup := by
  obtain ⟨rs, hperm, hsub⟩ := h
  exact hperm.nodup_iff.mp (hq.sublist hsub)

/-- A selection from a row-major array has the positions of its elements for itself. -/
lemma exists_views_contiguous {dims : Shape} (h : View.SelectInTurn dims vs) :
    ∃ m, (contiguous dims).views vs = .ok m ∧ m.offsets.Nodup ∧ (∀ p ∈ m.offsets, p < dims.numel) ∧
      ((∀ k, .split k ∉ vs) → m.offsets.Perm (List.range dims.numel)) := by
  rw [← shape_contiguous dims] at h
  obtain ⟨m, hm, hsub, hperm⟩ := exists_views h
  rw [offsets_contiguous] at hsub hperm
  refine ⟨m, hm, nodup_of_subperm hsub List.nodup_range, fun p hp => ?_, hperm⟩
  exact List.mem_range.mp (hsub.subset hp)

end Layout

end ArrayBench
