import ArrayBench.Layout.View
import ArrayBench.Proofs.Step
import ArrayBench.Proofs.Layout.Views

/-!
Chains of views.

A view can be undone on indices: to an index of the new array belongs the index of the element that
is shown there. For a transposed array that is the index read backwards, for a broadcast one the
coordinates of added axes are dropped and those of single elements are zero, and for an array with
an axis split off there is a zero on that axis. No view moves an element in storage. So the storage
position of an index of the last array in a chain is that of the index traced back to the first one,
and if the first one is row-major that is its place in row-major order.
-/

namespace ArrayBench

namespace View

def shape (s : Shape) : View → Shape
  | transposed => s.reverse
  | broadcast target => target
  | split axis => s.eraseIdx axis

/-- The index, in an array of shape `s`, of the element that a view of it shows at an index. -/
def undo (s : Shape) : View → List Nat → List Nat
  | transposed, ix => ix.reverse
  | broadcast _, ix => s.restrict ix
  | split axis, ix => ix.insertIdx axis 0

end View

namespace Shape

/-- The index, in an array of shape `s`, of the element that a chain of views of it shows at an
index. The last view is undone first. -/
def trace (s : Shape) : List View → List Nat → List Nat
  | [], ix => ix
  | v :: vs, ix => v.undo s (trace (v.shape s) vs ix)

/-- The place of an index in row-major order: each coordinate times the stride of its axis. -/
def position (s : Shape) (ix : List Nat) : Nat := (List.zipWith (· * ·) ix s.strides).sum

end Shape

namespace Layout

open Shape (Grows Fits)

/-! ### One view -/

lemma offsetAt_transposed {l : Layout} {ix : List Nat} (h : l.transposed.shape.Fits ix) :
    l.transposed.offsetAt ix = l.offsetAt ix.reverse := by
  have hlen : l.axes.reverse.length = ix.length := by
    rw [← h.length_eq, shape, List.length_map, transposed]
  rw [offsetAt_eq, offsetAt_eq, transposed, travel, travel, ← List.sum_reverse,
    List.reverse_zipWith hlen, List.reverse_reverse]

lemma reverse_mem_indices {l : Layout} {ix : List Nat} (h : ix ∈ l.transposed.shape.indices) :
    ix.reverse ∈ l.shape.indices := by
  rw [shape_transposed, Shape.mem_indices_iff] at h
  exact Shape.mem_indices_iff.mpr (List.forall₂_reverse_iff.mp (by rwa [List.reverse_reverse]))

lemma offsetAt_eraseIdx {l : Layout} {k : Nat} (hk : k < l.axes.length) {ix : List Nat}
    (h : (Layout.mk (l.axes.eraseIdx k) l.offset).shape.Fits ix) :
    (Layout.mk (l.axes.eraseIdx k) l.offset).offsetAt ix = l.offsetAt (ix.insertIdx k 0) := by
  have hlen : (l.axes.eraseIdx k).length = ix.length := by
    rw [← h.length_eq, shape, List.length_map]
  rw [offsetAt_eq, offsetAt_eq, travel_insertIdx hk hlen, Nat.zero_mul, Nat.add_zero]

lemma view_split {l m : Layout} {k : Nat} :
    l.view (.split k) = .ok m ↔ ∃ a, l.splitAxis k = .ok (m, a) := by
  rw [view]
  cases l.splitAxis k with
  | ok v => simp [Functor.map, Except.map, Prod.ext_iff]
  | error e => simp [Functor.map, Except.map]

/-- A view leaves the elements where they are. -/
lemma offsetAt_view {l m : Layout} {v : View} (h : l.view v = .ok m) :
    m.shape = v.shape l.shape ∧ ∀ ix, m.shape.Fits ix →
      l.shape.Fits (v.undo l.shape ix) ∧ m.offsetAt ix = l.offsetAt (v.undo l.shape ix) := by
  cases v with
  | transposed =>
    obtain rfl := Except.ok.inj h
    refine ⟨shape_transposed l, fun ix hix => ⟨?_, offsetAt_transposed hix⟩⟩
    rw [shape_transposed] at hix
    exact List.forall₂_reverse_iff.mp (by rwa [View.undo, List.reverse_reverse])
  | broadcast target =>
    obtain ⟨added, inner, rfl, hgrow, rfl⟩ := broadcastTo_eq_ok.mp h
    have hshape := shape_stretched hgrow.length_eq added
    refine ⟨hshape, fun ix hix => ?_⟩
    rw [hshape] at hix
    exact ⟨hix.restrict ⟨added, inner, rfl, hgrow⟩, offsetAt_stretched hgrow hix⟩
  | split k =>
    obtain ⟨a, ha⟩ := view_split.mp h
    obtain ⟨hk, rfl, -⟩ := splitAxis_eq_ok.mp ha
    refine ⟨shape_eraseIdx l k, fun ix hix => ⟨?_, offsetAt_eraseIdx hk hix⟩⟩
    rw [shape_eraseIdx] at hix
    exact Shape.forall₂_insertIdx (by rwa [shape, List.length_map]) hix (Or.inr rfl)

/-! ### Chains -/

lemma offsetAt_views {l m : Layout} {vs : List View} (h : l.views vs = .ok m) {ix : List Nat}
    (hix : m.shape.Fits ix) :
    l.shape.Fits (l.shape.trace vs ix) ∧ m.offsetAt ix = l.offsetAt (l.shape.trace vs ix) := by
  induction vs generalizing l with
  | nil =>
    obtain rfl := Except.ok.inj h
    exact ⟨hix, rfl⟩
  | cons v vs ih =>
    rw [views, List.foldlM_cons] at h
    obtain ⟨l', hv, hvs⟩ := exceptBind_eq_ok.mp h
    obtain ⟨hshape, hview⟩ := offsetAt_view hv
    obtain ⟨hfits, hoffset⟩ := ih hvs
    rw [hshape] at hfits hoffset
    obtain ⟨hfits', hoffset'⟩ := hview _ (by rwa [hshape])
    exact ⟨hfits', hoffset.trans hoffset'⟩

lemma offsetAt_contiguous (s : Shape) (ix : List Nat) :
    (contiguous s).offsetAt ix = s.position ix := by
  have htravel : travel (contiguous s).axes ix = s.position ix := by
    induction s generalizing ix with
    | nil => simp [contiguous, ofStrides, Shape.position, Shape.strides]
    | cons d s ih =>
      cases ix with
      | nil => simp [travel, Shape.position]
      | cons i ix =>
        rw [axes_contiguous_cons, travel_cons, ih]
        simp [Shape.position, Shape.strides]
  rw [offsetAt_eq, htravel]
  exact Nat.zero_add _

/-! ### Views that cancel or combine -/

lemma transposed_transposed (l : Layout) : l.transposed.transposed = l := by
  rw [transposed, transposed, List.reverse_reverse]

/-- An axis that stands still goes on standing still. -/
lemma stretchTo_stretchTo {a : Axis} {t u : Nat} (h : Grows a.size t) (h' : Grows t u) :
    (a.stretchTo t).stretchTo u = a.stretchTo u := by
  unfold Grows at h h'
  have hstride : (if t = u then (if a.size = t then a.stride else 0) else 0) =
      if a.size = u then a.stride else 0 := by
    by_cases htu : t = u
    · rw [if_pos htu, htu]
    · have hsize : a.size ≠ u := by omega
      rw [if_neg htu, if_neg hsize]
  exact congrArg (Axis.mk u) hstride

lemma zipWith_stretchTo {axes : List Axis} {s t : Shape}
    (h : List.Forall₂ Grows (axes.map Axis.size) s) (h' : List.Forall₂ Grows s t) :
    List.zipWith Axis.stretchTo (List.zipWith Axis.stretchTo axes s) t =
        List.zipWith Axis.stretchTo axes t ∧
      List.Forall₂ Grows (axes.map Axis.size) t := by
  induction axes generalizing s t with
  | nil =>
    obtain rfl := List.forall₂_nil_left_iff.mp h
    exact ⟨rfl, h'⟩
  | cons a axes ih =>
    obtain ⟨x, s, hx, hs, rfl⟩ := List.forall₂_cons_left_iff.mp h
    obtain ⟨y, t, hy, ht, rfl⟩ := List.forall₂_cons_left_iff.mp h'
    obtain ⟨haxes, hgrow⟩ := ih hs ht
    refine ⟨?_, .cons (hx.trans hy) hgrow⟩
    rw [List.zipWith_cons_cons, List.zipWith_cons_cons, List.zipWith_cons_cons, haxes,
      stretchTo_stretchTo hx hy]

lemma zipWith_stretchTo_still {s t : Shape} (h : s.length = t.length) :
    List.zipWith Axis.stretchTo (s.map (⟨·, 0⟩)) t = t.map (⟨·, 0⟩) := by
  induction s generalizing t with
  | nil =>
    obtain rfl := List.length_eq_zero_iff.mp h.symm
    rfl
  | cons d s ih =>
    obtain ⟨e, t, rfl⟩ := List.exists_cons_of_length_eq_add_one h.symm
    rw [List.map_cons, List.zipWith_cons_cons, ih (by simpa using h), Axis.stretchTo, ite_self]
    rfl

lemma broadcastTo_trans {l m n : Layout} {s t : Shape} (h : l.broadcastTo s = .ok m)
    (h' : m.broadcastTo t = .ok n) : l.broadcastTo t = .ok n := by
  obtain ⟨added, inner, rfl, hgrow, rfl⟩ := broadcastTo_eq_ok.mp h
  obtain ⟨added', inner', rfl, hgrow', rfl⟩ := broadcastTo_eq_ok.mp h'
  rw [shape_stretched hgrow.length_eq] at hgrow'
  -- the axes added at first and those of the source, each in the second shape
  have hsplit : inner'.take added.length ++ inner'.drop added.length = inner' :=
    List.take_append_drop ..
  have hadded := List.forall₂_take added.length hgrow'
  have hinner := List.forall₂_drop added.length hgrow'
  rw [List.take_left] at hadded
  rw [List.drop_left] at hinner
  obtain ⟨haxes, hgrow''⟩ := zipWith_stretchTo hgrow hinner
  refine broadcastTo_eq_ok.mpr
    ⟨added' ++ inner'.take added.length, inner'.drop added.length, ?_, hgrow'', ?_⟩
  · rw [List.append_assoc, hsplit]
  · have hzip : List.zipWith Axis.stretchTo (l.stretched added inner).axes inner' =
        (inner'.take added.length).map (⟨·, 0⟩) ++
          List.zipWith Axis.stretchTo l.axes (inner'.drop added.length) := by
      conv_lhs => rw [← hsplit]
      rw [stretched, List.zipWith_append (by simpa using hadded.length_eq),
        zipWith_stretchTo_still hadded.length_eq, haxes]
    rw [stretched, hzip]
    simp only [stretched, List.map_append, List.append_assoc]

/-! ### All of it together -/

structure ViewsFaithful : Prop where
  /-- Every index of the last view of a chain belongs to the place of the index it is traced back
  to. -/
  offsetAt : ∀ (dims : Shape) (vs : List View) (l : Layout), (contiguous dims).views vs = .ok l →
    ∀ ix ∈ l.shape.indices, l.offsetAt ix = dims.position (dims.trace vs ix)
  offsets : ∀ (dims : Shape) (vs : List View) (l : Layout), (contiguous dims).views vs = .ok l →
    l.offsets = l.shape.indices.map fun ix => dims.position (dims.trace vs ix)
  transposed : ∀ l : Layout, l.transposed.transposed = l
  broadcastTo : ∀ (l m n : Layout) (s t : Shape), l.broadcastTo s = .ok m →
    m.broadcastTo t = .ok n → l.broadcastTo t = .ok n

lemma offsetAt_views_contiguous {dims : Shape} {vs : List View} {l : Layout}
    (h : (contiguous dims).views vs = .ok l) {ix : List Nat} (hix : ix ∈ l.shape.indices) :
    l.offsetAt ix = dims.position (dims.trace vs ix) := by
  obtain ⟨-, hoffset⟩ := offsetAt_views h (Shape.fits_of_mem hix)
  rw [hoffset, shape_contiguous, offsetAt_contiguous]

/-- **Views show the right elements**: however views are chained, the element at an index is the one
at the index that is traced back. -/
theorem views_faithful : ViewsFaithful where
  offsetAt _ _ _ h _ := offsetAt_views_contiguous h
  offsets _ _ l h := by
    rw [offsets_eq]
    exact List.map_congr_left fun ix hix => offsetAt_views_contiguous h hix
  transposed := transposed_transposed
  broadcastTo _ _ _ _ _ := broadcastTo_trans

/-- A small array turned around, repeated along two axes, and cut. -/
example :
    ((contiguous [2, 1, 3]).views [.transposed, .broadcast [4, 3, 5, 2], .split 1]).map
        (fun l => (l.shape, l.offsetAt [3, 4, 1])) = .ok ([4, 5, 2], 3) ∧
      Shape.trace [2, 1, 3] [.transposed, .broadcast [4, 3, 5, 2], .split 1] [3, 4, 1] =
        [1, 0, 0] :=
  ⟨rfl, rfl⟩

end Layout

end ArrayBench
