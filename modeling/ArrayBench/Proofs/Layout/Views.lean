import Mathlib.Data.List.InsertIdx
import ArrayBench.Proofs.Layout.Bounds
import ArrayBench.Proofs.Shape.Order

/-!
What views show.

A broadcast layout keeps the axes that have the size asked for and lets the others stand still. So
it shows at an index the element of the source at the index without the added leading coordinates
and with zero on the axes of size one. The shapes that a layout can be broadcast to are those above
its own. A layout with an axis split off shows the elements at coordinate zero of that axis, and the
others lie whole strides behind them.
-/

namespace ArrayBench

namespace Shape

/-- The index of the source element that a broadcast array shows at an index. -/
def restrict (s : Shape) (ix : List Nat) : List Nat :=
  List.zipWith (fun d i => if d = 1 then 0 else i) s (ix.drop (ix.length - s.length))

lemma restrict_of_mem {s : Shape} {ix : List Nat} (h : ix ∈ s.indices) : s.restrict ix = ix := by
  rw [restrict, length_of_mem_indices h, Nat.sub_self, List.drop_zero]
  induction s generalizing ix with
  | nil => rw [mem_indices_nil.mp h, List.zipWith_nil_right]
  | cons d s ih =>
    obtain ⟨i, hi, jx, hj, rfl⟩ := mem_indices_cons.mp h
    have hhead : (if d = 1 then 0 else i) = i := by split <;> omega
    rw [List.zipWith_cons_cons, hhead, ih hj]

lemma mem_indices_iff {s : Shape} {ix : List Nat} :
    ix ∈ s.indices ↔ List.Forall₂ (fun d i => i < d) s ix := by
  induction s generalizing ix with
  | nil => rw [mem_indices_nil, List.forall₂_nil_left_iff]
  | cons d s ih =>
    rw [mem_indices_cons, List.forall₂_cons_left_iff]
    constructor
    · rintro ⟨i, hi, jx, hj, rfl⟩
      exact ⟨i, jx, hi, ih.mp hj, rfl⟩
    · rintro ⟨i, jx, hi, hj, rfl⟩
      exact ⟨i, hi, jx, ih.mpr hj, rfl⟩

/-- Each coordinate is on its axis, or at the start of it. An axis without elements has a start
too. -/
def Fits (s : Shape) (ix : List Nat) : Prop := List.Forall₂ (fun d i => i < d ∨ i = 0) s ix

lemma fits_of_mem {s : Shape} {ix : List Nat} (h : ix ∈ s.indices) : s.Fits ix :=
  (mem_indices_iff.mp h).imp fun _ _ => Or.inl

/-- Whatever relates the axes to the coordinates, it can be put back on an axis that was left
out. -/
lemma forall₂_insertIdx {R : Nat → Nat → Prop} {s : Shape} {k : Nat} (hk : k < s.length)
    {ix : List Nat} (h : List.Forall₂ R (s.eraseIdx k) ix) {i : Nat} (hi : R s[k] i) :
    List.Forall₂ R s (ix.insertIdx k i) := by
  induction s generalizing k ix with
  | nil => simp at hk
  | cons d s ih =>
    cases k with
    | zero => exact .cons hi h
    | succ k =>
      rw [List.eraseIdx_cons_succ] at h
      obtain ⟨j, jx, hj, hjx, rfl⟩ := List.forall₂_cons_left_iff.mp h
      rw [List.insertIdx_succ_cons]
      exact .cons hj (ih (by simpa using hk) hjx hi)

/-! ### Shapes that broadcast -/

lemma restrict_append {s : Shape} {ax bx : List Nat} (h : bx.length = s.length) :
    restrict s (ax ++ bx) = List.zipWith (fun d i => if d = 1 then 0 else i) s bx := by
  have hdrop : (ax ++ bx).length - s.length = ax.length := by
    rw [List.length_append]
    omega
  rw [restrict, hdrop, List.drop_left]

/-- Whatever relates axes to coordinates, and goes over from an axis to the one it has grown from,
relates the source to the index that is shown. -/
lemma forall₂_restrict {R : Nat → Nat → Prop}
    (hR : ∀ d t i, Grows d t → R t i → R d (if d = 1 then 0 else i)) {s t : Shape} (h : Below s t)
    {ix : List Nat} (hix : List.Forall₂ R t ix) : List.Forall₂ R s (s.restrict ix) := by
  obtain ⟨added, inner, rfl, hgrow⟩ := h
  have hinner := List.forall₂_drop added.length hix
  rw [List.drop_left] at hinner
  rw [← List.take_append_drop added.length ix,
    restrict_append (hinner.length_eq.symm.trans hgrow.length_eq.symm)]
  generalize ix.drop added.length = jx at hinner
  clear hix
  induction hgrow generalizing jx with
  | nil => exact .nil
  | cons hg _ ih =>
    obtain ⟨i, jx, hi, hj, rfl⟩ := List.forall₂_cons_left_iff.mp hinner
    exact .cons (hR _ _ _ hg hi) (ih jx hj)

lemma restrict_mem {s t : Shape} (h : Below s t) {ix : List Nat} (hix : ix ∈ t.indices) :
    s.restrict ix ∈ s.indices := by
  refine mem_indices_iff.mpr (forall₂_restrict (fun d t i hg hi => ?_) h (mem_indices_iff.mp hix))
  unfold Grows at hg
  split <;> omega

lemma Fits.restrict {s t : Shape} (h : Below s t) {ix : List Nat} (hix : t.Fits ix) :
    s.Fits (s.restrict ix) := by
  refine forall₂_restrict (fun d t i hg hi => ?_) h hix
  unfold Grows at hg
  split <;> omega

end Shape

/-- The axis read as one of size `t`: of another size it repeats its single element. -/
def Axis.stretchTo (a : Axis) (t : Nat) : Axis := ⟨t, if a.size = t then a.stride else 0⟩

namespace Layout

open Shape (Grows Below restrict)

/-! ### Broadcasting -/

lemma travel_append {xs ys : List Axis} {ax bx : List Nat} (h : xs.length = ax.length) :
    travel (xs ++ ys) (ax ++ bx) = travel xs ax + travel ys bx := by
  simp [travel, List.zipWith_append h]

lemma travel_still (s : Shape) (ix : List Nat) : travel (s.map (⟨·, 0⟩)) ix = 0 := by
  induction s generalizing ix with
  | nil => rfl
  | cons d s ih =>
    cases ix with
    | nil => rfl
    | cons i ix => rw [List.map_cons, travel_cons, ih, Nat.mul_zero]

/-- The layout read as one of shape `added ++ inner`: the axes that are added or stretched stand
still. -/
def stretched (l : Layout) (added inner : Shape) : Layout :=
  ⟨added.map (⟨·, 0⟩) ++ List.zipWith Axis.stretchTo l.axes inner, l.offset⟩

lemma stretch_eq {axes : List Axis} {inner : Shape}
    (h : List.Forall₂ Grows (axes.map Axis.size) inner) :
    Shape.stretch (axes.map Axis.size) (axes.map Axis.stride) inner =
      some ((List.zipWith Axis.stretchTo axes inner).map Axis.stride) := by
  induction axes generalizing inner with
  | nil =>
    rw [List.map_nil, List.forall₂_nil_left_iff] at h
    subst h
    rfl
  | cons a axes ih =>
    rw [List.map_cons, List.forall₂_cons_left_iff] at h
    obtain ⟨t, inner, hg, htail, rfl⟩ := h
    simp only [List.map_cons, Shape.stretch, ih htail, Option.map_eq_map, Option.map_some,
      List.zipWith_cons_cons, Axis.stretchTo]
    by_cases hd : a.size = t
    · rw [if_pos hd, if_pos hd]
    · rw [if_neg hd, if_pos (hg.resolve_left hd), if_neg hd]

lemma grows_of_stretch {axes : List Axis} {inner : Shape} {r : List Nat}
    (hlen : axes.length = inner.length)
    (h : Shape.stretch (axes.map Axis.size) (axes.map Axis.stride) inner = some r) :
    List.Forall₂ Grows (axes.map Axis.size) inner := by
  induction axes generalizing inner r with
  | nil =>
    obtain rfl := List.length_eq_zero_iff.mp hlen.symm
    exact .nil
  | cons a axes ih =>
    obtain ⟨t, inner, rfl⟩ := List.exists_cons_of_length_eq_add_one hlen.symm
    simp only [List.map_cons, Shape.stretch, Option.map_eq_map] at h
    -- two ways to grow: not at all, or from a single element
    split_ifs at h with heq hone
    · obtain ⟨r', hr', -⟩ := Option.map_eq_some_iff.mp h
      exact .cons (Or.inl heq) (ih (by simpa using hlen) hr')
    · obtain ⟨r', hr', -⟩ := Option.map_eq_some_iff.mp h
      exact .cons (Or.inr hone) (ih (by simpa using hlen) hr')

lemma ofStrides_stretched {l : Layout} {inner : Shape} (hlen : l.axes.length = inner.length)
    (added : Shape) :
    ofStrides (added ++ inner) (List.replicate added.length 0 ++
      (List.zipWith Axis.stretchTo l.axes inner).map Axis.stride) l.offset =
      l.stretched added inner := by
  have hadded : List.zipWith Axis.mk added (List.replicate added.length 0) =
      added.map (⟨·, 0⟩) := by
    induction added with
    | nil => rfl
    | cons d added ih => simp [List.replicate_succ, ih]
  have hinner : List.zipWith Axis.mk inner ((List.zipWith Axis.stretchTo l.axes inner).map
      Axis.stride) = List.zipWith Axis.stretchTo l.axes inner := by
    generalize l.axes = axes at hlen
    induction axes generalizing inner with
    | nil => simp
    | cons a axes ih =>
      obtain ⟨t, inner, rfl⟩ := List.exists_cons_of_length_eq_add_one hlen.symm
      rw [List.zipWith_cons_cons, List.map_cons, List.zipWith_cons_cons, ih (by simpa using hlen)]
      rfl
  rw [ofStrides, stretched, List.zipWith_append (by simp), hadded, hinner]

lemma stretched_self (l : Layout) : l.stretched [] l.shape = l := by
  obtain ⟨axes, offset⟩ := l
  simp only [stretched, shape, List.map_nil, List.nil_append, mk.injEq, and_true]
  induction axes with
  | nil => rfl
  | cons a axes ih =>
    rw [List.map_cons, List.zipWith_cons_cons, ih, Axis.stretchTo, if_pos rfl]

lemma broadcastStrides_eq_ok {l : Layout} {t : Shape} {r : List Nat} :
    l.shape.broadcastStrides l.strides t = .ok r ↔ ∃ added inner, t = added ++ inner ∧
      List.Forall₂ Grows l.shape inner ∧ r = List.replicate added.length 0 ++
        (List.zipWith Axis.stretchTo l.axes inner).map Axis.stride := by
  have haxes : l.shape.length = l.axes.length := List.length_map _
  unfold Shape.broadcastStrides
  constructor
  · intro h
    split_ifs at h with hlt
    have hinner : l.axes.length = (t.drop (t.length - l.shape.length)).length := by
      rw [List.length_drop]
      omega
    simp only [] at h
    split at h
    · rename_i r' hr
      -- the strides are there, so every axis has grown; then they are known
      have hgrow := grows_of_stretch hinner hr
      obtain rfl := Option.some.inj ((stretch_eq hgrow).symm.trans hr)
      obtain rfl := Except.ok.inj h
      refine ⟨_, _, (List.take_append_drop (t.length - l.shape.length) t).symm, hgrow, ?_⟩
      rw [List.length_take, Nat.min_eq_left (Nat.sub_le _ _)]
    · cases h
  · rintro ⟨added, inner, rfl, hgrow, rfl⟩
    have hlen := hgrow.length_eq
    have hpad : (added ++ inner).length - l.shape.length = added.length := by
      rw [List.length_append]
      omega
    have hle : ¬ (added ++ inner).length < l.shape.length := by
      rw [List.length_append]
      omega
    have hstretch : Shape.stretch l.shape l.strides inner = _ := stretch_eq hgrow
    rw [if_neg hle]
    simp only [hpad, List.drop_left, hstretch]

/-- A layout can be broadcast to the shapes above its own, and to no others. Asked for its own
shape it is left as it is, which is what stretching would make of it. -/
lemma broadcastTo_eq_ok {l m : Layout} {t : Shape} :
    l.broadcastTo t = .ok m ↔ ∃ added inner, t = added ++ inner ∧
      List.Forall₂ Grows l.shape inner ∧ m = l.stretched added inner := by
  unfold broadcastTo
  -- asked for its own shape a layout is left as it is, which stretching would not change either
  by_cases hs : l.shape = t
  · rw [if_pos hs]
    subst hs
    constructor
    · rintro h
      obtain rfl := Except.ok.inj h
      exact ⟨[], l.shape, rfl, List.forall₂_same.mpr fun _ _ => Or.inl rfl, l.stretched_self.symm⟩
    · rintro ⟨added, inner, happ, hgrow, rfl⟩
      have hlen := hgrow.length_eq
      -- nothing is added, as the ranks are equal
      obtain rfl : added = [] := by
        rw [happ, List.length_append] at hlen
        exact List.length_eq_zero_iff.mp (by omega)
      obtain rfl : l.shape = inner := happ
      rw [stretched_self]
  · have haxes : l.shape.length = l.axes.length := List.length_map _
    rw [if_neg hs, exceptBind_eq_ok]
    constructor
    · rintro ⟨r, hr, hm⟩
      obtain ⟨added, inner, rfl, hgrow, rfl⟩ := broadcastStrides_eq_ok.mp hr
      obtain rfl := Except.ok.inj hm
      exact ⟨added, inner, rfl, hgrow,
        ofStrides_stretched (haxes.symm.trans hgrow.length_eq) added⟩
    · rintro ⟨added, inner, rfl, hgrow, rfl⟩
      exact ⟨_, broadcastStrides_eq_ok.mpr ⟨added, inner, rfl, hgrow, rfl⟩,
        congrArg Except.ok (ofStrides_stretched (haxes.symm.trans hgrow.length_eq) added)⟩

lemma shape_stretched {l : Layout} {inner : Shape} (hlen : l.shape.length = inner.length)
    (added : Shape) : (l.stretched added inner).shape = added ++ inner := by
  have haxes : l.shape.length = l.axes.length := List.length_map _
  rw [← ofStrides_stretched (haxes.symm.trans hlen)]
  exact shape_ofStrides (by simp; omega) _

lemma travel_stretchTo {axes : List Axis} {inner : Shape}
    (h : List.Forall₂ Grows (axes.map Axis.size) inner) {ix : List Nat} (hix : inner.Fits ix) :
    travel (List.zipWith Axis.stretchTo axes inner) ix =
      travel axes (List.zipWith (fun d i => if d = 1 then 0 else i) (axes.map Axis.size) ix) := by
  induction axes generalizing inner ix with
  | nil => rfl
  | cons a axes ih =>
    rw [List.map_cons, List.forall₂_cons_left_iff] at h
    obtain ⟨t, inner, hg, htail, rfl⟩ := h
    obtain ⟨i, jx, hi, hj, rfl⟩ := List.forall₂_cons_left_iff.mp hix
    -- stretched or not, an axis of one element contributes nothing
    have hhead : i * (a.stretchTo t).stride = (if a.size = 1 then 0 else i) * a.stride := by
      unfold Axis.stretchTo
      by_cases hd : a.size = t
      · have hi' : (if a.size = 1 then 0 else i) = i := by split <;> omega
        rw [if_pos hd, hi']
      · rw [if_neg hd, if_pos (hg.resolve_left hd), Nat.mul_zero, Nat.zero_mul]
    rw [List.zipWith_cons_cons, List.map_cons, List.zipWith_cons_cons, travel_cons, travel_cons,
      ih htail hj, hhead]

lemma offsetAt_stretched {l : Layout} {added inner : Shape}
    (h : List.Forall₂ Grows l.shape inner) {ix : List Nat} (hix : (added ++ inner).Fits ix) :
    (l.stretched added inner).offsetAt ix = l.offsetAt (l.shape.restrict ix) := by
  have hsplit : (ix.take added.length ++ ix.drop added.length) = ix := List.take_append_drop ..
  have hlen : (added ++ inner).length = ix.length := hix.length_eq
  have hinner : inner.Fits (ix.drop added.length) := by
    have := List.forall₂_drop added.length hix
    rwa [List.drop_left] at this
  have htake : (ix.take added.length).length = added.length := by
    rw [List.length_take]
    rw [List.length_append] at hlen
    omega
  -- the coordinates on added axes do not move
  rw [← hsplit, Shape.restrict_append (hinner.length_eq.symm.trans h.length_eq.symm), offsetAt_eq,
    offsetAt_eq, stretched, travel_append (by simp [htake]), travel_still, Nat.zero_add,
    travel_stretchTo h hinner]
  rfl

structure Shows (l m : Layout) (t : Shape) : Prop where
  shape : m.shape = t
  mem : ∀ ix ∈ t.indices, restrict l.shape ix ∈ l.shape.indices
  offsetAt : ∀ ix ∈ t.indices, m.offsetAt ix = l.offsetAt (restrict l.shape ix)

lemma broadcastTo_of_below {l : Layout} {t : Shape} (h : Below l.shape t) :
    ∃ m, l.broadcastTo t = .ok m ∧ Shows l m t := by
  have hmem := fun ix (hix : ix ∈ t.indices) => Shape.restrict_mem h hix
  obtain ⟨added, inner, rfl, hgrow⟩ := h
  refine ⟨l.stretched added inner, broadcastTo_eq_ok.mpr ⟨added, inner, rfl, hgrow, rfl⟩,
    shape_stretched hgrow.length_eq added, hmem, fun ix hix => ?_⟩
  exact offsetAt_stretched hgrow (Shape.fits_of_mem hix)

def WithinAs (l : Layout) (t : Shape) (n : Nat) : Prop :=
  ∀ ix ∈ t.indices, l.offsetAt (l.shape.restrict ix) < n

lemma Shows.within_iff {l m : Layout} {t : Shape} {n : Nat} (h : Shows l m t) :
    m.Within n ↔ l.WithinAs t n := by
  unfold Within WithinAs
  rw [h.shape]
  exact forall₂_congr fun ix hix => by rw [h.offsetAt ix hix]

lemma Within.as {l : Layout} {t : Shape} {n : Nat} (h : l.Within n) (ht : Below l.shape t) :
    l.WithinAs t n :=
  fun _ hix => h _ (Shape.restrict_mem ht hix)

/-! ### Splitting off an axis -/

lemma splitAxis_of_lt {l : Layout} {k : Nat} (h : k < l.axes.length) :
    l.splitAxis k = .ok (⟨l.axes.eraseIdx k, l.offset⟩, l.axes[k]) := by
  rw [splitAxis, List.getElem?_eq_getElem h]

lemma splitAxis_of_le {l : Layout} {k : Nat} (h : l.axes.length ≤ k) :
    l.splitAxis k = .error (.invalidAxis k l.axes.length) := by
  rw [splitAxis, List.getElem?_eq_none h]

lemma splitAxis_eq_ok {l m : Layout} {k : Nat} {a : Axis} : l.splitAxis k = .ok (m, a) ↔
    ∃ hk : k < l.axes.length, m = ⟨l.axes.eraseIdx k, l.offset⟩ ∧ a = l.axes[k] := by
  rcases Nat.lt_or_ge k l.axes.length with hk | hk
  · simp [splitAxis_of_lt hk, hk, eq_comm]
  · simp [splitAxis_of_le hk, Nat.not_lt.mpr hk]

lemma shape_eraseIdx (l : Layout) (k : Nat) :
    (Layout.mk (l.axes.eraseIdx k) l.offset).shape = l.shape.eraseIdx k :=
  (List.eraseIdx_map ..).symm

/-- Back on the axis split off, an index lies whole strides further on. -/
lemma travel_insertIdx {axes : List Axis} {k : Nat} (hk : k < axes.length) {ix : List Nat}
    (hlen : (axes.eraseIdx k).length = ix.length) (i : Nat) :
    travel axes (ix.insertIdx k i) = travel (axes.eraseIdx k) ix + i * (axes[k]).stride := by
  -- on the axes outside the one that was split off
  induction axes generalizing k ix with
  | nil => simp at hk
  | cons a axes ih =>
    cases k with
    | zero =>
      rw [List.insertIdx_zero, travel_cons, List.eraseIdx_zero, List.tail_cons,
        List.getElem_cons_zero, Nat.add_comm]
    | succ k =>
      have hk' : k < axes.length := by simpa using hk
      rw [List.eraseIdx_cons_succ, List.length_cons] at hlen
      obtain ⟨j, jx, rfl⟩ := List.exists_cons_of_length_eq_add_one hlen.symm
      rw [List.insertIdx_succ_cons, List.eraseIdx_cons_succ, travel_cons, travel_cons,
        ih hk' (by simpa using hlen), List.getElem_cons_succ, Nat.add_assoc]

lemma insertIdx_mem_indices {axes : List Axis} {k : Nat} (hk : k < axes.length) {ix : List Nat}
    (h : ix ∈ Shape.indices ((axes.eraseIdx k).map Axis.size)) {i : Nat}
    (hi : i < (axes[k]).size) : ix.insertIdx k i ∈ Shape.indices (axes.map Axis.size) := by
  rw [← List.eraseIdx_map] at h
  have hk' : k < (axes.map Axis.size).length := by rwa [List.length_map]
  refine Shape.mem_indices_iff.mpr (Shape.forall₂_insertIdx hk' (Shape.mem_indices_iff.mp h) ?_)
  rwa [List.getElem_map]

end Layout

end ArrayBench
