import ArrayBench.Proofs.Cpu.Loops

/-!
What matrix products and sums compute.

A product sets each row of its target to zero and then adds the products in the order of the inner
dimension, all of it as edits at the indices of the target. A sum is a left fold, from zero, over
the widened elements in row-major order, and a sum along an axis is such a fold for each index of
the other axes.
-/

namespace ArrayBench

open Edit (each place)
open Buffer (Makes)

/-! ### Matrix products -/

namespace Layout

lemma offset₂_eq {l : Layout} {m n : Nat} (h : l.shape = [m, n]) (i j : Nat) :
    l.offset₂ i j = .ok (l.offsetAt [i, j]) := by
  obtain ⟨axes, offset⟩ := l
  match axes, h with
  | [r, c], _ => simp [offset₂, offsetAt, Nat.add_assoc]

lemma mem_indices₂ {m n i j : Nat} (hi : i < m) (hj : j < n) : [i, j] ∈ Shape.indices [m, n] := by
  simp [hi, hj]

lemma exists_of_mem_indices₂ {m n : Nat} {ix : List Nat} (h : ix ∈ Shape.indices [m, n]) :
    ∃ i < m, ∃ j < n, ix = [i, j] := by
  obtain ⟨i, hi, jx, hjx, rfl⟩ := Shape.mem_indices_cons.mp h
  obtain ⟨j, hj, kx, hkx, rfl⟩ := Shape.mem_indices_cons.mp hjx
  obtain rfl := Shape.mem_indices_nil.mp hkx
  exact ⟨i, hi, j, hj, rfl⟩

end Layout

namespace Cpu

variable {d : DType}

/-- The edits of the row `i` of a product: to zero, and then one term after the other. -/
def rowEdits (v w : Nat → Nat → d.Elem) (k n i : Nat) : List (Edit (List Nat) d.Elem) :=
  each ((List.range n).map fun j => [i, j]) (fun _ _ => d.zero) ++
    (List.range k).flatMap fun p => (List.range n).map fun j =>
      ([i, j], fun u => BinaryOp.add.within u (BinaryOp.mul.within (v i p) (w p j)))

def productEdits (v w : Nat → Nat → d.Elem) (m k n : Nat) : List (Edit (List Nat) d.Elem) :=
  (List.range m).flatMap (rowEdits v w k n)

lemma mem_rowEdits {v w : Nat → Nat → d.Elem} {k n i : Nat} {e : Edit (List Nat) d.Elem}
    (h : e ∈ rowEdits v w k n i) : ∃ j < n, e.1 = [i, j] := by
  rcases List.mem_append.mp h with h | h
  · obtain ⟨j, hj, hij⟩ := List.mem_map.mp (Edit.mem_each h)
    exact ⟨j, List.mem_range.mp hj, hij.symm⟩
  · obtain ⟨p, -, h⟩ := List.mem_flatMap.mp h
    obtain ⟨j, hj, rfl⟩ := List.mem_map.mp h
    exact ⟨j, List.mem_range.mp hj, rfl⟩

lemma mem_productEdits {v w : Nat → Nat → d.Elem} {m k n : Nat} {e : Edit (List Nat) d.Elem}
    (h : e ∈ productEdits v w m k n) : e.1 ∈ Shape.indices [m, n] := by
  obtain ⟨i, hi, h⟩ := List.mem_flatMap.mp h
  obtain ⟨j, hj, hij⟩ := mem_rowEdits h
  rw [hij]
  exact Layout.mem_indices₂ (List.mem_range.mp hi) hj

lemma productEdits_congr {v v' w w' : Nat → Nat → d.Elem} {m k n : Nat}
    (hv : ∀ i < m, ∀ p < k, v i p = v' i p) (hw : ∀ p < k, ∀ j < n, w p j = w' p j) :
    productEdits v w m k n = productEdits v' w' m k n := by
  refine List.flatMap_congr fun i hi => congrArg (_ ++ ·) ?_
  refine List.flatMap_congr fun p hp => List.map_congr_left fun j hj => ?_
  rw [hv i (List.mem_range.mp hi) p (List.mem_range.mp hp),
    hw p (List.mem_range.mp hp) j (List.mem_range.mp hj)]

/-- The products of the elements of a row and of a column, added up from zero in their order. -/
def dotProduct (k : Nat) (v w : Nat → d.Elem) : d.Elem :=
  (List.range k).foldl (fun acc p => BinaryOp.add.within acc (BinaryOp.mul.within (v p) (w p)))
    d.zero

lemma effect_row (g : Nat → d.Elem → d.Elem) (i : Nat) {j n : Nat} (hj : j < n) (u : d.Elem) :
    Edit.effect ((List.range n).map fun j => ([i, j], g j)) [i, j] u = g j u := by
  have hplace : ((List.range n).map fun j => ([i, j], g j)) =
      place (fun j => [i, j]) (each (List.range n) g) := by simp [place, each]
  rw [hplace, Edit.effect_place fun _ _ h => by simpa using h,
    Edit.effect_each List.nodup_range g (List.mem_range.mpr hj)]

/-- The partial sums of a whole row grow together, but each takes up its own terms only. -/
lemma effect_rowEdits (v w : Nat → Nat → d.Elem) (k i : Nat) {j n : Nat} (hj : j < n)
    (u : d.Elem) :
    Edit.effect (rowEdits v w k n i) [i, j] u = dotProduct k (v i) (w · j) := by
  have hzero : Edit.effect (each ((List.range n).map fun j => [i, j]) fun _ _ => d.zero) [i, j] u =
      d.zero := by
    rw [each, List.map_map]
    exact effect_row (fun _ _ => d.zero) i hj u
  rw [rowEdits, Edit.effect_append, hzero, Edit.effect_flatMap, dotProduct]
  congr 1
  funext acc p
  exact effect_row (fun j u => BinaryOp.add.within u (BinaryOp.mul.within (v i p) (w p j))) i hj acc

/-- What a product makes of an element, whatever it was. -/
lemma effect_productEdits (v w : Nat → Nat → d.Elem) {m k n i j : Nat} (hi : i < m) (hj : j < n)
    (u : d.Elem) :
    Edit.effect (productEdits v w m k n) [i, j] u = dotProduct k (v i) (w · j) := by
  have hother : ∀ l ∈ List.range m, l ≠ i → ∀ e ∈ rowEdits v w k n l, e.1 ≠ [i, j] := by
    intro l _ hl e he heq
    obtain ⟨j', -, hlj⟩ := mem_rowEdits he
    exact hl (List.cons.inj (hlj.symm.trans heq)).1
  rw [productEdits, Edit.effect_flatMap_of_mem List.nodup_range (List.mem_range.mpr hi) hother,
    effect_rowEdits v w k i hj]

lemma overwrites_productEdits (v w : Nat → Nat → d.Elem) {m k n : Nat} {ix : List Nat}
    (h : ix ∈ Shape.indices [m, n]) : Edit.Overwrites (productEdits v w m k n) ix := by
  obtain ⟨i, hi, j, hj, rfl⟩ := Layout.exists_of_mem_indices₂ h
  intro u u'
  rw [effect_productEdits v w hi hj u, effect_productEdits v w hi hj u']

section Product

variable {x y z : Buffer d.Elem} {lx ly l : Layout} {m k n : Nat}

lemma zeroRow_makes (hs : l.shape = [m, n]) (hz : l.Within z.size) {i : Nat} (hi : i < m) :
    Makes ((List.range n).forM fun j => do
        let o ← l.offset₂ i j
        Buffer.write o d.zero)
      (place l.offsetAt (each ((List.range n).map fun j => [i, j]) fun _ _ => d.zero)) z := by
  have hplace : place l.offsetAt (each ((List.range n).map fun j => [i, j]) fun _ _ => d.zero) =
      place (fun j => l.offsetAt [i, j]) (each (List.range n) fun _ _ => d.zero) := by
    simp [place, each]
  rw [hplace]
  refine Buffer.makes_forM_each fun j hj u hu => ?_
  have hlt := hz _ (by rw [hs]; exact Layout.mem_indices₂ hi (List.mem_range.mp hj))
  refine (Buffer.makes_write (by rw [hu]; exact hlt) _).congr ?_
  rw [Layout.offset₂_eq hs, Step.ok_bind]

lemma addProduct_makes (hsy : ly.shape = [k, n]) (hs : l.shape = [m, n]) (hy : ly.Within y.size)
    (hz : l.Within z.size) (v : d.Elem) {i p j : Nat} (hi : i < m) (hp : p < k) (hj : j < n) :
    Makes (addProduct v y ly l i p j) [(l.offsetAt [i, j], fun u =>
      BinaryOp.add.within u (BinaryOp.mul.within v (ly.elemAt y [p, j])))] z := by
  have hlt := hz _ (by rw [hs]; exact Layout.mem_indices₂ hi hj)
  have hread : y.read (ly.offsetAt [p, j]) = .ok (ly.elemAt y [p, j]) :=
    Layout.read_offsetAt hy (by rw [hsy]; exact Layout.mem_indices₂ hp hj)
  refine (Buffer.makes_modify hlt _).congr ?_
  rw [addProduct, Layout.offset₂_eq hs, Step.ok_bind, Layout.offset₂_eq hsy, Step.ok_bind, hread,
    Step.ok_bind]

lemma addRow_makes (hsx : lx.shape = [m, k]) (hsy : ly.shape = [k, n]) (hs : l.shape = [m, n])
    (hx : lx.Within x.size) (hy : ly.Within y.size) (hz : l.Within z.size) {i p : Nat}
    (hi : i < m) (hp : p < k) :
    Makes (do
        let o ← lx.offset₂ i p
        let v ← Buffer.read x o
        (List.range n).forM fun j => addProduct v y ly l i p j)
      (place l.offsetAt ((List.range n).map fun j => ([i, j], fun u => BinaryOp.add.within u
        (BinaryOp.mul.within (lx.elemAt x [i, p]) (ly.elemAt y [p, j]))))) z := by
  -- the factor from the left matrix is read once for the whole row
  have hread : x.read (lx.offsetAt [i, p]) = .ok (lx.elemAt x [i, p]) :=
    Layout.read_offsetAt hx (by rw [hsx]; exact Layout.mem_indices₂ hi hp)
  have hloop : Makes ((List.range n).forM fun j => addProduct (lx.elemAt x [i, p]) y ly l i p j)
      _ z :=
    Buffer.makes_forM_each fun j hj u hu =>
      addProduct_makes hsy hs hy (by rwa [hu]) _ hi hp (List.mem_range.mp hj)
  rw [place, List.map_map]
  rw [place, each, List.map_map] at hloop
  refine hloop.congr ?_
  rw [Layout.offset₂_eq hsx, Step.ok_bind, hread, Step.ok_bind]

lemma matmulElems_makes (hsx : lx.shape = [m, k]) (hsy : ly.shape = [k, n])
    (hs : l.shape = [m, n]) (hx : lx.Within x.size) (hy : ly.Within y.size)
    (hz : l.Within z.size) :
    Makes (matmulElems x lx y ly l m k n)
      (place l.offsetAt (productEdits (fun i p => lx.elemAt x [i, p])
        (fun p j => ly.elemAt y [p, j]) m k n)) z := by
  rw [productEdits, place, List.map_flatMap]
  refine Buffer.makes_forM fun i hi u hu => ?_
  have him := List.mem_range.mp hi
  rw [rowEdits, List.map_append, List.map_flatMap]
  refine (zeroRow_makes hs (by rwa [hu]) him).bind fun t ht => ?_
  exact Buffer.makes_forM fun p hp w hw =>
    addRow_makes hsx hsy hs hx hy (by rwa [hw, ht, hu]) him (List.mem_range.mp hp)

end Product

/-! ### Sums -/

def addWide (acc : d.sumType.Elem) (v : d.Elem) : d.sumType.Elem :=
  BinaryOp.add.within acc (DType.widen v)

lemma foldlM_accumulate {ι : Type} {x : Buffer d.Elem} {is : List ι} {p : ι → Nat}
    {v : ι → d.Elem} (h : ∀ i ∈ is, x.get? (p i) = some (v i)) (acc : d.sumType.Elem) :
    is.foldlM (fun acc i => accumulate x acc (p i)) acc = .ok ((is.map v).foldl addWide acc) := by
  induction is generalizing acc with
  | nil => rfl
  | cons i is ih =>
    have hread : x.read (p i) = .ok (v i) := Buffer.read_of_get? (h i (by simp))
    have hstep : accumulate x acc (p i) = .ok (addWide acc (v i)) := by
      rw [accumulate, hread]
      rfl
    rw [List.foldlM_cons, hstep, exceptOk_bind, ih fun j hj => h j (by simp [hj]), List.map_cons,
      List.foldl_cons]

/-- The sum formed along the offsets, without a short cut. -/
def Strided.sumElems (x : Buffer d.Elem) (l : Layout) : Except ArrayError d.sumType.Elem :=
  l.offsets.foldlM (accumulate x) d.sumType.zero

lemma Strided.sumElems_eq {x : Buffer d.Elem} {l : Layout} (h : l.Within x.size) :
    Strided.sumElems x l =
      .ok ((l.shape.indices.map (l.elemAt x)).foldl addWide d.sumType.zero) := by
  rw [Strided.sumElems, Layout.offsets_eq, List.foldlM_map]
  exact foldlM_accumulate (fun ix hix => Layout.get?_offsetAt h hix) _

lemma sumElems_strided {x : Buffer d.Elem} {l : Layout} (h : l.Within x.size) :
    sumElems x l = Strided.sumElems x l := by
  unfold sumElems Strided.sumElems
  split_ifs with hc
  · rw [Buffer.checkPrefix_of_le (Layout.numel_le_of_within hc h), exceptOk_bind,
      Layout.offsets_of_isContiguous hc]
  · rfl

lemma sumElems_eq {x : Buffer d.Elem} {l : Layout} (h : l.Within x.size) :
    sumElems x l = .ok ((l.shape.indices.map (l.elemAt x)).foldl addWide d.sumType.zero) := by
  rw [sumElems_strided h, Strided.sumElems_eq h]

def axisSums (x : Buffer d.Elem) (l : Layout) (k size : Nat) (outer : Shape) :
    List d.sumType.Elem :=
  outer.indices.map fun ix =>
    ((List.range size).map fun i => l.elemAt x (ix.insertIdx k i)).foldl addWide d.sumType.zero

lemma sumLine_eq {x : Buffer d.Elem} {l : Layout} (h : l.Within x.size) {k : Nat}
    (hk : k < l.axes.length) {ix : List Nat}
    (hix : ix ∈ (Layout.mk (l.axes.eraseIdx k) l.offset).shape.indices) :
    sumLine x l.axes[k] ((Layout.mk (l.axes.eraseIdx k) l.offset).offsetAt ix) =
      .ok (((List.range (l.axes[k]).size).map fun i =>
        l.elemAt x (ix.insertIdx k i)).foldl addWide d.sumType.zero) := by
  refine foldlM_accumulate (fun i hi => ?_) _
  have hlen : (l.axes.eraseIdx k).length = ix.length := by
    rw [Shape.length_of_mem_indices hix, Layout.shape, List.length_map]
  have htravel := Layout.travel_insertIdx hk hlen i
  have hget : x.get? (l.offsetAt (ix.insertIdx k i)) = some (l.elemAt x (ix.insertIdx k i)) :=
    Layout.get?_offsetAt h (Layout.insertIdx_mem_indices hk hix (List.mem_range.mp hi))
  rwa [Layout.offsetAt_eq, htravel, ← Nat.add_assoc] at hget

lemma mapM_sumLine {x : Buffer d.Elem} {l : Layout} (h : l.Within x.size) {k : Nat}
    (hk : k < l.axes.length) :
    (Layout.mk (l.axes.eraseIdx k) l.offset).offsets.mapM (sumLine x l.axes[k]) =
      .ok (axisSums x l k (l.axes[k]).size (Layout.mk (l.axes.eraseIdx k) l.offset).shape) := by
  rw [Layout.offsets_eq]
  exact Layout.mapM_ok fun ix hix => sumLine_eq h hk hix

end Cpu

end ArrayBench
