import Mathlib.Algebra.BigOperators.Group.List.Basic
import ArrayBench.Proofs.Layout.Views

/-!
Sums over all indices of a shape, in another order.

A sum over the indices of a shape is a sum over the coordinates of its outermost axis of sums over
the indices of the others. Finite sums may be exchanged, so by induction on the axes any one of them
may be summed over first, and the axes may be taken in reverse order.
-/

namespace ArrayBench

variable {ι κ : Type}

lemma sum_map_flatMap (is : List ι) (g : ι → List κ) (f : κ → Int) :
    ((is.flatMap g).map f).sum = (is.map fun i => ((g i).map f).sum).sum := by
  rw [List.map_flatMap, List.flatMap_def, List.sum_flatten, List.map_map]
  rfl

lemma sum_map_comm (is : List ι) (js : List κ) (f : ι → κ → Int) :
    (is.map fun i => (js.map fun j => f i j).sum).sum =
      (js.map fun j => (is.map fun i => f i j).sum).sum := by
  induction is with
  | nil => simp
  | cons i is ih =>
    simp only [List.map_cons, List.sum_cons, ih]
    exact List.sum_map_add.symm

namespace Shape

def total (s : Shape) (f : List Nat → Int) : Int := (s.indices.map f).sum

lemma total_cons (d : Nat) (s : Shape) (f : List Nat → Int) :
    total (d :: s) f = ((List.range d).map fun i => s.total fun ix => f (i :: ix)).sum := by
  rw [total, indices, sum_map_flatMap]
  simp only [total, List.map_map, Function.comp_def]

lemma total_append_singleton (s : Shape) (d : Nat) (f : List Nat → Int) :
    total (s ++ [d]) f = s.total fun ix => ((List.range d).map fun i => f (ix ++ [i])).sum := by
  rw [total, indices_append_singleton, sum_map_flatMap]
  simp only [total, List.map_map, Function.comp_def]

/-- Any axis may be summed over first. -/
lemma total_eraseIdx {s : Shape} {k n : Nat} (h : s[k]? = some n) (f : List Nat → Int) :
    total s f =
      total (s.eraseIdx k) fun jx => ((List.range n).map fun i => f (jx.insertIdx k i)).sum := by
  -- on the axes outside it: the outermost one is exchanged with all the others, and the axes in
  -- front of an inner one stay as they are
  induction s generalizing k f with
  | nil => simp at h
  | cons d s ih =>
    cases k with
    | zero =>
      obtain rfl : d = n := by simpa using h
      rw [total_cons]
      exact sum_map_comm (List.range d) (indices s) fun i ix => f (i :: ix)
    | succ k =>
      have hs : s[k]? = some n := by simpa using h
      rw [List.eraseIdx_cons_succ, total_cons, total_cons]
      congr 1
      refine List.map_congr_left fun i _ => ?_
      exact ih hs fun ix => f (i :: ix)

/-- The axes may be taken in reverse order. -/
lemma total_reverse (s : Shape) (f : List Nat → Int) :
    total s.reverse f = s.total fun ix => f ix.reverse := by
  induction s generalizing f with
  | nil => rfl
  | cons d s ih =>
    calc total (d :: s).reverse f
        = total s.reverse fun ix => ((List.range d).map fun i => f (ix ++ [i])).sum := by
          rw [List.reverse_cons, total_append_singleton]
      _ = total s fun ix => ((List.range d).map fun i => f (ix.reverse ++ [i])).sum := ih _
      _ = ((List.range d).map fun i => total s fun ix => f (ix.reverse ++ [i])).sum :=
          sum_map_comm (indices s) (List.range d) _
      _ = total (d :: s) fun ix => f ix.reverse := by simp only [total_cons, List.reverse_cons]

end Shape

end ArrayBench
