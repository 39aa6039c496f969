import Mathlib.Data.List.Nodup
import Mathlib.Data.List.Induction
import ArrayBench.Layout.Cursor

/-!
Indices in row-major order, and the positions a cursor visits.

The cursor turns wheels and never forms an index. Its run falls into rows: the innermost wheel goes
through its coordinates once, and the others then make one turn. By induction on the axes, from the
outermost one inwards, the positions visited are those of the indices in row-major order.
-/

namespace ArrayBench

namespace Shape

def indices : Shape → List (List Nat)
  | [] => [[]]
  | d :: s => (List.range d).flatMap fun i => (indices s).map (i :: ·)

@[simp] lemma indices_nil : indices [] = [[]] := rfl

lemma mem_indices_nil {ix : List Nat} : ix ∈ indices [] ↔ ix = [] := by simp

lemma mem_indices_cons {d : Nat} {s : Shape} {ix : List Nat} :
    ix ∈ indices (d :: s) ↔ ∃ i < d, ∃ jx ∈ indices s, ix = i :: jx := by
  simp only [indices, List.mem_flatMap, List.mem_range, List.mem_map, eq_comm]

@[simp] lemma cons_mem_indices {i d : Nat} {ix : List Nat} {s : Shape} :
    i :: ix ∈ indices (d :: s) ↔ i < d ∧ ix ∈ indices s := by
  rw [mem_indices_cons]
  constructor
  · rintro ⟨i, hi, jx, hj, h⟩
    obtain ⟨rfl, rfl⟩ := List.cons.inj h
    exact ⟨hi, hj⟩
  · rintro ⟨hi, hj⟩
    exact ⟨i, hi, ix, hj, rfl⟩

lemma length_of_mem_indices {s : Shape} {ix : List Nat} (h : ix ∈ indices s) :
    ix.length = s.length := by
  induction s generalizing ix with
  | nil => rw [mem_indices_nil.mp h]
  | cons d s ih =>
    obtain ⟨i, -, jx, hj, rfl⟩ := mem_indices_cons.mp h
    rw [List.length_cons, List.length_cons, ih hj]

lemma length_indices (s : Shape) : (indices s).length = s.numel := by
  induction s with
  | nil => rfl
  | cons d s ih => simp [indices, List.length_flatMap, ih]

lemma numel_pos_of_mem_indices {s : Shape} {ix : List Nat} (h : ix ∈ indices s) : 0 < s.numel := by
  rw [← length_indices]
  exact List.length_pos_of_mem h

lemma nodup_indices (s : Shape) : (indices s).Nodup := by
  induction s with
  | nil => simp
  | cons d s ih =>
    refine List.nodup_flatMap.mpr ⟨fun i _ => ih.map (List.cons_injective), ?_⟩
    refine List.nodup_range.imp fun {i j} hij => ?_
    rintro ix hi hj
    obtain ⟨a, -, rfl⟩ := List.mem_map.mp hi
    obtain ⟨b, -, hb⟩ := List.mem_map.mp hj
    exact hij (List.cons.inj hb).1.symm

lemma numel_append (s t : Shape) : numel (s ++ t) = numel s * numel t := by
  induction s with
  | nil => simp
  | cons d s ih => simp [ih, Nat.mul_assoc]

/-- Row-major order read from the other end: the innermost coordinate runs fastest. -/
lemma indices_append_singleton (s : Shape) (d : Nat) :
    indices (s ++ [d]) = (indices s).flatMap fun ix => (List.range d).map fun i => ix ++ [i] := by
  induction s with
  | nil => simp [indices, ← List.map_eq_flatMap]
  | cons e s ih =>
    simp only [List.cons_append, indices, ih, List.map_flatMap, List.flatMap_assoc,
      List.flatMap_map, List.map_map]
    rfl

end Shape

namespace Layout

/-- How far from the first element an index lies. -/
def travel (axes : List Axis) (ix : List Nat) : Nat :=
  (List.zipWith (fun a i => i * a.stride) axes ix).sum

@[simp] lemma travel_nil (ix : List Nat) : travel [] ix = 0 := rfl

@[simp] lemma travel_cons (a : Axis) (axes : List Axis) (i : Nat) (ix : List Nat) :
    travel (a :: axes) (i :: ix) = i * a.stride + travel axes ix := by
  simp [travel]

lemma travel_append_singleton {axes : List Axis} {ix : List Nat} (h : axes.length = ix.length)
    (a : Axis) (i : Nat) : travel (axes ++ [a]) (ix ++ [i]) = travel axes ix + i * a.stride := by
  simp [travel, List.zipWith_append h]

lemma offsetAt_eq (l : Layout) (ix : List Nat) : l.offsetAt ix = l.offset + travel l.axes ix := rfl

end Layout

namespace Cursor

lemma next?_of_pos {c : Cursor} (h : 0 < c.remaining) : c.next? = some (c.position, c.advance) :=
  if_neg (Nat.ne_of_gt h)

lemma next?_of_more {n p : Nat} {ws : List Wheel} :
    next? ⟨ws, p, n + 2⟩ = some (p, ⟨(turn ws p).1, (turn ws p).2, n + 1⟩) := by
  rw [next?_of_pos (Nat.succ_pos _), advance, if_neg (by simp)]
  rfl

lemma turn_forward {w : Wheel} (h : w.index + 1 < w.axis.size) (ws : List Wheel) (p : Nat) :
    turn (w :: ws) (p + w.index * w.axis.stride) =
      (⟨w.axis, w.index + 1⟩ :: ws, p + (w.index + 1) * w.axis.stride) := by
  rw [turn, if_pos h, Nat.succ_mul, Nat.add_assoc]

lemma turn_back {w : Wheel} (h : w.index + 1 = w.axis.size) (ws : List Wheel) (p : Nat) :
    turn (w :: ws) (p + w.index * w.axis.stride) =
      (⟨w.axis, 0⟩ :: (turn ws p).1, (turn ws p).2) := by
  have hbehind : p + w.index * w.axis.stride + w.axis.stride - w.axis.stride * w.axis.size = p := by
    rw [← h, Nat.mul_comm w.axis.stride, Nat.succ_mul]
    omega
  rw [turn, if_neg (by omega), hbehind]

/-- The positions of a number of steps, from a position on. -/
def visit : Nat → List Wheel → Nat → List Nat
  | 0, _, _ => []
  | n + 1, ws, p => p :: visit n (turn ws p).1 (turn ws p).2

lemma take_eq_visit (n : Nat) (ws : List Wheel) (p : Nat) : take n ⟨ws, p, n⟩ = visit n ws p := by
  induction n generalizing ws p with
  | zero => rfl
  | succ n ih =>
    cases n with
    | zero => rfl
    | succ n => rw [visit, ← ih, take, next?_of_more]

/-- The rest of a row, and the step into the next one. -/
lemma visit_row (a : Axis) (ws : List Wheel) (p n : Nat) (k i : Nat) (hk : 0 < k)
    (hi : i + k = a.size) :
    visit (k + n) (⟨a, i⟩ :: ws) (p + i * a.stride) =
      (List.range k).map (fun j => p + (i + j) * a.stride) ++
        visit n (⟨a, 0⟩ :: (turn ws p).1) (turn ws p).2 := by
  induction k generalizing i with
  | zero => omega
  | succ k ih =>
    rw [show k + 1 + n = (k + n) + 1 by omega, visit]
    rcases Nat.eq_zero_or_pos k with rfl | hk
    · -- the last element of the row: the wheel goes back, the others turn
      have hend : i + 1 = a.size := by omega
      rw [turn_back hend]
      simp
    · have hnext : i + 1 < a.size := by omega
      rw [turn_forward hnext, ih (i + 1) hk (by omega), List.range_succ_eq_map, List.map_cons,
        List.map_map]
      simp [Function.comp_def, Nat.add_assoc, Nat.add_comm 1]

/-- A run of whole rows: one row from each position that the other wheels visit. -/
lemma visit_rows (a : Axis) (ha : 0 < a.size) (m : Nat) (ws : List Wheel) (p : Nat) :
    visit (m * a.size) (⟨a, 0⟩ :: ws) p =
      (visit m ws p).flatMap fun q => (List.range a.size).map fun i => q + i * a.stride := by
  induction m generalizing ws p with
  | zero => simp [visit]
  | succ m ih =>
    have hrow := visit_row a ws p (m * a.size) a.size 0 ha (by omega)
    simp only [Nat.zero_mul, Nat.add_zero, Nat.zero_add] at hrow
    rw [Nat.succ_mul, Nat.add_comm, hrow, ih, visit, List.flatMap_cons]

lemma visit_axes (axes : List Axis) (p : Nat) (h : 0 < Shape.numel (axes.map Axis.size)) :
    visit (Shape.numel (axes.map Axis.size)) (axes.map fun a => ⟨a, 0⟩).reverse p =
      (Shape.indices (axes.map Axis.size)).map fun ix => p + Layout.travel axes ix := by
  induction axes using List.reverseRecOn with
  | nil => simp [visit]
  | append_singleton axes a ih =>
    simp only [List.map_append, List.map_cons, List.map_nil, Shape.numel_append,
      Shape.numel_cons, Shape.numel_nil, Nat.mul_one] at h ⊢
    have ha : 0 < a.size := Nat.pos_of_mul_pos_left h
    have hs : 0 < Shape.numel (axes.map Axis.size) := Nat.pos_of_mul_pos_right h
    rw [List.reverse_append, List.reverse_singleton, List.singleton_append, visit_rows a ha,
      ih hs, Shape.indices_append_singleton, List.flatMap_map, List.map_flatMap]
    refine List.flatMap_congr fun ix hix => ?_
    have hlen : axes.length = ix.length := by simpa using (Shape.length_of_mem_indices hix).symm
    simp [Function.comp_def, Layout.travel_append_singleton hlen, Nat.add_assoc]

end Cursor

namespace Layout

/-- The offsets of a layout are the positions of its indices in row-major order. -/
lemma offsets_eq (l : Layout) : l.offsets = l.shape.indices.map l.offsetAt := by
  rw [offsets, cursor, Cursor.take_eq_visit]
  rcases Nat.eq_zero_or_pos l.numel with h | h
  · have hnil : l.shape.indices = [] := by
      rw [← List.length_eq_zero_iff, Shape.length_indices]
      exact h
    rw [h, hnil]
    rfl
  · exact Cursor.visit_axes l.axes l.offset h

lemma length_offsets (l : Layout) : l.offsets.length = l.numel := by
  rw [offsets_eq, List.length_map, Shape.length_indices, numel]

lemma mem_offsets {l : Layout} {p : Nat} :
    p ∈ l.offsets ↔ ∃ ix ∈ l.shape.indices, l.offsetAt ix = p := by
  rw [offsets_eq, List.mem_map]

end Layout

end ArrayBench
