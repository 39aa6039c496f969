import ArrayBench.Proofs.Layout.Chains

/-!
Walks through a layout, step by step.

A step adds the stride of an axis to the position before it looks whether the axis is at its end,
and there takes the whole axis off again. So on machine words a walk needs room for more than the
positions of the elements: wherever a row along an axis is followed by another one, the position
just behind its last element is formed too. Nothing else can break a walk off, and one that is not
broken off gives out the positions of the indices in row-major order. No difference is below zero
then, since what is taken off has been added on the way.
-/

namespace ArrayBench

namespace Cursor

variable {c d : Cursor}

lemma next?_eq_none : c.next? = none ↔ c.remaining = 0 := by
  unfold next?
  split <;> simp_all

/-! ### After a number of steps -/

/-- The cursor after `k` steps. Where no element is to come it stays as it is. -/
def after : Nat → Cursor → Cursor
  | 0, c => c
  | k + 1, c =>
    match c.next? with
    | none => c
    | some (_, d) => after k d

@[simp] lemma after_zero (c : Cursor) : after 0 c = c := rfl

lemma after_succ_of_pos (h : 0 < c.remaining) (k : Nat) : after (k + 1) c = after k c.advance := by
  rw [after, next?_of_pos h]

lemma after_succ_of_zero (h : c.remaining = 0) (k : Nat) : after (k + 1) c = c := by
  rw [after, next?_eq_none.mpr h]

lemma remaining_advance (c : Cursor) : c.advance.remaining = c.remaining - 1 := by
  unfold advance
  split
  · simp
    omega
  · rfl

lemma remaining_after (k : Nat) (c : Cursor) : (after k c).remaining = c.remaining - k := by
  induction k generalizing c with
  | zero => rfl
  | succ k ih =>
    rcases Nat.eq_zero_or_pos c.remaining with h0 | hpos
    · rw [after_succ_of_zero h0, h0, Nat.zero_sub]
    · rw [after_succ_of_pos hpos, ih, remaining_advance]
      omega

lemma getElem?_take {k n : Nat} (h : k < n) (c : Cursor) :
    (take n c)[k]? = (after k c).next?.map Prod.fst := by
  induction n generalizing k c with
  | zero => omega
  | succ n ih =>
    rcases Nat.eq_zero_or_pos c.remaining with h0 | hpos
    · have hstay : after k c = c := by cases k <;> simp [after_succ_of_zero h0]
      rw [hstay, take, next?_eq_none.mpr h0]
      rfl
    · rw [take, next?_of_pos hpos]
      cases k with
      | zero => rw [after_zero, next?_of_pos hpos]; rfl
      | succ k => rw [List.getElem?_cons_succ, ih (by omega), after_succ_of_pos hpos]

end Cursor

/-! ### Row-major order -/

namespace Shape

lemma map_position_indices (s : Shape) : s.indices.map s.position = List.range s.numel := by
  have hoffsets := Layout.offsets_eq (.contiguous s)
  rw [Layout.offsets_contiguous, Layout.shape_contiguous] at hoffsets
  rw [hoffsets]
  exact List.map_congr_left fun ix _ => (Layout.offsetAt_contiguous s ix).symm

/-- The `k`-th of the indices is the one whose place is `k`. -/
lemma getElem?_indices {s : Shape} {k : Nat} {ix : List Nat} :
    s.indices[k]? = some ix ↔ List.Forall₂ (fun d i => i < d) s ix ∧ s.position ix = k := by
  -- the places of all indices, in their order, are 0, 1, 2 and so on
  have hplace : ∀ {j : Nat} {jx : List Nat}, s.indices[j]? = some jx → s.position jx = j := by
    intro j jx hj
    have hmap : (s.indices.map s.position)[j]? = some (s.position jx) := by
      rw [List.getElem?_map, hj, Option.map_some]
    rw [map_position_indices] at hmap
    obtain ⟨hj, hget⟩ := List.getElem?_eq_some_iff.mp hmap
    rw [← hget, List.getElem_range]
  rw [← mem_indices_iff]
  constructor
  · intro h
    exact ⟨List.mem_of_getElem? h, hplace h⟩
  · rintro ⟨hmem, rfl⟩
    obtain ⟨j, hj⟩ := List.mem_iff_getElem?.mp hmem
    rwa [hplace hj]

lemma pos_of_numel_pos {s : Shape} (h : 0 < s.numel) {d : Nat} (hd : d ∈ s) : 0 < d := by
  induction s with
  | nil => simp at hd
  | cons e s ih =>
    rw [numel_cons] at h
    rcases List.mem_cons.mp hd with rfl | hd
    · exact Nat.pos_of_mul_pos_right h
    · exact ih (Nat.pos_of_mul_pos_left h) hd

end Shape

/-! ### Machine words -/

lemma word?_of_lt {n : Nat} (h : n < wordLimit) : word? n = some n := if_pos h

lemma word?_eq_some {n m : Nat} : word? n = some m ↔ n < wordLimit ∧ n = m := by
  simp [word?]

lemma minus?_of_le {a b : Nat} (h : b ≤ a) : minus? a b = some (a - b) := if_pos h

lemma minus?_eq_some {a b m : Nat} : minus? a b = some m ↔ b ≤ a ∧ a - b = m := by
  simp [minus?]

namespace Shape

lemma foldlM_count {n : Nat} (hn : n < wordLimit) (s : Shape) (m : Nat) :
    s.foldlM (fun n d => word? (n * d)) n = some m ↔
      (∀ k, n * numel (s.take k) < wordLimit) ∧ n * s.numel = m := by
  -- with the product so far as the start; it is itself one of the numbers to be held
  induction s generalizing n with
  | nil =>
    rw [List.foldlM_nil, numel_nil, Nat.mul_one]
    refine ⟨fun h => ⟨fun k => ?_, Option.some.inj h⟩, fun h => congrArg some h.2⟩
    rwa [List.take_nil, numel_nil, Nat.mul_one]
  | cons d s ih =>
    rw [List.foldlM_cons, Option.bind_eq_bind, Option.bind_eq_some_iff]
    constructor
    · rintro ⟨_, hd, hs⟩
      obtain ⟨hlt, rfl⟩ := word?_eq_some.mp hd
      obtain ⟨hcount, hm⟩ := (ih hlt).mp hs
      refine ⟨fun k => ?_, by rw [numel_cons, ← Nat.mul_assoc, hm]⟩
      cases k with
      | zero => simpa using hn
      | succ k => rw [List.take_succ_cons, numel_cons, ← Nat.mul_assoc]; exact hcount k
    · rintro ⟨hcount, hm⟩
      have hlt : n * d < wordLimit := by simpa using hcount 1
      refine ⟨n * d, word?_of_lt hlt, (ih hlt).mpr ⟨fun k => ?_, ?_⟩⟩
      · rw [Nat.mul_assoc, ← numel_cons, ← List.take_succ_cons]
        exact hcount (k + 1)
      · rw [Nat.mul_assoc, ← numel_cons, hm]

lemma count?_eq_some {s : Shape} {m : Nat} :
    s.count? = some m ↔ (∀ k, numel (s.take k) < wordLimit) ∧ s.numel = m := by
  have hone : 1 < wordLimit := by decide
  simpa only [count?, Nat.one_mul] using foldlM_count hone s m

lemma le_numel_of_mem {s : Shape} (h : 0 < s.numel) {d : Nat} (hd : d ∈ s) : d ≤ s.numel := by
  obtain ⟨t, u, rfl⟩ := List.append_of_mem hd
  have hdvd : d ∣ numel (t ++ d :: u) := by
    rw [numel_append, numel_cons]
    exact Nat.dvd_mul_left_of_dvd (Nat.dvd_mul_right d _) _
  exact Nat.le_of_dvd h hdvd

end Shape

namespace Cursor

lemma turn?_eq_some {ws : List Wheel} {p : Nat} {r : List Wheel × Nat} (h : turn? ws p = some r) :
    r = turn ws p := by
  induction ws generalizing p r with
  | nil => exact (Option.some.inj h).symm
  | cons w ws ih =>
    simp only [turn?, Option.bind_eq_bind, Option.bind_eq_some_iff, word?_eq_some] at h
    obtain ⟨_, ⟨-, rfl⟩, _, ⟨-, rfl⟩, h⟩ := h
    by_cases hnext : w.index + 1 < w.axis.size
    · rw [if_pos hnext] at h
      rw [turn, if_pos hnext, ← Option.some.inj h]
    · rw [if_neg hnext] at h
      simp only [Option.bind_eq_some_iff, word?_eq_some, minus?_eq_some] at h
      obtain ⟨_, ⟨-, rfl⟩, _, ⟨-, rfl⟩, x, hx, h⟩ := h
      rw [turn, if_neg hnext, ← ih hx, ← Option.some.inj h]

lemma turn?_forward {w : Wheel} (hsize : w.axis.size < wordLimit) (h : w.index + 1 < w.axis.size)
    (ws : List Wheel) (p : Nat) :
    turn? (w :: ws) p = some (turn (w :: ws) p) ↔ p + w.axis.stride < wordLimit := by
  rw [turn?, turn, word?_of_lt (by omega), if_pos h]
  simp [h, Option.bind_eq_some_iff, word?_eq_some]

/-- The wheel goes back to where its row starts, from the position behind the row. -/
lemma turn?_back {w : Wheel} (hsize : w.axis.size < wordLimit) (h : w.index + 1 = w.axis.size)
    (ws : List Wheel) (p : Nat) :
    turn? (w :: ws) (p + w.index * w.axis.stride) =
        some (turn (w :: ws) (p + w.index * w.axis.stride)) ↔
      p + w.axis.size * w.axis.stride < wordLimit ∧ turn? ws p = some (turn ws p) := by
  -- the position behind a row is a whole axis further on than the start of the row
  have hwhole : w.axis.size * w.axis.stride = w.index * w.axis.stride + w.axis.stride := by
    rw [← h, Nat.succ_mul]
  have hbehind : p + w.index * w.axis.stride + w.axis.stride =
      p + w.axis.size * w.axis.stride := by omega
  have hnext : ¬ w.index + 1 < w.axis.size := by omega
  rw [turn?, turn, word?_of_lt (by omega), if_neg hnext, hbehind, Nat.mul_comm w.axis.stride,
    Nat.add_sub_cancel]
  simp only [Option.bind_eq_bind, Option.bind_some, if_neg hnext, Option.bind_eq_some_iff,
    word?_eq_some]
  constructor
  · rintro ⟨_, ⟨hp, rfl⟩, _, ⟨-, rfl⟩, q, hq, r, hr, -⟩
    obtain rfl : p = q := by simpa [minus?_of_le] using hq
    rw [hr, ← turn?_eq_some hr]
    exact ⟨hp, rfl⟩
  · rintro ⟨hp, hturn⟩
    exact ⟨_, ⟨hp, rfl⟩, _, ⟨by omega, rfl⟩, p, by simp [minus?_of_le], _, hturn, rfl⟩

variable {c d : Cursor}

lemma step?_of_more {n p : Nat} {ws : List Wheel} :
    step? ⟨ws, p, n + 2⟩ = (turn? ws p).map fun r => some (p, ⟨r.1, r.2, n + 1⟩) := by
  rw [step?, if_neg (Nat.succ_ne_zero _), minus?_of_le (by simp)]
  cases turn? ws p <;> rfl

lemma step?_eq_some {r : Option (Nat × Cursor)} (h : c.step? = some r) : r = c.next? := by
  obtain ⟨ws, p, n⟩ := c
  match n with
  | 0 => exact (Option.some.inj h).symm
  | 1 => exact (Option.some.inj h).symm
  | n + 2 =>
    rw [step?_of_more, Option.map_eq_some_iff] at h
    obtain ⟨r, hr, rfl⟩ := h
    rw [next?_of_more, ← turn?_eq_some hr]

def after? : Nat → Cursor → Option Cursor
  | 0, c => some c
  | k + 1, c => do
    match ← c.step? with
    | none => return c
    | some (_, d) => after? k d

lemma after?_eq_some {k : Nat} (h : after? k c = some d) : d = after k c := by
  induction k generalizing c with
  | zero => exact (Option.some.inj h).symm
  | succ k ih =>
    obtain ⟨r, hr, h⟩ := Option.bind_eq_some_iff.mp h
    obtain rfl := step?_eq_some hr
    rw [after]
    cases hnext : c.next? with
    | none =>
      rw [hnext] at h
      exact (Option.some.inj h).symm
    | some x =>
      rw [hnext] at h
      exact ih h

lemma exists_step? {k : Nat} (h : (after? (k + 1) c).isSome) :
    ∃ d r, after? k c = some d ∧ d.step? = some r := by
  induction k generalizing c with
  | zero =>
    obtain ⟨d, hd⟩ := Option.isSome_iff_exists.mp h
    obtain ⟨r, hr, -⟩ := Option.bind_eq_some_iff.mp hd
    exact ⟨c, r, rfl, hr⟩
  | succ k ih =>
    obtain ⟨d, hd⟩ := Option.isSome_iff_exists.mp h
    obtain ⟨r, hr, hd⟩ := Option.bind_eq_some_iff.mp hd
    rw [after?, hr]
    cases r with
    | none => exact ⟨c, none, rfl, hr⟩
    | some x => exact ih (Option.isSome_iff_exists.mpr ⟨d, hd⟩)

/-- A walk over `n` elements in which no turn breaks off. After the last one there is no turn. -/
def Runs : Nat → List Wheel → Nat → Prop
  | 0, _, _ => True
  | 1, _, _ => True
  | n + 2, ws, p => turn? ws p = some (turn ws p) ∧ Runs (n + 1) (turn ws p).1 (turn ws p).2

lemma runs_iff (n : Nat) (ws : List Wheel) (p : Nat) :
    Runs n ws p ↔ ∀ k, (after? k ⟨ws, p, n⟩).isSome := by
  -- nothing is formed any more once all elements have been visited
  have hdone : ∀ k ws p, (after? k ⟨ws, p, 0⟩).isSome := by
    intro k ws p
    cases k <;> rfl
  -- on the elements to come; with a single one left there is no turn to break off
  induction n generalizing ws p with
  | zero => exact ⟨fun _ k => hdone k ws p, fun _ => trivial⟩
  | succ n ih =>
    cases n with
    | zero =>
      refine ⟨fun _ k => ?_, fun _ => trivial⟩
      cases k with
      | zero => rfl
      | succ k => exact hdone k ws p
    | succ n =>
      rw [Runs]
      constructor
      · rintro ⟨hturn, hrest⟩ k
        cases k with
        | zero => rfl
        | succ k =>
          rw [after?, step?_of_more, hturn]
          exact (ih _ _).mp hrest k
      · intro h
        obtain ⟨d, r, hd, hr⟩ := exists_step? (h 1)
        obtain rfl := Option.some.inj hd
        rw [step?_of_more, Option.map_eq_some_iff] at hr
        obtain ⟨x, hx, -⟩ := hr
        obtain rfl := turn?_eq_some hx
        refine ⟨hx, (ih _ _).mpr fun k => ?_⟩
        have hk := h (k + 1)
        rwa [after?, step?_of_more, hx] at hk

lemma walk?_eq (n : Nat) (h : ∀ k, (after? k c).isSome) : walk? n c = some (take n c) := by
  induction n generalizing c with
  | zero => rfl
  | succ n ih =>
    obtain ⟨d, r, hd, hr⟩ := exists_step? (h 1)
    obtain rfl := Option.some.inj hd
    obtain rfl := step?_eq_some hr
    rw [walk?, take, hr]
    cases hnext : c.next? with
    | none => rfl
    | some x =>
      have hrest : ∀ k, (after? k x.2).isSome := fun k => by
        have hk := h (k + 1)
        rwa [after?, hr, hnext] at hk
      simp [ih hrest]

/-! ### Rows -/

lemma runs_row (a : Axis) (ha : a.size < wordLimit) (ws : List Wheel) (p n k i : Nat) (hk : 0 < k)
    (hi : i + k = a.size) :
    Runs (k + n) (⟨a, i⟩ :: ws) (p + i * a.stride) ↔
      (∀ j, i < j → j < a.size → p + j * a.stride < wordLimit) ∧
        (0 < n → (p + a.size * a.stride < wordLimit ∧ turn? ws p = some (turn ws p)) ∧
          Runs n (⟨a, 0⟩ :: (turn ws p).1) (turn ws p).2) := by
  induction k generalizing i with
  | zero => omega
  | succ k ih =>
    rcases Nat.eq_zero_or_pos k with rfl | hk
    · -- only the last element of a row hands the step to the other wheels
      have hend : i + 1 = a.size := by omega
      have hnone : ∀ j, i < j → j < a.size → p + j * a.stride < wordLimit := by omega
      cases n with
      | zero => exact ⟨fun _ => ⟨hnone, nofun⟩, fun _ => trivial⟩
      | succ n =>
        rw [show 0 + 1 + (n + 1) = n + 2 by omega, Runs, turn?_back ha hend, turn_back hend]
        exact ⟨fun h => ⟨hnone, fun _ => h⟩, fun h => h.2 (Nat.succ_pos n)⟩
    · have hnext : i + 1 < a.size := by omega
      obtain ⟨m, hm⟩ := Nat.exists_eq_succ_of_ne_zero (Nat.ne_of_gt hk)
      have hstep := ih (i + 1) hk (by omega)
      rw [show k + 1 + n = (m + n) + 2 by omega, Runs, turn?_forward ha hnext, turn_forward hnext,
        show m + n + 1 = k + n by omega, hstep, Nat.add_assoc, ← Nat.succ_mul]
      constructor
      · rintro ⟨hfirst, hrow, hrest⟩
        refine ⟨fun j hj hlt => ?_, hrest⟩
        rcases Nat.lt_or_ge (i + 1) j with hlater | hle
        · exact hrow j hlater hlt
        · obtain rfl : j = i + 1 := by omega
          exact hfirst
      · rintro ⟨hrow, hrest⟩
        exact ⟨hrow (i + 1) (by omega) hnext, fun j hj hlt => hrow j (by omega) hlt, hrest⟩

/-- Whole rows, one from each position that the other wheels visit. All of them but the last have
another one behind them. -/
lemma runs_rows (a : Axis) (ha : a.size < wordLimit) (hpos : 0 < a.size) (m : Nat) (ws : List Wheel)
    (p : Nat) :
    Runs (m * a.size) (⟨a, 0⟩ :: ws) p ↔
      Runs m ws p ∧ (∀ q ∈ visit m ws p, ∀ j, 0 < j → j < a.size → q + j * a.stride < wordLimit) ∧
        ∀ q ∈ (visit m ws p).dropLast, q + a.size * a.stride < wordLimit := by
  -- row by row; what one row does is known, and the others start where the outer wheels turn to
  induction m generalizing ws p with
  | zero => simp [visit, Runs]
  | succ m ih =>
    have hrow := runs_row a ha ws p (m * a.size) a.size 0 hpos (by omega)
    rw [Nat.zero_mul, Nat.add_zero] at hrow
    rw [Nat.succ_mul, Nat.add_comm, hrow, ih]
    cases m with
    | zero => simp [visit, Runs]
    | succ m =>
      have hmore : 0 < (m + 1) * a.size := Nat.mul_pos (Nat.succ_pos m) hpos
      simp only [hmore, true_imp_iff, visit, Runs, List.forall_mem_cons, List.dropLast_cons_cons]
      tauto

end Cursor

namespace Layout

/-- The axes outside axis `n`. The elements of this layout are where the rows along axis `n`
start. -/
def outside (l : Layout) (n : Nat) : Layout := ⟨l.axes.take n, l.offset⟩

/-- No position behind a row along an axis is too large for a machine word, if there is another row
behind it. -/
def FitsBehind (l : Layout) : Prop :=
  ∀ n (h : n < l.axes.length), ∀ ix ∈ (l.outside n).shape.indices.dropLast,
    (l.outside n).offsetAt ix + l.axes[n].size * l.axes[n].stride < wordLimit

lemma fitsBehind_append_singleton (axes : List Axis) (a : Axis) (p : Nat) :
    FitsBehind ⟨axes ++ [a], p⟩ ↔ FitsBehind ⟨axes, p⟩ ∧
      ∀ ix ∈ (Shape.indices (axes.map Axis.size)).dropLast,
        p + travel axes ix + a.size * a.stride < wordLimit := by
  -- an axis that comes innermost leaves what is outside the other ones as it is
  have houtside : ∀ n ≤ axes.length,
      outside ⟨axes ++ [a], p⟩ n = outside ⟨axes, p⟩ n := fun n hn => by
    rw [outside, outside, List.take_append_of_le_length hn]
  have hall : outside ⟨axes, p⟩ axes.length = ⟨axes, p⟩ := by rw [outside, List.take_length]
  constructor
  · intro h
    refine ⟨fun n hn ix hix => ?_, fun ix hix => ?_⟩
    · have hlt : n < (axes ++ [a]).length := by
        rw [List.length_append]
        exact Nat.lt_add_right 1 hn
      have hrow := h n hlt
      simp only [houtside n (Nat.le_of_lt hn), List.getElem_append_left hn] at hrow
      exact hrow ix hix
    · have hrow := h axes.length (by simp)
      simp only [houtside _ (Nat.le_refl _), hall, List.getElem_concat_length] at hrow
      exact hrow ix hix
  · rintro ⟨h, hlast⟩ n hn ix hix
    rcases Nat.lt_or_ge n axes.length with hlt | hge
    · simp only [houtside n (Nat.le_of_lt hlt), List.getElem_append_left hlt] at hix ⊢
      exact h n hlt ix hix
    · obtain rfl : n = axes.length := by
        rw [List.length_append, List.length_singleton] at hn
        omega
      simp only [houtside _ (Nat.le_refl _), hall, List.getElem_concat_length] at hix ⊢
      exact hlast ix hix

lemma forall_elements (axes : List Axis) (a : Axis) (p bound : Nat) :
    (∀ ix ∈ Shape.indices (axes.map Axis.size ++ [a.size]),
        p + travel (axes ++ [a]) ix < bound) ↔
      ∀ ix ∈ Shape.indices (axes.map Axis.size), ∀ j < a.size,
        p + travel axes ix + j * a.stride < bound := by
  have htravel : ∀ ix ∈ Shape.indices (axes.map Axis.size), ∀ j,
      p + travel (axes ++ [a]) (ix ++ [j]) = p + travel axes ix + j * a.stride := by
    intro ix hix j
    have hlength : axes.length = ix.length := by simpa using (Shape.length_of_mem_indices hix).symm
    rw [travel_append_singleton hlength, Nat.add_assoc]
  rw [Shape.indices_append_singleton]
  constructor
  · intro h ix hix j hj
    rw [← htravel ix hix]
    exact h _ (List.mem_flatMap.mpr ⟨ix, hix, List.mem_map_of_mem (List.mem_range.mpr hj)⟩)
  · intro h jx hjx
    obtain ⟨ix, hix, hjx⟩ := List.mem_flatMap.mp hjx
    obtain ⟨j, hj, rfl⟩ := List.mem_map.mp hjx
    rw [htravel ix hix]
    exact h ix hix j (List.mem_range.mp hj)

lemma runs_axes (axes : List Axis) (p : Nat) (hp : p < wordLimit)
    (hnumel : 0 < Shape.numel (axes.map Axis.size)) (hsize : ∀ a ∈ axes, a.size < wordLimit) :
    Cursor.Runs (Shape.numel (axes.map Axis.size)) (axes.map fun a => ⟨a, 0⟩).reverse p ↔
      (∀ ix ∈ Shape.indices (axes.map Axis.size), p + travel axes ix < wordLimit) ∧
        FitsBehind ⟨axes, p⟩ := by
  -- from the outermost axis inwards, like the rows: each step puts rows into the elements so far
  induction axes using List.reverseRecOn with
  | nil => simpa [Cursor.Runs, FitsBehind] using hp
  | append_singleton axes a ih =>
    simp only [List.map_append, List.map_cons, List.map_nil, Shape.numel_append,
      Shape.numel_cons, Shape.numel_nil, Nat.mul_one] at hnumel ⊢
    have hpos : 0 < a.size := Nat.pos_of_mul_pos_left hnumel
    have hrows : 0 < Shape.numel (axes.map Axis.size) := Nat.pos_of_mul_pos_right hnumel
    have hcols : ∀ b ∈ axes, b.size < wordLimit := fun b hb => hsize b (List.mem_append_left _ hb)
    rw [List.reverse_append, List.reverse_singleton, List.singleton_append,
      Cursor.runs_rows a (hsize a (by simp)) hpos, ih hrows hcols, Cursor.visit_axes axes p hrows,
      fitsBehind_append_singleton, forall_elements, ← List.map_dropLast, List.forall_mem_map,
      List.forall_mem_map]
    constructor
    · rintro ⟨⟨hstarts, hbehind⟩, hrow, hlast⟩
      refine ⟨fun ix hix j hj => ?_, hbehind, hlast⟩
      rcases Nat.eq_zero_or_pos j with rfl | hj0
      · rw [Nat.zero_mul, Nat.add_zero]
        exact hstarts ix hix
      · exact hrow ix hix j hj0 hj
    · rintro ⟨helements, hbehind, hlast⟩
      have hstarts : ∀ ix ∈ Shape.indices (axes.map Axis.size), p + travel axes ix < wordLimit :=
        fun ix hix => by simpa using helements ix hix 0 hpos
      exact ⟨⟨hstarts, hbehind⟩, fun ix hix j _ hj => helements ix hix j hj, hlast⟩

/-- Machine words hold every number that a walk through the layout forms. -/
structure Fits (l : Layout) : Prop where
  offset : l.offset < wordLimit
  count : ∀ n, (l.outside n).numel < wordLimit
  element : ∀ ix ∈ l.shape.indices, l.offsetAt ix < wordLimit
  behind : 0 < l.numel → l.FitsBehind

def after? (l : Layout) (k : Nat) : Option Cursor := l.cursor?.bind (Cursor.after? k)

lemma outside_numel (l : Layout) (n : Nat) :
    (l.outside n).numel = Shape.numel (l.shape.take n) := by
  rw [outside, numel, shape, shape, List.map_take]

lemma cursor?_eq_some {l : Layout} {c : Cursor} :
    l.cursor? = some c ↔
      (l.offset < wordLimit ∧ ∀ n, (l.outside n).numel < wordLimit) ∧ c = l.cursor := by
  simp only [cursor?, Option.bind_eq_bind, Option.bind_eq_some_iff, word?_eq_some,
    Shape.count?_eq_some, outside_numel]
  constructor
  · rintro ⟨_, ⟨hoffset, rfl⟩, _, ⟨hcount, rfl⟩, h⟩
    exact ⟨⟨hoffset, hcount⟩, (Option.some.inj h).symm⟩
  · rintro ⟨⟨hoffset, hcount⟩, rfl⟩
    exact ⟨_, ⟨hoffset, rfl⟩, _, ⟨hcount, rfl⟩, rfl⟩

lemma runs_iff_of_pos {l : Layout} (hoffset : l.offset < wordLimit)
    (hcount : ∀ n, (l.outside n).numel < wordLimit) (hpos : 0 < l.numel) :
    Cursor.Runs l.numel l.cursor.wheels l.offset ↔
      (∀ ix ∈ l.shape.indices, l.offsetAt ix < wordLimit) ∧ l.FitsBehind := by
  have hnumel : l.numel < wordLimit := by
    have hall := hcount l.axes.length
    rwa [outside, List.take_length] at hall
  have hsize : ∀ a ∈ l.axes, a.size < wordLimit := fun a ha =>
    Nat.lt_of_le_of_lt (Shape.le_numel_of_mem hpos (List.mem_map_of_mem ha)) hnumel
  exact runs_axes l.axes l.offset hoffset hpos hsize

lemma cursor?_of_fits {l : Layout} (h : l.Fits) : l.cursor? = some l.cursor :=
  cursor?_eq_some.mpr ⟨⟨h.offset, h.count⟩, rfl⟩

lemma steps_of_fits {l : Layout} (h : l.Fits) : ∀ k, (Cursor.after? k l.cursor).isSome := by
  refine (Cursor.runs_iff l.numel l.cursor.wheels l.offset).mp ?_
  rcases Nat.eq_zero_or_pos l.numel with h0 | hpos
  · rw [h0]
    trivial
  · exact (runs_iff_of_pos h.offset h.count hpos).mpr ⟨h.element, h.behind hpos⟩

/-- A walk is broken off exactly where a number it forms is too large. -/
lemma fits_iff (l : Layout) : (∀ k, (l.after? k).isSome) ↔ l.Fits := by
  constructor
  · intro h
    -- the walk has started, so the numbers that it starts with are held
    obtain ⟨c, hc⟩ : ∃ c, l.cursor? = some c := by
      obtain ⟨c, hc⟩ := Option.isSome_iff_exists.mp (h 0)
      obtain ⟨c, hc, -⟩ := Option.bind_eq_some_iff.mp hc
      exact ⟨c, hc⟩
    obtain ⟨⟨hoffset, hcount⟩, rfl⟩ := cursor?_eq_some.mp hc
    have hsteps : ∀ k, (Cursor.after? k l.cursor).isSome := fun k => by
      have hk := h k
      rwa [after?, hc] at hk
    have hwalk := (Cursor.runs_iff l.numel l.cursor.wheels l.offset).mpr hsteps
    refine ⟨hoffset, hcount, fun ix hix => ?_, fun hpos => ?_⟩
    · have hpos : 0 < l.numel := Shape.numel_pos_of_mem_indices hix
      exact ((runs_iff_of_pos hoffset hcount hpos).mp hwalk).1 ix hix
    · exact ((runs_iff_of_pos hoffset hcount hpos).mp hwalk).2
  · intro h k
    rw [after?, cursor?_of_fits h]
    exact steps_of_fits h k

/-! ### The cursor of a layout -/

lemma next?_after (l : Layout) (k : Nat) :
    (l.cursor.after k).next?.map Prod.fst = l.shape.indices[k]?.map l.offsetAt := by
  rcases Nat.lt_or_ge k l.numel with hk | hk
  · rw [← Cursor.getElem?_take hk, ← List.getElem?_map, ← offsets_eq]
    rfl
  · have hnone : l.shape.indices[k]? = none := by
      rw [List.getElem?_eq_none_iff, Shape.length_indices]
      exact hk
    have hstop : (l.cursor.after k).next? = none := by
      rw [Cursor.next?_eq_none, Cursor.remaining_after]
      exact Nat.sub_eq_zero_of_le hk
    rw [hnone, hstop]
    rfl

/-- What a cursor on machine words does from the first element of a layout on. -/
structure CursorWalks (l : Layout) : Prop where
  /-- The `k`-th index has its coordinates on the axes, and the place `k` in row-major order. -/
  order : ∀ k ix, l.shape.indices[k]? = some ix ↔
    List.Forall₂ (fun d i => i < d) l.shape ix ∧ l.shape.position ix = k
  /-- No step is broken off, by a number that is too large or below zero, if and only if the layout
  fits. -/
  unbroken : (∀ k, (l.after? k).isSome) ↔ l.Fits
  /-- After `k` steps comes the position of the `k`-th index, if there is one, and it is known how
  many are still to come. -/
  item : l.Fits → ∀ k, ∃ c r, l.after? k = some c ∧ c.step? = some r ∧
    r.map Prod.fst = l.shape.indices[k]?.map l.offsetAt ∧ (r.isSome ↔ k < l.shape.numel) ∧
    c.sizeHint = (l.shape.numel - k, some (l.shape.numel - k))
  offsets : l.Fits → l.offsets? l.numel = some l.offsets

/-- **Walks through layouts**: whatever the strides, the offset and the sizes, a cursor gives out the
position of each index once, in row-major order, and then none, unless it has to form a number that
no machine word holds. -/
theorem cursor_walks (l : Layout) : CursorWalks l where
  order _ _ := Shape.getElem?_indices
  unbroken := l.fits_iff
  item hfits k := by
    -- the step after these is not broken off either, so it has its outcome
    obtain ⟨c, r, hc, hr⟩ := Cursor.exists_step? (steps_of_fits hfits (k + 1))
    obtain rfl := Cursor.after?_eq_some hc
    obtain rfl := Cursor.step?_eq_some hr
    have hremaining : (l.cursor.after k).remaining = l.shape.numel - k :=
      Cursor.remaining_after k l.cursor
    refine ⟨_, _, by rw [after?, cursor?_of_fits hfits]; exact hc, hr, l.next?_after k, ?_, ?_⟩
    · rw [Option.isSome_iff_ne_none, Ne, Cursor.next?_eq_none, hremaining]
      omega
    · rw [Cursor.sizeHint, hremaining]
  offsets hfits := by
    rw [offsets?, cursor?_of_fits hfits]
    exact Cursor.walk?_eq l.numel (steps_of_fits hfits)

/-- Three elements at the positions 0, 1 and 2. The second step adds to the position 1 the stride of
an axis of one element, only to take it off again. -/
theorem walk_breaks_off :
    (contiguous [0, 1, 6148914691236517205, 3]).views [.split 2, .split 0, .transposed] =
        .ok ⟨[⟨3, 1⟩, ⟨1, wordLimit - 1⟩], 0⟩ ∧
      (Layout.mk [⟨3, 1⟩, ⟨1, wordLimit - 1⟩] 0).offsets = [0, 1, 2] ∧
      ((Layout.mk [⟨3, 1⟩, ⟨1, wordLimit - 1⟩] 0).after? 1).isSome ∧
      (Layout.mk [⟨3, 1⟩, ⟨1, wordLimit - 1⟩] 0).after? 2 = none :=
  ⟨rfl, rfl, rfl, rfl⟩

/-- The columns of a matrix without gaps, each element given out twice. -/
example : (Layout.mk [⟨2, 1⟩, ⟨2, 2⟩, ⟨2, 0⟩] 5).offsets? 8 = some [5, 5, 7, 7, 6, 6, 8, 8] := rfl

end Layout

end ArrayBench
