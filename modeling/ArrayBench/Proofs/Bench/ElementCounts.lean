import ArrayBench.Bench.Geometry
import ArrayBench.Proofs.Layout.Bounds
import ArrayBench.Proofs.Shape.Order

/-!
Numbers of elements.

A geometry counts the elements of its largest operand or of its output, whichever are more, without
a look at the operation. Where no axis is empty this is the number that the operation goes through:
broadcasting only adds elements, so the result has the most, and a sum or an operation on one array
goes through its operand, of which the result keeps some axes.
-/

namespace ArrayBench

namespace Shape

lemma numel_pos {s : Shape} (h : ∀ d ∈ s, 0 < d) : 0 < s.numel := by
  induction s with
  | nil => exact Nat.one_pos
  | cons d s ih =>
    rw [List.forall_mem_cons] at h
    exact Nat.mul_pos h.1 (ih h.2)

/-- An axis that grows does not lose elements, unless it grows from one element to none. -/
lemma numel_le_of_grows {s t : Shape} (h : List.Forall₂ Grows s t) (ht : ∀ d ∈ t, 0 < d) :
    s.numel ≤ t.numel := by
  induction h with
  | nil => exact Nat.le_refl _
  | @cons d e s t hde _ ih =>
    rw [List.forall_mem_cons] at ht
    have hle : d ≤ e := by
      have hpos := ht.1
      unfold Grows at hde
      omega
    exact Nat.mul_le_mul hle (ih ht.2)

lemma numel_le_of_below {s t : Shape} (h : Below s t) (ht : ∀ d ∈ t, 0 < d) :
    s.numel ≤ t.numel := by
  obtain ⟨added, inner, rfl, hgrow⟩ := h
  rw [List.forall_mem_append] at ht
  calc s.numel ≤ numel inner := numel_le_of_grows hgrow ht.2
    _ ≤ numel added * numel inner := Nat.le_mul_of_pos_left _ (numel_pos ht.1)
    _ = numel (added ++ inner) := (numel_append added inner).symm

/-- The sizes of a result are sizes of its operands. -/
lemma mem_of_joinReversed {s t r : Shape} (h : joinReversed s t = some r) {d : Nat} (hd : d ∈ r) :
    d ∈ s ∨ d ∈ t := by
  induction s generalizing t r with
  | nil =>
    obtain rfl : t = r := Option.some.inj h
    exact Or.inr hd
  | cons x s ih =>
    cases t with
    | nil =>
      obtain rfl : x :: s = r := Option.some.inj h
      exact Or.inl hd
    | cons y t =>
      obtain ⟨z, u, hz, hu, rfl⟩ := joinReversed_cons_eq_some.mp h
      rcases List.mem_cons.mp hd with rfl | hd
      -- whichever of two axes is stretched, the joined size is one of theirs
      · unfold joinSize at hz
        split_ifs at hz
        · obtain rfl := Option.some.inj hz
          exact Or.inl List.mem_cons_self
        · obtain rfl := Option.some.inj hz
          exact Or.inr List.mem_cons_self
      · exact (ih hu hd).imp (List.mem_cons_of_mem x) (List.mem_cons_of_mem y)

lemma mem_of_broadcast {a b t : Shape} (h : broadcast a b = .ok t) {d : Nat} (hd : d ∈ t) :
    d ∈ a ∨ d ∈ b := by
  have hjoin := mem_of_joinReversed (broadcast_eq_ok.mp h) (List.mem_reverse.mpr hd)
  rwa [List.mem_reverse, List.mem_reverse] at hjoin

lemma numel_eraseIdx {s : Shape} {k n : Nat} (h : s[k]? = some n) :
    s.numel = n * numel (s.eraseIdx k) := by
  induction s generalizing k with
  | nil => simp at h
  | cons d s ih =>
    cases k with
    | zero =>
      obtain rfl : d = n := by simpa using h
      rfl
    | succ k =>
      have hs : s[k]? = some n := by simpa using h
      rw [List.eraseIdx_cons_succ, numel_cons, numel_cons, ih hs, Nat.mul_left_comm]

lemma numel_withoutAxis_le {s t : Shape} {axis : Nat} (h : s.withoutAxis axis = .ok t)
    (hs : ∀ d ∈ s, 0 < d) : t.numel ≤ s.numel := by
  unfold withoutAxis at h
  split_ifs at h with haxis
  obtain rfl := Except.ok.inj h
  have hget := List.getElem?_eq_getElem haxis
  rw [numel_eraseIdx hget]
  exact Nat.le_mul_of_pos_left _ (hs _ (List.mem_of_getElem? hget))

end Shape

namespace Operand

lemma numel_logical (o : Operand) : Shape.numel o.logical = o.numel := by
  rw [logical, numel]
  split_ifs
  · exact Layout.numel_reverse o.dims
  · rfl

lemma mem_logical {o : Operand} {d : Nat} : d ∈ o.logical ↔ d ∈ o.dims := by
  unfold logical
  split_ifs
  · exact List.mem_reverse
  · rfl

end Operand

namespace Geometry

/-- The elements that a geometry counts are those that its operation goes through. -/
structure CountsElements (g : Geometry) : Prop where
  /-- Two operands that broadcast to the output: an element of the output each. -/
  broadcast : ∀ a b, g.operands = [a, b] →
    Shape.broadcast a.logical b.logical = .ok g.output → g.elementCount = g.output.numel
  /-- One operand that is mapped, summed along one axis or summed: an element of it each. -/
  single : ∀ a, g.operands = [a] →
    (g.output = a.logical ∨ (∃ axis, a.logical.withoutAxis axis = .ok g.output) ∨ g.output = []) →
    g.elementCount = a.numel

/-- **Geometries count the elements that are processed**, as long as no axis is empty. -/
theorem counts_elements (g : Geometry) (h : ∀ o ∈ g.operands, ∀ d ∈ o.dims, 1 ≤ d) :
    g.CountsElements where
  broadcast a b hg hout := by
    have hpos : ∀ d ∈ g.output, 0 < d := by
      intro d hd
      rcases Shape.mem_of_broadcast hout hd with hd | hd
      · exact h a (by simp [hg]) d (Operand.mem_logical.mp hd)
      · exact h b (by simp [hg]) d (Operand.mem_logical.mp hd)
    obtain ⟨hbelow, hbelow'⟩ := Shape.broadcast_below hout
    -- no axis of the output is empty, so the operands can only have grown
    have ha : a.numel ≤ g.output.numel := by
      rw [← a.numel_logical]
      exact Shape.numel_le_of_below hbelow hpos
    have hb : b.numel ≤ g.output.numel := by
      rw [← b.numel_logical]
      exact Shape.numel_le_of_below hbelow' hpos
    simp only [elementCount, hg, List.map_cons, List.map_nil, List.foldr_cons, List.foldr_nil]
    rw [Nat.max_eq_right hb, Nat.max_eq_right ha]
  single a hg hout := by
    have hpos : ∀ d ∈ a.logical, 0 < d := fun d hd =>
      h a (by simp [hg]) d (Operand.mem_logical.mp hd)
    have hle : g.output.numel ≤ a.numel := by
      rw [← a.numel_logical]
      rcases hout with hout | ⟨axis, hout⟩ | hout
      · exact Nat.le_of_eq (congrArg Shape.numel hout)
      · exact Shape.numel_withoutAxis_le hout hpos
      · rw [hout]
        exact Shape.numel_pos hpos
    simp only [elementCount, hg, List.map_cons, List.map_nil, List.foldr_cons, List.foldr_nil]
    exact Nat.max_eq_left hle

/-- A transposed matrix and a column. -/
theorem counts_elements_column :
    (∀ o ∈ [⟨[3, 2], true⟩, plain [2, 1]], ∀ d ∈ o.dims, 1 ≤ d) ∧
      Shape.broadcast [2, 3] [2, 1] = .ok [2, 3] ∧
      (make .broadcastRow [⟨[3, 2], true⟩, plain [2, 1]] [2, 3]).elementCount =
        Shape.numel [2, 3] :=
  ⟨by decide, rfl,
    (counts_elements (make .broadcastRow [⟨[3, 2], true⟩, plain [2, 1]] [2, 3])
      (by decide)).broadcast _ _ rfl rfl⟩

/-- Without elements in the result a row still counts: an axis of one element has grown to none. -/
example : Shape.broadcast [0, 1] [1, 3] = .ok [0, 3] ∧ Shape.numel [0, 3] = 0 ∧
    (broadcastOuter 0 3).elementCount = 3 := by decide

end Geometry

end ArrayBench
