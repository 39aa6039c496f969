import ArrayBench.Proofs.Bench.Catalog
import ArrayBench.Proofs.Shape.Order

/-!
Families of geometries and the operations that they fit.

A case can be measured if its operation is of the catalog and its shapes fit. An operation on
elements fits every geometry whose operands all have the shape of the output. The families that
broadcast fit operations on two arrays, since one of their operands or both can be read as the
output. None of this depends on the sizes.
-/

namespace ArrayBench

/-- A case that can be measured: it is of the catalog, has its operands and is accepted. -/
structure Measurable (op : Operation) (d : DType) (g : Geometry) : Prop where
  mem : op ∈ Operation.catalog
  arity : g.operands.length = op.arity
  accepts : op.Accepts d g

namespace Operation

/-! ### Looking operations up -/

lemma mem_select {op : Operation} {category : Category} {inPlace : Bool} :
    op ∈ select category inPlace ↔
      op ∈ catalog ∧ op.category = category ∧ op.inPlace = inPlace := by
  simp [select]

lemma find_of_mem {op : Operation} (h : op ∈ catalog) :
    find op.category op.inPlace op.name = .ok op := by
  have hfirst : ∀ op ∈ catalog,
      (select op.category op.inPlace).find? (fun other => other.name = op.name) = some op := by
    decide
  rw [find, hfirst op h]

/-! ### Operations on elements -/

/-- Each element of the result comes from one element of every operand. -/
def Elementwise (op : Operation) : Prop :=
  (∃ b, op.kernel = .binary b) ∨ (∃ b, op.kernel = .scalar b) ∨ ∃ u, op.kernel = .unary u

lemma elementwise_of_category {op : Operation} (h : op ∈ catalog) (hr : op.category ≠ .reduction)
    (hm : op.category ≠ .matmul) : op.Elementwise := by
  rcases catalog_cases h with ⟨b, rfl⟩ | ⟨b, inPlace, rfl⟩ | ⟨u, inPlace, rfl⟩ | ⟨inPlace, rfl⟩ |
    rfl | ⟨k, rfl⟩ | rfl
  · exact .inl ⟨b, rfl⟩
  · exact .inr (.inl ⟨b, rfl⟩)
  · exact .inr (.inr ⟨u, rfl⟩)
  · exact .inl ⟨.pow, rfl⟩
  · exact absurd rfl hr
  · exact absurd rfl hr
  · exact absurd rfl hm

lemma binary_of_select {op : Operation} (h : op ∈ select .binary false) : ∃ b, op = binary b := by
  obtain ⟨hop, hcategory, -⟩ := mem_select.mp h
  rcases catalog_cases hop with ⟨b, rfl⟩ | ⟨b, inPlace, rfl⟩ | ⟨u, inPlace, rfl⟩ | ⟨inPlace, rfl⟩ |
    rfl | ⟨k, rfl⟩ | rfl
  · exact ⟨b, rfl⟩
  all_goals cases hcategory

variable {op : Operation} {g : Geometry} {d : DType}

lemma accepts_binary {b : BinaryOp} (hk : op.kernel = .binary b) {x y : Operand}
    (hg : g.operands = [x, y]) (hs : Shape.broadcast x.logical y.logical = .ok g.output)
    (hinPlace : op.inPlace = true → g.output = x.logical) : op.Accepts d g := by
  simp only [Accepts, hk, hg, List.map_cons, List.map_nil]
  split_ifs with h
  · rw [hs, hinPlace h]
  · exact ⟨_, hs, .inr rfl⟩

lemma accepts_replicate (he : op.Elementwise) {o : Operand}
    (hg : g.operands = List.replicate op.arity o) (ho : g.output = o.logical) :
    op.Accepts d g := by
  rcases he with ⟨b, hk⟩ | ⟨b, hk⟩ | ⟨u, hk⟩
  · have harity : op.arity = 2 := by rw [arity, hk]; rfl
    rw [harity] at hg
    exact accepts_binary hk hg (by rw [ho, Shape.broadcast_self]) fun _ => ho
  · have harity : op.arity = 1 := by rw [arity, hk]; rfl
    rw [harity] at hg
    simp [Accepts, hk, hg, ho]
  · have harity : op.arity = 1 := by rw [arity, hk]; rfl
    rw [harity] at hg
    simp [Accepts, hk, hg, ho]

end Operation

open Operation (Elementwise accepts_binary accepts_replicate)

lemma measurable_replicate {op : Operation} (hop : op ∈ Operation.catalog) (he : op.Elementwise)
    {g : Geometry} {o : Operand} (hg : g.operands = List.replicate op.arity o)
    (ho : g.output = o.logical) (d : DType) : Measurable op d g :=
  ⟨hop, by rw [hg, List.length_replicate], accepts_replicate he hg ho⟩

/-! ### Operands that broadcast -/

section Broadcast

variable {b : BinaryOp} (hop : Operation.binary b ∈ Operation.catalog) (d : DType) (m n : Nat)

include hop

lemma measurable_broadcastRow : Measurable (.binary b) d (.broadcastRow m n) := by
  have hbelow : Shape.Below [1, n] [m, n] :=
    ⟨[], [m, n], rfl, .cons (.inr rfl) (.cons (.inl rfl) .nil)⟩
  exact ⟨hop, rfl, accepts_binary rfl rfl (Shape.broadcast_of_below hbelow) nofun⟩

lemma measurable_broadcastOuter : Measurable (.binary b) d (.broadcastOuter m n) := by
  have hbroadcast : Shape.broadcast [m, 1] [1, n] = .ok [m, n] := by
    have hrow : Shape.joinSize 1 n = some n := by
      by_cases hn : n = 1
      · rw [hn]
        rfl
      · rw [Shape.joinSize, if_neg (by omega), if_pos rfl]
    have hcolumn : Shape.joinSize m 1 = some m := by simp [Shape.joinSize]
    have houter : Shape.joinReversed [m] [1] = some [m] :=
      Shape.joinReversed_cons_eq_some.mpr ⟨m, [], hcolumn, rfl, rfl⟩
    exact Shape.broadcast_eq_ok.mpr
      (Shape.joinReversed_cons_eq_some.mpr ⟨n, [m], hrow, houter, rfl⟩)
  exact ⟨hop, rfl, accepts_binary rfl rfl hbroadcast nofun⟩

lemma measurable_broadcastRank : Measurable (.binary b) d (.broadcastRank m n) := by
  have hbelow : Shape.Below [n] [m, n] := ⟨[m], [n], rfl, .cons (.inl rfl) .nil⟩
  exact ⟨hop, rfl, accepts_binary rfl rfl (Shape.broadcast_of_below hbelow) nofun⟩

end Broadcast

/-! ### Sums and matrix products -/

lemma measurable_sum {g : Geometry} (hg : g.operands.length = 1) (d : DType) :
    Measurable .sum d g := by
  obtain ⟨x, hx⟩ := List.length_eq_one_iff.mp hg
  refine ⟨by decide, hg, ?_⟩
  rw [Operation.Accepts, hx]
  trivial

lemma measurable_sumAxis {k : Nat} (hop : Operation.sumAxis k ∈ Operation.catalog) {g : Geometry}
    {x : Operand} (hg : g.operands = [x]) (hk : k < x.logical.length) (d : DType) :
    Measurable (.sumAxis k) d g := by
  refine ⟨hop, by rw [hg]; rfl, ?_⟩
  rw [Operation.Accepts, hg]
  exact hk

lemma measurable_matmul {g : Geometry} {m k n : Nat}
    (hg : g.operands = [Geometry.plain [m, k], Geometry.plain [k, n]]) (ho : g.output = [m, n])
    (d : DType) : Measurable .matmul d g := by
  refine ⟨by decide, by rw [hg]; rfl, m, k, n, ?_, ho⟩
  exact (Geometry.matmulSizes_eq_some hg).mpr ⟨rfl, rfl⟩

end ArrayBench
