import ArrayBench.Proofs.Layout.Views

/-!
Broadcasting as a least upper bound.

Two rules say which shapes go together. One finds strides that read an array of a shape as one of
another shape, the other matches two shapes and gives the shape of their common result. They speak
of one order: a shape is below those that it can be read as, and the common result is the least
shape that both operands can be read as. What is known of least upper bounds then holds of
broadcasting, where there is a result at all: it does not matter in which order operands come or
how they are grouped.
-/

namespace ArrayBench

namespace Shape

/-- An array of shape `a` with a stride for each axis can be read as one of shape `t`. -/
def ReadsAs (a t : Shape) : Prop :=
  ∃ strides : List Nat, strides.length = a.length ∧ ∃ r, a.broadcastStrides strides t = .ok r

lemma broadcastStrides_ok_iff {a t : Shape} {strides : List Nat}
    (h : strides.length = a.length) : (∃ r, a.broadcastStrides strides t = .ok r) ↔ Below a t := by
  have hlayout : ∀ l : Layout,
      (∃ r, l.shape.broadcastStrides l.strides t = .ok r) ↔ Below l.shape t := by
    intro l
    constructor
    · rintro ⟨r, hr⟩
      obtain ⟨added, inner, ht, hgrow, -⟩ := Layout.broadcastStrides_eq_ok.mp hr
      exact ⟨added, inner, ht, hgrow⟩
    · rintro ⟨added, inner, ht, hgrow⟩
      exact ⟨_, Layout.broadcastStrides_eq_ok.mpr ⟨added, inner, ht, hgrow, rfl⟩⟩
  have hstrides := hlayout (.ofStrides a strides 0)
  rwa [Layout.shape_ofStrides h, Layout.strides_ofStrides h] at hstrides

lemma readsAs_iff {a t : Shape} : a.ReadsAs t ↔ Below a t := by
  constructor
  · rintro ⟨strides, hlen, hr⟩
    exact (broadcastStrides_ok_iff hlen).mp hr
  · intro h
    exact ⟨a.strides, length_strides a, (broadcastStrides_ok_iff (length_strides a)).mpr h⟩

structure JoinsShapes : Prop where
  strides : ∀ (a t : Shape) (strides : List Nat), strides.length = a.length → a.ReadsAs t →
    ∃ r, a.broadcastStrides strides t = .ok r
  refl : ∀ a : Shape, a.ReadsAs a
  trans : ∀ a b c : Shape, a.ReadsAs b → b.ReadsAs c → a.ReadsAs c
  antisymm : ∀ a b : Shape, a.ReadsAs b → b.ReadsAs a → a = b
  readsAs_iff : ∀ a t : Shape, a.ReadsAs t ↔ broadcast a t = .ok t
  /-- There is a result as soon as there is a shape above both operands. -/
  ok_iff : ∀ a b : Shape, (∃ t, broadcast a b = .ok t) ↔ ∃ u, a.ReadsAs u ∧ b.ReadsAs u
  upper : ∀ a b t : Shape, broadcast a b = .ok t → a.ReadsAs t ∧ b.ReadsAs t
  least : ∀ a b t u : Shape, broadcast a b = .ok t → a.ReadsAs u → b.ReadsAs u → t.ReadsAs u
  idem : ∀ a : Shape, broadcast a a = .ok a
  nil_left : ∀ a : Shape, broadcast [] a = .ok a
  nil_right : ∀ a : Shape, broadcast a [] = .ok a
  comm : ∀ a b t : Shape, broadcast a b = .ok t ↔ broadcast b a = .ok t
  assoc : ∀ a b c t : Shape, (broadcast a b >>= fun s => broadcast s c) = .ok t ↔
    (broadcast b c >>= fun s => broadcast a s) = .ok t

/-- **Broadcasting joins shapes**: the shape of a result is the least one that both operands can be
read as, for all ranks and sizes, axes without elements included. -/
theorem broadcast_joins : JoinsShapes where
  strides a t strides hlen h := (broadcastStrides_ok_iff hlen).mpr (readsAs_iff.mp h)
  refl a := readsAs_iff.mpr (.refl a)
  trans a b c h h' := readsAs_iff.mpr ((readsAs_iff.mp h).trans (readsAs_iff.mp h'))
  antisymm a b h h' := (readsAs_iff.mp h).antisymm (readsAs_iff.mp h')
  readsAs_iff a t := by
    rw [readsAs_iff]
    exact ⟨broadcast_of_below, fun h => (broadcast_below h).1⟩
  ok_iff a b := by
    constructor
    · rintro ⟨t, ht⟩
      obtain ⟨ha, hb⟩ := broadcast_below ht
      exact ⟨t, readsAs_iff.mpr ha, readsAs_iff.mpr hb⟩
    · rintro ⟨u, ha, hb⟩
      obtain ⟨t, ht, -⟩ := exists_broadcast (readsAs_iff.mp ha) (readsAs_iff.mp hb)
      exact ⟨t, ht⟩
  upper a b t h := by
    obtain ⟨ha, hb⟩ := broadcast_below h
    exact ⟨readsAs_iff.mpr ha, readsAs_iff.mpr hb⟩
  least a b t u h ha hb := by
    obtain ⟨-, -, hleast⟩ := broadcast_eq_ok_iff.mp h
    exact readsAs_iff.mpr (hleast u (readsAs_iff.mp ha) (readsAs_iff.mp hb))
  idem := broadcast_self
  nil_left a := broadcast_of_below (nil_below a)
  nil_right a := broadcast_comm.mp (broadcast_of_below (nil_below a))
  comm _ _ _ := broadcast_comm
  assoc _ _ _ _ := broadcast_assoc

/-- A column and a row give a matrix, and an axis without elements stays one. -/
example : broadcast [3, 1] [4] = .ok [3, 4] ∧ broadcast [1, 2] [0, 1] = .ok [0, 2] := ⟨rfl, rfl⟩

end Shape

end ArrayBench
