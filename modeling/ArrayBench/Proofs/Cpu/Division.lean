import ArrayBench.Proofs.Cpu.Results
import ArrayBench.Proofs.Number.Exact
import ArrayBench.Proofs.Number.ZeroDivisors

/-!
Division of integers by zero.

There are two quotients of integers. The floored one is an integer, and it is zero where the divisor
is. The exact one is a float, and so it is computed on floats throughout: where the divisor is zero
it is infinite or not a number, in new arrays as well as in buffers, whatever the operands look
like. The rule that a format has for exact quotients by zero is never asked.
-/

namespace ArrayBench

open NdArray (Holds)

/-- What the integer format `t` has for quotients, of single values and of the elements of arrays,
and what these are where a divisor is zero. -/
structure ZeroDivisors (t : IntType) : Prop where
  arrays : ∀ {a b : NdArray} {u v : List Nat → Word t} {s : Shape}, a.Holds (d := .int t) u →
    b.Holds (d := .int t) v → Shape.broadcast a.shape b.shape = .ok s →
    (Call.binary .div a b).Yields (d := .float64) s fun ix =>
      Float.ofInt (u (a.shape.restrict ix)).val / Float.ofInt (v (b.shape.restrict ix)).val
  /-- The scalar is converted first, so that scalars that are cut to zero divide like zero. -/
  scalars : ∀ {a : NdArray} {u : List Nat → Word t} (q : Scalar), a.Holds (d := .int t) u →
    (Call.scalar .div a q).Yields (d := .float64) a.shape fun ix =>
      Float.ofInt (u ix).val / Float.ofInt (Word.val (q.convert (.int t)))
  /-- Such a quotient by zero is infinite with the sign of the dividend, or no number if that is
  zero too. -/
  overZero : ∀ x y : Word t, y = 0 →
    Decoded.ofFloat (Float.ofInt x.val / Float.ofInt y.val) = .overZero x.val
  flooredArrays : ∀ {a b : NdArray} {u v : List Nat → Word t} {s : Shape},
    a.Holds (d := .int t) u → b.Holds (d := .int t) v →
    Shape.broadcast a.shape b.shape = .ok s →
    (Call.binary .floorDiv a b).Yields (d := .int t) s fun ix =>
      (u (a.shape.restrict ix)).floorDiv (v (b.shape.restrict ix))
  flooredScalars : ∀ {a : NdArray} {u : List Nat → Word t} (q : Scalar),
    a.Holds (d := .int t) u → (Call.scalar .floorDiv a q).Yields (d := .int t) a.shape fun ix =>
      (u ix).floorDiv (q.convert (.int t))
  withinFormat : ∀ x y : Word t, y = 0 → x.floorDiv y = 0 ∧ x.div y = 0

/-- **Division by zero** gives zero for floored quotients of integers, and never for exact ones. -/
theorem zero_divisors (t : IntType) : ZeroDivisors t where
  arrays ha hb hs := Call.yields_binary .div ha hb hs
  scalars q ha := Call.yields_scalar .div ha q
  overZero x y hy := by rw [hy, Word.val_zero, Decoded.ofFloat_div_zero]
  flooredArrays ha hb hs := Call.yields_binary .floorDiv ha hb hs
  flooredScalars q ha := Call.yields_scalar .floorDiv ha q
  withinFormat x y hy := by
    have hzero : y.val = 0 := by rw [hy, Word.val_zero]
    exact ⟨if_pos hzero, if_pos hzero⟩

/-- One divided by zero in a call on arrays, exactly and floored. -/
theorem one_over_zero :
    (∃ r q, Cpu.compute (.binary .div
        ⟨⟨.int32, .items #[1]⟩, .contiguous [1]⟩ ⟨⟨.int32, .items #[0]⟩, .contiguous [1]⟩) = .ok r ∧
      r.elem? .float64 [0] = some q ∧ Decoded.ofFloat q = .infinite false) ∧
    ∃ r, Cpu.compute (.binary .floorDiv
        ⟨⟨.int32, .items #[1]⟩, .contiguous [1]⟩ ⟨⟨.int32, .items #[0]⟩, .contiguous [1]⟩) = .ok r ∧
      r.elem? .int32 [0] = some 0 :=
  ⟨⟨_, _, rfl, rfl, rfl⟩, _, rfl, rfl⟩

end ArrayBench
