import ArrayBench.Proofs.Cpu.Results
import ArrayBench.Proofs.Number.Exact

/-!
Powers of integers.

The power of two elements of an integer format is the exact power, wrapped, as long as the exponent
fits 32 bits, and zero for negative exponents. Only the two formats of 64 bits have larger
exponents. With these a power is zero whatever its base is, which agrees with the exact power for
even bases and for no other ones. Arrays have no rule of their own: whatever the form of the call
and the layouts, each element is the power of the elements that are combined there.
-/

namespace ArrayBench

open NdArray (Holds)
open Word (ofInt)

/-- The powers that an integer format has, of single values and of the elements of arrays. -/
structure PowersWrap (t : IntType) : Prop where
  wraps_iff : ∀ b e : Word t,
    b.pow e = ofInt (BinaryOp.pow.onInt b.val e.val) ↔ e.val < 2 ^ (32 : Nat) ∨ 2 ∣ b.val
  negative : ∀ b e : Word t, e.val < 0 → b.pow e = 0
  givenUp : ∀ b e : Word t, 2 ^ (32 : Nat) ≤ e.val → b.pow e = 0
  narrow : t.width ≠ .w64 → ∀ b e : Word t, b.pow e = ofInt (BinaryOp.pow.onInt b.val e.val)
  arrays : ∀ {a b : NdArray} {u v : List Nat → Word t} {s : Shape}, a.Holds (d := .int t) u →
    b.Holds (d := .int t) v → Shape.broadcast a.shape b.shape = .ok s →
    (Call.binary .pow a b).Yields (d := .int t) s fun ix =>
      (u (a.shape.restrict ix)).pow (v (b.shape.restrict ix))
  scalars : ∀ {a : NdArray} {u : List Nat → Word t} (q : Scalar), a.Holds (d := .int t) u →
    (Call.scalar .pow a q).Yields (d := .int t) a.shape fun ix => (u ix).pow (q.convert (.int t))
  arraysInPlace : ∀ {a b : NdArray} {u v : List Nat → Word t}, a.Holds (d := .int t) u →
    b.Holds (d := .int t) v → Shape.broadcast a.shape b.shape = .ok a.shape →
    a.layout.offsets.Nodup →
    (Change.binary .pow b).Leaves (d := .int t) a fun ix => (u ix).pow (v (b.shape.restrict ix))
  scalarsInPlace : ∀ {a : NdArray} {u : List Nat → Word t} (q : Scalar),
    a.Holds (d := .int t) u → a.layout.offsets.Nodup →
    (Change.scalar .pow q).Leaves (d := .int t) a fun ix => (u ix).pow (q.convert (.int t))

lemma Word.val_lt_of_narrow {t : IntType} (h : t.width ≠ .w64) (a : Word t) :
    a.val < 2 ^ (32 : Nat) := by
  have hhi := a.le_hi
  have hbound : t.hi < 2 ^ (32 : Nat) := by
    obtain ⟨signed, width⟩ := t
    cases width with
    | w64 => exact absurd rfl h
    | w8 => cases signed <;> decide
    | w16 => cases signed <;> decide
    | w32 => cases signed <;> decide
  omega

/-- **Powers** are exact up to wrapping for every exponent of at most 32 bits, in every form of
call, and larger exponents give zero. -/
theorem powers_wrap (t : IntType) : PowersWrap t where
  wraps_iff _ _ := Word.pow_eq_iff
  negative b e h := by
    rw [Word.pow_of_lt (by omega), BinaryOp.onInt, if_neg (Int.not_le.mpr h)]
    rfl
  givenUp _ _ := Word.pow_of_le
  narrow h b e := Word.pow_of_lt (Word.val_lt_of_narrow h e)
  arrays ha hb hs := Call.yields_binary .pow ha hb hs
  scalars q ha := Call.yields_scalar .pow ha q
  arraysInPlace ha hb hs hn := Change.leaves_binary rfl ha hb hs hn
  scalarsInPlace q ha hn := Change.leaves_scalar rfl ha q hn

/-- One to the power of `2 ^ 32` is one, and the array that is asked for it gets a zero. -/
theorem one_pow_given_up :
    BinaryOp.pow.onInt 1 (2 ^ (32 : Nat)) = 1 ∧
      ∃ r, Cpu.compute (.binary .pow
          ⟨⟨.int64, .items #[1]⟩, .contiguous [1]⟩
          ⟨⟨.int64, .items #[ofInt (2 ^ (32 : Nat))]⟩, .contiguous [1]⟩) = .ok r ∧
        r.elem? .int64 [0] = some 0 := by
  refine ⟨?_, _, rfl, rfl⟩
  rw [BinaryOp.onInt, if_pos (by decide), Int.one_pow]

end ArrayBench
