import ArrayBench.Number.Arithmetic

/-!
Fixed-width integers.

An integer format is a sign rule and a width. Its values are the integers from `lo` to `hi`,
and every integer is congruent to exactly one of them modulo `2 ^ bits`: `wrap x`. Arithmetic
on the format is arithmetic on integers followed by `wrap`.
-/

namespace ArrayBench

inductive Width where
  | w8
  | w16
  | w32
  | w64
deriving DecidableEq, Repr

def Width.bits : Width → Nat
  | .w8 => 8
  | .w16 => 16
  | .w32 => 32
  | .w64 => 64

theorem Width.bits_pos (w : Width) : 0 < w.bits := by
  cases w <;> decide

def Width.values : Width → Int
  | .w8 => 256
  | .w16 => 65536
  | .w32 => 4294967296
  | .w64 => 18446744073709551616

theorem Width.values_eq (w : Width) : w.values = 2 ^ w.bits := by
  cases w <;> rfl

def Width.least : Width → Int
  | .w8 => -128
  | .w16 => -32768
  | .w32 => -2147483648
  | .w64 => -9223372036854775808

theorem Width.least_eq (w : Width) : w.least = -2 ^ (w.bits - 1) := by
  cases w <;> rfl

structure IntType where
  signed : Bool
  width : Width
deriving DecidableEq, Repr

namespace IntType

def bits (t : IntType) : Nat := t.width.bits

def modulus (t : IntType) : Int := t.width.values

def lo (t : IntType) : Int := if t.signed then t.width.least else 0

def hi (t : IntType) : Int := t.lo + t.modulus - 1

/-- The value of the format that is congruent to `x` modulo `2 ^ bits`. -/
def wrap (t : IntType) (x : Int) : Int := (x - t.lo) % t.modulus + t.lo

def clamp (t : IntType) (x : Int) : Int := max t.lo (min x t.hi)

theorem modulus_eq (t : IntType) : t.modulus = 2 ^ t.bits := t.width.values_eq

theorem lo_eq (t : IntType) : t.lo = if t.signed then -2 ^ (t.bits - 1) else 0 := by
  rw [lo, Width.least_eq, bits]

theorem modulus_pos (t : IntType) : 0 < t.modulus := by
  rw [modulus_eq]
  exact Int.pow_pos (by decide)

theorem lo_le_hi (t : IntType) : t.lo ≤ t.hi := by
  have := t.modulus_pos
  simp only [hi]
  omega

theorem lo_le_wrap (t : IntType) (x : Int) : t.lo ≤ t.wrap x := by
  have := Int.emod_nonneg (x - t.lo) (Int.ne_of_gt t.modulus_pos)
  simp only [wrap]
  omega

theorem wrap_le_hi (t : IntType) (x : Int) : t.wrap x ≤ t.hi := by
  have := Int.emod_lt_of_pos (x - t.lo) t.modulus_pos
  simp only [wrap, hi]
  omega

/-- A value of the format is its own residue. -/
theorem wrap_eq_self {t : IntType} {x : Int} (h₁ : t.lo ≤ x) (h₂ : x ≤ t.hi) : t.wrap x = x := by
  simp only [hi] at h₂
  rw [wrap, Int.emod_eq_of_lt (by omega) (by omega)]
  omega

/-- Two integers have one residue exactly when they differ by a multiple of `2 ^ bits`. -/
theorem wrap_eq_wrap_iff {t : IntType} {x y : Int} :
    t.wrap x = t.wrap y ↔ x % t.modulus = y % t.modulus := by
  rw [wrap, wrap, Int.add_left_inj, Int.emod_eq_emod_iff_emod_sub_eq_zero,
    Int.emod_eq_emod_iff_emod_sub_eq_zero, show x - t.lo - (y - t.lo) = x - y by omega]

theorem lo_le_clamp (t : IntType) (x : Int) : t.lo ≤ t.clamp x := Int.le_max_left ..

theorem clamp_le_hi (t : IntType) (x : Int) : t.clamp x ≤ t.hi :=
  Int.max_le.2 ⟨t.lo_le_hi, Int.min_le_right ..⟩

end IntType

end ArrayBench
