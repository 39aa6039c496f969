import Mathlib.Data.Rat.Floor
import ArrayBench.Proofs.Number.Exact

/-!
Floored quotients of integers.

The exact quotient of two integers is a rational number, and the floored quotient is the greatest
integer below it. What is left of the dividend lies between zero and the divisor, on the divisor's
side. A quotient is no farther from zero than its dividend, so it is a value of the format again
unless the least value of a signed format is divided by minus one: its negative is one too large,
and wraps back to the least value.
-/

namespace ArrayBench

/-! ### Integers of any size -/

lemma fdiv_eq_floor_of_nonneg (x : Int) {y : Int} (hy : 0 ≤ y) :
    x.fdiv y = ⌊(x : ℚ) / y⌋ := by
  obtain ⟨n, rfl⟩ := Int.eq_ofNat_of_zero_le hy
  rw [Int.fdiv_eq_ediv_of_nonneg x hy]
  exact (Rat.floor_intCast_div_natCast x n).symm

lemma fdiv_eq_floor (x y : Int) : x.fdiv y = ⌊(x : ℚ) / y⌋ := by
  rcases Int.le_total 0 y with hy | hy
  · exact fdiv_eq_floor_of_nonneg x hy
  · have hneg := fdiv_eq_floor_of_nonneg (-x) (y := -y) (by omega)
    rw [Int.neg_fdiv_neg] at hneg
    simpa [neg_div_neg_eq] using hneg

/-- The remainder of a floored division lies between zero and the divisor. -/
lemma fmod_between (x : Int) {y : Int} (hy : y ≠ 0) :
    0 ≤ x.fmod y ∧ x.fmod y < y ∨ y < x.fmod y ∧ x.fmod y ≤ 0 := by
  rcases Int.lt_or_gt_of_ne hy with hneg | hpos
  · right
    have hnonneg := Int.fmod_nonneg_of_pos (-x) (b := -y) (by omega)
    have hlt := Int.fmod_lt_of_pos (-x) (b := -y) (by omega)
    rw [Int.neg_fmod_neg] at hnonneg hlt
    omega
  · left
    exact ⟨Int.fmod_nonneg_of_pos x hpos, Int.fmod_lt_of_pos x hpos⟩

lemma abs_fmod_lt (x : Int) {y : Int} (hy : y ≠ 0) : |x.fmod y| < |y| := by
  rcases fmod_between x hy with ⟨hle, hlt⟩ | ⟨hlt, hle⟩
  · rw [abs_of_nonneg hle, abs_of_pos (by omega)]
    exact hlt
  · rw [abs_of_nonpos hle, abs_of_neg (by omega)]
    omega

lemma sign_fmod (x : Int) {y : Int} (hy : y ≠ 0) :
    x.fmod y = 0 ∨ (x.fmod y).sign = y.sign := by
  by_cases hzero : x.fmod y = 0
  · exact .inl hzero
  · right
    rcases fmod_between x hy with ⟨hle, hlt⟩ | ⟨hlt, hle⟩
    · rw [Int.sign_eq_one_of_pos (by omega), Int.sign_eq_one_of_pos (by omega)]
    · rw [Int.sign_eq_neg_one_of_neg (by omega), Int.sign_eq_neg_one_of_neg (by omega)]

/-! ### Quotients within a format -/

namespace IntType

lemma lo_nonpos (t : IntType) : t.lo ≤ 0 := by
  obtain ⟨signed, width⟩ := t
  cases signed <;> cases width <;> decide

lemma one_le_hi (t : IntType) : 1 ≤ t.hi := by
  obtain ⟨signed, width⟩ := t
  cases signed <;> cases width <;> decide

lemma lo_of_unsigned {t : IntType} (h : t.signed = false) : t.lo = 0 := by
  rw [lo, if_neg (by simp [h])]

lemma hi_of_signed {t : IntType} (h : t.signed = true) : t.hi = -t.lo - 1 := by
  obtain ⟨signed, width⟩ := t
  obtain rfl : signed = true := h
  cases width <;> decide

variable {t : IntType} {x y : Int}

/-- Dividing by a positive number moves a value towards zero, so only the upper bound is to be
checked. -/
lemma contains_ediv (hy : 0 < y) (hlo : t.lo ≤ x) (hhi : x ≤ t.hi * y) : t.Contains (x / y) := by
  refine ⟨Int.le_ediv_of_mul_le hy ?_, Int.ediv_le_of_le_mul hy hhi⟩
  calc t.lo * y ≤ t.lo * 1 := Int.mul_le_mul_of_nonpos_left t.lo_nonpos (by omega)
    _ = t.lo := Int.mul_one _
    _ ≤ x := hlo

/-- The one division that leaves the format. -/
def Overflows (t : IntType) (x y : Int) : Prop := t.signed = true ∧ x = t.lo ∧ y = -1

instance (t : IntType) (x y : Int) : Decidable (t.Overflows x y) :=
  inferInstanceAs (Decidable (_ ∧ _ ∧ _))

lemma fdiv_of_overflows (h : t.Overflows x y) : x.fdiv y = t.hi + 1 := by
  obtain ⟨hs, rfl, rfl⟩ := h
  rw [← Int.neg_fdiv_neg, Int.neg_neg, Int.fdiv_eq_ediv_of_nonneg _ (by decide), Int.ediv_one,
    hi_of_signed hs]
  omega

lemma contains_fdiv_of_pos (hx : t.Contains x) (hy : 0 < y) : t.Contains (x.fdiv y) := by
  rw [Int.fdiv_eq_ediv_of_nonneg x (by omega)]
  refine contains_ediv hy hx.1 ?_
  have hhi := t.one_le_hi
  calc x ≤ t.hi := hx.2
    _ = t.hi * 1 := (Int.mul_one _).symm
    _ ≤ t.hi * y := Int.mul_le_mul_of_nonneg_left (by omega) (by omega)

/-- Divided by minus one a value changes its sign, and divided by anything less it is halved at
least. -/
lemma contains_fdiv_of_neg (hx : t.Contains x) (hy : y < 0) (hs : t.signed = true)
    (hover : ¬ t.Overflows x y) : t.Contains (x.fdiv y) := by
  obtain ⟨hlo, hhi⟩ := hx
  have hsize := hi_of_signed hs
  have hone := t.one_le_hi
  rw [← Int.neg_fdiv_neg, Int.fdiv_eq_ediv_of_nonneg _ (by omega)]
  refine contains_ediv (by omega) (by omega) ?_
  by_cases hy' : y = -1
  · have hx' : x ≠ t.lo := fun h => hover ⟨hs, h, hy'⟩
    subst hy'
    omega
  · calc -x ≤ t.hi * 2 := by omega
      _ ≤ t.hi * -y := Int.mul_le_mul_of_nonneg_left (by omega) (by omega)

lemma contains_fdiv_iff (hx : t.Contains x) (hy : t.Contains y) (h0 : y ≠ 0) :
    t.Contains (x.fdiv y) ↔ ¬ t.Overflows x y := by
  constructor
  · intro h hover
    have hhi := h.2
    rw [fdiv_of_overflows hover] at hhi
    omega
  · intro hover
    -- only a negative divisor can make a magnitude too large, and only a signed format has one
    rcases Int.lt_or_gt_of_ne h0 with hneg | hpos
    · cases hs : t.signed with
      | true => exact contains_fdiv_of_neg hx hneg hs hover
      | false =>
        have hlo := hy.1
        rw [lo_of_unsigned hs] at hlo
        omega
    · exact contains_fdiv_of_pos hx hpos

end IntType

namespace Word

variable {t : IntType} {a b : Word t}

lemma contains_val (a : Word t) : t.Contains a.val := ⟨a.lo_le, a.le_hi⟩

lemma val_ne_zero (h : b ≠ 0) : b.val ≠ 0 := fun h' => h (ext (h'.trans val_zero.symm))

lemma ofInt_hi_add_one : (ofInt (t.hi + 1) : Word t).val = t.lo := by
  have hcongr : (ofInt (t.hi + 1) : Word t) = ofInt t.lo := by
    rw [ofInt_eq_ofInt_iff, IntType.hi, Int.sub_add_cancel, Int.add_emod_right]
  rw [hcongr]
  exact val_ofInt_eq_iff.mpr ⟨Int.le_refl _, t.lo_le_hi⟩

lemma val_floorDiv (a b : Word t) : (a.floorDiv b).val = t.wrap (a.val.fdiv b.val) := by
  rw [floorDiv_eq]
  rfl

lemma val_floorDiv_eq_iff (hb : b ≠ 0) :
    (a.floorDiv b).val = a.val.fdiv b.val ↔ ¬ t.Overflows a.val b.val := by
  rw [floorDiv_eq, ← IntType.contains_fdiv_iff a.contains_val b.contains_val (val_ne_zero hb)]
  exact val_ofInt_eq_iff

lemma sub_mul_floorDiv (hb : b ≠ 0) (h : ¬ t.Overflows a.val b.val) :
    a.val - b.val * (a.floorDiv b).val = a.val.fmod b.val := by
  rw [(val_floorDiv_eq_iff hb).mpr h, Int.fmod_def]

/-! ### All of it together -/

structure DividesToFloor (a b : Word t) : Prop where
  byZero : b = 0 → a.floorDiv b = 0
  /-- It has the residue of the exact quotient rounded down, -/
  emod : b ≠ 0 →
    (a.floorDiv b).val % (2 : Int) ^ t.bits = ⌊(a.val : ℚ) / b.val⌋ % (2 : Int) ^ t.bits
  /-- and is that number itself but for one pair of values. -/
  exact : b ≠ 0 → ((a.floorDiv b).val = ⌊(a.val : ℚ) / b.val⌋ ↔ ¬ t.Overflows a.val b.val)
  overflow : t.Overflows a.val b.val → (a.floorDiv b).val = t.lo
  abs_lt : b ≠ 0 → ¬ t.Overflows a.val b.val →
    |a.val - b.val * (a.floorDiv b).val| < |b.val|
  sign : b ≠ 0 → ¬ t.Overflows a.val b.val → a.val - b.val * (a.floorDiv b).val = 0 ∨
    (a.val - b.val * (a.floorDiv b).val).sign = b.val.sign

/-- **Floored division**: in every integer format a quotient is the exact one rounded down, whatever
the signs, and leaves a remainder that is smaller than the divisor and has its sign. Only the least
value of a signed format divided by minus one is wrapped. -/
theorem divides_to_floor (a b : Word t) : DividesToFloor a b where
  byZero hb := by rw [hb, floorDiv, if_pos val_zero]
  emod _ := by rw [val_floorDiv, ← fdiv_eq_floor, ← IntType.modulus_eq, IntType.wrap_emod]
  exact hb := by rw [← fdiv_eq_floor, val_floorDiv_eq_iff hb]
  overflow h := by rw [floorDiv_eq, BinaryOp.onInt, IntType.fdiv_of_overflows h, ofInt_hi_add_one]
  abs_lt hb h := by
    rw [sub_mul_floorDiv hb h]
    exact abs_fmod_lt a.val (val_ne_zero hb)
  sign hb h := by
    rw [sub_mul_floorDiv hb h]
    exact sign_fmod a.val (val_ne_zero hb)

/-- The four pairs of signs, and the quotient that is wrapped. -/
example :
    ([(7, 2), (-7, 2), (7, -2), (-7, -2), (-128, -1)].map fun (x, y) =>
      ((ofInt x : Word ⟨true, .w8⟩).floorDiv (ofInt y)).val) = [3, -4, -4, 3, -128] := by decide

end Word

end ArrayBench
