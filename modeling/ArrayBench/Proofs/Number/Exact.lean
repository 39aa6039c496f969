import Mathlib.Data.Nat.Prime.Int
import Mathlib.Tactic.Lemma
import Mathlib.Tactic.SplitIfs
import ArrayBench.Op
import ArrayBench.Proofs.Number.Sums

/-!
Arithmetic on integers of any size, and what a format keeps of it.

Each operation on a fixed-width format is the operation on integers followed by wrapping, with one
exception: a power whose exponent does not fit 32 bits is given up and becomes zero. This can only
be noticed on the widest formats, and there it goes unnoticed for even bases, whose power is a
multiple of `2 ^ bits` by then.
-/

namespace ArrayBench

namespace BinaryOp

/-- The operation on integers of any size. Quotients by zero are zero, and so are powers with
negative exponents. -/
def onInt : BinaryOp → Int → Int → Int
  | .add, x, y => x + y
  | .sub, x, y => x - y
  | .mul, x, y => x * y
  | .div, x, y => x.tdiv y
  | .floorDiv, x, y => x.fdiv y
  | .pow, x, y => if 0 ≤ y then x ^ y.toNat else 0

end BinaryOp

namespace IntType

lemma bits_le (t : IntType) : t.bits ≤ 64 := by
  obtain ⟨signed, width⟩ := t
  cases width <;> decide +revert

def Contains (t : IntType) (x : Int) : Prop := t.lo ≤ x ∧ x ≤ t.hi

instance (t : IntType) (x : Int) : Decidable (t.Contains x) :=
  inferInstanceAs (Decidable (_ ∧ _))

end IntType

namespace Word

variable {t : IntType}

lemma val_zero : (0 : Word t).val = 0 := by
  obtain ⟨signed, width⟩ := t
  cases signed <;> cases width <;> rfl

lemma val_ofInt_eq_iff {x : Int} : (ofInt x : Word t).val = x ↔ t.Contains x := by
  constructor
  · intro h
    rw [← h]
    exact ⟨lo_le _, le_hi _⟩
  · intro h
    exact IntType.wrap_eq_self h.1 h.2

lemma ofInt_sub_ofInt (x y : Int) : (ofInt x : Word t) - ofInt y = ofInt (x - y) := by
  have hdifference : (ofInt x : Word t) - ofInt y = ofInt (t.wrap x - t.wrap y) := rfl
  rw [hdifference, ofInt_eq_ofInt_iff, Int.sub_emod, IntType.wrap_emod, IntType.wrap_emod,
    ← Int.sub_emod]

lemma ofInt_mul_ofInt (x y : Int) : (ofInt x : Word t) * ofInt y = ofInt (x * y) := by
  have hproduct : (ofInt x : Word t) * ofInt y = ofInt (t.wrap x * t.wrap y) := rfl
  rw [hproduct, ofInt_eq_ofInt_iff, Int.mul_emod, IntType.wrap_emod, IntType.wrap_emod,
    ← Int.mul_emod]

/-! ### Powers -/

lemma ofInt_pow_congr {x y : Int} (h : (ofInt x : Word t) = ofInt y) (n : Nat) :
    (ofInt (x ^ n) : Word t) = ofInt (y ^ n) := by
  induction n with
  | zero => rw [Int.pow_zero, Int.pow_zero]
  | succ n ih =>
    rw [Int.pow_succ, Int.pow_succ, ← ofInt_mul_ofInt, ← ofInt_mul_ofInt, ih, h]

lemma ofInt_square_pow (b : Word t) (n : Nat) :
    (ofInt ((b * b).val ^ n) : Word t) = ofInt (b.val ^ (2 * n)) := by
  have hsquare : (ofInt (b * b).val : Word t) = ofInt (b.val ^ (2 : Nat)) := by
    rw [ofInt_val, Int.pow_succ, Int.pow_succ, Int.pow_zero, Int.one_mul]
    rfl
  rw [Int.pow_mul]
  exact ofInt_pow_congr hsquare n

/-- Repeated squaring through all the bits of an exponent. -/
lemma powBits_eq {n : Nat} (b : Word t) {e : Nat} (h : e < 2 ^ n) :
    powBits n b e = ofInt (b.val ^ e) := by
  -- on the number of bits: squaring the base halves the exponent
  induction n generalizing b e with
  | zero =>
    obtain rfl : e = 0 := by simpa using h
    rw [Int.pow_zero]
    rfl
  | succ n ih =>
    have hhalf : e / 2 < 2 ^ n := by
      rw [Nat.pow_succ] at h
      omega
    rw [powBits, ih (b * b) hhalf, ofInt_square_pow]
    split_ifs with hzero hodd
    · rw [hzero, Int.pow_zero]
      rfl
    -- an odd exponent has one more factor
    · have hsplit : b.val ^ e = b.val * b.val ^ (2 * (e / 2)) := by
        rw [← Int.pow_succ']
        congr 1
        omega
      rw [hsplit, ← ofInt_mul_ofInt, ofInt_val]
    · congr 3
      omega

lemma pow_of_lt {b e : Word t} (h : e.val < 2 ^ (32 : Nat)) :
    b.pow e = ofInt (BinaryOp.pow.onInt b.val e.val) := by
  rw [pow, BinaryOp.onInt]
  by_cases hneg : 0 ≤ e.val
  · rw [if_pos ⟨hneg, h⟩, if_pos hneg, powBits_eq]
    omega
  · rw [if_neg fun h => hneg h.1, if_neg hneg]
    rfl

lemma pow_of_le {b e : Word t} (h : 2 ^ (32 : Nat) ≤ e.val) : b.pow e = 0 :=
  if_neg fun h' => Int.not_lt.mpr h h'.2

/-- Once the exponent has reached the width of the format, the powers of even numbers vanish and
those of odd numbers do not. -/
lemma modulus_dvd_pow_iff {x : Int} {n : Nat} (h : t.bits ≤ n) : t.modulus ∣ x ^ n ↔ 2 ∣ x := by
  rw [IntType.modulus_eq]
  constructor
  · intro hdvd
    have htwo : (2 : Int) ∣ 2 ^ t.bits := dvd_pow_self 2 (Nat.ne_of_gt t.width.bits_pos)
    exact Int.prime_two.dvd_of_dvd_pow (htwo.trans hdvd)
  · intro htwo
    exact (pow_dvd_pow 2 h).trans (pow_dvd_pow_of_dvd htwo n)

/-- A power that is given up is the wrapped one exactly if the base is even. -/
lemma pow_eq_iff {b e : Word t} :
    b.pow e = ofInt (BinaryOp.pow.onInt b.val e.val) ↔ e.val < 2 ^ (32 : Nat) ∨ 2 ∣ b.val := by
  by_cases h : e.val < 2 ^ (32 : Nat)
  · exact iff_of_true (pow_of_lt h) (.inl h)
  · have hle : 2 ^ (32 : Nat) ≤ e.val := Int.not_lt.mp h
    have hnonneg : 0 ≤ e.val := by omega
    have hbits : t.bits ≤ e.val.toNat := by
      have := t.bits_le
      omega
    have hzero : (0 : Word t) = ofInt 0 := rfl
    rw [pow_of_le hle, BinaryOp.onInt, if_pos hnonneg, hzero, ofInt_eq_ofInt_iff, Int.zero_emod,
      eq_comm, ← Int.dvd_iff_emod_eq_zero, modulus_dvd_pow_iff hbits, or_iff_right h]

/-! ### Quotients -/

lemma div_eq (a b : Word t) : a.div b = ofInt (BinaryOp.div.onInt a.val b.val) := by
  rw [div, BinaryOp.onInt]
  split_ifs with hzero
  · rw [hzero, Int.tdiv_zero]
    rfl
  · rfl

lemma fdiv_eq_tdiv_sub (x : Int) {y : Int} (hy : y ≠ 0) :
    x.fdiv y = x.tdiv y - if x.tmod y ≠ 0 ∧ (x < 0) ≠ (y < 0) then 1 else 0 := by
  have hdvd : y ∣ x ↔ x.tmod y = 0 := Int.dvd_iff_tmod_eq_zero
  have hsign : y.sign = if y < 0 then -1 else 1 := by
    split_ifs with hneg
    · exact Int.sign_eq_neg_one_of_neg hneg
    · exact Int.sign_eq_one_of_pos (by omega)
  rw [Int.fdiv_eq_tdiv, hsign]
  simp only [hdvd, ne_eq, eq_iff_iff]
  split_ifs <;> omega

lemma floorDiv_eq (a b : Word t) :
    a.floorDiv b = ofInt (BinaryOp.floorDiv.onInt a.val b.val) := by
  rw [floorDiv, BinaryOp.onInt]
  by_cases hzero : b.val = 0
  · rw [if_pos hzero, hzero, Int.fdiv_zero]
    rfl
  · rw [if_neg hzero, fdiv_eq_tdiv_sub _ hzero]
    simp only []
    split_ifs with hround
    · exact ofInt_sub_ofInt _ _
    · rw [Int.sub_zero]

/-! ### All operations -/

/-- Arithmetic on a format is arithmetic on integers, wrapped at the end. -/
lemma onWord_eq {op : BinaryOp} {a b : Word t} (h : op = .pow → b.val < 2 ^ (32 : Nat)) :
    op.onWord a b = ofInt (op.onInt a.val b.val) := by
  cases op with
  | add => rfl
  | sub => rfl
  | mul => rfl
  | div => exact div_eq a b
  | floorDiv => exact floorDiv_eq a b
  | pow => exact pow_of_lt (h rfl)

end Word

end ArrayBench
