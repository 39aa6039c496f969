import Mathlib.Algebra.Order.Field.Power
import Mathlib.Algebra.Order.Field.Rat
import Mathlib.Tactic.Lemma
import Mathlib.Tactic.Positivity
import Mathlib.Tactic.Ring
import Mathlib.Tactic.SplitIfs
import ArrayBench.Scalar

/-!
What elements stand for.

An integer stands for itself, and a float for a rational number, for an infinity or for no number.
The numbers of a float format are the products of a mantissa and a power of two, where the mantissa
has one bit more than the format stores and the exponent stays in a range. Every such number has a
mantissa that is long enough to drop its first bit, or the least exponent of all, and so can be
written down in the fields of the format.
-/

namespace ArrayBench

inductive Meaning where
  | nan
  | infinite (negative : Bool)
  | number (q : ℚ)

def signed (negative : Bool) (m : Nat) : Int := if negative then -m else m

def Decoded.meaning : Decoded → Meaning
  | .nan => .nan
  | .infinite negative => .infinite negative
  | .finite negative m e => .number (signed negative m * 2 ^ e)

/-! ### Numbers of a format -/

namespace BinaryFormat

variable {f : BinaryFormat}

/-- The exponent of the last place of the greatest numbers. -/
def greatestExponent (f : BinaryFormat) : Int := f.leastExponent + 2 ^ f.exponentBits - 3

/-- The numbers of a format. -/
def Holds (f : BinaryFormat) (q : ℚ) : Prop :=
  ∃ m e : Int, m.natAbs < 2 ^ (f.fractionBits + 1) ∧ f.leastExponent ≤ e ∧
    e ≤ f.greatestExponent ∧ q = m * 2 ^ e

lemma natAbs_signed (negative : Bool) (m : Nat) : (signed negative m).natAbs = m := by
  cases negative
  · exact Int.natAbs_natCast m
  · exact (Int.natAbs_neg m).trans (Int.natAbs_natCast m)

lemma exists_signed (m : Int) : ∃ negative k, m = signed negative k := by
  rcases Int.natAbs_eq m with h | h
  · exact ⟨false, _, h⟩
  · exact ⟨true, _, h⟩

lemma signed_mul {x y : ℚ} {m n : Nat} (negative : Bool) (h : (m : ℚ) * x = n * y) :
    (signed negative m : ℚ) * x = signed negative n * y := by
  cases negative <;> simpa [signed] using h

/-- Bits that denote a number denote one of the format. -/
lemma holds_of_bits (hf : 2 ≤ f.exponentBits) {bits : Nat} {q : ℚ}
    (h : (Decoded.ofBits f bits).meaning = .number q) : f.Holds q := by
  have hrange : 2 ^ 2 ≤ 2 ^ f.exponentBits := Nat.pow_le_pow_right (by decide) hf
  have hcast : ((2 ^ f.exponentBits : Nat) : Int) = 2 ^ f.exponentBits := Int.natCast_pow 2 _
  have hfraction := Nat.mod_lt bits (Nat.two_pow_pos f.fractionBits)
  have hbiased := Nat.mod_lt (bits / 2 ^ f.fractionBits) (Nat.two_pow_pos f.exponentBits)
  have hdouble : 2 ^ (f.fractionBits + 1) = 2 ^ f.fractionBits * 2 := Nat.pow_succ ..
  unfold Decoded.ofBits at h
  simp only [] at h
  unfold Holds greatestExponent
  split_ifs at h with hfull _ hzero
  · cases h
  · cases h
  · -- without a biased exponent the fraction is the mantissa
    obtain rfl := Meaning.number.inj h
    refine ⟨_, _, ?_, Int.le_refl _, ?_, rfl⟩
    · rw [natAbs_signed]
      omega
    · omega
  · -- with one the mantissa has a first bit that is not stored
    obtain rfl := Meaning.number.inj h
    refine ⟨_, _, ?_, ?_, ?_, rfl⟩
    · rw [natAbs_signed]
      omega
    · omega
    · omega

/-- A mantissa can be doubled until it is long enough or its exponent is the least one. -/
lemma exists_normal {m : Nat} {e : Int} (hm : m < 2 ^ (f.fractionBits + 1))
    (he : f.leastExponent ≤ e) :
    ∃ (m' : Nat) (e' : Int), m' < 2 ^ (f.fractionBits + 1) ∧ f.leastExponent ≤ e' ∧ e' ≤ e ∧
      (2 ^ f.fractionBits ≤ m' ∨ e' = f.leastExponent) ∧ (m : ℚ) * 2 ^ e = m' * 2 ^ e' := by
  -- by induction on the distance to the least exponent
  obtain ⟨k, hk⟩ := Int.eq_ofNat_of_zero_le (Int.sub_nonneg_of_le he)
  induction k generalizing m e with
  | zero => exact ⟨m, e, hm, he, Int.le_refl _, Or.inr (by omega), rfl⟩
  | succ k ih =>
    by_cases hlong : 2 ^ f.fractionBits ≤ m
    · exact ⟨m, e, hm, he, Int.le_refl _, Or.inl hlong, rfl⟩
    · have hdouble : 2 ^ (f.fractionBits + 1) = 2 ^ f.fractionBits * 2 := Nat.pow_succ ..
      obtain ⟨m', e', hm', hleast, hle, hnormal, hvalue⟩ :=
        ih (m := 2 * m) (e := e - 1) (by omega) (by omega) (by omega)
      refine ⟨m', e', hm', hleast, by omega, hnormal, ?_⟩
      rw [← hvalue, zpow_sub_one₀ (by decide)]
      push_cast
      ring

/-- The bits of a sign, a biased exponent and a fraction. -/
def encode (f : BinaryFormat) (negative : Bool) (biased fraction : Nat) : Nat :=
  (negative.toNat * 2 ^ f.exponentBits + biased) * 2 ^ f.fractionBits + fraction

section Encode

variable (negative : Bool) {biased fraction : Nat}

lemma encode_mod (hfraction : fraction < 2 ^ f.fractionBits) :
    f.encode negative biased fraction % 2 ^ f.fractionBits = fraction := by
  rw [encode, Nat.mul_add_mod_self_right, Nat.mod_eq_of_lt hfraction]

lemma encode_div (hfraction : fraction < 2 ^ f.fractionBits) :
    f.encode negative biased fraction / 2 ^ f.fractionBits =
      negative.toNat * 2 ^ f.exponentBits + biased := by
  rw [encode, Nat.mul_comm, Nat.mul_add_div (Nat.two_pow_pos _), Nat.div_eq_of_lt hfraction,
    Nat.add_zero]

lemma encode_biased (hfraction : fraction < 2 ^ f.fractionBits)
    (hbiased : biased < 2 ^ f.exponentBits) :
    f.encode negative biased fraction / 2 ^ f.fractionBits % 2 ^ f.exponentBits = biased := by
  rw [encode_div negative hfraction, Nat.mul_add_mod_self_right, Nat.mod_eq_of_lt hbiased]

lemma encode_sign (hfraction : fraction < 2 ^ f.fractionBits)
    (hbiased : biased < 2 ^ f.exponentBits) :
    f.encode negative biased fraction / 2 ^ (f.fractionBits + f.exponentBits) =
      negative.toNat := by
  rw [Nat.pow_add, ← Nat.div_div_eq_div_mul, encode_div negative hfraction, Nat.mul_comm,
    Nat.mul_add_div (Nat.two_pow_pos _), Nat.div_eq_of_lt hbiased, Nat.add_zero]

lemma encode_lt (hfraction : fraction < 2 ^ f.fractionBits)
    (hbiased : biased < 2 ^ f.exponentBits) :
    f.encode negative biased fraction < 2 ^ (f.fractionBits + f.exponentBits + 1) := by
  have hsign := encode_sign negative hfraction hbiased
  have hnegative : negative.toNat < 2 := negative.toNat_lt
  rw [Nat.pow_succ, Nat.mul_comm]
  exact (Nat.div_lt_iff_lt_mul (Nat.two_pow_pos _)).mp (hsign ▸ hnegative)

end Encode

lemma ofBits_encode (negative : Bool) {biased fraction : Nat}
    (hfraction : fraction < 2 ^ f.fractionBits) (hbiased : biased < 2 ^ f.exponentBits - 1) :
    Decoded.ofBits f (f.encode negative biased fraction) =
      if biased = 0 then .finite negative fraction f.leastExponent
      else .finite negative (fraction + 2 ^ f.fractionBits) (biased - 1 + f.leastExponent) := by
  have hbiased' : biased < 2 ^ f.exponentBits := by omega
  have hsign : decide (negative.toNat % 2 = 1) = negative := by cases negative <;> rfl
  unfold Decoded.ofBits
  simp only [encode_mod negative hfraction, encode_biased negative hfraction hbiased',
    encode_sign negative hfraction hbiased', hsign]
  rw [if_neg (by omega)]

/-- Every number of the format is denoted by some bits. -/
lemma exists_bits {q : ℚ} (hf : 2 ≤ f.exponentBits) (hq : f.Holds q) :
    ∃ bits, bits < 2 ^ (f.fractionBits + f.exponentBits + 1) ∧
      bits / 2 ^ f.fractionBits % 2 ^ f.exponentBits ≠ 2 ^ f.exponentBits - 1 ∧
      (Decoded.ofBits f bits).meaning = .number q := by
  obtain ⟨m, e, hm, hleast, hgreatest, rfl⟩ := hq
  obtain ⟨negative, m, rfl⟩ := exists_signed m
  rw [natAbs_signed] at hm
  obtain ⟨m', e', hm', hleast', hle, hnormal, hvalue⟩ := exists_normal hm hleast
  have hrange : 2 ^ 2 ≤ 2 ^ f.exponentBits := Nat.pow_le_pow_right (by decide) hf
  have hcast : ((2 ^ f.exponentBits : Nat) : Int) = 2 ^ f.exponentBits := Int.natCast_pow 2 _
  have hdouble : 2 ^ (f.fractionBits + 1) = 2 ^ f.fractionBits * 2 := Nat.pow_succ ..
  have hwritten : ∃ biased fraction, fraction < 2 ^ f.fractionBits ∧
      biased < 2 ^ f.exponentBits - 1 ∧
      Decoded.ofBits f (f.encode negative biased fraction) = .finite negative m' e' := by
    by_cases hlong : 2 ^ f.fractionBits ≤ m'
    · -- the first bit is dropped
      unfold greatestExponent at hgreatest
      have hfraction : m' - 2 ^ f.fractionBits < 2 ^ f.fractionBits := by omega
      have hbiased : (e' - f.leastExponent).toNat + 1 < 2 ^ f.exponentBits - 1 := by omega
      refine ⟨_, _, hfraction, hbiased, ?_⟩
      rw [ofBits_encode negative hfraction hbiased, if_neg (by omega), Nat.sub_add_cancel hlong]
      congr 1
      omega
    · have hbiased : 0 < 2 ^ f.exponentBits - 1 := by omega
      obtain rfl : e' = f.leastExponent := hnormal.resolve_left hlong
      refine ⟨0, m', by omega, hbiased, ?_⟩
      rw [ofBits_encode negative (by omega) hbiased, if_pos rfl]
  obtain ⟨biased, fraction, hfraction, hbiased, hbits⟩ := hwritten
  refine ⟨f.encode negative biased fraction, encode_lt negative hfraction (by omega), ?_, ?_⟩
  · rw [encode_biased negative hfraction (by omega)]
    omega
  · rw [hbits, signed_mul negative hvalue]
    rfl

lemma holds_int {x : Int} (hleast : f.leastExponent ≤ 0) (hgreatest : 0 ≤ f.greatestExponent)
    (hx : x.natAbs < 2 ^ (f.fractionBits + 1)) : f.Holds x :=
  ⟨x, 0, hx, hleast, hgreatest, by rw [zpow_zero, mul_one]⟩

/-- The first integer that the format skips. -/
lemma not_holds_odd : ¬ f.Holds ((2 ^ (f.fractionBits + 1) + 1 : Int) : ℚ) := by
  rintro ⟨m, e, hm, -, -, hq⟩
  have hcast : ((2 ^ (f.fractionBits + 1) : Nat) : Int) = 2 ^ (f.fractionBits + 1) :=
    Int.natCast_pow 2 _
  obtain ⟨k, rfl | rfl⟩ := Int.eq_nat_or_neg e
  · have hint : (2 ^ (f.fractionBits + 1) + 1 : Int) = m * 2 ^ k := by
      rw [zpow_natCast] at hq
      exact_mod_cast hq
    cases k with
    | zero => omega
    | succ k =>
      -- an even number is not one more than an even number
      rw [pow_succ, pow_succ, ← mul_assoc] at hint
      omega
  · have hint : (2 ^ (f.fractionBits + 1) + 1 : Int) * 2 ^ k = m := by
      rw [zpow_neg, zpow_natCast, eq_mul_inv_iff_mul_eq₀ (by positivity)] at hq
      exact_mod_cast hq
    have hlarge : (2 ^ (f.fractionBits + 1) + 1 : Int) ≤ m := by
      rw [← hint]
      exact le_mul_of_one_le_right (by positivity) (one_le_pow₀ (by decide))
    omega

lemma holds_double {q : ℚ} (h : single.Holds q) : double.Holds q := by
  obtain ⟨m, e, hm, hleast, hgreatest, rfl⟩ := h
  have hbounds : double.leastExponent ≤ single.leastExponent ∧
    single.greatestExponent ≤ double.greatestExponent := by decide
  exact ⟨m, e, Nat.lt_trans hm (by decide), by omega, by omega, rfl⟩

end BinaryFormat

/-! ### Elements -/

open Float.Model.UnpackedFloat (unpackExponent)
open Float.Model.Format (binary32 binary64)

lemma exists_float {u : UInt64} (h : u.toNat / 2 ^ 52 % 2 ^ 11 ≠ 2 ^ 11 - 1) :
    ∃ x : Float, x.toBits = u := by
  have hvalid : binary64.Valid u.toBitVec := by
    refine ⟨fun hfull => absurd ?_ h⟩
    simpa [unpackExponent, Nat.shiftRight_eq_div_pow] using congrArg BitVec.toNat hfull
  exact ⟨.ofModel ⟨u, hvalid⟩, rfl⟩

lemma exists_float32 {u : UInt32} (h : u.toNat / 2 ^ 23 % 2 ^ 8 ≠ 2 ^ 8 - 1) :
    ∃ x : Float32, x.toBits = u := by
  have hvalid : binary32.Valid u.toBitVec := by
    refine ⟨fun hfull => absurd ?_ h⟩
    simpa [unpackExponent, Nat.shiftRight_eq_div_pow] using congrArg BitVec.toNat hfull
  exact ⟨.ofModel ⟨u, hvalid⟩, rfl⟩

def Precision.format : Precision → BinaryFormat
  | .single => .single
  | .double => .double

namespace DType

def meaning : {d : DType} → d.Elem → Meaning
  | .int _, a => .number a.val
  | .float .single, x => (Decoded.ofFloat32 x).meaning
  | .float .double, x => (Decoded.ofFloat x).meaning

/-- The numbers that floats stand for are those of their format. -/
lemma denotes_number_iff (p : Precision) (q : ℚ) :
    (∃ x : (float p).Elem, meaning x = .number q) ↔ p.format.Holds q := by
  -- the bits that are found are those of a float, as they denote a number
  cases p with
  | single =>
    constructor
    · rintro ⟨x, hx⟩
      exact BinaryFormat.holds_of_bits (by decide) hx
    · intro hq
      obtain ⟨bits, hbits, hfinite, hdenotes⟩ := BinaryFormat.exists_bits (by decide) hq
      have hword : (UInt32.ofNat bits).toNat = bits := UInt32.toNat_ofNat_of_lt hbits
      obtain ⟨x, hx⟩ := exists_float32 (u := .ofNat bits) (by rw [hword]; exact hfinite)
      exact ⟨x, by rw [meaning, Decoded.ofFloat32, hx, hword]; exact hdenotes⟩
  | double =>
    constructor
    · rintro ⟨x, hx⟩
      exact BinaryFormat.holds_of_bits (by decide) hx
    · intro hq
      obtain ⟨bits, hbits, hfinite, hdenotes⟩ := BinaryFormat.exists_bits (by decide) hq
      have hword : (UInt64.ofNat bits).toNat = bits := UInt64.toNat_ofNat_of_lt hbits
      obtain ⟨x, hx⟩ := exists_float (u := .ofNat bits) (by rw [hword]; exact hfinite)
      exact ⟨x, by rw [meaning, Decoded.ofFloat, hx, hword]; exact hdenotes⟩

lemma denotes_infinite (p : Precision) (negative : Bool) :
    ∃ x : (float p).Elem, meaning x = .infinite negative := by
  cases p <;> cases negative
  · exact ⟨Float32.ofBits 0x7F800000, rfl⟩
  · exact ⟨Float32.ofBits 0xFF800000, rfl⟩
  · exact ⟨Float.ofBits 0x7FF0000000000000, rfl⟩
  · exact ⟨Float.ofBits 0xFFF0000000000000, rfl⟩

lemma denotes_nan (p : Precision) : ∃ x : (float p).Elem, meaning x = .nan := by
  cases p
  · exact ⟨Float32.ofBits 0x7FC00000, rfl⟩
  · exact ⟨Float.ofBits 0x7FF8000000000000, rfl⟩

end DType

end ArrayBench
