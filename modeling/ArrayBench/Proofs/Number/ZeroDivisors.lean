import Mathlib.Data.Nat.Log
import Mathlib.Tactic.SplitIfs
import ArrayBench.Scalar

/-!
Quotients of integers by zero, computed on floats.

Operations on floats unpack their operands, work on signs, mantissas and exponents, round, and pack
what they get. Integers other than zero are at least one in magnitude, and however they are rounded
on the way to a float they stay so and keep their sign. The quotient of such a float by zero is
infinite. The quotient of zero by zero is not a number.
-/

namespace ArrayBench

open Float.Model (UnpackedFloat totalExponent)
open Float.Model.Format (binary64)
open Float.Model.UnpackedFloat

/-- An unpacked number of sign `s` that has a mantissa of full width and is not below one in
magnitude, or the infinity of that sign. -/
inductive Large (s : Sign) : UnpackedFloat → Prop
  | infinity : Large s (.infinity s)
  | finite {m : Nat} {e : Int} (h : 0 < m) : m.log2 = 52 → -52 ≤ e → Large s (.finite s m e h)

namespace Large

/-! ### Lengths of mantissas -/

lemma log2_mul_two_pow {m : Nat} (hm : m ≠ 0) (k : Nat) : (m * 2 ^ k).log2 = m.log2 + k := by
  induction k with
  | zero => rw [Nat.pow_zero, Nat.mul_one, Nat.add_zero]
  | succ k ih =>
    have hne : m * 2 ^ k ≠ 0 := Nat.mul_ne_zero hm (Nat.ne_of_gt (Nat.two_pow_pos k))
    rw [Nat.log2_eq_log_two] at ih ⊢
    rw [Nat.pow_succ, ← Nat.mul_assoc, Nat.log_mul_base (by decide) hne, ih, Nat.add_assoc]

lemma log2_div_two_pow (m k : Nat) : (m / 2 ^ k).log2 = m.log2 - k := by
  rw [Nat.log2_eq_log_two, Nat.log2_eq_log_two, Nat.log_div_base_pow]

lemma log2_mono {m n : Nat} (h : m ≤ n) : m.log2 ≤ n.log2 := by
  rw [Nat.log2_eq_log_two, Nat.log2_eq_log_two]
  exact Nat.log_mono_right h

lemma ne_zero_of_le_log2 {m : Nat} (h : 52 ≤ m.log2) : m ≠ 0 := by
  rintro rfl
  simp at h

/-! ### Rounding -/

lemma mantissa_shiftRight (em : ExtendedMantissa) (n : Nat) :
    (em >>> n).mantissa = em.mantissa / 2 ^ n := by
  induction n with
  | zero => exact (Nat.div_one _).symm
  | succ n ih =>
    have hstep : (em >>> (n + 1)).mantissa = (em >>> n).mantissa / 2 := rfl
    rw [hstep, ih, Nat.div_div_eq_div_mul, Nat.pow_succ]

lemma mantissa_ofMantissaAndAccuracy (m : Nat) (acc : Accuracy) :
    (ExtendedMantissa.ofMantissaAndAccuracy m acc).mantissa = m := by
  unfold ExtendedMantissa.ofMantissaAndAccuracy
  split <;> rfl

lemma le_roundedMantissa (em : ExtendedMantissa) : em.mantissa ≤ em.roundedMantissa := by
  unfold ExtendedMantissa.roundedMantissa Accuracy.roundToNearestEven
  split <;> omega

/-- Numbers that are not below one are far from the least exponents. -/
lemma targetExponent_eq {m : Nat} {e : Int} (he : 0 ≤ e + m.log2) :
    binary64.targetExponent (totalExponent m e) = e + m.log2 - 52 := by
  have hwidth : (binary64.mantissaBits : Int) = 53 := rfl
  have hleast : binary64.minExponent = -1074 := rfl
  rw [Float.Model.Format.targetExponent, totalExponent, hwidth, hleast]
  omega

/-- A mantissa with enough bits is shifted to full width. -/
lemma shiftToTargetExponent_eq {m : Nat} {e : Int} (acc : Accuracy) (hm : 52 ≤ m.log2)
    (he : 0 ≤ e + m.log2) :
    (shiftToTargetExponent binary64 m e acc).1.mantissa.log2 = 52 ∧
      (shiftToTargetExponent binary64 m e acc).2 = e + m.log2 - 52 := by
  have hamount : (binary64.targetExponent (totalExponent m e) - e).toNat = m.log2 - 52 := by
    rw [targetExponent_eq he]
    omega
  unfold shiftToTargetExponent shiftToExponent
  simp only [hamount, mantissa_shiftRight, mantissa_ofMantissaAndAccuracy]
  rw [log2_div_two_pow]
  omega

lemma of_roundWithAccuracy {s : Sign} {m : Nat} {e : Int} (acc : Accuracy) (hm : 52 ≤ m.log2)
    (he : 0 ≤ e + m.log2) : Large s (roundWithAccuracy binary64 s m e acc) := by
  obtain ⟨hwidth₁, hexponent₁⟩ := shiftToTargetExponent_eq acc hm he
  unfold roundWithAccuracy
  generalize shiftToTargetExponent binary64 m e acc = p₁ at hwidth₁ hexponent₁ ⊢
  obtain ⟨em₁, e₁⟩ := p₁
  dsimp only at hwidth₁ hexponent₁ ⊢
  have hround : 52 ≤ em₁.roundedMantissa.log2 :=
    hwidth₁ ▸ log2_mono (le_roundedMantissa em₁)
  -- rounding may have made the mantissa longer by one bit
  obtain ⟨hwidth₂, hexponent₂⟩ := shiftToTargetExponent_eq (e := e₁) .exact hround (by omega)
  generalize shiftToTargetExponent binary64 em₁.roundedMantissa e₁ .exact = p₂
    at hwidth₂ hexponent₂ ⊢
  obtain ⟨em₂, e₂⟩ := p₂
  dsimp only at hwidth₂ hexponent₂ ⊢
  have hpos₂ : em₂.mantissa ≠ 0 := ne_zero_of_le_log2 (by omega)
  rw [dif_neg hpos₂]
  exact .finite _ hwidth₂ (by omega)

lemma of_round (s : Sign) {m : Nat} {e : Int} (hm : m ≠ 0) (he : 0 ≤ e + m.log2) :
    Large s (UnpackedFloat.round binary64 s m e) := by
  unfold UnpackedFloat.round decreaseExponent
  dsimp only
  rw [targetExponent_eq he, Nat.shiftLeft_eq]
  have hlog := log2_mul_two_pow hm (e - (e + m.log2 - 52)).toNat
  refine of_roundWithAccuracy .exact ?_ ?_ <;> rw [hlog] <;> omega

/-! ### Operations -/

lemma mul_one {s : Sign} {x : UnpackedFloat} (h : Large s x) :
    Large s (mul binary64 x (.finite .positive (2 ^ (52 : Nat)) (-52) (by decide))) := by
  have hs : s * .positive = s := by cases s <;> rfl
  cases h with
  | infinity =>
    change Large s (.infinity (s * .positive))
    rw [hs]
    exact .infinity
  | @finite m e hpos hwidth hexponent =>
    have hlog := log2_mul_two_pow (Nat.ne_of_gt hpos) 52
    change Large s
      (roundWithAccuracy binary64 (s * .positive) (m * 2 ^ (52 : Nat)) (e + -52) .exact)
    rw [hs]
    refine of_roundWithAccuracy .exact ?_ ?_ <;> rw [hlog] <;> omega

lemma neg {s : Sign} {x : UnpackedFloat} (h : Large s x) : Large (-s) x.neg := by
  cases h with
  | infinity => exact .infinity
  | finite hpos hwidth hexponent => exact .finite hpos hwidth hexponent

lemma div_zero {s : Sign} {x : UnpackedFloat} (h : Large s x) :
    div binary64 x (.zero .positive) = .infinity s := by
  have hs : s / .positive = s := by cases s <;> rfl
  cases h with
  | infinity => exact congrArg UnpackedFloat.infinity hs
  | finite => exact congrArg UnpackedFloat.infinity hs

/-! ### Packing -/

lemma unpack_packedInfinity (s : Sign) :
    unpack binary64 (packedInfinity binary64 s) = .infinity s := by
  cases s <;> rfl

lemma sign_packComponents (s : Sign) (e : BitVec binary64.exponentBits)
    (m : BitVec binary64.mantissaBitsWithoutImplicit) :
    Sign.ofBitVec (unpackSign (packComponents binary64 s e m)) = s := by
  have htop : (s.toBitVec ++ e ++ m).extractLsb' 63 1 = s.toBitVec := by
    rw [BitVec.extractLsb'_append_eq_of_le (by decide),
      BitVec.extractLsb'_append_eq_of_le (by decide)]
    exact BitVec.extractLsb'_eq_self
  have hfield : unpackSign (packComponents binary64 s e m) = s.toBitVec := htop
  rw [hfield]
  cases s <;> rfl

/-- The bias brings the last place of a mantissa of full width to `2 ^ -1075`. -/
lemma pack_finite (s : Sign) {m : Nat} (e : Int) (hpos : 0 < m)
    (hbits : m.log2 + 1 = binary64.mantissaBits) :
    pack binary64 (.finite s m e hpos) =
      if 2048 ≤ (e + 1075).toNat + 1 then packedInfinity binary64 s
      else packComponents binary64 s (BitVec.ofNat binary64.exponentBits (e + 1075).toNat)
        (BitVec.ofNat binary64.mantissaBitsWithoutImplicit m) := by
  have hbias : e + binary64.exponentBias + binary64.mantissaBitsWithoutImplicit = e + 1075 := by
    rw [Int.add_assoc]
    rfl
  have hcases : pack binary64 (.finite s m e hpos) =
      if 2048 ≤ (e + binary64.exponentBias + binary64.mantissaBitsWithoutImplicit).toNat + 1 then
        packedInfinity binary64 s
      else if m.log2 + 1 = binary64.mantissaBits then
        packComponents binary64 s (BitVec.ofNat binary64.exponentBits
          (e + binary64.exponentBias + binary64.mantissaBitsWithoutImplicit).toNat)
          (BitVec.ofNat binary64.mantissaBitsWithoutImplicit m)
      else packComponents binary64 s 0#_ (BitVec.ofNat binary64.mantissaBitsWithoutImplicit m) :=
    rfl
  rw [hcases, hbias, if_pos hbits]

lemma log2_append (m : BitVec binary64.mantissaBitsWithoutImplicit) :
    (1#1 ++ m).toNat.log2 = 52 := by
  rw [BitVec.toNat_append, ← Nat.shiftLeft_add_eq_or_of_lt m.isLt]
  refine (Nat.log2_eq_iff (by simp)).mpr ⟨Nat.le_add_right _ _, ?_⟩
  exact Nat.add_lt_add_left m.isLt _

lemma append_pos (m : BitVec binary64.mantissaBitsWithoutImplicit) : 0 < (1#1 ++ m).toNat :=
  Nat.pos_of_ne_zero (ne_zero_of_le_log2 (Nat.le_of_eq (log2_append m).symm))

/-- Numbers of full width are unpacked from all exponents but two. -/
lemma unpack_eq_finite {b : BitVec binary64.numBits} (hfull : unpackExponent b ≠ -1#_)
    (hzero : unpackExponent b ≠ 0#_) :
    unpack binary64 b = .finite (Sign.ofBitVec (unpackSign b)) (1#1 ++ unpackMantissa b).toNat
      ((unpackExponent b).toNat - (binary64.exponentBias + binary64.mantissaBitsWithoutImplicit))
      (append_pos (unpackMantissa b)) := by
  unfold unpack
  rw [if_neg hfull, if_neg hzero]

/-- Packing keeps a number, unless it overflows to the infinity of its sign. -/
lemma unpack_pack {s : Sign} {x : UnpackedFloat} (h : Large s x) :
    Large s (unpack binary64 (pack binary64 x)) := by
  cases h with
  | infinity =>
    have hpack : pack binary64 (.infinity s) = packedInfinity binary64 s := rfl
    rw [hpack, unpack_packedInfinity]
    exact .infinity
  | @finite m e hpos hwidth hexponent =>
    rw [pack_finite s e hpos (by rw [hwidth]; rfl)]
    split_ifs with hover
    · rw [unpack_packedInfinity]
      exact .infinity
    · have hfits : (e + 1075).toNat < 2047 := by omega
      generalize BitVec.ofNat binary64.mantissaBitsWithoutImplicit m = fraction
      have hstored : (BitVec.ofNat 11 (e + 1075).toNat).toNat = (e + 1075).toNat := by
        rw [BitVec.toNat_ofNat, Nat.mod_eq_of_lt (by omega)]
      have hexponent' : unpackExponent (packComponents binary64 s
          (BitVec.ofNat binary64.exponentBits (e + 1075).toNat) fraction) = _ :=
        unpackExponent_packComponents
      -- the stored exponent is none of the two that are set apart
      have hfull : BitVec.ofNat binary64.exponentBits (e + 1075).toNat ≠ -1#_ := by
        intro h
        have htop : (e + 1075).toNat = 2047 := hstored.symm.trans (congrArg BitVec.toNat h)
        omega
      have hzero : BitVec.ofNat binary64.exponentBits (e + 1075).toNat ≠ 0#_ := by
        intro h
        have hbottom : (e + 1075).toNat = 0 := hstored.symm.trans (congrArg BitVec.toNat h)
        omega
      rw [unpack_eq_finite (fun h => hfull (hexponent'.symm.trans h))
        fun h => hzero (hexponent'.symm.trans h), sign_packComponents]
      refine .finite _ (log2_append _) ?_
      have hbias : (binary64.exponentBias : Int) + binary64.mantissaBitsWithoutImplicit = 1075 :=
        rfl
      rw [hexponent', hbias, hstored]
      omega

lemma of_pack {s : Sign} {x : UnpackedFloat} (h : Large s x) :
    Large s (Float.ofModel (.pack x)).toModel.unpack := unpack_pack h

/-! ### Integers -/

lemma of_word {n : UInt64} (h : n.toNat ≠ 0) : Large .positive n.toFloat.toModel.unpack := by
  have hcompare : compare (n.toNat : Int) 0 = .gt := by
    rw [Int.compare_eq_gt]
    omega
  refine of_pack ?_
  rw [ofUInt64, ofNat, ofInt, UnpackedFloat.normalize, hcompare]
  exact of_round .positive (by simpa using h) (by simp)

lemma of_nat {n : Nat} (h : n ≠ 0) : Large .positive (Float.ofNat n).toModel.unpack := by
  by_cases hsmall : n < 2 ^ 53
  · -- a word times one
    have hfast : Float.ofNat n = n.toUInt64.toFloat * Float.ofBits 0x3FF0000000000000 :=
      dif_pos ⟨hsmall, by decide⟩
    have hone : (Float.ofBits 0x3FF0000000000000).toModel.unpack =
        .finite .positive (2 ^ (52 : Nat)) (-52) (by decide) := rfl
    have hsize : 2 ^ 53 < UInt64.size := by decide
    have hword : n.toUInt64.toNat = n := UInt64.toNat_ofNat_of_lt (by omega)
    have hproduct := (of_word (n := n.toUInt64) (by rwa [hword])).mul_one
    rw [← hone] at hproduct
    rw [hfast]
    exact of_pack hproduct
  · -- a mantissa with as many bits as it takes, rounded
    have hslow : Float.ofNat n = .ofModel (.pack (ofScientific binary64 n 0)) :=
      dif_neg fun h => hsmall h.1
    have hrange : (2 : Int) ^ binary64.exponentBits = 2048 := rfl
    have hproduct : ofScientific binary64 n 0 =
        roundWithAccuracy binary64 .positive (n <<< 53 * 1) (-53) .exact := by
      rw [ofScientific, dif_neg h, if_neg (by decide), if_neg (by rw [hrange]; omega),
        if_pos (by decide)]
      rfl
    have hlog := log2_mul_two_pow h 53
    rw [← Nat.shiftLeft_eq] at hlog
    rw [hslow, hproduct, Nat.mul_one]
    refine of_pack (of_roundWithAccuracy .exact ?_ ?_) <;> rw [hlog] <;> omega

lemma of_int_pos {x : Int} (h : 0 < x) : Large .positive (Float.ofInt x).toModel.unpack := by
  obtain ⟨n, rfl⟩ := Int.eq_ofNat_of_zero_le (Int.le_of_lt h)
  exact of_nat (by omega)

lemma of_int_neg {x : Int} (h : x < 0) : Large .negative (Float.ofInt x).toModel.unpack := by
  obtain ⟨n, rfl⟩ := Int.eq_negSucc_of_lt_zero h
  exact of_pack (of_nat (Nat.succ_ne_zero n)).neg

end Large

def Decoded.overZero (x : Int) : Decoded := if x = 0 then .nan else .infinite (x < 0)

lemma Decoded.ofFloat_div_zero (x : Int) :
    ofFloat (Float.ofInt x / Float.ofInt 0) = overZero x := by
  have hquotient : ∀ a : Float, a / Float.ofInt 0 =
    .ofModel (.pack (div binary64 a.toModel.unpack (.zero .positive))) := fun _ => rfl
  rcases Int.lt_trichotomy x 0 with hneg | rfl | hpos
  · rw [hquotient, (Large.of_int_neg hneg).div_zero, overZero, if_neg (by omega),
      decide_eq_true hneg]
    rfl
  · rfl
  · rw [hquotient, (Large.of_int_pos hpos).div_zero, overZero, if_neg (by omega),
      decide_eq_false (by omega)]
    rfl

end ArrayBench
