import ArrayBench.Proofs.Number.Meaning
import ArrayBench.Proofs.Number.Exact

/-!
Which casts lose nothing.

The table of casts goes by kinds and widths, and what it is meant to say is that every value of one
type is a value of the other. It says just that, but for the integers of 64 bits: they are let into
`float64`, where a mantissa of 53 bits skips some of them. Between integers a value that may be cast
comes back unchanged.
-/

namespace ArrayBench

namespace DType

def Embeds (a b : DType) : Prop := ∀ x : a.Elem, ∃ y : b.Elem, meaning y = meaning x

lemma embeds_self (a : DType) : a.Embeds a := fun x => ⟨x, rfl⟩

/-- The casts that are allowed although they may round. -/
def Rounds (a b : DType) : Prop := (a = int64 ∨ a = uint64) ∧ b = float64

instance (a b : DType) : Decidable (Rounds a b) := inferInstanceAs (Decidable (_ ∧ _))

/-! ### Integers -/

lemma denotes_int_iff (t : IntType) (n : Int) :
    (∃ y : (int t).Elem, meaning y = .number n) ↔ t.Contains n := by
  constructor
  · rintro ⟨y, hy⟩
    obtain rfl : y.val = n := Int.cast_injective (Meaning.number.inj hy)
    exact ⟨y.lo_le, y.le_hi⟩
  · intro h
    exact ⟨⟨n, h.1, h.2⟩, rfl⟩

lemma int_embeds_iff (s : IntType) (d : DType) :
    (int s).Embeds d ↔ ∀ n, s.Contains n → ∃ y : d.Elem, meaning y = .number n := by
  constructor
  · intro h n hn
    exact h ⟨n, hn.1, hn.2⟩
  · intro h x
    exact h x.val ⟨x.lo_le, x.le_hi⟩

lemma int_embeds_int_iff (s t : IntType) :
    (int s).Embeds (int t) ↔ t.lo ≤ s.lo ∧ s.hi ≤ t.hi := by
  refine (int_embeds_iff s (int t)).trans ?_
  refine (forall₂_congr fun n _ => denotes_int_iff t n).trans ⟨fun h => ?_, ?_⟩
  · exact ⟨(h s.lo ⟨Int.le_refl _, s.lo_le_hi⟩).1, (h s.hi ⟨s.lo_le_hi, Int.le_refl _⟩).2⟩
  · rintro ⟨hlo, hhi⟩ n ⟨hn, hn'⟩
    exact ⟨Int.le_trans hlo hn, Int.le_trans hn' hhi⟩

lemma castsTo_int_iff (s t : IntType) :
    (int s).castsTo (int t) = true ↔ t.lo ≤ s.lo ∧ s.hi ≤ t.hi := by
  rcases s with ⟨_ | _, _ | _ | _ | _⟩ <;> rcases t with ⟨_ | _, _ | _ | _ | _⟩ <;> decide

/-- A value that fits is its own residue. -/
lemma val_convert {s t : IntType} (h : (int s).castsTo (int t) = true) (x : Word s) :
    (Word.ofInt x.val : Word t).val = x.val := by
  obtain ⟨hlo, hhi⟩ := (castsTo_int_iff s t).mp h
  exact IntType.wrap_eq_self (Int.le_trans hlo x.lo_le) (Int.le_trans x.le_hi hhi)

/-! ### Integers as floats -/

lemma natAbs_lt_of_contains {s : IntType} {n : Int} (h : s.Contains n) :
    n.natAbs < 2 ^ s.bits := by
  obtain ⟨hlo, hhi⟩ := h
  have hpos : 1 ≤ s.bits := s.width.bits_pos
  have hhalf : 2 ^ s.bits = 2 ^ (s.bits - 1) * 2 := by
    rw [← Nat.pow_succ, Nat.succ_eq_add_one, Nat.sub_add_cancel hpos]
  have hcast : ((2 ^ s.bits : Nat) : Int) = 2 ^ s.bits := Int.natCast_pow 2 _
  have hcast' : ((2 ^ (s.bits - 1) : Nat) : Int) = 2 ^ (s.bits - 1) := Int.natCast_pow 2 _
  rw [IntType.hi, IntType.modulus_eq] at hhi
  rw [IntType.lo_eq] at hlo hhi
  split_ifs at hlo hhi <;> omega

/-- An integer type has to fit the mantissa: wider ones have a value that is skipped. -/
lemma int_embeds_float_iff (s : IntType) (p : Precision) :
    (int s).Embeds (float p) ↔ s.bits ≤ p.format.fractionBits + 1 := by
  simp only [int_embeds_iff, denotes_number_iff]
  constructor
  · intro h
    by_contra hwide
    have hskipped : s.Contains (2 ^ (p.format.fractionBits + 1) + 1) := by
      rcases s with ⟨_ | _, _ | _ | _ | _⟩ <;> cases p <;> revert hwide <;> decide
    exact BinaryFormat.not_holds_odd (h _ hskipped)
  · intro hbits n hn
    have hle : 2 ^ s.bits ≤ 2 ^ (p.format.fractionBits + 1) :=
      Nat.pow_le_pow_right (by decide) hbits
    refine BinaryFormat.holds_int ?_ ?_ (Nat.lt_of_lt_of_le (natAbs_lt_of_contains hn) hle)
    · cases p <;> decide
    · cases p <;> decide

lemma castsTo_float_iff {s : IntType} {p : Precision} (h : ¬ Rounds (int s) (float p)) :
    (int s).castsTo (float p) = true ↔ s.bits ≤ p.format.fractionBits + 1 := by
  rcases s with ⟨_ | _, _ | _ | _ | _⟩ <;> cases p <;> revert h <;> decide

/-! ### Floats -/

lemma not_float_embeds_int (p : Precision) (t : IntType) : ¬ (float p).Embeds (int t) := by
  intro h
  obtain ⟨x, hx⟩ := denotes_infinite p false
  obtain ⟨y, hy⟩ := h x
  rw [hx] at hy
  cases hy

lemma single_embeds_double : float32.Embeds float64 := by
  intro x
  cases hx : meaning x with
  | nan => exact denotes_nan .double
  | infinite negative => exact denotes_infinite .double negative
  | number q =>
    have hq := (denotes_number_iff .single q).mp ⟨x, hx⟩
    exact (denotes_number_iff .double q).mpr (BinaryFormat.holds_double hq)

lemma not_double_embeds_single : ¬ float64.Embeds float32 := by
  intro h
  have hskipped := BinaryFormat.holds_int (f := .double)
    (x := 2 ^ (BinaryFormat.single.fractionBits + 1) + 1) (by decide) (by decide) (by decide)
  obtain ⟨x, hx⟩ := (denotes_number_iff .double _).mpr hskipped
  obtain ⟨y, hy⟩ := h x
  exact BinaryFormat.not_holds_odd ((denotes_number_iff .single _).mp ⟨y, hy.trans hx⟩)

/-! ### The table -/

lemma castsTo_iff_embeds {a b : DType} (h : ¬ Rounds a b) :
    a.castsTo b = true ↔ a.Embeds b := by
  rcases a with s | p <;> rcases b with t | q
  · rw [castsTo_int_iff, int_embeds_int_iff]
  · rw [castsTo_float_iff h, int_embeds_float_iff]
  · exact iff_of_false Bool.false_ne_true (not_float_embeds_int p t)
  · cases p <;> cases q
    · exact iff_of_true rfl (embeds_self _)
    · exact iff_of_true rfl single_embeds_double
    · exact iff_of_false (by decide) not_double_embeds_single
    · exact iff_of_true rfl (embeds_self _)

lemma exists_skipped {a b : DType} (h : ¬ a.Embeds b) :
    ∃ x : a.Elem, ∀ y : b.Elem, meaning y ≠ meaning x := by
  obtain ⟨x, hx⟩ := not_forall.mp h
  exact ⟨x, not_exists.mp hx⟩

structure CastsByValue (a b : DType) : Prop where
  exact : ¬ Rounds a b → (a.castsTo b = true ↔ a.Embeds b)
  rounds : Rounds a b →
    a.castsTo b = true ∧ ∃ x : a.Elem, ∀ y : b.Elem, meaning y ≠ meaning x
  /-- An integer is the same in both types, -/
  kept : a.isInteger = true → b.isInteger = true → a.castsTo b = true → ∀ x : a.Elem,
    meaning ((Scalar.mk a x).convert b) = meaning x
  /-- and comes back from there. -/
  roundTrip : a.isInteger = true → b.isInteger = true → a.castsTo b = true → ∀ x : a.Elem,
    (Scalar.mk b ((Scalar.mk a x).convert b)).convert a = x

/-- **Safe casts**: the table allows a cast exactly if every value of the one type is a value of the
other. The only exceptions are the casts from integers of 64 bits to `float64`, which it allows
although not every value is kept. -/
theorem casts_by_value (a b : DType) : a.CastsByValue b where
  exact := castsTo_iff_embeds
  rounds := by
    rintro ⟨rfl | rfl, rfl⟩
    · exact ⟨rfl, exists_skipped fun h => absurd ((int_embeds_float_iff _ _).mp h) (by decide)⟩
    · exact ⟨rfl, exists_skipped fun h => absurd ((int_embeds_float_iff _ _).mp h) (by decide)⟩
  kept ha hb h x := by
    rcases a with s | p
    · rcases b with t | q
      · exact congrArg (fun n : Int => Meaning.number n) (val_convert h x)
      · cases hb
    · cases ha
  roundTrip ha hb h x := by
    rcases a with s | p
    · rcases b with t | q
      · change Word.ofInt (Word.ofInt x.val : Word t).val = x
        rw [val_convert h x, Word.ofInt_val]
      · cases hb
    · cases ha

end DType

end ArrayBench
