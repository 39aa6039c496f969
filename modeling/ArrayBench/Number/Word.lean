import ArrayBench.Number.IntType

/-!
Values of an integer format and their arithmetic.

Sums, differences, products, quotients and powers wrap. A quotient by zero is zero, and so is a
power whose exponent is negative or does not fit 32 bits.
-/

namespace ArrayBench

/-- A value of the integer format `t`. -/
structure Word (t : IntType) where
  val : Int
  lo_le : t.lo ≤ val
  le_hi : val ≤ t.hi

namespace Word

variable {t : IntType}

@[ext] theorem ext {a b : Word t} (h : a.val = b.val) : a = b := by
  cases a
  cases b
  cases h
  rfl

instance : DecidableEq (Word t) := fun _ _ => decidable_of_iff _ ⟨ext, congrArg val⟩

def ofInt (x : Int) : Word t := ⟨t.wrap x, t.lo_le_wrap x, t.wrap_le_hi x⟩

def saturate (x : Int) : Word t := ⟨t.clamp x, t.lo_le_clamp x, t.clamp_le_hi x⟩

@[simp] theorem val_ofInt (x : Int) : (ofInt x : Word t).val = t.wrap x := rfl

@[simp] theorem ofInt_val (a : Word t) : ofInt a.val = a :=
  ext (IntType.wrap_eq_self a.lo_le a.le_hi)

instance (n : Nat) : OfNat (Word t) n := ⟨ofInt n⟩

instance : Inhabited (Word t) := ⟨0⟩

instance : Add (Word t) := ⟨fun a b => ofInt (a.val + b.val)⟩

instance : Sub (Word t) := ⟨fun a b => ofInt (a.val - b.val)⟩

instance : Mul (Word t) := ⟨fun a b => ofInt (a.val * b.val)⟩

theorem val_add (a b : Word t) : (a + b).val = t.wrap (a.val + b.val) := rfl

theorem val_sub (a b : Word t) : (a - b).val = t.wrap (a.val - b.val) := rfl

theorem val_mul (a b : Word t) : (a * b).val = t.wrap (a.val * b.val) := rfl

def div (a b : Word t) : Word t :=
  if b.val = 0 then 0 else ofInt (a.val.tdiv b.val)

/-- The quotient rounded toward minus infinity: one less than the quotient rounded toward zero
where that one was rounded up. -/
def floorDiv (a b : Word t) : Word t :=
  if b.val = 0 then 0
  else
    let q := ofInt (a.val.tdiv b.val)
    if a.val.tmod b.val ≠ 0 ∧ (a.val < 0) ≠ (b.val < 0) then q - 1 else q

/-- `b` raised to the exponent held in the lowest `n` bits of `e`, by repeated squaring until no
bit is left. -/
def powBits : Nat → Word t → Nat → Word t
  | 0, _, _ => 1
  | n + 1, b, e =>
    if e = 0 then 1
    else if e % 2 = 1 then b * powBits n (b * b) (e / 2)
    else powBits n (b * b) (e / 2)

/-- The wrapped power. An exponent that is negative or does not fit 32 bits gives zero. -/
def pow (b e : Word t) : Word t :=
  if 0 ≤ e.val ∧ e.val < 2 ^ (32 : Nat) then powBits 32 b e.val.toNat else 0

def abs (a : Word t) : Word t := ofInt a.val.natAbs

end Word

end ArrayBench
