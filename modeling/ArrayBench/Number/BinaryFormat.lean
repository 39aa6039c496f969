import ArrayBench.Number.Arithmetic

/-!
Binary interchange formats.

The bits of a float are a sign, a biased exponent and a fraction. Decoded they are a number
`± mantissa · 2 ^ exponent`, an infinity, or no number at all, and everything exact about floats
(truncation, decimal text) starts from that.
-/

namespace ArrayBench

structure BinaryFormat where
  fractionBits : Nat
  exponentBits : Nat
deriving DecidableEq, Repr

namespace BinaryFormat

def single : BinaryFormat := ⟨23, 8⟩

def double : BinaryFormat := ⟨52, 11⟩

def bias (f : BinaryFormat) : Int := 2 ^ (f.exponentBits - 1) - 1

def leastExponent (f : BinaryFormat) : Int := 1 - f.bias - f.fractionBits

end BinaryFormat

/-- What the bits of a float denote. -/
inductive Decoded where
  | nan
  | infinite (negative : Bool)
  | finite (negative : Bool) (mantissa : Nat) (exponent : Int)
deriving DecidableEq, Repr

namespace Decoded

def ofBits (f : BinaryFormat) (bits : Nat) : Decoded :=
  let fraction := bits % 2 ^ f.fractionBits
  let biased := bits / 2 ^ f.fractionBits % 2 ^ f.exponentBits
  let negative := bits / 2 ^ (f.fractionBits + f.exponentBits) % 2 = 1
  if biased = 2 ^ f.exponentBits - 1 then
    if fraction = 0 then .infinite negative else .nan
  else if biased = 0 then
    .finite negative fraction f.leastExponent
  else
    .finite negative (fraction + 2 ^ f.fractionBits) (biased - 1 + f.leastExponent)

def ofFloat (x : Float) : Decoded := ofBits .double x.toBits.toNat

def ofFloat32 (x : Float32) : Decoded := ofBits .single x.toBits.toNat

/-- `mantissa · 2 ^ exponent` as a quotient. -/
def ratio (mantissa : Nat) (exponent : Int) : Nat × Nat :=
  (mantissa * 2 ^ exponent.toNat, 2 ^ (-exponent).toNat)

def truncate (mantissa : Nat) (exponent : Int) : Nat :=
  let (num, den) := ratio mantissa exponent
  num / den

end Decoded

end ArrayBench
