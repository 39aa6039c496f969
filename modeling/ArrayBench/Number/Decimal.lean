import ArrayBench.Number.BinaryFormat

/-!
Decimal numbers in positional notation.

A decimal is `digits · 10 ^ exponent`. Its positional text has no exponent part. One printer drops
the zeros that end the fraction, the other keeps a given number of places.
-/

namespace ArrayBench

structure Decimal where
  digits : Nat
  exponent : Int
deriving DecidableEq, Repr

namespace Decimal

def padded (width n : Nat) : String :=
  let s := toString n
  String.ofList (List.replicate (width - s.length) '0') ++ s

/-- `n` hundredths, thousandths and so on, as a whole part and `places` digits after the point. -/
def fixedText (places n : Nat) : String :=
  if places = 0 then toString n
  else toString (n / 10 ^ places) ++ "." ++ padded places (n % 10 ^ places)

/-- The text without the zeros that end it, and without the point if nothing is left after it. -/
def dropTail (s : String) : String :=
  let kept := s.toList.reverse.dropWhile (· == '0')
  match kept with
  | '.' :: whole => String.ofList whole.reverse
  | _ => String.ofList kept.reverse

def positional (d : Decimal) : String :=
  if 0 ≤ d.exponent then toString (d.digits * 10 ^ d.exponent.toNat)
  else dropTail (fixedText (-d.exponent).toNat d.digits)

end Decimal

/-- The quotient rounded to the nearest integer, a half going to the even neighbour. -/
def divRoundEven (num den : Nat) : Nat :=
  let q := num / den
  let r := num % den
  if den < 2 * r || (2 * r == den && q % 2 == 1) then q + 1 else q

end ArrayBench
