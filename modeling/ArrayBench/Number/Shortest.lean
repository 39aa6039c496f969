import ArrayBench.Number.Decimal

/-!
The shortest decimal that reads back as a given float.

A positive float stands for all reals nearer to it than to its neighbours, and for the two
midpoints as well if its mantissa is even. On the grid of multiples of a power of ten at most two
points matter: the float's two neighbours there. The first grid, from coarse to fine, with one of
them in the interval gives the shortest text; of two hits the nearer is taken, and the upper one
if they are equally near.
-/

namespace ArrayBench

namespace Shortest

/-- The interval of a float in units of `2 ^ (exponent - 2)`: its value and its ends. -/
structure Interval where
  low : Nat
  value : Nat
  high : Nat
  closed : Bool
  unit : Int
deriving Repr

/-- The numbers that read as `mantissa · 2 ^ exponent`. Below a power of two the floats lie twice
as close, so the interval is shorter there. -/
def interval (f : BinaryFormat) (mantissa : Nat) (exponent : Int) : Interval :=
  let narrow := mantissa = 2 ^ f.fractionBits ∧ f.leastExponent < exponent
  { low := 4 * mantissa - (if narrow then 1 else 2)
    value := 4 * mantissa
    high := 4 * mantissa + 2
    closed := mantissa % 2 = 0
    unit := exponent - 2 }

/-- The order of `a · 2 ^ unit` and `c · 10 ^ grid`, by cross multiplication. -/
def cmp (unit grid : Int) (a c : Nat) : Ordering :=
  compare (a * 2 ^ unit.toNat * 10 ^ (-grid).toNat) (c * 10 ^ grid.toNat * 2 ^ (-unit).toNat)

def Interval.contains (i : Interval) (grid : Int) (c : Nat) : Bool :=
  match cmp i.unit grid i.low c, cmp i.unit grid i.high c with
  | .lt, .gt => true
  | .eq, .gt => i.closed
  | .lt, .eq => i.closed
  | _, _ => false

def Interval.below (i : Interval) (grid : Int) : Nat :=
  i.value * 2 ^ i.unit.toNat * 10 ^ (-grid).toNat / (10 ^ grid.toNat * 2 ^ (-i.unit).toNat)

/-- The point of the grid to print, if one of the value's neighbours lies in the interval. -/
def Interval.hit (i : Interval) (grid : Int) : Option Nat :=
  let c := i.below grid
  match i.contains grid c, i.contains grid (c + 1) with
  | true, true => if cmp i.unit grid (2 * i.value) (2 * c + 1) = .lt then some c else some (c + 1)
  | true, false => some c
  | false, true => some (c + 1)
  | false, false => none

def lift : Nat := 400

def Interval.leading (i : Interval) : Int :=
  ((toString (i.below (-(lift : Int)))).length : Int) - 1 - lift

/-- Tries `n` grids, each ten times as fine as the one before. -/
def Interval.search (i : Interval) : Nat → Int → Option Decimal
  | 0, _ => none
  | n + 1, grid =>
    match i.hit grid with
    | some c => some ⟨c, grid⟩
    | none => i.search n (grid - 1)

def maxDigits : Nat := 20

def ofFinite (f : BinaryFormat) (mantissa : Nat) (exponent : Int) : Decimal :=
  if mantissa = 0 then ⟨0, 0⟩
  else
    let i := interval f mantissa exponent
    (i.search maxDigits i.leading).getD ⟨0, 0⟩

end Shortest

namespace Decoded

def sign (negative : Bool) : String := if negative then "-" else ""

/-- The text of a float with as many digits as are needed to read it back, never an exponent. -/
def shortestText (f : BinaryFormat) : Decoded → String
  | .nan => "NaN"
  | .infinite negative => sign negative ++ "inf"
  | .finite negative m q => sign negative ++ (Shortest.ofFinite f m q).positional

/-- The text of a float with `places` digits after the point: its exact value rounded to the
nearest such decimal, a half going to the even neighbour. A negative number that rounds to zero
keeps its sign. -/
def fixedText (places : Nat) : Decoded → String
  | .nan => "NaN"
  | .infinite negative => sign negative ++ "inf"
  | .finite negative m q =>
    let (num, den) := ratio m q
    sign negative ++ Decimal.fixedText places (divRoundEven (num * 10 ^ places) den)

end Decoded

end ArrayBench
