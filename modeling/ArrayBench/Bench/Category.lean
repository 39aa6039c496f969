import ArrayBench.DType

/-!
Categories of benchmarked operations.
-/

namespace ArrayBench

inductive Category where
  | binary
  | unary
  | scalar
  | power
  | reduction
  | matmul
deriving DecidableEq, Repr

namespace Category

def name : Category → String
  | binary => "binary"
  | unary => "unary"
  | scalar => "scalar"
  | power => "power"
  | reduction => "reduction"
  | matmul => "matmul"

def all : List Category := [binary, unary, scalar, power, reduction, matmul]

/-- Full arrays read and written by one call. Matrix products report no bandwidth. -/
def arraysMoved : Category → Option Nat
  | binary => some 3
  | power => some 3
  | unary => some 2
  | scalar => some 2
  | reduction => some 1
  | matmul => none

end Category

end ArrayBench
