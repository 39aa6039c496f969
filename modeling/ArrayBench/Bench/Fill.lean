import ArrayBench.Kernel
import ArrayBench.Bench.Category
import ArrayBench.Bench.Geometry

/-!
Operand values.

The values are small, so that no benchmarked operation leaves the range of a narrow integer type
when it is applied once.
-/

namespace ArrayBench

/-- Operand values of one element type. -/
structure Fill where
  /-- Operands of arithmetic and of most unary operations. -/
  value : Float
  exponential : Float
  base : Float
  exponent : Float

namespace Fill

/-- Integer types share all but the common value, which is smaller on narrow types. -/
def ofInteger (value : Float) : Fill := ⟨value, 2, 3, 3⟩

def ofType : DType → Fill
  | .int ⟨_, .w8⟩ => ofInteger 3
  | .int ⟨_, .w16⟩ => ofInteger 7
  | .int ⟨_, .w32⟩ => ofInteger 42
  | .int ⟨_, .w64⟩ => ofInteger 42
  | .float _ => ⟨1.5, 1.5, 2, 3⟩

/-- The scalar of operations on an array and a scalar. -/
def scalar : Float := 2

def inPlaceScalar : Float := 1

def sweep : Float × Float := (1.5, 2.5)

def layoutTypes : List DType := [.int32, .float32, .float64]

/-- The values of the first and the second array operand. -/
def operands (category : Category) (kernel : Kernel) (family : Family) (d : DType) :
    Float × Float :=
  let fill := ofType d
  if category = .binary ∧ family = .sizeSweepPoint then sweep
  else if category = .power then (fill.base, fill.exponent)
  else if kernel = .unary .exp then (fill.exponential, fill.exponential)
  else if category = .reduction ∨ category = .matmul then (1, 1)
  else (fill.value, fill.value)

end Fill

end ArrayBench
