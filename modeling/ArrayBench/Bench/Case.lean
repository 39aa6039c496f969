import ArrayBench.Bench.Operation
import ArrayBench.Bench.Geometry

/-!
Cases: what is measured.
-/

namespace ArrayBench

/-- An operation on one element type, one geometry and one schedule. -/
structure Case where
  op : Operation
  dtype : DType
  geometry : Geometry
  schedule : Schedule
deriving DecidableEq, Repr

namespace Case

def make (op : Operation) (d : DType) (g : Geometry) (s : Schedule) : Except BenchError Case := do
  s.check
  if g.operands.length ≠ op.arity then
    throw (.operandCount op.name op.arity g.text g.operands.length)
  return ⟨op, d, g, s⟩

def elementCount (c : Case) : Nat := c.geometry.elementCount

end Case

end ArrayBench
