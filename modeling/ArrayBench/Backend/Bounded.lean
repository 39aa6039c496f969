import ArrayBench.Backend

/-!
Backends that keep within a memory.

A bounded backend refuses to make a result that is too large, before it passes the call on. Calls
that are wrong in themselves are refused for that reason first. Writing into a given array makes no
result and is not bounded.
-/

namespace ArrayBench

namespace Call

/-- Shape and element type of the array that a call makes. -/
def outline : Call → Except ArrayError (Shape × DType)
  | binary op a b => do
    let d ← Cpu.sameType a b
    return (← Shape.broadcast a.shape b.shape, op.resultType d)
  | scalar op a _ => .ok (a.shape, op.resultType a.dtype)
  | unary op a => .ok (a.shape, op.resultType a.dtype)
  | matmul a b => do
    let d ← Cpu.sameType a b
    let (m, _, n) ← Cpu.matmulSizes a b
    return ([m, n], d)

end Call

/-- A backend whose results have at most `limit` bytes. -/
def Backend.bounded {σ : Type} (limit : Nat) (inner : Backend σ) : Backend σ :=
  { inner with
    compute := fun c => do
      let (s, d) ← c.outline
      NdArray.checkBytes limit s d
      inner.compute c
    sumAxis := fun a axis => do
      NdArray.checkBytes limit (← a.shape.withoutAxis axis) a.dtype.sumType
      inner.sumAxis a axis }

end ArrayBench
