import ArrayBench.NdArray

/-!
Sums over all elements and along one axis.

Elements are widened to the type in which they are summed and added in row-major order, from zero.
-/

namespace ArrayBench

namespace Cpu

def accumulate {d : DType} (x : Buffer d.Elem) (acc : d.sumType.Elem) (i : Nat) :
    Except ArrayError d.sumType.Elem := do
  return BinaryOp.add.within acc (DType.widen (← Buffer.read x i))

def sumElems {d : DType} (x : Buffer d.Elem) (l : Layout) : Except ArrayError d.sumType.Elem :=
  if l.isContiguous then do
    Buffer.checkPrefix x l.numel
    (List.range l.numel).foldlM (accumulate x) d.sumType.zero
  else l.offsets.foldlM (accumulate x) d.sumType.zero

def sum (a : NdArray) : Except ArrayError Scalar := do
  return ⟨a.dtype.sumType, ← sumElems a.storage.data a.layout⟩

/-- The sum of the elements that lie along `axis` from the position `base`. -/
def sumLine {d : DType} (x : Buffer d.Elem) (axis : Axis) (base : Nat) :
    Except ArrayError d.sumType.Elem :=
  (List.range axis.size).foldlM (fun acc i => accumulate x acc (base + i * axis.stride))
    d.sumType.zero

/-- The sums along an axis, which the result no longer has. -/
def sumAxis (a : NdArray) (axis : Nat) : Except ArrayError NdArray := do
  let (outer, line) ← a.layout.splitAxis axis
  let values ← outer.offsets.mapM (sumLine a.storage.data line)
  NdArray.ofElems a.dtype.sumType values.toArray outer.shape

end Cpu

end ArrayBench
