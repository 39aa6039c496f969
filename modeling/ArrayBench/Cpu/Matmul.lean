import ArrayBench.Cpu.Elementwise

/-!
Products of matrices.

Each row of the result is set to zero and then takes up the rows of the right operand, each scaled
by one element of the left operand's row.
-/

namespace ArrayBench

namespace Layout

def offset₂ (l : Layout) (row col : Nat) : Except ArrayError Nat :=
  match l.axes with
  | r :: c :: _ => .ok (l.offset + row * r.stride + col * c.stride)
  | _ => .error (.outOfRange 1 l.axes.length)

end Layout

namespace Cpu

def matmulSizes (a b : NdArray) : Except ArrayError (Nat × Nat × Nat) :=
  match a.shape, b.shape with
  | [m, k], [k', n] => if k = k' then .ok (m, k, n) else .error (.matmulMismatch m k k' n)
  | _, _ => .error (.matmulRank a.shape b.shape)

/-- Adds `x[i, p] * y[p, j]` to the result's element at `i`, `j`. -/
def addProduct {d : DType} (v : d.Elem) (y : Buffer d.Elem) (ly l : Layout) (i p j : Nat) :
    BufferStep d.Elem Unit := do
  let o ← l.offset₂ i j
  let q ← ly.offset₂ p j
  let w ← Buffer.read y q
  Buffer.modify o fun u => BinaryOp.add.within u (BinaryOp.mul.within v w)

def matmulElems {d : DType} (x : Buffer d.Elem) (lx : Layout) (y : Buffer d.Elem) (ly l : Layout)
    (m k n : Nat) : BufferStep d.Elem Unit :=
  (List.range m).forM fun i => do
    (List.range n).forM fun j => do
      let o ← l.offset₂ i j
      Buffer.write o d.zero
    (List.range k).forM fun p => do
      let o ← lx.offset₂ i p
      let v ← Buffer.read x o
      (List.range n).forM fun j => addProduct v y ly l i p j

def matmulInto (a b : NdArray) : Update := do
  let out ← get
  let d ← sameType a b
  let (m, k, n) ← matmulSizes a b
  checkOutputType d out.dtype
  checkShape [m, n] out.shape
  let x ← a.storage.as d
  let y ← b.storage.as d
  NdArray.onBuffer d (matmulElems x a.layout y b.layout out.layout m k n)

def matmul (a b : NdArray) : Except ArrayError NdArray := do
  let d ← sameType a b
  let (m, _, n) ← matmulSizes a b
  (NdArray.empty [m, n] d).updated (matmulInto a b)

end Cpu

end ArrayBench
