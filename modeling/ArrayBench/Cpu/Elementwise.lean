import ArrayBench.NdArray

/-!
Elementwise operations.

Each comes in three forms. The allocating form makes its result, the buffered form writes it into
a given array, and the in-place form writes it over its first operand. A buffer is checked before
anything is written: first the element types, then the shapes. Where every layout involved is
contiguous the elements are visited by position, otherwise by the offsets of the layouts.
-/

namespace ArrayBench

namespace Cpu

variable {α β γ : Type}

/-! ### Loops over elements -/

def mapInPlace (f : α → α) (l : Layout) : BufferStep α Unit :=
  if l.isContiguous then do
    Buffer.checkPrefix (← get) l.numel
    (List.range l.numel).forM fun i => Buffer.modify i f
  else l.offsets.forM fun i => Buffer.modify i f

/-- Combines each element with the element of `y` at the same index. -/
def zipInPlace (f : α → β → α) (l : Layout) (y : Buffer β) (ly : Layout) : BufferStep α Unit :=
  if l.isContiguous && ly.isContiguous then do
    Buffer.checkPrefix (← get) l.numel
    Buffer.checkPrefix y l.numel
    (List.range l.numel).forM fun i => do
      let q ← Buffer.read y i
      Buffer.modify i (f · q)
  else
    (l.offsets.zip ly.offsets).forM fun (i, j) => do
      let q ← Buffer.read y j
      Buffer.modify i (f · q)

/-- Writes the image of each element of `x` at the same index. -/
def mapInto (f : α → β) (x : Buffer α) (lx l : Layout) : BufferStep β Unit :=
  if lx.isContiguous && l.isContiguous then do
    Buffer.checkPrefix (← get) l.numel
    Buffer.checkPrefix x l.numel
    (List.range l.numel).forM fun i => do
      let p ← Buffer.read x i
      Buffer.write i (f p)
  else
    (l.offsets.zip lx.offsets).forM fun (i, j) => do
      let p ← Buffer.read x j
      Buffer.write i (f p)

/-- Writes the combination of the elements of `x` and `y` at the same index. -/
def zipInto (f : α → β → γ) (x : Buffer α) (lx : Layout) (y : Buffer β) (ly l : Layout) :
    BufferStep γ Unit :=
  if lx.isContiguous && ly.isContiguous && l.isContiguous then do
    Buffer.checkPrefix (← get) l.numel
    Buffer.checkPrefix x l.numel
    Buffer.checkPrefix y l.numel
    (List.range l.numel).forM fun i => do
      let p ← Buffer.read x i
      let q ← Buffer.read y i
      Buffer.write i (f p q)
  else
    (l.offsets.zip (lx.offsets.zip ly.offsets)).forM fun (i, j, k) => do
      let p ← Buffer.read x j
      let q ← Buffer.read y k
      Buffer.write i (f p q)

/-! ### Checks -/

def sameType (a b : NdArray) : Except ArrayError DType :=
  if a.dtype = b.dtype then .ok a.dtype else .error (.dtypeMismatch a.dtype b.dtype)

def checkShape (expected got : Shape) : Except ArrayError Unit :=
  if got = expected then .ok () else .error (.shapeMismatch expected got)

/-! ### Two arrays -/

def binaryInto (op : BinaryOp) (a b : NdArray) : Update := do
  let out ← get
  let d ← sameType a b
  checkOutputType (op.resultType d) out.dtype
  let shape ← Shape.broadcast a.shape b.shape
  checkShape shape out.shape
  let la ← a.layout.broadcastTo shape
  let lb ← b.layout.broadcastTo shape
  let x ← a.storage.as d
  let y ← b.storage.as d
  NdArray.onBuffer (op.resultType d) (zipInto op.eval x la y lb out.layout)

def binary (op : BinaryOp) (a b : NdArray) : Except ArrayError NdArray := do
  let d ← sameType a b
  let shape ← Shape.broadcast a.shape b.shape
  (NdArray.empty shape (op.resultType d)).updated (binaryInto op a b)

/-- Only a `b` that broadcasts to the shape of the target is accepted. -/
def binaryInPlace (op : BinaryOp) (b : NdArray) : Update := do
  let a ← get
  let d ← sameType a b
  checkOutputType (op.resultType d) d
  let shape ← Shape.broadcast a.shape b.shape
  checkShape shape a.shape
  let lb ← b.layout.broadcastTo shape
  let y ← b.storage.as d
  NdArray.onBuffer d (zipInPlace op.within a.layout y lb)

/-! ### An array and a scalar

The scalar is converted to the element type of the array first. -/

def scalarInto (op : BinaryOp) (a : NdArray) (s : Scalar) : Update := do
  let out ← get
  checkOutputType (op.resultType a.dtype) out.dtype
  checkShape a.shape out.shape
  let q := s.convert a.dtype
  NdArray.onBuffer (op.resultType a.dtype)
    (mapInto (op.eval · q) a.storage.data a.layout out.layout)

def scalar (op : BinaryOp) (a : NdArray) (s : Scalar) : Except ArrayError NdArray :=
  (NdArray.empty a.shape (op.resultType a.dtype)).updated (scalarInto op a s)

def scalarInPlace (op : BinaryOp) (s : Scalar) : Update := do
  let a ← get
  checkOutputType (op.resultType a.dtype) a.dtype
  let q := s.convert a.dtype
  NdArray.onBuffer a.dtype (mapInPlace (op.within · q) a.layout)

/-! ### One array -/

def unaryInto (op : UnaryOp) (a : NdArray) : Update := do
  let out ← get
  checkOutputType (op.resultType a.dtype) out.dtype
  checkShape a.shape out.shape
  NdArray.onBuffer (op.resultType a.dtype) (mapInto op.eval a.storage.data a.layout out.layout)

def unary (op : UnaryOp) (a : NdArray) : Except ArrayError NdArray :=
  (NdArray.empty a.shape (op.resultType a.dtype)).updated (unaryInto op a)

def unaryInPlace (op : UnaryOp) : Update := do
  let a ← get
  checkOutputType (op.resultType a.dtype) a.dtype
  NdArray.onBuffer a.dtype (mapInPlace op.within a.layout)

end Cpu

end ArrayBench
