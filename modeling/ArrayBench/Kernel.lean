import ArrayBench.Op

/-!
Kernels: what a backend is asked to compute, apart from the operands.
-/

namespace ArrayBench

inductive Kernel where
  /-- Two arrays, element by element. -/
  | binary (op : BinaryOp)
  /-- Each element of an array and one scalar. -/
  | scalar (op : BinaryOp)
  | unary (op : UnaryOp)
  | sum
  | sumAxis (axis : Nat)
  | matmul
deriving DecidableEq, Repr

/-- How a call hands over its result: in a new array, in one it is given, or in its first operand. -/
inductive Form where
  | allocating
  | buffered
  | inPlace
deriving DecidableEq, Repr

namespace Kernel

def resultType : Kernel → DType → DType
  | binary op, d => op.resultType d
  | scalar op, d => op.resultType d
  | unary op, d => op.resultType d
  | sum, d => d.sumType
  | sumAxis _, d => d.sumType
  | matmul, d => d

def arity : Kernel → Nat
  | binary _ => 2
  | matmul => 2
  | _ => 1

/-- The name of a call: the kind of its operands and its form. -/
def entry (k : Kernel) (f : Form) : String :=
  let base := match k with
    | binary _ => "binary"
    | scalar _ => "scalar"
    | unary _ => "unary"
    | sum => "sum"
    | sumAxis _ => "sum_axis"
    | matmul => "matmul"
  match f with
  | .allocating => base
  | .buffered => base ++ "_into"
  | .inPlace => base ++ "_inplace"

/-- What tells calls of one entry apart: the operation, or the axis of a sum. -/
def detail : Kernel → String
  | binary op => op.name
  | scalar op => op.name
  | unary op => op.name
  | sum => ""
  | sumAxis axis => toString axis
  | matmul => ""

end Kernel

end ArrayBench
