import ArrayBench.Kernel
import ArrayBench.Cpu.Matmul
import ArrayBench.Cpu.Reduction

/-!
Backends.

A backend answers calls and may keep a state of its own. A call comes in up to three forms:
`compute` makes the result, `computeInto` writes it into a given array, and `change` writes it over
the first operand. Sums only have the first form.
-/

namespace ArrayBench

inductive Call where
  | binary (op : BinaryOp) (a b : NdArray)
  | scalar (op : BinaryOp) (a : NdArray) (s : Scalar)
  | unary (op : UnaryOp) (a : NdArray)
  | matmul (a b : NdArray)

/-- An operation whose first operand is the array it is applied to. -/
inductive Change where
  | binary (op : BinaryOp) (b : NdArray)
  | scalar (op : BinaryOp) (s : Scalar)
  | unary (op : UnaryOp)

/-- The operation that a change applies, with the target as its first operand. -/
def Change.call : Change → NdArray → Call
  | binary op b, a => .binary op a b
  | scalar op s, a => .scalar op a s
  | unary op, a => .unary op a

/-- A backend with states `σ`. The second part of the state of `computeInto` and `change` is the
array that is written. -/
structure Backend (σ : Type) where
  name : String
  compute : Call → Step ArrayError σ NdArray
  computeInto : Call → Step ArrayError (σ × NdArray) Unit
  change : Change → Step ArrayError (σ × NdArray) Unit
  sum : NdArray → Step ArrayError σ Scalar
  sumAxis : NdArray → Nat → Step ArrayError σ NdArray

namespace Cpu

def compute : Call → Except ArrayError NdArray
  | .binary op a b => binary op a b
  | .scalar op a s => scalar op a s
  | .unary op a => unary op a
  | .matmul a b => matmul a b

def computeInto : Call → Update
  | .binary op a b => binaryInto op a b
  | .scalar op a s => scalarInto op a s
  | .unary op a => unaryInto op a
  | .matmul a b => matmulInto a b

def change : Change → Update
  | .binary op b => binaryInPlace op b
  | .scalar op s => scalarInPlace op s
  | .unary op => unaryInPlace op

end Cpu

namespace Backend

def onArray {σ : Type} (u : Update) : Step ArrayError (σ × NdArray) Unit :=
  u.onSnd

/-- The plain backend. It keeps no state. -/
def cpu : Backend Unit where
  name := "cpu"
  compute c := Step.ofExcept (Cpu.compute c)
  computeInto c := onArray (Cpu.computeInto c)
  change c := onArray (Cpu.change c)
  sum a := Step.ofExcept (Cpu.sum a)
  sumAxis a axis := Step.ofExcept (Cpu.sumAxis a axis)

def leadType : Call → DType
  | .binary _ a _ => a.dtype
  | .scalar _ a _ => a.dtype
  | .unary _ a => a.dtype
  | .matmul a _ => a.dtype

/-- A backend that does no work: it accepts every call, writes nothing, and returns a zero. -/
def idle : Backend Unit where
  name := "idle"
  compute c := pure (.empty [] (leadType c))
  computeInto _ := pure ()
  change _ := pure ()
  sum _ := pure (.ofFloat .int8 0)
  sumAxis a _ := pure (.empty [] a.dtype)

end Backend

end ArrayBench
