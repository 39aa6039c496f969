import ArrayBench.Kernel
import ArrayBench.Bench.Error

/-!
The benchmarked operations.

The catalog lists every operation in report order. Looking an operation up for an element type
gives the kernel that is really called, whether its operands are restored before each call, and
whether its result may have another type than its operands.
-/

namespace ArrayBench

structure Operation where
  name : String
  category : Category
  kernel : Kernel
  inPlace : Bool
  buffered : Bool
  /-- Integer operands give a result of another type. -/
  promotes : Bool
  /-- Each call changes the operands of the next. -/
  drifts : Bool
deriving DecidableEq, Repr

/-- Whether operands get their first values back between calls. -/
inductive ResetPolicy where
  | never
  | beforeEachCall
deriving DecidableEq, Repr

structure Dispatch where
  kernel : Kernel
  reset : ResetPolicy
  mayDiffer : Bool
deriving DecidableEq, Repr

namespace Operation

def arity (op : Operation) : Nat := op.kernel.arity

/-- Whether the buffered form may refuse a buffer of element type `d`. -/
def mayDiffer (op : Operation) (d : DType) : Bool :=
  op.buffered && op.promotes && d.isInteger

def changesIntegers (k : Kernel) : Bool := k.resultType .int32 != .int32

/-- An operation outside the unary category. Its in-place form keeps integers integers. -/
def basic (name : String) (category : Category) (kernel : Kernel) (inPlace : Bool) : Operation where
  name
  category
  kernel
  inPlace
  buffered := category != .reduction
  promotes := !inPlace && category != .reduction && changesIntegers kernel
  drifts := inPlace

/-- A unary operation promotes integers in every form. -/
def unary (op : UnaryOp) (inPlace : Bool) : Operation :=
  { basic op.name .unary (.unary op) inPlace with promotes := changesIntegers (.unary op) }

def binary (op : BinaryOp) : Operation := basic op.name .binary (.binary op) false

def scalar (op : BinaryOp) (inPlace : Bool) : Operation :=
  basic op.name .scalar (.scalar op) inPlace

def pow (inPlace : Bool) : Operation := basic "pow" .power (.binary .pow) inPlace

def sum : Operation := basic "sum" .reduction .sum false

def sumAxis (axis : Nat) : Operation :=
  basic ("sum axis=" ++ toString axis) .reduction (.sumAxis axis) false

def matmul : Operation := basic "matmul" .matmul .matmul false

def arithmetic : List BinaryOp := [.add, .sub, .mul, .div]

/-- Every benchmarked operation, in report order. -/
def catalog : List Operation :=
  arithmetic.map binary ++
  arithmetic.map (scalar · false) ++
  arithmetic.map (scalar · true) ++
  UnaryOp.all.map (unary · false) ++
  UnaryOp.all.map (unary · true) ++
  [pow false, pow true, sum, sumAxis 0, sumAxis 1, matmul]

def select (category : Category) (inPlace : Bool) : List Operation :=
  catalog.filter fun op => op.category = category && op.inPlace = inPlace

def find (category : Category) (inPlace : Bool) (name : String) : Except BenchError Operation :=
  match (select category inPlace).find? fun op => op.name = name with
  | some op => .ok op
  | none => .error (.unknownOperation category name)

/-- An integer array cannot hold exact quotients, so dividing it in place rounds them. -/
def kernelFor (op : Operation) (d : DType) : Kernel :=
  if op.kernel = .scalar .div ∧ op.inPlace ∧ d.isInteger then .scalar .floorDiv else op.kernel

def resolve (op : Operation) (d : DType) : Dispatch where
  kernel := op.kernelFor d
  reset := if op.drifts then .beforeEachCall else .never
  mayDiffer := op.mayDiffer d

/-- How to run an operation of the catalog. An operation that differs from every entry in some
field is not supported. -/
def dispatch (op : Operation) (d : DType) : Except BenchError Dispatch :=
  if op ∈ catalog then .ok (op.resolve d) else .error (.unsupported op.name d)

end Operation

end ArrayBench
