import ArrayBench.Scalar

/-!
Elementwise operations.

An operation on elements of one type has a result type. Where that is the element type itself the
operation is the type's own arithmetic; where integers are promoted it is computed in `float64`.
-/

namespace ArrayBench

inductive BinaryOp where
  | add
  | sub
  | mul
  /-- The exact quotient, which is no integer in general. -/
  | div
  | floorDiv
  | pow
deriving DecidableEq, Repr

inductive UnaryOp where
  | log
  | exp
  | abs
  | sqrt
deriving DecidableEq, Repr

namespace BinaryOp

def name : BinaryOp → String
  | .add => "add"
  | .sub => "sub"
  | .mul => "mul"
  | .div => "div"
  | .floorDiv => "floor_div"
  | .pow => "pow"

def all : List BinaryOp := [.add, .sub, .mul, .div, .floorDiv, .pow]

def resultType : BinaryOp → DType → DType
  | .div, d => d.floating
  | _, d => d

def onFloat : BinaryOp → Float → Float → Float
  | .add, a, b => a + b
  | .sub, a, b => a - b
  | .mul, a, b => a * b
  | .div, a, b => a / b
  | .floorDiv, a, b => (a / b).floor
  | .pow, a, b => a.pow b

def onFloat32 : BinaryOp → Float32 → Float32 → Float32
  | .add, a, b => a + b
  | .sub, a, b => a - b
  | .mul, a, b => a * b
  | .div, a, b => a / b
  | .floorDiv, a, b => (a / b).floor
  | .pow, a, b => a.pow b

def onWord {t : IntType} : BinaryOp → Word t → Word t → Word t
  | .add, a, b => a + b
  | .sub, a, b => a - b
  | .mul, a, b => a * b
  | .div, a, b => a.div b
  | .floorDiv, a, b => a.floorDiv b
  | .pow, a, b => a.pow b

/-- The operation within one element type. -/
def within (op : BinaryOp) : {d : DType} → d.Elem → d.Elem → d.Elem
  | .int _, a, b => op.onWord a b
  | .float .single, a, b => op.onFloat32 a b
  | .float .double, a, b => op.onFloat a b

/-- The operation with its result type: quotients of integers are quotients of floats. -/
def eval : (op : BinaryOp) → {d : DType} → d.Elem → d.Elem → (op.resultType d).Elem
  | .div, .int _, a, b => BinaryOp.div.onFloat (DType.toFloat a) (DType.toFloat b)
  | .div, .float _, a, b => BinaryOp.div.within a b
  | .add, _, a, b => BinaryOp.add.within a b
  | .sub, _, a, b => BinaryOp.sub.within a b
  | .mul, _, a, b => BinaryOp.mul.within a b
  | .floorDiv, _, a, b => BinaryOp.floorDiv.within a b
  | .pow, _, a, b => BinaryOp.pow.within a b

end BinaryOp

namespace UnaryOp

def name : UnaryOp → String
  | .log => "log"
  | .exp => "exp"
  | .abs => "abs"
  | .sqrt => "sqrt"

def all : List UnaryOp := [.log, .exp, .abs, .sqrt]

def resultType : UnaryOp → DType → DType
  | .abs, d => d
  | _, d => d.floating

def onFloat : UnaryOp → Float → Float
  | .log, x => x.log
  | .exp, x => x.exp
  | .abs, x => x.abs
  | .sqrt, x => x.sqrt

def onFloat32 : UnaryOp → Float32 → Float32
  | .log, x => x.log
  | .exp, x => x.exp
  | .abs, x => x.abs
  | .sqrt, x => x.sqrt

/-- On integers only the absolute value is exact. The others are computed on floats and cut back
to the integer format. -/
def onWord {t : IntType} : UnaryOp → Word t → Word t
  | .abs, a => a.abs
  | op, a => (Decoded.ofFloat (op.onFloat (Float.ofInt a.val))).toWord

/-- The operation within one element type. -/
def within (op : UnaryOp) : {d : DType} → d.Elem → d.Elem
  | .int _, a => op.onWord a
  | .float .single, a => op.onFloat32 a
  | .float .double, a => op.onFloat a

/-- The operation with its result type: on integers all but the absolute value give floats. -/
def eval : (op : UnaryOp) → {d : DType} → d.Elem → (op.resultType d).Elem
  | .abs, _, a => UnaryOp.abs.within a
  | .log, .int _, a => UnaryOp.log.onFloat (DType.toFloat a)
  | .log, .float _, a => UnaryOp.log.within a
  | .exp, .int _, a => UnaryOp.exp.onFloat (DType.toFloat a)
  | .exp, .float _, a => UnaryOp.exp.within a
  | .sqrt, .int _, a => UnaryOp.sqrt.onFloat (DType.toFloat a)
  | .sqrt, .float _, a => UnaryOp.sqrt.within a

end UnaryOp

end ArrayBench
