import ArrayBench.Shape
import ArrayBench.Text.Pad
import ArrayBench.Bench.Schedule

/-!
Geometries: the shapes of operands and output under test.

Each family of geometries probes one way of walking through memory. Operands are allocated
row-major and may be used through their transposed view.
-/

namespace ArrayBench

inductive Family where
  | contiguous
  | strided
  | broadcastRow
  | broadcastOuter
  | broadcastRank
  | sizeSweepPoint
  | reductionFull
  | reductionLeading
  | reductionTrailing
  | matmulSquare
  | matmulDTypes
  | matmulVariant
deriving DecidableEq, Repr

/-- An array operand: the sizes it is allocated with, and whether it is used transposed. -/
structure Operand where
  dims : Shape
  transposed : Bool
deriving DecidableEq, Repr

/-- The shape as the operation sees it. -/
def Operand.logical (o : Operand) : Shape := if o.transposed then o.dims.reverse else o.dims

def Operand.numel (o : Operand) : Nat := o.dims.numel

structure Geometry where
  family : Family
  operands : List Operand
  output : Shape
  label : String
deriving DecidableEq, Repr

namespace Geometry

/-- Sizes as a row label: `(1000,)`, `(1000,1)`. -/
def dimsLabel (dims : Shape) : String :=
  let inner := String.intercalate "," (dims.map toString)
  if dims.length = 1 then "(" ++ inner ++ ",)" else "(" ++ inner ++ ")"

def make (family : Family) (operands : List Operand) (output : Shape) : Geometry :=
  ⟨family, operands, output, dimsLabel output⟩

/-- Elements processed by one call: those of the largest operand or of the output. -/
def elementCount (g : Geometry) : Nat :=
  (g.operands.map Operand.numel).foldr max g.output.numel

/-- The sizes `m`, `k` and `n` if the operands are an `m × k` and a `k × n` matrix. -/
def matmulSizes (g : Geometry) : Option (Nat × Nat × Nat) :=
  match g.operands.map Operand.logical with
  | [[m, k], [k', n]] => if k = k' then some (m, k, n) else none
  | _ => none

/-- The operands' shapes, joined by `&`, an arrow, and the output. -/
def text (g : Geometry) : String :=
  String.intercalate " & " (g.operands.map fun o => dimsLabel o.logical) ++ " -> " ++
    dimsLabel g.output

/-! ### Families -/

def plain (dims : Shape) : Operand := ⟨dims, false⟩

def contiguous (n arity : Nat) : Geometry :=
  make .contiguous (List.replicate arity (plain [n])) [n]

/-- Transposed views of `rows × cols` arrays. -/
def strided (rows cols arity : Nat) : Geometry :=
  make .strided (List.replicate arity ⟨[rows, cols], true⟩) [cols, rows]

def broadcastRow (m n : Nat) : Geometry :=
  make .broadcastRow [plain [1, n], plain [m, n]] [m, n]

/-- One column with one row. -/
def broadcastOuter (m n : Nat) : Geometry :=
  make .broadcastOuter [plain [m, 1], plain [1, n]] [m, n]

/-- A vector with a matrix: the vector lacks the outer axis. -/
def broadcastRank (m n : Nat) : Geometry :=
  make .broadcastRank [plain [n], plain [m, n]] [m, n]

def sweepPoint (n arity : Nat) : Geometry :=
  { contiguous n arity with family := .sizeSweepPoint }

def sizeSweep (sizes : List Nat) (arity : Nat) : List Geometry := sizes.map (sweepPoint · arity)

def reductionFull (n : Nat) : Geometry := make .reductionFull [plain [n]] []

/-- A matrix summed along its outer axis. -/
def reductionLeading (rows cols : Nat) : Geometry :=
  make .reductionLeading [plain [rows, cols]] [cols]

def reductionTrailing (rows cols : Nat) : Geometry :=
  make .reductionTrailing [plain [rows, cols]] [rows]

def matmul (family : Family) (m k n : Nat) : Geometry :=
  make family [plain [m, k], plain [k, n]] [m, n]

/-! ### Standard sizes -/

def sweepSizes : List Nat := [100, 1000, 10000, 100000, 1000000]

/-- Square matrices, the larger ones with fewer calls. -/
def matmulSquares : List (Geometry × Schedule) :=
  [(32, 50, 500), (64, 20, 200), (128, 10, 50), (256, 5, 20), (512, 2, 5)].map
    fun (n, warmup, iterations) => (matmul .matmulSquare n n n, ⟨warmup, iterations⟩)

def matmulSchedule : Schedule := ⟨5, 20⟩

def matmulSide : Nat := 256

def matmulDTypes : Geometry × Schedule :=
  (matmul .matmulDTypes matmulSide matmulSide matmulSide, matmulSchedule)

def variantLabel (what : String) (m k n : Nat) : String :=
  Text.left 7 what ++ " (" ++ toString m ++ "x" ++ toString k ++ "@" ++ toString k ++ "x" ++
    toString n ++ ")"

def matmulVariant (m k n : Nat) (what : String) : Geometry :=
  { matmul .matmulVariant m k n with label := variantLabel what m k n }

def matmulVariants : List (Geometry × Schedule) :=
  [matmulVariant 512 32 512 "wide K",
    matmulVariant 512 512 512 "square",
    matmulVariant 32 512 32 "tall K",
    matmulVariant 256 128 512 "rect",
    matmulVariant 1 256 256 "vec-mat",
    matmulVariant 256 256 1 "mat-vec"].map (·, matmulSchedule)

end Geometry

end ArrayBench
