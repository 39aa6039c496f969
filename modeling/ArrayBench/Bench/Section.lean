import ArrayBench.Bench.Harness
import ArrayBench.Bench.Report
import ArrayBench.Bench.Settings

/-!
The sections of a benchmark run.

A section is a list of panels. Each panel says what is measured and how it is shown; running it
notes it in the log, measures its cases in order, and writes its table.
-/

namespace ArrayBench

/-! ### Panels -/

/-- What a panel measures and how it is shown. -/
inductive Subject where
  /-- Operations under their column headers, on each element type. The geometry of a case depends
  on the number of its operands. -/
  | grid (ops : List (String × Operation)) (width : Nat) (types : List DType)
      (geometry : Nat → Geometry)
  /-- One operation on `float32` vectors of several sizes. -/
  | sweep (op : Operation) (sizes : List Nat)
  /-- One operation and geometry on every element type. -/
  | types (op : Operation) (geometry : Geometry)
  | matmulSquares
  | matmulDTypes
  | matmulVariants

structure Panel where
  note : String
  title : String
  /-- Schedule of all cases but matrix products, which bring their own. -/
  schedule : Schedule
  subject : Subject

namespace Panel

variable {σ : Type}

def measure (h : Harness σ) (op : Operation) (d : DType) (g : Geometry) (s : Schedule) :
    Step BenchError (Session σ) Measurement := do
  h.run (← Case.make op d g s)

def measureGrid (h : Harness σ) (ops : List Operation) (types : List DType) (s : Schedule)
    (geometry : Nat → Geometry) :
    Step BenchError (Session σ) (List (DType × List Measurement)) :=
  types.mapM fun d => do
    let row ← ops.mapM fun op => measure h op d (geometry op.arity) s
    return (d, row)

def table (h : Harness σ) (p : Panel) : Step BenchError (Session σ) Table := do
  match p.subject with
  | .grid ops width types geometry =>
    let rows ← measureGrid h (ops.map Prod.snd) types p.schedule geometry
    Report.dtypeGrid p.title (ops.map Prod.fst) width rows
  | .sweep op sizes =>
    let points ← (Geometry.sizeSweep sizes op.arity).mapM (measure h op .float32 · p.schedule)
    Report.sizeSweep p.title points
  | .types op geometry =>
    let rows ← DType.all.mapM (measure h op · geometry p.schedule)
    Report.dtypeList p.title rows
  | .matmulSquares =>
    let points ← Geometry.matmulSquares.mapM fun (g, s) => measure h .matmul .float32 g s
    Report.matmulSquare p.title points
  | .matmulDTypes =>
    let (g, s) := Geometry.matmulDTypes
    let rows ← DType.all.mapM (measure h .matmul · g s)
    Report.matmulDTypes p.title rows
  | .matmulVariants =>
    let rows ← Geometry.matmulVariants.mapM fun (g, s) => measure h .matmul .float32 g s
    Report.matmulVariants p.title rows

def run (h : Harness σ) (p : Panel) : Step BenchError (Session σ × Sink) Unit := do
  modify fun (s, sink) => (s.note (.heading p.note), sink)
  let t ← (p.table h).onFst
  t.write.onSnd

end Panel

/-! ### Sections -/

inductive Section where
  | elementwise
  | scalar
  | unary
  | pow
  | reduction
  | matmul
deriving DecidableEq, Repr

namespace Section

def named (ops : List Operation) : List (String × Operation) := ops.map fun op => (op.name, op)

def iterationsText (s : Schedule) : String := toString s.iterations ++ " iters"

def vectorPanel (s : Settings) (note title : String) (ops : List (String × Operation))
    (width : Nat) : Panel where
  note
  title := title ++ "  (" ++ toString s.vectorLen ++ " elements, " ++ iterationsText s.schedule ++ ")"
  schedule := s.schedule
  subject := .grid ops width DType.all (Geometry.contiguous s.vectorLen)

def sweepPanel (s : Settings) (note what : String) (op : Operation) : Panel where
  note
  title := "SIZE SCALING  (float32 " ++ what ++ ", " ++ iterationsText s.schedule ++ ")"
  schedule := s.schedule
  subject := .sweep op s.sweepSizes

/-- Binary operations on two shapes that broadcast to one. -/
def broadcastPanel (s : Settings) (note title : String) (g : Geometry) : Panel where
  note
  title :=
    title ++ "  " ++
      String.intercalate " + " (g.operands.map fun o => Geometry.dimsLabel o.logical) ++ " -> " ++
      Geometry.dimsLabel g.output ++ ", " ++ iterationsText s.schedule
  schedule := s.schedule
  subject := .grid (named (Operation.select .binary false)) 8 Fill.layoutTypes fun _ => g

def stridedPanel (s : Settings) : Panel where
  note := "binary: strided"
  title :=
    "STRIDED  (" ++ toString s.rows ++ "x" ++ toString s.cols ++ " transposed, " ++
      toString (s.rows * s.cols) ++ " elements, " ++ iterationsText s.schedule ++ ")"
  schedule := s.schedule
  subject :=
    .grid (named (Operation.select .binary false)) 8 Fill.layoutTypes
      (Geometry.strided s.rows s.cols)

def sumPanel (s : Settings) : Panel where
  note := "reduction: full"
  title :=
    "SUM (full reduction)  (" ++ toString s.vectorLen ++ " elements, " ++
      iterationsText s.schedule ++ ")"
  schedule := s.schedule
  subject := .types .sum (Geometry.reductionFull s.vectorLen)

def sumAxisPanel (s : Settings) (axis : Nat) (g : Geometry) : Panel where
  note := "reduction: sum axis=" ++ toString axis
  title :=
    "SUM AXIS=" ++ toString axis ++ "  (" ++ toString s.rows ++ "x" ++ toString s.cols ++ " = " ++
      toString (s.rows * s.cols) ++ " elements, " ++ iterationsText s.schedule ++ ")"
  schedule := s.schedule
  subject := .types (.sumAxis axis) g

/-- A panel of matrix products, which keep to schedules of their own. -/
def matmulPanel (s : Settings) (note title : String) (subject : Subject) : Panel :=
  ⟨note, title, s.schedule, subject⟩

def sideText : String :=
  toString Geometry.matmulSide ++ "x" ++ toString Geometry.matmulSide

def panels (s : Settings) : Section → List Panel
  | elementwise =>
    [vectorPanel s "binary: contiguous" "CONTIGUOUS BINARY"
        (named (Operation.select .binary false)) 8,
      stridedPanel s,
      broadcastPanel s "binary: broadcast row" "BROADCAST ROW"
        (Geometry.broadcastRow s.rows s.cols),
      broadcastPanel s "binary: broadcast outer" "BROADCAST OUTER"
        (Geometry.broadcastOuter s.rows s.cols),
      broadcastPanel s "binary: broadcast rank" "BROADCAST RANK"
        (Geometry.broadcastRank s.rows s.cols),
      sweepPanel s "binary: size sweep" "add" (.binary .add)]
  | scalar =>
    [vectorPanel s "scalar: scalar ops" "SCALAR OPS" (named (Operation.select .scalar false)) 8,
      vectorPanel s "scalar: scalar inplace" "SCALAR INPLACE"
        (named (Operation.select .scalar true)) 8,
      sweepPanel s "scalar: size sweep" "add_scalar" (.scalar .add false)]
  | unary =>
    [vectorPanel s "unary: unary ops" "UNARY OPS" (named (Operation.select .unary false)) 8,
      vectorPanel s "unary: unary inplace" "UNARY INPLACE"
        (named (Operation.select .unary true)) 8,
      sweepPanel s "unary: size sweep" "sqrt" (.unary .sqrt false)]
  | pow =>
    [vectorPanel s "pow: contiguous" "POW CONTIGUOUS"
        [("pow", .pow false), ("inplace", .pow true)] 10,
      sweepPanel s "pow: size sweep" "pow" (.pow false)]
  | reduction =>
    [sumPanel s,
      sumAxisPanel s 0 (Geometry.reductionLeading s.rows s.cols),
      sumAxisPanel s 1 (Geometry.reductionTrailing s.rows s.cols),
      sweepPanel s "reduction: size sweep" "sum" .sum]
  | matmul =>
    [matmulPanel s "matmul: square sweep" "SQUARE SIZE SCALING  (float32, NxN @ NxN -> NxN)"
        .matmulSquares,
      matmulPanel s "matmul: dtype comparison"
        ("DTYPE COMPARISON  (" ++ sideText ++ " @ " ++ sideText ++ ", " ++
          iterationsText Geometry.matmulSchedule ++ ")") .matmulDTypes,
      matmulPanel s "matmul: shape variants"
        ("SHAPE VARIANTS  (float32, " ++ iterationsText Geometry.matmulSchedule ++ ")")
        .matmulVariants]

def run {σ : Type} (h : Harness σ) (s : Settings) (x : Section) :
    Step BenchError (Session σ × Sink) Unit :=
  (x.panels s).forM (Panel.run h)

/-! ### Banner -/

def version : String := "0.1.0"

/-- The lines that open a run: the section, the version and the backend. -/
def banner (what backend : String) : List String :=
  ["", "  nb-array " ++ what ++ " benchmark",
    "  nb-array " ++ version ++ "  |  backend: " ++ backend]

end Section

end ArrayBench
