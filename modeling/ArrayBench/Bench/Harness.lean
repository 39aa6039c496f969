import ArrayBench.Backend
import ArrayBench.Bench.Fill
import ArrayBench.Bench.Metrics
import ArrayBench.Bench.Workload

/-!
Running cases against a backend.

A case's operands are allocated with their fill values, and the prepared call is timed. The clock
enters as data: the timed stretches of each case, by number.
-/

namespace ArrayBench

/-- What a run carries along: the backend's state, the number of cases timed, and the log. -/
structure Session (σ : Type) where
  backend : σ
  timed : Nat
  log : Array Note

namespace Session

def start {σ : Type} (backend : σ) : Session σ := ⟨backend, 0, #[]⟩

def note {σ : Type} (n : Note) (s : Session σ) : Session σ := { s with log := s.log.push n }

end Session

/-- A call with its operands, and the array that is written from call to call. -/
inductive Prepared where
  | call (c : Call) (out : NdArray)
  /-- An in-place call. Resetting it fills the target again. -/
  | change (c : Change) (target : NdArray) (fill : Scalar)
  | sum (a : NdArray)
  | sumAxis (axis : Nat) (a : NdArray)

namespace Prepared

def array : Prepared → NdArray
  | call _ out => out
  | change _ target _ => target
  | sum a => a
  | sumAxis _ a => a

/-- The arrays that are allocated for a kernel, in order: its operands, then the array it writes to
if that is not its first operand. A sum writes none. -/
def shapes (g : Geometry) (inPlace : Bool) (k : Kernel) : List Shape :=
  let operands := g.operands.map Operand.dims
  match k with
  | .sum => operands
  | .sumAxis _ => operands
  | _ => if inPlace then operands else operands ++ [g.output]

def operand (o : Operand) (d : DType) (value : Float) : NdArray :=
  let a := NdArray.full o.dims d (.ofFloat d value)
  if o.transposed then a.transposed else a

/-- The call of a kernel on operands of type `d` filled with `v` and `w`, writing to `output`. -/
def ofKernel (d : DType) (v w : Float) (output : Shape) (inPlace : Bool) :
    Kernel → List Operand → Option Prepared
  | .binary op, x :: y :: _ =>
    if inPlace then some (.change (.binary op (operand y d w)) (operand x d v) (.ofFloat d v))
    else some (.call (.binary op (operand x d v) (operand y d w)) (.empty output d))
  | .scalar op, x :: _ =>
    if inPlace then
      some (.change (.scalar op (.ofFloat d Fill.inPlaceScalar)) (operand x d v) (.ofFloat d v))
    else some (.call (.scalar op (operand x d v) (.ofFloat d Fill.scalar)) (.empty output d))
  | .unary op, x :: _ =>
    if inPlace then some (.change (.unary op) (operand x d v) (.ofFloat d v))
    else some (.call (.unary op (operand x d v)) (.empty output d))
  | .sum, x :: _ => some (.sum (operand x d v))
  | .sumAxis axis, x :: _ => some (.sumAxis axis (operand x d v))
  | .matmul, x :: y :: _ =>
    some (.call (.matmul (operand x d v) (operand y d w)) (.empty output d))
  | _, _ => none

def build (c : Case) (dispatch : Dispatch) : Except BenchError Prepared :=
  let (v, w) := Fill.operands c.op.category dispatch.kernel c.geometry.family c.dtype
  match ofKernel c.dtype v w c.geometry.output c.op.inPlace dispatch.kernel c.geometry.operands with
  | some p => .ok p
  | none => .error (.missingOperand c.op.name)

variable {σ : Type}

def onBackend {α : Type} (x : Step ArrayError σ α) :
    Step ArrayError (Session σ × NdArray) Unit := do
  let _ ← x.zoom fun (⟨s, timed, log⟩, a) => (s, fun s => (⟨s, timed, log⟩, a))

def onBoth (x : Step ArrayError (σ × NdArray) Unit) :
    Step ArrayError (Session σ × NdArray) Unit :=
  x.zoom fun (⟨s, timed, log⟩, a) => ((s, a), fun (s, a) => (⟨s, timed, log⟩, a))

def workload (backend : Backend σ) : Prepared → Workload (Session σ × NdArray)
  | call c _ =>
    { buffered := onBoth (backend.computeInto c)
      allocating := onBackend (backend.compute c)
      reset := pure () }
  | change c _ fill =>
    { buffered := onBoth (backend.change c)
      allocating := do onBackend (backend.compute (c.call (← get).2))
      reset := (NdArray.fill fill).onSnd }
  | sum a => .allocatingOnly (onBackend (backend.sum a))
  | sumAxis axis a => .allocatingOnly (onBackend (backend.sumAxis a axis))

end Prepared

/-- A backend under test, and the clock of each timed case. -/
structure Harness (σ : Type) where
  backend : Backend σ
  clock : Nat → Clock
  limit : Option Nat := none

namespace Harness

variable {σ : Type}

def withArray {ε α : Type} (a : NdArray) (x : Step ε (Session σ × NdArray) α) :
    Step ε (Session σ) α :=
  x.zoom fun s => ((s, a), Prod.fst)

def checkBytes (h : Harness σ) (c : Case) (k : Kernel) : Except BenchError Unit :=
  match h.limit with
  | none => .ok ()
  | some limit =>
    ((Prepared.shapes c.geometry c.op.inPlace k).forM (NdArray.checkBytes limit · c.dtype)).mapError
      .array

/-- Allocates the operands of a case, times it, and derives its metrics. -/
def run (h : Harness σ) (c : Case) : Step BenchError (Session σ) Measurement := do
  let dispatch ← c.op.dispatch c.dtype
  h.checkBytes c dispatch.kernel
  let prepared ← Prepared.build c dispatch
  let clock := h.clock (← get).timed
  let note (n : Note) (t : Session σ × NdArray) := (t.1.note n, t.2)
  let timing ← withArray prepared.array
    ((prepared.workload h.backend).measure c.schedule clock note c.op c.dtype dispatch)
  let m := Measurement.make c timing.micros timing.usedFallback
  modify fun s =>
    { s with timed := s.timed + 1 }.note
      (.measured c.op c.dtype c.geometry.text m.micros m.metrics.mops m.usedFallback)
  return m

def runAll (h : Harness σ) (cases : List Case) : Step BenchError (Session σ) (List Measurement) :=
  cases.mapM h.run

end Harness

end ArrayBench
