import ArrayBench.Bench.Metrics
import ArrayBench.Bench.Table

/-!
The tables of a report.
-/

namespace ArrayBench

namespace Report

def sectionBanner : Nat := 82

def matmulBanner : Nat := 60

/-- A value of a measurement, marked if the fallback was timed. -/
def timed (m : Measurement) (x : Float) : Cell := if m.usedFallback then .marked x else .float x

def time (m : Measurement) : Cell := timed m m.micros

def mops (m : Measurement) : Cell := timed m m.metrics.mops

def gflops (m : Measurement) : Cell := timed m (m.metrics.gflops.getD 0)

def labelLeft (header : String) (width : Nat) : LabelColumn := ⟨header, width, false⟩

def labelRight (header : String) (width : Nat) : LabelColumn := ⟨header, width, true⟩

def ofRows {α : Type} (t : Table) (items : List α) (label : α → String) (cells : α → List Cell) :
    Except BenchError Table :=
  items.foldlM (fun t x => t.push (label x) (cells x)) t

/-- A time column for each operation, then a throughput column for each. A row holds the
measurements of one element type, in the order of `names`. -/
def dtypeGrid (title : String) (names : List String) (width : Nat)
    (rows : List (DType × List Measurement)) : Except BenchError Table :=
  let times := names.map fun name => { header := name, width, precision := 2, unit := some "(us)" }
  let rates := names.zipIdx.map fun (name, i) =>
    { header := name, width, precision := 1, unit := some "(Mop/s)", gap := if i = 0 then 3 else 1 }
  ofRows (.make title sectionBanner (labelLeft "dtype" 8) (times ++ rates)) rows
    (fun (d, _) => d.name) fun (_, ms) => ms.map time ++ ms.map mops

def sizeSweep (title : String) (points : List Measurement) : Except BenchError Table :=
  ofRows
    (.make title sectionBanner (labelRight "elements" 10)
      [{ header := "time (us)", width := 10, precision := 2 },
        { header := "Mops/s", width := 10, precision := 1 },
        { header := "GB/s", width := 10, precision := 2 }])
    points (fun m => toString m.case.elementCount) fun m =>
      [time m, mops m, timed m (m.metrics.gbPerS.getD 0)]

def dtypeList (title : String) (rows : List Measurement) : Except BenchError Table :=
  ofRows
    (.make title sectionBanner (labelLeft "dtype" 8)
      [{ header := "time (us)", width := 10, precision := 2 },
        { header := "Mop/s", width := 10, precision := 1 }])
    rows (fun m => m.case.dtype.name) fun m => [time m, mops m]

def matmulSquare (title : String) (points : List Measurement) : Except BenchError Table :=
  ofRows
    (.make title matmulBanner (labelRight "N" 6)
      [{ header := "iters", width := 6, precision := 0, gap := 2 },
        { header := "time(us)", width := 8, precision := 2, gap := 2 },
        { header := "time(ms)", width := 8, precision := 3, gap := 2 },
        { header := "GFLOP/s", width := 8, precision := 3, gap := 2 }])
    points (fun m => toString ((m.case.geometry.matmulSizes.map Prod.fst).getD 0)) fun m =>
      [.int m.case.schedule.iterations, time m, timed m (m.micros / 1e3), gflops m]

def matmulDTypes (title : String) (rows : List Measurement) : Except BenchError Table :=
  ofRows
    (.make title matmulBanner (labelLeft "dtype" 8)
      [{ header := "time(us)", width := 8, precision := 2, gap := 2 },
        { header := "GFLOP/s", width := 8, precision := 3, gap := 2 }])
    rows (fun m => m.case.dtype.name) fun m => [time m, gflops m]

/-- Thousands of floating-point operations of a product. -/
def kiloFlops (m : Measurement) : Float :=
  match m.case.geometry.matmulSizes with
  | some (a, b, c) => Throughput.matmulFlops a b c / 1e3
  | none => 0 / 1e3

def matmulVariants (title : String) (rows : List Measurement) : Except BenchError Table :=
  ofRows
    (.make title matmulBanner (labelLeft "shape (M,K)@(K,N)" 24)
      [{ header := "time(us)", width := 8, precision := 2, gap := 2 },
        { header := "GFLOP/s", width := 8, precision := 3, gap := 2 },
        { header := "flops", width := 8, precision := 0, gap := 2, suffix := " K" }])
    rows (fun m => m.case.geometry.label) fun m => [time m, gflops m, .float (kiloFlops m)]

end Report

end ArrayBench
